/-
Module: Warehouse.Proofs.Load.SourceRows
Purpose: The rows that a load reads from the table of its input: one for each row that the
  incremental filter lets through, with the cells that the columns ask for. The natural key of such
  a row is the one that the input's row has in the columns which feed the keys.
Trusted boundary: none
Main exports: loadedCell, loadedRow, inputKey, FedKeys, mappedSource_spec, get_loadedRow,
  get_loadedRow_of_key
-/
import Warehouse.Load.Source
import Warehouse.Proofs.Catalog.Columns
import Warehouse.Proofs.Results
import Warehouse.Proofs.Sql.Change
import Warehouse.Proofs.Sql.KeyHash
import Warehouse.Proofs.Sql.Tables

namespace Warehouse

open Sql

variable {V : Type} [LinearOrder V]

/-! ### Expressions for columns

What a load puts into its columns is computed from one row of the input alone: no expression looks
at other tables, so it has the same value wherever the row is read. -/

/-- The value of a column is computed from its row. -/
theorem isLocal_sourceValue {d : Dataset} {c : Column} {input : Option DatasetKey} {e : Expr}
    (built : sourceValue d c input = .ok e) : e.isLocal = true := by
  unfold sourceValue at built
  split at built
  · cases built
    rfl
  · split at built
    · cases built
      rfl
    · cases built

private theorem isLocal_namedValues {d : Dataset} {input : Option DatasetKey} {names : List String}
    {components : List HashComponent} (built : namedValues d input names = .ok components) :
    ∀ c ∈ components, c.expr.isLocal = true := by
  induction names generalizing components with
  | nil =>
    cases built
    simp
  | cons name rest ih =>
    unfold namedValues at built
    split at built
    · cases built
    · obtain ⟨value, first, built⟩ := bind_eq_ok_iff.mp built
      obtain ⟨others, later, built⟩ := bind_eq_ok_iff.mp built
      cases built
      rw [List.forall_mem_cons]
      exact ⟨isLocal_sourceValue first, ih later⟩

/-- The hash of a row is computed from it if the values of its columns are. -/
theorem isLocal_rowHash {d : Dataset} {value : Column → Except LoadError Expr} {e : Expr}
    (reads : ∀ c v, value c = .ok v → v.isLocal = true) (built : rowHash d value = .ok e) :
    e.isLocal = true := by
  obtain ⟨components, named, hashed⟩ := bind_eq_ok_iff.mp built
  refine isLocal_hashComponents (mapError_eq_ok_iff.mp hashed)
    (forall_of_mapM_eq_ok named fun c _ component built => ?_)
  obtain ⟨v, value, built⟩ := bind_eq_ok_iff.mp built
  cases built
  exact reads c v value

/-- What a load puts into a column is read from the row of the input. -/
theorem isLocal_columnValue {d : Dataset} {input : Option DatasetKey} {c : Column} {e : Expr}
    (built : columnValue d input c = .ok e) : e.isLocal = true := by
  unfold columnValue at built
  split at built
  · obtain ⟨parts, _, built⟩ := bind_eq_ok_iff.mp built
    obtain ⟨components, named, hashed⟩ := bind_eq_ok_iff.mp built
    exact isLocal_hashComponents (mapError_eq_ok_iff.mp hashed) (isLocal_namedValues named)
  · exact isLocal_rowHash (fun c v => isLocal_sourceValue) built
  · cases built
    rfl
  · cases built
    rfl
  · split at built
    · next value =>
      cases built
      exact isLocal_sourceValue value
    · cases built
      unfold typedNull
      split <;> rfl

/-! ### Rows of the source -/

/-- What a load puts into a column for a row of the input. -/
def loadedCell (w : World V) (d : Dataset) (input : DatasetKey) (u : Row V) (c : Column) :
    Option V :=
  (columnValue d (some input) c).toOption.bind fun e =>
    (e.eval w [(⟨none, loadAlias⟩, u)]).value w.engine

/-- What a load reads for a row of the input. -/
def loadedRow (w : World V) (d : Dataset) (input : DatasetKey) (u : Row V) : Row V :=
  .ofPairs (d.orderedColumns.map fun c => (c.name, loadedCell w d input u c))

/-- Whether the incremental filter lets a row of the input through. -/
def inWindow (w : World V) (d : Dataset) (u : Row V) : Bool :=
  Expr.passes w (d.incrementalFilter?.map Expr.raw) [(⟨none, loadAlias⟩, u)]

/-- The query of a load, item by item. -/
theorem mappedSource_eq {d : Dataset} {input : DatasetKey} {source : SourceQuery}
    (primary : d.primaryInput? = some input) (built : mappedSource d true = .ok source) :
    ∃ items : List SelectItem,
      (d.orderedColumns.mapM fun c => do
        return (⟨← columnValue d (some input) c, some c.name⟩ : SelectItem)) = .ok items ∧
      source = ⟨d.orderedColumns.map Column.name, .select ⟨false, items,
        some (.table ⟨input.objectName, some loadAlias⟩),
        d.incrementalFilter?.map Expr.raw, []⟩⟩ := by
  have table_eq : sourceTable d = .ok (input.objectName, some input) := by
    unfold sourceTable
    rw [primary]
    rfl
  unfold mappedSource at built
  rw [table_eq] at built
  obtain ⟨_, same, built⟩ := bind_eq_ok_iff.mp built
  cases same
  obtain ⟨items, mapped, rest⟩ := bind_eq_ok_iff.mp built
  cases rest
  exact ⟨items, mapped, rfl⟩

/-- An item that is made of a column has its value and its name. -/
theorem item_of_columnValue {d : Dataset} {input : DatasetKey} {c : Column} {i : SelectItem}
    (built : (do return (⟨← columnValue d (some input) c, some c.name⟩ : SelectItem)) = .ok i) :
    columnValue d (some input) c = .ok i.expr ∧ i.alias? = some c.name := by
  obtain ⟨e, value, same⟩ := bind_eq_ok_iff.mp built
  cases same
  exact ⟨value, rfl⟩

/-- The query of a load fills the columns of the dataset with the rows that the filter lets
through. -/
theorem mappedSource_spec (w : World V) {d : Dataset} {input : DatasetKey} {source : SourceQuery}
    (primary : d.primaryInput? = some input) (built : mappedSource d true = .ok source) :
    source.columns = d.orderedColumns.map Column.name ∧
      sourceRows w source.plan =
        ((w.tables input.objectName).filter (inWindow w d)).map (loadedRow w d input) := by
  obtain ⟨items, mapped, rfl⟩ := mappedSource_eq primary built
  refine ⟨rfl, ?_⟩
  have cells (u : Row V) :
      items.map (fun i => (i.expr.eval w [(⟨none, loadAlias⟩, u)]).value w.engine) =
        d.orderedColumns.map (loadedCell w d input u) :=
    map_eq_of_mapM_eq_ok mapped fun c _ i item => by
      simp [loadedCell, (item_of_columnValue item).1, Except.toOption]
  have names : items.map SelectItem.outputName? = d.orderedColumns.map fun c => some c.name :=
    map_eq_of_mapM_eq_ok mapped fun c _ i item => by
      rw [SelectItem.outputName?, (item_of_columnValue item).2]
  have rowwise : ∀ i ∈ items, i.expr.isRowwise = true :=
    forall_of_mapM_eq_ok mapped fun c _ i item =>
      i.expr.isRowwise_of_isLocal (isLocal_columnValue (item_of_columnValue item).1)
  rw [sourceRows, Source.frames, Plan.rows, Select.rows_of_isRowwise w
    (by simpa [Select.isRowwise] using rowwise) rfl]
  simp only [Source.scopes, Source.frames, List.map_map, List.filter_map, Option.map_some,
    Option.getD_some]
  refine List.map_congr_left fun u _ => ?_
  simp only [Function.comp_apply, Plan.outputNames, Plan.head?, names, cells, List.zip_map']
  simp [List.filterMap_map, loadedRow]

/-- The query reads the same rows wherever the table of its input is the same. -/
theorem rows_mappedSource_congr {w w' : World V} {d : Dataset} {input : DatasetKey}
    {source : SourceQuery} (primary : d.primaryInput? = some input)
    (built : mappedSource d true = .ok source) (engine : w'.engine = w.engine)
    (placeholder : w'.placeholder = w.placeholder)
    (table : w'.tables input.objectName = w.tables input.objectName) :
    source.plan.rows w' [] = source.plan.rows w [] := by
  obtain ⟨items, mapped, rfl⟩ := mappedSource_eq primary built
  refine Select.rows_congr engine placeholder table (forall_of_mapM_eq_ok mapped fun c _ i item =>
    isLocal_columnValue (item_of_columnValue item).1) ?_ []
  intro e filter
  obtain ⟨text, _, rfl⟩ := Option.map_eq_some_iff.mp filter
  rfl

/-! ### Keys of the input -/

/-- The natural key that a row of the input has, in the columns of the dataset. -/
def inputKey (d : Dataset) (input : DatasetKey) (u : Row V) : Row V :=
  .ofPairs (d.naturalKeys.map fun k => (k, ((d.column? k).bind (·.sourceIn? input)).bind u.get))

/-- The natural keys are data, and fed from the input. -/
def FedKeys (d : Dataset) (input : DatasetKey) : Prop :=
  ∀ k ∈ d.naturalKeys, ∃ c ∈ d.columns, Text.sameIgnoringAsciiCase c.name k = true ∧
    c.isBusiness = true ∧ (c.sourceIn? input).isSome = true

omit [LinearOrder V] in
/-- The key of an input row is what it has in the columns that feed the natural keys. -/
theorem get_inputKey {d : Dataset} (input : DatasetKey) (u : Row V) {k : String}
    (key : k ∈ d.naturalKeys) :
    (inputKey d input u).get k = ((d.column? k).bind (·.sourceIn? input)).bind u.get := by
  apply Row.get_ofPairs_map
  · exact ⟨k, key, by simp [Text.sameIgnoringAsciiCase]⟩
  · intro k' _ same
    rw [column?_congr d same]

section

variable {d : Dataset} (distinct : d.DistinctNames) (w : World V) (input : DatasetKey) (u : Row V)

include distinct

/-- A column holds what the load puts into it. -/
theorem get_loadedRow {c : Column} (member : c ∈ d.columns) {name : String}
    (same : Text.sameIgnoringAsciiCase c.name name = true) :
    (loadedRow w d input u).get name = loadedCell w d input u c := by
  apply Row.get_ofPairs_map
  · exact ⟨c, mem_orderedColumns.mpr member, same⟩
  · intro c' member' same'
    rw [distinct.eq (mem_orderedColumns.mp member') member (same_trans same' (by rwa [same_comm]))]

/-- The natural key of a row that is read is that of the row of the input. -/
theorem get_loadedRow_of_key (fed : FedKeys d input) {k : String} (key : k ∈ d.naturalKeys) :
    (loadedRow w d input u).get k = (inputKey d input u).get k := by
  obtain ⟨c, member, same, business, feeds⟩ := fed k key
  obtain ⟨column, source⟩ := Option.isSome_iff_exists.mp feeds
  have value : columnValue d (some input) c = .ok (.colOf loadAlias column) := by
    have reads : sourceValue d c (some input) = .ok (.colOf loadAlias column) := by
      simp [sourceValue, source]
    unfold columnValue
    unfold Column.isBusiness at business
    cases role : c.role? with
    | none => simp [reads]
    | some r => cases r <;> simp_all [SystemRole.isBusiness]
  rw [get_loadedRow distinct w input u member same, get_inputKey input u key,
    column?_eq_some distinct member same]
  simp [loadedCell, value, Except.toOption, source, Expr.colOf, Expr.eval, Scope.find]

end

end Warehouse
