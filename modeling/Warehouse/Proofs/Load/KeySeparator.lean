/-
Module: Warehouse.Proofs.Load.KeySeparator
Purpose: What an expression does to a surrogate key. It is accepted if it mentions the natural keys
  and nothing else, in whatever nesting, order and case. The key is then over the values of the
  natural keys, with the first string of the expression between them; but a value is hashed as often
  as its column is mentioned, so that the key differs in its separator only where no column is
  mentioned twice.
Trusted boundary: none
Main exports: Sql.joinedKey, Sql.KeyExpr.NamesOnce, Sql.KeyExpr.OnlySeparates, Sql.KeyExpr.Rejoins,
  Dataset.withoutKeyExprs, Dataset.LoadsAlike, expression_chooses_separator_iff, not_only_separator
-/
import Warehouse.Proofs.Load.HashOrder
import Warehouse.Proofs.Sql.KeyGrammar

namespace Warehouse

open Sql

/-! ### Keys and what stands between their values -/

namespace Sql

/-- The key over some values, with `separator` between them. -/
def joinedKey (values : List Expr) (separator : String) : Expr :=
  .hash256 (.concat ((values.map nullSafe).intersperse (.str separator)))

namespace KeyExpr

/-- Whether an expression mentions no column twice. -/
def NamesOnce (e : KeyExpr) : Prop := (e.columns.map Text.asciiLower).Nodup

/-- Whether the key by an expression is the key without it, but for the separator of the expression
in the place of the default separator. -/
def OnlySeparates (e : KeyExpr) (key plain : Expr) : Prop :=
  ∃ values, key = joinedKey values (e.separator?.getD defaultSeparator) ∧
    plain = joinedKey values defaultSeparator

/-- What an expression makes of the key that is `plain` without it: a key over the same values, with
its own separator between them. Nothing else is different exactly if it mentions no column twice. -/
structure Rejoins (e : KeyExpr) (key plain : Expr) : Prop where
  sameValues : ∃ values values', key = joinedKey values (e.separator?.getD defaultSeparator) ∧
    plain = joinedKey values' defaultSeparator ∧ ∀ v, v ∈ values ↔ v ∈ values'
  onlySeparates_iff : e.OnlySeparates key plain ↔ e.NamesOnce

end KeyExpr

/-- Two joins that are the same text join as many values. -/
theorem length_eq_of_joinedKey_eq {values values' : List Expr} {separator separator' : String}
    (same : joinedKey values separator = joinedKey values' separator') :
    values.length = values'.length := by
  simp only [joinedKey, Expr.hash256.injEq, Expr.concat.injEq] at same
  have lengths := congrArg List.length same
  rw [List.length_intersperse, List.length_intersperse, List.length_map, List.length_map] at lengths
  omega

/-- The key over components in the order of their names. -/
theorem hashComponents_eq_ok_iff {components : List HashComponent} {separator : String}
    {key : Expr} : hashComponents components separator = .ok key ↔
      components ≠ [] ∧
      key = joinedKey ((sortByName components).map HashComponent.expr) separator := by
  rw [hashComponents, joinedKey, List.map_map]
  cases components with
  | nil => simp
  | cons c components => simp [Function.comp_def, eq_comm]

end Sql

/-! ### Names that are compared as sets -/

section

variable {e : KeyExpr} {names keys : List String}

/-- Names that are compared as one set with distinct names are the same names if they are as
many. -/
theorem perm_of_length_eq (distinct : (keys.map Text.asciiLower).Nodup)
    (same : normalisedNames names = normalisedNames keys) (lengths : names.length = keys.length) :
    (names.map Text.asciiLower).Perm (keys.map Text.asciiLower) := by
  have within : (keys.map Text.asciiLower).Subperm (names.map Text.asciiLower) :=
    List.subperm_of_subset distinct fun l member => (normalisedNames_eq_iff.mp same l).mpr member
  exact (within.perm_of_length_le (by simp [lengths])).symm

/-- The names of a key expression are those of the natural keys, each once, just if the one list is
the other up to order and case. -/
theorem namesOnce_iff_perm (distinct : (keys.map Text.asciiLower).Nodup)
    (same : normalisedNames e.columns = normalisedNames keys) :
    e.NamesOnce ↔ (e.columns.map Text.asciiLower).Perm (keys.map Text.asciiLower) := by
  constructor
  · intro once
    exact (List.perm_ext_iff_of_nodup once distinct).mpr (normalisedNames_eq_iff.mp same)
  · intro perm
    exact perm.nodup_iff.mpr distinct

end

namespace Dataset

variable {d : Dataset}

/-! ### The components of a key -/

/-- The component of the column whose name is `lowered` in small letters, if it can be read. -/
def componentNamed? (d : Dataset) (input : Option DatasetKey) (lowered : String) :
    Option HashComponent :=
  (d.columns.find? fun c => Text.asciiLower c.name == lowered).bind fun c =>
    (sourceValue d c input).toOption.map fun value => ⟨c.name, value⟩

/-- The component of a column depends on its name in small letters. -/
theorem component_eq_ok_iff {input : Option DatasetKey} {name : String} {a : HashComponent} :
    d.component input name = .ok a ↔ d.componentNamed? input (Text.asciiLower name) = some a := by
  rw [Dataset.component, componentNamed?]
  show _ ↔ (d.column? name).bind _ = some a
  cases d.column? name with
  | none => simp
  | some c => cases read :
    sourceValue d c input <;> simp [Except.toOption, bind, Except.bind, pure, Except.pure, read]

/-- How a surrogate key is made: the values of its names, in the order of the names, with the
separator between. -/
theorem surrogateKeyValue_eq_ok_iff {c : Column} {input : Option DatasetKey} {key : Expr} :
    surrogateKeyValue d c input = .ok key ↔ ∃ names separator components,
      surrogateParts d c = .ok (names, separator) ∧
      names.mapM (d.component input) = .ok components ∧
      components ≠ [] ∧
      key = joinedKey ((sortByName components).map HashComponent.expr) separator := by
  simp only [surrogateKeyValue, bind_eq_ok_iff, Prod.exists, namedValues_eq_mapM, liftSurrogate,
    mapError_eq_ok_iff, hashComponents_eq_ok_iff, exists_and_left]

private theorem map_some_of_components {input : Option DatasetKey} {names : List String}
    {components : List HashComponent} (made : names.mapM (d.component input) = .ok components) :
    components.map some = (names.map Text.asciiLower).map (d.componentNamed? input) := by
  rw [List.map_map]
  exact map_eq_of_mapM_eq_ok made fun name _ a read => (component_eq_ok_iff.mp read).symm

/-- Components of a dataset are one for each name. -/
theorem onePerName_of_components {input : Option DatasetKey} {names : List String}
    {components : List HashComponent} (made : names.mapM (d.component input) = .ok components) :
    OnePerName components := by
  intro a member b member' same
  obtain ⟨x, -, read⟩ := exists_of_mem_right (mapM_eq_ok_iff.mp made) member
  obtain ⟨y, -, read'⟩ := exists_of_mem_right (mapM_eq_ok_iff.mp made) member'
  exact component_inj read read' same

section

variable {input : Option DatasetKey} {names keys : List String} {components : List HashComponent}

/-- Names that are compared as one set have the same components, as often as they are named. -/
theorem exists_components_of_normalisedNames_eq
    (same : normalisedNames names = normalisedNames keys)
    (made : names.mapM (d.component input) = .ok components) :
    ∃ components', keys.mapM (d.component input) = .ok components' ∧ ∀ a, a ∈ components ↔
      a ∈ components' := by
  have lowered := normalisedNames_eq_iff.mp same
  obtain ⟨components', made'⟩ : ∃ components', keys.mapM (d.component input) = .ok components' := by
    refine exists_mapM_eq_ok _ _ fun key member => ?_
    obtain ⟨name, named, agree⟩ := List.mem_map.mp ((lowered _).mpr (List.mem_map_of_mem member))
    obtain ⟨a, read⟩ := exists_of_mapM_eq_ok made named
    exact ⟨a, component_eq_ok_iff.mpr (agree ▸ component_eq_ok_iff.mp read)⟩
  have among {names : List String} {components : List HashComponent}
      (made : names.mapM (d.component input) = .ok components) (a : HashComponent) :
      a ∈ components ↔ ∃ l ∈ names.map Text.asciiLower, d.componentNamed? input l = some a := by
    rw [← List.mem_map, ← map_some_of_components made,
      List.mem_map_of_injective (Option.some_injective _)]
  exact ⟨components', made', fun a => by rw [among made, among made']; simp only [lowered]⟩

/-- The key over the columns of an expression, beside the one over the natural keys. -/
theorem rejoins_of_components {e : KeyExpr} (distinct : (keys.map Text.asciiLower).Nodup)
    (same : normalisedNames e.columns = normalisedNames keys) {components' : List HashComponent}
    (made : e.columns.mapM (d.component input) = .ok components)
    (made' : keys.mapM (d.component input) = .ok components')
    (agree : ∀ a, a ∈ components ↔ a ∈ components') :
    e.Rejoins (joinedKey ((sortByName components).map HashComponent.expr)
      (e.separator?.getD defaultSeparator))
      (joinedKey ((sortByName components').map HashComponent.expr) defaultSeparator) where
  sameValues := by
    refine ⟨_, _, rfl, rfl, fun v => ?_⟩
    simp only [List.mem_map, sortByName, List.mem_mergeSort, agree]
  onlySeparates_iff := by
    rw [namesOnce_iff_perm distinct same]
    constructor
    · -- Keys with the same values have as many components, and hence names.
      rintro ⟨values, joined, joined'⟩
      have values_length := length_eq_of_joinedKey_eq joined
      have values_length' := length_eq_of_joinedKey_eq joined'
      rw [List.length_map, sortByName, List.length_mergeSort] at values_length values_length'
      have names_length := (mapM_eq_ok_iff.mp made).length_eq
      have names_length' := (mapM_eq_ok_iff.mp made').length_eq
      exact perm_of_length_eq distinct same (by omega)
    · intro perm
      have components_perm : components.Perm components' := by
        rw [← List.map_perm_map_iff (Option.some_injective _), map_some_of_components made,
          map_some_of_components made']
        exact perm.map _
      exact ⟨_, rfl, by rw [sortByName_eq_of_perm components_perm (onePerName_of_components made)]⟩

end

end Dataset

/-! ### Datasets without expressions for their keys

Beside a dataset stands the same one without key expressions, whose keys are made of the natural
keys with the usual separator. Nothing but the keys differs between them. -/

/-- The column without an expression for the key that it holds. -/
def Column.withoutKeyExpr (c : Column) : Column := { c with surrogateExpression? := none }

/-- The expression for the key that a column holds, if it has one. -/
def Column.keyExpr? (c : Column) : Option KeyExpr :=
  match c.role? with
  | some .surrogateKey => c.surrogateExpression?.bind fun text => (KeyExpr.parse text).toOption
  | _ => none

/-- Whether `R` relates the values of a column with and without the expression that it has, and they
are the same if it has none. -/
def Column.Relates (c : Column) (R : KeyExpr → Expr → Expr → Prop) (value plain : Expr) : Prop :=
  match c.keyExpr? with
  | some e => R e value plain
  | none => value = plain

namespace Dataset

variable {d : Dataset}

/-- The dataset without expressions for its surrogate keys. -/
def withoutKeyExprs (d : Dataset) : Dataset :=
  { d with columns := d.columns.map Column.withoutKeyExpr }

private theorem orderedColumns_withoutKeyExprs (d : Dataset) :
    d.withoutKeyExprs.orderedColumns = d.orderedColumns.map Column.withoutKeyExpr := by
  symm
  rw [orderedColumns, orderedColumns, withoutKeyExprs]
  refine List.map_mergeSort fun _ _ _ _ => ?_
  rfl

private theorem hashedColumns_withoutKeyExprs (d : Dataset) :
    d.withoutKeyExprs.hashedColumns = d.hashedColumns.map Column.withoutKeyExpr := by
  have business : d.withoutKeyExprs.businessColumns =
      d.businessColumns.map Column.withoutKeyExpr := by
    rw [Dataset.businessColumns, Dataset.businessColumns, orderedColumns_withoutKeyExprs,
      List.filter_map]
    rfl
  have others :
    (d.withoutKeyExprs.businessColumns.filter fun c => ! d.withoutKeyExprs.isNaturalKey c.name) =
      (d.businessColumns.filter fun c => ! d.isNaturalKey c.name).map Column.withoutKeyExpr := by
    rw [business, List.filter_map]
    rfl
  rw [Dataset.hashedColumns, Dataset.hashedColumns, others, List.isEmpty_map, business]
  exact (apply_ite (List.map Column.withoutKeyExpr) _ _ _).symm

private theorem sourceValue_withoutKeyExprs (d : Dataset) (c : Column) (input : Option DatasetKey) :
    sourceValue d.withoutKeyExprs c.withoutKeyExpr input = sourceValue d c input := rfl

private theorem component_withoutKeyExprs (d : Dataset) (input : Option DatasetKey) :
    d.withoutKeyExprs.component input = d.component input := by
  funext name
  have found : d.withoutKeyExprs.column? name = (d.column? name).map Column.withoutKeyExpr :=
    List.find?_map
  rw [Dataset.component, Dataset.component, found]
  cases d.column? name <;> rfl

/-- The hash of a row holds no keys, so it is the same without expressions. -/
theorem rowHash_withoutKeyExprs (d : Dataset) (input : Option DatasetKey) :
    rowHash d.withoutKeyExprs (sourceValue d.withoutKeyExprs · input) =
      rowHash d (sourceValue d · input) := by
  rw [rowHash, rowHash, hashedColumns_withoutKeyExprs, List.mapM_map]
  rfl

/-! ### Values of columns -/

/-- A key by an expression, beside the key without it. -/
theorem exists_plainKey (distinct : (d.naturalKeys.map Text.asciiLower).Nodup) {c : Column}
    {text : String} (given : c.surrogateExpression? = some text) {input : Option DatasetKey}
    {key : Expr} (built : surrogateKeyValue d c input = .ok key) :
    ∃ e plain, KeyExpr.parse text = .ok e ∧
      surrogateKeyValue d.withoutKeyExprs c.withoutKeyExpr input = .ok plain ∧
      e.Rejoins key plain := by
  obtain ⟨names, separator, components, parts, made, filled, rfl⟩ :=
    surrogateKeyValue_eq_ok_iff.mp built
  rw [surrogateParts, given] at parts
  obtain ⟨e, read, checked⟩ := bind_eq_ok_iff.mp parts
  dsimp only at checked
  split at checked
  case isFalse => cases checked
  case isTrue same =>
    cases checked
    obtain ⟨components', made', agree⟩ := exists_components_of_normalisedNames_eq same made
    have filled' : components' ≠ [] := by
      obtain ⟨a, member⟩ := List.exists_mem_of_ne_nil _ filled
      exact List.ne_nil_of_mem ((agree a).mp member)
    refine ⟨e, _, mapError_eq_ok_iff.mp read, ?_,
      rejoins_of_components distinct same made made' agree⟩
    rw [← component_withoutKeyExprs] at made'
    exact surrogateKeyValue_eq_ok_iff.mpr ⟨_, _, components', rfl, made', filled', rfl⟩

/-- Without an expression there is nothing to leave out. -/
theorem surrogateKeyValue_withoutKeyExprs {c : Column} (none : c.surrogateExpression? = none)
    (input : Option DatasetKey) :
    surrogateKeyValue d.withoutKeyExprs c.withoutKeyExpr input = surrogateKeyValue d c input := by
  have parts : surrogateParts d.withoutKeyExprs c.withoutKeyExpr = surrogateParts d c := by
    rw [surrogateParts, surrogateParts, none]
    rfl
  rw [surrogateKeyValue, surrogateKeyValue, parts]
  simp only [namedValues_eq_mapM, component_withoutKeyExprs]

/-- Any other column has the same value without expressions. -/
theorem columnValue_withoutKeyExprs {c : Column} (data : c.role? ≠ some .surrogateKey)
    (input : Option DatasetKey) :
    columnValue d.withoutKeyExprs input c.withoutKeyExpr = columnValue d input c := by
  have role : c.withoutKeyExpr.role? = c.role? := rfl
  have empty : typedNull c.withoutKeyExpr = typedNull c := by
    have type : c.withoutKeyExpr.type? = c.type? := by
      rw [Column.type?, Column.type?]
      rfl
    rw [typedNull, typedNull, type]
  rw [columnValue.eq_def, columnValue.eq_def, role, rowHash_withoutKeyExprs,
    sourceValue_withoutKeyExprs, empty]
  split
  · next key => exact absurd key data
  all_goals rfl

/-- Each value has a plain one beside it, and both join the same values if the column is a key. -/
theorem exists_plainValue (distinct : (d.naturalKeys.map Text.asciiLower).Nodup) {c : Column}
    {input : Option DatasetKey} {value : Expr} (filled : columnValue d input c = .ok value) :
    ∃ plain, columnValue d.withoutKeyExprs input c.withoutKeyExpr = .ok plain ∧
      c.Relates KeyExpr.Rejoins value plain := by
  by_cases key : c.role? = some .surrogateKey
  · have key' : c.withoutKeyExpr.role? = some .surrogateKey := key
    rw [columnValue, key] at filled
    rw [columnValue, key']
    dsimp only at filled ⊢
    cases given : c.surrogateExpression? with
    | none =>
      refine ⟨value, by rwa [surrogateKeyValue_withoutKeyExprs given], ?_⟩
      rw [Column.Relates, Column.keyExpr?, key, given]
      rfl
    | some text =>
      obtain ⟨e, plain, read, built, rejoins⟩ := exists_plainKey distinct given filled
      refine ⟨plain, built, ?_⟩
      rw [Column.Relates, Column.keyExpr?, key, given, Option.bind_some, read]
      exact rejoins
  · have other : c.keyExpr? = none := by
      rw [Column.keyExpr?]
      split
      · contradiction
      · rfl
    refine ⟨value, by rwa [columnValue_withoutKeyExprs key], ?_⟩
    rw [Column.Relates, other]

/-! ### Queries -/

/-- The query that maps the columns of `table` to those of the dataset, whose values are given in
order. -/
def loadQuery (d : Dataset) (table : ObjectName) (applyFilter : Bool) (values : List Expr) :
    SourceQuery where
  columns := d.orderedColumns.map Column.name
  plan := .select
    { distinct := false
      items := List.zipWith (fun c value => ⟨value, some c.name⟩) d.orderedColumns values
      source := some (.table ⟨table, some loadAlias⟩)
      filter := if applyFilter then d.incrementalFilter?.map Expr.raw else none
      groupBy := [] }

/-- A source without a query tree is read from its table, column by column. -/
theorem sourceQuery_eq_ok_iff_mapped {catalog : Catalog} {applyFilter : Bool} {q : SourceQuery}
    (mapped : d.queryRoot? = none) : sourceQuery catalog d applyFilter = .ok q ↔
      ∃ table input values,
      sourceTable d = .ok (table, input) ∧ d.orderedColumns.mapM (columnValue d input) =
        .ok values ∧
      q = d.loadQuery table applyFilter values := by
  have items (input : Option DatasetKey) :
      (d.orderedColumns.mapM fun c =>
        do return (⟨← columnValue d input c, some c.name⟩ : SelectItem)) =
        (d.orderedColumns.mapM (columnValue d input)).map
          (List.zipWith (fun c value => ⟨value, some c.name⟩) d.orderedColumns) :=
    mapM_zipWith (columnValue d input)
      (fun c value => (⟨value, some c.name⟩ : SelectItem)) d.orderedColumns
  simp only [sourceQuery, mapped, mappedSource, items, bind_eq_ok_iff, map_eq_ok_iff, Prod.exists]
  constructor
  · rintro ⟨table, input, sourced, _, ⟨values, filled, rfl⟩, ⟨⟩⟩
    exact ⟨table, input, values, sourced, filled, rfl⟩
  · rintro ⟨table, input, values, sourced, filled, rfl⟩
    exact ⟨table, input, sourced, _, ⟨values, filled, rfl⟩, rfl⟩

private theorem loadQuery_withoutKeyExprs (d : Dataset) :
    d.withoutKeyExprs.loadQuery = d.loadQuery := by
  funext table applyFilter values
  rw [loadQuery, loadQuery, orderedColumns_withoutKeyExprs, List.map_map, List.zipWith_map_left]
  rfl

/-- Whether the queries that load a dataset with and without expressions for its keys are the same
but for the values of the columns that have one, which `R` relates. A query of the dataset's own has
no such values. -/
structure LoadsAlike (d : Dataset) (R : KeyExpr → Expr → Expr → Prop) (applyFilter : Bool)
    (q plain : SourceQuery) : Prop where
  authored : d.queryRoot? ≠ none → q = plain
  mapped : d.queryRoot? = none → ∃ (table : ObjectName) (values : List (Expr × Expr)),
    q = d.loadQuery table applyFilter (values.map Prod.fst) ∧
    plain = d.loadQuery table applyFilter (values.map Prod.snd) ∧
    List.Forall₂ (fun c v => c.Relates R v.1 v.2) d.orderedColumns values

/-- All values have plain ones beside them. -/
theorem exists_plainValues (distinct : (d.naturalKeys.map Text.asciiLower).Nodup)
    {input : Option DatasetKey} {columns : List Column} {values : List Expr}
    (filled : columns.mapM (columnValue d input) = .ok values) :
    ∃ pairs : List (Expr × Expr), values = pairs.map Prod.fst ∧
      (columns.map Column.withoutKeyExpr).mapM (columnValue d.withoutKeyExprs input) =
        .ok (pairs.map Prod.snd) ∧
      List.Forall₂ (fun c v => c.Relates KeyExpr.Rejoins v.1 v.2) columns pairs := by
  rw [mapM_eq_ok_iff] at filled
  induction filled with
  | nil => exact ⟨[], rfl, rfl, .nil⟩
  | @cons c value columns values first _ ih =>
    obtain ⟨plain, built, rejoins⟩ := exists_plainValue distinct first
    obtain ⟨pairs, rfl, rest, each⟩ := ih
    refine ⟨(value, plain) :: pairs, rfl, ?_, .cons rejoins each⟩
    rw [List.map_cons, List.mapM_cons, built, rest]
    rfl

/-- The source has a plain one beside it. -/
theorem exists_plainQuery {catalog : Catalog} {applyFilter : Bool} {q : SourceQuery}
    (distinct : (d.naturalKeys.map Text.asciiLower).Nodup)
    (accepted : sourceQuery catalog d applyFilter = .ok q) :
    ∃ plain, sourceQuery catalog d.withoutKeyExprs applyFilter = .ok plain ∧
      d.LoadsAlike KeyExpr.Rejoins applyFilter q plain := by
  cases tree : d.queryRoot? with
  | some node =>
    have same : sourceQuery catalog d.withoutKeyExprs applyFilter =
        sourceQuery catalog d applyFilter := by
      have tree' : d.withoutKeyExprs.queryRoot? = some node := tree
      rw [sourceQuery, sourceQuery, tree, tree']
    exact ⟨q, same.trans accepted, fun _ => rfl, fun none => by rw [tree] at none; cases none⟩
  | none =>
    have tree' : d.withoutKeyExprs.queryRoot? = none := tree
    obtain ⟨table, input, values, sourced, filled, rfl⟩ :=
      (sourceQuery_eq_ok_iff_mapped tree).mp accepted
    obtain ⟨pairs, rfl, filled', each⟩ := exists_plainValues distinct filled
    refine ⟨d.loadQuery table applyFilter (pairs.map Prod.snd), ?_, fun some => absurd tree some,
      fun _ => ⟨table, pairs, rfl, rfl, each⟩⟩
    rw [← orderedColumns_withoutKeyExprs] at filled'
    rw [← loadQuery_withoutKeyExprs]
    exact (sourceQuery_eq_ok_iff_mapped tree').mpr ⟨table, input, _, sourced, filled', rfl⟩

/-- A query that loads a dataset has the values that it was made of. -/
theorem values_eq_of_loadQuery_eq {table table' : ObjectName} {applyFilter : Bool}
    {values values' : List Expr} (whole : values.length = d.orderedColumns.length)
    (whole' : values'.length = d.orderedColumns.length)
    (same : d.loadQuery table applyFilter values = d.loadQuery table' applyFilter values') :
    values = values' := by
  have read {columns : List Column} {values : List Expr} (whole : values.length = columns.length) :
      (List.zipWith (fun c value => (⟨value, some c.name⟩ : SelectItem)) columns values).map
        SelectItem.expr = values := by
    rw [← List.map_uncurry_zip_eq_zipWith, List.map_map]
    exact List.map_snd_zip whole.le
  simp only [loadQuery, SourceQuery.mk.injEq, Plan.select.injEq, Select.mk.injEq] at same
  have items := congrArg (List.map SelectItem.expr) same.2.2.1
  rwa [read whole, read whole'] at items

/-- Expressions change nothing but the separators of keys exactly if none mentions a column
twice. -/
theorem LoadsAlike.onlySeparates_iff {applyFilter : Bool} {q plain : SourceQuery}
    (alike : d.LoadsAlike KeyExpr.Rejoins applyFilter q plain) :
    d.LoadsAlike KeyExpr.OnlySeparates applyFilter q plain ↔
      (d.queryRoot? = none → ∀ c ∈ d.columns, ∀ e, c.keyExpr? = some e → e.NamesOnce) := by
  constructor
  · intro only mapped c member e given
    obtain ⟨table, values, q_eq, plain_eq, each⟩ := alike.mapped mapped
    obtain ⟨table', values', q_eq', plain_eq', each'⟩ := only.mapped mapped
    have whole := each.length_eq.symm
    have whole' := each'.length_eq.symm
    have firsts := values_eq_of_loadQuery_eq (by simpa) (by simpa) (q_eq.symm.trans q_eq')
    have seconds := values_eq_of_loadQuery_eq (by simpa) (by simpa) (plain_eq.symm.trans plain_eq')
    obtain rfl : values = values' :=
      (List.zip_of_prod firsts seconds).trans (List.zip_of_prod rfl rfl).symm
    obtain ⟨v, -, rejoins, separates⟩ :=
      exists_of_mem_right (forall₂_and_iff.mpr ⟨each, each'⟩).flip (mem_orderedColumns.mpr member)
    rw [Column.Relates, given] at rejoins separates
    exact rejoins.onlySeparates_iff.mp separates
  · intro once
    refine ⟨alike.authored, fun mapped => ?_⟩
    obtain ⟨table, values, q_eq, plain_eq, each⟩ := alike.mapped mapped
    refine ⟨table, values, q_eq, plain_eq, forall₂_imp_of_mem each fun c member v _ rejoins => ?_⟩
    rw [Column.Relates] at rejoins ⊢
    cases given : c.keyExpr? with
    | none => rwa [given] at rejoins
    | some e =>
      rw [given] at rejoins
      exact rejoins.onlySeparates_iff.mpr (once mapped c (mem_orderedColumns.mp member) e given)

end Dataset

/-- A load that accepts the expressions for the keys of a dataset is accepted without them. The key
by an expression is over the values of the natural keys. The expressions change nothing but the
separators of keys exactly if none of them mentions a column twice. -/
theorem expression_chooses_separator_iff {catalog : Catalog} {d : Dataset} {applyFilter : Bool}
    {q : SourceQuery} (distinct : (d.naturalKeys.map Text.asciiLower).Nodup)
    (accepted : sourceQuery catalog d applyFilter = .ok q) :
    ∃ plain, sourceQuery catalog d.withoutKeyExprs applyFilter = .ok plain ∧
      d.LoadsAlike KeyExpr.Rejoins applyFilter q plain ∧
      (d.LoadsAlike KeyExpr.OnlySeparates applyFilter q plain ↔
        (d.queryRoot? = none → ∀ c ∈ d.columns, ∀ e, c.keyExpr? = some e → e.NamesOnce)) := by
  obtain ⟨plain, built, alike⟩ := Dataset.exists_plainQuery distinct accepted
  exact ⟨plain, built, alike, alike.onlySeparates_iff⟩

/-! ### Orders and customers by expressions

For a dataset whose key is given by an expression that is written out, the key can be computed, and
it is the one of the expression. -/

section

variable {d : Dataset} {c : Column} {e : KeyExpr} {input : Option DatasetKey}

/-- The dataset with an expression for its surrogate keys. -/
def Dataset.keyedBy (d : Dataset) (e : KeyExpr) : Dataset :=
  { d with columns := d.columns.map fun c =>
      if c.role? = some .surrogateKey then { c with surrogateExpression? := some e.print } else c }

private theorem keyExpr?_of_print (key : c.role? = some .surrogateKey)
    (given : c.surrogateExpression? = some e.print) (whole : e.isFilled = true) :
    c.keyExpr? = some e := by
  rw [Column.keyExpr?, key, given, Option.bind_some,
    KeyExpr.parse_eq_ok_iff.mpr (KeyExpr.isWrittenAs_print whole)]
  rfl

private theorem eq_of_keyedBy {e' : KeyExpr} (whole : e.isFilled = true)
    (member : c ∈ (d.keyedBy e).columns) (given : c.keyExpr? = some e') : e' = e := by
  obtain ⟨c', -, rfl⟩ := List.mem_map.mp member
  by_cases key : c'.role? = some .surrogateKey
  · have own :=
      keyExpr?_of_print (c := { c' with surrogateExpression? := some e.print }) key rfl whole
    rw [if_pos key, own] at given
    exact (Option.some.inj given).symm
  · rw [if_neg key, Column.keyExpr?] at given
    split at given
    · contradiction
    · cases given

private theorem exists_surrogateKeyValue_of_print (given : c.surrogateExpression? = some e.print)
    (whole : e.isFilled = true) (same : normalisedNames e.columns = normalisedNames d.naturalKeys)
    {components : List HashComponent} (made : e.columns.mapM (d.component input) = .ok components)
    (filled : components ≠ []) :
    ∃ key, surrogateKeyValue d c input = .ok key := by
  have parts : surrogateParts d c = .ok (e.columns, e.separator?.getD defaultSeparator) := by
    rw [surrogateParts, given]
    dsimp only
    rw [KeyExpr.parse_eq_ok_iff.mpr (KeyExpr.isWrittenAs_print whole)]
    exact if_pos same
  exact ⟨_, Dataset.surrogateKeyValue_eq_ok_iff.mpr ⟨_, _, components, parts, made, filled, rfl⟩⟩

private theorem exists_sourceQuery_of_values {catalog : Catalog} {table : ObjectName}
    {applyFilter : Bool} (mapped : d.queryRoot? = none)
    (sourced : sourceTable d = .ok (table, input))
    (each : ∀ c ∈ d.columns, ∃ value, columnValue d input c = .ok value) :
    ∃ q, sourceQuery catalog d applyFilter = .ok q := by
  obtain ⟨values, filled⟩ :=
    exists_mapM_eq_ok (columnValue d input) d.orderedColumns fun c member =>
    each c (mem_orderedColumns.mp member)
  exact ⟨_, (Dataset.sourceQuery_eq_ok_iff_mapped mapped).mpr
    ⟨table, input, values, sourced, filled, rfl⟩⟩

end

/-- The number of an order and its shop, with a string of its own between them. -/
def orderKeyExpr : KeyExpr := .concat [.col "id", .lit "~", .col "SHOP"]

def keyedOrders : Dataset := shopOrders.keyedBy orderKeyExpr

/-- The expression mentions each natural key once, and so chooses the separator only. -/
theorem separator_chosen_for_orders : (keyedOrders.naturalKeys.map Text.asciiLower).Nodup ∧
    ∃ q plain, sourceQuery ⟨[], [], []⟩ keyedOrders false = .ok q ∧
      sourceQuery ⟨[], [], []⟩ keyedOrders.withoutKeyExprs false = .ok plain ∧
      keyedOrders.LoadsAlike KeyExpr.OnlySeparates false q plain := by
  have distinct : (keyedOrders.naturalKeys.map Text.asciiLower).Nodup := by decide +kernel
  have same : normalisedNames orderKeyExpr.columns = normalisedNames keyedOrders.naturalKeys :=
    normalisedNames_eq_iff.mpr fun lowered => by
      have names : orderKeyExpr.columns.map Text.asciiLower = ["id", "shop"] := by decide +kernel
      have keys : keyedOrders.naturalKeys.map Text.asciiLower = ["shop", "id"] := by decide +kernel
      simp [names, keys, or_comm]
  have each : ∀ c ∈ keyedOrders.columns, ∃ value,
      columnValue keyedOrders (some arrivedCustomers) c = .ok value := by
    show ∀ c ∈ [_, _, _, _, _], _
    simp only [List.forall_mem_cons]
    exact ⟨exists_surrogateKeyValue_of_print rfl rfl same rfl nofun, ⟨_, rfl⟩, ⟨_, rfl⟩, ⟨_, rfl⟩,
      ⟨_, rfl⟩, nofun⟩
  obtain ⟨q, accepted⟩ : ∃ q, sourceQuery ⟨[], [], []⟩ keyedOrders false = .ok q :=
    exists_sourceQuery_of_values rfl rfl each
  obtain ⟨plain, built, -, only_iff⟩ := expression_chooses_separator_iff distinct accepted
  refine ⟨distinct, q, plain, accepted, built, only_iff.mpr fun _ c member e given => ?_⟩
  rw [eq_of_keyedBy rfl member given, KeyExpr.NamesOnce]
  decide +kernel

/-- The number of a customer, mentioned twice. -/
def twofoldKeyExpr : KeyExpr := .concat [.col "id", .lit "~", .col "ID"]

def twofoldCustomers : Dataset := customers.keyedBy twofoldKeyExpr

/-- The expression that mentions the number of a customer twice is accepted, and the key has the
number twice. -/
theorem not_only_separator :
    ¬ ∀ (catalog : Catalog) (d : Dataset) (applyFilter : Bool) (q : SourceQuery),
    (d.naturalKeys.map Text.asciiLower).Nodup → sourceQuery catalog d applyFilter = .ok q →
      ∃ plain, sourceQuery catalog d.withoutKeyExprs applyFilter = .ok plain ∧
        d.LoadsAlike KeyExpr.OnlySeparates applyFilter q plain := by
  intro always
  have distinct : (twofoldCustomers.naturalKeys.map Text.asciiLower).Nodup := by decide +kernel
  have same : normalisedNames twofoldKeyExpr.columns =
      normalisedNames twofoldCustomers.naturalKeys :=
    normalisedNames_eq_iff.mpr fun lowered => by
      have names : twofoldKeyExpr.columns.map Text.asciiLower = ["id", "id"] := by decide +kernel
      have keys : twofoldCustomers.naturalKeys.map Text.asciiLower = ["id"] := by decide +kernel
      simp [names, keys]
  have each : ∀ c ∈ twofoldCustomers.columns,
      ∃ value, columnValue twofoldCustomers (some arrivedCustomers) c = .ok value := by
    show ∀ c ∈ [_, _, _], _
    simp only [List.forall_mem_cons]
    exact ⟨exists_surrogateKeyValue_of_print rfl rfl same rfl nofun, ⟨_, rfl⟩, ⟨_, rfl⟩, nofun⟩
  obtain ⟨q, accepted⟩ : ∃ q, sourceQuery ⟨[], [], []⟩ twofoldCustomers false = .ok q :=
    exists_sourceQuery_of_values rfl rfl each
  obtain ⟨plain, built, alike⟩ := Dataset.exists_plainQuery distinct accepted
  obtain ⟨plain', built', only⟩ := always _ _ _ q distinct accepted
  rw [built] at built'
  cases built'
  have once : twofoldKeyExpr.NamesOnce :=
    alike.onlySeparates_iff.mp only rfl _ List.mem_cons_self _ (keyExpr?_of_print rfl rfl rfl)
  revert once
  rw [KeyExpr.NamesOnce]
  decide +kernel

end Warehouse
