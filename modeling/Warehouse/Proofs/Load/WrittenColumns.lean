/-
Module: Warehouse.Proofs.Load.WrittenColumns
Purpose: Whether the columns that a load writes and joins on exist. Natural keys, the columns that
  are declared, the contract of a query tree and the columns of a version are lists of their own,
  and a load takes each as it stands; which columns its statements fill and compare is told first,
  and then when those are there.
Trusted boundary: none
Main exports: Statement.written, Statement.joined, NamesExist, Dataset.filled,
  LoadColumns.namesExist_iff, ColumnsSuffice, names_exist_iff, Dataset.IsShadowOf.columnsSuffice
-/
import Warehouse.Proofs.Catalog.QueryOutputs
import Warehouse.Proofs.Load.ColumnOrder
import Warehouse.Proofs.Load.Reads

namespace Warehouse

open Sql

/-! ### Columns of statements

Which columns a statement writes into its target, and by which it compares the target with what it
loads. Both are read off the statement as it will be written. -/

namespace Sql

/-- The columns of the table `target` that an expression compares with others, also in a query in
it. -/
def Expr.compared (target : ObjectName) : Expr → List String
  | .binary left .and right => left.compared target ++ right.compared target
  | .binary _ .eq (.column (some table) name) => if table = target then [name] else []
  | .exists (.select ⟨_, _, _, some condition, _⟩) _ => condition.compared target
  | _ => []

namespace Statement

/-- The columns that a statement fills. -/
def written : Statement → List String
  | .insert s => s.columns
  | .update s => s.assignments.map Prod.fst
  | .merge s => s.updatable ++ s.insertColumns
  | .definition _ | .delete _ => []

/-- The columns of its table by which a load finds the rows that it has already: a merge those of
the `ON` predicate, a delete those that it compares with the input. -/
def joined : Statement → List String
  | .merge s => s.keys
  | .delete s => s.filter.elim [] (Expr.compared s.target)
  | .definition _ | .insert _ | .update _ => []

end Statement

end Sql

/-- The columns that the source query of a load fills: those of the contract of the query tree, or
else all. -/
def Dataset.filled (c : Catalog) (d : Dataset) : List String :=
  match d.queryRoot? with
  | some root => (c.queryGraph.inferContract c root).toOption.elim [] Contract.columns
  | none => d.orderedColumns.map Column.name

/-- The columns of a version that end it. -/
def versionEndColumns : List String := ["version_ended_at", "version_state"]

/-- The columns that the statements of a load fill. -/
def Dataset.written (c : Catalog) (d : Dataset) : LoadMode → List String
  | .view => []
  | .historize => versionEndColumns ++ d.orderedColumns.map Column.name
  | .full | .append | .snapshot | .merge => d.filled c

/-- The columns by which the statements of a load find rows: only a merge does, by the natural
keys. -/
def Dataset.joined (d : Dataset) : LoadMode → List String
  | .merge => d.naturalKeys
  | _ => []

section

variable {c : Catalog} {d : Dataset} {plan : LoadPlan} {transactional : Bool}
    {planned : List Planned}

/-! ### Source queries -/

/-- A source has a column for each of the dataset, in order. -/
theorem mappedSource_outputs {applyFilter : Bool} {source : SourceQuery}
    (made : mappedSource d applyFilter = .ok source) (layout : Layout) :
    source.columns = d.orderedColumns.map Column.name ∧
      source.plan.outputs layout = source.columns.map some := by
  obtain ⟨⟨table, input⟩, _, made⟩ := bind_eq_ok_iff.mp made
  obtain ⟨items, built, made⟩ := bind_eq_ok_iff.mp made
  cases made
  refine ⟨rfl, ?_⟩
  dsimp only
  rw [Plan.outputs, Select.outputs, List.flatMap_def]
  have each (from_ : Option String) (columns : List (Option String)) :
      items.map (SelectItem.outputs from_ columns) = d.orderedColumns.map fun c => [some c.name] :=
    map_eq_of_mapM_eq_ok built fun c _ i made => by
      obtain ⟨e, _, same⟩ := bind_eq_ok_iff.mp made
      cases same
      exact SelectItem.outputs_of_named rfl
  rw [each, ← List.flatMap_def, List.map_map]
  exact List.map_eq_flatMap.symm

/-- A source query returns the columns that it fills. -/
theorem sourceQuery_outputs {applyFilter : Bool} {source : SourceQuery}
    (made : sourceQuery c d applyFilter = .ok source) :
    source.columns = d.filled c ∧ source.plan.outputs c.declared = (d.filled c).map some := by
  rw [Dataset.filled]
  cases tree : d.queryRoot? with
  | none =>
    rw [sourceQuery, tree] at made
    obtain ⟨columns, returns⟩ := mappedSource_outputs made c.declared
    exact ⟨columns, columns ▸ returns⟩
  | some root =>
    obtain ⟨clean, planned⟩ := (sourceQuery_eq_ok_iff tree).mp made
    obtain ⟨p, planned', returns⟩ := QueryGraph.exists_planAt_of_inferContract clean
    cases planned.symm.trans planned'
    dsimp only
    rw [clean]
    exact ⟨rfl, returns⟩

/-! ### What is compared -/

/-- A conjunction compares what its parts compare. -/
theorem compared_foldl_and {target : ObjectName} (first : Expr) (rest : List Expr) :
    (rest.foldl Expr.and first).compared target =
      first.compared target ++ rest.flatMap (Expr.compared target) := by
  induction rest generalizing first with
  | nil => simp
  | cons e rest ih =>
    rw [List.foldl_cons, ih, Expr.and, Expr.compared, List.append_assoc, List.flatMap_cons]

private theorem compared_andAll {target : ObjectName} (es : List Expr) :
    (Expr.andAll es).elim [] (Expr.compared target) = es.flatMap (Expr.compared target) := by
  cases es with
  | nil => rfl
  | cons first rest => exact compared_foldl_and first rest

/-- The match of keys compares the natural keys. -/
theorem compared_keyMatches {input : DatasetKey} {keys : List String} {join : List Expr}
    (made : keyMatches d input keys = .ok join) :
    join.flatMap (Expr.compared d.objectName) = keys := by
  induction keys generalizing join with
  | nil =>
    cases made
    rfl
  | cons key rest ih =>
    rw [keyMatches] at made
    split at made
    · cases made
    · obtain ⟨others, later, made⟩ := bind_eq_ok_iff.mp made
      cases made
      rw [List.flatMap_cons, ih later]
      simp [Expr.compared, Expr.eq]

private theorem compared_windowCondition {input : Dataset} {filter : String} {e : Expr}
    {target : ObjectName} (made : windowCondition d input filter = .ok e) :
    e.compared target = [] := by
  simp only [windowCondition] at made
  split at made
  · cases made
    rfl
  · cases made

/-- A delete compares the natural keys with the input, and an incremental filter is taken as
text. -/
theorem joined_deleteDetection {delete : Delete} (made : deleteDetection c d = .ok delete) :
    (Statement.delete delete).joined = d.naturalKeys := by
  obtain ⟨input, primary, known⟩ := exists_input_of_deleteDetection made
  obtain ⟨join, matched, rfl⟩ := deleteDetection_eq primary known made
  have keys (body : Select) (filter : body.filter = Expr.andAll join) :
      (Expr.exists (.select body) true).compared d.objectName = d.naturalKeys := by
    obtain ⟨distinct, items, source, condition?, groupBy⟩ := body
    obtain rfl : condition? = Expr.andAll join := filter
    rw [← compared_keyMatches matched, ← compared_andAll]
    cases Expr.andAll join <;> rfl
  cases window : d.incrementalFilter?.bind fun filter =>
    (windowCondition d input filter).toOption with
  | none => exact keys _ rfl
  | some e =>
    obtain ⟨filter, _, made⟩ := Option.bind_eq_some_iff.mp window
    have silent : e.compared d.objectName = [] := by
      cases condition : windowCondition d input filter with
      | error _ =>
        rw [condition] at made
        cases made
      | ok e' =>
        rw [condition] at made
        cases made
        exact compared_windowCondition condition
    change (Expr.binary e .and _).compared d.objectName = d.naturalKeys
    rw [Expr.compared, silent, List.nil_append]
    exact keys _ rfl

/-! ### Loads -/

private theorem written_mergeInto {source : SourceQuery} {n : String} :
    n ∈ (Statement.merge (mergeInto d source transactional)).written ↔ n ∈ source.columns := by
  rw [Statement.written, List.mem_append]
  constructor
  · rintro (updated | inserted)
    · exact (List.mem_filter.mp (List.mem_filter.mp updated).1).1
    · exact inserted
  · exact .inr

/-- The history of a shadow ends versions and fills all columns of the new ones. -/
theorem written_historyStatements {statements : List Statement}
    (made : historyStatements c d = .ok statements) {n : String} :
    (∃ s ∈ statements, n ∈ s.written) ↔ n ∈ d.written c .historize := by
  obtain ⟨h, hash, changed, new, rfl, _, _, third, fourth, rfl⟩ :=
    exists_history_of_historyStatements made
  have changedColumns := (History.of_insertVersions third).2
  have newColumns := (History.of_insertVersions fourth).2
  have ended : (Statement.update (h.closeChanged hash)).written = ["version_ended_at"] := rfl
  have deleted : (Statement.update h.closeDeleted).written = versionEndColumns := rfl
  simp only [List.exists_mem_cons_iff, List.not_mem_nil, false_and, exists_false, or_false,
    ended, deleted]
  simp only [Statement.written, changedColumns, newColumns, or_self, Dataset.written,
    List.mem_append]
  constructor
  · rintro (one | version | column)
    · exact .inl (List.mem_singleton.mp one ▸ List.mem_cons_self)
    · exact .inl version
    · exact .inr column
  · rintro (version | column)
    · exact .inr (.inl version)
    · exact .inr (.inr column)

/-- The statements of a history compare no columns with a source. -/
theorem joined_historyStatements {statements : List Statement}
    (made : historyStatements c d = .ok statements) : ∀ s ∈ statements, s.joined = [] := by
  obtain ⟨h, hash, changed, new, rfl, _, _, _, _, rfl⟩ := exists_history_of_historyStatements made
  simp [Statement.joined]

/-- What the statements of a load in some mode fill and compare, and that a merge returns what it
fills. -/
structure LoadColumns (c : Catalog) (d : Dataset) (mode : LoadMode) (planned : List Planned) :
    Prop where
  written : ∀ n, (∃ s, .ok s ∈ planned ∧ n ∈ s.written) ↔ n ∈ d.written c mode
  joined : ∀ n, (∃ s, .ok s ∈ planned ∧ n ∈ s.joined) ↔ n ∈ d.joined mode
  merges : mode = .merge → ∃ m, .ok (.merge m) ∈ planned
  source : ∀ m, .ok (.merge m) ∈ planned → m.source.outputs c.declared = (d.filled c).map some

/-- An insert of the source query, after statements that fill nothing. -/
theorem loadColumns_insertInto {mode : LoadMode}
    (single : mode = .full ∨ mode = .append ∨ mode = .snapshot) {applyFilter : Bool}
    {source : SourceQuery} (sourced : sourceQuery c d applyFilter = .ok source)
    (before : List Planned) (silent : ∀ p ∈ before, ∃ statement, p = .ok (.definition statement)) :
    LoadColumns c d mode (before ++ [.ok (.insert (insertInto d source))]) := by
  have columns := (sourceQuery_outputs sourced).1
  have inserts : d.written c mode = d.filled c := by rcases single with rfl | rfl | rfl <;> rfl
  have keyless : d.joined mode = [] := by rcases single with rfl | rfl | rfl <;> rfl
  have only (s : Statement) (member : .ok s ∈ before ++ [.ok (.insert (insertInto d source))]) :
      (∃ statement, s = .definition statement) ∨ s = .insert (insertInto d source) := by
    rcases List.mem_append.mp member with first | last
    · obtain ⟨statement, same⟩ := silent _ first
      exact .inl ⟨statement, Except.ok.inj same⟩
    · exact .inr (Except.ok.inj (List.mem_singleton.mp last))
  constructor
  case written =>
    intro n
    rw [inserts, ← columns]
    constructor
    · intro ⟨s, member, filled⟩
      rcases only s member with ⟨_, rfl⟩ | rfl
      · cases filled
      · exact filled
    · intro filled
      exact ⟨_, List.mem_append_right _ (List.mem_singleton_self _), filled⟩
  case joined =>
    intro n
    rw [keyless]
    constructor
    · intro ⟨s, member, compared⟩
      rcases only s member with ⟨_, rfl⟩ | rfl <;> cases compared
    · intro none
      cases none
  case merges =>
    rintro rfl
    rcases single with other | other | other <;> cases other
  case source =>
    intro m member
    rcases only _ member with ⟨_, same⟩ | same <;> cases same

/-- A merge of the source query, and a delete if one is detected. -/
theorem loadColumns_mergeInto {applyFilter : Bool} {source : SourceQuery}
    (sourced : sourceQuery c d applyFilter = .ok source) (deletes : Bool) :
    LoadColumns c d .merge (.ok (.merge (mergeInto d source transactional)) ::
      if deletes then [(deleteDetection c d).map .delete] else []) := by
  obtain ⟨columns, returns⟩ := sourceQuery_outputs sourced
  have only (s : Statement) (member : .ok s ∈ .ok (.merge (mergeInto d source transactional)) ::
      if deletes then [(deleteDetection c d).map .delete] else []) :
      s = .merge (mergeInto d source transactional) ∨
        ∃ delete, s = .delete delete ∧ deleteDetection c d = .ok delete := by
    rcases List.mem_cons.mp member with merged | member
    · exact .inl (Except.ok.inj merged)
    · split at member
      · cases detected : deleteDetection c d with
        | error _ =>
          rw [detected] at member
          cases List.mem_singleton.mp member
        | ok delete =>
          rw [detected] at member
          exact .inr ⟨delete, Except.ok.inj (List.mem_singleton.mp member), rfl⟩
      · cases member
  constructor
  case written =>
    intro n
    rw [Dataset.written, ← columns]
    constructor
    · intro ⟨s, member, filled⟩
      rcases only s member with rfl | ⟨_, rfl, _⟩
      · exact written_mergeInto.mp filled
      · cases filled
    · intro filled
      exact ⟨_, List.mem_cons_self, written_mergeInto.mpr filled⟩
  case joined =>
    intro n
    rw [Dataset.joined]
    constructor
    · intro ⟨s, member, compared⟩
      rcases only s member with rfl | ⟨_, rfl, detected⟩
      · exact compared
      · rw [joined_deleteDetection detected] at compared
        exact compared
    · intro compared
      exact ⟨_, List.mem_cons_self, compared⟩
  case merges => exact fun _ => ⟨_, List.mem_cons_self⟩
  case source =>
    intro m member
    rcases only _ member with same | ⟨_, same, _⟩
    · cases same
      exact returns
    · cases same

private theorem mem_map_ok {s : Statement} {statements : List Statement} :
    (.ok s : Planned) ∈ statements.map .ok ↔ s ∈ statements := by
  simp

/-- The upkeep of a shadow, which merges nothing. -/
theorem loadColumns_history {statements : List Statement}
    (made : historyStatements c d = .ok statements) :
    LoadColumns c d .historize (statements.map .ok) := by
  constructor
  case written =>
    intro n
    simp only [mem_map_ok]
    exact written_historyStatements made
  case joined =>
    intro n
    constructor
    · intro ⟨s, member, compared⟩
      rw [joined_historyStatements made s (mem_map_ok.mp member)] at compared
      cases compared
    · intro none
      cases none
  case merges => exact fun other => by cases other
  case source =>
    intro m member
    obtain ⟨_, _, _, _, _, _, _, _, _, rfl⟩ := exists_history_of_historyStatements made
    simp at member

/-- What the statements of a load fill and compare depends on its mode. -/
theorem loadColumns_of_loadStatements (made : loadStatements c d plan transactional = .ok planned) :
    LoadColumns c d plan.mode planned := by
  cases mode : plan.mode with
  | view =>
    simp only [loadStatements, mode] at made
    obtain ⟨source, _, same⟩ := bind_eq_ok_iff.mp made
    cases same
    constructor <;> simp [Dataset.written, Dataset.joined, Statement.written, Statement.joined]
  | full =>
    simp only [loadStatements, mode] at made
    obtain ⟨source, sourced, same⟩ := bind_eq_ok_iff.mp made
    cases same
    refine loadColumns_insertInto (.inl rfl) sourced
      [.ok (.definition (.truncate d.objectName))] fun p member => ?_
    exact ⟨_, List.mem_singleton.mp member⟩
  | append =>
    simp only [loadStatements, mode] at made
    obtain ⟨source, sourced, same⟩ := bind_eq_ok_iff.mp made
    cases same
    exact loadColumns_insertInto (.inr (.inl rfl)) sourced [] fun p member => by cases member
  | snapshot =>
    simp only [loadStatements, mode] at made
    obtain ⟨source, sourced, same⟩ := bind_eq_ok_iff.mp made
    cases same
    exact loadColumns_insertInto (.inr (.inr rfl)) sourced [] fun p member => by cases member
  | merge =>
    simp only [loadStatements, mode] at made
    obtain ⟨source, sourced, same⟩ := bind_eq_ok_iff.mp made
    cases same
    exact loadColumns_mergeInto sourced plan.handleDeletes
  | historize =>
    simp only [loadStatements, mode] at made
    obtain ⟨statements, stated, same⟩ := bind_eq_ok_iff.mp made
    cases same
    exact loadColumns_history stated

end

/-! ### Columns that are there -/

/-- The names of the declared columns. -/
def Dataset.columnNames (d : Dataset) : List String := d.columns.map Column.name

/-- Whether what the statements of a load fill and compare is there: it is declared, and what a
merge or the delete after it compares is returned by the query that is merged. Names are taken as
they are spelled. -/
structure NamesExist (c : Catalog) (d : Dataset) (statements : List Statement) : Prop where
  written : ∀ s ∈ statements, s.written ⊆ d.columnNames
  joined : ∀ s ∈ statements, s.joined ⊆ d.columnNames
  supplied : ∀ m, .merge m ∈ statements → ∀ s ∈ statements, ∀ n ∈ s.joined,
    some n ∈ m.source.outputs c.declared

/-- Whether the lists of names that a load in some mode goes by fit together. -/
def ColumnsSuffice (c : Catalog) (d : Dataset) : LoadMode → Prop
  | .view => True
  | .full | .append | .snapshot => d.filled c ⊆ d.columnNames
  | .merge => d.filled c ⊆ d.columnNames ∧ d.naturalKeys ⊆ d.filled c
  | .historize => versionEndColumns ⊆ d.columnNames

section

variable {c : Catalog} {d : Dataset} {mode : LoadMode} {statements : List Statement}

private theorem eq_merge_of_mem_joined {n : String} (compared : n ∈ d.joined mode) :
    mode = .merge := by
  cases mode with
  | merge => rfl
  | _ => cases compared

/-- The columns of a load exist just if the dataset has all that are written and compared, and the
source has those that are compared. -/
theorem LoadColumns.namesExist_iff (columns : LoadColumns c d mode (statements.map .ok)) :
    NamesExist c d statements ↔
      d.written c mode ⊆ d.columnNames ∧ d.joined mode ⊆ d.columnNames ∧
      d.joined mode ⊆ d.filled c := by
  obtain ⟨written, joined, merges, source⟩ := columns
  simp only [mem_map_ok] at written joined merges source
  constructor
  · intro exist
    refine ⟨fun n filled => ?_, fun n compared => ?_, fun n compared => ?_⟩
    · obtain ⟨s, member, fills⟩ := (written n).mpr filled
      exact exist.written s member fills
    · obtain ⟨s, member, compares⟩ := (joined n).mpr compared
      exact exist.joined s member compares
    · obtain ⟨s, member, compares⟩ := (joined n).mpr compared
      obtain ⟨m, merge⟩ := merges (eq_merge_of_mem_joined compared)
      have returned := exist.supplied m merge s member n compares
      rw [source m merge] at returned
      simpa using returned
  · intro ⟨filled, compared, returned⟩
    constructor
    · exact fun s member n fills => filled ((written n).mp ⟨s, member, fills⟩)
    · exact fun s member n compares => compared ((joined n).mp ⟨s, member, compares⟩)
    · intro m merge s member n compares
      rw [source m merge]
      exact List.mem_map_of_mem (returned ((joined n).mp ⟨s, member, compares⟩))

/-- The lists fit together just if what a load fills and compares is among the columns. -/
theorem columnsSuffice_iff : ColumnsSuffice c d mode ↔
    d.written c mode ⊆ d.columnNames ∧ d.joined mode ⊆ d.columnNames ∧
    d.joined mode ⊆ d.filled c := by
  cases mode with
  | merge =>
    constructor
    · intro ⟨declared, keys⟩
      exact ⟨declared, fun n key => declared (keys key), keys⟩
    · intro ⟨declared, _, keys⟩
      exact ⟨declared, keys⟩
  | historize =>
    have ordered : d.orderedColumns.map Column.name ⊆ d.columnNames :=
      List.map_subset _ fun _ member => mem_orderedColumns.mp member
    simp [ColumnsSuffice, Dataset.written, Dataset.joined, ordered]
  | _ => simp [ColumnsSuffice, Dataset.written, Dataset.joined]

/-- The shadow of a base has the columns that end a version. -/
theorem Dataset.IsShadowOf.columnsSuffice {base : Dataset} (shadow : d.IsShadowOf base) :
    ColumnsSuffice c d .historize := by
  have there (p : String × SystemRole) (version : p ∈ versionColumns) : p.1 ∈ d.columnNames := by
    obtain ⟨column, member, named, _⟩ := exists_mem_shadowColumns_of_version base version
    exact List.mem_map.mpr ⟨column, shadow.columns ▸ member, named⟩
  intro name member
  rcases List.mem_cons.mp member with rfl | last
  · exact there (_, .versionEndedAt) (by decide)
  · rw [List.mem_singleton.mp last]
    exact there (_, .versionState) (by decide)

end

/-- A load finds the columns that it writes and joins on, as they are spelled, if and only if the
lists of names that it goes by fit together: what the query tree returns is declared, and for a
merge the natural keys are among what is returned; for a shadow, what ends a version is declared. -/
theorem names_exist_iff {c : Catalog} {d : Dataset} {dialect : Dialect} {transactional : Bool}
    {load : LoadSql} (known : c.get? d.key = some d)
    (composed : composeLoad c d.key dialect transactional = .ok load) :
    ∃ statements : List Statement, loadStatements c d load.plan transactional =
      .ok (statements.map .ok) ∧ renderPlanned dialect (statements.map .ok) = .ok load.statements ∧
      (NamesExist c d statements ↔ ColumnsSuffice c d load.plan.mode) := by
  obtain ⟨_, looked, statements, stated, rendered⟩ := of_composeLoad composed
  cases known.symm.trans looked
  refine ⟨statements, stated, rendered, ?_⟩
  rw [(loadColumns_of_loadStatements stated).namesExist_iff, columnsSuffice_iff]

/-! ### Customers and their numbers -/

/-- What a load of the customers writes and joins on is there. -/
theorem names_exist_for_customers : ∃ (load : LoadSql) (statements : List Statement),
    customerCatalog.get? customers.key = some customers ∧
      composeLoad customerCatalog customers.key .duckdb true = .ok load ∧
      loadStatements customerCatalog customers load.plan true = .ok (statements.map .ok) ∧
      NamesExist customerCatalog customers statements := by
  obtain ⟨load, composed, merge⟩ := exists_composeLoad_customers
  obtain ⟨statements, stated, _, exist⟩ := names_exist_iff (d := customers) rfl composed
  refine ⟨load, statements, rfl, composed, stated, exist.mpr ?_⟩
  rw [merge, ColumnsSuffice, Dataset.filled, orderedColumns_customers]
  decide

/-- Customers that are told apart by a number, which is none of their columns. -/
def unnumberedCustomers : Dataset :=
  { customers with
    historize? := some false
    naturalKeys := ["customer_no"]
    handleDeletes := false
    columns :=
      [{ Column.plain "id" "bigint" 1 with lineage := [⟨arrivals.key, "CustomerID", true⟩] },
       { Column.plain "name" "varchar(200)" 2 with lineage := [⟨arrivals.key, "Name", true⟩] }] }

def unnumberedCatalog : Catalog :=
  { customerCatalog with datasets := [arrivals, unnumberedCustomers] }

/-- The query that reads them, without the number. -/
def unnumberedSource : SourceQuery where
  columns := ["id", "name"]
  plan := .select ⟨false, [⟨.colOf "s" "CustomerID", some "id"⟩, ⟨.colOf "s" "Name", some "name"⟩],
    some (.table ⟨arrivals.objectName, some "s"⟩), none, []⟩

private theorem mappedSource_unnumbered :
    mappedSource unnumberedCustomers true = .ok unnumberedSource := by
  have ordered : unnumberedCustomers.orderedColumns = unnumberedCustomers.columns :=
    List.mergeSort_of_pairwise (by decide)
  rw [mappedSource, ordered]
  rfl

/-- A natural key that is no column gets into a merge all the same. -/
theorem not_always_exist :
    ¬ ∀ (doc : CatalogDocument) (catalog : Catalog) (d : Dataset) (dialect : Dialect)
      (transactional : Bool) (load : LoadSql) (statements : List Statement),
      Catalog.ofDocument doc = .ok catalog →
      d ∈ catalog.datasets → d.materialization ≠ .view →
      composeLoad catalog d.key dialect transactional = .ok load →
      loadStatements catalog d load.plan transactional = .ok (statements.map .ok) →
      NamesExist catalog d statements := by
  intro always
  have known : unnumberedCatalog.get? unnumberedCustomers.key = some unnumberedCustomers := rfl
  have stated : loadStatements unnumberedCatalog unnumberedCustomers
      ⟨unnumberedCustomers.key, .merge, false, false⟩ true =
        .ok ([.merge (mergeInto unnumberedCustomers unnumberedSource true)].map .ok) :=
    bind_eq_ok_iff.mpr ⟨_, mappedSource_unnumbered, rfl⟩
  have written : (renderPlanned .postgres
      ([.merge (mergeInto unnumberedCustomers unnumberedSource true)].map .ok)).isOk = true := by
        decide +kernel
  obtain ⟨load, composed, plan⟩ := exists_composeLoad known rfl rfl stated written
  have exist :=
    always ⟨customerCatalog.schemas, [arrivals, unnumberedCustomers], []⟩ unnumberedCatalog
      unnumberedCustomers .postgres true load _ (by with_unfolding_all rfl)
      (List.mem_cons_of_mem _ (List.mem_singleton_self _)) (by decide) composed (plan ▸ stated)
  have declared :=
    exist.joined _ (List.mem_singleton_self _) (List.mem_singleton_self "customer_no")
  exact absurd declared (by decide)

end Warehouse
