/-
Module: Warehouse.Proofs.Load.Reads
Purpose: What a load reads, and that it was loaded before. The tables in the statements of a load
  are its own, those of its inputs or, for a shadow, that of its base; an order puts them in front
  of it.
Trusted boundary: none
Main exports: ReadsOutside, ReadsFrom, reads_of_sourceQuery, reads_of_deleteDetection,
  reads_of_historyStatements, Dataset.readsIn, reads_of_loadStatements, of_composeLoad,
  load_reads_earlier
-/
import Warehouse.Load.Compose
import Warehouse.Proofs.Catalog.QueryReads
import Warehouse.Proofs.Load.ColumnOrder
import Warehouse.Proofs.Load.HistoryStep
import Warehouse.Proofs.Load.Synchronise
import Warehouse.Proofs.Run.Order

namespace Warehouse

open Sql

/-- Whether a load reads a table of that name outside the warehouse: it has no query tree and no
input. -/
def ReadsOutside (d : Dataset) (t : ObjectName) : Prop :=
  d.queryRoot? = none ∧ d.inputs = [] ∧ ∃ o, d.sources.head? = some o ∧ t = ⟨o.schema, o.table⟩

/-- Whether a table is that of the dataset, of one of those keys, or outside the warehouse. -/
def ReadsFrom (d : Dataset) (keys : DatasetKey → Prop) (t : ObjectName) : Prop :=
  t = d.objectName ∨ (∃ u, keys u ∧ t = u.objectName) ∨ ReadsOutside d t

section

variable {c : Catalog} {d : Dataset} {t : ObjectName}

/-! ### Sources

A source reads the tables of the inputs of its dataset, or what its query tree reads, and those are
inputs too once the dataset is linked. -/

/-- A source without a query tree reads the primary input. -/
theorem reads_of_mappedSource {applyFilter : Bool} {source : SourceQuery}
    (made : mappedSource d applyFilter = .ok source) (tree : d.queryRoot? = none)
    (read : t ∈ source.plan.tables) : ReadsFrom d (· ∈ d.inputs) t := by
  obtain ⟨⟨table, input⟩, chosen, made⟩ := bind_eq_ok_iff.mp made
  obtain ⟨items, built, made⟩ := bind_eq_ok_iff.mp made
  cases made
  have silent : ∀ i ∈ items, i.expr.tables = [] :=
    forall_of_mapM_eq_ok built fun column _ i made => by
      obtain ⟨e, value, same⟩ := bind_eq_ok_iff.mp made
      cases same
      exact Expr.tables_eq_nil_of_isLocal e (isLocal_columnValue value)
  rcases Select.mem_tables silent (fun e group => by cases group) read with source | filter
  · have same : t = table := List.mem_singleton.mp source
    rw [sourceTable] at chosen
    cases primary : d.primaryInput? with
    | some key =>
      rw [primary] at chosen
      cases chosen
      exact .inr (.inl ⟨key, List.mem_of_mem_head? primary, same⟩)
    | none =>
      cases first : d.sources.head? with
      | some o =>
        rw [primary, first] at chosen
        cases chosen
        exact .inr (.inr ⟨tree, List.head?_eq_none_iff.mp primary, o, first, same⟩)
      | none =>
        rw [primary, first] at chosen
        cases chosen
  · cases applyFilter
    · cases filter
    · cases filters : d.incrementalFilter? with
      | none =>
        rw [filters] at filter
        cases filter
      | some text =>
        rw [filters] at filter
        cases filter

/-- Every source reads inputs of its dataset. -/
theorem reads_of_sourceQuery (linked : Catalog.ReadsItsTree c.queryGraph d) {applyFilter : Bool}
    {source : SourceQuery} (made : sourceQuery c d applyFilter = .ok source)
    (read : t ∈ source.plan.tables) : ReadsFrom d (· ∈ d.inputs) t := by
  rw [sourceQuery] at made
  split at made
  · next root tree =>
    obtain ⟨contract, _, made⟩ := bind_eq_ok_iff.mp (mapError_eq_ok_iff.mp made)
    obtain ⟨plan, planned, made⟩ := bind_eq_ok_iff.mp made
    cases made
    obtain ⟨key, source, same⟩ := QueryGraph.mem_sourceDatasets_of_plan planned read
    exact .inr (.inl ⟨key, linked root tree source, same⟩)
  · next tree => exact reads_of_mappedSource made tree read

/-! ### Delete detection -/

private theorem tables_keyMatches {input : DatasetKey} {keys : List String} {es : List Expr}
    (made : keyMatches d input keys = .ok es) : ∀ e ∈ es, e.tables = [] := by
  induction keys generalizing es with
  | nil =>
    cases made
    intro e member
    cases member
  | cons key rest ih =>
    rw [keyMatches] at made
    split at made
    · cases made
    · obtain ⟨others, later, made⟩ := bind_eq_ok_iff.mp made
      cases made
      intro e member
      rcases List.mem_cons.mp member with rfl | member
      · rfl
      · exact ih later e member

/-- A delete that could be made has an input to look at. -/
theorem exists_input_of_deleteDetection {delete : Delete}
    (made : deleteDetection c d = .ok delete) :
    ∃ input, d.primaryInput? = some input.key ∧ c.get? input.key = some input := by
  rw [deleteDetection] at made
  cases primary : d.primaryInput? with
  | none =>
    simp only [primary] at made
    split at made <;> cases made
  | some key =>
    simp only [primary] at made
    split at made
    · cases made
    · obtain ⟨input, found, _⟩ := bind_eq_ok_iff.mp made
      have found : c.get? key = some input := Catalog.get_eq_ok_iff.mp (mapError_eq_ok_iff.mp found)
      obtain ⟨_, rfl⟩ := Catalog.of_get? found
      exact ⟨input, rfl, found⟩

private theorem tables_windowCondition {input : Dataset} {filter : String} {e : Expr}
    (made : windowCondition d input filter = .ok e) : e.tables = [] := by
  simp only [windowCondition] at made
  split at made
  · cases made
    rfl
  · cases made

/-- To detect deletions the target is compared with inputs of its dataset. -/
theorem reads_of_deleteDetection {delete : Delete} (made : deleteDetection c d = .ok delete)
    (read : t ∈ (Statement.delete delete).tables) : ReadsFrom d (· ∈ d.inputs) t := by
  obtain ⟨input, primary, known⟩ := exists_input_of_deleteDetection made
  obtain ⟨join, joined, rfl⟩ := deleteDetection_eq primary known made
  rcases Delete.mem_tables_andWhere read with bare | probe
  · rcases List.mem_cons.mp bare with own | window
    · exact .inl own
    · obtain ⟨e, condition, window⟩ := Expr.mem_tables?.mp window
      obtain ⟨text, _, carried⟩ := Option.bind_eq_some_iff.mp condition
      cases made : windowCondition d input text with
      | error _ =>
        rw [made] at carried
        cases carried
      | ok e' =>
        rw [made] at carried
        cases carried
        rw [tables_windowCondition made] at window
        cases window
  · rcases Select.mem_tables_probe probe with source | condition
    · exact .inr (.inl ⟨input.key, List.mem_of_mem_head? primary, source⟩)
    · rw [Expr.tables_andAll (tables_keyMatches joined)] at condition
      cases condition

/-! ### History -/

namespace History

variable {h : History}

/-- Whether a table is the shadow or its base. -/
def Reads (h : History) (t : ObjectName) : Prop := t = h.shadow.objectName ∨ t = h.base.objectName

private theorem reads_of_baseMatching (read : t ∈ h.baseMatching.tables) : h.Reads t := by
  rcases Select.mem_tables_probe read with source | condition
  · exact .inr source
  · rw [Expr.tables_andAll fun p member => by obtain ⟨k, _, rfl⟩ := List.mem_map.mp member; rfl]
      at condition
    cases condition

private theorem reads_of_shadowMatching (read : t ∈ h.shadowMatching.tables) : h.Reads t := by
  rcases Select.mem_tables_probe read with source | condition
  · exact .inl source
  · rw [Expr.tables_andAll fun p member => by obtain ⟨k, _, rfl⟩ := List.mem_map.mp member; rfl]
      at condition
    cases condition

private theorem reads_of_closeChanged {hash : Expr} (silent : hash.tables = [])
    (read : t ∈ (Statement.update (h.closeChanged hash)).tables) : h.Reads t := by
  rcases Update.mem_tables_andWhere read with read | changed
  · rcases Update.mem_tables_andWhere read with bare | isOpen
    · exact .inl (List.mem_singleton.mp bare)
    · cases isOpen
  · rcases Select.mem_tables_andWhere changed with matching | differs
    · exact reads_of_baseMatching matching
    · rw [Expr.ne, Expr.tables, silent] at differs
      cases differs

private theorem reads_of_closeDeleted (read : t ∈ (Statement.update h.closeDeleted).tables) :
    h.Reads t := by
  rcases Update.mem_tables_andWhere read with read | gone
  · rcases Update.mem_tables_andWhere read with bare | isOpen
    · exact .inl (List.mem_singleton.mp bare)
    · cases isOpen
  · exact reads_of_baseMatching gone

/-- A new version is read from the base, where the conditions say so. -/
theorem reads_of_insertVersions {state : String} {hash : Expr} {conditions : List Expr} {s : Insert}
    (local_ : hash.isLocal = true) (made : h.insertVersions state hash conditions = .ok s)
    (conditions_read : ∀ p ∈ conditions, t ∈ p.tables → h.Reads t)
    (read : t ∈ (Statement.insert s).tables) : h.Reads t := by
  obtain ⟨items, built, made⟩ := bind_eq_ok_iff.mp made
  cases made
  have silent : ∀ i ∈ items, i.expr.tables = [] :=
    forall_of_mapM_eq_ok built fun column _ i made => by
      obtain ⟨e, value, same⟩ := bind_eq_ok_iff.mp made
      cases same
      exact Expr.tables_eq_nil_of_isLocal e (h.isLocal_versionValue local_ value)
  rcases Select.mem_tables silent (fun e group => by cases group) read with source | condition
  · exact .inr (List.mem_singleton.mp source)
  · obtain ⟨p, member, read⟩ := Expr.mem_tables_andAll condition
    exact conditions_read p member read

private theorem reads_of_insertChanged {hash : Expr} {s : Insert} (local_ : hash.isLocal = true)
    (made : h.insertChanged hash = .ok s) (read : t ∈ (Statement.insert s).tables) : h.Reads t := by
  refine reads_of_insertVersions local_ made (fun p member read => ?_) read
  rcases List.mem_cons.mp member with rfl | member
  · rcases Select.mem_tables_andWhere read with matching | isOpen
    · exact reads_of_shadowMatching matching
    · cases isOpen
  · rw [List.mem_singleton.mp member] at read
    exact reads_of_shadowMatching read

private theorem reads_of_insertNew {hash : Expr} {s : Insert} (local_ : hash.isLocal = true)
    (made : h.insertNew hash = .ok s) (read : t ∈ (Statement.insert s).tables) : h.Reads t := by
  refine reads_of_insertVersions local_ made (fun p member read => ?_) read
  rw [List.mem_singleton.mp member] at read
  exact reads_of_shadowMatching read

private theorem isLocal_baseHash {hash : Expr} (made : h.baseHash = .ok hash) :
    hash.isLocal = true :=
  isLocal_rowHash (fun c v value => by cases value; rfl) made

/-- A new version goes into the shadow, into all of its columns. -/
theorem of_insertVersions {state : String} {hash : Expr} {conditions : List Expr} {s : Insert}
    (made : h.insertVersions state hash conditions = .ok s) :
    s.target = h.shadow.objectName ∧ s.columns = h.shadow.orderedColumns.map Column.name := by
  obtain ⟨_, _, same⟩ := bind_eq_ok_iff.mp made
  cases same
  exact ⟨rfl, rfl⟩

end History

/-- The load of a shadow has the four statements of its history. -/
theorem exists_history_of_historyStatements {statements : List Statement}
    (made : historyStatements c d = .ok statements) :
    ∃ (h : History) (hash : Expr) (changed new : Insert), h.shadow = d ∧
      d.histOf? = some h.base.key ∧
      h.baseHash = .ok hash ∧ h.insertChanged hash = .ok changed ∧ h.insertNew hash = .ok new ∧
      statements = [.update (h.closeChanged hash), .update h.closeDeleted, .insert changed,
        .insert new] := by
  rw [historyStatements] at made
  split at made
  · cases made
  · next key ofBase =>
    obtain ⟨base, found, stated⟩ := bind_eq_ok_iff.mp made
    obtain ⟨_, rfl⟩ := Catalog.of_get? (Catalog.get_eq_ok_iff.mp (mapError_eq_ok_iff.mp found))
    dsimp only at stated
    split at stated
    · cases stated
    · obtain ⟨_, built, same⟩ := bind_eq_ok_iff.mp stated
      obtain ⟨hash, hashed, built⟩ := bind_eq_ok_iff.mp built
      obtain ⟨changed, third, built⟩ := bind_eq_ok_iff.mp built
      obtain ⟨new, fourth, built⟩ := bind_eq_ok_iff.mp built
      cases built
      cases same
      exact ⟨⟨d, base⟩, hash, changed, new, rfl, ofBase, hashed, third, fourth, rfl⟩

/-- The statements of a history read the base and the history itself. -/
theorem reads_of_historyStatements {statements : List Statement}
    (made : historyStatements c d = .ok statements) {s : Statement} (member : s ∈ statements)
    (read : t ∈ s.tables) : ReadsFrom d (fun k => d.histOf? = some k) t := by
  obtain ⟨h, hash, changed, new, rfl, ofBase, hashed, third, fourth, rfl⟩ :=
    exists_history_of_historyStatements made
  have local_ := History.isLocal_baseHash hashed
  have reads : h.Reads t := by
    simp only [List.mem_cons, List.not_mem_nil, or_false] at member
    rcases member with rfl | rfl | rfl | rfl
    · exact History.reads_of_closeChanged (Expr.tables_eq_nil_of_isLocal hash local_) read
    · exact History.reads_of_closeDeleted read
    · exact History.reads_of_insertChanged local_ third read
    · exact History.reads_of_insertNew local_ fourth read
  rcases reads with own | base
  · exact .inl own
  · exact .inr (.inl ⟨_, ofBase, base⟩)

/-! ### Loads -/

/-- The datasets that a load reads: a shadow's its base, any other its inputs. -/
def Dataset.readsIn (d : Dataset) : LoadMode → DatasetKey → Prop
  | .historize => fun k => d.histOf? = some k
  | _ => fun k => k ∈ d.inputs

/-- A load of one statement that reads no more than its source query. -/
theorem reads_of_single (linked : Catalog.ReadsItsTree c.queryGraph d) {applyFilter : Bool}
    {form : SourceQuery → Statement} {planned : List Planned}
    (made : (sourceQuery c d applyFilter >>= fun q => pure [.ok (form q)]) = .ok planned)
    (reads : ∀ q, (form q).tables = q.plan.tables) {s : Statement} (member : .ok s ∈ planned)
    (read : t ∈ s.tables) : ReadsFrom d (· ∈ d.inputs) t := by
  obtain ⟨source, sourced, same⟩ := bind_eq_ok_iff.mp made
  cases same
  cases List.mem_singleton.mp member
  rw [reads] at read
  exact reads_of_sourceQuery linked sourced read

/-- The tables that the statements of a load read. -/
theorem reads_of_loadStatements (linked : Catalog.ReadsItsTree c.queryGraph d) {plan : LoadPlan}
    {transactional : Bool} {planned : List Planned}
    (made : loadStatements c d plan transactional = .ok planned) {s : Statement}
    (member : .ok s ∈ planned) (read : t ∈ s.tables) :
    ReadsFrom d (d.readsIn plan.mode) t := by
  rw [loadStatements] at made
  split at made
  · next view =>
    rw [view]
    exact reads_of_single linked made (fun _ => rfl) member read
  · next full =>
    obtain ⟨source, sourced, same⟩ := bind_eq_ok_iff.mp made
    cases same
    rw [full]
    rcases List.mem_cons.mp member with truncate | member
    · cases truncate
      cases read
    · cases List.mem_singleton.mp member
      exact reads_of_sourceQuery linked sourced read
  · next append =>
    rw [append]
    exact reads_of_single linked made (fun _ => rfl) member read
  · next snapshot =>
    rw [snapshot]
    exact reads_of_single linked made (fun _ => rfl) member read
  · next merge =>
    obtain ⟨source, sourced, same⟩ := bind_eq_ok_iff.mp made
    cases same
    rw [merge]
    rcases List.mem_cons.mp member with merged | member
    · cases merged
      rcases List.mem_cons.mp read with own | read
      · exact .inl own
      · exact reads_of_sourceQuery linked sourced read
    · split at member
      · cases detected : deleteDetection c d with
        | error _ =>
          rw [detected] at member
          cases List.mem_singleton.mp member
        | ok delete =>
          rw [detected] at member
          cases List.mem_singleton.mp member
          exact reads_of_deleteDetection detected read
      · cases member
  · next historize =>
    obtain ⟨statements, stated, same⟩ := bind_eq_ok_iff.mp made
    cases same
    obtain ⟨s', member, same⟩ := List.mem_map.mp member
    cases same
    rw [historize]
    exact reads_of_historyStatements stated member read

end

/-! ### Orders

Datasets come behind all that they read. So a table that a load reads is one of the dataset itself,
of one that came before, or of a base, which comes before its shadow. -/

section

variable {c : Catalog} {roots : List DatasetKey} {order : List Dataset} {d : Dataset}

/-- A run loads what its datasets read, save what a shadow reads besides its base. -/
theorem loaded_of_input (sound : c.Sound) (runs : RunsInOrder c roots order) (member : d ∈ order)
    {u : DatasetKey} (input : u ∈ d.inputs) (base : ∀ k, d.histOf? = some k → k = u) :
    u ∈ runMembers c roots := by
  have dataset : d ∈ c.datasets := runs.datasets member
  by_cases rooted : roots = []
  · obtain ⟨e, known, rfl⟩ := sound.known d dataset u input
    rw [rooted]
    exact mem_runMembers_nil known
  · have selected :=
      (mem_runMembers_iff rooted).mp ((runs.members.all d.key).mp (List.mem_map_of_mem member))
    refine (mem_runMembers_iff rooted).mpr (.inl ?_)
    rcases selected with reached | ⟨b, s, reached, kept, same⟩
    · exact reached.read ⟨d, dataset, rfl, input⟩
    · -- A shadow that was added for its base.
      obtain ⟨shadow, ofBase⟩ := Catalog.of_shadowOf? kept
      obtain rfl := sound.distinct.eq shadow dataset same
      exact base b ofBase ▸ reached

/-- The shadow of a base that wants history reads its base. -/
theorem base_of_shadowKey (sound : c.Sound) (member : d ∈ c.datasets) {base : Dataset}
    (baseMember : base ∈ c.datasets) (plain : base.isShadow = false)
    (wanted : c.wantsHistory base = true) (named : d.key = shadowKey base.key) :
    d.histOf? = some base.key ∧ base.key ∈ d.inputs := by
  obtain ⟨shadow, reads⟩ := sound.isShadowOf baseMember plain wanted member named
  exact ⟨shadow.histOf, reads⟩

end

/-- A load that is composed has statements, all of which could be made. -/
theorem of_composeLoad {c : Catalog} {key : DatasetKey} {dialect : Dialect} {transactional : Bool}
    {load : LoadSql} (composed : composeLoad c key dialect transactional = .ok load) :
    ∃ d, c.get? key = some d ∧ ∃ statements : List Statement,
      loadStatements c d load.plan transactional = .ok (statements.map .ok) ∧
      renderPlanned dialect (statements.map .ok) = .ok load.statements := by
  obtain ⟨d, found, planning⟩ := bind_eq_ok_iff.mp composed
  obtain ⟨plan, _, checking⟩ := bind_eq_ok_iff.mp planning
  obtain ⟨_, _, stating⟩ := bind_eq_ok_iff.mp checking
  obtain ⟨planned, stated, rendering⟩ := bind_eq_ok_iff.mp stating
  obtain ⟨texts, rendered, same⟩ := bind_eq_ok_iff.mp rendering
  cases same
  obtain ⟨statements, rfl⟩ := exists_map_of_forall_mem (exists_of_renderPlanned rendered)
  exact ⟨d, Catalog.get_eq_ok_iff.mp (mapError_eq_ok_iff.mp found), statements, stated, rendered⟩

/-- A load reads nothing that is loaded after it. Every table that its statements read is its own,
that of a dataset before it in the order, or outside the warehouse. A shadow has to be that of a
base which wants history. -/
theorem load_reads_earlier {doc : CatalogDocument} {c : Catalog}
    (accepted : Catalog.ofDocument doc = .ok c) {roots : List DatasetKey} {order : List Dataset}
    (found : runOrder c roots = .ok order) {before later : List Dataset} {d : Dataset}
    (split : order = before ++ d :: later) {dialect : Dialect} {transactional : Bool}
    {load : LoadSql} (composed : composeLoad c d.key dialect transactional = .ok load)
    (paired : d.isShadow = false ∨ load.plan.mode = .historize ∧ ∃ base ∈ c.datasets,
      base.isShadow = false ∧ c.wantsHistory base = true ∧ d.key = shadowKey base.key) :
    ∃ statements : List Statement,
      loadStatements c d load.plan transactional = .ok (statements.map .ok) ∧
      renderPlanned dialect (statements.map .ok) = .ok load.statements ∧
      ∀ s ∈ statements, ∀ t ∈ s.tables,
        t = d.objectName ∨ (∃ u ∈ before, t = u.objectName) ∨ ReadsOutside d t := by
  have sound := Catalog.sound_of_ofDocument accepted
  have runs := runsInOrder_of_runOrder found
  have member : d ∈ order := split ▸ List.mem_append_right _ List.mem_cons_self
  have dataset : d ∈ c.datasets := runs.datasets member
  obtain ⟨_, looked, statements, stated, rendered⟩ := of_composeLoad composed
  cases looked.symm.trans (sound.distinct.get? dataset)
  have earlier {u : DatasetKey} (input : u ∈ d.inputs) (base : ∀ k, d.histOf? = some k → k = u) :
      ∃ e ∈ before, u.objectName = e.objectName := by
    obtain ⟨e, there, rfl⟩ := runs.before split input (loaded_of_input sound runs member input base)
    exact ⟨e, there, rfl⟩
  refine ⟨statements, stated, rendered, fun s statement t read => ?_⟩
  have reads :=
    reads_of_loadStatements (sound.linked d dataset) stated (List.mem_map_of_mem statement) read
  refine reads.imp_right (Or.imp_left fun ⟨u, from_, same⟩ => ?_)
  rw [same]
  rcases paired with plain | ⟨historize, base, baseMember, plain, wanted, named⟩
  · have none : d.histOf? = none :=
      Option.isNone_iff_eq_none.mp (by simpa [Dataset.isShadow] using plain)
    have unpaired : ∀ k, d.histOf? = some k → k = u := by
      intro k ofBase
      rw [none] at ofBase
      cases ofBase
    cases mode : load.plan.mode
    all_goals rw [mode] at from_
    case historize => cases none.symm.trans from_
    all_goals exact earlier from_ unpaired
  · obtain ⟨ofBase, input⟩ := base_of_shadowKey sound dataset baseMember plain wanted named
    rw [historize] at from_
    have ofU : d.histOf? = some u := from_
    obtain rfl : base.key = u := Option.some.inj (ofBase.symm.trans ofU)
    exact earlier input fun k ofK => Option.some.inj (ofK.symm.trans ofBase)

/-! ### Names by a query -/

/-- The names of the customers that have arrived, read through a query tree of one node. -/
def arrivedNames : Dataset :=
  { arrivals with
    id := 2
    name := "names"
    columns := [Column.plain "Name" "varchar(200)" 1]
    queryRoot? := some 1 }

/-- The same with what its tree reads among its inputs. -/
def linkedNames : Dataset := { arrivedNames with inputs := [arrivals.key] }

def namesDocument : CatalogDocument :=
  ⟨customerCatalog.schemas, [arrivedNames, arrivals],
    [⟨1, none, .select (some arrivals.key) [⟨"Name", none, none⟩] none⟩]⟩

/-- The catalog of the document before the trees are linked, and after. -/
def unlinkedNames : Catalog := { namesDocument with datasets := [arrivedNames, arrivals] }

def namesCatalog : Catalog := { namesDocument with datasets := [linkedNames, arrivals] }

/-- The query of that tree. -/
def namesSource : SourceQuery where
  columns := ["Name"]
  plan := .select
    (selectPlan (some (.table ⟨arrivals.objectName, none⟩)) [⟨"Name", none, none⟩] none)

private theorem sourceQuery_names (applyFilter : Bool) :
    sourceQuery namesCatalog linkedNames applyFilter = .ok namesSource := by
  have arrived : arrivals.orderedColumns = arrivals.columns :=
    List.mergeSort_of_pairwise (by decide)
  have chosen : selectContract namesCatalog 1 none (some arrivals.key) [⟨"Name", none, none⟩] =
      ⟨["Name"], []⟩ := by
    rw [selectContract, selectInput]
    simp only [show namesCatalog.get? arrivals.key = some arrivals from rfl, arrived]
    rfl
  have read : namesCatalog.queryGraph.inferAt namesCatalog 2 [] 1 = .ok ⟨["Name"], []⟩ :=
    QueryGraph.inferAt_of_inferredNode (by decide) rfl (.select rfl .none) chosen
  exact (sourceQuery_eq_ok_iff rfl).mpr
    ⟨QueryGraph.inferContract_of_inferAt (Nat.le_refl 2) read, rfl⟩

/-- The query for the names reads what arrived before. -/
theorem load_reads_earlier_for_names :
    ∃ (load : LoadSql) (statements : List Statement),
      Catalog.ofDocument namesDocument = .ok namesCatalog ∧
      runOrder namesCatalog [linkedNames.key] = .ok ([arrivals] ++ linkedNames :: []) ∧
      composeLoad namesCatalog linkedNames.key .duckdb true = .ok load ∧
      linkedNames.isShadow = false ∧
      loadStatements namesCatalog linkedNames load.plan true = .ok (statements.map .ok) ∧
      ∀ s ∈ statements, ∀ t ∈ s.tables, t = linkedNames.objectName ∨
        (∃ u ∈ [arrivals], t = u.objectName) ∨ ReadsOutside linkedNames t := by
  have linked : unlinkedNames.linkQuerySources = .ok namesCatalog := by cbv
  have accepted : Catalog.ofDocument namesDocument = .ok namesCatalog :=
    bind_eq_ok_iff.mpr ⟨unlinkedNames, by with_unfolding_all rfl,
      bind_eq_ok_iff.mpr ⟨namesCatalog, linked, by with_unfolding_all rfl⟩⟩
  have found : runOrder namesCatalog [linkedNames.key] =
    .ok ([arrivals] ++ linkedNames :: []) := by cbv
  have planned : loadStatements namesCatalog linkedNames
    ⟨linkedNames.key, .full, false, false⟩ true =
      .ok [.ok (.definition (.truncate linkedNames.objectName)),
        .ok (.insert (insertInto linkedNames namesSource))] := by
    rw [loadStatements, sourceQuery_names]
    rfl
  obtain ⟨load, composed, -⟩ : ∃ load, composeLoad namesCatalog linkedNames.key .duckdb true =
      .ok load ∧ load.plan = ⟨linkedNames.key, .full, false, false⟩ :=
    exists_composeLoad rfl rfl rfl planned (by decide +kernel)
  obtain ⟨statements, stated, _, reads⟩ := load_reads_earlier accepted found rfl composed (.inl rfl)
  exact ⟨load, statements, accepted, found, composed, rfl, stated, reads⟩

end Warehouse
