/-
Module: Warehouse.Proofs.Load.Dependence
Purpose: What of a catalog a load depends on. It asks for datasets by their keys, for the schema of
  its own dataset, and for query nodes where that dataset has a query tree; the answers are all that
  counts. Where a load is refused by the policy of a schema, nothing but that policy has refused it.
Trusted boundary: none
Main exports: Catalog.SameDatasets, Dataset.SameTree, Catalog.SameDatasets.loadStatements,
  resolveLoadPlan_eq_of_same, composeLoad_eq_of_same, LoadError.OfPolicy, Unrefused,
  unrefused_composeLoad
-/
import Warehouse.Load.Compose
import Warehouse.Proofs.Catalog.Document
import Warehouse.Proofs.Catalog.InferenceSearch

namespace Warehouse

/-- Whether the same dataset, or none, is found under every key. -/
def Catalog.SameDatasets (c c' : Catalog) : Prop := ∀ key, c.get? key = c'.get? key

section

variable {c c' : Catalog} {d : Dataset}

/-! ### Query trees

The contract and the query of a tree depend on the datasets that its nodes read, and on nothing else
of a catalog. It is enough to see that for one node, since trees are gone through in the same way.
-/

/-- Catalogs with the same datasets find the same. -/
theorem Catalog.SameDatasets.get (same : c.SameDatasets c') (key : DatasetKey) :
    c.get key = c'.get key := by
  rw [Catalog.get, Catalog.get, same]

theorem Catalog.SameDatasets.selectContract (same : c.SameDatasets c') (id : NodeId)
    (input : Option Contract) (dataset? : Option DatasetKey) (columns : List ProjectedColumn) :
    selectContract c id input dataset? columns = selectContract c' id input dataset? columns := by
  have available : selectInput c id input dataset? = selectInput c' id input dataset? := by
    cases input with
    | some k => rfl
    | none =>
      cases dataset? with
      | none => rfl
      | some key => rw [selectInput, selectInput, same]
  rw [Warehouse.selectContract, Warehouse.selectContract, available]

/-- The contract of a node depends on the catalog only by its datasets. -/
theorem Catalog.SameDatasets.inferNode (same : c.SameDatasets c')
    (infer : NodeId → Except CatalogError Contract) (id : NodeId) :
    inferNode c infer id = inferNode c' infer id := by
  funext n
  simp only [Warehouse.inferNode, same.selectContract]

/-- So does the contract that is inferred along a path. -/
theorem Catalog.SameDatasets.inferAt (same : c.SameDatasets c') (g : QueryGraph) (fuel : Nat)
    (path : List NodeId) (id : NodeId) : g.inferAt c fuel path id = g.inferAt c' fuel path id := by
  induction fuel generalizing path id with
  | zero => rfl
  | succ fuel ih =>
    have below : g.inferAt c fuel (id :: path) = g.inferAt c' fuel (id :: path) :=
      funext (ih (id :: path))
    rw [QueryGraph.inferAt_succ, QueryGraph.inferAt_succ, below, same.inferNode]

theorem Catalog.SameDatasets.inferContract (same : c.SameDatasets c') (g : QueryGraph)
    (root : NodeId) : g.inferContract c root = g.inferContract c' root := by
  rw [QueryGraph.inferContract_eq, QueryGraph.inferContract_eq, same.inferAt]

/-- And so does the query. -/
theorem Catalog.SameDatasets.plan (same : c.SameDatasets c') (g : QueryGraph) (root : NodeId) :
    g.plan c root = g.plan c' root := by
  rw [QueryGraph.plan, QueryGraph.plan, same.inferContract]

/-! ### Statements -/

/-- Whether the query nodes of two catalogs are the same, if the dataset has a query tree. -/
def Dataset.SameTree (d : Dataset) (c c' : Catalog) : Prop :=
  d.queryRoot? = none ∨ c.queryNodes = c'.queryNodes

/-- The source of a load depends on the datasets, and on the query tree of its own. -/
theorem Catalog.SameDatasets.sourceQuery (same : c.SameDatasets c') (tree : d.SameTree c c')
    (applyFilter : Bool) : sourceQuery c d applyFilter = sourceQuery c' d applyFilter := by
  rw [Warehouse.sourceQuery, Warehouse.sourceQuery]
  rcases tree with none | nodes
  · rw [none]
  · have graph : c.queryGraph = c'.queryGraph := congrArg QueryGraph.mk nodes
    simp only [graph, same.inferContract, same.plan]

/-- How deletions are found depends on the datasets only. -/
theorem Catalog.SameDatasets.deleteDetection (same : c.SameDatasets c') :
    deleteDetection c d = deleteDetection c' d := by
  simp only [Warehouse.deleteDetection, same.get]

/-- How a history is kept depends on the datasets only. -/
theorem Catalog.SameDatasets.historyStatements (same : c.SameDatasets c') :
    historyStatements c d = historyStatements c' d := by
  simp only [Warehouse.historyStatements, same.get]

/-- The statements of a load depend on the datasets and on the query tree. -/
theorem Catalog.SameDatasets.loadStatements (same : c.SameDatasets c') (tree : d.SameTree c c')
    (plan : LoadPlan) (transactional : Bool) :
    loadStatements c d plan transactional = loadStatements c' d plan transactional := by
  simp only [Warehouse.loadStatements, same.sourceQuery tree, same.deleteDetection,
    same.historyStatements]

/-- How a dataset is loaded depends on its schema. -/
theorem resolveLoadPlan_eq_of_same (schema : c.schema? d.schema = c'.schema? d.schema) :
    resolveLoadPlan c d = resolveLoadPlan c' d := by
  have policy : checkSchemaPolicy c d = checkSchemaPolicy c' d := by
    rw [checkSchemaPolicy, checkSchemaPolicy, Catalog.schemaOf, Catalog.schemaOf, schema]
  have merge : mergePlan c d = mergePlan c' d := by
    rw [mergePlan, mergePlan, Catalog.schemaOf, Catalog.schemaOf, Catalog.wantsHistory,
      Catalog.wantsHistory, schema]
  rw [resolveLoadPlan, resolveLoadPlan, policy, merge]

/-- Loads are the same that are planned in the same way and have the same statements. -/
theorem composeLoad_eq_of_same (same : c.SameDatasets c') {key : DatasetKey} {dialect : Sql.Dialect}
    {transactional : Bool}
    (each : ∀ d, c.get? key = some d → resolveLoadPlan c d = resolveLoadPlan c' d ∧
      ∀ plan, resolveLoadPlan c d = .ok plan →
        loadStatements c d plan transactional = loadStatements c' d plan transactional) :
    composeLoad c key dialect transactional = composeLoad c' key dialect transactional := by
  rw [composeLoad, composeLoad, ← same.get, Catalog.get]
  cases found : c.get? key with
  | none => rfl
  | some d =>
    obtain ⟨plan, statements⟩ := each d found
    show (resolveLoadPlan c d >>= _) = (resolveLoadPlan c' d >>= _)
    rw [← plan]
    cases resolved : resolveLoadPlan c d with
    | error e => rfl
    | ok p =>
      show (checkCapabilities p dialect >>= _) = (checkCapabilities p dialect >>= _)
      rw [statements p resolved]

end

/-! ### Refusals by a policy

What a schema allows is looked at when the load is planned, and not again. So no later step refuses
anything because of a policy, which is shown for each step in turn. -/

/-- Whether the policy of a schema is the reason not to load. -/
def LoadError.OfPolicy : LoadError → Prop
  | .surrogateKeysDisabled .. => True
  | .notGenerated .. => True
  | _ => False

/-- A computation that no policy refuses, though it may fail. -/
def Unrefused {α : Type} (x : Except LoadError α) : Prop := ∀ e, x = .error e → ¬ e.OfPolicy

section

variable {α β : Type}

private theorem unrefused_ok (a : α) : Unrefused (.ok a) := nofun

/-- What fails for another reason is not refused by a policy. -/
theorem unrefused_error {e : LoadError} (other : ¬ e.OfPolicy) :
    Unrefused (.error e : Except LoadError α) := by
  rintro _ ⟨⟩
  exact other

/-- Two steps that refuse nothing refuse nothing together. -/
theorem Unrefused.bind {x : Except LoadError α} {f : α → Except LoadError β} (first : Unrefused x)
    (second : ∀ a, Unrefused (f a)) : Unrefused (x >>= f) := by
  intro e failed
  rcases bind_eq_error_iff.mp failed with early | ⟨a, _, late⟩
  · exact first e early
  · exact second a e late

theorem Unrefused.map {f : α → β} {x : Except LoadError α} (first : Unrefused x) :
    Unrefused (x.map f) := by
  cases x with
  | ok a => exact unrefused_ok (f a)
  | error e => exact unrefused_error (first e rfl)

theorem Unrefused.mapM {f : α → Except LoadError β} {xs : List α} (each : ∀ x, Unrefused (f x)) :
    Unrefused (xs.mapM f) := by
  intro e failed
  obtain ⟨x, _, late⟩ := exists_of_mapM_eq_error failed
  exact each x e late

private theorem unrefused_mapError {ε : Type} {f : ε → LoadError} (other : ∀ e, ¬ (f e).OfPolicy)
    (x : Except ε α) : Unrefused (x.mapError f) := by
  cases x with
  | ok a => exact unrefused_ok a
  | error e => exact unrefused_error (other e)

private theorem unrefused_liftCatalog (x : Except CatalogError α) : Unrefused (liftCatalog x) :=
  unrefused_mapError (fun _ => id) x

private theorem unrefused_liftSql (x : Except Sql.SqlError α) : Unrefused (liftSql x) :=
  unrefused_mapError (fun _ => id) x

private theorem unrefused_liftSurrogate (x : Except Sql.SurrogateError α) :
    Unrefused (liftSurrogate x) :=
  unrefused_mapError (fun _ => id) x

end

section

variable {c : Catalog} {d : Dataset}

private theorem unrefused_sourceValue (col : Column) (input : Option DatasetKey) :
    Unrefused (sourceValue d col input) := by
  unfold sourceValue
  split
  · exact unrefused_ok _
  · split
    · exact unrefused_ok _
    · exact unrefused_error id

private theorem unrefused_namedValues (input : Option DatasetKey) (names : List String) :
    Unrefused (namedValues d input names) := by
  induction names with
  | nil => exact unrefused_ok _
  | cons name rest ih =>
    rw [namedValues]
    split
    · exact unrefused_error id
    · next col _ => exact (unrefused_sourceValue col input).bind fun _ => ih.bind fun _ =>
        unrefused_ok _

private theorem unrefused_surrogateParts (col : Column) : Unrefused (surrogateParts d col) := by
  rw [surrogateParts]
  split
  · exact unrefused_ok _
  · refine (unrefused_liftSurrogate _).bind fun e => ?_
    dsimp only
    split
    · exact unrefused_ok _
    · exact unrefused_error id

private theorem unrefused_rowHash {value : Column → Except LoadError Sql.Expr}
    (each : ∀ col, Unrefused (value col)) : Unrefused (rowHash d value) := by
  rw [rowHash]
  refine (Unrefused.mapM fun col => ?_).bind fun _ => unrefused_liftSurrogate _
  exact (each col).bind fun _ => unrefused_ok _

private theorem unrefused_columnValue (input : Option DatasetKey) (col : Column) :
    Unrefused (columnValue d input col) := by
  rw [columnValue]
  split
  · refine (unrefused_surrogateParts col).bind fun p => ?_
    exact (unrefused_namedValues input p.1).bind fun _ => unrefused_liftSurrogate _
  · exact unrefused_rowHash fun col => unrefused_sourceValue col input
  · exact unrefused_ok _
  · exact unrefused_ok _
  · split
    · exact unrefused_ok _
    · exact unrefused_ok _

private theorem unrefused_mappedSource (applyFilter : Bool) :
    Unrefused (mappedSource d applyFilter) := by
  have table : Unrefused (sourceTable d) := by
    rw [sourceTable]
    split
    · exact unrefused_ok _
    · exact unrefused_ok _
    · exact unrefused_error id
  rw [mappedSource]
  refine table.bind fun t => (Unrefused.mapM fun col => ?_).bind fun _ => unrefused_ok _
  exact (unrefused_columnValue t.2 col).bind fun _ => unrefused_ok _

/-- The source of a load is composed without a look at a policy. -/
theorem unrefused_sourceQuery (applyFilter : Bool) : Unrefused (sourceQuery c d applyFilter) := by
  rw [sourceQuery]
  split
  · exact unrefused_liftCatalog _
  · exact unrefused_mappedSource applyFilter

private theorem unrefused_keyMatches (input : DatasetKey) (keys : List String) :
    Unrefused (keyMatches d input keys) := by
  induction keys with
  | nil => exact unrefused_ok _
  | cons key rest ih =>
    rw [keyMatches]
    split
    · exact unrefused_error id
    · exact ih.bind fun _ => unrefused_ok _

private theorem unrefused_windowCondition (input : Dataset) (filter : String) :
    Unrefused (windowCondition d input filter) := by
  simp only [windowCondition]
  split
  · exact unrefused_ok _
  · exact unrefused_error id

/-- So is the detection of deletions. -/
theorem unrefused_deleteDetection : Unrefused (deleteDetection c d) := by
  rw [deleteDetection]
  cases d.primaryInput? with
  | none =>
    dsimp only
    split
    · exact unrefused_error id
    · exact unrefused_error id
  | some key =>
    dsimp only
    split
    · exact unrefused_error id
    · refine (unrefused_liftCatalog _).bind fun input =>
        (unrefused_keyMatches key _).bind fun join => ?_
      cases d.incrementalFilter? with
      | none => exact unrefused_ok _
      | some filter =>
        exact (unrefused_windowCondition input filter).bind fun _ => unrefused_ok _

private theorem unrefused_insertVersions (h : History) (state : String) (hash : Sql.Expr)
    (conditions : List Sql.Expr) : Unrefused (h.insertVersions state hash conditions) := by
  have value (col : Column) : Unrefused (h.versionValue state hash col) := by
    rw [History.versionValue]
    split
    · exact unrefused_liftSurrogate _
    all_goals first
      | exact unrefused_ok _
      | (split <;> exact unrefused_ok _)
  rw [History.insertVersions]
  refine (Unrefused.mapM fun col => ?_).bind fun _ => unrefused_ok _
  exact (value col).bind fun _ => unrefused_ok _

/-- And so are the statements of a history. -/
theorem unrefused_historyStatements : Unrefused (historyStatements c d) := by
  rw [historyStatements]
  split
  · exact unrefused_error id
  · refine (unrefused_liftCatalog _).bind fun base => ?_
    dsimp only
    split
    · exact unrefused_error id
    · refine Unrefused.bind ?_ fun _ => unrefused_ok _
      refine (unrefused_rowHash fun _ => unrefused_ok _).bind fun hash => ?_
      refine (unrefused_insertVersions _ _ hash _).bind fun _ => ?_
      exact (unrefused_insertVersions _ _ hash _).bind fun _ => unrefused_ok _

/-- A statement that is planned is one that can be made, or it is the removal of rows. -/
theorem mem_of_loadStatements {plan : LoadPlan} {transactional : Bool} {planned : List Planned}
    (made : loadStatements c d plan transactional = .ok planned) {p : Planned}
    (member : p ∈ planned) :
    (∃ s, p = .ok s) ∨ p = (deleteDetection c d).map .delete := by
  cases mode : plan.mode with
  | merge =>
    simp only [loadStatements, mode] at made
    obtain ⟨source, _, same⟩ := bind_eq_ok_iff.mp made
    cases same
    rcases List.mem_cons.mp member with rfl | member
    · exact .inl ⟨_, rfl⟩
    · split at member
      · exact .inr (List.mem_singleton.mp member)
      · cases member
  | historize =>
    simp only [loadStatements, mode] at made
    obtain ⟨statements, _, same⟩ := bind_eq_ok_iff.mp made
    cases same
    obtain ⟨s, _, rfl⟩ := List.mem_map.mp member
    exact .inl ⟨s, rfl⟩
  | full =>
    simp only [loadStatements, mode] at made
    obtain ⟨source, _, same⟩ := bind_eq_ok_iff.mp made
    cases same
    simp only [List.mem_cons, List.not_mem_nil, or_false] at member
    rcases member with rfl | rfl <;> exact .inl ⟨_, rfl⟩
  | view | append | snapshot =>
    simp only [loadStatements, mode] at made
    obtain ⟨source, _, same⟩ := bind_eq_ok_iff.mp made
    cases same
    exact .inl ⟨_, List.mem_singleton.mp member⟩

/-- All statements of a load are composed without a look at a policy. -/
theorem unrefused_loadStatements (plan : LoadPlan) (transactional : Bool) :
    Unrefused (loadStatements c d plan transactional) := by
  rw [loadStatements]
  split
  · exact (unrefused_sourceQuery false).bind fun _ => unrefused_ok _
  · exact (unrefused_sourceQuery false).bind fun _ => unrefused_ok _
  · exact (unrefused_sourceQuery true).bind fun _ => unrefused_ok _
  · exact (unrefused_sourceQuery false).bind fun _ => unrefused_ok _
  · exact (unrefused_sourceQuery true).bind fun _ => unrefused_ok _
  · exact unrefused_historyStatements.bind fun _ => unrefused_ok _

private theorem unrefused_renderPlanned {dialect : Sql.Dialect} {planned : List Planned}
    (each : ∀ p ∈ planned, Unrefused p) : Unrefused (renderPlanned dialect planned) := by
  induction planned with
  | nil => exact unrefused_ok _
  | cons p rest ih =>
    obtain ⟨first, others⟩ := List.forall_mem_cons.mp each
    rw [renderPlanned]
    refine first.bind fun s => (unrefused_liftSql _).bind fun _ => ?_
    exact (ih others).bind fun _ => unrefused_ok _

/-- Behind its policy a dataset is planned without being refused. -/
theorem unrefused_resolveLoadPlan (passed : checkSchemaPolicy c d = .ok ()) :
    Unrefused (resolveLoadPlan c d) := by
  have merge : Unrefused (mergePlan c d) := by
    rw [mergePlan]
    split
    · exact unrefused_error id
    · exact (unrefused_liftCatalog _).bind fun _ => unrefused_ok _
  rw [resolveLoadPlan, passed]
  cases d.materialization with
  | view => exact unrefused_ok _
  | externalPassthrough => exact unrefused_error id
  | table | incremental =>
    show Unrefused (if d.isShadow then _ else _)
    split
    · split
      · exact unrefused_error id
      · exact unrefused_ok _
    · split
      · exact unrefused_ok _
      · exact unrefused_ok _
      · exact unrefused_ok _
      · exact merge
      · exact merge

/-- A load that passes the policy of its schema is not refused. -/
theorem unrefused_composeLoad {key : DatasetKey} {dialect : Sql.Dialect} {transactional : Bool}
    (found : c.get? key = some d) (passed : checkSchemaPolicy c d = .ok ()) :
    Unrefused (composeLoad c key dialect transactional) := by
  have lookup : liftCatalog (c.get key) = .ok d := by
    rw [Catalog.get_eq_ok_iff.mpr found]
    rfl
  have capable (plan : LoadPlan) : Unrefused (checkCapabilities plan dialect) := by
    rw [checkCapabilities]
    split
    · exact unrefused_error id
    · exact unrefused_ok _
  rw [composeLoad, lookup]
  refine (unrefused_resolveLoadPlan passed).bind fun plan => (capable plan).bind fun _ => ?_
  intro e failed
  rcases bind_eq_error_iff.mp failed with early | ⟨planned, made, late⟩
  · exact unrefused_loadStatements plan transactional e early
  · refine (unrefused_renderPlanned fun p member => ?_).bind (fun _ => unrefused_ok _) e late
    rcases mem_of_loadStatements made member with ⟨s, rfl⟩ | rfl
    · exact unrefused_ok s
    · exact unrefused_deleteDetection.map

end

end Warehouse
