/-
Module: Warehouse.Proofs.Load.Fingerprint
Purpose: How far the fingerprint of a catalog tells its loads. It covers the datasets, but neither
  the policies of the schemas nor the query nodes. Catalogs that agree in these too have the same
  loads. On the fingerprint alone the loads depend just where no dataset comes to its schema or its
  query tree: shadows that are no views of a query, and datasets that are refused whatever their
  schema says.
Trusted boundary: none
Main exports: Dataset.LoadsAlone, Catalog.SameLoads, Catalog.Twin, Catalog.variant,
  fingerprint_covers_loads_iff
-/
import Warehouse.Proofs.Catalog.Acceptance
import Warehouse.Proofs.Catalog.Fingerprint
import Warehouse.Proofs.Catalog.Reload
import Warehouse.Proofs.Load.Dependence

namespace Warehouse

/-! ### Datasets whose loads depend on datasets alone

A fingerprint is made of the datasets of a catalog. Besides them a load may look at the schema of
its target, for what it allows, and at the query nodes, for its source. Some datasets make neither
matter. -/

/-- Whether a dataset that is no shadow is refused whatever its schema and its query tree are. -/
def Dataset.NeverLoads (d : Dataset) : Prop :=
  d.materialization = .externalPassthrough ∨
    d.materialization ≠ .view ∧ (d.strategy = .merge ∨ d.strategy = .historize) ∧ d.naturalKeys = []

/-- Whether the load of a dataset depends on the datasets of its catalog alone. -/
inductive Dataset.LoadsAlone (d : Dataset) : Prop where
  /-- A shadow has no policy. It is loaded from its base, unless it is a view. -/
  | shadow (shadow : d.isShadow = true) (treeless : d.materialization = .view → d.queryRoot? = none)
  /-- No policy has anything against the dataset, and it is refused before its query tree is looked
  at. -/
  | refused (plain : d.isShadow = false) (tree : d.queryRoot? ≠ none)
      (keyless : d.columnWithRole? .surrogateKey = none) (never : d.NeverLoads)

section

variable {c c' : Catalog} {d : Dataset}

private theorem checkSchemaPolicy_of_shadow (shadow : d.isShadow = true) :
    checkSchemaPolicy c d = .ok () := if_pos shadow

/-- What a schema may forbid a dataset that is no shadow: a surrogate key, or to be generated
without a query. -/
theorem checkSchemaPolicy_eq (plain : d.isShadow = false) {s : Schema}
    (schema : c.schema? d.schema = some s) : checkSchemaPolicy c d =
      match s.surrogateKeysEnabled, d.columnWithRole? .surrogateKey with
      | false, some column => .error (.surrogateKeysDisabled d.key column.name s.name)
      | _, _ => if ! s.generateLayer && d.queryRoot?.isNone then .error (.notGenerated d.key s.name)
        else .ok () := by
  rw [checkSchemaPolicy, if_neg (Bool.eq_false_iff.mp plain), Catalog.schemaOf, schema]
  rfl

/-- Without a surrogate key, and with a query, a dataset is allowed in every schema. -/
private theorem checkSchemaPolicy_of_keyless (plain : d.isShadow = false)
    (tree : d.queryRoot? ≠ none) (keyless : d.columnWithRole? .surrogateKey = none)
    (schema : ∃ s, c.schema? d.schema = some s) :
    checkSchemaPolicy c d = .ok () := by
  obtain ⟨s, schema⟩ := schema
  obtain ⟨root, tree⟩ := Option.ne_none_iff_exists'.mp tree
  rw [checkSchemaPolicy_eq plain schema, keyless, tree]
  simp

/-- How a dataset is loaded that passes the policy of its schema. -/
theorem resolveLoadPlan_eq (passed : checkSchemaPolicy c d = .ok ()) :
    resolveLoadPlan c d =
      match d.materialization with
      | .view => .ok ⟨d.key, .view, false, false⟩
      | .externalPassthrough => .error (.externalDataset d.key)
      | .table | .incremental =>
        if d.isShadow then
          if d.naturalKeys.isEmpty then .error (.missingNaturalKeys d.key)
          else .ok ⟨d.key, .historize, false, false⟩
        else match d.strategy with
          | .full => .ok ⟨d.key, .full, false, false⟩
          | .append => .ok ⟨d.key, .append, false, false⟩
          | .snapshot => .ok ⟨d.key, .snapshot, false, false⟩
          | .merge | .historize => mergePlan c d := by
  rw [resolveLoadPlan, passed]
  rfl

/-- What is never loaded is refused for the same reason wherever a schema allows it. -/
theorem Dataset.NeverLoads.exists_refusal (never : d.NeverLoads) (plain : d.isShadow = false) :
    ∃ e, ∀ c : Catalog, checkSchemaPolicy c d = .ok () → resolveLoadPlan c d = .error e := by
  rcases never with outside | ⟨noView, strategy, keys⟩
  · refine ⟨.externalDataset d.key, fun c passed => ?_⟩
    rw [resolveLoadPlan_eq passed, outside]
  · have merge (c : Catalog) : mergePlan c d = .error (.missingNaturalKeys d.key) := by
      rw [mergePlan, keys]
      rfl
    cases kind : d.materialization with
    | view => exact absurd kind noView
    | externalPassthrough =>
      refine ⟨.externalDataset d.key, fun c passed => ?_⟩
      rw [resolveLoadPlan_eq passed, kind]
    | table | incremental =>
      refine ⟨.missingNaturalKeys d.key, fun c passed => ?_⟩
      rw [resolveLoadPlan_eq passed, kind, plain]
      rcases strategy with strategy | strategy
      · simp only [strategy, merge, Bool.false_eq_true, if_false]
      · simp only [strategy, merge, Bool.false_eq_true, if_false]

/-- A dataset that passes the policy of its schema and comes to its query tree. -/
theorem exists_plan (passed : checkSchemaPolicy c d = .ok ())
    (schema : ∃ s, c.schema? d.schema = some s)
    (reads : d.isShadow = true ∧ d.materialization = .view ∨ d.isShadow = false ∧ ¬ d.NeverLoads) :
    ∃ plan, resolveLoadPlan c d = .ok plan ∧ plan.mode ≠ .historize := by
  rw [resolveLoadPlan_eq passed]
  cases kind : d.materialization with
  | view => exact ⟨_, rfl, by simp⟩
  | externalPassthrough =>
    rcases reads with ⟨_, view⟩ | ⟨_, loads⟩
    · rw [kind] at view
      cases view
    · exact absurd (.inl kind) loads
  | table | incremental =>
    rcases reads with ⟨_, view⟩ | ⟨plain, loads⟩
    · rw [kind] at view
      cases view
    · have noView : d.materialization ≠ .view := by
        rw [kind]
        decide
      have merge (strategy : d.strategy = .merge ∨ d.strategy = .historize) :
          ∃ plan, mergePlan c d = .ok plan ∧ plan.mode ≠ .historize := by
        obtain ⟨s, schema⟩ := schema
        have keys : d.naturalKeys.isEmpty = false := by
          rw [List.isEmpty_eq_false_iff]
          exact fun none => loads (.inr ⟨noView, strategy, none⟩)
        rw [mergePlan, keys, Catalog.schemaOf, schema]
        exact ⟨_, rfl, by simp⟩
      simp only [plain, Bool.false_eq_true, if_false]
      cases strategy : d.strategy with
      | full | append | snapshot => exact ⟨_, rfl, by simp⟩
      | merge => exact merge (.inl strategy)
      | historize => exact merge (.inr strategy)

/-- A dataset whose loads depend on datasets alone is planned in the same way, with the same
statements. -/
theorem Dataset.LoadsAlone.planned (alone : d.LoadsAlone) (same : c.SameDatasets c')
    (schema : ∃ s, c.schema? d.schema = some s) (schema' : ∃ s, c'.schema? d.schema = some s)
    (transactional : Bool) :
    resolveLoadPlan c d = resolveLoadPlan c' d ∧ ∀ plan, resolveLoadPlan c d = .ok plan →
      loadStatements c d plan transactional = loadStatements c' d plan transactional := by
  cases alone with
  | shadow shadow treeless =>
    have planned (c : Catalog) := resolveLoadPlan_eq (checkSchemaPolicy_of_shadow (c := c) shadow)
    simp only [shadow, if_true] at planned
    refine ⟨(planned c).trans (planned c').symm, fun plan resolved => ?_⟩
    rw [planned] at resolved
    cases kind : d.materialization with
    | view => exact same.loadStatements (.inl (treeless kind)) plan transactional
    | externalPassthrough =>
      rw [kind] at resolved
      cases resolved
    | table | incremental =>
      rw [kind] at resolved
      dsimp only at resolved
      split at resolved
      · cases resolved
      · cases resolved
        simp only [loadStatements, same.historyStatements]
  | refused plain tree keyless never =>
    obtain ⟨e, refused⟩ := never.exists_refusal plain
    have here := refused c (checkSchemaPolicy_of_keyless plain tree keyless schema)
    have there := refused c' (checkSchemaPolicy_of_keyless plain tree keyless schema')
    refine ⟨here.trans there.symm, fun plan resolved => ?_⟩
    rw [here] at resolved
    cases resolved

end

/-! ### Catalogs that differ outside of their datasets

To see what the fingerprint leaves out, schemas are given other policies and query nodes are added
that read nothing. The document is accepted as before, and its datasets are the same. -/

namespace Catalog

/-- The catalog under other policies, with other query nodes. -/
def variant (c : Catalog) (keys generate : Bool) (nodes : List QueryNode) : Catalog where
  schemas :=
    c.schemas.map fun s => { s with surrogateKeysEnabled := keys, generateLayer := generate }
  datasets := c.datasets
  queryNodes := nodes

variable {c : Catalog} {keys generate : Bool} {nodes : List QueryNode}

/-- The schema of a name is the one that was there, with the other policies. -/
theorem schema?_variant (name : String) : (c.variant keys generate nodes).schema? name =
    (c.schema? name).map fun s =>
    { s with surrogateKeysEnabled := keys, generateLayer := generate } := by
  rw [schema?, variant, ← List.map_reverse, List.find?_map]
  rfl

private theorem schema?_variant_of {name : String} {s : Schema} (schema : c.schema? name = some s) :
    (c.variant keys generate nodes).schema? name =
      some { s with surrogateKeysEnabled := keys, generateLayer := generate } := by
  rw [schema?_variant, schema]
  rfl

/-- Policies do not bear on which datasets want a history. -/
private theorem wantsHistory_variant (d : Dataset) :
    (c.variant keys generate nodes).wantsHistory d = c.wantsHistory d := by
  rw [wantsHistory, wantsHistory, schema?_variant]
  cases c.schema? d.schema <;> rfl

private theorem DistinctKeys.get?_variant (distinct : c.DistinctKeys) {d : Dataset}
    (member : d ∈ c.datasets) :
    (c.variant keys generate nodes).get? d.key = some d := distinct.get? member

/-- A turn takes no notice of policies and query nodes. -/
theorem Turn.variant {base : Dataset} {number : UInt32} {c' : Catalog}
    (turn : c.Turn base number c') :
    (c.variant keys generate nodes).Turn base number (c'.variant keys generate nodes) := by
  cases turn with
  | updated declared => exact .updated declared
  | generated schema absent =>
    obtain ⟨s, there, named⟩ := schema
    exact .generated ⟨_, List.mem_map_of_mem there, named⟩ absent

/-- A turn goes as it did. -/
theorem syncShadow_variant {c' : Catalog} {key : DatasetKey} (sync : c.syncShadow key = .ok c') :
    (c.variant keys generate nodes).syncShadow key = .ok (c'.variant keys generate nodes) := by
  obtain ⟨number, base, next, found, turn⟩ := syncShadow_eq_ok_iff.mp sync
  exact syncShadow_eq_ok_iff.mpr ⟨number, base, next, found, turn.variant⟩

/-- So do all turns. -/
private theorem syncShadowsOf_variant {c' : Catalog} {bases : List DatasetKey}
    (sync : c.syncShadowsOf bases = .ok c') :
    (c.variant keys generate nodes).syncShadowsOf bases =
      .ok (c'.variant keys generate nodes) := by
  induction bases generalizing c with
  | nil =>
    cases sync
    rfl
  | cons key rest ih =>
    obtain ⟨c₁, first, later⟩ := bind_eq_ok_iff.mp sync
    exact bind_eq_ok_iff.mpr ⟨_, syncShadow_variant first, ih later⟩

private theorem historizedKeys_variant :
    (c.variant keys generate nodes).historizedKeys = c.historizedKeys := by
  rw [historizedKeys, historizedKeys]
  simp only [wantsHistory_variant]
  rfl

/-- If no node names a dataset, query trees have nothing to add to a dataset. -/
theorem linkSources_of_silent (silent : ∀ n ∈ nodes, n.dataset? = none) (d : Dataset) :
    linkSources ⟨nodes⟩ d = d := by
  refine linkSources_eq_self fun root _ u source => ?_
  obtain ⟨id, n, node, named⟩ := QueryGraph.exists_node_of_mem_sourceDatasets source
  rw [silent n (List.mem_reverse.mp (List.mem_of_find?_eq_some node))] at named
  cases named

/-- An accepted catalog is accepted under other policies, with query nodes that name no dataset. Its
document is the first one, linked to the query trees that there were, so that each shadow gets the
number that it had. -/
theorem exists_ofDocument_variant {doc : CatalogDocument} (accepted : ofDocument doc = .ok c)
    (silent : ∀ n ∈ nodes, n.dataset? = none) :
    ∃ doc', ofDocument doc' = .ok (c.variant keys generate nodes) := by
  obtain ⟨schemas, distinct, _, synced, closed⟩ := ofDocument_eq_ok_iff.mp accepted
  have linked : (doc.linked.variant keys generate nodes).toDocument.linked =
      doc.linked.variant keys generate nodes := by
    refine congrArg (Catalog.mk _ · _) ?_
    exact (List.map_congr_left fun d _ => linkSources_of_silent silent d).trans (List.map_id _)
  refine ⟨(doc.linked.variant keys generate nodes).toDocument,
    ofDocument_eq_ok_iff.mpr ⟨fun d member => ?_, CatalogDocument.linked_distinctKeys distinct,
      fun id key reference => ?_, ?_, closed⟩⟩
  · obtain ⟨s, schema, named⟩ := CatalogDocument.linked_schemasDeclared schemas d member
    exact ⟨_, List.mem_map_of_mem schema, named⟩
  · obtain ⟨n, node, named⟩ := QueryGraph.mem_references_iff.mp reference
    rw [silent n (List.mem_reverse.mp (List.mem_of_find?_eq_some node))] at named
    cases named
  · rw [linked, historizedKeys_variant]
    exact syncShadowsOf_variant synced

/-- A catalog whose datasets are those of another one, as far as its fingerprint tells. -/
structure Twin (c c' : Catalog) : Prop where
  accepted : ∃ doc, ofDocument doc = .ok c'
  legible : c'.Legible
  text : c'.fingerprintText = c.fingerprintText

/-- The catalog and its variant have the same datasets, so they have the same fingerprint. -/
theorem twin_variant {doc : CatalogDocument} (accepted : ofDocument doc = .ok c)
    (legible : c.Legible) (silent : ∀ n ∈ nodes, n.dataset? = none) :
    c.Twin (c.variant keys generate nodes) :=
  ⟨exists_ofDocument_variant accepted silent, legible, rfl⟩

/-- Whether every load has the same statements in both catalogs, or fails with the same error. -/
def SameLoads (c c' : Catalog) : Prop :=
  ∀ key dialect transactional, (composeLoad c key dialect transactional).map LoadSql.statements =
    (composeLoad c' key dialect transactional).map LoadSql.statements

end Catalog

section

variable {c : Catalog} {d : Dataset} {nodes : List QueryNode}

/-- A policy that has something against the dataset. -/
theorem exists_refusal_variant (plain : d.isShadow = false)
    (schema : ∃ s, c.schema? d.schema = some s)
    (refusable : d.columnWithRole? .surrogateKey ≠ none ∨ d.queryRoot? = none) :
    ∃ e, e.OfPolicy ∧ checkSchemaPolicy (c.variant false false nodes) d = .error e := by
  obtain ⟨s, schema⟩ := schema
  rw [checkSchemaPolicy_eq plain (Catalog.schema?_variant_of schema)]
  cases key : d.columnWithRole? .surrogateKey with
  | some column => exact ⟨.surrogateKeysDisabled d.key column.name s.name, trivial, rfl⟩
  | none =>
    rw [refusable.resolve_left fun some => some key]
    exact ⟨.notGenerated d.key s.name, trivial, rfl⟩

/-- A policy that has nothing against any dataset. -/
theorem checkSchemaPolicy_variant (schema : ∃ s, c.schema? d.schema = some s) :
    checkSchemaPolicy (c.variant true true nodes) d = .ok () := by
  obtain ⟨s, schema⟩ := schema
  cases shadow : d.isShadow with
  | true => exact checkSchemaPolicy_of_shadow shadow
  | false =>
    rw [checkSchemaPolicy_eq shadow (Catalog.schema?_variant_of schema)]
    rfl

/-- What cannot be read cannot be loaded. -/
theorem composeLoad_eq_error {plan : LoadPlan} {dialect : Sql.Dialect} {transactional : Bool}
    {e : LoadError} (found : c.get? d.key = some d) (resolved : resolveLoadPlan c d = .ok plan)
    (mode : plan.mode ≠ .historize)
    (unread : ∀ applyFilter, sourceQuery c d applyFilter = .error e) :
    composeLoad c d.key dialect transactional = .error e := by
  have capable : checkCapabilities plan dialect = .ok () :=
    if_neg (by simp [Sql.Dialect.hasDeleteDetection])
  have statements : loadStatements c d plan transactional = .error e := by
    cases kind : plan.mode with
    | historize => exact absurd kind mode
    | view | full | append | snapshot | merge =>
      simp only [loadStatements, kind, unread]
      rfl
  rw [composeLoad, Catalog.get_eq_ok_iff.mpr found]
  show (resolveLoadPlan c d >>= _) = _
  rw [resolved]
  show (checkCapabilities plan dialect >>= _) = _
  rw [capable]
  show (loadStatements c d plan transactional >>= _) = _
  rw [statements]
  rfl

/-- A node that lacks its input. -/
def orphan (root : NodeId) : QueryNode := ⟨root, none, .window []⟩

/-- Without query nodes a query tree has no root. -/
private theorem sourceQuery_of_no_nodes {root : NodeId} (tree : d.queryRoot? = some root)
    (none : c.queryNodes = []) (applyFilter : Bool) :
    sourceQuery c d applyFilter = .error (.catalog (.unknownQueryNode root)) := by
  rw [sourceQuery, tree, Catalog.queryGraph, none]
  dsimp only
  rw [QueryGraph.inferContract_eq]
  rfl

/-- A window without an input has no contract that could be used. -/
private theorem sourceQuery_of_orphan {root : NodeId} (tree : d.queryRoot? = some root)
    (single : c.queryNodes = [orphan root]) (applyFilter : Bool) : sourceQuery c d applyFilter =
      .error (.catalog (.invalidContract root [⟨root, .missingInput "window"⟩])) := by
  have node : (⟨[orphan root]⟩ : QueryGraph).node root = .ok (orphan root) := by
    simp [QueryGraph.node, QueryGraph.node?, orphan]
  have contract : (⟨[orphan root]⟩ : QueryGraph).inferContract c root =
      .ok ⟨[], [⟨root, .missingInput "window"⟩]⟩ := by
    rw [QueryGraph.inferContract_eq, QueryGraph.inferAt_succ, node]
    rfl
  rw [sourceQuery, tree, Catalog.queryGraph, single]
  dsimp only
  rw [QueryGraph.plan, contract]
  rfl

/-- A load that a schema forbids is not composed. -/
private theorem composeLoad_eq_error_of_policy {key : DatasetKey} {dialect : Sql.Dialect}
    {transactional : Bool} {e : LoadError} (found : c.get? key = some d)
    (refused : checkSchemaPolicy c d = .error e) :
    composeLoad c key dialect transactional = .error e := by
  have planned : resolveLoadPlan c d = .error e := by
    rw [resolveLoadPlan, refused]
    rfl
  rw [composeLoad, Catalog.get_eq_ok_iff.mpr found]
  show (resolveLoadPlan c d >>= _) = _
  rw [planned]
  rfl

end

/-! ### What the fingerprint covers -/

namespace Catalog

variable {doc : CatalogDocument} {c : Catalog}

private theorem exists_schema? (schemas : c.SchemasDeclared) {d : Dataset}
    (member : d ∈ c.datasets) : ∃ s, c.schema? d.schema = some s := by
  rw [← Option.isSome_iff_exists, ← Option.not_isNone, Bool.not_eq_true', Bool.eq_false_iff]
  exact fun none => schema?_isNone_iff.mp none (schemas d member)

/-- If a policy can refuse the dataset, twins have different loads. -/
theorem not_refusable (accepted : ofDocument doc = .ok c) (legible : c.Legible)
    (covered : ∀ c', c.Twin c' → c.SameLoads c') {d : Dataset} (member : d ∈ c.datasets)
    (plain : d.isShadow = false) :
    d.columnWithRole? .surrogateKey = none ∧ d.queryRoot? ≠ none := by
  have all := syncedAll_of_ofDocument accepted
  have schema := exists_schema? all.schemasDeclared member
  rw [← not_ne_iff, ← not_or]
  intro refusable
  have refusal : ∃ e, e.OfPolicy ∧ checkSchemaPolicy (c.variant false false []) d = .error e :=
    exists_refusal_variant plain schema refusable
  obtain ⟨e, policy, refused⟩ := refusal
  have twin (flag : Bool) : c.SameLoads (c.variant flag flag []) :=
    covered _ (twin_variant accepted legible fun n none => absurd none List.not_mem_nil)
  have here : composeLoad (c.variant false false []) d.key .duckdb true = .error e :=
    composeLoad_eq_error_of_policy (all.distinct.get?_variant member) refused
  have there : (composeLoad (c.variant true true []) d.key .duckdb true).map LoadSql.statements =
      .error e := by
    rw [← twin true, twin false, here]
    rfl
  exact unrefused_composeLoad (all.distinct.get?_variant member)
    (checkSchemaPolicy_variant schema) e (map_eq_error_iff.mp there) policy

/-- If the dataset comes to its query tree, twins have different loads. -/
theorem not_reads (accepted : ofDocument doc = .ok c) (legible : c.Legible)
    (covered : ∀ c', c.Twin c' → c.SameLoads c') {d : Dataset} (member : d ∈ c.datasets)
    (tree : d.queryRoot? ≠ none) :
    ¬ (d.isShadow = true ∧ d.materialization = .view ∨ d.isShadow = false ∧ ¬ d.NeverLoads) := by
  intro reads
  obtain ⟨root, tree⟩ := Option.ne_none_iff_exists'.mp tree
  have all := syncedAll_of_ofDocument accepted
  obtain ⟨s, schema⟩ := exists_schema? all.schemasDeclared member
  have failed {nodes : List QueryNode} (silent : ∀ n ∈ nodes, n.dataset? = none) {e : LoadError}
      (unread : ∀ applyFilter, sourceQuery (c.variant true true nodes) d applyFilter = .error e) :
      (composeLoad c d.key .duckdb true).map LoadSql.statements = .error e := by
    have passed : checkSchemaPolicy (c.variant true true nodes) d = .ok () :=
      checkSchemaPolicy_variant ⟨s, schema⟩
    obtain ⟨plan, resolved, mode⟩ := exists_plan passed ⟨_, schema?_variant_of schema⟩ reads
    rw [covered _ (twin_variant accepted legible silent),
      composeLoad_eq_error (all.distinct.get?_variant member) resolved mode unread]
    rfl
  have missing :=
    failed (fun n none => absurd none List.not_mem_nil) (sourceQuery_of_no_nodes tree rfl)
  have faulty := failed (List.forall_mem_singleton.mpr rfl) (sourceQuery_of_orphan tree rfl)
  rw [missing] at faulty
  cases faulty

/-- Where the fingerprint covers all loads, each dataset is loaded by itself. -/
theorem loadsAlone_of_covered (accepted : ofDocument doc = .ok c) (legible : c.Legible)
    (covered : ∀ c', c.Twin c' → c.SameLoads c') {d : Dataset} (member : d ∈ c.datasets) :
    d.LoadsAlone := by
  cases plain : d.isShadow with
  | true =>
    refine .shadow plain fun view => ?_
    by_contra tree
    exact not_reads accepted legible covered member tree (.inl ⟨plain, view⟩)
  | false =>
    obtain ⟨keyless, tree⟩ := not_refusable accepted legible covered member plain
    refine .refused plain tree keyless ?_
    by_contra loads
    exact not_reads accepted legible covered member tree (.inr ⟨plain, loads⟩)

/-- Accepted catalogs of one fingerprint have the same load of a dataset if its loads depend on the
datasets alone, or if they have the same schema and the same query tree for it. And the fingerprint
of a catalog tells all of its loads just if the loads of each of its datasets depend on the datasets
alone. -/
theorem fingerprint_covers_loads_iff (accepted : ofDocument doc = .ok c) (legible : c.Legible) :
    (∀ c', c.Twin c' → ∀ key,
      (∀ d, c.get? key = some d → d.LoadsAlone ∨ c.schema? d.schema = c'.schema? d.schema ∧
        d.SameTree c c') → ∀ dialect transactional,
          composeLoad c key dialect transactional = composeLoad c' key dialect transactional) ∧
      ((∀ c', c.Twin c' → c.SameLoads c') ↔ ∀ d ∈ c.datasets, d.LoadsAlone) := by
  have all := syncedAll_of_ofDocument accepted
  have agree (c' : Catalog) (twin : c.Twin c') (key : DatasetKey)
      (each : ∀ d, c.get? key = some d →
        d.LoadsAlone ∨ c.schema? d.schema = c'.schema? d.schema ∧ d.SameTree c c')
      (dialect : Sql.Dialect) (transactional : Bool) :
      composeLoad c key dialect transactional = composeLoad c' key dialect transactional := by
    obtain ⟨doc', accepted'⟩ := twin.accepted
    have all' := syncedAll_of_ofDocument accepted'
    have perm := perm_of_fingerprintText_eq legible twin.legible twin.text.symm
    have same : c.SameDatasets c' := (perm_iff_get?_eq all.distinct all'.distinct).mp perm
    refine composeLoad_eq_of_same same fun d found => ?_
    obtain ⟨member, rfl⟩ := of_get? found
    rcases each d found with alone | ⟨schema, tree⟩
    · exact alone.planned same (exists_schema? all.schemasDeclared member)
        (exists_schema? all'.schemasDeclared (perm.mem_iff.mp member)) transactional
    · exact ⟨resolveLoadPlan_eq_of_same schema,
        fun plan _ => same.loadStatements tree plan transactional⟩
  refine ⟨agree, fun covered d member => loadsAlone_of_covered accepted legible covered member, ?_⟩
  intro alone c' twin key dialect transactional
  rw [agree c' twin key fun d found => .inl (alone d (of_get? found).1)]

/-! ### Customers under other policies

The customers have a surrogate key. Whether their schema allows one is not hashed, but decides
whether they can be loaded. -/

/-- The customers, where the schemas say something else on what is generated and on surrogate
keys. -/
def customersUnder (generate keys : Bool) : Catalog :=
  { customersCatalog [] 3 with
    schemas := [⟨"stage", .stage, true, false, generate⟩, ⟨"core", .rawcore, keys, false, true⟩] }

/-- The document of the customers under these policies. -/
def customersDocumentUnder (generate keys : Bool) : CatalogDocument :=
  { customersDocument [] [] with schemas := (customersUnder generate keys).schemas }

/-- Both documents are accepted. -/
theorem ofDocument_customersUnder (generate keys : Bool) :
    ofDocument (customersDocumentUnder generate keys) = .ok (customersUnder generate keys) := by
  cases generate <;> cases keys <;> with_unfolding_all rfl

private theorem legible_customersUnder (generate keys : Bool) :
    (customersUnder generate keys).Legible := by
  refine legible_of_ofDocument (ofDocument_customersUnder generate keys)
    ⟨fun d declared k named => ?_, nofun⟩
  have arrived : ∀ d ∈ [stagedCustomers, customers], ∀ k ∈ d.references,
    k = arrivedCustomers := by decide
  rw [arrived d declared k named]
  exact ⟨by simp [arrivedCustomers], by simp [arrivedCustomers]⟩

/-- Without surrogate keys the load of the customers is refused. -/
theorem composeLoad_customers_refused (dialect : Sql.Dialect) (transactional : Bool) :
    composeLoad (customersUnder true false) customers.key dialect transactional =
      .error (.surrogateKeysDisabled customers.key "customers_key" "core") := by
  have refused : checkSchemaPolicy (customersUnder true false) customers =
      .error (.surrogateKeysDisabled customers.key "customers_key" "core") := rfl
  exact composeLoad_eq_error_of_policy rfl refused

private theorem not_sameLoads_customersUnder :
    ¬ (customersUnder true true).SameLoads (customersUnder true false) := by
  intro same
  have passed : checkSchemaPolicy (customersUnder true true) customers = .ok () := rfl
  have refused := same customers.key .duckdb true
  rw [composeLoad_customers_refused] at refused
  exact unrefused_composeLoad rfl passed _ (map_eq_error_iff.mp refused) trivial

/-- The load of the customers does not depend on what is generated for the stage. But it depends on
whether their own schema has surrogate keys, and that the fingerprint does not tell. -/
theorem customers_covered_in_part :
    ofDocument (customersDocumentUnder true true) = .ok (customersUnder true true) ∧
      (customersUnder true true).Legible ∧
      (customersUnder true true).Twin (customersUnder false true) ∧
      (∀ dialect transactional,
        composeLoad (customersUnder true true) customers.key dialect transactional =
        composeLoad (customersUnder false true) customers.key dialect transactional) ∧
      ¬ ∀ c', (customersUnder true true).Twin c' → (customersUnder true true).SameLoads c' := by
  have accepted := ofDocument_customersUnder true true
  have legible := legible_customersUnder true true
  obtain ⟨agree, covered⟩ := fingerprint_covers_loads_iff accepted legible
  have twin : (customersUnder true true).Twin (customersUnder false true) :=
    ⟨⟨_, ofDocument_customersUnder false true⟩, legible_customersUnder false true, rfl⟩
  refine ⟨accepted, legible, twin, agree _ twin _ fun d found => .inr ⟨?_, .inr rfl⟩,
    fun always => ?_⟩
  · obtain rfl : customers = d := Option.some.inj found
    rfl
  · cases covered.mp always customers (List.mem_cons_of_mem _ List.mem_cons_self) with
    | shadow shadow _ => cases shadow
    | refused _ tree _ _ => exact tree rfl

/-- Two catalogs of one fingerprint, of which one refuses to load the customers. -/
theorem not_always_same_loads :
    ¬ ∀ doc doc' c c', ofDocument doc = .ok c → ofDocument doc' = .ok c' →
      c.fingerprintText = c'.fingerprintText → c.SameLoads c' := by
  intro always
  have same :=
    always _ _ _ _ (ofDocument_customersUnder true true) (ofDocument_customersUnder true false) rfl
  exact not_sameLoads_customersUnder same

end Catalog

end Warehouse
