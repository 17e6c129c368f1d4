/-
Module: Warehouse.Proofs.Load.Synchronise
Purpose: A merging load that detects deletes brings a table in line with its input, as far as the
  incremental filter looks. The merge and the anti-join of the delete are written by different
  functions, but both find the same rows: a row of the target matches a row of the input if it has
  its natural key.
Trusted boundary: none
Main exports: inScope, Synchronised, DetectsDeletes, load_synchronises
-/
import Warehouse.Load.Compose
import Warehouse.Proofs.Lists
import Warehouse.Proofs.Load.SourceRows
import Warehouse.Proofs.Sql.MergeFallback

namespace Warehouse

open Sql

variable {V : Type} [LinearOrder V]

/-! ### The delete -/

/-- Whether the delete looks at a row of the dataset: the incremental filter, carried over to the
columns of the dataset, lets it through. -/
def inScope (w : World V) (d input : Dataset) (t : Row V) : Bool :=
  Expr.passes w (d.incrementalFilter?.bind fun filter => (windowCondition d input filter).toOption)
    [(d.objectName, t)]

/-- The keys are matched with the columns of the input that feed them. -/
theorem keyMatches_spec (w : World V) {d : Dataset} {input : DatasetKey} {names : List String}
    {join : List Expr} (built : keyMatches d input names = .ok join) {sc : Scope V} {u t : Row V}
    (source : sc.lookup ⟨none, loadAlias⟩ = some u) (target : sc.lookup d.objectName = some t) :
    (join.all fun p => Expr.passes w (some p) sc) = names.all fun k =>
      decide (∃ v, ((d.column? k).bind (·.sourceIn? input)).bind u.get = some v ∧
        t.get k = some v) := by
  induction names generalizing join with
  | nil =>
    cases built
    rfl
  | cons k rest ih =>
    unfold keyMatches at built
    split at built
    · cases built
    · next column feeds =>
      obtain ⟨others, later, same⟩ := bind_eq_ok_iff.mp built
      cases same
      rw [List.all_cons, List.all_cons, ih later]
      congr 1
      rw [Bool.eq_iff_iff, Expr.colOf, Expr.passes_column_eq w source target,
        decide_eq_true_iff, feeds, Option.bind_some]

/-- The delete, piece by piece. -/
theorem deleteDetection_eq {c : Catalog} {d input : Dataset} {statement : Delete}
    (primary : d.primaryInput? = some input.key) (known : c.get? input.key = some input)
    (built : deleteDetection c d = .ok statement) :
    ∃ join, keyMatches d input.key d.naturalKeys = .ok join ∧
      statement = (⟨d.objectName, d.incrementalFilter?.bind fun filter =>
        (windowCondition d input filter).toOption⟩ : Delete).andWhere
          (.exists (.select ⟨false, [⟨.literal (.int 1), none⟩],
            some (.table ⟨input.objectName, some loadAlias⟩), Expr.andAll join, []⟩) true) := by
  unfold deleteDetection at built
  simp only [primary] at built
  split at built
  · cases built
  · obtain ⟨found, lookup, built⟩ := bind_eq_ok_iff.mp built
    have found_eq : found = input := by
      simpa [Catalog.get, known, liftCatalog, Except.mapError, eq_comm] using lookup
    subst found_eq
    obtain ⟨join, matched, built⟩ := bind_eq_ok_iff.mp built
    refine ⟨join, matched, ?_⟩
    cases filter : d.incrementalFilter? with
    | none =>
      simp only [filter] at built
      cases built
      rfl
    | some text =>
      simp only [filter] at built
      obtain ⟨window, carried, built⟩ := bind_eq_ok_iff.mp built
      cases built
      simp only [Option.bind_some, carried]
      rfl

/-- The delete removes the rows in its scope whose natural key no row of the input has. -/
theorem run_deleteDetection (w : World V) {c : Catalog} {d input : Dataset} {statement : Delete}
    (primary : d.primaryInput? = some input.key) (known : c.get? input.key = some input)
    (built : deleteDetection c d = .ok statement) :
    statement.run w = w.set d.objectName ((w.tables d.objectName).filter fun t =>
      ! (inScope w d input t &&
        ! (w.tables input.objectName).any fun u =>
        t.agree d.naturalKeys (inputKey d input.key u))) := by
  obtain ⟨join, matched, rfl⟩ := deleteDetection_eq primary known built
  have joins (t u : Row V) :
      Expr.passes w (Expr.andAll join) [(⟨none, loadAlias⟩, u), (d.objectName, t)] =
        t.agree d.naturalKeys (inputKey d input.key u) := by
    have apart : d.objectName ≠ ⟨none, loadAlias⟩ := by simp [Dataset.objectName]
    rw [Expr.passes_andAll, keyMatches_spec w matched (u := u) (t := t) List.lookup_cons_self
      (by rw [Scope.lookup_cons_of_ne apart, List.lookup_cons_self]), Bool.eq_iff_iff,
      Row.agree_iff, List.all_eq_true]
    refine forall₂_congr fun k key => ?_
    rw [decide_eq_true_iff, get_inputKey input.key u key]
    exact exists_congr fun v => and_comm
  have removed (t : Row V) :
      Expr.passes w ((⟨d.objectName, d.incrementalFilter?.bind fun filter =>
          (windowCondition d input filter).toOption⟩ : Delete).andWhere
        (.exists (.select ⟨false, [⟨.literal (.int 1), none⟩],
          some (.table ⟨input.objectName, some loadAlias⟩), Expr.andAll join, []⟩) true)).filter
        [(d.objectName, t)] =
      (inScope w d input t &&
        ! (w.tables input.objectName).any fun u =>
        t.agree d.naturalKeys (inputKey d input.key u)) := by
    rw [Delete.andWhere, Expr.passes_addFilter, Expr.passes_exists,
      Plan.rows_probe_isEmpty, inScope]
    simp only [joins, beq_true]
  rw [Delete.run]
  exact congrArg (w.set d.objectName) (List.filter_congr fun t _ => congrArg (! ·) (removed t))

/-! ### Tables in line -/

/-- A table is in line with its input: each row of the input in the window has one row, with the
values that the load computes; a row of another row of the input is left alone, and so is a row
without one unless it is in scope, in which case it is gone; and there is nothing else. -/
structure Synchronised (keys : List String) (key : Row V → Row V) (window scope : Row V → Bool)
    (values : Row V → Row V → Prop) (input before after : Table V) : Prop where
  keyed : Keyed keys after
  loaded : ∀ u ∈ input, window u = true →
    ∃ t, after.filter (·.agree keys (key u)) = [t] ∧ values u t
  outside : ∀ u ∈ input, window u = false → ∀ t ∈ before, t.agree keys (key u) = true → t ∈ after
  kept : ∀ t ∈ before, (∀ u ∈ input, t.agree keys (key u) = false) → scope t = false → t ∈ after
  gone : ∀ t ∈ before, (∀ u ∈ input, t.agree keys (key u) = false) → scope t = true →
    ∀ r ∈ after, r.agree keys t = false
  nothingElse : ∀ r ∈ after, r ∈ before ∨ ∃ u ∈ input, window u = true ∧ r.agree keys (key u) = true

/-- The target after the merge and the delete. -/
def mergedInScope (keys updates inserts : List String) (key load : Row V → Row V)
    (window scope : Row V → Bool) (target input : Table V) : Table V :=
  (merged keys updates inserts target ((input.filter window).map load)).filter fun t =>
    ! (scope t && ! input.any fun u => t.agree keys (key u))

section

variable {keys updates inserts : List String} {key load : Row V → Row V}
    {window scope : Row V → Bool}
  {target input : Table V}

/-- The rows that are loaded have keys if the input has. -/
theorem keyed_loaded (rows : Keyed keys (input.map key))
    (loads : ∀ u, ∀ k ∈ keys, (load u).get k = (key u).get k) :
    Keyed keys ((input.filter window).map load) where
  there r member k hk := by
    obtain ⟨u, hu, rfl⟩ := List.mem_map.mp member
    rw [loads u k hk]
    exact rows.there (key u) (List.mem_map_of_mem (List.mem_filter.mp hu).1) k hk
  unique := by
    have unique := rows.unique
    rw [List.pairwise_map] at unique ⊢
    refine (unique.filter window).imp fun {u u'} differ => ?_
    rw [Row.agree_congr (loads u) (loads u'), differ]

/-- What is there after the merge, unless it is in the scope and no input row has its key. -/
theorem mem_mergedInScope {t : Row V} :
    t ∈ mergedInScope keys updates inserts key load window scope target input ↔
      t ∈ merged keys updates inserts target ((input.filter window).map load) ∧
        (scope t = true → ∃ u ∈ input, t.agree keys (key u) = true) := by
  rw [mergedInScope, List.mem_filter]
  cases scope t <;> simp

/-- A row agrees on the keys with what is loaded of an input row just if it does with that row. -/
theorem agree_load (loads : ∀ u, ∀ k ∈ keys, (load u).get k = (key u).get k) (t u : Row V) :
    t.agree keys (load u) = t.agree keys (key u) := Row.agree_congr (fun _ _ => rfl) (loads u)

/-- A row of the target that has the key of no loaded row stays as it is in the merge. -/
theorem mem_merged_of_apart (loads : ∀ u, ∀ k ∈ keys, (load u).get k = (key u).get k) {t : Row V}
    (member : t ∈ target) (apart : ∀ u ∈ input, window u = true → t.agree keys (key u) = false) :
    t ∈ merged keys updates inserts target ((input.filter window).map load) := by
  refine mem_merged_of_unmatched member fun s hs => ?_
  obtain ⟨u, hu, rfl⟩ := List.mem_map.mp hs
  obtain ⟨hu, inside⟩ := List.mem_filter.mp hu
  rw [agree_load loads]
  exact apart u hu inside

variable (updates window scope) in
/-- A merge of the rows in the window, followed by the delete, brings the target in line. -/
theorem synchronised_mergedInScope (before : Keyed keys target) (rows : Keyed keys (input.map key))
    (loads : ∀ u, ∀ k ∈ keys, (load u).get k = (key u).get k)
    (inserted : ∀ k ∈ keys, ∃ c ∈ inserts, Text.sameIgnoringAsciiCase c k = true) :
    Synchronised keys key window scope
      (fun u t => ∀ c ∈ updates, c ∈ inserts → t.get c = (load u).get c) input target
      (mergedInScope keys updates inserts key load window scope target input) := by
  have loaded : Keyed keys ((input.filter window).map load) := keyed_loaded rows loads
  have merged_keyed := keyed_merged updates before loaded inserted
  constructor
  case keyed => exact merged_keyed.filter _
  case loaded =>
    intro u hu inside
    obtain ⟨r, member, agrees, values⟩ :=
      exists_merged updates (loaded.matchesOnce target) loaded inserted
      (List.mem_map_of_mem (List.mem_filter.mpr ⟨hu, inside⟩))
    rw [agree_load loads] at agrees
    refine ⟨r, filter_eq_singleton ((merged_keyed.filter _).single (key u)) ?_ agrees, values⟩
    exact mem_mergedInScope.mpr ⟨member, fun _ => ⟨u, hu, agrees⟩⟩
  case outside =>
    intro u hu outside t ht agrees
    have apart : ∀ u' ∈ input, window u' = true → t.agree keys (key u') = false := by
      intro u' hu' inside
      by_contra agrees'
      have same : u = u' := rows.eq_of_map hu hu'
        (Row.agree_trans (by rwa [Row.agree_comm]) (by simpa using agrees'))
      rw [← same, outside] at inside
      cases inside
    exact mem_mergedInScope.mpr ⟨mem_merged_of_apart loads ht apart, fun _ => ⟨u, hu, agrees⟩⟩
  case kept =>
    intro t ht orphan unscoped
    refine mem_mergedInScope.mpr ⟨mem_merged_of_apart loads ht fun u hu _ => orphan u hu,
      fun looked => ?_⟩
    rw [unscoped] at looked
    cases looked
  case gone =>
    intro t ht orphan looked r hr
    obtain ⟨member, still⟩ := mem_mergedInScope.mp hr
    by_contra agrees
    obtain rfl := merged_keyed.eq member (mem_merged_of_apart loads ht fun u hu _ => orphan u hu)
      (by simpa using agrees)
    obtain ⟨u, hu, agrees⟩ := still looked
    rw [orphan u hu] at agrees
    cases agrees
  case nothingElse =>
    intro r hr
    rcases of_mem_merged loaded inserted (mem_mergedInScope.mp hr).1 with before | ⟨s, hs, agrees⟩
    · exact .inl before
    · obtain ⟨u, hu, rfl⟩ := List.mem_map.mp hs
      obtain ⟨hu, inside⟩ := List.mem_filter.mp hu
      rw [agree_load loads] at agrees
      exact .inr ⟨u, hu, inside, agrees⟩

end

/-! ### The load -/

/-- An integrated dataset that is filled from the table of another, whose columns feed its natural
keys, and that detects deletes. No run has a dataset that is an input of its own. -/
structure DetectsDeletes (c : Catalog) (d input : Dataset) : Prop where
  known : c.get? d.key = some d
  inputKnown : c.get? input.key = some input
  integrated : ∃ s, c.schema? d.schema = some s ∧ s.effectiveLayer = .rawcore
  deletes : d.handleDeletes = true
  noTree : d.queryRoot? = none
  primary : d.primaryInput? = some input.key
  other : input.key ≠ d.key
  distinct : d.DistinctNames
  fed : FedKeys d input.key

/-- Only the plan of a merge is a plan to merge. -/
theorem mergePlan_of_mode {c : Catalog} {d : Dataset} {plan : LoadPlan}
    (planned : resolveLoadPlan c d = .ok plan) (merges : plan.mode = .merge) :
    mergePlan c d = .ok plan := by
  obtain ⟨_, _, planned⟩ := bind_eq_ok_iff.mp planned
  split at planned
  · cases planned
    cases merges
  · cases planned
  all_goals
    split at planned
    · split at planned
      · cases planned
      · cases planned
        cases merges
    · split at planned
      all_goals first
        | exact planned
        | (cases planned; cases merges)

/-- A merge that is planned has natural keys and handles deletions. -/
theorem mergePlan_spec {c : Catalog} {d input : Dataset} {plan : LoadPlan}
    (detects : DetectsDeletes c d input) (planned : mergePlan c d = .ok plan) :
    d.naturalKeys ≠ [] ∧ plan.handleDeletes = true := by
  unfold mergePlan at planned
  split at planned
  · cases planned
  · next keyed =>
    obtain ⟨schema, found, planned⟩ := bind_eq_ok_iff.mp planned
    obtain ⟨s, lookup, layer⟩ := detects.integrated
    have schema_eq : schema = s := by
      simpa [Catalog.schemaOf, lookup, liftCatalog, Except.mapError, eq_comm] using found
    cases planned
    exact ⟨by simpa using keyed, by simp [detects.deletes, schema_eq, layer]⟩

/-- What is rendered could be made. -/
theorem exists_of_renderPlanned {dialect : Dialect} {planned : List Planned} {texts : List String}
    (rendered : renderPlanned dialect planned = .ok texts) :
    ∀ p ∈ planned, ∃ statement, p = .ok statement := by
  induction planned generalizing texts with
  | nil => simp
  | cons p rest ih =>
    obtain ⟨statement, made, written⟩ := bind_eq_ok_iff.mp rendered
    obtain ⟨_, _, others⟩ := bind_eq_ok_iff.mp written
    obtain ⟨later, rendered, _⟩ := bind_eq_ok_iff.mp others
    rw [List.forall_mem_cons]
    exact ⟨⟨statement, made⟩, ih rendered⟩

/-- A load is put together from its plan and the texts of its statements. -/
theorem composeLoad_of_parts {c : Catalog} {key : DatasetKey} {d : Dataset} {plan : LoadPlan}
    {dialect : Dialect} {transactional : Bool} {planned : List Planned} {texts : List String}
    (known : c.get? key = some d) (resolved : resolveLoadPlan c d = .ok plan)
    (capable : checkCapabilities plan dialect = .ok ())
    (stated : loadStatements c d plan transactional = .ok planned)
    (rendered : renderPlanned dialect planned = .ok texts) :
    composeLoad c key dialect transactional = .ok ⟨plan, texts⟩ := by
  have found : liftCatalog (c.get key) = .ok d := by
    rw [Catalog.get, known]
    rfl
  exact bind_eq_ok_iff.mpr ⟨d, found, bind_eq_ok_iff.mpr ⟨plan, resolved,
    bind_eq_ok_iff.mpr ⟨(), capable, bind_eq_ok_iff.mpr ⟨planned, stated,
      bind_eq_ok_iff.mpr ⟨texts, rendered, rfl⟩⟩⟩⟩⟩

/-- A load of which every part can be made is composed. -/
theorem exists_composeLoad {c : Catalog} {key : DatasetKey} {d : Dataset} {plan : LoadPlan}
    {dialect : Dialect} {transactional : Bool} {planned : List Planned}
    (known : c.get? key = some d) (resolved : resolveLoadPlan c d = .ok plan)
    (capable : checkCapabilities plan dialect = .ok ())
    (stated : loadStatements c d plan transactional = .ok planned)
    (written : (renderPlanned dialect planned).isOk = true) :
    ∃ load, composeLoad c key dialect transactional = .ok load ∧ load.plan = plan := by
  cases rendered : renderPlanned dialect planned with
  | error e =>
    rw [rendered] at written
    cases written
  | ok texts =>
    exact ⟨⟨plan, texts⟩, composeLoad_of_parts known resolved capable stated rendered, rfl⟩

/-- A load that detects deletes is a merge and a delete. -/
theorem composeLoad_eq {c : Catalog} {d input : Dataset} {dialect : Dialect} {transactional : Bool}
    {load : LoadSql} (detects : DetectsDeletes c d input)
    (composed : composeLoad c d.key dialect transactional = .ok load)
    (merges : load.plan.mode = .merge) :
    d.naturalKeys ≠ [] ∧ ∃ (source : SourceQuery) (delete : Delete),
      mappedSource d true = .ok source ∧ deleteDetection c d = .ok delete ∧
      loadStatements c d load.plan transactional =
        .ok [.ok (.merge (mergeInto d source transactional)), .ok (.delete delete)] ∧
      renderPlanned dialect [.ok (.merge (mergeInto d source transactional)),
        .ok (.delete delete)] = .ok load.statements := by
  obtain ⟨found, lookup, composed⟩ := bind_eq_ok_iff.mp composed
  obtain ⟨plan, resolved, composed⟩ := bind_eq_ok_iff.mp composed
  obtain ⟨_, _, composed⟩ := bind_eq_ok_iff.mp composed
  obtain ⟨planned, stated, composed⟩ := bind_eq_ok_iff.mp composed
  obtain ⟨texts, rendered, same⟩ := bind_eq_ok_iff.mp composed
  cases same
  have found_eq : found = d := by
    simpa [Catalog.get, detects.known, liftCatalog, Except.mapError, eq_comm] using lookup
  subst found_eq
  obtain ⟨keyed, deletes⟩ := mergePlan_spec detects (mergePlan_of_mode resolved merges)
  have stated' := stated
  unfold loadStatements at stated'
  rw [show plan.mode = .merge from merges] at stated'
  obtain ⟨source, queried, stated'⟩ := bind_eq_ok_iff.mp stated'
  have mapped : mappedSource found true = .ok source := by
    simpa [sourceQuery, detects.noTree] using queried
  simp only [deletes, if_true] at stated'
  cases stated'
  obtain ⟨statement, made⟩ :=
    exists_of_renderPlanned rendered _ (List.mem_cons_of_mem _ List.mem_cons_self)
  obtain ⟨delete, detected⟩ : ∃ delete, deleteDetection c found = .ok delete := by
    cases detection : deleteDetection c found with
    | ok delete => exact ⟨delete, rfl⟩
    | error e =>
      rw [detection] at made
      cases made
  rw [detected] at stated rendered
  exact ⟨keyed, source, delete, mapped, detected, stated, rendered⟩

/-- The scope of the delete does not depend on what the tables hold. -/
theorem inScope_congr {w w' : World V} (engine : w'.engine = w.engine)
    (placeholder : w'.placeholder = w.placeholder) (d input : Dataset) :
    inScope w' d input = inScope w d input := by
  funext t
  unfold inScope
  cases filter : d.incrementalFilter?.bind fun text => (windowCondition d input text).toOption with
  | none => rfl
  | some e =>
    have reads : e.isLocal = true := by
      obtain ⟨text, _, carried⟩ := Option.bind_eq_some_iff.mp filter
      unfold windowCondition at carried
      simp only at carried
      split at carried
      · cases carried
        rfl
      · cases carried
    simp only [Expr.passes, engine, Expr.eval_congr engine placeholder _ e reads]

/-- The columns that a match overwrites are those that are neither natural keys nor a surrogate key,
as far as rows are concerned: all but the first surrogate key are overwritten too. -/
theorem mem_updatable {d : Dataset} {source : SourceQuery} {transactional : Bool}
    (distinct : d.DistinctNames) (columns : source.columns = d.orderedColumns.map Column.name)
    {c : Column} (member : c ∈ d.columns) (natural : d.isNaturalKey c.name = false)
    (surrogate : c.role? ≠ some .surrogateKey) :
    c.name ∈ (mergeInto d source transactional).updatable := by
  have filled : c.name ∈ source.columns := by
    rw [columns]
    exact List.mem_map_of_mem (mem_orderedColumns.mpr member)
  have unkeyed : c.name ∉ d.naturalKeys := fun key => by
    have same : d.isNaturalKey c.name = true :=
      List.any_eq_true.mpr ⟨c.name, key, by simp [Text.sameIgnoringAsciiCase]⟩
    rw [natural] at same
    cases same
  have updated : c.name ∈ mergeUpdateColumns d source.columns := by
    refine List.mem_filter.mpr ⟨filled, ?_⟩
    rw [natural]
    cases found : d.columnWithRole? .surrogateKey with
    | none => rfl
    | some key =>
      have role : key.role? = some .surrogateKey := by
        simpa using List.find?_some found
      have differ : key ≠ c := by
        rintro rfl
        exact surrogate role
      simp only [Bool.not_false, Bool.true_and, Bool.not_eq_true']
      by_contra same
      exact differ (distinct.eq (List.mem_of_find?_eq_some found) member (by simpa using same))
  exact List.mem_filter.mpr ⟨updated, by simpa [mergeInto] using unkeyed⟩

/-- Whether a row holds, in the columns that are neither natural keys nor a surrogate key, the
values that the source query computes for a row of the input. -/
def HoldsLoaded (w : World V) (d input : Dataset) (u t : Row V) : Prop :=
  ∀ c ∈ d.columns, d.isNaturalKey c.name = false → c.role? ≠ some .surrogateKey →
    ∃ e, columnValue d (some input.key) c = .ok e ∧
      t.get c.name = (e.eval w [(⟨none, loadAlias⟩, u)]).value w.engine

/-- A row with the values of the loaded row holds what the source query computes. -/
theorem holdsLoaded_of_get {w : World V} {d input : Dataset} {source : SourceQuery}
    {transactional : Bool} (detects : Dataset.DistinctNames d)
    (primary : d.primaryInput? = some input.key) (mapped : mappedSource d true = .ok source)
    (columns : source.columns = d.orderedColumns.map Column.name) {u t : Row V}
    (values : ∀ c ∈ (mergeInto d source transactional).updatable, c ∈ source.columns →
      t.get c = (loadedRow w d input.key u).get c) :
    HoldsLoaded w d input u t := by
  intro c member natural surrogate
  have filled : c.name ∈ source.columns := by
    rw [columns]
    exact List.mem_map_of_mem (mem_orderedColumns.mpr member)
  obtain ⟨items, built, _⟩ := mappedSource_eq primary mapped
  obtain ⟨item, made⟩ := exists_of_mapM_eq_ok built (mem_orderedColumns.mpr member)
  obtain ⟨value, _⟩ := item_of_columnValue made
  refine ⟨item.expr, value, ?_⟩
  rw [values c.name (mem_updatable detects columns member natural surrogate) filled,
    get_loadedRow detects w input.key u member (by simp [Text.sameIgnoringAsciiCase])]
  simp [loadedCell, value, Except.toOption]

/-- What the merge and the delete do to the table. -/
theorem runs_mergeDelete_iff {c : Catalog} {d input : Dataset} {dialect : Dialect}
    {transactional : Bool} {source : SourceQuery} {delete : Delete}
    (detects : DetectsDeletes c d input) (keyed : d.naturalKeys ≠ [])
    (mapped : mappedSource d true = .ok source) (detected : deleteDetection c d = .ok delete)
    (w : World V)
    (rows : Keyed d.naturalKeys ((w.tables input.objectName).map (inputKey d input.key)))
    (w' : World V) :
    RunsAll dialect w [.merge (mergeInto d source transactional), .delete delete] w' ↔
      w' = w.set d.objectName
        (mergedInScope d.naturalKeys (mergeInto d source transactional).updatable
        source.columns (inputKey d input.key) (loadedRow w d input.key) (inWindow w d)
        (inScope w d input) (w.tables d.objectName) (w.tables input.objectName)) := by
  obtain ⟨columns, read⟩ := mappedSource_spec w detects.primary mapped
  have apart : input.objectName ≠ d.objectName := fun same => by
    obtain ⟨schema, name⟩ := ObjectName.mk.inj same
    exact detects.other (by rw [Dataset.key, Dataset.key, Option.some.inj schema, name])
  have loads : ∀ u, ∀ k ∈ d.naturalKeys,
      (loadedRow w d input.key u).get k = (inputKey d input.key u).get k :=
    fun u k key => get_loadedRow_of_key detects.distinct w input.key u detects.fed key
  have once : MatchesOnce d.naturalKeys (w.tables d.objectName) (sourceRows w source.plan) := by
    rw [read]
    exact (keyed_loaded rows loads).matchesOnce _
  have merged_iff (u : World V) : (mergeInto d source transactional).Runs dialect w u ↔
      u = w.set d.objectName (merged d.naturalKeys (mergeInto d source transactional).updatable
        source.columns (w.tables d.objectName)
        (((w.tables input.objectName).filter (inWindow w d)).map (loadedRow w d input.key))) := by
    rw [show (w.tables input.objectName) = w.tables input.key.objectName from rfl, ← read]
    refine (mergeInto d source transactional).runs_iff w keyed ?_ once ?_
    · simp [mergeInto, Dataset.objectName]
    · rintro u ⟨_, _, _, _⟩
      exact rows_mappedSource_congr detects.primary mapped rfl rfl
        (World.tables_set_of_ne w _ apart)
  simp only [runsAll_merge, runsAll_delete, runsAll_nil, merged_iff, exists_eq_left]
  rw [run_deleteDetection _ detects.primary detects.inputKnown detected,
    World.tables_set_of_ne w _ apart, World.tables_set_self, World.set_set]
  rw [inScope_congr (World.engine_set w _ _) (World.placeholder_set w _ _), mergedInScope]

/-- A load that detects deletes brings its table in line with its input, whatever the two tables
hold as long as their natural keys are unique and not `NULL`, and whatever the incremental filter
means on the rows of either. -/
theorem load_synchronises {c : Catalog} {d input : Dataset} {dialect : Dialect}
    {transactional : Bool} {load : LoadSql} (detects : DetectsDeletes c d input)
    (composed : composeLoad c d.key dialect transactional = .ok load)
    (merges : load.plan.mode = .merge) :
    ∃ statements : List Statement,
      loadStatements c d load.plan transactional = .ok (statements.map .ok) ∧
      renderPlanned dialect (statements.map .ok) = .ok load.statements ∧
      ∀ w : World V, Keyed d.naturalKeys (w.tables d.objectName) →
        Keyed d.naturalKeys ((w.tables input.objectName).map (inputKey d input.key)) →
        ∃ after, (∀ w', RunsAll dialect w statements w' ↔ w' = w.set d.objectName after) ∧
          Synchronised d.naturalKeys (inputKey d input.key) (inWindow w d) (inScope w d input)
            (HoldsLoaded w d input) (w.tables input.objectName) (w.tables d.objectName) after := by
  obtain ⟨keyed, source, delete, mapped, detected, stated, rendered⟩ :=
    composeLoad_eq detects composed merges
  refine ⟨[.merge (mergeInto d source transactional), .delete delete], stated, rendered,
    fun w target rows => ?_⟩
  obtain ⟨columns, _⟩ := mappedSource_spec w detects.primary mapped
  have inserted : ∀ k ∈ d.naturalKeys, ∃ name ∈ source.columns,
      Text.sameIgnoringAsciiCase name k = true := by
    intro k key
    obtain ⟨col, member, same, _⟩ := detects.fed k key
    rw [columns]
    exact ⟨col.name, List.mem_map_of_mem (mem_orderedColumns.mpr member), same⟩
  have synchronised := synchronised_mergedInScope (mergeInto d source transactional).updatable
    (inWindow w d) (inScope w d input) target rows
    (fun u k key => get_loadedRow_of_key detects.distinct w input.key u detects.fed key) inserted
  refine ⟨_, runs_mergeDelete_iff detects keyed mapped detected w rows, ?_⟩
  exact { synchronised with
    loaded := fun u hu inside => by
      obtain ⟨t, only, values⟩ := synchronised.loaded u hu inside
      exact ⟨t, only, holdsLoaded_of_get detects.distinct detects.primary mapped columns values⟩ }

/-! ### An example -/

/-- The table that customers come from. -/
def arrivals : Dataset where
  id := 1
  schema := "stage"
  name := "customers"
  strategy := .full
  materialization := .table
  historize? := none
  naturalKeys := []
  formerNames := []
  handleDeletes := false
  incrementalFilter? := none
  inputs := []
  sources := []
  columns := [Column.plain "CustomerID" "int" 1, Column.plain "Name" "varchar(200)" 2]
  queryRoot? := none
  histOf? := none

/-- Customers and where they come from. -/
def customerCatalog : Catalog where
  schemas := [⟨"stage", .stage, false, false, true⟩, ⟨"core", .rawcore, true, true, true⟩]
  datasets := [arrivals, customers]
  queryNodes := []

/-- The load of the customers detects which of them are gone. -/
theorem detectsDeletes_customers : DetectsDeletes customerCatalog customers arrivals where
  known := rfl
  inputKnown := rfl
  integrated := ⟨_, rfl, rfl⟩
  deletes := rfl
  noTree := rfl
  primary := rfl
  other := by decide
  distinct := by
    unfold Dataset.DistinctNames
    decide
  fed := by
    unfold FedKeys
    decide

/-- The query that a load of customers reads from. -/
def customersSource : SourceQuery where
  columns := ["customers_key", "id", "name"]
  plan := .select ⟨false,
    [⟨.hash256 (.concat [nullSafe (.colOf "s" "CustomerID")]), some "customers_key"⟩,
     ⟨.colOf "s" "CustomerID", some "id"⟩, ⟨.colOf "s" "Name", some "name"⟩],
    some (.table ⟨⟨some "stage", "customers"⟩, some "s"⟩), none, []⟩

private theorem mappedSource_customers : mappedSource customers true = .ok customersSource := by
  have hashed : hashComponents [⟨"id", .colOf "s" "CustomerID"⟩] defaultSeparator =
      .ok (.hash256 (.concat [nullSafe (.colOf "s" "CustomerID")])) := by
    simp [hashComponents, sortByName]
  have key : columnValue customers (some arrivedCustomers)
      { Column.plain "customers_key" "varchar(64)" 1 with role? := some .surrogateKey } =
      .ok (.hash256 (.concat [nullSafe (.colOf "s" "CustomerID")])) :=
    congrArg liftSurrogate hashed
  unfold mappedSource
  rw [orderedColumns_customers]
  refine bind_eq_ok_iff.mpr ⟨(arrivedCustomers.objectName, some arrivedCustomers), rfl,
    bind_eq_ok_iff.mpr ⟨_, mapM_eq_ok_iff.mpr (.cons ?_ (.cons rfl (.cons rfl .nil))), rfl⟩⟩
  exact bind_eq_ok_iff.mpr ⟨_, key, rfl⟩

theorem exists_composeLoad_customers :
    ∃ load, composeLoad customerCatalog customers.key .duckdb true = .ok load ∧
      load.plan.mode = .merge := by
  have stated : loadStatements customerCatalog customers ⟨customers.key, .merge, true, true⟩ true =
      .ok [.ok (.merge (mergeInto customers customersSource true)),
        (deleteDetection customerCatalog customers).map .delete] :=
    bind_eq_ok_iff.mpr ⟨_, mappedSource_customers, rfl⟩
  have written : (renderPlanned .duckdb [.ok (.merge (mergeInto customers customersSource true)),
      (deleteDetection customerCatalog customers).map .delete]).isOk = true := by decide +kernel
  have known : customerCatalog.get? customers.key = some customers := rfl
  obtain ⟨load, composed, plan⟩ := exists_composeLoad known rfl rfl stated written
  exact ⟨load, composed, congrArg LoadPlan.mode plan⟩

/-- One customer has another name, one is new and one has gone. -/
def customerWorld : World String where
  engine := Engine.texts
  placeholder _ := none
  tables n :=
    if n = arrivals.objectName then
      [.ofPairs [("CustomerID", some "1"), ("Name", some "Ada")],
       .ofPairs [("CustomerID", some "2"), ("Name", some "Bo")]]
    else [.ofPairs [("id", some "1"), ("name", some "ada")],
      .ofPairs [("id", some "3"), ("name", some "Cy")]]

/-- After its load the table of the customers is in line with what arrived. -/
theorem load_synchronises_customers :
    ∃ load statements after,
      composeLoad customerCatalog customers.key .duckdb true = .ok load ∧
      loadStatements customerCatalog customers load.plan true = .ok (statements.map .ok) ∧
      RunsAll .duckdb customerWorld statements (customerWorld.set customers.objectName after) ∧
      Synchronised ["id"] (inputKey customers arrivals.key) (inWindow customerWorld customers)
        (inScope customerWorld customers arrivals) (HoldsLoaded customerWorld customers arrivals)
        (customerWorld.tables arrivals.objectName)
        (customerWorld.tables customers.objectName) after := by
  obtain ⟨load, composed, merges⟩ := exists_composeLoad_customers
  obtain ⟨statements, stated, _, run⟩ :=
    load_synchronises (V := String) detectsDeletes_customers composed merges
  obtain ⟨after, runs, synchronised⟩ :=
    run customerWorld ⟨by decide, by decide⟩ ⟨by decide, by decide⟩
  exact ⟨load, statements, after, composed, stated, (runs _).mpr rfl, synchronised⟩

end Warehouse
