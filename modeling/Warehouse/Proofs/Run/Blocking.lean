/-
Module: Warehouse.Proofs.Run.Blocking
Purpose: Which steps of a run are passed over. In a run that goes on after failures these are
  exactly the steps that read a failed dataset, directly or through others of the plan: each names
  such a dataset and is kept from the loader, and every other step is handed to it.
Trusted boundary: none
Main exports: RunPlan.InOrder, RunPlan.Reads, BlocksExactly, blocking_exact
-/
import Warehouse.Proofs.Lists
import Warehouse.Proofs.Run.Trace
import Mathlib.Data.List.Nodup
import Mathlib.Logic.Relation

namespace Warehouse

/-- Each dataset has one step, which comes after those for the datasets that it reads. -/
structure RunPlan.InOrder (plan : RunPlan) : Prop where
  distinct : (plan.steps.map RunStep.key).Nodup
  alone : ∀ step ∈ plan.steps, step.key ∉ step.inputs
  later : plan.steps.Pairwise fun earlier step => step.key ∉ earlier.inputs

/-- A step reads the dataset that another step of the plan loads. -/
def RunPlan.Reads (plan : RunPlan) (step source : RunStep) : Prop :=
  step ∈ plan.steps ∧ source ∈ plan.steps ∧ source.key ∈ step.inputs

/-- The result that a run of the plan has for a step. -/
def RunPlan.Got (plan : RunPlan) (o : Outcome) (step : RunStep) (result : StepResult) : Prop :=
  (step, result) ∈ plan.steps.zip o.results

/-- The step ended in an error. -/
def RunPlan.FailedAt (plan : RunPlan) (o : Outcome) (step : RunStep) : Prop :=
  ∃ result, plan.Got o step result ∧ result.status = .error

/-- A failed step on which the step rests. -/
def RunPlan.FailedBehind (plan : RunPlan) (o : Outcome) (step source : RunStep) : Prop :=
  Relation.TransGen plan.Reads step source ∧ plan.FailedAt o source

/-- The step was passed over because of what it reads. -/
def StepResult.IsBlocked (r : StepResult) : Prop := r.status = .skipped ∧ r.kind = .blocked

/-- The steps that are passed over are those that rest on a failed one. -/
structure BlocksExactly (plan : RunPlan) (o : Outcome) (calls : List StepCall) : Prop where
  /-- There is one result for each step, in the order of the plan. -/
  oneEach : o.results.map StepResult.dataset = plan.steps.map fun step => step.key.display
  blocked_iff : ∀ step result, plan.Got o step result →
    (result.IsBlocked ↔ ∃ source, plan.FailedBehind o step source)
  blockedBy : ∀ step result, plan.Got o step result → result.IsBlocked →
    ∃ source, plan.FailedBehind o step source ∧ result.blockedBy? = some source.key.display
  called_iff : ∀ step result, plan.Got o step result →
    ((∃ call ∈ calls, call.step = step) ↔ ¬ result.IsBlocked)
  hadError_iff : o.hadError = true ↔ ∃ result ∈ o.results, result.status = .error

/-! ### What is behind a dataset

A step looks at what became of the datasets that it reads, as far as they had their turn. What it
finds is told by the entries so far: each has a step and a result, and a blocked step names the
failure behind it. -/

/-- The failed dataset because of which the one of the entry cannot be read. -/
def Entry.failure? (e : Entry) : Option String :=
  match e.fate with
  | .failed => some e.step.key.display
  | .blocked root => some root
  | .loaded => none

/-- What became of a dataset is told by its one entry. -/
theorem lookup_fatesOf {entries : List Entry} (distinct : (entries.map fun e => e.step.key).Nodup)
    {key : DatasetKey} {fate : Fate} :
    (fatesOf entries).lookup key = some fate ↔ ∃ e ∈ entries, e.step.key = key ∧ e.fate = fate := by
  rw [lookup_eq_some_iff_mem]
  · simp [fatesOf]
  · simpa [fatesOf, Function.comp_def] using distinct

/-- Past steps tell what is behind the datasets that they were to load, and of no other. -/
theorem failureBehind?_fatesOf {entries : List Entry}
    (distinct : (entries.map fun e => e.step.key).Nodup) {key : DatasetKey} {root : String} :
    (fatesOf entries).failureBehind? key = some root ↔
      ∃ e ∈ entries, e.step.key = key ∧ e.failure? = some root := by
  constructor
  · intro behind
    unfold Fates.failureBehind? at behind
    split at behind
    case h_1 failed =>
      obtain ⟨e, mem, rfl, fate⟩ := (lookup_fatesOf distinct).mp failed
      exact ⟨e, mem, rfl, by simpa [Entry.failure?, fate] using behind⟩
    case h_2 blocked =>
      obtain ⟨e, mem, rfl, fate⟩ := (lookup_fatesOf distinct).mp blocked
      exact ⟨e, mem, rfl, by simpa [Entry.failure?, fate] using behind⟩
    case h_3 => cases behind
  · rintro ⟨e, mem, rfl, failure⟩
    have found := (lookup_fatesOf distinct).mpr ⟨e, mem, rfl, rfl⟩
    unfold Fates.failureBehind?
    rw [found]
    unfold Entry.failure? at failure
    split at failure
    case h_1 fate => simpa [fate] using failure
    case h_2 fate => simpa [fate] using failure
    case h_3 => cases failure

theorem Placed.failure?_eq_some_iff {policy : RunPolicy} {past : Fates} {e : Entry}
    (placed : Placed policy past e) {root : String} :
    e.failure? = some root ↔
      (e.result.status = .error ∧ e.step.key.display = root) ∨
        (e.result.IsBlocked ∧ e.result.blockedBy? = some root) := by
  cases placed with
  | blocked behind result calls =>
    simp [Entry.failure?, Entry.fate, StepResult.IsBlocked, result, Warehouse.blocked]
  | attempted clear tried =>
    rcases tried.status with status | status
    · simp [Entry.failure?, Entry.fate, StepResult.IsBlocked, status, tried.unblocked]
    · simp [Entry.failure?, Entry.fate, StepResult.IsBlocked, status]

/-- A step that was handed to the loader was not passed over. -/
theorem Attempted.not_isBlocked {policy : RunPolicy} {e : Entry} (tried : Attempted policy e) :
    ¬ e.result.IsBlocked := by
  rintro ⟨skipped, -⟩
  rcases tried.status with status | status
  · rw [status] at skipped
    cases skipped
  · rw [status] at skipped
    cases skipped

private theorem blocked_isBlocked (step : RunStep) (root : String) :
    (blocked step root).IsBlocked := ⟨rfl, rfl⟩

/-! ### Blocked steps rest on failed ones, and on nothing else -/

/-- The entries of a run that goes on after failures, for a plan that is in order. -/
structure WholeRun (policy : RunPolicy) (plan : RunPlan) (entries : List Entry) : Prop where
  goesOn : policy.continueOnError = true
  inOrder : plan.InOrder
  traced : Traced policy [] entries
  steps : entries.map Entry.step = plan.steps

namespace WholeRun

variable {policy : RunPolicy} {plan : RunPlan} {entries : List Entry}
    (run : WholeRun policy plan entries)

include run

/-- No two entries are of the same step. -/
theorem distinct : (entries.map fun e => e.step.key).Nodup := by
  have distinct := run.inOrder.distinct
  rwa [← run.steps, List.map_map] at distinct

private theorem eq_of_step_eq {e other : Entry} (mem : e ∈ entries) (mem' : other ∈ entries)
    (same : e.step = other.step) : e = other :=
  List.inj_on_of_nodup_map run.distinct mem mem' (congrArg RunStep.key same)

/-- A step reads another if it has its dataset among its inputs. -/
theorem reads_of_mem {e source : Entry} (mem : e ∈ entries) (mem' : source ∈ entries)
    (reads : source.step.key ∈ e.step.inputs) : plan.Reads e.step source.step := by
  have step_mem : ∀ e ∈ entries, e.step ∈ plan.steps := by
    intro e mem
    rw [← run.steps]
    exact List.mem_map_of_mem mem
  exact ⟨step_mem e mem, step_mem source mem', reads⟩

/-- What a step reads of the plan comes before it. -/
theorem mem_before {before after : List Entry} {e source : Entry}
    (split : entries = before ++ e :: after) (mem : source ∈ entries)
    (reads : source.step.key ∈ e.step.inputs) : source ∈ before := by
  have alone := run.inOrder.alone
  have later := run.inOrder.later
  rw [← run.steps, split] at alone later
  rw [List.pairwise_map, List.pairwise_append] at later
  rw [split, List.mem_append, List.mem_cons] at mem
  rcases mem with mem | rfl | mem
  · exact mem
  · exact absurd reads (alone source.step (by simp))
  · exact absurd reads ((List.pairwise_cons.mp later.2.1).1 source mem)

/-- Each entry was made when just those in front of it were there. -/
theorem placed {before after : List Entry} {e : Entry} (split : entries = before ++ e :: after) :
    Placed policy (fatesOf before) e := by
  have traced := run.traced
  rw [split] at traced
  have placed := traced.split run.goesOn
  rwa [List.append_nil] at placed

private theorem exists_placed {e : Entry} (mem : e ∈ entries) : ∃ past, Placed policy past e := by
  obtain ⟨before, after, split⟩ := List.append_of_mem mem
  exact ⟨_, run.placed split⟩

/-- A failure is behind a dataset if the dataset had its turn, and failed or was blocked. -/
theorem failureBehind?_before {before after : List Entry} {e : Entry}
    (split : entries = before ++ e :: after) {key : DatasetKey} {root : String} :
    (fatesOf before).failureBehind? key = some root ↔
      ∃ source ∈ before, source.step.key = key ∧ source.failure? = some root := by
  have distinct := run.distinct
  rw [split, List.map_append, List.nodup_append] at distinct
  exact failureBehind?_fatesOf distinct.1

/-- A step that was passed over reads an earlier dataset because of which it could not be loaded. -/
theorem source_of_blocked {before after : List Entry} {e : Entry}
    (split : entries = before ++ e :: after) (isBlocked : e.result.IsBlocked) :
    ∃ source ∈ before, ∃ root, source.step.key ∈ e.step.inputs ∧ source.failure? = some root ∧
      e.result.blockedBy? = some root := by
  cases run.placed split with
  | attempted _ tried => exact absurd isBlocked tried.not_isBlocked
  | @blocked root behind result _ =>
    obtain ⟨key, reads, behind⟩ := List.exists_of_findSome?_eq_some behind
    obtain ⟨source, mem, rfl, failure⟩ := (run.failureBehind?_before split).mp behind
    exact ⟨source, mem, root, reads, failure, by rw [result, Warehouse.blocked]⟩

/-- A step that reads a dataset which could not be loaded is passed over. -/
theorem isBlocked_of_reads {e source : Entry} {root : String} (mem : e ∈ entries)
    (mem' : source ∈ entries) (reads : source.step.key ∈ e.step.inputs)
    (failure : source.failure? = some root) :
    e.result.IsBlocked := by
  obtain ⟨before, after, split⟩ := List.append_of_mem mem
  have earlier := run.mem_before split mem' reads
  cases run.placed split with
  | blocked _ result _ =>
    rw [result]
    exact blocked_isBlocked _ _
  | attempted clear tried =>
    have behind := (run.failureBehind?_before split).mpr ⟨source, earlier, rfl, failure⟩
    rw [List.findSome?_eq_none_iff.mp clear _ reads] at behind
    cases behind

/-- From a step that was passed over, a failed one is reached, which it names. What it reads comes
before it, and so this is by induction on where it stands. -/
theorem failed_of_isBlocked {before after : List Entry} {e : Entry}
    (split : entries = before ++ e :: after) (isBlocked : e.result.IsBlocked) :
    ∃ source ∈ entries, Relation.TransGen plan.Reads e.step source.step ∧
      source.result.status = .error ∧ e.result.blockedBy? = some source.step.key.display := by
  induction position : before.length using Nat.strongRecOn generalizing before e after with
  | _ n ih =>
    obtain ⟨source, earlier, root, reads, failure, names⟩ := run.source_of_blocked split isBlocked
    have mem' : source ∈ entries := by simp [split, earlier]
    have edge := run.reads_of_mem (by simp [split]) mem' reads
    obtain ⟨past, placed⟩ := run.exists_placed mem'
    rcases placed.failure?_eq_some_iff.mp failure with ⟨failed, rfl⟩ | ⟨isBlocked', names'⟩
    · exact ⟨source, mem', .single edge, failed, names⟩
    · obtain ⟨before', between, split'⟩ := List.append_of_mem earlier
      have shorter : before'.length < n := by
        rw [← position, split', List.length_append, List.length_cons]
        omega
      rw [split', List.append_assoc, List.cons_append] at split
      obtain ⟨origin, mem'', reaches, failed, names''⟩ :=
        ih before'.length shorter split isBlocked' rfl
      refine ⟨origin, mem'', .head edge reaches, failed, ?_⟩
      rw [names, ← names', names'']

/-- A step from which a failed one is reached is passed over. -/
theorem isBlocked_of_failed {source : Entry} (mem' : source ∈ entries)
    (failed : source.result.status = .error) {step : RunStep}
    (reaches : Relation.TransGen plan.Reads step source.step) :
    ∀ e ∈ entries, e.step = step → e.result.IsBlocked := by
  induction reaches using Relation.TransGen.head_induction_on with
  | single reads =>
    rintro e mem rfl
    obtain ⟨past, placed⟩ := run.exists_placed mem'
    exact run.isBlocked_of_reads mem mem' reads.2.2
      (placed.failure?_eq_some_iff.mpr (.inl ⟨failed, rfl⟩))
  | head reads _ ih =>
    rintro e mem rfl
    have middle := reads.2.1
    rw [← run.steps] at middle
    obtain ⟨m, mem_middle, rfl⟩ := List.mem_map.mp middle
    have isBlocked := ih m mem_middle rfl
    obtain ⟨before, after, split⟩ := List.append_of_mem mem_middle
    obtain ⟨_, _, root, _, _, names⟩ := run.source_of_blocked split isBlocked
    obtain ⟨past, placed⟩ := run.exists_placed mem_middle
    exact run.isBlocked_of_reads mem mem_middle reads.2.2
      (placed.failure?_eq_some_iff.mpr (.inr ⟨isBlocked, names⟩))

/-- The loader was called for a step exactly if it was not passed over. -/
theorem called_iff {e : Entry} (mem : e ∈ entries) :
    (∃ call ∈ entries.flatMap Entry.calls, call.step = e.step) ↔ ¬ e.result.IsBlocked := by
  obtain ⟨past, placed⟩ := run.exists_placed mem
  constructor
  · rintro ⟨call, called, own⟩ isBlocked
    obtain ⟨other, mem', called⟩ := List.mem_flatMap.mp called
    obtain ⟨past', placed'⟩ := run.exists_placed mem'
    cases placed' with
    | blocked _ _ none => simp [none] at called
    | attempted _ tried =>
      have same := run.eq_of_step_eq mem mem' (own ▸ tried.own call called)
      exact tried.not_isBlocked (same ▸ isBlocked)
  · intro handed
    cases placed with
    | blocked _ result _ => exact absurd (result ▸ blocked_isBlocked _ _) handed
    | attempted _ tried =>
      obtain ⟨call, called⟩ := List.exists_mem_of_ne_nil _ tried.called
      exact ⟨call, List.mem_flatMap.mpr ⟨e, mem, called⟩, tried.own call called⟩

/-- Each result names the dataset of its step. -/
theorem dataset_eq {e : Entry} (mem : e ∈ entries) : e.result.dataset = e.step.key.display := by
  obtain ⟨past, placed⟩ := run.exists_placed mem
  cases placed with
  | blocked _ result _ => rw [result, Warehouse.blocked]
  | attempted _ tried => exact tried.dataset

variable {o : Outcome} {calls : List StepCall} (reports : Reports entries plan.steps o calls)

omit run in
include reports in
/-- What a step got is told by its entry. -/
theorem got_iff {step : RunStep} {result : StepResult} :
    plan.Got o step result ↔ ∃ e ∈ entries, e.step = step ∧ e.result = result := by
  rw [RunPlan.Got, reports.results, ← reports.steps, List.zip_map', List.mem_map]
  simp only [Prod.mk.injEq]

include reports in
private theorem blocksExactly : BlocksExactly plan o calls where
  oneEach := by
    rw [reports.results, ← reports.steps, List.map_map, List.map_map]
    exact List.map_congr_left fun e mem => run.dataset_eq mem
  blocked_iff step result got := by
    obtain ⟨e, mem, rfl, rfl⟩ := (got_iff reports).mp got
    constructor
    · intro isBlocked
      obtain ⟨before, after, split⟩ := List.append_of_mem mem
      obtain ⟨source, mem', reaches, failed, -⟩ := run.failed_of_isBlocked split isBlocked
      exact ⟨source.step, reaches, source.result,
        (got_iff reports).mpr ⟨source, mem', rfl, rfl⟩, failed⟩
    · rintro ⟨step, reaches, result, got, failed⟩
      obtain ⟨source, mem', rfl, rfl⟩ := (got_iff reports).mp got
      exact run.isBlocked_of_failed mem' failed reaches e mem rfl
  blockedBy step result got isBlocked := by
    obtain ⟨e, mem, rfl, rfl⟩ := (got_iff reports).mp got
    obtain ⟨before, after, split⟩ := List.append_of_mem mem
    obtain ⟨source, mem', reaches, failed, names⟩ := run.failed_of_isBlocked split isBlocked
    exact ⟨source.step,
      ⟨reaches, source.result, (got_iff reports).mpr ⟨source, mem', rfl, rfl⟩, failed⟩, names⟩
  called_iff step result got := by
    obtain ⟨e, mem, rfl, rfl⟩ := (got_iff reports).mp got
    rw [reports.calls]
    exact run.called_iff mem
  hadError_iff := by
    rw [reports.hadError, reports.results, List.any_eq_true]
    simp

end WholeRun

/-! ### Blocking is exact -/

/-- In a run that goes on after failures, exactly those steps are passed over that rest on a failed
one, whatever the loader answers. The policy may be any under which attempts can be counted in 32
bits, and in 32 bits they are counted. -/
theorem blocking_exact {σ : Type} (load : Loader (StateM σ)) (plan : RunPlan) (policy : RunPolicy)
    (inOrder : plan.InOrder) (goesOn : policy.continueOnError = true) (counts : policy.Counts)
    (s : σ) :
    ∃ o s' calls,
      (runPlan load plan policy).run s = pure (o, s') ∧
      (runPlan (recording load) plan policy).run (s, []) = pure (o, s', calls) ∧
      Counted o calls ∧ BlocksExactly plan o calls := by
  obtain ⟨entries, o, s', calls, plain, ran, traced, reports⟩ :=
    runSteps_traced load plan.batchId policy plan.steps [] s []
  have run : WholeRun policy plan entries := ⟨goesOn, inOrder, traced, reports.steps⟩
  exact ⟨o, s', calls, plain, ran, traced.countedIn reports counts, run.blocksExactly reports⟩

/-- Two sources, an order that reads both, and a report that reads the order and something that is
not in the plan. -/
def orderReport : RunPlan := ⟨"b1", [
  ⟨1, ⟨"stage", "customer"⟩, []⟩,
  ⟨2, ⟨"stage", "product"⟩, []⟩,
  ⟨3, ⟨"rawcore", "order"⟩, [⟨"stage", "customer"⟩, ⟨"stage", "product"⟩]⟩,
  ⟨4, ⟨"mart", "report"⟩, [⟨"ext", "calendar"⟩, ⟨"rawcore", "order"⟩]⟩]⟩

/-- A loader that counts its calls and cannot reach the sources. -/
def withoutSources : Loader (StateM Nat) := fun call => do
  modify (· + 1)
  return if call.step.key.schema = "stage" then some ⟨"no connection", true⟩ else none

/-- Without its sources the report is blocked by the one that failed. -/
theorem blocking_exact_without_sources :
    orderReport.InOrder ∧ RunPolicy.Counts { continueOnError := true } ∧
    ∃ o s' calls,
      (runPlan withoutSources orderReport { continueOnError := true }).run 0 = pure (o, s') ∧
      (runPlan (recording withoutSources) orderReport { continueOnError := true }).run (0, []) =
        pure (o, s', calls) ∧
      BlocksExactly orderReport o calls ∧
      o.results.map StepResult.blockedBy? =
        [none, none, some "stage.customer", some "stage.customer"] := by
  have inOrder : orderReport.InOrder := ⟨by decide, by decide, by decide⟩
  have counts : RunPolicy.Counts { continueOnError := true } := by decide
  obtain ⟨o, s', calls, plain, ran, -, blocks⟩ :=
    blocking_exact withoutSources orderReport { continueOnError := true } inOrder rfl counts 0
  have outcome :
    ((runPlan withoutSources orderReport { continueOnError := true }).run 0).1.results.map
      StepResult.blockedBy? =
        [none, none, some "stage.customer", some "stage.customer"] := by decide
  rw [plain] at outcome
  exact ⟨inOrder, counts, o, s', calls, plain, ran, blocks, outcome⟩

end Warehouse
