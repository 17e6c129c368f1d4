/-
Module: Warehouse.Proofs.Run.Trace
Purpose: A run, step by step: what became of each step and which calls the loader got for it. Any
  loader will do that answers a call depending on the calls before; it is watched by one that keeps
  the calls. What becomes of a step depends on the steps before it through their fates only.
Trusted boundary: none
Main exports: recording, Entry, Attempted, Traced, runSteps_traced, Counted, Traced.countedIn,
  Traced.split
-/
import Warehouse.Run.Execution

namespace Warehouse

/-- A loader with a state, which also keeps the calls that it gets. -/
def recording {σ : Type} (load : Loader (StateM σ)) : Loader (StateM (σ × List StepCall)) :=
  fun call => do
  let (s, calls) ← get
  let (answer, s') := (load call).run s
  set (s', calls ++ [call])
  return answer

/-- A step of a run, what became of it, and the calls that were made for it. -/
structure Entry where
  step : RunStep
  result : StepResult
  calls : List StepCall

/-- What the steps that read the dataset are told. -/
def Entry.fate (e : Entry) : Fate :=
  if e.result.status = .error then .failed
  else match e.result.blockedBy? with
    | some root => .blocked root
    | none => .loaded

/-- What became of steps, for those that come after them. -/
def fatesOf (entries : List Entry) : Fates := (entries.map fun e => (e.step.key, e.fate)).reverse

/-! ### One step -/

/-- A step that was handed to the loader. -/
structure Attempted (policy : RunPolicy) (e : Entry) : Prop where
  dataset : e.result.dataset = e.step.key.display
  kind : e.result.kind = policy.kind
  status : e.result.status = .success ∨ e.result.status = .error
  unblocked : e.result.blockedBy? = none
  called : e.calls ≠ []
  own : ∀ call ∈ e.calls, call.step = e.step
  /-- No attempt has a number above that of the last one that the policy allows. -/
  numbered : ∀ call ∈ e.calls, call.attemptNo ≤ policy.retries + 1
  counted : e.result.attemptNo ≤ policy.retries + 1

section

variable {σ : Type} (load : Loader (StateM σ)) (batchId : String) (policy : RunPolicy)

/-- A computation without effects of its own is its result. -/
theorem run_eq_pure {α : Type} {x : StateM σ α} {s s' : σ} {a : α} (ran : x.run s = (a, s')) :
    x.run s = (pure (a, s') : Id (α × σ)) := ran

/-- To record a call adds it to the list and leaves the answer as it is. -/
theorem run_recording (call : StepCall) (s : σ) (calls : List StepCall) :
    (recording load call).run (s, calls) =
      pure (((load call).run s).1, ((load call).run s).2, calls ++ [call]) := rfl

private theorem attempted_lastAttempt (step : RunStep) {attemptNo : Nat}
    (answer : Option StepFailure) (allowed : attemptNo ≤ policy.retries + 1) :
    Attempted policy ⟨step, (lastAttempt step policy.kind attemptNo answer).1,
      [⟨batchId, step, attemptNo, policy.execute⟩]⟩ := by
  cases answer with
  | none => exact ⟨rfl, rfl, .inl rfl, rfl, by simp, by simp, by simpa using allowed, allowed⟩
  | some f => exact ⟨rfl, rfl, .inr rfl, rfl, by simp, by simp, by simpa using allowed, allowed⟩

/-- However often a step is tried, the loader is called for it at least once, and for no other.
Keeping the calls changes nothing else. -/
theorem attemptStep_spec (step : RunStep) (retries attemptNo : Nat)
    (allowed : attemptNo + retries ≤ policy.retries + 1) (s : σ) (calls : List StepCall) :
    ∃ result attempts s' new,
      (attemptStep load batchId step policy retries attemptNo).run s =
        pure ((result, attempts), s') ∧
      (attemptStep (recording load) batchId step policy retries attemptNo).run (s, calls) =
        pure ((result, attempts), s', calls ++ new) ∧
      Attempted policy ⟨step, result, new⟩ := by
  induction retries generalizing attemptNo s calls with
  | zero =>
    exact ⟨_, _, _, _, rfl, rfl, attempted_lastAttempt batchId policy step _ allowed⟩
  | succ retries ih =>
    have here : attemptNo ≤ policy.retries + 1 := Nat.le_trans (Nat.le_add_right _ _) allowed
    rw [Nat.add_comm retries, ← Nat.add_assoc] at allowed
    rcases answered : (load ⟨batchId, step, attemptNo, policy.execute⟩).run s with ⟨answer, s₁⟩
    cases again : answer.filter StepFailure.retriable with
    | none =>
      refine ⟨_, (lastAttempt step policy.kind attemptNo answer).2, s₁,
        [⟨batchId, step, attemptNo, policy.execute⟩], ?_, ?_,
        attempted_lastAttempt batchId policy step answer here⟩
      · simp only [attemptStep, StateT.run_bind, run_eq_pure answered, pure_bind, again]
        rfl
      · simp only [attemptStep, StateT.run_bind, run_recording, pure_bind, answered, again]
        rfl
    | some f =>
      obtain ⟨result, attempts, s', new, plain, ran, attempted⟩ := ih (attemptNo + 1) allowed s₁
        (calls ++ [⟨batchId, step, attemptNo, policy.execute⟩])
      refine ⟨result, ⟨step.key.display, attemptNo, .error, true, some f.message⟩ :: attempts, s',
        ⟨batchId, step, attemptNo, policy.execute⟩ :: new, ?_, ?_, { attempted with
          called := by simp
          own := List.forall_mem_cons.mpr ⟨rfl, attempted.own⟩
          numbered := List.forall_mem_cons.mpr ⟨here, attempted.numbered⟩ }⟩
      · simp only [attemptStep, StateT.run_bind, run_eq_pure answered, pure_bind, again, plain,
          StateT.run_pure]
      · simp only [attemptStep, StateT.run_bind, run_recording, pure_bind, answered, again, ran]
        simp

end

/-! ### All steps -/

/-- What may become of steps, given what became of earlier ones. -/
inductive Traced (policy : RunPolicy) : Fates → List Entry → Prop where
  | nil (past : Fates) : Traced policy past []
  | blocked {past : Fates} {step : RunStep} {root : String} {rest : List Entry}
      (behind : step.inputs.findSome? past.failureBehind? = some root)
      (later : Traced policy ((step.key, .blocked root) :: past) rest) :
      Traced policy past (⟨step, Warehouse.blocked step root, []⟩ :: rest)
  | attempted {past : Fates} {e : Entry} {rest : List Entry}
      (clear : e.step.inputs.findSome? past.failureBehind? = none) (tried : Attempted policy e)
      (goesOn : e.result.status = .error → policy.continueOnError = true)
      (later : Traced policy ((e.step.key, .ofResult e.result) :: past) rest) :
      Traced policy past (e :: rest)
  | ended {past : Fates} {e : Entry} {rest : List RunStep}
      (clear : e.step.inputs.findSome? past.failureBehind? = none) (tried : Attempted policy e)
      (failed : e.result.status = .error) (stops : policy.continueOnError = false) :
      Traced policy past (e :: rest.map fun step => ⟨step, abortedAfter e.step.key step, []⟩)

/-- The outcome of a run, read off its entries. -/
structure Reports (entries : List Entry) (steps : List RunStep) (o : Outcome)
    (calls : List StepCall) : Prop where
  steps : entries.map Entry.step = steps
  results : o.results = entries.map Entry.result
  hadError : o.hadError = entries.any fun e => e.result.status = .error
  calls : calls = entries.flatMap Entry.calls

/-- Another entry in front is another result in front. -/
theorem Reports.cons {entries : List Entry} {steps : List RunStep} {o : Outcome}
    {calls : List StepCall} (reports : Reports entries steps o calls) (e : Entry)
    (attempts : List Attempt) :
    Reports (e :: entries) (e.step :: steps) (o.after e.result attempts) (e.calls ++ calls) where
  steps := by rw [List.map_cons, reports.steps]
  results := by rw [Outcome.after, List.map_cons, reports.results]
  hadError := by simp [Outcome.after, reports.hadError]
  calls := by rw [List.flatMap_cons, reports.calls]

/-- The steps after the end of a run are aborted. -/
theorem reports_aborted (ended : DatasetKey) (rest : List RunStep) :
    Reports (rest.map fun step => ⟨step, abortedAfter ended step, []⟩) rest
      ⟨false, rest.map (abortedAfter ended), []⟩ [] where
  steps := by simp [Function.comp_def]
  results := by simp
  hadError := by simp [abortedAfter]
  calls := by simp

/-- A run is traced by entries, one for each step. Keeping the calls changes nothing else. -/
theorem runSteps_traced {σ : Type} (load : Loader (StateM σ)) (batchId : String)
    (policy : RunPolicy) (steps : List RunStep) (past : Fates) (s : σ) (calls : List StepCall) :
    ∃ entries o s' new,
      (runSteps load batchId policy steps past).run s = pure (o, s') ∧
      (runSteps (recording load) batchId policy steps past).run (s, calls) =
        pure (o, s', calls ++ new) ∧
      Traced policy past entries ∧ Reports entries steps o new := by
  induction steps generalizing past s calls with
  | nil =>
    exact ⟨[], .empty, s, [],
      by simp [runSteps], by simp [runSteps], .nil past, ⟨rfl, rfl, rfl, rfl⟩⟩
  | cons step rest ih =>
    cases behind : step.inputs.findSome? past.failureBehind? with
    | some root =>
      obtain ⟨entries, o, s', new, plain, ran, traced, reports⟩ :=
        ih ((step.key, .blocked root) :: past) s calls
      refine ⟨_, o.after (blocked step root) [], s', new, ?_, ?_, .blocked behind traced,
        reports.cons ⟨step, blocked step root, []⟩ []⟩
      · simp only [runSteps, behind, StateT.run_bind, plain, pure_bind, StateT.run_pure]
      · simp only [runSteps, behind, StateT.run_bind, ran, pure_bind, StateT.run_pure]
    | none =>
      obtain ⟨result, attempts, s₁, own, plainly, tried, attempted⟩ :=
        attemptStep_spec load batchId policy step policy.retries 1
          (Nat.le_of_eq (Nat.add_comm _ _)) s calls
      by_cases stops : result.status = .error ∧ ¬ policy.continueOnError
      · refine ⟨_, _, s₁, own ++ [], ?_, ?_,
          .ended behind attempted stops.1 (by simpa using stops.2),
          (reports_aborted step.key rest).cons ⟨step, result, own⟩ attempts⟩
        · simp only [runSteps, behind, StateT.run_bind, plainly, pure_bind, if_pos stops,
            StateT.run_pure]
        · simp only [runSteps, behind, StateT.run_bind, tried, pure_bind, if_pos stops,
            StateT.run_pure, List.append_nil]
      · obtain ⟨entries, o, s', new, plain, ran, traced, reports⟩ :=
          ih ((step.key, .ofResult result) :: past) s₁ (calls ++ own)
        refine ⟨_, o.after result attempts, s', own ++ new, ?_, ?_,
          .attempted behind attempted (by simpa using stops) traced,
          reports.cons ⟨step, result, own⟩ attempts⟩
        · simp only [runSteps, behind, StateT.run_bind, plainly, pure_bind, if_neg stops, plain,
            StateT.run_pure]
        · simp only [runSteps, behind, StateT.run_bind, tried, pure_bind, if_neg stops, ran,
            StateT.run_pure, List.append_assoc]

/-! ### How far attempts are counted -/

/-- Whether the attempts that the policy allows can be numbered in 32 bits. All policies are such
but the one that executes and allows as many retries as can be written down. -/
def RunPolicy.Counts (p : RunPolicy) : Prop := p.retries + 1 < UInt32.size

instance (p : RunPolicy) : Decidable p.Counts := inferInstanceAs (Decidable (_ < _))

/-- Attempts can be counted under every policy but one that executes and allows as many retries as
can be written down. -/
theorem RunPolicy.counts_iff {p : RunPolicy} :
    p.Counts ↔ ¬ (p.execute = true ∧ p.maxRetries.toNat + 1 = UInt32.size) := by
  have bound : p.maxRetries.toNat < UInt32.size := p.maxRetries.toNat_lt
  have one : 0 + 1 < UInt32.size := by decide
  rw [RunPolicy.Counts, RunPolicy.retries]
  cases p.execute with
  | true =>
    rw [if_pos rfl, and_iff_right rfl]
    omega
  | false =>
    rw [if_neg Bool.false_ne_true]
    exact iff_of_true one fun both => Bool.false_ne_true both.1

/-- Whether the numbers of all attempts of a run are numbers of 32 bits. -/
structure Counted (o : Outcome) (calls : List StepCall) : Prop where
  calls : ∀ call ∈ calls, call.attemptNo < UInt32.size
  results : ∀ r ∈ o.results, r.attemptNo < UInt32.size

/-- No attempt of a run has a number above that of the last one that the policy allows. -/
theorem Traced.numbered {policy : RunPolicy} {past : Fates} {entries : List Entry}
    (traced : Traced policy past entries) : ∀ e ∈ entries,
      (∀ call ∈ e.calls, call.attemptNo ≤ policy.retries + 1) ∧
        e.result.attemptNo ≤ policy.retries + 1 := by
  induction traced with
  | nil => simp
  | blocked _ _ ih => exact List.forall_mem_cons.mpr ⟨⟨by simp, Nat.zero_le _⟩, ih⟩
  | attempted _ tried _ _ ih => exact List.forall_mem_cons.mpr ⟨⟨tried.numbered, tried.counted⟩, ih⟩
  | ended _ tried =>
    refine List.forall_mem_cons.mpr ⟨⟨tried.numbered, tried.counted⟩, List.forall_mem_map.mpr ?_⟩
    exact fun step _ => ⟨by simp, Nat.zero_le _⟩

/-- Under a policy that counts, the attempts of a run are counted in 32 bits. -/
theorem Traced.countedIn {policy : RunPolicy} {past : Fates} {entries : List Entry}
    {steps : List RunStep} {o : Outcome} {calls : List StepCall}
    (traced : Traced policy past entries) (reports : Reports entries steps o calls)
    (counts : policy.Counts) : Counted o calls where
  calls call called := by
    rw [reports.calls] at called
    obtain ⟨e, member, called⟩ := List.mem_flatMap.mp called
    exact Nat.lt_of_le_of_lt ((traced.numbered e member).1 call called) counts
  results r got := by
    rw [reports.results] at got
    obtain ⟨e, member, rfl⟩ := List.mem_map.mp got
    exact Nat.lt_of_le_of_lt (traced.numbered e member).2 counts

/-! ### Where a step stands -/

private theorem fate_blocked (step : RunStep) (root : String) :
    Entry.fate ⟨step, blocked step root, []⟩ = .blocked root := by
  simp [Entry.fate, blocked]

/-- What became of a step that was tried is told by its result. -/
theorem Attempted.fate_eq {policy : RunPolicy} {e : Entry} (tried : Attempted policy e) :
    e.fate = .ofResult e.result := by
  simp [Entry.fate, Fate.ofResult, tried.unblocked]

private theorem fatesOf_cons (e : Entry) (entries : List Entry) :
    fatesOf (e :: entries) = fatesOf entries ++ [(e.step.key, e.fate)] := by
  simp [fatesOf]

/-- What became of a step, given what became of those before it. -/
inductive Placed (policy : RunPolicy) (past : Fates) (e : Entry) : Prop where
  | blocked {root : String} (behind : e.step.inputs.findSome? past.failureBehind? = some root)
      (result : e.result = Warehouse.blocked e.step root) (calls : e.calls = [])
  | attempted (clear : e.step.inputs.findSome? past.failureBehind? = none)
    (tried : Attempted policy e)

/-- In a run that goes on after failures, each step was placed after those before it. -/
theorem Traced.split {policy : RunPolicy} (goesOn : policy.continueOnError = true) {past : Fates}
    {before after : List Entry} {e : Entry} (traced : Traced policy past (before ++ e :: after)) :
    Placed policy (fatesOf before ++ past) e := by
  induction before generalizing past with
  | nil =>
    rw [List.nil_append] at traced
    cases traced with
    | blocked behind later => exact .blocked behind rfl rfl
    | attempted clear tried _ later => exact .attempted clear tried
    | ended _ _ _ stops =>
      rw [goesOn] at stops
      cases stops
  | cons b before ih =>
    rw [List.cons_append] at traced
    rw [fatesOf_cons, List.append_assoc, List.singleton_append]
    generalize before ++ e :: after = rest at traced ih
    cases traced with
    | blocked behind later =>
      rw [fate_blocked]
      exact ih later
    | attempted clear tried _ later =>
      rw [tried.fate_eq]
      exact ih later
    | ended _ _ _ stops =>
      rw [goesOn] at stops
      cases stops

end Warehouse
