/-
Module: Warehouse.Proofs.Run.FailFast
Purpose: A run that ends with its first failure, beside one of the same plan that goes on. What the
  loader answers depends on the step and on the number of the attempt alone, so that both runs get
  the same answers. They do the same up to the first step that fails and with it; the steps after it
  are aborted, and the loader is not called for them.
Trusted boundary: none
Main exports: Answers, Gives, callsFor, Answers.record, Outcome.firstFailureAt?, CutShort,
  AgreeUntilFailure, RunPlan.Runs, FailsFast, failFast_agrees_until_failure
-/
import Warehouse.Proofs.Run.Trace

namespace Warehouse

/-- What is answered to the attempts at each step. -/
abbrev Answers := RunStep → Nat → Option StepFailure

/-- Whether a loader gives those answers, whatever it has done before. -/
def Gives {σ : Type} (load : Loader (StateM σ)) (answers : Answers) : Prop :=
  ∀ call s, ((load call).run s).1 = answers call.step call.attemptNo

/-- The loader that gives answers and does nothing else. -/
def Answers.loader (answers : Answers) : Loader Id := fun call => answers call.step call.attemptNo

/-- The record of the attempt for which a call asks. -/
def Answers.record (answers : Answers) (policy : RunPolicy) (call : StepCall) : Attempt :=
  match answers call.step call.attemptNo with
  | none => ⟨call.step.key.display, call.attemptNo, .success, false, none⟩
  | some f => ⟨call.step.key.display, call.attemptNo, .error,
      f.retriable && call.attemptNo ≤ policy.retries, some f.message⟩

/-- The calls for so many attempts at a step, numbered from `first`. -/
def callsFrom (batchId : String) (execute : Bool) (step : RunStep) (first count : Nat) :
    List StepCall :=
  (List.range' first count).map fun n => ⟨batchId, step, n, execute⟩

/-- The calls for steps that have those results: as many for each as its result counts attempts. -/
def callsFor (batchId : String) (execute : Bool) (steps : List RunStep)
    (results : List StepResult) : List StepCall :=
  (steps.zip results).flatMap fun (step, result) =>
    callsFrom batchId execute step 1 result.attemptNo

/-- The position of the first step that ended in an error. -/
def Outcome.firstFailureAt? (o : Outcome) : Option Nat :=
  o.results.findIdx? fun r => r.status = .error

private theorem callsFrom_succ (batchId : String) (execute : Bool) (step : RunStep)
    (first count : Nat) : callsFrom batchId execute step first (count + 1) =
      ⟨batchId, step, first, execute⟩ :: callsFrom batchId execute step (first + 1) count := rfl

/-! ### What a run does with its answers -/

section

variable (answers : Answers) (batchId : String) (policy : RunPolicy)

/-- An attempt that is not repeated is the last. -/
theorem lastAttempt_eq (step : RunStep) (attemptNo : Nat)
    (last : ∀ f, answers step attemptNo = some f → f.retriable = true →
      policy.retries < attemptNo) :
    ∃ result, lastAttempt step policy.kind attemptNo (answers step attemptNo) =
        (result, [answers.record policy ⟨batchId, step, attemptNo, policy.execute⟩]) ∧
      result.attemptNo = attemptNo := by
  cases answer : answers step attemptNo with
  | none =>
    refine ⟨succeeded step policy.kind attemptNo, ?_, rfl⟩
    simp only [lastAttempt, Answers.record, answer]
  | some f =>
    have ends : (f.retriable && attemptNo ≤ policy.retries) = false := by
      rw [Bool.and_eq_false_imp, decide_eq_false_iff_not, Nat.not_le]
      exact last f answer
    refine ⟨failed step policy.kind attemptNo f, ?_, rfl⟩
    simp only [lastAttempt, Answers.record, answer, ends]

private theorem attemptStep_zero (step : RunStep) (attemptNo : Nat) :
    attemptStep answers.loader batchId step policy 0 attemptNo =
      lastAttempt step policy.kind attemptNo (answers step attemptNo) := rfl

/-- An attempt is repeated if another may help. -/
theorem attemptStep_succ (step : RunStep) (retries attemptNo : Nat) :
    attemptStep answers.loader batchId step policy (retries + 1) attemptNo =
      match (answers step attemptNo).filter StepFailure.retriable with
      | none => lastAttempt step policy.kind attemptNo (answers step attemptNo)
      | some f =>
        let (result, attempts) :=
          attemptStep answers.loader batchId step policy retries (attemptNo + 1)
        (result, ⟨step.key.display, attemptNo, .error, true, some f.message⟩ :: attempts) := rfl

/-- A step is tried as its answers say, as often as its result counts. -/
theorem attemptStep_loader (step : RunStep) (retries first : Nat)
    (left : retries + first = policy.retries + 1) : ∃ result count,
      attemptStep answers.loader batchId step policy retries first =
        (result, (callsFrom batchId policy.execute step first count).map (answers.record policy)) ∧
      result.attemptNo + 1 = first + count := by
  induction retries generalizing first with
  | zero =>
    obtain ⟨result, tried, counted⟩ := lastAttempt_eq answers batchId policy step first
      fun _ _ _ => by omega
    exact ⟨result, 1, tried, by rw [counted]⟩
  | succ retries ih =>
    rw [attemptStep_succ]
    cases again : (answers step first).filter StepFailure.retriable with
    | none =>
      rw [Option.filter_eq_none_iff] at again
      obtain ⟨result, tried, counted⟩ := lastAttempt_eq answers batchId policy step first
        fun f answer retriable => absurd retriable (again f answer)
      exact ⟨result, 1, tried, by rw [counted]⟩
    | some f =>
      obtain ⟨answer, retriable⟩ := Option.filter_eq_some_iff.mp again
      obtain ⟨result, count, tried, counted⟩ := ih (first + 1) (by omega)
      have recorded : answers.record policy ⟨batchId, step, first, policy.execute⟩ =
          ⟨step.key.display, first, .error, true, some f.message⟩ := by
        have repeated : first ≤ policy.retries := by omega
        simp [Answers.record, answer, retriable, repeated]
      refine ⟨result, count + 1, ?_, by omega⟩
      rw [tried, callsFrom_succ, List.map_cons, recorded]

/-- The last attempt has one call. -/
theorem calls_lastAttempt (execute : Bool) (step : RunStep) (kind : StepKind) (attemptNo : Nat)
    (answer : Option StepFailure) :
    (lastAttempt step kind attemptNo answer).2.map
    (fun a => StepCall.mk batchId step a.attemptNo execute) =
      [⟨batchId, step, attemptNo, execute⟩] := by
  cases answer <;> rfl

variable {answers} {σ : Type} {load : Loader (StateM σ)} (gives : Gives load answers)

include gives

/-- A loader that gives these answers does so when its calls are recorded. -/
theorem run_recording_of_gives (call : StepCall) (s : σ) (calls : List StepCall) :
    ∃ s', (recording load call).run (s, calls) =
      pure (answers call.step call.attemptNo, s', calls ++ [call]) := by
  rw [run_recording, gives call s]
  exact ⟨_, rfl⟩

/-- A loader that gives the answers is called for each attempt that they make, and for no other. -/
theorem run_attemptStep (step : RunStep) (retries first : Nat) (s : σ) (calls : List StepCall) :
    ∃ s', (attemptStep (recording load) batchId step policy retries first).run (s, calls) =
      pure (attemptStep answers.loader batchId step policy retries first, s',
        calls ++ (attemptStep answers.loader batchId step policy retries first).2.map fun a =>
          ⟨batchId, step, a.attemptNo, policy.execute⟩) := by
  induction retries generalizing first s calls with
  | zero =>
    obtain ⟨s', ran⟩ := run_recording_of_gives gives ⟨batchId, step, first, policy.execute⟩ s calls
    refine ⟨s', ?_⟩
    rw [attemptStep_zero, calls_lastAttempt]
    simp only [attemptStep, StateT.run_bind, ran, pure_bind, StateT.run_pure]
  | succ retries ih =>
    obtain ⟨s₁, ran⟩ := run_recording_of_gives gives ⟨batchId, step, first, policy.execute⟩ s calls
    rw [attemptStep_succ]
    cases again : (answers step first).filter StepFailure.retriable with
    | none =>
      refine ⟨s₁, ?_⟩
      rw [calls_lastAttempt]
      simp only [attemptStep, StateT.run_bind, ran, pure_bind, again, StateT.run_pure]
    | some f =>
      obtain ⟨s', later⟩ := ih (first + 1) s₁ (calls ++ [⟨batchId, step, first, policy.execute⟩])
      refine ⟨s', ?_⟩
      simp only [attemptStep, StateT.run_bind, ran, pure_bind, again, later, StateT.run_pure,
        List.append_assoc, List.singleton_append]
      rfl

end

/-! ### Whole runs -/

section

variable (answers : Answers) (batchId : String) (policy : RunPolicy)

/-- What becomes of a step that is handed to the loader, and its attempts. -/
def Answers.trial (step : RunStep) : StepResult × List Attempt :=
  Id.run (attemptStep answers.loader batchId step policy policy.retries 1)

/-- The run of steps that the answers make. -/
def Answers.run (steps : List RunStep) (past : Fates) : Outcome :=
  Id.run (runSteps answers.loader batchId policy steps past)

variable {answers batchId policy} {step : RunStep} {rest : List RunStep} {past : Fates}

/-- A step behind a failure is passed over. -/
theorem run_blocked {root : String}
    (behind : step.inputs.findSome? past.failureBehind? = some root) :
    answers.run batchId policy (step :: rest) past =
      (answers.run batchId policy rest ((step.key, .blocked root) :: past)).after
      (blocked step root) [] := by
  simp only [Answers.run, runSteps, behind]
  rfl

/-- A step that fails ends the run if it is not to go on. -/
theorem run_ended (clear : step.inputs.findSome? past.failureBehind? = none)
    (failed : (answers.trial batchId policy step).1.status = .error)
    (stops : policy.continueOnError = false) :
    answers.run batchId policy (step :: rest) past =
      Outcome.after ⟨false, rest.map (abortedAfter step.key), []⟩
        (answers.trial batchId policy step).1 (answers.trial batchId policy step).2 := by
  have ends : (answers.trial batchId policy step).1.status = .error ∧
      ¬ policy.continueOnError = true := by
    rw [stops]
    exact ⟨failed, Bool.false_ne_true⟩
  simp only [Answers.run, runSteps, clear]
  exact if_pos ends

/-- Any other step is tried, and the run goes on with what became of it. -/
theorem run_tried (clear : step.inputs.findSome? past.failureBehind? = none)
    (goesOn : (answers.trial batchId policy step).1.status = .error →
      policy.continueOnError = true) :
    answers.run batchId policy (step :: rest) past =
      (answers.run batchId policy rest
        ((step.key, .ofResult (answers.trial batchId policy step).1) :: past)).after
        (answers.trial batchId policy step).1 (answers.trial batchId policy step).2 := by
  have later :
      ¬ ((answers.trial batchId policy step).1.status = .error ∧ ¬ policy.continueOnError = true) :=
    fun ends => ends.2 (goesOn ends.1)
  simp only [Answers.run, runSteps, clear]
  exact if_neg later

/-- Whether a run goes on after failures has no part in how a step is tried. -/
theorem attemptStep_continueOnError {m : Type → Type} [Monad m] (load : Loader m) (goesOn : Bool)
    (retries attemptNo : Nat) :
    attemptStep load batchId step { policy with continueOnError := goesOn } retries attemptNo =
      attemptStep load batchId step policy retries attemptNo := by
  induction retries generalizing attemptNo with
  | zero => rfl
  | succ retries ih =>
    simp only [attemptStep, ih]
    rfl

variable (answers batchId policy step) in
/-- What becomes of a step does not depend on whether the run would go on. -/
theorem trial_continueOnError (goesOn : Bool) :
    answers.trial batchId { policy with continueOnError := goesOn } step =
      answers.trial batchId policy step :=
  attemptStep_continueOnError answers.loader goesOn policy.retries 1

/-! ### The calls of a run -/

private theorem attemptNo_record (call : StepCall) :
    (answers.record policy call).attemptNo = call.attemptNo := by
  rw [Answers.record]
  split <;> rfl

/-- The attempts of a step are those of its calls, with what was answered. -/
theorem trial_attempts : (answers.trial batchId policy step).2 =
    (callsFrom batchId policy.execute step 1 (answers.trial batchId policy step).1.attemptNo).map
      (answers.record policy) := by
  obtain ⟨result, count, tried, counted⟩ := attemptStep_loader answers batchId policy step
    policy.retries 1 rfl
  have trial : answers.trial batchId policy step = _ := tried
  obtain rfl : result.attemptNo = count := by omega
  rw [trial]

private theorem trial_calls : (answers.trial batchId policy step).2.map
      (fun a => StepCall.mk batchId step a.attemptNo policy.execute) =
    callsFrom batchId policy.execute step 1 (answers.trial batchId policy step).1.attemptNo := by
  rw [trial_attempts, List.map_map, callsFrom, List.map_map]
  exact List.map_congr_left fun n _ => by
    rw [Function.comp_apply, Function.comp_apply, attemptNo_record]

private theorem callsFor_cons (execute : Bool) (result : StepResult) (results : List StepResult) :
    callsFor batchId execute (step :: rest) (result :: results) =
      callsFrom batchId execute step 1 result.attemptNo ++
        callsFor batchId execute rest results := rfl

/-- Steps that were never tried have no calls. -/
theorem callsFor_untried (execute : Bool) (steps : List RunStep) {results : List StepResult}
    (untried : ∀ r ∈ results, r.attemptNo = 0) : callsFor batchId execute steps results = [] := by
  rw [callsFor, List.flatMap_eq_nil_iff]
  rintro ⟨step, r⟩ member
  dsimp only
  rw [untried r (List.of_mem_zip member).2]
  rfl

/-- Steps that were not tried make no calls. -/
theorem callsFor_take (execute : Bool) (steps : List RunStep) {results : List StepResult} {n : Nat}
    (untried : ∀ r ∈ results.drop n, r.attemptNo = 0) :
    callsFor batchId execute steps results = callsFor batchId execute steps (results.take n) := by
  induction n generalizing steps results with
  | zero =>
    rw [List.drop_zero] at untried
    rw [List.take_zero, callsFor_untried execute steps untried,
      callsFor_untried execute steps (by simp)]
  | succ n ih =>
    cases results with
    | nil => rfl
    | cons r results =>
      cases steps with
      | nil => rfl
      | cons step steps => rw [List.take_succ_cons, callsFor_cons, callsFor_cons, ih steps untried]

private theorem attempts_after {o : Outcome} {result : StepResult} {attempts : List Attempt}
    (own : attempts =
      (callsFrom batchId policy.execute step 1 result.attemptNo).map (answers.record policy))
    (others : o.attempts =
      (callsFor batchId policy.execute rest o.results).map (answers.record policy)) :
    (o.after result attempts).attempts =
      (callsFor batchId policy.execute (step :: rest) (o.after result attempts).results).map
        (answers.record policy) := by
  rw [Outcome.after, callsFor_cons, List.map_append, ← own, ← others]

/-- The attempts of a run are those for which its results have calls. -/
theorem run_attempts (steps : List RunStep) (past : Fates) :
    (answers.run batchId policy steps past).attempts =
      (callsFor batchId policy.execute steps (answers.run batchId policy steps past).results).map
        (answers.record policy) := by
  induction steps generalizing past with
  | nil => rfl
  | cons step rest ih =>
    cases behind : step.inputs.findSome? past.failureBehind? with
    | some root =>
      rw [run_blocked behind]
      exact attempts_after rfl (ih _)
    | none =>
      by_cases ends : (answers.trial batchId policy step).1.status = .error ∧
        policy.continueOnError = false
      · rw [run_ended behind ends.1 ends.2]
        refine attempts_after trial_attempts ?_
        rw [callsFor_untried policy.execute rest (by simp [abortedAfter])]
        rfl
      · rw [run_tried behind fun failed => by simpa [failed] using ends]
        exact attempts_after trial_attempts (ih _)

variable (batchId policy) in
/-- A loader that gives the answers is called for each attempt that the run makes, and for no
other. -/
theorem run_recording_runSteps {σ : Type} {load : Loader (StateM σ)} (gives : Gives load answers)
    (steps : List RunStep) (past : Fates) (s : σ) (calls : List StepCall) :
    ∃ s', (runSteps (recording load) batchId policy steps past).run (s, calls) =
      pure (answers.run batchId policy steps past, s',
        calls ++ callsFor batchId policy.execute steps
          (answers.run batchId policy steps past).results) := by
  induction steps generalizing past s calls with
  | nil =>
    refine ⟨s, ?_⟩
    rw [callsFor_untried policy.execute [] (by simp [Answers.run, runSteps, Outcome.empty]),
      List.append_nil]
    rfl
  | cons step rest ih =>
    cases behind : step.inputs.findSome? past.failureBehind? with
    | some root =>
      obtain ⟨s', ran⟩ := ih ((step.key, .blocked root) :: past) s calls
      refine ⟨s', ?_⟩
      rw [run_blocked behind]
      simp only [runSteps, behind, StateT.run_bind, ran, pure_bind, StateT.run_pure]
      rfl
    | none =>
      obtain ⟨s₁, tried⟩ := run_attemptStep batchId policy gives step policy.retries 1 s calls
      have trial : attemptStep answers.loader batchId step policy policy.retries 1 =
          answers.trial batchId policy step := rfl
      rw [trial, trial_calls] at tried
      by_cases ends : (answers.trial batchId policy step).1.status = .error ∧
        ¬ policy.continueOnError = true
      · refine ⟨s₁, ?_⟩
        have results : (Outcome.after ⟨false, rest.map (abortedAfter step.key), []⟩
            (answers.trial batchId policy step).1 (answers.trial batchId policy step).2).results =
              (answers.trial batchId policy step).1 :: rest.map (abortedAfter step.key) := rfl
        rw [run_ended behind ends.1 (by simpa using ends.2), results, callsFor_cons,
          callsFor_untried policy.execute rest (by simp [abortedAfter]), List.append_nil]
        simp only [runSteps, behind, StateT.run_bind, tried, pure_bind, if_pos ends,
          StateT.run_pure]
      · obtain ⟨s', ran⟩ :=
          ih ((step.key, .ofResult (answers.trial batchId policy step).1) :: past) s₁
          (calls ++ callsFrom batchId policy.execute step 1
            (answers.trial batchId policy step).1.attemptNo)
        refine ⟨s', ?_⟩
        rw [run_tried behind fun failed => by simpa [failed] using ends]
        simp only [runSteps, behind, StateT.run_bind, tried, pure_bind, if_neg ends, ran,
          StateT.run_pure, List.append_assoc]
        rfl

/-! ### Up to the first failure

A run that goes on and one that does not are the same step by step, until a step fails. From there
on the one tries what it can, and the other passes over all that is left. -/

/-- How a run that ended with the failure of the `k`-th step compares with one that went on. -/
structure CutShort (steps : List RunStep) (full fast : Outcome) (k : Nat) : Prop where
  upTo : fast.results.take (k + 1) = full.results.take (k + 1)
  aborted : (fast.results.drop (k + 1)).map (fun r => (r.dataset, r.status, r.kind, r.attemptNo)) =
    (steps.drop (k + 1)).map fun step => (step.key.display, .skipped, .aborted, 0)
  hadError : full.hadError = true ∧ fast.hadError = true

/-- A run that is cut short later is cut short when a step is put in front. -/
theorem CutShort.cons {full fast : Outcome} {k : Nat} (cut : CutShort rest full fast k)
    (step : RunStep) (result : StepResult) (attempts : List Attempt) :
    CutShort (step :: rest) (full.after result attempts) (fast.after result attempts) (k + 1) where
  upTo := congrArg (result :: ·) cut.upTo
  aborted := cut.aborted
  hadError := by simp [Outcome.after, cut.hadError]

private theorem cutShort_ended (step : RunStep) (full : Outcome) {result : StepResult}
    (attempts : List Attempt) (failed : result.status = .error) :
    CutShort (step :: rest) (full.after result attempts)
      (Outcome.after ⟨false, rest.map (abortedAfter step.key), []⟩ result attempts) 0 where
  upTo := rfl
  aborted := by simp [Outcome.after, abortedAfter]
  hadError := by simp [Outcome.after, failed]

/-- The first failure is at the first step, or else one place behind that of the rest. -/
theorem firstFailureAt?_after (o : Outcome) (result : StepResult) (attempts : List Attempt) :
    (o.after result attempts).firstFailureAt? =
      if result.status = .error then some 0 else o.firstFailureAt?.map (· + 1) := by
  simp [Outcome.firstFailureAt?, Outcome.after, List.findIdx?_cons]

/-- How a run that ends with its first failure compares with one that goes on. -/
structure AgreeUntilFailure (steps : List RunStep) (full fast : Outcome) : Prop where
  same : full.firstFailureAt? = none → fast = full
  cut : ∀ k, full.firstFailureAt? = some k → CutShort steps full fast k

/-- Runs that agree do so when a step that passes is put in front. -/
theorem AgreeUntilFailure.cons {full fast : Outcome} (agree : AgreeUntilFailure rest full fast)
    (step : RunStep) {result : StepResult} (attempts : List Attempt)
    (passed : result.status ≠ .error) :
    AgreeUntilFailure (step :: rest) (full.after result attempts) (fast.after result attempts) where
  same none := by
    rw [firstFailureAt?_after, if_neg passed, Option.map_eq_none_iff] at none
    rw [agree.same none]
  cut k first := by
    rw [firstFailureAt?_after, if_neg passed, Option.map_eq_some_iff] at first
    obtain ⟨k, first, rfl⟩ := first
    exact (agree.cut k first).cons step result attempts

variable (answers batchId policy) in
/-- By induction on the steps: what the two runs do with a step that does not fail is the same. -/
theorem run_agreeUntilFailure (steps : List RunStep) (past : Fates) :
    AgreeUntilFailure steps (answers.run batchId { policy with continueOnError := true } steps past)
      (answers.run batchId { policy with continueOnError := false } steps past) := by
  induction steps generalizing past with
  | nil => exact ⟨fun _ => rfl, fun k first => by cases first⟩
  | cons step rest ih =>
    cases behind : step.inputs.findSome? past.failureBehind? with
    | some root =>
      rw [run_blocked behind, run_blocked behind]
      exact (ih _).cons step [] (by simp [blocked])
    | none =>
      have full := trial_continueOnError answers batchId policy step true
      have fast := trial_continueOnError answers batchId policy step false
      by_cases failed : (answers.trial batchId policy step).1.status = .error
      · rw [run_tried behind fun _ => rfl, run_ended behind (by rw [fast, failed]) rfl, full, fast]
        refine ⟨fun none => ?_, fun k first => ?_⟩
        · rw [firstFailureAt?_after, if_pos failed] at none
          cases none
        · rw [firstFailureAt?_after, if_pos failed] at first
          cases first
          exact cutShort_ended step _ _ failed
      · rw [run_tried behind fun _ => rfl, run_tried behind fun failed' =>
          absurd (fast ▸ failed') failed, full, fast]
        exact (ih _).cons step _ failed

end

/-! ### Failing fast -/

/-- A run of the plan from a state: its outcome, and the calls that the loader gets. -/
def RunPlan.Runs {σ : Type} (plan : RunPlan) (load : Loader (StateM σ)) (policy : RunPolicy) (s : σ)
    (o : Outcome) (calls : List StepCall) : Prop :=
  ∃ s', (runPlan load plan policy).run s = pure (o, s') ∧
    (runPlan (recording load) plan policy).run (s, []) = pure (o, s', calls)

/-- How a run that ends with its first failure compares with one that goes on, given what is
answered. -/
structure FailsFast (plan : RunPlan) (policy : RunPolicy) (answers : Answers) (full fast : Outcome)
    (fullCalls fastCalls : List StepCall) : Prop where
  calls : fullCalls = callsFor plan.batchId policy.execute plan.steps full.results
  attempts : full.attempts = fullCalls.map (answers.record policy)
  same : full.firstFailureAt? = none → fast = full ∧ fastCalls = fullCalls
  cut : ∀ k, full.firstFailureAt? = some k → CutShort plan.steps full fast k
  /-- The calls are those for the steps up to the failed one. -/
  callsUpTo : ∀ k, full.firstFailureAt? = some k →
    fastCalls = callsFor plan.batchId policy.execute plan.steps (full.results.take (k + 1))
  attemptsUpTo : fast.attempts = fastCalls.map (answers.record policy)

/-- A run is determined by the answers. -/
theorem runs_of_gives {σ : Type} {load : Loader (StateM σ)} {answers : Answers}
    (gives : Gives load answers) (plan : RunPlan) (policy : RunPolicy) (s : σ) :
    plan.Runs load policy s (answers.run plan.batchId policy plan.steps [])
      (callsFor plan.batchId policy.execute plan.steps
        (answers.run plan.batchId policy plan.steps []).results) := by
  obtain ⟨_, o, s', new, plain, ran, _, _⟩ :=
    runSteps_traced load plan.batchId policy plan.steps [] s []
  obtain ⟨s'', answered⟩ := run_recording_runSteps plan.batchId policy gives plan.steps [] s []
  have same : (o, s', [] ++ new) = (_, s'', [] ++ _) := ran.symm.trans answered
  obtain ⟨rfl, rest⟩ := Prod.mk.inj same
  obtain ⟨rfl, calls⟩ := Prod.mk.inj rest
  exact ⟨s', plain, answered⟩

/-- Under a policy that counts, the attempts of a run are counted in 32 bits. -/
theorem RunPlan.Runs.counted {σ : Type} {plan : RunPlan} {load : Loader (StateM σ)}
    {policy : RunPolicy} {s : σ} {o : Outcome} {calls : List StepCall}
    (runs : plan.Runs load policy s o calls) (counts : policy.Counts) : Counted o calls := by
  obtain ⟨entries, o', s', new, _, ran, traced, reports⟩ :=
    runSteps_traced load plan.batchId policy plan.steps [] s []
  obtain ⟨s'', _, recorded⟩ := runs
  have same : (o', s', [] ++ new) = (o, s'', calls) := ran.symm.trans recorded
  obtain ⟨rfl, rest⟩ := Prod.mk.inj same
  obtain ⟨rfl, rfl⟩ := Prod.mk.inj rest
  exact traced.countedIn reports counts

/-- No attempt is counted for what comes after the failed step. -/
theorem CutShort.untried {steps : List RunStep} {full fast : Outcome} {k : Nat}
    (cut : CutShort steps full fast k) : ∀ r ∈ fast.results.drop (k + 1), r.attemptNo = 0 := by
  intro r member
  have listed :=
    List.mem_map_of_mem (f :=
      fun r : StepResult => (r.dataset, r.status, r.kind, r.attemptNo)) member
  rw [cut.aborted] at listed
  obtain ⟨step, _, same⟩ := List.mem_map.mp listed
  exact (Prod.mk.inj (Prod.mk.inj (Prod.mk.inj same).2).2).2.symm

/-- A run that ends with its first failure agrees with one of the same plan that goes on, up to the
first step that fails and with it. The policy may be any under which attempts can be counted in 32
bits, and in 32 bits both runs count them. -/
theorem failFast_agrees_until_failure {σ : Type} (load : Loader (StateM σ)) (answers : Answers)
    (gives : Gives load answers) (plan : RunPlan) (policy : RunPolicy) (counts : policy.Counts)
    (s t : σ) :
    ∃ full fullCalls fast fastCalls,
      plan.Runs load { policy with continueOnError := true } s full fullCalls ∧
      plan.Runs load { policy with continueOnError := false } t fast fastCalls ∧
      Counted full fullCalls ∧ Counted fast fastCalls ∧
      FailsFast plan policy answers full fast fullCalls fastCalls := by
  have agree := run_agreeUntilFailure answers plan.batchId policy plan.steps []
  have fullRuns := runs_of_gives gives plan { policy with continueOnError := true } s
  have fastRuns := runs_of_gives gives plan { policy with continueOnError := false } t
  refine ⟨_, _, _, _, fullRuns, fastRuns, fullRuns.counted counts, fastRuns.counted counts, rfl,
    run_attempts plan.steps [], fun none => ?_, agree.cut, fun k first => ?_,
    run_attempts plan.steps []⟩
  · rw [agree.same none]
    exact ⟨rfl, rfl⟩
  · have cut := agree.cut k first
    rw [callsFor_take _ plan.steps cut.untried, cut.upTo]

/-! ### Products that cannot be read -/

/-- Customers, products, the orders that read both, and a calendar that reads nothing. -/
def nightlyPlan : RunPlan := ⟨"b7", [
  ⟨1, ⟨"stage", "customer"⟩, []⟩,
  ⟨2, ⟨"stage", "product"⟩, []⟩,
  ⟨3, ⟨"rawcore", "order"⟩, [⟨"stage", "customer"⟩, ⟨"stage", "product"⟩]⟩,
  ⟨4, ⟨"mart", "calendar"⟩, []⟩]⟩

/-- The customers are read at the second attempt and the products never. -/
def sourceAnswers : Answers := fun step attemptNo =>
  if step.key.name = "product" ∨ step.key.name = "customer" ∧ attemptNo = 1 then
    some ⟨"timeout", true⟩
  else none

/-- A loader that answers so and counts its calls. -/
def sourceLoader : Loader (StateM Nat) := fun call => do
  modify (· + 1)
  return sourceAnswers call.step call.attemptNo

private theorem gives_sourceLoader : Gives sourceLoader sourceAnswers := fun _ _ => rfl

/-- Both runs try the customers twice and the products twice; the one that fails fast leaves the
calendar out. -/
theorem failFast_leaves_calendar_out :
    Gives sourceLoader sourceAnswers ∧ RunPolicy.Counts ⟨true, false, 1⟩ ∧
    ∃ full fullCalls fast fastCalls,
      nightlyPlan.Runs sourceLoader ⟨true, true, 1⟩ 0 full fullCalls ∧
      nightlyPlan.Runs sourceLoader ⟨true, false, 1⟩ 5 fast fastCalls ∧
      FailsFast nightlyPlan ⟨true, false, 1⟩ sourceAnswers full fast fullCalls fastCalls ∧
      full.firstFailureAt? = some 1 ∧
      full.results.map StepResult.kind = [.execute, .execute, .blocked, .execute] ∧
      fast.results.map StepResult.kind = [.execute, .execute, .aborted, .aborted] ∧
      fastCalls.map (fun call => (call.step.key.name, call.attemptNo)) =
        [("customer", 1), ("customer", 2), ("product", 1), ("product", 2)] := by
  have counts : RunPolicy.Counts ⟨true, false, 1⟩ := by decide
  obtain ⟨full, fullCalls, fast, fastCalls, ⟨s', ran, recorded⟩, ⟨t', ran', recorded'⟩, -, -,
      fails⟩ :=
    failFast_agrees_until_failure sourceLoader sourceAnswers gives_sourceLoader nightlyPlan
      ⟨true, false, 1⟩ counts 0 5
  have fullRun :
    ((runPlan sourceLoader nightlyPlan ⟨true, true, 1⟩).run 0).1.firstFailureAt? = some 1 ∧
      ((runPlan sourceLoader nightlyPlan ⟨true, true, 1⟩).run 0).1.results.map StepResult.kind =
        [.execute, .execute, .blocked, .execute] := by decide
  have fastRun :
    ((runPlan sourceLoader nightlyPlan ⟨true, false, 1⟩).run 5).1.results.map StepResult.kind =
      [.execute, .execute, .aborted, .aborted] := by decide
  have called :
    ((runPlan (recording sourceLoader) nightlyPlan ⟨true, false, 1⟩).run (5, [])).2.2.map
      (fun call => (call.step.key.name, call.attemptNo)) =
        [("customer", 1), ("customer", 2), ("product", 1), ("product", 2)] := by decide
  rw [ran] at fullRun
  rw [ran'] at fastRun
  rw [recorded'] at called
  refine ⟨gives_sourceLoader, counts, full, fullCalls, fast, fastCalls, ⟨s', ran, recorded⟩,
    ⟨t', ran', recorded'⟩, fails, fullRun.1, fullRun.2, fastRun, called⟩

end Warehouse
