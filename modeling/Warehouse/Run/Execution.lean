/-
Module: Warehouse.Run.Execution
Purpose: Running a plan. Each step is handed to a loader, which says whether it went well; a failure
  that may pass is tried again as often as the policy allows. A step that reads a failed dataset,
  directly or through others, is blocked and names the one that failed. Unless the policy says to
  continue, the first failure ends the run and the steps after it are aborted. Loaders may have any
  effects; a run has those of the calls it makes, in their order.
Trusted boundary: none
Main exports: RunPolicy, StepFailure, StepCall, Loader, attemptStep, runSteps, runPlan
-/
import Warehouse.Run.Result

namespace Warehouse

/-- How a run is to be carried out. -/
structure RunPolicy where
  execute : Bool := false
  continueOnError : Bool := false
  maxRetries : UInt32 := 0
deriving DecidableEq, Repr

/-- What went wrong with an attempt, and whether another may help. -/
structure StepFailure where
  message : String
  retriable : Bool
deriving DecidableEq, Repr

/-- What a loader is asked to do. The attempts at a step are numbered from 1 up. -/
structure StepCall where
  batchId : String
  step : RunStep
  attemptNo : Nat
  execute : Bool
deriving DecidableEq, Repr

/-- Something that carries out steps. It answers with the failure, if there is one. -/
abbrev Loader (m : Type → Type) := StepCall → m (Option StepFailure)

namespace RunPolicy

/-- How often a step may be tried again. A run that does not execute tries each step once. -/
def retries (p : RunPolicy) : Nat := if p.execute then p.maxRetries.toNat else 0

/-- How a step is treated that is handed to the loader. -/
def kind (p : RunPolicy) : StepKind := if p.execute then .execute else .dryRun

end RunPolicy

/-! ### One step -/

/-- The result of a step that went well. -/
def succeeded (step : RunStep) (kind : StepKind) (attemptNo : Nat) : StepResult :=
  ⟨step.key.display, .success, kind, attemptNo,
    if 1 < attemptNo then some "succeeded_after_retry" else none, none, none⟩

/-- Why a failed step was given up. -/
def givenUpReason (attemptNo : Nat) (f : StepFailure) : String :=
  if 1 < attemptNo then "retries_exhausted" else if f.retriable then "failed" else "not_retriable"

/-- The result of a step that failed for good. -/
def failed (step : RunStep) (kind : StepKind) (attemptNo : Nat) (f : StepFailure) : StepResult :=
  ⟨step.key.display, .error, kind, attemptNo, some (givenUpReason attemptNo f), none,
    some f.message⟩

/-- What becomes of a step with its last attempt, and the record of that attempt. -/
def lastAttempt (step : RunStep) (kind : StepKind) (attemptNo : Nat) :
    Option StepFailure → StepResult × List Attempt
  | none => (succeeded step kind attemptNo, [⟨step.key.display, attemptNo, .success, false, none⟩])
  | some f =>
    (failed step kind attemptNo f, [⟨step.key.display, attemptNo, .error, false, some f.message⟩])

/-- Tries a step, for the `attemptNo`-th time, and again up to `retries` times. Attempts are counted
in 32 bits, which is enough for every policy but the one that executes and allows 2 ^ 32 - 1
retries. That a count goes on above that is no statement about such a run. -/
def attemptStep {m : Type → Type} [Monad m] (load : Loader m) (batchId : String) (step : RunStep)
    (policy : RunPolicy) : (retries attemptNo : Nat) → m (StepResult × List Attempt)
  | 0, attemptNo => do
    let answer ← load ⟨batchId, step, attemptNo, policy.execute⟩
    return lastAttempt step policy.kind attemptNo answer
  | retries + 1, attemptNo => do
    let answer ← load ⟨batchId, step, attemptNo, policy.execute⟩
    match answer.filter StepFailure.retriable with
    | none => return lastAttempt step policy.kind attemptNo answer
    | some f =>
      let (result, attempts) ← attemptStep load batchId step policy retries (attemptNo + 1)
      return (result, ⟨step.key.display, attemptNo, .error, true, some f.message⟩ :: attempts)

/-! ### All steps -/

/-- What became of a step, as far as those that read its dataset are concerned. -/
inductive Fate where
  | loaded
  | failed
  /-- Passed over because of the dataset that failed, given by its written key. -/
  | blocked (failedRoot : String)
deriving DecidableEq, Repr

/-- What became of earlier steps, the latest first. -/
abbrev Fates := List (DatasetKey × Fate)

/-- The failed dataset because of which nothing can be read from `key`. -/
def Fates.failureBehind? (past : Fates) (key : DatasetKey) : Option String :=
  match past.lookup key with
  | some .failed => some key.display
  | some (.blocked root) => some root
  | _ => none

/-- The result of a step that reads a dataset which could not be loaded because `root` failed. -/
def blocked (step : RunStep) (root : String) : StepResult :=
  ⟨step.key.display, .skipped, .blocked, 0, some "upstream_failed", some root,
    some s!"upstream {root} failed"⟩

/-- The result of a step that was not reached because the run ended when `ended` failed. -/
def abortedAfter (ended : DatasetKey) (step : RunStep) : StepResult :=
  ⟨step.key.display, .skipped, .aborted, 0, some "batch_aborted", none,
    some s!"not attempted: batch aborted after {ended.display} failed"⟩

/-- What became of a step that was handed to the loader. -/
def Fate.ofResult (r : StepResult) : Fate := if r.status = .error then .failed else .loaded

/-- Runs steps one after another, given what became of earlier ones. -/
def runSteps {m : Type → Type} [Monad m] (load : Loader m) (batchId : String) (policy : RunPolicy) :
    List RunStep → Fates → m Outcome
  | [], _ => return .empty
  | step :: rest, past => do
    match step.inputs.findSome? past.failureBehind? with
    | some root =>
      let others ← runSteps load batchId policy rest ((step.key, .blocked root) :: past)
      return others.after (blocked step root) []
    | none =>
      let (result, attempts) ← attemptStep load batchId step policy policy.retries 1
      if result.status = .error ∧ ¬ policy.continueOnError then
        return Outcome.after ⟨false, rest.map (abortedAfter step.key), []⟩ result attempts
      else
        let others ← runSteps load batchId policy rest ((step.key, .ofResult result) :: past)
        return others.after result attempts

/-- Runs a plan. -/
def runPlan {m : Type → Type} [Monad m] (load : Loader m) (plan : RunPlan) (policy : RunPolicy) :
    m Outcome :=
  runSteps load plan.batchId policy plan.steps []

end Warehouse
