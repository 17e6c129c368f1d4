/-
Module: Warehouse.Run.Result
Purpose: What is known of a run when it is over: a result for each step, and every attempt that was
  made. Counts of results by a name are in the order of the names.
Trusted boundary: none
Main exports: StepStatus, StepKind, StepResult, Attempt, Outcome, Outcome.countsByStatus,
  Outcome.countsByKind, Outcome.firstFailure?, Outcome.attemptsOf, Outcome.aborted
-/
import Warehouse.Run.Plan

namespace Warehouse

open Json (Decoder Fields)

/-- How far a step has come. -/
inductive StepStatus where
  | pending
  | running
  | success
  | error
  | skipped
deriving DecidableEq, Repr

namespace StepStatus

def text : StepStatus → String
  | pending => "pending"
  | running => "running"
  | success => "success"
  | error => "error"
  | skipped => "skipped"

/-- Every status, once. -/
def all : List StepStatus := [pending, running, success, error, skipped]

def ofText? (s : String) : Option StepStatus := all.find? fun t => t.text = s

end StepStatus

/-- How a step was treated: carried out, only tried, passed over because of what it reads, or passed
over because the run had ended. -/
inductive StepKind where
  | execute
  | dryRun
  | blocked
  | aborted
deriving DecidableEq, Repr

namespace StepKind

def text : StepKind → String
  | execute => "execute"
  | dryRun => "dry_run"
  | blocked => "blocked"
  | aborted => "aborted"

/-- Every kind, once. -/
def all : List StepKind := [execute, dryRun, blocked, aborted]

def ofText? (s : String) : Option StepKind := all.find? fun k => k.text = s

end StepKind

/-- What became of a step. The dataset is given by its written key; the number of the last attempt
is 0 where none was made. -/
structure StepResult where
  dataset : String
  status : StepStatus
  kind : StepKind
  attemptNo : Nat
  reason? : Option String
  blockedBy? : Option String
  message? : Option String
deriving DecidableEq, Repr

/-- One attempt at a step, and whether another followed. -/
structure Attempt where
  dataset : String
  attemptNo : Nat
  status : StepStatus
  retried : Bool
  message? : Option String
deriving DecidableEq, Repr

/-- What became of the steps of a run, in their order. -/
structure Outcome where
  hadError : Bool
  results : List StepResult
  attempts : List Attempt
deriving DecidableEq, Repr

/-- How often each name occurs. -/
def countNames (names : List String) : List (String × Nat) :=
  (ascending names).map fun n => (n, names.count n)

namespace Outcome

/-- Nothing was to be done. -/
def empty : Outcome := ⟨false, [], []⟩

/-- The outcome with that of an earlier step before it. -/
def after (o : Outcome) (result : StepResult) (attempts : List Attempt) : Outcome :=
  ⟨result.status = .error || o.hadError, result :: o.results, attempts ++ o.attempts⟩

/-- How many results have each status. -/
def countsByStatus (o : Outcome) : List (String × Nat) :=
  countNames (o.results.map fun r => r.status.text)

/-- How many results are of each kind. -/
def countsByKind (o : Outcome) : List (String × Nat) :=
  countNames (o.results.map fun r => r.kind.text)

/-- The first step that ended in an error. -/
def firstFailure? (o : Outcome) : Option StepResult := o.results.find? fun r => r.status = .error

/-- The attempts at the step of that dataset. -/
def attemptsOf (o : Outcome) (dataset : String) : List Attempt :=
  o.attempts.filter fun a => a.dataset = dataset

/-- The datasets whose steps were passed over because the run had ended. -/
def aborted (o : Outcome) : List String :=
  (o.results.filter fun r => r.kind = .aborted).map StepResult.dataset

end Outcome

/-! ### The JSON form -/

def decodeAttemptNo : Decoder Nat := Decoder.below UInt32.size

def StepResult.toJson (r : StepResult) : Json := .object [
  ("dataset", .string r.dataset),
  ("status", .string r.status.text),
  ("kind", .string r.kind.text),
  ("attempt_no", .nat r.attemptNo),
  ("status_reason", Json.ofOption r.reason?),
  ("blocked_by", Json.ofOption r.blockedBy?),
  ("message", Json.ofOption r.message?)]

def StepResult.decode : Decoder StepResult := Decoder.record
  (StepResult.mk <$> Fields.required "dataset" Decoder.string
    <*> Fields.required "status" (Decoder.name StepStatus.ofText?)
    <*> Fields.required "kind" (Decoder.name StepKind.ofText?)
    <*> Fields.required "attempt_no" decodeAttemptNo
    <*> Fields.nullable "status_reason" Decoder.string
    <*> Fields.nullable "blocked_by" Decoder.string
    <*> Fields.nullable "message" Decoder.string)

def Attempt.toJson (a : Attempt) : Json := .object [
  ("dataset", .string a.dataset),
  ("attempt_no", .nat a.attemptNo),
  ("status", .string a.status.text),
  ("retried", .bool a.retried),
  ("message", Json.ofOption a.message?)]

def Attempt.decode : Decoder Attempt := Decoder.record
  (Attempt.mk <$> Fields.required "dataset" Decoder.string
    <*> Fields.required "attempt_no" decodeAttemptNo
    <*> Fields.required "status" (Decoder.name StepStatus.ofText?)
    <*> Fields.required "retried" Decoder.bool
    <*> Fields.nullable "message" Decoder.string)

def Outcome.toJson (o : Outcome) : Json := .object (
  [("had_error", .bool o.hadError), ("results", .array (o.results.map StepResult.toJson))] ++
  listMember "attempts" (o.attempts.map Attempt.toJson))

def countsToJson (counts : List (String × Nat)) : Json :=
  .object (counts.map fun (name, n) => (name, .nat n))

end Warehouse
