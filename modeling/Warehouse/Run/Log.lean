/-
Module: Warehouse.Run.Log
Purpose: The log of a run: a record for each attempt at a step, and one for a step that was never
  tried. All records of a step begin as the same started record and differ in how they end.
Trusted boundary: none
Main exports: LogStatus, LogRecord, LogRecord.started, LogRecord.withPlan, stepRecords
-/
import Warehouse.Load.Plan
import Warehouse.Run.Snapshot

namespace Warehouse

/-- How a load ended, as the log has it. -/
inductive LogStatus where
  | success
  | error
  | skipped
  | dryRun
deriving DecidableEq, Repr

def LogStatus.text : LogStatus → String
  | success => "success"
  | error => "error"
  | skipped => "skipped"
  | dryRun => "dry_run"

/-- A record of the log. -/
structure LogRecord where
  batchId : String
  loadRunId : String
  dataset : DatasetKey
  targetSystem : String
  profile : String
  mode? : Option LoadMode
  handleDeletes : Bool
  historize : Bool
  startedAt : Timestamp
  finishedAt? : Option Timestamp
  renderMs : Nat
  executionMs : Nat
  /-- How many bytes of statements the load has. -/
  sqlLength : Nat
  rowsAffected? : Option Nat
  status : LogStatus
  errorMessage? : Option String
  attemptNo : Nat
  reason? : Option String
  blockedBy? : Option String
deriving DecidableEq, Repr

namespace LogRecord

/-- The record of a load that has just been taken up. -/
def started (batchId loadRunId : String) (dataset : DatasetKey) (targetSystem profile : String)
    (startedAt : Timestamp) : LogRecord :=
  { batchId, loadRunId, dataset, targetSystem, profile, startedAt
    mode? := none
    handleDeletes := false
    historize := false
    finishedAt? := none
    renderMs := 0
    executionMs := 0
    sqlLength := 0
    rowsAffected? := none
    status := .skipped
    errorMessage? := none
    attemptNo := 0
    reason? := none
    blockedBy? := none }

/-- The record with the plan of the load. -/
def withPlan (r : LogRecord) (p : LoadPlan) : LogRecord :=
  { r with mode? := some p.mode, handleDeletes := p.handleDeletes, historize := p.historize }

/-- How a successful load is recorded. -/
def successStatus (executed : Bool) : LogStatus := if executed then .success else .dryRun

/-- The record of a step that has ended for good. -/
def finish (r : LogRecord) (result : StepResult) (executed : Bool) (now : Timestamp) : LogRecord :=
  { r with
    status := match result.status with
      | .success => successStatus executed
      | .error => .error
      | .skipped | .pending | .running => .skipped
    attemptNo := result.attemptNo
    reason? := result.reason?
    blockedBy? := result.blockedBy?
    errorMessage? := if result.status = .error then result.message? else r.errorMessage?
    finishedAt? := some now }

/-- The record of one attempt. -/
def finishAttempt (r : LogRecord) (a : Attempt) (executed : Bool) (now : Timestamp) : LogRecord :=
  { r with
    status := match a.status with
      | .success => successStatus executed
      | _ => .error
    attemptNo := a.attemptNo
    reason? := if a.retried then some "retried" else none
    errorMessage? := a.message?
    finishedAt? := some now }

end LogRecord

/-- The records of a step: one for each attempt before the last, and one for its result. They are
all written at the end of the step, and one time stands for the readings of the clock, which is read
once for each record as it is finished. -/
def stepRecords (base : LogRecord) (result : StepResult) (attempts : List Attempt) (executed : Bool)
    (now : Timestamp) : List LogRecord :=
  ((attempts.filter fun a => a.attemptNo < result.attemptNo).map fun a =>
    base.finishAttempt a executed now) ++ [base.finish result executed now]

/-- The written form of a count that may not be known. -/
def countToJson : Option Nat → Json
  | some n => .nat n
  | none => .null

def LogRecord.toJson (r : LogRecord) : Json := .object [
  ("batch_id", .string r.batchId),
  ("load_run_id", .string r.loadRunId),
  ("target_schema", .string r.dataset.schema),
  ("target_dataset", .string r.dataset.name),
  ("target_system", .string r.targetSystem),
  ("profile", .string r.profile),
  ("mode", Json.ofOption (r.mode?.map LoadMode.text)),
  ("handle_deletes", .bool r.handleDeletes),
  ("historize", .bool r.historize),
  ("started_at", r.startedAt.toJson),
  ("finished_at", Json.ofOption (r.finishedAt?.map Timestamp.instantText)),
  ("render_ms", .nat r.renderMs),
  ("execution_ms", .nat r.executionMs),
  ("sql_length", .nat r.sqlLength),
  ("rows_affected", countToJson r.rowsAffected?),
  ("status", .string r.status.text),
  ("error_message", Json.ofOption r.errorMessage?),
  ("attempt_no", .nat r.attemptNo),
  ("status_reason", Json.ofOption r.reason?),
  ("blocked_by", Json.ofOption r.blockedBy?)]

end Warehouse
