/-
Module: Warehouse.Run.Snapshot
Purpose: The record of a run that is kept to compare it with others: under which conditions it ran,
  its plan and its results. The written form has the members of every object in the order of their
  names.
Trusted boundary: none
Main exports: RunContext, RunSnapshot, RunSnapshot.ofRun, RunSnapshot.text, RunSnapshot.ofJsonText
-/
import Warehouse.Calendar
import Warehouse.Run.Execution

namespace Warehouse

open Json (Decoder Fields Failure)

/-- The conditions of a run. -/
structure RunContext where
  execute : Bool
  continueOnError : Bool
  maxRetries : UInt32
  profile : String
  targetSystem : String
  dialect : String
  /-- The keys that the run was asked for. -/
  rootDataset? : Option String
  catalogFingerprint? : Option String
deriving DecidableEq, Repr

/-- The steps of a run, and how many they are said to be. -/
structure PlanRecord where
  stepCount : Nat
  steps : List RunStep
deriving DecidableEq, Repr

/-- The results of a run, and how many there are said to be of each status and kind. -/
structure OutcomeRecord where
  hadError : Bool
  countsByStatus : List (String × Nat)
  countsByKind : List (String × Nat)
  results : List StepResult
deriving DecidableEq, Repr

/-- The record of a run. -/
structure RunSnapshot where
  batchRunId : String
  createdAt : Timestamp
  context : RunContext
  plan : PlanRecord
  outcome : OutcomeRecord
deriving DecidableEq, Repr

/-- The conditions that a policy sets; a run for the whole catalog, which is not fingerprinted. -/
def RunContext.ofPolicy (p : RunPolicy) (profile targetSystem dialect : String) : RunContext :=
  ⟨p.execute, p.continueOnError, p.maxRetries, profile, targetSystem, dialect, none, none⟩

/-- The record of a run that has just ended. -/
def RunSnapshot.ofRun (plan : RunPlan) (outcome : Outcome) (context : RunContext)
    (createdAt : Timestamp) : RunSnapshot :=
  { batchRunId := plan.batchId
    createdAt
    context
    plan := ⟨plan.steps.length, plan.steps⟩
    outcome := ⟨outcome.hadError, outcome.countsByStatus, outcome.countsByKind, outcome.results⟩ }

/-! ### The JSON form -/

def Timestamp.toJson (t : Timestamp) : Json := .string t.instantText

def RunContext.toJson (c : RunContext) : Json := .object [
  ("execute", .bool c.execute),
  ("continue_on_error", .bool c.continueOnError),
  ("max_retries", idToJson c.maxRetries),
  ("profile", .string c.profile),
  ("target_system", .string c.targetSystem),
  ("dialect", .string c.dialect),
  ("root_dataset", Json.ofOption c.rootDataset?),
  ("catalog_fingerprint", Json.ofOption c.catalogFingerprint?)]

def PlanRecord.toJson (p : PlanRecord) : Json := .object [
  ("step_count", .nat p.stepCount),
  ("steps", .array (p.steps.map RunStep.toJson))]

def OutcomeRecord.toJson (o : OutcomeRecord) : Json := .object [
  ("had_error", .bool o.hadError),
  ("counts_by_status", countsToJson o.countsByStatus),
  ("counts_by_kind", countsToJson o.countsByKind),
  ("results", .array (o.results.map StepResult.toJson))]

namespace RunSnapshot

def toJson (s : RunSnapshot) : Json := .object [
  ("batch_run_id", .string s.batchRunId),
  ("created_at", s.createdAt.toJson),
  ("context", s.context.toJson),
  ("plan", s.plan.toJson),
  ("outcome", s.outcome.toJson)]

def text (s : RunSnapshot) : String := s.toJson.sorted.pretty

end RunSnapshot

def RunContext.decode : Decoder RunContext := Decoder.record
  (RunContext.mk <$> Fields.required "execute" Decoder.bool
    <*> Fields.required "continue_on_error" Decoder.bool
    <*> Fields.required "max_retries" Decoder.uint32
    <*> Fields.required "profile" Decoder.string
    <*> Fields.required "target_system" Decoder.string
    <*> Fields.required "dialect" Decoder.string
    <*> Fields.nullable "root_dataset" Decoder.string
    <*> Fields.optional "catalog_fingerprint" none (Decoder.nullable Decoder.string))

/-- Counts with each name once, in the order of the names; of several counts of a name the last. -/
def settleCounts (counts : List (String × Nat)) : List (String × Nat) :=
  (ascending (counts.map Prod.fst)).filterMap fun n => (lookupLast counts n).map fun k => (n, k)

def decodeSize : Decoder Nat := Decoder.below UInt64.size

def decodeCounts : Decoder (List (String × Nat)) := settleCounts <$> Decoder.table decodeSize

def PlanRecord.decode : Decoder PlanRecord := Decoder.record
  (PlanRecord.mk <$> Fields.required "step_count" decodeSize
    <*> Fields.required "steps" (Decoder.list RunStep.decode))

def OutcomeRecord.decode : Decoder OutcomeRecord := Decoder.record
  (OutcomeRecord.mk <$> Fields.required "had_error" Decoder.bool
    <*> Fields.required "counts_by_status" decodeCounts
    <*> Fields.required "counts_by_kind" decodeCounts
    <*> Fields.required "results" (Decoder.list StepResult.decode))

namespace RunSnapshot

def decode : Decoder RunSnapshot := Decoder.record
  (RunSnapshot.mk <$> Fields.required "batch_run_id" Decoder.string
    <*> Fields.required "created_at" (Decoder.stringWith Timestamp.ofInstantText?)
    <*> Fields.required "context" RunContext.decode
    <*> Fields.required "plan" PlanRecord.decode
    <*> Fields.required "outcome" OutcomeRecord.decode)

def ofJsonText (text : String) : Except Failure RunSnapshot := Json.decode decode text

end RunSnapshot

end Warehouse
