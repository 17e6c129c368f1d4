/-
Module: Warehouse.Run.SnapshotDiff
Purpose: How two runs differ: in the datasets they load, in the order of those that both load, in
  what these read, in the conditions, and in what became of them. Of several steps or results for
  one dataset the last counts, and datasets are gone through in the order of their written keys.
Trusted boundary: none
Main exports: FieldChange, SnapshotDiff, SnapshotDiff.between, SnapshotDiff.isEmpty,
  SnapshotDiff.text
-/
import Warehouse.Run.Snapshot

namespace Warehouse

/-- A field whose text is not the same before and after. -/
structure FieldChange where
  field : String
  before : String
  after : String
deriving DecidableEq, Repr

/-- How one run differs from another. -/
structure SnapshotDiff where
  added : List String
  removed : List String
  orderChanged : Bool
  dependencyChanges : List FieldChange
  policyChanges : List FieldChange
  transitions : List FieldChange
deriving DecidableEq, Repr

/-- The change of a field, if its two texts differ. -/
def changeOf (field before after : String) : List FieldChange :=
  if before = after then [] else [⟨field, before, after⟩]

/-- How a truth value is written. -/
def boolWord (b : Bool) : String := if b then "true" else "false"

/-- The conditions with their names. The fingerprint is not among them: the catalog may change
between two runs that are otherwise alike. -/
def RunContext.fields (c : RunContext) : List (String × String) := [
  ("execute", boolWord c.execute),
  ("continue_on_error", boolWord c.continueOnError),
  ("max_retries", toString c.maxRetries.toNat),
  ("profile", c.profile),
  ("target_system", c.targetSystem),
  ("dialect", c.dialect),
  ("root_dataset", c.rootDataset?.getD "")]

/-- The changes of the conditions. -/
def contextChanges (before after : RunContext) : List FieldChange :=
  (before.fields.zip after.fields).flatMap fun ((name, b), (_, a)) =>
    changeOf ("context." ++ name) b a

namespace PlanRecord

/-- The written keys of the steps, in order. -/
def stepNames (p : PlanRecord) : List String := p.steps.map fun s => s.key.display

/-- The step of that dataset. -/
def step? (p : PlanRecord) (name : String) : Option RunStep :=
  p.steps.reverse.find? fun s => s.key.display = name

end PlanRecord

/-- The result of that dataset. -/
def OutcomeRecord.result? (o : OutcomeRecord) (name : String) : Option StepResult :=
  o.results.reverse.find? fun r => r.dataset = name

/-- The datasets of `p` that `q` does not load. -/
def stepsOnlyIn (p q : PlanRecord) : List String := (ascending p.stepNames).filter (· ∉ q.stepNames)

/-- The order in which `p` loads those that `q` loads too. -/
def commonOrder (p q : PlanRecord) : List String := p.stepNames.filter (· ∈ q.stepNames)

/-- How a list of keys is written. -/
def keyListText (keys : List DatasetKey) : String :=
  "[" ++ ", ".intercalate (keys.map DatasetKey.display) ++ "]"

/-- What changed in what the datasets read that both load. -/
def dependencyChanges (before after : PlanRecord) : List FieldChange :=
  (ascending before.stepNames).flatMap fun name =>
    match before.step? name, after.step? name with
    | some b, some a =>
      if b.inputs = a.inputs then []
      else [⟨name ++ ".upstream_keys", keyListText b.inputs, keyListText a.inputs⟩]
    | _, _ => []

/-- What changed in the result of one dataset. -/
def resultChanges (name : String) (before after : StepResult) : List FieldChange :=
  changeOf (name ++ ".status") before.status.text after.status.text ++
  changeOf (name ++ ".kind") before.kind.text after.kind.text ++
  changeOf (name ++ ".attempt_no") (toString before.attemptNo) (toString after.attemptNo)

/-- What changed in the results of the datasets for which both have one. -/
def resultTransitions (before after : OutcomeRecord) : List FieldChange :=
  (ascending (before.results.map StepResult.dataset)).flatMap fun name =>
    match before.result? name, after.result? name with
    | some b, some a => resultChanges name b a
    | _, _ => []

namespace SnapshotDiff

/-- How `after` differs from `before`. -/
def between (before after : RunSnapshot) : SnapshotDiff :=
  { added := stepsOnlyIn after.plan before.plan
    removed := stepsOnlyIn before.plan after.plan
    orderChanged := decide (commonOrder before.plan after.plan ≠ commonOrder after.plan before.plan)
    dependencyChanges := Warehouse.dependencyChanges before.plan after.plan
    policyChanges := contextChanges before.context after.context
    transitions := resultTransitions before.outcome after.outcome }

def isEmpty (d : SnapshotDiff) : Bool :=
  d.added.isEmpty && d.removed.isEmpty && ! d.orderChanged && d.dependencyChanges.isEmpty &&
    d.policyChanges.isEmpty && d.transitions.isEmpty

/-- The line for a change. -/
def changeLine (c : FieldChange) : String := s!"~ {c.field}: {c.before} -> {c.after}"

/-- The lines for people. -/
def lines (d : SnapshotDiff) : List String :=
  d.added.map ("+ " ++ ·) ++ d.removed.map ("- " ++ ·) ++
    (if d.orderChanged then ["~ execution order changed"] else []) ++
    (d.policyChanges ++ d.dependencyChanges ++ d.transitions).map changeLine

def text (d : SnapshotDiff) : String := "\n".intercalate d.lines

end SnapshotDiff

def FieldChange.toJson (c : FieldChange) : Json := .object [
  ("field", .string c.field),
  ("before", .string c.before),
  ("after", .string c.after)]

def SnapshotDiff.toJson (d : SnapshotDiff) : Json := .object [
  ("added", Json.strings d.added),
  ("removed", Json.strings d.removed),
  ("order_changed", .bool d.orderChanged),
  ("dependency_changes", .array (d.dependencyChanges.map FieldChange.toJson)),
  ("policy_changes", .array (d.policyChanges.map FieldChange.toJson)),
  ("transitions", .array (d.transitions.map FieldChange.toJson))]

end Warehouse
