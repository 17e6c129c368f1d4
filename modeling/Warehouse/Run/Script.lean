/-
Module: Warehouse.Run.Script
Purpose: All that a run does to the database for one step, as one script: the table is created if it
  is missing and brought up to date, then the load is carried out. A view replaces itself and needs
  no table.
Trusted boundary: none
Main exports: stepStatements, stepScript
-/
import Warehouse.Drift.Plan
import Warehouse.Load.Compose
import Warehouse.Run.Execution
import Warehouse.Sql.Script
import Warehouse.Sql.Template

namespace Warehouse

open Sql (Definition Dialect RuntimeValues Statement)

/-- A failure that another attempt does not mend. -/
def StepFailure.fatal (message : String) : StepFailure := ⟨message, false⟩

/-- Why a dataset cannot be loaded, as the failure of a step. -/
def StepFailure.ofLoadError (e : LoadError) : StepFailure := ⟨e.message, e.isRetriable⟩

/-- The creation of a dataset's table. -/
def plannedTable (d : Dataset) : Planned :=
  (columnSpecs d).map fun columns => .definition (Definition.createTable d.objectName columns)

/-- The statements that make a dataset's table fit for its load. -/
def tableStatements (d : Dataset) (drift : DriftPlan) : List Planned :=
  (if drift.tableExists then [] else [plannedTable d]) ++
    drift.steps.map fun s => .ok (.definition s.definition)

/-- The statements of the load of a dataset that the dialect can carry out. -/
def composedStatements (c : Catalog) (d : Dataset) (plan : LoadPlan) (dialect : Dialect) :
    List Planned :=
  match (do checkCapabilities plan dialect; loadStatements c d plan true) with
  | .ok planned => planned
  | .error e => [.error e]

/-- The statements of a step, in order, up to the first that cannot be made. -/
def stepStatements (c : Catalog) (live : LiveSchema) (policy : DriftPolicy) (dialect : Dialect)
    (d : Dataset) : Except StepFailure (List Planned) := do
  let plan ← (resolveLoadPlan c d).mapError .ofLoadError
  let load := composedStatements c d plan dialect
  if plan.mode = .view then return load
  else
    let drift := planDrift d live dialect policy
    if drift.isBlocked then
      .error (.fatal ("; ".intercalate (drift.blockers.map UnresolvedColumn.message)))
    else return tableStatements d drift ++ load

/-- The script of a step, with the values of its load. -/
def stepScript (c : Catalog) (live : LiveSchema) (policy : DriftPolicy) (dialect : Dialect)
    (key : DatasetKey) (values : RuntimeValues) : Except StepFailure String := do
  let d ← (c.get key).mapError fun e => .fatal e.message
  let planned ← stepStatements c live policy dialect d
  let texts ← (renderPlanned dialect planned).mapError .ofLoadError
  (Sql.substitute (Sql.scriptText texts) dialect values).mapError fun e =>
    .fatal (key.display ++ ": " ++ e.message ++ " (pass --cutoff for incremental loads)")

end Warehouse
