/-
Module: Warehouse.Load.Plan
Purpose: How a dataset is loaded: decided from its materialization, whether it is a shadow, its
  strategy, and the policy of its schema.
Trusted boundary: none
Main exports: LoadMode, LoadPlan, resolveLoadPlan, checkCapabilities
-/
import Warehouse.Catalog.Basic
import Warehouse.Load.Error

namespace Warehouse

/-- What a load does. -/
inductive LoadMode where
  | full
  | append
  | merge
  | snapshot
  | historize
  | view
deriving DecidableEq, Repr

def LoadMode.text : LoadMode → String
  | full => "full"
  | append => "append"
  | merge => "merge"
  | snapshot => "snapshot"
  | historize => "historize"
  | view => "view"

/-- How a dataset is loaded: whether rows that have gone from the source are removed, and whether a
shadow keeps its history. -/
structure LoadPlan where
  dataset : DatasetKey
  mode : LoadMode
  handleDeletes : Bool
  historize : Bool
deriving DecidableEq, Repr

/-- Refuses a dataset that its schema's policy does not allow. A shadow follows the policy of its
base. -/
def checkSchemaPolicy (c : Catalog) (d : Dataset) : Except LoadError Unit :=
  if d.isShadow then .ok ()
  else do
    let schema ← liftCatalog (c.schemaOf d)
    match schema.surrogateKeysEnabled, d.columnWithRole? .surrogateKey with
    | false, some column => .error (.surrogateKeysDisabled d.key column.name schema.name)
    | _, _ =>
      if ! schema.generateLayer && d.queryRoot?.isNone then .error (.notGenerated d.key schema.name)
      else .ok ()

/-- The plan of a merge. Only integrated datasets detect deletes. -/
def mergePlan (c : Catalog) (d : Dataset) : Except LoadError LoadPlan :=
  if d.naturalKeys.isEmpty then .error (.missingNaturalKeys d.key)
  else do
    let schema ← liftCatalog (c.schemaOf d)
    return ⟨d.key, .merge, d.handleDeletes && schema.effectiveLayer = .rawcore, c.wantsHistory d⟩

/-- How a dataset is loaded. -/
def resolveLoadPlan (c : Catalog) (d : Dataset) : Except LoadError LoadPlan := do
  checkSchemaPolicy c d
  match d.materialization with
  | .view => return ⟨d.key, .view, false, false⟩
  | .externalPassthrough => .error (.externalDataset d.key)
  | .table | .incremental =>
    if d.isShadow then
      if d.naturalKeys.isEmpty then .error (.missingNaturalKeys d.key)
      else return ⟨d.key, .historize, false, false⟩
    else match d.strategy with
      | .full => return ⟨d.key, .full, false, false⟩
      | .append => return ⟨d.key, .append, false, false⟩
      | .snapshot => return ⟨d.key, .snapshot, false, false⟩
      | .merge | .historize => mergePlan c d

/-- Refuses a plan that a dialect cannot carry out. -/
def checkCapabilities (plan : LoadPlan) (d : Sql.Dialect) : Except LoadError Unit :=
  if plan.handleDeletes && ! d.hasDeleteDetection then .error (.deleteDetectionMissing d)
  else .ok ()

end Warehouse
