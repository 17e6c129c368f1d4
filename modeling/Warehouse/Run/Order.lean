/-
Module: Warehouse.Run.Order
Purpose: Which datasets a run loads, and in which order. A run without roots loads the whole
  catalog; one with roots loads them and all that they read, directly or not, and the shadows of
  what it loads.
Trusted boundary: none
Main exports: OrderError, Catalog.dependencies, runOrder
-/
import Warehouse.Catalog.Basic
import Warehouse.Graph.Order

namespace Warehouse

/-- Why there is no order. -/
inductive OrderError where
  | cycle (cause : Cycle DatasetKey)
  | unknownRoot (key : DatasetKey)
  | catalog (cause : CatalogError)
deriving DecidableEq, Repr

def OrderError.message : OrderError → String
  | cycle cause => cause.message DatasetKey.display
  | unknownRoot key => s!"unknown dataset '{key.display}'"
  | catalog cause => cause.message

/-- Which datasets read which. -/
def Catalog.dependencies (c : Catalog) : DependencyGraph DatasetKey :=
  c.datasets.foldl
    (fun g d => d.inputs.foldl (fun g u => g.addDependency d.key u) (g.addNode d.key)) .empty

/-- The keys, and those of the shadows that their datasets have. -/
def Catalog.withShadows (c : Catalog) (keys : List DatasetKey) : List DatasetKey :=
  keys ++ keys.filterMap fun k => (c.shadowOf? k).map Dataset.key

/-- What a run with those roots loads. -/
def runMembers (c : Catalog) (roots : List DatasetKey) : List DatasetKey :=
  c.withShadows (if roots.isEmpty then c.keys else c.dependencies.closure roots)

/-- The datasets that a run with those roots loads, in order. -/
def runOrder (c : Catalog) (roots : List DatasetKey) : Except OrderError (List Dataset) := do
  match roots.find? fun r => ! c.dependencies.contains r with
  | some unknown => .error (.unknownRoot unknown)
  | none =>
    let keys ← (c.dependencies.orderOf (runMembers c roots)).mapError .cycle
    keys.mapM fun k => (c.get k).mapError .catalog

end Warehouse
