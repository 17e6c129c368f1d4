/-
Module: Warehouse.Run.Manifest
Purpose: All that a catalog loads and reads, in levels: each node stands in the level after the last
  of those that it depends on. Nodes are the datasets and the outside tables that these name as
  their sources.
Trusted boundary: none
Main exports: ManifestNode, Manifest, Manifest.ofCatalog, Manifest.text
-/
import Warehouse.Load.Plan
import Warehouse.Run.Order
import Warehouse.Run.Snapshot

namespace Warehouse

/-- A dataset or an outside table; only a dataset has a mode, a materialization and dependencies. -/
structure ManifestNode where
  id : String
  isSource : Bool
  schema? : Option String
  dataset : String
  mode? : Option String
  materialization? : Option String
  deps : List String
deriving DecidableEq, Repr

/-- The nodes in the order of the levels, and the levels as lists of what the nodes are called. -/
structure Manifest where
  generatedAt : Timestamp
  profile : String
  targetSystem : String
  nodes : List ManifestNode
  levels : List (List String)
deriving DecidableEq, Repr

namespace ManifestNode

/-- What the node of an outside table is called. -/
def sourceId (s : SourceObject) : String := "source:" ++ s.display

/-- The node of an outside table. -/
def ofSource (s : SourceObject) : ManifestNode :=
  ⟨sourceId s, true, s.schema, s.table, none, none, []⟩

/-- What a dataset depends on: its inputs and its sources, once each, in ascending order. -/
def depsOf (d : Dataset) : List String :=
  ascending (d.inputs.map DatasetKey.display ++ d.sources.map sourceId)

/-- The node of a dataset. One that cannot be loaded has no mode. -/
def ofDataset (c : Catalog) (d : Dataset) : ManifestNode :=
  { id := d.key.display
    isSource := false
    schema? := some d.schema
    dataset := d.name
    mode? := (resolveLoadPlan c d).toOption.map fun p => p.mode.text
    materialization? := some d.materialization.text
    deps := depsOf d }

end ManifestNode

/-- The nodes with that of an outside table, unless there is one of that name. -/
def addSourceNode (nodes : List ManifestNode) (s : SourceObject) : List ManifestNode :=
  if nodes.any fun n => n.id = ManifestNode.sourceId s then nodes
  else nodes ++ [ManifestNode.ofSource s]

/-- The nodes with those of a dataset and of its sources. The dataset takes the place of a node of
its name. -/
def addDatasetNodes (c : Catalog) (nodes : List ManifestNode) (d : Dataset) : List ManifestNode :=
  let node := ManifestNode.ofDataset c d
  (d.sources.foldl addSourceNode nodes).filter (fun n => n.id ≠ node.id) ++ [node]

/-- The node of every name. -/
def manifestNodes (c : Catalog) : List ManifestNode := c.datasets.foldl (addDatasetNodes c) []

/-- The graph with a dataset, its sources and all that it depends on. -/
def addManifestDependencies (g : DependencyGraph String) (d : Dataset) : DependencyGraph String :=
  let withSources := d.sources.foldl (fun g s => g.addNode (ManifestNode.sourceId s)) g
  (ManifestNode.depsOf d).foldl (fun g dep => g.addDependency d.key.display dep)
    (withSources.addNode d.key.display)

/-- What depends on what. -/
def manifestGraph (c : Catalog) : DependencyGraph String :=
  c.datasets.foldl addManifestDependencies .empty

/-- The manifest of a catalog. -/
def Manifest.ofCatalog (c : Catalog) (profile targetSystem : String) (generatedAt : Timestamp) :
    Except (Cycle String) Manifest := do
  let levels ← (manifestGraph c).levels
  let nodes := levels.flatten.filterMap fun id => (manifestNodes c).find? fun n => n.id = id
  return ⟨generatedAt, profile, targetSystem, nodes, levels⟩

/-! ### The JSON form -/

def ManifestNode.toJson (n : ManifestNode) : Json := .object [
  ("id", .string n.id),
  ("type", .string (if n.isSource then "source" else "target")),
  ("schema", Json.ofOption n.schema?),
  ("dataset", .string n.dataset),
  ("mode", Json.ofOption n.mode?),
  ("materialization", Json.ofOption n.materialization?),
  ("deps", Json.strings n.deps)]

namespace Manifest

def toJson (m : Manifest) : Json := .object [
  ("generated_at", m.generatedAt.toJson),
  ("profile", .string m.profile),
  ("target_system", .string m.targetSystem),
  ("nodes", .array (m.nodes.map ManifestNode.toJson)),
  ("levels", .array (m.levels.map Json.strings))]

def text (m : Manifest) : String := m.toJson.sorted.pretty

end Manifest

end Warehouse
