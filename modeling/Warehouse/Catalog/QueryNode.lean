/-
Module: Warehouse.Catalog.QueryNode
Purpose: Query trees as catalogs declare them: nodes with numbers, each reading the output of
  another node or a dataset. Several trees may share nodes. Of two nodes with one number the later
  counts.
Trusted boundary: none
Main exports: ProjectedColumn, Measure, WindowColumn, NodeKind, QueryNode, QueryGraph,
  QueryGraph.sourceDatasets, QueryGraph.references
-/
import Warehouse.Catalog.Dataset
import Warehouse.Graph.Reach

namespace Warehouse

/-- A column that a select node outputs: a column of its input under a new name, or an expression
that is taken as it is. -/
structure ProjectedColumn where
  name : String
  sourceColumn? : Option String
  expr? : Option String
deriving DecidableEq, Repr

/-- The column of the input that is read. -/
def ProjectedColumn.source (c : ProjectedColumn) : String := c.sourceColumn?.getD c.name

/-- An aggregate of a column, or of all rows. -/
structure Measure where
  name : String
  function : String
  column? : Option String
deriving DecidableEq, Repr

/-- A row number within groups. -/
structure WindowColumn where
  name : String
  partitionBy : List String
  orderBy : List String
  descending : Bool
deriving DecidableEq, Repr

/-- What a node does with its input. -/
inductive NodeKind where
  | select (dataset? : Option DatasetKey) (columns : List ProjectedColumn) (filter? : Option String)
  | aggregate (groupKeys : List String) (measures : List Measure)
  | union (branches : List NodeId) (all : Bool)
  | window (columns : List WindowColumn)
deriving DecidableEq, Repr

/-- The name of a kind. -/
def NodeKind.label : NodeKind → String
  | select .. => "select"
  | aggregate .. => "aggregate"
  | union .. => "union"
  | window .. => "window"

/-- A node of a query tree. -/
structure QueryNode where
  id : NodeId
  input? : Option NodeId
  kind : NodeKind
deriving DecidableEq, Repr

namespace QueryNode

/-- The nodes whose output a node may read. -/
def children (n : QueryNode) : List NodeId :=
  n.input?.toList ++ match n.kind with
    | .union branches _ => branches
    | _ => []

/-- The dataset that a node names. -/
def dataset? (n : QueryNode) : Option DatasetKey :=
  match n.kind with
  | .select dataset? _ _ => dataset?
  | _ => none

end QueryNode

/-- The nodes of all query trees. -/
structure QueryGraph where
  nodes : List QueryNode
deriving DecidableEq, Repr

namespace QueryGraph

/-- The node of that number: the last one declared with it. -/
def node? (g : QueryGraph) (id : NodeId) : Option QueryNode :=
  g.nodes.reverse.find? fun n => n.id = id

theorem mem_nodes_of_node? {g : QueryGraph} {id : NodeId} {n : QueryNode}
    (found : g.node? id = some n) : n ∈ g.nodes ∧ n.id = id :=
  ⟨List.mem_reverse.mp (List.mem_of_find?_eq_some found), by simpa using List.find?_some found⟩

/-- The numbers that have a node, in ascending order. -/
def ids (g : QueryGraph) : List NodeId :=
  ((g.nodes.map QueryNode.id).mergeSort (· ≤ ·)).eraseDups

/-- The nodes whose output the node of that number may read. -/
def childrenOf (g : QueryGraph) (id : NodeId) : List NodeId :=
  match g.node? id with
  | some n => n.children
  | none => []

/-- The datasets that the tree under `root` names, in order. -/
def sourceDatasets (g : QueryGraph) (root : NodeId) : List DatasetKey :=
  let reached := reach g.childrenOf g.ids [root] []
  DatasetKey.sort ((reached.filterMap fun id => (g.node? id).bind QueryNode.dataset?).eraseDups)

/-- Each node that names a dataset, with its dataset, in the order of the nodes' numbers. -/
def references (g : QueryGraph) : List (NodeId × DatasetKey) :=
  g.ids.filterMap fun id => do
    let n ← g.node? id
    let key ← n.dataset?
    return (id, key)

end QueryGraph

end Warehouse
