/-
Module: Warehouse.Catalog.QueryPlan
Purpose: The query that a tree of nodes stands for. A node reads the query of its input node as a
  subquery under an alias made from the input's number. Only a tree whose contract has no faults is
  planned.
Trusted boundary: none
Main exports: nodeAlias, QueryGraph.plan
-/
import Warehouse.Catalog.Contract
import Warehouse.Sql.Expr

namespace Warehouse

open Sql

/-- The alias of a node's query inside another. -/
def nodeAlias (id : NodeId) : String := s!"n{id}"

/-- The query of a node as something to read from. -/
def nodeSource (id : NodeId) (query : Plan) : Source := .subquery query (nodeAlias id)

/-- A column of the projection of a select node. -/
def projectedItem (c : ProjectedColumn) : SelectItem :=
  match c.expr? with
  | some sql => ⟨.raw sql, some c.name⟩
  | none => if c.source = c.name then ⟨.col c.name, none⟩ else ⟨.col c.source, some c.name⟩

/-- The query of a select node; without a projection it takes everything. -/
def selectPlan (source : Option Source) (columns : List ProjectedColumn) (filter? : Option String) :
    Select :=
  { distinct := false
    items := if columns.isEmpty then [⟨.star none, none⟩] else columns.map projectedItem
    source
    filter := filter?.map Expr.raw
    groupBy := [] }

/-- A measure as a column of a result. -/
def measureItem (m : Measure) : SelectItem :=
  let arg := match m.column? with
    | some column => Expr.col column
    | none => .star none
  ⟨.call m.function [arg], some m.name⟩

/-- The query of an aggregate node. -/
def aggregatePlan (source : Source) (groupKeys : List String) (measures : List Measure) : Select :=
  { distinct := false
    items := groupKeys.map (fun k => ⟨.col k, none⟩) ++ measures.map measureItem
    source := some source
    filter := none
    groupBy := groupKeys.map Expr.col }

/-- A row number as a column of a result. -/
def windowItem (w : WindowColumn) : SelectItem :=
  let order : List SortKey := w.orderBy.map fun c => ⟨.col c, w.descending⟩
  ⟨.rowNumber (w.partitionBy.map Expr.col) order, some w.name⟩

/-- The query of a window node: all of its input, and the windows. -/
def windowPlan (input : NodeId) (source : Source) (columns : List WindowColumn) : Select :=
  { distinct := false
    items := ⟨.star (some (nodeAlias input)), none⟩ :: columns.map windowItem
    source := some source
    filter := none
    groupBy := [] }

/-- A query as a branch of a union; a union inside a union is read as a subquery. -/
def unionBranch (branch : NodeId) : Plan → Select
  | .select body => body
  | query => (Select.ofItems [⟨.star none, none⟩]).reading (nodeSource branch query)

namespace QueryGraph

/-- The query of the node `id`. A tree without a cycle is no deeper than there are nodes, so that
much `fuel` is enough. -/
def planAt (g : QueryGraph) : Nat → NodeId → Except CatalogError Plan
  | 0, id => .error (.queryCycle id)
  | fuel + 1, id => do
    let node ← g.node id
    let source (input : NodeId) : Except CatalogError Source := do
      return nodeSource input (← g.planAt fuel input)
    let inputOf : Except CatalogError NodeId :=
      match node.input? with
      | some input => .ok input
      | none => .error (.unknownQueryNode id)
    match node.kind with
    | .select dataset? columns filter? =>
      let source ← match node.input?, dataset? with
        | some input, _ => do pure (some (← source input))
        | none, some key => pure (some (.table ⟨⟨some key.schema, key.name⟩, none⟩))
        | none, none => pure none
      return .select (selectPlan source columns filter?)
    | .aggregate groupKeys measures => do
      let input ← inputOf
      return .select (aggregatePlan (← source input) groupKeys measures)
    | .union branches all =>
      let selects ← branches.mapM fun branch => do
        return unionBranch branch (← g.planAt fuel branch)
      return .union selects (if all then .all else .distinct)
    | .window columns => do
      let input ← inputOf
      return .select (windowPlan input (← source input) columns)

/-- The query that the tree under `root` stands for. -/
def plan (g : QueryGraph) (catalog : Catalog) (root : NodeId) : Except CatalogError Plan := do
  let contract ← g.inferContract catalog root
  if contract.hasErrors then .error (.invalidContract root contract.issues)
  else g.planAt (g.nodes.length + 1) root

end QueryGraph

end Warehouse
