/-
Module: Warehouse.Catalog.Contract
Purpose: The contract of a query tree: which columns its root outputs, and what is wrong with it.
  The contract of a node is made from those of the nodes it reads, which are searched depth first; a
  node that reads itself and a number without a node are refused.
Trusted boundary: none
Main exports: Contract, inferNode, QueryGraph.search, QueryGraph.inferContract
-/
import Warehouse.Catalog.Basic

namespace Warehouse

/-- The output columns of a node, and the faults found in it and below it. -/
structure Contract where
  columns : List String
  issues : List Issue
deriving DecidableEq, Repr

/-- Whether a name is among names, whatever the case of ASCII letters. -/
def containsName (columns : List String) (name : String) : Bool :=
  columns.any fun c => Text.sameIgnoringAsciiCase c name

namespace Contract

/-- A contract without columns or faults. -/
def empty : Contract := ⟨[], []⟩

/-- Every issue is an error. -/
def hasErrors (c : Contract) : Bool := ! c.issues.isEmpty

/-- The same with one more fault. -/
def report (c : Contract) (node : NodeId) (cause : IssueCause) : Contract :=
  { c with issues := c.issues ++ [⟨node, cause⟩] }

/-- The same with one more fault if `bad`. -/
def reportIf (c : Contract) (bad : Bool) (node : NodeId) (cause : IssueCause) : Contract :=
  if bad then c.report node cause else c

/-- The same with one more output column, unless there is one of that name. -/
def output (c : Contract) (node : NodeId) (name : String) : Contract :=
  if containsName c.columns name then c.report node (.duplicateOutput name)
  else { c with columns := c.columns ++ [name] }

end Contract

/-!
### One node

Each kind of node has its contract, given those of the nodes that it reads.
-/

/-- What a select node chooses from: the output of its input node, else the columns of its
dataset. -/
def selectInput (catalog : Catalog) (id : NodeId) (input : Option Contract)
    (dataset? : Option DatasetKey) : Contract :=
  match input, dataset? with
  | some input, _ => input
  | none, some key =>
    match catalog.get? key with
    | some d => ⟨d.orderedColumns.map Column.name, []⟩
    | none => Contract.empty.report id (.unknownDataset key)
  | none, none => Contract.empty.report id .selectWithoutInput

/-- The contract of a select node: its projection, or all of its input where it has none. -/
def selectContract (catalog : Catalog) (id : NodeId) (input : Option Contract)
    (dataset? : Option DatasetKey) (columns : List ProjectedColumn) : Contract :=
  let available := selectInput catalog id input dataset?
  if columns.isEmpty then available
  else columns.foldl (fun c column =>
    (c.reportIf (column.expr?.isNone && ! containsName available.columns column.source) id
      (.columnNotFound column.source)).output id column.name)
    { available with columns := [] }

/-- The input of a node that has to have one. -/
def requiredInput (id : NodeId) (label : String) (input : Option Contract) : Contract :=
  input.getD (Contract.empty.report id (.missingInput label))

/-- The contract of an aggregate node: its group keys and its measures. -/
def aggregateContract (id : NodeId) (input : Contract) (groupKeys : List String)
    (measures : List Measure) : Contract :=
  let keys := groupKeys.foldl (fun c key =>
    (c.reportIf (! containsName input.columns key) id (.groupKeyNotFound key)).output id key)
    { input with columns := [] }
  measures.foldl (fun c m =>
    (match m.column? with
      | some column =>
        c.reportIf (! containsName input.columns column) id (.measureColumnNotFound m.name column)
      | none => c).output id m.name)
    keys

/-- The columns of a branch in the form in which branches are compared. -/
def branchColumns (c : Contract) : List String := c.columns.map Text.asciiLower

/-- Adds the faults of a branch, and one more if its columns are not those of the first branch. -/
def addBranch (id first : NodeId) (expected : List String) (c : Contract) :
    NodeId × Contract → Contract
  | (branch, contract) =>
    { c with issues := c.issues ++ contract.issues }.reportIf (branchColumns contract ≠ expected) id
      (.branchMismatch branch (branchColumns contract) first expected)

/-- The contract of a union node: the columns of its first branch, which all branches have to
have. -/
def unionContract (id : NodeId) : List (NodeId × Contract) → Contract
  | [] => Contract.empty.report id .unionWithoutBranches
  | (first, contract) :: rest =>
    rest.foldl (addBranch id first (branchColumns contract)) contract

/-- The contract of a window node: its input and one column more for each window. -/
def windowContract (id : NodeId) (input : Contract) (columns : List WindowColumn) : Contract :=
  columns.foldl (fun c w =>
    ((w.partitionBy ++ w.orderBy).foldl (fun c reference =>
      c.reportIf (! containsName input.columns reference) id
        (.windowColumnNotFound w.name reference))
      c).output id w.name)
    input

/-- The contract of what a node reads, if it reads something. -/
def inferInput {m : Type → Type} [Monad m] (infer : NodeId → m Contract) : Option NodeId →
    m (Option Contract)
  | some input => do return some (← infer input)
  | none => return none

/-- The contract of a node, where `infer` gives those of other nodes. -/
def inferNode {m : Type → Type} [Monad m] (catalog : Catalog) (infer : NodeId → m Contract)
    (id : NodeId) (n : QueryNode) : m Contract := do
  let input ← inferInput infer n.input?
  match n.kind with
  | .select dataset? columns _ => return selectContract catalog id input dataset? columns
  | .aggregate groupKeys measures =>
    return aggregateContract id (requiredInput id n.kind.label input) groupKeys measures
  | .union branches _ =>
    let contracts ← branches.mapM fun branch => do return (branch, ← infer branch)
    return unionContract id contracts
  | .window columns => return windowContract id (requiredInput id n.kind.label input) columns

/-!
### Trees
-/

namespace QueryGraph

/-- The node of that number, or the report that there is none. -/
def node (g : QueryGraph) (id : NodeId) : Except CatalogError QueryNode :=
  match g.node? id with
  | some n => .ok n
  | none => .error (.unknownQueryNode id)

/-- The nodes that are not on a path. There are fewer of them at every step of a search. -/
def offPath (g : QueryGraph) (path : List NodeId) : List QueryNode :=
  g.nodes.filter fun n => n.id ∉ path

theorem length_offPath_lt {g : QueryGraph} {path : List NodeId} {id : NodeId} {n : QueryNode}
    (fresh : id ∉ path) (found : g.node? id = some n) :
    (g.offPath (id :: path)).length < (g.offPath path).length := by
  obtain ⟨declared, named⟩ := mem_nodes_of_node? found
  have member : n ∈ g.offPath path := by
    rw [offPath, List.mem_filter, named]
    exact ⟨declared, by simpa using fresh⟩
  have fewer : g.offPath (id :: path) = (g.offPath path).filter fun n => n.id ≠ id := by
    simp [offPath, List.filter_filter]
  rw [fewer, List.length_filter_lt_length_iff_exists]
  exact ⟨n, member, by simp [named]⟩

/-- The contract of the node `id`, which is read by the nodes of `path`, innermost first. A node on
its own path reads itself. The contracts that were found are kept, so a node that several others
read is searched once. -/
def search (g : QueryGraph) (catalog : Catalog) (path : List NodeId) (id : NodeId) :
    StateT (List (NodeId × Contract)) (Except CatalogError) Contract := do
  match (← get).lookup id with
  | some known => return known
  | none =>
    if _ : id ∈ path then throw (.queryCycle id)
    else match _ : g.node? id with
      | none => throw (.unknownQueryNode id)
      | some node =>
        let contract ← inferNode catalog (fun below => g.search catalog (id :: path) below) id node
        modify ((id, contract) :: ·)
        return contract
termination_by (g.offPath path).length
decreasing_by exact length_offPath_lt ‹_› ‹_›

/-- The contract of the tree under `root`. -/
def inferContract (g : QueryGraph) (catalog : Catalog) (root : NodeId) :
    Except CatalogError Contract :=
  (g.search catalog [] root).run' []

end QueryGraph

end Warehouse
