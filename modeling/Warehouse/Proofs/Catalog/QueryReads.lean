/-
Module: Warehouse.Proofs.Catalog.QueryReads
Purpose: What the query of a tree reads is what the tree names. The datasets that a tree names are
  found by a walk over its nodes, the query is built by going down the same nodes: every table in it
  stands at a node to which the walk comes too.
Trusted boundary: none
Main exports: QueryGraph.Names, mem_sourceDatasets_iff, PlannedNode, plannedNode_of_planAt,
  names_of_planAt, mem_sourceDatasets_of_plan
-/
import Warehouse.Catalog.QueryPlan
import Warehouse.Proofs.Catalog.Inference
import Warehouse.Proofs.Graph.Reach
import Warehouse.Proofs.Sql.Tables

namespace Warehouse

open Sql

namespace QueryGraph

/-- Whether a node of the tree under `root` names the dataset `key`. -/
def Names (g : QueryGraph) (root : NodeId) (key : DatasetKey) : Prop :=
  ∃ id n, Relation.ReflTransGen (StepIn g.childrenOf g.ids) root id ∧ g.node? id = some n ∧
    n.dataset? = some key

section

variable {g : QueryGraph} {id : NodeId}

/-- The numbers of a graph are those that lead to a node. -/
theorem mem_ids_iff : id ∈ g.ids ↔ ∃ n, g.node? id = some n := by
  rw [ids, List.mem_eraseDups, (List.mergeSort_perm _ _).mem_iff, ← Option.isSome_iff_exists, node?,
    List.find?_isSome]
  simp

/-- What a tree reads is what some node below its root names. -/
theorem mem_sourceDatasets_iff {key : DatasetKey} (there : id ∈ g.ids) :
    key ∈ g.sourceDatasets id ↔ g.Names id key := by
  rw [sourceDatasets, DatasetKey.sort, (List.mergeSort_perm _ _).mem_iff, List.mem_eraseDups,
    List.mem_filterMap]
  constructor
  · rintro ⟨id', reached, named⟩
    obtain ⟨n, node, named⟩ := Option.bind_eq_some_iff.mp named
    obtain ⟨y, root, _, chain⟩ := mem_reach_iff.mp reached
    rw [List.mem_singleton.mp root] at chain
    exact ⟨id', n, chain, node, named⟩
  · rintro ⟨id', n, chain, node, named⟩
    refine ⟨id', mem_reach_iff.mpr ⟨id, List.mem_singleton_self id, there, chain⟩, ?_⟩
    rw [node]
    exact named

/-- A node that is planned is there. -/
theorem mem_ids_of_planAt {fuel : Nat} {p : Plan} (planned : g.planAt fuel id = .ok p) :
    id ∈ g.ids := by
  cases fuel with
  | zero => cases planned
  | succ fuel =>
    rw [planAt] at planned
    obtain ⟨n, node, _⟩ := bind_eq_ok_iff.mp planned
    exact mem_ids_iff.mpr ⟨n, node_eq_ok_iff.mp node⟩

/-- What the tree under a child names, the tree under the node names too. -/
theorem Names.of_child {n : QueryNode} {child : NodeId} {key : DatasetKey}
    (node : g.node? id = some n) (reads : child ∈ n.children) (there : child ∈ g.ids)
    (names : g.Names child key) : g.Names id key := by
  obtain ⟨id', n', chain, node', named⟩ := names
  refine ⟨id', n', .head ⟨?_, there⟩ chain, node', named⟩
  rw [childrenOf, node]
  exact reads

/-! ### Queries of single nodes

A node adds expressions to the sources of its inputs, and none of these expressions reads a table.
So every table of its query is one of its source. -/

section

variable {t : ObjectName}

private theorem tables_projectedItem (c : ProjectedColumn) :
    (projectedItem c).expr.tables = [] := by
  rw [projectedItem]
  split
  · rfl
  · split <;> rfl

private theorem tables_measureItem (m : Measure) : (measureItem m).expr.tables = [] := by
  rw [measureItem]
  cases m.column? <;> rfl

private theorem tables_windowItem (w : WindowColumn) : (windowItem w).expr.tables = [] := by
  refine List.eq_nil_iff_forall_not_mem.mpr fun t read => ?_
  rw [windowItem, Expr.tables, List.mem_append, Expr.mem_tablesOfAll,
    SortKey.mem_tablesOfAll] at read
  rcases read with ⟨e, partition, read⟩ | ⟨k, order, read⟩
  · obtain ⟨c, _, rfl⟩ := List.mem_map.mp partition
    cases read
  · obtain ⟨c, _, rfl⟩ := List.mem_map.mp order
    cases read

/-- A select reads the tables of its source only. -/
theorem mem_tables_selectPlan {source : Option Source} {columns : List ProjectedColumn}
    {filter? : Option String} (read : t ∈ (selectPlan source columns filter?).tables) :
    t ∈ Source.tables? source := by
  have items : ∀ i ∈ (selectPlan source columns filter?).items, i.expr.tables = [] := by
    intro i item
    rw [selectPlan] at item
    dsimp only at item
    split at item
    · rw [List.mem_singleton.mp item]
      rfl
    · obtain ⟨c, _, rfl⟩ := List.mem_map.mp item
      exact tables_projectedItem c
  rcases Select.mem_tables items (fun e group => by cases group) read with source | filter
  · exact source
  · cases filter? <;> cases filter

/-- An aggregate reads the tables of its source only. -/
theorem mem_tables_aggregatePlan {source : Source} {groupKeys : List String}
    {measures : List Measure} (read : t ∈ (aggregatePlan source groupKeys measures).tables) :
    t ∈ Source.tables? (some source) := by
  have items : ∀ i ∈ (aggregatePlan source groupKeys measures).items, i.expr.tables = [] := by
    intro i item
    rcases List.mem_append.mp item with key | measure
    · obtain ⟨k, _, rfl⟩ := List.mem_map.mp key
      rfl
    · obtain ⟨m, _, rfl⟩ := List.mem_map.mp measure
      exact tables_measureItem m
  have groups : ∀ e ∈ (aggregatePlan source groupKeys measures).groupBy, e.tables = [] := by
    intro e group
    obtain ⟨k, _, rfl⟩ := List.mem_map.mp group
    rfl
  rcases Select.mem_tables items groups read with source | filter
  · exact source
  · cases filter

/-- A window reads the tables of its source only. -/
theorem mem_tables_windowPlan {input : NodeId} {source : Source} {columns : List WindowColumn}
    (read : t ∈ (windowPlan input source columns).tables) : t ∈ Source.tables? (some source) := by
  have items : ∀ i ∈ (windowPlan input source columns).items, i.expr.tables = [] := by
    intro i item
    rcases List.mem_cons.mp item with rfl | window
    · rfl
    · obtain ⟨w, _, rfl⟩ := List.mem_map.mp window
      exact tables_windowItem w
  rcases Select.mem_tables items (fun e group => by cases group) read with source | filter
  · exact source
  · cases filter

private theorem mem_tables_unionBranch {branch : NodeId} {q : Plan}
    (read : t ∈ (unionBranch branch q).tables) : t ∈ q.tables := by
  cases q with
  | select body => exact read
  | union selects mode =>
    have star : ∀ i ∈ [(⟨.star none, none⟩ : SelectItem)], i.expr.tables = [] := by
      intro i item
      rw [List.mem_singleton.mp item]
      rfl
    rcases Select.mem_tables star (fun e group => by cases group) read with source | filter
    · exact source
    · cases filter

end

/-! ### Queries of trees -/

/-- What the query of a node is, given those of the nodes that it reads. -/
inductive PlannedNode (g : QueryGraph) (fuel : Nat) (n : QueryNode) : Plan → Prop where
  | ofInput {dataset? : Option DatasetKey} {columns : List ProjectedColumn}
    {filter? : Option String}
      {input : NodeId} {q : Plan} (kind : n.kind = .select dataset? columns filter?)
      (reads : n.input? = some input) (planned : g.planAt fuel input = .ok q) :
      PlannedNode g fuel n (.select (selectPlan (some (nodeSource input q)) columns filter?))
  | ofDataset {key : DatasetKey} {columns : List ProjectedColumn} {filter? : Option String}
      (kind : n.kind = .select (some key) columns filter?) :
      PlannedNode g fuel n
        (.select (selectPlan (some (.table ⟨key.objectName, none⟩)) columns filter?))
  | ofNothing {columns : List ProjectedColumn} {filter? : Option String}
      (kind : n.kind = .select none columns filter?) :
      PlannedNode g fuel n (.select (selectPlan none columns filter?))
  | aggregate {groupKeys : List String} {measures : List Measure} {input : NodeId} {q : Plan}
      (kind : n.kind = .aggregate groupKeys measures) (reads : n.input? = some input)
      (planned : g.planAt fuel input = .ok q) :
      PlannedNode g fuel n (.select (aggregatePlan (nodeSource input q) groupKeys measures))
  | union {branches : List NodeId} {all : Bool} {selects : List Select} {mode : UnionMode}
      (kind : n.kind = .union branches all)
      (planned : List.Forall₂ (fun branch s => ∃ q, g.planAt fuel branch = .ok q ∧
        s = unionBranch branch q) branches selects) :
      PlannedNode g fuel n (.union selects mode)
  | window {columns : List WindowColumn} {input : NodeId} {q : Plan}
    (kind : n.kind = .window columns)
      (reads : n.input? = some input) (planned : g.planAt fuel input = .ok q) :
      PlannedNode g fuel n (.select (windowPlan input (nodeSource input q) columns))

private theorem input?_of_ok {n : QueryNode} {input : NodeId} (found : (match n.input? with
    | some input => .ok input
    | none => .error (.unknownQueryNode id) : Except CatalogError NodeId) = .ok input) :
    n.input? = some input := by
  split at found
  · next _ reads =>
    cases found
    exact reads
  · cases found

/-- How the query of a node is made. -/
theorem plannedNode_of_planAt {fuel : Nat} {p : Plan} (planned : g.planAt (fuel + 1) id = .ok p) :
    ∃ n, g.node? id = some n ∧ PlannedNode g fuel n p := by
  rw [planAt] at planned
  obtain ⟨n, node, made⟩ := bind_eq_ok_iff.mp planned
  refine ⟨n, node_eq_ok_iff.mp node, ?_⟩
  dsimp only at made
  split at made
  · next dataset? columns filter? kind =>
    split at made
    · next input _ reads =>
      obtain ⟨source, fetched, made⟩ := bind_eq_ok_iff.mp made
      obtain ⟨q, below, same⟩ := bind_eq_ok_iff.mp fetched
      cases same
      cases made
      exact .ofInput kind reads below
    · next key _ =>
      cases made
      exact .ofDataset kind
    · cases made
      exact .ofNothing kind
  · next kind =>
    obtain ⟨input, reads, made⟩ := bind_eq_ok_iff.mp made
    obtain ⟨source, fetched, made⟩ := bind_eq_ok_iff.mp made
    obtain ⟨q, below, same⟩ := bind_eq_ok_iff.mp fetched
    cases same
    cases made
    exact .aggregate kind (input?_of_ok reads) below
  · next branches all kind =>
    obtain ⟨selects, built, made⟩ := bind_eq_ok_iff.mp made
    cases made
    refine .union kind ((mapM_eq_ok_iff.mp built).imp fun branch s made => ?_)
    obtain ⟨q, below, same⟩ := bind_eq_ok_iff.mp made
    cases same
    exact ⟨q, below, rfl⟩
  · next kind =>
    obtain ⟨input, reads, made⟩ := bind_eq_ok_iff.mp made
    obtain ⟨source, fetched, made⟩ := bind_eq_ok_iff.mp made
    obtain ⟨q, below, same⟩ := bind_eq_ok_iff.mp fetched
    cases same
    cases made
    exact .window kind (input?_of_ok reads) below

/-- The input of a node is one of its children. -/
theorem mem_children_of_input {n : QueryNode} {input : NodeId} (reads : n.input? = some input) :
    input ∈ n.children := by
  rw [QueryNode.children, reads]
  exact List.mem_append_left _ (List.mem_singleton_self input)

/-- So is each branch of a union. -/
theorem mem_children_of_branch {n : QueryNode} {branches : List NodeId} {all : Bool}
    (kind : n.kind = .union branches all) {branch : NodeId} (member : branch ∈ branches) :
    branch ∈ n.children := by
  rw [QueryNode.children, kind]
  exact List.mem_append_right _ member

/-- Every table that the query of a tree reads is that of a dataset which the tree names. -/
theorem names_of_planAt {fuel : Nat} {p : Plan} (planned : g.planAt fuel id = .ok p)
    {t : ObjectName} (read : t ∈ p.tables) : ∃ key, g.Names id key ∧ t = key.objectName := by
  induction fuel generalizing id p with
  | zero => cases planned
  | succ fuel ih =>
    obtain ⟨n, node, made⟩ := plannedNode_of_planAt planned
    -- A child that is planned is there, and the walk goes on to it.
    have descend {child : NodeId} {q : Plan} (reads : child ∈ n.children)
        (planned : g.planAt fuel child = .ok q) (read : t ∈ q.tables) :
        ∃ key, g.Names id key ∧ t = key.objectName := by
      obtain ⟨key, names, same⟩ := ih planned read
      exact ⟨key, names.of_child node reads (mem_ids_of_planAt planned), same⟩
    cases made with
    | ofInput _ reads below =>
      exact descend (mem_children_of_input reads) below (mem_tables_selectPlan read)
    | @ofDataset key _ _ kind =>
      have named : n.dataset? = some key := by rw [QueryNode.dataset?, kind]
      exact ⟨key, ⟨id, n, .refl, node, named⟩, List.mem_singleton.mp (mem_tables_selectPlan read)⟩
    | ofNothing _ => cases mem_tables_selectPlan read
    | aggregate _ reads below =>
      exact descend (mem_children_of_input reads) below (mem_tables_aggregatePlan read)
    | union kind below =>
      obtain ⟨s, branch, read⟩ := Select.mem_tablesOfAll.mp read
      obtain ⟨b, member, q, branchPlanned, rfl⟩ := exists_of_mem_right below branch
      exact descend (mem_children_of_branch kind member) branchPlanned (mem_tables_unionBranch read)
    | window _ reads below =>
      exact descend (mem_children_of_input reads) below (mem_tables_windowPlan read)

/-- Every table that the query of a tree reads was found by the walk over the tree. -/
theorem mem_sourceDatasets_of_plan {c : Catalog} {p : Plan} (planned : g.plan c id = .ok p)
    {t : ObjectName} (read : t ∈ p.tables) : ∃ key ∈ g.sourceDatasets id, t = key.objectName := by
  obtain ⟨contract, _, planned⟩ := bind_eq_ok_iff.mp planned
  split at planned
  · cases planned
  · obtain ⟨key, names, same⟩ := names_of_planAt planned read
    exact ⟨key, (mem_sourceDatasets_iff (mem_ids_of_planAt planned)).mpr names, same⟩

end

end QueryGraph

end Warehouse
