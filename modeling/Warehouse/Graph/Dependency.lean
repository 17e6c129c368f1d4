/-
Module: Warehouse.Graph.Dependency
Purpose: Which nodes need which. A need runs from a dependent node to one that has to come before
  it, its prerequisite. Nodes and needs are each kept once, in the order in which they came.
Trusted boundary: none
Main exports: DependencyGraph, DependencyGraph.addNode, DependencyGraph.addDependency,
  DependencyGraph.prerequisites, DependencyGraph.dependents, DependencyGraph.closure
-/
import Warehouse.Graph.Ascending
import Warehouse.Graph.Reach

namespace Warehouse

/-- Nodes, and the needs between them as pairs of the dependent node and its prerequisite. -/
structure DependencyGraph (α : Type) where
  nodes : List α
  needs : List (α × α)
  /-- Both ends of a need are nodes. -/
  ends_mem : ∀ p ∈ needs, p.1 ∈ nodes ∧ p.2 ∈ nodes

namespace DependencyGraph

variable {α : Type} [DecidableEq α] [Ord α]

/-- No nodes and no needs. -/
def empty : DependencyGraph α := ⟨[], [], by simp⟩

def contains (g : DependencyGraph α) (x : α) : Bool := decide (x ∈ g.nodes)

def isEmpty (g : DependencyGraph α) : Bool := g.nodes.isEmpty

def size (g : DependencyGraph α) : Nat := g.nodes.length

/-- The graph with that node. -/
def addNode (g : DependencyGraph α) (x : α) : DependencyGraph α :=
  if x ∈ g.nodes then g
  else
    { nodes := g.nodes ++ [x]
      needs := g.needs
      ends_mem := fun p hp => by have := g.ends_mem p hp; simp [this] }

omit [Ord α] in
/-- A node that is added is there. -/
theorem mem_nodes_addNode (g : DependencyGraph α) (x : α) : x ∈ (g.addNode x).nodes := by
  unfold addNode
  split <;> simp_all

omit [Ord α] in
private theorem nodes_subset_addNode (g : DependencyGraph α) (x : α) :
    g.nodes ⊆ (g.addNode x).nodes := by
  unfold addNode
  split <;> simp

/-- The graph in which `dependent` needs `prerequisite`, both being nodes. -/
def addDependency (g : DependencyGraph α) (dependent prerequisite : α) : DependencyGraph α :=
  let withNodes := (g.addNode dependent).addNode prerequisite
  if (dependent, prerequisite) ∈ withNodes.needs then withNodes
  else
    { nodes := withNodes.nodes
      needs := withNodes.needs ++ [(dependent, prerequisite)]
      ends_mem := fun p hp => by
        rcases List.mem_append.mp hp with h | h
        · exact withNodes.ends_mem p h
        · have hp : p = (dependent, prerequisite) := by simpa using h
          subst hp
          exact ⟨nodes_subset_addNode _ prerequisite (mem_nodes_addNode g dependent),
            mem_nodes_addNode _ prerequisite⟩ }

/-- Whether `dependent` needs `prerequisite`. -/
def isNeed (g : DependencyGraph α) (dependent prerequisite : α) : Bool :=
  decide ((dependent, prerequisite) ∈ g.needs)

/-- What `x` needs, in ascending order. -/
def prerequisites (g : DependencyGraph α) (x : α) : List α :=
  ascending (g.needs.filterMap fun (d, u) => if d = x then some u else none)

/-- What needs `x`, in ascending order. -/
def dependents (g : DependencyGraph α) (x : α) : List α :=
  ascending (g.needs.filterMap fun (d, u) => if u = x then some d else none)

/-- The roots and all that they need, directly or not, in ascending order. A root need not be a
node. -/
def closure (g : DependencyGraph α) (roots : List α) : List α :=
  ascending (reach g.prerequisites (g.nodes ++ roots) roots [])

end DependencyGraph

end Warehouse
