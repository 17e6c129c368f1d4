/-
Module: Warehouse.Proofs.Graph.Dependency
Purpose: What is in a dependency graph that is built need by need, and what its closure is: the ends
  of all chains of needs that begin at a root.
Trusted boundary: none
Main exports: mem_nodes_addDependency, mem_needs_addDependency, mem_needs_addAll, mem_nodes_addAll,
  mem_prerequisites, isNeed_iff, nodup_prerequisites, mem_closure_iff
-/
import Warehouse.Graph.Dependency
import Warehouse.Proofs.Graph.Ascending
import Warehouse.Proofs.Graph.Reach

namespace Warehouse.DependencyGraph

variable {α : Type} [DecidableEq α]

/-! ### Building

A graph is built by adding nodes and dependencies; either may be there already, and then nothing is
added. -/

/-- The nodes after one is added. -/
theorem mem_nodes_addNode_iff {g : DependencyGraph α} {x y : α} :
    y ∈ (g.addNode x).nodes ↔ y ∈ g.nodes ∨ y = x := by
  rw [addNode]
  split
  · next old =>
    constructor
    · exact .inl
    · rintro (there | rfl)
      · exact there
      · exact old
  · rw [List.mem_append, List.mem_singleton]

/-- A node that is added needs nothing yet. -/
theorem needs_addNode (g : DependencyGraph α) (x : α) : (g.addNode x).needs = g.needs := by
  rw [addNode]
  split <;> rfl

/-- A dependency brings both of its ends along. -/
private theorem mem_nodes_addDependency {g : DependencyGraph α} {x u y : α} :
    y ∈ (g.addDependency x u).nodes ↔ y ∈ g.nodes ∨ y = x ∨ y = u := by
  have nodes : (g.addDependency x u).nodes = ((g.addNode x).addNode u).nodes := by
    simp only [addDependency]
    split <;> rfl
  rw [nodes, mem_nodes_addNode_iff, mem_nodes_addNode_iff, or_assoc]

/-- The dependencies after one is added. -/
private theorem mem_needs_addDependency {g : DependencyGraph α} {x u : α} {p : α × α} :
    p ∈ (g.addDependency x u).needs ↔ p ∈ g.needs ∨ p = (x, u) := by
  have needs : ((g.addNode x).addNode u).needs = g.needs :=
    (needs_addNode _ u).trans (needs_addNode g x)
  simp only [addDependency]
  split
  · next old =>
    rw [needs] at old ⊢
    constructor
    · exact .inl
    · rintro (there | rfl)
      · exact there
      · exact old
  · rw [List.mem_append, List.mem_singleton, needs]

/-- The needs once `x` needs each of several nodes. -/
theorem mem_needs_addAll {g : DependencyGraph α} {x : α} {us : List α} {p : α × α} :
    p ∈ (us.foldl (fun g u => g.addDependency x u) g).needs ↔ p ∈ g.needs ∨ p.1 = x ∧ p.2 ∈ us := by
  induction us generalizing g with
  | nil => simp
  | cons u rest ih =>
    rw [List.foldl_cons, ih, mem_needs_addDependency, List.mem_cons, or_assoc, and_or_left,
      Prod.ext_iff]

/-- The nodes after several prerequisites of a node are added. -/
theorem mem_nodes_addAll {g : DependencyGraph α} {x y : α} {us : List α} (node : x ∈ g.nodes) :
    y ∈ (us.foldl (fun g u => g.addDependency x u) g).nodes ↔ y ∈ g.nodes ∨ y ∈ us := by
  induction us generalizing g with
  | nil => simp
  | cons u rest ih =>
    have still : x ∈ (g.addDependency x u).nodes := mem_nodes_addDependency.mpr (.inl node)
    rw [List.foldl_cons, ih still, mem_nodes_addDependency, List.mem_cons]
    constructor
    · rintro ((old | rfl | rfl) | later)
      · exact .inl old
      · exact .inl node
      · exact .inr (.inl rfl)
      · exact .inr (.inr later)
    · rintro (old | rfl | later)
      · exact .inl (.inl old)
      · exact .inl (.inr (.inr rfl))
      · exact .inr later

/-! ### Reading -/

section

variable [Ord α] [Std.LawfulEqOrd α] {g : DependencyGraph α} {x u : α}

/-- The prerequisites of a node are what it was said to need. -/
theorem mem_prerequisites : u ∈ g.prerequisites x ↔ (x, u) ∈ g.needs := by
  rw [prerequisites, mem_ascending, List.mem_filterMap]
  constructor
  · rintro ⟨⟨d, v⟩, need, asked⟩
    obtain ⟨rfl, rfl⟩ : d = x ∧ v = u := by simpa using asked
    exact need
  · intro need
    exact ⟨_, need, if_pos rfl⟩

/-- Whether one node needs another can be looked up. -/
theorem isNeed_iff : g.isNeed x u = true ↔ u ∈ g.prerequisites x := by
  rw [mem_prerequisites, isNeed, decide_eq_true_eq]

/-- The closure of roots has the ends of all chains of needs from them. -/
theorem mem_closure_iff {roots : List α} :
    x ∈ g.closure roots ↔ ∃ r ∈ roots, Relation.ReflTransGen (fun a b => (a, b) ∈ g.needs) r x := by
  have steps : StepIn g.prerequisites (g.nodes ++ roots) = fun a b => (a, b) ∈ g.needs := by
    funext a b
    rw [StepIn, mem_prerequisites]
    exact propext (and_iff_left_of_imp fun need => List.mem_append_left _ (g.ends_mem _ need).2)
  rw [closure, mem_ascending, mem_reach_iff, steps]
  constructor
  · rintro ⟨r, root, _, chain⟩
    exact ⟨r, root, chain⟩
  · rintro ⟨r, root, chain⟩
    exact ⟨r, root, List.mem_append_right _ root, chain⟩

/-- No prerequisite is listed twice. -/
theorem nodup_prerequisites [Std.TransOrd α] (g : DependencyGraph α) (x : α) :
    (g.prerequisites x).Nodup :=
  (ascending_spec _).nodup

end

end Warehouse.DependencyGraph
