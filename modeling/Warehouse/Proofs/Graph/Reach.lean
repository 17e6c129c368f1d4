/-
Module: Warehouse.Proofs.Graph.Reach
Purpose: The walk through a finite graph finds what chains of steps lead to, and nothing else. All
  that it has visited lies on such a chain, and a step from there leads to something visited or
  still on the worklist.
Trusted boundary: none
Main exports: StepIn, mem_reach_iff, reach_closed
-/
import Mathlib.Logic.Relation
import Warehouse.Graph.Reach

namespace Warehouse

/-- A step along `next` that stays among `nodes`. -/
def StepIn {α : Type} (next : α → List α) (nodes : List α) (a b : α) : Prop :=
  b ∈ next a ∧ b ∈ nodes

section

variable {α : Type} [DecidableEq α] {next : α → List α} {nodes : List α}

/-- What was seen stays seen. -/
private theorem subset_reach (frontier seen : List α) : seen ⊆ reach next nodes frontier seen := by
  induction frontier, seen using reach.induct next nodes with
  | case1 seen =>
    rw [reach]
    exact List.Subset.refl seen
  | case2 seen x rest fresh ih =>
    rw [reach, if_pos fresh]
    intro y old
    exact ih (List.mem_cons_of_mem x old)
  | case3 seen x rest stale ih =>
    rw [reach, if_neg stale]
    exact ih

/-- Whatever is found was visited before or lies behind the worklist. -/
theorem of_mem_reach {frontier seen : List α} {x : α} (found : x ∈ reach next nodes frontier seen) :
    x ∈ seen ∨ ∃ y ∈ frontier, y ∈ nodes ∧ Relation.ReflTransGen (StepIn next nodes) y x := by
  induction frontier, seen using reach.induct next nodes with
  | case1 seen =>
    rw [reach] at found
    exact .inl found
  | case2 seen y rest fresh ih =>
    rw [reach, if_pos fresh] at found
    rcases ih found with old | ⟨z, waiting, node, chain⟩
    · rcases List.mem_cons.mp old with rfl | old
      · exact .inr ⟨x, List.mem_cons_self, fresh.1, .refl⟩
      · exact .inl old
    · rcases List.mem_append.mp waiting with step | waiting
      · exact .inr ⟨y, List.mem_cons_self, fresh.1, .head ⟨step, node⟩ chain⟩
      · exact .inr ⟨z, List.mem_cons_of_mem y waiting, node, chain⟩
  | case3 seen y rest stale ih =>
    rw [reach, if_neg stale] at found
    rcases ih found with old | ⟨z, waiting, rest⟩
    · exact .inl old
    · exact .inr ⟨z, List.mem_cons_of_mem y waiting, rest⟩

/-- What waits is reached. -/
private theorem frontier_subset_reach {frontier seen : List α} {x : α} (waiting : x ∈ frontier)
    (node : x ∈ nodes) : x ∈ reach next nodes frontier seen := by
  induction frontier, seen using reach.induct next nodes with
  | case1 seen => cases waiting
  | case2 seen y rest fresh ih =>
    rw [reach, if_pos fresh]
    rcases List.mem_cons.mp waiting with rfl | later
    · exact subset_reach _ _ List.mem_cons_self
    · exact ih (List.mem_append_right _ later)
  | case3 seen y rest stale ih =>
    rw [reach, if_neg stale]
    rcases List.mem_cons.mp waiting with rfl | later
    · have old : x ∈ seen := Decidable.byContradiction fun new => stale ⟨node, new⟩
      exact subset_reach _ _ old
    · exact ih later

/-- If steps from the visited lead to the visited or the worklist, no step leads out of what is
found. -/
theorem reach_closed {frontier seen : List α}
    (pending : ∀ a ∈ seen, ∀ b, StepIn next nodes a b → b ∈ seen ∨ b ∈ frontier) {a b : α}
    (found : a ∈ reach next nodes frontier seen) (step : StepIn next nodes a b) :
    b ∈ reach next nodes frontier seen := by
  induction frontier, seen using reach.induct next nodes with
  | case1 seen =>
    rw [reach] at found ⊢
    exact (pending a found b step).resolve_right List.not_mem_nil
  | case2 seen x rest fresh ih =>
    rw [reach, if_pos fresh] at found ⊢
    refine ih (fun a visited b step => ?_) found
    rcases List.mem_cons.mp visited with rfl | visited
    · exact .inr (List.mem_append_left _ step.1)
    · rcases pending a visited b step with old | waiting
      · exact .inl (List.mem_cons_of_mem x old)
      · rcases List.mem_cons.mp waiting with rfl | later
        · exact .inl List.mem_cons_self
        · exact .inr (List.mem_append_right _ later)
  | case3 seen x rest stale ih =>
    rw [reach, if_neg stale] at found ⊢
    refine ih (fun a visited b step => ?_) found
    rcases pending a visited b step with old | waiting
    · exact .inl old
    · rcases List.mem_cons.mp waiting with rfl | later
      · exact .inl (Decidable.byContradiction fun new => stale ⟨step.2, new⟩)
      · exact .inr later

/-- From nothing visited, exactly the ends of chains from the worklist are found. -/
theorem mem_reach_iff {frontier : List α} {x : α} :
    x ∈ reach next nodes frontier [] ↔
      ∃ y ∈ frontier, y ∈ nodes ∧ Relation.ReflTransGen (StepIn next nodes) y x := by
  constructor
  · intro found
    exact (of_mem_reach found).resolve_left List.not_mem_nil
  · rintro ⟨y, waiting, node, chain⟩
    induction chain with
    | refl => exact frontier_subset_reach waiting node
    | tail _ step ih => exact reach_closed (fun a visited => by cases visited) ih step

end

end Warehouse
