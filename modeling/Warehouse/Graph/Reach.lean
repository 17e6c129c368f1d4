/-
Module: Warehouse.Graph.Reach
Purpose: What can be reached in a finite graph. A worklist holds the elements still to be visited;
  each is expanded at most once, so the walk ends whatever cycles the graph has.
Trusted boundary: none
Main exports: reach
-/

namespace Warehouse

/-- The elements of `nodes` that can be reached from `frontier` along `next`, besides what is in
`seen`, the last found first. -/
def reach {α : Type} [DecidableEq α] (next : α → List α) (nodes : List α) (frontier seen : List α) :
    List α :=
  match frontier with
  | [] => seen
  | x :: rest =>
    if x ∈ nodes ∧ x ∉ seen then reach next nodes (next x ++ rest) (x :: seen)
    else reach next nodes rest seen
termination_by ((nodes.filter (· ∉ seen)).length, frontier.length)
decreasing_by
  · rename_i h
    apply Prod.Lex.left
    have hsub : nodes.filter (· ∉ x :: seen) = (nodes.filter (· ∉ seen)).filter (· ≠ x) := by
      rw [List.filter_filter]
      congr 1
      funext y
      simp [List.mem_cons, not_or]
    rw [hsub]
    have hx : x ∈ nodes.filter (· ∉ seen) := by simp [h.1, h.2]
    exact List.length_filter_lt_length_iff_exists.mpr ⟨x, hx, by simp⟩
  · apply Prod.Lex.right
    simp

end Warehouse
