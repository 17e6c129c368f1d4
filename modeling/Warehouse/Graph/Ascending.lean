/-
Module: Warehouse.Graph.Ascending
Purpose: Sets as ascending lists. An element is put in its place unless it is there already, so two
  lists with the same elements give the same set.
Trusted boundary: none
Main exports: insertAscending, ascending
-/

namespace Warehouse

variable {α : Type} [Ord α]

/-- Puts `x` in its place among ascending elements, unless it is there. -/
def insertAscending (x : α) : List α → List α
  | [] => [x]
  | y :: ys =>
    match compare x y with
    | .lt => x :: y :: ys
    | .eq => y :: ys
    | .gt => y :: insertAscending x ys

/-- Puts every element of `more` in its place. -/
def insertAllAscending (xs more : List α) : List α := more.foldr insertAscending xs

/-- The elements, once each, in ascending order. -/
def ascending (xs : List α) : List α := insertAllAscending [] xs

private theorem length_insertAscending_le (x : α) (ys : List α) :
    (insertAscending x ys).length ≤ ys.length + 1 := by
  induction ys with
  | nil => simp [insertAscending]
  | cons y ys ih =>
    unfold insertAscending
    split <;> simp_all

/-- Insertions add at most what is inserted. -/
theorem length_insertAllAscending_le (xs more : List α) :
    (insertAllAscending xs more).length ≤ xs.length + more.length := by
  induction more with
  | nil => simp [insertAllAscending]
  | cons y ys ih =>
    have := length_insertAscending_le y (insertAllAscending xs ys)
    simp only [insertAllAscending, List.foldr_cons, List.length_cons] at *
    omega

end Warehouse
