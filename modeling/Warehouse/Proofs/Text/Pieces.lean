/-
Module: Warehouse.Proofs.Text.Pieces
Purpose: The pieces into which a text is cut at characters of a kind. What is put together from
  pieces without such a character is cut into them again.
Trusted boundary: none
Main exports: Text.splitWhere_of_none, Text.splitWhere_append_cons, Text.splitWhere_append,
  Text.splitWhere_eq_pair_iff
-/
import Warehouse.Text.Blank

namespace Warehouse.Text

variable {p : Char → Bool}

/-- A text that is cut nowhere is one piece. -/
theorem splitWhere_of_none {s : List Char} (none : ∀ c ∈ s, p c = false) :
    splitWhere p s = [s] := by
  induction s with
  | nil => rfl
  | cons c rest ih =>
    have apart : p c = false := none c List.mem_cons_self
    rw [splitWhere, ih fun x later => none x (List.mem_cons_of_mem _ later)]
    simp [apart]

/-- What stands in front of a cut and what stands behind it are cut apart from each other. -/
theorem splitWhere_append_cons {c : Char} (cut : p c = true) (s rest : List Char) :
    splitWhere p (s ++ c :: rest) = splitWhere p s ++ splitWhere p rest := by
  induction s with
  | nil =>
    cases pieces : splitWhere p rest with
    | nil => exact absurd pieces (splitWhere_ne_nil p rest)
    | cons piece more => simp [splitWhere, pieces, cut]
  | cons x s ih =>
    rw [List.cons_append, splitWhere, splitWhere, ih]
    cases pieces : splitWhere p s with
    | nil => exact absurd pieces (splitWhere_ne_nil p s)
    | cons piece more => cases p x <;> rfl

/-- The first cut ends the first piece. -/
theorem splitWhere_append {s rest : List Char} {c : Char} (none : ∀ x ∈ s, p x = false)
    (cut : p c = true) : splitWhere p (s ++ c :: rest) = s :: splitWhere p rest := by
  rw [splitWhere_append_cons cut, splitWhere_of_none none, List.singleton_append]

/-- A text is in one piece, or it has a first character at which it is cut. -/
theorem none_or_exists_cut (p : Char → Bool) (s : List Char) : (∀ c ∈ s, p c = false) ∨
    ∃ piece c rest, s = piece ++ c :: rest ∧ (∀ x ∈ piece, p x = false) ∧ p c = true := by
  induction s with
  | nil => exact .inl (List.forall_mem_nil _)
  | cons x s ih =>
    cases here : p x with
    | true => exact .inr ⟨[], x, s, rfl, List.forall_mem_nil _, here⟩
    | false =>
      rcases ih with none | ⟨piece, c, rest, rfl, none, cut⟩
      · exact .inl (List.forall_mem_cons.mpr ⟨here, none⟩)
      · exact .inr ⟨x :: piece, c, rest, rfl, List.forall_mem_cons.mpr ⟨here, none⟩, cut⟩

/-- A text is cut into two pieces just if it is cut at a single character, which stands between
them. -/
theorem splitWhere_eq_pair_iff {s front back : List Char} : splitWhere p s = [front, back] ↔
    ∃ c, p c = true ∧ s = front ++ c :: back ∧ (∀ x ∈ front, p x = false) ∧ ∀ x ∈ back,
    p x = false := by
  constructor
  · intro pieces
    rcases none_or_exists_cut p s with none | ⟨piece, c, rest, rfl, none, cut⟩
    · rw [splitWhere_of_none none] at pieces
      cases pieces
    · rw [splitWhere_append none cut] at pieces
      obtain ⟨rfl, others⟩ := List.cons.inj pieces
      -- What stands behind the first cut is not cut again.
      rcases none_or_exists_cut p rest with none' | ⟨piece, c', rest', rfl, none', cut'⟩
      · rw [splitWhere_of_none none'] at others
        obtain ⟨rfl, _⟩ := List.cons.inj others
        exact ⟨c, cut, rfl, none, none'⟩
      · rw [splitWhere_append none' cut'] at others
        exact absurd (List.cons.inj others).2 (splitWhere_ne_nil p rest')
  · rintro ⟨c, cut, rfl, none, none'⟩
    rw [splitWhere_append none cut, splitWhere_of_none none']

end Warehouse.Text
