/-
Module: Warehouse.Proofs.Text.Blanks
Purpose: Blanks at the ends of texts, and what is no blank.
Trusted boundary: none
Main exports: Text.toNat_ofNat_or, Text.toNat_lt_of_isAlphanum, Text.isBlank_eq_false_of_nameChar,
  Text.trimStart_append, Text.trim_eq_self, Text.trim_eq_self_iff
-/
import Warehouse.Proofs.Lists
import Warehouse.Text.Blank

namespace Warehouse.Text

/-- A number is that of its character, unless it has none and stands for the first one. -/
theorem toNat_ofNat_or (n : Nat) : (Char.ofNat n).toNat = n ∨ Char.ofNat n = '\x00' := by
  by_cases valid : n.isValidChar
  · have numbered : Char.ofNat n = Char.ofNatAux n valid := dif_pos valid
    rw [numbered]
    exact .inl rfl
  · exact .inr (dif_neg valid)

/-- The letters and digits of names are ASCII. -/
theorem toNat_lt_of_isAlphanum {c : Char} (alphanum : c.isAlphanum = true) : c.toNat < 0x80 := by
  have below {last : Char} (bound : c.val ≤ last.val) (small : last.toNat < 0x80) :
      c.toNat < 0x80 := Nat.lt_of_le_of_lt (UInt32.le_iff_toNat_le.mp bound) small
  have kinds : (c.isUpper = true ∨ c.isLower = true) ∨ c.isDigit = true := by
    rw [← Bool.or_eq_true_iff, ← Bool.or_eq_true_iff]
    exact alphanum
  rcases kinds with (upper | lower) | digit
  · have bounds : c.val ≥ 'A'.val ∧ c.val ≤ 'Z'.val := of_decide_eq_true upper
    exact below bounds.2 (by decide)
  · exact below (of_decide_eq_true (Bool.and_eq_true_iff.mp lower).2) (by decide)
  · exact below (of_decide_eq_true (Bool.and_eq_true_iff.mp digit).2) (by decide)

/-- No digit is a letter: the digits stand before all letters. -/
theorem isAlpha_eq_false_of_isDigit {c : Char} (digit : c.isDigit = true) : c.isAlpha = false := by
  have last : c.toNat ≤ '9'.toNat :=
    UInt32.le_iff_toNat_le.mp (of_decide_eq_true (Bool.and_eq_true_iff.mp digit).2)
  have before {first : Char} (letters : '9'.toNat < first.toNat) : ¬ c.val ≥ first.val :=
    fun from_ =>
    Nat.not_lt.mpr (UInt32.le_iff_toNat_le.mp from_) (Nat.lt_of_le_of_lt last letters)
  refine Bool.or_eq_false_iff.mpr ⟨decide_eq_false fun upper => before ?_ upper.1, ?_⟩
  · decide
  · refine Bool.and_eq_false_iff.mpr (.inl (decide_eq_false fun lower => before ?_ lower))
    decide

/-- What may stand in a name is no blank. -/
theorem isBlank_eq_false_of_nameChar {c : Char} (named : (c.isAlphanum || c = '_') = true) :
    isBlank c = false := by
  have ascii : c.toNat < 0x80 := by
    rcases Bool.or_eq_true_iff.mp named with alphanum | underscore
    · exact toNat_lt_of_isAlphanum alphanum
    · rw [of_decide_eq_true underscore]
      decide
  have all : ∀ n < 0x80, ((Char.ofNat n).isAlphanum || Char.ofNat n = '_') = true →
      isBlank (Char.ofNat n) = false := by
    decide
  have here := all c.toNat ascii
  rw [Char.ofNat_toNat] at here
  exact here named

/-- Blanks in front of a text that begins with none are what is cut off. -/
theorem trimStart_append {left rest : List Char} (blank : ∀ c ∈ left, isBlank c = true)
    (solid : ∀ c ∈ rest.head?, isBlank c = false) : trimStart (left ++ rest) = rest :=
  dropWhile_append_of_ends blank solid

/-- A text that neither starts nor ends with a blank has none to cut off. -/
theorem trim_eq_self {s : List Char} (starts : ∀ c ∈ s.head?, isBlank c = false)
    (ends : ∀ c ∈ s.getLast?, isBlank c = false) : trim s = s := by
  have start (t : List Char) (solid : ∀ c ∈ t.head?, isBlank c = false) : t.dropWhile isBlank = t :=
    @trimStart_append [] t (by simp) solid
  rw [trim, trimEnd, trimStart, start s starts, start s.reverse (by rwa [List.head?_reverse]),
    List.reverse_reverse]

/-- What is left when blanks are cut off the end is how the text begins. -/
private theorem trimEnd_prefix (s : List Char) : trimEnd s <+: s := by
  have behind : s.reverse.dropWhile isBlank <:+ s.reverse := List.dropWhile_suffix isBlank
  rw [← List.reverse_prefix, List.reverse_reverse] at behind
  exact behind

/-- Just such texts have none to cut off: what is left of any text neither starts nor ends with a
blank. -/
theorem trim_eq_self_iff {s : List Char} : trim s = s ↔
    (∀ c ∈ s.head?, isBlank c = false) ∧ ∀ c ∈ s.getLast?, isBlank c = false := by
  refine ⟨fun whole => ?_, fun solid => trim_eq_self solid.1 solid.2⟩
  rw [← whole]
  constructor
  · intro c first
    obtain ⟨blanks, left⟩ : trim s <+: trimStart s := trimEnd_prefix _
    refine head?_dropWhile_eq_false isBlank s c ?_
    rw [← trimStart, ← left, List.head?_append, first, Option.some_or, Option.mem_def]
  · intro c last
    rw [trim, trimEnd, List.getLast?_reverse] at last
    exact head?_dropWhile_eq_false isBlank _ c last

end Warehouse.Text
