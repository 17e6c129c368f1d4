/-
Module: Warehouse.Proofs.Text.Words
Purpose: The words of a text and their letters. How many blanks part two words, and which, says
  nothing about the words. A letter is made small with a view to its neighbours, but never across a
  blank, so that each word is made small by itself; and the case of ASCII letters says nothing about
  the small letters of a text.
Trusted boundary: none
Main exports: Text.words_append_cons, Text.words_between, Text.words_trim, Text.words_lowerChars,
  Text.lowerChars_map_toLower, Text.words_map_toLower
-/
import Mathlib.Data.List.TakeWhile
import Mathlib.Tactic.Conv
import Warehouse.Proofs.Text.Blanks
import Warehouse.Proofs.Text.Pieces
import Warehouse.Text.LetterCase

namespace Warehouse.Text

/-! ### Words -/

section

variable {c : Char} {s run front back : List Char}

/-- A blank keeps apart the words on both sides. -/
theorem words_append_cons (blank : isBlank c = true) (front back : List Char) :
    words (front ++ c :: back) = words front ++ words back := by
  rw [words, splitWhere_append_cons blank, List.filter_append]
  rfl

/-- A text without blanks is one word, unless it is empty. -/
private theorem words_of_solid (filled : s ≠ []) (solid : ∀ c ∈ s, isBlank c = false) :
    words s = [s] := by
  rw [words, splitWhere_of_none solid, List.filter_cons_of_pos (by simpa using filled),
    List.filter_nil]

/-- Blanks in front of a text are no words. -/
theorem words_blank_append (blank : ∀ c ∈ run, isBlank c = true) (s : List Char) :
    words (run ++ s) = words s := by
  induction run with
  | nil => rfl
  | cons c run ih =>
    obtain ⟨first, others⟩ := List.forall_mem_cons.mp blank
    exact (words_append_cons first [] (run ++ s)).trans (ih others)

/-- Blanks between two texts part their words, however many there are. -/
theorem words_between (filled : run ≠ []) (blank : ∀ c ∈ run, isBlank c = true)
    (front back : List Char) : words (front ++ (run ++ back)) = words front ++ words back := by
  cases run with
  | nil => exact absurd rfl filled
  | cons c run =>
    obtain ⟨first, others⟩ := List.forall_mem_cons.mp blank
    rw [List.cons_append, words_append_cons first, words_blank_append others]

/-- Blanks behind a text are no words either. -/
theorem words_append_blank (blank : ∀ c ∈ run, isBlank c = true) (s : List Char) :
    words (s ++ run) = words s := by
  cases run with
  | nil => rw [List.append_nil]
  | cons c run =>
    have none : words [] = [] := rfl
    have parted := words_between (List.cons_ne_nil c run) blank s []
    rwa [List.append_nil, none, List.append_nil] at parted

/-- Blanks at the ends are no part of any word. -/
theorem words_trim (s : List Char) : words (trim s) = words s := by
  have start : words (trimStart s) = words s := by
    have cut : s.takeWhile isBlank ++ trimStart s = s := List.takeWhile_append_dropWhile
    conv_rhs => rw [← cut]
    exact (words_blank_append (fun c member => List.mem_takeWhile_imp member) _).symm
  have cut : trim s ++ ((trimStart s).reverse.takeWhile isBlank).reverse = trimStart s := by
    rw [trim, trimEnd, ← List.reverse_append, List.takeWhile_append_dropWhile, List.reverse_reverse]
  rw [← start]
  conv_rhs => rw [← cut]
  refine (words_append_blank (fun c member => ?_) _).symm
  exact List.mem_takeWhile_imp (List.mem_reverse.mp member)

end

/-! ### Blanks and letters -/

/-- The code points of the blanks. -/
def blankPoints : List Nat :=
  [0x9, 0xA, 0xB, 0xC, 0xD, 0x20, 0x85, 0xA0, 0x1680, 0x2000, 0x2001, 0x2002, 0x2003, 0x2004,
    0x2005, 0x2006, 0x2007, 0x2008, 0x2009, 0x200A, 0x2028, 0x2029, 0x202F, 0x205F, 0x3000]

/-- There are as many blanks as the list has, so a property of all of them can be looked up. -/
theorem isBlank_iff {c : Char} : isBlank c = true ↔ c.toNat ∈ blankPoints := by
  simp [isBlank, blankPoints]
  omega

/-- A blank is its own small letter, and a search for a cased letter ends at it. -/
theorem of_isBlank {c : Char} (blank : isBlank c = true) :
    lowerChar c = [c] ∧ c ≠ 'Σ' ∧ isCaseIgnorable c = false ∧ isCased c = false := by
  have all : ∀ n ∈ blankPoints, lowerChar (Char.ofNat n) = [Char.ofNat n] ∧ Char.ofNat n ≠ 'Σ' ∧
      isCaseIgnorable (Char.ofNat n) = false ∧ isCased (Char.ofNat n) = false := by decide +kernel
  have here := all c.toNat (isBlank_iff.mp blank)
  rwa [Char.ofNat_toNat] at here

/-- No run of capital letters has a blank among its small letters. -/
theorem isBlank_image {run : CaseRun} (run_mem : run ∈ lowerRuns) {n m : Nat}
    (image : run.image? n = some m) : isBlank (Char.ofNat m) = false := by
  have apart : ∀ run ∈ lowerRuns, ∀ n ∈ blankPoints,
      0 < n ∧ ((n : Int) < run.first + run.shift ∨ run.last + run.shift < n) := by decide +kernel
  rw [← Bool.not_eq_true, isBlank_iff]
  rcases toNat_ofNat_or m with numbered | none
  · rw [numbered]
    intro member
    have bounds := apart run run_mem m member
    rw [CaseRun.image?] at image
    split at image
    · cases image
      omega
    · cases image
  · rw [none]
    decide

/-- What is no blank has no blank in its small letters. -/
theorem solid_lowerChar {c : Char} (solid : isBlank c = false) :
    lowerChar c ≠ [] ∧ ∀ x ∈ lowerChar c, isBlank x = false := by
  unfold lowerChar
  split
  · next ascii =>
    have all : ∀ n < 0x80, isBlank (Char.ofNat n).toLower = isBlank (Char.ofNat n) := by decide
    have here := all c.toNat ascii
    rw [Char.ofNat_toNat, solid] at here
    simpa using here
  · split
    · have letters : isBlank 'i' = false ∧ isBlank '\u0307' = false := by decide
      exact ⟨List.cons_ne_nil _ _,
        List.forall_mem_cons.mpr ⟨letters.1, List.forall_mem_singleton.mpr letters.2⟩⟩
    · split
      · next found =>
        obtain ⟨run, run_mem, image⟩ := List.exists_of_findSome?_eq_some found
        simpa using isBlank_image run_mem image
      · simpa using solid

/-! ### Small letters

A text is put in small letters from the left. Only the capital sigma looks around, and what it looks
for ends at the next blank. So a text can be put in small letters word by word. -/

section

variable {c : Char} {s : List Char}

/-- A search for a cased letter does not go beyond a blank. -/
theorem meetsCased_append_cons (blank : isBlank c = true) (s rest : List Char) :
    meetsCased (s ++ c :: rest) = meetsCased s := by
  obtain ⟨_, _, stops, uncased⟩ := of_isBlank blank
  induction s with
  | nil => simp [meetsCased, stops, uncased]
  | cons x s ih =>
    rw [meetsCased, meetsCased] at ih ⊢
    rw [List.cons_append, List.dropWhile_cons, List.dropWhile_cons]
    cases isCaseIgnorable x with
    | true => exact ih
    | false => rfl

/-- What stands in front of a blank does not matter to the letters behind it. -/
theorem lowerAfter_append_cons (blank : isBlank c = true) (front before s : List Char) :
    lowerAfter (front ++ c :: before) s = lowerAfter front s := by
  induction s generalizing front with
  | nil => rfl
  | cons x s ih =>
    rw [lowerAfter, lowerAfter, meetsCased_append_cons blank, ← List.cons_append, ih]

/-- Letters are made small on either side of a blank by themselves. -/
theorem lowerAfter_split (blank : isBlank c = true) (before s rest : List Char) :
    lowerAfter before (s ++ c :: rest) = lowerAfter before s ++ c :: lowerChars rest := by
  induction s generalizing before with
  | nil =>
    obtain ⟨itself, plain, _, _⟩ := of_isBlank blank
    simp only [List.nil_append, lowerAfter, if_neg plain, itself, List.singleton_append]
    exact congrArg (c :: ·) (lowerAfter_append_cons blank [] before rest)
  | cons x s ih =>
    rw [List.cons_append, lowerAfter, lowerAfter, meetsCased_append_cons blank, ih,
      List.append_assoc]

/-- A word stays one: no small letter is missing, and none is a blank. -/
theorem solid_lowerAfter (before : List Char) (solid : ∀ c ∈ s, isBlank c = false) :
    (s ≠ [] → lowerAfter before s ≠ []) ∧ ∀ c ∈ lowerAfter before s, isBlank c = false := by
  induction s generalizing before with
  | nil => exact ⟨fun filled => absurd rfl filled, List.forall_mem_nil _⟩
  | cons c s ih =>
    obtain ⟨first, others⟩ := List.forall_mem_cons.mp solid
    obtain ⟨filled, here⟩ := solid_lowerChar first
    have sigmas : isBlank 'ς' = false ∧ isBlank 'σ' = false := by decide
    rw [lowerAfter]
    refine ⟨fun _ => List.append_ne_nil_of_left_ne_nil ?_ _,
      List.forall_mem_append.mpr ⟨?_, (ih _ others).2⟩⟩
    · split
      · split <;> exact List.cons_ne_nil _ _
      · exact filled
    · split
      · split
        · exact List.forall_mem_singleton.mpr sigmas.1
        · exact List.forall_mem_singleton.mpr sigmas.2
      · exact here

private theorem words_lowerChars_of_solid (solid : ∀ c ∈ s, isBlank c = false) :
    words (lowerChars s) = (words s).map lowerChars := by
  cases s with
  | nil => rfl
  | cons c s =>
    obtain ⟨filled, here⟩ := solid_lowerAfter [] solid
    rw [lowerChars, words_of_solid (filled (List.cons_ne_nil c s)) here,
      words_of_solid (List.cons_ne_nil c s) solid]
    rfl

/-- The words of a text in small letters are its words, each in small letters by itself. -/
theorem words_lowerChars (s : List Char) : words (lowerChars s) = (words s).map lowerChars := by
  induction length : s.length using Nat.strong_induction_on generalizing s with
  | _ n ih =>
    rcases none_or_exists_cut isBlank s with solid | ⟨word, c, rest, rfl, solid, blank⟩
    · exact words_lowerChars_of_solid solid
    · have shorter : rest.length < n := by
        rw [← length, List.length_append, List.length_cons]
        omega
      rw [lowerChars, lowerAfter_split blank, words_append_cons blank, words_append_cons blank,
        List.map_append, ← ih rest.length shorter rest rfl]
      exact congrArg (· ++ _) (words_lowerChars_of_solid solid)

end

/-! ### The case of ASCII letters -/

/-- What a character is to `f` does not depend on its case if that is so in ASCII: no other
character has one here. -/
theorem eq_of_toLower {α : Type} (f : Char → α)
    (ascii : ∀ n < 0x80, f (Char.ofNat n).toLower = f (Char.ofNat n)) (c : Char) :
    f c.toLower = f c := by
  by_cases small : c.toNat < 0x80
  · have here := ascii c.toNat small
    rwa [Char.ofNat_toNat] at here
  · have unchanged : c.toLower = c := dif_neg fun upper => by
      have bound : c.toNat ≤ 0x5A := UInt32.le_iff_toNat_le.mp upper.2
      omega
    rw [unchanged]

section

variable {p : Char → Bool}

/-- A text is cut at the same places when its characters are replaced by others of the same kind. -/
theorem splitWhere_map {f : Char → Char} (same : ∀ c, p (f c) = p c) (s : List Char) :
    splitWhere p (s.map f) = (splitWhere p s).map (List.map f) := by
  induction s with
  | nil => rfl
  | cons c s ih =>
    rw [List.map_cons, splitWhere, splitWhere, ih, same]
    cases splitWhere p s with
    | nil => rfl
    | cons piece more => cases p c <;> rfl

theorem words_map_toLower (s : List Char) :
    words (s.map Char.toLower) = (words s).map (List.map Char.toLower) := by
  rw [words, words, splitWhere_map (eq_of_toLower isBlank (by decide)), List.filter_map]
  congr 2
  funext w
  cases w <;> rfl

private theorem meetsCased_map_toLower (s : List Char) :
    meetsCased (s.map Char.toLower) = meetsCased s := by
  induction s with
  | nil => rfl
  | cons c s ih =>
    rw [meetsCased, meetsCased] at ih ⊢
    rw [List.map_cons, List.dropWhile_cons, List.dropWhile_cons,
      eq_of_toLower isCaseIgnorable (by decide +kernel)]
    cases isCaseIgnorable c with
    | true => exact ih
    | false => exact eq_of_toLower isCased (by decide +kernel) c

private theorem lowerAfter_map_toLower (before s : List Char) :
    lowerAfter (before.map Char.toLower) (s.map Char.toLower) = lowerAfter before s := by
  induction s generalizing before with
  | nil => rfl
  | cons c s ih =>
    have sigma : (c.toLower = 'Σ') = (c = 'Σ') := eq_of_toLower (· = 'Σ') (by decide) c
    rw [List.map_cons, lowerAfter, lowerAfter, ← List.map_cons, ih, meetsCased_map_toLower,
      meetsCased_map_toLower, eq_of_toLower lowerChar (by decide)]
    simp only [sigma]

/-- A text in small letters does not show the case that its ASCII letters had. -/
theorem lowerChars_map_toLower (s : List Char) : lowerChars (s.map Char.toLower) = lowerChars s :=
  lowerAfter_map_toLower [] s

end

end Warehouse.Text
