/-
Module: Warehouse.Proofs.Sql.TypeSpelling
Purpose: What the names that dialects write for types with parameters are read back as. A name is
  made of words with one space between any two, so that all that normalising does to it is to make
  its letters small; and a number in it is read as the number that was written.
Trusted boundary: none
Main exports: Text.IsWord, Text.spaced, Text.words_spaced, Text.trim_spaced,
  Number.unsigned?_toDigits, DataType.normalise_spaced, DataType.parse?_enclosed,
  DataType.parse?_withScale, DataType.parse?_char, DataType.parse?_varchar
-/
import Mathlib.Data.List.Basic
import Mathlib.Tactic.Conv
import Warehouse.Proofs.Lists
import Warehouse.Proofs.Text.Blanks
import Warehouse.Proofs.Text.Pieces
import Warehouse.Sql.TypeName

namespace Warehouse

/-! ### Words

The spelling of a type is cut into words and put in small letters. For texts in ASCII both can be
done word by word. -/

namespace Text

/-- A run of ASCII characters that are not blank. -/
structure IsWord (w : List Char) : Prop where
  nonempty : w ≠ []
  ascii : ∀ c ∈ w, c.toNat < 0x80
  solid : ∀ c ∈ w, isBlank c = false

/-- A word is checked character by character. -/
theorem isWord_iff {w : List Char} :
    IsWord w ↔ w ≠ [] ∧ w.all (fun c => decide (c.toNat < 0x80) && ! isBlank c) = true := by
  simp only [List.all_eq_true, Bool.and_eq_true, decide_eq_true_eq, Bool.not_eq_true']
  constructor
  · rintro ⟨nonempty, ascii, solid⟩
    exact ⟨nonempty, fun c member => ⟨ascii c member, solid c member⟩⟩
  · rintro ⟨nonempty, each⟩
    exact ⟨nonempty, fun c member => (each c member).1, fun c member => (each c member).2⟩

-- Decided along the word: the first instance found for a statement on characters goes through all
-- of them.
instance (w : List Char) : Decidable (IsWord w) := decidable_of_iff _ isWord_iff.symm

theorem IsWord.append {w v : List Char} (word : IsWord w) (word' : IsWord v) : IsWord (w ++ v) where
  nonempty := List.append_ne_nil_of_left_ne_nil word.nonempty v
  ascii := List.forall_mem_append.mpr ⟨word.ascii, word'.ascii⟩
  solid := List.forall_mem_append.mpr ⟨word.solid, word'.solid⟩

/-- Words with one space between any two. -/
def spaced (ws : List (List Char)) : List Char := (ws.intersperse [' ']).flatten

private theorem spaced_cons_cons (w v : List Char) (ws : List (List Char)) :
    spaced (w :: v :: ws) = w ++ ' ' :: spaced (v :: ws) := by
  rw [spaced, List.intersperse_cons_cons, List.flatten_cons, List.flatten_cons]
  rfl

/-- Words are found again between the spaces. -/
theorem words_spaced {ws : List (List Char)} (each : ∀ w ∈ ws, IsWord w) :
    words (spaced ws) = ws := by
  induction ws with
  | nil => rfl
  | cons w ws ih =>
    have word : IsWord w := each w List.mem_cons_self
    cases ws with
    | nil =>
      have only : spaced [w] = w := List.append_nil w
      rw [only, words, splitWhere_of_none word.solid]
      simp [word.nonempty]
    | cons v ws =>
      have rest := ih fun x later => each x (List.mem_cons_of_mem _ later)
      rw [words] at rest
      rw [spaced_cons_cons, words, splitWhere_append word.solid (by decide),
        List.filter_cons_of_pos, rest]
      simpa using word.nonempty

/-- What is put in front of words and behind them without a space makes longer words. -/
theorem exists_spaced_enclosed {front back w : List Char} {ws : List (List Char)}
    (word : IsWord front) (word' : IsWord back) (each : ∀ v ∈ w :: ws, IsWord v) :
    ∃ vs, (∀ v ∈ vs, IsWord v) ∧ front ++ (spaced (w :: ws) ++ back) = spaced vs := by
  have behind (w : List Char) (ws : List (List Char)) (each : ∀ v ∈ w :: ws, IsWord v) :
      ∃ v vs, (∀ x ∈ v :: vs, IsWord x) ∧ spaced (w :: ws) ++ back = spaced (v :: vs) := by
    induction ws generalizing w with
    | nil =>
      refine ⟨w ++ back, [], ?_, by simp [spaced]⟩
      simpa using (each w List.mem_cons_self).append word'
    | cons v ws ih =>
      obtain ⟨first, others⟩ := List.forall_mem_cons.mp each
      obtain ⟨v', vs, words, same⟩ := ih v others
      refine ⟨w, v' :: vs, List.forall_mem_cons.mpr ⟨first, words⟩, ?_⟩
      rw [spaced_cons_cons, spaced_cons_cons, ← same, List.append_assoc, List.cons_append]
  have ahead : front ++ spaced (w :: ws) = spaced ((front ++ w) :: ws) := by
    cases ws with
    | nil => simp [spaced]
    | cons v ws => rw [spaced_cons_cons, spaced_cons_cons, List.append_assoc]
  obtain ⟨first, others⟩ := List.forall_mem_cons.mp each
  obtain ⟨v, vs, words, same⟩ :=
    behind (front ++ w) ws (List.forall_mem_cons.mpr ⟨word.append first, others⟩)
  exact ⟨v :: vs, words, by rw [← List.append_assoc, ahead, same]⟩

private theorem mem_spaced {ws : List (List Char)} {c : Char} (member : c ∈ spaced ws) :
    c = ' ' ∨ ∃ w ∈ ws, c ∈ w := by
  obtain ⟨piece, among, here⟩ := List.mem_flatten.mp member
  rcases mem_of_mem_intersperse among with rfl | word
  · exact .inl (List.mem_singleton.mp here)
  · exact .inr ⟨piece, word, here⟩

private theorem map_spaced {f : Char → Char} (keeps : f ' ' = ' ') (ws : List (List Char)) :
    (spaced ws).map f = spaced (ws.map (List.map f)) := by
  induction ws with
  | nil => rfl
  | cons w ws ih =>
    cases ws with
    | nil => simp [spaced]
    | cons v ws =>
      rw [spaced_cons_cons, List.map_append, List.map_cons, keeps, ih, List.map_cons, List.map_cons,
        List.map_cons, spaced_cons_cons]

private theorem head?_spaced {w : List Char} (word : w ≠ []) (ws : List (List Char)) :
    (spaced (w :: ws)).head? = w.head? := by
  cases ws with
  | nil => rw [spaced, List.intersperse_singleton, List.flatten_singleton]
  | cons v ws => rw [spaced_cons_cons, List.head?_append_of_ne_nil _ word]

/-- The first and the last character stand in words. -/
theorem ends_spaced {ws : List (List Char)} (each : ∀ w ∈ ws, IsWord w) :
    (∀ c ∈ (spaced ws).head?, isBlank c = false) ∧ ∀ c ∈ (spaced ws).getLast?,
    isBlank c = false := by
  induction ws with
  | nil => simp [spaced]
  | cons w ws ih =>
    have word : IsWord w := each w List.mem_cons_self
    rw [head?_spaced word.nonempty]
    refine ⟨fun c first => word.solid c (List.mem_of_mem_head? first), ?_⟩
    cases ws with
    | nil =>
      have only : spaced [w] = w := List.append_nil w
      rw [only]
      exact fun c last => word.solid c (List.mem_of_mem_getLast? last)
    | cons v ws =>
      obtain ⟨_, ends⟩ := ih fun x later => each x (List.mem_cons_of_mem _ later)
      rw [spaced_cons_cons, List.getLast?_append]
      cases last : (spaced (v :: ws)).getLast? with
      | none =>
        rw [List.getLast?_eq_none_iff] at last
        have gone := words_spaced fun x later => each x (List.mem_cons_of_mem w later)
        rw [last] at gone
        cases gone
      | some c =>
        rw [List.getLast?_cons, last]
        simpa using ends c (by simp [last])

/-- Words with single blanks between them begin and end with no blank. -/
theorem trim_spaced {ws : List (List Char)} (each : ∀ w ∈ ws, IsWord w) :
    trim (spaced ws) = spaced ws :=
  trim_eq_self (ends_spaced each).1 (ends_spaced each).2

private theorem trim_word {w : List Char} (word : IsWord w) : trim w = w := by
  have only : spaced [w] = w := List.append_nil w
  rw [← only]
  exact trim_spaced (by simpa using word)

/-- Among ASCII characters, making a letter small neither makes a blank nor leaves ASCII. -/
theorem toLower_ascii {c : Char} (ascii : c.toNat < 0x80) :
    c.toLower.toNat < 0x80 ∧ isBlank c.toLower = isBlank c := by
  have all : ∀ n < 0x80, (Char.ofNat n).toLower.toNat < 0x80 ∧
      isBlank (Char.ofNat n).toLower = isBlank (Char.ofNat n) := by decide
  have here := all c.toNat ascii
  rwa [Char.ofNat_toNat] at here

theorem IsWord.lower {w : List Char} (word : IsWord w) : IsWord (w.map Char.toLower) where
  nonempty := by simpa using word.nonempty
  ascii := by
    rw [List.forall_mem_map]
    exact fun c member => (toLower_ascii (word.ascii c member)).1
  solid := by
    rw [List.forall_mem_map]
    intro c member
    rw [(toLower_ascii (word.ascii c member)).2, word.solid c member]

/-- In ASCII each letter has its small letter, wherever it stands. -/
theorem lowerAfter_ascii (before : List Char) {s : List Char} (ascii : ∀ c ∈ s, c.toNat < 0x80) :
    lowerAfter before s = s.map Char.toLower := by
  induction s generalizing before with
  | nil => rfl
  | cons c rest ih =>
    have small : c.toNat < 0x80 := ascii c List.mem_cons_self
    have plain : c ≠ 'Σ' := by
      rintro rfl
      revert small
      decide
    rw [lowerAfter, if_neg plain, lowerChar, if_pos small,
      ih _ fun x later => ascii x (List.mem_cons_of_mem _ later)]
    rfl

/-- Words are put in small letters one by one. -/
theorem lowerChars_spaced {ws : List (List Char)} (each : ∀ w ∈ ws, IsWord w) :
    lowerChars (spaced ws) = spaced (ws.map (List.map Char.toLower)) := by
  have ascii : ∀ c ∈ spaced ws, c.toNat < 0x80 := by
    intro c member
    rcases mem_spaced member with rfl | ⟨w, word, here⟩
    · decide
    · exact (each w word).ascii c here
  rw [lowerChars, lowerAfter_ascii [] ascii, map_spaced (by decide)]

end Text

/-! ### Numbers

A number is written in digits, and digits are read back as the number. -/

namespace Number

private theorem isDigit_iff {c : Char} : c.isDigit = true ↔ 48 ≤ c.toNat ∧ c.toNat ≤ 57 := by
  simp [Char.isDigit, UInt32.le_iff_toNat_le]

/-- The digits of a number make a word. -/
theorem isWord_toDigits (n : Nat) : Text.IsWord (Nat.toDigits 10 n) where
  nonempty := Nat.toDigits_ne_nil
  ascii c member := by
    have digit := Nat.isDigit_of_mem_toDigits (by decide) (by decide) member
    have bounds := isDigit_iff.mp digit
    omega
  solid c member := by
    have digit := Nat.isDigit_of_mem_toDigits (by decide) (by decide) member
    have bounds := isDigit_iff.mp digit
    simp [Text.isBlank]
    omega

/-- A number is read as it was written. -/
theorem unsigned?_toDigits {n limit : Nat} (below : n < limit) :
    unsigned? limit (Nat.toDigits 10 n) = some n := by
  have digit (c : Char) (member : c ∈ Nat.toDigits 10 n) : c.isDigit = true :=
    Nat.isDigit_of_mem_toDigits (by decide) (by decide) member
  have value : digitsValue (Nat.toDigits 10 n) = n := by
    have same : digitsValue (Nat.toDigits 10 n) = Nat.ofDigitChars 10 (Nat.toDigits 10 n) 0 := by
      rw [digitsValue, Nat.ofDigitChars_eq_foldl]
      apply List.foldl_ext
      intro value c member
      rw [if_pos (digit c member)]
      rfl
    rw [same, Nat.ofDigitChars_toDigits (by decide) (by decide)]
  have all : (Nat.toDigits 10 n).all Char.isDigit = true := List.all_eq_true.mpr digit
  have some_digit : (Nat.toDigits 10 n).isEmpty = false := by simp [Nat.toDigits_ne_nil]
  unfold unsigned?
  split
  · next rest signed =>
    have plus : Char.isDigit '+' = true := digit '+' (by rw [signed]; exact List.mem_cons_self)
    cases plus
  · simp [all, some_digit, value, below]

/-- Digits are the same in capital and small letters. -/
theorem map_toLower_toDigits (n : Nat) :
    (Nat.toDigits 10 n).map Char.toLower = Nat.toDigits 10 n := by
  have all : ∀ n < 0x80, (Char.ofNat n).isDigit = true →
    (Char.ofNat n).toLower = Char.ofNat n := by decide
  conv_rhs => rw [← List.map_id (Nat.toDigits 10 n)]
  apply List.map_congr_left
  intro c member
  have here := all c.toNat ((isWord_toDigits n).ascii c member)
  rw [Char.ofNat_toNat] at here
  exact here (Nat.isDigit_of_mem_toDigits (by decide) (by decide) member)

end Number

/-! ### Names with parameters

A type with parameters is its name, a parenthesis, the parameters and a parenthesis. Both parts are
found again. -/

namespace Sql.DataType

open Text (IsWord spaced)

/-- Normalising makes the letters of words small, and leaves the spaces between them. -/
theorem normalise_spaced {ws : List (List Char)} (each : ∀ w ∈ ws, IsWord w) :
    normalise (spaced ws) = (spaced ws).map Char.toLower := by
  have small : ∀ w ∈ ws.map (List.map Char.toLower), IsWord w := by
    rw [List.forall_mem_map]
    exact fun w member => (each w member).lower
  rw [normalise, Text.trim_spaced each, Text.lowerChars_spaced each, Text.words_spaced small,
    Text.map_spaced (by decide)]
  rfl

/-- A name is cut at its first parenthesis. -/
theorem splitParameters?_eq {base args : List Char} (word : IsWord base) (plain : '(' ∉ base)
    (trimmed : Text.trim args = args) :
    splitParameters? (base ++ '(' :: (args ++ [')'])) = some (base, args) := by
  have front : (base ++ '(' :: (args ++ [')'])).takeWhile (· ≠ '(') = base := by
    rw [List.takeWhile_append_of_pos, List.takeWhile_cons_of_neg, List.append_nil]
    · simp
    · intro c member
      have other : c ≠ '(' := fun same => plain (same ▸ member)
      simpa using other
  simp only [splitParameters?, front, List.drop_left, List.getLast?_concat, List.dropLast_concat,
    Text.trim_word word, trimmed, if_true]

/-- A name with parameters is read by the name and the parameters, both in small letters. -/
theorem parse?_enclosed {name text : String} {w : List Char} {ws : List (List Char)}
    (word : IsWord name.toList) (plain : '(' ∉ name.toList.map Char.toLower)
    (each : ∀ v ∈ w :: ws, IsWord v)
    (written : text.toList = name.toList ++ '(' :: (spaced (w :: ws) ++ [')'])) :
    parse? text = ofParameters? (Text.asciiLower name)
      (spaced ((w :: ws).map (List.map Char.toLower))) := by
  have small : ∀ v ∈ (w :: ws).map (List.map Char.toLower), IsWord v := by
    rw [List.forall_mem_map]
    exact fun v member => (each v member).lower
  have opened : IsWord (name.toList ++ ['(']) := word.append (by decide)
  have closed : IsWord [')'] := by decide
  obtain ⟨vs, words, same⟩ := Text.exists_spaced_enclosed opened closed each
  have form : normalise text.toList = name.toList.map Char.toLower ++
      '(' :: (spaced ((w :: ws).map (List.map Char.toLower)) ++ [')']) := by
    rw [List.append_assoc, List.singleton_append] at same
    rw [written, same, normalise_spaced words, ← same, ← Text.map_spaced (by decide)]
    simp
  rw [parse?]
  simp only [form, splitParameters?_eq word.lower plain (Text.trim_spaced small)]
  rfl

/-! ### Precision, scale and length

Decimals have a precision and a scale, texts a length. Each family of names is read in the same way.
-/

private theorem byte?_toDigits (n : UInt8) : byte? (Nat.toDigits 10 n.toNat) = some n := by
  rw [byte?, Number.unsigned?_toDigits n.toNat_lt, Option.map_some, UInt8.ofNat_toNat]

/-- A length is read whatever unit stands behind it. -/
theorem length?_spaced (n : UInt16) {units : List (List Char)} (each : ∀ w ∈ units, IsWord w) :
    length? (spaced (Nat.toDigits 10 n.toNat :: units)) = some n := by
  have words : ∀ w ∈ Nat.toDigits 10 n.toNat :: units, IsWord w :=
    List.forall_mem_cons.mpr ⟨Number.isWord_toDigits _, each⟩
  simp [length?, Text.words_spaced words, Number.unsigned?_toDigits n.toNat_lt, UInt16.ofNat_toNat]

/-- There is no comma in a number. -/
theorem comma_notMem_toDigits {n : Nat} {c : Char} (member : c ∈ Nat.toDigits 10 n) :
    decide (c = ',') = false := by
  have digit := Nat.isDigit_of_mem_toDigits (by decide) (by decide) member
  rw [decide_eq_false_iff_not]
  rintro rfl
  cases digit

private theorem ofParameters?_scale {base : String}
    (known : base ∈ ["decimal", "numeric", "number", "bignumeric"]) (p s : UInt8) :
    ofParameters? base (spaced [Nat.toDigits 10 p.toNat ++ [','], Nat.toDigits 10 s.toNat]) =
      some (decimal p s) := by
  have written : spaced [Nat.toDigits 10 p.toNat ++ [','], Nat.toDigits 10 s.toNat] =
      Nat.toDigits 10 p.toNat ++ ',' :: ' ' :: Nat.toDigits 10 s.toNat := by
    simp [spaced]
  have rest : Text.splitWhere (· = ',') (' ' :: Nat.toDigits 10 s.toNat) =
      [' ' :: Nat.toDigits 10 s.toNat] := by
    apply Text.splitWhere_of_none
    rw [List.forall_mem_cons]
    exact ⟨by decide, fun c member => comma_notMem_toDigits member⟩
  have cut :
    (Text.splitWhere (· = ',')
      (Nat.toDigits 10 p.toNat ++ ',' :: ' ' :: Nat.toDigits 10 s.toNat)).map
      Text.trim = [Nat.toDigits 10 p.toNat, Nat.toDigits 10 s.toNat] := by
    rw [Text.splitWhere_append (fun c member => comma_notMem_toDigits member) (by decide), rest,
      List.map_cons, Text.trim_word (Number.isWord_toDigits _), List.map_singleton]
    exact congrArg (fun t => [_, t]) (Text.trim_word (Number.isWord_toDigits s.toNat))
  simp only [List.mem_cons, List.not_mem_nil, or_false] at known
  rcases known with rfl | rfl | rfl | rfl <;>
    simp only [ofParameters?, written, cut, byte?_toDigits] <;> rfl

/-- A name with precision and scale is read as the decimal it was written for. -/
theorem parse?_withScale {name : String}
    (known : name ∈ ["DECIMAL", "NUMERIC", "NUMBER", "BIGNUMERIC"]) (p s : UInt8) :
    parse? (Dialect.withScale name p s) = some (decimal p s) := by
  have names : ∀ name ∈ ["DECIMAL", "NUMERIC", "NUMBER", "BIGNUMERIC"],
      IsWord name.toList ∧ '(' ∉ name.toList.map Char.toLower ∧
        Text.asciiLower name ∈ ["decimal", "numeric", "number", "bignumeric"] := by decide
  obtain ⟨word, plain, base⟩ := names name known
  have precision : IsWord (Nat.toDigits 10 p.toNat ++ [',']) :=
    (Number.isWord_toDigits _).append (by decide)
  have each : ∀ v ∈ [Nat.toDigits 10 p.toNat ++ [','], Nat.toDigits 10 s.toNat], IsWord v := by
    simpa using ⟨precision, Number.isWord_toDigits s.toNat⟩
  have written : (Dialect.withScale name p s).toList = name.toList ++
      '(' :: (spaced [Nat.toDigits 10 p.toNat ++ [','], Nat.toDigits 10 s.toNat] ++ [')']) := by
    simp [Dialect.withScale, spaced, toString]
  rw [parse?_enclosed word plain each written, List.map_cons, List.map_singleton, List.map_append,
    Number.map_toLower_toDigits, Number.map_toLower_toDigits]
  exact ofParameters?_scale base p s

section

variable {n : UInt16} {units : List (List Char)}

/-- A length, with the unit that it may have, is one parameter. -/
theorem params_length (known : units ∈ [[], ["char".toList]]) :
    (Text.splitWhere (· = ',') (spaced (Nat.toDigits 10 n.toNat :: units))).map Text.trim =
      [spaced (Nat.toDigits 10 n.toNat :: units)] := by
  have all : ∀ units ∈ [[], ["char".toList]], ∀ w ∈ units, IsWord w ∧ ',' ∉ w := by decide
  have words : ∀ w ∈ Nat.toDigits 10 n.toNat :: units, IsWord w :=
    List.forall_mem_cons.mpr ⟨Number.isWord_toDigits _, fun w unit => (all units known w unit).1⟩
  have whole : ∀ c ∈ spaced (Nat.toDigits 10 n.toNat :: units), decide (c = ',') = false := by
    intro c member
    rcases Text.mem_spaced member with rfl | ⟨w, word, here⟩
    · decide
    · rcases List.mem_cons.mp word with rfl | unit
      · exact comma_notMem_toDigits here
      · rw [decide_eq_false_iff_not]
        rintro rfl
        exact (all units known w unit).2 here
  rw [Text.splitWhere_of_none whole, List.map_singleton, Text.trim_spaced words]

private theorem length?_units (known : units ∈ [[], ["char".toList]]) :
    length? (spaced (Nat.toDigits 10 n.toNat :: units)) = some n := by
  have all : ∀ units ∈ [[], ["char".toList]], ∀ w ∈ units, IsWord w := by decide
  exact length?_spaced n (all units known)

private theorem ofParameters?_char {base : String} (family : base ∈ ["char", "nchar"])
    (known : units ∈ [[], ["char".toList]]) :
    ofParameters? base (spaced (Nat.toDigits 10 n.toNat :: units)) = some (char n) := by
  simp only [List.mem_cons, List.not_mem_nil, or_false] at family
  rcases family with
    rfl | rfl <;> simp only [ofParameters?, params_length known, length?_units known] <;> rfl

private theorem ofParameters?_varchar {base : String}
    (family : base ∈ ["varchar", "nvarchar", "varchar2", "string"])
    (known : units ∈ [[], ["char".toList]]) :
    ofParameters? base (spaced (Nat.toDigits 10 n.toNat :: units)) = some (varchar n) := by
  -- A number is not the word for the largest length.
  have bounded : (spaced (Nat.toDigits 10 n.toNat :: units)).map Char.toLower ≠
      ['m', 'a', 'x'] := by
    intro same
    have first := congrArg List.head? same
    rw [Text.map_spaced (by decide), List.map_cons, Number.map_toLower_toDigits,
      Text.head?_spaced Nat.toDigits_ne_nil] at first
    have digit := Nat.isDigit_of_mem_toDigits (by decide) (by decide) (List.mem_of_head? first)
    cases digit
  simp only [List.mem_cons, List.not_mem_nil, or_false] at family
  rcases family with rfl | rfl | rfl | rfl <;>
    simp only [ofParameters?, params_length known, length?_units known, if_neg bounded] <;> rfl

end

section

variable {n : UInt16} {name text : String} {units : List (List Char)}

/-- What a name with a length, and perhaps the unit of it, is read by. -/
theorem parse?_length
    (family : name ∈ ["CHAR", "NCHAR", "VARCHAR", "NVARCHAR", "VARCHAR2", "STRING"])
    (known : units ∈ [[], ["CHAR".toList]])
    (written : text.toList =
      name.toList ++ '(' :: (spaced (Nat.toDigits 10 n.toNat :: units) ++ [')'])) :
    parse? text = ofParameters? (Text.asciiLower name)
      (spaced (Nat.toDigits 10 n.toNat :: units.map (List.map Char.toLower))) := by
  have names : ∀ name ∈ ["CHAR", "NCHAR", "VARCHAR", "NVARCHAR", "VARCHAR2", "STRING"],
      IsWord name.toList ∧ '(' ∉ name.toList.map Char.toLower := by decide
  have all : ∀ units ∈ [[], ["CHAR".toList]], ∀ w ∈ units, IsWord w := by decide
  obtain ⟨word, plain⟩ := names name family
  have each : ∀ v ∈ Nat.toDigits 10 n.toNat :: units, IsWord v :=
    List.forall_mem_cons.mpr ⟨Number.isWord_toDigits _, all units known⟩
  rw [parse?_enclosed word plain each written, List.map_cons, Number.map_toLower_toDigits]

/-- The names of fixed texts with a length are read as fixed texts of this length. -/
theorem parse?_char (family : name ∈ ["CHAR", "NCHAR"]) (known : units ∈ [[], ["CHAR".toList]])
    (written : text.toList = name.toList ++
      '(' :: (spaced (Nat.toDigits 10 n.toNat :: units) ++ [')'])) :
    parse? text = some (char n) := by
  have names : ∀ name ∈ ["CHAR", "NCHAR"],
      name ∈ ["CHAR", "NCHAR", "VARCHAR", "NVARCHAR", "VARCHAR2", "STRING"] ∧
        Text.asciiLower name ∈ ["char", "nchar"] := by decide
  have small : ∀ units ∈ [[], ["CHAR".toList]],
      units.map (List.map Char.toLower) ∈ [[], ["char".toList]] := by
    decide
  rw [parse?_length (names name family).1 known written]
  exact ofParameters?_char (names name family).2 (small units known)

/-- The names of texts with a length are read as texts of this length. -/
theorem parse?_varchar (family : name ∈ ["VARCHAR", "NVARCHAR", "VARCHAR2", "STRING"])
    (known : units ∈ [[], ["CHAR".toList]])
    (written : text.toList =
      name.toList ++ '(' :: (spaced (Nat.toDigits 10 n.toNat :: units) ++ [')'])) :
    parse? text = some (varchar n) := by
  have names : ∀ name ∈ ["VARCHAR", "NVARCHAR", "VARCHAR2", "STRING"],
      name ∈ ["CHAR", "NCHAR", "VARCHAR", "NVARCHAR", "VARCHAR2", "STRING"] ∧
        Text.asciiLower name ∈ ["varchar", "nvarchar", "varchar2", "string"] := by decide
  have small : ∀ units ∈ [[], ["CHAR".toList]],
      units.map (List.map Char.toLower) ∈ [[], ["char".toList]] := by
    decide
  rw [parse?_length (names name family).1 known written]
  exact ofParameters?_varchar (names name family).2 (small units known)

end

theorem toList_withLength (name : String) (n : UInt16) :
    (Dialect.withLength name n).toList =
      name.toList ++ '(' :: (spaced [Nat.toDigits 10 n.toNat] ++ [')']) := by
  simp [Dialect.withLength, spaced, toString]

/-! ### What dialects write

A column is created with the name that the dialect has for its type. Read back, this name gives a
type that the dialect writes in the same way. -/

/-- What a dialect calls a decimal is read as that decimal. -/
theorem parse?_columnType_decimal (dialect : Dialect) (p s : UInt8) :
    parse? (dialect.columnType (decimal p s)) = some (decimal p s) := by
  cases dialect with
  | bigquery =>
    simp only [Dialect.columnType, Dialect.bigqueryType]
    split
    · exact parse?_withScale (by decide) p s
    · exact parse?_withScale (by decide) p s
  | _ => exact parse?_withScale (by decide) p s

private theorem parse?_STRING : parse? "STRING" = some string := by decide +kernel

/-- What a dialect calls a text of fixed length is read as that or, if the dialect has no such
texts, as a text that it calls the same. -/
theorem exists_parse?_columnType_char (dialect : Dialect) (n : UInt16) :
    ∃ t, parse? (dialect.columnType (char n)) = some t ∧
      dialect.columnType t = dialect.columnType (char n) := by
  cases dialect with
  | bigquery | databricks => exact ⟨string, parse?_STRING, rfl⟩
  | oracle =>
    have written : (Dialect.oracle.columnType (char n)).toList =
        "CHAR".toList ++ '(' :: (spaced [Nat.toDigits 10 n.toNat, "CHAR".toList] ++ [')']) := by
      simp [Dialect.columnType, Dialect.oracleType, spaced, toString]
    exact ⟨char n, parse?_char (by decide) (by decide) written, rfl⟩
  | _ => exact ⟨char n, parse?_char (by decide) (by decide) (toList_withLength _ n), rfl⟩

/-- The same for texts of varying length. -/
theorem exists_parse?_columnType_varchar (dialect : Dialect) (n : UInt16) :
    ∃ t, parse? (dialect.columnType (varchar n)) = some t ∧
      dialect.columnType t = dialect.columnType (varchar n) := by
  cases dialect with
  | databricks => exact ⟨string, parse?_STRING, rfl⟩
  | oracle =>
    have written : (Dialect.oracle.columnType (varchar n)).toList =
        "VARCHAR2".toList ++ '(' :: (spaced [Nat.toDigits 10 n.toNat, "CHAR".toList] ++ [')']) := by
      simp [Dialect.columnType, Dialect.oracleType, spaced, toString]
    exact ⟨varchar n, parse?_varchar (by decide) (by decide) written, rfl⟩
  | _ => exact ⟨varchar n, parse?_varchar (by decide) (by decide) (toList_withLength _ n), rfl⟩

end Sql.DataType

end Warehouse
