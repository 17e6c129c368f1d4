/-
Module: Warehouse.Proofs.Load.FilterTokens
Purpose: The rules by which a filter is cut into tokens, apart from the functions that cut it: what
  a token looks like, and behind what texts it ends where it does. A text is cut by these rules in
  exactly one way, and that is the way in which it is cut. A part of the tokens of a text is cut
  from its own text as it was in the whole.
Trusted boundary: none
Main exports: Quotable, QuoteEnds, BracesClose, FilterToken.Stands, StandInLine,
  filterTokens_eq_iff, StandInLine.of_isInfix
-/
import Mathlib.Data.List.TakeWhile
import Warehouse.Load.Filter
import Warehouse.Proofs.Text.Blanks

namespace Warehouse

/-! ### Strings and placeholders

A string in quotes goes on to the first quote that is not doubled, and a placeholder to the first
two closing braces before the end of the line. Either may not come to an end, and then its first
character stands for itself. -/

/-- What may stand between the quotes of a string: quotes only in pairs. -/
inductive Quotable : List Char → Prop where
  | nil : Quotable []
  | plain {c : Char} {s : List Char} (other : c ≠ '\'') (rest : Quotable s) : Quotable (c :: s)
  | pair {s : List Char} (rest : Quotable s) : Quotable ('\'' :: '\'' :: s)

/-- Whether a quote can close a string in front of that text: the text does not begin with a second
quote, or no other quote is left to close the string. -/
def QuoteEnds (rest : List Char) : Prop := ∀ after, rest = '\'' :: after → '\'' ∉ after

/-- Whether two closing braces stand somewhere in the first line of a text. -/
def BracesClose (s : List Char) : Prop :=
  ∃ inside after, s = inside ++ '}' :: '}' :: after ∧ '\n' ∉ inside

private theorem throughQuote?_eq_none_iff {s : List Char} : throughQuote? s = none ↔ '\'' ∉ s := by
  fun_induction throughQuote? s with
  | case1 => simp
  | case2 => simp
  | case3 rest body closed ih => simp
  | case4 rest open_ ih => simp
  | case5 rest _ _ => simp
  | case6 c rest _ _ other ih => simp [ih, Ne.symm other]

private theorem throughQuote?_of_quoteEnds {rest : List Char} (ends : QuoteEnds rest) :
    throughQuote? ('\'' :: rest) = some ['\''] := by
  rcases rest with _ | ⟨c, after⟩
  · rfl
  · by_cases second : c = '\''
    · subst second
      rw [throughQuote?, throughQuote?_eq_none_iff.mpr (ends after rfl)]
    · rw [throughQuote?.eq_4 _ _ (by simp) (by simpa using second)]
      rfl

private theorem throughQuote?_of_quotable {inside rest : List Char} (quotable : Quotable inside)
    (ends : QuoteEnds rest) : throughQuote? (inside ++ '\'' :: rest) = some (inside ++ ['\'']) := by
  induction quotable with
  | nil => exact throughQuote?_of_quoteEnds ends
  | @plain c s other _ ih =>
    rw [List.cons_append, throughQuote?.eq_4 _ _ (by simp) (fun _ same => absurd same other),
      if_neg other, ih]
    rfl
  | @pair s _ ih =>
    rw [List.cons_append, List.cons_append, throughQuote?, ih]
    rfl

/-- A string ends at the last quote that can close it. -/
theorem throughQuote?_eq_some_iff {s body : List Char} : throughQuote? s = some body ↔
    ∃ inside rest, body = inside ++ ['\''] ∧ s = inside ++ '\'' :: rest ∧ Quotable inside ∧
      QuoteEnds rest := by
  constructor
  · intro closed
    fun_induction throughQuote? s generalizing body with
    | case1 => cases closed
    | case2 =>
      cases closed
      exact ⟨[], [], rfl, rfl, .nil, by simp [QuoteEnds]⟩
    | case3 rest body' inner ih =>
      cases closed
      obtain ⟨inside, after, rfl, rfl, quotable, ends⟩ := ih inner
      exact ⟨'\'' :: '\'' :: inside, after, rfl, rfl, .pair quotable, ends⟩
    | case4 rest unclosed ih =>
      cases closed
      refine ⟨[], '\'' :: rest, rfl, rfl, .nil, fun after same => ?_⟩
      cases same
      exact throughQuote?_eq_none_iff.mp unclosed
    | case5 rest _ alone =>
      cases closed
      exact ⟨[], rest, rfl, rfl, .nil, fun after same => (alone after rfl same).elim⟩
    | case6 c rest _ _ other ih =>
      obtain ⟨body', inner, rfl⟩ := Option.map_eq_some_iff.mp closed
      obtain ⟨inside, after, rfl, rfl, quotable, ends⟩ := ih inner
      exact ⟨c :: inside, after, rfl, rfl, .plain other quotable, ends⟩
  · rintro ⟨inside, rest, rfl, rfl, quotable, ends⟩
    exact throughQuote?_of_quotable quotable ends

/-- Braces close in a text if they do at its beginning, or behind a first character that ends no
line. -/
theorem bracesClose_cons_iff {c : Char} {s : List Char} :
    BracesClose (c :: s) ↔ (c = '}' ∧ s.head? = some '}') ∨ (c ≠ '\n' ∧ BracesClose s) := by
  constructor
  · rintro ⟨inside, after, same, line⟩
    cases inside with
    | nil =>
      cases same
      exact .inl ⟨rfl, rfl⟩
    | cons c' inside =>
      obtain ⟨rfl, rfl⟩ := List.cons.inj same
      obtain ⟨first, others⟩ := not_or.mp (mt List.mem_cons.mpr line)
      exact .inr ⟨Ne.symm first, inside, after, rfl, others⟩
  · rintro (⟨rfl, next⟩ | ⟨other, inside, after, rfl, line⟩)
    · obtain ⟨after, rfl⟩ := List.head?_eq_some_iff.mp next
      exact ⟨[], after, rfl, by simp⟩
    · exact ⟨c :: inside, after, rfl, by simp [line, other.symm]⟩

private theorem throughBraces?_eq_none_iff {s : List Char} : throughBraces? s = none ↔
    ¬ BracesClose s := by
  fun_induction throughBraces? s with
  | case1 => simp [BracesClose]
  | case2 rest => simp [bracesClose_cons_iff]
  | case3 rest _ => simp [bracesClose_cons_iff]
  | case4 c rest apart other ih =>
    have later : ¬ (c = '}' ∧ rest.head? = some '}') := by
      rintro ⟨rfl, next⟩
      obtain ⟨after, rfl⟩ := List.head?_eq_some_iff.mp next
      exact apart after rfl rfl
    rw [Option.map_eq_none_iff, ih, bracesClose_cons_iff]
    simp [later, other]

/-- A placeholder ends at the first two closing braces. -/
theorem throughBraces?_eq_some_iff {s body : List Char} : throughBraces? s = some body ↔
    ∃ inside rest, body = inside ++ ['}', '}'] ∧ s = inside ++ '}' :: '}' :: rest ∧ '\n' ∉ inside ∧
      ¬ ['}', '}'] <:+: inside ++ ['}'] := by
  constructor
  · intro closed
    fun_induction throughBraces? s generalizing body with
    | case1 => cases closed
    | case2 rest =>
      cases closed
      exact ⟨[], rest, rfl, rfl, by simp, by simp [List.infix_cons_iff]⟩
    | case3 => cases closed
    | case4 c rest apart other ih =>
      obtain ⟨body', inner, rfl⟩ := Option.map_eq_some_iff.mp closed
      obtain ⟨inside, after, rfl, rfl, line, first⟩ := ih inner
      refine ⟨c :: inside, after, rfl, rfl, by simp [line, Ne.symm other], ?_⟩
      rw [List.cons_append, List.infix_cons_iff]
      rintro (⟨tail, here⟩ | later)
      · obtain ⟨rfl, next⟩ := List.cons.inj here
        cases inside with
        | nil => exact apart _ rfl rfl
        | cons c' inside =>
          obtain ⟨rfl, _⟩ := List.cons.inj next
          exact apart _ rfl rfl
      · exact first later
  · rintro ⟨inside, rest, rfl, rfl, line, first⟩
    induction inside with
    | nil => rfl
    | cons c inside ih =>
      obtain ⟨other, line⟩ := not_or.mp (mt List.mem_cons.mpr line)
      rw [List.cons_append, List.infix_cons_iff, not_or] at first
      have apart : ∀ after, c = '}' → inside ++ '}' :: '}' :: rest = '}' :: after → False := by
        rintro after rfl next
        refine first.1 ?_
        cases inside with
        | nil => exact ⟨[], rfl⟩
        | cons c' inside =>
          obtain ⟨rfl, _⟩ := List.cons.inj next
          exact ⟨inside ++ ['}'], rfl⟩
      rw [List.cons_append, throughBraces?.eq_3 _ _ apart, if_neg (Ne.symm other), ih line first.2]
      rfl

/-! ### Tokens -/

/-- The rules of the tokens: whether a token is the first one of a text that begins with its
characters and goes on with `rest`. -/
inductive FilterToken.Stands : FilterToken → List Char → Prop where
  | placeholder {inside rest : List Char} (line : '\n' ∉ inside)
    (first : ¬ ['}', '}'] <:+: inside ++ ['}']) :
      Stands (.placeholder ('{' :: '{' :: (inside ++ ['}', '}']))) rest
  | string {inside rest : List Char} (quotable : Quotable inside) (ends : QuoteEnds rest) :
      Stands (.string ('\'' :: (inside ++ ['\'']))) rest
  | word {c : Char} {name rest : List Char} (start : isWordStart c = true)
    (chars : ∀ x ∈ name, isWordChar x = true)
      (ends : ∀ x ∈ rest.head?, isWordChar x = false) : Stands (.word (c :: name)) rest
  | blank {c : Char} {others rest : List Char} (start : Text.isBlank c = true)
      (chars : ∀ x ∈ others, Text.isBlank x = true)
      (ends : ∀ x ∈ rest.head?, Text.isBlank x = false) : Stands (.blank (c :: others)) rest
  | other {c : Char} {rest : List Char} (noWord : isWordStart c = false)
    (noBlank : Text.isBlank c = false)
      (noString : c = '\'' → '\'' ∉ rest)
      (noPlaceholder : ∀ after, c = '{' → rest = '{' :: after → ¬ BracesClose after) :
      Stands (.other c) rest

/-- What begins a word may also stand inside of it. -/
theorem isWordChar_of_isWordStart {c : Char} (start : isWordStart c = true) :
    isWordChar c = true := by
  simp only [isWordStart, isWordChar, Char.isAlphanum, Bool.or_eq_true] at start ⊢
  exact start.imp_left .inl

/-- No character of a word is a blank. -/
theorem isBlank_eq_false_of_isWordChar {c : Char} (named : isWordChar c = true) :
    Text.isBlank c = false :=
  Text.isBlank_eq_false_of_nameChar named

theorem isWordChar_eq_false_of_isBlank {c : Char} (blank : Text.isBlank c = true) :
    isWordChar c = false := by
  by_contra named
  rw [isBlank_eq_false_of_isWordChar (by simpa using named)] at blank
  cases blank

private theorem isWordStart_eq_false_of_isBlank {c : Char} (blank : Text.isBlank c = true) :
    isWordStart c = false := by
  by_contra start
  have named := isWordChar_of_isWordStart (by simpa using start)
  rw [isWordChar_eq_false_of_isBlank blank] at named
  cases named

section

variable {c : Char} {rest : List Char} {t : FilterToken}

private theorem placeholderToken?_eq_none_iff : placeholderToken? (c :: rest) = none ↔
    ∀ after, c = '{' → rest = '{' :: after → ¬ BracesClose after := by
  rw [placeholderToken?.eq_def]
  split
  · next after same =>
    obtain ⟨rfl, rfl⟩ := List.cons.inj same
    rw [Option.map_eq_none_iff, throughBraces?_eq_none_iff]
    constructor
    · intro unclosed after' _ same'
      cases same'
      exact unclosed
    · intro unclosed
      exact unclosed after rfl rfl
  · next apart =>
    refine iff_of_true rfl ?_
    rintro after rfl rfl
    exact (apart after rfl).elim

private theorem stringToken?_eq_none_iff : stringToken? (c :: rest) = none ↔
    (c = '\'' → '\'' ∉ rest) := by
  rw [stringToken?.eq_def]
  split
  · next same =>
    obtain ⟨rfl, rfl⟩ := List.cons.inj same
    rw [Option.map_eq_none_iff, throughQuote?_eq_none_iff]
    exact ⟨fun unclosed _ => unclosed, fun unclosed => unclosed rfl⟩
  · next apart =>
    refine iff_of_true rfl ?_
    rintro rfl
    exact (apart rest rfl).elim

/-- Where neither a placeholder nor a string begins, the first character says what the first token
is. -/
theorem firstToken_of_plain (noString : c = '\'' → '\'' ∉ rest)
    (noPlaceholder : ∀ after, c = '{' → rest = '{' :: after → ¬ BracesClose after) :
    firstToken c rest =
      if isWordStart c then .word (c :: rest.takeWhile isWordChar)
      else if Text.isBlank c then .blank (c :: rest.takeWhile Text.isBlank)
      else .other c := by
  rw [firstToken, placeholderToken?_eq_none_iff.mpr noPlaceholder,
    stringToken?_eq_none_iff.mpr noString]
  rfl

/-- A token that stands in front of the rest of a text is the one that the text begins with. -/
theorem firstToken_of_stands {after : List Char} (stands : t.Stands after)
    (same : c :: rest = t.source ++ after) : firstToken c rest = t := by
  cases stands with
  | @placeholder inside _ line first =>
    have found := throughBraces?_eq_some_iff.mpr ⟨inside, after, rfl, rfl, line, first⟩
    simp only [FilterToken.source, List.cons_append, List.append_assoc, List.nil_append,
      List.cons.injEq] at same
    obtain ⟨rfl, rfl⟩ := same
    rw [firstToken, placeholderToken?, found]
    rfl
  | @string inside _ quotable ends =>
    have found := throughQuote?_eq_some_iff.mpr ⟨inside, after, rfl, rfl, quotable, ends⟩
    simp only [FilterToken.source, List.cons_append, List.append_assoc, List.nil_append,
      List.cons.injEq] at same
    obtain ⟨rfl, rfl⟩ := same
    rw [firstToken, placeholderToken?_eq_none_iff.mpr fun _ brace => absurd brace (by decide),
      stringToken?, found]
    rfl
  | @word c' name _ start chars ends =>
    simp only [FilterToken.source, List.cons_append, List.cons.injEq] at same
    obtain ⟨rfl, rfl⟩ := same
    have noQuote : c ≠ '\'' := by rintro rfl; cases start
    have noBrace : c ≠ '{' := by rintro rfl; cases start
    rw [firstToken_of_plain (fun quote => absurd quote noQuote)
      (fun _ brace => absurd brace noBrace), if_pos start, takeWhile_append_of_ends chars ends]
  | @blank c' others _ start chars ends =>
    simp only [FilterToken.source, List.cons_append, List.cons.injEq] at same
    obtain ⟨rfl, rfl⟩ := same
    have noQuote : c ≠ '\'' := by rintro rfl; cases start
    have noBrace : c ≠ '{' := by rintro rfl; cases start
    rw [firstToken_of_plain (fun quote => absurd quote noQuote)
      (fun _ brace => absurd brace noBrace),
      if_neg (by simp [isWordStart_eq_false_of_isBlank start]), if_pos start,
      takeWhile_append_of_ends chars ends]
  | @other c' _ noWord noBlank noString noPlaceholder =>
    simp only [FilterToken.source, List.cons_append, List.nil_append, List.cons.injEq] at same
    obtain ⟨rfl, rfl⟩ := same
    rw [firstToken_of_plain noString noPlaceholder]
    simp [noWord, noBlank]

/-- The token that a text begins with stands in front of what follows. -/
theorem exists_stands_firstToken (c : Char) (rest : List Char) :
    ∃ after, c :: rest = (firstToken c rest).source ++ after ∧
      (firstToken c rest).Stands after := by
  cases placeholder : placeholderToken? (c :: rest) with
  | some t =>
    rw [firstToken, placeholder]
    rw [placeholderToken?.eq_def] at placeholder
    split at placeholder
    · next after same =>
      obtain ⟨body, found, rfl⟩ := Option.map_eq_some_iff.mp placeholder
      obtain ⟨inside, after, rfl, rfl, line, first⟩ := throughBraces?_eq_some_iff.mp found
      exact ⟨after, by rw [same]; simp [FilterToken.source], .placeholder line first⟩
    · cases placeholder
  | none =>
    cases string : stringToken? (c :: rest) with
    | some t =>
      rw [firstToken, placeholder, string]
      rw [stringToken?.eq_def] at string
      split at string
      · next after same =>
        obtain ⟨body, found, rfl⟩ := Option.map_eq_some_iff.mp string
        obtain ⟨inside, after, rfl, rfl, quotable, ends⟩ := throughQuote?_eq_some_iff.mp found
        exact ⟨after, by rw [same]; simp [FilterToken.source], .string quotable ends⟩
      · cases string
    | none =>
      have noPlaceholder := placeholderToken?_eq_none_iff.mp placeholder
      have noString := stringToken?_eq_none_iff.mp string
      rw [firstToken_of_plain noString noPlaceholder]
      split
      · next start =>
        refine ⟨rest.dropWhile isWordChar, by simp [FilterToken.source], .word start ?_ ?_⟩
        · exact fun x member => List.mem_takeWhile_imp member
        · exact head?_dropWhile_eq_false _ _
      · next noWord =>
        split
        · next start =>
          refine ⟨rest.dropWhile Text.isBlank, by simp [FilterToken.source], .blank start ?_ ?_⟩
          · exact fun x member => List.mem_takeWhile_imp member
          · exact head?_dropWhile_eq_false _ _
        · next noBlank =>
          exact ⟨rest, rfl,
            .other (by simpa using noWord) (by simpa using noBlank) noString noPlaceholder⟩

end

/-! ### Texts -/

/-- The characters that tokens were cut from. -/
def sourceOf (ts : List FilterToken) : List Char := ts.flatMap FilterToken.source

@[simp] theorem sourceOf_nil : sourceOf [] = [] := rfl

@[simp] theorem sourceOf_cons (t : FilterToken) (ts : List FilterToken) :
    sourceOf (t :: ts) = t.source ++ sourceOf ts := List.flatMap_cons

@[simp] theorem sourceOf_append (ts us : List FilterToken) :
    sourceOf (ts ++ us) = sourceOf ts ++ sourceOf us :=
  List.flatMap_append

/-- Whether tokens stand one behind the other, each in front of what the others were cut from. They
are what their text is cut into. -/
def StandInLine : List FilterToken → Prop
  | [] => True
  | t :: ts => t.Stands (sourceOf ts) ∧ StandInLine ts

/-- A token is never empty. -/
theorem FilterToken.Stands.source_ne_nil {t : FilterToken} {rest : List Char}
    (stands : t.Stands rest) : t.source ≠ [] := by
  cases stands <;> simp [source]

private theorem filterTokensFrom_length (s rest : List Char) :
    filterTokensFrom s.length (s ++ rest) = filterTokens rest := by
  induction s with
  | nil => rfl
  | cons c s ih => exact ih

/-- A text that begins with a token is cut behind it. -/
theorem filterTokens_of_stands {t : FilterToken} {rest : List Char} (stands : t.Stands rest) :
    filterTokens (t.source ++ rest) = t :: filterTokens rest := by
  obtain ⟨c, s, source⟩ := List.exists_cons_of_ne_nil stands.source_ne_nil
  have first : firstToken c (s ++ rest) = t :=
    firstToken_of_stands stands (by rw [source, List.cons_append])
  rw [source, List.cons_append, filterTokens, filterTokensFrom, first, source]
  exact congrArg (t :: ·) (filterTokensFrom_length s rest)

/-- Tokens that stand in line are what their text is cut into. -/
theorem StandInLine.filterTokens {ts : List FilterToken} (line : StandInLine ts) :
    filterTokens (sourceOf ts) = ts := by
  induction ts with
  | nil => rfl
  | cons t ts ih => rw [sourceOf_cons, filterTokens_of_stands line.1, ih line.2]

/-- A text is cut into tokens that stand in line, and no character is lost. -/
theorem filterTokens_spec (s : List Char) :
    sourceOf (filterTokens s) = s ∧ StandInLine (filterTokens s) := by
  induction length : s.length using Nat.strong_induction_on generalizing s with
  | _ n ih =>
    cases s with
    | nil => exact ⟨rfl, trivial⟩
    | cons c rest =>
      obtain ⟨after, same, stands⟩ := exists_stands_firstToken c rest
      have shorter : after.length < n := by
        have filled := List.length_pos_of_ne_nil stands.source_ne_nil
        rw [← length, same, List.length_append]
        omega
      obtain ⟨whole, line⟩ := ih _ shorter after rfl
      rw [same, filterTokens_of_stands stands]
      exact ⟨by rw [sourceOf_cons, whole], by rwa [whole], line⟩

/-- The tokens of a text are the only ones with that text that stand in line. -/
theorem filterTokens_eq_iff {s : List Char} {ts : List FilterToken} :
    filterTokens s = ts ↔ sourceOf ts = s ∧ StandInLine ts := by
  constructor
  · rintro rfl
    exact filterTokens_spec s
  · rintro ⟨rfl, line⟩
    exact line.filterTokens

/-- A token that stands in front of a text stands in front of any beginning of it. -/
theorem FilterToken.Stands.of_append {t : FilterToken} {rest rest' : List Char}
    (stands : t.Stands (rest ++ rest')) : t.Stands rest := by
  have ends {p : Char → Bool} (whole : ∀ x ∈ (rest ++ rest').head?, p x = false) :
      ∀ x ∈ rest.head?, p x = false := by
    cases rest with
    | nil => simp
    | cons c rest => exact whole
  generalize whole : rest ++ rest' = s at stands
  cases stands with
  | placeholder line first => exact .placeholder line first
  | string quotable last =>
    refine .string quotable fun after same found =>
      last (after ++ rest') ?_ (List.mem_append_left _ found)
    rw [← whole, same, List.cons_append]
  | word start chars last => exact .word start chars (ends (whole ▸ last))
  | blank start chars last => exact .blank start chars (ends (whole ▸ last))
  | other noWord noBlank noString noPlaceholder =>
    subst whole
    refine .other noWord noBlank
      (fun quote found => noString quote (List.mem_append_left _ found)) ?_
    rintro after brace rfl ⟨inside, after', rfl, line⟩
    exact noPlaceholder _ brace rfl ⟨inside, after' ++ rest', by simp, line⟩

/-- Tokens that stand in a line do so without those behind. -/
theorem StandInLine.left {ts us : List FilterToken} (line : StandInLine (ts ++ us)) :
    StandInLine ts := by
  induction ts with
  | nil => trivial
  | cons t ts ih =>
    rw [List.cons_append] at line
    obtain ⟨stands, line⟩ := line
    rw [sourceOf_append] at stands
    exact ⟨stands.of_append, ih line⟩

/-- They also do so without those in front. -/
theorem StandInLine.right {ts us : List FilterToken} (line : StandInLine (ts ++ us)) :
    StandInLine us := by
  induction ts with
  | nil => exact line
  | cons t ts ih => exact ih line.2

/-- A part of tokens that stand in line does so too. -/
theorem StandInLine.of_isInfix {ts us : List FilterToken} (line : StandInLine ts)
    (part : us <:+: ts) :
    StandInLine us := by
  obtain ⟨before, after, rfl⟩ := part
  exact line.left.right

end Warehouse
