/-
Module: Warehouse.Proofs.Load.RetargetedFilter
Purpose: A filter that is carried over to other columns keeps its tokens. Names change for names and
  runs of blanks for spaces, so no quote and no brace comes to stand beside another, and whatever a
  token has to know of the text behind it stays so. Cut again, the result has the tokens of the
  filter, each in the place where it was.
Trusted boundary: none
Main exports: FilterToken.isUnfed, FilterToken.retargeted, trimmedTokens, Alike,
  StandInLine.retargeted, trim_sourceOf, retargetFilter_spec
-/
import Warehouse.Proofs.Load.FilterTokens

namespace Warehouse

/-! ### What becomes of tokens

A name that the lineage knows is replaced by the column that it feeds. A name of a column that feeds
nothing is an error, and every other token stays as it is. -/

namespace FilterToken

/-- The name of a word in the form in which columns are looked up. -/
def lookupName (s : List Char) : String := String.ofList (s.map Char.toLower)

/-- Whether a token names an input column that feeds nothing. -/
def isUnfed (lineage : List (String × String)) (inputColumns : List String) : FilterToken → Bool
  | word s => (lookupLast lineage (lookupName s)).isNone && inputColumns.contains (lookupName s)
  | _ => false

/-- What a token becomes: a name that is fed its target, a run of blanks one space. -/
def retargeted (lineage : List (String × String)) : FilterToken → FilterToken
  | word s => word ((lookupLast lineage (lookupName s)).elim s String.toList)
  | blank _ => blank [' ']
  | t => t

/-- Whether a token is a run of blanks. -/
def isBlankRun : FilterToken → Bool
  | blank _ => true
  | _ => false

end FilterToken

/-- The tokens without runs of blanks at either end. -/
def trimmedTokens (ts : List FilterToken) : List FilterToken :=
  ((ts.dropWhile FilterToken.isBlankRun).reverse.dropWhile FilterToken.isBlankRun).reverse

/-- A plain name: a letter or an underscore, and then letters, digits and underscores. -/
def IsPlainName (s : List Char) : Prop :=
  ∃ c rest, s = c :: rest ∧ isWordStart c = true ∧ ∀ x ∈ rest, isWordChar x = true

/-- Whether the columns that a lineage feeds have plain names. -/
def FeedsPlainNames (lineage : List (String × String)) : Prop :=
  ∀ input target, lookupLast lineage input = some target → IsPlainName target.toList

variable {lineage : List (String × String)} {inputColumns : List String}

private theorem retargetToken_eq (t : FilterToken) : retargetToken lineage inputColumns t =
    if t.isUnfed lineage inputColumns then .error (String.ofList t.source)
    else .ok (t.retargeted lineage).source := by
  cases t with
  | word s =>
    rw [retargetToken, FilterToken.isUnfed, FilterToken.retargeted, FilterToken.lookupName]
    cases lookupLast lineage (String.ofList (s.map Char.toLower)) with
    | some target => rfl
    | none => rfl
  | _ => rfl

/-- The first name that is fed by nothing is the error; without one, each token becomes another. -/
theorem retargetTokens_eq (ts : List FilterToken) : retargetTokens lineage inputColumns ts =
    match ts.find? (·.isUnfed lineage inputColumns) with
    | some t => .error (String.ofList t.source)
    | none => .ok (sourceOf (ts.map (·.retargeted lineage))) := by
  induction ts with
  | nil => rfl
  | cons t ts ih =>
    rw [retargetTokens, retargetToken_eq, ih, List.find?_cons]
    cases unfed : t.isUnfed lineage inputColumns with
    | true => rfl
    | false =>
      cases ts.find? (·.isUnfed lineage inputColumns) with
      | some t' => rfl
      | none => rfl

/-! ### Texts that are alike

To see that a retargeted text is cut into the same tokens, both texts are gone through together.
They are alike if they differ in plain characters only, of which no token begins or ends anything
else. -/

/-- A character that is no mark: no quote, no brace and no end of a line. -/
structure IsPlainChar (c : Char) : Prop where
  noQuote : c ≠ '\''
  noOpening : c ≠ '{'
  noClosing : c ≠ '}'
  noLineEnd : c ≠ '\n'

private theorem quote_mem_append_iff {u t : List Char} (plain : ∀ x ∈ u, IsPlainChar x) :
    '\'' ∈ u ++ t ↔ '\'' ∈ t := by
  rw [List.mem_append, or_iff_right fun member => (plain _ member).noQuote rfl]

private theorem bracesClose_append_iff {u t : List Char} (plain : ∀ x ∈ u, IsPlainChar x) :
    BracesClose (u ++ t) ↔ BracesClose t := by
  induction u with
  | nil => rfl
  | cons c u ih =>
    obtain ⟨head, tail⟩ := List.forall_mem_cons.mp plain
    rw [List.cons_append, bracesClose_cons_iff, ih tail]
    simp [head.noClosing, head.noLineEnd]

/-- Texts that differ in runs of plain characters only. The runs are not empty, and they begin with
characters of one kind. -/
inductive Alike : List Char → List Char → Prop where
  | nil : Alike [] []
  | same {c : Char} {s s' : List Char} (rest : Alike s s') : Alike (c :: s) (c :: s')
  | run {c c' : Char} {u u' s s' : List Char} (plain : ∀ x ∈ c :: u, IsPlainChar x)
      (plain' : ∀ x ∈ c' :: u', IsPlainChar x) (named : isWordChar c' = isWordChar c)
      (blank : Text.isBlank c' = Text.isBlank c) (rest : Alike s s') :
      Alike (c :: (u ++ s)) (c' :: (u' ++ s'))

namespace Alike

variable {s s' : List Char}

private theorem refl_append (u : List Char) (rest : Alike s s') : Alike (u ++ s) (u ++ s') := by
  induction u with
  | nil => exact rest
  | cons c u ih => exact .same ih

/-- A word that ends in the one text ends in the other. -/
theorem head_named (alike : Alike s s') (ends : ∀ x ∈ s.head?, isWordChar x = false) :
    ∀ x ∈ s'.head?, isWordChar x = false := by
  cases alike with
  | nil => exact ends
  | same rest => exact ends
  | run _ _ named _ _ => simpa [named] using ends

/-- A run of blanks that ends in the one text ends in the other. -/
theorem head_blank (alike : Alike s s') (ends : ∀ x ∈ s.head?, Text.isBlank x = false) :
    ∀ x ∈ s'.head?, Text.isBlank x = false := by
  cases alike with
  | nil => exact ends
  | same rest => exact ends
  | run _ _ _ blank _ => simpa [blank] using ends

private theorem quote_mem_iff (alike : Alike s s') : '\'' ∈ s' ↔ '\'' ∈ s := by
  induction alike with
  | nil => exact Iff.rfl
  | same _ ih => exact List.mem_cons.trans ((or_congr Iff.rfl ih).trans List.mem_cons.symm)
  | run plain plain' _ _ _ ih =>
    exact (quote_mem_append_iff plain').trans (ih.trans (quote_mem_append_iff plain).symm)

/-- A string that ends in the one text ends in the other. -/
theorem quoteEnds (alike : Alike s s') (ends : QuoteEnds s) : QuoteEnds s' := by
  rintro after rfl found
  cases alike with
  | same rest => exact ends _ rfl (rest.quote_mem_iff.mp found)
  | run _ plain' _ _ _ => exact (plain' _ List.mem_cons_self).noQuote rfl

private theorem head_brace_iff (alike : Alike s s') : s'.head? = some '}' ↔ s.head? = some '}' := by
  cases alike with
  | nil => rfl
  | same _ => rfl
  | run plain plain' _ _ _ =>
    have other := (plain _ List.mem_cons_self).noClosing
    have other' := (plain' _ List.mem_cons_self).noClosing
    simp [other, other']

/-- Braces that close in the one text close in the other. -/
theorem bracesClose_iff (alike : Alike s s') : BracesClose s' ↔ BracesClose s := by
  induction alike with
  | nil => exact Iff.rfl
  | same rest ih =>
    rw [bracesClose_cons_iff, bracesClose_cons_iff, rest.head_brace_iff]
    exact or_congr Iff.rfl (and_congr Iff.rfl ih)
  | run plain plain' _ _ _ ih =>
    exact (bracesClose_append_iff plain').trans (ih.trans (bracesClose_append_iff plain).symm)

end Alike

/-! ### Tokens behind which the text changes -/

private theorem isPlainChar_of_isWordChar {c : Char} (named : isWordChar c = true) :
    IsPlainChar c := by
  refine ⟨?_, ?_, ?_, ?_⟩
  all_goals
    rintro rfl
    cases named

private theorem isPlainChar_of_isBlank {c : Char} (blank : Text.isBlank c = true)
    (line : c ≠ '\n') : IsPlainChar c := by
  refine ⟨?_, ?_, ?_, line⟩
  all_goals
    rintro rfl
    cases blank

/-- All characters of a plain name stand in words. -/
theorem IsPlainName.isWordChar {s : List Char} (plain : IsPlainName s) :
    ∀ x ∈ s, isWordChar x = true := by
  obtain ⟨c, rest, rfl, start, chars⟩ := plain
  exact List.forall_mem_cons.mpr ⟨isWordChar_of_isWordStart start, chars⟩

namespace FilterToken

/-- A name becomes a plain name if those that names are fed to are plain. -/
theorem exists_retargeted_word {c : Char} {name : List Char} (targets : FeedsPlainNames lineage)
    (start : isWordStart c = true) (chars : ∀ x ∈ name, isWordChar x = true) :
    ∃ target, (word (c :: name)).retargeted lineage = word target ∧ IsPlainName target := by
  cases fed : lookupLast lineage (lookupName (c :: name)) with
  | none => exact ⟨c :: name, by rw [retargeted, fed]; rfl, c, name, rfl, start, chars⟩
  | some target => exact ⟨target.toList, by rw [retargeted, fed]; rfl, targets _ _ fed⟩

variable {t : FilterToken} {s s' : List Char}

/-- What a token becomes stands in front of what the text behind it becomes. -/
theorem Stands.retargeted (stands : t.Stands s) (alike : Alike s s')
    (targets : FeedsPlainNames lineage) : (t.retargeted lineage).Stands s' := by
  cases stands with
  | placeholder line first => exact .placeholder line first
  | string quotable ends => exact .string quotable (alike.quoteEnds ends)
  | word start chars ends =>
    obtain ⟨_, same, c, name, rfl, start, chars⟩ := exists_retargeted_word targets start chars
    exact same ▸ .word start chars (alike.head_named ends)
  | blank start chars ends => exact .blank (by decide) (by simp) (alike.head_blank ends)
  | other noWord noBlank noString noPlaceholder =>
    refine .other noWord noBlank (fun quote => mt alike.quote_mem_iff.mp (noString quote)) ?_
    -- A brace that opens nothing still has a brace behind it only if it had one, and no more
    -- closing ones.
    rintro after brace rfl
    cases alike with
    | same rest => exact mt rest.bracesClose_iff.mp (noPlaceholder _ brace rfl)
    | run _ plain' _ _ _ => exact ((plain' _ List.mem_cons_self).noOpening rfl).elim

/-- A token and what it becomes begin texts that are alike. -/
theorem Stands.alike_append (stands : t.Stands s) (line : '\n' ∉ t.source) (rest : Alike s s')
    (targets : FeedsPlainNames lineage) :
    Alike (t.source ++ s) ((t.retargeted lineage).source ++ s') := by
  cases stands with
  | @word c name _ start chars _ =>
    obtain ⟨_, same, plain⟩ := exists_retargeted_word targets start chars
    have named := isWordChar_of_isWordStart start
    have named' := plain.isWordChar
    obtain ⟨c', name', rfl, _, _⟩ := plain
    have first := named' c' List.mem_cons_self
    rw [same]
    refine .run ?_ (fun x member => isPlainChar_of_isWordChar (named' x member))
      (first.trans named.symm) ?_ rest
    · exact List.forall_mem_cons.mpr
        ⟨isPlainChar_of_isWordChar named, fun x m => isPlainChar_of_isWordChar (chars x m)⟩
    · rw [isBlank_eq_false_of_isWordChar first, isBlank_eq_false_of_isWordChar named]
  | @blank c others _ start chars _ =>
    have blank : ∀ x ∈ c :: others, Text.isBlank x = true := List.forall_mem_cons.mpr ⟨start, chars⟩
    change Alike (c :: (others ++ s)) (' ' :: ([] ++ s'))
    refine .run ?_ ?_ ?_ (Eq.symm start) rest
    · exact fun x member => isPlainChar_of_isBlank (blank x member) fun same => line (same ▸ member)
    · exact List.forall_mem_singleton.mpr ⟨by decide, by decide, by decide, by decide⟩
    · rw [isWordChar_eq_false_of_isBlank start]
      rfl
  | placeholder _ _ => exact .refl_append _ rest
  | string _ _ => exact .refl_append _ rest
  | other _ _ _ _ => exact .refl_append _ rest

end FilterToken

namespace StandInLine

variable {ts : List FilterToken}

/-- A retargeted text in one line is like the text that it was made of. -/
theorem alike_retargeted (line : StandInLine ts) (oneLine : '\n' ∉ sourceOf ts)
    (targets : FeedsPlainNames lineage) :
    Alike (sourceOf ts) (sourceOf (ts.map (·.retargeted lineage))) := by
  induction ts with
  | nil => exact .nil
  | cons t ts ih =>
    rw [sourceOf_cons, List.mem_append, not_or] at oneLine
    rw [List.map_cons, sourceOf_cons, sourceOf_cons]
    exact line.1.alike_append oneLine.1 (ih line.2 oneLine.2) targets

/-- What the tokens of a line become stands in line. -/
theorem retargeted (line : StandInLine ts) (oneLine : '\n' ∉ sourceOf ts)
    (targets : FeedsPlainNames lineage) : StandInLine (ts.map (·.retargeted lineage)) := by
  induction ts with
  | nil => trivial
  | cons t ts ih =>
    rw [sourceOf_cons, List.mem_append, not_or] at oneLine
    exact ⟨line.1.retargeted (line.2.alike_retargeted oneLine.2 targets) targets,
      ih line.2 oneLine.2⟩

end StandInLine

/-! ### Blanks at the ends -/

/-- What is dropped from the front of a text that was put together from pieces is pieces. -/
theorem dropWhile_flatMap {α β : Type} {f : α → List β} {p : β → Bool} {q : α → Bool} {xs : List α}
    (dropped : ∀ a ∈ xs, q a = true → ∀ b ∈ f a, p b = true)
    (kept : ∀ a ∈ xs, q a = false → ∃ b ∈ (f a).head?, p b = false) :
    (xs.flatMap f).dropWhile p = (xs.dropWhile q).flatMap f := by
  induction xs with
  | nil => rfl
  | cons a xs ih =>
    obtain ⟨drop, dropped⟩ := List.forall_mem_cons.mp dropped
    obtain ⟨keep, kept⟩ := List.forall_mem_cons.mp kept
    rw [List.flatMap_cons]
    cases here : q a with
    | true =>
      rw [List.dropWhile_append_of_pos (drop here), List.dropWhile_cons_of_pos here,
        ih dropped kept]
    | false =>
      obtain ⟨b, first, stays⟩ := keep here
      obtain ⟨rest, piece⟩ := List.head?_eq_some_iff.mp first
      rw [List.dropWhile_cons_of_neg (by simp [here]), List.flatMap_cons, piece, List.cons_append,
        List.dropWhile_cons_of_neg (by simp [stays])]

namespace FilterToken.Stands

variable {t : FilterToken} {rest : List Char}

/-- A run of blanks holds nothing else. -/
theorem isBlank_of_isBlankRun (stands : t.Stands rest) (run : t.isBlankRun = true) :
    ∀ x ∈ t.source, Text.isBlank x = true := by
  cases stands with
  | blank start chars _ => exact List.forall_mem_cons.mpr ⟨start, chars⟩
  | _ => cases run

/-- A token that is no run of blanks neither begins nor ends with a blank. -/
theorem solid_ends (stands : t.Stands rest) (run : t.isBlankRun = false) :
    (∃ x ∈ t.source.head?, Text.isBlank x = false) ∧ ∃ x ∈ t.source.getLast?,
    Text.isBlank x = false := by
  cases stands with
  | placeholder _ _ =>
    refine ⟨⟨'{', rfl, by decide⟩, '}', ?_, by decide⟩
    simp [source, List.getLast?_cons, List.getLast?_append]
  | string _ _ =>
    refine ⟨⟨'\'', rfl, by decide⟩, '\'', ?_, by decide⟩
    simp [source, List.getLast?_cons, List.getLast?_append]
  | @word c name _ start chars _ =>
    have named : ∀ x ∈ c :: name, isWordChar x = true :=
      List.forall_mem_cons.mpr ⟨isWordChar_of_isWordStart start, chars⟩
    refine ⟨⟨c, rfl, isBlank_eq_false_of_isWordChar (named c List.mem_cons_self)⟩,
      (c :: name).getLast (by simp), List.getLast?_eq_some_getLast _, ?_⟩
    exact isBlank_eq_false_of_isWordChar (named _ (List.getLast_mem _))
  | blank _ _ _ => cases run
  | other _ noBlank _ _ => exact ⟨⟨_, rfl, noBlank⟩, _, rfl, noBlank⟩

end FilterToken.Stands

/-- Each token of a line was read off in front of some rest. -/
theorem StandInLine.exists_stands {ts : List FilterToken} (line : StandInLine ts) {t : FilterToken}
    (member : t ∈ ts) : ∃ rest, t.Stands rest := by
  induction ts with
  | nil => cases member
  | cons t' ts ih =>
    rcases List.mem_cons.mp member with rfl | later
    · exact ⟨_, line.1⟩
    · exact ih line.2 later

private theorem trimmedTokens_isInfix (ts : List FilterToken) : trimmedTokens ts <:+: ts := by
  have start := List.dropWhile_suffix FilterToken.isBlankRun (l := ts)
  refine List.IsInfix.trans (List.IsPrefix.isInfix ?_) start.isInfix
  rw [trimmedTokens, ← List.reverse_suffix, List.reverse_reverse]
  exact List.dropWhile_suffix _

/-- To cut the blanks off the ends of a text is to drop the runs of blanks from the ends of its
tokens. -/
theorem StandInLine.trim_sourceOf {ts : List FilterToken} (line : StandInLine ts) :
    Text.trim (sourceOf ts) = sourceOf (trimmedTokens ts) := by
  have start : (sourceOf ts).dropWhile Text.isBlank =
      sourceOf (ts.dropWhile FilterToken.isBlankRun) := by
    refine dropWhile_flatMap (fun t member => ?_) (fun t member => ?_)
    all_goals obtain ⟨rest, stands⟩ := line.exists_stands member
    · exact stands.isBlank_of_isBlankRun
    · exact fun run => (stands.solid_ends run).1
  have suffix := List.dropWhile_suffix FilterToken.isBlankRun (l := ts)
  rw [Text.trim, Text.trimStart, start, trimmedTokens]
  generalize ts.dropWhile FilterToken.isBlankRun = us at suffix
  have last : (us.reverse.flatMap (List.reverse ∘ FilterToken.source)).dropWhile Text.isBlank =
      (us.reverse.dropWhile FilterToken.isBlankRun).flatMap
        (List.reverse ∘ FilterToken.source) := by
    refine dropWhile_flatMap (fun t member => ?_) (fun t member => ?_)
    all_goals obtain ⟨rest, stands⟩ :=
      line.exists_stands (suffix.subset (List.mem_reverse.mp member))
    · exact fun run x found => stands.isBlank_of_isBlankRun run x (List.mem_reverse.mp found)
    · rw [Function.comp_apply, List.head?_reverse]
      exact fun run => (stands.solid_ends run).2
  rw [Text.trimEnd, sourceOf, List.reverse_flatMap, last, ← List.flatMap_reverse, sourceOf]

/-! ### Filters -/

/-- A filter that does not carry over names an input column that feeds nothing, and the first one is
the error. -/
theorem retargetFilter_eq_error {filter name : String} :
    retargetFilter filter lineage inputColumns = .error name ↔
      (filterTokens filter.toList).find? (·.isUnfed lineage inputColumns) =
        some (.word name.toList) := by
  rw [retargetFilter, retargetTokens_eq]
  cases unfed : (filterTokens filter.toList).find? (·.isUnfed lineage inputColumns) with
  | none =>
    constructor
    · intro error
      cases error
    · intro found
      cases found
  | some t =>
    have here := List.find?_some unfed
    cases t with
    | word s =>
      have spelled : String.ofList s = name ↔ s = name.toList := by
        constructor
        · rintro rfl
          exact String.toList_ofList.symm
        · rintro rfl
          exact String.ofList_toList
      change Except.error (String.ofList s) = Except.error name ↔ _
      simpa using spelled
    | _ => cases here

/-- Of the names that a filter is refused for, the first is the error. -/
theorem retargetFilter_eq_error_iff_split {filter name : String} :
    retargetFilter filter lineage inputColumns = .error name ↔
      ∃ before after, filterTokens filter.toList = before ++ .word name.toList :: after ∧
        (∀ t ∈ before, t.isUnfed lineage inputColumns = false) ∧
        (FilterToken.word name.toList).isUnfed lineage inputColumns = true := by
  rw [retargetFilter_eq_error, List.find?_eq_some_iff_append]
  simp only [Bool.not_eq_true']
  constructor
  · rintro ⟨unfed, before, after, cut, fed⟩
    exact ⟨before, after, cut, fed, unfed⟩
  · rintro ⟨before, after, cut, fed, unfed⟩
    exact ⟨unfed, before, after, cut, fed⟩

/-- Tokens that nothing is refused for become others, each in its place. -/
theorem retargetTokens_of_fed {ts : List FilterToken}
    (fed : ∀ t ∈ ts, t.isUnfed lineage inputColumns = false) :
    retargetTokens lineage inputColumns ts = .ok (sourceOf (ts.map (·.retargeted lineage))) := by
  rw [retargetTokens_eq, List.find?_eq_none.mpr fun t member => by simp [fed t member]]

/-- A filter carries over if nothing in it is refused, and becomes the text of what its tokens
become. -/
theorem retargetFilter_eq_ok {filter out : String} :
    retargetFilter filter lineage inputColumns = .ok out ↔
    (∀ t ∈ filterTokens filter.toList, t.isUnfed lineage inputColumns = false) ∧
      out.toList =
        Text.trim (sourceOf ((filterTokens filter.toList).map (·.retargeted lineage))) := by
  constructor
  · intro made
    have fed : ∀ t ∈ filterTokens filter.toList, t.isUnfed lineage inputColumns = false := by
      cases unfed : (filterTokens filter.toList).find? (·.isUnfed lineage inputColumns) with
      | none => simpa using List.find?_eq_none.mp unfed
      | some t =>
        rw [retargetFilter, retargetTokens_eq, unfed] at made
        cases made
    rw [retargetFilter, retargetTokens_of_fed fed] at made
    cases made
    exact ⟨fed, String.toList_ofList⟩
  · rintro ⟨fed, same⟩
    rw [retargetFilter, retargetTokens_of_fed fed, ← String.ofList_toList (s := out), same]
    rfl

/-- A filter on input columns carries over unless it names one that feeds nothing, and then the
first of these is the error. Cut into tokens, what it becomes has what its tokens become, without
blanks at either end. -/
theorem retargetFilter_spec {filter : String} (oneLine : '\n' ∉ filter.toList)
    (targets : FeedsPlainNames lineage) :
    (∀ name, retargetFilter filter lineage inputColumns = .error name ↔
      (filterTokens filter.toList).find? (·.isUnfed lineage inputColumns) =
        some (.word name.toList)) ∧
    ((∀ t ∈ filterTokens filter.toList, t.isUnfed lineage inputColumns = false) →
      ∃ out, retargetFilter filter lineage inputColumns = .ok out ∧
        filterTokens out.toList =
          trimmedTokens ((filterTokens filter.toList).map (·.retargeted lineage))) := by
  refine ⟨fun _ => retargetFilter_eq_error, fun fed => ?_⟩
  obtain ⟨whole, line⟩ := filterTokens_spec filter.toList
  rw [← whole] at oneLine
  have stays := line.retargeted oneLine targets
  rw [retargetFilter, retargetTokens_eq, List.find?_eq_none.mpr fun t member =>
    by simp [fed t member]]
  refine ⟨_, rfl, ?_⟩
  rw [String.toList_ofList, stays.trim_sourceOf]
  exact (stays.of_isInfix (trimmedTokens_isInfix _)).filterTokens

/-- A filter with doubled quotes and braces in strings, a quote in a placeholder, and one that
closes nothing. -/
def quotedFilter : String :=
  " CustomerID >\t 5 AND note <> 'it''s  \x7b\x7bNote' OR \x7b\x7b'Note\x7d\x7d = customerid' "

/-- A name in quotes stays as it is, and the name outside of them is replaced. -/
theorem retargetFilter_spec_for_quotes :
    let lineage := [("customerid", "customer_id")]
    retargetFilter quotedFilter lineage ["customerid", "note"] = .error "note" ∧
    ∃ out, retargetFilter quotedFilter lineage ["customerid", "modifiedat"] = .ok out ∧
      filterTokens out.toList =
        trimmedTokens ((filterTokens quotedFilter.toList).map (·.retargeted lineage)) ∧
      out = "customer_id > 5 AND note <> 'it''s  \x7b\x7bNote' OR \x7b\x7b'Note\x7d\x7d = customer_id'" := by
  intro lineage
  have oneLine : '\n' ∉ quotedFilter.toList := by decide
  have targets : FeedsPlainNames lineage := by
    intro input target fed
    by_cases same : input = "customerid"
    · subst same
      cases fed
      exact ⟨'c', "ustomer_id".toList, rfl, rfl, List.all_eq_true.mp rfl⟩
    · simp [lineage, lookupLast, beq_eq_false_iff_ne.mpr same] at fed
  obtain ⟨out, made, tokens⟩ :=
    (@retargetFilter_spec lineage ["customerid", "modifiedat"] _ oneLine targets).2
      (by decide +kernel)
  have run : retargetFilter quotedFilter lineage ["customerid", "modifiedat"] = .ok
      "customer_id > 5 AND note <> 'it''s  \x7b\x7bNote' OR \x7b\x7b'Note\x7d\x7d = customer_id'" := by
    decide +kernel
  refine ⟨?_, out, made, tokens, Except.ok.inj (made.symm.trans run)⟩
  exact ((retargetFilter_spec oneLine targets).1 "note").mpr (by decide +kernel)

end Warehouse
