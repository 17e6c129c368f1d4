/-
Module: Warehouse.Proofs.Load.FilterMarkers
Purpose: The markers of a filter, for which a run puts values in the end, before and after the
  filter is carried over to other columns. The scanner of filters takes a marker for one token, or
  finds it inside of a string, unless it runs over the end of a line: then its braces are single
  characters, its name is a name like others, and the filter comes out with another marker in its
  place.
Trusted boundary: none
Main exports: FeedsNames, SpacedInLine, CompletesMarker, KeepsMarkers, pieces_sourceOf,
  MarkersCopied, markersCopied_iff, not_markersCopied_splitMarker
-/
import Mathlib.Tactic.Tauto
import Warehouse.Proofs.Load.WholeWords
import Warehouse.Proofs.Sql.Markers

namespace Warehouse

open Sql (Marks Piece isMarkerNameChar marker? markersIn)

/-- A name of any script: letters, digits and underscores, the first of which is no ASCII digit. -/
def IsName (s : List Char) : Prop :=
  s ≠ [] ∧ (∀ c ∈ s.head?, c.isDigit = false) ∧ ∀ c ∈ s, isAnyWordChar c = true

/-- Whether the columns that a lineage feeds have names of any script. -/
def FeedsNames (lineage : List (String × String)) : Prop :=
  ∀ input target, lookupLast lineage input = some target → IsName target.toList

private theorem isBlank_eq_false_of_isAnyWordChar {c : Char} (named : isAnyWordChar c = true) :
    Text.isBlank c = false := by
  cases blank : Text.isBlank c with
  | false => rfl
  | true =>
    rw [isAnyWordChar_eq_false_of_isBlank blank] at named
    cases named

/-! ### Tokens with their ends

A filter is cut into tokens, and blanks between them are drawn together to one space. That moves
nothing but blanks, yet a marker that stood over two lines may come together by it. What matters of
a token is where its blanks are. -/

namespace FilterToken

/-- What the tokens of a filter have in common with what they become: their shape, and that a name
ends where its characters do. -/
inductive Spaced : FilterToken → List Char → Prop where
  | placeholder {inside rest : List Char} :
    Spaced (.placeholder ('{' :: '{' :: (inside ++ ['}', '}']))) rest
  | string {inside rest : List Char} : Spaced (.string ('\'' :: (inside ++ ['\'']))) rest
  | word {name rest : List Char} (named : IsName name)
    (ends : ∀ x ∈ rest.head?, isWordChar x = false) :
      Spaced (.word name) rest
  | blank {run rest : List Char} (filled : run ≠ []) (chars : ∀ x ∈ run, Text.isBlank x = true) :
      Spaced (.blank run) rest
  | other {c : Char} {rest : List Char} (noWord : isWordStart c = false)
    (noBlank : Text.isBlank c = false) :
      Spaced (.other c) rest

namespace Spaced

variable {t : FilterToken} {rest : List Char}

/-- A run of blanks holds nothing else. -/
theorem isBlank_of_isBlankRun (spaced : t.Spaced rest) (run : t.isBlankRun = true) :
    ∀ x ∈ t.source, Text.isBlank x = true := by
  cases spaced with
  | blank _ chars => exact chars
  | _ => cases run

/-- Any other token begins with something that is no blank. -/
private theorem exists_solid_head (spaced : t.Spaced rest) (run : t.isBlankRun = false) :
    ∃ x ∈ t.source.head?, Text.isBlank x = false := by
  cases spaced with
  | placeholder => exact ⟨'{', rfl, by decide⟩
  | string => exact ⟨'\'', rfl, by decide⟩
  | word named _ =>
    obtain ⟨c, name, rfl⟩ := List.exists_cons_of_ne_nil named.1
    exact ⟨c, rfl, isBlank_eq_false_of_isAnyWordChar (named.2.2 c List.mem_cons_self)⟩
  | blank _ _ => cases run
  | other _ noBlank => exact ⟨_, rfl, noBlank⟩

end Spaced

end FilterToken

/-- Whether tokens stand one behind the other with their ends. -/
def SpacedInLine : List FilterToken → Prop
  | [] => True
  | t :: ts => t.Spaced (sourceOf ts) ∧ SpacedInLine ts

variable {lineage : List (String × String)} {inputColumns : List String}

private theorem isName_of_start {c : Char} {name : List Char} (start : isWordStart c = true)
    (chars : ∀ x ∈ name, isWordChar x = true) : IsName (c :: name) := by
  have more : ∀ x ∈ name, isAnyWordChar x = true :=
    fun x member => isAnyWordChar_of_isWordChar (chars x member)
  refine ⟨by simp, ?_, List.forall_mem_cons.mpr ⟨?_, more⟩⟩
  · rintro _ ⟨⟩
    cases digit : c.isDigit with
    | false => rfl
    | true =>
      rw [isWordStart, Bool.or_eq_true, decide_eq_true_eq] at start
      rcases start with letter | rfl
      · rw [Text.isAlpha_eq_false_of_isDigit digit] at letter
        cases letter
      · cases digit
  · exact isAnyWordChar_of_isWordChar (isWordChar_of_isWordStart start)

/-- A token that is read off a text has its blanks in one place. -/
theorem FilterToken.Stands.spaced {t : FilterToken} {rest : List Char} (stands : t.Stands rest) :
    t.Spaced rest := by
  cases stands with
  | placeholder _ _ => exact .placeholder
  | string _ _ => exact .string
  | word start chars ends => exact .word (isName_of_start start chars) ends
  | blank start chars _ => exact .blank (by simp) (List.forall_mem_cons.mpr ⟨start, chars⟩)
  | other noWord noBlank _ _ => exact .other noWord noBlank

/-- So have all tokens of a line. -/
theorem StandInLine.spaced {ts : List FilterToken} (line : StandInLine ts) : SpacedInLine ts := by
  induction ts with
  | nil => trivial
  | cons t ts ih => exact ⟨line.1.spaced, ih line.2⟩

/-- Behind a name there is no further character of one afterwards either. -/
theorem StandInLine.head_retargeted {ts : List FilterToken} (line : StandInLine ts)
    (ends : ∀ x ∈ (sourceOf ts).head?, isWordChar x = false) :
    ∀ x ∈ (sourceOf (ts.map (·.retargeted lineage))).head?, isWordChar x = false := by
  cases ts with
  | nil => exact ends
  | cons t ts =>
    rw [head?_sourceOf_cons line.1.source_ne_nil] at ends
    have stands := line.1
    rw [List.map_cons]
    generalize sourceOf ts = rest at stands
    cases stands with
    | placeholder _ _ => simpa [FilterToken.retargeted, FilterToken.source] using ends
    | string _ _ => simpa [FilterToken.retargeted, FilterToken.source] using ends
    | word start _ _ =>
      have first := ends _ rfl
      rw [isWordChar_of_isWordStart start] at first
      cases first
    | blank _ _ _ =>
      rintro _ ⟨⟩
      decide
    | other _ _ _ _ => simpa [FilterToken.retargeted, FilterToken.source] using ends

/-- Names that are put in place of others hold no blanks, so it is so afterwards too. -/
theorem StandInLine.spaced_retargeted {ts : List FilterToken} (line : StandInLine ts)
    (targets : FeedsNames lineage) : SpacedInLine (ts.map (·.retargeted lineage)) := by
  induction ts with
  | nil => trivial
  | cons t ts ih =>
    refine ⟨?_, ih line.2⟩
    have behind : (∀ x ∈ (sourceOf ts).head?, isWordChar x = false) →
        ∀ x ∈ (sourceOf (ts.map (·.retargeted lineage))).head?, isWordChar x = false :=
      line.2.head_retargeted
    have stands := line.1
    generalize sourceOf ts = rest at stands behind
    cases stands with
    | placeholder _ _ => exact .placeholder
    | string _ _ => exact .string
    | @word c name _ start chars ends =>
      refine .word ?_ (behind ends)
      cases fed : lookupLast lineage (FilterToken.lookupName (c :: name)) with
      | none => exact isName_of_start start chars
      | some target => exact targets _ _ fed
    | blank _ _ _ => exact .blank (by simp) (by simp; decide)
    | other noWord noBlank _ _ => exact .other noWord noBlank

/-! ### Markers that are cut apart -/

/-- Whether the tokens behind an opening brace make up a marker with it: another brace, a name,
perhaps with blanks around it, and two closing braces. -/
def CompletesMarker (name : List Char) (ts : List FilterToken) : Prop :=
  ∃ left right rest,
    ts = .other '{' :: (left ++ .word name :: (right ++ .other '}' :: .other '}' :: rest)) ∧
    (∀ t ∈ left, t.isBlankRun = true) ∧ ∀ t ∈ right, t.isBlankRun = true

/-- Whether no marker among tokens is cut apart. -/
def KeepsMarkers : List FilterToken → Prop
  | [] => True
  | t :: ts => (t = .other '{' → ∀ name, ¬ CompletesMarker name ts) ∧ KeepsMarkers ts

namespace SpacedInLine

variable {ts : List FilterToken}

/-- A character that no name, run of blanks, string or placeholder starts with is a token. -/
theorem exists_other {c : Char} {text : List Char} (spaced : SpacedInLine ts)
    (same : sourceOf ts = c :: text) (noQuote : c ≠ '\'') (noWord : isAnyWordChar c = false)
    (noBlank : Text.isBlank c = false) (noPlaceholder : c = '{' → text.head? ≠ some '{') :
    ∃ ts', ts = .other c :: ts' ∧ sourceOf ts' = text ∧ SpacedInLine ts' := by
  cases ts with
  | nil => cases same
  | cons t ts =>
    obtain ⟨first, behind⟩ := spaced
    rw [sourceOf_cons] at same
    generalize following : sourceOf ts = rest at first same
    cases first with
    | placeholder =>
      obtain ⟨rfl, rfl⟩ := List.cons.inj same
      exact absurd rfl (noPlaceholder rfl)
    | string => exact absurd (List.cons.inj same).1.symm noQuote
    | word named _ =>
      obtain ⟨d, name, rfl⟩ := List.exists_cons_of_ne_nil named.1
      have first := named.2.2 d List.mem_cons_self
      rw [(List.cons.inj same).1, noWord] at first
      cases first
    | blank filled chars =>
      obtain ⟨d, run, rfl⟩ := List.exists_cons_of_ne_nil filled
      have first := chars d List.mem_cons_self
      rw [(List.cons.inj same).1, noBlank] at first
      cases first
    | other _ _ =>
      obtain ⟨rfl, rfl⟩ := List.cons.inj same
      exact ⟨ts, rfl, following, behind⟩

theorem of_append {us : List FilterToken} (spaced : SpacedInLine (us ++ ts)) : SpacedInLine ts := by
  induction us with
  | nil => exact spaced
  | cons u us ih => exact ih spaced.2

private theorem exists_spaced (spaced : SpacedInLine ts) {t : FilterToken} (member : t ∈ ts) :
    ∃ rest, t.Spaced rest := by
  induction ts with
  | nil => cases member
  | cons t' ts ih =>
    rcases List.mem_cons.mp member with rfl | later
    · exact ⟨_, spaced.1⟩
    · exact ih spaced.2 later

/-- Blanks at the front of a text are runs of blanks among its tokens. -/
theorem exists_blanks {left text : List Char} (spaced : SpacedInLine ts)
    (same : sourceOf ts = left ++ text) (blank : ∀ c ∈ left, Text.isBlank c = true)
    (solid : ∀ c ∈ text.head?, Text.isBlank c = false) :
    ∃ runs ts', ts = runs ++ ts' ∧ (∀ t ∈ runs, t.isBlankRun = true) ∧ sourceOf ts' = text ∧
      SpacedInLine ts' := by
  have dropped : (sourceOf ts).dropWhile Text.isBlank =
      sourceOf (ts.dropWhile FilterToken.isBlankRun) := by
    refine dropWhile_flatMap (fun t member => ?_) (fun t member => ?_)
    all_goals obtain ⟨rest, first⟩ := spaced.exists_spaced member
    · exact first.isBlank_of_isBlankRun
    · exact first.exists_solid_head
  have cut := (List.takeWhile_append_dropWhile (p := FilterToken.isBlankRun) (l := ts)).symm
  refine ⟨_, _, cut, fun t member => List.mem_takeWhile_imp member, ?_, of_append (cut ▸ spaced)⟩
  rw [← dropped, same]
  exact Text.trimStart_append blank solid

/-- A name at the front of a text, behind which there is no letter, is a token. -/
theorem exists_word {name text : List Char} (spaced : SpacedInLine ts)
    (same : sourceOf ts = name ++ text) (nonempty : name ≠ [])
    (starts : ∀ c ∈ name.head?, c.isDigit = false) (named : ∀ c ∈ name, isMarkerNameChar c = true)
    (ends : ∀ c ∈ text.head?, isAnyWordChar c = false) :
    ∃ ts', ts = .word name :: ts' ∧ sourceOf ts' = text ∧ SpacedInLine ts' := by
  obtain ⟨c, letters, rfl⟩ := List.exists_cons_of_ne_nil nonempty
  have first := named c List.mem_cons_self
  cases ts with
  | nil => cases same
  | cons t ts =>
    obtain ⟨standing, behind⟩ := spaced
    rw [sourceOf_cons] at same
    generalize following : sourceOf ts = rest at standing same
    cases standing with
    | placeholder =>
      obtain ⟨rfl, -⟩ := List.cons.inj same
      cases first
    | string =>
      obtain ⟨rfl, -⟩ := List.cons.inj same
      cases first
    | blank filled chars =>
      obtain ⟨d, run, rfl⟩ := List.exists_cons_of_ne_nil filled
      obtain ⟨rfl, -⟩ := List.cons.inj same
      have blank := chars d List.mem_cons_self
      rw [Text.isBlank_eq_false_of_nameChar first] at blank
      cases blank
    | other noWord _ =>
      obtain ⟨rfl, -⟩ := List.cons.inj same
      rw [isMarkerNameChar, Char.isAlphanum, starts _ rfl, Bool.or_false] at first
      rw [isWordStart, first] at noWord
      cases noWord
    | @word word _ isName unnamed =>
      obtain ⟨rfl, rfl⟩ := append_inj_of_ends same (fun x member => isName.2.2 x member) ends
        (fun x member => named x member) unnamed
      exact ⟨ts, rfl, following, behind⟩

/-- Where a marker begins with an opening brace, the tokens behind the brace make it up. -/
theorem completesMarker {source name rest : List Char} (spaced : SpacedInLine ts)
    (marks : Marks source name) (here : '{' :: sourceOf ts = source ++ rest) :
    CompletesMarker name ts := by
  obtain ⟨left, right, rfl, blank, blank'⟩ := marks.written
  have solid : ∀ c ∈ (name ++ (right ++ '}' :: '}' :: rest)).head?, Text.isBlank c = false := by
    rw [List.head?_append_of_ne_nil _ marks.nonempty]
    exact fun c first =>
      Text.isBlank_eq_false_of_nameChar (marks.named c (List.mem_of_mem_head? first))
  have closing : ∀ c ∈ (right ++ '}' :: '}' :: rest).head?, isAnyWordChar c = false := by
    cases right with
    | nil =>
      rintro _ ⟨⟩
      decide +kernel
    | cons c right =>
      rintro _ ⟨⟩
      exact isAnyWordChar_eq_false_of_isBlank (blank' c List.mem_cons_self)
  have text : sourceOf ts = '{' :: (left ++ (name ++ (right ++ '}' :: '}' :: rest))) := by
    simpa using here
  have oneBrace : (left ++ (name ++ (right ++ '}' :: '}' :: rest))).head? ≠ some '{' := by
    cases left with
    | nil =>
      rw [List.nil_append, List.head?_append_of_ne_nil _ marks.nonempty]
      exact fun first => absurd (marks.named _ (List.mem_of_mem_head? first)) (by decide)
    | cons c left =>
      rintro ⟨⟩
      exact absurd (blank _ List.mem_cons_self) (by decide)
  obtain ⟨ts₁, rfl, text, spaced⟩ :=
    spaced.exists_other text (by decide) (by decide +kernel) (by decide) fun _ => oneBrace
  obtain ⟨runs, ts₂, rfl, allBlank, text, spaced⟩ := spaced.exists_blanks text blank solid
  obtain ⟨ts₃, rfl, text, spaced⟩ :=
    spaced.exists_word text marks.nonempty marks.starts marks.named closing
  obtain ⟨runs', ts₄, rfl, allBlank', text, spaced⟩ :=
    spaced.exists_blanks text blank' (by rintro _ ⟨⟩; decide)
  obtain ⟨ts₅, rfl, text, spaced⟩ :=
    spaced.exists_other text (by decide) (by decide +kernel) (by decide) (by simp)
  obtain ⟨ts₆, rfl, text, spaced⟩ :=
    spaced.exists_other text (by decide) (by decide +kernel) (by decide) (by simp)
  exact ⟨runs, runs', ts₆, rfl, allBlank, allBlank'⟩

end SpacedInLine

/-! ### The markers of tokens

A marker is made of tokens that stand side by side: braces, blanks and a name. Which tokens make one
can be told from their kinds, and retargeting changes only what a name is. -/

/-- The parts that a token falls into for the scanner of finished SQL, if no marker is cut apart. -/
def FilterToken.pieces : FilterToken → List Piece
  | .string s | .placeholder s => Sql.pieces s
  | .word s | .blank s => s.map Piece.char
  | .other c => [.char c]

/-- The pieces of a token make up its text. -/
theorem FilterToken.source_pieces (t : FilterToken) : t.pieces.flatMap Piece.source = t.source := by
  have chars (s : List Char) : (s.map Piece.char).flatMap Piece.source = s := by
    rw [List.flatMap_map]
    exact List.flatMap_singleton' s
  cases t with
  | string s | placeholder s => exact Sql.source_pieces s
  | word s | blank s => exact chars s
  | other c => rfl

/-- A token keeps its markers whatever becomes of it. -/
theorem FilterToken.markers_retargeted (t : FilterToken) :
    (t.retargeted lineage).pieces.filterMap Piece.marker? = t.pieces.filterMap Piece.marker? := by
  cases t with
  | word s =>
    rw [retargeted, pieces, pieces, Sql.filterMap_marker?_char, Sql.filterMap_marker?_char]
  | blank s =>
    rw [retargeted, pieces, pieces, Sql.filterMap_marker?_char, Sql.filterMap_marker?_char]
  | _ => rfl

/-- A token in front of a text is scanned apart from it, unless it is the first brace of a
marker. -/
theorem FilterToken.Spaced.pieces_append {t : FilterToken} {rest : List Char}
    (spaced : t.Spaced rest) (unmarked : t = .other '{' → marker? ('{' :: rest) = none) :
    Sql.pieces (t.source ++ rest) = t.pieces ++ Sql.pieces rest := by
  cases spaced with
  | @placeholder inside =>
    have cut := Sql.pieces_append_of_closed ('{' :: '{' :: inside) rest
    simpa [FilterToken.source, FilterToken.pieces] using cut
  | @string inside =>
    have cut :=
      Sql.pieces_append_of_foreign (c := '\'') (by decide) (by decide) (by decide)
        ('\'' :: inside) rest
    simpa [FilterToken.source, FilterToken.pieces] using cut
  | word named _ =>
    exact Sql.pieces_append (fun member => absurd (named.2.2 _ member) (by decide +kernel)) rest
  | blank _ chars =>
    exact Sql.pieces_append (fun member => absurd (chars _ member) (by decide)) rest
  | @other c _ _ _ =>
    by_cases brace : c = '{'
    · subst brace
      exact Sql.pieces_cons_of_none (unmarked rfl)
    · exact Sql.pieces_append (List.mem_singleton.not.mpr (Ne.symm brace)) rest

/-- The first of several tokens is scanned apart from the others, unless they make up a marker with
it. -/
theorem SpacedInLine.pieces_cons {t : FilterToken} {ts : List FilterToken}
    (spaced : SpacedInLine (t :: ts)) (unmarked : t = .other '{' →
      ∀ name, ¬ CompletesMarker name ts) :
    Sql.pieces (sourceOf (t :: ts)) = t.pieces ++ Sql.pieces (sourceOf ts) := by
  rw [sourceOf_cons]
  refine spaced.1.pieces_append fun brace => ?_
  cases found : marker? ('{' :: sourceOf ts) with
  | none => rfl
  | some marker =>
    obtain ⟨source, rest, whole, marks, -⟩ := Sql.marker?_eq_some_iff.mp found
    exact absurd (spaced.2.completesMarker marks whole) (unmarked brace _)

/-- Tokens among which no marker is cut apart are scanned one by one. -/
theorem pieces_sourceOf {ts : List FilterToken} (spaced : SpacedInLine ts)
    (kept : KeepsMarkers ts) : Sql.pieces (sourceOf ts) = ts.flatMap FilterToken.pieces := by
  induction ts with
  | nil => rfl
  | cons t ts ih => rw [spaced.pieces_cons kept.1, ih spaced.2 kept.2, List.flatMap_cons]

private theorem FilterToken.eq_other_of_retargeted {t : FilterToken} {c : Char}
    (same : t.retargeted lineage = .other c) : t = .other c := by
  cases t with
  | other _ => exact same
  | _ => cases same

private theorem FilterToken.eq_word_of_retargeted {t : FilterToken} {name : List Char}
    (same : t.retargeted lineage = .word name) : ∃ name', t = .word name' := by
  cases t with
  | word name' => exact ⟨name', rfl⟩
  | _ => cases same

private theorem FilterToken.isBlankRun_retargeted (t : FilterToken) :
    (t.retargeted lineage).isBlankRun = t.isBlankRun := by
  cases t <;> rfl

/-- What becomes of tokens makes up a marker only where they did. -/
theorem CompletesMarker.of_retargeted {name : List Char} {ts : List FilterToken}
    (completes : CompletesMarker name (ts.map (·.retargeted lineage))) :
    ∃ name', CompletesMarker name' ts := by
  have runs {us : List FilterToken}
    (blank : ∀ t ∈ us.map (·.retargeted lineage), t.isBlankRun = true) :
      ∀ t ∈ us, t.isBlankRun = true := by
    intro t member
    rw [← FilterToken.isBlankRun_retargeted]
    exact blank _ (List.mem_map_of_mem member)
  obtain ⟨_, _, _, whole, blank, blank'⟩ := completes
  obtain ⟨_, behindBrace, rfl, opening, inner⟩ := List.map_eq_cons_iff.mp whole
  obtain ⟨left, _, rfl, rfl, fromName⟩ := List.map_eq_append_iff.mp inner
  obtain ⟨_, _, rfl, named, behindName⟩ := List.map_eq_cons_iff.mp fromName
  obtain ⟨right, _, rfl, rfl, closed⟩ := List.map_eq_append_iff.mp behindName
  obtain ⟨_, _, rfl, closing, closed'⟩ := List.map_eq_cons_iff.mp closed
  obtain ⟨_, rest, rfl, closing', -⟩ := List.map_eq_cons_iff.mp closed'
  obtain ⟨name', rfl⟩ := FilterToken.eq_word_of_retargeted named
  obtain rfl := FilterToken.eq_other_of_retargeted opening
  obtain rfl := FilterToken.eq_other_of_retargeted closing
  obtain rfl := FilterToken.eq_other_of_retargeted closing'
  exact ⟨name', left, right, rest, rfl, runs blank, runs blank'⟩

/-- To keep markers together is a matter of blanks, which retargeting leaves alone. -/
theorem KeepsMarkers.retargeted {ts : List FilterToken} (kept : KeepsMarkers ts) :
    KeepsMarkers (ts.map (·.retargeted lineage)) := by
  induction ts with
  | nil => trivial
  | cons t ts ih =>
    refine ⟨fun same name completes => ?_, ih kept.2⟩
    obtain ⟨name', completes'⟩ := completes.of_retargeted
    exact kept.1 (FilterToken.eq_other_of_retargeted same) name' completes'

/-- What keeps markers together does so in each end of it. -/
theorem KeepsMarkers.of_append {ts us : List FilterToken} (kept : KeepsMarkers (us ++ ts)) :
    KeepsMarkers ts := by
  induction us with
  | nil => exact kept
  | cons u us ih => exact ih kept.2

/-! ### Markers and the ends of lines -/

/-- Tokens that make up a marker spell one. -/
theorem marks_of_tokens {left right : List FilterToken} {name : List Char}
    (plain : IsPlainName name) (blank : ∀ t ∈ left, ∀ c ∈ t.source, Text.isBlank c = true)
    (blank' : ∀ t ∈ right, ∀ c ∈ t.source, Text.isBlank c = true) :
    Marks ('{' :: '{' :: (sourceOf left ++ (name ++ (sourceOf right ++ ['}', '}'])))) name := by
  obtain ⟨c, letters, rfl, start, chars⟩ := plain
  refine ⟨⟨_, _, rfl, fun x member => ?_, fun x member => ?_⟩, by simp, ?_, ?_⟩
  · obtain ⟨t, among, here⟩ := List.mem_flatMap.mp member
    exact blank t among x here
  · obtain ⟨t, among, here⟩ := List.mem_flatMap.mp member
    exact blank' t among x here
  · exact (isName_of_start start chars).2.1
  · exact List.forall_mem_cons.mpr ⟨isWordChar_of_isWordStart start, chars⟩

private theorem StandInLine.isPlainName {ts : List FilterToken} {name : List Char}
    (line : StandInLine ts) (member : .word name ∈ ts) : IsPlainName name := by
  obtain ⟨_, stands⟩ := line.exists_stands member
  cases stands with
  | word start chars _ => exact ⟨_, _, rfl, start, chars⟩

/-- A marker is cut apart only if it runs over the end of a line. -/
theorem CompletesMarker.exists_marks {name : List Char} {ts : List FilterToken}
    (completes : CompletesMarker name ts) (line : StandInLine (.other '{' :: ts)) :
    ∃ source rest, '{' :: sourceOf ts = source ++ rest ∧ Marks source name ∧ '\n' ∈ source := by
  obtain ⟨left, right, rest, rfl, run, run'⟩ := completes
  have blank (t : FilterToken) (member : t ∈ left) : ∀ c ∈ t.source, Text.isBlank c = true := by
    obtain ⟨_, stands⟩ := line.exists_stands (t := t) (by simp [member])
    exact stands.isBlank_of_isBlankRun (run t member)
  have blank' (t : FilterToken) (member : t ∈ right) : ∀ c ∈ t.source, Text.isBlank c = true := by
    obtain ⟨_, stands⟩ := line.exists_stands (t := t) (by simp [member])
    exact stands.isBlank_of_isBlankRun (run' t member)
  have plain : IsPlainName name := line.isPlainName (by simp)
  have marks := marks_of_tokens plain blank blank'
  refine ⟨_, sourceOf rest, ?_, marks, ?_⟩
  · simp [FilterToken.source]
  · by_contra oneLine
    have standing := line.1
    cases standing with
    | other _ _ _ noPlaceholder =>
      refine noPlaceholder
        (sourceOf left ++ (name ++ sourceOf right) ++ '}' :: '}' :: sourceOf rest) rfl ?_ ?_
      · simp [FilterToken.source]
      · refine ⟨_, _, rfl, fun inside => oneLine ?_⟩
        simp only [List.mem_append, List.mem_cons] at inside ⊢
        tauto

/-- What becomes of a marker that is cut apart is a marker in one line. -/
theorem CompletesMarker.exists_marks_retargeted {name : List Char} {ts : List FilterToken}
    (completes : CompletesMarker name ts) (line : StandInLine (.other '{' :: ts)) :
    ∃ source rest, '{' :: sourceOf (ts.map (·.retargeted [])) = source ++ rest ∧ Marks source name ∧
      '\n' ∉ source := by
  obtain ⟨left, right, rest, rfl, run, run'⟩ := completes
  have space {us : List FilterToken} (runs : ∀ t ∈ us, t.isBlankRun = true) :
      ∀ t ∈ us.map (·.retargeted []), t.source = [' '] := by
    intro t member
    obtain ⟨u, among, rfl⟩ := List.mem_map.mp member
    have run := runs u among
    cases u with
    | blank _ => rfl
    | _ => cases run
  have blank {us : List FilterToken} (runs : ∀ t ∈ us, t.isBlankRun = true) :
      ∀ t ∈ us.map (·.retargeted []), ∀ c ∈ t.source, Text.isBlank c = true := by
    intro t member
    rw [space runs t member, List.forall_mem_singleton]
    rfl
  have noLineEnd {us : List FilterToken} (runs : ∀ t ∈ us, t.isBlankRun = true) :
      '\n' ∉ sourceOf (us.map (·.retargeted [])) := by
    intro member
    obtain ⟨t, among, here⟩ := List.mem_flatMap.mp member
    rw [space runs t among] at here
    simp at here
  have plain : IsPlainName name := line.isPlainName (by simp)
  have named : '\n' ∉ name := fun member => absurd (plain.isWordChar _ member) (by decide)
  refine ⟨_, sourceOf (rest.map (·.retargeted [])), ?_,
    marks_of_tokens plain (blank run) (blank run'), ?_⟩
  · simp [FilterToken.source, FilterToken.retargeted, lookupLast]
  · simp [noLineEnd run, noLineEnd run', named]

/-- Whether the markers of a filter that begin where a token begins, and so not within a string,
stand in one line each. -/
def MarkersInOneLine (ts : List FilterToken) : Prop :=
  ∀ before after source name rest, ts = before ++ after → sourceOf after = source ++ rest →
    Marks source name → '\n' ∉ source

/-- A marker at the front that is not cut apart is within a placeholder and stands in one line. -/
theorem KeepsMarkers.inOneLine {ts : List FilterToken} (kept : KeepsMarkers ts)
    (line : StandInLine ts) {source name rest : List Char} (here : sourceOf ts = source ++ rest)
    (marks : Marks source name) :
    '\n' ∉ source := by
  obtain ⟨body, written, -⟩ := marks.exists_body
  cases ts with
  | nil =>
    rw [written] at here
    cases here
  | cons t ts =>
    have behind := line.2.spaced
    have stands := line.1
    rw [sourceOf_cons] at here
    generalize following : sourceOf ts = text at stands here
    cases stands with
    | @placeholder inside _ oneLine _ =>
      intro ends
      have within : source <+: '{' :: '{' :: inside ++ ['}', '}'] :=
        marks.isPrefix_of_closed (by simpa [FilterToken.source] using here)
      have lineEnd := within.subset ends
      simp at lineEnd
      exact oneLine lineEnd
    | string _ _ =>
      rw [written] at here
      cases here
    | word start _ _ =>
      rw [written] at here
      obtain ⟨rfl, -⟩ := List.cons.inj here
      cases start
    | blank start _ _ =>
      rw [written] at here
      obtain ⟨rfl, -⟩ := List.cons.inj here
      cases start
    | other _ _ _ _ =>
      obtain ⟨rfl, -⟩ := List.cons.inj (here.trans (by rw [written]; rfl))
      rw [FilterToken.source, ← following] at here
      exact (kept.1 rfl name (behind.completesMarker marks here)).elim

/-- The markers that are cut apart are those that run over the end of a line outside of a string. -/
theorem keepsMarkers_iff {ts : List FilterToken} (line : StandInLine ts) : KeepsMarkers ts ↔
    MarkersInOneLine ts := by
  constructor
  · rintro kept before after source name rest rfl here marks
    exact kept.of_append.inOneLine line.right here marks
  · intro oneLine
    induction ts with
    | nil => trivial
    | cons t ts ih =>
      refine ⟨?_, ih line.2 fun before after source name rest cut => ?_⟩
      · rintro rfl name completes
        obtain ⟨source, rest, whole, marks, ends⟩ := completes.exists_marks line
        exact oneLine [] _ source name rest rfl whole marks ends
      · exact oneLine (t :: before) after source name rest (by rw [cut, List.cons_append])

/-! ### Markers that are carried over -/

/-- Whether the markers of a filter are carried over as they are, to columns of any names: the
markers of what the filter becomes are those that it has, and if it is refused, then for a name that
stands outside of them. -/
structure MarkersCopied (filter : String) : Prop where
  copied : ∀ lineage inputColumns out, FeedsNames lineage →
    retargetFilter filter lineage inputColumns = .ok out →
    markersIn out.toList = markersIn filter.toList
  refused : ∀ lineage inputColumns name, FeedsNames lineage →
    retargetFilter filter lineage inputColumns = .error name →
    ∃ before after front back, filterTokens filter.toList = before ++ .word name.toList :: after ∧
      FilterToken.lookupName name.toList ∈ inputColumns ∧
      Sql.pieces filter.toList = front ++ (name.toList.map Piece.char ++ back) ∧
      front.flatMap Piece.source = sourceOf before

/-- Where markers are kept together, the retargeted filter has the same ones. -/
theorem KeepsMarkers.markersIn_retargeted {ts : List FilterToken} (kept : KeepsMarkers ts)
    (line : StandInLine ts) (targets : FeedsNames lineage) :
    markersIn (sourceOf (ts.map (·.retargeted lineage))) = markersIn (sourceOf ts) := by
  rw [markersIn, markersIn, pieces_sourceOf (line.spaced_retargeted targets) kept.retargeted,
    pieces_sourceOf line.spaced kept, List.filterMap_flatMap, List.filterMap_flatMap,
    List.flatMap_map]
  exact List.flatMap_congr fun t _ => t.markers_retargeted

/-- Where a marker is cut apart it does not come out as it was. -/
theorem keepsMarkers_of_markersIn {ts : List FilterToken} (line : StandInLine ts)
    (same : markersIn (sourceOf (ts.map (·.retargeted []))) = markersIn (sourceOf ts)) :
    KeepsMarkers ts := by
  have noTargets : FeedsNames [] := fun _ _ fed => by cases fed
  induction ts with
  | nil => trivial
  | cons t ts ih =>
    have unmarked : t = .other '{' → ∀ name, ¬ CompletesMarker name ts := by
      rintro rfl name completes
      obtain ⟨source, rest, whole, marks, ends⟩ := completes.exists_marks line
      obtain ⟨source', rest', whole', marks', oneLine⟩ := completes.exists_marks_retargeted line
      have heads : markersIn (source' ++ rest') = markersIn (source ++ rest) := by
        rw [← whole, ← whole']
        exact same
      rw [Sql.markersIn_marker marks, Sql.markersIn_marker marks'] at heads
      obtain ⟨rfl, -⟩ := Prod.mk.inj (List.cons.inj heads).1
      exact oneLine ends
    refine ⟨unmarked, ih line.2 ?_⟩
    have unmarked' : t.retargeted [] = .other '{' →
        ∀ name, ¬ CompletesMarker name (ts.map (·.retargeted [])) := by
      intro brace name completes
      obtain ⟨name', completes'⟩ := completes.of_retargeted
      exact unmarked (FilterToken.eq_other_of_retargeted brace) name' completes'
    rw [markersIn, markersIn, line.spaced.pieces_cons unmarked, List.map_cons,
      SpacedInLine.pieces_cons (line.spaced_retargeted noTargets) unmarked', List.filterMap_append,
      List.filterMap_append, t.markers_retargeted] at same
    exact List.append_cancel_left same

/-- The markers of a filter are carried over as they are exactly when every marker outside of
strings stands in one line. -/
theorem markersCopied_iff {filter : String} :
    MarkersCopied filter ↔ MarkersInOneLine (filterTokens filter.toList) := by
  obtain ⟨whole, line⟩ := filterTokens_spec filter.toList
  rw [← keepsMarkers_iff line]
  constructor
  · intro same
    have fed : ∀ t ∈ filterTokens filter.toList, t.isUnfed [] [] = false := by
      intro t _
      cases t <;> simp [FilterToken.isUnfed]
    have kept := same.copied [] [] _ (fun _ _ fed => by cases fed)
      (retargetFilter_eq_ok.mpr ⟨fed, String.toList_ofList⟩)
    rw [String.toList_ofList, Sql.markersIn_trim] at kept
    refine keepsMarkers_of_markersIn line ?_
    rw [kept, whole]
  · intro kept
    refine ⟨fun lineage inputColumns out targets made => ?_,
      fun lineage inputColumns name targets failed => ?_⟩
    · obtain ⟨-, made⟩ := retargetFilter_eq_ok.mp made
      rw [made, Sql.markersIn_trim, kept.markersIn_retargeted line targets, whole]
    · obtain ⟨before, after, cut, -, unfed⟩ := retargetFilter_eq_error_iff_split.mp failed
      refine ⟨before, after, before.flatMap FilterToken.pieces, after.flatMap FilterToken.pieces,
        cut, ?_, ?_, ?_⟩
      · simpa [FilterToken.isUnfed] using (Bool.and_eq_true_iff.mp unfed).2
      · rw [← whole, pieces_sourceOf line.spaced kept, cut, List.flatMap_append, List.flatMap_cons]
        rfl
      · rw [List.flatMap_assoc]
        exact List.flatMap_congr fun t _ => t.source_pieces

/-- A filter on the cutoff whose marker stands in three lines. -/
def splitMarkerFilter : String := "changed > \x7b\x7b\nDELTA_CUTOFF\n\x7d\x7d"

/-- A marker that stands in several lines does not come out as it was, not even with no columns at
all. -/
theorem not_markersCopied_splitMarker : ¬ MarkersCopied splitMarkerFilter := by
  intro same
  have made : retargetFilter splitMarkerFilter [] [] =
      .ok "changed > \x7b\x7b DELTA_CUTOFF \x7d\x7d" := by
    decide +kernel
  have markers := same.copied [] [] _ (fun _ _ fed => by cases fed) made
  exact absurd markers (by decide +kernel)

end Warehouse
