/-
Module: Warehouse.Proofs.Sql.Substitution
Purpose: Putting values into finished SQL against putting them into its tokens. The scanner finds
  the marker of every placeholder where its token stands, and nothing else as long as no text of
  another token opens a brace: quoting, exchanging function names and writing numbers add none. A
  value that is put in is not part of what is scanned, whatever it holds.
Trusted boundary: none
Main exports: Marks, pieces_append, pieces_marker, Token.texts, Token.open_notMem_text,
  RuntimeValues.constant?, Token.filled, substitute_render
-/
import Warehouse.Proofs.Text.Blanks
import Warehouse.Sql.Template

namespace Warehouse

namespace Text

private theorem toList_pushn (s : String) (c : Char) (n : Nat) :
    (s.pushn c n).toList = s.toList ++ List.replicate n c := by
  rw [String.pushn_eq_repeat_push]
  induction n with
  | zero => exact (List.append_nil _).symm
  | succ n ih => rw [Nat.repeat, String.toList_push, ih, List.replicate_succ', List.append_assoc]

/-! ### Capitals

No letter has a brace among its capitals, so that only a brace itself becomes one. -/

private theorem eq_of_ofNat_eq_brace {n : Nat} (same : Char.ofNat n = '{') : n = 0x7B := by
  rcases toNat_ofNat_or n with numbered | none
  · rw [← numbered, same]
    rfl
  · rw [none] at same
    cases same

private theorem image?_ne_brace {run : CaseRun} (run_mem : run ∈ upperRuns) {n m : Nat}
    (image : run.image? n = some m) : m ≠ 0x7B := by
  have apart : ∀ run ∈ upperRuns, 0x7B < run.first + run.shift ∨ run.last + run.shift < 0x7B := by
    decide +kernel
  have bounds := apart run run_mem
  rw [CaseRun.image?] at image
  split at image
  · cases image
    omega
  · cases image

private theorem brace_notMem_upperChar {c : Char} (other : c ≠ '{') : '{' ∉ upperChar c := by
  unfold upperChar
  split
  · next ascii =>
    have all : ∀ n < 0x80, (Char.ofNat n).toUpper = '{' → Char.ofNat n = '{' := by decide
    intro member
    have here := all c.toNat ascii
    rw [Char.ofNat_toNat] at here
    exact other (here (List.mem_singleton.mp member).symm)
  · split
    · next found =>
      have none : ∀ entry ∈ upperExpansions, '{' ∉ entry.2.map Char.ofNat := by decide +kernel
      obtain ⟨front, back, split, _⟩ := List.lookup_eq_some_iff.mp found
      exact none (c.toNat, _) (by simp [split])
    · split
      · next found =>
        obtain ⟨run, run_mem, image⟩ := List.exists_of_findSome?_eq_some found
        intro member
        exact image?_ne_brace run_mem image
          (eq_of_ofNat_eq_brace (List.mem_singleton.mp member).symm)
      · exact fun member => other (List.mem_singleton.mp member).symm

/-- Putting a text in capitals makes no opening brace. -/
theorem brace_notMem_upper {s : String} (closed : '{' ∉ s.toList) : '{' ∉ (upper s).toList := by
  rw [upper, String.toList_ofList, upperChars]
  intro member
  obtain ⟨c, among, here⟩ := List.mem_flatMap.mp member
  exact brace_notMem_upperChar (fun same => closed (same ▸ among)) here

end Text

/-! ### Numbers

No number is written with a brace. -/

namespace Number

private theorem brace_notMem_toDigits (n : Nat) : '{' ∉ Nat.toDigits 10 n := by
  intro member
  have digit := Nat.isDigit_of_mem_toDigits (by decide) (by decide) member
  cases digit

theorem brace_notMem_int (n : Int) : '{' ∉ n.repr.toList := by
  cases n with
  | ofNat n => simpa [Int.repr] using brace_notMem_toDigits n
  | negSucc n => simpa [Int.repr] using brace_notMem_toDigits (n + 1)

/-- Whichever form a number has, it is made of digits, a point, signs and the letter of the
exponent. -/
theorem brace_notMem_float (x : Binary64) : '{' ∉ x.text.toList := by
  have sign : '{' ∉ (if x.isNegative then "-" else "").toList := by split <;> decide
  have digits : '{' ∉ Nat.toDigits 10 x.shortest.1 := brace_notMem_toDigits _
  have before (k : Nat) : '{' ∉ (Nat.toDigits 10 x.shortest.1).take k :=
    mt List.mem_of_mem_take digits
  have behind (k : Nat) : '{' ∉ (Nat.toDigits 10 x.shortest.1).drop k :=
    mt List.mem_of_mem_drop digits
  unfold Binary64.text
  dsimp only
  split
  · simp [sign]
  split
  · simp [sign, digits, Text.toList_pushn]
  split
  · simp [sign, before, behind]
  split
  · simp [sign, digits, Text.toList_pushn]
  split
  · exact sign
  · next c same =>
    have shown : '{' ∉ [c] := by rw [← same]; simpa using digits
    simpa [sign, brace_notMem_int] using shown
  · next c rest _ same =>
    have shown : '{' ∉ c :: rest := by rw [← same]; simpa using digits
    simpa [sign, brace_notMem_int] using shown

end Number

namespace Sql

/-! ### Quoting

Quoting doubles marks and adds some, and so adds no brace. -/

private theorem brace_notMem_doubling {c : Char} (other : c ≠ '{') {s : List Char}
    (closed : '{' ∉ s) : '{' ∉ doubling c s := by
  induction s with
  | nil => exact List.not_mem_nil
  | cons d rest ih =>
    obtain ⟨first, later⟩ := not_or.mp (mt List.mem_cons.mpr closed)
    rw [doubling]
    split <;> simp [Ne.symm other, first, ih later]

/-- A quoted name has a brace only if the name has. -/
theorem brace_notMem_quoteName (d : Dialect) {n : String} (closed : '{' ∉ n.toList) :
    '{' ∉ (d.quoteName n).toList := by
  have marks : d.quoteMarks.opening ≠ '{' ∧ d.quoteMarks.closing ≠ '{' := by cases d <;> decide
  rw [Dialect.quoteName, QuoteMarks.quote, String.toList_ofList, QuoteMarks.quoteChars]
  split
  · exact closed
  · simp [Ne.symm marks.1, Ne.symm marks.2, brace_notMem_doubling marks.2 closed]

/-- The same for a string. -/
theorem brace_notMem_quoteString (d : Dialect) {s : String} (closed : '{' ∉ s.toList) :
    '{' ∉ (d.quoteString s).toList := by
  have body (style : StringStyle) : '{' ∉ style.bodyChars s.toList := by
    cases style
    case backslash =>
      exact brace_notMem_doubling (by decide) (brace_notMem_doubling (by decide) closed)
    all_goals exact brace_notMem_doubling (by decide) closed
  rw [Dialect.quoteString, StringStyle.quote, String.toList_ofList, StringStyle.quoteChars]
  split <;> simp [body]

private theorem brace_notMem_functionName (d : Dialect) {n : String} (closed : '{' ∉ n.toList) :
    '{' ∉ (d.functionName n).toList := by
  rw [Dialect.functionName, Dialect.functionSynonym?]
  cases found : d.synonymOfUpper? (Text.upper n) with
  | none => exact Text.brace_notMem_upper closed
  | some name =>
    -- Every name that a function is exchanged for is written out in the table of its dialect.
    have plain : ∀ upper name, d.synonymOfUpper? upper = some name → '{' ∉ name.toList := by
      intro upper name found
      unfold Dialect.synonymOfUpper? at found
      cases d <;> simp only at found <;> split at found <;> cases found <;> decide
    exact plain _ name found

/-! ### The texts of tokens

What a token is written as has a brace only if a text that the token carries has one. So a marker in
rendered SQL comes from a placeholder. -/

/-- The texts that a token carries from outside. -/
def Token.texts : Token → List String
  | .name s | .string s | .function s | .raw s => [s]
  | .qualified schema s => schema.toList ++ [s]
  | _ => []

/-- A token opens a brace only if it is a placeholder or carries a text that does. -/
theorem Token.open_notMem_text (d : Dialect) {t : Token} (known : ∀ p, t ≠ .placeholder p)
    (closed : ∀ s ∈ t.texts, '{' ∉ s.toList) : '{' ∉ (t.text d).toList := by
  cases t with
  | keyword w =>
    have plain : ∀ w ∈ Keyword.list, '{' ∉ w.text.toList := by decide
    exact plain w (by cases w <;> decide)
  | symbol s => cases s <;> cases d <;> decide
  | space | newline | null => simp only [Token.text]; decide
  | indent n => simp [Token.text, Text.toList_pushn]
  | name n => exact brace_notMem_quoteName d (closed n (by simp [texts]))
  | qualified schema n =>
    have last := brace_notMem_quoteName d (closed n (by simp [texts]))
    cases schema with
    | none => exact last
    | some s =>
      have first := brace_notMem_quoteName d (closed s (by simp [texts]))
      simp [Token.text, first, last]
  | int n => exact Number.brace_notMem_int n
  | float x => exact Number.brace_notMem_float x
  | string s => exact brace_notMem_quoteString d (closed s (by simp [texts]))
  | bool b => cases b <;> cases d <;> decide
  | function n => exact brace_notMem_functionName d (closed n (by simp [texts]))
  | placeholder p => exact absurd rfl (known p)
  | raw s => exact closed s (by simp [texts])

/-! ### Finding markers

A text without an opening brace has no marker, and a marker does not depend on what stands before
it. So the markers of a rendered statement are those of its placeholders. -/

section

variable {s rest : List Char}

/-- Where no brace is opened, each character stands for itself. -/
theorem pieces_append (closed : '{' ∉ s) (rest : List Char) :
    pieces (s ++ rest) = s.map Piece.char ++ pieces rest := by
  induction s with
  | nil => rfl
  | cons c s ih =>
    obtain ⟨other, later⟩ := not_or.mp (mt List.mem_cons.mpr closed)
    have plain : marker? (c :: (s ++ rest)) = none := by
      unfold marker?
      split
      · next same => exact absurd (List.cons.inj same).1.symm other
      · rfl
    rw [pieces, List.cons_append, piecesFrom, plain]
    exact congrArg (Piece.char c :: ·) (ih later)

/-- The rest of a marker is passed over. -/
theorem piecesFrom_length (s rest : List Char) : piecesFrom s.length (s ++ rest) = pieces rest := by
  induction s with
  | nil => rfl
  | cons c s ih => exact ih

/-- What a marker looks like: a name between double braces, perhaps with blanks around it. -/
structure Marks (source name : List Char) : Prop where
  written : ∃ left right, source = '{' :: '{' :: (left ++ (name ++ (right ++ ['}', '}']))) ∧
    (∀ c ∈ left, Text.isBlank c = true) ∧ ∀ c ∈ right, Text.isBlank c = true
  nonempty : name ≠ []
  starts : ∀ c ∈ name.head?, c.isDigit = false
  named : ∀ c ∈ name, isMarkerNameChar c = true

/-- The name of a marker is found between its blanks, and with it where the marker ends. -/
theorem marker?_append {source name : List Char} (marks : Marks source name) (rest : List Char) :
    marker? (source ++ rest) = some (name, source.length) := by
  obtain ⟨left, right, rfl, blanks, blanks'⟩ := marks.written
  have inner : Text.trimStart (left ++ (name ++ (right ++ '}' :: '}' :: rest))) =
      name ++ (right ++ '}' :: '}' :: rest) := by
    refine Text.trimStart_append blanks ?_
    rw [List.head?_append_of_ne_nil _ marks.nonempty]
    exact fun c first =>
      Text.isBlank_eq_false_of_nameChar (marks.named c (List.mem_of_mem_head? first))
  have after : Text.trimStart (right ++ '}' :: '}' :: rest) = '}' :: '}' :: rest := by
    refine Text.trimStart_append blanks' fun c first => ?_
    cases first
    decide
  have taken : (name ++ (right ++ '}' :: '}' :: rest)).takeWhile isMarkerNameChar = name := by
    rw [List.takeWhile_append_of_pos marks.named]
    have stops : (right ++ '}' :: '}' :: rest).takeWhile isMarkerNameChar = [] := by
      cases right with
      | nil => exact List.takeWhile_cons_of_neg (by decide)
      | cons c right =>
        refine List.takeWhile_cons_of_neg fun named => ?_
        have blank := blanks' c List.mem_cons_self
        rw [Text.isBlank_eq_false_of_nameChar named] at blank
        cases blank
    rw [stops, List.append_nil]
  obtain ⟨c, cs, rfl⟩ := List.exists_cons_of_ne_nil marks.nonempty
  have other : c.isDigit = false := marks.starts c rfl
  have whole : '{' :: '{' :: (left ++ (c :: cs ++ (right ++ ['}', '}']))) ++ rest =
      '{' :: '{' :: (left ++ (c :: cs ++ (right ++ '}' :: '}' :: rest))) := by simp
  rw [whole, marker?]
  simp only [inner, taken, List.drop_left, after, List.head?_cons, other]
  simp
  omega

/-- A marker is one piece, whatever stands behind it. -/
theorem pieces_marker {source name : List Char} (marks : Marks source name) (rest : List Char) :
    pieces (source ++ rest) = .marker source name :: pieces rest := by
  have found := marker?_append marks rest
  obtain ⟨left, right, rfl, -, -⟩ := marks.written
  rw [List.cons_append] at found ⊢
  rw [pieces, piecesFrom, found]
  simp only [← List.cons_append, List.take_left]
  exact congrArg _ (piecesFrom_length _ rest)

end

/-- The marker of a placeholder is read as that placeholder. -/
theorem Placeholder.exists_marks (p : Placeholder) :
    ∃ name, Marks p.marker.toList name ∧ placeholderNamed name = .ok p := by
  have blank : ∀ c ∈ [' '], Text.isBlank c = true := by rw [List.forall_mem_singleton]; rfl
  cases p with
  | deltaCutoff =>
    refine ⟨"DELTA_CUTOFF".toList,
      ⟨⟨[], [], rfl, by simp, by simp⟩, by simp, ?_, List.all_eq_true.mp rfl⟩, rfl⟩
    rintro c ⟨⟩
    rfl
  | loadTimestamp =>
    refine ⟨"load_timestamp".toList,
      ⟨⟨[' '], [' '], rfl, blank, blank⟩, by simp, ?_, List.all_eq_true.mp rfl⟩, rfl⟩
    rintro c ⟨⟩
    rfl
  | loadRunId =>
    refine ⟨"load_run_id".toList,
      ⟨⟨[' '], [' '], rfl, blank, blank⟩, by simp, ?_, List.all_eq_true.mp rfl⟩, rfl⟩
    rintro c ⟨⟩
    rfl

/-! ### Values in the place of placeholders

To put values into the rendered text is to put them into the tokens and then to render. -/

/-- The constant that a placeholder stands for: the cutoff may be unknown. -/
def RuntimeValues.constant? (values : RuntimeValues) : Placeholder → Option Literal
  | .loadRunId => some (.string values.loadRunId)
  | .loadTimestamp => some (.timestamp values.loadTimestamp)
  | .deltaCutoff => values.deltaCutoff.map .timestamp

/-- The literal of the dialect for the constant of a placeholder. -/
def RuntimeValues.literal? (values : RuntimeValues) (d : Dialect) (p : Placeholder) :
    Option String := do
  let constant ← values.constant? p
  let token ← (constant.token d).toOption
  return token.text d

/-- A placeholder resolves to its literal, and only the cutoff may be missing. -/
theorem RuntimeValues.resolve_eq (values : RuntimeValues) (d : Dialect) (p : Placeholder) :
    values.resolve d p = (values.literal? d p).elim (.error .missingCutoff) .ok := by
  cases p with
  | loadRunId | loadTimestamp => rfl
  | deltaCutoff =>
    rw [resolve, literal?, constant?]
    cases values.deltaCutoff <;> rfl

/-- Only the cutoff may have no literal. -/
theorem RuntimeValues.literal?_eq_none_iff {values : RuntimeValues} {d : Dialect}
    {p : Placeholder} :
    values.literal? d p = none ↔ p = .deltaCutoff ∧ values.deltaCutoff = none := by
  cases p with
  | loadRunId | loadTimestamp => simp [literal?, constant?, Literal.token, Except.toOption]
  | deltaCutoff =>
    rw [literal?, constant?]
    cases values.deltaCutoff <;> simp [Literal.token, Except.toOption]

/-- A token with the literal of its value in its place as raw text, if it is a placeholder that has
one. -/
def Token.filled (d : Dialect) (values : RuntimeValues) : Token → Token
  | .placeholder p => (values.literal? d p).elim (.placeholder p) .raw
  | t => t

/-- Tokens are rendered one after another. -/
theorem render_cons (d : Dialect) (t : Token) (tokens : List Token) :
    render d (t :: tokens) = t.text d ++ render d tokens := by
  simp [render]

/-- Text without markers is copied. -/
theorem substitutePieces_append (d : Dialect) (values : RuntimeValues) (s : List Char)
    (rest : List Piece) :
    substitutePieces d values (s.map Piece.char ++ rest) =
      (substitutePieces d values rest).map (s ++ ·) := by
  induction s with
  | nil =>
    rw [List.map_nil, List.nil_append]
    cases substitutePieces d values rest <;> rfl
  | cons c s ih =>
    rw [List.map_cons, List.cons_append, substitutePieces, ih]
    cases substitutePieces d values rest <;> rfl

section

variable (d : Dialect) (values : RuntimeValues)

/-- A marker is replaced by the literal of its placeholder, if it has one. -/
theorem substitutePieces_marker (p : Placeholder) (rest : List Char) :
    substitutePieces d values (pieces (p.marker.toList ++ rest)) =
      (values.literal? d p).elim (.error .missingCutoff) fun text =>
        (substitutePieces d values (pieces rest)).map (text.toList ++ ·) := by
  obtain ⟨name, marks, named⟩ := p.exists_marks
  rw [pieces_marker marks, substitutePieces, named]
  simp only [bind, Except.bind, RuntimeValues.resolve_eq]
  cases values.literal? d p with
  | none => rfl
  | some text => cases substitutePieces d values (pieces rest) <;> rfl

/-- A token in front of others adds its own text, with its value in its place. -/
theorem substitutePieces_text {t : Token} (closed : ∀ s ∈ t.texts, '{' ∉ s.toList)
    (known : ¬ (t = .placeholder .deltaCutoff ∧ values.deltaCutoff = none)) (rest : List Char) :
    substitutePieces d values (pieces ((t.text d).toList ++ rest)) =
      (substitutePieces d values (pieces rest)).map (((t.filled d values).text d).toList ++ ·) := by
  by_cases placeholder : ∃ p, t = .placeholder p
  · obtain ⟨p, rfl⟩ := placeholder
    rw [Token.text, substitutePieces_marker, Token.filled]
    cases value : values.literal? d p with
    | none =>
      obtain ⟨rfl, missing⟩ := RuntimeValues.literal?_eq_none_iff.mp value
      exact absurd ⟨rfl, missing⟩ known
    | some text => rfl
  · have other : ∀ p, t ≠ .placeholder p := fun p same => placeholder ⟨p, same⟩
    have kept : t.filled d values = t := by
      cases t with
      | placeholder p => exact absurd rfl (other p)
      | _ => rfl
    rw [pieces_append (t.open_notMem_text d other closed), substitutePieces_append, kept]

/-- Substitution commutes with rendering, as long as no text that a token carries opens a brace: it
fails exactly if there is a placeholder for the cutoff and no cutoff, and otherwise gives the text
of the tokens with each placeholder replaced. What is put in may hold anything, the text of a marker
too. -/
theorem substitute_render (tokens : List Token)
    (closed : ∀ t ∈ tokens, ∀ s ∈ t.texts, '{' ∉ s.toList) : substitute (render d tokens) d values =
      if .placeholder .deltaCutoff ∈ tokens ∧ values.deltaCutoff = none then .error .missingCutoff
      else .ok (render d (tokens.map (Token.filled d values))) := by
  have onPieces : substitutePieces d values (pieces (render d tokens).toList) =
      if .placeholder .deltaCutoff ∈ tokens ∧ values.deltaCutoff = none then .error .missingCutoff
      else .ok (render d (tokens.map (Token.filled d values))).toList := by
    induction tokens with
    | nil => simp [render, pieces, piecesFrom, substitutePieces]
    | cons t tokens ih =>
      obtain ⟨first, later⟩ := List.forall_mem_cons.mp closed
      rw [render_cons, String.toList_append]
      by_cases missing : t = .placeholder .deltaCutoff ∧ values.deltaCutoff = none
      · obtain ⟨rfl, unknown⟩ := missing
        have value := RuntimeValues.literal?_eq_none_iff (d := d).mpr ⟨rfl, unknown⟩
        rw [Token.text, substitutePieces_marker, value, if_pos ⟨List.mem_cons_self, unknown⟩]
        rfl
      · have here : (.placeholder .deltaCutoff ∈ t :: tokens ∧ values.deltaCutoff = none) ↔
            .placeholder .deltaCutoff ∈ tokens ∧ values.deltaCutoff = none := by
          rw [List.mem_cons, or_and_right, eq_comm]
          exact or_iff_right missing
        rw [substitutePieces_text d values first missing, ih later]
        simp only [here]
        split
        · rfl
        · rw [List.map_cons, render_cons, String.toList_append]
          rfl
  rw [substitute, onPieces]
  split
  · rfl
  · exact congrArg Except.ok (String.ofList_toList)

end

/-- A run whose name is the marker of another placeholder. -/
def markedRun : RuntimeValues where
  loadRunId := "\x7b\x7bDELTA_CUTOFF\x7d\x7d"
  loadTimestamp := ⟨⟨2024, 3, 9⟩, 8, 30, 0, 0⟩
  deltaCutoff := some ⟨⟨2024, 3, 8⟩, 0, 0, 0, 0⟩

/-- Two placeholders next to each other, and a closing brace behind them. -/
def adjacentMarkers : List Token :=
  [.name "run", .symbol .eq, .placeholder .loadRunId, .placeholder .deltaCutoff, .string "\x7d"]

/-- A value that itself has the text of a marker is put in once, and is not looked through again. -/
theorem substitute_render_markedRun :
    (∀ t ∈ adjacentMarkers, ∀ s ∈ t.texts, '{' ∉ s.toList) ∧
      substitute (render .postgres adjacentMarkers) .postgres markedRun =
        .ok "\"run\"='\x7b\x7bDELTA_CUTOFF\x7d\x7d'CAST('2024-03-08 00:00:00' AS TIMESTAMP)'\x7d'" := by
  have closed : ∀ t ∈ adjacentMarkers, ∀ s ∈ t.texts, '{' ∉ s.toList := by decide
  refine ⟨closed, ?_⟩
  rw [substitute_render .postgres markedRun adjacentMarkers closed]
  decide +kernel

end Sql

end Warehouse
