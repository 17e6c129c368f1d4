/-
Module: Warehouse.Proofs.Sql.KeyGrammar
Purpose: The grammar of surrogate-key expressions as a relation apart from the reader, and the
  reader against it. What the reader accepts are the texts that the grammar derives, each for the
  expression that it is derived from, and what it reports on any other text is a place in that text.
  Every expression whose concatenations have parts has a text.
Trusted boundary: human-reviewed spec (the grammar)
Main exports: KeyExpr.Derives, KeyExpr.IsWrittenAs, KeyExpr.Reads, KeyExpr.readExpr_reads,
  KeyExpr.readExpr_of_derives, KeyExpr.print, KeyExpr.parse_spec
-/
import Mathlib.Data.List.TakeWhile
import Warehouse.Proofs.Sql.Quoting
import Warehouse.Proofs.Text.Blanks
import Warehouse.Sql.KeyExpr

namespace Warehouse.Sql

/-- The place in the text that a fault is reported at. -/
def SurrogateError.offset? : SurrogateError → Option Nat
  | .expected offset _ => some offset
  | .unknownFunction offset _ => some offset
  | .unterminatedString offset => some offset
  | .trailingInput offset => some offset
  | .noColumns => none

namespace KeyExpr

variable {α β : Type} {total : Nat}

/-! ### The grammar

Key expressions are column names and strings, put together by `concat`. Blanks may stand in front of
every token, and names of functions are read in either case. -/

/-- The characters that a string stands between. -/
def IsQuote (c : Char) : Prop := c = '"' ∨ c = '\''

instance (c : Char) : Decidable (IsQuote c) := inferInstanceAs (Decidable (c = '"' ∨ c = '\''))

/-- The writings of a string: between two quotes of one kind, with that quote written twice
inside. -/
def IsString (text : String) (s : List Char) : Prop :=
  ∃ q, IsQuote q ∧ s = q :: (doubling q text.toList ++ [q])

/-- The writings of a function name: its letters in any case. -/
def IsFunction (name : String) (s : List Char) : Prop := s.map Char.toLower = name.toList

/-- The one writing of a mark. -/
def IsMark (c : Char) (s : List Char) : Prop := s = [c]

/-- The writings of a token, with any blanks before them. -/
def Spaced (token : List Char → Prop) (s : List Char) : Prop :=
  ∃ blanks written, s = blanks ++ written ∧ (∀ c ∈ blanks, Text.isBlank c = true) ∧ token written

mutual

/-- The texts of an expression. -/
inductive Derives : KeyExpr → List Char → Prop where
  | concat {parts : List KeyExpr} {function opening inside closing : List Char}
      (name : Spaced (IsFunction "concat") function) (opens : Spaced (IsMark '(') opening)
      (derived : DerivesAll parts inside) (closes : Spaced (IsMark ')') closing) :
      Derives (.concat parts) (function ++ opening ++ inside ++ closing)
  | col {column : String} {function opening inside closing : List Char}
      (name : Spaced (IsFunction "col") function) (opens : Spaced (IsMark '(') opening)
      (string : Spaced (IsString column) inside) (closes : Spaced (IsMark ')') closing) :
      Derives (.col column) (function ++ opening ++ inside ++ closing)
  | lit {text : String} {s : List Char} (string : Spaced (IsString text) s) : Derives (.lit text) s

/-- The texts of one or more expressions with commas between them. -/
inductive DerivesAll : List KeyExpr → List Char → Prop where
  | one {e : KeyExpr} {s : List Char} (derived : Derives e s) : DerivesAll [e] s
  | more {e : KeyExpr} {es : List KeyExpr} {s comma others : List Char} (derived : Derives e s)
      (goesOn : Spaced (IsMark ',') comma) (later : DerivesAll es others) :
      DerivesAll (e :: es) (s ++ comma ++ others)

end

/-- The writings of an expression as a whole text, with any blanks at its end. -/
def IsWrittenAs (e : KeyExpr) (text : String) : Prop :=
  ∃ s blanks, text.toList = s ++ blanks ∧ Derives e s ∧ ∀ c ∈ blanks, Text.isBlank c = true

/-! ### What is read is derived

The reader goes from the left, and keeps what it has read so far as the front of the text. So what
it returns is derived from that front, and where it fails the offset points into the text. -/

/-- What a reader makes of a text: it reads a part at the front, which is a writing of its result,
or it finds a fault where some rest of the text begins. -/
inductive Reads (writes : α → List Char → Prop) (total : Nat) (s : List Char) :
    Except SurrogateError (α × List Char) → Prop where
  | read {a : α} {front rest : List Char} (whole : s = front ++ rest) (written : writes a front) :
      Reads writes total s (.ok (a, rest))
  | fault {e : SurrogateError} {front rest : List Char} (whole : s = front ++ rest)
      (place : e.offset? = some (offsetOf total rest)) : Reads writes total s (.error e)

section

variable {P : α → List Char → Prop} {Q : β → List Char → Prop} {s : List Char}

/-- A fault at the beginning of what is left. -/
theorem Reads.faultHere {e : SurrogateError} (place : e.offset? = some (offsetOf total s)) :
    Reads Q total s (.error e) :=
  .fault (List.nil_append s).symm place

/-- A reader that begins behind some front of the text. -/
theorem Reads.behind {front : List Char} {r : Except SurrogateError (β × List Char)}
    (later : Reads (fun b back => Q b (front ++ back)) total s r) :
    Reads Q total (front ++ s) r := by
  cases later with
  | read whole written => exact .read (by rw [whole, List.append_assoc]) written
  | fault whole place => exact .fault (by rw [whole, ← List.append_assoc]) place

/-- One reader after the other reads what both read. -/
theorem Reads.bind {r : Except SurrogateError (α × List Char)}
    {next : α × List Char → Except SurrogateError (β × List Char)} (first : Reads P total s r)
    (later : ∀ a front rest, P a front →
      Reads (fun b back => Q b (front ++ back)) total rest (next (a, rest))) :
    Reads Q total s (r >>= next) := by
  cases first with
  | read whole written =>
    rw [whole]
    exact (later _ _ _ written).behind
  | fault whole place => exact .fault whole place

/-- A reader that has read everything it is for. -/
theorem Reads.done {b : β} (written : Q b []) : Reads Q total s (.ok (b, s)) :=
  .read (List.nil_append s).symm written

end

/-- A text is some blanks and what is left without them. -/
theorem exists_blanks (s : List Char) :
    ∃ blanks, s = blanks ++ Text.trimStart s ∧ ∀ c ∈ blanks, Text.isBlank c = true :=
  ⟨s.takeWhile Text.isBlank, List.takeWhile_append_dropWhile.symm,
    fun _ member => List.mem_takeWhile_imp member⟩

/-- A mark is read where one is expected, with blanks in front. -/
theorem readMark_reads (c : Char) (part : ExpectedPart) (s : List Char) {Q : β → List Char → Prop}
    {next : List Char → Except SurrogateError (β × List Char)}
    (later : ∀ front rest, Spaced (IsMark c) front →
      Reads (fun b back => Q b (front ++ back)) total rest (next rest)) :
    Reads Q total s (readMark total c part s >>= next) := by
  obtain ⟨blanks, whole, blank⟩ := exists_blanks s
  rw [readMark]
  generalize Text.trimStart s = t at whole ⊢
  have missing : Reads Q total s (.error (.expected (offsetOf total t) part)) := .fault whole rfl
  cases t with
  | nil => exact missing
  | cons d rest =>
    dsimp only
    split
    · next same =>
      subst same
      rw [whole, ← List.singleton_append, ← List.append_assoc]
      exact (later _ _ ⟨blanks, _, rfl, blank, rfl⟩).behind
    · exact missing

/-- A string is read like a quoted name. -/
theorem stringBody?_eq_readQuoted? (q : Char) (s : List Char) :
    stringBody? q s = readQuoted? false q s := by
  fun_induction stringBody? q s with
  | case1 => rfl
  | case2 => simp [readQuoted?]
  | case3 => simp_all [readQuoted?]
  | case4 => simp_all [readQuoted?]
  | case5 => simp_all [readQuoted?]
  | case6 => simp_all [readQuoted?]

/-- What stands before the closing quote has its own quotes written twice. -/
theorem eq_of_stringBody? {q : Char} {s body rest : List Char}
    (closed : stringBody? q s = some (body, rest)) : s = doubling q body ++ q :: rest := by
  rw [stringBody?_eq_readQuoted?] at closed
  exact eq_of_readQuoted? closed

/-- A string is read up to the quote that ends it. -/
theorem readString_reads (s : List Char) : Reads IsString total s (readString total s) := by
  cases s with
  | nil => exact .faultHere rfl
  | cons q rest =>
    rw [readString]
    split
    · next quote =>
      cases closed : stringBody? q rest with
      | none => exact .faultHere rfl
      | some found =>
        obtain ⟨body, rest'⟩ := found
        have whole : q :: rest = q :: (doubling q body ++ [q]) ++ rest' := by
          rw [eq_of_stringBody? closed, List.cons_append, List.append_assoc]
          rfl
        exact .read whole ⟨q, quote, by rw [String.toList_ofList]⟩
    · exact .faultHere rfl

/-- The writings of the parts of a concatenation, up to its closing parenthesis. -/
def DerivesClosed (parts : List KeyExpr) (s : List Char) : Prop :=
  ∃ inside closing, s = inside ++ closing ∧ DerivesAll parts inside ∧ Spaced (IsMark ')') closing

mutual

/-- What an expression is read from is a text of it. -/
theorem readExpr_reads : ∀ (fuel : Nat) (s : List Char),
    Reads Derives total s (readExpr total fuel s)
  | 0, s => by
    rw [readExpr]
    exact .faultHere rfl
  | fuel + 1, s => by
    obtain ⟨blanks, whole, blank⟩ := exists_blanks s
    rw [readExpr]
    generalize Text.trimStart s = t at whole ⊢
    subst whole
    cases t with
    | nil => exact .fault rfl rfl
    | cons c rest =>
      dsimp only
      split
      · refine .behind (.bind (readString_reads _) fun text front rest string => .done (.lit ?_))
        exact ⟨blanks, front, by simp, blank, string⟩
      split
      · -- A letter begins the name of a function.
        have named : c :: rest = (c :: rest).takeWhile isNameChar ++
            (c :: rest).dropWhile isNameChar :=
          List.takeWhile_append_dropWhile.symm
        generalize (c :: rest).takeWhile isNameChar = name at named ⊢
        generalize (c :: rest).dropWhile isNameChar = args at named ⊢
        rw [named, ← List.append_assoc]
        split
        · next concat =>
          refine .behind (readMark_reads _ _ _ fun opening inside opens =>
            .bind (readParts_reads fuel inside) fun parts written left closed => ?_)
          obtain ⟨inside, closing, rfl, derived, closes⟩ := closed
          refine .done ?_
          have function : Spaced (IsFunction "concat") (blanks ++ name) :=
            ⟨blanks, name, rfl, blank, concat⟩
          simpa using Derives.concat function opens derived closes
        split
        · next col =>
          refine .behind (readMark_reads _ _ _ fun opening inside opens => ?_)
          obtain ⟨blanks', whole', blank'⟩ := exists_blanks inside
          generalize Text.trimStart inside = string at whole' ⊢
          subst whole'
          refine .behind (.bind (readString_reads string) fun column written left spelt =>
            readMark_reads _ _ _ fun closing left closes => .done ?_)
          have function : Spaced (IsFunction "col") (blanks ++ name) :=
            ⟨blanks, name, rfl, blank, col⟩
          have spaced : Spaced (IsString column) (blanks' ++ written) :=
            ⟨blanks', written, rfl, blank', spelt⟩
          simpa using Derives.col function opens spaced closes
        · rw [List.append_assoc, ← named]
          exact .fault rfl rfl
      · exact .fault rfl rfl

/-- The parts of a concatenation are read up to the closing parenthesis. -/
theorem readParts_reads : ∀ (fuel : Nat) (s : List Char),
    Reads DerivesClosed total s (readParts total fuel s)
  | 0, s => by
    rw [readParts]
    exact .faultHere rfl
  | fuel + 1, s => by
    rw [readParts]
    refine .bind (readExpr_reads fuel s) fun first front rest derived => ?_
    obtain ⟨blanks, whole, blank⟩ := exists_blanks rest
    dsimp only
    split
    · next others comma =>
      rw [comma, ← List.singleton_append, ← List.append_assoc] at whole
      rw [whole]
      refine .behind (.bind (readParts_reads fuel others) fun parts written left closed => ?_)
      obtain ⟨inside, closing, rfl, later, closes⟩ := closed
      refine .done ⟨front ++ (blanks ++ [',']) ++ inside, closing, by simp, ?_, closes⟩
      exact .more derived ⟨blanks, [','], rfl, blank, rfl⟩ later
    · exact readMark_reads _ _ _ fun closing left closes =>
        .done ⟨front, closing, by simp, .one derived, closes⟩

end

/-! ### What is derived is read

Conversely, what is derived is read back, whatever stands behind, as long as it cannot be taken for
a part of the last token. The fuel bounds the depth, and each token takes one character at least. -/

private theorem IsQuote.isBlank_eq_false {c : Char} (quote : IsQuote c) :
    Text.isBlank c = false := by
  rcases quote with rfl | rfl <;> decide

private theorem not_isQuote_of_isBlank {c : Char} (blank : Text.isBlank c = true) :
    ¬ IsQuote c := by
  intro quote
  rw [quote.isBlank_eq_false] at blank
  cases blank

private theorem isNameChar_eq_false_of_isBlank {c : Char} (blank : Text.isBlank c = true) :
    isNameChar c = false := by
  by_contra named
  rw [Text.isBlank_eq_false_of_nameChar (eq_true_of_ne_false named)] at blank
  cases blank

/-- What begins with a mark begins with a blank or with that mark. -/
theorem Spaced.head {c : Char} {s rest : List Char} (mark : Spaced (IsMark c) s) :
    ∀ x ∈ (s ++ rest).head?, Text.isBlank x = true ∨ x = c := by
  obtain ⟨blanks, _, rfl, blank, rfl⟩ := mark
  cases blanks with
  | nil =>
    rintro _ ⟨⟩
    exact .inr rfl
  | cons b blanks =>
    rintro _ ⟨⟩
    exact .inl (blank b (by simp))

/-- No quote stands at the head of what begins with another mark. -/
theorem Spaced.head_not_isQuote {c : Char} {s rest : List Char} (mark : Spaced (IsMark c) s)
    (other : ¬ IsQuote c) : ∀ x ∈ (s ++ rest).head?, ¬ IsQuote x := by
  intro x first
  rcases mark.head x first with blank | rfl
  · exact not_isQuote_of_isBlank blank
  · exact other

/-- A name ends in front of a mark. -/
theorem Spaced.head_not_isNameChar {c : Char} {s rest : List Char} (mark : Spaced (IsMark c) s)
    (other : isNameChar c = false) : ∀ x ∈ (s ++ rest).head?, isNameChar x = false := by
  intro x first
  rcases mark.head x first with blank | rfl
  · exact isNameChar_eq_false_of_isBlank blank
  · exact other

/-- Behind its blanks a mark is the first that is found. -/
theorem Spaced.trimStart {c : Char} {s rest : List Char} (mark : Spaced (IsMark c) s)
    (solid : Text.isBlank c = false) : Text.trimStart (s ++ rest) = c :: rest := by
  obtain ⟨blanks, _, rfl, blank, rfl⟩ := mark
  rw [List.append_assoc]
  exact Text.trimStart_append blank (by rintro _ ⟨⟩; exact solid)

private theorem readMark_of_spaced {c : Char} {part : ExpectedPart} {s rest : List Char}
    (mark : Spaced (IsMark c) s) (solid : Text.isBlank c = false) :
    readMark total c part (s ++ rest) = .ok rest := by
  rw [readMark, mark.trimStart solid]
  exact if_pos rfl

/-- A string ends at the first quote that is not followed by another. -/
theorem stringBody?_doubling {q : Char} {rest : List Char} (ends : ∀ x ∈ rest.head?, x ≠ q)
    (text : List Char) : stringBody? q (doubling q text ++ q :: rest) = some (text, rest) := by
  rw [stringBody?_eq_readQuoted?]
  exact readQuoted?_doubling (fun both => Bool.noConfusion both.1) ends text

/-- A string that is derived is read, unless another quote follows. -/
theorem readString_of_isString {text : String} {s rest : List Char} (string : IsString text s)
    (ends : ∀ x ∈ rest.head?, ¬ IsQuote x) : readString total (s ++ rest) = .ok (text, rest) := by
  obtain ⟨q, quote, rfl⟩ := string
  have closed : stringBody? q (doubling q text.toList ++ q :: rest) = some (text.toList, rest) :=
    stringBody?_doubling (fun x first same => ends x first (same ▸ quote)) text.toList
  have shape : q :: (doubling q text.toList ++ [q]) ++ rest =
    q :: (doubling q text.toList ++ q :: rest) := by simp
  rw [shape, readString, if_pos (show q = '"' ∨ q = '\'' from quote), closed]
  dsimp only
  rw [String.ofList_toList]

private theorem Spaced.trimStart_string {text : String} {s : List Char}
    (string : Spaced (IsString text) s) (rest : List Char) :
    ∃ q body, IsQuote q ∧ IsString text (q :: body) ∧
      Text.trimStart (s ++ rest) = q :: (body ++ rest) := by
  obtain ⟨blanks, _, rfl, blank, q, quote, rfl⟩ := string
  refine ⟨q, _, quote, ⟨q, quote, rfl⟩, ?_⟩
  rw [List.append_assoc, Text.trimStart_append blank (by rintro _ ⟨⟩; exact quote.isBlank_eq_false)]
  rfl

private theorem readString_of_spaced {text : String} {s rest : List Char}
    (string : Spaced (IsString text) s) (ends : ∀ x ∈ rest.head?, ¬ IsQuote x) :
    readString total (Text.trimStart (s ++ rest)) = .ok (text, rest) := by
  obtain ⟨q, body, -, written, trimmed⟩ := string.trimStart_string rest
  rw [trimmed]
  exact readString_of_isString written ends

private theorem readExpr_lit {fuel : Nat} {text : String} {s rest : List Char}
    (string : Spaced (IsString text) s) (ends : ∀ x ∈ rest.head?, ¬ IsQuote x) :
    readExpr total (fuel + 1) (s ++ rest) = .ok (lit text, rest) := by
  have read : readString total (Text.trimStart (s ++ rest)) = .ok (text, rest) :=
    readString_of_spaced string ends
  obtain ⟨q, body, quote, -, trimmed⟩ := string.trimStart_string rest
  rw [trimmed] at read
  rw [readExpr, trimmed]
  dsimp only
  rw [if_pos (show q = '"' ∨ q = '\'' from quote), read]
  rfl

/-- What becomes a letter in small letters is a letter: a capital is one, and nothing else
changes. -/
private theorem isAlpha_of_toLower {c : Char} (letter : c.toLower.isAlpha = true) :
    c.isAlpha = true := by
  by_cases upper : c.isUpper = true
  · exact Bool.or_eq_true_iff.mpr (.inl upper)
  · have unchanged : c.toLower = c := dif_neg fun bounds => upper (decide_eq_true bounds)
    rwa [unchanged] at letter

/-- The letters of a function name are characters of a name. -/
theorem IsFunction.isAlpha {name : String} {s : List Char} (function : IsFunction name s)
    (letters : name.toList.all Char.isAlpha = true) : ∀ c ∈ s, c.isAlpha = true := by
  intro c member
  refine isAlpha_of_toLower (List.all_eq_true.mp letters _ ?_)
  rw [← function]
  exact List.mem_map_of_mem member

/-- A function name that nothing of a name follows is read as far as it goes. -/
theorem Spaced.readName {name : String} {s rest : List Char} (function : Spaced (IsFunction name) s)
    (letters : name.toList.all Char.isAlpha = true) (named : name.toList ≠ [])
    (ends : ∀ x ∈ rest.head?, isNameChar x = false) :
    ∃ c others, Text.trimStart (s ++ rest) = c :: (others ++ rest) ∧ ¬ IsQuote c ∧
      c.isAlpha = true ∧ (c :: (others ++ rest)).takeWhile isNameChar = c :: others ∧
      (c :: (others ++ rest)).dropWhile isNameChar = rest ∧
      (c :: others).map Char.toLower = name.toList := by
  obtain ⟨blanks, written, rfl, blank, function⟩ := function
  have alpha := function.isAlpha letters
  have chars : ∀ c ∈ written, isNameChar c = true := fun c member => by
    simp [isNameChar, Char.isAlphanum, alpha c member]
  obtain ⟨c, others, rfl⟩ : ∃ c others, written = c :: others := by
    refine List.exists_cons_of_ne_nil ?_
    rintro rfl
    exact named function.symm
  have solid : ∀ x ∈ (c :: others ++ rest).head?, Text.isBlank x = false := by
    rintro _ ⟨⟩
    exact Text.isBlank_eq_false_of_nameChar (chars c (by simp))
  refine ⟨c, others, ?_, ?_, alpha c (by simp), takeWhile_append_of_ends chars ends,
    dropWhile_append_of_ends chars ends, function⟩
  · rw [List.append_assoc, Text.trimStart_append blank solid]
    rfl
  · have letter := alpha c (by simp)
    rintro (rfl | rfl)
    all_goals exact absurd letter (by decide)

private theorem readExpr_concat {fuel : Nat} {s rest : List Char}
    (function : Spaced (IsFunction "concat") s) (ends : ∀ x ∈ rest.head?, isNameChar x = false) :
    readExpr total (fuel + 1) (s ++ rest) = (do
      let inside ← readMark total '(' .openConcat rest
      let (parts, left) ← readParts total fuel inside
      return (concat parts, left)) := by
  obtain ⟨c, others, trimmed, other, letter, name, args, same⟩ :=
    function.readName (by decide) (by decide) ends
  rw [readExpr, trimmed]
  dsimp only
  rw [if_neg (show ¬ (c = '"' ∨ c = '\'') from other), if_pos letter, name, args, if_pos same]

private theorem readExpr_col {fuel : Nat} {s rest : List Char}
    (function : Spaced (IsFunction "col") s) (ends : ∀ x ∈ rest.head?, isNameChar x = false) :
    readExpr total (fuel + 1) (s ++ rest) = (do
      let inside ← readMark total '(' .openCol rest
      let (column, left) ← readString total (Text.trimStart inside)
      let left ← readMark total ')' .closeCol left
      return (col column, left)) := by
  obtain ⟨c, others, trimmed, other, letter, name, args, same⟩ :=
    function.readName (by decide) (by decide) ends
  rw [readExpr, trimmed]
  dsimp only
  rw [if_neg (show ¬ (c = '"' ∨ c = '\'') from other), if_pos letter, name, args, same,
    if_neg (by decide), if_pos rfl]

private theorem Spaced.length_pos {token : List Char → Prop} {s : List Char}
    (spaced : Spaced token s) (solid : ¬ token []) : 0 < s.length := by
  obtain ⟨blanks, written, rfl, -, writes⟩ := spaced
  have filled : written ≠ [] := by
    rintro rfl
    exact solid writes
  rw [List.length_append]
  exact Nat.add_pos_right _ (List.length_pos_iff.mpr filled)

private theorem not_isMark_nil {c : Char} : ¬ IsMark c [] := by simp [IsMark]

private theorem not_isString_nil {text : String} : ¬ IsString text [] := by simp [IsString]

mutual

/-- A text of an expression is read as that expression wherever no quote follows. -/
theorem readExpr_of_derives : ∀ {e : KeyExpr} {s rest : List Char} {fuel : Nat}, Derives e s →
    2 * s.length ≤ fuel → (∀ x ∈ rest.head?, ¬ IsQuote x) →
    readExpr total fuel (s ++ rest) = .ok (e, rest)
  | _, _, rest, fuel,
    @Derives.concat parts function opening inside closing name opens derived closes, enough, _ => by
    have opening_pos := opens.length_pos not_isMark_nil
    have closing_pos := closes.length_pos not_isMark_nil
    simp only [List.length_append] at enough
    obtain ⟨fuel, rfl⟩ : ∃ f, fuel = f + 1 := ⟨fuel - 1, by omega⟩
    have read : readParts total fuel (inside ++ (closing ++ rest)) = .ok (parts, rest) :=
      readParts_of_derivesAll derived closes (by omega)
    rw [List.append_assoc, List.append_assoc, List.append_assoc,
      readExpr_concat name (opens.head_not_isNameChar (by decide)),
      readMark_of_spaced opens (by decide)]
    dsimp only [bind, Except.bind]
    rw [read]
    rfl
  | _, _, rest, fuel, @Derives.col column function opening inside closing name opens string closes,
    enough, _ => by
    have opening_pos := opens.length_pos not_isMark_nil
    simp only [List.length_append] at enough
    obtain ⟨fuel, rfl⟩ : ∃ f, fuel = f + 1 := ⟨fuel - 1, by omega⟩
    have read : readString total (Text.trimStart (inside ++ (closing ++ rest))) =
        .ok (column, closing ++ rest) :=
      readString_of_spaced string (closes.head_not_isQuote (by decide))
    rw [List.append_assoc, List.append_assoc, List.append_assoc,
      readExpr_col name (opens.head_not_isNameChar (by decide)),
      readMark_of_spaced opens (by decide)]
    dsimp only [bind, Except.bind]
    rw [read]
    dsimp only
    rw [readMark_of_spaced closes (by decide)]
    rfl
  | _, s, _, fuel, .lit string, enough, ends => by
    have written_pos := string.length_pos not_isString_nil
    obtain ⟨fuel, rfl⟩ : ∃ f, fuel = f + 1 := ⟨fuel - 1, by omega⟩
    exact readExpr_lit string ends

/-- The parts that are derived are read with enough fuel, up to the parenthesis. -/
theorem readParts_of_derivesAll : ∀ {es : List KeyExpr} {s closing rest : List Char} {fuel : Nat},
    DerivesAll es s → Spaced (IsMark ')') closing → 2 * s.length + 1 ≤ fuel →
    readParts total fuel (s ++ (closing ++ rest)) = .ok (es, rest)
  | _, _, closing, rest, fuel + 1, .one derived, closes, enough => by
    rw [readParts, readExpr_of_derives derived (by omega) (closes.head_not_isQuote (by decide))]
    dsimp only [bind, Except.bind]
    rw [closes.trimStart (by decide), readMark_of_spaced closes (by decide)]
    rfl
  | _, _, closing, rest, fuel + 1, @DerivesAll.more e es s comma others derived goesOn later,
    closes, enough => by
    have comma_pos := goesOn.length_pos not_isMark_nil
    simp only [List.length_append] at enough
    rw [List.append_assoc, List.append_assoc, readParts,
      readExpr_of_derives derived (by omega) (goesOn.head_not_isQuote (by decide))]
    dsimp only [bind, Except.bind]
    rw [goesOn.trimStart (by decide)]
    change (readParts total fuel (others ++ (closing ++ rest))).bind _ = _
    rw [readParts_of_derivesAll later closes (by omega)]
    rfl

end

/-! ### Printing

A printed expression has no blanks but one behind each comma, and its strings in single quotes. So
it is derived in the plainest way. -/

/-- A text between quotes. -/
def quoted (q : Char) (text : String) : List Char := q :: (doubling q text.toList ++ [q])

mutual

/-- The plain text of an expression: function names in lower case, columns between double quotes and
strings between single ones. -/
def printChars : KeyExpr → List Char
  | concat parts => "concat(".toList ++ printAll parts ++ [')']
  | col name => "col(".toList ++ quoted '"' name ++ [')']
  | lit text => quoted '\'' text

/-- Several expressions with commas between them. -/
def printAll : List KeyExpr → List Char
  | [] => []
  | [e] => e.printChars
  | e :: e' :: es => e.printChars ++ ", ".toList ++ printAll (e' :: es)

end

/-- `printChars` as a string. -/
def print (e : KeyExpr) : String := String.ofList e.printChars

mutual

/-- Whether every concatenation has parts. -/
def isFilled : KeyExpr → Bool
  | concat parts => !parts.isEmpty && allFilled parts
  | col _ => true
  | lit _ => true

/-- Whether every concatenation in several expressions has parts. -/
def allFilled : List KeyExpr → Bool
  | [] => true
  | e :: es => e.isFilled && allFilled es

end

/-- A token with no blanks before it. -/
theorem Spaced.plain {token : List Char → Prop} {s : List Char} (writes : token s) :
    Spaced token s :=
  ⟨[], s, rfl, by simp, writes⟩

private theorem isString_quoted {q : Char} (quote : IsQuote q) (text : String) :
    IsString text (quoted q text) :=
  ⟨q, quote, rfl⟩

/-- A blank before any token of a text changes nothing. -/
theorem Spaced.blank {token : List Char → Prop} {s : List Char} {c : Char} (spaced : Spaced token s)
    (blank : Text.isBlank c = true) : Spaced token (c :: s) := by
  obtain ⟨blanks, written, rfl, others, writes⟩ := spaced
  exact ⟨c :: blanks, written, rfl, List.forall_mem_cons.mpr ⟨blank, others⟩, writes⟩

/-- A blank may stand in front of an expression. -/
theorem Derives.blank {e : KeyExpr} {s : List Char} {c : Char} (derived : Derives e s)
    (blank : Text.isBlank c = true) : Derives e (c :: s) := by
  cases derived with
  | concat name opens derived closes => exact .concat (name.blank blank) opens derived closes
  | col name opens string closes => exact .col (name.blank blank) opens string closes
  | lit string => exact .lit (string.blank blank)

/-- A blank may stand in front of a list of them. -/
theorem DerivesAll.blank {es : List KeyExpr} {s : List Char} {c : Char} (derived : DerivesAll es s)
    (blank : Text.isBlank c = true) : DerivesAll es (c :: s) := by
  cases derived with
  | one derived => exact .one (derived.blank blank)
  | more derived goesOn later => exact .more (derived.blank blank) goesOn later

mutual

/-- What is printed is derived, if it is an expression that can be written. -/
theorem derives_printChars : ∀ {e : KeyExpr}, e.isFilled = true → Derives e e.printChars
  | .concat parts, filled => by
    obtain ⟨parted, filled⟩ := Bool.and_eq_true_iff.mp filled
    have derived := derivesAll_printAll (by simpa using parted) filled
    have name : Spaced (IsFunction "concat") "concat".toList := .plain rfl
    exact .concat name (.plain rfl) derived (.plain rfl)
  | .col column, _ => by
    have name : Spaced (IsFunction "col") "col".toList := .plain rfl
    exact .col name (.plain rfl) (.plain (isString_quoted (.inl rfl) column)) (.plain rfl)
  | .lit text, _ => .lit (.plain (isString_quoted (.inr rfl) text))

/-- So is a list that is printed. -/
theorem derivesAll_printAll : ∀ {es : List KeyExpr}, es ≠ [] → allFilled es = true →
    DerivesAll es (printAll es)
  | [e], _, filled => .one (derives_printChars (Bool.and_eq_true_iff.mp filled).1)
  | e :: e' :: es, _, filled => by
    obtain ⟨first, others⟩ := Bool.and_eq_true_iff.mp filled
    have later := (derivesAll_printAll (List.cons_ne_nil e' es) others).blank (c := ' ') (by decide)
    have derived := DerivesAll.more (derives_printChars first) (.plain rfl) later
    simpa [printAll] using derived

end

/-! ### Whole texts -/

private theorem byteLength_toList (text : String) :
    Text.byteLength text.toList = text.utf8ByteSize := by
  have of (s : List Char) : Text.byteLength s = (String.ofList s).utf8ByteSize := by
    induction s with
    | nil => rfl
    | cons c rest ih =>
      rw [Text.byteLength, ih, String.ofList_cons, String.utf8ByteSize_append,
        String.utf8ByteSize_singleton]
  rw [of, String.ofList_toList]

/-- Where a rest of a text begins is a boundary between two of its characters. -/
theorem isValid_offsetOf {text : String} {front rest : List Char}
    (whole : text.toList = front ++ rest) :
    (String.Pos.Raw.mk (offsetOf text.utf8ByteSize rest)).IsValid text := by
  have parts : text = String.ofList front ++ String.ofList rest := by
    rw [← String.ofList_append, ← whole, String.ofList_toList]
  have bytes : offsetOf text.utf8ByteSize rest = (String.ofList front).utf8ByteSize := by
    rw [offsetOf, ← byteLength_toList, whole, Text.byteLength_append, Nat.add_sub_cancel_right,
      ← byteLength_toList, String.toList_ofList]
  rw [String.Pos.Raw.isValid_iff_exists_append]
  exact ⟨_, _, parts, by rw [bytes]; rfl⟩

private theorem trimStart_eq_nil_iff {s : List Char} : Text.trimStart s = [] ↔
    ∀ c ∈ s, Text.isBlank c = true :=
  List.dropWhile_eq_nil_iff

/-- A whole text is a writing of what is read from it, or the fault is reported where some rest of
it begins. -/
theorem parse_reads (text : String) : (∃ e, parse text = .ok e ∧ e.IsWrittenAs text) ∨
    ∃ fault front rest, parse text = .error fault ∧ text.toList = front ++ rest ∧
      fault.offset? = some (offsetOf text.utf8ByteSize rest) := by
  rw [parse, byteLength_toList]
  dsimp only
  generalize 2 * text.toList.length + 2 = fuel
  have read : Reads Derives text.utf8ByteSize text.toList
      (readExpr text.utf8ByteSize fuel text.toList) :=
    readExpr_reads fuel text.toList
  generalize readExpr text.utf8ByteSize fuel text.toList = r at read
  cases read with
  | @read e front rest whole derived =>
    obtain ⟨blanks, left, blank⟩ := exists_blanks rest
    dsimp only [bind, Except.bind]
    cases trailing : Text.trimStart rest with
    | nil =>
      rw [trailing, List.append_nil] at left
      exact .inl ⟨e, rfl, front, rest, whole, derived, left ▸ blank⟩
    | cons c others =>
      refine .inr ⟨_, front ++ blanks, c :: others, rfl, ?_, rfl⟩
      rw [whole, List.append_assoc, ← trailing, ← left]
  | @fault fault front rest whole place => exact .inr ⟨fault, front, rest, rfl, whole, place⟩

/-- A text is read as an expression just if it is a way to write it. -/
theorem parse_eq_ok_iff {text : String} {e : KeyExpr} : parse text = .ok e ↔
    e.IsWrittenAs text := by
  constructor
  · intro accepted
    rcases parse_reads text with ⟨e', read, written⟩ | ⟨fault, _, _, failed, -, -⟩
    · rw [read] at accepted
      cases accepted
      exact written
    · rw [failed] at accepted
      cases accepted
  · rintro ⟨s, blanks, whole, derived, blank⟩
    have enough : 2 * s.length ≤ 2 * (s ++ blanks).length + 2 := by
      rw [List.length_append]
      omega
    have ends : ∀ x ∈ blanks.head?, ¬ IsQuote x := fun x first =>
      not_isQuote_of_isBlank (blank x (List.mem_of_head? first))
    rw [parse, whole, readExpr_of_derives derived enough ends]
    dsimp only [bind, Except.bind]
    rw [trimStart_eq_nil_iff.mpr blank]
    rfl

/-- An expression whose concatenations have parts is a writing of itself when printed. -/
theorem isWrittenAs_print {e : KeyExpr} (filled : e.isFilled = true) : e.IsWrittenAs e.print :=
  ⟨e.printChars, [],
    by rw [print, String.toList_ofList, List.append_nil], derives_printChars filled, by simp⟩

/-- A text is read as an expression exactly if the grammar derives it for that expression, which is
the only one that it does. An expression whose concatenations have parts is read back from its
printed text. A fault is reported within the text, on the boundary of a character. -/
theorem parse_spec (text : String) (e : KeyExpr) :
    (parse text = .ok e ↔ e.IsWrittenAs text) ∧
    (∀ e', e.IsWrittenAs text → e'.IsWrittenAs text → e = e') ∧
    (e.isFilled = true → parse e.print = .ok e) ∧
    ∀ fault, parse text = .error fault →
      ∃ offset, fault.offset? = some offset ∧ offset ≤ text.utf8ByteSize ∧
        (String.Pos.Raw.mk offset).IsValid text := by
  refine ⟨parse_eq_ok_iff, fun e' written written' => ?_, fun filled => ?_, fun fault failed => ?_⟩
  · have read := parse_eq_ok_iff.mpr written
    rw [parse_eq_ok_iff.mpr written'] at read
    exact (Except.ok.inj read).symm
  · exact parse_eq_ok_iff.mpr (isWrittenAs_print filled)
  · rcases parse_reads text with ⟨e', read, -⟩ | ⟨fault', front, rest, failed', whole, place⟩
    · rw [read] at failed
      cases failed
    · rw [failed'] at failed
      cases failed
      exact ⟨_, place, Nat.sub_le _ _, isValid_offsetOf whole⟩

/-- A region and a customer, where the names and the string between them have quotes and other
characters in them. -/
def quotedExample : KeyExpr :=
  .concat [.col "ré\"gion", .lit "it's — ", .concat [.col "客户"]]

/-- A text that breaks off in a string, behind characters of several bytes. -/
def brokenExample : String := "concat('é—', col(\"客\"), 'x"

/-- The expression comes back from its printed text, and the broken text is faulted in front of its
last string. -/
theorem parse_quotedExample : parse quotedExample.print = .ok quotedExample ∧
    parse brokenExample = .error (.unterminatedString 28) ∧
    (String.Pos.Raw.mk 28).IsValid brokenExample := by
  have failed : parse brokenExample = .error (.unterminatedString 28) := by
    have found : (match parse brokenExample with | .error fault => some fault | .ok _ => none) =
        some (.unterminatedString 28) := by
      decide +kernel
    cases read : parse brokenExample with
    | error fault => rw [read] at found; rw [Option.some.inj found]
    | ok e => rw [read] at found; cases found
  obtain ⟨offset, place, -, valid⟩ := (parse_spec brokenExample quotedExample).2.2.2 _ failed
  cases place
  exact ⟨(parse_spec brokenExample quotedExample).2.2.1 (by decide +kernel), failed, valid⟩

end KeyExpr

end Warehouse.Sql
