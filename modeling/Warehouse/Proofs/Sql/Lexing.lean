/-
Module: Warehouse.Proofs.Sql.Lexing
Purpose: SQL as a sequence of kinds of tokens. A lexer that knows how a dialect quotes goes over a
  text from the left, and of names and strings it keeps only that they are there. A list of tokens
  is read piece by piece where punctuation or a blank stands between any two of them that could run
  together.
Trusted boundary: human-reviewed spec (how a database tells tokens apart)
Main exports: Kind, lexHead?, lex, lex_stop, lex_name, lex_words, LexesTo, FunctionsAlike,
  PlainFunction, SameKinds, SameKinds.append, SameKinds.intersperse, SameKinds.call,
  SameKinds.lex_eq
-/
import Mathlib.Data.List.TakeWhile
import Mathlib.Tactic.SplitIfs
import Warehouse.Proofs.Lists
import Warehouse.Proofs.Sql.Quoting
import Warehouse.Proofs.Sql.Substitution
import Warehouse.Sql.Token

namespace Warehouse.Sql

/-! ### Kinds of tokens -/

/-- What a token of a SQL text is. Words that SQL knows are told apart, other words and what is
quoted are not. -/
inductive Kind where
  | name
  | string
  | number
  | keyword (text : String)
  | word
  | symbol (c : Char)
  /-- A quote or a comment that does not end. -/
  | unclosed
deriving DecidableEq, Repr

/-- A character of words, in any script. -/
def isWordPart (c : Char) : Bool := Text.isAlphanumeric c || c = '_'

/-- The words of all keywords. -/
def keywordWords : List String :=
  Keyword.list.flatMap fun k => (Text.words k.text.toList).map String.ofList

def wordKind (w : List Char) : Kind :=
  if w.all Char.isDigit then .number
  else if keywordWords.contains (Text.upper (String.ofList w)) then
    .keyword (Text.upper (String.ofList w))
  else .word

/-- What stands behind the first end of a comment, if it ends. -/
def behindComment? : List Char → Option (List Char)
  | '*' :: '/' :: rest => some rest
  | _ :: rest => behindComment? rest
  | [] => none

/-- The first token of a text as its kind, or nothing for a blank or a comment, and what stands
behind it. -/
def lexHead? (d : Dialect) : List Char → Option (List Kind × List Char)
  | [] => none
  | c :: rest =>
    if c = d.quoteMarks.opening then
      match d.quoteMarks.read? (c :: rest) with
      | some (_, behind) => some ([.name], behind)
      | none => some ([.unclosed], [])
    else if c = '\'' then
      match d.readLiteral? (c :: rest) with
      | some (_, behind) => some ([.string], behind)
      | none => some ([.unclosed], [])
    else if isWordPart c then
      some ([wordKind (c :: rest.takeWhile isWordPart)], rest.dropWhile isWordPart)
    else if Text.isBlank c then some ([], rest)
    else if c = '-' ∧ rest.head? = some '-' then some ([], rest.dropWhile (· ≠ '\n'))
    else if c = '/' ∧ rest.head? = some '*' then
      match behindComment? (rest.drop 1) with
      | some behind => some ([], behind)
      | none => some ([.unclosed], [])
    else some ([.symbol c], rest)

section

variable {d : Dialect} {s rest : List Char} {kinds : List Kind}

private theorem length_readQuoted?_lt {escapes : Bool} {closing : Char} {inside : List Char}
    (read : readQuoted? escapes closing s = some (inside, rest)) : rest.length < s.length := by
  fun_induction readQuoted? escapes closing s generalizing inside with
  | case1 => cases read
  | case2 | case6 =>
    cases read
    simp
  | case3 => cases read
  | case4 _ _ _ _ ih | case5 _ _ ih | case7 _ _ _ _ _ ih =>
    obtain ⟨⟨inside', left⟩, later, same⟩ := Option.map_eq_some_iff.mp read
    cases same
    have := ih later
    simp at this ⊢
    omega

private theorem length_behindComment?_lt (read : behindComment? s = some rest) :
    rest.length < s.length := by
  fun_induction behindComment? s with
  | case1 =>
    cases read
    exact Nat.lt_add_of_pos_right (Nat.zero_lt_two)
  | case2 _ _ _ ih => exact Nat.lt_succ_of_lt (ih read)
  | case3 => cases read

/-- A token is no longer than the text, and not empty. -/
theorem length_lexHead?_lt (head : lexHead? d s = some (kinds, rest)) : rest.length < s.length := by
  have shorter {p : Char → Bool} {c : Char} {s : List Char} :
      (s.dropWhile p).length < (c :: s).length :=
    Nat.lt_succ_of_le (List.dropWhile_suffix p).length_le
  unfold lexHead? at head
  split at head
  · cases head
  · next c s =>
    split_ifs at head with opens quote word blank line block
    · split at head
      · next read =>
        cases head
        rw [QuoteMarks.read?, if_pos opens] at read
        exact Nat.lt_succ_of_lt (length_readQuoted?_lt read)
      · cases head
        simp
    · split at head
      · next read =>
        cases head
        rw [Dialect.readLiteral?, if_pos quote] at read
        exact Nat.lt_succ_of_lt (length_readQuoted?_lt read)
      · cases head
        simp
    · cases head
      exact shorter
    · cases head
      simp
    · cases head
      exact shorter
    · split at head
      · next behind read =>
        cases head
        have := length_behindComment?_lt read
        simp at this ⊢
        omega
      · cases head
        simp
    · cases head
      simp

end

/-- The kinds of the tokens of a text, from the left. -/
def lex (d : Dialect) (s : List Char) : List Kind :=
  match _head : lexHead? d s with
  | none => []
  | some (kinds, rest) => kinds ++ lex d rest
termination_by s.length
decreasing_by exact length_lexHead?_lt _head

/-- Neither the doubled mark in a name nor what a comment says is a token. -/
example : lex .duckdb "SELECT \"a\"\"b\" AS x -- y\n".toList =
    [.keyword "SELECT", .name, .keyword "AS", .word] := by
  decide +kernel

section

variable {d : Dialect} {s rest : List Char} {kinds : List Kind}

@[simp] private theorem lex_nil (d : Dialect) : lex d [] = [] := by
  rw [lex]
  rfl

/-- The kinds of a text are those of its first token and those of what is behind it. -/
theorem lex_eq_of_head (head : lexHead? d s = some (kinds, rest)) :
    lex d s = kinds ++ lex d rest := by
  rw [lex]
  split
  · next none =>
    rw [none] at head
    cases head
  · next same =>
    rw [same] at head
    cases head
    rfl

/-! ### Tokens by themselves

A name in quotes and a word are read by themselves if a stop follows: a blank, a comma, a dot, a
parenthesis or a star. That is what stands behind them in all SQL that is written here. -/

/-- The characters that may stand behind a name or a word. -/
def stopChars : List Char := [' ', '\n', ',', '.', '(', ')', '*']

/-- A text that runs together with nothing before it. -/
def Stops (s : List Char) : Prop := ∀ c ∈ s.head?, c ∈ stopChars

/-- A stop begins no name, no string, no word and no comment. -/
theorem plain_of_mem_stopChars (d : Dialect) :
    ∀ c ∈ stopChars, c ≠ d.quoteMarks.opening ∧ c ≠ d.quoteMarks.closing ∧
    c ≠ '\'' ∧ isWordPart c = false ∧ c ≠ '-' ∧ c ≠ '/' := by
  simp only [stopChars, List.forall_mem_cons]
  cases d <;> exact
    ⟨by decide, by decide, by decide, by decide, by decide, by decide, by decide, by simp⟩

private theorem ne_of_isWordPart {c : Char} (part : isWordPart c = true) :
    c ≠ d.quoteMarks.opening ∧ c ≠ '\'' := by
  constructor
  · rintro rfl
    revert part
    cases d <;> decide
  · rintro rfl
    revert part
    decide

/-- A blank is passed over, and punctuation is a token of its own. -/
theorem lex_stop {c : Char} (stop : c ∈ stopChars) (rest : List Char) :
    lex d (c :: rest) = (if Text.isBlank c then [] else [.symbol c]) ++ lex d rest := by
  obtain ⟨opens, -, quote, word, line, block⟩ := plain_of_mem_stopChars d c stop
  refine lex_eq_of_head ?_
  rw [lexHead?, if_neg opens, if_neg quote, if_neg (by simp [word]),
    if_neg (by simp [line] : ¬ (c = '-' ∧ _)), if_neg (by simp [block] : ¬ (c = '/' ∧ _))]
  split <;> rfl

/-- A name that is quoted is read as a name, whatever is in it. -/
theorem lex_name (name : String) (stops : Stops rest) :
    lex d ((d.quoteName name).toList ++ rest) = .name :: lex d rest := by
  obtain ⟨inside, written, -⟩ := d.quoteMarks.exists_written_quoteChars name.toList
  have read : d.quoteMarks.read? (d.quoteMarks.written inside ++ rest) = some (inside, rest) :=
    QuoteMarks.read?_written inside fun c front => (plain_of_mem_stopChars d c (stops c front)).2.1
  rw [Dialect.quoteName, QuoteMarks.quote, String.toList_ofList, written]
  have head : lexHead? d (d.quoteMarks.written inside ++ rest) = some ([.name], rest) := by
    rw [QuoteMarks.written, List.cons_append] at read ⊢
    rw [lexHead?, if_pos rfl, read]
  exact lex_eq_of_head head

/-- A word is read up to the first character that is none of a word. -/
theorem lex_word_cons {c : Char} (part : isWordPart c = true) (s : List Char) :
    lex d (c :: s) = wordKind (c :: s.takeWhile isWordPart) :: lex d (s.dropWhile isWordPart) := by
  obtain ⟨opens, quote⟩ := ne_of_isWordPart (d := d) part
  have head : lexHead? d (c :: s) =
      some ([wordKind (c :: s.takeWhile isWordPart)], s.dropWhile isWordPart) := by
    rw [lexHead?, if_neg opens, if_neg quote, if_pos part]
  exact lex_eq_of_head head

/-- Whether a text has only words and spaces. -/
def isWords (s : List Char) : Bool := s.all fun c => isWordPart c || c = ' '

/-- Words are read by themselves if a stop follows. -/
theorem lex_words (words : isWords s = true) (stops : Stops rest) :
    lex d (s ++ rest) = lex d s ++ lex d rest := by
  -- by the length, since a word is read at once
  induction length : s.length using Nat.strongRecOn generalizing s with
  | ind n ih =>
    cases s with
    | nil => simp
    | cons c s =>
      rw [isWords, List.all_cons, Bool.and_eq_true, Bool.or_eq_true, decide_eq_true_iff] at words
      obtain ⟨part | rfl, later⟩ := words
      · have behind : isWords (s.dropWhile isWordPart) = true :=
          List.all_eq_true.mpr fun x inside =>
            List.all_eq_true.mp later x ((List.dropWhile_sublist _).subset inside)
        have run : ∀ x ∈ s.takeWhile isWordPart, isWordPart x = true :=
          fun x => List.mem_takeWhile_imp
        have ends : ∀ x ∈ (s.dropWhile isWordPart ++ rest).head?, isWordPart x = false := by
          intro x front
          cases left : s.dropWhile isWordPart with
          | nil =>
            rw [left] at front
            exact (plain_of_mem_stopChars d x (stops x front)).2.2.2.1
          | cons y t =>
            have stop := List.head?_dropWhile_not isWordPart s
            rw [left] at front stop
            cases front
            simpa using stop
        have parts := List.takeWhile_append_dropWhile (p := isWordPart) (l := s)
        have whole : s ++ rest = s.takeWhile isWordPart ++ (s.dropWhile isWordPart ++ rest) := by
          rw [← List.append_assoc, parts]
        rw [List.cons_append, lex_word_cons part, lex_word_cons part, whole,
          takeWhile_append_of_ends run ends, dropWhile_append_of_ends run ends, ih _ ?_ behind rfl]
        · rfl
        · rw [← length]
          exact Nat.lt_succ_of_le (List.dropWhile_suffix _).length_le
      · rw [List.cons_append, lex_stop (by decide), lex_stop (by decide),
          ih s.length (by simp [← length]) later rfl, List.append_assoc]

end

/-! ### Lists of tokens

A list of tokens is read piece by piece. That holds of all lists in which a gap keeps any two words
apart, and it is all that is needed to compare two lists that differ in names only. -/

/-- What a list of tokens is read as, whatever stops its last word. -/
def LexesTo (d : Dialect) (ts : List Token) (kinds : List Kind) : Prop :=
  ∀ rest, Stops rest → lex d ((render d ts).toList ++ rest) = kinds ++ lex d rest

/-- Two lists of tokens are read as the same kinds. -/
def SameKinds (d : Dialect) (ts ts' : List Token) : Prop :=
  ∃ kinds, LexesTo d ts kinds ∧ LexesTo d ts' kinds

/-- Two names of functions are written as texts that are read, before a parenthesis, as the same
kinds. -/
def FunctionsAlike (d : Dialect) (name name' : String) : Prop :=
  ∃ kinds, ∀ rest,
    lex d ((d.functionName name).toList ++ '(' :: rest) = kinds ++ lex d ('(' :: rest) ∧
    lex d ((d.functionName name').toList ++ '(' :: rest) = kinds ++ lex d ('(' :: rest)

/-- A function that the dialect writes as one word, which is none of the keywords. Such a word is
all that a call needs in front of its parenthesis; any other text is written just as it is, too, and
may bring quotes, commas and parentheses of its own. -/
def PlainFunction (d : Dialect) (name : String) : Prop :=
  (d.functionName name).toList.all isWordPart = true ∧ wordKind (d.functionName name).toList = .word

instance (d : Dialect) (name : String) : Decidable (PlainFunction d name) :=
  inferInstanceAs (Decidable (_ ∧ _))

/-- Tokens of one character that keep others apart. -/
def Token.isGap : Token → Bool
  | .space | .newline | .symbol .comma | .symbol .dot | .symbol .star | .symbol .open
    | .symbol .close => true
  | _ => false

private theorem Token.exists_stop {d : Dialect} {t : Token} (gap : t.isGap = true) :
    ∃ c ∈ stopChars, (t.text d).toList = [c] := by
  have written (c : Char) (stop : c ∈ stopChars) (text : t.text d = String.singleton c) :
      ∃ c ∈ stopChars, (t.text d).toList = [c] := ⟨c, stop, by rw [text, String.toList_singleton]⟩
  unfold Token.isGap at gap
  split at gap
  · exact written ' ' (by decide) rfl
  · exact written '\n' (by decide) rfl
  · exact written ',' (by decide) rfl
  · exact written '.' (by decide) rfl
  · exact written '*' (by decide) rfl
  · exact written '(' (by decide) rfl
  · exact written ')' (by decide) rfl
  · cases gap

section

variable {d : Dialect} {s s' ts ts' : List Token} {t : Token} {kinds kinds' : List Kind}

private theorem render_singleton (d : Dialect) (t : Token) : render d [t] = t.text d := by
  simp [render]

namespace LexesTo

theorem nil : LexesTo d [] [] := fun _ _ => rfl

/-- A gap is read by itself, whatever stands behind it. -/
theorem gap_cons (gap : t.isGap = true) :
    ∃ front, ∀ {ts kinds}, LexesTo d ts kinds → LexesTo d (t :: ts) (front ++ kinds) := by
  obtain ⟨c, stop, written⟩ := Token.exists_stop (d := d) gap
  refine ⟨if Text.isBlank c then [] else [.symbol c], fun reads rest stops => ?_⟩
  rw [render_cons, String.toList_append, written, List.append_assoc, List.singleton_append,
    lex_stop stop, reads rest stops, List.append_assoc]

/-- Behind the first list a gap stops the last word. -/
theorem append (first : LexesTo d s kinds) (gap : t.isGap = true)
    (later : LexesTo d (t :: ts) kinds') : LexesTo d (s ++ t :: ts) (kinds ++ kinds') := by
  intro rest stops
  obtain ⟨c, stop, written⟩ := Token.exists_stop (d := d) gap
  have stops' : Stops ((render d (t :: ts)).toList ++ rest) := by
    rw [render_cons, String.toList_append, written]
    rintro _ ⟨⟩
    exact stop
  rw [render_append, String.toList_append, List.append_assoc, first _ stops', later rest stops,
    List.append_assoc]

/-- A name is read as a name. -/
theorem name (n : String) : LexesTo d [.name n] [.name] := by
  intro rest stops
  rw [render_singleton]
  exact lex_name n stops

theorem words (words : isWords (t.text d).toList = true) :
    LexesTo d [t] (lex d (t.text d).toList) := by
  intro rest stops
  rw [render_singleton]
  exact lex_words words stops

end LexesTo

private theorem Keyword.isWords_text (k : Keyword) : isWords k.text.toList = true := by
  cases k <;> decide +kernel

/-- Names that are words of the same kinds. -/
theorem FunctionsAlike.of_words {name name' : String}
    (words : isWords (d.functionName name).toList = true)
    (words' : isWords (d.functionName name').toList = true)
    (same : lex d (d.functionName name).toList = lex d (d.functionName name').toList) :
    FunctionsAlike d name name' := by
  refine ⟨lex d (d.functionName name).toList, fun rest => ?_⟩
  have stops : Stops ('(' :: rest) := by
    rintro _ ⟨⟩
    decide
  exact ⟨lex_words words stops, same ▸ lex_words words' stops⟩

namespace PlainFunction

variable {name name' : String}

/-- A plain function is a word. -/
theorem isWords (plain : PlainFunction d name) : isWords (d.functionName name).toList = true := by
  refine List.all_eq_true.mpr fun c inside => ?_
  rw [List.all_eq_true.mp plain.1 c inside, Bool.true_or]

/-- It is read as one word. -/
theorem lex_eq (plain : PlainFunction d name) : lex d (d.functionName name).toList = [.word] := by
  obtain ⟨parts, word⟩ := plain
  cases written : (d.functionName name).toList with
  | nil =>
    rw [written] at word
    cases word
  | cons c s =>
    rw [written] at parts word
    obtain ⟨part, parts⟩ := Bool.and_eq_true_iff.mp parts
    have all := List.all_eq_true.mp parts
    rw [lex_word_cons part, List.takeWhile_eq_self_iff.mpr all, List.dropWhile_eq_nil_iff.mpr all,
      word, lex_nil]

/-- Which plain function is called does not tell in the kinds of the tokens. -/
theorem alike (plain : PlainFunction d name) (plain' : PlainFunction d name') :
    FunctionsAlike d name name' :=
  .of_words plain.isWords plain'.isWords (plain.lex_eq.trans plain'.lex_eq.symm)

end PlainFunction

namespace SameKinds

/-- Nothing is read as the same as nothing. -/
theorem nil : SameKinds d [] [] := ⟨[], .nil, .nil⟩

/-- The same gap may stand in front of both lists. -/
theorem gap_cons (gap : t.isGap = true) (alike : SameKinds d ts ts') :
    SameKinds d (t :: ts) (t :: ts') := by
  obtain ⟨kinds, reads, reads'⟩ := alike
  obtain ⟨front, goes⟩ := LexesTo.gap_cons (d := d) gap
  exact ⟨front ++ kinds, goes reads, goes reads'⟩

/-- Lists that are read alike are so one behind the other, with a gap between. -/
theorem append (first : SameKinds d s s') (gap : t.isGap = true) (later : SameKinds d ts ts') :
    SameKinds d (s ++ t :: ts) (s' ++ t :: ts') := by
  obtain ⟨kinds, reads, reads'⟩ := first
  obtain ⟨kinds', later, later'⟩ := later.gap_cons gap
  exact ⟨kinds ++ kinds', reads.append gap later, reads'.append gap later'⟩

/-- Two names are read alike, whatever they are. -/
theorem name (n n' : String) : SameKinds d [.name n] [.name n'] := ⟨[.name], .name n, .name n'⟩

/-- The same words are read alike. -/
theorem words (words : isWords (t.text d).toList = true) : SameKinds d [t] [t] :=
  ⟨_, .words words, .words words⟩

/-- So is the same keyword. -/
theorem keyword (k : Keyword) : SameKinds d [word k] [word k] := words k.isWords_text

theorem parenthesised (inside : SameKinds d ts ts') :
    SameKinds d (parenthesised ts) (parenthesised ts') :=
  (inside.append (t := sign .close) rfl .nil).gap_cons rfl

/-- Lists of pieces that are read alike are so with the same gaps between. -/
theorem intersperse {tss tss' : List (List Token)} {between : List Token} (gap : t.isGap = true)
    (passes : ∀ {ts ts'}, SameKinds d ts ts' → SameKinds d (between ++ ts) (between ++ ts'))
    (each : List.Forall₂ (SameKinds d) tss tss') :
    SameKinds d (tss.intersperse (t :: between)).flatten
      (tss'.intersperse (t :: between)).flatten := by
  induction each with
  | nil => exact nil
  | cons first later ih =>
    cases later with
    | nil => simpa using first
    | cons second later =>
      rw [List.intersperse_cons_cons, List.intersperse_cons_cons, List.flatten_cons,
        List.flatten_cons, List.flatten_cons, List.flatten_cons]
      exact first.append gap (passes ih)

theorem commaSeparated {tss tss' : List (List Token)} (each : List.Forall₂ (SameKinds d) tss tss') :
    SameKinds d (commaSeparated tss) (commaSeparated tss') :=
  intersperse rfl (fun alike => alike.gap_cons rfl) each

/-- Calls are read alike if their functions are, and what stands in the parentheses. -/
theorem call {name name' : String} (same : FunctionsAlike d name name')
    (alike : SameKinds d ts ts') :
    SameKinds d (.function name :: sign .open :: ts) (.function name' :: sign .open :: ts') := by
  obtain ⟨kinds, reads⟩ := same
  obtain ⟨kinds', later, later'⟩ := alike.gap_cons (t := sign .open) rfl
  have opened (ts : List Token) (rest : List Char) :
      (render d (sign .open :: ts)).toList ++ rest = '(' :: ((render d ts).toList ++ rest) := by
    rw [render_cons, String.toList_append, List.append_assoc]
    exact congrArg (· ++ _) (String.toList_singleton '(')
  refine ⟨kinds ++ kinds', fun rest stops => ?_, fun rest stops => ?_⟩
  · rw [render_cons, String.toList_append, List.append_assoc, opened]
    refine (reads _).1.trans ?_
    rw [← opened, later rest stops, List.append_assoc]
  · rw [render_cons, String.toList_append, List.append_assoc, opened]
    refine (reads _).2.trans ?_
    rw [← opened, later' rest stops, List.append_assoc]

/-- What is read as the same kinds with nothing behind it. -/
theorem lex_eq (alike : SameKinds d ts ts') :
    lex d (render d ts).toList = lex d (render d ts').toList := by
  obtain ⟨kinds, reads, reads'⟩ := alike
  have whole := reads [] (fun _ front => nomatch front)
  have whole' := reads' [] (fun _ front => nomatch front)
  rw [List.append_nil] at whole whole'
  rw [whole, whole']

end SameKinds

end

end Warehouse.Sql
