/-
Module: Warehouse.Proofs.Sql.Quoting
Purpose: Quoted names and string literals against a reader of SQL, who goes from the opening mark to
  the first mark that closes. A mark that is written twice does not close, and in some dialects
  neither does one behind a backslash. Since between the marks every mark is written twice, and
  every backslash where it matters, the reader comes to the end of the text, whatever stands behind
  it, and finds what was quoted.
Trusted boundary: human-reviewed spec (where a quoted text ends)
Main exports: readQuoted?, readQuoted?_doubling, eq_of_readQuoted?, QuoteMarks.read?,
  QuoteMarks.isQuoted_iff, quoted_name_closes, Dialect.readLiteral?, quoted_string_closes
-/
import Warehouse.Sql.Quoting

namespace Warehouse.Sql

/-! ### Reading up to the closing mark

A quoted text ends at the first mark that stands alone. A doubled mark stands for one, and so does
what a backslash comes before, where the dialect has that. -/

/-- Reads what stands behind an opening mark, up to the mark that closes it, and returns it with the
rest. A closing mark that is written twice stands for one; where `escapes` holds, a backslash takes
the next character literally. -/
def readQuoted? (escapes : Bool) (closing : Char) : List Char → Option (List Char × List Char)
  | [] => none
  | [c] => if c = closing then some ([], []) else none
  | c :: d :: rest =>
    if escapes ∧ c = '\\' then (readQuoted? escapes closing rest).map fun (inside, left) =>
      (d :: inside, left)
    else if c = closing then
      if d = closing then (readQuoted? escapes closing rest).map fun (inside, left) =>
        (closing :: inside, left)
      else some ([], d :: rest)
    else (readQuoted? escapes closing (d :: rest)).map fun (inside, left) => (c :: inside, left)

section

variable {escapes : Bool} {closing c : Char} {s inside rest : List Char}

/-- A mark closes where no second one follows. -/
theorem readQuoted?_closing (mark : ¬ (escapes ∧ closing = '\\'))
    (ends : ∀ x ∈ rest.head?, x ≠ closing) :
    readQuoted? escapes closing (closing :: rest) = some ([], rest) := by
  cases rest with
  | nil => simp [readQuoted?]
  | cons d rest => simp [readQuoted?, mark, ends d rfl]

private theorem readQuoted?_pair (mark : ¬ (escapes ∧ closing = '\\'))
    (read : readQuoted? escapes closing s = some (inside, rest)) :
    readQuoted? escapes closing (closing :: closing :: s) = some (closing :: inside, rest) := by
  simp [readQuoted?, mark, read]

private theorem readQuoted?_escaped (read : readQuoted? true closing s = some (inside, rest)) :
    readQuoted? true closing ('\\' :: c :: s) = some (c :: inside, rest) := by
  simp [readQuoted?, read]

private theorem readQuoted?_plain (plain : ¬ (escapes ∧ c = '\\')) (other : c ≠ closing)
    (read : readQuoted? escapes closing s = some (inside, rest)) :
    readQuoted? escapes closing (c :: s) = some (c :: inside, rest) := by
  cases s with
  | nil => cases read
  | cons d s => simp [readQuoted?, plain, other, read]

/-- Doubled marks, and doubled backslashes where they count, are read as the text that has each of
them once. -/
theorem readQuoted?_doubling (mark : ¬ (escapes ∧ closing = '\\'))
    (ends : ∀ x ∈ rest.head?, x ≠ closing) (s : List Char) :
    readQuoted? escapes closing
      (doubling closing (if escapes then doubling '\\' s else s) ++ closing :: rest) =
      some (s, rest) := by
  induction s with
  | nil =>
    have nothing : (if escapes then doubling '\\' [] else []) = [] := by split <;> rfl
    rw [nothing]
    exact readQuoted?_closing mark ends
  | cons c s ih =>
    by_cases backslash : escapes ∧ c = '\\'
    · obtain ⟨rfl, rfl⟩ := backslash
      have other : '\\' ≠ closing := fun same => mark ⟨rfl, same.symm⟩
      rw [if_pos rfl] at ih ⊢
      rw [doubling, if_pos rfl, doubling, if_neg other, doubling, if_neg other]
      exact readQuoted?_escaped ih
    · have first : (if escapes then doubling '\\' (c :: s) else c :: s) =
          c :: if escapes then doubling '\\' s else s := by
        cases escapes with
        | false => rfl
        | true => exact if_neg fun same => backslash ⟨rfl, same⟩
      rw [first, doubling]
      split
      · next same =>
        subst same
        exact readQuoted?_pair backslash ih
      · next other => exact readQuoted?_plain backslash other ih

/-- Without escapes, what is read has been written with its marks doubled. -/
theorem eq_of_readQuoted? (read : readQuoted? false closing s = some (inside, rest)) :
    s = doubling closing inside ++ closing :: rest := by
  fun_induction readQuoted? false closing s generalizing inside with
  | case1 => cases read
  | case2 =>
    cases read
    rfl
  | case3 => cases read
  | case4 _ _ _ escaped => cases escaped.1
  | case5 rest' _ ih =>
    obtain ⟨⟨inside', left⟩, later, same⟩ := Option.map_eq_some_iff.mp read
    cases same
    rw [ih later, doubling, if_pos rfl]
    rfl
  | case6 =>
    cases read
    rfl
  | case7 c d rest' _ other ih =>
    obtain ⟨⟨inside', left⟩, later, same⟩ := Option.map_eq_some_iff.mp read
    cases same
    rw [ih later, doubling, if_neg other]
    rfl

end

/-! ### Texts with doubled marks

A text in which every mark is doubled closes no quote. A text is such just if it was made by
doubling. -/

/-- Doubling every mark leaves none alone. -/
theorem pairedUp_doubling (c : Char) (s : List Char) : pairedUp c (doubling c s) = true := by
  induction s with
  | nil => rfl
  | cons d s ih =>
    rw [doubling]
    split
    · simp [pairedUp, ih]
    · next other =>
      cases left : doubling c s with
      | nil => simp [pairedUp, other]
      | cons e rest =>
        rw [left] at ih
        simp [pairedUp, other, ih]

/-- The texts in which a mark comes in pairs only are those in which it has been doubled. -/
theorem pairedUp_iff {c : Char} {s : List Char} : pairedUp c s = true ↔
    ∃ inside, s = doubling c inside := by
  constructor
  · intro paired
    fun_induction pairedUp c s with
    | case1 => exact ⟨[], rfl⟩
    | case2 d =>
      have other : d ≠ c := of_decide_eq_true paired
      exact ⟨[d], by simp [doubling, other]⟩
    | case3 e rest ih =>
      obtain ⟨rfl, later⟩ : e = c ∧ pairedUp c rest = true := by simpa using paired
      obtain ⟨inside, rfl⟩ := ih later
      exact ⟨e :: inside, by simp [doubling]⟩
    | case4 d e rest other ih =>
      obtain ⟨inside, same⟩ := ih paired
      exact ⟨d :: inside, by simp [doubling, other, same]⟩
  · rintro ⟨inside, rfl⟩
    exact pairedUp_doubling c inside

/-! ### Names

A name that is quoted already is left as it is, and any other is put between the marks of the
dialect with its own marks doubled. -/

namespace QuoteMarks

variable {q : QuoteMarks} {s name rest : List Char}

/-- A name between its marks, with the closing mark doubled inside. -/
def written (q : QuoteMarks) (name : List Char) : List Char :=
  q.opening :: (doubling q.closing name ++ [q.closing])

/-- Reads a quoted name at the beginning of a text, and returns what is named and the rest. -/
def read? (q : QuoteMarks) : List Char → Option (List Char × List Char)
  | [] => none
  | c :: rest => if c = q.opening then readQuoted? false q.closing rest else none

/-- A written name is read up to its end, whatever stands behind it. -/
theorem read?_written (name : List Char) (ends : ∀ x ∈ rest.head?, x ≠ q.closing) :
    q.read? (q.written name ++ rest) = some (name, rest) := by
  have inside : readQuoted? false q.closing (doubling q.closing name ++ q.closing :: rest) =
      some (name, rest) :=
    readQuoted?_doubling (fun both => Bool.noConfusion both.1) ends name
  simp [read?, written, inside]

/-- Only a written name is read up to the end of its text. -/
theorem read?_eq_some_nil_iff : q.read? s = some (name, []) ↔ s = q.written name := by
  constructor
  · intro read
    cases s with
    | nil => cases read
    | cons c rest =>
      rw [read?] at read
      split at read
      · next opens => rw [written, opens, eq_of_readQuoted? read]
      · cases read
  · rintro rfl
    have whole : q.read? (q.written name ++ []) = some (name, []) := read?_written name (by simp)
    rwa [List.append_nil] at whole

/-- A text is taken for quoted exactly when it is a written name. -/
theorem isQuoted_iff : q.isQuoted s = true ↔ ∃ name, s = q.written name := by
  constructor
  · intro quoted
    cases s with
    | nil => cases quoted
    | cons c rest =>
      obtain ⟨⟨rfl, closes⟩, paired⟩ : (c = q.opening ∧ rest.getLast? = some q.closing) ∧
          pairedUp q.closing rest.dropLast = true := by simpa [isQuoted] using quoted
      obtain ⟨body, rfl⟩ := List.getLast?_eq_some_iff.mp closes
      rw [List.dropLast_concat] at paired
      obtain ⟨name, rfl⟩ := pairedUp_iff.mp paired
      exact ⟨name, rfl⟩
  · rintro ⟨name, rfl⟩
    simp [isQuoted, written, pairedUp_doubling]

/-- A written name is left as it is. -/
theorem quoteChars_written (name : List Char) : q.quoteChars (q.written name) = q.written name := by
  rw [quoteChars, if_pos (isQuoted_iff.mpr ⟨name, rfl⟩)]

/-- What quoting returns is a written name: the one that the text was already, or else that of the
text. -/
theorem exists_written_quoteChars (q : QuoteMarks) (s : List Char) :
    ∃ name, q.quoteChars s = q.written name ∧ (s = q.written name ∨ s = name) := by
  by_cases quoted : q.isQuoted s = true
  · obtain ⟨name, rfl⟩ := isQuoted_iff.mp quoted
    exact ⟨name, quoteChars_written name, .inl rfl⟩
  · refine ⟨s, ?_, .inr rfl⟩
    rw [quoteChars, if_neg quoted, written]

end QuoteMarks

/-- A name does not get out of its quotes. Whatever the marks, the text of a quoted name is read
from its opening mark up to its end, by whatever it is followed except another closing mark; what is
read is the name, unless that was a quoted name already, which is then left alone; and quoting twice
is quoting once. -/
theorem quoted_name_closes (q : QuoteMarks) (s : String) :
    (∃ name,
      (∀ rest : List Char, (∀ x ∈ rest.head?, x ≠ q.closing) →
        q.read? ((q.quote s).toList ++ rest) = some (name, rest)) ∧
      ((¬ ∃ inside, q.read? s.toList = some (inside, [])) → name = s.toList)) ∧
    ((∃ inside, q.read? s.toList = some (inside, [])) → q.quote s = s) ∧
    q.quote (q.quote s) = q.quote s := by
  simp only [QuoteMarks.quote, String.toList_ofList, QuoteMarks.read?_eq_some_nil_iff]
  obtain ⟨name, written, once⟩ := q.exists_written_quoteChars s.toList
  refine ⟨⟨name, ?_, ?_⟩, ?_, ?_⟩
  · intro rest ends
    rw [written]
    exact QuoteMarks.read?_written name ends
  · intro unquoted
    rcases once with same | same
    · exact absurd ⟨name, same⟩ unquoted
    · exact same.symm
  · rintro ⟨inside, same⟩
    rw [same, QuoteMarks.quoteChars_written, ← same, String.ofList_toList]
  · rw [written, QuoteMarks.quoteChars_written]

/-- A closing bracket that stands alone is doubled, an opening one is not. -/
example : QuoteMarks.bracket.quote "[a]b]" = "[[a]]b]]]" := by decide +kernel

/-! ### Strings

A string is put between single marks. Some dialects also read a backslash, and one puts a letter
before texts beyond ASCII. -/

namespace Dialect

/-- Whether a backslash in a string literal takes the next character literally. -/
def takesBackslash : Dialect → Bool
  | mysql | bigquery | databricks => true
  | _ => false

/-- Reads a string literal at the beginning of a text, from its first quote, and returns its value
and the rest. -/
def readLiteral? (d : Dialect) : List Char → Option (List Char × List Char)
  | [] => none
  | c :: rest => if c = '\'' then readQuoted? d.takesBackslash '\'' rest else none

/-- Between the marks stands the text with its marks doubled, and its backslashes too where they are
read. -/
theorem bodyChars_stringStyle (d : Dialect) (s : List Char) :
    (d.stringStyle s).bodyChars s =
      doubling '\'' (if d.takesBackslash then doubling '\\' s else s) := by
  cases d
  case tsql =>
    rw [stringStyle]
    split <;> rfl
  all_goals rfl

/-- Only texts beyond ASCII have the letter in front, in the one dialect that asks for it. -/
theorem stringStyle_eq_national_iff {d : Dialect} {s : List Char} :
    d.stringStyle s = .national ↔ d = .tsql ∧ s.any (0x80 ≤ ·.toNat) = true := by
  cases d <;> simp [stringStyle]

end Dialect

/-- A string does not get out of its quotes and is not changed by them. In every dialect the literal
of a text, behind the letter that one of them puts before text beyond the code page, is read from
its first quote up to its end, by whatever it is followed except another quote, and what is read is
the text. -/
theorem quoted_string_closes (d : Dialect) (s : String) :
    ∃ literal : List Char,
      (d.quoteString s).toList =
        (if d = .tsql ∧ s.toList.any (0x80 ≤ ·.toNat) = true then ['N'] else []) ++ literal ∧
      ∀ rest : List Char, (∀ x ∈ rest.head?, x ≠ '\'') →
        d.readLiteral? (literal ++ rest) = some (s.toList, rest) := by
  refine ⟨'\'' :: ((d.stringStyle s.toList).bodyChars s.toList ++ ['\'']), ?_, ?_⟩
  · simp only [Dialect.quoteString, StringStyle.quote, String.toList_ofList, StringStyle.quoteChars,
      Dialect.stringStyle_eq_national_iff]
  · intro rest ends
    have mark : ¬ (d.takesBackslash ∧ '\'' = '\\') := by simp
    have body := readQuoted?_doubling mark ends s.toList
    simp [Dialect.readLiteral?, Dialect.bodyChars_stringStyle, body]

/-- A backslash at the end does not take the closing quote with it. -/
example : Dialect.mysql.quoteString "'\\" = "'''\\\\'" := by decide +kernel

end Warehouse.Sql
