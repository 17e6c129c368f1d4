/-
Module: Warehouse.Sql.Quoting
Purpose: Quoted names and quoted strings. A name stands between two marks, with the closing mark
  doubled inside; a name that already has that form is left alone, so quoting twice is quoting once.
  A string stands between single quotes, with a quote doubled inside, and in some dialects a
  backslash too.
Trusted boundary: none
Main exports: QuoteMarks, QuoteMarks.quote, StringStyle, StringStyle.quote, Dialect.quoteName,
  Dialect.quoteString
-/
import Warehouse.Sql.Dialect

namespace Warehouse.Sql

/-- The marks around a quoted name. -/
structure QuoteMarks where
  opening : Char
  closing : Char
deriving DecidableEq, Repr

namespace QuoteMarks

/-- The marks of standard SQL. -/
def double : QuoteMarks := ⟨'"', '"'⟩

/-- Grave accents. -/
def backtick : QuoteMarks := ⟨'\x60', '\x60'⟩

/-- Square brackets. -/
def bracket : QuoteMarks := ⟨'[', ']'⟩

end QuoteMarks

/-- The text with every `c` written twice. -/
def doubling (c : Char) : List Char → List Char
  | [] => []
  | d :: rest => if d = c then c :: c :: doubling c rest else d :: doubling c rest

/-- Whether every `c` of a text belongs to a pair of two next to each other, counted from the
left. -/
def pairedUp (c : Char) : List Char → Bool
  | [] => true
  | [d] => d ≠ c
  | d :: e :: rest => if d = c then e = c && pairedUp c rest else pairedUp c (e :: rest)

namespace QuoteMarks

/-- Whether a text is already quoted: it has both marks, and inside them the closing mark comes in
pairs only. -/
def isQuoted (q : QuoteMarks) : List Char → Bool
  | [] => false
  | c :: rest => c = q.opening && rest.getLast? = some q.closing && pairedUp q.closing rest.dropLast

/-- Puts the marks around a text that does not have them yet. -/
def quoteChars (q : QuoteMarks) (s : List Char) : List Char :=
  if q.isQuoted s then s else q.opening :: (doubling q.closing s ++ [q.closing])

/-- `quoteChars` on strings. -/
def quote (q : QuoteMarks) (s : String) : String := String.ofList (q.quoteChars s.toList)

end QuoteMarks

/-- How a string literal is written. -/
inductive StringStyle where
  /-- Between single quotes. -/
  | plain
  /-- The same after the letter `N`, which keeps characters beyond the code page. -/
  | national
  /-- Between single quotes, where a backslash takes the next character literally. -/
  | backslash
deriving DecidableEq, Repr

namespace StringStyle

/-- What stands between the quotes of a literal. -/
def bodyChars : StringStyle → List Char → List Char
  | backslash, s => doubling '\'' (doubling '\\' s)
  | _, s => doubling '\'' s

/-- The literal of a text. -/
def quoteChars (style : StringStyle) (s : List Char) : List Char :=
  (if style = national then ['N'] else []) ++ '\'' :: (style.bodyChars s ++ ['\''])

/-- `quoteChars` on strings. -/
def quote (style : StringStyle) (s : String) : String := String.ofList (style.quoteChars s.toList)

end StringStyle

namespace Dialect

/-- The marks around names. -/
def quoteMarks : Dialect → QuoteMarks
  | tsql | fabric => .bracket
  | mysql | bigquery | databricks => .backtick
  | _ => .double

/-- The style of the literal for a text. -/
def stringStyle (d : Dialect) (s : List Char) : StringStyle :=
  match d with
  | tsql => if s.all (·.toNat < 0x80) then .plain else .national
  | mysql | bigquery | databricks => .backslash
  | _ => .plain

/-- A quoted name. -/
def quoteName (d : Dialect) (name : String) : String := d.quoteMarks.quote name

/-- A string literal. -/
def quoteString (d : Dialect) (s : String) : String := (d.stringStyle s.toList).quote s

end Dialect

end Warehouse.Sql
