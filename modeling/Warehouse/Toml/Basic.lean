/-
Module: Warehouse.Toml.Basic
Purpose: The values of a TOML document, and the three ways of taking a text apart on which its
  reader rests: passing over blanks, passing over blank and commented lines, and reading items one
  after another.
Trusted boundary: none
Main exports: Toml, Toml.skipBlanks, Toml.skipLines, Toml.chain
-/

namespace Warehouse

/-- A value of a document. Numbers that are not whole and moments are kept as they are written. -/
inductive Toml where
  | string (value : String)
  | integer (value : Int)
  | float (lexeme : String)
  | bool (value : Bool)
  | moment (lexeme : String)
  | array (items : List Toml)
  | table (entries : List (String × Toml))
deriving Repr, Inhabited

namespace Toml

/-- What reads something at the beginning of a text and returns the rest, unless it is not there. -/
abbrev Reader (α : Type) := List Char → Option (α × List Char)

/-- A blank inside a line. -/
def isBlank (c : Char) : Bool := c = ' ' || c = '\t'

/-- Passes over blanks. -/
def skipBlanks (s : List Char) : List Char := s.dropWhile isBlank

/-- A character that may stand in a comment or a literal string: no control character but the
tab. -/
def isTextChar (c : Char) : Bool := c = '\t' || (32 ≤ c.toNat && c.toNat ≠ 127)

/-- Passes over the rest of a line as far as it is blank or a comment. -/
def skipComment (s : List Char) : List Char :=
  match skipBlanks s with
  | '#' :: rest => rest.dropWhile isTextChar
  | rest => rest

/-- Passes over a line end. -/
def lineEnd? : List Char → Option (List Char)
  | '\n' :: rest => some rest
  | '\r' :: '\n' :: rest => some rest
  | _ => none

/-- Drops `c`, which has to come next. -/
def mark? (c : Char) : List Char → Option (List Char)
  | d :: rest => if d = c then some rest else none
  | [] => none

theorem length_lineEnd?_lt {s rest : List Char} (h : lineEnd? s = some rest) :
    rest.length < s.length := by
  unfold lineEnd? at h
  split at h
  · cases h
    simp
  · cases h
    simp only [List.length_cons]
    omega
  · cases h

theorem length_skipComment_le (s : List Char) : (skipComment s).length ≤ s.length := by
  have h₁ : (skipBlanks s).length ≤ s.length := (List.dropWhile_suffix _).length_le
  unfold skipComment
  split
  · rename_i rest heq
    have h₂ : (rest.dropWhile isTextChar).length ≤ rest.length :=
      (List.dropWhile_suffix _).length_le
    rw [heq] at h₁
    simp only [List.length_cons] at h₁
    omega
  · exact h₁

/-- Passes over blanks, comments and line ends. -/
def skipLines (s : List Char) : List Char :=
  match _ : lineEnd? (skipComment s) with
  | some rest => skipLines rest
  | none => skipComment s
termination_by s.length
decreasing_by
  rename_i h
  have := length_lineEnd?_lt h
  have := length_skipComment_le s
  omega

/-- Reads items one after another. After each, `next` says where another begins, if one does; there
has to be something between the beginnings of two items. -/
def chain {α : Type} (item : Reader α) (next : List Char → Option (List Char))
    (s : List Char) : Option (List α × List Char) :=
  match item s with
  | none => none
  | some (first, rest) =>
    match next rest with
    | none => some ([first], rest)
    | some more =>
      if more.length < s.length then
        (chain item next more).map fun (others, rest) => (first :: others, rest)
      else none
termination_by s.length

end Toml

end Warehouse
