/-
Module: Warehouse.Toml.Quoted
Purpose: Reading quoted strings and keys. A basic string stands between double quotes and knows
  escapes, a literal one stands between single quotes and knows none; three quotes begin a string
  that may hold line ends. Each reader starts after the opening quotes.
Trusted boundary: none
Main exports: Toml.quoted?, Toml.keyPath?
-/
import Warehouse.Number.Unsigned
import Warehouse.Toml.Basic

namespace Warehouse.Toml

/-- The character that stands for itself behind a backslash, or that a letter there names. -/
def simpleEscape? : Char → Option Char
  | 'b' => some '\x08'
  | 'e' => some '\x1b'
  | 't' => some '\t'
  | 'n' => some '\n'
  | 'f' => some '\x0c'
  | 'r' => some '\r'
  | '"' => some '"'
  | '\\' => some '\\'
  | _ => none

/-- The value of hexadecimal digits. -/
def hexValue? (digits : List Char) : Option Nat :=
  digits.foldlM (fun n c => (Number.hexDigit? c).map fun d => 16 * n + d) 0

/-- The character that exactly `width` hexadecimal digits give. -/
def codePoint? (width : Nat) (digits : List Char) : Option Char := do
  let n ← hexValue? digits
  if digits.length = width ∧ n.isValidChar then some (Char.ofNat n) else none

/-- Reads an escape behind its backslash. -/
def escape? : List Char → Option (Char × List Char)
  | 'x' :: rest => (codePoint? 2 (rest.take 2)).map fun c => (c, rest.drop 2)
  | 'u' :: rest => (codePoint? 4 (rest.take 4)).map fun c => (c, rest.drop 4)
  | 'U' :: rest => (codePoint? 8 (rest.take 8)).map fun c => (c, rest.drop 8)
  | c :: rest => (simpleEscape? c).map fun d => (d, rest)
  | [] => none

theorem length_escape?_le {s rest : List Char} {c : Char} (h : escape? s = some (c, rest)) :
    rest.length ≤ s.length := by
  unfold escape? at h
  split at h
  · obtain ⟨_, _, h⟩ := Option.map_eq_some_iff.mp h
    cases h
    simp only [List.length_cons, List.length_drop]
    omega
  · obtain ⟨_, _, h⟩ := Option.map_eq_some_iff.mp h
    cases h
    simp only [List.length_cons, List.length_drop]
    omega
  · obtain ⟨_, _, h⟩ := Option.map_eq_some_iff.mp h
    cases h
    simp only [List.length_cons, List.length_drop]
    omega
  · obtain ⟨_, _, h⟩ := Option.map_eq_some_iff.mp h
    cases h
    simp
  · simp at h

/-- Reads a basic string on one line. -/
def basic? (s : List Char) : Option (List Char × List Char) :=
  match s with
  | [] => none
  | '"' :: rest => some ([], rest)
  | '\\' :: rest =>
    match _ : escape? rest with
    | some (c, behind) => (basic? behind).map fun (cs, after) => (c :: cs, after)
    | none => none
  | c :: rest =>
    if isTextChar c then (basic? rest).map fun (cs, after) => (c :: cs, after) else none
termination_by s.length
decreasing_by
  · rename_i h
    have := length_escape?_le h
    simp only [List.length_cons]
    omega
  · simp

/-- Reads a literal string on one line. -/
def literal? : List Char → Option (List Char × List Char)
  | [] => none
  | '\'' :: rest => some ([], rest)
  | c :: rest =>
    if isTextChar c then (literal? rest).map fun (cs, after) => (c :: cs, after) else none

/-- The end of a string in three quotes `q`: up to two more quotes before the last three belong to
it. -/
def tripleEnd? (q : Char) (s : List Char) : Option (List Char × List Char) :=
  let n := (s.takeWhile (· = q)).length
  if n < 3 then none
  else
    let inside := min (n - 3) 2
    some (List.replicate inside q, s.drop (inside + 3))

/-- Passes over blanks and line ends. -/
def skipBlankLines (s : List Char) : List Char :=
  match _ : lineEnd? (skipBlanks s) with
  | some rest => skipBlankLines rest
  | none => skipBlanks s
termination_by s.length
decreasing_by
  rename_i h
  have := length_lineEnd?_lt h
  have : (skipBlanks s).length ≤ s.length := (List.dropWhile_suffix _).length_le
  omega

theorem length_skipBlankLines_le (s : List Char) : (skipBlankLines s).length ≤ s.length := by
  have hb (t : List Char) : (skipBlanks t).length ≤ t.length := (List.dropWhile_suffix _).length_le
  fun_induction skipBlankLines s with
  | case1 s rest h ih =>
    have := length_lineEnd?_lt h
    have := hb s
    omega
  | case2 s h => exact hb s

/-- Whether a backslash at the end of a line stands before `s`; if so, what comes after the white
space that it hides. -/
def hiddenSpace? (s : List Char) : Option (List Char) :=
  (lineEnd? (skipBlanks s)).map skipBlankLines

theorem length_hiddenSpace?_lt {s rest : List Char} (h : hiddenSpace? s = some rest) :
    rest.length < s.length := by
  obtain ⟨after, hend, rfl⟩ := Option.map_eq_some_iff.mp h
  have h₁ := length_lineEnd?_lt hend
  have h₂ : (skipBlanks s).length ≤ s.length := (List.dropWhile_suffix _).length_le
  have h₃ := length_skipBlankLines_le after
  omega

/-- Reads a basic string of several lines. -/
def basicLines? (s : List Char) : Option (List Char × List Char) :=
  match tripleEnd? '"' s with
  | some found => some found
  | none =>
    match s with
    | [] => none
    | '\\' :: rest =>
      match _ : hiddenSpace? rest with
      | some after => basicLines? after
      | none =>
        match _ : escape? rest with
        | some (c, behind) => (basicLines? behind).map fun (cs, after) => (c :: cs, after)
        | none => none
    | '\r' :: '\n' :: rest => (basicLines? rest).map fun (cs, after) => ('\r' :: '\n' :: cs, after)
    | c :: rest =>
      if isTextChar c || c = '\n' then
        (basicLines? rest).map fun (cs, after) => (c :: cs, after)
      else none
termination_by s.length
decreasing_by
  · rename_i h
    have := length_hiddenSpace?_lt h
    simp only [List.length_cons]
    omega
  · rename_i h
    have := length_escape?_le h
    simp only [List.length_cons]
    omega
  · simp only [List.length_cons]
    omega
  · simp

/-- Reads a literal string of several lines. -/
def literalLines? (s : List Char) : Option (List Char × List Char) :=
  match tripleEnd? '\'' s with
  | some found => some found
  | none =>
    match s with
    | [] => none
    | '\r' :: '\n' :: rest =>
      (literalLines? rest).map fun (cs, after) => ('\r' :: '\n' :: cs, after)
    | c :: rest =>
      if isTextChar c || c = '\n' then
        (literalLines? rest).map fun (cs, after) => (c :: cs, after)
      else none
termination_by s.length

/-- A line end right after three opening quotes does not belong to the string. -/
def afterOpening (s : List Char) : List Char := (lineEnd? s).getD s

/-- Reads a string in whichever quotes. -/
def quoted? : List Char → Option (List Char × List Char)
  | '"' :: '"' :: '"' :: rest => basicLines? (afterOpening rest)
  | '\'' :: '\'' :: '\'' :: rest => literalLines? (afterOpening rest)
  | '"' :: rest => basic? rest
  | '\'' :: rest => literal? rest
  | _ => none

/-! ### Keys -/

/-- A character of a key without quotes. -/
def isKeyChar (c : Char) : Bool := c.isAlphanum || c = '_' || c = '-'

/-- Reads a key: one without quotes, or a quoted one on one line. -/
def key? : List Char → Option (String × List Char)
  | '"' :: rest => (basic? rest).map fun (cs, after) => (String.ofList cs, after)
  | '\'' :: rest => (literal? rest).map fun (cs, after) => (String.ofList cs, after)
  | s =>
    let name := s.takeWhile isKeyChar
    if name.isEmpty then none else some (String.ofList name, s.dropWhile isKeyChar)

/-- What comes after the point between two keys. -/
def afterPoint? (s : List Char) : Option (List Char) :=
  match skipBlanks s with
  | '.' :: rest => some (skipBlanks rest)
  | _ => none

/-- How many keys may have points between them. -/
def pathLimit : Nat := 80

/-- Reads keys with points between them. -/
def keyPath? (s : List Char) : Option (List String × List Char) := do
  let (path, rest) ← chain key? afterPoint? s
  if path.length ≤ pathLimit then some (path, rest) else none

end Warehouse.Toml
