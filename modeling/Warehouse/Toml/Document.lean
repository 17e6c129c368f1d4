/-
Module: Warehouse.Toml.Document
Purpose: Reading a TOML document: lines that give a key a value, and headers that say which table
  the lines after them belong to.
Trusted boundary: none
Main exports: Toml.value?, Toml.parse?
-/
import Warehouse.Toml.Scalar
import Warehouse.Toml.Table

namespace Warehouse.Toml

/-! ### Values -/

/-- Where another item begins, if a comma and something else than the end come next. -/
def nextItem? (closing : Char) (s : List Char) : Option (List Char) := do
  let more := skipLines (← mark? ',' (skipLines s))
  if (mark? closing more).isSome then none else some more

/-- Reads items with commas between them up to a closing bracket. A comma may follow the last item,
and line ends and comments may stand everywhere between them. -/
def items? {α : Type} (closing : Char) (item : Reader α) (s : List Char) :
    Option (List α × List Char) :=
  match mark? closing (skipLines s) with
  | some rest => some ([], rest)
  | none => do
    let (items, rest) ← chain item (nextItem? closing) (skipLines s)
    let behind := skipLines rest
    let rest ← mark? closing (((mark? ',' behind).map skipLines).getD behind)
    some (items, rest)

/-- Reads a path of keys and the value that it gets. `skip` passes over what may stand on either
side of the sign between them. -/
def keyValue? (skip : List Char → List Char) (value : Reader Toml) (s : List Char) :
    Option ((List String × Toml) × List Char) := do
  let (path, rest) ← keyPath? s
  let (v, rest) ← value (skip (← mark? '=' (skip rest)))
  some ((path, v), rest)

/-- Reads a list behind its opening bracket. -/
def array? (value : Reader Toml) (s : List Char) : Option (Toml × List Char) :=
  (items? ']' value s).map fun (items, rest) => (.array items, rest)

/-- Reads a table behind its opening brace. -/
def inline? (value : Reader Toml) (s : List Char) : Option (Toml × List Char) := do
  let (entries, rest) ← items? '\x7d' (keyValue? skipLines value) s
  (inlineTable? entries).map fun t => (t, rest)

/-- Reads a value that is neither list nor table. -/
def plain? (s : List Char) : Option (Toml × List Char) :=
  match s with
  | '"' :: _ | '\'' :: _ => (quoted? s).map fun (cs, rest) => (.string (String.ofList cs), rest)
  | _ => scalar? s

/-- Reads a value that is nested at most `depth` levels deep. -/
def value? : (depth : Nat) → Reader Toml
  | 0, s => plain? s
  | depth + 1, s =>
    match s with
    | '[' :: rest => array? (value? depth) rest
    | '\x7b' :: rest => inline? (value? depth) rest
    | _ => plain? s

/-- How deep values may be nested. -/
def nestingLimit : Nat := 80

/-! ### Lines -/

/-- What a line says. -/
inductive Line where
  | nothing
  | table (path : List String)
  | element (path : List String)
  | entry (path : List String) (v : Toml)

/-- Reads the path of a header and the brackets that close it. -/
def header? (closing : List Char → Option (List Char)) (s : List Char) :
    Option (List String × List Char) := do
  let (path, rest) ← keyPath? (skipBlanks s)
  (closing (skipBlanks rest)).map fun rest => (path, rest)

/-- Reads what a line says, without its comment. -/
def statement? (s : List Char) : Option (Line × List Char) :=
  match s with
  | '[' :: '[' :: rest =>
    (header? (fun s => mark? ']' s >>= mark? ']') rest).map fun (path, rest) =>
      (.element path, rest)
  | '[' :: rest => (header? (mark? ']') rest).map fun (path, rest) => (.table path, rest)
  | [] | '#' :: _ | '\n' :: _ | '\r' :: _ => some (.nothing, s)
  | _ => (keyValue? skipBlanks (value? nestingLimit) s).map fun ((path, v), rest) =>
    (.entry path v, rest)

/-- Reads a line up to its end. -/
def line? (s : List Char) : Option (Line × List Char) :=
  (statement? (skipBlanks s)).map fun (said, rest) => (said, skipComment rest)

/-- The changes that lines make, those of entries in the table of the header before them. -/
def changes (header : List String) : List Line → List Change
  | [] => []
  | .nothing :: rest => changes header rest
  | .table path :: rest => openHeader path openTable :: changes path rest
  | .element path :: rest => openHeader path openElement :: changes path rest
  | .entry path v :: rest => changeAt false (assign path v) header :: changes header rest

/-- A text without the mark that may stand at its beginning to tell the order of its bytes. -/
def withoutByteOrderMark : List Char → List Char
  | '\uFEFF' :: rest => rest
  | s => s

/-- The table that a document describes. -/
def parse? (text : String) : Option Toml :=
  match chain line? lineEnd? (withoutByteOrderMark text.toList) with
  | some (lines, []) => build? (changes [] lines)
  | _ => none

end Warehouse.Toml
