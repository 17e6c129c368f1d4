/-
Module: Warehouse.Json.Reader
Purpose: Readers of JSON take something off the front of a text. A reader fails at the first
  character that cannot stand where it does, so that of two faults the one that stands first in the
  text is reported. The loops over the parts of an array or an object are given the length of the
  text, which they cannot outrun.
Trusted boundary: none
Main exports: Failure, Reader, Reader.peek, Reader.take, Reader.foldItems, Reader.foldMembers
-/
import Warehouse.Json.Basic

namespace Warehouse.Json

/-- Why a text gives no value. -/
inductive Failure where
  /-- Some character cannot stand where it does. -/
  | malformed
  /-- The text ends before the value does. -/
  | truncated
  /-- The text is fine, but not what is expected. -/
  | shape
deriving DecidableEq, Repr

/-- The usual words for the three. -/
def Failure.category : Failure → String
  | malformed => "syntax"
  | truncated => "eof"
  | shape => "data"

def Failure.message : Failure → String
  | malformed => "the text is not JSON"
  | truncated => "the text ends too early"
  | shape => "the value does not have the expected shape"

/-- What takes something off the front of a text. -/
abbrev Reader := StateT (List Char) (Except Failure)

/-- The four blanks of JSON. -/
def isSpace (c : Char) : Bool := c = ' ' || c = '\n' || c = '\t' || c = '\r'

/-- The rest of a text after the blanks it begins with. -/
def skipSpace (s : List Char) : List Char := s.dropWhile isSpace

namespace Reader

/-- The next character that is not blank, which stays in the text; the blanks before it do not. -/
def peek : Reader (Option Char) := fun s => .ok ((skipSpace s).head?, skipSpace s)

/-- Passes over a character. -/
def advance : Reader Unit := modify List.tail

/-- Takes the next character that is not blank. -/
def take : Reader Char := do
  match ← peek with
  | none => throw .truncated
  | some c =>
    advance
    return c

/-- Passes over `c`, which has to come next after blanks. -/
def expect (c : Char) : Reader Unit := do
  if (← take) ≠ c then throw .malformed

/-- Passes over the letters of a word, the first of which comes next. A text that ends inside the
word is truncated. -/
def word : List Char → Reader Unit
  | [] => pure ()
  | e :: rest => fun s =>
    match s with
    | [] => .error .truncated
    | c :: after => if c = e then word rest after else .error .malformed

/-- Goes on behind the comma of an array, or behind its bracket if it has an item. -/
def foldMoreItems {σ : Type} (step : σ → Reader σ) : Nat → σ → Reader σ
  | 0, _ => throw .malformed
  | size + 1, acc => do
    let acc ← step acc
    match ← take with
    | ']' => return acc
    | ',' => foldMoreItems step size acc
    | _ => throw .malformed

/-- Reads each item of an array with `step`, which is given what came of the items before. The
opening bracket has been read. -/
def foldItems {σ : Type} (size : Nat) (step : σ → Reader σ) (acc : σ) : Reader σ := do
  match ← peek with
  | some ']' =>
    advance
    return acc
  | _ => foldMoreItems step size acc

/-- Goes on behind the comma of an object, or behind its brace if it has a member. -/
def foldMoreMembers {σ : Type} (key : Reader String) (step : String → σ → Reader σ) :
    Nat → σ → Reader σ
  | 0, _ => throw .malformed
  | size + 1, acc => do
    let name ← key
    let acc ← step name acc
    match ← take with
    | '\x7d' => return acc
    | ',' => foldMoreMembers key step size acc
    | _ => throw .malformed

/-- Reads what follows each key of an object, from the colon on, with `step`. The opening brace has
been read. -/
def foldMembers {σ : Type} (size : Nat) (key : Reader String) (step : String → σ → Reader σ)
    (acc : σ) : Reader σ := do
  match ← peek with
  | some '\x7d' =>
    advance
    return acc
  | _ => foldMoreMembers key step size acc

end Reader

end Warehouse.Json
