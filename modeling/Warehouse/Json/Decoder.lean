/-
Module: Warehouse.Json.Decoder
Purpose: Reading typed values off a text. A decoder fails with the fault of the text if it meets
  one, and with `shape` where the text is fine but not what is expected; the failure that stands
  first in the text counts.
Trusted boundary: none
Main exports: Bounds, Decoder, Decoder.string, Decoder.below, Decoder.name, Decoder.list, decode
-/
import Warehouse.Json.Value

namespace Warehouse.Json

/-- What a decoder has to keep within. -/
structure Bounds where
  /-- The length of the whole text. -/
  size : Nat
  /-- How many more arrays and objects may be opened one inside the other. -/
  levels : Nat

/-- A reader of values of one type. -/
abbrev Decoder := ReaderT Bounds Reader

namespace Decoder

open Reader (peek advance expect word key unexpected)

/-- Reads inside an array or object. -/
def nested {α : Type} (d : Decoder α) : Decoder α := fun b =>
  match b.levels with
  | 0 => throw .malformed
  | levels + 1 => d { b with levels }

/-- Passes over a value. -/
def ignore : Decoder Unit := fun b => Reader.passValue b.size

/-- Reads a value of any kind and drops it. -/
def any : Decoder Unit := fun b => do
  let _ ← Reader.value b.size b.levels

/-- A string. -/
def string : Decoder String := do
  match ← peek with
  | some '"' =>
    advance
    Reader.quoted
  | _ => unexpected

/-- A truth value. -/
def bool : Decoder Bool := do
  match ← peek with
  | some 't' =>
    word "true".toList
    return true
  | some 'f' =>
    word "false".toList
    return false
  | _ => unexpected

/-- The word `null`. -/
def null : Decoder Unit := do
  match ← peek with
  | some 'n' => word "null".toList
  | _ => unexpected

/-- A whole number below `limit`, written without sign, point or exponent. -/
def below (limit : Nat) : Decoder Nat := do
  if (← peek).any fun c => c = '-' || c.isDigit then
    match (← Reader.number).whole? with
    | some n => if n < limit then return n else throw .shape
    | none => throw .shape
  else unexpected

/-- A whole number of thirty-two bits. -/
def uint32 : Decoder UInt32 := UInt32.ofNat <$> below UInt32.size

/-- A value or `null`. -/
def nullable {α : Type} (d : Decoder α) : Decoder (Option α) := do
  match ← peek with
  | some 'n' =>
    null
    return none
  | _ => some <$> d

/-- A string that `read` accepts. -/
def stringWith {α : Type} (read : String → Option α) : Decoder α := do
  match read (← string) with
  | some a => return a
  | none => throw .shape

/-- One of several names, given as a string, or as the only key of an object whose value is
`null`. -/
def name {α : Type} (read : String → Option α) : Decoder α := do
  match ← peek with
  | none => throw .truncated
  | some '"' => stringWith read
  | some '\x7b' => nested do
    advance
    match read (← key) with
    | none => throw .shape
    | some a =>
      expect ':'
      null
      expect '\x7d'
      return a
  | some _ => throw .malformed

/-- One of several alternatives, given by its name or by its place among them. -/
def choice {α : Type} (alternatives : List (String × α)) : Decoder α := do
  let chosen : Option α ← do
    match ← peek with
    | some '"' => (alternatives.lookup ·) <$> string
    | _ => (fun i => alternatives[i]?.map Prod.snd) <$> below alternatives.length
  match chosen with
  | some a => return a
  | none => throw .shape

/-- A list. -/
def list {α : Type} (d : Decoder α) : Decoder (List α) := do
  match ← peek with
  | some '[' => nested do
    advance
    let items ← fun b => Reader.foldItems b.size (fun items => do return (← d b) :: items) []
    return items.reverse
  | _ => unexpected

/-- An object with any keys. -/
def table {α : Type} (d : Decoder α) : Decoder (List (String × α)) := do
  match ← peek with
  | some '\x7b' => nested do
    advance
    let members ← fun b => Reader.foldMembers b.size key (fun name members => do
      expect ':'
      return (name, ← d b) :: members) []
    return members.reverse
  | _ => unexpected

/-- Reads a value and leaves it in the text. -/
def lookahead {α : Type} (d : Decoder α) : Decoder α := fun b s => (d b s).map fun (a, _) => (a, s)

/-- Reads a value that is known to be JSON, so that it can only fail to have the expected shape. -/
def again {α : Type} (d : Decoder α) : Decoder α := fun b s => (d b s).mapError fun _ => .shape

end Decoder

/-- How deep a document may be nested. -/
def nestingLimit : Nat := 127

/-- Decodes a whole text. -/
def decode {α : Type} (d : Decoder α) (text : String) : Except Failure α := do
  let s := text.toList
  let (a, _) ← (do
    let a ← d ⟨s.length + 1, nestingLimit⟩
    Reader.finish
    return a : Reader α) s
  return a

end Warehouse.Json
