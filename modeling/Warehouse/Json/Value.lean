/-
Module: Warehouse.Json.Value
Purpose: Reading a value of whatever kind, and passing over one. A value that is read may be nested
  only so many levels deep, and all its parts have to stand for something; one that is passed over
  may be nested without limit.
Trusted boundary: none
Main exports: Reader.value, Reader.unexpected, Reader.passValue, Json.parse?
-/
import Warehouse.Json.Numeral
import Warehouse.Json.Quoted

namespace Warehouse.Json

namespace Reader

/-- The key of a member. -/
def key : Reader String := do
  expect '"'
  quoted

/-- Passes over the key of a member and the colon behind it. -/
def passKey : Reader Unit := do
  expect '"'
  passQuoted
  expect ':'

/-- Reads a value that is neither array nor object. -/
def scalar : Reader Json := do
  match ← peek with
  | none => throw .truncated
  | some '"' =>
    advance
    return .string (← quoted)
  | some 't' =>
    word "true".toList
    return .bool true
  | some 'f' =>
    word "false".toList
    return .bool false
  | some 'n' =>
    word "null".toList
    return .null
  | some c =>
    if c = '-' ∨ c.isDigit then return .number (String.ofList (← number).lexeme)
    else throw .malformed

/-- Fails on a value of a kind that is not expected. One that is neither array nor object is read
first. -/
def unexpected {α : Type} : Reader α := do
  match ← peek with
  | some '[' | some '\x7b' => throw .shape
  | _ =>
    let _ ← scalar
    throw .shape

/-- Reads a value that is nested at most `levels` levels deep. -/
def value (size : Nat) : (levels : Nat) → Reader Json
  | 0 => do
    match ← peek with
    | some '[' | some '\x7b' => throw .malformed
    | _ => scalar
  | levels + 1 => do
    match ← peek with
    | some '[' =>
      advance
      let items ← foldItems size (fun items => do return (← value size levels) :: items) []
      return .array items.reverse
    | some '\x7b' =>
      advance
      let members ← foldMembers size key (fun name members => do
        expect ':'
        return (name, ← value size levels) :: members) []
      return .object members.reverse
    | _ => scalar

/-! ### Passing over -/

/-- What is open around a value. -/
inductive Bracket where
  | array
  | object
deriving DecidableEq, Repr

/-- Passes over a value that is neither array nor object. -/
def passScalar : Reader Unit := do
  match ← peek with
  | none => throw .truncated
  | some '"' =>
    advance
    passQuoted
  | some 't' => word "true".toList
  | some 'f' => word "false".toList
  | some 'n' => word "null".toList
  | some c => if c = '-' ∨ c.isDigit then passNumber else throw .malformed

mutual

/-- Passes over a value and the rest of the arrays and objects around it, the innermost first. -/
def passFrom : Nat → List Bracket → Reader Unit
  | 0, _ => throw .malformed
  | size + 1, around => do
    match ← peek with
    | some '[' =>
      advance
      if (← peek) = some ']' then
        advance
        passAfter size around
      else passFrom size (.array :: around)
    | some '\x7b' =>
      advance
      if (← peek) = some '\x7d' then
        advance
        passAfter size around
      else
        passKey
        passFrom size (.object :: around)
    | _ =>
      passScalar
      passAfter size around

/-- Passes over the rest of the arrays and objects around a value that has been passed. -/
def passAfter : Nat → List Bracket → Reader Unit
  | _, [] => pure ()
  | 0, _ => throw .malformed
  | size + 1, bracket :: around => do
    match bracket, ← take with
    | .array, ']' => passAfter size around
    | .array, ',' => passFrom size (.array :: around)
    | .object, '\x7d' => passAfter size around
    | .object, ',' =>
      passKey
      passFrom size (.object :: around)
    | _, _ => throw .malformed

end

/-- Passes over a value. -/
def passValue (size : Nat) : Reader Unit := passFrom size []

/-- Reads to the end of the text, where nothing but blanks may be left. -/
def finish : Reader Unit := do
  if (← peek).isSome then throw .malformed

end Reader

/-- Reads a whole text as one value. -/
def parse? (text : String) : Option Json :=
  let s := text.toList
  let size := s.length + 1
  match (do
    let v ← Reader.value size size
    Reader.finish
    return v : Reader Json) s with
  | .ok (v, _) => some v
  | .error _ => none

end Warehouse.Json
