/-
Module: Warehouse.Json.Numeral
Purpose: Reading numbers. One that is asked for has to be within double precision; one that is
  passed over only has to be spelled correctly.
Trusted boundary: none
Main exports: Numeral, Numeral.lexeme, Numeral.whole?, Reader.number, Reader.passNumber
-/
import Warehouse.Json.Reader
import Warehouse.Number.Range
import Warehouse.Number.Unsigned

namespace Warehouse.Json

/-- At least one digit. -/
def digits (s : List Char) : Except Failure (List Char × List Char) :=
  match s with
  | [] => .error .truncated
  | c :: _ =>
    if c.isDigit then .ok (s.takeWhile Char.isDigit, s.dropWhile Char.isDigit)
      else .error .malformed

/-- The whole part of a number: a zero, or digits that do not begin with one. -/
def wholePart (s : List Char) : Except Failure (List Char × List Char) :=
  match s with
  | '0' :: c :: rest => if c.isDigit then .error .malformed else .ok (['0'], c :: rest)
  | _ => digits s

/-- The digits of a fraction behind its point; none if there is no point. -/
def fractionPart (s : List Char) : Except Failure (List Char × List Char) :=
  match s with
  | '.' :: rest => digits rest
  | _ => .ok ([], s)

/-- The exponent of a number with its letter and its sign, if it has one. -/
def exponentPart (s : List Char) : Except Failure (List Char × List Char) :=
  match s with
  | c :: rest =>
    if c = 'e' ∨ c = 'E' then do
      let (sign, rest) := match rest with
        | '-' :: rest => (['-'], rest)
        | '+' :: rest => (['+'], rest)
        | rest => ([], rest)
      let (ds, rest) ← digits rest
      return (c :: sign ++ ds, rest)
    else .ok ([], s)
  | [] => .ok ([], [])

/-- A number as it is written. -/
structure Numeral where
  negative : Bool
  whole : List Char
  /-- The digits behind the point. -/
  fraction : List Char
  /-- The letter, the sign and the digits. -/
  exponent : List Char

/-- Reads a number. -/
def numeral (s : List Char) : Except Failure (Numeral × List Char) := do
  let (negative, rest) := match s with
    | '-' :: rest => (true, rest)
    | rest => (false, rest)
  let (whole, rest) ← wholePart rest
  let (fraction, rest) ← fractionPart rest
  let (exponent, rest) ← exponentPart rest
  return (⟨negative, whole, fraction, exponent⟩, rest)

/-- A number as it is held while it is read: `significand * 10 ^ power`. -/
structure Magnitude where
  significand : Nat
  power : Int

namespace Magnitude

/-- The significand with another digit, if it still has room for one. -/
def append? (m : Magnitude) (digit : Char) : Option Nat :=
  let n := 10 * m.significand + (digit.toNat - 48)
  if n < UInt64.size then some n else none

/-- A digit before the point. From the first one on for which there is no room, digits are only
counted. -/
def appendWhole (m : Magnitude) (digit : Char) : Magnitude :=
  if 0 < m.power then { m with power := m.power + 1 }
  else
    match m.append? digit with
    | some n => { m with significand := n }
    | none => { m with power := m.power + 1 }

/-- The digits behind the point up to the first for which there is no room. -/
def appendFraction (m : Magnitude) : List Char → Magnitude
  | [] => m
  | digit :: rest =>
    match m.append? digit with
    | some n => appendFraction ⟨n, m.power - 1⟩ rest
    | none => m

end Magnitude

namespace Numeral

/-- The text of a number. -/
def lexeme (n : Numeral) : List Char :=
  let sign := if n.negative then ['-'] else []
  let fraction := if n.fraction.isEmpty then [] else '.' :: n.fraction
  sign ++ n.whole ++ fraction ++ n.exponent

/-- The power of ten that the exponent says. -/
def power (n : Numeral) : Int :=
  match n.exponent with
  | _ :: '-' :: ds => -(Number.digitsValue ds : Int)
  | ds => Number.digitsValue ds

/-- The number without its sign. -/
def magnitude (n : Numeral) : Magnitude :=
  let m := (n.whole.foldl Magnitude.appendWhole ⟨0, 0⟩).appendFraction n.fraction
  { m with power := m.power + n.power }

/-- Whether the number is too large for double precision. -/
def isTooLarge (n : Numeral) : Bool :=
  Number.productExceedsDouble n.magnitude.significand n.magnitude.power

/-- The value of a number that is written without sign, point and exponent. -/
def whole? (n : Numeral) : Option Nat :=
  if n.negative ∨ ! n.fraction.isEmpty ∨ ! n.exponent.isEmpty then none
  else some (Number.digitsValue n.whole)

end Numeral

namespace Reader

/-- Reads a number. -/
def number : Reader Numeral := fun s => do
  let (n, rest) ← numeral s
  if n.isTooLarge then .error .malformed else return (n, rest)

/-- Passes over a number. A text that ends where a digit has to follow is malformed here. -/
def passNumber : Reader Unit := fun s =>
  match numeral s with
  | .ok (_, rest) => .ok ((), rest)
  | .error _ => .error .malformed

end Reader

end Warehouse.Json
