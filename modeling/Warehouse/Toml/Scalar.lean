/-
Module: Warehouse.Toml.Scalar
Purpose: Reading the values that are written without quotes or brackets: truth values, numbers and
  moments. An underscore may stand between two digits of a number; a whole number in decimal has no
  zeros in front. A document may hold numbers that are too large to be read as values.
Trusted boundary: none
Main exports: Toml.scalar?, Toml.isReadable
-/
import Warehouse.Calendar
import Warehouse.Number.Range
import Warehouse.Toml.Quoted

namespace Warehouse.Toml

/-- Digits with an underscore between some of them, without these. -/
def digits? (isDigit : Char → Bool) (s : List Char) : Option (List Char) :=
  let groups := Text.splitWhere (· = '_') s
  if groups.all fun g => ! g.isEmpty && g.all isDigit then some groups.flatten else none

/-- Decimal digits that do not begin with a needless zero. -/
def decimalDigits? (s : List Char) : Option (List Char) :=
  match digits? Char.isDigit s with
  | some ('0' :: _ :: _) => none
  | found => found

/-- Whether a lexeme begins with a minus. -/
def isNegative : List Char → Bool
  | '-' :: _ => true
  | _ => false

/-- A lexeme without its sign. -/
def unsigned : List Char → List Char
  | '-' :: rest | '+' :: rest => rest
  | s => s

/-- The value of digits of a base that is a power of two. -/
def basedValue? (base : Nat) (s : List Char) : Option Nat := do
  let digits ← digits? (fun c => ((Number.hexDigit? c).any (· < base))) s
  some (digits.foldl (fun n c => base * n + (Number.hexDigit? c).getD 0) 0)

/-- The value of a whole number. -/
def integer? : List Char → Option Int
  | '0' :: 'x' :: rest => (basedValue? 16 rest).map Int.ofNat
  | '0' :: 'o' :: rest => (basedValue? 8 rest).map Int.ofNat
  | '0' :: 'b' :: rest => (basedValue? 2 rest).map Int.ofNat
  | s => (decimalDigits? (unsigned s)).map fun digits =>
    if isNegative s then -(Number.digitsValue digits : Int) else Number.digitsValue digits

/-- A number `significand * 10 ^ power` without its sign. -/
structure Decimal where
  significand : Nat
  power : Int
deriving DecidableEq, Repr

/-- The digits behind the point of `s`, which begins with it unless it is empty. -/
def fractionDigits? : List Char → Option (List Char)
  | [] => some []
  | _ :: digits => digits? Char.isDigit digits

/-- The exponent of `s`, which begins with its letter unless it is empty. -/
def exponentValue? : List Char → Option Int
  | [] => some 0
  | _ :: power => (digits? Char.isDigit (unsigned power)).map fun digits =>
    if isNegative power then -(Number.digitsValue digits : Int) else Number.digitsValue digits

/-- The value of a number with a fraction or an exponent. -/
def decimal? (s : List Char) : Option Decimal := do
  let isExponentMark (c : Char) : Bool := c = 'e' || c = 'E'
  let mantissa := s.takeWhile fun c => ! isExponentMark c
  let exponent := s.drop mantissa.length
  let whole := mantissa.takeWhile (· ≠ '.')
  let fraction := mantissa.drop whole.length
  if fraction.isEmpty && exponent.isEmpty then none
  else
    let before ← decimalDigits? (unsigned whole)
    let behind ← fractionDigits? fraction
    let power ← exponentValue? exponent
    return ⟨Number.digitsValue (before ++ behind), power - behind.length⟩

/-- Whether a lexeme is no number, or one without bound. -/
def isUnbounded (s : List Char) : Bool :=
  unsigned s = ['i', 'n', 'f'] || unsigned s = ['n', 'a', 'n']

/-! ### Moments -/

/-- The number that exactly two digits at the beginning give, and the rest. -/
def twoDigits? : List Char → Option (Nat × List Char)
  | a :: b :: rest =>
    if a.isDigit ∧ b.isDigit then some (Number.digitsValue [a, b], rest) else none
  | _ => none

/-- Passes over a date. -/
def date? (s : List Char) : Option (List Char) := do
  let (century, s) ← twoDigits? s
  let (year, s) ← twoDigits? s
  let (month, s) ← twoDigits? (← mark? '-' s)
  let (day, s) ← twoDigits? (← mark? '-' s)
  if Date.isValid ⟨(100 * century + year : Nat), month, day⟩ then some s else none

/-- Passes over the seconds of a time of day and the colon before them. Without seconds nothing is
passed over. A fraction may follow. -/
def seconds? (s : List Char) : Option (List Char) :=
  match s with
  | ':' :: rest => do
    let (second, s) ← twoDigits? rest
    if 60 < second then none
    else match s with
      | '.' :: rest =>
        let fraction := rest.takeWhile Char.isDigit
        if fraction.isEmpty then none else some (rest.drop fraction.length)
      | s => some s
  | s => some s

/-- Passes over a time of day. -/
def clock? (s : List Char) : Option (List Char) := do
  let (hour, s) ← twoDigits? s
  let (minute, s) ← twoDigits? (← mark? ':' s)
  if 23 < hour ∨ 59 < minute then none else seconds? s

/-- Passes over a zone. -/
def zone? : List Char → Option (List Char)
  | 'Z' :: rest | 'z' :: rest => some rest
  | sign :: rest => do
    let (hour, s) ← twoDigits? rest
    let (minute, s) ← twoDigits? (← mark? ':' s)
    if (sign = '+' ∨ sign = '-') ∧ hour < 24 ∧ minute < 60 then some s else none
  | [] => none

/-- Whether a lexeme is a date, a time of day, or both with or without a zone. -/
def isMoment (s : List Char) : Bool :=
  match date? s with
  | some [] => true
  | some (mark :: rest) =>
    if mark = 'T' ∨ mark = 't' ∨ mark = ' ' then
      match clock? rest with
      | some [] => true
      | some zone => zone? zone = some []
      | none => false
    else false
  | none => clock? s = some []

/-! ### Lexemes -/

/-- A character of a value without quotes. -/
def isScalarChar (c : Char) : Bool := c.isAlphanum || "+-._:".toList.contains c

/-- The longest lexeme at the beginning of a text. A date and a time of day may have a space between
them. -/
def lexeme (s : List Char) : List Char :=
  let first := s.takeWhile isScalarChar
  match date? first, s.drop first.length with
  | some [], ' ' :: rest =>
    let second := rest.takeWhile isScalarChar
    if (second.take 1).all Char.isDigit ∧ ! second.isEmpty then first ++ ' ' :: second else first
  | _, _ => first

/-- The value of a lexeme. -/
def valueOf? (s : List Char) : Option Toml :=
  if s = "true".toList then some (.bool true)
  else if s = "false".toList then some (.bool false)
  else match integer? s with
    | some n => some (.integer n)
    | none =>
      if isUnbounded s || (decimal? s).isSome then some (.float (String.ofList s))
      else if isMoment s then some (.moment (String.ofList s))
      else none

/-- Reads a value without quotes or brackets. -/
def scalar? (s : List Char) : Option (Toml × List Char) :=
  (valueOf? (lexeme s)).map fun v => (v, s.drop (lexeme s).length)

/-! ### Numbers that can be held -/

mutual

/-- Whether all numbers of a value can be held: whole ones in 128 bits, with a sign if they are
negative, others in double precision. -/
def isReadable : Toml → Bool
  | .integer n => -Int.pow 2 127 ≤ n && n < Int.pow 2 128
  | .float lexeme => (decimal? lexeme.toList).all fun d =>
    ! Number.exceedsDouble d.significand d.power
  | .array items => areReadable items
  | .table entries => areEntriesReadable entries
  | .string _ | .bool _ | .moment _ => true

/-- `isReadable` for every value of a list. -/
def areReadable : List Toml → Bool
  | [] => true
  | item :: rest => item.isReadable && areReadable rest

/-- `isReadable` for every value of a table. -/
def areEntriesReadable : List (String × Toml) → Bool
  | [] => true
  | (_, v) :: rest => v.isReadable && areEntriesReadable rest

end

end Warehouse.Toml
