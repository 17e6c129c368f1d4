/-
Module: Warehouse.Calendar
Purpose: Dates and times of the proleptic Gregorian calendar: their texts, the day count that makes
  them comparable, and the reader of RFC 3339 instants. A leap second is held as second 59 with a
  nanosecond count of a thousand million or more, and written as second 60.
Trusted boundary: none
Main exports: Date, Timestamp, Timestamp.sqlText, Timestamp.instantText, Timestamp.ofInstantText?
-/
import Warehouse.Text.Blank
import Warehouse.Number.Unsigned

namespace Warehouse

open Number (padded digitsValue)

/-- A calendar date. Year 0 is the year before year 1. -/
structure Date where
  year : Int
  month : Nat
  day : Nat
deriving DecidableEq, Repr

/-- A date with a time of day, in no particular zone. -/
structure Timestamp where
  date : Date
  hour : Nat
  minute : Nat
  second : Nat
  nanosecond : Nat
deriving DecidableEq, Repr

namespace Date

/-- A year from 0 to 9999 has four digits; any other has its sign and at least four. -/
def yearText (year : Int) : String :=
  if 0 ≤ year ∧ year ≤ 9999 then padded 4 year.toNat
  else (if year < 0 then "-" else "+") ++ padded 4 year.natAbs

/-- Year, month and day, separated by hyphens. -/
def text (d : Date) : String :=
  yearText d.year ++ "-" ++ padded 2 d.month ++ "-" ++ padded 2 d.day

/-- Leap years are those divisible by 4, except the centuries not divisible by 400. -/
def isLeapYear (year : Int) : Bool := year % 4 = 0 && (year % 100 ≠ 0 || year % 400 = 0)

/-- The number of days of a month. -/
def daysInMonth (year : Int) (month : Nat) : Nat :=
  if month = 2 then (if isLeapYear year then 29 else 28)
  else if month = 4 ∨ month = 6 ∨ month = 9 ∨ month = 11 then 30
  else 31

/-- Whether month and day are ones the calendar has. -/
def isValid (d : Date) : Bool :=
  1 ≤ d.month && d.month ≤ 12 && 1 ≤ d.day && d.day ≤ daysInMonth d.year d.month

/-- Days since 1970-01-01. Years are counted from March, so that the leap day is the last of its
year. -/
def toDays (d : Date) : Int :=
  let y := if d.month ≤ 2 then d.year - 1 else d.year
  let m : Int := (d.month + 9) % 12
  let dayOfYear := (153 * m + 2) / 5 + d.day - 1
  365 * y + y / 4 - y / 100 + y / 400 + dayOfYear - 719468

/-- The date that lies `n` days after 1970-01-01. -/
def ofDays (n : Int) : Date :=
  let z := n + 719468
  let era := z / 146097
  let dayOfEra := z % 146097
  let yearOfEra := (dayOfEra - dayOfEra / 1460 + dayOfEra / 36524 - dayOfEra / 146096) / 365
  let dayOfYear := dayOfEra - (365 * yearOfEra + yearOfEra / 4 - yearOfEra / 100)
  let m := (5 * dayOfYear + 2) / 153
  let month := if m < 10 then m + 3 else m - 9
  let year := yearOfEra + era * 400 + (if month ≤ 2 then 1 else 0)
  ⟨year, month.toNat, (dayOfYear - (153 * m + 2) / 5 + 1).toNat⟩

end Date

namespace Timestamp

/-- The nanoseconds within the written second. -/
def fraction (t : Timestamp) : Nat := t.nanosecond % 1000000000

/-- A fraction of a second, as a point with the fewest of 3, 6 or 9 digits that lose nothing; a
whole second has none. -/
def fractionText (t : Timestamp) : String :=
  let f := t.fraction
  if f = 0 then ""
  else if f % 1000000 = 0 then "." ++ padded 3 (f / 1000000)
  else if f % 1000 = 0 then "." ++ padded 6 (f / 1000)
  else "." ++ padded 9 f

/-- Hours, minutes and seconds with their fraction. -/
def clockText (t : Timestamp) : String :=
  let second := t.second + t.nanosecond / 1000000000
  padded 2 t.hour ++ ":" ++ padded 2 t.minute ++ ":" ++ padded 2 second ++ t.fractionText

/-- The form SQL reads: date and time of day separated by a space. -/
def sqlText (t : Timestamp) : String := t.date.text ++ " " ++ t.clockText

/-- The form of an instant in universal time: a `T` between date and time of day, and a final
`Z`. -/
def instantText (t : Timestamp) : String := t.date.text ++ "T" ++ t.clockText ++ "Z"

/-- The timestamp `seconds` earlier; the fraction, and with it a leap second, stays. -/
def earlierBy (t : Timestamp) (seconds : Int) : Timestamp :=
  let total := t.date.toDays * 86400 + t.hour * 3600 + t.minute * 60 + t.second - seconds
  let clock := total % 86400
  { date := Date.ofDays (total / 86400)
    hour := (clock / 3600).toNat
    minute := (clock / 60 % 60).toNat
    second := (clock % 60).toNat
    nanosecond := t.nanosecond }

/-- The timestamp of a count of seconds and nanoseconds since 1970-01-01. -/
def ofUnix (seconds : Int) (nanosecond : Nat) : Timestamp :=
  { earlierBy ⟨⟨1970, 1, 1⟩, 0, 0, 0, 0⟩ (-seconds) with nanosecond }

end Timestamp

/-!
### Reading

A field of a written date is a run of digits, possibly after blanks, of at most so many characters.
-/

namespace Calendar

/-- Reads one to `width` digits after optional blanks, and returns their value and the rest. -/
def field? (width : Nat) (s : List Char) : Option (Nat × List Char) :=
  let s := Text.trimStart s
  let digits := (s.take width).takeWhile Char.isDigit
  if digits.isEmpty then none else some (digitsValue digits, s.drop digits.length)

/-- Reads a year: four digits at most, or any number of them after a sign. -/
def year? (s : List Char) : Option (Int × List Char) :=
  match Text.trimStart s with
  | '-' :: rest => do
    let (digits, rest) := (rest.takeWhile Char.isDigit, rest.dropWhile Char.isDigit)
    if digits.isEmpty then none else some (-(digitsValue digits : Int), rest)
  | '+' :: rest => do
    let (digits, rest) := (rest.takeWhile Char.isDigit, rest.dropWhile Char.isDigit)
    if digits.isEmpty then none else some ((digitsValue digits : Int), rest)
  | s => do
    let (n, rest) ← field? 4 s
    some (n, rest)

/-- Drops the character `c`, after optional blanks if `loose`, which has to come next. -/
def mark? (loose : Bool) (c : Char) (s : List Char) : Option (List Char) :=
  match if loose then Text.trimStart s else s with
  | d :: rest => if d = c then some rest else none
  | [] => none

/-- Reads a date whose parts are separated by hyphens. -/
def date? (loose : Bool) (s : List Char) : Option (Date × List Char) := do
  let (year, s) ← year? s
  let (month, s) ← field? 2 (← mark? loose '-' s)
  let (day, s) ← field? 2 (← mark? loose '-' s)
  let date : Date := ⟨year, month, day⟩
  if date.isValid && -262143 ≤ year && year ≤ 262142 then some (date, s) else none

/-- Reads hours, minutes and seconds, separated by colons; second 60 is a leap second. -/
def clock? (loose : Bool) (date : Date) (s : List Char) : Option (Timestamp × List Char) := do
  let (hour, s) ← field? 2 s
  let (minute, s) ← field? 2 (← mark? loose ':' s)
  let (second, s) ← field? 2 (← mark? loose ':' s)
  if 23 < hour ∨ 59 < minute ∨ 60 < second then none
  else if second = 60 then some (⟨date, hour, minute, 59, 1000000000⟩, s)
  else some (⟨date, hour, minute, second, 0⟩, s)

/-- Reads an optional fraction of a second; digits after the ninth are dropped. -/
def fraction? (t : Timestamp) (s : List Char) : Option (Timestamp × List Char) :=
  match s with
  | '.' :: rest =>
    let digits := rest.takeWhile Char.isDigit
    if digits.isEmpty then none
    else
      let kept := digits.take 9
      let nanosecond := digitsValue kept * Nat.pow 10 (9 - kept.length)
      some ({ t with nanosecond := t.nanosecond + nanosecond }, rest.drop digits.length)
  | _ => some (t, s)

/-- Reads the offset of a zone from universal time, in seconds: a `Z` or the letters UTC, or a sign,
two digits of hours and two of minutes, with colons or blanks between them if need be. -/
def zone? (s : List Char) : Option (Int × List Char) :=
  match s with
  | 'Z' :: rest | 'z' :: rest => some (0, rest)
  | u :: t :: c :: rest =>
    if [u, t, c].map Char.toUpper = ['U', 'T', 'C'] then some (0, rest)
    else
      let sign : Option Int :=
        if u = '+' then some 1 else if u = '-' ∨ u = '−' then some (-1) else none
      let minutes := rest.dropWhile fun c => c = ':' || Text.isBlank c
      match sign, minutes with
      | some sign, m :: n :: rest =>
        if t.isDigit ∧ c.isDigit ∧ m.isDigit ∧ n.isDigit ∧
            digitsValue [m] < 6 ∧ digitsValue [t, c] < 24 then
          some (sign * (digitsValue [t, c] * 3600 + digitsValue [m, n] * 60 : Nat), rest)
        else none
      | _, _ => none
  | _ => none

end Calendar

open Calendar in
/-- Reads an RFC 3339 instant and gives it in universal time. Blanks are allowed before every part,
and a space may stand for the `T`. -/
def Timestamp.ofInstantText? (text : String) : Option Timestamp := do
  let (date, s) ← date? true text.toList
  let s ← match s with
    | 'T' :: rest | 't' :: rest | ' ' :: rest => some rest
    | _ => none
  let (t, s) ← clock? true date s
  let (t, s) ← fraction? t s
  let (offset, s) ← zone? (Text.trimStart s)
  if (Text.trimStart s).isEmpty then some (t.earlierBy offset) else none

open Calendar in
/-- Reads a date and a time of day without a fraction, as a person would type it. -/
def Timestamp.ofSqlText? (text : String) : Option Timestamp := do
  let (date, s) ← date? false text.toList
  let (t, s) ← clock? false date (Text.trimStart s)
  if s.isEmpty then some t else none

end Warehouse
