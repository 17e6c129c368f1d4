/-
Module: Warehouse.Number.Binary64
Purpose: Double-precision numbers held as their sixty-four bits, and their shortest decimal text. A
  finite number is `significand * 2 ^ exponent`; the reals that round to it form an interval around
  it, whose ends belong to it exactly when the significand is even. Among the decimal numbers in the
  interval the text shows one with the fewest digits, and of those the nearest. All arithmetic is
  exact.
Trusted boundary: none
Main exports: Binary64, Binary64.isFinite, Binary64.shortest, Binary64.text
-/

namespace Warehouse.Number

/-- A double-precision number in its interchange format: sign, eleven exponent bits, fifty-two
fraction bits. Two values are the same when all bits are. -/
structure Binary64 where
  bits : UInt64
deriving DecidableEq, Repr

namespace Binary64

/-- The fraction bits. -/
def fraction (x : Binary64) : Nat := x.bits.toNat % Nat.pow 2 52

/-- The exponent bits. -/
def biased (x : Binary64) : Nat := x.bits.toNat / Nat.pow 2 52 % Nat.pow 2 11

/-- Whether the sign bit is set. -/
def isNegative (x : Binary64) : Bool := x.bits.toNat / Nat.pow 2 63 = 1

/-- Neither an infinity nor a NaN. -/
def isFinite (x : Binary64) : Bool := x.biased ≠ 2047

/-- The whole number that, times `2 ^ exponent`, is the magnitude of a finite number. -/
def significand (x : Binary64) : Nat :=
  if x.biased = 0 then x.fraction else x.fraction + Nat.pow 2 52

/-- The power of two that goes with `significand`. -/
def exponent (x : Binary64) : Int := if x.biased = 0 then -1074 else (x.biased : Int) - 1075

/-- Compares `a * 10 ^ k` with `b * 2 ^ e` by clearing both denominators. -/
def compareScaled (a : Nat) (k : Int) (b : Nat) (e : Int) : Ordering :=
  compare (a * Nat.pow 10 k.toNat * Nat.pow 2 (-e).toNat)
    (b * Nat.pow 2 e.toNat * Nat.pow 10 (-k).toNat)

/-- The whole part of `b * 2 ^ e / 10 ^ k`. -/
def floorScaled (b : Nat) (e k : Int) : Nat :=
  b * Nat.pow 2 e.toNat * Nat.pow 10 (-k).toNat / (Nat.pow 10 k.toNat * Nat.pow 2 (-e).toNat)

/-- Whether `digits * 10 ^ k` rounds to the number `x`. The ends of the interval are half a step
away, a quarter below when the step shrinks there; in units of `2 ^ (exponent - 2)` they are
whole. -/
def readsBack (x : Binary64) (digits : Nat) (k : Int) : Bool :=
  let m := x.significand
  let e := x.exponent - 2
  let below := if x.fraction = 0 && 1 < x.biased then 1 else 2
  let even := m % 2 = 0
  let lower := compareScaled digits k (4 * m - below) e
  let upper := compareScaled digits k (4 * m + 2) e
  (lower == .gt || (even && lower == .eq)) && (upper == .lt || (even && upper == .eq))

/-- Of two neighbours `d` and `d + 1` on the grid of `10 ^ k`, the one nearer to `x`, an even `d`
winning a tie. -/
def nearer (x : Binary64) (d : Nat) (k : Int) : Nat :=
  match compareScaled (2 * d + 1) k (2 * x.significand) x.exponent with
  | .lt => d + 1
  | .gt => d
  | .eq => if d % 2 = 0 then d else d + 1

/-- The grid point to write `x` with on the grid of `10 ^ k`, if a point of that grid reads back. -/
def onGrid? (x : Binary64) (k : Int) : Option Nat :=
  let d := floorScaled x.significand x.exponent k
  match x.readsBack d k, x.readsBack (d + 1) k with
  | true, true => some (x.nearer d k)
  | true, false => some d
  | false, true => some (d + 1)
  | false, false => none

/-- The number of decimal digits before the point of a positive number, or the negated number of
zeros after it: the least `p` with magnitude below `10 ^ p`, sought from a bound upwards. -/
def magnitudeFrom (x : Binary64) : Nat → Int → Int
  | 0, p => p
  | fuel + 1, p =>
    if compareScaled 1 p x.significand x.exponent == .gt then p else x.magnitudeFrom fuel (p + 1)

/-- The least `p` with magnitude below `10 ^ p`, for a number that is not zero. -/
def magnitude (x : Binary64) : Int := x.magnitudeFrom 700 (-330)

/-- Digits `d` and exponent `k` of the first of the grids `10 ^ k`, coarse to fine, on which some
point reads back. Seventeen digits always do. -/
def firstGrid (x : Binary64) (k : Int) : Nat → Nat × Int
  | 0 => (floorScaled x.significand x.exponent k, k)
  | more + 1 =>
    match x.onGrid? k with
    | some d => (d, k)
    | none => x.firstGrid (k - 1) more

/-- Digits and exponent of the shortest decimal number that reads back as the magnitude of `x`. Only
on the coarsest grid, where the points are 1 to 10, can the digits end in a zero, which is then
dropped. -/
def shortest (x : Binary64) : Nat × Int :=
  if x.significand = 0 then (0, 0)
  else
    let (d, k) := x.firstGrid (x.magnitude - 1) 17
    if d = 10 then (1, k + 1) else (d, k)

/-- The text of a finite number: positional where the point lies within sixteen digits or at most
five places before them, else with an exponent. A whole number keeps one zero after its point. -/
def text (x : Binary64) : String :=
  let sign := if x.isNegative then "-" else ""
  let (d, k) := x.shortest
  if d = 0 then sign ++ "0.0"
  else
    let digits := (toString d).toList
    let point := digits.length + k
    if 0 ≤ k ∧ point ≤ 16 then
      sign ++ String.ofList digits ++ "".pushn '0' k.toNat ++ ".0"
    else if 0 < point ∧ point ≤ 16 then
      sign ++ String.ofList (digits.take point.toNat) ++ "." ++
        String.ofList (digits.drop point.toNat)
    else if -5 < point ∧ point ≤ 0 then
      sign ++ "0." ++ "".pushn '0' (-point).toNat ++ String.ofList digits
    else match digits with
      | [] => sign
      | [c] => sign ++ c.toString ++ "e" ++ toString (point - 1)
      | c :: rest => sign ++ c.toString ++ "." ++ String.ofList rest ++ "e" ++ toString (point - 1)

/-- The name of a number that is not finite. -/
def nonFiniteName (x : Binary64) : String :=
  if x.fraction ≠ 0 then "NaN" else if x.isNegative then "-inf" else "inf"

end Binary64

end Warehouse.Number
