/-
Module: Warehouse.Number.Range
Purpose: Which decimal numbers are too large for double precision. The largest double is `2 ^ 1024 -
  2 ^ 971`, and a number rounds to it as long as it stays below `2 ^ 1024 - 2 ^ 970`. A decimal
  number can be compared with that bound as it is, or in the way of a reader that keeps sixty-four
  bits of its digits and multiplies them, rounded, with a rounded power of ten.
Trusted boundary: none
Main exports: Number.overflowBound, Number.exceedsDouble, Number.roundToDouble,
  Number.productExceedsDouble
-/

namespace Warehouse.Number

/-- The least whole number that does not round to a double. -/
def overflowBound : Nat := Nat.pow 2 1024 - Nat.pow 2 970

/-- Whether `significand * 10 ^ power` does not round to a double. A power of ten above the three
hundred and eighth is too large whatever it is multiplied with; one far below makes `significand`
small unless it has as many digits. -/
def exceedsDouble (significand : Nat) (power : Int) : Bool :=
  if significand = 0 then false
  else if 308 < power then true
  else if significand.log2 < (-power).toNat then false
  else overflowBound * Nat.pow 10 (-power).toNat ≤ significand * Nat.pow 10 power.toNat

/-- The double that is nearest to a whole number, the one with an even significand if two are. -/
def roundToDouble (n : Nat) : Nat :=
  let step := Nat.pow 2 (n.log2 - 52)
  let (quotient, remainder) := (n / step, n % step)
  if step < 2 * remainder ∨ (step = 2 * remainder ∧ quotient % 2 = 1) then (quotient + 1) * step
  else quotient * step

/-- Whether the product of the doubles nearest to `significand` and to `10 ^ power` does not round
to a double. -/
def productExceedsDouble (significand : Nat) (power : Int) : Bool :=
  if significand = 0 ∨ power < 0 then false
  else if 308 < power then true
  else overflowBound ≤ roundToDouble significand * roundToDouble (Nat.pow 10 power.toNat)

end Warehouse.Number
