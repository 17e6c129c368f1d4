/-
Module: Warehouse.Number.Unsigned
Purpose: Reading and writing whole numbers in decimal. A reader is given the number its result must
  stay below, so that the width of a field is part of its grammar.
Trusted boundary: none
Main exports: digitsValue, hexDigit?, unsigned?, padded
-/

namespace Warehouse.Number

/-- The value of a run of decimal digits; every other character counts as nothing. -/
def digitsValue (s : List Char) : Nat :=
  s.foldl (fun n c => if c.isDigit then 10 * n + (c.toNat - 48) else n) 0

/-- The value of a hexadecimal digit. -/
def hexDigit? (c : Char) : Option Nat :=
  if c.isDigit then some (c.toNat - 48)
  else if 'a' ≤ c ∧ c ≤ 'f' then some (c.toNat - 87)
  else if 'A' ≤ c ∧ c ≤ 'F' then some (c.toNat - 55)
  else none

/-- Reads a whole number below `limit`: at least one ASCII digit, after an optional plus sign. -/
def unsigned? (limit : Nat) (s : List Char) : Option Nat :=
  let digits := match s with
    | '+' :: rest => rest
    | _ => s
  if digits.isEmpty || ! digits.all Char.isDigit then none
  else
    let n := digitsValue digits
    if n < limit then some n else none

/-- The decimal digits of `n`, with zeros in front up to `width` of them. -/
def padded (width n : Nat) : String :=
  let digits := toString n
  "".pushn '0' (width - digits.length) ++ digits

end Warehouse.Number
