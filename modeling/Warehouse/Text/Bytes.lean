/-
Module: Warehouse.Text.Bytes
Purpose: The length of a text in UTF-8, in which offsets into a text are reported.
Trusted boundary: none
Main exports: byteLength
-/

namespace Warehouse.Text

/-- The number of bytes of a text in UTF-8. -/
def byteLength : List Char → Nat
  | [] => 0
  | c :: rest => c.utf8Size + byteLength rest

/-- The bytes of a text are those of its parts. -/
theorem byteLength_append (s t : List Char) :
    byteLength (s ++ t) = byteLength s + byteLength t := by
  induction s with
  | nil => simp [byteLength]
  | cons c rest ih => simp [byteLength, ih, Nat.add_assoc]

end Warehouse.Text
