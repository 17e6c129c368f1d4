/-
Module: Warehouse.Text.Blank
Purpose: White space as the Unicode property `White_Space` has it, and the operations that rest on
  it: cutting blanks off the ends of a text, and cutting a text into the words between them. All of
  them work on `List Char`, so that a law about a text is an induction on its characters.
Trusted boundary: none
Main exports: isBlank, trimStart, trimEnd, trim, splitWhere, words, strip
-/

namespace Warehouse.Text

/-- Whether a character has the property `White_Space`. -/
def isBlank (c : Char) : Bool :=
  let n := c.toNat
  (9 ≤ n && n ≤ 13) || n = 0x20 || n = 0x85 || n = 0xA0 || n = 0x1680 ||
    (0x2000 ≤ n && n ≤ 0x200A) || n = 0x2028 || n = 0x2029 || n = 0x202F || n = 0x205F || n = 0x3000

/-- The text without the blanks it starts with. -/
def trimStart (s : List Char) : List Char := s.dropWhile isBlank

/-- The text without the blanks it ends with. -/
def trimEnd (s : List Char) : List Char := (s.reverse.dropWhile isBlank).reverse

/-- The text without blanks at either end. -/
def trim (s : List Char) : List Char := trimEnd (trimStart s)

/-- Cuts a text at every character that satisfies `p`. There is one piece more than there are cuts,
so the empty text is one empty piece. -/
def splitWhere (p : Char → Bool) : List Char → List (List Char)
  | [] => [[]]
  | c :: rest =>
    match splitWhere p rest with
    | [] => [[c]]
    | piece :: pieces => if p c then [] :: piece :: pieces else (c :: piece) :: pieces

/-- The maximal runs of characters that are not blank, in order. -/
def words (s : List Char) : List (List Char) :=
  (splitWhere isBlank s).filter (! ·.isEmpty)

/-- `trim` on strings. -/
def strip (s : String) : String := String.ofList (trim s.toList)

/-- `trimEnd` on strings. -/
def stripEnd (s : String) : String := String.ofList (trimEnd s.toList)

/-- A cut never leaves nothing behind. -/
theorem splitWhere_ne_nil (p : Char → Bool) (s : List Char) : splitWhere p s ≠ [] := by
  cases s with
  | nil => simp [splitWhere]
  | cons c rest =>
    unfold splitWhere
    split
    · simp
    · split <;> simp

end Warehouse.Text
