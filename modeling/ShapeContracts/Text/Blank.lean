/-
  ShapeContracts/Text/Blank.lean
  ==============================
  **Blank characters and trimming.**

  A character is blank when it has the Unicode property `White_Space`.  The
  property holds of twenty-five characters, listed here as ranges of code
  points; it is wider than the four characters of `Char.isWhitespace` and
  does not include the zero-width space or the byte order mark.
-/

namespace ShapeContracts.Text

/-! ### The class -/

/-- The ranges of code points that have the property `White_Space`. -/
def blankRanges : List (Nat × Nat) :=
  [(0x09, 0x0D), (0x20, 0x20), (0x85, 0x85), (0xA0, 0xA0), (0x1680, 0x1680),
   (0x2000, 0x200A), (0x2028, 0x2029), (0x202F, 0x202F), (0x205F, 0x205F),
   (0x3000, 0x3000)]

/-- A character is blank when its code point lies in one of the ranges. -/
def isBlank (c : Char) : Bool :=
  blankRanges.any fun r => decide (r.1 ≤ c.toNat) && decide (c.toNat ≤ r.2)

/-! ### Trimming -/

/-- A text without the blanks it starts and ends with. -/
def trim (cs : List Char) : List Char :=
  ((cs.dropWhile isBlank).reverse.dropWhile isBlank).reverse

end ShapeContracts.Text
