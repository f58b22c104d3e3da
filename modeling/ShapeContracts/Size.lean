/-
  ShapeContracts/Size.lean
  ========================
  **Sizes of dimensions and their decimal text.**

  A size is a 64-bit word, written in decimal.  When one is read, the digits
  may follow a plus sign and may have leading zeros.  The first fault from the
  left decides: a text whose digits run out of range before a foreign
  character is too large, not malformed.
-/
import ShapeContracts.Text.Numeral

namespace ShapeContracts

abbrev Size := UInt64

/-- The number of sizes: every size lies below it. -/
def Size.bound : Nat := 18446744073709551616

/-- A size in decimal digits, without leading zeros. -/
def Size.text (n : Size) : String := n.toNat.repr

inductive SizeError
  | empty
  | invalidDigit
  | tooLarge
deriving DecidableEq, Repr

def SizeError.message : SizeError → String
  | .empty => "cannot parse integer from empty string"
  | .invalidDigit => "invalid digit found in string"
  | .tooLarge => "number too large to fit in target type"

namespace Size

/-- Read digits on top of a value that is already known to be a size. -/
def readDigits (value : Nat) : List Char → Except SizeError Nat
  | [] => .ok value
  | c :: cs =>
    match Text.digit? 10 c with
    | none => .error .invalidDigit
    | some d =>
      if value * 10 + d < bound then readDigits (value * 10 + d) cs
      else .error .tooLarge

/-- Read a size: an optional plus sign and at least one digit. -/
def read : List Char → Except SizeError Size
  | [] => .error .empty
  | ['+'] => .error .invalidDigit
  | '+' :: cs => (readDigits 0 cs).map UInt64.ofNat
  | cs => (readDigits 0 cs).map UInt64.ofNat

end Size

end ShapeContracts
