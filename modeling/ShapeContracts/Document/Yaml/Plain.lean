/-
  ShapeContracts/Document/Yaml/Plain.lean
  =======================================
  **What a plain YAML scalar stands for.**

  A plain scalar is a text without quotes.  It may stand for null, a truth
  value or a number; anything else is a text.  Integers are written in
  decimal, or in base sixteen, eight or two after `0x`, `0o`, `0b`.  Digits
  with a leading zero are a text.

  Integers have at most 128 bits.  Longer decimal digits are a number like
  those with a point or an exponent, and all of these are a text once they
  exceed every double; longer digits of another base are a text.
-/
import ShapeContracts.Document.Node

namespace ShapeContracts.Yaml

/-! ### Fixed words -/

def nullWords : List String := ["null", "Null", "NULL", "~"]

def trueWords : List String := ["true", "True", "TRUE"]

def falseWords : List String := ["false", "False", "FALSE"]

/-- The spellings of the infinities and of what is not a number. -/
def specialWords : List String :=
  [".inf", ".Inf", ".INF", "+.inf", "+.Inf", "+.INF", "-.inf", "-.Inf", "-.INF",
   ".nan", ".NaN", ".NAN"]

/-! ### Integers -/

/-- The number written without a sign: in a base after its mark, in decimal
    otherwise. -/
def unsigned? : List Char → Option Nat
  | '0' :: 'x' :: cs => Text.numeral? 16 cs
  | '0' :: 'o' :: cs => Text.numeral? 8 cs
  | '0' :: 'b' :: cs => Text.numeral? 2 cs
  | cs => Text.numeral? 10 cs

/-- A text without its sign, and whether the sign is a minus. -/
def splitSign : List Char → Bool × List Char
  | '-' :: cs => (true, cs)
  | '+' :: cs => (false, cs)
  | cs => (false, cs)

/-- Whether a text is, after its sign, a zero followed by digits. -/
def hasLeadingZero (cs : List Char) : Bool :=
  match (splitSign cs).2 with
  | '0' :: c :: cs => (c :: cs).all Char.isDigit
  | _ => false

/-- The value of a magnitude with a minus sign, when both fit 128 bits. -/
def ofMinus? (n : Nat) : Option Scalar :=
  if n = 0 then some .minusZero
  else if n ≤ Nat.pow 2 127 then some (.ofInt (-(n : Int)))
  else none

/-- The value of a magnitude without a minus sign, when it fits 128 bits. -/
def ofPlus? (n : Nat) : Option Scalar :=
  if n < Nat.pow 2 128 then some (.ofInt n) else none

/-- The integer of at most 128 bits that a text writes. -/
def integer? (cs : List Char) : Option Scalar :=
  if hasLeadingZero cs then none
  else
    match splitSign cs with
    | (true, cs) => (unsigned? cs).bind ofMinus?
    | (false, cs) => (unsigned? cs).bind ofPlus?

/-! ### Other numbers -/

/-- The digits of an exponent after its letter, and its sign. -/
def exponent? : List Char → Option Int
  | [] => some 0
  | c :: cs =>
    if c = 'e' ∨ c = 'E' then
      let (negative, ds) := splitSign cs
      (Text.numeral? 10 ds).map fun n => if negative then -(n : Int) else n
    else none

/-- The digits and the power of ten of an unsigned decimal: digits, possibly a
    point among them, possibly an exponent. -/
def decimal? (cs : List Char) : Option (List Char × Int) :=
  let whole := cs.takeWhile Char.isDigit
  let (fraction, rest) : List Char × List Char :=
    match cs.dropWhile Char.isDigit with
    | '.' :: cs => (cs.takeWhile Char.isDigit, cs.dropWhile Char.isDigit)
    | cs => ([], cs)
  if whole.isEmpty && fraction.isEmpty then none
  else (exponent? rest).map fun e => (whole ++ fraction, e - fraction.length)

/-- Whether a decimal is below the least number that rounds beyond the largest
    double, which is 2 to the 1024 less half a unit in the last place.  The
    decimal has a length that settles most cases without its value. -/
def fitsDouble (ds : List Char) (e : Int) : Bool :=
  let ds := ds.dropWhile (· == '0')
  let magnitude : Int := ds.length + e
  if ds.isEmpty || magnitude < 300 then true
  else if 310 < magnitude then false
  else
    let n := (Text.numeral? 10 ds).getD 0
    let limit := Nat.pow 2 1024 - Nat.pow 2 970
    if 0 ≤ e then n * Nat.pow 10 e.toNat < limit else n < limit * Nat.pow 10 (-e).toNat

/-- Whether a text writes a number that is not an integer. -/
def isOtherNumber (cs : List Char) : Bool :=
  specialWords.contains (String.ofList cs) ||
    (!hasLeadingZero cs &&
      match decimal? (splitSign cs).2 with
      | some (ds, e) => fitsDouble ds e
      | none => false)

/-! ### Scalars -/

def plain (s : String) : Scalar :=
  let cs := s.toList
  if cs.isEmpty || nullWords.contains s then .null
  else if trueWords.contains s then .bool true
  else if falseWords.contains s then .bool false
  else
    match integer? cs with
    | some value => value
    | none => if isOtherNumber cs then .number else .text s

end ShapeContracts.Yaml
