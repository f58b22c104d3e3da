/-
  ShapeContracts/Document/Json/Reader.lean
  ========================================
  **Reading JSON.**

  The grammar is strict: no comments, no trailing commas, no leading zeros, no
  control characters between quotes, and nothing after the document but
  blanks.

  Two things are left to whoever looks at a value.  A number that is not
  written as an integer, or is too large for one, is a `number`.  Quoted text
  with half a surrogate pair in it is `brokenText`; it does no harm in a place
  that is overlooked.
-/
import ShapeContracts.Document.Node

namespace ShapeContracts.Json

/-! ### Blanks and words -/

/-- Whether a character may stand between the parts of a document. -/
def isSpace (c : Char) : Bool := c == ' ' || c == '\n' || c == '\t' || c == '\r'

/-- What follows the blanks. -/
def skip (cs : List Char) : List Char := cs.dropWhile isSpace

def after? : List Char → List Char → Option (List Char)
  | [], cs => some cs
  | w :: ws, c :: cs => if w = c then after? ws cs else none
  | _ :: _, [] => none

/-! ### Numbers -/

/-- Split off the digits a text starts with; there has to be one. -/
def digits? (cs : List Char) : Option (List Char × List Char) :=
  match cs.takeWhile Char.isDigit with
  | [] => none
  | ds => some (ds, cs.dropWhile Char.isDigit)

/-- Split off the digits before the point: a zero alone, or digits that do
    not start with zero. -/
def wholeDigits? : List Char → Option (List Char × List Char)
  | '0' :: cs => some (['0'], cs)
  | cs => digits? cs

/-- Pass over a point and its digits, if there is one. -/
def fraction? : List Char → Option (Bool × List Char)
  | '.' :: cs => (digits? cs).map fun r => (true, r.2)
  | cs => some (false, cs)

def skipSign : List Char → List Char
  | '+' :: cs => cs
  | '-' :: cs => cs
  | cs => cs

def exponent? : List Char → Option (Bool × List Char)
  | c :: cs =>
    if c = 'e' ∨ c = 'E' then (digits? (skipSign cs)).map fun r => (true, r.2)
    else some (false, c :: cs)
  | [] => some (false, [])

/-- Read a number.  Negative zero is not an integer. -/
def number? (cs : List Char) : Option (Scalar × List Char) := do
  let (negative, cs) := match cs with
    | '-' :: cs => (true, cs)
    | cs => (false, cs)
  let (ds, cs) ← wholeDigits? cs
  let (hasFraction, cs) ← fraction? cs
  let (hasExponent, cs) ← exponent? cs
  let n := (Text.numeral? 10 ds).getD 0
  let value : Scalar :=
    if hasFraction || hasExponent || (negative && n == 0) then .number
    else .ofInt (if negative then -(n : Int) else n)
  return (value, cs)

/-! ### Quoted text -/

/-- The character that a letter after a backslash stands for. -/
def escaped? : Char → Option Char
  | '"' => some '"'
  | '\\' => some '\\'
  | '/' => some '/'
  | 'b' => some '\x08'
  | 'f' => some '\x0c'
  | 'n' => some '\n'
  | 'r' => some '\r'
  | 't' => some '\t'
  | _ => none

def isHighHalf (u : Nat) : Bool := 0xD800 ≤ u && u ≤ 0xDBFF

def isLowHalf (u : Nat) : Bool := 0xDC00 ≤ u && u ≤ 0xDFFF

/-- The second half that an escape at the start of a text writes. -/
def lowHalf? : List Char → Option Nat
  | '\\' :: 'u' :: a :: b :: c :: d :: _ => (Text.numeral? 16 [a, b, c, d]).filter isLowHalf
  | _ => none

def ofHalves (high low : Nat) : Char :=
  Char.ofNat (0x10000 + (high - 0xD800) * 0x400 + (low - 0xDC00))

/-- Read quoted text after its first quote.  `high` is a first half whose
    second half comes next, `read` holds the characters so far, last first,
    and `broken` tells of half a pair among them. -/
def quoted? (high : Option Nat) (read : List Char) (broken : Bool) :
    List Char → Option (Scalar × List Char)
  | '"' :: cs =>
    some (if broken then .brokenText else .text (String.ofList read.reverse), cs)
  | '\\' :: 'u' :: a :: b :: c :: d :: cs =>
    match Text.numeral? 16 [a, b, c, d] with
    | none => none
    | some u =>
      match high with
      | some h => quoted? none (ofHalves h u :: read) broken cs
      | none =>
        if isHighHalf u then
          if (lowHalf? cs).isSome then quoted? (some u) read broken cs
          else quoted? none read true cs
        else if isLowHalf u then quoted? none read true cs
        else quoted? none (Char.ofNat u :: read) broken cs
  | '\\' :: c :: cs =>
    match escaped? c with
    | none => none
    | some e => quoted? none (e :: read) broken cs
  | c :: cs => if c = '\\' ∨ c.toNat < 0x20 then none else quoted? none (c :: read) broken cs
  | [] => none

/-! ### Documents -/

/-- A quoted text as a node; broken text serves as no name. -/
def textNode : Scalar → Node
  | .text s => .text s
  | value => .leaf value none

mutual

/-- Read a value at the start of a text.  The fuel bounds the nesting and the
    number of parts; the length of the text is enough. -/
def value? : Nat → List Char → Option (Node × List Char)
  | 0, _ => none
  | fuel + 1, cs =>
    match cs with
    | '"' :: cs => (quoted? none [] false cs).map fun r => (textNode r.1, r.2)
    | '[' :: cs =>
      match skip cs with
      | ']' :: cs => some (.sequence [], cs)
      | cs => (items? fuel cs).map fun r => (.sequence r.1, r.2)
    | '\x7b' :: cs =>
      match skip cs with
      | '\x7d' :: cs => some (.mapping [], cs)
      | cs => (entries? fuel cs).map fun r => (.mapping r.1, r.2)
    | 'n' :: cs => (after? "ull".toList cs).map fun cs => (.null, cs)
    | 't' :: cs => (after? "rue".toList cs).map fun cs => (.bool true, cs)
    | 'f' :: cs => (after? "alse".toList cs).map fun cs => (.bool false, cs)
    | cs => (number? cs).map fun r => (.leaf r.1 none, r.2)

def items? : Nat → List Char → Option (List Node × List Char)
  | 0, _ => none
  | fuel + 1, cs => do
    let (item, cs) ← value? fuel cs
    match skip cs with
    | ',' :: cs =>
      let (items, cs) ← items? fuel (skip cs)
      return (item :: items, cs)
    | ']' :: cs => return ([item], cs)
    | _ => none

def entries? : Nat → List Char → Option (List (Node × Node) × List Char)
  | 0, _ => none
  | fuel + 1, cs =>
    match cs with
    | '"' :: cs => do
      let (key, cs) ← quoted? none [] false cs
      match skip cs with
      | ':' :: cs =>
        let (value, cs) ← value? fuel (skip cs)
        match skip cs with
        | ',' :: cs =>
          let (entries, cs) ← entries? fuel (skip cs)
          return ((textNode key, value) :: entries, cs)
        | '\x7d' :: cs => return ([(textNode key, value)], cs)
        | _ => none
      | _ => none
    | _ => none

end

def read? (text : String) : Option Node :=
  let cs := text.toList
  match value? (2 * cs.length + 1) (skip cs) with
  | some (node, cs) => if (skip cs).isEmpty then some node else none
  | none => none

end ShapeContracts.Json
