/-
  ShapeContracts/Document/Node.lean
  =================================
  **Documents as trees.**

  A document is a tree of scalars, sequences and mappings, whichever format
  it was written in.  A scalar is kept in two readings: the value it stands
  for, and the text it serves as where a name is expected.  The formats
  differ in the second: in one only quoted text serves as a name, in the
  other the characters of any scalar do.

  Nothing here uses numbers other than integers of 64 bits; all others are
  kept as `number`, a value that fits nowhere.
-/
import ShapeContracts.Size

namespace ShapeContracts

/-! ### Trees -/

inductive Scalar
  | null
  | bool (b : Bool)
  /-- An integer that a signed or an unsigned 64-bit word can hold. -/
  | integer (n : Int)
  /-- Zero written with a minus sign: zero as a value, but no position. -/
  | minusZero
  | number
  | text (s : String)
  /-- Quoted characters among which is half a surrogate pair: no text. -/
  | brokenText
deriving DecidableEq, Repr

inductive Node
  | leaf (value : Scalar) (written : Option String)
  | sequence (items : List Node)
  | mapping (entries : List (Node × Node))

/-- An integer as a scalar, if a 64-bit word can hold it. -/
def Scalar.ofInt (n : Int) : Scalar :=
  if -9223372036854775808 ≤ n ∧ n < 18446744073709551616 then .integer n else .number

namespace Node

/-! ### Making nodes -/

/-- Null, which serves as no name. -/
def null : Node := .leaf .null none

/-- Nothing written where a value could stand. -/
def blank : Node := .leaf .null (some "")

/-- A text, which serves as itself. -/
def text (s : String) : Node := .leaf (.text s) (some s)

def bool (b : Bool) : Node := .leaf (.bool b) none

def size (n : Size) : Node := .leaf (.integer n.toNat) none

def object (fields : List (String × Node)) : Node :=
  .mapping (fields.map fun f => (text f.1, f.2))

def textOrNull : Option String → Node
  | some s => text s
  | none => null

/-! ### Reading scalars by value -/

def isNull : Node → Bool
  | .leaf .null _ => true
  | _ => false

/-- Whether nothing is written where the node stands. -/
def isBlank : Node → Bool
  | .leaf .null (some s) => s == ""
  | _ => false

def bool? : Node → Option Bool
  | .leaf (.bool b) _ => some b
  | _ => none

def text? : Node → Option String
  | .leaf (.text s) _ => some s
  | _ => none

def integer? : Node → Option Int
  | .leaf (.integer n) _ => some n
  | .leaf .minusZero _ => some 0
  | _ => none

def size? (node : Node) : Option Size :=
  match node.integer? with
  | some (.ofNat n) => if n < Size.bound then some (UInt64.ofNat n) else none
  | _ => none

def signed? (node : Node) : Option Int64 :=
  match node.integer? with
  | some n =>
    if Int64.minValue.toInt ≤ n ∧ n ≤ Int64.maxValue.toInt then some (Int64.ofInt n) else none
  | none => none

/-- Null for nothing, anything else as the given reader has it. -/
def optional {α : Type} (read : Node → Option α) (node : Node) : Option (Option α) :=
  if node.isNull then some none else (read node).map some

/-- The items of a sequence, each as the given reader has it. -/
def itemsBy {α : Type} (read : Node → Option α) : Node → Option (List α)
  | .sequence items => items.mapM read
  | _ => none

/-- The text a node serves as where a name is expected. -/
def written? : Node → Option String
  | .leaf _ written => written
  | _ => none

end Node

end ShapeContracts
