/-
  ShapeContracts/ElementType.lean
  ===============================
  **Element types and their classes.**

  An array holds elements of one type.  The types fall into five classes, and
  a constraint may ask for a type or only for its class.  Every type and every
  class has one written form; two classes may also be written in short.
-/

namespace ShapeContracts

/-! ### Classes -/

inductive ElementKind
  | bool
  | unsigned
  | signed
  | float
  | complex
deriving DecidableEq, Repr

namespace ElementKind

def all : List ElementKind := [.bool, .unsigned, .signed, .float, .complex]

def text : ElementKind → String
  | .bool => "bool"
  | .unsigned => "unsigned"
  | .signed => "signed"
  | .float => "float"
  | .complex => "complex"

def ofText? (s : String) : Option ElementKind :=
  all.find? fun k => k.text == s

/-- The class a word stands for: a written form, or one of the short forms
    `int` and `uint`. -/
def ofWord? (s : String) : Option ElementKind :=
  if s = "int" then some .signed
  else if s = "uint" then some .unsigned
  else ofText? s

end ElementKind

/-! ### Types -/

inductive ElementType
  | bool
  | u8
  | u16
  | u32
  | u64
  | i8
  | i16
  | i32
  | i64
  | f16
  | bf16
  | f32
  | f64
  | c64
  | c128
deriving DecidableEq, Repr

namespace ElementType

/-- All element types, class by class and by width. -/
def all : List ElementType :=
  [.bool, .u8, .u16, .u32, .u64, .i8, .i16, .i32, .i64,
   .f16, .bf16, .f32, .f64, .c64, .c128]

def text : ElementType → String
  | .bool => "bool"
  | .u8 => "u8"
  | .u16 => "u16"
  | .u32 => "u32"
  | .u64 => "u64"
  | .i8 => "i8"
  | .i16 => "i16"
  | .i32 => "i32"
  | .i64 => "i64"
  | .f16 => "f16"
  | .bf16 => "bf16"
  | .f32 => "f32"
  | .f64 => "f64"
  | .c64 => "c64"
  | .c128 => "c128"

def ofText? (s : String) : Option ElementType :=
  all.find? fun t => t.text == s

def kind : ElementType → ElementKind
  | .bool => .bool
  | .u8 | .u16 | .u32 | .u64 => .unsigned
  | .i8 | .i16 | .i32 | .i64 => .signed
  | .f16 | .bf16 | .f32 | .f64 => .float
  | .c64 | .c128 => .complex

/-- Whether a type is a floating-point type.  Complex types are not. -/
def isFloat (t : ElementType) : Bool := t.kind == .float

theorem mem_all (t : ElementType) : t ∈ all := by cases t <;> decide

theorem text_injective {s t : ElementType} (h : s.text = t.text) : s = t := by
  revert h; cases s <;> cases t <;> decide

end ElementType

def ElementKind.contains (k : ElementKind) (t : ElementType) : Bool := t.kind == k

theorem ElementKind.text_injective {j k : ElementKind} (h : j.text = k.text) : j = k := by
  revert h; cases j <;> cases k <;> decide

end ShapeContracts
