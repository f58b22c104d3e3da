/-
  ShapeContracts/Detail.lean
  ==========================
  **Constraints on whole arrays.**

  A detail is a predicate on arrays together with its texts.  Four are built
  in; any other can be made by giving its parts.  A detail with a key may
  stand only once in a schema, and the key `named` also turns on the
  comparison of axis names.
-/
import ShapeContracts.ArrayView

namespace ShapeContracts

structure Detail where
  describe : String
  /-- The key shared by details of which a schema holds only one. -/
  key : Option String
  accepts : ArrayView → Bool
  /-- The text of what the constraint looks at in an array. -/
  found : ArrayView → String

inductive DtypeRule
  | exact (t : ElementType)
  | kind (k : ElementKind)
deriving DecidableEq, Repr

namespace DtypeRule

def accepts : DtypeRule → ElementType → Bool
  | .exact t, s => t == s
  | .kind k, s => k.contains s

def text : DtypeRule → String
  | .exact t => t.text
  | .kind k => k.text

end DtypeRule

namespace Detail

/-! ### Keys -/

def dtypeKey : String := "dtype"

def namedKey : String := "named"

def layoutKey : String := "layout"

/-- Whether a detail turns on the comparison of axis names. -/
def checksNames (d : Detail) : Bool := d.key == some namedKey

/-! ### Built-in details -/

def dtype (rule : DtypeRule) : Detail where
  describe := rule.text
  key := some dtypeKey
  accepts v := rule.accepts v.dtype
  found v := v.dtype.text

def float : Detail where
  describe := "is_float"
  key := none
  accepts v := v.dtype.isFloat
  found v := v.dtype.text ++ " (" ++ v.dtype.kind.text ++ ")"

/-- Arrays of this sort have axis names. -/
def named : Detail where
  describe := "is_named"
  key := some namedKey
  accepts v := v.namedAxes
  found v :=
    if v.namedAxes then
      "names=(" ++ ", ".intercalate (v.axes.map fun a => a.name.getD "_") ++ ")"
    else "no axis names"

def layout (l : Layout) : Detail where
  describe := l.text
  key := some layoutKey
  accepts v := v.layout == some l
  found v :=
    match v.layout with
    | some l => l.text
    | none => "no layout"

end Detail

end ShapeContracts
