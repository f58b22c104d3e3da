/-
  ShapeContracts/ArrayView.lean
  =============================
  **What a constraint can see of an array.**

  A check never looks at elements: it sees the axes with their sizes and
  names, the element type, whether arrays of this sort have axis names at all,
  and the memory layout where there is one.

  Two absences differ.  An array whose sort has no axis names is not an array
  whose axes happen to be unnamed, and a check that needs names must refuse
  the former.
-/
import ShapeContracts.Size
import ShapeContracts.ElementType
import ShapeContracts.Layout

namespace ShapeContracts

/-- One axis: its size, and its name if it has one. -/
structure Axis where
  size : Size
  name : Option String
deriving DecidableEq, Repr

structure ArrayView where
  /-- The axes, the leading one first. -/
  axes : List Axis
  dtype : ElementType
  /-- Whether arrays of this sort have axis names at all. -/
  namedAxes : Bool
  /-- The layout, where arrays of this sort have one. -/
  layout : Option Layout
deriving DecidableEq, Repr

/-- The text of an axis: its size, after its name if it has one. -/
def Axis.text (a : Axis) : String :=
  match a.name with
  | some name => name ++ ": " ++ a.size.text
  | none => a.size.text

namespace ArrayView

def rank (v : ArrayView) : Nat := v.axes.length

/-- The capabilities an array shows. -/
def capabilities (v : ArrayView) : Capabilities := ⟨v.namedAxes, v.layout.isSome⟩

/-- The same array in a library without names and layouts. -/
def bare (v : ArrayView) : ArrayView where
  axes := v.axes.map fun a => { a with name := none }
  dtype := v.dtype
  namedAxes := false
  layout := none

def text (v : ArrayView) : String :=
  "shape=(" ++ ", ".intercalate (v.axes.map Axis.text) ++ ") dtype=" ++ v.dtype.text ++
    match v.layout with
    | some layout => " layout=" ++ layout.text
    | none => ""

end ArrayView

end ShapeContracts
