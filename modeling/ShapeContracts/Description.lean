/-
  ShapeContracts/Description.lean
  ===============================
  **Array descriptions.**

  A description gives the shape and the element type of an array and,
  optionally, the names of its axes and its layout.  It is the one sort of
  array this library makes itself; checks see it through `Description.view`.

  Names that come through `withNames` are one per axis.  A description taken
  from a document may carry fewer names than axes (the axes left over are
  unnamed) or more (the names left over are never seen).
-/
import ShapeContracts.ArrayView

namespace ShapeContracts

/-- An array given by its shape, element type, names and layout. -/
structure Description where
  shape : List Size
  dtype : ElementType
  /-- The names of the axes, or `none` where arrays of this sort have none. -/
  names : Option (List (Option String))
  layout : Option Layout
deriving DecidableEq, Repr

/-- The number of names given differs from the number of axes. -/
structure NameCountError where
  names : Nat
  rank : Nat
deriving DecidableEq, Repr

def NameCountError.message (e : NameCountError) : String :=
  "axis name count " ++ e.names.repr ++ " does not match rank " ++ e.rank.repr

namespace Description

def plain (shape : List Size) (dtype : ElementType) : Description :=
  ⟨shape, dtype, none, none⟩

def scalar (dtype : ElementType) : Description := plain [] dtype

/-- Name the axes, one name for each. -/
def withNames (d : Description) (names : List (Option String)) :
    Except NameCountError Description :=
  if names.length = d.shape.length then .ok { d with names := some names }
  else .error ⟨names.length, d.shape.length⟩

/-- Say that axes may have names but none has one. -/
def withUnnamedAxes (d : Description) : Description :=
  { d with names := some (d.shape.map fun _ => none) }

def withLayout (d : Description) (layout : Layout) : Description :=
  { d with layout := some layout }

/-- Pair sizes with names; a size without a name left over is unnamed. -/
def axes : List Size → List (Option String) → List Axis
  | [], _ => []
  | n :: ns, [] => ⟨n, none⟩ :: axes ns []
  | n :: ns, name :: names => ⟨n, name⟩ :: axes ns names

def view (d : Description) : ArrayView where
  axes := axes d.shape (d.names.getD [])
  dtype := d.dtype
  namedAxes := d.names.isSome
  layout := d.layout

end Description

end ShapeContracts
