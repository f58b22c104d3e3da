/-
  ShapeContracts/Schema.lean
  ==========================
  **Schemas: a shape and details.**

  A schema asks something of each dimension and something of the whole array.
  An open shape asks nothing of the dimensions, not even their number.
-/
import ShapeContracts.Dim
import ShapeContracts.Detail

namespace ShapeContracts

structure Shape where
  /-- The descriptors, the leading one first. -/
  dims : List Dim
  /-- Whether axis names are compared. -/
  checkNames : Bool
  /-- Whether any number of axes will do. -/
  isOpen : Bool
deriving DecidableEq, Repr

namespace Shape

def scalar : Shape := ⟨[], false, false⟩

def anyRank : Shape := ⟨[], false, true⟩

def hasEllipsis (s : Shape) : Bool := s.dims.any Dim.isEllipsis

/-- The number of descriptors that stand for exactly one axis. -/
def explicitCount (s : Shape) : Nat := (s.dims.filter fun d => !d.isEllipsis).length

def text (s : Shape) : String :=
  if s.isOpen then "any" else "(" ++ ", ".intercalate (s.dims.map Dim.text) ++ ")"

end Shape

structure Schema where
  shape : Shape
  /-- The details, in the order they are checked. -/
  details : List Detail

def Schema.text (s : Schema) : String :=
  ", ".intercalate (s.shape.text :: s.details.map Detail.describe)

end ShapeContracts
