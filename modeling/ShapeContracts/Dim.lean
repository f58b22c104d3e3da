/-
  ShapeContracts/Dim.lean
  =======================
  **Descriptors of dimensions.**

  A shape is described by a list of descriptors, one for each axis, except
  that an ellipsis stands for any number of leading axes.
-/
import ShapeContracts.Size

namespace ShapeContracts

/-- The word that stands for no name. -/
def anonymousWord : String := "_"

/-- The name of a named dimension: a label, or none worth remembering. -/
inductive DimName
  | anonymous
  | label (name : String)
deriving DecidableEq, Repr

def DimName.text : DimName → String
  | .anonymous => anonymousWord
  | .label name => name

inductive Dim
  | fixed (n : Size)
  /-- A name, possibly with the size it has to have. -/
  | named (name : DimName) (size : Option Size)
  | wildcard
  | ellipsis
deriving DecidableEq, Repr

namespace Dim

/-- A dimension known by its label alone. -/
def labelled (name : String) : Dim := .named (.label name) none

def isEllipsis : Dim → Bool
  | .ellipsis => true
  | _ => false

def text : Dim → String
  | .fixed n => n.text
  | .named name none => name.text
  | .named name (some n) => name.text ++ ": " ++ n.text
  | .wildcard => "-1"
  | .ellipsis => "..."

/-- What the axis must be named where names are compared: a label asks for
    itself, an anonymous name asks for no name, the rest ask nothing. -/
def expectedName? : Dim → Option (Option String)
  | .named (.label name) _ => some (some name)
  | .named .anonymous _ => some none
  | _ => none

end Dim

end ShapeContracts
