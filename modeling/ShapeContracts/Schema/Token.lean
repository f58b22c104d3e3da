/-
  ShapeContracts/Schema/Token.lean
  ================================
  **Declaring a schema.**

  A schema is declared by a list of tokens, read from left to right into a
  draft.  A token is refused where it cannot follow what the draft holds; the
  markers for any rank and for rank zero are weighed against the dimensions
  only at the end.

  Dimensions and details may be mixed in any order.  A declaration that
  consists of details alone is open.
-/
import ShapeContracts.Schema

namespace ShapeContracts

/-! ### Tokens -/

inductive Token
  /-- A size, or any size when it is -1. -/
  | size (n : Int64)
  | wildcard
  | ellipsis
  | name (name : String)
  | sizedName (name : String) (n : Size)
  | anonymous (n : Option Size)
  | dtype (t : ElementType)
  | kind (k : ElementKind)
  | layout (l : Layout)
  | isFloat
  | isNamed
  | detail (d : Detail)
  | anyRank
  | scalar

/-! ### What can be wrong with a declaration -/

inductive DeclarationError
  | duplicateEllipsis
  | ellipsisNotLeading (position : Nat)
  | conflictingDetail (key existing requested : String)
  | namesUnsupported
  | layoutUnsupported (layout : Layout)
  | invalidSize (n : Int64)
  | emptyName
  | openWithDimensions
  | scalarWithDimensions
deriving DecidableEq, Repr

def signedText : Int → String
  | .ofNat n => n.repr
  | .negSucc n => "-" ++ (n + 1).repr

def DeclarationError.message : DeclarationError → String
  | .duplicateEllipsis => "a shape may contain at most one ellipsis (...)"
  | .ellipsisNotLeading position =>
    "the ellipsis (...) must be the leading dimension, found at position " ++ position.repr
  | .conflictingDetail key existing requested =>
    "conflicting " ++ key ++ " constraints: " ++ existing ++ " and " ++ requested
  | .namesUnsupported => "the target array library has no axis names, so they cannot be checked"
  | .layoutUnsupported layout =>
    "the target array library has no memory layouts, cannot require " ++ layout.text
  | .invalidSize n =>
    "invalid dimension size " ++ signedText n.toInt ++
      ": expected a size >= 0 or -1 for any size"
  | .emptyName => "dimension names must not be empty"
  | .openWithDimensions => "an open (any rank) schema cannot also list dimensions"
  | .scalarWithDimensions => "a scalar schema cannot also list dimensions or be open"

/-! ### Single dimensions -/

def Dim.ofSigned (n : Int64) : Except DeclarationError Dim :=
  if n = -1 then .ok .wildcard
  else if 0 ≤ n then .ok (.fixed n.toUInt64)
  else .error (.invalidSize n)

/-- The descriptor a name stands for.  An underscore names nothing. -/
def Dim.ofName (name : String) (n : Option Size) : Except DeclarationError Dim :=
  if name = "" then .error .emptyName
  else if name = anonymousWord then .ok (.named .anonymous n)
  else .ok (.named (.label name) n)

/-- A detail that asks for a layout, in a library that has layouts. -/
def Detail.layoutFor (caps : Capabilities) (l : Layout) : Except DeclarationError Detail :=
  if caps.layouts then .ok (.layout l) else .error (.layoutUnsupported l)

/-! ### Drafts -/

structure Draft where
  dims : List Dim
  details : List Detail
  checkNames : Bool
  isOpen : Bool
  isScalar : Bool

namespace Draft

def empty : Draft := ⟨[], [], false, false, false⟩

def addDim (draft : Draft) (d : Dim) : Draft := { draft with dims := draft.dims ++ [d] }

/-- Append the ellipsis, which must come before all other dimensions. -/
def addEllipsis (draft : Draft) : Except DeclarationError Draft :=
  if draft.dims.any Dim.isEllipsis then .error .duplicateEllipsis
  else if draft.dims ≠ [] then .error (.ellipsisNotLeading draft.dims.length)
  else .ok (draft.addDim .ellipsis)

def holder? (draft : Draft) (key : String) : Option Detail :=
  draft.details.find? fun d => d.key == some key

/-- Append a detail that nothing stands against. -/
def append (draft : Draft) (d : Detail) : Draft :=
  { draft with details := draft.details ++ [d] }

/-- Append a detail.  When its key is already held, a detail of the same text
    is a repetition and a detail of another text is refused. -/
def keepDetail (draft : Draft) (d : Detail) : Except DeclarationError Draft :=
  match d.key with
  | none => .ok (draft.append d)
  | some key =>
    match draft.holder? key with
    | none => .ok (draft.append d)
    | some held =>
      if held.describe = d.describe then .ok draft
      else .error (.conflictingDetail key held.describe d.describe)

/-- Append a detail and, where it asks for it, compare axis names from now on.
    That needs a library with axis names. -/
def addDetail (caps : Capabilities) (draft : Draft) (d : Detail) :
    Except DeclarationError Draft :=
  if d.checksNames && !caps.namedAxes then .error .namesUnsupported
  else (draft.keepDetail d).map fun draft =>
    { draft with checkNames := draft.checkNames || d.checksNames }

def add (caps : Capabilities) (draft : Draft) : Token → Except DeclarationError Draft
  | .size n => (Dim.ofSigned n).map draft.addDim
  | .wildcard => .ok (draft.addDim .wildcard)
  | .ellipsis => draft.addEllipsis
  | .name name => (Dim.ofName name none).map draft.addDim
  | .sizedName name n => (Dim.ofName name (some n)).map draft.addDim
  | .anonymous n => .ok (draft.addDim (.named .anonymous n))
  | .dtype t => draft.keepDetail (.dtype (.exact t))
  | .kind k => draft.keepDetail (.dtype (.kind k))
  | .layout l => (Detail.layoutFor caps l).bind draft.keepDetail
  | .isFloat => draft.keepDetail .float
  | .isNamed => draft.addDetail caps .named
  | .detail d => draft.addDetail caps d
  | .anyRank => .ok { draft with isOpen := true }
  | .scalar => .ok { draft with isScalar := true }

/-- Weigh the markers against the dimensions. -/
def finish (draft : Draft) : Except DeclarationError Schema :=
  if draft.isScalar ∧ (draft.isOpen ∨ draft.dims ≠ []) then .error .scalarWithDimensions
  else if draft.isOpen ∧ draft.dims ≠ [] then .error .openWithDimensions
  else
    let onlyDetails := draft.dims.isEmpty && !draft.isScalar && !draft.details.isEmpty
    .ok ⟨⟨draft.dims, draft.checkNames, draft.isOpen || onlyDetails⟩, draft.details⟩

end Draft

/-- The schema that tokens declare for a library with the given capabilities. -/
def Schema.declare (caps : Capabilities) (tokens : List Token) : Except DeclarationError Schema :=
  (tokens.foldlM (Draft.add caps) .empty).bind Draft.finish

end ShapeContracts
