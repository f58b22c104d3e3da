/-
  ShapeContracts/Manifest/Token.lean
  ==================================
  **Tokens in documents.**

  A token of a declaration is written as a keyword, an integer, or a record
  that says by its field names what it is.  Nothing else marks the kind of a
  token: the forms are tried in a fixed order and the first that fits is it.
  The order only matters for records that do not name a field: those written as
  sequences, and those of one field that is given by its position.

  A detail is written by the name it is registered under, so a written token
  becomes a token only together with a registry.
-/
import ShapeContracts.Description.Record
import ShapeContracts.Schema.Token
import ShapeContracts.Table

namespace ShapeContracts

/-! ### Written tokens -/

inductive Keyword
  | wildcard
  | ellipsis
  | anonymous
  | isFloat
  | isNamed
  | anyRank
  | scalar
deriving DecidableEq, Repr

namespace Keyword

def all : List Keyword :=
  [.wildcard, .ellipsis, .anonymous, .isFloat, .isNamed, .anyRank, .scalar]

def text : Keyword → String
  | .wildcard => "wildcard"
  | .ellipsis => "ellipsis"
  | .anonymous => "anonymous"
  | .isFloat => "is_float"
  | .isNamed => "is_named"
  | .anyRank => "open"
  | .scalar => "scalar"

def token : Keyword → Token
  | .wildcard => .wildcard
  | .ellipsis => .ellipsis
  | .anonymous => .anonymous none
  | .isFloat => .isFloat
  | .isNamed => .isNamed
  | .anyRank => .anyRank
  | .scalar => .scalar

end Keyword

inductive WrittenToken
  | keyword (k : Keyword)
  | integer (n : Int64)
  | name (name : String) (n : Option Size)
  | size (n : Int64)
  | anonymous (n : Size)
  | dtype (t : ElementType)
  | kind (k : ElementKind)
  | layout (l : Layout)
  | detail (name : String)
deriving DecidableEq, Repr

namespace WrittenToken

/-! ### One form at a time -/

def ofKeyword? (node : Node) : Option WrittenToken :=
  (node.word? Keyword.all Keyword.text).map .keyword

def ofInteger? (node : Node) : Option WrittenToken := node.signed?.map .integer

/-- A name, possibly with a size. -/
def ofName? (node : Node) : Option WrittenToken := do
  let fields ← node.fields? ["name", "size"]
  let name ← fields.required "name" Node.text?
  let n ← fields.withDefault "size" none (Node.optional Node.size?)
  return .name name n

/-- A record of the given single field. -/
def ofField? {α : Type} (field : String) (read : Node → Option α) (form : α → WrittenToken)
    (node : Node) : Option WrittenToken :=
  (node.fields? [field]).bind fun fields => (fields.required field read).map form

def ofSize? : Node → Option WrittenToken := ofField? "size" Node.signed? .size

def ofAnonymous? : Node → Option WrittenToken := ofField? "anonymous" Node.size? .anonymous

def ofDtype? : Node → Option WrittenToken := ofField? "dtype" ElementType.ofNode? .dtype

def ofKind? : Node → Option WrittenToken := ofField? "dtype_kind" ElementKind.ofNode? .kind

def ofLayout? : Node → Option WrittenToken := ofField? "layout" Layout.ofNode? .layout

def ofDetail? : Node → Option WrittenToken := ofField? "detail" Node.text? .detail

/-! ### Tokens -/

/-- The forms in the order they are tried. -/
def forms : List (Node → Option WrittenToken) :=
  [ofKeyword?, ofInteger?, ofName?, ofSize?, ofAnonymous?, ofDtype?, ofKind?, ofLayout?, ofDetail?]

/-- Read a token by the first form that fits. -/
def ofNode? (node : Node) : Option WrittenToken := forms.findSome? fun form => form node

end WrittenToken

/-! ### Details by name -/

abbrev Registry := Table Detail

/-- A detail was referred to by a name it is not registered under. -/
structure UnknownDetail where
  name : String
deriving DecidableEq, Repr

def WrittenToken.token (registry : Registry) : WrittenToken → Except UnknownDetail Token
  | .keyword k => .ok k.token
  | .integer n => .ok (.size n)
  | .name label none => .ok (.name label)
  | .name label (some n) => .ok (.sizedName label n)
  | .size n => .ok (.size n)
  | .anonymous n => .ok (.anonymous (some n))
  | .dtype t => .ok (.dtype t)
  | .kind k => .ok (.kind k)
  | .layout l => .ok (.layout l)
  | .detail label =>
    match registry.get? label with
    | some d => .ok (.detail d)
    | none => .error ⟨label⟩

end ShapeContracts
