/-
  ShapeContracts/Document/Record.lean
  ===================================
  **Records in documents.**

  A record has named fields in a declared order.  It is written as a mapping
  from field names, or as the sequence of its fields in the declared order,
  of which trailing ones may be left out.

  A mapping names no field twice.  A strict record has no other names; any
  other record overlooks them.  A field may also be named by its position, as
  an integer without a minus sign, but only where names are read by value.

  A word from a fixed list is written as itself, or as a mapping from it to
  null.
-/
import ShapeContracts.Document.Node

namespace ShapeContracts

/-- The fields found in a record, by name. -/
abbrev Fields := List (String × Node)

namespace Fields

/-- The fields among named entries, when none is named twice. -/
def ofEntries (strict : Bool) (names : List String) (entries : Fields) : Option Fields :=
  let known := entries.filter fun e => names.contains e.1
  if strict && known.length != entries.length then none
  else if (known.map Prod.fst).Nodup then some known
  else none

/-- The fields given as a sequence in the declared order. -/
def ofItems (names : List String) (items : List Node) : Option Fields :=
  if items.length ≤ names.length then some (names.zip items) else none

def required {α : Type} (fields : Fields) (name : String) (read : Node → Option α) : Option α :=
  (fields.lookup name).bind read

/-- A field with a value for when it is left out. -/
def withDefault {α : Type} (fields : Fields) (name : String) (default : α)
    (read : Node → Option α) : Option α :=
  match fields.lookup name with
  | some node => read node
  | none => some default

end Fields

namespace Node

/-! ### Reading by value -/

/-- The name that a key stands for: a text for itself, an integer for the
    name at that position. -/
def nameAmong? (names : List String) : Node → Option String
  | .leaf (.text s) _ => some s
  | .leaf (.integer n) _ => if 0 ≤ n then names[n.toNat]? else none
  | _ => none

/-- The fields of a strict record read by value. -/
def fields? (names : List String) : Node → Option Fields
  | .leaf .. => none
  | .sequence items => Fields.ofItems names items
  | .mapping entries => do
    Fields.ofEntries true names (← entries.mapM fun e => (e.1.nameAmong? names).map (·, e.2))

/-- The member of a list of words that a node stands for. -/
def word? {α : Type} (all : List α) (textOf : α → String) (node : Node) : Option α :=
  let name? : Option String :=
    match node with
    | .mapping [(key, value)] =>
      if value.isNull then key.nameAmong? (all.map textOf) else none
    | _ => node.text?
  name?.bind fun name => all.find? fun a => textOf a == name

end Node

/-! ### Reading by what is written -/

inductive Format
  | json
  | yaml
deriving DecidableEq, Repr

namespace Node

/-- The entries of a mapping under the names their keys serve as.  Nothing
    written is a mapping without entries. -/
def entries? (node : Node) : Option Fields :=
  match node with
  | .mapping entries => entries.mapM fun e => e.1.written?.map (·, e.2)
  | _ => if node.isBlank then some [] else none

/-- The items of a sequence.  Nothing written is a sequence without items. -/
def items? (node : Node) : Option (List Node) :=
  match node with
  | .sequence items => some items
  | _ => if node.isBlank then some [] else none

/-- The fields of a record.  Only JSON has the form of a sequence. -/
def record? (format : Format) (strict : Bool) (names : List String) (node : Node) :
    Option Fields :=
  match format, node with
  | .json, .sequence items => Fields.ofItems names items
  | _, _ => node.entries?.bind (Fields.ofEntries strict names)

end Node

end ShapeContracts
