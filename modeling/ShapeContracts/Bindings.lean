/-
  ShapeContracts/Bindings.lean
  ============================
  **Sizes bound to labels.**

  Within one call a label stands for one size.  The first size met binds it;
  every later one must be the same.

  Matching one array collects its bindings aside, as `Staged` ones, and they
  are committed only when the whole array matches.  A staged binding sees the
  committed ones first and the earlier staged ones next.
-/
import ShapeContracts.Size
import ShapeContracts.Table

namespace ShapeContracts

/-! ### Direct binding -/

abbrev Bindings := Table Size

/-- A label is bound to one size and was met with another. -/
structure Conflict where
  name : String
  bound : Size
  actual : Size
deriving DecidableEq, Repr

def Conflict.message (c : Conflict) : String :=
  "'" ++ c.name ++ "' is bound to " ++ c.bound.text ++ ", cannot rebind to " ++ c.actual.text

/-- Bind a label to a size, or compare with the size it is bound to. -/
def Bindings.bind (b : Bindings) (name : String) (n : Size) : Except Conflict Bindings :=
  match b.get? name with
  | some bound => if bound = n then .ok b else .error ⟨name, bound, n⟩
  | none => .ok (b.put name n)

/-! ### Staged binding -/

/-- Bindings together with those met since, in the order they were met. -/
structure Staged where
  base : Bindings
  fresh : List (String × Size)

def Bindings.stage (b : Bindings) : Staged := ⟨b, []⟩

namespace Staged

/-- The size a label stands for: the committed one, else the first staged. -/
def get? (s : Staged) (name : String) : Option Size :=
  (s.base.get? name).or (s.fresh.lookup name)

/-- Bind a label aside, or compare with the size it stands for. -/
def bind (s : Staged) (name : String) (n : Size) : Except Conflict Staged :=
  match s.get? name with
  | some bound => if bound = n then .ok s else .error ⟨name, bound, n⟩
  | none => .ok { s with fresh := s.fresh ++ [(name, n)] }

end Staged

/-- Add bindings in order; a label that is bound keeps its size. -/
def Bindings.commit (b : Bindings) (fresh : List (String × Size)) : Bindings :=
  fresh.foldl (fun b e => if (b.get? e.1).isSome then b else b.put e.1 e.2) b

end ShapeContracts
