/-
  ShapeContracts/Layout.lean
  ==========================
  **Memory layouts, and what an array library offers.**

  A library may know layouts or axis names or neither; its capabilities say
  which.  A layout has one written form.
-/

namespace ShapeContracts

/-! ### Layouts -/

inductive Layout
  | strided
  | sparseCoo
  | sparseCsr
deriving DecidableEq, Repr

namespace Layout

def all : List Layout := [.strided, .sparseCoo, .sparseCsr]

def text : Layout → String
  | .strided => "strided"
  | .sparseCoo => "sparse_coo"
  | .sparseCsr => "sparse_csr"

def ofText? (s : String) : Option Layout :=
  all.find? fun l => l.text == s

theorem mem_all (l : Layout) : l ∈ all := by cases l <;> decide

theorem text_injective {l m : Layout} (h : l.text = m.text) : l = m := by
  revert h; cases l <;> cases m <;> decide

end Layout

/-! ### Capabilities -/

/-- What the arrays of a library can carry besides shape and element type. -/
structure Capabilities where
  /-- Each axis may have a name. -/
  namedAxes : Bool
  /-- Arrays differ in memory layout. -/
  layouts : Bool
deriving DecidableEq, Repr

/-- Dense arrays without names: the least a library offers. -/
def Capabilities.plain : Capabilities := ⟨false, false⟩

def Capabilities.full : Capabilities := ⟨true, true⟩

end ShapeContracts
