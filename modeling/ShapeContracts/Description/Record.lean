/-
  ShapeContracts/Description/Record.lean
  ======================================
  **Descriptions, capabilities and words in documents.**

  What a document says about arrays: element types, classes and layouts are
  words; capabilities and array descriptions are records that overlook fields
  they do not know.  A description leaves out the names and the layout where
  arrays have none.
-/
import ShapeContracts.Description
import ShapeContracts.Document.Record

namespace ShapeContracts

/-! ### Words -/

def ElementType.ofNode? : Node → Option ElementType := Node.word? all text

/-- The class a node stands for.  The short forms do not count. -/
def ElementKind.ofNode? : Node → Option ElementKind := Node.word? all text

def Layout.ofNode? : Node → Option Layout := Node.word? all text

/-! ### Capabilities -/

namespace Capabilities

def fieldNames : List String := ["named_axes", "layouts"]

/-- Read capabilities.  What is not said is not offered. -/
def ofNode? (format : Format) (node : Node) : Option Capabilities := do
  let fields ← node.record? format false fieldNames
  let namedAxes ← fields.withDefault "named_axes" false Node.bool?
  let layouts ← fields.withDefault "layouts" false Node.bool?
  return ⟨namedAxes, layouts⟩

def node (c : Capabilities) : Node :=
  .object [("named_axes", .bool c.namedAxes), ("layouts", .bool c.layouts)]

end Capabilities

/-! ### Descriptions -/

namespace Description

def fieldNames : List String := ["shape", "dtype", "names", "layout"]

/-- Read a description.  The number of names is not compared with the number
    of axes. -/
def ofNode? (node : Node) : Option Description := do
  let fields ← node.record? .json false fieldNames
  let shape ← fields.required "shape" (Node.itemsBy Node.size?)
  let dtype ← fields.required "dtype" ElementType.ofNode?
  let names ← fields.withDefault "names" none
    (Node.optional (Node.itemsBy (Node.optional Node.text?)))
  let layout ← fields.withDefault "layout" none (Node.optional Layout.ofNode?)
  return ⟨shape, dtype, names, layout⟩

def node (d : Description) : Node :=
  .object <|
    [("shape", .sequence (d.shape.map .size)), ("dtype", .text d.dtype.text)] ++
      (d.names.map fun names => ("names", Node.sequence (names.map .textOrNull))).toList ++
      (d.layout.map fun layout => ("layout", Node.text layout.text)).toList

end Description

/-- Bindings as a document, in the order of the labels. -/
def bindingsNode (entries : List (String × Size)) : Node :=
  .object (entries.map fun e => (e.1, .size e.2))

end ShapeContracts
