/-
  ShapeContracts/Description/Reader.lean
  ======================================
  **The text form of an array description.**

      2x3:f32                 two axes
      scalar:i64              no axis, also written ():i64
      4x5:f32@strided         with a layout
      4x5:f32#batch,_         with axis names, `_` for an unnamed axis
      4x5:f32#a,b@strided     suffixes in either order

  A text is a head followed by suffixes, each opened by its marker.  The
  faults of a text are looked for in a fixed order: a marker given twice, the
  layout, the colon, the element type, the sizes from left to right, and last
  the number of names.
-/
import ShapeContracts.Text.Blank
import ShapeContracts.Text.Pieces
import ShapeContracts.Description

namespace ShapeContracts

/-! ### What can be wrong with a word or a description -/

inductive DescriptionFlaw
  | repeatedMarker (marker : Char)
  | noColon
  | badSize (cause : SizeError)
deriving DecidableEq, Repr

def DescriptionFlaw.message : DescriptionFlaw → String
  | .repeatedMarker marker => "'" ++ marker.toString ++ "' given more than once"
  | .noColon => "expected '<shape>:<dtype>'"
  | .badSize cause => "bad dimension size: " ++ cause.message

inductive ReadError
  | unknownElementType (word : String)
  | unknownElementKind (word : String)
  | unknownLayout (word : String)
  | invalidDescription (input : String) (flaw : DescriptionFlaw)
  | nameCount (cause : NameCountError)
deriving DecidableEq, Repr

def ReadError.message : ReadError → String
  | .unknownElementType word => "unknown element type '" ++ word ++ "'"
  | .unknownElementKind word => "unknown element type class '" ++ word ++ "'"
  | .unknownLayout word => "unknown memory layout '" ++ word ++ "'"
  | .invalidDescription input flaw =>
    "invalid array description '" ++ input ++ "': " ++ flaw.message
  | .nameCount cause => cause.message

def ElementType.read (word : String) : Except ReadError ElementType :=
  match ElementType.ofText? word with
  | some t => .ok t
  | none => .error (.unknownElementType word)

/-- Read the written or short form of a class of element types. -/
def ElementKind.read (word : String) : Except ReadError ElementKind :=
  match ElementKind.ofWord? word with
  | some k => .ok k
  | none => .error (.unknownElementKind word)

def Layout.read (word : String) : Except ReadError Layout :=
  match Layout.ofText? word with
  | some l => .ok l
  | none => .error (.unknownLayout word)

namespace Description

/-! ### Head and suffixes -/

def layoutMarker : Char := '@'

def nameMarker : Char := '#'

def isMarker (c : Char) : Bool := c == layoutMarker || c == nameMarker

/-- Cut a text into the head before the first marker and the suffixes, each
    a marker with the text up to the next one. -/
def segments : List Char → List Char × List (Char × List Char)
  | [] => ([], [])
  | c :: cs =>
    let (body, suffixes) := segments cs
    if isMarker c then ([], (c, body) :: suffixes) else (c :: body, suffixes)

/-- The first marker that was already given. -/
def repeatedMarker? (seen : List Char) : List (Char × List Char) → Option Char
  | [] => none
  | (marker, _) :: rest =>
    if seen.contains marker then some marker
    else repeatedMarker? (marker :: seen) rest

/-! ### The parts -/

/-- Sizes between `x`. -/
def readSizes (cs : List Char) : Except SizeError (List Size) :=
  (Text.pieces 'x' cs).mapM fun piece => Size.read (Text.trim piece)

/-- Read a shape: `scalar` or `()` for no axis, else sizes. -/
def readShape (cs : List Char) : Except SizeError (List Size) :=
  let cs := Text.trim cs
  if cs = "scalar".toList ∨ cs = "()".toList then .ok [] else readSizes cs

/-- One name in a list of names: a lone underscore stands for none. -/
def readName (cs : List Char) : Option String :=
  let cs := Text.trim cs
  if cs = ['_'] then none else some (String.ofList cs)

/-- A list of names between commas.  No text at all is a list of none. -/
def readNames (cs : List Char) : List (Option String) :=
  if cs = [] then [] else (Text.pieces ',' cs).map readName

/-- Read the layout suffix, if it is given.  Its text is not trimmed. -/
def readLayout? : Option (List Char) → Except ReadError (Option Layout)
  | none => .ok none
  | some cs => (Layout.read (String.ofList cs)).map some

def addNames (d : Description) : Option (List Char) → Except ReadError Description
  | none => .ok d
  | some cs => (d.withNames (readNames cs)).mapError .nameCount

/-! ### Descriptions -/

/-- Read a description from the texts it was cut into.  The whole of it is given
    as well, to be shown where something is wrong. -/
def readParts (input : String) (head : List Char) (layoutText namesText : Option (List Char)) :
    Except ReadError Description := do
  let layout ← readLayout? layoutText
  let some (shapeText, dtypeText) := Text.cut? ':' head
    | throw (.invalidDescription input .noColon)
  let dtype ← ElementType.read (String.ofList (Text.trim dtypeText))
  let shape ← (readShape shapeText).mapError fun e =>
    .invalidDescription input (.badSize e)
  addNames { plain shape dtype with layout } namesText

def read (input : String) : Except ReadError Description :=
  let cut := segments input.toList
  match repeatedMarker? [] cut.2 with
  | some marker => .error (.invalidDescription input (.repeatedMarker marker))
  | none => readParts input cut.1 (cut.2.lookup layoutMarker) (cut.2.lookup nameMarker)

end Description

end ShapeContracts
