/-
  ShapeContracts/Mismatch.lean
  ============================
  **Matching an array against a schema.**

  The checks run in a fixed order and the first that fails is the reason:

  1. the number of axes;
  2. whether arrays of this sort have the axis names to be compared;
  3. axis by axis from the last to the first, the size and then the name;
  4. the details.

  Aligning from the last axis lets a leading ellipsis take up whatever is
  left.  An open shape goes straight to the details.
-/
import ShapeContracts.Bindings
import ShapeContracts.Schema

namespace ShapeContracts

/-! ### Reasons -/

/-- What a schema asks of the number of axes. -/
inductive RankRule
  | exactly (n : Nat)
  | atLeast (n : Nat)
deriving DecidableEq, Repr

def RankRule.text : RankRule → String
  | .exactly n => "exactly " ++ n.repr
  | .atLeast n => "at least " ++ n.repr

def RankRule.allows : RankRule → Nat → Bool
  | .exactly n, rank => n == rank
  | .atLeast n, rank => decide (n ≤ rank)

inductive Reason
  | rank (expected : RankRule) (actual : Nat)
  | fixedSize (axis : Nat) (expected actual : Size)
  | nameConflict (name : String) (axis : Nat) (bound actual : Size)
  | axisName (axis : Nat) (expected actual : Option String)
  | namesUnsupported
  | detail (expected actual : String)
deriving DecidableEq, Repr

def axisNameText : Option String → String
  | some name => "'" ++ name ++ "'"
  | none => "nothing"

def Reason.message : Reason → String
  | .rank expected actual => "rank " ++ actual.repr ++ ", expected " ++ expected.text
  | .fixedSize axis expected actual =>
    "dimension " ++ axis.repr ++ " has size " ++ actual.text ++ ", expected " ++ expected.text
  | .nameConflict name axis bound actual =>
    "dimension " ++ axis.repr ++ " '" ++ name ++ "' has size " ++ actual.text ++
      ", but '" ++ name ++ "' is " ++ bound.text
  | .axisName axis expected actual =>
    "axis " ++ axis.repr ++ " is named " ++ axisNameText actual ++
      ", expected " ++ axisNameText expected
  | .namesUnsupported => "the schema checks axis names, but this kind of array has none"
  | .detail expected actual => "expected " ++ expected ++ ", found " ++ actual

/-- An array that does not match a schema, with both as texts. -/
structure Mismatch where
  schema : String
  array : String
  reason : Reason
deriving DecidableEq, Repr

def Mismatch.message (m : Mismatch) : String :=
  m.array ++ " does not match " ++ m.schema ++ ": " ++ m.reason.message

/-! ### Axes -/

/-- Compare the size of an axis with its descriptor, and bind its label. -/
def Dim.checkSize (axis : Nat) (n : Size) (s : Staged) : Dim → Except Reason Staged
  | .fixed m => if n = m then .ok s else .error (.fixedSize axis m n)
  | .named name declared =>
    match declared.filter (· ≠ n) with
    | some m => .error (.nameConflict name.text axis m n)
    | none =>
      match name with
      | .anonymous => .ok s
      | .label label =>
        (s.bind label n).mapError fun c => .nameConflict c.name axis c.bound c.actual
  | .wildcard => .ok s
  | .ellipsis => .ok s

/-- Compare the name of an axis with the one its descriptor asks for. -/
def Dim.checkName (axis : Nat) (name : Option String) (d : Dim) : Except Reason Unit :=
  match d.expectedName? with
  | some expected => if name = expected then .ok () else .error (.axisName axis expected name)
  | none => .ok ()

/-- Check one axis against its descriptor: the size, then the name. -/
def Dim.checkAxis (checkNames : Bool) (axis : Nat) (a : Axis) (s : Staged) (d : Dim) :
    Except Reason Staged :=
  (d.checkSize axis a.size s).bind fun s =>
    if checkNames then (d.checkName axis a.name).map fun _ => s else .ok s

/-- Check axes against descriptors, both given from the last to the first.
    The axes are numbered down from `axes.length`; the ellipsis ends the walk. -/
def checkAxes (checkNames : Bool) : List Dim → List Axis → Staged → Except Reason Staged
  | [], _, s => .ok s
  | .ellipsis :: _, _, s => .ok s
  | _ :: _, [], s => .ok s
  | d :: dims, a :: axes, s =>
    (d.checkAxis checkNames axes.length a s).bind (checkAxes checkNames dims axes)

/-! ### Schemas -/

def Shape.rankRule (s : Shape) : RankRule :=
  if s.hasEllipsis then .atLeast s.explicitCount else .exactly s.explicitCount

def Shape.check (shape : Shape) (v : ArrayView) (s : Staged) : Except Reason Staged :=
  if shape.isOpen then .ok s
  else if !shape.rankRule.allows v.rank then .error (.rank shape.rankRule v.rank)
  else if shape.checkNames && !v.namedAxes then .error .namesUnsupported
  else checkAxes shape.checkNames shape.dims.reverse v.axes.reverse s

def checkDetails (details : List Detail) (v : ArrayView) : Except Reason Unit :=
  match details.find? fun d => !d.accepts v with
  | some d => .error (.detail d.describe (d.found v))
  | none => .ok ()

namespace Schema

/-- Check an array, collecting its bindings aside. -/
def check (schema : Schema) (v : ArrayView) (s : Staged) : Except Reason Staged :=
  (schema.shape.check v s).bind fun s => (checkDetails schema.details v).map fun _ => s

/-- Match an array against a schema.  On success the labels of the schema are
    bound; on failure nothing is. -/
def matchArray (schema : Schema) (b : Bindings) (v : ArrayView) : Except Mismatch Bindings :=
  match schema.check v b.stage with
  | .ok s => .ok (b.commit s.fresh)
  | .error reason => .error ⟨schema.text, v.text, reason⟩

end Schema

end ShapeContracts
