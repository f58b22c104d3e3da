/-
  ShapeContracts/Signature.lean
  =============================
  **Calls checked against a signature.**

  A signature gives each constrained parameter of a function a schema, and
  possibly one to the result.  All arrays of one call share their bindings: a
  label stands for one size across arguments and result.
-/
import ShapeContracts.Mismatch

namespace ShapeContracts

structure Param where
  name : String
  schema : Schema

structure Signature where
  name : String
  params : List Param
  result : Option Schema

inductive CallError
  | arity (function : String) (expected actual : Nat)
  | unknownParameter (function : String) (index : Nat)
  | argument (function param : String) (cause : Mismatch)
  | result (function : String) (cause : Mismatch)
deriving DecidableEq, Repr

def CallError.message : CallError → String
  | .arity function expected actual =>
    function ++ "() takes " ++ expected.repr ++ " constrained arguments, got " ++ actual.repr
  | .unknownParameter function index =>
    function ++ "() has no parameter at position " ++ index.repr
  | .argument function param cause =>
    "argument '" ++ param ++ "' of " ++ function ++ "(): " ++ cause.message
  | .result function cause => "return value of " ++ function ++ "(): " ++ cause.message

inductive CallStep
  | argument (index : Nat) (v : ArrayView)
  | result (v : ArrayView)

namespace Signature

def checkArgument (sig : Signature) (b : Bindings) (index : Nat) (v : ArrayView) :
    Except CallError Bindings :=
  match sig.params[index]? with
  | none => .error (.unknownParameter sig.name index)
  | some param => (param.schema.matchArray b v).mapError (.argument sig.name param.name)

/-- Check the result.  A result without a schema always passes. -/
def checkResult (sig : Signature) (b : Bindings) (v : ArrayView) : Except CallError Bindings :=
  match sig.result with
  | none => .ok b
  | some schema => (schema.matchArray b v).mapError (.result sig.name)

def step (sig : Signature) (b : Bindings) : CallStep → Except CallError Bindings
  | .argument index v => sig.checkArgument b index v
  | .result v => sig.checkResult b v

/-- Take steps in order, up to the first that fails. -/
def run (sig : Signature) (b : Bindings) (steps : List CallStep) : Except CallError Bindings :=
  steps.foldlM sig.step b

/-- The steps of a whole call: the arguments in order, then the result. -/
def callSteps (args : List ArrayView) (result : Option ArrayView) : List CallStep :=
  (args.zipIdx.map fun a => .argument a.2 a.1) ++ (result.map CallStep.result).toList

/-- Check a whole call, from no bindings on. -/
def checkCall (sig : Signature) (args : List ArrayView) (result : Option ArrayView) :
    Except CallError Bindings :=
  if args.length ≠ sig.params.length then
    .error (.arity sig.name sig.params.length args.length)
  else sig.run .empty (callSteps args result)

end Signature

end ShapeContracts
