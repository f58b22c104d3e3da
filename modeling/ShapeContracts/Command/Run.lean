/-
  ShapeContracts/Command/Run.lean
  ===============================
  **The commands.**

  `inspect` builds a manifest and lists its signatures.  `check` builds it as
  well and checks one call, given by descriptions of the arguments and the
  result.  A call that does not fit is reported; everything else that goes
  wrong is an error, and then nothing is printed.
-/
import ShapeContracts.Command.Config
import ShapeContracts.Description.Reader
import ShapeContracts.Document.Json.Writer
import ShapeContracts.Manifest

namespace ShapeContracts

/-! ### Errors and outcomes -/

inductive OutputFormat
  | text
  | json
deriving DecidableEq, Repr

inductive RunError
  | unreadable (path : String)
  | malformed (path : String)
  | invalidDeclaration (path : String) (cause : ManifestError)
  | unknownFunction (name : String)
  | invalidDescription (text : String) (cause : ReadError)
deriving DecidableEq, Repr

/-- The wordings of a run error and its causes, the outermost first. -/
def RunError.messages : RunError → List String
  | .unreadable path =>
    ["failed to load manifest " ++ path, "cannot read manifest '" ++ path ++ "'"]
  | .malformed path =>
    ["failed to load manifest " ++ path, "invalid manifest '" ++ path ++ "'"]
  | .invalidDeclaration path cause =>
    ["invalid declaration in " ++ path, cause.message] ++
      match cause with
      | .declaration _ cause => [cause.message]
      | _ => []
  | .unknownFunction name => [(ManifestError.unknownFunction name).message]
  | .invalidDescription text cause =>
    ["invalid array description '" ++ text ++ "'", cause.message]

structure Outcome where
  exitCode : Nat
  output : String
deriving DecidableEq, Repr

/-! ### Loading -/

/-- The format of a manifest: JSON by its extension, else YAML. -/
def manifestFormat (path : String) : Format :=
  if Path.extension? (Path.fileName path) = some "json".toList then .json else .yaml

def loadManifest [YamlReader] (files : Files) (path : String) : Except RunError Manifest :=
  match files path with
  | none => .error (.unreadable path)
  | some content =>
    match Manifest.read? (manifestFormat path) content with
    | none => .error (.malformed path)
    | some manifest => .ok manifest

def loadSignatures [YamlReader] (files : Files) (config : Config) (path : String) :
    Except RunError SignatureSet := do
  let manifest ← loadManifest files path
  (manifest.build .empty (config.capabilities manifest.capabilities)).mapError
    (.invalidDeclaration path)

/-! ### Listing signatures -/

def Signature.listing (s : Signature) : String :=
  s.name ++ "\n" ++
    String.join (s.params.map fun p => "  " ++ p.name ++ ": " ++ p.schema.text ++ "\n") ++
      match s.result with
      | some schema => "  -> " ++ schema.text ++ "\n"
      | none => ""

def Signature.node (s : Signature) : Node :=
  .object
    [("name", .text s.name),
     ("params", .sequence (s.params.map fun p =>
        .object [("name", .text p.name), ("schema", .text p.schema.text)])),
     ("returns", .textOrNull (s.result.map Schema.text))]

namespace SignatureSet

/-- The signatures, in name order. -/
def toList (set : SignatureSet) : List Signature := set.signatures.entries.map Prod.snd

def render (set : SignatureSet) : OutputFormat → String
  | .text =>
    String.join (set.toList.map Signature.listing) ++
      set.toList.length.repr ++ " function(s) declared\n"
  | .json =>
    Json.pretty (.object
      [("capabilities", set.capabilities.node),
       ("functions", .sequence (set.toList.map Signature.node))])

end SignatureSet

def inspect [YamlReader] (files : Files) (config : Config) (path : String)
    (format : OutputFormat) : Except RunError Outcome :=
  (loadSignatures files config path).map fun set => ⟨0, set.render format⟩

/-! ### Checking a call -/

structure CallRequest where
  function : String
  args : List String
  result : Option String
deriving DecidableEq, Repr

structure CallReport where
  function : String
  verdict : Except CallError Bindings

def readArray (text : String) : Except RunError ArrayView :=
  ((Description.read text).map Description.view).mapError (.invalidDescription text)

/-- Check a requested call against the signatures. -/
def SignatureSet.checkCall (set : SignatureSet) (request : CallRequest) :
    Except RunError CallReport := do
  let signature ← (set.require request.function).mapError fun _ =>
    .unknownFunction request.function
  let args ← request.args.mapM readArray
  let result ← request.result.mapM readArray
  return ⟨request.function, signature.checkCall args result⟩

namespace CallReport

def exitCode (report : CallReport) : Nat :=
  match report.verdict with
  | .ok _ => 0
  | .error _ => 1

def render (report : CallReport) : OutputFormat → String
  | .text =>
    match report.verdict with
    | .ok bindings =>
      "OK " ++ report.function ++ "()\n" ++
        String.join (bindings.entries.map fun e => "  " ++ e.1 ++ " = " ++ e.2.text ++ "\n")
    | .error e => "FAIL " ++ e.message ++ "\n"
  | .json =>
    Json.pretty (.object
      (("function", .text report.function) ::
        match report.verdict with
        | .ok bindings =>
          [("ok", .bool true), ("bindings", bindingsNode bindings.entries)]
        | .error e => [("ok", .bool false), ("error", .text e.message)]))

end CallReport

def check [YamlReader] (files : Files) (config : Config) (path : String) (request : CallRequest)
    (format : OutputFormat) : Except RunError Outcome := do
  let set ← loadSignatures files config path
  let report ← set.checkCall request
  return ⟨report.exitCode, report.render format⟩

end ShapeContracts
