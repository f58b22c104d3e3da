/-
  ShapeContracts/Manifest.lean
  ============================
  **Manifests: declared functions and their signatures.**

  A manifest declares functions by name, each with the tokens of its
  parameters and possibly of its result, and may state the capabilities of the
  library they are meant for.  Building it gives every function its signature,
  or names the first declaration that is wrong: functions in name order,
  within a function the parameters in order and then the result, within a
  declaration an unknown detail before all else.

  A manifest is written in JSON or in YAML.  Who reads YAML is left open
  (`YamlReader`): what is said of manifests holds however that is done.
-/
import ShapeContracts.Document.Json.Reader
import ShapeContracts.Manifest.Token
import ShapeContracts.Signature

namespace ShapeContracts

/-! ### Declarations -/

structure ParamDeclaration where
  name : String
  tokens : List WrittenToken
deriving DecidableEq, Repr

structure FunctionDeclaration where
  params : List ParamDeclaration
  result : Option (List WrittenToken)
deriving DecidableEq, Repr

structure Manifest where
  /-- The capabilities the declarations are meant for. -/
  capabilities : Option Capabilities
  functions : Table FunctionDeclaration
deriving DecidableEq

/-! ### Reading -/

/-- Who reads texts in YAML, a manifest or a configuration.  A text that is
    refused answers nothing. -/
class YamlReader where
  manifest? : String → Option Manifest
  /-- The capabilities that a configuration names, if it names any. -/
  capabilities? : String → Option (Option Capabilities)

def tokensOfNode? (node : Node) : Option (List WrittenToken) :=
  node.items?.bind fun items => items.mapM WrittenToken.ofNode?

def ParamDeclaration.ofNode? (format : Format) (node : Node) : Option ParamDeclaration := do
  let fields ← node.record? format true ["name", "schema"]
  let name ← fields.required "name" Node.written?
  let tokens ← fields.required "schema" tokensOfNode?
  return ⟨name, tokens⟩

def FunctionDeclaration.ofNode? (format : Format) (node : Node) : Option FunctionDeclaration := do
  let fields ← node.record? format true ["params", "returns"]
  let params ← fields.withDefault "params" [] fun node =>
    node.items?.bind fun items => items.mapM (ParamDeclaration.ofNode? format)
  let result ← fields.withDefault "returns" none (Node.optional tokensOfNode?)
  return ⟨params, result⟩

namespace Manifest

/-- Read a manifest.  Of two declarations of a function the later counts, but
    both have to be well formed. -/
def ofNode? (format : Format) (node : Node) : Option Manifest := do
  let fields ← node.record? format true ["capabilities", "functions"]
  let capabilities ← fields.withDefault "capabilities" none
    (Node.optional (Capabilities.ofNode? format))
  let functions ← fields.withDefault "functions" [] fun node =>
    node.entries?.bind fun entries =>
      entries.mapM fun e => (FunctionDeclaration.ofNode? format e.2).map (e.1, ·)
  return ⟨capabilities, .ofList functions⟩

def read? [YamlReader] : Format → String → Option Manifest
  | .json, text => (Json.read? text).bind (ofNode? .json)
  | .yaml, text => YamlReader.manifest? text

end Manifest

/-! ### Building -/

structure Site where
  function : String
  /-- The name of a parameter, or the word for the result. -/
  param : String
deriving DecidableEq, Repr

/-- The word that stands for the result among the parameters. -/
def resultLabel : String := "return"

def Site.text (s : Site) : String := s.function ++ "(" ++ s.param ++ ")"

inductive ManifestError
  | unknownDetail (site : Site) (detail : String)
  | declaration (site : Site) (cause : DeclarationError)
  | unknownFunction (name : String)
deriving DecidableEq, Repr

def ManifestError.message : ManifestError → String
  | .unknownDetail site detail =>
    site.text ++ ": no detail registered as '" ++ detail ++ "'"
  | .declaration site cause => site.text ++ ": " ++ cause.message
  | .unknownFunction name => "no function named '" ++ name ++ "' in manifest"

/-- The schema that written tokens declare at a site. -/
def buildSchema (registry : Registry) (caps : Capabilities) (site : Site)
    (tokens : List WrittenToken) : Except ManifestError Schema := do
  let tokens ← (tokens.mapM (WrittenToken.token registry)).mapError fun e =>
    .unknownDetail site e.name
  (Schema.declare caps tokens).mapError (.declaration site)

def FunctionDeclaration.build (registry : Registry) (caps : Capabilities) (name : String)
    (f : FunctionDeclaration) : Except ManifestError Signature := do
  let params ← f.params.mapM fun p =>
    (buildSchema registry caps ⟨name, p.name⟩ p.tokens).map (Param.mk p.name)
  let result ← f.result.mapM (buildSchema registry caps ⟨name, resultLabel⟩)
  return ⟨name, params, result⟩

/-- The signatures of a manifest, and the capabilities they were built for. -/
structure SignatureSet where
  capabilities : Capabilities
  signatures : Table Signature

def buildSignatures (registry : Registry) (caps : Capabilities)
    (functions : List (String × FunctionDeclaration)) :
    Except ManifestError (List (String × Signature)) :=
  functions.mapM fun f => (f.2.build registry caps f.1).map (f.1, ·)

def Manifest.build (registry : Registry) (caps : Capabilities) (m : Manifest) :
    Except ManifestError SignatureSet :=
  (buildSignatures registry caps m.functions.entries).map fun signatures =>
    ⟨caps, .ofList signatures⟩

/-- The signature of a function that has to be declared. -/
def SignatureSet.require (set : SignatureSet) (name : String) : Except ManifestError Signature :=
  match set.signatures.get? name with
  | some signature => .ok signature
  | none => .error (.unknownFunction name)

end ShapeContracts
