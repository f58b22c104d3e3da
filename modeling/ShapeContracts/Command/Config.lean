/-
  ShapeContracts/Command/Config.lean
  ==================================
  **Configuration of a command.**

  The one setting is what the target library offers.  It is taken from the
  first of these that says anything: the configuration file, the manifest, the
  environment.  Else the library is a plain one.

  A configuration file is in YAML, as most manifests are.  The commands are
  written for any reader of YAML; the one they are run with is given here.
-/
import ShapeContracts.Command.Files
import ShapeContracts.Document.Yaml.Reader
import ShapeContracts.Manifest
import ShapeContracts.Text.Blank

namespace ShapeContracts

abbrev Variables := String → Option String

inductive ConfigError
  | unreadable (path : String)
  | malformed (path : String)
  | invalidBool (variableName value : String)
deriving DecidableEq, Repr

def ConfigError.message : ConfigError → String
  | .unreadable path => "cannot read config file " ++ path
  | .malformed path => "invalid config file " ++ path
  | .invalidBool variableName value =>
    variableName ++ " must be true, false, 1 or 0, got '" ++ value ++ "'"

structure Config where
  file : Option Capabilities
  environment : Option Capabilities
deriving DecidableEq, Repr

namespace Config

def namedAxesVariable : String := "DIMCHECK_NAMED_AXES"

def layoutsVariable : String := "DIMCHECK_LAYOUTS"

/-- Read a configuration file: a record of capabilities, which may be left out. -/
def ofNode? (node : Node) : Option (Option Capabilities) := do
  let fields ← node.record? .yaml true ["capabilities"]
  fields.withDefault "capabilities" none (Node.optional (Capabilities.ofNode? .yaml))

def loadFile [YamlReader] (files : Files) (path : String) :
    Except ConfigError (Option Capabilities) :=
  match files path with
  | none => .error (.unreadable path)
  | some content =>
    match YamlReader.capabilities? content with
    | none => .error (.malformed path)
    | some capabilities => .ok capabilities

/-- The truth value of a variable; one that is not set is false. -/
def readBool (name : String) (value : Option String) : Except ConfigError Bool :=
  match value.map fun s => String.ofList (Text.trim s.toList) with
  | none => .ok false
  | some value =>
    if value = "true" ∨ value = "1" then .ok true
    else if value = "false" ∨ value = "0" then .ok false
    else .error (.invalidBool name value)

/-- What the environment says: nothing, unless one of the variables is set. -/
def readEnvironment (vars : Variables) : Except ConfigError (Option Capabilities) := do
  let namedAxes := vars namedAxesVariable
  let layouts := vars layoutsVariable
  if namedAxes.isNone && layouts.isNone then return none
  let namedAxes ← readBool namedAxesVariable namedAxes
  let layouts ← readBool layoutsVariable layouts
  return some ⟨namedAxes, layouts⟩

/-- Load the configuration, the file first. -/
def load [YamlReader] (files : Files) (vars : Variables) (path : Option String) :
    Except ConfigError Config := do
  let file ← match path with
    | some path => loadFile files path
    | none => pure none
  let environment ← readEnvironment vars
  return ⟨file, environment⟩

/-- The capabilities to build for, given what the manifest says. -/
def capabilities (config : Config) (declared : Option Capabilities) : Capabilities :=
  ((config.file.or declared).or config.environment).getD .plain

end Config

/-! ### The reader at hand -/

def Format.readNode? : Format → String → Option Node
  | .json => Json.read?
  | .yaml => Yaml.read?

/-- The part of YAML that `Yaml.read?` knows. -/
instance : YamlReader where
  manifest? text := (Format.yaml.readNode? text).bind (Manifest.ofNode? .yaml)
  capabilities? text := (Format.yaml.readNode? text).bind Config.ofNode?

end ShapeContracts
