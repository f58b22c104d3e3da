/-
  ShapeContracts/Command/Line.lean
  ================================
  **The command line.**

      [OPTIONS] inspect MANIFEST [--format text|json]
      [OPTIONS] check MANIFEST --function NAME [--arg DESC]...
                      [--ret DESC] [--format text|json]

  The options for all commands are `-v`, `--verbose` and `--config PATH`,
  before or after the command; a path after it counts more than one before.
  Words are read from left to right.  A value follows its option as the next
  word, which then must not start with a dash (a lone dash will do), or after
  an equals sign.  After `--` every word is a plain one.

  Whatever is not of this form is a usage error.
-/
import ShapeContracts.Command.Run

namespace ShapeContracts.CommandLine

/-! ### Invocations -/

inductive Command
  | inspect (manifest : String) (format : OutputFormat)
  | check (manifest : String) (request : CallRequest) (format : OutputFormat)
deriving DecidableEq, Repr

inductive Invocation
  | command (config : Option String) (command : Command)
  | version
  | help
deriving DecidableEq, Repr

/-! ### Options -/

/-- Where a word stands: before the command, or after which one. -/
inductive Level
  | top
  | inspect
  | check
deriving DecidableEq, Repr

def Level.ofName? (name : String) : Option Level :=
  if name = "inspect" then some .inspect
  else if name = "check" then some .check
  else none

inductive Flag
  | verbose
  | version
  | help
deriving DecidableEq, Repr

inductive Setting
  | config
  | format
  | function
  | arg
  | result
deriving DecidableEq, Repr

/-- The flag of a name.  Only before the command one can ask for the version. -/
def Level.flag? (level : Level) (name : String) : Option Flag :=
  if name = "verbose" then some .verbose
  else if name = "help" then some .help
  else if name = "version" ∧ level = .top then some .version
  else none

def Level.letter? (level : Level) (c : Char) : Option Flag :=
  if c = 'v' then some .verbose
  else if c = 'h' then some .help
  else if c = 'V' ∧ level = .top then some .version
  else none

def Level.setting? (level : Level) (name : String) : Option Setting :=
  if name = "config" then some .config
  else if name = "format" ∧ level ≠ .top then some .format
  else if name = "function" ∧ level = .check then some .function
  else if name = "arg" ∧ level = .check then some .arg
  else if name = "ret" ∧ level = .check then some .result
  else none

/-! ### Reading one level -/

/-- What the words of one level have given so far. -/
structure Reading where
  config : Option String
  manifest : Option String
  format : Option OutputFormat
  function : Option String
  args : List String
  result : Option String
deriving DecidableEq, Repr

inductive Stop
  | usage
  | version
  | help
deriving DecidableEq, Repr

namespace Reading

def empty : Reading := ⟨none, none, none, none, [], none⟩

def format? (value : String) : Option OutputFormat :=
  if value = "text" then some .text
  else if value = "json" then some .json
  else none

/-- Fill what must not be filled twice. -/
def once? {α : Type} (slot : Option α) (value : Option α) : Option (Option α) :=
  if slot.isSome || value.isNone then none else some value

def path? (value : String) : Option String := if value = "" then none else some value

/-- Give a setting its value.  Only arguments may be given more than once. -/
def set? (r : Reading) (setting : Setting) (value : String) : Option Reading :=
  match setting with
  | .config => (once? r.config (path? value)).map fun config => { r with config }
  | .format => (once? r.format (format? value)).map fun format => { r with format }
  | .function => (once? r.function (some value)).map fun function => { r with function }
  | .arg => some { r with args := r.args ++ [value] }
  | .result => (once? r.result (some value)).map fun result => { r with result }

def word? (r : Reading) (word : String) : Option Reading :=
  (once? r.manifest (path? word)).map fun manifest => { r with manifest }

end Reading

/-- Whether a word can be the value of the option before it. -/
def isValue (word : String) : Bool := word == "-" || word.toList.head? != some '-'

def actOn : Flag → Except Stop Unit
  | .verbose => .ok ()
  | .version => .error .version
  | .help => .error .help

/-- Act on the letters after a single dash. -/
def actOnLetters (level : Level) : List Char → Except Stop Unit
  | [] => .ok ()
  | c :: cs =>
    match level.letter? c with
    | some flag => (actOn flag).bind fun _ => actOnLetters level cs
    | none => .error .usage

/-- What is wrong, if nothing was read. -/
def orUsage {α : Type} : Option α → Except Stop α
  | some a => .ok a
  | none => .error .usage

/-- The name and the value of a word after its two dashes. -/
def splitOption (cs : List Char) : String × Option String :=
  match Text.cut? '=' cs with
  | some (name, value) => (String.ofList name, some (String.ofList value))
  | none => (String.ofList cs, none)

/-- Read the words of a level.  Before the command a plain word ends it; the
    answer holds the words from there on. -/
def readWords (level : Level) : Bool → Reading → List String → Except Stop (Reading × List String)
  | _, r, [] => .ok (r, [])
  | plainOnly, r, word :: words =>
    let plain : Except Stop (Reading × List String) :=
      if level = .top then (if plainOnly then .error .usage else .ok (r, word :: words))
      else (orUsage (r.word? word)).bind fun r => readWords level plainOnly r words
    if plainOnly then plain
    else if word = "--" then readWords level true r words
    else
      match word.toList with
      | '-' :: '-' :: cs =>
        let (name, value) := splitOption cs
        match level.flag? name, level.setting? name, value with
        | some flag, _, none => (actOn flag).bind fun _ => readWords level false r words
        | none, some setting, some value =>
          (orUsage (r.set? setting value)).bind fun r => readWords level false r words
        | none, some setting, none =>
          match words with
          | value :: words =>
            if isValue value then
              (orUsage (r.set? setting value)).bind fun r => readWords level false r words
            else .error .usage
          | [] => .error .usage
        | _, _, _ => .error .usage
      | '-' :: c :: cs =>
        (actOnLetters level (c :: cs)).bind fun _ => readWords level false r words
      | _ => plain

/-! ### Reading a command line -/

/-- The command that the words of its level give. -/
def Reading.command? (r : Reading) (level : Level) : Option Command := do
  let manifest ← r.manifest
  let format := r.format.getD .text
  match level with
  | .top => none
  | .inspect => return .inspect manifest format
  | .check => return .check manifest ⟨← r.function, r.args, r.result⟩ format

/-- What asking for help on some words comes to.  There is help on all of the
    program and on each command, the request for help being one. -/
def helpOn (words : List String) : Stop :=
  match words with
  | [] => .help
  | [name] => if (Level.ofName? name).isSome ∨ name = "help" then .help else .usage
  | _ => .usage

/-- Read a command line up to where it stops. -/
def readLine (words : List String) : Except Stop (Option String × Command) := do
  let (top, words) ← readWords .top false .empty words
  match words with
  | [] => throw .usage
  | name :: words =>
    if name = "help" then throw (helpOn words)
    let level ← orUsage (Level.ofName? name)
    let (r, _) ← readWords level false .empty words
    let command ← orUsage (r.command? level)
    return (r.config.or top.config, command)

def read? (words : List String) : Option Invocation :=
  match readLine words with
  | .ok (config, command) => some (.command config command)
  | .error .version => some .version
  | .error .help => some .help
  | .error .usage => none

/-! ### Running a command line -/

inductive Failure
  | usage
  | config (cause : ConfigError)
  | run (cause : RunError)
deriving DecidableEq, Repr

def Failure.exitCode : Failure → Nat
  | .usage => 2
  | .config _ => 2
  | .run _ => 1

def versionText : String := "dimcheck 0.1.0\n"

def helpText : String :=
  "Usage: dimcheck [-v]... [--config <PATH>] inspect <MANIFEST> [--format <text|json>]\n" ++
  "       dimcheck [-v]... [--config <PATH>] check <MANIFEST> --function <FUNCTION>\n" ++
  "                [--arg <DESC>]... [--ret <DESC>] [--format <text|json>]\n"

def Command.run [YamlReader] (files : Files) (config : Config) : Command → Except RunError Outcome
  | .inspect manifest format => ShapeContracts.inspect files config manifest format
  | .check manifest request format => ShapeContracts.check files config manifest request format

def Invocation.run [YamlReader] (files : Files) (vars : Variables) :
    Invocation → Except Failure Outcome
  | .version => .ok ⟨0, versionText⟩
  | .help => .ok ⟨0, helpText⟩
  | .command path request => do
    let config ← (Config.load files vars path).mapError .config
    (request.run files config).mapError .run

def execute [YamlReader] (files : Files) (vars : Variables) (words : List String) :
    Except Failure Outcome :=
  match read? words with
  | some invocation => invocation.run files vars
  | none => .error .usage

/-- What is left behind, whether there is a verdict or not.  A failure prints
    nothing. -/
def outcome : Except Failure Outcome → Outcome
  | .ok result => result
  | .error failure => ⟨failure.exitCode, ""⟩

end ShapeContracts.CommandLine
