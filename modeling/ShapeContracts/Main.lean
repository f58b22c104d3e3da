/-
  ShapeContracts/Main.lean
  ========================
  **The program.**

  Reads the files and variables that a command line refers to, runs it, prints
  its output, and says on the error stream what went wrong.
-/
import ShapeContracts.Command.Line

namespace ShapeContracts.CommandLine

def Invocation.paths : Invocation → List String
  | .command config (.inspect manifest _) => config.toList ++ [manifest]
  | .command config (.check manifest _ _) => config.toList ++ [manifest]
  | _ => []

/-- The wordings of a failure and its causes, the outermost first. -/
def Failure.messages : Failure → List String
  | .usage => [helpText]
  | .config cause => [cause.message]
  | .run cause => cause.messages

def readContent (path : String) : IO (Option (String × String)) := do
  try
    return some (path, ← IO.FS.readFile path)
  catch _ => return none

def readVariable (name : String) : IO (Option (String × String)) := do
  return (← IO.getEnv name).map (name, ·)

end ShapeContracts.CommandLine

open ShapeContracts ShapeContracts.CommandLine in
def main (words : List String) : IO UInt32 := do
  let paths := ((CommandLine.read? words).map Invocation.paths).getD []
  let contents ← paths.filterMapM readContent
  let vars ← [Config.namedAxesVariable, Config.layoutsVariable].filterMapM readVariable
  let answer := execute (contents.lookup ·) (vars.lookup ·) words
  if let .error failure := answer then
    IO.eprintln (": ".intercalate failure.messages)
  IO.print (outcome answer).output
  return (outcome answer).exitCode.toUInt32
