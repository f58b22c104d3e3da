/-
  ShapeContracts/Command/Files.lean
  =================================
  **Files and the paths that lead to them.**

  A command sees files as a function from paths to contents; a path without
  content cannot be read.

  A directory held in memory is such a function too.  Its paths start in it.
  Every part of a path but the last one is a step: an empty part and a single
  dot stay in place, two dots go back, and a name enters a directory, which has
  to be there.  A path that leaves the directory leads to nothing.
-/
import ShapeContracts.Text.Pieces

namespace ShapeContracts

/-- The contents of the files there are, by path. -/
abbrev Files := String → Option String

/-! ### Paths -/

namespace Path

def parts (path : String) : List (List Char) := Text.pieces '/' path.toList

def back : List Char := ['.', '.']

/-- Whether a part of a path stays in place. -/
def staysInPlace (part : List Char) : Bool := part == [] || part == ['.']

/-- The last part of a path, parts that stay in place apart. -/
def fileName (path : String) : List Char :=
  ((parts path).filter fun part => !staysInPlace part).getLastD []

/-- What follows the last dot of a file name, unless it starts with that dot. -/
def extension? (name : List Char) : Option (List Char) :=
  if name = back then none
  else
    match (Text.pieces '.' name).reverse with
    | last :: stem :: more => if stem = [] ∧ more = [] then none else some last
    | _ => none

end Path

/-! ### A directory in memory -/

/-- Files by the names that lead to them from a directory. -/
structure Directory where
  entries : List (String × String)

namespace Directory

/-- Whether a file lies somewhere below the given parts. -/
def holds (dir : Directory) (parts : List (List Char)) : Bool :=
  dir.entries.any fun e =>
    parts.isPrefixOf (Path.parts e.1) && decide (parts.length < (Path.parts e.1).length)

def enter? (dir : Directory) (here : List (List Char)) (part : List Char) :
    Option (List (List Char)) :=
  if Path.staysInPlace part then some here
  else if part = Path.back then (if here.isEmpty then none else some here.dropLast)
  else if dir.holds (here ++ [part]) then some (here ++ [part])
  else none

/-- The content of the file that a path leads to.  A path from the root does
    not start in the directory. -/
def read? (dir : Directory) (path : String) : Option String :=
  if path.toList.head? = some '/' then none
  else
    match (Path.parts path).reverse with
    | [] => none
    | last :: before =>
      (before.reverse.foldlM dir.enter? []).bind fun here =>
        (dir.entries.find? fun e => Path.parts e.1 == here ++ [last]).map Prod.snd

end Directory

end ShapeContracts
