/-
  ShapeContracts/Text/Pieces.lean
  ===============================
  **Cutting a text at a separator.**

  `pieces` cuts at every occurrence and so always gives at least one piece;
  `cut?` cuts at the first occurrence only and fails where there is none.
-/

namespace ShapeContracts.Text

/-- The pieces of a text between the occurrences of a separator.  The empty
    text has one piece, itself. -/
def pieces (sep : Char) : List Char → List (List Char)
  | [] => [[]]
  | c :: cs =>
    if c = sep then [] :: pieces sep cs
    else
      match pieces sep cs with
      | [] => [[c]]
      | p :: ps => (c :: p) :: ps

/-- What stands before and after the first occurrence of a separator. -/
def cut? (sep : Char) : List Char → Option (List Char × List Char)
  | [] => none
  | c :: cs =>
    if c = sep then some ([], cs)
    else (cut? sep cs).map fun r => (c :: r.1, r.2)

theorem pieces_ne_nil (sep : Char) (cs : List Char) : pieces sep cs ≠ [] := by
  cases cs with
  | nil => simp [pieces]
  | cons c cs =>
    simp only [pieces]
    split
    · simp
    · split <;> simp

end ShapeContracts.Text
