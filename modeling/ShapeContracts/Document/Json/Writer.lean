/-
  ShapeContracts/Document/Json/Writer.lean
  ========================================
  **Writing documents as JSON.**

  Two forms: compact, without any blank, and indented by two spaces a level,
  where an empty sequence or mapping stays on one line.  Quoted text escapes
  the quote, the backslash and the control characters below the space; all
  other characters stand for themselves.
-/
import ShapeContracts.Document.Node

namespace ShapeContracts.Json

/-! ### Scalars -/

/-- A digit of base sixteen, in lower case. -/
def hexDigit (n : Nat) : Char := if n < 10 then Char.ofNat (48 + n) else Char.ofNat (87 + n)

/-- A character as it stands between quotes. -/
def escape (c : Char) : List Char :=
  if c = '"' then ['\\', '"']
  else if c = '\\' then ['\\', '\\']
  else if c = '\x08' then ['\\', 'b']
  else if c = '\t' then ['\\', 't']
  else if c = '\n' then ['\\', 'n']
  else if c = '\x0c' then ['\\', 'f']
  else if c = '\r' then ['\\', 'r']
  else if c.toNat < 0x20 then
    ['\\', 'u', '0', '0', hexDigit (c.toNat / 16), hexDigit (c.toNat % 16)]
  else [c]

def quote (s : String) : String :=
  "\"" ++ String.ofList (s.toList.flatMap escape) ++ "\""

/-- A scalar.  One that has no JSON form is written as null. -/
def scalar : Scalar → String
  | .null => "null"
  | .bool true => "true"
  | .bool false => "false"
  | .integer (.ofNat n) => n.repr
  | .integer (.negSucc n) => "-" ++ (n + 1).repr
  | .minusZero => "0"
  | .number => "null"
  | .text s => quote s
  | .brokenText => "null"

/-! ### The compact form -/

mutual

def compact : Node → String
  | .leaf value _ => scalar value
  | .sequence items => "[" ++ ",".intercalate (compactItems items) ++ "]"
  | .mapping entries => "\x7b" ++ ",".intercalate (compactEntries entries) ++ "\x7d"

def compactItems : List Node → List String
  | [] => []
  | item :: items => compact item :: compactItems items

def compactEntries : List (Node × Node) → List String
  | [] => []
  | (key, value) :: entries => (compact key ++ ":" ++ compact value) :: compactEntries entries

end

/-! ### The indented form -/

/-- A line break and the blanks that a level of nesting begins with. -/
def newline (level : Nat) : String := "\n" ++ String.ofList (List.replicate (2 * level) ' ')

/-- Lines between brackets, each on its own one level deeper. -/
def bracket (left right : String) (level : Nat) : List String → String
  | [] => left ++ right
  | lines =>
    left ++ newline (level + 1) ++ ("," ++ newline (level + 1)).intercalate lines ++
      newline level ++ right

mutual

/-- A document at a level of nesting, indented. -/
def indented (level : Nat) : Node → String
  | .leaf value _ => scalar value
  | .sequence items => bracket "[" "]" level (indentedItems (level + 1) items)
  | .mapping entries => bracket "\x7b" "\x7d" level (indentedEntries (level + 1) entries)

def indentedItems (level : Nat) : List Node → List String
  | [] => []
  | item :: items => indented level item :: indentedItems level items

def indentedEntries (level : Nat) : List (Node × Node) → List String
  | [] => []
  | (key, value) :: entries =>
    (compact key ++ ": " ++ indented level value) :: indentedEntries level entries

end

def pretty (node : Node) : String := indented 0 node

end ShapeContracts.Json
