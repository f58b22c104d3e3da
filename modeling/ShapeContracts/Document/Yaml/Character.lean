/-
  ShapeContracts/Document/Yaml/Character.lean
  ===========================================
  **Characters and places in a YAML text.**

  The classes of characters that the reading of lexemes and scalars rests on,
  and places.  Lines and columns count from zero, columns in characters; how
  far two places of a line lie apart counts in bytes of UTF-8.
-/

namespace ShapeContracts.Yaml

/-! ### Characters -/

/-- Whether a character may occur in a text at all. -/
def isAllowed (c : Char) : Bool :=
  let n := c.toNat
  n == 0x09 || n == 0x0A || n == 0x0D || (0x20 ≤ n && n ≤ 0x7E) || n == 0x85 ||
    (0xA0 ≤ n && n ≤ 0xFFFD) || 0x10000 ≤ n

def isBreak (c : Char) : Bool :=
  c == '\n' || c == '\r' || c == '\u0085' || c == '\u2028' || c == '\u2029'

/-- Whether a character separates words on a line. -/
def isSpace (c : Char) : Bool := c == ' ' || c == '\t'

/-- Whether a text starts with a space or a break, or has ended. -/
def startsBlank : List Char → Bool
  | [] => true
  | c :: _ => isSpace c || isBreak c

/-- Whether a text starts with a document mark. -/
def startsMark (m : Char) : List Char → Bool
  | a :: b :: c :: cs => a == m && b == m && c == m && startsBlank cs
  | _ => false

def startsDocumentMark (cs : List Char) : Bool := startsMark '-' cs || startsMark '.' cs

/-- Whether a character opens, closes or separates flow collections. -/
def isFlowMark (c : Char) : Bool := [',', '[', ']', '\x7b', '\x7d'].contains c

/-- Whether a plain scalar cannot start with a character. -/
def isIndicator (c : Char) : Bool :=
  isFlowMark c ||
    ['-', '?', ':', '#', '&', '*', '!', '|', '>', '\'', '"', '%', '@', '\x60'].contains c

/-! ### Places in a text -/

structure Place where
  /-- The number of bytes before it. -/
  offset : Nat
  line : Nat
  /-- The number of characters before it on its line. -/
  column : Nat
deriving DecidableEq, Repr

namespace Place

/-- The place after a character that does not end the line. -/
def pass (p : Place) (c : Char) : Place :=
  { p with offset := p.offset + c.utf8Size, column := p.column + 1 }

/-- The place some characters further on the line, each of one byte. -/
def advance (p : Place) (n : Nat) : Place :=
  { p with offset := p.offset + n, column := p.column + n }

/-- The place at the start of the next line, after a break of some bytes. -/
def nextLine (p : Place) (bytes : Nat) : Place := ⟨p.offset + bytes, p.line + 1, 0⟩

end Place

end ShapeContracts.Yaml
