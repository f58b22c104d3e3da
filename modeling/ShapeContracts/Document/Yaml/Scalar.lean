/-
  ShapeContracts/Document/Yaml/Scalar.lean
  ========================================
  **The text of a YAML scalar.**

  A scalar is read word by word.  Between two words stands a gap of spaces or
  of line breaks: spaces on a line are kept, a single break becomes a space,
  and of several breaks the first is dropped.

  A plain scalar ends before a comment, at a colon that a blank follows, at a
  document mark, where the text returns to the left of its block, and in a
  flow collection at a flow mark.  A quoted scalar ends at its quote.
-/
import ShapeContracts.Document.Yaml.Character
import ShapeContracts.Text.Numeral

namespace ShapeContracts.Yaml

/-! ### Gaps -/

/-- What a line break contributes to a scalar: the same for all but the line
    and the paragraph separator, which contribute themselves. -/
def breakText (c : Char) : Char := if c = '\u2028' ∨ c = '\u2029' then c else '\n'

/-- What stands between two words of a scalar: spaces, or line breaks. -/
structure Gap where
  /-- The spaces before the first break, the last one first. -/
  spaces : List Char
  /-- What the breaks contribute, the last one first. -/
  breaks : List Char
  /-- Whether there was a break, be it an escaped one. -/
  broken : Bool

def Gap.empty : Gap := ⟨[], [], false⟩

/-- Go on with a gap after a line break.  Spaces before the first break count
    for nothing. -/
def Gap.addBreak (gap : Gap) (b : Char) : Gap :=
  ⟨if gap.broken then gap.spaces else [], b :: gap.breaks, true⟩

/-- Read on in the gap between two words.  In a plain scalar a tab must not
    stand among the spaces that indent a line. -/
def readGap (leastColumn : Option Nat) (gap : Gap) (p : Place) :
    List Char → Option (Gap × Place × List Char)
  | [] => some (gap, p, [])
  | '\r' :: '\n' :: cs => readGap leastColumn (gap.addBreak '\n') (p.nextLine 2) cs
  | c :: cs =>
    if isBreak c then readGap leastColumn (gap.addBreak (breakText c)) (p.nextLine c.utf8Size) cs
    else if !isSpace c then some (gap, p, c :: cs)
    else if !gap.broken then
      readGap leastColumn { gap with spaces := c :: gap.spaces } (p.pass c) cs
    else if c == '\t' && leastColumn.any (p.column < ·) then none
    else readGap leastColumn gap (p.pass c) cs

/-- What a gap contributes to a scalar.  A single break becomes a space; of
    several the first is dropped.  `escaped` tells that the first break of the
    gap was escaped and so contributes nothing by itself. -/
def Gap.fold (gap : Gap) (escaped : Bool) : List Char :=
  if !gap.broken then gap.spaces.reverse
  else
    match gap.breaks.reverse with
    | [] => []
    | b :: bs =>
      if escaped || b != '\n' then b :: bs
      else if bs.isEmpty then [' '] else bs

/-! ### Plain scalars -/

/-- Read a word of a plain scalar, last character first.  A colon before a
    blank ends it, and so does a flow mark within a flow collection; there a
    colon must not touch a flow mark. -/
def plainWord? (inFlow : Bool) (word : List Char) (p : Place) : List Char →
    Option (List Char × Place × List Char)
  | [] => some (word, p, [])
  | c :: cs =>
    if isSpace c || isBreak c then some (word, p, c :: cs)
    else if inFlow && c == ':' && cs.head?.any (fun d => isFlowMark d || d == '?') then none
    else if (c == ':' && startsBlank cs) || (inFlow && isFlowMark c) then some (word, p, c :: cs)
    else plainWord? inFlow (c :: word) (p.pass c) cs

/-- Read a plain scalar word by word.  `text` holds the characters so far, last
    first, and `gap` what came after them.  The answer tells whether the scalar
    was followed by a line break. -/
def plainScalar? (inFlow : Bool) (leastColumn : Nat) : Nat → List Char → Gap → Place → List Char →
    Option (List Char × Bool × Place × List Char)
  | 0, text, gap, p, cs => some (text, gap.broken, p, cs)
  | fuel + 1, text, gap, p, cs =>
    if (p.column == 0 && startsDocumentMark cs) || cs.head? == some '#' then
      some (text, gap.broken, p, cs)
    else
      match plainWord? inFlow [] p cs with
      | none => none
      | some (word, p, cs) =>
        let (text, broken) :=
          if word.isEmpty then (text, gap.broken)
          else (word ++ (gap.fold false).reverse ++ text, false)
        if cs.isEmpty || !startsBlank cs then some (text, broken, p, cs)
        else
          match readGap (some leastColumn) ⟨[], [], broken⟩ p cs with
          | none => none
          | some (gap, p, cs) =>
            if !inFlow && p.column < leastColumn then some (text, gap.broken, p, cs)
            else plainScalar? inFlow leastColumn fuel text gap p cs

/-! ### Quoted scalars -/

/-- The character that a letter after a backslash stands for. -/
def escaped? : Char → Option Char
  | '0' => some '\x00'
  | 'a' => some '\x07'
  | 'b' => some '\x08'
  | 't' => some '\t'
  | '\t' => some '\t'
  | 'n' => some '\n'
  | 'v' => some '\x0b'
  | 'f' => some '\x0c'
  | 'r' => some '\r'
  | 'e' => some '\x1b'
  | ' ' => some ' '
  | '"' => some '"'
  | '/' => some '/'
  | '\\' => some '\\'
  | 'N' => some '\u0085'
  | '_' => some '\u00a0'
  | 'L' => some '\u2028'
  | 'P' => some '\u2029'
  | _ => none

/-- The number of digits that follow a letter after a backslash. -/
def codeLength? : Char → Option Nat
  | 'x' => some 2
  | 'u' => some 4
  | 'U' => some 8
  | _ => none

/-- The character with the code point that digits of base sixteen write. -/
def ofCode? (ds : List Char) : Option Char := do
  let n ← Text.numeral? 16 ds
  if n.isValidChar then some (Char.ofNat n) else none

/-- Read a word between single quotes, last character first, up to a blank or
    the closing quote.  A quote that stands twice stands for itself. -/
def singleWord (word : List Char) (p : Place) : List Char → List Char × Place × List Char
  | [] => (word, p, [])
  | '\'' :: '\'' :: cs => singleWord ('\'' :: word) (p.advance 2) cs
  | c :: cs =>
    if isSpace c || isBreak c || c == '\'' then (word, p, c :: cs)
    else singleWord (c :: word) (p.pass c) cs

/-- What a backslash and what follows it stand for: a character, or nothing
    when it is a line break, with the place and the text after it. -/
def readEscape? (p : Place) : List Char → Option (Option Char × Place × List Char)
  | [] => none
  | '\r' :: '\n' :: cs => some (none, (p.advance 1).nextLine 2, cs)
  | c :: cs =>
    if isBreak c then some (none, (p.advance 1).nextLine c.utf8Size, cs)
    else
      match escaped? c, codeLength? c with
      | some e, _ => some (some e, p.advance 2, cs)
      | none, some n =>
        let code := cs.take n
        if code.length < n then none
        else (ofCode? code).map fun e => (some e, p.advance (2 + n), cs.drop n)
      | none, none => none

/-- Read a word between double quotes, last character first, up to a blank or
    the closing quote.  The answer tells whether an escaped line break ended
    it. -/
def doubleWord? : Nat → List Char → Place → List Char →
    Option (List Char × Bool × Place × List Char)
  | 0, _, _, _ => none
  | _ + 1, word, p, [] => some (word, false, p, [])
  | fuel + 1, word, p, c :: cs =>
    if isSpace c || isBreak c || c == '"' then some (word, false, p, c :: cs)
    else if c == '\\' then
      match readEscape? p cs with
      | none => none
      | some (none, p, cs) => some (word, true, p, cs)
      | some (some e, p, cs) => doubleWord? fuel (e :: word) p cs
    else doubleWord? fuel (c :: word) (p.pass c) cs

/-- Read a word between quotes of either sort. -/
def quotedWord? (isSingle : Bool) (fuel : Nat) (p : Place) (cs : List Char) :
    Option (List Char × Bool × Place × List Char) :=
  if isSingle then
    let (word, p, cs) := singleWord [] p cs
    some (word, false, p, cs)
  else doubleWord? fuel [] p cs

/-- Read a quoted scalar after its first quote, word by word.  `text` holds the
    characters so far, last first. -/
def quotedScalar? (isSingle : Bool) : Nat → List Char → Place → List Char →
    Option (List Char × Place × List Char)
  | 0, _, _, _ => none
  | fuel + 1, text, p, cs =>
    if cs.isEmpty || (p.column == 0 && startsDocumentMark cs) then none
    else
      match quotedWord? isSingle (fuel + 1) p cs with
      | none => none
      | some (word, escaped, p, cs) =>
        let text := word ++ text
        if cs.head? == some (if isSingle then '\'' else '"') then
          some (text, p.advance 1, cs.tail)
        else
          match readGap none ⟨[], [], escaped⟩ p cs with
          | none => none
          | some (gap, p, cs) =>
            quotedScalar? isSingle fuel ((gap.fold escaped).reverse ++ text) p cs

end ShapeContracts.Yaml
