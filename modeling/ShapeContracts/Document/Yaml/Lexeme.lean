/-
  ShapeContracts/Document/Yaml/Lexeme.lean
  ========================================
  **The lexemes of a YAML text.**

  Indentation becomes explicit: a block collection is opened where a dash or
  a key stands deeper than what surrounds it and closed where the text
  returns to the left.  Nothing marks the start of a block mapping but its
  first key, and a key is known only by the colon after it, unless a question
  mark stands before it.  So wherever a key may stand its place is remembered
  as a candidate; a colon then puts the key mark, and the opening mark if one
  is due, before what was read since.

  A candidate is lost at the end of its line and after 1024 bytes.  One
  that stands where its mapping already has keys is required: to lose it is an
  error.

  Covered are block and flow collections, plain and quoted scalars, comments
  and document marks.  Directives, anchors, tags and block scalars are refused.
-/
import ShapeContracts.Document.Yaml.Scalar

namespace ShapeContracts.Yaml

/-! ### Lexemes -/

inductive Lexeme
  | documentStart
  | documentEnd
  | blockSequence
  | blockMapping
  | blockEnd
  | flowSequence
  | flowSequenceEnd
  | flowMapping
  | flowMappingEnd
  /-- The dash before an item of a block sequence. -/
  | dash
  | comma
  | key
  | value
  | scalar (text : String) (isPlain : Bool)
deriving DecidableEq, Repr

/-! ### Between lexemes -/

/-- Whether a character is passed over between lexemes, breaks and comments
    apart.  A tab is no space where a key may stand outside flow collections,
    and a byte order mark may begin a line. -/
def isFiller (inFlow keyAllowed : Bool) (p : Place) (c : Char) : Bool :=
  c == ' ' || (c == '\t' && (inFlow || !keyAllowed)) || (c == '\ufeff' && p.column == 0)

/-- Pass over fillers, comments and line breaks.  Outside flow collections a
    line break allows a key again. -/
def skipGap (inFlow inComment keyAllowed : Bool) (p : Place) :
    List Char → Bool × Place × List Char
  | [] => (keyAllowed, p, [])
  | '\r' :: '\n' :: cs => skipGap inFlow false (keyAllowed || !inFlow) (p.nextLine 2) cs
  | c :: cs =>
    if isBreak c then skipGap inFlow false (keyAllowed || !inFlow) (p.nextLine c.utf8Size) cs
    else if inComment || isFiller inFlow keyAllowed p c then
      skipGap inFlow inComment keyAllowed (p.pass c) cs
    else if c == '#' then skipGap inFlow true keyAllowed (p.pass c) cs
    else (keyAllowed, p, c :: cs)

/-! ### The state of the reader -/

/-- A place where a key may have started. -/
structure Candidate where
  place : Place
  /-- The number of lexemes before it. -/
  position : Nat
  /-- Whether nothing but a key can stand there. -/
  isRequired : Bool
deriving DecidableEq, Repr

/-- How far a text has been read. -/
structure Progress where
  /-- A number of steps that no loop over the text exceeds. -/
  bound : Nat
  rest : List Char
  place : Place
  /-- The columns of the open block collections, the innermost first. -/
  indents : List Nat
  /-- Whether a key may start here. -/
  keyAllowed : Bool
  /-- The candidate within the innermost collection. -/
  candidate : Option Candidate
  /-- The candidates within the flow collections around it. -/
  outer : List (Option Candidate)
  lexemes : Array Lexeme

namespace Progress

def start (cs : List Char) : Progress :=
  ⟨cs.length + 1, cs, ⟨0, 0, 0⟩, [], true, none, [], #[]⟩

def inFlow (s : Progress) : Bool := !s.outer.isEmpty

def emit (s : Progress) (l : Lexeme) : Progress := { s with lexemes := s.lexemes.push l }

/-- Go on some characters within the line, each of one byte. -/
def advance (s : Progress) (n : Nat) : Progress :=
  { s with rest := s.rest.drop n, place := s.place.advance n }

/-- Whether a candidate can no longer be a key. -/
def isLost (s : Progress) (c : Candidate) : Bool :=
  c.place.line < s.place.line || c.place.offset + 1024 < s.place.offset

/-- Give up a candidate that is lost. -/
def keep? (s : Progress) : Option Candidate → Option (Option Candidate)
  | none => some none
  | some c =>
    if s.isLost c then (if c.isRequired then none else some none) else some (some c)

/-- Give up all candidates that are lost. -/
def dropLost? (s : Progress) : Option Progress := do
  let candidate ← s.keep? s.candidate
  let outer ← s.outer.mapM s.keep?
  return { s with candidate, outer }

/-- Give up the candidate, which must not be a required one. -/
def dropCandidate? (s : Progress) : Option Progress :=
  if s.candidate.any (·.isRequired) then none else some { s with candidate := none }

/-- Remember the place as a candidate, if a key may start there. -/
def markCandidate? (s : Progress) : Option Progress := do
  if s.keyAllowed then
    let s ← s.dropCandidate?
    let isRequired := !s.inFlow && s.indents.head? == some s.place.column
    return { s with candidate := some ⟨s.place, s.lexemes.size, isRequired⟩ }
  else return s

/-- Open a block collection at a column, if it is deeper than the innermost
    one, by a lexeme at the given position. -/
def openBlock (s : Progress) (column position : Nat) (l : Lexeme) : Progress :=
  if s.inFlow || s.indents.head?.any (column ≤ ·) then s
  else
    { s with
      indents := column :: s.indents
      lexemes := s.lexemes.insertIdxIfInBounds position l }

/-- Close the block collections that a test on their columns picks out, from
    the innermost on. -/
def closeBlocks (s : Progress) (closes : Nat → Bool) : Progress :=
  if s.inFlow then s
  else
    { s with
      indents := s.indents.dropWhile closes
      lexemes := s.lexemes ++ ((s.indents.takeWhile closes).map fun _ => Lexeme.blockEnd).toArray }

/-! ### One lexeme at a time -/

def documentMark? (s : Progress) (l : Lexeme) : Option Progress := do
  let s ← (s.closeBlocks fun _ => true).dropCandidate?
  return { (s.advance 3).emit l with keyAllowed := false }

def openFlow? (s : Progress) (l : Lexeme) : Option Progress := do
  let s ← s.markCandidate?
  return { (s.advance 1).emit l with
    keyAllowed := true
    candidate := none
    outer := s.candidate :: s.outer }

def closeFlow? (s : Progress) (l : Lexeme) : Option Progress := do
  let s ← s.dropCandidate?
  return { (s.advance 1).emit l with
    keyAllowed := false
    candidate := s.outer.head?.join
    outer := s.outer.tail }

def comma? (s : Progress) : Option Progress := do
  let s ← s.dropCandidate?
  return { (s.advance 1).emit .comma with keyAllowed := true }

def dash? (s : Progress) : Option Progress := do
  if !s.inFlow && !s.keyAllowed then none
  else
    let s ← (s.openBlock s.place.column s.lexemes.size .blockSequence).dropCandidate?
    return { (s.advance 1).emit .dash with keyAllowed := true }

/-- Read the question mark before a key, which opens a block mapping if one is
    due.  Outside flow collections that key may itself begin with a key. -/
def question? (s : Progress) : Option Progress := do
  if !s.inFlow && !s.keyAllowed then none
  else
    let s ← (s.openBlock s.place.column s.lexemes.size .blockMapping).dropCandidate?
    return { (s.advance 1).emit .key with keyAllowed := !s.inFlow }

def colon? (s : Progress) : Option Progress :=
  match s.candidate with
  | some c =>
    let s := { s with lexemes := s.lexemes.insertIdxIfInBounds c.position .key }
    let s := s.openBlock c.place.column c.position .blockMapping
    some { (s.advance 1).emit .value with keyAllowed := false, candidate := none }
  | none =>
    if !s.inFlow && !s.keyAllowed then none
    else
      let s := s.openBlock s.place.column s.lexemes.size .blockMapping
      some { (s.advance 1).emit .value with keyAllowed := !s.inFlow }

def quoted? (s : Progress) (isSingle : Bool) : Option Progress := do
  let s ← s.markCandidate?
  let (text, place, rest) ← quotedScalar? isSingle s.bound [] (s.place.advance 1) s.rest.tail
  return { s.emit (.scalar (String.ofList text.reverse) false) with
    rest, place, keyAllowed := false }

/-- Read a plain scalar.  A line break after it allows a key again. -/
def plain? (s : Progress) : Option Progress := do
  let s ← s.markCandidate?
  let leastColumn := match s.indents with
    | column :: _ => column + 1
    | [] => 0
  let (text, broken, place, rest) ←
    plainScalar? s.inFlow leastColumn s.bound [] .empty s.place s.rest
  return { s.emit (.scalar (String.ofList text.reverse) true) with
    rest, place, keyAllowed := broken }

def next? (s : Progress) : Option Progress :=
  match s.rest with
  | [] => none
  | c :: cs =>
    if s.place.column == 0 && c == '%' then none
    else if s.place.column == 0 && startsMark '-' s.rest then s.documentMark? .documentStart
    else if s.place.column == 0 && startsMark '.' s.rest then s.documentMark? .documentEnd
    else if c == '[' then s.openFlow? .flowSequence
    else if c == '\x7b' then s.openFlow? .flowMapping
    else if c == ']' then s.closeFlow? .flowSequenceEnd
    else if c == '\x7d' then s.closeFlow? .flowMappingEnd
    else if c == ',' then s.comma?
    else if c == '-' && startsBlank cs then s.dash?
    else if c == '?' && (s.inFlow || startsBlank cs) then s.question?
    else if c == ':' && (s.inFlow || startsBlank cs) then s.colon?
    else if c == '\'' then s.quoted? true
    else if c == '"' then s.quoted? false
    else if !isSpace c && (!isIndicator c || c == '-' || c == '?' || c == ':') then s.plain?
    else none

/-- Pass over a gap, give up what is lost and close what lies to the right. -/
def settle? (s : Progress) : Option Progress := do
  let (keyAllowed, place, rest) :=
    skipGap s.inFlow false s.keyAllowed s.place s.rest
  let s ← { s with keyAllowed, place, rest }.dropLost?
  return s.closeBlocks fun column => s.place.column < column

def finish? : Nat → Progress → Option (List Lexeme)
  | 0, _ => none
  | fuel + 1, s => do
    let s ← s.settle?
    if s.rest.isEmpty then
      let s ← (s.closeBlocks fun _ => true).dropCandidate?
      return s.lexemes.toList
    else finish? fuel (← s.next?)

end Progress

def lexemes? (cs : List Char) : Option (List Lexeme) :=
  let s := Progress.start cs
  if cs.all isAllowed then s.finish? s.bound else none

end ShapeContracts.Yaml
