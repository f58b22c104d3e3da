/-
  ShapeContracts/Document/Yaml/Reader.lean
  ========================================
  **Reading YAML.**

  The lexemes of a text are put together into one document.  In a block a dash
  at the column of its mapping opens a sequence without a mark of its own; a
  value, a key or an item may be left out and is then blank; in a flow
  sequence a key with its value is a mapping of one entry.

  A text without any document is a blank one, and a text with a second
  document is refused.
-/
import ShapeContracts.Document.Yaml.Lexeme
import ShapeContracts.Document.Yaml.Plain

namespace ShapeContracts.Yaml

/-- A scalar as a node.  Its characters always serve as a name. -/
def scalarNode (text : String) (isPlain : Bool) : Node :=
  .leaf (if isPlain then plain text else .text text) (some text)

/-- Whether the next lexeme ends what could stand here. -/
def nothingBefore (ends : List Lexeme) : List Lexeme → Bool
  | [] => true
  | l :: _ => ends.contains l

mutual

/-- Read a value.  `inBlock` allows block collections, `dashes` a sequence
    without a mark of its own.  The fuel bounds the nesting and the number of
    parts; twice the number of lexemes is enough. -/
def node? : Nat → Bool → Bool → List Lexeme → Option (Node × List Lexeme)
  | 0, _, _, _ => none
  | fuel + 1, inBlock, dashes, ls =>
    match ls with
    | .scalar text isPlain :: ls => some (scalarNode text isPlain, ls)
    | .flowSequence :: .flowSequenceEnd :: ls => some (.sequence [], ls)
    | .flowSequence :: ls => (flowItems? fuel ls).map fun r => (.sequence r.1, r.2)
    | .flowMapping :: .flowMappingEnd :: ls => some (.mapping [], ls)
    | .flowMapping :: ls => (flowEntries? fuel ls).map fun r => (.mapping r.1, r.2)
    | .dash :: ls =>
      if dashes then (dashedItems? fuel (.dash :: ls)).map fun r => (.sequence r.1, r.2) else none
    | .blockSequence :: ls =>
      if inBlock then (blockItems? fuel ls).map fun r => (.sequence r.1, r.2) else none
    | .blockMapping :: ls =>
      if inBlock then (blockEntries? fuel ls).map fun r => (.mapping r.1, r.2) else none
    | _ => none

/-- Read a value, or a blank one where the next lexeme is one of those that
    can follow it. -/
def nodeOrBlank? : Nat → Bool → Bool → List Lexeme → List Lexeme → Option (Node × List Lexeme)
  | 0, _, _, _, _ => none
  | fuel + 1, inBlock, dashes, ends, ls =>
    if nothingBefore ends ls then some (.blank, ls) else node? fuel inBlock dashes ls

def blockItems? : Nat → List Lexeme → Option (List Node × List Lexeme)
  | 0, _ => none
  | fuel + 1, ls =>
    match ls with
    | .dash :: ls => do
      let (item, ls) ← nodeOrBlank? fuel true false [.dash, .blockEnd] ls
      let (items, ls) ← blockItems? fuel ls
      return (item :: items, ls)
    | .blockEnd :: ls => some ([], ls)
    | _ => none

/-- Read the items of a sequence without a mark of its own. -/
def dashedItems? : Nat → List Lexeme → Option (List Node × List Lexeme)
  | 0, _ => none
  | fuel + 1, ls =>
    match ls with
    | .dash :: ls => do
      let (item, ls) ← nodeOrBlank? fuel true false [.dash, .key, .value, .blockEnd] ls
      let (items, ls) ← dashedItems? fuel ls
      return (item :: items, ls)
    | _ => some ([], ls)

def blockEntries? : Nat → List Lexeme → Option (List (Node × Node) × List Lexeme)
  | 0, _ => none
  | fuel + 1, ls =>
    match ls with
    | .key :: ls => do
      let (key, ls) ← nodeOrBlank? fuel true true [.key, .value, .blockEnd] ls
      let (value, ls) ←
        match ls with
        | .value :: ls => nodeOrBlank? fuel true true [.key, .value, .blockEnd] ls
        | _ => some (.blank, ls)
      let (entries, ls) ← blockEntries? fuel ls
      return ((key, value) :: entries, ls)
    | .blockEnd :: ls => some ([], ls)
    | _ => none

/-- Read the items of a flow sequence up to its bracket.  Where the key of an
    entry is left out, the lexeme that shows it counts for nothing else. -/
def flowItems? : Nat → List Lexeme → Option (List Node × List Lexeme)
  | 0, _ => none
  | fuel + 1, ls => do
    let (item, ls) ←
      match ls with
      | .key :: ls => do
        let (key, ls) ←
          if nothingBefore [.value, .comma, .flowSequenceEnd] ls then some (.blank, ls.tail)
          else node? fuel false false ls
        let (value, ls) ←
          match ls with
          | .value :: ls => nodeOrBlank? fuel false false [.comma, .flowSequenceEnd] ls
          | _ => some (.blank, ls)
        some (.mapping [(key, value)], ls)
      | _ => node? fuel false false ls
    match ls with
    | .comma :: .flowSequenceEnd :: ls => return ([item], ls)
    | .comma :: ls =>
      let (items, ls) ← flowItems? fuel ls
      return (item :: items, ls)
    | .flowSequenceEnd :: ls => return ([item], ls)
    | _ => none

def flowEntries? : Nat → List Lexeme → Option (List (Node × Node) × List Lexeme)
  | 0, _ => none
  | fuel + 1, ls => do
    let (entry, ls) ←
      match ls with
      | .key :: ls => do
        let (key, ls) ← nodeOrBlank? fuel false false [.value, .comma, .flowMappingEnd] ls
        let (value, ls) ←
          match ls with
          | .value :: ls => nodeOrBlank? fuel false false [.comma, .flowMappingEnd] ls
          | _ => some (.blank, ls)
        some ((key, value), ls)
      | _ => (node? fuel false false ls).map fun r => ((r.1, .blank), r.2)
    match ls with
    | .comma :: .flowMappingEnd :: ls => return ([entry], ls)
    | .comma :: ls =>
      let (entries, ls) ← flowEntries? fuel ls
      return (entry :: entries, ls)
    | .flowMappingEnd :: ls => return ([entry], ls)
    | _ => none

end

/-- Put lexemes together into the only document there is. -/
def document? (ls : List Lexeme) : Option Node := do
  let fuel := 4 * ls.length + 4
  let (node, ls) ←
    match ls with
    | [] => some (.blank, [])
    | .documentStart :: ls => nodeOrBlank? fuel true false [.documentStart, .documentEnd] ls
    | _ => node? fuel true false ls
  if ls.all (· == .documentEnd) then some node else none

def read? (text : String) : Option Node := (lexemes? text.toList).bind document?

end ShapeContracts.Yaml
