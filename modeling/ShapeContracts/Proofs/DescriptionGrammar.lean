/-
  ShapeContracts/Proofs/DescriptionGrammar.lean
  =============================================
  **Which texts describe an array.**

  `Description.Written` is the grammar: a head with a shape and an element type
  on the two sides of its first colon, and behind it a layout and names, each
  given at most once.  Every part has its own grammar, and reading a part
  succeeds just when the part is written by it.

  What is trimmed differs from part to part.  Shape, sizes, element type and
  names may stand between blanks; the layout may not.
-/
import ShapeContracts.Proofs.Numeral
import ShapeContracts.Proofs.Offsets
import ShapeContracts.Proofs.Text

namespace ShapeContracts

/-! ### Words -/

theorem ElementType.read_eq_ok_iff {cs : List Char} {t : ElementType} :
    read (String.ofList cs) = .ok t ↔ cs = t.text.toList := by
  have hword : ofText? (String.ofList cs) = some t ↔ cs = t.text.toList := by
    rw [ofText?_eq_some_iff, eq_comm, ← String.toList_inj, String.toList_ofList]
  rw [← hword, read]
  cases ofText? (String.ofList cs) <;> simp

theorem Layout.read_eq_ok_iff {cs : List Char} {l : Layout} :
    read (String.ofList cs) = .ok l ↔ cs = l.text.toList := by
  have hword : ofText? (String.ofList cs) = some l ↔ cs = l.text.toList := by
    rw [ofText?_eq_some_iff, eq_comm, ← String.toList_inj, String.toList_ofList]
  rw [← hword, read]
  cases ofText? (String.ofList cs) <;> simp

namespace Description

variable {cs head : List Char} {shape : List Size} {names : List (Option String)}
  {layoutText namesText : Option (List Char)} {d : Description} {input : String}

/-! ### Shapes -/

/-- A size between blanks. -/
def WrittenSize (piece : List Char) (n : Size) : Prop :=
  ∃ w, Text.Trimmed piece w ∧ Size.Writes w n

/-- A word for the shape without axes. -/
def IsScalarWord (w : List Char) : Prop := w = "scalar".toList ∨ w = "()".toList

/-- A word for no axis, or sizes between `x`. -/
inductive WrittenShape (cs : List Char) : List Size → Prop
  | scalar {w : List Char} : Text.Trimmed cs w → IsScalarWord w → WrittenShape cs []
  | sizes {w : List Char} {pieces : List (List Char)} {shape : List Size} :
      Text.Trimmed cs w → Text.Joined 'x' pieces w → List.Forall₂ WrittenSize pieces shape →
      WrittenShape cs shape

theorem read_trim_eq_ok_iff {piece : List Char} {n : Size} :
    Size.read (Text.trim piece) = .ok n ↔ WrittenSize piece n := by
  rw [Size.read_eq_ok_iff]
  constructor
  · intro h
    exact ⟨_, Text.trimmed_trim piece, h⟩
  · rintro ⟨w, hw, hwrites⟩
    rwa [Text.trim_eq_iff.mpr hw]

theorem readSizes_eq_ok_iff {w : List Char} :
    readSizes w = .ok shape ↔ List.Forall₂ WrittenSize (Text.pieces 'x' w) shape := by
  simp only [readSizes, mapM_eq_ok_iff, read_trim_eq_ok_iff]

/-- A word for no axis is no size, so it is read in one way only. -/
theorem readSizes_of_isScalarWord {w : List Char} (h : IsScalarWord w) :
    readSizes w = .error .invalidDigit := by
  rcases h with rfl | rfl
  · rfl
  · rfl

theorem readShape_of_isScalarWord {w : List Char} (hw : Text.Trimmed cs w)
    (h : IsScalarWord w) : readShape cs = .ok [] := by
  rw [← Text.trim_eq_iff.mpr hw] at h
  exact if_pos h

theorem readShape_of_not_isScalarWord {w : List Char} (hw : Text.Trimmed cs w)
    (h : ¬ IsScalarWord w) : readShape cs = readSizes w := by
  rw [← Text.trim_eq_iff.mpr hw] at h ⊢
  exact if_neg h

theorem readShape_eq_ok_iff : readShape cs = .ok shape ↔ WrittenShape cs shape := by
  have htrim := Text.trimmed_trim cs
  constructor
  · intro h
    by_cases hword : IsScalarWord (Text.trim cs)
    · rw [readShape_of_isScalarWord htrim hword] at h
      cases h
      exact .scalar htrim hword
    · rw [readShape_of_not_isScalarWord htrim hword] at h
      exact .sizes htrim (Text.pieces_eq_iff.mp rfl) (readSizes_eq_ok_iff.mp h)
  · intro h
    cases h with
    | scalar hw hword => exact readShape_of_isScalarWord hw hword
    | @sizes w pieces _ hw hpieces hsizes =>
      rw [← Text.pieces_eq_iff.mpr hpieces] at hsizes
      have hread := readSizes_eq_ok_iff.mpr hsizes
      have hword : ¬ IsScalarWord w := by
        intro hword
        rw [readSizes_of_isScalarWord hword] at hread
        cases hread
      rwa [readShape_of_not_isScalarWord hw hword]

/-! ### Names -/

/-- A name between blanks; an underscore alone is no name. -/
inductive WrittenName (piece : List Char) : Option String → Prop
  | unnamed : Text.Trimmed piece ['_'] → WrittenName piece none
  | named {w : List Char} :
      Text.Trimmed piece w → w ≠ ['_'] → WrittenName piece (some (String.ofList w))

/-- Names between commas.  No text at all is no name at all, though it has one
    piece. -/
inductive WrittenNames : List Char → List (Option String) → Prop
  | empty : WrittenNames [] []
  | items {cs : List Char} {pieces : List (List Char)} {names : List (Option String)} :
      cs ≠ [] → Text.Joined ',' pieces cs → List.Forall₂ WrittenName pieces names →
      WrittenNames cs names

theorem readName_eq_iff {piece : List Char} {name : Option String} :
    readName piece = name ↔ WrittenName piece name := by
  have htrim := Text.trimmed_trim piece
  constructor
  · rintro rfl
    by_cases hword : Text.trim piece = ['_']
    · rw [show readName piece = none from if_pos hword]
      exact .unnamed (Text.trim_eq_iff.mp hword)
    · rw [show readName piece = some (String.ofList (Text.trim piece)) from if_neg hword]
      exact .named htrim hword
  · intro h
    cases h with
    | unnamed hw => exact if_pos (Text.trim_eq_iff.mpr hw)
    | named hw hword =>
      rw [← Text.trim_eq_iff.mpr hw] at hword ⊢
      exact if_neg hword

theorem readNames_eq_iff : readNames cs = names ↔ WrittenNames cs names := by
  have hpieces : ∀ {pieces : List (List Char)}, pieces.map readName = names ↔
      List.Forall₂ WrittenName pieces names := by
    intro pieces
    rw [← List.forall₂_eq_eq_eq, List.forall₂_map_left_iff]
    simp only [readName_eq_iff]
  by_cases hcs : cs = []
  · rw [show readNames cs = [] from if_pos hcs]
    constructor
    · rintro rfl
      rw [hcs]
      exact .empty
    · intro h
      cases h with
      | empty => rfl
      | items hne => exact absurd hcs hne
  · rw [show readNames cs = (Text.pieces ',' cs).map readName from if_neg hcs, hpieces]
    constructor
    · intro h
      exact .items hcs (Text.pieces_eq_iff.mp rfl) h
    · intro h
      cases h with
      | empty => exact absurd rfl hcs
      | items _ hjoined hnames => rwa [Text.pieces_eq_iff.mpr hjoined]

/-! ### Suffixes -/

theorem readLayout?_eq_ok_iff {layout : Option Layout} :
    readLayout? layoutText = .ok layout ↔
      Option.Rel (fun body l => body = l.text.toList) layoutText layout := by
  cases layoutText with
  | none =>
    constructor
    · intro h
      cases h
      exact .none
    · intro h
      cases h
      rfl
  | some body =>
    rw [readLayout?, map_eq_ok_iff]
    constructor
    · rintro ⟨l, hread, rfl⟩
      exact .some (Layout.read_eq_ok_iff.mp hread)
    · intro h
      cases h with
      | some hbody => exact ⟨_, Layout.read_eq_ok_iff.mpr hbody, rfl⟩

/-- Names are added to a description that has none, one for each axis. -/
theorem addNames_eq_ok_iff {dtype : ElementType} {layout : Option Layout} :
    addNames ⟨shape, dtype, none, layout⟩ namesText = .ok d ↔
      d.shape = shape ∧ d.dtype = dtype ∧ d.layout = layout ∧
        Option.Rel WrittenNames namesText d.names ∧ ∀ ns ∈ d.names, ns.length = shape.length := by
  rcases d with ⟨shape', dtype', names', layout'⟩
  cases namesText with
  | none =>
    simp only [addNames, Except.ok.injEq, mk.injEq]
    constructor
    · rintro ⟨rfl, rfl, rfl, rfl⟩
      exact ⟨rfl, rfl, rfl, .none, by simp⟩
    · rintro ⟨rfl, rfl, rfl, hnames, -⟩
      cases hnames
      exact ⟨rfl, rfl, rfl, rfl⟩
  | some cs =>
    rw [addNames, mapError_eq_ok_iff, withNames]
    split
    next hlength =>
      simp only [Except.ok.injEq, mk.injEq]
      constructor
      · rintro ⟨rfl, rfl, rfl, rfl⟩
        exact ⟨rfl, rfl, rfl, .some (readNames_eq_iff.mp rfl), by simpa using hlength⟩
      · rintro ⟨rfl, rfl, rfl, hnames, -⟩
        cases hnames with
        | some hwritten => exact ⟨rfl, rfl, by rw [readNames_eq_iff.mpr hwritten], rfl⟩
    next hlength =>
      constructor
      · intro h
        cases h
      · rintro ⟨-, -, -, hnames, hcount⟩
        cases hnames with
        | some hwritten =>
          rw [← readNames_eq_iff.mpr hwritten] at hcount
          exact absurd (hcount _ rfl) hlength

/-! ### Descriptions -/

/-- A text that describes an array. -/
def Written (d : Description) (cs : List Char) : Prop :=
  ∃ head layoutText namesText shapeText dtypeText,
    Layered cs head layoutText namesText ∧
    head = shapeText ++ ':' :: dtypeText ∧ ':' ∉ shapeText ∧
    WrittenShape shapeText d.shape ∧
    Text.Trimmed dtypeText d.dtype.text.toList ∧
    Option.Rel (fun body l => body = l.text.toList) layoutText d.layout ∧
    Option.Rel WrittenNames namesText d.names ∧
    ∀ names ∈ d.names, names.length = d.shape.length

/-- The parts of a description are read one after the other. -/
theorem readParts_eq (input : String) (head : List Char)
    (layoutText namesText : Option (List Char)) :
    readParts input head layoutText namesText =
      (readLayout? layoutText).bind fun layout =>
        match Text.cut? ':' head with
        | none => .error (.invalidDescription input .noColon)
        | some (shapeText, dtypeText) =>
          (ElementType.read (String.ofList (Text.trim dtypeText))).bind fun dtype =>
            ((readShape shapeText).mapError fun e => .invalidDescription input (.badSize e)).bind
              fun shape => addNames ⟨shape, dtype, none, layout⟩ namesText := by
  unfold readParts
  rcases readLayout? layoutText with _ | layout
  · rfl
  · rcases Text.cut? ':' head with _ | ⟨shapeText, dtypeText⟩
    · rfl
    · rfl

theorem readParts_eq_ok_iff :
    readParts input head layoutText namesText = .ok d ↔
      ∃ shapeText dtypeText, head = shapeText ++ ':' :: dtypeText ∧ ':' ∉ shapeText ∧
        WrittenShape shapeText d.shape ∧ Text.Trimmed dtypeText d.dtype.text.toList ∧
        Option.Rel (fun body l => body = l.text.toList) layoutText d.layout ∧
        Option.Rel WrittenNames namesText d.names ∧
        ∀ names ∈ d.names, names.length = d.shape.length := by
  rw [readParts_eq, bind_eq_ok_iff]
  constructor
  · rintro ⟨layout, hlayout, hparts⟩
    rcases hcut : Text.cut? ':' head with _ | ⟨shapeText, dtypeText⟩
    · rw [hcut] at hparts
      cases hparts
    · rw [hcut] at hparts
      rcases bind_eq_ok_iff.mp hparts with ⟨dtype, hdtype, hparts⟩
      rcases bind_eq_ok_iff.mp hparts with ⟨shape, hshape, hnames⟩
      rcases addNames_eq_ok_iff.mp hnames with ⟨rfl, rfl, rfl, hnames, hcount⟩
      rcases Text.cut?_eq_some_iff.mp hcut with ⟨hhead, hfree⟩
      exact ⟨shapeText, dtypeText, hhead, hfree,
        readShape_eq_ok_iff.mp (mapError_eq_ok_iff.mp hshape),
        Text.trim_eq_iff.mp (ElementType.read_eq_ok_iff.mp hdtype),
        readLayout?_eq_ok_iff.mp hlayout, hnames, hcount⟩
  · rintro ⟨shapeText, dtypeText, hhead, hfree, hshape, hdtype, hlayout, hnames, hcount⟩
    refine ⟨d.layout, readLayout?_eq_ok_iff.mpr hlayout, ?_⟩
    rw [Text.cut?_eq_some_iff.mpr ⟨hhead, hfree⟩]
    refine bind_eq_ok_iff.mpr ⟨d.dtype, ?_, bind_eq_ok_iff.mpr ⟨d.shape, ?_, ?_⟩⟩
    · exact ElementType.read_eq_ok_iff.mpr (Text.trim_eq_iff.mpr hdtype)
    · exact mapError_eq_ok_iff.mpr (readShape_eq_ok_iff.mpr hshape)
    · exact addNames_eq_ok_iff.mpr ⟨rfl, rfl, rfl, hnames, hcount⟩

theorem read_of_layered (h : Layered input.toList head layoutText namesText) :
    read input = readParts input head layoutText namesText := by
  rcases layered_iff.mp h with ⟨hnone, rfl, rfl, rfl⟩
  simp only [read, hnone]

theorem read_of_repeatedMarker {marker : Char}
    (h : repeatedMarker? [] (segments input.toList).2 = some marker) :
    read input = .error (.invalidDescription input (.repeatedMarker marker)) := by
  simp only [read, h]

/-- **The texts that describe an array are those of the grammar.**  Reading a text
    always comes to an end, also when the text is cut by offsets, and gives the
    description that the text writes, or an error where it writes none. -/
theorem read_eq_ok_iff_written (input : String) :
    readByOffsets? input = some (read input) ∧
      ∀ d, read input = .ok d ↔ Written d input.toList := by
  refine ⟨readByOffsets?_eq input, fun d => ⟨fun h => ?_, fun h => ?_⟩⟩
  · rcases hrepeated : repeatedMarker? [] (segments input.toList).2 with _ | marker
    · have hlayered : Layered input.toList _ _ _ := layered_iff.mpr ⟨hrepeated, rfl, rfl, rfl⟩
      rw [read_of_layered hlayered] at h
      rcases readParts_eq_ok_iff.mp h with ⟨shapeText, dtypeText, hparts⟩
      exact ⟨_, _, _, shapeText, dtypeText, hlayered, hparts⟩
    · rw [read_of_repeatedMarker hrepeated] at h
      cases h
  · rcases h with ⟨head, layoutText, namesText, shapeText, dtypeText, hlayered, hparts⟩
    rw [read_of_layered hlayered]
    exact readParts_eq_ok_iff.mpr ⟨shapeText, dtypeText, hparts⟩

/-- Blanks are trimmed around a size and a name, and a name may have a colon. -/
example : read " 2 x +03 :f32 #a:b, _ " =
    .ok ⟨[2, 3], .f32, some [some "a:b", none], none⟩ := by
  decide

end Description

end ShapeContracts
