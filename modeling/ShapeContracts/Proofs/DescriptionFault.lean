/-
  ShapeContracts/Proofs/DescriptionFault.lean
  ===========================================
  **What is wrong with a text that describes no array.**

  A text can be wrong in several of its parts, and the error is that of the first
  wrong part in a fixed order, `Part.inOrder`.  `Part.Fails` says of each part when
  it is wrong and with which error, from the texts that the description is made
  of and not from how they were found.

  The order is that of the parts, not of the text: the suffixes may stand in
  either order and the outcome is the same, but for the text shown in an error
  (`read_of_layered` and `readParts_echoing`).
-/
import ShapeContracts.Proofs.Blame
import ShapeContracts.Proofs.DescriptionGrammar

namespace ShapeContracts

/-- The error of the same fault in another text. -/
def ReadError.echoing (input : String) : ReadError → ReadError
  | .invalidDescription _ flaw => .invalidDescription input flaw
  | e => e

theorem ElementType.read_eq_error_iff {cs : List Char} {e : ReadError} :
    read (String.ofList cs) = .error e ↔
      (∀ t : ElementType, cs ≠ t.text.toList) ∧ e = .unknownElementType (String.ofList cs) := by
  simp only [ne_eq, ← read_eq_ok_iff, read]
  cases ofText? (String.ofList cs) <;> simp [eq_comm]

theorem Layout.read_eq_error_iff {cs : List Char} {e : ReadError} :
    read (String.ofList cs) = .error e ↔
      (∀ l : Layout, cs ≠ l.text.toList) ∧ e = .unknownLayout (String.ofList cs) := by
  simp only [ne_eq, ← read_eq_ok_iff, read]
  cases ofText? (String.ofList cs) <;> simp [eq_comm]

namespace Description

variable {cs head : List Char} {layoutText namesText : Option (List Char)} {input : String}
  {e : ReadError}

/-! ### Wrong parts -/

/-- The parts of a description that can be wrong. -/
inductive Part
  | markers
  | layout
  | colon
  | elementType
  | sizes
  | names
deriving DecidableEq, Repr

/-- The order in which the parts are looked at. -/
def Part.inOrder : List Part := [.markers, .layout, .colon, .elementType, .sizes, .names]

/-- What is wrong with the text of one size. -/
def MisreadSize (piece : List Char) (r : SizeError) : Prop :=
  ∃ w, Text.Trimmed piece w ∧ Size.Misread w r

theorem read_trim_eq_error_iff {piece : List Char} {r : SizeError} :
    Size.read (Text.trim piece) = .error r ↔ MisreadSize piece r := by
  rw [Size.read_eq_error_iff]
  constructor
  · intro h
    exact ⟨_, Text.trimmed_trim piece, h⟩
  · rintro ⟨w, hw, hmisread⟩
    rwa [Text.trim_eq_iff.mpr hw]

/-- When a part of a text is wrong, and the error that goes with it. -/
inductive Part.Fails (input : String) : Part → ReadError → Prop
  /-- The first marker that was there before. -/
  | markers {front back : List Char} {marker : Char} :
      input.toList = front ++ marker :: back → isMarker marker = true → marker ∈ front →
      (front.filter isMarker).Nodup →
      Fails input .markers (.invalidDescription input (.repeatedMarker marker))
  | layout {head body : List Char} {namesText : Option (List Char)} :
      Layered input.toList head (some body) namesText →
      (∀ l : Layout, body ≠ l.text.toList) →
      Fails input .layout (.unknownLayout (String.ofList body))
  | colon {head : List Char} {layoutText namesText : Option (List Char)} :
      Layered input.toList head layoutText namesText → ':' ∉ head →
      Fails input .colon (.invalidDescription input .noColon)
  | elementType {head shapeText dtypeText w : List Char}
      {layoutText namesText : Option (List Char)} :
      Layered input.toList head layoutText namesText →
      head = shapeText ++ ':' :: dtypeText → ':' ∉ shapeText →
      Text.Trimmed dtypeText w → (∀ t : ElementType, w ≠ t.text.toList) →
      Fails input .elementType (.unknownElementType (String.ofList w))
  /-- The first wrong size from the left. -/
  | sizes {head shapeText dtypeText w : List Char} {layoutText namesText : Option (List Char)}
      {pieces : List (List Char)} {r : SizeError} :
      Layered input.toList head layoutText namesText →
      head = shapeText ++ ':' :: dtypeText → ':' ∉ shapeText →
      Text.Trimmed shapeText w → ¬ IsScalarWord w → Text.Joined 'x' pieces w →
      FirstFault MisreadSize pieces r →
      Fails input .sizes (.invalidDescription input (.badSize r))
  | names {head shapeText dtypeText body : List Char} {layoutText : Option (List Char)}
      {shape : List Size} {names : List (Option String)} :
      Layered input.toList head layoutText (some body) →
      head = shapeText ++ ':' :: dtypeText → ':' ∉ shapeText →
      WrittenShape shapeText shape → WrittenNames body names →
      names.length ≠ shape.length →
      Fails input .names (.nameCount ⟨names.length, shape.length⟩)

/-! ### Words and sizes -/

theorem MisreadSize.unique (piece : List Char) (r₁ r₂ : SizeError) (h₁ : MisreadSize piece r₁)
    (h₂ : MisreadSize piece r₂) : r₁ = r₂ := by
  rw [← read_trim_eq_error_iff] at h₁ h₂
  rw [h₁] at h₂
  cases h₂
  rfl

/-- Sizes are read from the left, and the first that is wrong ends it. -/
theorem readSizes_eq_error_iff {w : List Char} {r : SizeError} :
    readSizes w = .error r ↔ FirstFault MisreadSize (Text.pieces 'x' w) r := by
  have hblames : Blames MisreadSize ((Text.pieces 'x' w).flatMap fun piece => [piece])
      (readSizes w) :=
    Blames.mapM fun piece _ => .singleton fun r => read_trim_eq_error_iff.symm
  rw [List.flatMap_singleton'] at hblames
  exact hblames.eq_error_iff MisreadSize.unique

theorem readShape_eq_error_iff {r : SizeError} : readShape cs = .error r ↔
    ∃ w pieces, Text.Trimmed cs w ∧ ¬ IsScalarWord w ∧ Text.Joined 'x' pieces w ∧
      FirstFault MisreadSize pieces r := by
  have htrim := Text.trimmed_trim cs
  constructor
  · intro h
    have hword : ¬ IsScalarWord (Text.trim cs) := by
      intro hword
      rw [readShape_of_isScalarWord htrim hword] at h
      cases h
    rw [readShape_of_not_isScalarWord htrim hword] at h
    exact ⟨_, _, htrim, hword, Text.pieces_eq_iff.mp rfl, readSizes_eq_error_iff.mp h⟩
  · rintro ⟨w, pieces, hw, hword, hjoined, hfirst⟩
    rw [readShape_of_not_isScalarWord hw hword, readSizes_eq_error_iff,
      Text.pieces_eq_iff.mpr hjoined]
    exact hfirst

/-! ### Single parts -/

theorem markers_fails_iff : Part.Fails input .markers e ↔
    ∃ marker, repeatedMarker? [] (segments input.toList).2 = some marker ∧
      e = .invalidDescription input (.repeatedMarker marker) := by
  constructor
  · intro h
    cases h with
    | markers hinput hmarker hmem hnodup =>
      exact ⟨_, repeatedMarker?_segments_eq_some_iff.mpr ⟨_, _, hinput, hmarker, hmem, hnodup⟩, rfl⟩
  · rintro ⟨marker, hrepeated, rfl⟩
    rcases repeatedMarker?_segments_eq_some_iff.mp hrepeated with
      ⟨front, back, hinput, hmarker, hmem, hnodup⟩
    exact .markers hinput hmarker hmem hnodup

theorem Layered.unique {head' : List Char} {layoutText' namesText' : Option (List Char)}
    (h : Layered cs head layoutText namesText) (h' : Layered cs head' layoutText' namesText') :
    head = head' ∧ layoutText = layoutText' ∧ namesText = namesText' := by
  rcases layered_iff.mp h with ⟨-, rfl, rfl, rfl⟩
  exact (layered_iff.mp h').2

theorem cut_unique {shapeText dtypeText shapeText' dtypeText' : List Char}
    (hhead : head = shapeText ++ ':' :: dtypeText) (hfree : ':' ∉ shapeText)
    (hhead' : head = shapeText' ++ ':' :: dtypeText') (hfree' : ':' ∉ shapeText') :
    shapeText = shapeText' ∧ dtypeText = dtypeText' := by
  have hcut := Text.cut?_eq_some_iff.mpr ⟨hhead, hfree⟩
  rw [Text.cut?_eq_some_iff.mpr ⟨hhead', hfree'⟩] at hcut
  cases hcut
  exact ⟨rfl, rfl⟩

section

variable (hlayered : Layered input.toList head layoutText namesText)

include hlayered

theorem layout_fails_iff : Part.Fails input .layout e ↔ readLayout? layoutText = .error e := by
  constructor
  · intro h
    cases h with
    | layout hlayered' hnone =>
      rcases hlayered.unique hlayered' with ⟨-, rfl, -⟩
      exact map_eq_error_iff.mpr (Layout.read_eq_error_iff.mpr ⟨hnone, rfl⟩)
  · intro h
    cases layoutText with
    | none => cases h
    | some body =>
      rcases Layout.read_eq_error_iff.mp (map_eq_error_iff.mp h) with ⟨hnone, rfl⟩
      exact .layout hlayered hnone

theorem colon_fails_iff : Part.Fails input .colon e ↔
    ':' ∉ head ∧ e = .invalidDescription input .noColon := by
  constructor
  · intro h
    cases h with
    | colon hlayered' hcolon =>
      rcases hlayered.unique hlayered' with ⟨rfl, -, -⟩
      exact ⟨hcolon, rfl⟩
  · rintro ⟨hcolon, rfl⟩
    exact .colon hlayered hcolon

variable {shapeText dtypeText : List Char} (hhead : head = shapeText ++ ':' :: dtypeText)
  (hfree : ':' ∉ shapeText)

include hhead hfree

theorem elementType_fails_iff : Part.Fails input .elementType e ↔
    ElementType.read (String.ofList (Text.trim dtypeText)) = .error e := by
  rw [ElementType.read_eq_error_iff]
  constructor
  · intro h
    cases h with
    | elementType hlayered' hhead' hfree' hw hnone =>
      rcases hlayered.unique hlayered' with ⟨rfl, -, -⟩
      rcases cut_unique hhead hfree hhead' hfree' with ⟨-, rfl⟩
      rw [Text.trim_eq_iff.mpr hw]
      exact ⟨hnone, rfl⟩
  · rintro ⟨hnone, rfl⟩
    exact .elementType hlayered hhead hfree (Text.trimmed_trim dtypeText) hnone

theorem sizes_fails_iff : Part.Fails input .sizes e ↔
    ((readShape shapeText).mapError fun r => .invalidDescription input (.badSize r)) =
      .error e := by
  rw [mapError_eq_error_iff]
  constructor
  · intro h
    cases h with
    | sizes hlayered' hhead' hfree' hw hword hjoined hfirst =>
      rcases hlayered.unique hlayered' with ⟨rfl, -, -⟩
      rcases cut_unique hhead hfree hhead' hfree' with ⟨rfl, -⟩
      exact ⟨_, readShape_eq_error_iff.mpr ⟨_, _, hw, hword, hjoined, hfirst⟩, rfl⟩
  · rintro ⟨r, hshape, rfl⟩
    rcases readShape_eq_error_iff.mp hshape with ⟨w, pieces, hw, hword, hjoined, hfirst⟩
    exact .sizes hlayered hhead hfree hw hword hjoined hfirst

theorem names_fails_iff {shape : List Size} (hshape : WrittenShape shapeText shape)
    (dtype : ElementType) (layout : Option Layout) : Part.Fails input .names e ↔
    addNames ⟨shape, dtype, none, layout⟩ namesText = .error e := by
  constructor
  · intro h
    cases h with
    | @names _ _ _ _ _ shape' names hlayered' hhead' hfree' hshape' hnames hcount =>
      rcases hlayered.unique hlayered' with ⟨rfl, -, rfl⟩
      rcases cut_unique hhead hfree hhead' hfree' with ⟨rfl, -⟩
      have hsame : shape = shape' := by
        have hread := readShape_eq_ok_iff.mpr hshape
        rw [readShape_eq_ok_iff.mpr hshape'] at hread
        exact (Except.ok.inj hread).symm
      subst hsame
      rw [addNames, readNames_eq_iff.mpr hnames, withNames, if_neg hcount]
      rfl
  · intro h
    cases namesText with
    | none => cases h
    | some body =>
      rcases mapError_eq_error_iff.mp h with ⟨count, hcount, rfl⟩
      rw [withNames] at hcount
      split at hcount
      next => cases hcount
      next hlength =>
        cases hcount
        exact .names hlayered hhead hfree hshape (readNames_eq_iff.mp rfl) hlength

end

/-! ### The first wrong part -/

theorem blames_readParts (hlayered : Layered input.toList head layoutText namesText) :
    Blames (Part.Fails input) [.layout, .colon, .elementType, .sizes, .names]
      (readParts input head layoutText namesText) := by
  rw [readParts_eq]
  refine Blames.bind (.singleton fun e => layout_fails_iff hlayered) fun layout _ => ?_
  rcases hcut : Text.cut? ':' head with _ | ⟨shapeText, dtypeText⟩
  · have hcolon : ':' ∉ head := Text.cut?_eq_none_iff.mp hcut
    exact FirstFault.head ((colon_fails_iff hlayered).mpr ⟨hcolon, rfl⟩)
  · rcases Text.cut?_eq_some_iff.mp hcut with ⟨hhead, hfree⟩
    refine Blames.cons ?_ fun e hfails => ?_
    · refine Blames.bind (.singleton fun e => elementType_fails_iff hlayered hhead hfree)
        fun dtype _ => ?_
      refine Blames.bind (.singleton fun e => sizes_fails_iff hlayered hhead hfree)
        fun shape hshape => ?_
      have hwritten := readShape_eq_ok_iff.mp (mapError_eq_ok_iff.mp hshape)
      exact .singleton fun e => names_fails_iff hlayered hhead hfree hwritten dtype layout
    · refine ((colon_fails_iff hlayered).mp hfails).1 ?_
      rw [hhead]
      simp

theorem blames_read (input : String) : Blames (Part.Fails input) Part.inOrder (read input) := by
  rcases hrepeated : repeatedMarker? [] (segments input.toList).2 with _ | marker
  · have hlayered : Layered input.toList _ _ _ := layered_iff.mpr ⟨hrepeated, rfl, rfl, rfl⟩
    rw [read_of_layered hlayered]
    refine Blames.cons (blames_readParts hlayered) fun e hfails => ?_
    rcases markers_fails_iff.mp hfails with ⟨marker, hmarker, -⟩
    rw [hrepeated] at hmarker
    cases hmarker
  · rw [read_of_repeatedMarker hrepeated]
    exact FirstFault.head (markers_fails_iff.mpr ⟨marker, hrepeated, rfl⟩)

/-- A part is wrong in one way only. -/
theorem Part.Fails.unique (part : Part) (e₁ e₂ : ReadError) (h₁ : part.Fails input e₁)
    (h₂ : part.Fails input e₂) : e₁ = e₂ := by
  have hfails := h₁
  cases h₁ with
  | markers =>
    rcases markers_fails_iff.mp hfails with ⟨marker₁, hmarker₁, heq⟩
    rcases markers_fails_iff.mp h₂ with ⟨marker₂, hmarker₂, rfl⟩
    rw [hmarker₁] at hmarker₂
    cases hmarker₂
    exact heq
  | layout hlayered => exact fault_unique (fun e => layout_fails_iff hlayered) hfails h₂
  | colon hlayered => exact ((colon_fails_iff hlayered).mp h₂).2.symm
  | elementType hlayered hhead hfree =>
    exact fault_unique (fun e => elementType_fails_iff hlayered hhead hfree) hfails h₂
  | sizes hlayered hhead hfree =>
    exact fault_unique (fun e => sizes_fails_iff hlayered hhead hfree) hfails h₂
  | names hlayered hhead hfree hshape =>
    exact fault_unique (fun e => names_fails_iff hlayered hhead hfree hshape .bool none) hfails h₂

/-! ### The order of the suffixes -/

theorem mapError_readLayout? (other : String) (text : Option (List Char)) :
    (readLayout? text).mapError (.echoing other) = readLayout? text := by
  cases text with
  | none => rfl
  | some body =>
    rw [readLayout?, Layout.read]
    cases Layout.ofText? (String.ofList body) <;> rfl

theorem mapError_elementType_read (other word : String) :
    (ElementType.read word).mapError (.echoing other) = ElementType.read word := by
  rw [ElementType.read]
  cases ElementType.ofText? word <;> rfl

theorem mapError_addNames (other : String) (d : Description) (text : Option (List Char)) :
    (addNames d text).mapError (.echoing other) = addNames d text := by
  cases text with
  | none => rfl
  | some body =>
    rw [addNames]
    cases d.withNames (readNames body) <;> rfl

/-- The whole text does not matter to what is read, and is only shown in errors. -/
theorem readParts_echoing (input other : String) (head : List Char)
    (layoutText namesText : Option (List Char)) :
    readParts other head layoutText namesText =
      (readParts input head layoutText namesText).mapError (.echoing other) := by
  rw [readParts_eq, readParts_eq, mapError_bind, mapError_readLayout?]
  congr
  funext layout
  rcases Text.cut? ':' head with _ | ⟨shapeText, dtypeText⟩
  · rfl
  · dsimp only
    rw [mapError_bind, mapError_elementType_read]
    congr
    funext dtype
    rcases readShape shapeText with r | shape
    · rfl
    · exact (mapError_addNames other ⟨shape, dtype, none, layout⟩ namesText).symm

/-- **The suffixes may stand in either order, and the first wrong part gives the
    error.**  A text read with its suffixes the other way round gives the same
    array, or the same error but for the text shown. -/
theorem read_fixed_precedence :
    (∀ h l n : String, MarkerFree h.toList → MarkerFree l.toList → MarkerFree n.toList →
      read (h ++ "#" ++ n ++ "@" ++ l) =
        (read (h ++ "@" ++ l ++ "#" ++ n)).mapError
          (.echoing (h ++ "#" ++ n ++ "@" ++ l)) ∧
      read (h ++ "@" ++ l ++ "#" ++ n) =
        (read (h ++ "#" ++ n ++ "@" ++ l)).mapError
          (.echoing (h ++ "@" ++ l ++ "#" ++ n))) ∧
    ∀ input e, read input = .error e ↔ FirstFault (Part.Fails input) Part.inOrder e := by
  constructor
  · intro h l n hh hl hn
    have hlayout : ∀ body ∈ some l.toList, MarkerFree body := by simpa using hl
    have hnames : ∀ body ∈ some n.toList, MarkerFree body := by simpa using hn
    have hlayoutFirst : Layered (h ++ "@" ++ l ++ "#" ++ n).toList h.toList (some l.toList)
        (some n.toList) :=
      ⟨hh, hlayout, hnames, .inl (by simp [suffixText, layoutMarker, nameMarker])⟩
    have hnamesFirst : Layered (h ++ "#" ++ n ++ "@" ++ l).toList h.toList (some l.toList)
        (some n.toList) :=
      ⟨hh, hlayout, hnames, .inr (by simp [suffixText, layoutMarker, nameMarker])⟩
    rw [read_of_layered hlayoutFirst, read_of_layered hnamesFirst]
    constructor
    · exact readParts_echoing _ _ _ _ _
    · exact readParts_echoing _ _ _ _ _
  · intro input e
    exact (blames_read input).eq_error_iff Part.Fails.unique

/-- A size and the element type are wrong as well, but the layout comes first. -/
example : read "2xq:f31#a@dense" = .error (.unknownLayout "dense") := by
  decide

end Description

end ShapeContracts
