/-
  ShapeContracts/Proofs/Offsets.lean
  ==================================
  **Cutting a description by offsets.**

  A text is stored as bytes, and a place in it is a number of bytes.  Cutting at
  an offset inside a character, or behind the end, gives nothing
  (`Text.splitAt?`).  A description can be cut so, marker by marker, each suffix
  into its own slot (`Description.scan?`).

  No offset is ever a bad one, because each is found by looking for a marker or
  is the one byte that a marker takes.  What the slots hold in the end is what
  cutting at the markers gives (`Description.scan?_joined`), so reading by offsets
  always gives an outcome, and the same (`Description.readByOffsets?_eq`).
-/
import ShapeContracts.Proofs.Suffixes

namespace ShapeContracts

namespace Text

variable {cs front back : List Char} {n : Nat} {p : Char → Bool}

/-! ### Offsets -/

/-- The number of bytes that a text takes. -/
def byteLength : List Char → Nat
  | [] => 0
  | c :: cs => c.utf8Size + byteLength cs

/-- The texts before and after an offset. -/
def splitAt? : Nat → List Char → Option (List Char × List Char)
  | 0, cs => some ([], cs)
  | _ + 1, [] => none
  | n + 1, c :: cs =>
    if c.utf8Size ≤ n + 1 then (splitAt? (n + 1 - c.utf8Size) cs).map fun r => (c :: r.1, r.2)
    else none

/-- The offset of the first character of a class. -/
def offset? (p : Char → Bool) : List Char → Option Nat
  | [] => none
  | c :: cs => if p c then some 0 else (offset? p cs).map (c.utf8Size + ·)

theorem splitAt?_byteLength (front back : List Char) :
    splitAt? (byteLength front) (front ++ back) = some (front, back) := by
  induction front with
  | nil => rw [byteLength, splitAt?, List.nil_append]
  | cons c front ih =>
    rcases Nat.exists_eq_succ_of_ne_zero (Nat.pos_iff_ne_zero.mp c.utf8Size_pos) with ⟨k, hk⟩
    have hlength : byteLength (c :: front) = (k + byteLength front) + 1 := by
      rw [byteLength, hk]
      omega
    have hrest : k + byteLength front + 1 - c.utf8Size = byteLength front := by omega
    rw [hlength, List.cons_append, splitAt?, if_pos (by omega), hrest, ih]
    rfl

/-- Cutting loses nothing, and cuts off nothing only at the offset zero. -/
theorem eq_append_of_splitAt? (h : splitAt? n cs = some (front, back)) :
    cs = front ++ back ∧ (front = [] → n = 0) := by
  induction cs generalizing n front with
  | nil =>
    cases n with
    | zero =>
      cases h
      exact ⟨rfl, fun _ => rfl⟩
    | succ n => cases h
  | cons c cs ih =>
    cases n with
    | zero =>
      cases h
      exact ⟨rfl, fun _ => rfl⟩
    | succ n =>
      rw [splitAt?] at h
      split at h
      · rcases Option.map_eq_some_iff.mp h with ⟨⟨front', back'⟩, hcut, heq⟩
        cases heq
        rw [(ih hcut).1]
        exact ⟨rfl, fun hnil => by cases hnil⟩
      · cases h

theorem offset?_append (hfront : ∀ c ∈ front, p c = false) (hback : ∀ c ∈ back.head?, p c = true) :
    offset? p (front ++ back) = if back = [] then none else some (byteLength front) := by
  induction front with
  | nil =>
    cases back with
    | nil => rfl
    | cons c back => simp [offset?, hback c rfl, byteLength]
  | cons c front ih =>
    have hc : p c = false := hfront c (by simp)
    rw [List.cons_append, offset?, if_neg (by simp [hc]), ih fun d hd => hfront d (by simp [hd])]
    split
    · rfl
    · rfl

end Text

namespace Description

variable {cs head body next : List Char} {suffixes : List (Char × List Char)} {marker : Char}

/-! ### One suffix -/

/-- The texts before and after the first marker, where there is one. -/
def cutAtMarker? (cs : List Char) : Option (List Char × List Char) :=
  Text.splitAt? ((Text.offset? isMarker cs).getD (Text.byteLength cs)) cs

/-- The text of the suffix that a text begins with, and what follows it.  Its
    marker takes one byte. -/
def cutSuffix? (cs : List Char) : Option (List Char × List Char) :=
  (Text.splitAt? 1 cs).bind fun r => cutAtMarker? r.2

theorem cutAtMarker?_append (hbody : MarkerFree body) (hnext : AtMarker next) :
    cutAtMarker? (body ++ next) = some (body, next) := by
  have hoffset : (Text.offset? isMarker (body ++ next)).getD (Text.byteLength (body ++ next)) =
      Text.byteLength body := by
    rw [Text.offset?_append hbody hnext]
    split
    next hnil => rw [hnil, List.append_nil]; rfl
    next => rfl
  rw [cutAtMarker?, hoffset, Text.splitAt?_byteLength]

theorem length_lt_of_cutSuffix? (h : cutSuffix? cs = some (body, next)) :
    next.length < cs.length := by
  rcases Option.bind_eq_some_iff.mp h with ⟨⟨front, rest⟩, hfirst, hsecond⟩
  rcases Text.eq_append_of_splitAt? hfirst with ⟨rfl, hfront⟩
  have hrest : rest = body ++ next := (Text.eq_append_of_splitAt? hsecond).1
  cases front with
  | nil => cases hfront rfl
  | cons c front =>
    rw [hrest]
    simp only [List.length_append, List.length_cons]
    omega

theorem utf8Size_of_isMarker (h : isMarker marker = true) : marker.utf8Size = 1 := by
  rcases eq_of_isMarker h with rfl | rfl
  · decide
  · decide

/-- A suffix is cut off where the next marker stands. -/
theorem cutSuffix?_cons (hmarker : isMarker marker = true) (hbody : MarkerFree body)
    (hnext : AtMarker next) : cutSuffix? (marker :: (body ++ next)) = some (body, next) := by
  have hone : Text.splitAt? 1 (marker :: (body ++ next)) = some ([marker], body ++ next) := by
    have hsplit := Text.splitAt?_byteLength [marker] (body ++ next)
    simpa [Text.byteLength, utf8Size_of_isMarker hmarker] using hsplit
  rw [cutSuffix?, hone, Option.bind_some, cutAtMarker?_append hbody hnext]

theorem atMarker_joined (h : WellCut suffixes) : AtMarker (joined suffixes) := by
  intro c hc
  cases suffixes with
  | nil => cases hc
  | cons s suffixes =>
    cases hc
    exact (h s (by simp)).1

/-! ### Slots -/

/-- Cut off one suffix after the other, each into the slot of its marker.  A slot
    that is filled already ends it. -/
def scan? (layoutText namesText : Option (List Char)) :
    List Char → Option (Except Char (Option (List Char) × Option (List Char)))
  | [] => some (.ok (layoutText, namesText))
  | marker :: cs =>
    match h : cutSuffix? (marker :: cs) with
    | none => none
    | some (body, next) =>
      have : next.length < (marker :: cs).length := length_lt_of_cutSuffix? h
      if marker = layoutMarker then
        if layoutText.isSome then some (.error marker) else scan? (some body) namesText next
      else
        if namesText.isSome then some (.error marker) else scan? layoutText (some body) next
termination_by cs => cs.length
decreasing_by all_goals assumption

theorem scan?_cons (layoutText namesText : Option (List Char)) (hmarker : isMarker marker = true)
    (hbody : MarkerFree body) (hnext : AtMarker next) :
    scan? layoutText namesText (marker :: (body ++ next)) =
      if marker = layoutMarker then
        if layoutText.isSome then some (.error marker) else scan? (some body) namesText next
      else
        if namesText.isSome then some (.error marker) else scan? layoutText (some body) next := by
  have hcut := cutSuffix?_cons hmarker hbody hnext
  rw [scan?]
  split
  next h => rw [hcut] at h; cases h
  next h => rw [hcut] at h; cases h; rfl

/-- What has been cut off so far is in the slots, and a marker is repeated when its
    slot is filled. -/
theorem scan?_joined (hcut : WellCut suffixes) {layoutText namesText : Option (List Char)}
    {seen : List Char} (hlayout : layoutMarker ∈ seen ↔ layoutText.isSome = true)
    (hnames : nameMarker ∈ seen ↔ namesText.isSome = true) :
    scan? layoutText namesText (joined suffixes) =
      some (match repeatedMarker? seen suffixes with
        | some marker => .error marker
        | none => .ok (layoutText.or (suffixes.lookup layoutMarker),
            namesText.or (suffixes.lookup nameMarker))) := by
  induction suffixes generalizing layoutText namesText seen with
  | nil => simp [joined, scan?, repeatedMarker?]
  | cons s suffixes ih =>
    rcases s with ⟨marker, body⟩
    rcases hcut (marker, body) (by simp) with ⟨hmarker, hbody⟩
    have hrest : WellCut suffixes := fun r hr => hcut r (by simp [hr])
    have hjoined : joined ((marker, body) :: suffixes) = marker :: (body ++ joined suffixes) := rfl
    rw [hjoined, scan?_cons layoutText namesText hmarker hbody (atMarker_joined hrest)]
    have hne : nameMarker ≠ layoutMarker := by decide
    have hnameLayout : (layoutMarker == nameMarker) = false := rfl
    have hlayoutName : (nameMarker == layoutMarker) = false := rfl
    have hother : ∀ {marker other : Char} {text : Option (List Char)}, other ≠ marker →
        (other ∈ seen ↔ text.isSome = true) → (other ∈ marker :: seen ↔ text.isSome = true) := by
      intro marker other text hne hslot
      simp [hne, hslot]
    rcases eq_of_isMarker hmarker with rfl | rfl
    · rw [if_pos rfl]
      by_cases hseen : layoutMarker ∈ seen
      · simp [repeatedMarker?, hseen, hlayout.mp hseen]
      · have hempty : layoutText = none := by simpa [hlayout] using hseen
        have hfilled : layoutMarker ∈ layoutMarker :: seen ↔ (some body).isSome = true := by simp
        subst hempty
        rw [ih hrest hfilled (hother hne hnames)]
        simp [repeatedMarker?, hseen, List.lookup_cons, hlayoutName]
    · rw [if_neg hne]
      by_cases hseen : nameMarker ∈ seen
      · simp [repeatedMarker?, hseen, hnames.mp hseen]
      · have hempty : namesText = none := by simpa [hnames] using hseen
        have hfilled : nameMarker ∈ nameMarker :: seen ↔ (some body).isSome = true := by simp
        subst hempty
        rw [ih hrest (hother hne.symm hlayout) hfilled]
        simp [repeatedMarker?, hseen, List.lookup_cons, hnameLayout]

/-! ### Descriptions -/

/-- Read a description by offsets.  Nothing is read where an offset is a bad one. -/
def readByOffsets? (input : String) : Option (Except ReadError Description) :=
  (cutAtMarker? input.toList).bind fun r => (scan? none none r.2).map fun
    | .error marker => .error (.invalidDescription input (.repeatedMarker marker))
    | .ok (layoutText, namesText) => readParts input r.1 layoutText namesText

/-- Reading by offsets never meets a bad one, and reads what is read otherwise. -/
theorem readByOffsets?_eq (input : String) : readByOffsets? input = some (read input) := by
  rcases hsegments : segments input.toList with ⟨head, suffixes⟩
  rcases segments_eq_iff.mp hsegments with ⟨hinput, hhead, hcut⟩
  have hscan : scan? none none (joined suffixes) =
      some (match repeatedMarker? [] suffixes with
        | some marker => .error marker
        | none => .ok (suffixes.lookup layoutMarker, suffixes.lookup nameMarker)) :=
    scan?_joined hcut (by simp) (by simp)
  rw [readByOffsets?, hinput, cutAtMarker?_append hhead (atMarker_joined hcut), Option.bind_some,
    hscan, Option.map_some, read, hsegments]
  dsimp only
  cases repeatedMarker? [] suffixes <;> rfl

end Description

end ShapeContracts
