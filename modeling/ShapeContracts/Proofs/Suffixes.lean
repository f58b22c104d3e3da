/-
  ShapeContracts/Proofs/Suffixes.lean
  ===================================
  **How a description falls into a head and suffixes.**

  A description may have a layout suffix and a name suffix, in either order, and
  `Layered` says of which texts it is then made.  Cutting at the markers finds
  them: `layered_iff` says that a text is made of given parts exactly when no
  marker is repeated in it and the parts are those cut out.

  Where a marker is repeated, the one reported is the first that was there
  before, from left to right (`repeatedMarker?_segments_eq_some_iff`).
-/
import Mathlib.Data.List.Nodup
import ShapeContracts.Description.Reader

namespace ShapeContracts

namespace Description

variable {cs head body : List Char} {suffixes : List (Char × List Char)} {c : Char}

/-! ### Cutting at the markers -/

def MarkerFree (cs : List Char) : Prop := ∀ c ∈ cs, isMarker c = false

/-- A text that no marker continues: it is empty or begins with a marker. -/
def AtMarker (cs : List Char) : Prop := ∀ c ∈ cs.head?, isMarker c = true

/-- Suffixes as they stand in a text. -/
def joined (suffixes : List (Char × List Char)) : List Char :=
  suffixes.flatMap fun s => s.1 :: s.2

/-- Each suffix is opened by a marker and has no other. -/
def WellCut (suffixes : List (Char × List Char)) : Prop :=
  ∀ s ∈ suffixes, isMarker s.1 = true ∧ MarkerFree s.2

theorem eq_of_isMarker (h : isMarker c = true) : c = layoutMarker ∨ c = nameMarker := by
  simpa [isMarker] using h

theorem segments_append (h : MarkerFree head) (cs : List Char) :
    segments (head ++ cs) = (head ++ (segments cs).1, (segments cs).2) := by
  induction head with
  | nil => rfl
  | cons c head ih =>
    have hc : isMarker c = false := h c (by simp)
    simp [segments, ih fun d hd => h d (by simp [hd]), hc]

theorem segments_joined (h : WellCut suffixes) : segments (joined suffixes) = ([], suffixes) := by
  induction suffixes with
  | nil => rfl
  | cons s suffixes ih =>
    rcases h s (by simp) with ⟨hmarker, hfree⟩
    have hrest := ih fun r hr => h r (by simp [hr])
    have hbody := segments_append hfree (joined suffixes)
    rw [hrest] at hbody
    rw [show joined (s :: suffixes) = s.1 :: (s.2 ++ joined suffixes) from rfl, segments, hbody]
    simp [hmarker]

theorem segments_spec (cs : List Char) :
    cs = (segments cs).1 ++ joined (segments cs).2 ∧ MarkerFree (segments cs).1 ∧
      WellCut (segments cs).2 := by
  induction cs with
  | nil => simp [segments, joined, MarkerFree, WellCut]
  | cons c cs ih =>
    rcases ih with ⟨heq, hfree, hcut⟩
    by_cases hc : isMarker c = true
    · simp only [segments, if_pos hc]
      refine ⟨?_, by simp [MarkerFree], ?_⟩
      · change c :: cs = c :: ((segments cs).1 ++ joined (segments cs).2)
        rw [← heq]
      · intro s hs
        rcases List.mem_cons.mp hs with rfl | hs
        · exact ⟨hc, hfree⟩
        · exact hcut s hs
    · simp only [segments, if_neg hc]
      refine ⟨?_, ?_, hcut⟩
      · rw [List.cons_append, ← heq]
      · intro d hd
        rcases List.mem_cons.mp hd with rfl | hd
        · simpa using hc
        · exact hfree d hd

theorem segments_eq_iff : segments cs = (head, suffixes) ↔
    cs = head ++ joined suffixes ∧ MarkerFree head ∧ WellCut suffixes := by
  constructor
  · intro h
    have hspec := segments_spec cs
    rwa [h] at hspec
  · rintro ⟨rfl, hfree, hcut⟩
    rw [segments_append hfree, segments_joined hcut, List.append_nil]

/-! ### Repeated markers -/

theorem markers_segments (cs : List Char) :
    (segments cs).2.map Prod.fst = cs.filter isMarker := by
  induction cs with
  | nil => rfl
  | cons c cs ih =>
    by_cases hc : isMarker c = true
    · simp [segments, hc, ih]
    · simp [segments, hc, ih]

/-- The marker reported was seen before, or among those read since, and none of
    these is there twice. -/
theorem repeatedMarker?_eq_some_iff {seen : List Char} (hseen : seen.Nodup) :
    repeatedMarker? seen suffixes = some c ↔
      ∃ front back, suffixes.map Prod.fst = front ++ c :: back ∧ (front ++ seen).Nodup ∧
        c ∈ front ++ seen := by
  induction suffixes generalizing seen with
  | nil => simp [repeatedMarker?]
  | cons s suffixes ih =>
    by_cases hs : s.1 ∈ seen
    · have hcontains : seen.contains s.1 = true := by simpa using hs
      rw [repeatedMarker?, if_pos hcontains]
      constructor
      · intro h
        cases h
        exact ⟨[], suffixes.map Prod.fst, rfl, hseen, hs⟩
      · rintro ⟨front, back, hsplit, hnodup, -⟩
        cases front with
        | nil =>
          cases hsplit
          rfl
        | cons d front =>
          rcases List.cons.inj hsplit with ⟨rfl, -⟩
          exact absurd (List.mem_append_right front hs) (List.nodup_cons.mp hnodup).1
    · have hcontains : ¬ seen.contains s.1 = true := by simpa using hs
      rw [repeatedMarker?, if_neg hcontains, ih (List.nodup_cons.mpr ⟨hs, hseen⟩)]
      constructor
      · rintro ⟨front, back, hsplit, hnodup, hmem⟩
        refine ⟨s.1 :: front, back, by rw [List.map_cons, hsplit]; rfl, ?_, ?_⟩
        · exact List.nodup_middle.mp hnodup
        · simpa [or_left_comm] using hmem
      · rintro ⟨front, back, hsplit, hnodup, hmem⟩
        cases front with
        | nil =>
          cases hsplit
          exact absurd hmem hs
        | cons d front =>
          rcases List.cons.inj hsplit with ⟨rfl, hrest⟩
          refine ⟨front, back, hrest, List.nodup_middle.mpr hnodup, ?_⟩
          simpa [or_left_comm] using hmem

theorem repeatedMarker?_segments_eq_some_iff :
    repeatedMarker? [] (segments cs).2 = some c ↔
      ∃ front back, cs = front ++ c :: back ∧ isMarker c = true ∧ c ∈ front ∧
        (front.filter isMarker).Nodup := by
  simp only [repeatedMarker?_eq_some_iff List.nodup_nil, markers_segments, List.append_nil]
  constructor
  · rintro ⟨front, back, hsplit, hnodup, hmem⟩
    rcases List.filter_eq_append_iff.mp hsplit with ⟨before, rest, rfl, rfl, hrest⟩
    rcases List.filter_eq_cons_iff.mp hrest with ⟨plain, after, rfl, hplain, hc, -⟩
    -- the characters between the two markers are no markers
    have hfilter : plain.filter isMarker = [] := List.filter_eq_nil_iff.mpr hplain
    refine ⟨before ++ plain, after, by simp, hc, ?_, ?_⟩
    · exact List.mem_append_left _ (List.mem_filter.mp hmem).1
    · rwa [List.filter_append, hfilter, List.append_nil]
  · rintro ⟨front, back, rfl, hc, hmem, hnodup⟩
    refine ⟨front.filter isMarker, back.filter isMarker, ?_, hnodup, ?_⟩
    · rw [List.filter_append, List.filter_cons_of_pos hc]
    · exact List.mem_filter.mpr ⟨hmem, hc⟩

/-! ### The layers of a description -/

/-- A suffix as it stands in a text, where it is given. -/
def suffixText (marker : Char) : Option (List Char) → List Char
  | none => []
  | some body => marker :: body

/-- A text made of a head and, in either order, the suffixes that are given. -/
structure Layered (cs head : List Char) (layoutText namesText : Option (List Char)) : Prop where
  headFree : MarkerFree head
  layoutFree : ∀ body ∈ layoutText, MarkerFree body
  namesFree : ∀ body ∈ namesText, MarkerFree body
  eq : cs = head ++ suffixText layoutMarker layoutText ++ suffixText nameMarker namesText ∨
    cs = head ++ suffixText nameMarker namesText ++ suffixText layoutMarker layoutText

/-- The suffix of a marker, as a list of at most one. -/
def given (marker : Char) (text : Option (List Char)) : List (Char × List Char) :=
  (text.map fun body => (marker, body)).toList

theorem joined_given (marker other : Char) (text more : Option (List Char)) :
    joined (given marker text ++ given other more) =
      suffixText marker text ++ suffixText other more := by
  cases text <;> cases more <;> simp [joined, given, suffixText]

theorem wellCut_given {marker : Char} {text : Option (List Char)}
    (hmarker : isMarker marker = true) (htext : ∀ body ∈ text, MarkerFree body) :
    WellCut (given marker text) := by
  intro s hs
  rcases Option.map_eq_some_iff.mp (Option.mem_toList.mp hs) with ⟨body, hbody, rfl⟩
  exact ⟨hmarker, htext body hbody⟩

theorem segments_given {marker other : Char} {text more : Option (List Char)}
    (hhead : MarkerFree head) (hmarker : isMarker marker = true) (hother : isMarker other = true)
    (htext : ∀ body ∈ text, MarkerFree body) (hmore : ∀ body ∈ more, MarkerFree body) :
    segments (head ++ suffixText marker text ++ suffixText other more) =
      (head, given marker text ++ given other more) := by
  refine segments_eq_iff.mpr ⟨?_, hhead, ?_⟩
  · rw [List.append_assoc, joined_given]
  · intro s hs
    rcases List.mem_append.mp hs with hs | hs
    · exact wellCut_given hmarker htext s hs
    · exact wellCut_given hother hmore s hs

theorem repeatedMarker?_given {marker other : Char} (h : marker ≠ other)
    (text more : Option (List Char)) :
    repeatedMarker? [] (given marker text ++ given other more) = none := by
  cases text <;> cases more <;> simp [repeatedMarker?, given, h.symm]

theorem lookup_given {marker other : Char} (h : marker ≠ other) (text more : Option (List Char)) :
    (given marker text ++ given other more).lookup marker = text ∧
      (given marker text ++ given other more).lookup other = more := by
  have hne : (other == marker) = false := beq_eq_false_iff_ne.mpr h.symm
  cases text <;> cases more <;> simp [given, List.lookup_cons, hne, beq_eq_false_iff_ne.mpr h]

/-- Suffixes with pairwise different markers are two at most. -/
theorem eq_given_of_wellCut (hcut : WellCut suffixes) (h : repeatedMarker? [] suffixes = none) :
    ∃ text more, suffixes = given layoutMarker text ++ given nameMarker more ∨
      suffixes = given nameMarker more ++ given layoutMarker text := by
  match suffixes with
  | [] => exact ⟨none, none, .inl rfl⟩
  | [(a, s)] =>
    rcases eq_of_isMarker (hcut (a, s) (by simp)).1 with rfl | rfl
    · exact ⟨some s, none, .inl rfl⟩
    · exact ⟨none, some s, .inl rfl⟩
  | [(a, s), (b, t)] =>
    rcases eq_of_isMarker (hcut (a, s) (by simp)).1 with rfl | rfl
    · rcases eq_of_isMarker (hcut (b, t) (by simp)).1 with rfl | rfl
      · simp [repeatedMarker?] at h
      · exact ⟨some s, some t, .inl rfl⟩
    · rcases eq_of_isMarker (hcut (b, t) (by simp)).1 with rfl | rfl
      · exact ⟨some t, some s, .inr rfl⟩
      · simp [repeatedMarker?] at h
  | (a, s) :: (b, t) :: (c, u) :: rest =>
    -- of three markers two are the same
    rcases eq_of_isMarker (hcut (a, s) (by simp)).1 with rfl | rfl <;>
      rcases eq_of_isMarker (hcut (b, t) (by simp)).1 with rfl | rfl <;>
      rcases eq_of_isMarker (hcut (c, u) (by simp)).1 with rfl | rfl <;>
      simp [repeatedMarker?, layoutMarker, nameMarker] at h

/-- A text is made of a head and suffixes when no marker is repeated in it, and
    of those that are cut out. -/
theorem layered_iff {layoutText namesText : Option (List Char)} :
    Layered cs head layoutText namesText ↔
      repeatedMarker? [] (segments cs).2 = none ∧ (segments cs).1 = head ∧
        (segments cs).2.lookup layoutMarker = layoutText ∧
        (segments cs).2.lookup nameMarker = namesText := by
  have hne : layoutMarker ≠ nameMarker := by decide
  constructor
  · rintro ⟨hhead, hlayout, hnames, rfl | rfl⟩
    · rw [segments_given hhead rfl rfl hlayout hnames]
      exact ⟨repeatedMarker?_given hne _ _, rfl, lookup_given hne _ _⟩
    · rw [segments_given hhead rfl rfl hnames hlayout]
      exact ⟨repeatedMarker?_given hne.symm _ _, rfl, (lookup_given hne.symm _ _).symm⟩
  · rintro ⟨hnone, rfl, rfl, rfl⟩
    rcases segments_spec cs with ⟨heq, hhead, hcut⟩
    have hfree : ∀ marker, ∀ body ∈ (segments cs).2.lookup marker, MarkerFree body := by
      intro marker body hbody
      rcases List.lookup_eq_some_iff.mp hbody with ⟨before, after, hsplit, -⟩
      exact (hcut (marker, body) (by simp [hsplit])).2
    refine ⟨hhead, hfree _, hfree _, ?_⟩
    rcases eq_given_of_wellCut hcut hnone with ⟨text, more, hgiven | hgiven⟩
    · rw [hgiven, (lookup_given hne text more).1, (lookup_given hne text more).2]
      rw [hgiven, joined_given] at heq
      exact .inl (by rwa [List.append_assoc])
    · rw [hgiven, (lookup_given hne.symm more text).1, (lookup_given hne.symm more text).2]
      rw [hgiven, joined_given] at heq
      exact .inr (by rwa [List.append_assoc])

end Description

end ShapeContracts
