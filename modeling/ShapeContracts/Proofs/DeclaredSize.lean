/-
  ShapeContracts/Proofs/DeclaredSize.lean
  =======================================
  **Declared sizes and bound sizes.**

  A label may be declared with its size, at one dimension or at several, beside
  dimensions where it stands alone.  The walk starts at the last axis, so it can
  bind the label to another size before it comes to the one declared, and fails
  at another axis than it would had the size been bound beforehand.

  The meaning of a match does not know of the walk.  That an axis has the size
  declared for its label is the same as to read the declared size there.  So a
  size can be taken out of the schema (`Schema.undeclare`) and put into the
  bindings instead: the readings are the same, and as much is known in the end.
-/
import ShapeContracts.Proofs.Capability
import ShapeContracts.Proofs.Session

namespace ShapeContracts

/-! ### Labels without their sizes -/

/-- A descriptor without the size declared for a label. -/
def Dim.undeclare (c : String) : Dim → Dim
  | .named (.label label) n => .named (.label label) (if label = c then none else n)
  | d => d

def Shape.undeclare (c : String) (shape : Shape) : Shape :=
  { shape with dims := shape.dims.map (Dim.undeclare c) }

def Schema.undeclare (c : String) (schema : Schema) : Schema :=
  { schema with shape := schema.shape.undeclare c }

/-- A shape declares a size for a label, at one of its dimensions at least. -/
def Shape.DeclaresSize (shape : Shape) (c : String) (n : Size) : Prop :=
  Dim.named (.label c) (some n) ∈ shape.dims

namespace Dim

variable {c : String} {n : Size}

@[simp] theorem isEllipsis_undeclare (c : String) (d : Dim) :
    (d.undeclare c).isEllipsis = d.isEllipsis := by
  cases d with
  | named name declared => cases name <;> rfl
  | _ => rfl

@[simp] theorem readings_undeclare (c : String) (n : Size) (d : Dim) :
    (d.undeclare c).readings n = d.readings n := by
  cases d with
  | named name declared => cases name <;> rfl
  | _ => rfl

@[simp] theorem admitsName_undeclare (c : String) (name : Option String) (d : Dim) :
    (d.undeclare c).AdmitsName name ↔ d.AdmitsName name := by
  cases d with
  | named name declared => cases name <;> exact Iff.rfl
  | _ => exact Iff.rfl

/-- A descriptor asks for the size declared for a label, and for what it asks
    for without it. -/
theorem admitsSize_iff_undeclare (c : String) (n : Size) (d : Dim) :
    d.AdmitsSize n ↔
      (d.undeclare c).AdmitsSize n ∧ ∀ m, d = .named (.label c) (some m) → n = m := by
  cases d with
  | named name declared =>
    cases name with
    | anonymous => simp [undeclare]
    | label label =>
      by_cases h : label = c
      · subst h
        simp [undeclare, AdmitsSize]
      · simp [undeclare, AdmitsSize, h]
  | _ => simp [undeclare]

end Dim

namespace Shape

variable {c : String} {shape : Shape} {v : ArrayView}

theorem explicit_undeclare (c : String) (shape : Shape) :
    (shape.undeclare c).explicit = shape.explicit.map (Dim.undeclare c) := by
  simp [explicit, undeclare, List.filter_map, Function.comp_def]

@[simp] theorem explicitCount_undeclare (c : String) (shape : Shape) :
    (shape.undeclare c).explicitCount = shape.explicitCount := by
  change (shape.undeclare c).explicit.length = shape.explicit.length
  rw [explicit_undeclare, List.length_map]

theorem aligned_undeclare (c : String) (shape : Shape) (v : ArrayView) :
    (shape.undeclare c).aligned v = (shape.aligned v).map (Prod.map (Dim.undeclare c) id) := by
  unfold aligned
  rw [explicit_undeclare, explicitCount_undeclare, List.zip_map_left]

@[simp] theorem readings_undeclare (c : String) (shape : Shape) (v : ArrayView) :
    (shape.undeclare c).readings v = shape.readings v := by
  unfold readings
  rw [aligned_undeclare]
  simp [undeclare, List.flatMap_map]

@[simp] theorem admitsRank_undeclare (c : String) (shape : Shape) (rank : Nat) :
    (shape.undeclare c).AdmitsRank rank ↔ shape.AdmitsRank rank := by
  have hellipsis : (shape.undeclare c).hasEllipsis = shape.hasEllipsis := by
    simp [hasEllipsis, undeclare, Function.comp_def]
  unfold AdmitsRank
  rw [hellipsis, explicitCount_undeclare]

@[simp] theorem admitsNames_undeclare (c : String) (shape : Shape) (v : ArrayView) :
    (shape.undeclare c).AdmitsNames v ↔ shape.AdmitsNames v := by
  unfold AdmitsNames
  rw [aligned_undeclare, List.forall_mem_map]
  simp [undeclare]

/-- The sizes of an array are right when they are without the sizes declared
    for a label, and those are the sizes of their axes. -/
theorem admitsSizes_iff_undeclare (c : String) (shape : Shape) (v : ArrayView) :
    shape.AdmitsSizes v ↔
      (shape.undeclare c).AdmitsSizes v ∧
        ∀ a m, (Dim.named (.label c) (some m), a) ∈ shape.aligned v → a.size = m := by
  unfold AdmitsSizes
  rw [aligned_undeclare, List.forall_mem_map]
  constructor
  · intro hall
    refine ⟨fun p hp => ?_, fun a m hp => ?_⟩
    · exact ((Dim.admitsSize_iff_undeclare c p.2.size p.1).mp (hall p hp)).1
    · exact ((Dim.admitsSize_iff_undeclare c a.size _).mp (hall _ hp)).2 m rfl
  · rintro ⟨hall, hdeclared⟩ ⟨d, a⟩ hp
    refine (Dim.admitsSize_iff_undeclare c a.size d).mpr ⟨hall (d, a) hp, ?_⟩
    rintro m rfl
    exact hdeclared a m hp

/-- Where rank and sizes are right a label is read with its declared size. -/
theorem DeclaresSize.mem_readings {n : Size} (h : shape.DeclaresSize c n)
    (hclosed : shape.isOpen = false) (hrank : shape.AdmitsRank v.rank)
    (hsizes : shape.AdmitsSizes v) : (c, n) ∈ shape.readings v := by
  have hexplicit : Dim.named (.label c) (some n) ∈ shape.explicit :=
    List.mem_filter.mpr ⟨h, rfl⟩
  obtain ⟨a, ha⟩ := exists_mem_aligned hrank hexplicit
  have hsize : a.size = n := ((admitsSizes_iff_undeclare c shape v).mp hsizes).2 a n ha
  exact Shape.mem_readings.mpr ⟨hclosed, _, ha, rfl, hsize⟩

end Shape

/-! ### Schemas without declared sizes -/

namespace Schema

variable {c : String} {n : Size} {schema : Schema} {v : ArrayView} {b b' : Bindings}

theorem shape_undeclare (c : String) (schema : Schema) :
    (schema.undeclare c).shape = schema.shape.undeclare c := rfl

theorem fits_iff_undeclare (hclosed : schema.shape.isOpen = false) (c : String) (v : ArrayView) :
    schema.Fits v ↔
      (schema.undeclare c).Fits v ∧
        ∀ a m, (Dim.named (.label c) (some m), a) ∈ schema.shape.aligned v → a.size = m := by
  have hclosed' : (schema.undeclare c).shape.isOpen = false := hclosed
  rw [fits_iff_of_closed hclosed, fits_iff_of_closed hclosed', Shape.admitsSizes_iff_undeclare c]
  simp only [undeclare, Shape.admitsRank_undeclare, Shape.admitsNames_undeclare]
  constructor
  · rintro ⟨hrank, ⟨hsizes, hdeclared⟩, hnames, hdetails⟩
    exact ⟨⟨hrank, hsizes, hnames, hdetails⟩, hdeclared⟩
  · rintro ⟨⟨hrank, hsizes, hnames, hdetails⟩, hdeclared⟩
    exact ⟨hrank, ⟨hsizes, hdeclared⟩, hnames, hdetails⟩

theorem ellipsis_notMem_tail_undeclare (h : schema.Declared) (c : String) :
    Dim.ellipsis ∉ (schema.undeclare c).shape.dims.tail := by
  intro hmem
  simp only [undeclare, Shape.undeclare, ← List.map_tail, List.mem_map] at hmem
  obtain ⟨d, hd, hundeclared⟩ := hmem
  have hellipsis : d.isEllipsis = true := by
    rw [← Dim.isEllipsis_undeclare c, hundeclared]
    rfl
  cases d <;> first | exact h.ellipsis_notMem_tail hd | cases hellipsis

/-- An array that fits has the declared size of a label among its readings. -/
theorem mem_readings_of_declaresSize (h : schema.Declared)
    (hsize : schema.shape.DeclaresSize c n) (hfits : schema.Fits v) :
    (c, n) ∈ schema.shape.readings v := by
  have hclosed := h.isOpen_eq_false (List.ne_nil_of_mem hsize)
  obtain ⟨hrank, hsizes, -⟩ := (fits_iff_of_closed hclosed).mp hfits
  exact hsize.mem_readings hclosed hrank hsizes

/-- After a match a label with a declared size is bound to it. -/
theorem get?_of_declaresSize (h : schema.Declared) (hsize : schema.shape.DeclaresSize c n)
    (hmatch : schema.matchArray b v = .ok b') : b'.get? c = some n := by
  obtain ⟨hfits, hknown⟩ := (matchArray_eq_ok_iff h.ellipsis_notMem_tail).mp hmatch
  exact (hknown c n).mpr (.inr (mem_readings_of_declaresSize h hsize hfits))

/-- Where the only size declared for a label is bound beforehand, an array fits
    already when it matches without the declaration. -/
theorem fits_of_matchArray_undeclare (h : schema.Declared)
    (hclosed : schema.shape.isOpen = false) (honly : ∀ m, schema.shape.DeclaresSize c m → m = n)
    (hbound : b.get? c = some n) (hmatch : (schema.undeclare c).matchArray b v = .ok b') :
    schema.Fits v := by
  obtain ⟨hfits, hknown⟩ := (matchArray_eq_ok_iff (ellipsis_notMem_tail_undeclare h c)).mp hmatch
  refine (fits_iff_undeclare hclosed c v).mpr ⟨hfits, fun a m hp => ?_⟩
  have hread : (c, a.size) ∈ (schema.undeclare c).shape.readings v := by
    rw [shape_undeclare, Shape.readings_undeclare]
    exact Shape.mem_readings.mpr ⟨hclosed, _, hp, rfl, rfl⟩
  -- the label has the size of the axis in the end, and keeps the one it had
  have hsize : b'.get? c = some a.size := (hknown c a.size).mpr (.inr hread)
  have hkept : b'.get? c = some n := (hknown c n).mpr (.inl hbound)
  have hm : m = n := honly m (List.mem_filter.mp (List.of_mem_zip hp).1).1
  rw [hm]
  exact Option.some.inj (hsize.symm.trans hkept)

/-- Binding a label beforehand makes up for its declared size. -/
theorem matchArray_iff_undeclare (h : schema.Declared) (hsize : schema.shape.DeclaresSize c n)
    (honly : ∀ m, schema.shape.DeclaresSize c m → m = n) {bound : Bindings}
    (hbind : b.bind c n = .ok bound) :
    schema.matchArray b v = .ok b' ↔ (schema.undeclare c).matchArray bound v = .ok b' := by
  have hclosed := h.isOpen_eq_false (List.ne_nil_of_mem hsize)
  obtain ⟨-, hbound⟩ := (b.decides_bind c n).eq_ok_iff.mp hbind
  -- the size bound beforehand is read in any case, so as much is known in the end
  have hknown : schema.Fits v → ∀ label m,
      bound.get? label = some m ∨ (label, m) ∈ (schema.undeclare c).shape.readings v ↔
        b.get? label = some m ∨ (label, m) ∈ schema.shape.readings v := by
    intro hfits label m
    have hread := mem_readings_of_declaresSize h hsize hfits
    rw [shape_undeclare, Shape.readings_undeclare, hbound, List.mem_singleton, or_assoc]
    apply or_congr_right
    apply or_iff_right_of_imp
    intro heq
    rwa [heq]
  constructor
  · intro hmatch
    obtain ⟨hfits, hfinal⟩ := (matchArray_eq_ok_iff h.ellipsis_notMem_tail).mp hmatch
    apply (matchArray_eq_ok_iff (ellipsis_notMem_tail_undeclare h c)).mpr
    refine ⟨((fits_iff_undeclare hclosed c v).mp hfits).1, fun label m => ?_⟩
    rw [hfinal, hknown hfits]
  · intro hmatch
    have hget : bound.get? c = some n := (hbound c n).mpr (.inr (List.mem_singleton.mpr rfl))
    have hfits := fits_of_matchArray_undeclare h hclosed honly hget hmatch
    obtain ⟨-, hfinal⟩ := (matchArray_eq_ok_iff (ellipsis_notMem_tail_undeclare h c)).mp hmatch
    refine (matchArray_eq_ok_iff h.ellipsis_notMem_tail).mpr ⟨hfits, fun label m => ?_⟩
    rw [hfinal, hknown hfits]

/-- **A declared size behaves as a binding already made.**  Where a label has
    one declared size, and is not bound to another, an array matches just when it
    matches without the declaration but with the label bound beforehand, and the
    bindings are the same afterwards.  Where the label is bound to another size,
    or another size is declared for it too, no array matches and the bindings
    stay as they are. -/
theorem declared_size_as_binding (h : schema.Declared) (hsize : schema.shape.DeclaresSize c n)
    (b : Bindings) :
    ((∀ m, schema.shape.DeclaresSize c m → m = n) → (b.get? c = none ∨ b.get? c = some n) →
      ∃ bound, b.bind c n = .ok bound ∧
        ∀ v b', schema.matchArray b v = .ok b' ↔
          (schema.undeclare c).matchArray bound v = .ok b') ∧
    ((∃ m, b.get? c = some m ∧ m ≠ n) ∨ (∃ m, schema.shape.DeclaresSize c m ∧ m ≠ n) →
      ∀ v, ∃ mismatch, (schema.matchInPlace v).run b = (.error mismatch, b)) := by
  constructor
  · intro honly hfree
    obtain ⟨bound, hbind⟩ : ∃ bound, b.bind c n = .ok bound := by
      unfold Bindings.bind
      rcases hfree with hnone | hsome
      · rw [hnone]
        exact ⟨_, rfl⟩
      · rw [hsome]
        exact ⟨b, if_pos rfl⟩
    exact ⟨bound, hbind, fun v b' => matchArray_iff_undeclare h hsize honly hbind⟩
  · intro hother v
    rw [matchInPlace_fails_iff]
    rintro ⟨b', hmatch⟩
    -- both sizes would be the one bound in the end
    have hn : b'.get? c = some n := get?_of_declaresSize h hsize hmatch
    rcases hother with ⟨m, hm, hne⟩ | ⟨m, hm, hne⟩
    · have hkept : b'.get? c = some m := Bindings.growsTo_matchArray hmatch c m hm
      exact hne (Option.some.inj (hkept.symm.trans hn))
    · have hagain : b'.get? c = some m := get?_of_declaresSize h hm hmatch
      exact hne (Option.some.inj (hagain.symm.trans hn))

/-- A label with a size, between two dimensions where it stands alone. -/
def between : Schema := ofTokens [.name "n", .sizedName "n" 3, .name "n"]

theorem declared_size_as_binding_between :
    between.Declared ∧ between.shape.DeclaresSize "n" 3 ∧
      (∃ bound, Bindings.bind .empty "n" 3 = .ok bound ∧ ∀ v b',
        between.matchArray .empty v = .ok b' ↔
          (between.undeclare "n").matchArray bound v = .ok b') ∧
      ∀ v, ∃ mismatch, (between.matchInPlace v).run (Table.empty.put "n" 5) =
        (.error mismatch, Table.empty.put "n" 5) := by
  have hdeclared : between.Declared :=
    ⟨.plain, [.name "n", .sizedName "n" 3, .name "n"], rfl⟩
  have hdims : between.shape.dims =
      [.named (.label "n") none, .named (.label "n") (some 3), .named (.label "n") none] := rfl
  have hsize : between.shape.DeclaresSize "n" 3 := by
    simp [Shape.DeclaresSize, hdims]
  have honly : ∀ m, between.shape.DeclaresSize "n" m → m = 3 := by
    simp [Shape.DeclaresSize, hdims]
  refine ⟨hdeclared, hsize, ?_, ?_⟩
  · exact (declared_size_as_binding hdeclared hsize .empty).1 honly (.inl rfl)
  · exact (declared_size_as_binding hdeclared hsize (Table.empty.put "n" 5)).2
      (.inl ⟨5, rfl, by decide⟩)

end Schema

end ShapeContracts
