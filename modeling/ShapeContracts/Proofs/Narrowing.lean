/-
  ShapeContracts/Proofs/Narrowing.lean
  ====================================
  **More constraints, fewer arrays.**

  A detail declared after other tokens is kept or dropped as a repetition, and
  it may turn on the comparison of names.  It does not touch the dimensions.
  Nor does it decide whether the rank is open, once there is any token: one
  without a dimension and without a marker is a detail already.

  So the longer declaration asks all that the shorter one asks and reads the
  same labels (`Schema.Narrows`).  What is left of a match is the readings
  alone, hence the same for both.
-/
import ShapeContracts.Proofs.Matching

namespace ShapeContracts

/-! ### Narrower schemas -/

/-- A schema narrows another when it has the same dimensions and asks for the
    names and the details that the other asks for. -/
structure Schema.Narrows (narrow wide : Schema) : Prop where
  dims : narrow.shape.dims = wide.shape.dims
  isOpen : narrow.shape.isOpen = wide.shape.isOpen
  names : wide.shape.checkNames = true → narrow.shape.checkNames = true
  details : wide.details ⊆ narrow.details

namespace Schema.Narrows

variable {narrow wide : Schema} {v : ArrayView}

theorem aligned (h : narrow.Narrows wide) (v : ArrayView) :
    narrow.shape.aligned v = wide.shape.aligned v := by
  unfold Shape.aligned Shape.explicit Shape.explicitCount
  rw [h.dims]

theorem readings (h : narrow.Narrows wide) (v : ArrayView) :
    narrow.shape.readings v = wide.shape.readings v := by
  unfold Shape.readings
  rw [h.isOpen, h.aligned]

theorem admitsRank_iff (h : narrow.Narrows wide) {rank : Nat} :
    narrow.shape.AdmitsRank rank ↔ wide.shape.AdmitsRank rank := by
  unfold Shape.AdmitsRank Shape.hasEllipsis Shape.explicitCount
  rw [h.dims]

theorem fits (h : narrow.Narrows wide) (hfits : narrow.Fits v) : wide.Fits v where
  rank := by
    rw [← h.isOpen, ← h.admitsRank_iff]
    exact hfits.rank
  sizes := by
    unfold Shape.AdmitsSizes
    rw [← h.isOpen, ← h.aligned]
    exact hfits.sizes
  names := by
    rw [← h.isOpen]
    refine hfits.names.imp_right fun hnames hcheck => ?_
    rw [← h.aligned]
    exact hnames (h.names hcheck)
  details d hd := hfits.details d (h.details hd)

/-- What matches a schema matches every schema that it narrows, and leaves the
    same bindings. -/
theorem matchArray (h : narrow.Narrows wide) (htail : Dim.ellipsis ∉ wide.shape.dims.tail)
    {b b' : Bindings} (hmatch : narrow.matchArray b v = .ok b') :
    wide.matchArray b v = .ok b' := by
  have htail' : Dim.ellipsis ∉ narrow.shape.dims.tail := by
    rw [h.dims]
    exact htail
  obtain ⟨hfits, hknown⟩ := (matchArray_eq_ok_iff htail').mp hmatch
  refine (matchArray_eq_ok_iff htail).mpr ⟨h.fits hfits, fun label n => ?_⟩
  rw [hknown, h.readings]

end Schema.Narrows

/-! ### One more detail -/

theorem Token.mem_details_append {before : List Token} {d : Detail}
    (h : d ∈ Token.details before) (after : List Token) : d ∈ Token.details (before ++ after) := by
  rw [Token.details_append]
  exact List.mem_append_left _ h

/-- The front of a grammatical list is grammatical. -/
theorem Grammatical.of_append {caps : Capabilities} {before after : List Token}
    (h : Grammatical caps (before ++ after)) : Grammatical caps before where
  size n hn := h.size n (List.mem_append_left after hn)
  name hname := h.name (List.mem_append_left after hname)
  sizedName n hn := h.sizedName n (List.mem_append_left after hn)
  ellipsis front back hsplit := by
    obtain ⟨hback, hfront⟩ := h.ellipsis front (back ++ after) (by simp [hsplit])
    exact ⟨fun hmem => hback (List.mem_append_left after hmem), hfront⟩
  detail d hd e he :=
    h.detail d (Token.mem_details_append hd after) e (Token.mem_details_append he after)
  layout l hl := h.layout l (List.mem_append_left after hl)
  named d hd := h.named d (Token.mem_details_append hd after)
  scalar hscalar := by
    obtain ⟨hanyRank, hdims⟩ := h.scalar (List.mem_append_left after hscalar)
    exact ⟨fun hmem => hanyRank (List.mem_append_left after hmem),
      fun t ht => hdims t (List.mem_append_left after ht)⟩
  anyRank hanyRank t ht :=
    h.anyRank (List.mem_append_left after hanyRank) t (List.mem_append_left after ht)

/-- A token that declares no dimension and is no marker declares a detail. -/
theorem Token.exists_detail? {t : Token} (hdim : t.dim? = none) (hanyRank : t ≠ .anyRank)
    (hscalar : t ≠ .scalar) : ∃ d, t.detail? = some d := by
  cases t <;> first | exact ⟨_, rfl⟩ | contradiction

namespace Schema

variable {caps : Capabilities} {tokens : List Token} {t : Token} {d : Detail}

/-- Where there is any token, details have no say in whether the rank is open. -/
theorem isOpen_ofTokens_of_ne_nil (h : tokens ≠ []) :
    (ofTokens tokens).shape.isOpen = true ↔
      Token.anyRank ∈ tokens ∨ (∀ t ∈ tokens, t.dim? = none) ∧ Token.scalar ∉ tokens := by
  rw [isOpen_ofTokens]
  constructor
  · exact Or.imp_right fun ⟨hdims, hscalar, _⟩ => ⟨hdims, hscalar⟩
  · intro hopen
    by_cases hanyRank : Token.anyRank ∈ tokens
    · exact .inl hanyRank
    · obtain ⟨hdims, hscalar⟩ := hopen.resolve_left hanyRank
      obtain ⟨t, ht⟩ := List.exists_mem_of_ne_nil tokens h
      obtain ⟨d, hd⟩ := Token.exists_detail? (hdims t ht) (fun heq => hanyRank (heq ▸ ht))
        fun heq => hscalar (heq ▸ ht)
      exact .inr ⟨hdims, hscalar, List.ne_nil_of_mem (Token.mem_details.mpr ⟨t, ht, hd⟩)⟩

/-- A detail after other tokens narrows what they declare. -/
theorem narrows_ofTokens (h : tokens ≠ []) (hdetail : t.detail? = some d) :
    (ofTokens (tokens ++ [t])).Narrows (ofTokens tokens) := by
  have hdim : t.dim? = none := by
    cases t <;> first | rfl | cases hdetail
  have hanyRank : Token.anyRank ≠ t := by
    rintro rfl
    cases hdetail
  have hscalar : Token.scalar ≠ t := by
    rintro rfl
    cases hdetail
  have hdetails : Token.details (tokens ++ [t]) = Token.details tokens ++ [d] := by
    rw [Token.details_append]
    simp [Token.details, hdetail]
  constructor
  case dims => simp [ofTokens, Token.dims, hdim]
  case isOpen =>
    rw [Bool.eq_iff_iff, isOpen_ofTokens_of_ne_nil h, isOpen_ofTokens_of_ne_nil (by simp)]
    rw [List.forall_mem_append, List.forall_mem_singleton]
    simp [hdim, hanyRank, hscalar]
  case names =>
    intro hnames
    simp only [ofTokens] at hnames ⊢
    rw [hdetails, List.any_append, hnames, Bool.true_or]
  case details =>
    simp only [ofTokens]
    rw [hdetails, Detail.distinct_append_singleton]
    split
    · exact List.Subset.refl _
    · exact List.subset_append_left _ _

/-- **One more detail never widens a declaration.**  If tokens, at least one,
    and a detail after them declare a schema, then so do the tokens alone, and
    every array that matches the former matches the latter with the same
    bindings. -/
theorem declare_detail_narrows (h : tokens ≠ []) (hdetail : t.detail? = some d)
    {narrow : Schema} (hdeclare : Schema.declare caps (tokens ++ [t]) = .ok narrow) :
    ∃ wide, Schema.declare caps tokens = .ok wide ∧
      ∀ b v b', narrow.matchArray b v = .ok b' → wide.matchArray b v = .ok b' := by
  obtain ⟨hgrammar, rfl⟩ := (declare_eq_ok_iff caps _ narrow).mp hdeclare
  have hwide : Schema.declare caps tokens = .ok (ofTokens tokens) :=
    (declare_eq_ok_iff caps tokens _).mpr ⟨hgrammar.of_append, rfl⟩
  have htail : Dim.ellipsis ∉ (ofTokens tokens).shape.dims.tail :=
    Declared.ellipsis_notMem_tail ⟨caps, tokens, hwide⟩
  refine ⟨ofTokens tokens, hwide, fun b v b' hmatch => ?_⟩
  exact (narrows_ofTokens h hdetail).matchArray htail hmatch

/-- The names that the detail asks for are there, so the label is bound as it is
    without the detail. -/
theorem declare_detail_narrows_named :
    [Token.name "n"] ≠ [] ∧ Token.isNamed.detail? = some .named ∧
      Schema.declare .full ([.name "n"] ++ [.isNamed]) = .ok (ofTokens [.name "n", .isNamed]) ∧
        ∃ wide, Schema.declare .full [.name "n"] = .ok wide ∧
          wide.matchArray .empty ⟨[⟨4, some "n"⟩], .f32, true, none⟩ =
            .ok (Table.empty.put "n" 4) := by
  have hdeclare : Schema.declare .full ([.name "n"] ++ [.isNamed]) =
      .ok (ofTokens [.name "n", .isNamed]) := rfl
  have hne : [Token.name "n"] ≠ [] := List.cons_ne_nil _ _
  obtain ⟨wide, hwide, hmatch⟩ := declare_detail_narrows hne rfl hdeclare
  exact ⟨hne, rfl, hdeclare, wide, hwide, hmatch _ _ _ rfl⟩

/-- Without any token the rank is zero, and a detail alone makes it open. -/
example :
    Schema.declare .full [] = .ok (ofTokens []) ∧
      (ofTokens []).shape.isOpen = false ∧ (ofTokens [.isFloat]).shape.isOpen = true :=
  ⟨rfl, rfl, rfl⟩

end Schema

end ShapeContracts
