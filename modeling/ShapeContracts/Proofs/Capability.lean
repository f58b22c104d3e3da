/-
  ShapeContracts/Proofs/Capability.lean
  =====================================
  **What a library lacks and what a schema may ask.**

  A declaration is made for a library, and asking for layouts or axis names
  where the library has none is refused.  A detail with the key `named` is
  refused whichever token brings it; a layout is refused where it is named by
  its own token, while a detail handed in as it is stays, whatever its key.

  Arrays without axis names meet schemas that compare them all the same, for
  an array is of any sort.  With dimensions to compare they never match
  (`Schema.not_matchArray_of_nameless`); an open schema leaves the matter to its
  details (`Schema.exists_matchArray_of_isOpen`), and the built-in one refuses
  such arrays.
-/
import ShapeContracts.Proofs.InPlace
import ShapeContracts.Proofs.Retention

namespace ShapeContracts

/-! ### Asking for what a library lacks -/

theorem Schema.mem_details_ofTokens {tokens : List Token} {d : Detail}
    (h : d ∈ (ofTokens tokens).details) : d ∈ Token.details tokens :=
  Detail.mem_of_mem_distinct h

/-- A detail with the key of layouts is that of a layout token or is handed in. -/
theorem Token.layout_or_handedIn {t : Token} {d : Detail} (h : t.detail? = some d)
    (hkey : d.key = some Detail.layoutKey) : (∃ l, t = .layout l) ∨ t = .detail d := by
  cases t with
  | layout l => exact .inl ⟨l, rfl⟩
  | detail d' =>
    cases h
    exact .inr rfl
  | isFloat =>
    cases h
    cases hkey
  | dtype t | kind k | isNamed =>
    cases h
    exact absurd (Option.some.inj hkey) (by decide)
  | _ => cases h

/-- **A schema asks for nothing its library lacks, except by details handed in
    for layouts.**  Where there are no layouts no token names one, and a detail
    with their key was handed in as it is.  Where axes have no names no detail
    has the key of names, and names are not compared. -/
theorem Schema.declare_within_capabilities {caps : Capabilities} {tokens : List Token}
    {schema : Schema} (h : Schema.declare caps tokens = .ok schema) :
    (caps.layouts = false →
      (∀ l, Token.layout l ∉ tokens) ∧
        ∀ d ∈ schema.details, d.key = some Detail.layoutKey → Token.detail d ∈ tokens) ∧
    (caps.namedAxes = false →
      (∀ d ∈ schema.details, d.key ≠ some Detail.namedKey) ∧
        schema.shape.checkNames = false) := by
  obtain ⟨hgrammar, rfl⟩ := (Schema.declare_eq_ok_iff caps tokens schema).mp h
  constructor
  · intro hlacks
    have hnone : ∀ l, Token.layout l ∉ tokens := by
      intro l hl
      rw [hgrammar.layout l hl] at hlacks
      cases hlacks
    refine ⟨hnone, fun d hd hkey => ?_⟩
    obtain ⟨t, ht, hdetail⟩ := Token.mem_details.mp (mem_details_ofTokens hd)
    rcases Token.layout_or_handedIn hdetail hkey with ⟨l, rfl⟩ | rfl
    · exact absurd ht (hnone l)
    · exact ht
  · intro hlacks
    have hnone : ∀ d ∈ Token.details tokens, d.key ≠ some Detail.namedKey := by
      intro d hd hkey
      rw [hgrammar.named d hd hkey] at hlacks
      cases hlacks
    refine ⟨fun d hd => hnone d (mem_details_ofTokens hd), ?_⟩
    refine Bool.eq_false_iff.mpr fun hnames => ?_
    obtain ⟨t, ht, d, hdetail, hkey⟩ := (Schema.checkNames_ofTokens tokens).mp hnames
    exact hnone d (Token.mem_details.mpr ⟨t, ht, hdetail⟩) hkey

theorem Schema.declare_within_capabilities_lenient :
    Schema.declare .plain [.name "n", .detail (.lenient Detail.layoutKey "strided"), .isFloat] =
        .ok (ofTokens [.name "n", .detail (.lenient Detail.layoutKey "strided"), .isFloat]) ∧
      (∀ l, Token.layout l ∉
        [.name "n", .detail (.lenient Detail.layoutKey "strided"), .isFloat]) ∧
      ∀ d ∈ (ofTokens [.name "n", .detail (.lenient Detail.layoutKey "strided"), .isFloat]).details,
        d.key ≠ some Detail.namedKey := by
  have hdeclare : Schema.declare .plain
      [.name "n", .detail (.lenient Detail.layoutKey "strided"), .isFloat] =
        .ok (ofTokens [.name "n", .detail (.lenient Detail.layoutKey "strided"), .isFloat]) := rfl
  have hwithin := declare_within_capabilities hdeclare
  exact ⟨hdeclare, (hwithin.1 rfl).1, (hwithin.2 rfl).1⟩

/-- A detail with the key of layouts is kept where there are none. -/
theorem Schema.layout_detail_handed_in :
    ¬ ∀ caps tokens schema, Schema.declare caps tokens = .ok schema → caps.layouts = false →
      ∀ d ∈ schema.details, d.key ≠ some Detail.layoutKey := by
  intro h
  exact h .plain [.detail (.lenient Detail.layoutKey "strided")]
    (ofTokens [.detail (.lenient Detail.layoutKey "strided")]) rfl rfl
    (.lenient Detail.layoutKey "strided") (List.mem_singleton.mpr rfl) rfl

/-! ### Arrays without axis names -/

theorem Detail.BuiltIn.accepts_of_namedKey {d : Detail} (h : d.BuiltIn)
    (hkey : d.key = some namedKey) (v : ArrayView) : d.accepts v = v.namedAxes := by
  cases h with
  | named => rfl
  | float => cases hkey
  | dtype rule | layout l => exact absurd (Option.some.inj hkey) (by decide)

namespace Schema

variable {caps : Capabilities} {tokens : List Token} {schema : Schema} {v : ArrayView}

theorem matchInPlace_fails_iff (schema : Schema) (v : ArrayView) (b : Bindings) :
    (∃ m, (schema.matchInPlace v).run b = (.error m, b)) ↔
      ¬ ∃ b', schema.matchArray b v = .ok b' := by
  rw [run_matchInPlace]
  cases schema.matchArray b v with
  | ok b' => simp [InPlace.settle]
  | error m => simp [InPlace.settle]

/-- An open schema matches the arrays that its details accept. -/
theorem exists_matchArray_of_isOpen (h : schema.Declared) (hopen : schema.shape.isOpen = true)
    (b : Bindings) (v : ArrayView) :
    (∃ b', schema.matchArray b v = .ok b') ↔ ∀ d ∈ schema.details, d.accepts v = true := by
  rw [(decides_matchArray h.ellipsis_notMem_tail b v).exists_ok_iff]
  constructor
  · rintro ⟨hfits, -⟩
    exact hfits.details
  · intro hdetails
    obtain ⟨σ, hσ⟩ := Assignment.exists_extends b.get?
    exact ⟨⟨.inl hopen, .inl hopen, .inl hopen, hdetails⟩, σ, hσ,
      Shape.meets_readings.mpr (.inl hopen)⟩

/-- A schema that compares names and is not open matches no array without them. -/
theorem not_matchArray_of_nameless (h : schema.Declared) (hclosed : schema.shape.isOpen = false)
    (hnames : schema.shape.checkNames = true) (b : Bindings) (hv : v.namedAxes = false) :
    ¬ ∃ b', schema.matchArray b v = .ok b' := by
  rw [(decides_matchArray h.ellipsis_notMem_tail b v).exists_ok_iff]
  rintro ⟨hfits, -⟩
  obtain ⟨-, -, hadmits, -⟩ := (fits_iff_of_closed hclosed).mp hfits
  rw [(hadmits hnames).1] at hv
  cases hv

/-- The detail that turns on the comparison of names is kept, or another with
    its key is. -/
theorem exists_named_detail (hnames : (ofTokens tokens).shape.checkNames = true) :
    ∃ d ∈ (ofTokens tokens).details, d ∈ Token.details tokens ∧
      d.key = some Detail.namedKey := by
  obtain ⟨t, ht, d, hdetail, hkey⟩ := (checkNames_ofTokens tokens).mp hnames
  obtain ⟨held, hfirst, hkept⟩ :=
    Detail.exists_first?_distinct hkey (Token.mem_details.mpr ⟨t, ht, hdetail⟩)
  exact ⟨held, Detail.mem_of_first? hkept, Detail.mem_of_first? hfirst, Detail.key_of_first? hfirst⟩

/-- **When a schema that compares names refuses an array without them.**  It
    does unless it is open and all its details accept the array.  That cannot
    be where every detail handed in with the key of names refuses such arrays,
    as the built-in one does. -/
theorem nameless_refused_iff (h : Schema.declare caps tokens = .ok schema)
    (hnames : schema.shape.checkNames = true) (b : Bindings) (hv : v.namedAxes = false) :
    ((∃ m, (schema.matchInPlace v).run b = (.error m, b)) ↔
      schema.shape.isOpen = false ∨ ∃ d ∈ schema.details, d.accepts v = false) ∧
    ((∀ d, Token.detail d ∈ tokens → d.key = some Detail.namedKey → d.accepts v = false) →
      ∃ m, (schema.matchInPlace v).run b = (.error m, b)) := by
  have hdeclared : schema.Declared := ⟨caps, tokens, h⟩
  have hrefused : (∃ m, (schema.matchInPlace v).run b = (.error m, b)) ↔
      schema.shape.isOpen = false ∨ ∃ d ∈ schema.details, d.accepts v = false := by
    rw [matchInPlace_fails_iff]
    cases hopen : schema.shape.isOpen with
    | false =>
      simp only [true_or, iff_true]
      exact not_matchArray_of_nameless hdeclared hopen hnames b hv
    | true =>
      rw [exists_matchArray_of_isOpen hdeclared hopen]
      simp
  refine ⟨hrefused, fun hhanded => hrefused.mpr (.inr ?_)⟩
  obtain ⟨-, rfl⟩ := (declare_eq_ok_iff caps tokens schema).mp h
  obtain ⟨d, hkept, hd, hkey⟩ := exists_named_detail hnames
  refine ⟨d, hkept, ?_⟩
  rcases Token.handedIn_or_builtIn hd with hin | hbuiltIn
  · exact hhanded d hin hkey
  · rw [hbuiltIn.accepts_of_namedKey hkey v, hv]

/-- An open schema of built-in details, and an array that is of the right type
    but of a sort without names. -/
theorem nameless_refused_iff_isNamed :
    Schema.declare .full [.isFloat, .isNamed] = .ok (ofTokens [.isFloat, .isNamed]) ∧
      (ofTokens [.isFloat, .isNamed]).shape.checkNames = true ∧
        ∃ m, ((ofTokens [.isFloat, .isNamed]).matchInPlace
          ⟨[⟨2, none⟩], .f32, false, none⟩).run .empty = (.error m, .empty) := by
  have hdeclare : Schema.declare .full [.isFloat, .isNamed] =
      .ok (ofTokens [.isFloat, .isNamed]) := rfl
  have hnames : (ofTokens [.isFloat, .isNamed]).shape.checkNames = true := rfl
  refine ⟨hdeclare, hnames, (nameless_refused_iff hdeclare hnames .empty rfl).2 ?_⟩
  intro d hd
  simp at hd

/-- An open schema can compare names and match an array without them. -/
theorem nameless_accepted :
    ¬ ∀ caps tokens schema b v, Schema.declare caps tokens = .ok schema →
      schema.shape.checkNames = true → v.namedAxes = false →
        ∃ m, (schema.matchInPlace v).run b = (.error m, b) := by
  intro h
  obtain ⟨m, hm⟩ := h .full [.detail (.lenient Detail.namedKey "names")]
    (ofTokens [.detail (.lenient Detail.namedKey "names")]) .empty
    ⟨[⟨2, none⟩], .f32, false, none⟩ rfl rfl rfl
  cases hm

end Schema

end ShapeContracts
