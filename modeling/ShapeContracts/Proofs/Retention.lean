/-
  ShapeContracts/Proofs/Retention.lean
  ====================================
  **What becomes of the details of a declaration.**

  Of the details with one key a schema keeps the first.  The others must have
  its text, or there is no schema; they are dropped, and the one kept stands
  for them.

  A text says what a built-in detail asks: built-in details of one key and one
  text accept the same arrays (`Detail.BuiltIn.accepts_eq`), though not all are
  written alike, for the class `bool` has the text of its only type.  So nothing
  that built-in tokens ask is lost.  Details made by giving their parts need not
  keep to that, and one that is dropped for another with its key and text is no
  longer asked.
-/
import ShapeContracts.Proofs.Matching

namespace ShapeContracts

namespace Detail

/-! ### Which details are kept -/

theorem mem_of_mem_distinct {d : Detail} {ds : List Detail} (h : d ∈ distinct ds) : d ∈ ds := by
  induction ds with
  | nil => cases h
  | cons e ds ih =>
    rcases List.mem_cons.mp h with rfl | h
    · exact List.mem_cons_self ..
    · exact List.mem_cons_of_mem _ (ih (List.mem_filter.mp h).1)

theorem mem_distinct_of_key_none {d : Detail} {ds : List Detail} (hkey : d.key = none)
    (h : d ∈ ds) : d ∈ distinct ds := by
  induction ds with
  | nil => cases h
  | cons e ds ih =>
    rcases List.mem_cons.mp h with rfl | h
    · exact List.mem_cons_self ..
    · exact List.mem_cons_of_mem _ (List.mem_filter.mpr ⟨ih h, by simp [repeats, hkey]⟩)

/-- Every key that occurs is held by a detail that is kept. -/
theorem exists_first?_distinct {d : Detail} {ds : List Detail} {key : String}
    (hkey : d.key = some key) (h : d ∈ ds) :
    ∃ held, first? key ds = some held ∧ first? key (distinct ds) = some held := by
  cases hfirst : first? key ds with
  | none => exact absurd hkey (first?_eq_none_iff.mp hfirst d h)
  | some held => exact ⟨held, rfl, (first?_distinct key ds).trans hfirst⟩

/-! ### Built-in details -/

inductive BuiltIn : Detail → Prop
  | dtype (rule : DtypeRule) : BuiltIn (.dtype rule)
  | float : BuiltIn .float
  | named : BuiltIn .named
  | layout (l : Layout) : BuiltIn (.layout l)

/-! ### Built-in details and axes -/

theorem BuiltIn.accepts_withAxes {d : Detail} (h : d.BuiltIn) (v : ArrayView)
    (axes : List Axis) : d.accepts { v with axes } = d.accepts v := by
  cases h <;> rfl

/-- A built-in detail that refuses an array says the same of it with other axes.
    Only `named` looks at axes, and only in arrays it accepts. -/
theorem BuiltIn.found_withAxes {d : Detail} (h : d.BuiltIn) {v : ArrayView}
    (hrefused : d.accepts v = false) (axes : List Axis) :
    d.found { v with axes } = d.found v := by
  cases h with
  | named =>
    have hunnamed : v.namedAxes = false := hrefused
    simp [Detail.named, hunnamed]
  | dtype rule => rfl
  | float => rfl
  | layout l => rfl

end Detail

theorem checkDetails_withAxes {details : List Detail} (h : ∀ d ∈ details, d.BuiltIn)
    (v : ArrayView) (axes : List Axis) :
    checkDetails details { v with axes } = checkDetails details v := by
  unfold checkDetails
  induction details with
  | nil => rfl
  | cons d details ih =>
    obtain ⟨hd, hdetails⟩ := List.forall_mem_cons.mp h
    rw [List.find?_cons, List.find?_cons, hd.accepts_withAxes]
    cases haccepts : d.accepts v with
    | false => simp only [Bool.not_false, hd.found_withAxes haccepts]
    | true => exact ih hdetails

/-- Where all details of a declaration are built in, so are those of its schema. -/
theorem Schema.builtIn_of_declare {caps : Capabilities} {tokens : List Token} {schema : Schema}
    (h : Schema.declare caps tokens = .ok schema)
    (hbuiltIn : ∀ d ∈ Token.details tokens, d.BuiltIn) : ∀ d ∈ schema.details, d.BuiltIn := by
  obtain ⟨-, rfl⟩ := (Schema.declare_eq_ok_iff caps tokens schema).mp h
  intro d hd
  exact hbuiltIn d (Detail.mem_of_mem_distinct hd)

/-! ### Built-in details of one text -/

/-- A class whose text is also that of a type has no other type. -/
theorem ElementKind.contains_eq_of_text_eq {t : ElementType} {k : ElementKind}
    (h : t.text = k.text) (s : ElementType) : k.contains s = (t == s) := by
  have hbool : t = .bool ∧ k = .bool := by
    revert h
    cases t <;> cases k <;> decide
  obtain ⟨rfl, rfl⟩ := hbool
  cases s <;> rfl

theorem DtypeRule.accepts_eq_of_text_eq {r q : DtypeRule} (h : r.text = q.text)
    (s : ElementType) : r.accepts s = q.accepts s := by
  cases r with
  | exact t =>
    cases q with
    | exact u => rw [ElementType.text_injective h]
    | kind k => exact (ElementKind.contains_eq_of_text_eq h s).symm
  | kind k =>
    cases q with
    | exact u => exact ElementKind.contains_eq_of_text_eq h.symm s
    | kind j => rw [ElementKind.text_injective h]

namespace Detail

/-- Built-in details of one key and one text accept the same arrays. -/
theorem BuiltIn.accepts_eq {d e : Detail} (hd : d.BuiltIn) (he : e.BuiltIn) {key : String}
    (hdkey : d.key = some key) (hekey : e.key = some key) (htext : d.describe = e.describe)
    (v : ArrayView) : d.accepts v = e.accepts v := by
  have hkeys : d.key = e.key := hdkey.trans hekey.symm
  cases hd with
  | float => cases hdkey
  | dtype r =>
    cases he with
    | dtype q => exact DtypeRule.accepts_eq_of_text_eq htext v.dtype
    | float => cases hekey
    | named | layout l => exact absurd (Option.some.inj hkeys) (by decide)
  | named =>
    cases he with
    | named => rfl
    | float => cases hekey
    | dtype q | layout l => exact absurd (Option.some.inj hkeys) (by decide)
  | layout l =>
    cases he with
    | layout m => rw [Layout.text_injective htext]
    | float => cases hekey
    | dtype q | named => exact absurd (Option.some.inj hkeys) (by decide)

end Detail

/-- A token hands in a detail as it is, or names a built-in one. -/
theorem Token.builtIn_of_detail? {t : Token} {d : Detail} (h : t.detail? = some d) :
    t = .detail d ∨ d.BuiltIn := by
  cases t with
  | detail d =>
    cases h
    exact .inl rfl
  | dtype t | kind k =>
    cases h
    exact .inr (.dtype _)
  | layout l =>
    cases h
    exact .inr (.layout l)
  | isFloat =>
    cases h
    exact .inr .float
  | isNamed =>
    cases h
    exact .inr .named
  | _ => cases h

theorem Token.handedIn_or_builtIn {tokens : List Token} {d : Detail}
    (h : d ∈ Token.details tokens) : Token.detail d ∈ tokens ∨ d.BuiltIn := by
  obtain ⟨t, ht, hdetail⟩ := Token.mem_details.mp h
  rcases Token.builtIn_of_detail? hdetail with rfl | hbuiltIn
  · exact .inl ht
  · exact .inr hbuiltIn

/-! ### What is asked of an array that matches -/

/-- An array that matches is accepted by every detail of the schema. -/
theorem Schema.accepts_of_matchArray {schema : Schema} (h : schema.Declared) {b b' : Bindings}
    {v : ArrayView} (hmatch : schema.matchArray b v = .ok b') :
    ∀ d ∈ schema.details, d.accepts v = true := by
  obtain ⟨hfits, -⟩ := (matchArray_eq_ok_iff h.ellipsis_notMem_tail).mp hmatch
  exact hfits.details

/-- **Every detail declared holds of an array that matches, unless another one
    stands for it.**  A detail that does not hold was dropped: the schema has a
    detail of its key and its text, which does hold, and the two are not both
    built in. -/
theorem Schema.details_hold_of_matchArray {caps : Capabilities} {tokens : List Token}
    {schema : Schema} (h : Schema.declare caps tokens = .ok schema) {b b' : Bindings}
    {v : ArrayView} (hmatch : schema.matchArray b v = .ok b') :
    ∀ d ∈ Token.details tokens, d.accepts v = true ∨
      ∃ key held, d.key = some key ∧ Detail.first? key schema.details = some held ∧
        held.describe = d.describe ∧ held.accepts v = true ∧ ¬ (d.BuiltIn ∧ held.BuiltIn) := by
  have hholds := accepts_of_matchArray ⟨caps, tokens, h⟩ hmatch
  obtain ⟨hgrammar, rfl⟩ := (Schema.declare_eq_ok_iff caps tokens schema).mp h
  intro d hd
  cases hkey : d.key with
  | none => exact .inl (hholds d (Detail.mem_distinct_of_key_none hkey hd))
  | some key =>
    obtain ⟨held, hfirst, hkept⟩ := Detail.exists_first?_distinct hkey hd
    have hheld : held.accepts v = true := hholds held (Detail.mem_of_first? hkept)
    have hmem : held ∈ Token.details tokens := Detail.mem_of_first? hfirst
    have hheldkey : held.key = some key := Detail.key_of_first? hfirst
    have htext : held.describe = d.describe := hgrammar.detail held hmem d hd key hheldkey hkey
    by_cases hbuiltIn : d.BuiltIn ∧ held.BuiltIn
    · -- the text the two share says what they ask
      exact .inl ((hbuiltIn.1.accepts_eq hbuiltIn.2 hkey hheldkey htext.symm v).trans hheld)
    · exact .inr ⟨key, held, rfl, hkept, htext, hheld, hbuiltIn⟩

/-- The type `bool` is dropped for the class `bool`, and holds. -/
theorem Schema.details_hold_of_matchArray_bool :
    let flags : ArrayView := ⟨[⟨2, none⟩], .bool, false, none⟩
    Schema.declare .plain [.kind .bool, .dtype .bool] = .ok (ofTokens [.kind .bool, .dtype .bool]) ∧
      (ofTokens [.kind .bool, .dtype .bool]).matchArray .empty flags = .ok .empty ∧
        (Detail.dtype (.exact .bool)).accepts flags = true := by
  intro flags
  have hdeclare : Schema.declare .plain [.kind .bool, .dtype .bool] =
      .ok (ofTokens [.kind .bool, .dtype .bool]) := rfl
  have hmatch : (ofTokens [.kind .bool, .dtype .bool]).matchArray .empty flags = .ok .empty := rfl
  refine ⟨hdeclare, hmatch, ?_⟩
  have hdeclared : Detail.dtype (.exact .bool) ∈ Token.details [.kind .bool, .dtype .bool] := by
    simp [Token.details, Token.detail?]
  rcases details_hold_of_matchArray hdeclare hmatch _ hdeclared with
    haccepts | ⟨key, held, hkey, hkept, _, _, hbuiltIn⟩
  · exact haccepts
  · obtain rfl : Detail.dtypeKey = key := Option.some.inj hkey
    obtain rfl : Detail.dtype (.kind .bool) = held := Option.some.inj hkept
    exact absurd ⟨.dtype _, .dtype _⟩ hbuiltIn

/-! ### Details handed in -/

/-- A detail that accepts every array, with a key and a text of one's choice. -/
def Detail.lenient (key describe : String) : Detail where
  describe := describe
  key := some key
  accepts _ := true
  found := ArrayView.text

/-- A detail may be lost: a lenient one with the key and the text of the type
    `f32` takes its place, and arrays of another type match. -/
theorem Schema.declared_detail_lost :
    ¬ ∀ caps tokens schema b b' v, Schema.declare caps tokens = .ok schema →
      schema.matchArray b v = .ok b' → ∀ d ∈ Token.details tokens, d.accepts v = true := by
  intro h
  have haccepts := h .plain [.detail (.lenient Detail.dtypeKey "f32"), .dtype .f32]
    (ofTokens [.detail (.lenient Detail.dtypeKey "f32"), .dtype .f32]) .empty .empty
    ⟨[⟨2, none⟩], .i64, false, none⟩ rfl rfl (.dtype (.exact .f32))
    (by simp [Token.details, Token.detail?])
  cases haccepts

end ShapeContracts
