/-
  ShapeContracts/Proofs/Offence.lean
  ==================================
  **Why tokens declare no schema.**

  A token may be an offence after the tokens before it, and `Token.Offends` says
  when it is one and with which error.  It is a relation with one rule for each
  kind of offence; the rules exclude each other, so the order in which a reader
  tries them does not show (`Token.offends_iff`).

  Reading stops at the first offence and looks at nothing behind it.  Whether the
  markers go with the rest of the list can only be told at its end, hence
  `Token.MarkersClash` is the error only where no token is an offence
  (`Schema.declare_eq_error_iff`).
-/
import ShapeContracts.Proofs.Grammar

namespace ShapeContracts

variable {caps : Capabilities} {tokens before : List Token} {t : Token}
  {e : DeclarationError}

/-! ### Offences -/

/-- When a token is an offence after the tokens before it. -/
inductive Token.Offends (caps : Capabilities) (before : List Token) :
    Token → DeclarationError → Prop
  | size {n : Int64} : n < -1 → Offends caps before (.size n) (.invalidSize n)
  | name : Offends caps before (.name "") .emptyName
  | sizedName {n : Size} : Offends caps before (.sizedName "" n) .emptyName
  | secondEllipsis :
      Token.ellipsis ∈ before → Offends caps before .ellipsis .duplicateEllipsis
  | lateEllipsis :
      Token.ellipsis ∉ before → dims before ≠ [] →
      Offends caps before .ellipsis (.ellipsisNotLeading (dims before).length)
  | layout {l : Layout} :
      caps.layouts = false → Offends caps before (.layout l) (.layoutUnsupported l)
  | naming {t : Token} {d : Detail} :
      t.detail? = some d → d.key = some Detail.namedKey → caps.namedAxes = false →
      Offends caps before t .namesUnsupported
  /-- The capabilities have what the detail asks for, but the first detail of its
      key has another text. -/
  | conflict {t : Token} {d held : Detail} {key : String} :
      t.detail? = some d → (∀ l, t = .layout l → caps.layouts = true) →
      (d.key = some Detail.namedKey → caps.namedAxes = true) →
      d.key = some key → Detail.first? key (details before) = some held →
      held.describe ≠ d.describe →
      Offends caps before t (.conflictingDetail key held.describe d.describe)

theorem Token.ellipsis_mem_dims : Dim.ellipsis ∈ dims tokens ↔ Token.ellipsis ∈ tokens := by
  constructor
  · intro h
    rcases List.mem_filterMap.mp h with ⟨t, ht, hdim⟩
    rwa [eq_ellipsis_of_dim? hdim] at ht
  · intro h
    exact List.mem_filterMap.mpr ⟨_, h, rfl⟩

/-! ### What is wrong with a detail -/

namespace Detail

variable {earlier : List Detail} {d : Detail}

theorem offence?_of_unsupported (hkey : d.key = some namedKey) (hcaps : caps.namedAxes = false) :
    d.offence? caps earlier = some .namesUnsupported := by
  simp [offence?, checksNames, hkey, hcaps]

/-- Where names are supported, only a conflict can be wrong with a detail. -/
theorem offence?_eq_some_iff (hnamed : d.key = some namedKey → caps.namedAxes = true) :
    d.offence? caps earlier = some e ↔
      ∃ key held, d.key = some key ∧ first? key earlier = some held ∧
        held.describe ≠ d.describe ∧ .conflictingDetail key held.describe d.describe = e := by
  have hpasses : ¬ (d.checksNames && !caps.namedAxes) = true := by
    simpa [checksNames] using hnamed
  rw [offence?, if_neg hpasses]
  rcases hkey : d.key with _ | key
  · simp
  · rcases hheld : first? key earlier with _ | held
    · simp [hheld]
    · simp [hheld]

end Detail

/-! ### The rules say what is wrong with a token -/

namespace Token

theorem Offends.offence?_eq (h : t.Offends caps before e) : t.offence? caps before = some e := by
  cases h with
  | size hn => simp [offence?, hn]
  | name => simp [offence?]
  | sizedName => simp [offence?]
  | secondEllipsis hmem => simp [offence?, ellipsis_mem_dims, hmem]
  | lateEllipsis hmem hdims => simp [offence?, ellipsis_mem_dims, hmem, hdims]
  | layout hcaps => simp [offence?, hcaps]
  | @naming t d hdetail hkey hcaps =>
    have hoffence : d.offence? caps (details before) = some .namesUnsupported :=
      Detail.offence?_of_unsupported hkey hcaps
    cases t with
    | layout l =>
      cases hdetail
      simp [Detail.layout, Detail.layoutKey, Detail.namedKey] at hkey
    | _ => simp_all [offence?, detail?]
  | @conflict t d held key hdetail hlayout hnamed hkey hheld hne =>
    have hoffence : d.offence? caps (details before) =
        some (.conflictingDetail key held.describe d.describe) :=
      (Detail.offence?_eq_some_iff hnamed).mpr ⟨key, held, hkey, hheld, hne, rfl⟩
    cases t with
    | layout l =>
      cases hdetail
      simp [offence?, hlayout l rfl, hoffence]
    | _ => simp_all [offence?, detail?]

/-- What is wrong with the detail of a token is wrong with the token, when the
    token is not refused for itself. -/
theorem offends_of_detail {d : Detail} (hdetail : t.detail? = some d)
    (hlayout : ∀ l, t = .layout l → caps.layouts = true)
    (h : d.offence? caps (details before) = some e) : t.Offends caps before e := by
  by_cases hnamed : d.key = some Detail.namedKey → caps.namedAxes = true
  · rcases (Detail.offence?_eq_some_iff hnamed).mp h with ⟨key, held, hkey, hheld, hne, rfl⟩
    exact .conflict hdetail hlayout hnamed hkey hheld hne
  · rcases Classical.not_imp.mp hnamed with ⟨hkey, hcaps⟩
    have hcaps : caps.namedAxes = false := by simpa using hcaps
    rw [Detail.offence?_of_unsupported hkey hcaps] at h
    cases h
    exact .naming hdetail hkey hcaps

/-- The rules exclude each other and leave nothing out. -/
theorem offends_iff : t.Offends caps before e ↔ t.offence? caps before = some e := by
  refine ⟨Offends.offence?_eq, fun h => ?_⟩
  cases t with
  | size n =>
    simp [offence?] at h
    rcases h with ⟨hn, rfl⟩
    exact .size hn
  | name word =>
    simp [offence?] at h
    rcases h with ⟨rfl, rfl⟩
    exact .name
  | sizedName word n =>
    simp [offence?] at h
    rcases h with ⟨rfl, rfl⟩
    exact .sizedName
  | ellipsis =>
    by_cases hmem : Token.ellipsis ∈ before
    · simp [offence?, ellipsis_mem_dims, hmem] at h
      subst h
      exact .secondEllipsis hmem
    · simp [offence?, ellipsis_mem_dims, hmem] at h
      rcases h with ⟨hdims, rfl⟩
      exact .lateEllipsis hmem hdims
  | layout l =>
    by_cases hcaps : caps.layouts = true
    · simp only [offence?, if_pos hcaps] at h
      exact offends_of_detail rfl (fun _ _ => hcaps) h
    · simp only [offence?, if_neg hcaps] at h
      cases h
      exact .layout (by simpa using hcaps)
  | wildcard => cases h
  | anonymous n => cases h
  | anyRank => cases h
  | scalar => cases h
  | dtype s => exact offends_of_detail rfl (fun _ hl => by cases hl) h
  | kind k => exact offends_of_detail rfl (fun _ hl => by cases hl) h
  | isFloat => exact offends_of_detail rfl (fun _ hl => by cases hl) h
  | isNamed => exact offends_of_detail rfl (fun _ hl => by cases hl) h
  | detail d => exact offends_of_detail rfl (fun _ hl => by cases hl) h

end Token

/-- No token of a list is an offence after the tokens before it. -/
def Token.Inoffensive (caps : Capabilities) (tokens : List Token) : Prop :=
  ∀ front t back, tokens = front ++ t :: back → ∀ e, ¬ t.Offends caps front e

theorem legible_iff_inoffensive : Legible caps tokens ↔ Token.Inoffensive caps tokens := by
  simp only [Legible, Token.Inoffensive, Token.offends_iff, Option.eq_none_iff_forall_ne_some,
    ne_eq]

/-! ### The first offence -/

theorem Token.firstOffence?_eq_some_iff {rest : List Token} :
    firstOffence? caps before rest = some e ↔
      ∃ front t back, rest = front ++ t :: back ∧ firstOffence? caps before front = none ∧
        t.offence? caps (before ++ front) = some e := by
  induction rest generalizing before with
  | nil => simp [firstOffence?]
  | cons u rest ih =>
    rw [firstOffence?, Option.or_eq_some_iff, ih]
    constructor
    · rintro (hu | ⟨hu, front, t, back, rfl, hfront, ht⟩)
      · exact ⟨[], u, rest, rfl, rfl, by rwa [List.append_nil]⟩
      · refine ⟨u :: front, t, back, rfl, by simp [firstOffence?, hu, hfront], ?_⟩
        rwa [List.append_assoc] at ht
    · rintro ⟨front, t, back, hsplit, hfront, ht⟩
      rcases front with _ | ⟨v, front⟩
      · cases hsplit
        rw [List.append_nil] at ht
        exact .inl ht
      · cases hsplit
        rcases Option.or_eq_none_iff.mp hfront with ⟨hu, hfront⟩
        refine .inr ⟨hu, front, t, back, rfl, hfront, ?_⟩
        rwa [List.append_assoc]

/-- The offence that reading a list stops at. -/
theorem Token.firstOffence?_nil_eq_some_iff :
    firstOffence? caps [] tokens = some e ↔
      ∃ before t after, tokens = before ++ t :: after ∧ Token.Inoffensive caps before ∧
        t.Offends caps before e := by
  simp only [firstOffence?_eq_some_iff, firstOffence?_eq_none_iff_legible,
    legible_iff_inoffensive, offends_iff, List.nil_append]

/-! ### The markers -/

/-- When the markers do not go with the rest of a list.  Rank zero is weighed
    before any rank. -/
inductive Token.MarkersClash (tokens : List Token) : DeclarationError → Prop
  | scalar :
      Token.scalar ∈ tokens → Token.anyRank ∈ tokens ∨ dims tokens ≠ [] →
      MarkersClash tokens .scalarWithDimensions
  | anyRank :
      Token.scalar ∉ tokens → Token.anyRank ∈ tokens → dims tokens ≠ [] →
      MarkersClash tokens .openWithDimensions

theorem Draft.finish_eq_error_iff :
    (ofTokens tokens).finish = .error e ↔ Token.MarkersClash tokens e := by
  have hscalar : (ofTokens tokens).isScalar = true ↔ Token.scalar ∈ tokens := Token.any_isScalar
  have hopen : (ofTokens tokens).isOpen = true ↔ Token.anyRank ∈ tokens := Token.any_isAnyRank
  by_cases hs : Token.scalar ∈ tokens ∧ (Token.anyRank ∈ tokens ∨ Token.dims tokens ≠ [])
  · rw [finish, if_pos (by rwa [hscalar, hopen])]
    constructor
    · intro herror
      cases herror
      exact .scalar hs.1 hs.2
    · intro hclash
      cases hclash with
      | scalar => rfl
      | anyRank hmem => exact absurd hs.1 hmem
  · rw [finish, if_neg (by rwa [hscalar, hopen])]
    by_cases ho : Token.anyRank ∈ tokens ∧ Token.dims tokens ≠ []
    · rw [if_pos (by rwa [hopen])]
      constructor
      · intro herror
        cases herror
        exact .anyRank (fun hmem => hs ⟨hmem, .inl ho.1⟩) ho.1 ho.2
      · intro hclash
        cases hclash with
        | scalar hmem hother => exact absurd ⟨hmem, hother⟩ hs
        | anyRank => rfl
    · rw [if_neg (by rwa [hopen])]
      constructor
      · intro herror
        cases herror
      · intro hclash
        cases hclash with
        | scalar hmem hother => exact absurd ⟨hmem, hother⟩ hs
        | anyRank _ hmem hdims => exact absurd ⟨hmem, hdims⟩ ho

/-! ### The error of a declaration -/

theorem Schema.declare_eq_error_iff :
    Schema.declare caps tokens = .error e ↔
      (∃ before t after, tokens = before ++ t :: after ∧ Token.Inoffensive caps before ∧
        t.Offends caps before e) ∨
      Token.Inoffensive caps tokens ∧ Token.MarkersClash tokens e := by
  have hread : tokens.foldlM (Draft.add caps) .empty =
      unlessOffence (Token.firstOffence? caps [] tokens) (Draft.ofTokens tokens) :=
    Draft.foldlM_add caps [] tokens
  rw [declare, hread, ← Token.firstOffence?_nil_eq_some_iff, ← legible_iff_inoffensive,
    ← firstOffence?_eq_none_iff_legible, ← Draft.finish_eq_error_iff]
  rcases Token.firstOffence? caps [] tokens with _ | first
  · simp [unlessOffence, Except.bind]
  · simp [unlessOffence, Except.bind]

/-- **The error of a declaration is its first offence.**  The first token that is
    an offence after the tokens before it gives the error, and gives it whatever
    the tokens behind it are.  Where no token is an offence, the error is that the
    markers do not go with the rest. -/
theorem Schema.declaration_error_first_offence (caps : Capabilities) :
    (∀ tokens e, Schema.declare caps tokens = .error e ↔
      (∃ before t after, tokens = before ++ t :: after ∧ Token.Inoffensive caps before ∧
        t.Offends caps before e) ∨
      Token.Inoffensive caps tokens ∧ Token.MarkersClash tokens e) ∧
    ∀ before t e, Token.Inoffensive caps before → t.Offends caps before e →
      ∀ after, Schema.declare caps (before ++ t :: after) = .error e := by
  constructor
  · intro tokens e
    exact declare_eq_error_iff
  · intro before t e hbefore ht after
    exact declare_eq_error_iff.mpr (.inl ⟨before, t, after, rfl, hbefore, ht⟩)

/-- Three tokens are offences and the markers clash, but the second ellipsis
    comes first. -/
example : Schema.declare .plain
    [.scalar, .ellipsis, .name "n", .ellipsis, .size (-2), .isNamed] =
      .error .duplicateEllipsis :=
  rfl

end ShapeContracts
