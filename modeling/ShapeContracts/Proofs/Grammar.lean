/-
  ShapeContracts/Proofs/Grammar.lean
  ==================================
  **The declarations that declare a schema.**

  A list of tokens declares a schema exactly when it is `Grammatical`, and the
  schema is then the one read off the list as a whole, `Schema.ofTokens`.

  The conditions on single tokens and on pairs of tokens say that reading meets
  no offence; the conditions on the two markers are those weighed at the end.
  That details with one key agree in text is a condition on pairs, although
  reading compares a detail only with the first of its key: all of them agree
  with the first, so any two of them agree.
-/
import ShapeContracts.Proofs.Declaration

namespace ShapeContracts

/-! ### The grammar -/

/-- What makes a list of tokens a declaration. -/
structure Grammatical (caps : Capabilities) (tokens : List Token) : Prop where
  /-- No size lies below -1. -/
  size : ∀ n, Token.size n ∈ tokens → -1 ≤ n
  /-- No dimension has the empty name. -/
  name : Token.name "" ∉ tokens
  sizedName : ∀ n, Token.sizedName "" n ∉ tokens
  /-- The ellipsis occurs only once, and no dimension comes before it. -/
  ellipsis : ∀ front back, tokens = front ++ .ellipsis :: back →
    Token.ellipsis ∉ back ∧ ∀ t ∈ front, t.dim? = none
  /-- Details with one key have one text. -/
  detail : ∀ d ∈ Token.details tokens, ∀ e ∈ Token.details tokens, ∀ key,
    d.key = some key → e.key = some key → d.describe = e.describe
  /-- Layouts are asked for only where there are layouts. -/
  layout : ∀ l, Token.layout l ∈ tokens → caps.layouts = true
  /-- Names are compared only where axes have names. -/
  named : ∀ d ∈ Token.details tokens, d.key = some Detail.namedKey → caps.namedAxes = true
  /-- Rank zero goes with neither any rank nor dimensions. -/
  scalar : Token.scalar ∈ tokens → Token.anyRank ∉ tokens ∧ ∀ t ∈ tokens, t.dim? = none
  /-- Any rank does not go with dimensions. -/
  anyRank : Token.anyRank ∈ tokens → ∀ t ∈ tokens, t.dim? = none

/-! ### When a token is no offence -/

theorem Detail.offence?_eq_none_iff {caps : Capabilities} {earlier : List Detail} {d : Detail} :
    d.offence? caps earlier = none ↔
      (d.key = some namedKey → caps.namedAxes = true) ∧
        ∀ key held, d.key = some key → first? key earlier = some held →
          held.describe = d.describe := by
  have hnames : (d.checksNames && !caps.namedAxes) = true ↔
      ¬ (d.key = some namedKey → caps.namedAxes = true) := by
    simp [checksNames]
  unfold offence?
  split
  next h =>
    constructor
    · intro hnone
      cases hnone
    · intro hboth
      exact absurd hboth.1 (hnames.mp h)
  next h =>
    have hsupported := Decidable.not_not.mp fun hn => h (hnames.mpr hn)
    cases hkey : d.key with
    | none => simp
    | some key =>
      dsimp only
      cases hfirst : first? key earlier with
      | none =>
        refine ⟨fun _ => ⟨hkey ▸ hsupported, ?_⟩, fun _ => rfl⟩
        intro key' held hkey' hheld
        cases hkey'
        rw [hfirst] at hheld
        cases hheld
      | some first =>
        dsimp only
        split
        next heq =>
          refine ⟨fun _ => ⟨hkey ▸ hsupported, ?_⟩, fun _ => rfl⟩
          intro key' held hkey' hheld
          cases hkey'
          cases hfirst.symm.trans hheld
          exact heq
        next hne =>
          constructor
          · intro hnone
            cases hnone
          · intro hboth
            exact absurd (hboth.2 key first rfl hfirst) hne

namespace Token

/-- A token is no offence when its kind of token asks for nothing or gets what
    it asks for.  An ellipsis asks that no dimension stands before it, which
    also excludes another ellipsis. -/
theorem offence?_eq_none_iff {caps : Capabilities} {before : List Token} {t : Token} :
    t.offence? caps before = none ↔
      (∀ n, t = .size n → -1 ≤ n) ∧ t ≠ .name "" ∧ (∀ n, t ≠ .sizedName "" n) ∧
        (t = .ellipsis → dims before = []) ∧ (∀ l, t = .layout l → caps.layouts = true) ∧
          ∀ d, t.detail? = some d → d.offence? caps (details before) = none := by
  cases t with
  | size n =>
    have hlt : ¬ n < -1 ↔ -1 ≤ n := by
      rw [Int64.lt_iff_toInt_lt, Int64.le_iff_toInt_le, Int.not_lt]
    simp [offence?, detail?, hlt]
  | name word => simp [offence?, detail?]
  | sizedName word n => simp [offence?, detail?]
  | ellipsis =>
    simp only [offence?, detail?]
    split
    next hmem => simp [List.ne_nil_of_mem hmem]
    next => simp
  | layout l => cases hcaps : caps.layouts <;> simp [offence?, detail?, hcaps]
  | _ => simp [offence?, detail?]

end Token

/-! ### When no token is an offence -/

/-- Reading meets no offence: no token is one after the tokens before it. -/
def Legible (caps : Capabilities) (tokens : List Token) : Prop :=
  ∀ front t back, tokens = front ++ t :: back → t.offence? caps front = none

theorem firstOffence?_eq_none_iff_legible {caps : Capabilities} {tokens : List Token} :
    Token.firstOffence? caps [] tokens = none ↔ Legible caps tokens :=
  Token.firstOffence?_eq_none_iff

namespace Legible

variable {caps : Capabilities} {tokens : List Token}

/-- Every token of a legible list is no offence after some of the others. -/
theorem of_mem (h : Legible caps tokens) {t : Token} (ht : t ∈ tokens) :
    ∃ front back, tokens = front ++ t :: back ∧ t.offence? caps front = none := by
  obtain ⟨front, back, hsplit⟩ := List.append_of_mem ht
  exact ⟨front, back, hsplit, h front t back hsplit⟩

/-- Every detail has the text of the first detail of its key. -/
theorem describe_of_first? (h : Legible caps tokens) {d held : Detail} {key : String}
    (hd : d ∈ Token.details tokens) (hkey : d.key = some key)
    (hheld : Detail.first? key (Token.details tokens) = some held) :
    held.describe = d.describe := by
  obtain ⟨t, ht, hdetail⟩ := Token.mem_details.mp hd
  obtain ⟨front, back, rfl, hlegal⟩ := h.of_mem ht
  have hagrees : ∀ first, Detail.first? key (Token.details front) = some first →
      first.describe = d.describe := by
    intro first hfirst
    obtain ⟨_, _, _, _, _, hd⟩ := Token.offence?_eq_none_iff.mp hlegal
    exact (Detail.offence?_eq_none_iff.mp (hd d hdetail)).2 key first hkey hfirst
  have hsplit : Token.details (front ++ t :: back) =
      Token.details front ++ d :: Token.details back := by
    rw [Token.details_append, Token.details, Token.details, List.filterMap_cons_some hdetail]
    rfl
  rw [hsplit, Detail.first?, List.find?_append] at hheld
  -- either an earlier detail has the key, or `d` is itself the first one
  rcases hfront : Detail.first? key (Token.details front) with _ | first
  · rw [Detail.first?] at hfront
    rw [hfront, Option.none_or, List.find?_cons_of_pos (by simp [hkey])] at hheld
    cases hheld
    rfl
  · have hfind := hfront
    rw [Detail.first?] at hfind
    rw [hfind, Option.some_or] at hheld
    cases hheld
    exact hagrees _ hfront

/-- Two details of one key agree with the first one, hence with each other. -/
theorem describe_eq (h : Legible caps tokens) {d e : Detail} {key : String}
    (hd : d ∈ Token.details tokens) (he : e ∈ Token.details tokens)
    (hdkey : d.key = some key) (hekey : e.key = some key) : d.describe = e.describe := by
  cases hfirst : Detail.first? key (Token.details tokens) with
  | none => exact absurd hdkey (Detail.first?_eq_none_iff.mp hfirst d hd)
  | some held =>
    exact (h.describe_of_first? hd hdkey hfirst).symm.trans (h.describe_of_first? he hekey hfirst)

/-- No dimension stands before an ellipsis. -/
theorem dims_eq_nil (h : Legible caps tokens) {front back : List Token}
    (hsplit : tokens = front ++ .ellipsis :: back) : Token.dims front = [] := by
  obtain ⟨_, _, _, hdims, _⟩ := Token.offence?_eq_none_iff.mp (h front _ back hsplit)
  exact hdims rfl

end Legible

/-- A legible list whose markers go with the rest is grammatical. -/
theorem Grammatical.of_legible {caps : Capabilities} {tokens : List Token}
    (h : Legible caps tokens)
    (hscalar : Token.scalar ∈ tokens → Token.anyRank ∉ tokens ∧ ∀ t ∈ tokens, t.dim? = none)
    (hanyRank : Token.anyRank ∈ tokens → ∀ t ∈ tokens, t.dim? = none) :
    Grammatical caps tokens where
  size n hn := by
    obtain ⟨_, _, _, hlegal⟩ := h.of_mem hn
    exact (Token.offence?_eq_none_iff.mp hlegal).1 n rfl
  name hname := by
    obtain ⟨_, _, _, hlegal⟩ := h.of_mem hname
    exact (Token.offence?_eq_none_iff.mp hlegal).2.1 rfl
  sizedName n hn := by
    obtain ⟨_, _, _, hlegal⟩ := h.of_mem hn
    exact (Token.offence?_eq_none_iff.mp hlegal).2.2.1 n rfl
  ellipsis front back hsplit := by
    refine ⟨fun hback => ?_, Token.dims_eq_nil_iff.mp (h.dims_eq_nil hsplit)⟩
    -- a second ellipsis would have the first one before it
    obtain ⟨between, rest, rfl⟩ := List.append_of_mem hback
    have hsecond : tokens = (front ++ .ellipsis :: between) ++ .ellipsis :: rest := by
      rw [hsplit, List.append_assoc]
      rfl
    have hdims : Token.dims (front ++ .ellipsis :: between) = [] := h.dims_eq_nil hsecond
    have hnone := Token.dims_eq_nil_iff.mp hdims .ellipsis (by simp)
    cases hnone
  detail d hd e he key hdkey hekey := h.describe_eq hd he hdkey hekey
  layout l hl := by
    obtain ⟨_, _, _, hlegal⟩ := h.of_mem hl
    exact (Token.offence?_eq_none_iff.mp hlegal).2.2.2.2.1 l rfl
  named d hd hkey := by
    obtain ⟨t, ht, hdetail⟩ := Token.mem_details.mp hd
    obtain ⟨_, _, _, hlegal⟩ := h.of_mem ht
    have hdlegal := (Token.offence?_eq_none_iff.mp hlegal).2.2.2.2.2 d hdetail
    exact (Detail.offence?_eq_none_iff.mp hdlegal).1 hkey
  scalar := hscalar
  anyRank := hanyRank

/-- In a grammatical list no token is an offence. -/
theorem Grammatical.legible {caps : Capabilities} {tokens : List Token}
    (h : Grammatical caps tokens) : Legible caps tokens := by
  intro front t back hsplit
  have ht : t ∈ tokens := by
    rw [hsplit]
    exact List.mem_append_right _ (List.mem_cons_self ..)
  refine Token.offence?_eq_none_iff.mpr ⟨?_, ?_, ?_, ?_, ?_, fun d hdetail => ?_⟩
  · rintro n rfl
    exact h.size n ht
  · rintro rfl
    exact h.name ht
  · rintro n rfl
    exact h.sizedName n ht
  · rintro rfl
    exact Token.dims_eq_nil_iff.mpr (h.ellipsis front back hsplit).2
  · rintro l rfl
    exact h.layout l ht
  · have hd : d ∈ Token.details tokens := Token.mem_details.mpr ⟨t, ht, hdetail⟩
    refine Detail.offence?_eq_none_iff.mpr ⟨h.named d hd, fun key held hkey hheld => ?_⟩
    have hmem : held ∈ Token.details tokens := by
      rw [hsplit, Token.details_append]
      exact List.mem_append_left _ (Detail.mem_of_first? hheld)
    exact h.detail held hmem d hd key (Detail.key_of_first? hheld) hkey

/-! ### The schema declared -/

/-- The schema read off a whole list of tokens.  It is open when a marker says
    so, and also when there are details but nothing about dimensions. -/
def Schema.ofTokens (tokens : List Token) : Schema where
  shape := {
    dims := Token.dims tokens
    checkNames := (Token.details tokens).any Detail.checksNames
    isOpen := tokens.any Token.isAnyRank ||
      ((Token.dims tokens).isEmpty && !tokens.any Token.isScalar &&
        !(Token.details tokens).isEmpty) }
  details := Detail.distinct (Token.details tokens)

theorem Detail.isEmpty_distinct (ds : List Detail) : (distinct ds).isEmpty = ds.isEmpty := by
  cases ds <;> rfl

/-- The markers are weighed against the dimensions and against each other. -/
theorem Draft.finish_ofTokens (tokens : List Token) (schema : Schema) :
    (ofTokens tokens).finish = .ok schema ↔
      (Token.scalar ∈ tokens → Token.anyRank ∉ tokens ∧ ∀ t ∈ tokens, t.dim? = none) ∧
        (Token.anyRank ∈ tokens → ∀ t ∈ tokens, t.dim? = none) ∧
          schema = Schema.ofTokens tokens := by
  simp only [← Token.any_isScalar, ← Token.any_isAnyRank, ← Token.dims_eq_nil_iff]
  have hbuilt : (Except.ok (Schema.ofTokens tokens) : Except DeclarationError Schema) =
      .ok schema ↔ schema = Schema.ofTokens tokens := by
    rw [Except.ok.injEq, eq_comm]
  unfold finish
  simp only [ofTokens, Detail.isEmpty_distinct]
  split
  next h =>
    obtain ⟨hscalar, hother⟩ := h
    constructor
    · intro herror
      cases herror
    · rintro ⟨hweighed, -⟩
      rcases hother with hopen | hdims
      · exact absurd hopen (hweighed hscalar).1
      · exact absurd (hweighed hscalar).2 hdims
  next hscalar =>
    split
    next h =>
      constructor
      · intro herror
        cases herror
      · rintro ⟨-, hweighed, -⟩
        exact absurd (hweighed h.1) h.2
    next hopen =>
      refine hbuilt.trans ⟨fun h => ⟨fun hs => ⟨fun ho => ?_, ?_⟩, fun ho => ?_, h⟩, fun h => h.2.2⟩
      · exact hscalar ⟨hs, .inl ho⟩
      · exact Decidable.not_not.mp fun hd => hscalar ⟨hs, .inr hd⟩
      · exact Decidable.not_not.mp fun hd => hopen ⟨ho, hd⟩

/-- Grammatical tokens declare one schema, and other tokens declare none. -/
theorem Schema.declare_eq_ok_iff (caps : Capabilities) (tokens : List Token) (schema : Schema) :
    Schema.declare caps tokens = .ok schema ↔
      Grammatical caps tokens ∧ schema = Schema.ofTokens tokens := by
  have hread : tokens.foldlM (Draft.add caps) .empty =
      unlessOffence (Token.firstOffence? caps [] tokens) (Draft.ofTokens tokens) :=
    Draft.foldlM_add caps [] tokens
  unfold declare
  rw [hread]
  cases hoffence : Token.firstOffence? caps [] tokens with
  | some e =>
    constructor
    · intro herror
      cases herror
    · rintro ⟨hgrammar, -⟩
      rw [firstOffence?_eq_none_iff_legible.mpr hgrammar.legible] at hoffence
      cases hoffence
  | none =>
    have hlegible := firstOffence?_eq_none_iff_legible.mp hoffence
    refine (Draft.finish_ofTokens tokens schema).trans ⟨?_, ?_⟩
    · rintro ⟨hscalar, hanyRank, hschema⟩
      exact ⟨.of_legible hlegible hscalar hanyRank, hschema⟩
    · rintro ⟨hgrammar, hschema⟩
      exact ⟨hgrammar.scalar, hgrammar.anyRank, hschema⟩

theorem Grammatical.isOk_declare_iff {caps : Capabilities} {tokens : List Token} :
    (Schema.declare caps tokens).isOk = true ↔ Grammatical caps tokens := by
  cases hdeclare : Schema.declare caps tokens with
  | ok schema =>
    exact ⟨fun _ => ((Schema.declare_eq_ok_iff caps tokens schema).mp hdeclare).1, fun _ => rfl⟩
  | error e =>
    constructor
    · intro hok
      cases hok
    · intro h
      rw [(Schema.declare_eq_ok_iff caps tokens _).mpr ⟨h, rfl⟩] at hdeclare
      cases hdeclare

/-- Whether tokens are grammatical can be tried by declaring them. -/
instance (caps : Capabilities) (tokens : List Token) : Decidable (Grammatical caps tokens) :=
  decidable_of_iff _ Grammatical.isOk_declare_iff

/-- A detail may stand before the ellipsis, a dimension may not. -/
example : Grammatical .full [.isNamed, .ellipsis, .name "n"] ∧
    ¬ Grammatical .full [.name "n", .isNamed, .ellipsis] := by
  decide

/-- A label is never empty and never the word for no name. -/
theorem Grammatical.label_ne {caps : Capabilities} {tokens : List Token}
    (h : Grammatical caps tokens) {label : String} {n : Option Size}
    (hmem : Dim.named (.label label) n ∈ Token.dims tokens) :
    label ≠ "" ∧ label ≠ anonymousWord := by
  have hword : ∀ {word : String}, DimName.ofWord word = .label label →
      word = label ∧ label ≠ anonymousWord := by
    intro word hword
    unfold DimName.ofWord at hword
    split at hword
    · cases hword
    next hne =>
      cases hword
      exact ⟨rfl, hne⟩
  obtain ⟨t, ht, hdim⟩ := List.mem_filterMap.mp hmem
  cases t <;> simp only [Token.dim?, Option.some.injEq, Dim.named.injEq, reduceCtorEq] at hdim
  case size k => split at hdim <;> cases hdim
  case name word =>
    obtain ⟨rfl, hne⟩ := hword hdim.1
    exact ⟨fun hempty => h.name (hempty ▸ ht), hne⟩
  case sizedName word k =>
    obtain ⟨rfl, hne⟩ := hword hdim.1
    exact ⟨fun hempty => h.sizedName k (hempty ▸ ht), hne⟩
  case anonymous k => cases hdim.1

theorem Schema.checkNames_ofTokens (tokens : List Token) :
    (ofTokens tokens).shape.checkNames = true ↔
      ∃ t ∈ tokens, ∃ d, t.detail? = some d ∧ d.key = some Detail.namedKey := by
  simp only [ofTokens, List.any_eq_true, Token.mem_details, Detail.checksNames, beq_iff_eq]
  constructor
  · rintro ⟨d, ⟨t, ht, hdetail⟩, hkey⟩
    exact ⟨t, ht, d, hdetail, hkey⟩
  · rintro ⟨t, ht, d, hdetail, hkey⟩
    exact ⟨d, ⟨t, ht, hdetail⟩, hkey⟩

theorem Schema.isOpen_ofTokens (tokens : List Token) :
    (ofTokens tokens).shape.isOpen = true ↔
      Token.anyRank ∈ tokens ∨
        (∀ t ∈ tokens, t.dim? = none) ∧ Token.scalar ∉ tokens ∧ Token.details tokens ≠ [] := by
  simp only [ofTokens, Bool.or_eq_true, Bool.and_eq_true, Bool.not_eq_true',
    Bool.eq_false_iff, Token.any_isAnyRank, ne_eq, Token.any_isScalar, List.isEmpty_iff,
    Token.dims_eq_nil_iff, and_assoc]

/-- **A schema is declared by the grammatical lists of tokens, and by no
    others.**  Its dimensions and its details are those of the tokens in order,
    where only the first detail of each key is kept.  Names are compared when
    some detail has the key for it.  The rank is open when a marker says so, and
    also when there are details but no dimensions and no other marker. -/
theorem Schema.declare_iff_grammatical (caps : Capabilities) (tokens : List Token) :
    ((∃ schema, Schema.declare caps tokens = .ok schema) ↔ Grammatical caps tokens) ∧
      ∀ schema, Schema.declare caps tokens = .ok schema →
        schema.shape.dims = tokens.filterMap Token.dim? ∧
        (∀ label n, Dim.named (.label label) n ∈ schema.shape.dims →
          label ≠ "" ∧ label ≠ anonymousWord) ∧
        schema.details = Detail.distinct (tokens.filterMap Token.detail?) ∧
        (schema.shape.checkNames = true ↔
          ∃ t ∈ tokens, ∃ d, t.detail? = some d ∧ d.key = some Detail.namedKey) ∧
        (schema.shape.isOpen = true ↔
          Token.anyRank ∈ tokens ∨
            (∀ t ∈ tokens, t.dim? = none) ∧ Token.scalar ∉ tokens ∧
              tokens.filterMap Token.detail? ≠ []) := by
  constructor
  · constructor
    · rintro ⟨schema, h⟩
      exact ((Schema.declare_eq_ok_iff caps tokens schema).mp h).1
    · intro h
      exact ⟨Schema.ofTokens tokens, (Schema.declare_eq_ok_iff caps tokens _).mpr ⟨h, rfl⟩⟩
  · intro schema h
    obtain ⟨hgrammar, rfl⟩ := (Schema.declare_eq_ok_iff caps tokens schema).mp h
    exact ⟨rfl, fun label n => hgrammar.label_ne, rfl, Schema.checkNames_ofTokens tokens,
      Schema.isOpen_ofTokens tokens⟩

/-! ### Declared schemas -/

/-- A schema that some tokens declare for some library. -/
def Schema.Declared (schema : Schema) : Prop :=
  ∃ caps tokens, Schema.declare caps tokens = .ok schema

/-- A declared schema with dimensions is not open. -/
theorem Schema.Declared.isOpen_eq_false {schema : Schema} (h : schema.Declared)
    (hdims : schema.shape.dims ≠ []) : schema.shape.isOpen = false := by
  obtain ⟨caps, tokens, hdeclare⟩ := h
  obtain ⟨hgrammar, rfl⟩ := (Schema.declare_eq_ok_iff caps tokens schema).mp hdeclare
  refine Bool.eq_false_iff.mpr fun hopen => hdims (Token.dims_eq_nil_iff.mpr ?_)
  rcases (Schema.isOpen_ofTokens tokens).mp hopen with hanyRank | ⟨hnone, -⟩
  · exact hgrammar.anyRank hanyRank
  · exact hnone

/-- In a declared schema only the first descriptor may be the ellipsis. -/
theorem Schema.Declared.ellipsis_notMem_tail {schema : Schema} (h : schema.Declared) :
    Dim.ellipsis ∉ schema.shape.dims.tail := by
  obtain ⟨caps, tokens, hdeclare⟩ := h
  obtain ⟨hgrammar, rfl⟩ := (Schema.declare_eq_ok_iff caps tokens schema).mp hdeclare
  intro hmem
  obtain ⟨first, rest, hdims⟩ : ∃ first rest, Token.dims tokens = first :: rest := by
    cases hdims : Token.dims tokens with
    | nil => simp [Schema.ofTokens, hdims] at hmem
    | cons first rest => exact ⟨first, rest, rfl⟩
  have hrest : Dim.ellipsis ∈ rest := by simpa [Schema.ofTokens, hdims] using hmem
  obtain ⟨before, after, rfl⟩ := List.append_of_mem hrest
  -- the token of this ellipsis follows the token of the first dimension
  rw [Token.dims, ← List.cons_append, List.filterMap_eq_append_iff] at hdims
  obtain ⟨front, back, rfl, hfront, hback⟩ := hdims
  obtain ⟨none, t, after, rfl, -, hdim, -⟩ := List.filterMap_eq_cons_iff.mp hback
  cases Token.eq_ellipsis_of_dim? hdim
  have hnone := (hgrammar.ellipsis (front ++ none) after (by simp)).2
  have hfirst : front.filterMap Token.dim? = [] :=
    List.filterMap_eq_nil_iff.mpr fun t ht => hnone t (List.mem_append_left _ ht)
  rw [hfirst] at hfront
  cases hfront

end ShapeContracts
