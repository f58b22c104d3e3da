/-
  ShapeContracts/Proofs/Declaration.lean
  ======================================
  **Which tokens declare a schema, and which schema they declare.**

  A declaration is read token by token into a draft, and a token may be refused
  because of what came before it.  Here the same is said without a draft.
  `Draft.ofTokens` is what a list of tokens declares, taken as a whole;
  `Token.offence?` says what is wrong with a token after given ones; and
  `Draft.foldlM_add` shows that reading goes on exactly as long as there is no
  offence, and then holds the draft of the tokens read.

  `Grammatical` collects the conditions under which no token is an offence.
  None of them speaks of an order, except that the ellipsis comes first: two
  details conflict whichever of them is read first.
-/
import ShapeContracts.Schema.Token

namespace ShapeContracts

/-! ### What a single token declares -/

def DimName.ofWord (word : String) : DimName :=
  if word = anonymousWord then .anonymous else .label word

namespace Token

def dim? : Token → Option Dim
  | .size n => some (if n = -1 then .wildcard else .fixed n.toUInt64)
  | .wildcard => some .wildcard
  | .ellipsis => some .ellipsis
  | .name word => some (.named (.ofWord word) none)
  | .sizedName word n => some (.named (.ofWord word) (some n))
  | .anonymous n => some (.named .anonymous n)
  | _ => none

def detail? : Token → Option Detail
  | .dtype t => some (.dtype (.exact t))
  | .kind k => some (.dtype (.kind k))
  | .layout l => some (.layout l)
  | .isFloat => some .float
  | .isNamed => some .named
  | .detail d => some d
  | _ => none

def isAnyRank : Token → Bool
  | .anyRank => true
  | _ => false

def isScalar : Token → Bool
  | .scalar => true
  | _ => false

def dims (tokens : List Token) : List Dim := tokens.filterMap dim?

/-- The details that tokens declare, in order and with repetitions. -/
def details (tokens : List Token) : List Detail := tokens.filterMap detail?

theorem eq_ellipsis_of_dim? {t : Token} (h : t.dim? = some .ellipsis) : t = .ellipsis := by
  cases t <;> simp [dim?] at h ⊢
  next n => split at h <;> cases h

theorem mem_details {tokens : List Token} {d : Detail} :
    d ∈ details tokens ↔ ∃ t ∈ tokens, t.detail? = some d :=
  List.mem_filterMap

theorem any_isAnyRank {tokens : List Token} :
    tokens.any isAnyRank = true ↔ Token.anyRank ∈ tokens := by
  rw [List.any_eq_true]
  constructor
  · rintro ⟨t, ht, hmark⟩
    cases t <;> first | exact ht | simp [isAnyRank] at hmark
  · intro h
    exact ⟨_, h, rfl⟩

theorem any_isScalar {tokens : List Token} :
    tokens.any isScalar = true ↔ Token.scalar ∈ tokens := by
  rw [List.any_eq_true]
  constructor
  · rintro ⟨t, ht, hmark⟩
    cases t <;> first | exact ht | simp [isScalar] at hmark
  · intro h
    exact ⟨_, h, rfl⟩

theorem dims_eq_nil_iff {tokens : List Token} :
    dims tokens = [] ↔ ∀ t ∈ tokens, t.dim? = none :=
  List.filterMap_eq_nil_iff

theorem details_append (before after : List Token) :
    details (before ++ after) = details before ++ details after :=
  List.filterMap_append

end Token

/-! ### Details without repetitions -/

namespace Detail

/-- Whether a detail has the same key as another.  A detail without a key
    repeats nothing. -/
def repeats (d e : Detail) : Bool := d.key.isSome && e.key == d.key

/-- Details in order, without those whose key an earlier one has. -/
def distinct : List Detail → List Detail
  | [] => []
  | d :: ds => d :: (distinct ds).filter fun e => !e.repeats d

def first? (key : String) (ds : List Detail) : Option Detail :=
  ds.find? fun d => d.key == some key

theorem distinct_append_singleton (ds : List Detail) (d : Detail) :
    distinct (ds ++ [d]) =
      if ds.any d.repeats then distinct ds else distinct ds ++ [d] := by
  induction ds with
  | nil => rfl
  | cons e ds ih =>
    simp only [List.cons_append, distinct, ih, List.any_cons, Bool.or_eq_true]
    by_cases hany : ds.any d.repeats = true
    · rw [if_pos hany, if_pos (.inr hany)]
    · rw [if_neg hany, List.filter_append]
      by_cases hrep : d.repeats e = true
      · rw [if_pos (.inl hrep)]
        simp [hrep]
      · rw [if_neg (by simp [hrep, hany])]
        simp [hrep]

/-- The first detail that has a key is never left out. -/
theorem first?_distinct (key : String) (ds : List Detail) :
    first? key (distinct ds) = first? key ds := by
  unfold first?
  induction ds with
  | nil => rfl
  | cons e ds ih =>
    simp only [distinct, List.find?_cons]
    split
    · rfl
    next hne =>
      rw [List.find?_filter, ← ih]
      congr 1
      funext d
      by_cases hd : d.key = some key
      · have he : (e.key == some key) = false := hne
        simp [repeats, hd, he]
      · simp [hd]

theorem first?_eq_none_iff {key : String} {ds : List Detail} :
    first? key ds = none ↔ ∀ d ∈ ds, d.key ≠ some key := by
  simp [first?]

theorem key_of_first? {key : String} {ds : List Detail} {d : Detail}
    (h : first? key ds = some d) : d.key = some key := by
  simpa using List.find?_some h

theorem mem_of_first? {key : String} {ds : List Detail} {d : Detail}
    (h : first? key ds = some d) : d ∈ ds :=
  List.mem_of_find?_eq_some h

theorem any_repeats_of_key_none {d : Detail} (h : d.key = none) (ds : List Detail) :
    ds.any d.repeats = false := by
  simp [repeats, h]

theorem any_repeats_of_key_some {d : Detail} {key : String} (h : d.key = some key)
    (ds : List Detail) : ds.any d.repeats = (first? key ds).isSome := by
  have hrep : d.repeats = fun e => e.key == some key := by
    funext e
    simp [repeats, h]
  rw [hrep, first?, List.isSome_find?]

end Detail

/-! ### What is wrong with a token

Only the tokens before a token can make it an offence, and of those only the
dimensions and the details. -/

/-- What is wrong with a detail after earlier ones.  It is compared with the
    first detail of its key; the others of that key have the text of the first. -/
def Detail.offence? (caps : Capabilities) (earlier : List Detail) (d : Detail) :
    Option DeclarationError :=
  if d.checksNames && !caps.namedAxes then some .namesUnsupported
  else
    match d.key with
    | none => none
    | some key =>
      match first? key earlier with
      | none => none
      | some held =>
        if held.describe = d.describe then none
        else some (.conflictingDetail key held.describe d.describe)

namespace Token

/-- What is wrong with a token after the tokens before it. -/
def offence? (caps : Capabilities) (before : List Token) : Token → Option DeclarationError
  | .size n => if n < -1 then some (.invalidSize n) else none
  | .name word => if word = "" then some .emptyName else none
  | .sizedName word _ => if word = "" then some .emptyName else none
  | .ellipsis =>
    if Dim.ellipsis ∈ dims before then some .duplicateEllipsis
    else if dims before ≠ [] then some (.ellipsisNotLeading (dims before).length)
    else none
  | .layout l =>
    if caps.layouts then (Detail.layout l).offence? caps (details before)
    else some (.layoutUnsupported l)
  | t => t.detail?.bind (Detail.offence? caps (details before))

def firstOffence? (caps : Capabilities) (before : List Token) :
    List Token → Option DeclarationError
  | [] => none
  | t :: rest => (t.offence? caps before).or (firstOffence? caps (before ++ [t]) rest)

/-- No token is an offence when none is after those in front of it. -/
theorem firstOffence?_eq_none_iff {caps : Capabilities} {before rest : List Token} :
    firstOffence? caps before rest = none ↔
      ∀ front t back, rest = front ++ t :: back → t.offence? caps (before ++ front) = none := by
  induction rest generalizing before with
  | nil => simp [firstOffence?]
  | cons u rest ih =>
    rw [firstOffence?, Option.or_eq_none_iff, ih]
    constructor
    · rintro ⟨hu, hrest⟩ front t back h
      cases front with
      | nil =>
        obtain ⟨rfl, rfl⟩ := List.cons.inj h
        rwa [List.append_nil]
      | cons v front =>
        obtain ⟨rfl, rfl⟩ := List.cons.inj h
        rw [← List.singleton_append, ← List.append_assoc]
        exact hrest front t back rfl
    · intro h
      refine ⟨by simpa using h [] u rest rfl, fun front t back hback => ?_⟩
      have hcons := h (u :: front) t back (by rw [hback]; rfl)
      rwa [← List.singleton_append, ← List.append_assoc] at hcons

end Token

/-! ### The draft of a list of tokens -/

/-- The outcome of reading: an offence, or else what was read. -/
def unlessOffence {α : Type} (offence : Option DeclarationError) (a : α) :
    Except DeclarationError α :=
  match offence with
  | some e => .error e
  | none => .ok a

namespace Draft

/-- The draft that tokens without an offence declare. -/
def ofTokens (tokens : List Token) : Draft where
  dims := Token.dims tokens
  details := Detail.distinct (Token.details tokens)
  checkNames := (Token.details tokens).any Detail.checksNames
  isOpen := tokens.any Token.isAnyRank
  isScalar := tokens.any Token.isScalar

/-- A dimension token adds its dimension and nothing else. -/
theorem ofTokens_append_dim (before : List Token) {t : Token} {d : Dim}
    (h : t.dim? = some d) : ofTokens (before ++ [t]) = (ofTokens before).addDim d := by
  have hrest : t.detail? = none ∧ t.isAnyRank = false ∧ t.isScalar = false := by
    cases t <;> first | exact ⟨rfl, rfl, rfl⟩ | cases h
  obtain ⟨hdetail, hopen, hscalar⟩ := hrest
  simp [ofTokens, addDim, Token.dims, Token.details, h, hdetail, hopen, hscalar]

/-- A detail token adds its detail, unless it is a repetition, and may turn on
    the comparison of names. -/
theorem ofTokens_append_detail (before : List Token) {t : Token} {d : Detail}
    (h : t.detail? = some d) :
    ofTokens (before ++ [t]) =
      { ofTokens before with
        details := Detail.distinct (Token.details before ++ [d])
        checkNames := (ofTokens before).checkNames || d.checksNames } := by
  have hrest : t.dim? = none ∧ t.isAnyRank = false ∧ t.isScalar = false := by
    cases t <;> first | exact ⟨rfl, rfl, rfl⟩ | cases h
  obtain ⟨hdim, hopen, hscalar⟩ := hrest
  simp [ofTokens, Token.dims, Token.details, h, hdim, hopen, hscalar]

/-- A marker adds neither a dimension nor a detail. -/
theorem ofTokens_append_marker (before : List Token) {t : Token}
    (hdim : t.dim? = none) (hdetail : t.detail? = none) :
    ofTokens (before ++ [t]) =
      { ofTokens before with
        isOpen := (ofTokens before).isOpen || t.isAnyRank
        isScalar := (ofTokens before).isScalar || t.isScalar } := by
  simp [ofTokens, Token.dims, Token.details, hdim, hdetail]

/-- A detail that does not turn on the comparison of names is just kept. -/
theorem addDetail_of_not_checksNames (caps : Capabilities) (draft : Draft) {d : Detail}
    (h : d.checksNames = false) : draft.addDetail caps d = draft.keepDetail d := by
  simp only [addDetail, h, Bool.false_and, Bool.false_eq_true, if_false, Bool.or_false]
  cases draft.keepDetail d <;> rfl

/-- Keeping a detail compares it with the first detail of its key. -/
theorem addDetail_ofTokens (caps : Capabilities) (before : List Token) (d : Detail) :
    (ofTokens before).addDetail caps d =
      unlessOffence (d.offence? caps (Token.details before))
        { ofTokens before with
          details := Detail.distinct (Token.details before ++ [d])
          checkNames := (ofTokens before).checkNames || d.checksNames } := by
  unfold addDetail Detail.offence?
  split
  · rfl
  next =>
    rw [Detail.distinct_append_singleton]
    unfold keepDetail
    cases hkey : d.key with
    | none =>
      rw [Detail.any_repeats_of_key_none hkey]
      rfl
    | some key =>
      have hholder : (ofTokens before).holder? key = Detail.first? key (Token.details before) :=
        Detail.first?_distinct key (Token.details before)
      simp only [hholder, Detail.any_repeats_of_key_some hkey]
      cases Detail.first? key (Token.details before) with
      | none => rfl
      | some held =>
        dsimp only
        split <;> rfl

end Draft

/-! ### Reading tokens -/

theorem map_unlessOffence {α β : Type} (f : α → β) (offence : Option DeclarationError) (a : α) :
    (unlessOffence offence a).map f = unlessOffence offence (f a) := by
  cases offence <;> rfl

/-- Of the sizes other than -1, those below zero are the ones below -1. -/
theorem Dim.ofSigned_eq (n : Int64) :
    Dim.ofSigned n = unlessOffence (if n < -1 then some (.invalidSize n) else none)
      (if n = -1 then .wildcard else .fixed n.toUInt64) := by
  have hone : (-1 : Int64).toInt = -1 := rfl
  have hzero : (0 : Int64).toInt = 0 := rfl
  unfold Dim.ofSigned
  by_cases h : n = -1
  · subst h
    rfl
  · have hne : n.toInt ≠ -1 := fun heq => h (Int64.toInt_inj.mp (heq.trans hone.symm))
    rw [if_neg h, if_neg h]
    by_cases hneg : 0 ≤ n
    · have hge : ¬ n < -1 := by
        rw [Int64.le_iff_toInt_le] at hneg
        rw [Int64.lt_iff_toInt_lt]
        omega
      rw [if_pos hneg, if_neg hge]
      rfl
    · have hlt : n < -1 := by
        rw [Int64.le_iff_toInt_le] at hneg
        rw [Int64.lt_iff_toInt_lt]
        omega
      rw [if_neg hneg, if_pos hlt]
      rfl

theorem Dim.ofName_eq (word : String) (n : Option Size) :
    Dim.ofName word n = unlessOffence (if word = "" then some .emptyName else none)
      (.named (.ofWord word) n) := by
  unfold Dim.ofName DimName.ofWord
  split
  · rfl
  · split <;> rfl

namespace Draft

theorem addEllipsis_eq (draft : Draft) :
    draft.addEllipsis =
      (unlessOffence
        (if Dim.ellipsis ∈ draft.dims then some .duplicateEllipsis
          else if draft.dims ≠ [] then some (.ellipsisNotLeading draft.dims.length)
          else none)
        Dim.ellipsis).map draft.addDim := by
  have hany : draft.dims.any Dim.isEllipsis = true ↔ Dim.ellipsis ∈ draft.dims := by
    rw [List.any_eq_true]
    constructor
    · rintro ⟨d, hd, hell⟩
      cases d <;> first | exact hd | cases hell
    · intro h
      exact ⟨_, h, rfl⟩
  rw [map_unlessOffence]
  unfold addEllipsis
  by_cases hmem : Dim.ellipsis ∈ draft.dims
  · rw [if_pos (hany.mpr hmem), if_pos hmem]
    rfl
  · rw [if_neg fun h => hmem (hany.mp h), if_neg hmem]
    split <;> rfl

/-- Reading one token: an offence stops it, and any other token is added to
    what the tokens before it declare. -/
theorem add_ofTokens (caps : Capabilities) (before : List Token) (t : Token) :
    (ofTokens before).add caps t =
      unlessOffence (t.offence? caps before) (ofTokens (before ++ [t])) := by
  -- a token adds a dimension, adds a detail or is a marker
  have hdim : ∀ (offence : Option DeclarationError) {d : Dim}, t.dim? = some d →
      (unlessOffence offence d).map (ofTokens before).addDim =
        unlessOffence offence (ofTokens (before ++ [t])) := by
    intro offence d h
    rw [map_unlessOffence, ofTokens_append_dim before h]
  have hdetail : ∀ {d : Detail}, t.detail? = some d →
      (ofTokens before).addDetail caps d =
        unlessOffence (d.offence? caps (Token.details before)) (ofTokens (before ++ [t])) := by
    intro d h
    rw [addDetail_ofTokens, ofTokens_append_detail before h]
  have hkept : ∀ {d : Detail}, t.detail? = some d → d.checksNames = false →
      (ofTokens before).keepDetail d =
        unlessOffence (d.offence? caps (Token.details before)) (ofTokens (before ++ [t])) := by
    intro d h hnames
    rw [← addDetail_of_not_checksNames caps _ hnames, hdetail h]
  cases t with
  | size n =>
    simp only [add, Dim.ofSigned_eq]
    exact hdim _ rfl
  | wildcard => exact hdim none rfl
  | ellipsis =>
    simp only [add, addEllipsis_eq]
    exact hdim _ rfl
  | name word =>
    simp only [add, Dim.ofName_eq]
    exact hdim _ rfl
  | sizedName word n =>
    simp only [add, Dim.ofName_eq]
    exact hdim _ rfl
  | anonymous n => exact hdim none rfl
  | dtype t => exact hkept rfl rfl
  | kind k => exact hkept rfl rfl
  | layout l =>
    simp only [add, Detail.layoutFor, Token.offence?]
    split
    · exact hkept rfl rfl
    · rfl
  | isFloat => exact hkept rfl rfl
  | isNamed => exact hdetail rfl
  | detail d => exact hdetail rfl
  | anyRank =>
    rw [ofTokens_append_marker before rfl rfl]
    simp [add, Token.offence?, Token.detail?, unlessOffence, Token.isAnyRank, Token.isScalar]
  | scalar =>
    rw [ofTokens_append_marker before rfl rfl]
    simp [add, Token.offence?, Token.detail?, unlessOffence, Token.isAnyRank, Token.isScalar]

/-- Reading tokens one after another stops at the first offence, and without
    one holds the draft of all of them. -/
theorem foldlM_add (caps : Capabilities) (before rest : List Token) :
    rest.foldlM (add caps) (ofTokens before) =
      unlessOffence (Token.firstOffence? caps before rest) (ofTokens (before ++ rest)) := by
  induction rest generalizing before with
  | nil =>
    rw [List.append_nil]
    rfl
  | cons t rest ih =>
    rw [List.foldlM_cons, add_ofTokens, Token.firstOffence?]
    cases t.offence? caps before with
    | some e => rfl
    | none =>
      change rest.foldlM (add caps) (ofTokens (before ++ [t])) = _
      rw [ih, Option.none_or, List.append_assoc]
      rfl

end Draft

end ShapeContracts
