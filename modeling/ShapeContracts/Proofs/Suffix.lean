/-
  ShapeContracts/Proofs/Suffix.lean
  =================================
  **A leading ellipsis.**

  An ellipsis in front of a declaration takes up the axes for which there is no
  descriptor, and that is all it does.  An array with enough axes matches the
  declaration with the ellipsis as its last axes alone match the one without,
  except that an axis has another number (`Reason.shiftAxis`).

  The two walks go over the same descriptors.  With the ellipsis there are axes
  left when the descriptors are used up, so the axes met have higher numbers all
  the way (`checkAxes_append`).  Built-in details see nothing of an axis, at
  least nothing that shows (`Detail.BuiltIn.found_withAxes`).
-/
import ShapeContracts.Proofs.Outcome
import ShapeContracts.Proofs.Retention

namespace ShapeContracts

/-! ### The last axes -/

/-- The same array with no more than its last axes. -/
def ArrayView.lastAxes (v : ArrayView) (k : Nat) : ArrayView :=
  { v with axes := v.axes.drop (v.rank - k) }

theorem ArrayView.rank_lastAxes {v : ArrayView} {k : Nat} (h : k ≤ v.rank) :
    (v.lastAxes k).rank = k := by
  have hrank : v.axes.length = v.rank := rfl
  simp only [lastAxes, rank, List.length_drop] at hrank h ⊢
  omega

/-- The same reason, where the axes have numbers higher by `k`. -/
def Reason.shiftAxis (k : Nat) : Reason → Reason
  | .fixedSize axis expected actual => .fixedSize (axis + k) expected actual
  | .nameConflict name axis bound actual => .nameConflict name (axis + k) bound actual
  | .axisName axis expected actual => .axisName (axis + k) expected actual
  | reason => reason

/-! ### One axis with another number -/

namespace Dim

theorem checkSize_add (axis k : Nat) (n : Size) (s : Staged) (d : Dim) :
    d.checkSize (axis + k) n s = (d.checkSize axis n s).mapError (.shiftAxis k) := by
  cases d with
  | fixed m =>
    simp only [checkSize]
    split <;> rfl
  | wildcard => rfl
  | ellipsis => rfl
  | named name declared =>
    simp only [checkSize]
    split
    · rfl
    · cases name with
      | anonymous => rfl
      | label label =>
        dsimp only
        cases s.bind label n <;> rfl

theorem checkName_add (axis k : Nat) (name : Option String) (d : Dim) :
    d.checkName (axis + k) name = (d.checkName axis name).mapError (.shiftAxis k) := by
  unfold checkName
  split
  · split <;> rfl
  · rfl

theorem checkAxis_add (checkNames : Bool) (axis k : Nat) (a : Axis) (s : Staged) (d : Dim) :
    d.checkAxis checkNames (axis + k) a s =
      (d.checkAxis checkNames axis a s).mapError (.shiftAxis k) := by
  unfold checkAxis
  rw [checkSize_add, mapError_bind]
  congr 1
  funext s'
  cases checkNames with
  | false => rfl
  | true =>
    simp only [if_true, checkName_add]
    cases d.checkName axis a.name <;> rfl

end Dim

/-! ### The walk among more axes -/

/-- Axes beyond the descriptors do not matter to the walk, but they raise the
    numbers of those it meets. -/
theorem checkAxes_append (checkNames : Bool) {dims : List Dim} {axes : List Axis}
    (surplus : List Axis) (s : Staged) (h : dims.length ≤ axes.length) :
    checkAxes checkNames dims (axes ++ surplus) s =
      (checkAxes checkNames dims axes s).mapError (.shiftAxis surplus.length) := by
  induction dims generalizing axes s with
  | nil => rfl
  | cons d dims ih =>
    cases axes with
    | nil => simp at h
    | cons a axes =>
      have hrest : dims.length ≤ axes.length := Nat.le_of_succ_le_succ h
      cases d with
      | ellipsis => rfl
      | _ =>
        simp only [List.cons_append, checkAxes, List.length_append, Dim.checkAxis_add,
          mapError_bind]
        congr 1
        funext s'
        exact ih s' hrest

/-! ### Shapes -/

namespace Shape

/-- The same shape after an ellipsis. -/
def underEllipsis (shape : Shape) : Shape :=
  { shape with dims := .ellipsis :: shape.dims }

variable {shape : Shape}

theorem explicit_of_notMem (h : Dim.ellipsis ∉ shape.dims) : shape.explicit = shape.dims := by
  refine List.filter_eq_self.mpr fun d hd => ?_
  cases d with
  | ellipsis => exact absurd hd h
  | _ => rfl

theorem explicitCount_underEllipsis (h : Dim.ellipsis ∉ shape.dims) :
    shape.underEllipsis.explicitCount = shape.dims.length :=
  congrArg List.length (explicit_of_notMem h)

theorem rankRule_underEllipsis (h : Dim.ellipsis ∉ shape.dims) :
    shape.underEllipsis.rankRule = .atLeast shape.dims.length := by
  unfold rankRule
  rw [explicitCount_underEllipsis h]
  rfl

theorem rankRule_of_notMem (h : Dim.ellipsis ∉ shape.dims) :
    shape.rankRule = .exactly shape.dims.length := by
  have hnone : shape.hasEllipsis = false := by
    refine List.any_eq_false.mpr fun d hd => ?_
    cases d with
    | ellipsis => exact absurd hd h
    | _ => exact Bool.false_ne_true
  have hcount : shape.explicitCount = shape.dims.length :=
    congrArg List.length (explicit_of_notMem h)
  simp [rankRule, hnone, hcount]

theorem check_underEllipsis_of_lt (hopen : shape.isOpen = false)
    (hnone : Dim.ellipsis ∉ shape.dims) {v : ArrayView} (h : v.rank < shape.dims.length)
    (s : Staged) :
    shape.underEllipsis.check v s = .error (.rank (.atLeast shape.dims.length) v.rank) := by
  have hopen' : shape.underEllipsis.isOpen = false := hopen
  have hallows : (RankRule.atLeast shape.dims.length).allows v.rank = false :=
    decide_eq_false (Nat.not_le_of_lt h)
  simp [check, hopen', rankRule_underEllipsis hnone, hallows]

/-- A shape after an ellipsis checks an array with enough axes as the shape
    alone checks the last axes. -/
theorem check_underEllipsis (hopen : shape.isOpen = false) (hnone : Dim.ellipsis ∉ shape.dims)
    {v : ArrayView} (h : shape.dims.length ≤ v.rank) (s : Staged) :
    shape.underEllipsis.check v s =
      (shape.check (v.lastAxes shape.dims.length) s).mapError
        (.shiftAxis (v.rank - shape.dims.length)) := by
  have hopen' : shape.underEllipsis.isOpen = false := hopen
  have hallows : (RankRule.atLeast shape.dims.length).allows v.rank = true := decide_eq_true h
  have hallows' : (RankRule.exactly shape.dims.length).allows
      (v.lastAxes shape.dims.length).rank = true := by
    rw [ArrayView.rank_lastAxes h]
    exact beq_self_eq_true _
  have hnames : shape.underEllipsis.checkNames = shape.checkNames := rfl
  have hnamed : (v.lastAxes shape.dims.length).namedAxes = v.namedAxes := rfl
  -- reversed, the axes taken up by the ellipsis come last
  have haxes : v.axes.reverse = (v.lastAxes shape.dims.length).axes.reverse ++
      (v.axes.take (v.rank - shape.dims.length)).reverse := by
    rw [← List.reverse_append]
    exact congrArg List.reverse (List.take_append_drop _ _).symm
  have hsurplus : (v.axes.take (v.rank - shape.dims.length)).reverse.length =
      v.rank - shape.dims.length := by
    have hrank : v.axes.length = v.rank := rfl
    rw [List.length_reverse, List.length_take]
    omega
  have hlength : shape.dims.reverse.length ≤
      (v.lastAxes shape.dims.length).axes.reverse.length := by
    have hrank := ArrayView.rank_lastAxes h
    rw [List.length_reverse, List.length_reverse]
    exact Nat.le_of_eq hrank.symm
  have hwalk : checkAxes shape.checkNames shape.underEllipsis.dims.reverse v.axes.reverse s =
      (checkAxes shape.checkNames shape.dims.reverse
        (v.lastAxes shape.dims.length).axes.reverse s).mapError
          (.shiftAxis (v.rank - shape.dims.length)) := by
    calc checkAxes shape.checkNames (Dim.ellipsis :: shape.dims).reverse v.axes.reverse s
      _ = checkAxes shape.checkNames shape.dims.reverse v.axes.reverse s := by
        rw [List.reverse_cons]
        exact checkAxes_append_ellipsis shape.checkNames shape.dims.reverse [] v.axes.reverse s
      _ = _ := by
        rw [haxes, checkAxes_append shape.checkNames _ s hlength, hsurplus]
  unfold check
  simp only [hopen, hopen', rankRule_underEllipsis hnone, rankRule_of_notMem hnone, hallows,
    hallows', hnames, hnamed, hwalk, Bool.not_true, Bool.false_eq_true, if_false]
  split <;> rfl

end Shape

/-! ### Details -/

theorem checkDetails_lastAxes {details : List Detail} (h : ∀ d ∈ details, d.BuiltIn)
    (v : ArrayView) (k : Nat) : checkDetails details (v.lastAxes k) = checkDetails details v :=
  checkDetails_withAxes h v _

/-! ### Schemas -/

namespace Schema

def underEllipsis (schema : Schema) : Schema :=
  { schema with shape := schema.shape.underEllipsis }

variable {schema : Schema} {v : ArrayView}

theorem check_underEllipsis (hopen : schema.shape.isOpen = false)
    (hnone : Dim.ellipsis ∉ schema.shape.dims) (hbuiltIn : ∀ d ∈ schema.details, d.BuiltIn)
    (h : schema.shape.dims.length ≤ v.rank) (s : Staged) :
    schema.underEllipsis.check v s =
      (schema.check (v.lastAxes schema.shape.dims.length) s).mapError
        (.shiftAxis (v.rank - schema.shape.dims.length)) := by
  unfold check
  rw [mapError_bind, checkDetails_lastAxes hbuiltIn]
  have hshape := Shape.check_underEllipsis hopen hnone h s
  change (schema.shape.underEllipsis.check v s).bind
    (fun s => (checkDetails schema.details v).map fun _ => s) = _
  rw [hshape]
  congr 1
  funext s'
  unfold checkDetails
  split <;> rfl

theorem matchArray_underEllipsis (hopen : schema.shape.isOpen = false)
    (hnone : Dim.ellipsis ∉ schema.shape.dims) (hbuiltIn : ∀ d ∈ schema.details, d.BuiltIn)
    (h : schema.shape.dims.length ≤ v.rank) (b : Bindings) :
    (schema.underEllipsis.matchArray b v).mapError Mismatch.reason =
      (schema.matchArray b (v.lastAxes schema.shape.dims.length)).mapError fun m =>
        m.reason.shiftAxis (v.rank - schema.shape.dims.length) := by
  unfold matchArray
  rw [check_underEllipsis hopen hnone hbuiltIn h]
  cases schema.check (v.lastAxes schema.shape.dims.length) b.stage <;> rfl

theorem matchArray_underEllipsis_of_lt (hopen : schema.shape.isOpen = false)
    (hnone : Dim.ellipsis ∉ schema.shape.dims) (h : v.rank < schema.shape.dims.length)
    (b : Bindings) :
    schema.underEllipsis.matchArray b v =
      .error ⟨schema.underEllipsis.text, v.text,
        .rank (.atLeast schema.shape.dims.length) v.rank⟩ := by
  have hcheck : schema.underEllipsis.check v b.stage =
      .error (.rank (.atLeast schema.shape.dims.length) v.rank) := by
    have hshape := Shape.check_underEllipsis_of_lt hopen hnone h b.stage
    unfold check
    change (schema.shape.underEllipsis.check v b.stage).bind _ = _
    rw [hshape]
    rfl
  unfold matchArray
  rw [hcheck]

end Schema

/-! ### Declarations -/

theorem Grammatical.cons_ellipsis {caps : Capabilities} {tokens : List Token}
    (h : Grammatical caps tokens) (hellipsis : Token.ellipsis ∉ tokens)
    (hanyRank : Token.anyRank ∉ tokens) (hscalar : Token.scalar ∉ tokens) :
    Grammatical caps (.ellipsis :: tokens) where
  size n hn := h.size n (by simpa using hn)
  name hname := h.name (by simpa using hname)
  sizedName n hn := h.sizedName n (by simpa using hn)
  ellipsis front back hsplit := by
    rcases List.cons_eq_append_iff.mp hsplit with ⟨rfl, hback⟩ | ⟨rest, rfl, hrest⟩
    · obtain ⟨-, rfl⟩ := List.cons.inj hback
      exact ⟨hellipsis, by simp⟩
    · -- the tokens themselves have no ellipsis to split at
      refine absurd ?_ hellipsis
      rw [hrest]
      simp
  detail := h.detail
  layout l hl := h.layout l (by simpa using hl)
  named := h.named
  scalar hs := absurd (by simpa using hs) hscalar
  anyRank ho := absurd (by simpa using ho) hanyRank

namespace Schema

variable {tokens : List Token}

/-- Without markers only a declaration of details alone is open. -/
theorem isOpen_ofTokens_eq_false (hanyRank : Token.anyRank ∉ tokens)
    (hdims : tokens = [] ∨ Token.dims tokens ≠ []) : (ofTokens tokens).shape.isOpen = false := by
  refine Bool.eq_false_iff.mpr fun hopen => ?_
  rcases (isOpen_ofTokens tokens).mp hopen with hany | ⟨hnone, -, hdetails⟩
  · exact hanyRank hany
  · rcases hdims with rfl | hdims
    · exact hdetails rfl
    · exact hdims (Token.dims_eq_nil_iff.mpr hnone)

theorem ofTokens_cons_ellipsis (hanyRank : Token.anyRank ∉ tokens)
    (hdims : tokens = [] ∨ Token.dims tokens ≠ []) :
    ofTokens (.ellipsis :: tokens) = (ofTokens tokens).underEllipsis := by
  have hopen := isOpen_ofTokens_eq_false hanyRank hdims
  have hopen' : (ofTokens (.ellipsis :: tokens)).shape.isOpen = false := by
    refine isOpen_ofTokens_eq_false (by simpa using hanyRank) (.inr ?_)
    exact List.cons_ne_nil _ _
  have hshape : (ofTokens (.ellipsis :: tokens)).shape =
      (ofTokens tokens).shape.underEllipsis := by
    change Shape.mk _ _ (ofTokens (.ellipsis :: tokens)).shape.isOpen =
      Shape.mk _ _ (ofTokens tokens).shape.isOpen
    rw [hopen, hopen']
    rfl
  unfold underEllipsis
  rw [← hshape]
  rfl

theorem ellipsis_notMem_dims_ofTokens (hellipsis : Token.ellipsis ∉ tokens) :
    Dim.ellipsis ∉ (ofTokens tokens).shape.dims := by
  intro hmem
  obtain ⟨t, ht, hdim⟩ := List.mem_filterMap.mp hmem
  rw [Token.eq_ellipsis_of_dim? hdim] at ht
  exact hellipsis ht

/-- **A leading ellipsis matches the last axes.**  Put in front of a declaration
    that has neither an ellipsis nor a marker, and no details but built-in ones,
    an ellipsis leaves a declaration.  An array with at least as many axes as
    there are dimensions matches it as its last axes match the one without the
    ellipsis: with the same bindings, or for the same reason at an axis with a
    higher number.  An array with fewer axes has the wrong rank.  So of the axes
    that the ellipsis takes up neither their number nor their sizes and names
    count. -/
theorem ellipsis_matches_suffix {caps : Capabilities} {schema : Schema}
    (h : Schema.declare caps tokens = .ok schema) (hellipsis : Token.ellipsis ∉ tokens)
    (hanyRank : Token.anyRank ∉ tokens) (hscalar : Token.scalar ∉ tokens)
    (hdims : tokens = [] ∨ Token.dims tokens ≠ [])
    (hbuiltIn : ∀ d ∈ Token.details tokens, d.BuiltIn) :
    ∃ schema', Schema.declare caps (.ellipsis :: tokens) = .ok schema' ∧ ∀ b v,
      ((Token.dims tokens).length ≤ v.rank →
        (schema'.matchArray b v).mapError Mismatch.reason =
          (schema.matchArray b (v.lastAxes (Token.dims tokens).length)).mapError fun m =>
            m.reason.shiftAxis (v.rank - (Token.dims tokens).length)) ∧
      (v.rank < (Token.dims tokens).length →
        schema'.matchArray b v =
          .error ⟨schema'.text, v.text, .rank (.atLeast (Token.dims tokens).length) v.rank⟩) ∧
      ∀ w, (Token.dims tokens).length ≤ v.rank → (Token.dims tokens).length ≤ w.rank →
        v.lastAxes (Token.dims tokens).length = w.lastAxes (Token.dims tokens).length →
          ∀ b', schema'.matchArray b v = .ok b' ↔ schema'.matchArray b w = .ok b' := by
  obtain ⟨hgrammar, rfl⟩ := (declare_eq_ok_iff caps tokens schema).mp h
  have hopen := isOpen_ofTokens_eq_false hanyRank hdims
  have hnone := ellipsis_notMem_dims_ofTokens hellipsis
  have hkept : ∀ d ∈ (ofTokens tokens).details, d.BuiltIn := by
    intro d hd
    exact hbuiltIn d (Detail.mem_of_mem_distinct hd)
  have hdeclare : Schema.declare caps (.ellipsis :: tokens) =
      .ok (ofTokens tokens).underEllipsis := by
    rw [← ofTokens_cons_ellipsis hanyRank hdims, declare_eq_ok_iff]
    exact ⟨hgrammar.cons_ellipsis hellipsis hanyRank hscalar, rfl⟩
  have hsuffix : ∀ b v, (Token.dims tokens).length ≤ v.rank →
      ((ofTokens tokens).underEllipsis.matchArray b v).mapError Mismatch.reason =
        ((ofTokens tokens).matchArray b (v.lastAxes (Token.dims tokens).length)).mapError
          fun m => m.reason.shiftAxis (v.rank - (Token.dims tokens).length) :=
    fun b v hv => matchArray_underEllipsis hopen hnone hkept hv b
  have hok : ∀ b v b', (Token.dims tokens).length ≤ v.rank →
      ((ofTokens tokens).underEllipsis.matchArray b v = .ok b' ↔
        (ofTokens tokens).matchArray b (v.lastAxes (Token.dims tokens).length) = .ok b') := by
    intro b v b' hv
    have hmap := hsuffix b v hv
    rw [← mapError_eq_ok_iff (f := Mismatch.reason), hmap, mapError_eq_ok_iff]
  refine ⟨_, hdeclare, fun b v => ⟨hsuffix b v, ?_, ?_⟩⟩
  · intro hlt
    exact matchArray_underEllipsis_of_lt hopen hnone hlt b
  · intro w hv hw hsame b'
    rw [hok b v b' hv, hok b w b' hw, hsame]

/-- Two leading axes are taken up, and the size that is wrong is that of the
    last axis but one. -/
theorem ellipsis_matches_suffix_matrix :
    let tokens : List Token := [.name "n", .size 3, .isFloat]
    let stack : ArrayView := ⟨[⟨7, some "b"⟩, ⟨2, none⟩, ⟨5, none⟩, ⟨4, none⟩], .f32, true, none⟩
    Schema.declare .plain tokens = .ok (ofTokens tokens) ∧ Token.ellipsis ∉ tokens ∧
      Token.anyRank ∉ tokens ∧ Token.scalar ∉ tokens ∧ Token.dims tokens ≠ [] ∧
      (∀ d ∈ Token.details tokens, d.BuiltIn) ∧
      ∃ schema', Schema.declare .plain (.ellipsis :: tokens) = .ok schema' ∧
        (schema'.matchArray .empty stack).mapError Mismatch.reason =
          .error (.fixedSize 3 3 4) := by
  intro tokens stack
  have hdeclare : Schema.declare .plain tokens = .ok (ofTokens tokens) := rfl
  have hdims : Token.dims tokens ≠ [] := List.cons_ne_nil _ _
  have hellipsis : Token.ellipsis ∉ tokens := by simp [tokens]
  have hanyRank : Token.anyRank ∉ tokens := by simp [tokens]
  have hscalar : Token.scalar ∉ tokens := by simp [tokens]
  have hbuiltIn : ∀ d ∈ Token.details tokens, d.BuiltIn := by
    intro d hd
    cases List.mem_singleton.mp hd
    exact .float
  obtain ⟨schema', hdeclare', hmatch⟩ :=
    ellipsis_matches_suffix hdeclare hellipsis hanyRank hscalar (.inr hdims) hbuiltIn
  refine ⟨hdeclare, hellipsis, hanyRank, hscalar, hdims, hbuiltIn, schema', hdeclare', ?_⟩
  exact (hmatch .empty stack).1 (by decide)

end Schema

end ShapeContracts
