/-
  ShapeContracts/Proofs/Reason.lean
  =================================
  **The reason of a mismatch.**

  A schema asks its questions of an array in a fixed order, `Schema.checks`, and
  a mismatch gives the first that has a wrong answer.  `Check.Fails` says what a
  wrong answer is and which reason goes with it.  It speaks of the schema, the
  bindings before the match and the array, and not of what is staged on the way:
  a label that was not bound before is compared with the axes further right that
  have it.

  What is staged when the walk comes to an axis is just this: the bindings
  before and the labels of the axes already passed (`Shape.KnowsFrom`).  One
  axis keeps it (`Shape.KnowsFrom.step`), and with it the checks of one axis
  blame the first that fails (`Shape.blames_checkAxis`), hence the walk does
  (`Shape.blames_checkAxes`).
-/
import ShapeContracts.Proofs.Blame
import ShapeContracts.Proofs.Matching
import ShapeContracts.Proofs.Outcome

namespace ShapeContracts

/-! ### The questions in order -/

/-- One question a schema asks of an array.  Those about an axis have its number
    and the descriptor laid against it. -/
inductive Check
  | rank
  | naming
  | size (axis : Nat) (d : Dim)
  | label (axis : Nat) (d : Dim)
  | name (axis : Nat) (d : Dim)
  | detail (d : Detail)

/-- What is asked of one axis. -/
def Check.ofAxis (p : Dim × Nat) : List Check :=
  [.size p.2 p.1, .label p.2 p.1, .name p.2 p.1]

namespace Shape

/-- The descriptors that stand for one axis each, with the numbers of their
    axes: the last descriptor goes with the last axis. -/
def numbered (shape : Shape) (v : ArrayView) : List (Dim × Nat) :=
  shape.explicit.zipIdx (v.rank - shape.explicitCount)

/-- The questions of a shape, the axes from the last to the first. -/
def checks (shape : Shape) (v : ArrayView) : List Check :=
  if shape.isOpen then []
  else .rank :: .naming :: (shape.numbered v).reverse.flatMap Check.ofAxis

/-- An axis goes with a label and has a size. -/
def LabelsAxis (shape : Shape) (v : ArrayView) (label : String) (axis : Nat) (n : Size) : Prop :=
  ∃ d a, (d, axis) ∈ shape.numbered v ∧ d.label? = some label ∧
    v.axes[axis]? = some a ∧ a.size = n

end Shape

def Schema.checks (schema : Schema) (v : ArrayView) : List Check :=
  schema.shape.checks v ++ schema.details.map .detail

/-! ### Wrong answers -/

/-- When a question has a wrong answer, and the reason that goes with it. -/
inductive Check.Fails (shape : Shape) (b : Bindings) (v : ArrayView) : Check → Reason → Prop
  | tooFewAxes :
      shape.hasEllipsis = true → v.rank < shape.explicitCount →
      Fails shape b v .rank (.rank (.atLeast shape.explicitCount) v.rank)
  | wrongRank :
      shape.hasEllipsis = false → v.rank ≠ shape.explicitCount →
      Fails shape b v .rank (.rank (.exactly shape.explicitCount) v.rank)
  | nameless :
      shape.checkNames = true → v.namedAxes = false →
      Fails shape b v .naming .namesUnsupported
  | fixed {axis : Nat} {n : Size} {a : Axis} :
      v.axes[axis]? = some a → a.size ≠ n →
      Fails shape b v (.size axis (.fixed n)) (.fixedSize axis n a.size)
  /-- A declared size. -/
  | declared {axis : Nat} {name : DimName} {n : Size} {a : Axis} :
      v.axes[axis]? = some a → a.size ≠ n →
      Fails shape b v (.size axis (.named name (some n))) (.nameConflict name.text axis n a.size)
  /-- A label that was bound before. -/
  | bound {axis : Nat} {label : String} {size : Option Size} {n : Size} {a : Axis} :
      v.axes[axis]? = some a → b.get? label = some n → a.size ≠ n →
      Fails shape b v (.label axis (.named (.label label) size)) (.nameConflict label axis n a.size)
  /-- A label that was not bound before but that an axis further right has. -/
  | met {axis further : Nat} {label : String} {size : Option Size} {n : Size} {a : Axis} :
      v.axes[axis]? = some a → b.get? label = none → axis < further →
      shape.LabelsAxis v label further n → a.size ≠ n →
      Fails shape b v (.label axis (.named (.label label) size)) (.nameConflict label axis n a.size)
  | misnamed {axis : Nat} {d : Dim} {expected : Option String} {a : Axis} :
      shape.checkNames = true → v.axes[axis]? = some a → d.expectedName? = some expected →
      a.name ≠ expected →
      Fails shape b v (.name axis d) (.axisName axis expected a.name)
  | refused {d : Detail} :
      d.accepts v = false → Fails shape b v (.detail d) (.detail d.describe (d.found v))

namespace Shape

variable {shape : Shape} {b : Bindings} {v : ArrayView} {s s' : Staged} {d : Dim} {a : Axis}
  {axis : Nat}

/-! ### Numbers of axes -/

theorem eq_of_mem_numbered {d' : Dim} (h : (d, axis) ∈ shape.numbered v)
    (h' : (d', axis) ∈ shape.numbered v) : d = d' := by
  have hget := (List.mk_mem_zipIdx_iff_le_and_getElem?_sub.mp h).2
  have hget' := (List.mk_mem_zipIdx_iff_le_and_getElem?_sub.mp h').2
  exact Option.some.inj (hget.symm.trans hget')

theorem labelsAxis_iff (hd : (d, axis) ∈ shape.numbered v) (ha : v.axes[axis]? = some a)
    {label : String} {n : Size} :
    shape.LabelsAxis v label axis n ↔ (label, n) ∈ d.readings a.size := by
  rw [Dim.mem_readings]
  constructor
  · rintro ⟨d', a', hd', hlabel, ha', hsize⟩
    obtain rfl := eq_of_mem_numbered hd hd'
    obtain rfl := Option.some.inj (ha.symm.trans ha')
    exact ⟨hlabel, hsize⟩
  · rintro ⟨hlabel, hsize⟩
    exact ⟨d, a, hd, hlabel, ha, hsize⟩

/-! ### What is known on the way -/

/-- What is known when the axes from some number on have been passed: what was
    bound before, and the labels of those axes. -/
def KnowsFrom (shape : Shape) (b : Bindings) (v : ArrayView) (passed : Nat) (s : Staged) : Prop :=
  ∀ label n, s.get? label = some n ↔
    b.get? label = some n ∨ ∃ axis, passed ≤ axis ∧ shape.LabelsAxis v label axis n

theorem knowsFrom_stage (shape : Shape) (b : Bindings) (v : ArrayView) :
    shape.KnowsFrom b v v.rank b.stage := by
  intro label n
  have hget : b.stage.get? label = b.get? label := Option.or_none
  rw [hget]
  constructor
  · exact .inl
  · rintro (h | ⟨axis, hle, _, a, _, _, ha, _⟩)
    · exact h
    · have hlt : axis < v.rank := (List.getElem?_eq_some_iff.mp ha).1
      omega

/-- An axis that passes adds its label. -/
theorem KnowsFrom.step (h : shape.KnowsFrom b v (axis + 1) s)
    (hd : (d, axis) ∈ shape.numbered v) (ha : v.axes[axis]? = some a) {checkNames : Bool}
    (hs : d.checkAxis checkNames axis a s = .ok s') : shape.KnowsFrom b v axis s' := by
  intro label n
  have hdecides := d.decides_checkAxis checkNames axis a s
  rw [hs] at hdecides
  rw [hdecides.2 label n, h label n, ← labelsAxis_iff hd ha]
  constructor
  · rintro ((hbound | ⟨further, hle, hlabels⟩) | hlabels)
    · exact .inl hbound
    · exact .inr ⟨further, by omega, hlabels⟩
    · exact .inr ⟨axis, Nat.le_refl axis, hlabels⟩
  · rintro (hbound | ⟨further, hle, hlabels⟩)
    · exact .inl (.inl hbound)
    · rcases Nat.lt_or_eq_of_le hle with hlt | rfl
      · exact .inl (.inr ⟨further, hlt, hlabels⟩)
      · exact .inr hlabels

/-! ### One axis -/

theorem size_holds (ha : v.axes[axis]? = some a) (hsize : d.AdmitsSize a.size) :
    ∀ r, ¬ Check.Fails shape b v (.size axis d) r := by
  intro r hr
  cases hr with
  | fixed ha' hne =>
    cases ha.symm.trans ha'
    exact hne hsize
  | declared ha' hne =>
    cases ha.symm.trans ha'
    exact hne (hsize _ rfl)

/-- A label holds where what is known of it, if anything, is the size of the
    axis. -/
theorem label_holds (h : shape.KnowsFrom b v (axis + 1) s) (ha : v.axes[axis]? = some a)
    (hagrees : ∀ label n, d.label? = some label → s.get? label = some n → a.size = n) :
    ∀ r, ¬ Check.Fails shape b v (.label axis d) r := by
  intro r hr
  cases hr with
  | @bound _ label _ n _ ha' hbound hne =>
    cases ha.symm.trans ha'
    exact hne (hagrees label n rfl ((h label n).mpr (.inl hbound)))
  | @met _ further label _ n _ ha' hnone hlt hlabels hne =>
    cases ha.symm.trans ha'
    exact hne (hagrees label n rfl ((h label n).mpr (.inr ⟨further, hlt, hlabels⟩)))

/-- A label that is known to have another size was bound to it before, or else
    an axis further right has it. -/
theorem label_fails (h : shape.KnowsFrom b v (axis + 1) s) (ha : v.axes[axis]? = some a)
    {label : String} {n : Size} (hknown : s.get? label = some n) (hne : a.size ≠ n)
    (declared : Option Size) :
    Check.Fails shape b v (.label axis (.named (.label label) declared))
      (.nameConflict label axis n a.size) := by
  rcases (h label n).mp hknown with hbound | ⟨further, hlt, hlabels⟩
  · exact .bound ha hbound hne
  · cases hget : b.get? label with
    | none => exact .met ha hget hlt hlabels hne
    | some m =>
      obtain rfl : n = m := Option.some.inj (hknown.symm.trans ((h label m).mpr (.inl hget)))
      exact .bound ha hget hne

theorem blames_bind (h : shape.KnowsFrom b v (axis + 1) s) (ha : v.axes[axis]? = some a)
    (label : String) (declared : Option Size) :
    Blames (Check.Fails shape b v) [.label axis (.named (.label label) declared)]
      ((s.bind label a.size).mapError fun c => .nameConflict c.name axis c.bound c.actual) := by
  unfold Staged.bind
  cases hknown : s.get? label with
  | none =>
    refine faultless_singleton.mpr (label_holds h ha fun other n hother hn => ?_)
    cases hother
    cases hknown.symm.trans hn
  | some n =>
    by_cases heq : n = a.size
    · simp only [heq, if_true]
      refine faultless_singleton.mpr (label_holds h ha fun other m hother hm => ?_)
      cases hother
      exact heq.symm.trans (Option.some.inj (hknown.symm.trans hm))
    · simp only [heq, if_false]
      exact FirstFault.head (label_fails h ha hknown (Ne.symm heq) declared)

theorem blames_checkSize (h : shape.KnowsFrom b v (axis + 1) s) (ha : v.axes[axis]? = some a)
    (d : Dim) :
    Blames (Check.Fails shape b v) [.size axis d, .label axis d] (d.checkSize axis a.size s) := by
  -- the label is looked at where the size holds
  have hlabel : ∀ {r : Except Reason Staged}, d.AdmitsSize a.size →
      Blames (Check.Fails shape b v) [.label axis d] r →
        Blames (Check.Fails shape b v) [.size axis d, .label axis d] r := by
    intro r hsize hr
    exact hr.cons (size_holds ha hsize)
  have hunlabelled : d.label? = none → Faultless (Check.Fails shape b v) [.label axis d] := by
    intro hnone
    refine faultless_singleton.mpr (label_holds h ha fun label n hsome => ?_)
    rw [hnone] at hsome
    cases hsome
  cases d with
  | fixed n =>
    simp only [Dim.checkSize]
    split
    next heq => exact hlabel heq (hunlabelled rfl)
    next hne => exact FirstFault.head (.fixed ha hne)
  | wildcard => exact hlabel trivial (hunlabelled rfl)
  | ellipsis => exact hlabel trivial (hunlabelled rfl)
  | named name declared =>
    simp only [Dim.checkSize]
    split
    next n hn =>
      obtain ⟨rfl, hne⟩ := Option.filter_eq_some_iff.mp hn
      exact FirstFault.head (.declared ha (Ne.symm (of_decide_eq_true hne)))
    next hnone =>
      have hsize : (Dim.named name declared).AdmitsSize a.size := by
        intro n hn
        have hagree : n = a.size := by simpa using Option.filter_eq_none_iff.mp hnone n hn
        exact hagree.symm
      cases name with
      | anonymous => exact hlabel hsize (hunlabelled rfl)
      | label label => exact hlabel hsize (blames_bind h ha label declared)

theorem blames_checkName (ha : v.axes[axis]? = some a) (d : Dim) (s : Staged) :
    Blames (Check.Fails shape b v) [.name axis d]
      (if shape.checkNames then (d.checkName axis a.name).map fun _ => s else .ok s) := by
  have hholds : (shape.checkNames = true → ∀ expected, d.expectedName? = some expected →
      a.name = expected) → Faultless (Check.Fails shape b v) [.name axis d] := by
    intro hnamed
    rw [faultless_singleton]
    intro r hr
    cases hr with
    | misnamed hcheck ha' hexpected hne =>
      cases ha.symm.trans ha'
      exact hne (hnamed hcheck _ hexpected)
  split
  next hcheck =>
    unfold Dim.checkName
    cases hexpected : d.expectedName? with
    | none =>
      refine hholds fun _ expected hsome => ?_
      cases hexpected.symm.trans hsome
    | some expected =>
      by_cases heq : a.name = expected
      · simp only [heq, if_true]
        refine hholds fun _ other hother => ?_
        cases hexpected.symm.trans hother
        exact heq
      · simp only [heq, if_false]
        exact FirstFault.head (.misnamed hcheck ha hexpected heq)
  next hcheck => exact hholds fun hchecked => absurd hchecked hcheck

theorem blames_checkAxis (h : shape.KnowsFrom b v (axis + 1) s) (ha : v.axes[axis]? = some a)
    (d : Dim) :
    Blames (Check.Fails shape b v) (Check.ofAxis (d, axis))
      (d.checkAxis shape.checkNames axis a s) :=
  Blames.bind (blames_checkSize h ha d) fun s' _ => blames_checkName ha d s'

/-! ### The walk over the axes -/

/-- The walk comes to the axes in falling order of their numbers. -/
theorem numbers_cons (d : Dim) (todo : List Dim) (first : Nat) :
    ((d :: todo).reverse.zipIdx first).reverse =
      (d, first + todo.length) :: (todo.reverse.zipIdx first).reverse := by
  simp [List.zipIdx_append]

/-- A walk that has passed the axes from some number on, and has as many
    descriptors left as there are axes for them, blames the first of the checks
    left. -/
theorem blames_checkAxes {todo : List Dim} {axes : List Axis}
    (hellipsis : Dim.ellipsis ∉ todo) (htodo : todo.reverse <+: shape.explicit)
    (haxes : axes.reverse <+: v.axes)
    (hlength : axes.length = v.rank - shape.explicitCount + todo.length)
    (h : shape.KnowsFrom b v axes.length s) :
    Blames (Check.Fails shape b v)
      ((todo.reverse.zipIdx (v.rank - shape.explicitCount)).reverse.flatMap Check.ofAxis)
      (checkAxes shape.checkNames todo axes s) := by
  induction todo generalizing axes s with
  | nil => exact faultless_nil
  | cons d todo ih =>
    obtain ⟨hd, htail⟩ := List.ne_and_not_mem_of_not_mem_cons hellipsis
    rw [List.reverse_cons] at htodo
    cases axes with
    | nil => simp at hlength
    | cons a axes =>
      rw [List.reverse_cons] at haxes
      simp only [List.length_cons] at hlength h
      have hcount : axes.length = v.rank - shape.explicitCount + todo.length := by omega
      have ha : v.axes[axes.length]? = some a := by
        obtain ⟨rest, hrest⟩ := haxes
        rw [← hrest]
        simp
      have hnumbered : (d, axes.length) ∈ shape.numbered v := by
        refine List.mk_mem_zipIdx_iff_le_and_getElem?_sub.mpr ⟨by omega, ?_⟩
        obtain ⟨rest, hrest⟩ := htodo
        have hindex : axes.length - (v.rank - shape.explicitCount) = todo.length := by omega
        rw [hindex, ← hrest]
        simp
      have hstep : checkAxes shape.checkNames (d :: todo) (a :: axes) s =
          (d.checkAxis shape.checkNames axes.length a s).bind
            (checkAxes shape.checkNames todo axes) := by
        cases d <;> first | rfl | exact absurd rfl hd
      rw [hstep, numbers_cons, List.flatMap_cons, ← hcount]
      refine Blames.bind (blames_checkAxis h ha d) fun s' hs' => ?_
      exact ih htail ((List.prefix_append _ _).trans htodo) ((List.prefix_append _ _).trans haxes)
        hcount (h.step hnumbered ha hs')

/-! ### Shapes -/

theorem rank_holds (h : shape.AdmitsRank v.rank) :
    ∀ r, ¬ Check.Fails shape b v .rank r := by
  unfold AdmitsRank at h
  intro r hr
  cases hr with
  | tooFewAxes hellipsis hlt =>
    rw [if_pos hellipsis] at h
    omega
  | wrongRank hellipsis hne =>
    rw [if_neg (by simp [hellipsis])] at h
    exact hne h

theorem rank_fails (h : ¬ shape.AdmitsRank v.rank) :
    Check.Fails shape b v .rank (.rank shape.rankRule v.rank) := by
  unfold AdmitsRank at h
  unfold rankRule
  cases hellipsis : shape.hasEllipsis with
  | true =>
    rw [if_pos hellipsis] at h
    exact .tooFewAxes hellipsis (Nat.lt_of_not_le h)
  | false =>
    rw [if_neg (by simp [hellipsis])] at h
    exact .wrongRank hellipsis h

theorem naming_holds (h : shape.checkNames = true → v.namedAxes = true) :
    ∀ r, ¬ Check.Fails shape b v .naming r := by
  intro r hr
  cases hr with
  | nameless hcheck hunnamed =>
    rw [h hcheck] at hunnamed
    cases hunnamed

theorem blames_check (h : Dim.ellipsis ∉ shape.dims.tail) (b : Bindings) (v : ArrayView) :
    Blames (Check.Fails shape b v) (shape.checks v) (shape.check v b.stage) := by
  unfold check checks
  split
  · exact faultless_nil
  split
  next hrank =>
    refine FirstFault.head (rank_fails fun hadmits => ?_)
    rw [(shape.allows_rankRule v.rank).mpr hadmits] at hrank
    cases hrank
  next hrank =>
    have hadmits : shape.AdmitsRank v.rank :=
      (shape.allows_rankRule v.rank).mp (by simpa using hrank)
    refine Blames.cons ?_ (rank_holds hadmits)
    split
    next hnames =>
      obtain ⟨hcheck, hunnamed⟩ := Bool.and_eq_true_iff.mp hnames
      exact FirstFault.head (.nameless hcheck (by simpa using hunnamed))
    next hnames =>
      have hnamed : shape.checkNames = true → v.namedAxes = true := by
        intro hcheck
        simpa [hcheck] using hnames
      refine Blames.cons ?_ (naming_holds hnamed)
      rw [checkAxes_reverse_dims h]
      have hlength : v.axes.reverse.length =
          v.rank - shape.explicitCount + shape.explicit.reverse.length := by
        have hle := explicitCount_le_of_admitsRank hadmits
        have hcount : shape.explicit.length = shape.explicitCount := rfl
        have hrank : v.axes.length = v.rank := rfl
        simp only [List.length_reverse]
        omega
      have hnone : Dim.ellipsis ∉ shape.explicit.reverse := by
        rw [List.mem_reverse]
        exact shape.ellipsis_notMem_explicit
      have hknows : shape.KnowsFrom b v v.axes.reverse.length b.stage := by
        rw [List.length_reverse]
        exact shape.knowsFrom_stage b v
      have hwalk := blames_checkAxes hnone (by simp) (by simp) hlength hknows
      rwa [List.reverse_reverse] at hwalk

end Shape

/-! ### Schemas -/

theorem blames_checkDetails (shape : Shape) (b : Bindings) (details : List Detail)
    (v : ArrayView) :
    Blames (Check.Fails shape b v) (details.map .detail) (checkDetails details v) := by
  unfold checkDetails
  induction details with
  | nil => exact faultless_nil
  | cons d details ih =>
    rw [List.find?_cons, List.map_cons]
    cases haccepts : d.accepts v with
    | false => exact FirstFault.head (.refused haccepts)
    | true =>
      refine Blames.cons ih ?_
      intro r hr
      cases hr with
      | refused hrefused => cases haccepts.symm.trans hrefused

theorem Schema.blames_check {schema : Schema} (h : Dim.ellipsis ∉ schema.shape.dims.tail)
    (b : Bindings) (v : ArrayView) :
    Blames (Check.Fails schema.shape b v) (schema.checks v) (schema.check v b.stage) :=
  Blames.bind (Shape.blames_check h b v) fun s _ =>
    (blames_checkDetails schema.shape b schema.details v).map fun _ => s

theorem Schema.blames_matchArray {schema : Schema} (h : Dim.ellipsis ∉ schema.shape.dims.tail)
    (b : Bindings) (v : ArrayView) :
    Blames (Check.Fails schema.shape b v) (schema.checks v)
      ((schema.matchArray b v).mapError Mismatch.reason) := by
  have hcheck := Schema.blames_check h b v
  unfold matchArray
  cases hresult : schema.check v b.stage with
  | ok s =>
    rw [hresult] at hcheck
    exact hcheck
  | error reason =>
    rw [hresult] at hcheck
    exact hcheck

/-- **The reason of a mismatch is the first check that fails.**  An array matches
    a declared schema when none of its checks fails.  Otherwise the mismatch
    shows the schema and the array, and gives the reason of a check that fails
    while none before it does. -/
theorem Schema.mismatch_first_failing {schema : Schema} (h : schema.Declared) (b : Bindings)
    (v : ArrayView) :
    ((∃ b', schema.matchArray b v = .ok b') ↔
      ∀ check ∈ schema.checks v, ∀ r, ¬ check.Fails schema.shape b v r) ∧
    ∀ m, schema.matchArray b v = .error m →
      m.schema = schema.text ∧ m.array = v.text ∧
      ∃ before check after, schema.checks v = before ++ check :: after ∧
        (∀ earlier ∈ before, ∀ r, ¬ earlier.Fails schema.shape b v r) ∧
        check.Fails schema.shape b v m.reason := by
  have hblames := Schema.blames_matchArray h.ellipsis_notMem_tail b v
  constructor
  · have hiff := hblames.exists_ok_iff
    simp only [mapError_eq_ok_iff] at hiff
    exact hiff
  · intro m hm
    rw [hm] at hblames
    obtain ⟨reason, rfl⟩ := matchArray_eq_error hm
    exact ⟨rfl, rfl, hblames⟩

/-- A label that disagrees with itself, in an array of the wrong element type:
    the axis further right is looked at first, and the element type last. -/
theorem Schema.mismatch_first_failing_square :
    let square : Schema := ofTokens [.ellipsis, .name "n", .size 3, .name "n", .dtype .f32]
    let v : ArrayView := ⟨[⟨7, none⟩, ⟨5, none⟩, ⟨3, none⟩, ⟨6, none⟩], .i64, false, none⟩
    square.Declared ∧ ∃ m, square.matchArray .empty v = .error m ∧
      m.reason = .nameConflict "n" 1 6 5 ∧
      ∃ before check after, square.checks v = before ++ check :: after ∧
        (∀ earlier ∈ before, ∀ r, ¬ earlier.Fails square.shape .empty v r) ∧
        check.Fails square.shape .empty v m.reason := by
  intro square v
  have hdeclared : square.Declared :=
    ⟨.plain, [.ellipsis, .name "n", .size 3, .name "n", .dtype .f32], rfl⟩
  have hmatch : square.matchArray .empty v =
      .error ⟨square.text, v.text, .nameConflict "n" 1 6 5⟩ := rfl
  obtain ⟨-, hreason⟩ := mismatch_first_failing hdeclared .empty v
  obtain ⟨-, -, hfirst⟩ := hreason _ hmatch
  exact ⟨hdeclared, _, hmatch, rfl, hfirst⟩

end ShapeContracts
