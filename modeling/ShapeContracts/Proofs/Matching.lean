/-
  ShapeContracts/Proofs/Matching.lean
  ===================================
  **What it means that an array matches a schema.**

  Matching walks over the axes from the last to the first, binds labels on the
  way and stops at the first thing that is wrong.  Its meaning has no order and
  no walk: the descriptors other than the ellipsis are laid against the last
  axes (`Shape.aligned`), each pair has to fit by itself, and the labels among
  the pairs give the readings of the array.

  Every function of the matcher is shown to decide its part of this, from one
  axis up to a whole schema.  The walk meets the aligned pairs in reverse; that
  it does not miss one, or meet one more, needs the ellipsis to come first,
  which is what declared schemas are known to have.
-/
import ShapeContracts.Mismatch
import ShapeContracts.Proofs.Assignment
import ShapeContracts.Proofs.Grammar

namespace ShapeContracts

/-! ### What a descriptor asks of an axis -/

namespace Dim

def label? : Dim → Option String
  | .named (.label label) _ => some label
  | _ => none

/-- Whether an axis may have a size, whatever the labels stand for. -/
def AdmitsSize (n : Size) : Dim → Prop
  | .fixed m => n = m
  | .named _ declared => ∀ m, declared = some m → n = m
  | _ => True

/-- Whether an axis may have a name: a label asks for itself, and an anonymous
    name asks for an axis without one. -/
def AdmitsName (name : Option String) : Dim → Prop
  | .named (.label label) _ => name = some label
  | .named .anonymous _ => name = none
  | _ => True

def readings (d : Dim) (n : Size) : List Reading :=
  d.label?.toList.map fun label => (label, n)

theorem mem_readings {d : Dim} {n m : Size} {label : String} :
    (label, m) ∈ d.readings n ↔ d.label? = some label ∧ n = m := by
  simp only [readings, List.mem_map, Option.mem_toList, Prod.mk.injEq]
  constructor
  · rintro ⟨other, hlabel, rfl, hsize⟩
    exact ⟨hlabel, hsize⟩
  · rintro ⟨hlabel, hsize⟩
    exact ⟨label, hlabel, rfl, hsize⟩

end Dim

/-! ### What a schema asks of an array -/

namespace Shape

/-- The descriptors that stand for one axis each. -/
def explicit (shape : Shape) : List Dim := shape.dims.filter fun d => !d.isEllipsis

/-- The labels of a shape.  An open shape has none. -/
def labels (shape : Shape) : List String :=
  if shape.isOpen then [] else shape.dims.filterMap Dim.label?

/-- The descriptors laid against the last axes, in order. -/
def aligned (shape : Shape) (v : ArrayView) : List (Dim × Axis) :=
  shape.explicit.zip (v.axes.drop (v.rank - shape.explicitCount))

def AdmitsRank (shape : Shape) (rank : Nat) : Prop :=
  if shape.hasEllipsis then shape.explicitCount ≤ rank else rank = shape.explicitCount

def AdmitsSizes (shape : Shape) (v : ArrayView) : Prop :=
  ∀ p ∈ shape.aligned v, p.1.AdmitsSize p.2.size

/-- Whether the axes have the right names, where names are compared at all. -/
def AdmitsNames (shape : Shape) (v : ArrayView) : Prop :=
  shape.checkNames = true →
    v.namedAxes = true ∧ ∀ p ∈ shape.aligned v, p.1.AdmitsName p.2.name

/-- The readings of an array: each label with the size of its axis. -/
def readings (shape : Shape) (v : ArrayView) : List Reading :=
  if shape.isOpen then [] else (shape.aligned v).flatMap fun p => p.1.readings p.2.size

end Shape

namespace Schema

/-- What a schema asks of an array by itself.  An open shape asks nothing. -/
structure Fits (schema : Schema) (v : ArrayView) : Prop where
  rank : schema.shape.isOpen = true ∨ schema.shape.AdmitsRank v.rank
  sizes : schema.shape.isOpen = true ∨ schema.shape.AdmitsSizes v
  names : schema.shape.isOpen = true ∨ schema.shape.AdmitsNames v
  details : ∀ d ∈ schema.details, d.accepts v = true

/-- An array satisfies a schema under an assignment when it fits by itself and
    every axis with a label has the size assigned to the label. -/
def Admits (schema : Schema) (σ : Assignment) (v : ArrayView) : Prop :=
  schema.Fits v ∧ σ.Meets (schema.shape.readings v)

theorem fits_iff_of_closed {schema : Schema} {v : ArrayView}
    (hclosed : schema.shape.isOpen = false) :
    schema.Fits v ↔
      schema.shape.AdmitsRank v.rank ∧ schema.shape.AdmitsSizes v ∧ schema.shape.AdmitsNames v ∧
        ∀ d ∈ schema.details, d.accepts v = true := by
  have hopen : ¬ schema.shape.isOpen = true := by
    rw [hclosed]
    exact Bool.false_ne_true
  constructor
  · rintro ⟨hrank, hsizes, hnames, hdetails⟩
    exact ⟨hrank.resolve_left hopen, hsizes.resolve_left hopen, hnames.resolve_left hopen,
      hdetails⟩
  · rintro ⟨hrank, hsizes, hnames, hdetails⟩
    exact ⟨.inr hrank, .inr hsizes, .inr hnames, hdetails⟩

end Schema

/-! ### One axis -/

namespace Dim

variable {checkNames : Bool} {axis : Nat}

theorem decides_checkSize (axis : Nat) (n : Size) (s : Staged) (d : Dim) :
    Decides s.get? (d.AdmitsSize n) (d.readings n) Staged.get? (d.checkSize axis n s) := by
  cases d with
  | fixed m =>
    simp only [checkSize]
    split
    next h => exact .ok s h
    next h => exact .error _ h
  | wildcard => exact .ok s trivial
  | ellipsis => exact .ok s trivial
  | named name declared =>
    simp only [checkSize]
    split
    next m hm =>
      obtain ⟨hdeclared, hne⟩ := Option.filter_eq_some_iff.mp hm
      refine .error _ fun h => ?_
      exact absurd (h m hdeclared).symm (by simpa using hne)
    next hnone =>
      have hsize : (Dim.named name declared).AdmitsSize n := by
        intro m hm
        have hagree : m = n := by simpa using Option.filter_eq_none_iff.mp hnone m hm
        exact hagree.symm
      cases name with
      | anonymous => exact .ok s hsize
      | label label =>
        refine ((s.decides_bind label n).mapError _).congr ⟨fun _ => hsize, fun _ => trivial⟩ ?_
        intro r
        rfl

theorem checkName_eq_ok_iff (axis : Nat) (name : Option String) (d : Dim) :
    d.checkName axis name = .ok () ↔ d.AdmitsName name := by
  have hif : ∀ expected : Option String,
      (if name = expected then Except.ok () else .error (Reason.axisName axis expected name)) =
        .ok () ↔ name = expected := by
    intro expected
    by_cases h : name = expected
    · simp [h]
    · simp [h]
  cases d with
  | named dimName declared =>
    cases dimName with
    | anonymous => exact hif none
    | label label => exact hif (some label)
  | fixed m => exact ⟨fun _ => trivial, fun _ => rfl⟩
  | wildcard => exact ⟨fun _ => trivial, fun _ => rfl⟩
  | ellipsis => exact ⟨fun _ => trivial, fun _ => rfl⟩

/-- One axis decides its size and its name and has at most one reading. -/
theorem decides_checkAxis (checkNames : Bool) (axis : Nat) (a : Axis) (s : Staged) (d : Dim) :
    Decides s.get? (d.AdmitsSize a.size ∧ (checkNames = true → d.AdmitsName a.name))
      (d.readings a.size) Staged.get? (d.checkAxis checkNames axis a s) := by
  rw [← List.append_nil (d.readings a.size)]
  refine Decides.bind (d.decides_checkSize axis a.size s) fun s' _ => ?_
  cases checkNames with
  | false => exact .ok s' (by simp)
  | true =>
    change Decides s'.get? _ [] Staged.get? ((d.checkName axis a.name).map fun _ => s')
    cases hname : d.checkName axis a.name with
    | ok u => exact .ok s' fun _ => (d.checkName_eq_ok_iff axis a.name).mp hname
    | error e =>
      refine .error e fun h => ?_
      rw [(d.checkName_eq_ok_iff axis a.name).mpr (h rfl)] at hname
      cases hname

end Dim

/-! ### The walk over the axes -/

/-- The walk stops at the ellipsis, whatever comes after. -/
theorem checkAxes_append_ellipsis (checkNames : Bool) (dims rest : List Dim) (axes : List Axis)
    (s : Staged) :
    checkAxes checkNames (dims ++ .ellipsis :: rest) axes s = checkAxes checkNames dims axes s := by
  induction dims generalizing axes s with
  | nil => rfl
  | cons d dims ih =>
    cases axes with
    | nil => cases d <;> rfl
    | cons a axes =>
      cases d with
      | ellipsis => rfl
      | _ =>
        simp only [List.cons_append, checkAxes]
        congr 1
        funext s'
        exact ih axes s'

/-- A walk without an ellipsis decides what all its pairs ask. -/
theorem decides_checkAxes (checkNames : Bool) {dims : List Dim} (axes : List Axis) (s : Staged)
    (h : Dim.ellipsis ∉ dims) :
    Decides s.get?
      (∀ p ∈ dims.zip axes,
        p.1.AdmitsSize p.2.size ∧ (checkNames = true → p.1.AdmitsName p.2.name))
      ((dims.zip axes).flatMap fun p => p.1.readings p.2.size)
      Staged.get? (checkAxes checkNames dims axes s) := by
  induction dims generalizing axes s with
  | nil => exact .ok s (by simp)
  | cons d dims ih =>
    obtain ⟨hd, hdims⟩ := List.ne_and_not_mem_of_not_mem_cons h
    cases axes with
    | nil => cases d <;> exact .ok s (by simp)
    | cons a axes =>
      -- `d` is not the ellipsis, so it is compared before the walk goes on
      have hstep : checkAxes checkNames (d :: dims) (a :: axes) s =
          (d.checkAxis checkNames axes.length a s).bind (checkAxes checkNames dims axes) := by
        cases d <;> first | rfl | exact absurd rfl hd
      rw [hstep, List.zip_cons_cons, List.flatMap_cons]
      refine (Decides.bind (d.decides_checkAxis checkNames axes.length a s)
        fun s' _ => ih axes s' hdims).congr ?_ fun r => Iff.rfl
      rw [List.forall_mem_cons]

/-! ### Shapes -/

namespace Shape

variable {shape : Shape}

theorem ellipsis_notMem_explicit (shape : Shape) : Dim.ellipsis ∉ shape.explicit := by
  intro h
  have hexplicit := (List.mem_filter.mp h).2
  cases hexplicit

/-- Descriptors of which only the first may be the ellipsis are the explicit
    ones, possibly after an ellipsis. -/
theorem dims_eq (h : Dim.ellipsis ∉ shape.dims.tail) :
    shape.dims = shape.explicit ∨ shape.dims = .ellipsis :: shape.explicit := by
  have hkeep : ∀ {dims : List Dim}, Dim.ellipsis ∉ dims →
      dims.filter (fun d => !d.isEllipsis) = dims := by
    intro dims hdims
    refine List.filter_eq_self.mpr fun d hd => ?_
    cases d <;> first | rfl | exact absurd hd hdims
  unfold explicit
  cases hshape : shape.dims with
  | nil => exact .inl rfl
  | cons first rest =>
    rw [hshape, List.tail_cons] at h
    rw [List.filter_cons, hkeep h]
    cases first with
    | ellipsis => exact .inr rfl
    | _ => exact .inl rfl

/-- The walk over a shape is the walk over its explicit descriptors. -/
theorem checkAxes_reverse_dims (h : Dim.ellipsis ∉ shape.dims.tail) (checkNames : Bool)
    (axes : List Axis) (s : Staged) :
    checkAxes checkNames shape.dims.reverse axes s =
      checkAxes checkNames shape.explicit.reverse axes s := by
  rcases dims_eq h with hdims | hdims
  · rw [hdims]
  · rw [hdims, List.reverse_cons]
    exact checkAxes_append_ellipsis checkNames shape.explicit.reverse [] axes s

/-- With enough axes the walk meets the aligned pairs, in reverse. -/
theorem zip_reverse_explicit {v : ArrayView} (h : shape.explicitCount ≤ v.rank) :
    shape.explicit.reverse.zip v.axes.reverse = (shape.aligned v).reverse := by
  have hlength : shape.explicit.length =
      (v.axes.drop (v.rank - shape.explicitCount)).length := by
    rw [List.length_drop]
    have hcount : shape.explicit.length = shape.explicitCount := rfl
    have hrank : v.axes.length = v.rank := rfl
    omega
  have haxes : v.axes.reverse = (v.axes.drop (v.rank - shape.explicitCount)).reverse ++
      (v.axes.take (v.rank - shape.explicitCount)).reverse := by
    rw [← List.reverse_append, List.take_append_drop]
  -- reversed, the axes without a descriptor come last, where the zip has ended
  calc shape.explicit.reverse.zip v.axes.reverse
    _ = (shape.explicit.reverse ++ []).zip ((v.axes.drop (v.rank - shape.explicitCount)).reverse ++
          (v.axes.take (v.rank - shape.explicitCount)).reverse) := by
        rw [List.append_nil, ← haxes]
    _ = shape.explicit.reverse.zip (v.axes.drop (v.rank - shape.explicitCount)).reverse := by
        rw [List.zip_append (by simpa using hlength), List.zip_nil_left, List.append_nil]
    _ = (shape.aligned v).reverse := (List.reverse_zipWith hlength).symm

theorem allows_rankRule (shape : Shape) (rank : Nat) :
    shape.rankRule.allows rank = true ↔ shape.AdmitsRank rank := by
  unfold rankRule AdmitsRank
  split
  · exact decide_eq_true_iff
  · exact beq_iff_eq.trans eq_comm

theorem explicitCount_le_of_admitsRank {rank : Nat} (h : shape.AdmitsRank rank) :
    shape.explicitCount ≤ rank := by
  unfold AdmitsRank at h
  split at h <;> omega

/-- The checks of a shape decide rank, sizes and names, and read the labels. -/
theorem decides_check (h : Dim.ellipsis ∉ shape.dims.tail) (v : ArrayView) (s : Staged) :
    Decides s.get?
      ((shape.isOpen = true ∨ shape.AdmitsRank v.rank) ∧
        (shape.isOpen = true ∨ shape.AdmitsSizes v) ∧
          (shape.isOpen = true ∨ shape.AdmitsNames v))
      (shape.readings v) Staged.get? (shape.check v s) := by
  unfold check readings
  split
  next hopen => exact .ok s ⟨.inl hopen, .inl hopen, .inl hopen⟩
  next hopen =>
    simp only [hopen, Bool.false_eq_true, false_or]
    split
    next hrank =>
      refine .error _ fun hall => ?_
      rw [(shape.allows_rankRule v.rank).mpr hall.1] at hrank
      cases hrank
    next hrank =>
      have hrank : shape.AdmitsRank v.rank :=
        (shape.allows_rankRule v.rank).mp (by simpa using hrank)
      split
      next hnames =>
        obtain ⟨hcheck, hunnamed⟩ := Bool.and_eq_true_iff.mp hnames
        refine .error _ fun hall => ?_
        rw [(hall.2.2 hcheck).1] at hunnamed
        cases hunnamed
      next hnames =>
        have hnamed : shape.checkNames = true → v.namedAxes = true := by
          intro hcheck
          simpa [hcheck] using hnames
        have hnone : Dim.ellipsis ∉ shape.explicit.reverse := by
          rw [List.mem_reverse]
          exact shape.ellipsis_notMem_explicit
        rw [checkAxes_reverse_dims h]
        refine (decides_checkAxes shape.checkNames v.axes.reverse s hnone).congr ?_ ?_
        · rw [zip_reverse_explicit (explicitCount_le_of_admitsRank hrank)]
          simp only [List.mem_reverse]
          constructor
          · intro hpairs
            exact ⟨hrank, fun p hp => (hpairs p hp).1,
              fun hcheck => ⟨hnamed hcheck, fun p hp => (hpairs p hp).2 hcheck⟩⟩
          · rintro ⟨_, hsizes, hnames⟩ p hp
            exact ⟨hsizes p hp, fun hcheck => (hnames hcheck).2 p hp⟩
        · intro r
          rw [zip_reverse_explicit (explicitCount_le_of_admitsRank hrank)]
          simp only [List.mem_flatMap, List.mem_reverse]

end Shape

/-! ### Schemas -/

theorem checkDetails_eq_ok_iff (details : List Detail) (v : ArrayView) :
    checkDetails details v = .ok () ↔ ∀ d ∈ details, d.accepts v = true := by
  unfold checkDetails
  split
  next d hfind =>
    have hd := List.mem_of_find?_eq_some hfind
    have hrefused := List.find?_some hfind
    constructor
    · intro h
      cases h
    · intro h
      simp [h d hd] at hrefused
  next hnone =>
    refine ⟨fun _ d hd => ?_, fun _ => rfl⟩
    simpa using List.find?_eq_none.mp hnone d hd

/-- The details read nothing: they leave what is staged as it is. -/
theorem decides_checkDetails (details : List Detail) (v : ArrayView) (s : Staged) :
    Decides s.get? (∀ d ∈ details, d.accepts v = true) [] Staged.get?
      ((checkDetails details v).map fun _ => s) := by
  cases hcheck : checkDetails details v with
  | ok u => exact .ok s ((checkDetails_eq_ok_iff details v).mp hcheck)
  | error e =>
    refine .error e fun hall => ?_
    rw [(checkDetails_eq_ok_iff details v).mpr hall] at hcheck
    cases hcheck

namespace Schema

variable {schema : Schema}

theorem decides_check (h : Dim.ellipsis ∉ schema.shape.dims.tail) (v : ArrayView) (s : Staged) :
    Decides s.get? (schema.Fits v) (schema.shape.readings v) Staged.get? (schema.check v s) := by
  refine (Decides.bind (Shape.decides_check h v s)
    fun s' _ => decides_checkDetails schema.details v s').congr ?_ ?_
  · constructor
    · rintro ⟨⟨hrank, hsizes, hnames⟩, hdetails⟩
      exact ⟨hrank, hsizes, hnames, hdetails⟩
    · rintro ⟨hrank, hsizes, hnames, hdetails⟩
      exact ⟨⟨hrank, hsizes, hnames⟩, hdetails⟩
  · intro r
    rw [List.append_nil]

end Schema

/-! ### Nothing but staging -/

namespace Dim

theorem keepsBase_checkSize (axis : Nat) (n : Size) (s : Staged) (d : Dim) :
    s.KeepsBase (d.checkSize axis n s) := by
  cases d with
  | fixed m =>
    simp only [checkSize]
    split
    · exact rfl
    · trivial
  | wildcard => exact rfl
  | ellipsis => exact rfl
  | named name declared =>
    simp only [checkSize]
    split
    · trivial
    · cases name with
      | anonymous => exact rfl
      | label label => exact (s.keepsBase_bind label n).mapError _

theorem keepsBase_checkAxis (checkNames : Bool) (axis : Nat) (a : Axis) (s : Staged) (d : Dim) :
    s.KeepsBase (d.checkAxis checkNames axis a s) := by
  refine (d.keepsBase_checkSize axis a.size s).bind fun s' => ?_
  cases checkNames with
  | false => exact rfl
  | true => exact .guard (d.checkName axis a.name)

end Dim

theorem keepsBase_checkAxes (checkNames : Bool) (dims : List Dim) (axes : List Axis)
    (s : Staged) : s.KeepsBase (checkAxes checkNames dims axes s) := by
  induction dims generalizing axes s with
  | nil => exact rfl
  | cons d dims ih =>
    cases axes with
    | nil => cases d <;> exact rfl
    | cons a axes =>
      have hstep := (d.keepsBase_checkAxis checkNames axes.length a s).bind (ih axes)
      cases d with
      | ellipsis => exact rfl
      | _ => exact hstep

theorem Shape.keepsBase_check (shape : Shape) (v : ArrayView) (s : Staged) :
    s.KeepsBase (shape.check v s) := by
  unfold check
  split
  · exact rfl
  split
  · trivial
  split
  · trivial
  · exact keepsBase_checkAxes _ _ _ s

theorem Schema.keepsBase_check (schema : Schema) (v : ArrayView) (s : Staged) :
    s.KeepsBase (schema.check v s) :=
  (schema.shape.keepsBase_check v s).bind fun _ => .guard _

/-! ### Matching -/

namespace Schema

variable {schema : Schema}

/-- A match decides what its checks decide, for what they have staged is
    committed. -/
theorem decides_matchArray_of_check {condition : Prop} {readings : List Reading} (b : Bindings)
    (v : ArrayView)
    (h : Decides (b.stage).get? condition readings Staged.get? (schema.check v b.stage)) :
    Decides b.get? condition readings Table.get? (schema.matchArray b v) := by
  have hbase : (b.stage).get? = b.get? := by
    funext label
    exact Option.or_none
  have hkeeps := schema.keepsBase_check v b.stage
  unfold matchArray
  rw [hbase] at h
  cases hresult : schema.check v b.stage with
  | error reason =>
    rw [hresult] at h
    exact h
  | ok s =>
    rw [hresult] at h hkeeps
    obtain ⟨hcondition, hknown⟩ := h
    refine ⟨hcondition, fun label n => ?_⟩
    have hbound : (b.commit s.fresh).get? label = s.get? label := by
      -- what was staged is committed to the very bindings it was staged on
      have hs : s.base = b := hkeeps
      rw [← s.get?_commit label, hs]
    rw [hbound, hknown]

/-- A match decides whether the array fits and binds its readings. -/
theorem decides_matchArray (h : Dim.ellipsis ∉ schema.shape.dims.tail) (b : Bindings)
    (v : ArrayView) :
    Decides b.get? (schema.Fits v) (schema.shape.readings v) Table.get?
      (schema.matchArray b v) :=
  decides_matchArray_of_check b v (decides_check h v b.stage)

/-- A match that succeeds leaves bound what was bound and what was read. -/
theorem matchArray_eq_ok_iff (h : Dim.ellipsis ∉ schema.shape.dims.tail) {b b' : Bindings}
    {v : ArrayView} :
    schema.matchArray b v = .ok b' ↔
      schema.Fits v ∧ ∀ label n, b'.get? label = some n ↔
        b.get? label = some n ∨ (label, n) ∈ schema.shape.readings v :=
  (decides_matchArray h b v).eq_ok_iff

/-- A mismatch shows the schema and the array that were compared. -/
theorem matchArray_eq_error {m : Mismatch} {b : Bindings} {v : ArrayView}
    (h : schema.matchArray b v = .error m) : ∃ reason, m = ⟨schema.text, v.text, reason⟩ := by
  unfold matchArray at h
  split at h
  · cases h
  next reason _ =>
    cases h
    exact ⟨reason, rfl⟩

end Schema

/-! ### Readings and labels -/

namespace Shape

variable {shape : Shape} {v : ArrayView}

theorem mem_readings {label : String} {n : Size} :
    (label, n) ∈ shape.readings v ↔
      shape.isOpen = false ∧
        ∃ p ∈ shape.aligned v, p.1.label? = some label ∧ p.2.size = n := by
  unfold readings
  split
  next hopen => simp [hopen]
  next hopen => simp [hopen, List.mem_flatMap, Dim.mem_readings]

theorem mem_labels {label : String} :
    label ∈ shape.labels ↔
      shape.isOpen = false ∧ ∃ d ∈ shape.explicit, d.label? = some label := by
  unfold labels
  split
  next hopen => simp [hopen]
  next hopen =>
    rw [List.mem_filterMap]
    constructor
    · rintro ⟨d, hd, hlabel⟩
      refine ⟨by simpa using hopen, d, List.mem_filter.mpr ⟨hd, ?_⟩, hlabel⟩
      cases d <;> first | rfl | cases hlabel
    · rintro ⟨_, d, hd, hlabel⟩
      exact ⟨d, (List.mem_filter.mp hd).1, hlabel⟩

/-- In an array with enough axes every explicit descriptor has one. -/
theorem exists_mem_aligned (h : shape.AdmitsRank v.rank) {d : Dim} (hd : d ∈ shape.explicit) :
    ∃ a, (d, a) ∈ shape.aligned v := by
  have hlength : shape.explicit.length ≤
      (v.axes.drop (v.rank - shape.explicitCount)).length := by
    rw [List.length_drop]
    have hcount : shape.explicit.length = shape.explicitCount := rfl
    have haxes : v.axes.length = v.rank := rfl
    have hle := explicitCount_le_of_admitsRank h
    omega
  rw [← List.map_fst_zip hlength, List.mem_map] at hd
  obtain ⟨p, hp, rfl⟩ := hd
  exact ⟨p.2, hp⟩

/-- In an array with enough axes every label is read. -/
theorem mem_labels_iff_exists_reading (h : shape.isOpen = true ∨ shape.AdmitsRank v.rank)
    {label : String} : label ∈ shape.labels ↔ ∃ n, (label, n) ∈ shape.readings v := by
  rw [mem_labels]
  constructor
  · rintro ⟨hclosed, d, hd, hlabel⟩
    obtain ⟨a, ha⟩ := exists_mem_aligned (h.resolve_left (by simp [hclosed])) hd
    exact ⟨a.size, mem_readings.mpr ⟨hclosed, (d, a), ha, hlabel, rfl⟩⟩
  · rintro ⟨n, hread⟩
    obtain ⟨hclosed, p, hp, hlabel, _⟩ := mem_readings.mp hread
    exact ⟨hclosed, p.1, (List.of_mem_zip hp).1, hlabel⟩

theorem meets_readings {σ : Assignment} :
    σ.Meets (shape.readings v) ↔
      shape.isOpen = true ∨
        ∀ p ∈ shape.aligned v, ∀ label, p.1.label? = some label → σ label = p.2.size := by
  constructor
  · intro h
    cases hopen : shape.isOpen with
    | true => exact .inl rfl
    | false =>
      refine .inr fun p hp label hlabel => ?_
      exact h (label, p.2.size) (mem_readings.mpr ⟨hopen, p, hp, hlabel, rfl⟩)
  · rintro h ⟨label, n⟩ hread
    obtain ⟨hclosed, p, hp, hlabel, rfl⟩ := mem_readings.mp hread
    exact h.resolve_left (by simp [hclosed]) p hp label hlabel

end Shape

/-! ### The meaning of a match -/

/-- **What a match means.**  An array matches a declared schema exactly when its
    rank is right, its last axes have the sizes asked for and one assignment
    that extends the bindings gives every labelled axis its size, the axes have
    the names asked for, and the details accept the array; an open shape asks
    only for the details.  Afterwards every label of the shape is bound, to the
    size of its axis, and nothing else has changed. -/
theorem Schema.matchArray_iff {schema : Schema} (h : schema.Declared) (b : Bindings)
    (v : ArrayView) :
    ((∃ b', schema.matchArray b v = .ok b') ↔
      (schema.shape.isOpen = true ∨ schema.shape.AdmitsRank v.rank) ∧
      (schema.shape.isOpen = true ∨ schema.shape.AdmitsSizes v ∧
        ∃ σ : Assignment, σ.Extends b.get? ∧
          ∀ p ∈ schema.shape.aligned v, ∀ label, p.1.label? = some label →
            σ label = p.2.size) ∧
      (schema.shape.isOpen = true ∨ schema.shape.AdmitsNames v) ∧
      ∀ d ∈ schema.details, d.accepts v = true) ∧
    ∀ b', schema.matchArray b v = .ok b' →
      (∀ label n, b'.get? label = some n ↔
        b.get? label = some n ∨
          schema.shape.isOpen = false ∧
            ∃ p ∈ schema.shape.aligned v, p.1.label? = some label ∧ p.2.size = n) ∧
      ∀ label ∈ schema.shape.labels, ∃ n, b'.get? label = some n := by
  have hdecides := decides_matchArray h.ellipsis_notMem_tail b v
  constructor
  · rw [hdecides.exists_ok_iff]
    constructor
    · rintro ⟨⟨hrank, hsizes, hnames, hdetails⟩, σ, hσ, hmeets⟩
      refine ⟨hrank, ?_, hnames, hdetails⟩
      rcases Shape.meets_readings.mp hmeets with hopen | hread
      · exact .inl hopen
      · exact hsizes.imp_right fun hsizes => ⟨hsizes, σ, hσ, hread⟩
    · rintro ⟨hrank, hsizes, hnames, hdetails⟩
      refine ⟨⟨hrank, hsizes.imp_right And.left, hnames, hdetails⟩, ?_⟩
      rcases hsizes with hopen | ⟨_, σ, hσ, hread⟩
      · obtain ⟨σ, hσ⟩ := Assignment.exists_extends b.get?
        exact ⟨σ, hσ, Shape.meets_readings.mpr (.inl hopen)⟩
      · exact ⟨σ, hσ, Shape.meets_readings.mpr (.inr hread)⟩
  · intro b' hb'
    rw [hb'] at hdecides
    obtain ⟨hfits, hbound⟩ := hdecides
    refine ⟨fun label n => ?_, fun label hlabel => ?_⟩
    · rw [hbound, Shape.mem_readings]
    · obtain ⟨n, hread⟩ := (Shape.mem_labels_iff_exists_reading hfits.rank).mp hlabel
      exact ⟨n, (hbound label n).mpr (.inr hread)⟩

/-- A batch of matrices whose outer sizes agree with each other and with the
    size bound before; the middle one is declared. -/
theorem Schema.matchArray_iff_batched :
    (ofTokens [.ellipsis, .name "n", .sizedName "k" 3, .name "n"]).Declared ∧
      ∃ b', (ofTokens [.ellipsis, .name "n", .sizedName "k" 3, .name "n"]).matchArray
          (Table.empty.put "n" 5)
          ⟨[⟨7, none⟩, ⟨5, none⟩, ⟨3, none⟩, ⟨5, none⟩], .f32, false, none⟩ = .ok b' ∧
        b'.get? "k" = some 3 := by
  have hdeclared : (ofTokens [.ellipsis, .name "n", .sizedName "k" 3, .name "n"]).Declared :=
    ⟨.plain, [.ellipsis, .name "n", .sizedName "k" 3, .name "n"], rfl⟩
  obtain ⟨b', hb'⟩ : ∃ b', (ofTokens [.ellipsis, .name "n", .sizedName "k" 3, .name "n"]).matchArray
      (Table.empty.put "n" 5)
      ⟨[⟨7, none⟩, ⟨5, none⟩, ⟨3, none⟩, ⟨5, none⟩], .f32, false, none⟩ = .ok b' := ⟨_, rfl⟩
  refine ⟨hdeclared, b', hb', ?_⟩
  refine (((matchArray_iff hdeclared _ _).2 b' hb').1 "k" 3).mpr (.inr ⟨rfl, ?_⟩)
  exact ⟨(.named (.label "k") (some 3), ⟨3, none⟩), by decide, rfl, rfl⟩

end ShapeContracts
