/-
  ShapeContracts/Proofs/Assignment.lean
  =====================================
  **Assignments of sizes to labels.**

  A check of an array asks two kinds of things.  Some depend on the array
  alone: its rank, a fixed size, the name of an axis, a detail.  The others are
  *readings*, one for each axis that has a label: the label and the size of the
  axis.  All that can be wrong with readings is that they disagree, with each
  other or with sizes known before, and they agree exactly when one assignment
  of sizes to labels meets them all.

  `Decides` says this of one outcome: it is a success just when the condition
  holds and the readings agree, and then the readings are what has been
  learned.  Checks are put together by `Decides.bind`; since neither a
  conjunction nor a set of readings has an order, what is shown of a whole run
  no longer depends on the order in which the code looked at things.
-/
import ShapeContracts.Bindings

namespace ShapeContracts

/-! ### Assignments -/

/-- A size for every label. -/
abbrev Assignment := String → Size

/-- A label met on an axis of some size. -/
abbrev Reading := String × Size

/-- The sizes known so far. -/
abbrev Knowledge := String → Option Size

namespace Assignment

/-- An assignment extends what is known when it gives every known label the
    size it is known to have. -/
def Extends (σ : Assignment) (known : Knowledge) : Prop :=
  ∀ label n, known label = some n → σ label = n

/-- An assignment meets readings when it gives every label read its size. -/
def Meets (σ : Assignment) (readings : List Reading) : Prop :=
  ∀ r ∈ readings, σ r.1 = r.2

theorem exists_extends (known : Knowledge) : ∃ σ : Assignment, σ.Extends known := by
  refine ⟨fun label => (known label).getD 0, ?_⟩
  intro label n h
  simp [h]

theorem meets_nil (σ : Assignment) : σ.Meets [] := by
  intro r hr
  cases hr

theorem meets_append {σ : Assignment} {rs rs' : List Reading} :
    σ.Meets (rs ++ rs') ↔ σ.Meets rs ∧ σ.Meets rs' := by
  simp only [Meets, List.mem_append, or_imp, forall_and]

theorem meets_congr {σ : Assignment} {rs rs' : List Reading} (h : ∀ r, r ∈ rs ↔ r ∈ rs') :
    σ.Meets rs ↔ σ.Meets rs' := by
  simp only [Meets, h]

end Assignment

/-! ### Deciding a condition and readings

The view says what is known afterwards, so that one notion serves staged and
committed bindings.  An error says nothing about its reason here. -/

/-- An outcome decides a condition and readings, given what was known: a
    success means that the condition holds and that exactly the readings have
    been learned, an error means that the condition fails or that no assignment
    extends what was known and meets the readings. -/
def Decides {ε β : Type} (known : Knowledge) (condition : Prop) (readings : List Reading)
    (view : β → Knowledge) : Except ε β → Prop
  | .ok b => condition ∧
      ∀ label n, view b label = some n ↔ known label = some n ∨ (label, n) ∈ readings
  | .error _ => ¬ (condition ∧ ∃ σ : Assignment, σ.Extends known ∧ σ.Meets readings)

namespace Decides

variable {ε ε' β γ : Type} {known : Knowledge} {c c' : Prop} {rs rs' : List Reading}
  {view : β → Knowledge} {view' : γ → Knowledge}

theorem ok (b : β) (h : c) : Decides (ε := ε) (view b) c [] view (.ok b) :=
  ⟨h, fun label n => by simp⟩

theorem error (e : ε) (h : ¬ c) : Decides known c rs view (.error e) :=
  fun hc => h hc.1

/-- After a success the assignments left are those that extend what was known
    and meet the readings. -/
theorem extends_iff {b : β} (h : Decides (ε := ε) known c rs view (.ok b)) (σ : Assignment) :
    σ.Extends (view b) ↔ σ.Extends known ∧ σ.Meets rs := by
  constructor
  · intro hσ
    exact ⟨fun label n hn => hσ label n ((h.2 label n).mpr (.inl hn)),
      fun r hr => hσ r.1 r.2 ((h.2 r.1 r.2).mpr (.inr hr))⟩
  · rintro ⟨hσ, hmeets⟩ label n hn
    rcases (h.2 label n).mp hn with hn | hn
    · exact hσ label n hn
    · exact hmeets (label, n) hn

/-- A success means that the condition holds and that some assignment meets
    the readings and extends what was known. -/
theorem exists_ok_iff {r : Except ε β} (h : Decides known c rs view r) :
    (∃ b, r = .ok b) ↔ c ∧ ∃ σ : Assignment, σ.Extends known ∧ σ.Meets rs := by
  cases r with
  | ok b =>
    obtain ⟨σ, hσ⟩ := Assignment.exists_extends (view b)
    exact ⟨fun _ => ⟨h.1, σ, (h.extends_iff σ).mp hσ⟩, fun _ => ⟨b, rfl⟩⟩
  | error e =>
    constructor
    · rintro ⟨b, hb⟩
      cases hb
    · intro hc
      exact absurd hc h

/-- The condition may be restated, and the readings listed in another order. -/
theorem congr {r : Except ε β} (h : Decides known c rs view r) (hc : c ↔ c')
    (hrs : ∀ x, x ∈ rs ↔ x ∈ rs') : Decides known c' rs' view r := by
  cases r with
  | ok b =>
    refine ⟨hc.mp h.1, fun label n => ?_⟩
    rw [h.2, hrs]
  | error e =>
    rintro ⟨hc', σ, hσ, hmeets⟩
    exact h ⟨hc.mpr hc', σ, hσ, (Assignment.meets_congr hrs).mpr hmeets⟩

/-- One check after another decides both conditions and all readings. -/
theorem bind {r : Except ε β} {f : β → Except ε γ} (hr : Decides known c rs view r)
    (hf : ∀ b, r = .ok b → Decides (view b) c' rs' view' (f b)) :
    Decides known (c ∧ c') (rs ++ rs') view' (r.bind f) := by
  cases r with
  | error e =>
    rintro ⟨⟨hc, _⟩, σ, hσ, hmeets⟩
    exact hr ⟨hc, σ, hσ, (Assignment.meets_append.mp hmeets).1⟩
  | ok b =>
    have hb := hf b rfl
    -- the second check starts from what the first has learned
    change Decides known (c ∧ c') (rs ++ rs') view' (f b)
    cases hfb : f b with
    | ok g =>
      rw [hfb] at hb
      refine ⟨⟨hr.1, hb.1⟩, fun label n => ?_⟩
      rw [hb.2, hr.2, List.mem_append, or_assoc]
    | error e =>
      rw [hfb] at hb
      rintro ⟨⟨_, hc'⟩, σ, hσ, hmeets⟩
      obtain ⟨hfirst, hsecond⟩ := Assignment.meets_append.mp hmeets
      exact hb ⟨hc', σ, (hr.extends_iff σ).mpr ⟨hσ, hfirst⟩, hsecond⟩

theorem mapError {r : Except ε β} (f : ε → ε') (h : Decides known c rs view r) :
    Decides known c rs view (r.mapError f) := by
  cases r with
  | ok b => exact h
  | error e => exact h

end Decides

/-! ### Binding one label -/

theorem Staged.get?_append (s : Staged) (name label : String) (n : Size) :
    Staged.get? { s with fresh := s.fresh ++ [(name, n)] } label =
      (s.get? label).or (if label = name then some n else none) := by
  simp only [Staged.get?, List.lookup_append, Option.or_assoc]
  rw [Table.lookup_cons_eq_ite]
  rfl

/-- To compare a label with the size it is bound to, or else to write the size
    down, reads the label once.  What counts is that writing it down makes
    known the label and nothing else. -/
theorem decides_bindOrCompare {ε β : Type} (view : β → Knowledge) (b written : β) (name : String)
    (n : Size) (e : Size → ε)
    (hwritten : view b name = none → ∀ label,
      view written label = if label = name then some n else view b label) :
    Decides (view b) True [(name, n)] view
      (match view b name with
        | some bound => if bound = n then .ok b else .error (e bound)
        | none => .ok written) := by
  cases hname : view b name with
  | some bound =>
    dsimp only
    split
    next heq =>
      subst heq
      refine ⟨trivial, fun label m => ?_⟩
      constructor
      · exact .inl
      · rintro (h | h)
        · exact h
        · cases List.mem_singleton.mp h
          exact hname
    next hne =>
      -- an assignment would give the label both sizes
      rintro ⟨_, σ, hσ, hmeets⟩
      have hread : σ name = n := hmeets (name, n) (List.mem_singleton.mpr rfl)
      exact hne ((hσ name bound hname).symm.trans hread)
  | none =>
    refine ⟨trivial, fun label m => ?_⟩
    rw [hwritten hname, List.mem_singleton, Prod.mk.injEq]
    by_cases h : label = name
    · subst h
      simp [hname, eq_comm]
    · simp [h]

/-- Binding a label aside reads it once. -/
theorem Staged.decides_bind (s : Staged) (name : String) (n : Size) :
    Decides s.get? True [(name, n)] Staged.get? (s.bind name n) := by
  refine decides_bindOrCompare Staged.get? s _ name n _ fun hnone label => ?_
  rw [Staged.get?_append]
  by_cases h : label = name
  · subst h
    simp [hnone]
  · simp [h]

theorem Bindings.decides_bind (b : Bindings) (name : String) (n : Size) :
    Decides b.get? True [(name, n)] Table.get? (b.bind name n) :=
  decides_bindOrCompare Table.get? b _ name n _ fun _ label => b.get?_put name label n

/-! ### Which success it is -/

/-- An outcome in bindings succeeds with just those in which exactly what was
    bound and what was read is bound. -/
theorem Decides.eq_ok_iff {ε : Type} {c : Prop} {rs : List Reading} {b a : Bindings}
    {r : Except ε Bindings} (h : Decides b.get? c rs Table.get? r) :
    r = .ok a ↔
      c ∧ ∀ label n, a.get? label = some n ↔ b.get? label = some n ∨ (label, n) ∈ rs := by
  constructor
  · rintro rfl
    exact h
  · rintro ⟨hc, hknown⟩
    obtain ⟨a', rfl⟩ : ∃ a', r = .ok a' := by
      -- the bindings themselves are an assignment that meets the readings
      obtain ⟨σ, hσ⟩ := Assignment.exists_extends a.get?
      refine h.exists_ok_iff.mpr ⟨hc, σ, fun label n hn => ?_, fun r hr => ?_⟩
      · exact hσ label n ((hknown label n).mpr (.inl hn))
      · exact hσ r.1 r.2 ((hknown r.1 r.2).mpr (.inr hr))
    have heq : a' = a := by
      refine Table.eq_of_get?_eq fun label => Option.ext fun n => ?_
      rw [h.2, hknown]
    rw [heq]

/-! ### Committing

Staged bindings are committed to the bindings they were staged on, so it has to
be known that no check replaces those. -/

/-- An outcome leaves the bindings alone that it was staged on. -/
def Staged.KeepsBase {ε : Type} (s : Staged) : Except ε Staged → Prop
  | .ok s' => s'.base = s.base
  | .error _ => True

namespace Staged.KeepsBase

variable {ε ε' : Type} {s : Staged}

theorem bind {r : Except ε Staged} {f : Staged → Except ε Staged} (hr : s.KeepsBase r)
    (hf : ∀ s' : Staged, s'.KeepsBase (f s')) : s.KeepsBase (r.bind f) := by
  cases r with
  | error e => trivial
  | ok s' =>
    have hnext := hf s'
    change s.KeepsBase (f s')
    cases hfs : f s' with
    | error e => trivial
    | ok s'' =>
      rw [hfs] at hnext
      exact Eq.trans hnext hr

theorem mapError {r : Except ε Staged} (f : ε → ε') (h : s.KeepsBase r) :
    s.KeepsBase (r.mapError f) := by
  cases r with
  | ok s' => exact h
  | error e => trivial

/-- A test that leaves the staged bindings as they are. -/
theorem guard (r : Except ε Unit) : s.KeepsBase (r.map fun _ => s) := by
  cases r with
  | ok u => exact rfl
  | error e => trivial

end Staged.KeepsBase

theorem Staged.keepsBase_bind (s : Staged) (name : String) (n : Size) :
    s.KeepsBase (s.bind name n) := by
  unfold Staged.bind
  split
  · split
    · exact rfl
    · trivial
  · exact rfl

/-- After a commit a label has the size it had, or else the first one staged
    for it. -/
theorem Bindings.get?_commit (b : Bindings) (fresh : List Reading) (label : String) :
    (b.commit fresh).get? label = (b.get? label).or (fresh.lookup label) := by
  unfold Bindings.commit
  induction fresh generalizing b with
  | nil => simp
  | cons e rest ih =>
    obtain ⟨name, n⟩ := e
    rw [List.foldl_cons, ih, Table.lookup_cons_eq_ite]
    by_cases hbound : (b.get? name).isSome
    · rw [if_pos hbound]
      obtain ⟨bound, hget⟩ := Option.isSome_iff_exists.mp hbound
      by_cases h : label = name
      · subst h
        simp [hget]
      · rw [if_neg h]
    · rw [if_neg hbound, Table.get?_put]
      by_cases h : label = name
      · subst h
        simp [Option.not_isSome_iff_eq_none.mp hbound]
      · rw [if_neg h, if_neg h]

/-- Committing what was staged makes known what the staged bindings knew. -/
theorem Staged.get?_commit (s : Staged) (label : String) :
    (s.base.commit s.fresh).get? label = s.get? label :=
  Bindings.get?_commit s.base s.fresh label

end ShapeContracts
