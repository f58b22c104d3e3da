/-
  ShapeContracts/Proofs/Blame.lean
  ================================
  **What an error blames.**

  Where things are looked at one after another, and the first fault ends it, an
  error says two things: that there is a fault at some thing, and that there is
  none at any of the things before it.  `FirstFault` says both, of a list of
  things and of a relation that tells what is a fault of a single one.

  `Blames` says it of an outcome: an error is the first fault, and a success
  means that there is none at all.  Outcomes are put together one after another
  (`Blames.bind`) and along a list (`Blames.mapM`), and the list of things looked
  at grows in the same order.
-/

namespace ShapeContracts

variable {ι ε α β : Type} {fault : ι → ε → Prop} {items more : List ι} {e : ε}

/-- None of the things has a fault. -/
def Faultless (fault : ι → ε → Prop) (items : List ι) : Prop :=
  ∀ i ∈ items, ∀ e, ¬ fault i e

/-- A fault of the first of the things that has one. -/
def FirstFault (fault : ι → ε → Prop) (items : List ι) (e : ε) : Prop :=
  ∃ before i after, items = before ++ i :: after ∧ Faultless fault before ∧ fault i e

theorem faultless_nil : Faultless fault [] := by
  intro i hi
  cases hi

theorem faultless_append : Faultless fault (items ++ more) ↔
    Faultless fault items ∧ Faultless fault more := by
  simp only [Faultless, List.mem_append, or_imp, forall_and]

theorem faultless_singleton {i : ι} : Faultless fault [i] ↔ ∀ e, ¬ fault i e := by
  simp [Faultless]

namespace FirstFault

theorem head {i : ι} (h : fault i e) : FirstFault fault (i :: items) e :=
  ⟨[], i, items, rfl, faultless_nil, h⟩

/-- What comes later does not matter. -/
theorem append (h : FirstFault fault items e) (more : List ι) :
    FirstFault fault (items ++ more) e := by
  obtain ⟨before, i, after, rfl, hbefore, hi⟩ := h
  exact ⟨before, i, after ++ more, by simp, hbefore, hi⟩

/-- Things without a fault do not matter. -/
theorem prepend (h : FirstFault fault more e) (hitems : Faultless fault items) :
    FirstFault fault (items ++ more) e := by
  obtain ⟨before, i, after, rfl, hbefore, hi⟩ := h
  exact ⟨items ++ before, i, after, by simp, faultless_append.mpr ⟨hitems, hbefore⟩, hi⟩

theorem not_faultless (h : FirstFault fault items e) : ¬ Faultless fault items := by
  obtain ⟨before, i, after, rfl, -, hi⟩ := h
  intro hnone
  exact hnone i (by simp) e hi

theorem cons_iff {i : ι} : FirstFault fault (i :: items) e ↔
    fault i e ∨ (∀ e, ¬ fault i e) ∧ FirstFault fault items e := by
  constructor
  · rintro ⟨before, j, after, hitems, hbefore, hj⟩
    cases before with
    | nil =>
      cases hitems
      exact .inl hj
    | cons k before =>
      cases hitems
      refine .inr ⟨hbefore i (List.mem_cons_self ..), before, j, after, rfl, ?_, hj⟩
      exact fun k hk => hbefore k (List.mem_cons_of_mem i hk)
  · rintro (hi | ⟨hi, hrest⟩)
    · exact head hi
    · exact prepend hrest (faultless_singleton.mpr hi)

/-- Where a thing has one fault at most, there is one first fault at most. -/
theorem unique {e₁ e₂ : ε} (hfault : ∀ i e₁ e₂, fault i e₁ → fault i e₂ → e₁ = e₂)
    (h₁ : FirstFault fault items e₁) (h₂ : FirstFault fault items e₂) : e₁ = e₂ := by
  induction items with
  | nil => exact absurd faultless_nil h₁.not_faultless
  | cons i items ih =>
    rcases cons_iff.mp h₁ with hi₁ | ⟨hnone₁, hrest₁⟩
    · rcases cons_iff.mp h₂ with hi₂ | ⟨hnone₂, -⟩
      · exact hfault i e₁ e₂ hi₁ hi₂
      · exact absurd hi₁ (hnone₂ e₁)
    · rcases cons_iff.mp h₂ with hi₂ | ⟨-, hrest₂⟩
      · exact absurd hi₂ (hnone₁ e₂)
      · exact ih hrest₁ hrest₂

end FirstFault

/-- A thing whose faults are the errors of an outcome has one at most. -/
theorem fault_unique {i : ι} {r : Except ε α} (h : ∀ e, fault i e ↔ r = .error e) {e₁ e₂ : ε}
    (h₁ : fault i e₁) (h₂ : fault i e₂) : e₁ = e₂ :=
  Except.error.inj (((h e₁).mp h₁).symm.trans ((h e₂).mp h₂))

/-- An outcome blames the first fault when it is an error, and means that there
    is no fault when it is a success. -/
def Blames (fault : ι → ε → Prop) (items : List ι) : Except ε α → Prop
  | .ok _ => Faultless fault items
  | .error e => FirstFault fault items e

namespace Blames

theorem exists_ok_iff {r : Except ε α} (h : Blames fault items r) :
    (∃ a, r = .ok a) ↔ Faultless fault items := by
  cases r with
  | ok a => exact ⟨fun _ => h, fun _ => ⟨a, rfl⟩⟩
  | error e =>
    constructor
    · rintro ⟨a, ha⟩
      cases ha
    · intro hnone
      exact absurd hnone (FirstFault.not_faultless h)

/-- Where a thing has one fault at most, the first fault is the error. -/
theorem eq_error_iff {r : Except ε α} (h : Blames fault items r)
    (hfault : ∀ i e₁ e₂, fault i e₁ → fault i e₂ → e₁ = e₂) :
    r = .error e ↔ FirstFault fault items e := by
  cases r with
  | ok a =>
    constructor
    · intro he
      cases he
    · intro hfirst
      exact absurd h hfirst.not_faultless
  | error e' =>
    constructor
    · intro he
      cases he
      exact h
    · intro hfirst
      rw [FirstFault.unique hfault h hfirst]

/-- A single thing whose faults are the errors of an outcome. -/
theorem singleton {r : Except ε α} {i : ι} (h : ∀ e, fault i e ↔ r = .error e) :
    Blames fault [i] r := by
  cases r with
  | ok a =>
    refine faultless_singleton.mpr fun e hi => ?_
    cases (h e).mp hi
  | error e => exact FirstFault.head ((h e).mpr rfl)

theorem prepend {r : Except ε α} (h : Blames fault more r) (hitems : Faultless fault items) :
    Blames fault (items ++ more) r := by
  cases r with
  | ok a => exact faultless_append.mpr ⟨hitems, h⟩
  | error e => exact FirstFault.prepend h hitems

theorem cons {i : ι} {r : Except ε α} (h : Blames fault items r) (hi : ∀ e, ¬ fault i e) :
    Blames fault (i :: items) r :=
  prepend h (faultless_singleton.mpr hi)

/-- One after another: the second is only looked at when the first has no
    fault. -/
theorem bind {r : Except ε α} {f : α → Except ε β} (hr : Blames fault items r)
    (hf : ∀ a, r = .ok a → Blames fault more (f a)) :
    Blames fault (items ++ more) (r.bind f) := by
  cases r with
  | error e => exact FirstFault.append hr more
  | ok a => exact prepend (hf a rfl) hr

theorem map {r : Except ε α} (f : α → β) (h : Blames fault items r) :
    Blames fault items (r.map f) := by
  cases r with
  | ok a => exact h
  | error e => exact h

/-- Along a list, what is looked at is what is looked at for each member. -/
theorem mapM {xs : List α} {f : α → Except ε β} {items : α → List ι}
    (h : ∀ x ∈ xs, Blames fault (items x) (f x)) :
    Blames fault (xs.flatMap items) (xs.mapM f) := by
  induction xs with
  | nil => exact faultless_nil
  | cons x xs ih =>
    rw [List.mapM_cons, List.flatMap_cons]
    refine bind (h x (List.mem_cons_self ..)) fun y _ => ?_
    exact map (y :: ·) (ih fun z hz => h z (List.mem_cons_of_mem x hz))

end Blames

end ShapeContracts
