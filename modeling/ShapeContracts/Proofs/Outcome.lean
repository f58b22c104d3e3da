/-
  ShapeContracts/Proofs/Outcome.lean
  ==================================
  **Outcomes put together.**

  How successes and errors pass through steps taken one after another or along
  a list, and through a change of the error.

  Two outcomes side by side correspond when both are successes or both are
  errors and what they hold is related (`Corresponds`).  Steps that correspond
  one by one correspond as a whole.
-/
import Mathlib.Data.List.Forall2

namespace ShapeContracts

variable {ε ε' α β : Type} {r : Except ε α}

theorem bind_eq_ok_iff {f : α → Except ε β} {b : β} :
    r.bind f = .ok b ↔ ∃ a, r = .ok a ∧ f a = .ok b := by
  cases r <;> simp [Except.bind]

theorem map_eq_ok_iff {f : α → β} {b : β} : r.map f = .ok b ↔ ∃ a, r = .ok a ∧ f a = b := by
  cases r <;> simp [Except.map]

theorem map_eq_error_iff {f : α → β} {e : ε} : r.map f = .error e ↔ r = .error e := by
  cases r <;> simp [Except.map]

theorem mapError_eq_ok_iff {f : ε → ε'} {a : α} : r.mapError f = .ok a ↔ r = .ok a := by
  cases r with
  | error e =>
    constructor
    · intro h
      cases h
    · intro h
      cases h
  | ok a' =>
    constructor
    · intro h
      cases h
      rfl
    · intro h
      cases h
      rfl

theorem mapError_eq_error_iff {f : ε → ε'} {e' : ε'} :
    r.mapError f = .error e' ↔ ∃ e, r = .error e ∧ f e = e' := by
  cases r with
  | error e => simp [Except.mapError]
  | ok a => simp [Except.mapError]

theorem mapError_bind (g : ε → ε') (r : Except ε α) (f : α → Except ε β) :
    (r.bind f).mapError g = (r.mapError g).bind fun a => (f a).mapError g := by
  cases r <;> rfl

/-- A traversal succeeds when it succeeds member by member. -/
theorem mapM_eq_ok_iff {f : α → Except ε β} {xs : List α} {ys : List β} :
    xs.mapM f = .ok ys ↔ List.Forall₂ (fun x y => f x = .ok y) xs ys := by
  induction xs generalizing ys with
  | nil =>
    rw [List.mapM_nil, List.forall₂_nil_left_iff]
    exact ⟨fun h => (Except.ok.inj h).symm, fun h => congrArg Except.ok h.symm⟩
  | cons x xs ih =>
    rw [List.mapM_cons]
    constructor
    · intro h
      obtain ⟨y, hy, hrest⟩ := bind_eq_ok_iff.mp h
      obtain ⟨rest, hxs, hys⟩ := bind_eq_ok_iff.mp hrest
      cases hys
      exact .cons hy (ih.mp hxs)
    · intro h
      cases h with
      | cons hy hrest => exact bind_eq_ok_iff.mpr ⟨_, hy, bind_eq_ok_iff.mpr ⟨_, ih.mpr hrest, rfl⟩⟩

/-- So does the traversal of a member that may be missing. -/
theorem optionMapM_eq_ok_iff {f : α → Except ε β} {x : Option α} {y : Option β} :
    x.mapM f = .ok y ↔ Option.Rel (fun x y => f x = .ok y) x y := by
  cases x with
  | none =>
    constructor
    · intro h
      cases h
      exact .none
    · intro h
      cases h
      rfl
  | some x =>
    constructor
    · intro h
      obtain ⟨y, hy, rfl⟩ := map_eq_ok_iff.mp h
      exact .some hy
    · intro h
      cases h with
      | some hy => exact map_eq_ok_iff.mpr ⟨_, hy, rfl⟩

/-- What a traversal answers is what it answers for its members. -/
theorem exists_of_mem_mapM {f : α → Except ε β} {xs : List α} {ys : List β} {y : β}
    (h : xs.mapM f = .ok ys) (hy : y ∈ ys) : ∃ x ∈ xs, f x = .ok y := by
  have hall := mapM_eq_ok_iff.mp h
  clear h
  induction hall with
  | nil => cases hy
  | @cons x z xs ys hz _ ih =>
    rcases List.mem_cons.mp hy with rfl | hy
    · exact ⟨x, List.mem_cons_self .., hz⟩
    · obtain ⟨w, hw, hwy⟩ := ih hy
      exact ⟨w, List.mem_cons_of_mem x hw, hwy⟩

/-- A traversal that gives no reason when it fails succeeds member by member, too. -/
theorem mapM_eq_some_iff {f : α → Option β} {xs : List α} {ys : List β} :
    xs.mapM f = some ys ↔ xs.map f = ys.map some := by
  induction xs generalizing ys with
  | nil => cases ys <;> simp
  | cons x xs ih =>
    rw [List.mapM_cons, List.map_cons]
    cases ys with
    | nil => simp [Option.bind_eq_some_iff]
    | cons y ys => simp [Option.bind_eq_some_iff, ← ih]

/-- Along another list the same steps are taken, up to what they answer. -/
theorem mapM_map_eq_map_mapM {γ δ : Type} {f : α → Except ε β} {f' : γ → Except ε δ}
    {g : α → γ} {k : β → δ} (h : ∀ x, f' (g x) = (f x).map k) (xs : List α) :
    (xs.map g).mapM f' = (xs.mapM f).map (List.map k) := by
  induction xs with
  | nil => rfl
  | cons x xs ih =>
    rw [List.map_cons, List.mapM_cons, List.mapM_cons, h, ih]
    cases f x with
    | error e => rfl
    | ok y => cases xs.mapM f <;> rfl

/-! ### Two outcomes side by side -/

/-- Two outcomes are both successes or both errors, and are related. -/
inductive Corresponds {α' : Type} (R : ε → ε' → Prop) (S : α → α' → Prop) :
    Except ε α → Except ε' α' → Prop
  | ok {a : α} {a' : α'} : S a a' → Corresponds R S (.ok a) (.ok a')
  | error {e : ε} {e' : ε'} : R e e' → Corresponds R S (.error e) (.error e')

namespace Corresponds

variable {α' β' δ δ' : Type} {R : ε → ε' → Prop} {S : α → α' → Prop} {T : β → β' → Prop}
  {r : Except ε α} {r' : Except ε' α'}

theorem bind {f : α → Except ε β} {f' : α' → Except ε' β'} (h : Corresponds R S r r')
    (hf : ∀ a a', S a a' → Corresponds R T (f a) (f' a')) :
    Corresponds R T (r.bind f) (r'.bind f') := by
  cases h with
  | ok ha => exact hf _ _ ha
  | error he => exact .error he

theorem mapError {R' : δ → δ' → Prop} {g : ε → δ} {g' : ε' → δ'} (h : Corresponds R S r r')
    (hg : ∀ e e', R e e' → R' (g e) (g' e')) :
    Corresponds R' S (r.mapError g) (r'.mapError g') := by
  cases h with
  | ok ha => exact .ok ha
  | error he => exact .error (hg _ _ he)

/-- Steps that correspond, taken along two lists, keep what is related related. -/
theorem foldlM {f : α → β → Except ε α} {f' : α' → β' → Except ε' α'} {g : β → β'}
    {xs : List β} (hf : ∀ a a', ∀ x ∈ xs, S a a' → Corresponds R S (f a x) (f' a' (g x)))
    {a : α} {a' : α'} (ha : S a a') :
    Corresponds R S (xs.foldlM f a) ((xs.map g).foldlM f' a') := by
  induction xs generalizing a a' with
  | nil => exact .ok ha
  | cons x xs ih =>
    rw [List.map_cons, List.foldlM_cons, List.foldlM_cons]
    refine bind (hf a a' x (List.mem_cons_self ..) ha) fun b b' hb => ?_
    exact ih (fun a a' y hy => hf a a' y (List.mem_cons_of_mem x hy)) hb

end Corresponds

end ShapeContracts
