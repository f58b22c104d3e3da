/-
  ShapeContracts/Proofs/Staging.lean
  ==================================
  **Staged bindings against direct ones.**

  Readings can be bound aside and committed, or bound directly.  The first keeps
  a list beside a table that it never writes to, the second writes the table.
  Bound one after another, failures included, the readings cannot tell which of
  the two they meet: staged bindings always look labels up as a copy of their
  base does on which the same readings were bound (`Staged.Mirrors`).  One reading
  keeps them so (`Staged.Mirrors.bind`), and therefore any number of them does.

  A commit passes over labels that are bound already, so it could lose a reading
  without a sign of it.  It does not, because what is staged is apart from the
  base (`Bindings.Apart`): every slot is vacant when its turn comes
  (`Bindings.Apart.vacant`), and the table afterwards has just the entries of
  the base and those staged (`Bindings.Apart.entries_commit_perm`).
-/
import ShapeContracts.Proofs.Matching
import ShapeContracts.Proofs.Outcome

namespace ShapeContracts

/-! ### Readings bound one after another -/

section Simulation

variable {σ τ : Type}

/-- Bind readings in order, whether they fail or not.  The answer holds the
    outcome of each and the state that is left; a failure leaves the state it
    was met in. -/
def bindAll (bind : σ → String → Size → Except Conflict σ) (s : σ) :
    List Reading → List (Except Conflict Unit) × σ
  | [] => ([], s)
  | (name, n) :: rest =>
    match bind s name n with
    | .ok next =>
      let others := bindAll bind next rest
      (.ok () :: others.1, others.2)
    | .error c =>
      let others := bindAll bind s rest
      (.error c :: others.1, others.2)

/-- Where one reading meets with the same outcome in related states, and leaves
    related ones, so do all that come after it. -/
theorem bindAll_corresponds {bind : σ → String → Size → Except Conflict σ}
    {bind' : τ → String → Size → Except Conflict τ} {R : σ → τ → Prop}
    (hbind : ∀ s t name n, R s t → Corresponds Eq R (bind s name n) (bind' t name n))
    {s : σ} {t : τ} (h : R s t) (readings : List Reading) :
    (bindAll bind s readings).1 = (bindAll bind' t readings).1 ∧
      R (bindAll bind s readings).2 (bindAll bind' t readings).2 := by
  induction readings generalizing s t with
  | nil => exact ⟨rfl, h⟩
  | cons reading rest ih =>
    obtain ⟨name, n⟩ := reading
    have hfirst := hbind s t name n h
    simp only [bindAll]
    generalize bind s name n = outcome at hfirst
    generalize bind' t name n = outcome' at hfirst
    cases hfirst with
    | ok hnext =>
      obtain ⟨houtcomes, hlast⟩ := ih hnext
      exact ⟨congrArg (.ok () :: ·) houtcomes, hlast⟩
    | @error c _ hsame =>
      subst hsame
      obtain ⟨houtcomes, hlast⟩ := ih h
      exact ⟨congrArg (.error c :: ·) houtcomes, hlast⟩

end Simulation

/-! ### Staged apart from the base -/

namespace Bindings

/-- Readings whose labels are pairwise different, none of them bound. -/
structure Apart (b : Bindings) (fresh : List Reading) : Prop where
  distinct : (fresh.map Prod.fst).Nodup
  unbound : ∀ r ∈ fresh, b.get? r.1 = none

namespace Apart

variable {b : Bindings} {fresh : List Reading} {name : String} {n : Size}

theorem nil (b : Bindings) : b.Apart [] where
  distinct := List.nodup_nil
  unbound := by
    intro r hr
    cases hr

/-- A reading of a label that is neither bound nor staged may be added. -/
theorem append (h : b.Apart fresh) (hbase : b.get? name = none)
    (hfresh : fresh.lookup name = none) : b.Apart (fresh ++ [(name, n)]) where
  distinct := by
    have hnew : name ∉ fresh.map Prod.fst := by
      intro hmem
      obtain ⟨r, hr, rfl⟩ := List.mem_map.mp hmem
      have hne := List.lookup_eq_none_iff.mp hfresh r hr
      simp at hne
    rw [List.map_append, List.map_singleton, List.nodup_append]
    refine ⟨h.distinct, by simp, ?_⟩
    intro label hlabel other hother heq
    rw [heq, List.mem_singleton.mp hother] at hlabel
    exact hnew hlabel
  unbound := by
    intro r hr
    rcases List.mem_append.mp hr with hr | hr
    · exact h.unbound r hr
    · cases List.mem_singleton.mp hr
      exact hbase

/-- After the first reading is put, the others are still apart. -/
theorem tail (h : b.Apart ((name, n) :: fresh)) : Apart (b.put name n) fresh where
  distinct := (List.nodup_cons.mp h.distinct).2
  unbound := by
    intro r hr
    have hne : r.1 ≠ name := by
      intro heq
      have hlabel : r.1 ∈ fresh.map Prod.fst := List.mem_map_of_mem hr
      rw [heq] at hlabel
      exact (List.nodup_cons.mp h.distinct).1 hlabel
    rw [Table.get?_put, if_neg hne]
    exact h.unbound r (List.mem_cons_of_mem _ hr)

theorem commit_cons (h : b.Apart ((name, n) :: fresh)) :
    b.commit ((name, n) :: fresh) = commit (b.put name n) fresh := by
  have hname : b.get? name = none := h.unbound (name, n) (List.mem_cons_self ..)
  simp only [commit, List.foldl_cons, hname, Option.isSome_none, Bool.false_eq_true, if_false]

/-- The slot of a reading is vacant when a commit comes to it. -/
theorem vacant {front back : List Reading} {r : Reading} (h : b.Apart (front ++ r :: back)) :
    (b.commit front).get? r.1 = none := by
  induction front generalizing b with
  | nil => exact h.unbound r (List.mem_cons_self ..)
  | cons first front ih =>
    obtain ⟨name, n⟩ := first
    have hfront : b.Apart ((name, n) :: front) := by
      refine ⟨?_, fun r hr => h.unbound r (List.mem_append_left _ hr)⟩
      have hdistinct := h.distinct
      rw [List.map_append] at hdistinct
      exact (List.nodup_append.mp hdistinct).1
    rw [hfront.commit_cons]
    exact ih h.tail

/-- A commit adds every reading and changes nothing else. -/
theorem entries_commit_perm (h : b.Apart fresh) :
    (b.commit fresh).entries.Perm (b.entries ++ fresh) := by
  induction fresh generalizing b with
  | nil =>
    rw [List.append_nil]
    exact .refl _
  | cons r fresh ih =>
    obtain ⟨name, n⟩ := r
    have hput : (b.put name n).entries.Perm ((name, n) :: b.entries) :=
      putEntry_perm (h.unbound (name, n) (List.mem_cons_self ..))
    rw [h.commit_cons]
    have htail : (commit (b.put name n) fresh).entries.Perm
        ((name, n) :: (b.entries ++ fresh)) := (ih h.tail).trans (hput.append_right fresh)
    exact htail.trans List.perm_middle.symm

end Apart

end Bindings

/-! ### The two ways side by side -/

/-- Staged bindings mirror a copy of their base: they look every label up alike,
    with the base untouched and what is staged apart from it. -/
structure Staged.Mirrors (base : Bindings) (s : Staged) (copy : Bindings) : Prop where
  base_eq : s.base = base
  apart : base.Apart s.fresh
  get?_eq : ∀ name, s.get? name = copy.get? name

namespace Staged.Mirrors

variable {base copy : Bindings} {s : Staged}

theorem stage (b : Bindings) : Mirrors b b.stage b where
  base_eq := rfl
  apart := .nil b
  get?_eq := by
    intro name
    exact Option.or_none

/-- A label that neither has may be staged here and put there. -/
theorem put {name : String} {n : Size} (h : Mirrors base s copy) (hnone : s.get? name = none) :
    Mirrors base { s with fresh := s.fresh ++ [(name, n)] } (copy.put name n) where
  base_eq := h.base_eq
  apart := by
    obtain ⟨hbase, hfresh⟩ := Option.or_eq_none_iff.mp hnone
    rw [h.base_eq] at hbase
    exact h.apart.append hbase hfresh
  get?_eq := by
    intro label
    rw [Staged.get?_append, Table.get?_put, h.get?_eq]
    by_cases hlabel : label = name
    · rw [hlabel, ← h.get?_eq, hnone, if_pos rfl]
      rfl
    · rw [if_neg hlabel, if_neg hlabel, Option.or_none]

/-- To commit what was staged is to have bound the copy. -/
theorem commit_eq (h : Mirrors base s copy) : base.commit s.fresh = copy := by
  refine Table.eq_of_get?_eq fun name => ?_
  rw [← h.base_eq, s.get?_commit, h.get?_eq]

/-- A reading that is staged here meets with the same outcome there. -/
theorem bind (h : Mirrors base s copy) (name : String) (n : Size) :
    Corresponds Eq (Mirrors base) (s.bind name n) (Bindings.bind copy name n) := by
  rw [Staged.bind, Bindings.bind, ← h.get?_eq]
  cases hname : s.get? name with
  | none => exact .ok (h.put hname)
  | some bound =>
    dsimp only
    split
    · exact .ok h
    · exact .error rfl

theorem after_bindAll (h : Mirrors base s copy) (readings : List Reading) :
    (bindAll Staged.bind s readings).1 = (bindAll Bindings.bind copy readings).1 ∧
      Mirrors base (bindAll Staged.bind s readings).2
        (bindAll Bindings.bind copy readings).2 :=
  bindAll_corresponds (fun _ _ name n h => h.bind name n) h readings

end Staged.Mirrors

/-- **Staging and committing is binding directly.**  Bound one after another,
    readings meet with the same outcomes aside as on a copy of the base, one by
    one.  After any number of them what is staged is apart from the base.  The
    commit finds every slot vacant, adds all that is staged, and so leaves what
    has become of the copy. -/
theorem Bindings.staging_mirrors_binding (b : Bindings) (readings : List Reading) :
    let staged := bindAll Staged.bind b.stage readings
    let direct := bindAll Bindings.bind b readings
    staged.1 = direct.1 ∧
      (∀ k, b.Apart (bindAll Staged.bind b.stage (readings.take k)).2.fresh) ∧
      staged.2.base = b ∧
      b.commit staged.2.fresh = direct.2 ∧
      (∀ front r back, staged.2.fresh = front ++ r :: back →
        (b.commit front).get? r.1 = none) ∧
      direct.2.entries.Perm (b.entries ++ staged.2.fresh) := by
  intro staged direct
  obtain ⟨houtcomes, hmirrors⟩ := (Staged.Mirrors.stage b).after_bindAll readings
  refine ⟨houtcomes, ?_, hmirrors.base_eq, hmirrors.commit_eq, ?_, ?_⟩
  · intro k
    exact ((Staged.Mirrors.stage b).after_bindAll (readings.take k)).2.apart
  · intro front r back hsplit
    have hapart : b.Apart (front ++ r :: back) := hsplit ▸ hmirrors.apart
    exact hapart.vacant
  · rw [← hmirrors.commit_eq]
    exact hmirrors.apart.entries_commit_perm

/-- A label of the base and one that is staged meet a second size, and what comes
    after them is bound. -/
example :
    let b : Bindings := .ofList [("n", 4)]
    let readings : List Reading := [("n", 9), ("k", 2), ("k", 3), ("a", 7)]
    let staged := bindAll Staged.bind b.stage readings
    staged.1.map Except.isOk = [false, true, false, true] ∧
      (b.commit staged.2.fresh).entries = [("a", 7), ("k", 2), ("n", 4)] := by
  decide

end ShapeContracts
