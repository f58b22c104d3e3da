/-
  ShapeContracts/Table.lean
  =========================
  **Tables ordered by name.**

  A table gives each of finitely many names one entry.  The entries are kept
  in the order of their names (by code points), so a table has one form and
  two tables that answer every `get?` alike are equal; listing a table lists
  it in name order.
-/

namespace ShapeContracts

/-! ### Entries in name order -/

/-- Put an entry where its name belongs, in place of one of the same name. -/
def putEntry {α : Type} (name : String) (a : α) : List (String × α) → List (String × α)
  | [] => [(name, a)]
  | (k, b) :: rest =>
    if name < k then (name, a) :: (k, b) :: rest
    else if name = k then (name, a) :: rest
    else (k, b) :: putEntry name a rest

theorem fst_mem_of_mem_putEntry {α : Type} {name : String} {a : α} {p : String × α}
    {entries : List (String × α)} (h : p ∈ putEntry name a entries) :
    p.1 = name ∨ p ∈ entries := by
  induction entries with
  | nil => simp [putEntry] at h; exact .inl (by simp [h])
  | cons q rest ih =>
    obtain ⟨k, b⟩ := q
    simp only [putEntry] at h
    split at h
    · rcases List.mem_cons.mp h with rfl | h
      · exact .inl rfl
      · exact .inr h
    · split at h
      · rcases List.mem_cons.mp h with rfl | h
        · exact .inl rfl
        · exact .inr (List.mem_cons_of_mem _ h)
      · rcases List.mem_cons.mp h with rfl | h
        · exact .inr (List.mem_cons_self ..)
        · exact (ih h).imp id (List.mem_cons_of_mem _)

/-- Putting an entry keeps the names in strict order. -/
theorem pairwise_putEntry {α : Type} (name : String) (a : α) {entries : List (String × α)}
    (h : entries.Pairwise fun p q => p.1 < q.1) :
    (putEntry name a entries).Pairwise fun p q => p.1 < q.1 := by
  induction entries with
  | nil => simp [putEntry]
  | cons q rest ih =>
    obtain ⟨k, b⟩ := q
    obtain ⟨hk, hrest⟩ := List.pairwise_cons.mp h
    simp only [putEntry]
    split
    next hlt =>
      refine List.pairwise_cons.mpr ⟨fun p hp => ?_, h⟩
      rcases List.mem_cons.mp hp with rfl | hp
      · exact hlt
      · exact String.lt_trans hlt (hk p hp)
    next hnlt =>
      split
      next heq => exact List.pairwise_cons.mpr ⟨fun p hp => heq ▸ hk p hp, hrest⟩
      next hne =>
        refine List.pairwise_cons.mpr ⟨fun p hp => ?_, ih hrest⟩
        rcases fst_mem_of_mem_putEntry hp with hp | hp
        · have hle : k ≤ name := String.not_lt.mp hnlt
          rw [hp]
          exact Decidable.byContradiction fun hn =>
            hne (String.le_antisymm (String.not_lt.mp hn) hle)
        · exact hk p hp

/-- A name without an entry gets one, and the others stay. -/
theorem putEntry_perm {α : Type} {name : String} {a : α} {entries : List (String × α)}
    (h : entries.lookup name = none) : (putEntry name a entries).Perm ((name, a) :: entries) := by
  induction entries with
  | nil => exact .refl _
  | cons q rest ih =>
    obtain ⟨k, b⟩ := q
    have hnone : ∀ p ∈ (k, b) :: rest, (name == p.1) = false := by
      simpa using List.lookup_eq_none_iff.mp h
    have hne : name ≠ k := by
      simpa using hnone (k, b) (List.mem_cons_self ..)
    simp only [putEntry, if_neg hne]
    split
    · exact .refl _
    · have hrest : rest.lookup name = none := by
        refine List.lookup_eq_none_iff.mpr fun p hp => ?_
        simpa using hnone p (List.mem_cons_of_mem _ hp)
      exact ((ih hrest).cons (k, b)).trans (List.Perm.swap ..)

/-! ### Tables -/

/-- Entries under pairwise different names, in name order. -/
structure Table (α : Type) where
  entries : List (String × α)
  ordered : entries.Pairwise fun p q => p.1 < q.1

namespace Table

variable {α : Type}

def empty : Table α := ⟨[], .nil⟩

/-- Give a name an entry, in place of the one it has. -/
def put (t : Table α) (name : String) (a : α) : Table α :=
  ⟨putEntry name a t.entries, pairwise_putEntry name a t.ordered⟩

def get? (t : Table α) (name : String) : Option α := t.entries.lookup name

/-- The table with the given entries; of two under one name the later stays. -/
def ofList (entries : List (String × α)) : Table α :=
  entries.foldl (fun t e => t.put e.1 e.2) empty

def names (t : Table α) : List String := t.entries.map Prod.fst

def size (t : Table α) : Nat := t.entries.length

theorem eq_of_entries_eq {s t : Table α} (h : s.entries = t.entries) : s = t := by
  cases s; cases t; cases h; rfl

instance [DecidableEq α] : DecidableEq (Table α) := fun s t =>
  if h : s.entries = t.entries then .isTrue (eq_of_entries_eq h)
  else .isFalse fun hst => h (congrArg entries hst)

theorem get?_empty (name : String) : (empty : Table α).get? name = none := rfl

theorem lookup_cons_eq_ite (name other : String) (a : α) (entries : List (String × α)) :
    ((name, a) :: entries).lookup other =
      if other = name then some a else entries.lookup other := by
  rw [List.lookup_cons]
  by_cases h : other = name
  · rw [beq_iff_eq.mpr h, if_pos h]
  · rw [beq_eq_false_iff_ne.mpr h, if_neg h]

theorem lookup_putEntry (name other : String) (a : α) (entries : List (String × α)) :
    (putEntry name a entries).lookup other =
      if other = name then some a else entries.lookup other := by
  induction entries with
  | nil => exact lookup_cons_eq_ite name other a []
  | cons q rest ih =>
    obtain ⟨k, b⟩ := q
    simp only [putEntry]
    split
    · exact lookup_cons_eq_ite name other a _
    · split
      next heq =>
        subst heq
        rw [lookup_cons_eq_ite, lookup_cons_eq_ite]
        split <;> rfl
      next hne =>
        rw [lookup_cons_eq_ite, lookup_cons_eq_ite, ih]
        by_cases h : other = name
        · rw [if_pos h, if_pos h, if_neg fun hk => hne (h.symm.trans hk)]
        · rw [if_neg h, if_neg h]

/-- A name put has its new entry, and every other name the one it had. -/
theorem get?_put (t : Table α) (name other : String) (a : α) :
    (t.put name a).get? other = if other = name then some a else t.get? other :=
  lookup_putEntry name other a t.entries

/-! ### A table is what it answers -/

/-- Names in strict order are pairwise different, so an entry that is present
    is the one found. -/
theorem lookup_eq_some_iff_mem {entries : List (String × α)}
    (h : entries.Pairwise fun p q => p.1 < q.1) (name : String) (a : α) :
    entries.lookup name = some a ↔ (name, a) ∈ entries := by
  constructor
  · intro hfound
    obtain ⟨before, after, rfl, _⟩ := List.lookup_eq_some_iff.mp hfound
    exact List.mem_append_right _ (List.mem_cons_self ..)
  · intro hmem
    obtain ⟨before, after, rfl⟩ := List.append_of_mem hmem
    refine List.lookup_eq_some_iff.mpr ⟨before, after, rfl, fun p hp => ?_⟩
    have hlt : p.1 < name := (List.pairwise_append.mp h).2.2 p hp _ (List.mem_cons_self ..)
    exact bne_iff_ne.mpr fun heq => String.lt_irrefl name (heq ▸ hlt)

theorem get?_eq_some_iff_mem (t : Table α) (name : String) (a : α) :
    t.get? name = some a ↔ (name, a) ∈ t.entries :=
  lookup_eq_some_iff_mem t.ordered name a

/-- Tables that answer every name alike are equal. -/
theorem eq_of_get?_eq {s t : Table α} (h : ∀ name, s.get? name = t.get? name) : s = t := by
  have hnodup : ∀ u : Table α, u.entries.Nodup := by
    intro u
    refine List.Pairwise.imp (fun {p q} hlt heq => ?_) u.ordered
    exact String.lt_irrefl q.1 (heq ▸ hlt)
  have hperm : s.entries.Perm t.entries := by
    refine (List.perm_ext_iff_of_nodup (hnodup s) (hnodup t)).mpr fun p => ?_
    rw [← get?_eq_some_iff_mem, ← get?_eq_some_iff_mem, h]
  refine eq_of_entries_eq (hperm.eq_of_pairwise (fun p q _ _ hpq hqp => ?_) s.ordered t.ordered)
  exact absurd (String.lt_trans hpq hqp) (String.lt_irrefl _)

/-! ### Tables of ordered lists -/

theorem putEntry_of_forall_lt {name : String} {a : α} {entries : List (String × α)}
    (h : ∀ p ∈ entries, p.1 < name) : putEntry name a entries = entries ++ [(name, a)] := by
  induction entries with
  | nil => rfl
  | cons q rest ih =>
    obtain ⟨k, b⟩ := q
    have hlt : k < name := h _ (List.mem_cons_self ..)
    have hne : name ≠ k := fun heq => String.lt_irrefl k (heq ▸ hlt)
    simp only [putEntry]
    rw [if_neg (String.lt_asymm hlt), if_neg hne, ih fun p hp => h p (List.mem_cons_of_mem _ hp)]
    rfl

/-- Entries in the order of their names are the entries of a table. -/
theorem entries_ofList {entries : List (String × α)}
    (h : entries.Pairwise fun p q => p.1 < q.1) : (ofList entries).entries = entries := by
  have hput : ∀ (t : Table α), (t.entries ++ entries).Pairwise (fun p q => p.1 < q.1) →
      (entries.foldl (fun t e => t.put e.1 e.2) t).entries = t.entries ++ entries := by
    clear h
    induction entries with
    | nil =>
      intro t _
      exact (List.append_nil _).symm
    | cons e rest ih =>
      intro t ht
      have hlast : (t.put e.1 e.2).entries = t.entries ++ [e] :=
        putEntry_of_forall_lt fun p hp =>
          (List.pairwise_append.mp ht).2.2 p hp e (List.mem_cons_self ..)
      have hsplit : (t.put e.1 e.2).entries ++ rest = t.entries ++ e :: rest := by
        rw [hlast, List.append_assoc]
        rfl
      rw [List.foldl_cons, ih (t.put e.1 e.2) (by rwa [hsplit]), hsplit]
  exact hput empty h

end Table

end ShapeContracts
