/-
  ShapeContracts/Proofs/InPlace.lean
  ==================================
  **Matching in place.**

  `matchArray` answers with new bindings or with a mismatch, so nothing is left
  of what was bound before a failure.  Here the same checks write while they
  go: a label is staged the moment its axis is met, it stays staged when a
  later axis, an axis name or a detail fails, and the bindings afterwards are
  whatever the program has left behind, also when it fails.

  The two forms answer alike.  A failure in place leaves labels staged, but the
  bindings they were staged on are untouched, and those are what remains
  (`Schema.run_matchInPlace`).
-/
import ShapeContracts.Proofs.Matching

namespace ShapeContracts

/-! ### Programs that write and may fail -/

/-- A program that may fail.  What it wrote before it failed stays written. -/
abbrev InPlace (σ ε α : Type) := ExceptT ε (StateM σ) α

namespace InPlace

variable {σ ε ε' : Type} {p q : InPlace σ ε Unit} {s s' : σ}

/-- The outcome of a program, and the state it leaves. -/
def run (p : InPlace σ ε Unit) (s : σ) : Except ε Unit × σ := StateT.run (ExceptT.run p) s

theorem run_seq_of_ok (h : p.run s = (.ok (), s')) :
    InPlace.run (do p; q) s = q.run s' := by
  unfold run at h ⊢
  rw [ExceptT.run_bind, StateT.run_bind, h]
  rfl

theorem run_seq_of_error {e : ε} (h : p.run s = (.error e, s')) :
    InPlace.run (do p; q) s = (.error e, s') := by
  unfold run at h ⊢
  rw [ExceptT.run_bind, StateT.run_bind, h]
  rfl

theorem run_get (f : σ → InPlace σ ε Unit) (s : σ) :
    InPlace.run (do f (← get)) s = (f s).run s := rfl

theorem run_adapt (f : ε → ε') (p : InPlace σ ε Unit) (s : σ) :
    InPlace.run (p.adapt f) s = ((p.run s).1.mapError f, (p.run s).2) := rfl

theorem run_ofExcept (r : Except ε Unit) (s : σ) :
    InPlace.run (MonadExcept.ofExcept r) s = (r, s) := by
  cases r <;> rfl

/-- The outcome and the state of a program that has done what a function answers:
    the new state after a success, the old one after a failure. -/
def settle (s : σ) : Except ε σ → Except ε Unit × σ
  | .ok s' => (.ok (), s')
  | .error e => (.error e, s)

theorem settle_eq_ok {r : Except ε σ} (h : settle s r = (.ok (), s')) : r = .ok s' := by
  cases r with
  | ok t =>
    cases h
    rfl
  | error e => cases h

theorem settle_eq_error {r : Except ε σ} {e : ε} (h : settle s r = (.error e, s')) :
    r = .error e ∧ s' = s := by
  cases r with
  | ok t => cases h
  | error e' =>
    cases h
    exact ⟨rfl, rfl⟩

theorem settle_mapError (f : ε → ε') (s : σ) (r : Except ε σ) :
    settle s (r.mapError f) = ((settle s r).1.mapError f, (settle s r).2) := by
  cases r <;> rfl

end InPlace

/-! ### The checks in place -/

/-- Bind a label where labels are looked up and put in a given way, or compare
    with the size it stands for. -/
def bindLabel {σ : Type} (get? : σ → String → Option Size) (put : σ → String → Size → σ)
    (name : String) (n : Size) : InPlace σ Conflict Unit := do
  match get? (← get) name with
  | some bound => if bound = n then pure () else throw ⟨name, bound, n⟩
  | none => modify fun s => put s name n

def Staged.bindInPlace : String → Size → InPlace Staged Conflict Unit :=
  bindLabel Staged.get? fun s name n => { s with fresh := s.fresh ++ [(name, n)] }

def Bindings.bindInPlace : String → Size → InPlace Bindings Conflict Unit :=
  bindLabel Table.get? Table.put

namespace Dim

def checkSizeInPlace (axis : Nat) (n : Size) : Dim → InPlace Staged Reason Unit
  | .fixed m => if n = m then pure () else throw (.fixedSize axis m n)
  | .named name declared =>
    match declared.filter (· ≠ n) with
    | some m => throw (.nameConflict name.text axis m n)
    | none =>
      match name with
      | .anonymous => pure ()
      | .label label =>
        (Staged.bindInPlace label n).adapt fun c => .nameConflict c.name axis c.bound c.actual
  | .wildcard => pure ()
  | .ellipsis => pure ()

/-- The label of an axis is staged before the name of the axis is compared. -/
def checkAxisInPlace (checkNames : Bool) (axis : Nat) (a : Axis) (d : Dim) :
    InPlace Staged Reason Unit := do
  d.checkSizeInPlace axis a.size
  if checkNames then MonadExcept.ofExcept (d.checkName axis a.name)

end Dim

def checkAxesInPlace (checkNames : Bool) : List Dim → List Axis → InPlace Staged Reason Unit
  | [], _ => pure ()
  | .ellipsis :: _, _ => pure ()
  | _ :: _, [] => pure ()
  | d :: dims, a :: axes => do
    d.checkAxisInPlace checkNames axes.length a
    checkAxesInPlace checkNames dims axes

def Shape.checkInPlace (shape : Shape) (v : ArrayView) : InPlace Staged Reason Unit :=
  if shape.isOpen then pure ()
  else if !shape.rankRule.allows v.rank then throw (.rank shape.rankRule v.rank)
  else if shape.checkNames && !v.namedAxes then throw .namesUnsupported
  else checkAxesInPlace shape.checkNames shape.dims.reverse v.axes.reverse

namespace Schema

/-- The details come last, when every label has been staged. -/
def checkInPlace (schema : Schema) (v : ArrayView) : InPlace Staged Reason Unit := do
  schema.shape.checkInPlace v
  MonadExcept.ofExcept (checkDetails schema.details v)

/-- Match an array in place: stage on the bindings as they are, and commit what
    was staged if nothing failed.  After a failure the bindings are the ones
    the failed check has left. -/
def matchInPlace (schema : Schema) (v : ArrayView) : InPlace Bindings Mismatch Unit :=
  ExceptT.mk fun b =>
    match (schema.checkInPlace v).run b.stage with
    | (.ok _, s) => (.ok (), s.base.commit s.fresh)
    | (.error reason, s) => (.error ⟨schema.text, v.text, reason⟩, s.base)

end Schema

/-! ### The checks in place answer alike -/

/-- A program performs a function on staged bindings: both succeed with the
    same staged bindings, or both fail for the same reason, and then the program
    leaves the base alone. -/
def Staged.Performs {ε : Type} (s : Staged) (p : InPlace Staged ε Unit) :
    Except ε Staged → Prop
  | .ok s' => p.run s = (.ok (), s')
  | .error e => ∃ s', p.run s = (.error e, s') ∧ s'.base = s.base

namespace Staged.Performs

variable {ε ε' : Type} {s : Staged} {p q : InPlace Staged ε Unit}

theorem error {e : ε} (h : p.run s = (.error e, s)) : s.Performs p (.error e) :=
  ⟨s, h, rfl⟩

/-- One after another: the second starts from what the first has staged, on
    the same base. -/
theorem seq {r : Except ε Staged} {f : Staged → Except ε Staged} (hp : s.Performs p r)
    (hbase : s.KeepsBase r) (hq : ∀ s' : Staged, s'.Performs q (f s')) :
    s.Performs (do p; q) (r.bind f) := by
  cases r with
  | error e =>
    obtain ⟨s', hrun, hs'⟩ := hp
    exact ⟨s', InPlace.run_seq_of_error hrun, hs'⟩
  | ok s' =>
    have hs' : s'.base = s.base := hbase
    have hseq := InPlace.run_seq_of_ok (q := q) hp
    have hnext := hq s'
    change s.Performs _ (f s')
    cases hfs : f s' with
    | ok s'' =>
      rw [hfs] at hnext
      exact hseq.trans hnext
    | error e =>
      rw [hfs] at hnext
      obtain ⟨s'', hrun, hs''⟩ := hnext
      exact ⟨s'', hseq.trans hrun, hs''.trans hs'⟩

theorem adapt {r : Except ε Staged} (f : ε → ε') (h : s.Performs p r) :
    s.Performs (p.adapt f) (r.mapError f) := by
  cases r with
  | ok s' =>
    have hrun : p.run s = (.ok (), s') := h
    change InPlace.run (p.adapt f) s = _
    rw [InPlace.run_adapt, hrun]
    rfl
  | error e =>
    obtain ⟨s', hrun, hs'⟩ := h
    refine ⟨s', ?_, hs'⟩
    rw [InPlace.run_adapt, hrun]
    rfl

theorem guard (s : Staged) (r : Except ε Unit) :
    s.Performs (MonadExcept.ofExcept r) (r.map fun _ => s) := by
  cases r with
  | ok u => exact InPlace.run_ofExcept (.ok ()) s
  | error e => exact .error (InPlace.run_ofExcept (.error e) s)

end Staged.Performs

theorem run_bindLabel {σ : Type} (get? : σ → String → Option Size)
    (put : σ → String → Size → σ) (name : String) (n : Size) (s : σ) :
    (bindLabel get? put name n).run s = InPlace.settle s
      (match get? s name with
        | some bound => if bound = n then .ok s else .error ⟨name, bound, n⟩
        | none => .ok (put s name n)) := by
  unfold bindLabel
  rw [InPlace.run_get]
  cases get? s name with
  | none => rfl
  | some bound => dsimp only; split <;> rfl

theorem Bindings.run_bindInPlace (b : Bindings) (name : String) (n : Size) :
    (Bindings.bindInPlace name n).run b = InPlace.settle b (b.bind name n) :=
  run_bindLabel _ _ name n b

theorem Staged.performs_bindInPlace (s : Staged) (name : String) (n : Size) :
    s.Performs (Staged.bindInPlace name n) (s.bind name n) := by
  have hrun : (Staged.bindInPlace name n).run s = InPlace.settle s (s.bind name n) :=
    run_bindLabel _ _ name n s
  cases hbind : s.bind name n with
  | ok s' =>
    rw [hbind] at hrun
    exact hrun
  | error c =>
    rw [hbind] at hrun
    exact .error hrun

namespace Dim

theorem performs_checkSizeInPlace (axis : Nat) (n : Size) (s : Staged) (d : Dim) :
    s.Performs (d.checkSizeInPlace axis n) (d.checkSize axis n s) := by
  cases d with
  | fixed m =>
    simp only [checkSize, checkSizeInPlace]
    split
    · exact rfl
    · exact .error rfl
  | wildcard => exact rfl
  | ellipsis => exact rfl
  | named name declared =>
    cases hdeclared : declared.filter (· ≠ n) with
    | some m =>
      simp only [checkSize, checkSizeInPlace, hdeclared]
      exact .error rfl
    | none =>
      cases name with
      | anonymous =>
        simp only [checkSize, checkSizeInPlace, hdeclared]
        exact rfl
      | label label =>
        simp only [checkSize, checkSizeInPlace, hdeclared]
        exact (s.performs_bindInPlace label n).adapt _

theorem performs_checkAxisInPlace (checkNames : Bool) (axis : Nat) (a : Axis) (s : Staged)
    (d : Dim) :
    s.Performs (d.checkAxisInPlace checkNames axis a) (d.checkAxis checkNames axis a s) := by
  refine (d.performs_checkSizeInPlace axis a.size s).seq (d.keepsBase_checkSize axis a.size s)
    fun s' => ?_
  cases checkNames with
  | false => exact rfl
  | true => exact .guard s' (d.checkName axis a.name)

end Dim

theorem performs_checkAxesInPlace (checkNames : Bool) (dims : List Dim) (axes : List Axis)
    (s : Staged) :
    s.Performs (checkAxesInPlace checkNames dims axes) (checkAxes checkNames dims axes s) := by
  induction dims generalizing axes s with
  | nil => exact rfl
  | cons d dims ih =>
    cases axes with
    | nil => cases d <;> exact rfl
    | cons a axes =>
      have hstep := (d.performs_checkAxisInPlace checkNames axes.length a s).seq
        (d.keepsBase_checkAxis checkNames axes.length a s) (ih axes)
      cases d with
      | ellipsis => exact rfl
      | _ => exact hstep

theorem Shape.performs_checkInPlace (shape : Shape) (v : ArrayView) (s : Staged) :
    s.Performs (shape.checkInPlace v) (shape.check v s) := by
  unfold check checkInPlace
  split
  · exact rfl
  split
  · exact .error rfl
  split
  · exact .error rfl
  · exact performs_checkAxesInPlace _ _ _ s

namespace Schema

theorem performs_checkInPlace (schema : Schema) (v : ArrayView) (s : Staged) :
    s.Performs (schema.checkInPlace v) (schema.check v s) :=
  (schema.shape.performs_checkInPlace v s).seq (schema.shape.keepsBase_check v s)
    fun s' => .guard s' _

/-- A failed check leaves behind what it has staged: the label of the last axis
    is met before the size of the first turns out wrong. -/
example :
    let failed := ((ofTokens [.size 3, .name "n"]).checkInPlace
      ⟨[⟨4, none⟩, ⟨4, none⟩], .f32, false, none⟩).run ⟨.empty, []⟩
    failed.1.isOk = false ∧ failed.2.fresh = [("n", 4)] := by
  decide

/-- A match in place answers as `matchArray` does.  It leaves the new bindings
    after a success and the old ones after a failure. -/
theorem run_matchInPlace (schema : Schema) (v : ArrayView) (b : Bindings) :
    (schema.matchInPlace v).run b = InPlace.settle b (schema.matchArray b v) := by
  have hrun := schema.performs_checkInPlace v b.stage
  have hkeeps := schema.keepsBase_check v b.stage
  change (match (schema.checkInPlace v).run b.stage with
    | (.ok _, s) => (Except.ok (), s.base.commit s.fresh)
    | (.error reason, s) => (.error (Mismatch.mk schema.text v.text reason), s.base)) = _
  unfold matchArray
  cases hcheck : schema.check v b.stage with
  | ok s =>
    rw [hcheck] at hrun hkeeps
    have hbase : s.base = b := hkeeps
    have hdone : (schema.checkInPlace v).run b.stage = (.ok (), s) := hrun
    rw [hdone]
    simp only [hbase, InPlace.settle]
  | error reason =>
    rw [hcheck] at hrun
    obtain ⟨s, hfailed, hbase⟩ := hrun
    have hb : s.base = b := hbase
    rw [hfailed]
    simp only [hb, InPlace.settle]

end Schema

end ShapeContracts
