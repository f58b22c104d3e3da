/-
  ShapeContracts/Proofs/Session.lean
  ==================================
  **Many steps on one set of bindings.**

  A session takes steps on the same bindings, one after another; each binds a
  label directly or matches an array, and a step that fails does not end it.
  The steps are the programs of `InPlace`, so every one of them starts from
  whatever the one before has left behind.

  A failed step leaves the bindings as they were (`settle_of_mem_log`) and any
  other step only adds to them (`Step.growsTo`).  A failed step can therefore be
  taken out of a session without any later step noticing (`log_successful`), and
  the alternatives of a union can be tried in turn on one set of bindings
  (`tryInTurn_eq_some_iff`).
-/
import ShapeContracts.Proofs.InPlace
import ShapeContracts.Proofs.Outcome

namespace ShapeContracts

/-! ### Bindings that grow -/

namespace Bindings

/-- Every label that is bound stays bound to its size. -/
def GrowsTo (b b' : Bindings) : Prop :=
  ∀ label n, b.get? label = some n → b'.get? label = some n

theorem GrowsTo.refl (b : Bindings) : b.GrowsTo b := fun _ _ h => h

theorem growsTo_bind {b b' : Bindings} {label : String} {n : Size}
    (h : b.bind label n = .ok b') : b.GrowsTo b' := by
  unfold bind at h
  cases hlabel : b.get? label with
  | some bound =>
    simp only [hlabel] at h
    split at h
    · cases h
      exact .refl b
    · cases h
  | none =>
    simp only [hlabel] at h
    cases h
    intro other m hother
    have hne : other ≠ label := by
      rintro rfl
      rw [hlabel] at hother
      cases hother
    rwa [Table.get?_put, if_neg hne]

theorem growsTo_commit (b : Bindings) (fresh : List Reading) : b.GrowsTo (b.commit fresh) := by
  intro label n h
  rw [get?_commit, h, Option.some_or]

theorem growsTo_matchArray {schema : Schema} {b b' : Bindings} {v : ArrayView}
    (h : schema.matchArray b v = .ok b') : b.GrowsTo b' := by
  unfold Schema.matchArray at h
  split at h
  · cases h
    exact b.growsTo_commit _
  · cases h

end Bindings

namespace Session

/-! ### Steps -/

inductive Step
  | bind (label : String) (n : Size)
  | matchArray (schema : Schema) (v : ArrayView)

inductive Failure
  | conflict (c : Conflict)
  | mismatch (m : Mismatch)

namespace Step

def take : Step → InPlace Bindings Failure Unit
  | .bind label n => (Bindings.bindInPlace label n).adapt .conflict
  | .matchArray schema v => (schema.matchInPlace v).adapt .mismatch

/-- What a step answers on given bindings. -/
def answer (b : Bindings) : Step → Except Failure Bindings
  | .bind label n => (b.bind label n).mapError .conflict
  | .matchArray schema v => (schema.matchArray b v).mapError .mismatch

variable {step : Step} {b b' : Bindings}

theorem run_take (step : Step) (b : Bindings) :
    step.take.run b = InPlace.settle b (step.answer b) := by
  cases step with
  | bind label n =>
    simp only [take, answer, InPlace.run_adapt, b.run_bindInPlace, InPlace.settle_mapError]
  | matchArray schema v =>
    simp only [take, answer, InPlace.run_adapt, schema.run_matchInPlace, InPlace.settle_mapError]

theorem growsTo (h : step.answer b = .ok b') : b.GrowsTo b' := by
  cases step with
  | bind label n => exact Bindings.growsTo_bind (mapError_eq_ok_iff.mp h)
  | matchArray schema v => exact Bindings.growsTo_matchArray (mapError_eq_ok_iff.mp h)

end Step

/-! ### The log of a session -/

/-- A step that was taken, with the bindings it found and those it left. -/
structure Entry where
  step : Step
  before : Bindings
  outcome : Except Failure Unit
  after : Bindings

def Entry.succeeded (e : Entry) : Bool := e.outcome.isOk

/-- Take steps one after another, whether they fail or not. -/
def log (b : Bindings) : List Step → List Entry
  | [] => []
  | step :: rest =>
    let (outcome, after) := step.take.run b
    ⟨step, b, outcome, after⟩ :: log after rest

def final (b : Bindings) (steps : List Step) : Bindings :=
  steps.foldl (fun b step => (step.take.run b).2) b

def successful (b : Bindings) (steps : List Step) : List Step :=
  ((log b steps).filter Entry.succeeded).map Entry.step

variable {b b' : Bindings} {step : Step} {rest steps : List Step}

theorem log_cons_of_ok (h : step.answer b = .ok b') :
    log b (step :: rest) = ⟨step, b, .ok (), b'⟩ :: log b' rest := by
  simp only [log, step.run_take, h, InPlace.settle]

theorem log_cons_of_error {e : Failure} (h : step.answer b = .error e) :
    log b (step :: rest) = ⟨step, b, .error e, b⟩ :: log b rest := by
  simp only [log, step.run_take, h, InPlace.settle]

theorem final_cons_of_ok (h : step.answer b = .ok b') :
    final b (step :: rest) = final b' rest := by
  simp only [final, List.foldl_cons, step.run_take, h, InPlace.settle]

theorem final_cons_of_error {e : Failure} (h : step.answer b = .error e) :
    final b (step :: rest) = final b rest := by
  simp only [final, List.foldl_cons, step.run_take, h, InPlace.settle]

theorem successful_cons_of_ok (h : step.answer b = .ok b') :
    successful b (step :: rest) = step :: successful b' rest := by
  rw [successful, log_cons_of_ok h]
  rfl

theorem successful_cons_of_error {e : Failure} (h : step.answer b = .error e) :
    successful b (step :: rest) = successful b rest := by
  rw [successful, log_cons_of_error h]
  rfl

/-- Every step of a session does what it answers on the bindings it finds. -/
theorem settle_of_mem_log {e : Entry} (h : e ∈ log b steps) :
    (e.outcome, e.after) = InPlace.settle e.before (e.step.answer e.before) := by
  induction steps generalizing b with
  | nil => cases h
  | cons step rest ih =>
    rcases List.mem_cons.mp h with rfl | h
    · exact step.run_take b
    · exact ih h

/-- A session of the successful steps alone goes as it went with the failed
    ones in between. -/
theorem log_successful (b : Bindings) (steps : List Step) :
    log b (successful b steps) = (log b steps).filter Entry.succeeded := by
  induction steps generalizing b with
  | nil => rfl
  | cons step rest ih =>
    cases hanswer : step.answer b with
    | ok b' =>
      rw [successful_cons_of_ok hanswer, log_cons_of_ok hanswer, log_cons_of_ok hanswer, ih]
      rfl
    | error e =>
      -- the failed step has left `b` to the steps after it
      rw [successful_cons_of_error hanswer, log_cons_of_error hanswer, ih]
      rfl

theorem final_successful (b : Bindings) (steps : List Step) :
    final b (successful b steps) = final b steps := by
  induction steps generalizing b with
  | nil => rfl
  | cons step rest ih =>
    cases hanswer : step.answer b with
    | ok b' =>
      rw [successful_cons_of_ok hanswer, final_cons_of_ok hanswer, final_cons_of_ok hanswer, ih]
    | error e => rw [successful_cons_of_error hanswer, final_cons_of_error hanswer, ih]

/-! ### Unions -/

/-- Try the alternatives of a union one after another on the same bindings, up
    to the first that matches, and tell its place. -/
def tryInTurn (v : ArrayView) : List Schema → Bindings → Option Nat × Bindings
  | [], b => (none, b)
  | schema :: rest, b =>
    match (schema.matchInPlace v).run b with
    | (.ok _, b') => (some 0, b')
    | (.error _, b') =>
      let (place, b'') := tryInTurn v rest b'
      (place.map (· + 1), b'')

variable {v : ArrayView} {schema : Schema} {alternatives : List Schema}

theorem tryInTurn_cons_of_ok (h : schema.matchArray b v = .ok b') :
    tryInTurn v (schema :: alternatives) b = (some 0, b') := by
  simp only [tryInTurn, schema.run_matchInPlace, h, InPlace.settle]

theorem tryInTurn_cons_of_error {m : Mismatch} (h : schema.matchArray b v = .error m) :
    tryInTurn v (schema :: alternatives) b =
      ((tryInTurn v alternatives b).1.map (· + 1), (tryInTurn v alternatives b).2) := by
  simp only [tryInTurn, schema.run_matchInPlace, h, InPlace.settle]

/-- In turn, the alternative accepted is the first that matches the bindings all
    of them began with, and it binds what it binds there. -/
theorem tryInTurn_eq_some_iff {i : Nat} :
    tryInTurn v alternatives b = (some i, b') ↔
      (∃ schema, alternatives[i]? = some schema ∧ schema.matchArray b v = .ok b') ∧
        ∀ earlier ∈ alternatives.take i, ∃ m, earlier.matchArray b v = .error m := by
  induction alternatives generalizing i with
  | nil => simp [tryInTurn]
  | cons schema rest ih =>
    cases hmatch : schema.matchArray b v with
    | ok after =>
      rw [tryInTurn_cons_of_ok hmatch]
      cases i <;> simp [hmatch]
    | error m =>
      cases i with
      | zero => simp [tryInTurn_cons_of_error hmatch, hmatch]
      | succ i =>
        have hrest : tryInTurn v (schema :: rest) b = (some (i + 1), b') ↔
            tryInTurn v rest b = (some i, b') := by
          simp [tryInTurn_cons_of_error hmatch, Prod.ext_iff]
        rw [hrest, ih]
        simp [hmatch]

theorem tryInTurn_eq_none_iff :
    tryInTurn v alternatives b = (none, b') ↔
      b' = b ∧ ∀ schema ∈ alternatives, ∃ m, schema.matchArray b v = .error m := by
  induction alternatives with
  | nil => simp [tryInTurn, eq_comm]
  | cons schema rest ih =>
    cases hmatch : schema.matchArray b v with
    | ok after => simp [tryInTurn_cons_of_ok hmatch, hmatch]
    | error m =>
      have hrest : tryInTurn v (schema :: rest) b = (none, b') ↔
          tryInTurn v rest b = (none, b') := by
        simp [tryInTurn_cons_of_error hmatch, Prod.ext_iff]
      rw [hrest, ih]
      simp [hmatch]

/-! ### Failures leave no trace -/

/-- **Failed steps leave no trace.**  In every session a failed step leaves the
    bindings it found, and a successful one leaves bindings in which all that
    was bound is still bound; a session of the successful steps alone finds and
    leaves, step by step, the same bindings.  So the alternatives of a union
    can share their bindings: tried in turn they accept what they accept when
    each is tried on a copy. -/
theorem failed_steps_leave_no_trace (b : Bindings) :
    (∀ steps,
      (∀ e ∈ log b steps,
        (∀ failure, e.outcome = .error failure →
          e.step.answer e.before = .error failure ∧ e.after = e.before) ∧
        (e.outcome = .ok () →
          e.step.answer e.before = .ok e.after ∧ e.before.GrowsTo e.after)) ∧
      log b (successful b steps) = (log b steps).filter Entry.succeeded ∧
      final b (successful b steps) = final b steps) ∧
    ∀ v alternatives b',
      (∀ i, tryInTurn v alternatives b = (some i, b') ↔
        (∃ schema, alternatives[i]? = some schema ∧ schema.matchArray b v = .ok b') ∧
          ∀ earlier ∈ alternatives.take i, ∃ m, earlier.matchArray b v = .error m) ∧
      (tryInTurn v alternatives b = (none, b') ↔
        b' = b ∧ ∀ schema ∈ alternatives, ∃ m, schema.matchArray b v = .error m) := by
  constructor
  · intro steps
    refine ⟨fun e he => ?_, log_successful b steps, final_successful b steps⟩
    have hdone := settle_of_mem_log he
    constructor
    · intro failure hfailed
      rw [hfailed] at hdone
      exact InPlace.settle_eq_error hdone.symm
    · intro hsucceeded
      rw [hsucceeded] at hdone
      have hanswer := InPlace.settle_eq_ok hdone.symm
      exact ⟨hanswer, Step.growsTo hanswer⟩
  · intro v alternatives b'
    exact ⟨fun i => tryInTurn_eq_some_iff, tryInTurn_eq_none_iff⟩

end Session

end ShapeContracts
