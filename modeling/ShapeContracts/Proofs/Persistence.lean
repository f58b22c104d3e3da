/-
  ShapeContracts/Proofs/Persistence.lean
  ======================================
  **Verdicts last.**

  What a step of a session asks does not depend on the bindings it finds: there
  is a condition, which holds or not once and for all, and there are readings
  (`Step.exists_decides`).  Only whether the readings agree with what is bound
  depends on the bindings, and a session only adds to those (`growsTo_final`).

  So a step that has succeeded finds its readings bound ever after, and a step
  that has failed finds the same disagreement, or more of it.
-/
import ShapeContracts.Proofs.Session

namespace ShapeContracts

/-! ### Deciding with more bindings -/

namespace Bindings

theorem GrowsTo.trans {b b' b'' : Bindings} (h : b.GrowsTo b') (h' : b'.GrowsTo b'') :
    b.GrowsTo b'' := by
  intro label n hn
  exact h' label n (h label n hn)

end Bindings

namespace Decides

variable {ε : Type} {condition : Prop} {readings : List Reading} {b b' : Bindings}

/-- What succeeds with more bindings succeeds with fewer. -/
theorem exists_ok_of_growsTo (hgrows : b.GrowsTo b') {r r' : Except ε Bindings}
    (h : Decides b.get? condition readings Table.get? r)
    (h' : Decides b'.get? condition readings Table.get? r') (hok : ∃ a, r' = .ok a) :
    ∃ a, r = .ok a := by
  obtain ⟨hcondition, σ, hσ, hmeets⟩ := h'.exists_ok_iff.mp hok
  refine h.exists_ok_iff.mpr ⟨hcondition, σ, ?_, hmeets⟩
  intro label n hn
  exact hσ label n (hgrows label n hn)

/-- Where all that a success has left is still bound, it succeeds again and has
    nothing to add. -/
theorem eq_ok_of_growsTo {a : Bindings} (hgrows : a.GrowsTo b') {r' : Except ε Bindings}
    (h : Decides (ε := ε) b.get? condition readings Table.get? (.ok a))
    (h' : Decides b'.get? condition readings Table.get? r') : r' = .ok b' := by
  have hbound : ∀ label n, (label, n) ∈ readings → b'.get? label = some n := by
    intro label n hread
    exact hgrows label n ((h.2 label n).mpr (.inr hread))
  refine h'.eq_ok_iff.mpr ⟨h.1, fun label n => ?_⟩
  exact (or_iff_left_of_imp (hbound label n)).symm

end Decides

/-! ### What a step asks -/

/-- A walk stops at the first ellipsis, so it is a walk without one. -/
theorem exists_checkAxes_eq (dims : List Dim) :
    ∃ walked, Dim.ellipsis ∉ walked ∧ ∀ checkNames axes s,
      checkAxes checkNames dims axes s = checkAxes checkNames walked axes s := by
  by_cases hmem : Dim.ellipsis ∈ dims
  · obtain ⟨walked, rest, rfl, hwalked⟩ := List.eq_append_cons_of_mem hmem
    exact ⟨walked, hwalked, fun checkNames => checkAxes_append_ellipsis checkNames walked rest⟩
  · exact ⟨dims, hmem, fun _ _ _ => rfl⟩

theorem Shape.exists_decides_check (shape : Shape) (v : ArrayView) :
    ∃ condition readings, ∀ s : Staged,
      Decides s.get? condition readings Staged.get? (shape.check v s) := by
  unfold check
  split
  · exact ⟨True, [], fun s => .ok s trivial⟩
  split
  · exact ⟨False, [], fun s => .error _ id⟩
  split
  · exact ⟨False, [], fun s => .error _ id⟩
  · obtain ⟨walked, hwalked, heq⟩ := exists_checkAxes_eq shape.dims.reverse
    simp only [heq]
    exact ⟨_, _, fun s => decides_checkAxes shape.checkNames v.axes.reverse s hwalked⟩

theorem Schema.exists_decides_matchArray (schema : Schema) (v : ArrayView) :
    ∃ condition readings, ∀ b : Bindings,
      Decides b.get? condition readings Table.get? (schema.matchArray b v) := by
  obtain ⟨condition, readings, hshape⟩ := schema.shape.exists_decides_check v
  refine ⟨condition ∧ ∀ d ∈ schema.details, d.accepts v = true, readings ++ [], fun b => ?_⟩
  exact decides_matchArray_of_check b v
    (Decides.bind (hshape b.stage) fun s _ => decides_checkDetails schema.details v s)

namespace Session

theorem Step.exists_decides (step : Step) :
    ∃ condition readings, ∀ b : Bindings,
      Decides b.get? condition readings Table.get? (step.answer b) := by
  cases step with
  | bind label n => exact ⟨True, [(label, n)], fun b => (b.decides_bind label n).mapError _⟩
  | matchArray schema v =>
    obtain ⟨condition, readings, hmatch⟩ := schema.exists_decides_matchArray v
    exact ⟨condition, readings, fun b => (hmatch b).mapError _⟩

/-! ### What a session keeps -/

variable {b b' b'' : Bindings} {step : Step}

theorem final_append (b : Bindings) (before after : List Step) :
    final b (before ++ after) = final (final b before) after :=
  List.foldl_append

/-- No step of a session takes back what is bound. -/
theorem growsTo_final (b : Bindings) (steps : List Step) : b.GrowsTo (final b steps) := by
  induction steps generalizing b with
  | nil => exact .refl b
  | cons step rest ih =>
    cases hanswer : step.answer b with
    | ok b' =>
      rw [final_cons_of_ok hanswer]
      exact (Step.growsTo hanswer).trans (ih b')
    | error e =>
      rw [final_cons_of_error hanswer]
      exact ih b

/-- A step that has succeeded succeeds again wherever all it left is bound. -/
theorem Step.run_take_of_ok (h : step.answer b = .ok b') (hgrows : b'.GrowsTo b'') :
    step.take.run b'' = (.ok (), b'') := by
  obtain ⟨condition, readings, hdecides⟩ := step.exists_decides
  have hnow := hdecides b
  rw [h] at hnow
  rw [step.run_take, hnow.eq_ok_of_growsTo hgrows (hdecides b'')]
  rfl

/-- A step that has failed fails again wherever nothing was taken back. -/
theorem Step.run_take_of_error {failure : Failure} (h : step.answer b = .error failure)
    (hgrows : b.GrowsTo b') : ∃ failure', step.take.run b' = (.error failure', b') := by
  obtain ⟨condition, readings, hdecides⟩ := step.exists_decides
  cases hlater : step.answer b' with
  | error failure' =>
    refine ⟨failure', ?_⟩
    rw [step.run_take, hlater]
    rfl
  | ok a =>
    obtain ⟨a', ha'⟩ := Decides.exists_ok_of_growsTo hgrows (hdecides b) (hdecides b') ⟨a, hlater⟩
    cases h.symm.trans ha'

/-- **Verdicts last.**  Wherever in a session a step is taken, and however many
    steps are taken after it: taken once more it succeeds if it succeeded, and
    then adds nothing, and it fails if it failed, though maybe for another
    reason. -/
theorem verdict_lasts (b : Bindings) (before : List Step) (step : Step) (after : List Step) :
    ((step.take.run (final b before)).1 = .ok () →
      step.take.run (final b (before ++ step :: after)) =
        (.ok (), final b (before ++ step :: after))) ∧
    (∀ failure, (step.take.run (final b before)).1 = .error failure →
      ∃ failure', step.take.run (final b (before ++ step :: after)) =
        (.error failure', final b (before ++ step :: after))) := by
  rw [final_append, step.run_take]
  cases hanswer : step.answer (final b before) with
  | ok b' =>
    rw [final_cons_of_ok hanswer]
    constructor
    · intro _
      exact Step.run_take_of_ok hanswer (growsTo_final b' after)
    · intro failure hfailed
      cases hfailed
  | error e =>
    rw [final_cons_of_error hanswer]
    constructor
    · intro hsucceeded
      cases hsucceeded
    · intro failure _
      exact Step.run_take_of_error hanswer (growsTo_final _ after)

end Session

end ShapeContracts
