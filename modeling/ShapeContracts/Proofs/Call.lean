/-
  ShapeContracts/Proofs/Call.lean
  ===============================
  **What it means that a call fits a signature.**

  A call is checked step by step, each step starting from the bindings the
  steps before it left.  A run of steps nevertheless decides something that
  does not mention an order: whether one assignment of sizes to labels admits
  every array checked.  So the steps of a call may be taken in any order, and
  what a whole call answers can be said in terms of the arrays alone: it
  succeeds when they are admitted together, and otherwise blames the first
  array that is no longer admitted together with those before it.
-/
import Mathlib.Data.Nat.Find
import ShapeContracts.Signature
import ShapeContracts.Proofs.Matching

namespace ShapeContracts

/-! ### One step -/

namespace Signature

/-- A signature all of whose schemas are declared. -/
structure Declared (sig : Signature) : Prop where
  params : ∀ param ∈ sig.params, param.schema.Declared
  result : ∀ schema, sig.result = some schema → schema.Declared

/-- The product of two matrices. -/
def product : Signature where
  name := "product"
  params := [⟨"a", .ofTokens [.name "n", .name "k"]⟩, ⟨"b", .ofTokens [.name "k", .name "m"]⟩]
  result := some (.ofTokens [.name "n", .name "m"])

theorem product_declared : product.Declared where
  params := by
    intro param hparam
    simp only [product, List.mem_cons, List.not_mem_nil, or_false] at hparam
    rcases hparam with rfl | rfl
    · exact ⟨.plain, [.name "n", .name "k"], rfl⟩
    · exact ⟨.plain, [.name "k", .name "m"], rfl⟩
  result := by
    intro schema hschema
    cases hschema
    exact ⟨.plain, [.name "n", .name "m"], rfl⟩

def matrix (rows columns : Size) : ArrayView :=
  ⟨[⟨rows, none⟩, ⟨columns, none⟩], .f32, false, none⟩

/-- Whether the array of a step fits its schema by itself.  An argument needs a
    parameter, a result does not need a schema. -/
def Fits (sig : Signature) : CallStep → Prop
  | .argument index v => ∃ param, sig.params[index]? = some param ∧ param.schema.Fits v
  | .result v => ∀ schema, sig.result = some schema → schema.Fits v

def readings (sig : Signature) : CallStep → List Reading
  | .argument index v =>
    match sig.params[index]? with
    | some param => param.schema.shape.readings v
    | none => []
  | .result v =>
    match sig.result with
    | some schema => schema.shape.readings v
    | none => []

/-- A step is admitted by an assignment when its array fits and the assignment
    meets its readings. -/
def AdmitsStep (sig : Signature) (σ : Assignment) (step : CallStep) : Prop :=
  sig.Fits step ∧ σ.Meets (sig.readings step)

variable {sig : Signature}

theorem decides_step (h : sig.Declared) (b : Bindings) (step : CallStep) :
    Decides b.get? (sig.Fits step) (sig.readings step) Table.get? (sig.step b step) := by
  cases step with
  | argument index v =>
    simp only [Signature.step, checkArgument, Fits, readings]
    cases hparam : sig.params[index]? with
    | none =>
      refine .error _ ?_
      rintro ⟨param, hsome, _⟩
      cases hsome
    | some param =>
      have hdeclared := h.params param (List.mem_of_getElem? hparam)
      have hmatch := Schema.decides_matchArray hdeclared.ellipsis_notMem_tail b v
      refine (hmatch.mapError _).congr ⟨fun hfits => ⟨param, rfl, hfits⟩, ?_⟩ fun r => Iff.rfl
      rintro ⟨param', hsome, hfits⟩
      cases hsome
      exact hfits
  | result v =>
    simp only [Signature.step, checkResult, Fits, readings]
    cases hresult : sig.result with
    | none =>
      refine .ok b ?_
      intro schema hsome
      cases hsome
    | some schema =>
      have hdeclared := h.result schema hresult
      have hmatch := Schema.decides_matchArray hdeclared.ellipsis_notMem_tail b v
      refine (hmatch.mapError _).congr ⟨?_, fun hall => hall schema rfl⟩ fun r => Iff.rfl
      intro hfits schema' hsome
      cases hsome
      exact hfits

/-! ### A run of steps -/

theorem run_cons (b : Bindings) (step : CallStep) (steps : List CallStep) :
    sig.run b (step :: steps) = (sig.step b step).bind fun b' => sig.run b' steps :=
  List.foldlM_cons

theorem run_append (b : Bindings) (steps rest : List CallStep) :
    sig.run b (steps ++ rest) = (sig.run b steps).bind fun b' => sig.run b' rest :=
  List.foldlM_append

/-- A run decides whether all its arrays fit and agree in their readings. -/
theorem decides_run (h : sig.Declared) (b : Bindings) (steps : List CallStep) :
    Decides b.get? (∀ step ∈ steps, sig.Fits step) (steps.flatMap sig.readings) Table.get?
      (sig.run b steps) := by
  induction steps generalizing b with
  | nil => exact .ok b (by simp)
  | cons step steps ih =>
    rw [run_cons, List.flatMap_cons]
    refine (Decides.bind (decides_step h b step) fun b' _ => ih b').congr ?_ fun r => Iff.rfl
    rw [List.forall_mem_cons]

theorem forall_admitsStep {σ : Assignment} {steps : List CallStep} :
    (∀ step ∈ steps, sig.AdmitsStep σ step) ↔
      (∀ step ∈ steps, sig.Fits step) ∧ σ.Meets (steps.flatMap sig.readings) := by
  constructor
  · intro h
    refine ⟨fun step hstep => (h step hstep).1, fun r hr => ?_⟩
    obtain ⟨step, hstep, hread⟩ := List.mem_flatMap.mp hr
    exact (h step hstep).2 r hread
  · rintro ⟨hfits, hmeets⟩ step hstep
    exact ⟨hfits step hstep, fun r hr => hmeets r (List.mem_flatMap.mpr ⟨step, hstep, hr⟩)⟩

/-- All steps of a run succeed exactly when one assignment admits them all. -/
theorem exists_run_eq_ok_iff (h : sig.Declared) (steps : List CallStep) :
    (∃ b, sig.run .empty steps = .ok b) ↔
      ∃ σ : Assignment, ∀ step ∈ steps, sig.AdmitsStep σ step := by
  rw [(decides_run h .empty steps).exists_ok_iff]
  constructor
  · rintro ⟨hfits, σ, _, hmeets⟩
    exact ⟨σ, forall_admitsStep.mpr ⟨hfits, hmeets⟩⟩
  · rintro ⟨σ, hall⟩
    obtain ⟨hfits, hmeets⟩ := forall_admitsStep.mp hall
    refine ⟨hfits, σ, fun label n hn => ?_, hmeets⟩
    cases hn

/-- After a run exactly the labels read are bound, to the sizes read. -/
theorem get?_of_run (h : sig.Declared) {steps : List CallStep} {b : Bindings}
    (hrun : sig.run .empty steps = .ok b) (label : String) (n : Size) :
    b.get? label = some n ↔ (label, n) ∈ steps.flatMap sig.readings := by
  have hdecides := decides_run h .empty steps
  rw [hrun] at hdecides
  rw [hdecides.2 label n, Table.get?_empty]
  simp

/-- **The order of the checks within a call does not matter.**  If the checks of
    a call succeed in one order, they succeed in every order, and the bindings
    they leave are the same. -/
theorem run_perm (h : sig.Declared) {steps steps' : List CallStep}
    (hperm : steps.Perm steps') :
    ((∃ b, sig.run .empty steps = .ok b) ↔ ∃ b, sig.run .empty steps' = .ok b) ∧
      ∀ b b', sig.run .empty steps = .ok b → sig.run .empty steps' = .ok b' → b = b' := by
  constructor
  · rw [exists_run_eq_ok_iff h, exists_run_eq_ok_iff h]
    simp only [hperm.mem_iff]
  · intro b b' hrun hrun'
    -- both runs bind what they read, and they read the same
    refine Table.eq_of_get?_eq fun label => Option.ext fun n => ?_
    rw [get?_of_run h hrun, get?_of_run h hrun']
    exact (hperm.flatMap_right sig.readings).mem_iff

/-- The product of two matrices may be checked from the result backwards. -/
theorem run_perm_product :
    product.Declared ∧
      [CallStep.argument 0 (matrix 2 3), .argument 1 (matrix 3 4), .result (matrix 2 4)].Perm
        [CallStep.argument 0 (matrix 2 3), .argument 1 (matrix 3 4), .result (matrix 2 4)].reverse ∧
      ∃ b, product.run .empty
        [.result (matrix 2 4), .argument 1 (matrix 3 4), .argument 0 (matrix 2 3)] = .ok b := by
  have hperm := (List.reverse_perm
    [CallStep.argument 0 (matrix 2 3), .argument 1 (matrix 3 4), .result (matrix 2 4)]).symm
  exact ⟨product_declared, hperm, (run_perm product_declared hperm).1.mp ⟨_, rfl⟩⟩

/-! ### Arguments and result

The same in the words of a caller, who has a list of arguments and possibly a
result, and not a list of steps. -/

/-- Every argument is admitted by the schema of its parameter. -/
def AdmitsArguments (sig : Signature) (σ : Assignment) (args : List ArrayView) : Prop :=
  ∀ (i : Nat) (param : Param) (v : ArrayView),
    sig.params[i]? = some param → args[i]? = some v → param.schema.Admits σ v

/-- The result is admitted, where there is one and it has a schema. -/
def AdmitsResult (sig : Signature) (σ : Assignment) (result : Option ArrayView) : Prop :=
  ∀ schema v, sig.result = some schema → result = some v → schema.Admits σ v

/-- The schemas a call is checked against. -/
def schemasOf (sig : Signature) (result : Option ArrayView) : List Schema :=
  sig.params.map Param.schema ++ (result.bind fun _ => sig.result).toList

theorem mem_callSteps {args : List ArrayView} {result : Option ArrayView} {step : CallStep} :
    step ∈ callSteps args result ↔
      (∃ i v, args[i]? = some v ∧ step = .argument i v) ∨
        ∃ v, result = some v ∧ step = .result v := by
  simp only [callSteps, List.mem_append, List.mem_map, List.mem_zipIdx_iff_getElem?,
    Option.mem_toList, Option.map_eq_some_iff]
  constructor
  · rintro (⟨⟨v, i⟩, hv, rfl⟩ | ⟨v, hv, rfl⟩)
    · exact .inl ⟨i, v, hv, rfl⟩
    · exact .inr ⟨v, hv, rfl⟩
  · rintro (⟨i, v, hv, rfl⟩ | ⟨v, hv, rfl⟩)
    · exact .inl ⟨(v, i), hv, rfl⟩
    · exact .inr ⟨v, hv, rfl⟩

theorem admitsStep_argument {σ : Assignment} {i : Nat} {v : ArrayView} :
    sig.AdmitsStep σ (.argument i v) ↔
      ∃ param, sig.params[i]? = some param ∧ param.schema.Admits σ v := by
  simp only [AdmitsStep, Fits, readings, Schema.Admits]
  cases sig.params[i]? with
  | none => simp
  | some param => simp

theorem admitsStep_result {σ : Assignment} {v : ArrayView} :
    sig.AdmitsStep σ (.result v) ↔ ∀ schema, sig.result = some schema → schema.Admits σ v := by
  simp only [AdmitsStep, Fits, readings, Schema.Admits]
  cases sig.result with
  | none => simp [Assignment.meets_nil]
  | some schema => simp

/-- The steps of a call are admitted when its arguments and its result are,
    provided that there is a parameter for every argument. -/
theorem forall_mem_callSteps {σ : Assignment} {args : List ArrayView}
    {result : Option ArrayView} (hlength : args.length ≤ sig.params.length) :
    (∀ step ∈ callSteps args result, sig.AdmitsStep σ step) ↔
      sig.AdmitsArguments σ args ∧ sig.AdmitsResult σ result := by
  constructor
  · intro h
    constructor
    · intro i param v hparam hv
      have hstep := h _ (mem_callSteps.mpr (.inl ⟨i, v, hv, rfl⟩))
      obtain ⟨param', hparam', hadmits⟩ := admitsStep_argument.mp hstep
      cases hparam.symm.trans hparam'
      exact hadmits
    · intro schema v hschema hv
      have hstep := h _ (mem_callSteps.mpr (.inr ⟨v, hv, rfl⟩))
      exact admitsStep_result.mp hstep schema hschema
  · rintro ⟨hargs, hresult⟩ step hstep
    rcases mem_callSteps.mp hstep with ⟨i, v, hv, rfl⟩ | ⟨v, hv, rfl⟩
    · have hi : i < sig.params.length :=
        Nat.lt_of_lt_of_le (List.getElem?_eq_some_iff.mp hv).1 hlength
      have hparam := List.getElem?_eq_getElem hi
      exact admitsStep_argument.mpr ⟨_, hparam, hargs i _ v hparam hv⟩
    · exact admitsStep_result.mpr fun schema hschema => hresult schema v hschema hv

/-- The steps of a call succeed when its arrays are admitted together. -/
theorem exists_run_callSteps_iff (h : sig.Declared) {args : List ArrayView}
    {result : Option ArrayView} (hlength : args.length ≤ sig.params.length) :
    (∃ b, sig.run .empty (callSteps args result) = .ok b) ↔
      ∃ σ, sig.AdmitsArguments σ args ∧ sig.AdmitsResult σ result := by
  rw [exists_run_eq_ok_iff h]
  simp only [forall_mem_callSteps hlength]

theorem admitsResult_none (sig : Signature) (σ : Assignment) : sig.AdmitsResult σ none := by
  intro schema v _ hv
  cases hv

/-! ### The bindings of a call -/

/-- A schema that admits an array reads its labels there, with the sizes
    assigned to them. -/
theorem mem_labels_iff_reading {schema : Schema} {σ : Assignment} {v : ArrayView}
    (h : schema.Admits σ v) {label : String} :
    label ∈ schema.shape.labels ↔ (label, σ label) ∈ schema.shape.readings v := by
  rw [Shape.mem_labels_iff_exists_reading h.1.rank]
  constructor
  · rintro ⟨n, hread⟩
    have hn : σ label = n := h.2 _ hread
    rwa [hn]
  · intro hread
    exact ⟨_, hread⟩

theorem readings_argument {i : Nat} {param : Param} (h : sig.params[i]? = some param)
    (v : ArrayView) : sig.readings (.argument i v) = param.schema.shape.readings v := by
  simp only [readings, h]

theorem readings_result {schema : Schema} (h : sig.result = some schema) (v : ArrayView) :
    sig.readings (.result v) = schema.shape.readings v := by
  simp only [readings, h]

/-- What a call reads are the labels of its schemas. -/
theorem mem_readings_callSteps {σ : Assignment} {args : List ArrayView}
    {result : Option ArrayView} (hlength : args.length = sig.params.length)
    (hargs : sig.AdmitsArguments σ args) (hresult : sig.AdmitsResult σ result)
    {label : String} {n : Size} :
    (label, n) ∈ (callSteps args result).flatMap sig.readings ↔
      (∃ schema ∈ sig.schemasOf result, label ∈ schema.shape.labels) ∧ σ label = n := by
  have hadmits := (forall_mem_callSteps (Nat.le_of_eq hlength)).mpr ⟨hargs, hresult⟩
  rw [List.mem_flatMap]
  constructor
  · rintro ⟨step, hstep, hread⟩
    have hn : σ label = n := (hadmits step hstep).2 _ hread
    refine ⟨?_, hn⟩
    rcases mem_callSteps.mp hstep with ⟨i, v, hv, rfl⟩ | ⟨v, hv, rfl⟩
    · obtain ⟨param, hparam, hschema⟩ := admitsStep_argument.mp (hadmits _ hstep)
      rw [readings_argument hparam, ← hn] at hread
      refine ⟨param.schema, ?_, (mem_labels_iff_reading hschema).mpr hread⟩
      exact List.mem_append_left _ (List.mem_map_of_mem (List.mem_of_getElem? hparam))
    · cases hschema : sig.result with
      | none => simp [readings, hschema] at hread
      | some schema =>
        have hschema' := admitsStep_result.mp (hadmits _ hstep) schema hschema
        rw [readings_result hschema, ← hn] at hread
        refine ⟨schema, ?_, (mem_labels_iff_reading hschema').mpr hread⟩
        simp [schemasOf, hv, hschema]
  · rintro ⟨⟨schema, hschema, hlabel⟩, rfl⟩
    rcases List.mem_append.mp hschema with hschema | hschema
    · -- a label of a parameter is read at the argument in its place
      obtain ⟨param, hparam, rfl⟩ := List.mem_map.mp hschema
      obtain ⟨i, hi⟩ := List.mem_iff_getElem?.mp hparam
      have hlt : i < args.length := hlength ▸ (List.getElem?_eq_some_iff.mp hi).1
      have hv := List.getElem?_eq_getElem hlt
      refine ⟨_, mem_callSteps.mpr (.inl ⟨i, _, hv, rfl⟩), ?_⟩
      rw [readings_argument hi]
      exact (mem_labels_iff_reading (hargs i param _ hi hv)).mp hlabel
    · obtain ⟨v, hv, hsome⟩ := Option.bind_eq_some_iff.mp (Option.mem_toList.mp hschema)
      refine ⟨_, mem_callSteps.mpr (.inr ⟨v, hv, rfl⟩), ?_⟩
      rw [readings_result hsome]
      exact (mem_labels_iff_reading (hresult schema v hsome hv)).mp hlabel

/-! ### Blame -/

/-- The first argument that is not admitted together with those before it. -/
structure FirstMisfit (sig : Signature) (args : List ArrayView) (i : Nat) : Prop where
  misfit : ¬ ∃ σ, sig.AdmitsArguments σ (args.take (i + 1))
  least : ∀ j < i, ∃ σ, sig.AdmitsArguments σ (args.take (j + 1))

/-- The arguments before the first misfit are admitted together. -/
theorem FirstMisfit.exists_admits {args : List ArrayView} {i : Nat}
    (h : sig.FirstMisfit args i) : ∃ σ, sig.AdmitsArguments σ (args.take i) := by
  cases i with
  | zero =>
    refine ⟨fun _ => 0, fun j param v _ hv => ?_⟩
    simp at hv
  | succ j => exact h.least j (Nat.lt_succ_self j)

theorem FirstMisfit.lt_length {args : List ArrayView} {i : Nat}
    (h : sig.FirstMisfit args i) : i < args.length := by
  refine Nat.lt_of_not_le fun hle => h.misfit ?_
  obtain ⟨σ, hσ⟩ := h.exists_admits
  rw [List.take_of_length_le hle] at hσ
  exact ⟨σ, by rwa [List.take_of_length_le (Nat.le_succ_of_le hle)]⟩

theorem exists_firstMisfit {args : List ArrayView} (h : ¬ ∃ σ, sig.AdmitsArguments σ args) :
    ∃ i, sig.FirstMisfit args i := by
  classical
  have hex : ∃ i, ¬ ∃ σ, sig.AdmitsArguments σ (args.take (i + 1)) :=
    ⟨args.length, by rwa [List.take_of_length_le (Nat.le_succ _)]⟩
  exact ⟨Nat.find hex, Nat.find_spec hex, fun j hj => not_not.mp (Nat.find_min hex hj)⟩

theorem callSteps_take_succ {args : List ArrayView} {i : Nat} {v : ArrayView}
    (h : args[i]? = some v) :
    callSteps (args.take (i + 1)) none = callSteps (args.take i) none ++ [.argument i v] := by
  have hi : i < args.length := (List.getElem?_eq_some_iff.mp h).1
  have hlength : (args.take i).length = i := by
    rw [List.length_take]
    omega
  simp [callSteps, List.take_add_one, h, List.zipIdx_append, hlength]

/-- A call begins with the checks of its first arguments. -/
theorem exists_callSteps_eq (args : List ArrayView) (result : Option ArrayView) (k : Nat) :
    ∃ rest, callSteps args result = callSteps (args.take k) none ++ rest := by
  have hsplit : args.zipIdx = (args.take k).zipIdx ++ (args.drop k).zipIdx (args.take k).length := by
    conv => lhs; rw [← List.take_append_drop k args]
    rw [List.zipIdx_append, Nat.zero_add]
  refine ⟨((args.drop k).zipIdx (args.take k).length).map (fun a => CallStep.argument a.2 a.1) ++
    (result.map CallStep.result).toList, ?_⟩
  simp [callSteps, hsplit]

/-- The error of an argument names its parameter and shows both sides. -/
theorem step_argument_eq_error {b : Bindings} {i : Nat} {param : Param} {v : ArrayView}
    {e : CallError} (hparam : sig.params[i]? = some param)
    (h : sig.step b (.argument i v) = .error e) :
    ∃ reason, e = .argument sig.name param.name ⟨param.schema.text, v.text, reason⟩ := by
  simp only [Signature.step, checkArgument, hparam] at h
  cases hmatch : param.schema.matchArray b v with
  | ok b' =>
    rw [hmatch] at h
    cases h
  | error m =>
    obtain ⟨reason, rfl⟩ := Schema.matchArray_eq_error hmatch
    rw [hmatch] at h
    cases h
    exact ⟨reason, rfl⟩

/-- A call stops at the first misfit and blames its parameter. -/
theorem FirstMisfit.run_eq_error (h : sig.Declared) {args : List ArrayView}
    (hlength : args.length ≤ sig.params.length) (result : Option ArrayView) {i : Nat}
    (hi : sig.FirstMisfit args i) :
    ∃ param v reason, sig.params[i]? = some param ∧ args[i]? = some v ∧
      sig.run .empty (callSteps args result) =
        .error (.argument sig.name param.name ⟨param.schema.text, v.text, reason⟩) := by
  have hlt := hi.lt_length
  have hparam := List.getElem?_eq_getElem (Nat.lt_of_lt_of_le hlt hlength)
  have hv := List.getElem?_eq_getElem hlt
  have htake : ∀ k, (args.take k).length ≤ sig.params.length := by
    intro k
    rw [List.length_take]
    omega
  -- the arguments before the misfit pass
  obtain ⟨b, hb⟩ : ∃ b, sig.run .empty (callSteps (args.take i) none) = .ok b := by
    obtain ⟨σ, hσ⟩ := hi.exists_admits
    exact (exists_run_callSteps_iff h (htake i)).mpr ⟨σ, hσ, sig.admitsResult_none σ⟩
  have hstep : sig.run .empty (callSteps (args.take (i + 1)) none) =
      sig.step b (.argument i args[i]) := by
    rw [callSteps_take_succ hv, run_append, hb]
    change sig.run b [.argument i args[i]] = _
    rw [run_cons]
    cases sig.step b (.argument i args[i]) <;> rfl
  -- the misfit itself does not
  cases hresult : sig.step b (.argument i args[i]) with
  | ok b' =>
    obtain ⟨σ, hσ, _⟩ := (exists_run_callSteps_iff h (htake (i + 1))).mp ⟨b', hstep.trans hresult⟩
    exact absurd ⟨σ, hσ⟩ hi.misfit
  | error e =>
    obtain ⟨reason, rfl⟩ := step_argument_eq_error hparam hresult
    refine ⟨_, _, reason, hparam, hv, ?_⟩
    obtain ⟨rest, hrest⟩ := exists_callSteps_eq args result (i + 1)
    rw [hrest, run_append, hstep, hresult]
    rfl

theorem step_result_eq_error {b : Bindings} {v : ArrayView} {e : CallError}
    (h : sig.step b (.result v) = .error e) : ∃ cause, e = .result sig.name cause := by
  simp only [Signature.step, checkResult] at h
  cases hresult : sig.result with
  | none =>
    rw [hresult] at h
    cases h
  | some schema =>
    rw [hresult] at h
    cases hmatch : schema.matchArray b v with
    | ok b' =>
      simp only [hmatch] at h
      cases h
    | error m =>
      simp only [hmatch] at h
      cases h
      exact ⟨m, rfl⟩

/-- A call whose arguments are admitted together, but not with the result,
    fails at the result. -/
theorem run_eq_result_error (h : sig.Declared) {args : List ArrayView}
    (hlength : args.length ≤ sig.params.length) {result : Option ArrayView}
    (hargs : ∃ σ, sig.AdmitsArguments σ args)
    (hmisfit : ¬ ∃ σ, sig.AdmitsArguments σ args ∧ sig.AdmitsResult σ result) :
    ∃ cause, sig.run .empty (callSteps args result) = .error (.result sig.name cause) := by
  obtain ⟨σ, hσ⟩ := hargs
  obtain ⟨b, hb⟩ : ∃ b, sig.run .empty (callSteps args none) = .ok b :=
    (exists_run_callSteps_iff h hlength).mpr ⟨σ, hσ, sig.admitsResult_none σ⟩
  cases result with
  | none => exact absurd ⟨σ, hσ, sig.admitsResult_none σ⟩ hmisfit
  | some v =>
    have hsteps : callSteps args (some v) = callSteps args none ++ [.result v] := by
      simp [callSteps]
    have hrun : sig.run .empty (callSteps args (some v)) = sig.step b (.result v) := by
      rw [hsteps, run_append, hb]
      change sig.run b [.result v] = _
      rw [run_cons]
      cases sig.step b (.result v) <;> rfl
    cases hresult : sig.step b (.result v) with
    | ok b' => exact absurd ((exists_run_callSteps_iff h hlength).mp ⟨b', hrun.trans hresult⟩) hmisfit
    | error e =>
      obtain ⟨cause, rfl⟩ := step_result_eq_error hresult
      exact ⟨cause, hrun.trans hresult⟩

/-! ### The answer to a call -/

/-- **What a call answers.**  With as many arguments as parameters a call
    succeeds exactly when one assignment admits all its arrays, and then binds
    exactly the labels of the schemas it was checked against, to the sizes
    assigned to them.  Otherwise it blames the first argument that is not
    admitted together with those before it, or the result when the arguments
    are admitted together but not with the result. -/
theorem checkCall_iff (h : sig.Declared) (args : List ArrayView) (result : Option ArrayView) :
    (args.length ≠ sig.params.length →
      sig.checkCall args result =
        .error (.arity sig.name sig.params.length args.length)) ∧
    (args.length = sig.params.length →
      ((∃ b, sig.checkCall args result = .ok b) ↔
        ∃ σ, sig.AdmitsArguments σ args ∧ sig.AdmitsResult σ result) ∧
      (∀ b σ, sig.checkCall args result = .ok b →
        sig.AdmitsArguments σ args → sig.AdmitsResult σ result →
        ∀ label n, b.get? label = some n ↔
          (∃ schema ∈ sig.schemasOf result, label ∈ schema.shape.labels) ∧ σ label = n) ∧
      ((¬ ∃ σ, sig.AdmitsArguments σ args) →
        ∃ i param v reason, sig.FirstMisfit args i ∧
          sig.params[i]? = some param ∧ args[i]? = some v ∧
          sig.checkCall args result =
            .error (.argument sig.name param.name ⟨param.schema.text, v.text, reason⟩)) ∧
      ((∃ cause, sig.checkCall args result = .error (.result sig.name cause)) ↔
        (∃ σ, sig.AdmitsArguments σ args) ∧
          ¬ ∃ σ, sig.AdmitsArguments σ args ∧ sig.AdmitsResult σ result)) := by
  constructor
  · intro hne
    exact if_pos hne
  intro hlength
  have hle : args.length ≤ sig.params.length := Nat.le_of_eq hlength
  have hcall : sig.checkCall args result = sig.run .empty (callSteps args result) :=
    if_neg fun hne => hne hlength
  rw [hcall]
  have hblame : (¬ ∃ σ, sig.AdmitsArguments σ args) →
      ∃ i param v reason, sig.FirstMisfit args i ∧
        sig.params[i]? = some param ∧ args[i]? = some v ∧
        sig.run .empty (callSteps args result) =
          .error (.argument sig.name param.name ⟨param.schema.text, v.text, reason⟩) := by
    intro hnone
    obtain ⟨i, hi⟩ := exists_firstMisfit hnone
    obtain ⟨param, v, reason, hparam, hv, hrun⟩ := hi.run_eq_error h hle result
    exact ⟨i, param, v, reason, hi, hparam, hv, hrun⟩
  refine ⟨exists_run_callSteps_iff h hle, ?_, hblame, ?_⟩
  · intro b σ hrun hargs hresult label n
    rw [get?_of_run h hrun, mem_readings_callSteps hlength hargs hresult]
  · constructor
    · rintro ⟨cause, hrun⟩
      refine ⟨?_, fun hboth => ?_⟩
      · by_contra hnone
        obtain ⟨_, _, _, _, _, _, _, hargument⟩ := hblame hnone
        cases hrun.symm.trans hargument
      · obtain ⟨b, hb⟩ := (exists_run_callSteps_iff h hle).mpr hboth
        cases hrun.symm.trans hb
    · rintro ⟨hargs, hmisfit⟩
      exact run_eq_result_error h hle hargs hmisfit

/-- Two matrices that can be multiplied, with a product of the wrong shape: the
    factors are admitted together, but not with the product. -/
theorem checkCall_iff_product :
    product.Declared ∧
      (∃ σ, product.AdmitsArguments σ [matrix 2 3, matrix 3 4]) ∧
        ¬ ∃ σ, product.AdmitsArguments σ [matrix 2 3, matrix 3 4] ∧
          product.AdmitsResult σ (some (matrix 4 2)) := by
  obtain ⟨-, hcall⟩ := checkCall_iff product_declared [matrix 2 3, matrix 3 4] (some (matrix 4 2))
  obtain ⟨-, -, -, hresult⟩ := hcall rfl
  exact ⟨product_declared, hresult.mp ⟨_, rfl⟩⟩

end Signature

end ShapeContracts
