/-
  ShapeContracts/Proofs/Renaming.lean
  ===================================
  **Labels under other names.**

  Which names stand in a declaration does not matter, only which of them are the
  same.  When all labels of a signature and all axis names of the arrays are
  renamed alike, tokens declare the renamed schemas, or are refused as they were
  (`Schema.declare_rename`), and a call is checked step by step as before: with
  the bindings renamed, or for the reason renamed at the same axis.

  Two runs go side by side here.  What is related on the way are the bindings,
  which under the new names hold the same sizes though in another order, and the
  staged ones, which are also met in the same order.  Looking a label up is all
  that is ever done with either, and renamed labels are looked up alike
  (`Bindings.Renamed.get?`, `Staged.Renamed.get?`).

  Built-in details do not look at names, at least not in arrays they refuse
  (`checkDetails_withAxes`).  The text of an array and of a schema does show
  names, so the two texts of a mismatch are those of the renamed array and
  schema.
-/
import Mathlib.Logic.Equiv.Basic
import ShapeContracts.Signature
import ShapeContracts.Proofs.Outcome
import ShapeContracts.Proofs.Retention

namespace ShapeContracts

/-! ### Renamings -/

/-- A new name for every name, different ones for different names.  The word for
    no name and the empty text, which is none, stay what they are. -/
structure Renaming where
  apply : String → String
  injective : Function.Injective apply
  anonymous : apply anonymousWord = anonymousWord
  empty : apply "" = ""

namespace Renaming

instance : CoeFun Renaming fun _ => String → String := ⟨Renaming.apply⟩

/-- Two names change places. -/
def swap (a b : String) (ha : a ≠ anonymousWord ∧ a ≠ "") (hb : b ≠ anonymousWord ∧ b ≠ "") :
    Renaming where
  apply := Equiv.swap a b
  injective := (Equiv.swap a b).injective
  anonymous := Equiv.swap_apply_of_ne_of_ne ha.1.symm hb.1.symm
  empty := Equiv.swap_apply_of_ne_of_ne ha.2.symm hb.2.symm

variable (r : Renaming)

theorem eq_iff {a b : String} : r a = r b ↔ a = b := r.injective.eq_iff

theorem map_eq_map_iff {a b : Option String} : a.map r = b.map r ↔ a = b :=
  (Option.map_injective r.injective).eq_iff

def entry {α : Type} (e : String × α) : String × α := (r e.1, e.2)

theorem lookup_map_entry {α : Type} (entries : List (String × α)) (name : String) :
    (entries.map r.entry).lookup (r name) = entries.lookup name := by
  induction entries with
  | nil => rfl
  | cons e entries ih =>
    obtain ⟨k, a⟩ := e
    rw [List.map_cons, entry, Table.lookup_cons_eq_ite, Table.lookup_cons_eq_ite, ih]
    simp only [r.eq_iff]

end Renaming

/-! ### What is renamed -/

def Dim.rename (r : Renaming) : Dim → Dim
  | .named (.label label) n => .named (.label (r label)) n
  | d => d

def Axis.rename (r : Renaming) (a : Axis) : Axis := { a with name := a.name.map r }

def ArrayView.rename (r : Renaming) (v : ArrayView) : ArrayView :=
  { v with axes := v.axes.map (Axis.rename r) }

def Shape.rename (r : Renaming) (shape : Shape) : Shape :=
  { shape with dims := shape.dims.map (Dim.rename r) }

def Schema.rename (r : Renaming) (schema : Schema) : Schema :=
  { schema with shape := schema.shape.rename r }

/-- The name of a parameter is no label and stays. -/
def Param.rename (r : Renaming) (p : Param) : Param := { p with schema := p.schema.rename r }

def Signature.rename (r : Renaming) (sig : Signature) : Signature :=
  { sig with
    params := sig.params.map (Param.rename r)
    result := sig.result.map (Schema.rename r) }

def CallStep.rename (r : Renaming) : CallStep → CallStep
  | .argument index v => .argument index (v.rename r)
  | .result v => .result (v.rename r)

def Token.rename (r : Renaming) : Token → Token
  | .name label => .name (r label)
  | .sizedName label n => .sizedName (r label) n
  | t => t

def Draft.rename (r : Renaming) (draft : Draft) : Draft :=
  { draft with dims := draft.dims.map (Dim.rename r) }

def Conflict.rename (r : Renaming) (c : Conflict) : Conflict := { c with name := r c.name }

def Reason.rename (r : Renaming) : Reason → Reason
  | .nameConflict name axis bound actual => .nameConflict (r name) axis bound actual
  | .axisName axis expected actual => .axisName axis (expected.map r) (actual.map r)
  | reason => reason

/-- The same mismatch, of the renamed array with the renamed schema. -/
inductive Mismatch.Renamed (r : Renaming) : Mismatch → Mismatch → Prop
  | intro (schema : Schema) (v : ArrayView) (reason : Reason) :
      Renamed r ⟨schema.text, v.text, reason⟩
        ⟨(schema.rename r).text, (v.rename r).text, reason.rename r⟩

theorem Mismatch.Renamed.reason_eq {r : Renaming} {m m' : Mismatch} (h : m.Renamed r m') :
    m'.reason = m.reason.rename r := by
  cases h
  rfl

/-- The same error of a call, with the mismatch renamed. -/
inductive CallError.Renamed (r : Renaming) : CallError → CallError → Prop
  | arity (function : String) (expected actual : Nat) :
      Renamed r (.arity function expected actual) (.arity function expected actual)
  | unknownParameter (function : String) (index : Nat) :
      Renamed r (.unknownParameter function index) (.unknownParameter function index)
  | argument (function param : String) {m m' : Mismatch} :
      m.Renamed r m' → Renamed r (.argument function param m) (.argument function param m')
  | result (function : String) {m m' : Mismatch} :
      m.Renamed r m' → Renamed r (.result function m) (.result function m')

variable {r : Renaming}

/-! ### Declarations -/

theorem Dim.isEllipsis_rename (d : Dim) : (d.rename r).isEllipsis = d.isEllipsis := by
  cases d with
  | named name n => cases name <;> rfl
  | _ => rfl

theorem Dim.any_isEllipsis_rename (dims : List Dim) :
    (dims.map (Dim.rename r)).any Dim.isEllipsis = dims.any Dim.isEllipsis := by
  rw [List.any_map]
  exact congrArg dims.any (funext Dim.isEllipsis_rename)

/-- A name stands for the renamed descriptor, since it stays a label. -/
theorem Dim.ofName_rename (name : String) (n : Option Size) :
    Dim.ofName (r name) n = (Dim.ofName name n).map (Dim.rename r) := by
  have hempty : r name = "" ↔ name = "" := by
    rw [← r.eq_iff (a := name), r.empty]
  have hanonymous : r name = anonymousWord ↔ name = anonymousWord := by
    rw [← r.eq_iff (a := name), r.anonymous]
  simp only [ofName, hempty, hanonymous]
  split
  · rfl
  · split <;> rfl

namespace Draft

variable (draft : Draft)

theorem addDim_rename (d : Dim) :
    (draft.rename r).addDim (d.rename r) = (draft.addDim d).rename r := by
  simp only [addDim, rename, List.map_append, List.map_singleton]

theorem map_addDim_rename {ε : Type} (outcome : Except ε Dim) :
    (outcome.map (Dim.rename r)).map (draft.rename r).addDim =
      (outcome.map draft.addDim).map (Draft.rename r) := by
  cases outcome with
  | error e => rfl
  | ok d => exact congrArg Except.ok (draft.addDim_rename d)

theorem addEllipsis_rename :
    (draft.rename r).addEllipsis = draft.addEllipsis.map (Draft.rename r) := by
  have hdims : (draft.rename r).dims = draft.dims.map (Dim.rename r) := rfl
  simp only [addEllipsis, hdims, Dim.any_isEllipsis_rename, ne_eq, List.map_eq_nil_iff,
    List.length_map]
  split
  · rfl
  · split
    · rfl
    · exact congrArg Except.ok (draft.addDim_rename .ellipsis)

theorem keepDetail_rename (d : Detail) :
    (draft.rename r).keepDetail d = (draft.keepDetail d).map (Draft.rename r) := by
  have hholder : ∀ key, (draft.rename r).holder? key = draft.holder? key := fun _ => rfl
  unfold keepDetail
  cases d.key with
  | none => rfl
  | some key =>
    dsimp only
    rw [hholder]
    cases draft.holder? key with
    | none => rfl
    | some held => dsimp only; split <;> rfl

theorem addDetail_rename (caps : Capabilities) (d : Detail) :
    (draft.rename r).addDetail caps d = (draft.addDetail caps d).map (Draft.rename r) := by
  unfold addDetail
  split
  · rfl
  · rw [keepDetail_rename]
    cases draft.keepDetail d <;> rfl

/-- A renamed token does to a renamed draft what the token does to the draft. -/
theorem add_rename (caps : Capabilities) (t : Token) :
    (draft.rename r).add caps (t.rename r) = (draft.add caps t).map (Draft.rename r) := by
  cases t with
  | size n =>
    have hsize : (Dim.ofSigned n).map (Dim.rename r) = Dim.ofSigned n := by
      unfold Dim.ofSigned
      split
      · rfl
      · split <;> rfl
    exact (congrArg _ hsize.symm).trans (draft.map_addDim_rename (Dim.ofSigned n))
  | wildcard => exact congrArg Except.ok (draft.addDim_rename .wildcard)
  | ellipsis => exact draft.addEllipsis_rename
  | name name =>
    change (Dim.ofName (r name) none).map (draft.rename r).addDim = _
    rw [Dim.ofName_rename]
    exact draft.map_addDim_rename _
  | sizedName name n =>
    change (Dim.ofName (r name) (some n)).map (draft.rename r).addDim = _
    rw [Dim.ofName_rename]
    exact draft.map_addDim_rename _
  | anonymous n => exact congrArg Except.ok (draft.addDim_rename (.named .anonymous n))
  | dtype t => exact draft.keepDetail_rename (.dtype (.exact t))
  | kind k => exact draft.keepDetail_rename (.dtype (.kind k))
  | layout l =>
    change (Detail.layoutFor caps l).bind (draft.rename r).keepDetail =
      ((Detail.layoutFor caps l).bind draft.keepDetail).map (Draft.rename r)
    unfold Detail.layoutFor
    split
    · exact draft.keepDetail_rename (.layout l)
    · rfl
  | isFloat => exact draft.keepDetail_rename .float
  | isNamed => exact draft.addDetail_rename caps .named
  | detail d => exact draft.addDetail_rename caps d
  | anyRank => rfl
  | scalar => rfl

theorem foldlM_add_rename (caps : Capabilities) (tokens : List Token) :
    (tokens.map (Token.rename r)).foldlM (Draft.add caps) (draft.rename r) =
      (tokens.foldlM (Draft.add caps) draft).map (Draft.rename r) := by
  induction tokens generalizing draft with
  | nil => rfl
  | cons t tokens ih =>
    rw [List.map_cons, List.foldlM_cons, List.foldlM_cons, add_rename]
    cases draft.add caps t with
    | error e => rfl
    | ok next => exact ih next

theorem finish_rename : (draft.rename r).finish = draft.finish.map (Schema.rename r) := by
  simp only [finish, rename, ne_eq, List.map_eq_nil_iff, List.isEmpty_map]
  split
  · rfl
  · split <;> rfl

end Draft

/-- **Renamed tokens declare the renamed schema**, or are refused alike. -/
theorem Schema.declare_rename (r : Renaming) (caps : Capabilities) (tokens : List Token) :
    Schema.declare caps (tokens.map (Token.rename r)) =
      (Schema.declare caps tokens).map (Schema.rename r) := by
  have htokens := Draft.empty.foldlM_add_rename (r := r) caps tokens
  have hempty : Draft.empty.rename r = Draft.empty := rfl
  unfold declare
  rw [hempty] at htokens
  rw [htokens]
  cases tokens.foldlM (Draft.add caps) .empty with
  | error e => rfl
  | ok draft => exact draft.finish_rename

/-! ### Bindings -/

/-- Bindings with the same sizes under the new names, in whatever order those
    are listed. -/
def Bindings.Renamed (r : Renaming) (b b' : Bindings) : Prop :=
  b'.entries.Perm (b.entries.map r.entry)

namespace Bindings.Renamed

variable {b b' : Bindings}

theorem empty (r : Renaming) : Renamed r .empty .empty := .refl _

theorem get? (h : Renamed r b b') (name : String) : b'.get? (r name) = b.get? name := by
  refine Option.ext fun n => ?_
  rw [Table.get?_eq_some_iff_mem, Table.get?_eq_some_iff_mem, h.mem_iff, List.mem_map]
  constructor
  · rintro ⟨e, he, heq⟩
    obtain ⟨hname, rfl⟩ := Prod.mk.inj heq
    rwa [← r.injective hname]
  · intro hmem
    exact ⟨(name, n), hmem, rfl⟩

/-- A label that is not bound may be put. -/
theorem put (h : Renamed r b b') {name : String} (hnone : b.get? name = none) (n : Size) :
    Renamed r (b.put name n) (b'.put (r name) n) := by
  have hnone' : b'.get? (r name) = none := (h.get? name).trans hnone
  have hput : (b.put name n).entries.Perm ((name, n) :: b.entries) := putEntry_perm hnone
  have hput' : (b'.put (r name) n).entries.Perm ((r name, n) :: b'.entries) :=
    putEntry_perm hnone'
  have hcons : ((r name, n) :: b'.entries).Perm (((name, n) :: b.entries).map r.entry) :=
    h.cons (r name, n)
  exact (hput'.trans hcons).trans (hput.map r.entry).symm

theorem commit (h : Renamed r b b') (fresh : List (String × Size)) :
    Renamed r (b.commit fresh) (b'.commit (fresh.map r.entry)) := by
  induction fresh generalizing b b' with
  | nil => exact h
  | cons e fresh ih =>
    have hget : b'.get? (r.entry e).1 = b.get? e.1 := h.get? e.1
    rw [List.map_cons]
    simp only [Bindings.commit, List.foldl_cons, hget]
    split
    · exact ih h
    · next hnone =>
      exact ih (h.put (Option.not_isSome_iff_eq_none.mp hnone) e.2)

end Bindings.Renamed

/-- Staged bindings under the new names, in the order in which they were met. -/
structure Staged.Renamed (r : Renaming) (s s' : Staged) : Prop where
  base : Bindings.Renamed r s.base s'.base
  fresh : s'.fresh = s.fresh.map r.entry

namespace Staged.Renamed

variable {s s' : Staged}

theorem get? (h : Renamed r s s') (name : String) : s'.get? (r name) = s.get? name := by
  rw [Staged.get?, Staged.get?, h.base.get?, h.fresh, r.lookup_map_entry]

/-- To bind a label aside is to bind the renamed label there. -/
theorem bind (h : Renamed r s s') (name : String) (n : Size) :
    Corresponds (fun c c' => c' = c.rename r) (Renamed r) (s.bind name n)
      (s'.bind (r name) n) := by
  rw [Staged.bind, Staged.bind, h.get?]
  cases s.get? name with
  | none =>
    refine .ok ⟨h.base, ?_⟩
    rw [h.fresh, List.map_append]
    rfl
  | some bound =>
    dsimp only
    split
    · exact .ok h
    · exact .error rfl

end Staged.Renamed

/-! ### Axes -/

namespace Dim

variable {s s' : Staged}

theorem checkSize_rename (axis : Nat) (n : Size) (h : s.Renamed r s') (d : Dim) :
    Corresponds (fun e e' => e' = e.rename r) (Staged.Renamed r) (d.checkSize axis n s)
      ((d.rename r).checkSize axis n s') := by
  cases d with
  | wildcard => exact .ok h
  | ellipsis => exact .ok h
  | fixed m =>
    simp only [rename, checkSize]
    split
    · exact .ok h
    · exact .error rfl
  | named name declared =>
    cases name with
    | anonymous =>
      simp only [rename, checkSize]
      split
      · -- the word for no name is its own new name
        exact .error (congrArg (Reason.nameConflict · _ _ _) r.anonymous.symm)
      · exact .ok h
    | label label =>
      simp only [rename, checkSize]
      split
      · exact .error rfl
      · refine (h.bind label n).mapError ?_
        rintro c c' rfl
        rfl

theorem expectedName?_rename (d : Dim) :
    (d.rename r).expectedName? = d.expectedName?.map (Option.map r) := by
  cases d with
  | named name n => cases name <;> rfl
  | _ => rfl

theorem checkName_rename (axis : Nat) (name : Option String) (d : Dim) :
    (d.rename r).checkName axis (name.map r) =
      (d.checkName axis name).mapError (Reason.rename r) := by
  rw [checkName, checkName, expectedName?_rename]
  cases d.expectedName? with
  | none => rfl
  | some expected =>
    simp only [Option.map_some, r.map_eq_map_iff]
    split <;> rfl

theorem checkAxis_rename (checkNames : Bool) (axis : Nat) (a : Axis) (h : s.Renamed r s')
    (d : Dim) :
    Corresponds (fun e e' => e' = e.rename r) (Staged.Renamed r)
      (d.checkAxis checkNames axis a s)
      ((d.rename r).checkAxis checkNames axis (a.rename r) s') := by
  refine (d.checkSize_rename axis a.size h).bind ?_
  intro t t' ht
  cases checkNames with
  | false => exact .ok ht
  | true =>
    have hname := d.checkName_rename (r := r) axis a.name
    simp only [if_true, Axis.rename, hname]
    cases d.checkName axis a.name with
    | ok u => exact .ok ht
    | error reason => exact .error rfl

end Dim

theorem checkAxes_rename (checkNames : Bool) (dims : List Dim) (axes : List Axis)
    {s s' : Staged} (h : s.Renamed r s') :
    Corresponds (fun e e' => e' = e.rename r) (Staged.Renamed r)
      (checkAxes checkNames dims axes s)
      (checkAxes checkNames (dims.map (Dim.rename r)) (axes.map (Axis.rename r)) s') := by
  induction dims generalizing axes s s' with
  | nil => exact .ok h
  | cons d dims ih =>
    cases axes with
    | nil =>
      cases d with
      | named name n => cases name <;> exact .ok h
      | _ => exact .ok h
    | cons a axes =>
      have hstep : Corresponds (fun e e' => e' = e.rename r) (Staged.Renamed r)
          ((d.checkAxis checkNames axes.length a s).bind (checkAxes checkNames dims axes))
          (((d.rename r).checkAxis checkNames (axes.map (Axis.rename r)).length
            (a.rename r) s').bind (checkAxes checkNames (dims.map (Dim.rename r))
              (axes.map (Axis.rename r)))) := by
        rw [List.length_map]
        exact (d.checkAxis_rename checkNames axes.length a h).bind fun t t' ht => ih axes ht
      cases d with
      | ellipsis => exact .ok h
      | named name n => cases name <;> exact hstep
      | _ => exact hstep

/-! ### Arrays -/

theorem Shape.rankRule_rename (shape : Shape) : (shape.rename r).rankRule = shape.rankRule := by
  have hellipsis : (shape.rename r).hasEllipsis = shape.hasEllipsis :=
    Dim.any_isEllipsis_rename shape.dims
  have hcount : (shape.rename r).explicitCount = shape.explicitCount := by
    simp only [explicitCount, rename, List.filter_map, List.length_map, Function.comp_def,
      Dim.isEllipsis_rename]
  rw [rankRule, rankRule, hellipsis, hcount]

theorem ArrayView.rank_rename (v : ArrayView) : (v.rename r).rank = v.rank := List.length_map _

theorem Shape.check_rename (shape : Shape) (v : ArrayView) {s s' : Staged}
    (h : s.Renamed r s') :
    Corresponds (fun e e' => e' = e.rename r) (Staged.Renamed r) (shape.check v s)
      ((shape.rename r).check (v.rename r) s') := by
  have hopen : (shape.rename r).isOpen = shape.isOpen := rfl
  have hnames : (shape.rename r).checkNames = shape.checkNames := rfl
  have hnamed : (v.rename r).namedAxes = v.namedAxes := rfl
  have hdims : (shape.rename r).dims.reverse = shape.dims.reverse.map (Dim.rename r) :=
    List.map_reverse.symm
  have haxes : (v.rename r).axes.reverse = v.axes.reverse.map (Axis.rename r) :=
    List.map_reverse.symm
  simp only [check, hopen, hnames, hnamed, hdims, haxes, shape.rankRule_rename, v.rank_rename]
  split
  · exact .ok h
  split
  · exact .error rfl
  split
  · exact .error rfl
  · exact checkAxes_rename _ _ _ h

namespace Schema

variable {schema : Schema} {b b' : Bindings}

theorem check_rename (hbuiltIn : ∀ d ∈ schema.details, d.BuiltIn) (v : ArrayView)
    {s s' : Staged} (h : s.Renamed r s') :
    Corresponds (fun e e' => e' = e.rename r) (Staged.Renamed r) (schema.check v s)
      ((schema.rename r).check (v.rename r) s') := by
  refine (schema.shape.check_rename v h).bind ?_
  intro t t' ht
  have hdetails : checkDetails (schema.rename r).details (v.rename r) =
      checkDetails schema.details v := checkDetails_withAxes hbuiltIn v _
  rw [hdetails]
  unfold checkDetails
  cases schema.details.find? fun d => !d.accepts v with
  | none => exact .ok ht
  | some d => exact .error rfl

/-- A renamed array matches the renamed schema as the array matches the schema. -/
theorem matchArray_rename (hbuiltIn : ∀ d ∈ schema.details, d.BuiltIn) (v : ArrayView)
    (h : b.Renamed r b') :
    Corresponds (Mismatch.Renamed r) (Bindings.Renamed r) (schema.matchArray b v)
      ((schema.rename r).matchArray b' (v.rename r)) := by
  have hstaged : b.stage.Renamed r b'.stage := ⟨h, rfl⟩
  have hcheck := check_rename hbuiltIn v hstaged
  have hkeeps := schema.keepsBase_check v b.stage
  have hkeeps' := (schema.rename r).keepsBase_check (v.rename r) b'.stage
  unfold matchArray
  revert hcheck hkeeps hkeeps'
  generalize schema.check v b.stage = outcome
  generalize (schema.rename r).check (v.rename r) b'.stage = outcome'
  intro hcheck hkeeps hkeeps'
  cases hcheck with
  | error heq =>
    cases heq
    exact .error (.intro schema v _)
  | ok hs =>
    refine .ok ?_
    rw [hs.fresh]
    exact h.commit _

end Schema

/-! ### Calls -/

namespace Signature

variable {sig : Signature} {b b' : Bindings}

/-- All details of the schemas are built in. -/
structure BuiltIn (sig : Signature) : Prop where
  params : ∀ p ∈ sig.params, ∀ d ∈ p.schema.details, d.BuiltIn
  result : ∀ schema ∈ sig.result, ∀ d ∈ schema.details, d.BuiltIn

theorem step_rename (hbuiltIn : sig.BuiltIn) (step : CallStep) (h : b.Renamed r b') :
    Corresponds (CallError.Renamed r) (Bindings.Renamed r) (sig.step b step)
      ((sig.rename r).step b' (step.rename r)) := by
  cases step with
  | argument index v =>
    simp only [CallStep.rename, Signature.step, checkArgument, rename, List.getElem?_map]
    cases hparam : sig.params[index]? with
    | none => exact .error (.unknownParameter _ _)
    | some param =>
      have hdetails := hbuiltIn.params param (List.mem_of_getElem? hparam)
      refine (Schema.matchArray_rename hdetails v h).mapError ?_
      intro m m' hm
      exact .argument _ _ hm
  | result v =>
    simp only [CallStep.rename, Signature.step, checkResult, rename]
    cases hresult : sig.result with
    | none => exact .ok h
    | some schema =>
      refine (Schema.matchArray_rename (hbuiltIn.result schema hresult) v h).mapError ?_
      intro m m' hm
      exact .result _ hm

theorem run_rename (hbuiltIn : sig.BuiltIn) (steps : List CallStep) (h : b.Renamed r b') :
    Corresponds (CallError.Renamed r) (Bindings.Renamed r) (sig.run b steps)
      ((sig.rename r).run b' (steps.map (CallStep.rename r))) :=
  Corresponds.foldlM (fun _ _ step _ hb => step_rename hbuiltIn step hb) h

theorem callSteps_rename (args : List ArrayView) (result : Option ArrayView) :
    callSteps (args.map (ArrayView.rename r)) (result.map (ArrayView.rename r)) =
      (callSteps args result).map (CallStep.rename r) := by
  have hargs : ((args.map (ArrayView.rename r)).zipIdx.map fun a => CallStep.argument a.2 a.1) =
      (args.zipIdx.map fun a => CallStep.argument a.2 a.1).map (CallStep.rename r) := by
    rw [List.zipIdx_map, List.map_map, List.map_map]
    rfl
  rw [callSteps, callSteps, List.map_append, hargs]
  cases result <;> rfl

theorem checkCall_rename (hbuiltIn : sig.BuiltIn) (args : List ArrayView)
    (result : Option ArrayView) :
    Corresponds (CallError.Renamed r) (Bindings.Renamed r) (sig.checkCall args result)
      ((sig.rename r).checkCall (args.map (ArrayView.rename r))
        (result.map (ArrayView.rename r))) := by
  have hparams : (sig.rename r).params.length = sig.params.length := List.length_map _
  have hname : (sig.rename r).name = sig.name := rfl
  simp only [checkCall, hparams, hname, List.length_map, callSteps_rename]
  split
  · exact .error (.arity _ _ _)
  · exact run_rename hbuiltIn _ (.empty r)

end Signature

/-! ### Signatures by their tokens -/

/-- Tokens, and the library that they are meant for. -/
structure SchemaTokens where
  capabilities : Capabilities
  tokens : List Token

structure ParamTokens where
  name : String
  schema : SchemaTokens

/-- The tokens of each schema of a signature. -/
structure SignatureTokens where
  name : String
  params : List ParamTokens
  result : Option SchemaTokens

namespace SchemaTokens

def declare (s : SchemaTokens) : Except DeclarationError Schema :=
  Schema.declare s.capabilities s.tokens

def rename (r : Renaming) (s : SchemaTokens) : SchemaTokens :=
  { s with tokens := s.tokens.map (Token.rename r) }

/-- All details are built in, whichever token they come from. -/
def BuiltIn (s : SchemaTokens) : Prop := ∀ d ∈ Token.details s.tokens, d.BuiltIn

theorem declare_rename (s : SchemaTokens) :
    (s.rename r).declare = s.declare.map (Schema.rename r) :=
  Schema.declare_rename r s.capabilities s.tokens

end SchemaTokens

namespace ParamTokens

def declare (p : ParamTokens) : Except DeclarationError Param :=
  p.schema.declare.map (Param.mk p.name)

def rename (r : Renaming) (p : ParamTokens) : ParamTokens :=
  { p with schema := p.schema.rename r }

theorem declare_rename (p : ParamTokens) :
    (p.rename r).declare = p.declare.map (Param.rename r) := by
  simp only [declare, rename, SchemaTokens.declare_rename]
  cases p.schema.declare <;> rfl

end ParamTokens

namespace SignatureTokens

/-- Declare the schemas of the parameters in order, and then that of the result. -/
def declare (t : SignatureTokens) : Except DeclarationError Signature :=
  (t.params.mapM ParamTokens.declare).bind fun params =>
    (t.result.mapM SchemaTokens.declare).map fun result => ⟨t.name, params, result⟩

def rename (r : Renaming) (t : SignatureTokens) : SignatureTokens :=
  { t with
    params := t.params.map (ParamTokens.rename r)
    result := t.result.map (SchemaTokens.rename r) }

structure BuiltIn (t : SignatureTokens) : Prop where
  params : ∀ p ∈ t.params, p.schema.BuiltIn
  result : ∀ s ∈ t.result, s.BuiltIn

variable {t : SignatureTokens}

theorem declare_rename (r : Renaming) (t : SignatureTokens) :
    (t.rename r).declare = t.declare.map (Signature.rename r) := by
  have hparams := mapM_map_eq_map_mapM (ParamTokens.declare_rename (r := r)) t.params
  have hresult : (t.result.map (SchemaTokens.rename r)).mapM SchemaTokens.declare =
      (t.result.mapM SchemaTokens.declare).map (Option.map (Schema.rename r)) := by
    cases t.result with
    | none => rfl
    | some s =>
      change (s.rename r).declare.map some = (s.declare.map some).map _
      rw [s.declare_rename]
      cases s.declare <;> rfl
  simp only [declare, rename, hparams, hresult]
  cases t.params.mapM ParamTokens.declare with
  | error e => rfl
  | ok params => cases t.result.mapM SchemaTokens.declare <;> rfl

theorem builtIn_of_declare (hbuiltIn : t.BuiltIn) {sig : Signature}
    (h : t.declare = .ok sig) : sig.BuiltIn := by
  unfold declare at h
  obtain ⟨params, hparams, h⟩ := bind_eq_ok_iff.mp h
  obtain ⟨result, hresult, rfl⟩ := map_eq_ok_iff.mp h
  constructor
  · intro q hq
    obtain ⟨p, hp, hdeclare⟩ := exists_of_mem_mapM hparams hq
    obtain ⟨schema, hschema, rfl⟩ := map_eq_ok_iff.mp hdeclare
    exact Schema.builtIn_of_declare hschema (hbuiltIn.params p hp)
  · intro schema hschema
    cases hschema
    cases hs : t.result with
    | none =>
      rw [hs] at hresult
      cases hresult
    | some s =>
      rw [hs] at hresult
      obtain ⟨schema', hdeclare, hsame⟩ := map_eq_ok_iff.mp hresult
      cases hsame
      exact Schema.builtIn_of_declare hdeclare (hbuiltIn.result s hs)

/-- **Labels matter only up to renaming.**  Where tokens with built-in details
    declare a signature, the renamed tokens declare one as well.  It checks a
    call with renamed arrays as the first one checks the call: both succeed, and
    the bindings are those of the first renamed, or both fail with the same error
    at the same parameter, for the reason renamed.  And so it is after any number
    of the steps of the call, so that both fail at the same step. -/
theorem renamed_call_corresponds (r : Renaming) (hbuiltIn : t.BuiltIn) {sig : Signature}
    (h : t.declare = .ok sig) :
    ∃ sig', (t.rename r).declare = .ok sig' ∧
      ∀ (args : List ArrayView) (result : Option ArrayView),
        Corresponds (CallError.Renamed r) (Bindings.Renamed r) (sig.checkCall args result)
          (sig'.checkCall (args.map (ArrayView.rename r)) (result.map (ArrayView.rename r))) ∧
        ∀ k, Corresponds (CallError.Renamed r) (Bindings.Renamed r)
          (sig.run .empty ((Signature.callSteps args result).take k))
          (sig'.run .empty ((Signature.callSteps (args.map (ArrayView.rename r))
            (result.map (ArrayView.rename r))).take k)) := by
  have hsig := builtIn_of_declare hbuiltIn h
  refine ⟨sig.rename r, ?_, ?_⟩
  · rw [declare_rename, h]
    rfl
  · intro args result
    refine ⟨Signature.checkCall_rename hsig args result, ?_⟩
    intro k
    rw [Signature.callSteps_rename, ← List.map_take]
    exact Signature.run_rename hsig _ (.empty r)

/-- A product with named axes whose result has too many rows.  The label `n` comes
    last among its names and its new name `a` would come first; the result is blamed
    all the same, for `a`. -/
theorem renamed_call_corresponds_product :
    let r : Renaming := .swap "n" "a" (by decide) (by decide)
    let schema (rows columns : String) : SchemaTokens :=
      ⟨.full, [.name rows, .name columns, .isNamed]⟩
    let t : SignatureTokens :=
      ⟨"product", [⟨"x", schema "n" "k"⟩, ⟨"y", schema "k" "m"⟩], some (schema "n" "m")⟩
    let matrix (rows columns : Size) (row column : String) : ArrayView :=
      ⟨[⟨rows, some row⟩, ⟨columns, some column⟩], .f32, true, none⟩
    ∃ sig, t.BuiltIn ∧ t.declare = .ok sig ∧
      ∃ sig' m, (t.rename r).declare = .ok sig' ∧
        sig'.checkCall [matrix 2 3 "a" "k", matrix 3 4 "k" "m"] (some (matrix 5 4 "a" "m")) =
          .error (.result "product" m) ∧
        m.reason = .nameConflict "a" 0 2 5 := by
  intro r schema t matrix
  have hschema : ∀ rows columns, (schema rows columns).BuiltIn := by
    intro rows columns d hd
    cases List.mem_singleton.mp hd
    exact .named
  have hbuiltIn : t.BuiltIn := by
    constructor
    · intro p hp
      simp only [t, List.mem_cons, List.not_mem_nil, or_false] at hp
      rcases hp with rfl | rfl <;> exact hschema _ _
    · intro s hs
      cases hs
      exact hschema _ _
  refine ⟨_, hbuiltIn, rfl, ?_⟩
  obtain ⟨sig', hdeclare', hcalls⟩ := renamed_call_corresponds r hbuiltIn rfl
  have hcall := (hcalls [matrix 2 3 "n" "k", matrix 3 4 "k" "m"] (some (matrix 5 4 "n" "m"))).1
  have hnames : r "n" = "a" ∧ r "k" = "k" ∧ r "m" = "m" := by decide
  simp only [matrix, List.map, Option.map, ArrayView.rename, Axis.rename, hnames] at hcall
  -- the first call fails for the result, and therefore the renamed one does
  rw [show Signature.checkCall _ _ _ = .error (.result "product" ⟨_, _, .nameConflict "n" 0 2 5⟩)
    from rfl] at hcall
  generalize houtcome : sig'.checkCall _ _ = outcome at hcall
  cases hcall with
  | error herror =>
    cases herror with
    | result _ hmismatch =>
      have hreason := hmismatch.reason_eq
      rw [Reason.rename, hnames.1] at hreason
      exact ⟨sig', _, hdeclare', houtcome, hreason⟩

end SignatureTokens

end ShapeContracts
