/-
  ShapeContracts/Proofs/Building.lean
  ===================================
  **Building a manifest.**

  A manifest is built all at once or not at all.  Its declarations, one list of
  tokens for each parameter and each result, stand in an order
  (`Manifest.declarations`), and the error is that of the first with a fault.

  What is a fault of one declaration does not depend on the others.  Either a
  detail is not registered, and then the first of those is named whatever else is
  wrong with the list, or the tokens that the list stands for declare no schema.
  Which those are is told form by form (`WrittenToken.Denotes`).

  Three traversals are nested here, over functions, over their declarations and
  over tokens, and all three stop at the first fault.  So one notion serves for
  all of them: each is shown to blame it (`Registry.blames_tokens`,
  `FunctionDeclaration.blames_build`, `Manifest.blames_build`).  A declaration
  has one fault at most (`Declaration.Fault.unique`), so this says which error it
  is.
-/
import ShapeContracts.Manifest
import ShapeContracts.Proofs.Blame
import ShapeContracts.Proofs.Outcome

namespace ShapeContracts

/-! ### Entries side by side -/

section Entries

variable {α β : Type} {related : String → α → β → Prop} {xs : List (String × α)}
  {ys : List (String × β)}

theorem names_eq_of_forall₂
    (h : List.Forall₂ (fun x y => y.1 = x.1 ∧ related x.1 x.2 y.2) xs ys) :
    ys.map Prod.fst = xs.map Prod.fst := by
  induction h with
  | nil => rfl
  | cons hxy _ ih => rw [List.map_cons, List.map_cons, hxy.1, ih]

/-- Where one list has an entry the other has one as well, and they are
    related. -/
theorem rel_lookup_of_forall₂
    (h : List.Forall₂ (fun x y => y.1 = x.1 ∧ related x.1 x.2 y.2) xs ys) (name : String) :
    Option.Rel (related name) (xs.lookup name) (ys.lookup name) := by
  induction h with
  | nil => exact .none
  | @cons x y _ _ hxy _ ih =>
    obtain ⟨k, a⟩ := x
    obtain ⟨k', b⟩ := y
    obtain ⟨rfl, hab⟩ := hxy
    rw [Table.lookup_cons_eq_ite, Table.lookup_cons_eq_ite]
    split
    next heq =>
      subst heq
      exact .some hab
    next => exact ih

end Entries

/-! ### Tokens -/

/-- Which token a written one stands for.  An integer is a size, a name may come
    with one, and a detail is the one registered under its name. -/
inductive WrittenToken.Denotes (registry : Registry) : WrittenToken → Token → Prop
  | wildcard : Denotes registry (.keyword .wildcard) .wildcard
  | ellipsis : Denotes registry (.keyword .ellipsis) .ellipsis
  | unnamed : Denotes registry (.keyword .anonymous) (.anonymous none)
  | isFloat : Denotes registry (.keyword .isFloat) .isFloat
  | isNamed : Denotes registry (.keyword .isNamed) .isNamed
  | anyRank : Denotes registry (.keyword .anyRank) .anyRank
  | scalar : Denotes registry (.keyword .scalar) .scalar
  | integer (n : Int64) : Denotes registry (.integer n) (.size n)
  | size (n : Int64) : Denotes registry (.size n) (.size n)
  | name (label : String) : Denotes registry (.name label none) (.name label)
  | sizedName (label : String) (n : Size) :
      Denotes registry (.name label (some n)) (.sizedName label n)
  | anonymous (n : Size) : Denotes registry (.anonymous n) (.anonymous (some n))
  | dtype (t : ElementType) : Denotes registry (.dtype t) (.dtype t)
  | kind (k : ElementKind) : Denotes registry (.kind k) (.kind k)
  | layout (l : Layout) : Denotes registry (.layout l) (.layout l)
  | detail {label : String} {d : Detail} : registry.get? label = some d →
      Denotes registry (.detail label) (.detail d)

theorem WrittenToken.token_eq_ok_iff {registry : Registry} {w : WrittenToken} {t : Token} :
    w.token registry = .ok t ↔ w.Denotes registry t := by
  constructor
  · intro h
    cases w with
    | keyword k => cases k <;> cases h <;> constructor
    | name label n => cases n <;> cases h <;> constructor
    | detail label =>
      simp only [token] at h
      cases hget : registry.get? label with
      | none => simp [hget] at h
      | some d =>
        rw [hget] at h
        cases h
        exact .detail hget
    | _ => cases h; constructor
  · intro h
    cases h with
    | detail hget => simp only [token, hget]
    | _ => rfl

namespace Registry

/-- Written tokens stand for tokens, each for one. -/
def Resolves (registry : Registry) (written : List WrittenToken) (tokens : List Token) : Prop :=
  List.Forall₂ (WrittenToken.Denotes registry) written tokens

/-- A written token is a detail that is not registered. -/
def Lacks (registry : Registry) (w : WrittenToken) (e : UnknownDetail) : Prop :=
  w = .detail e.name ∧ registry.get? e.name = none

/-- Written tokens declare a schema when those they stand for do. -/
def Declares (registry : Registry) (caps : Capabilities) (written : List WrittenToken)
    (schema : Schema) : Prop :=
  ∃ tokens, registry.Resolves written tokens ∧ Schema.declare caps tokens = .ok schema

variable {registry : Registry} {caps : Capabilities} {written : List WrittenToken}
  {tokens : List Token}

theorem resolves_iff : registry.Resolves written tokens ↔
    written.mapM (WrittenToken.token registry) = .ok tokens := by
  simp only [mapM_eq_ok_iff, WrittenToken.token_eq_ok_iff, Resolves]

theorem Lacks.unique (w : WrittenToken) (e₁ e₂ : UnknownDetail) (h₁ : registry.Lacks w e₁)
    (h₂ : registry.Lacks w e₂) : e₁ = e₂ := by
  obtain ⟨name⟩ := e₁
  obtain ⟨rfl, -⟩ := h₁
  cases h₂.1
  rfl

theorem blames_token (registry : Registry) (w : WrittenToken) :
    Blames registry.Lacks [w] (w.token registry) := by
  have hholds : (∀ label, w = .detail label → (registry.get? label).isSome = true) →
      Faultless registry.Lacks [w] := by
    intro hregistered
    rw [faultless_singleton]
    rintro e ⟨hw, hnone⟩
    have hsome := hregistered e.name hw
    rw [hnone] at hsome
    cases hsome
  cases w with
  | detail label =>
    simp only [WrittenToken.token]
    cases hget : registry.get? label with
    | none => exact FirstFault.head ⟨rfl, hget⟩
    | some d =>
      refine hholds fun other hother => ?_
      cases hother
      rw [hget]
      rfl
  | name label n => cases n <;> exact hholds fun _ h => by cases h
  | _ => exact hholds fun _ h => by cases h

theorem blames_tokens (registry : Registry) (written : List WrittenToken) :
    Blames registry.Lacks written (written.mapM (WrittenToken.token registry)) := by
  have hall := Blames.mapM fun w (_ : w ∈ written) => registry.blames_token w
  rwa [List.flatMap_singleton'] at hall

theorem Resolves.faultless (h : registry.Resolves written tokens) :
    Faultless registry.Lacks written := by
  have hlacks := registry.blames_tokens written
  rwa [resolves_iff.mp h] at hlacks

theorem Resolves.unique {tokens₁ tokens₂ : List Token} (h₁ : registry.Resolves written tokens₁)
    (h₂ : registry.Resolves written tokens₂) : tokens₁ = tokens₂ :=
  Except.ok.inj ((resolves_iff.mp h₁).symm.trans (resolves_iff.mp h₂))

end Registry

/-! ### Declarations -/

/-- A list of written tokens and where it stands. -/
structure Declaration where
  site : Site
  tokens : List WrittenToken

/-- What can be wrong with a declaration. -/
inductive Declaration.Fault (registry : Registry) (caps : Capabilities) :
    Declaration → ManifestError → Prop
  /-- The first detail that is not registered. -/
  | unknownDetail {d : Declaration} {e : UnknownDetail} :
      FirstFault registry.Lacks d.tokens e →
      Fault registry caps d (.unknownDetail d.site e.name)
  /-- The details are all registered, but the tokens declare no schema. -/
  | declaration {d : Declaration} {tokens : List Token} {cause : DeclarationError} :
      registry.Resolves d.tokens tokens → Schema.declare caps tokens = .error cause →
      Fault registry caps d (.declaration d.site cause)

section Schemas

variable {registry : Registry} {caps : Capabilities} {site : Site} {written : List WrittenToken}

theorem buildSchema_of_error {e : UnknownDetail}
    (h : written.mapM (WrittenToken.token registry) = .error e) :
    buildSchema registry caps site written = .error (.unknownDetail site e.name) := by
  unfold buildSchema
  rw [h]
  rfl

theorem buildSchema_of_ok {tokens : List Token}
    (h : written.mapM (WrittenToken.token registry) = .ok tokens) :
    buildSchema registry caps site written =
      (Schema.declare caps tokens).mapError (.declaration site) := by
  unfold buildSchema
  rw [h]
  rfl

theorem buildSchema_eq_ok_iff {schema : Schema} :
    buildSchema registry caps site written = .ok schema ↔
      registry.Declares caps written schema := by
  unfold Registry.Declares
  simp only [Registry.resolves_iff]
  cases hwritten : written.mapM (WrittenToken.token registry) with
  | error e => simp [buildSchema_of_error hwritten]
  | ok tokens => simp [buildSchema_of_ok hwritten, mapError_eq_ok_iff]

/-- A schema is built from a declaration, or else its fault is named. -/
theorem blames_buildSchema (registry : Registry) (caps : Capabilities) (d : Declaration) :
    Blames (Declaration.Fault registry caps) [d] (buildSchema registry caps d.site d.tokens) := by
  have hlacks := registry.blames_tokens d.tokens
  cases hwritten : d.tokens.mapM (WrittenToken.token registry) with
  | error e =>
    rw [hwritten] at hlacks
    rw [buildSchema_of_error hwritten]
    exact FirstFault.head (.unknownDetail hlacks)
  | ok tokens =>
    have hresolves : registry.Resolves d.tokens tokens := Registry.resolves_iff.mpr hwritten
    rw [buildSchema_of_ok hwritten]
    cases hdeclare : Schema.declare caps tokens with
    | error cause => exact FirstFault.head (.declaration hresolves hdeclare)
    | ok schema =>
      refine faultless_singleton.mpr fun e he => ?_
      cases he with
      | unknownDetail hfirst => exact hfirst.not_faultless hresolves.faultless
      | declaration hresolves' herror =>
        rw [← hresolves.unique hresolves', hdeclare] at herror
        cases herror

end Schemas

/-! ### Functions -/

namespace FunctionDeclaration

/-- The declarations of a function: its parameters in order, then its result. -/
def declarations (name : String) (f : FunctionDeclaration) : List Declaration :=
  f.params.map (fun p => ⟨⟨name, p.name⟩, p.tokens⟩) ++
    (f.result.map fun tokens => ⟨⟨name, resultLabel⟩, tokens⟩).toList

/-- A signature is that of a declared function: it has its name, its parameters
    in order, each with its name and the schema of its own tokens, and a result
    just when one is declared. -/
structure Declares (registry : Registry) (caps : Capabilities) (name : String)
    (f : FunctionDeclaration) (sig : Signature) : Prop where
  name : sig.name = name
  params : List.Forall₂ (fun p q => q.name = p.name ∧ registry.Declares caps p.tokens q.schema)
    f.params sig.params
  result : Option.Rel (registry.Declares caps) f.result sig.result

variable {registry : Registry} {caps : Capabilities} {name : String} {f : FunctionDeclaration}

/-- The parameters are built in order, and then the result. -/
theorem build_eq (registry : Registry) (caps : Capabilities) (name : String)
    (f : FunctionDeclaration) :
    f.build registry caps name =
      (f.params.mapM fun p =>
        (buildSchema registry caps ⟨name, p.name⟩ p.tokens).map (Param.mk p.name)).bind fun params =>
          (f.result.mapM (buildSchema registry caps ⟨name, resultLabel⟩)).map fun result =>
            ⟨name, params, result⟩ := rfl

theorem blames_build (registry : Registry) (caps : Capabilities) (name : String)
    (f : FunctionDeclaration) :
    Blames (Declaration.Fault registry caps) (f.declarations name)
      (f.build registry caps name) := by
  rw [build_eq, declarations, List.map_eq_flatMap]
  refine Blames.bind (Blames.mapM fun p _ => ?_) fun params _ => Blames.map _ ?_
  · exact (blames_buildSchema registry caps ⟨⟨name, p.name⟩, p.tokens⟩).map _
  · cases f.result with
    | none => exact faultless_nil
    | some tokens =>
      exact (blames_buildSchema registry caps ⟨⟨name, resultLabel⟩, tokens⟩).map _

/-- A declared function has one signature, and that is the one that is built. -/
theorem build_eq_ok_iff {sig : Signature} :
    f.build registry caps name = .ok sig ↔ f.Declares registry caps name sig := by
  have hparam : ∀ (p : ParamDeclaration) (q : Param),
      (buildSchema registry caps ⟨name, p.name⟩ p.tokens).map (Param.mk p.name) = .ok q ↔
        q.name = p.name ∧ registry.Declares caps p.tokens q.schema := by
    intro p q
    rw [map_eq_ok_iff]
    simp only [buildSchema_eq_ok_iff]
    constructor
    · rintro ⟨schema, hschema, rfl⟩
      exact ⟨rfl, hschema⟩
    · rintro ⟨hname, hschema⟩
      exact ⟨q.schema, hschema, by rw [← hname]⟩
  obtain ⟨signatureName, params, result⟩ := sig
  rw [build_eq]
  simp only [bind_eq_ok_iff, map_eq_ok_iff, mapM_eq_ok_iff, optionMapM_eq_ok_iff,
    buildSchema_eq_ok_iff, hparam]
  constructor
  · rintro ⟨params', hparams, result', hresult, heq⟩
    cases heq
    exact ⟨rfl, hparams, hresult⟩
  · rintro ⟨rfl, hparams, hresult⟩
    exact ⟨params, hparams, result, hresult, rfl⟩

end FunctionDeclaration

/-! ### Manifests -/

namespace Declaration

/-- A declaration has one fault at most. -/
theorem Fault.unique {registry : Registry} {caps : Capabilities} (d : Declaration)
    (e₁ e₂ : ManifestError) (h₁ : d.Fault registry caps e₁) (h₂ : d.Fault registry caps e₂) :
    e₁ = e₂ := by
  cases h₁ with
  | unknownDetail hfirst₁ =>
    cases h₂ with
    | unknownDetail hfirst₂ => rw [hfirst₁.unique Registry.Lacks.unique hfirst₂]
    | declaration hresolves => exact absurd hresolves.faultless hfirst₁.not_faultless
  | declaration hresolves₁ herror₁ =>
    cases h₂ with
    | unknownDetail hfirst₂ => exact absurd hresolves₁.faultless hfirst₂.not_faultless
    | declaration hresolves₂ herror₂ =>
      rw [hresolves₁.unique hresolves₂, herror₂] at herror₁
      cases herror₁
      rfl

/-- A declaration without a fault is one that declares a schema. -/
theorem forall_not_fault_iff (registry : Registry) (caps : Capabilities) (d : Declaration) :
    (∀ e, ¬ d.Fault registry caps e) ↔ ∃ schema, registry.Declares caps d.tokens schema := by
  rw [← faultless_singleton, ← (blames_buildSchema registry caps d).exists_ok_iff]
  exact exists_congr fun schema => buildSchema_eq_ok_iff

end Declaration

namespace Manifest

/-- The declarations of a manifest: function by function in name order. -/
def declarations (m : Manifest) : List Declaration :=
  m.functions.entries.flatMap fun f => f.2.declarations f.1

variable {registry : Registry} {caps : Capabilities} {m : Manifest}

theorem blames_build (registry : Registry) (caps : Capabilities) (m : Manifest) :
    Blames (Declaration.Fault registry caps) m.declarations (m.build registry caps) :=
  Blames.map _ <| Blames.mapM fun f _ => (f.2.blames_build registry caps f.1).map _

/-- The signatures stand in the order of the functions, whose names they have. -/
theorem forall₂_of_build {set : SignatureSet} (h : m.build registry caps = .ok set) :
    set.capabilities = caps ∧
      List.Forall₂ (fun f s => s.1 = f.1 ∧ f.2.Declares registry caps f.1 s.2)
        m.functions.entries set.signatures.entries := by
  obtain ⟨signatures, hsignatures, rfl⟩ := map_eq_ok_iff.mp h
  have hdeclares : List.Forall₂ (fun f s => s.1 = f.1 ∧ f.2.Declares registry caps f.1 s.2)
      m.functions.entries signatures := by
    refine (mapM_eq_ok_iff.mp hsignatures).imp ?_
    intro f s hs
    obtain ⟨sig, hsig, rfl⟩ := map_eq_ok_iff.mp hs
    exact ⟨rfl, FunctionDeclaration.build_eq_ok_iff.mp hsig⟩
  have hordered : signatures.Pairwise fun p q => p.1 < q.1 := by
    have hfunctions := m.functions.ordered
    rw [← List.pairwise_map (R := (· < ·)) (f := Prod.fst)] at hfunctions ⊢
    rwa [names_eq_of_forall₂ hdeclares]
  exact ⟨rfl, by rwa [Table.entries_ofList hordered]⟩

/-- **A manifest is built all or nothing.**  It is built when all its
    declarations declare a schema.  The set then has a signature for just the
    names of the functions, each that of the function declared.  When it is not
    built, the error is the fault of the first declaration that has one. -/
theorem build_all_or_nothing (registry : Registry) (caps : Capabilities) (m : Manifest) :
    ((∃ set, m.build registry caps = .ok set) ↔
      ∀ d ∈ m.declarations, ∃ schema, registry.Declares caps d.tokens schema) ∧
    (∀ set, m.build registry caps = .ok set →
      set.capabilities = caps ∧
        ∀ name, Option.Rel (FunctionDeclaration.Declares registry caps name)
          (m.functions.get? name) (set.signatures.get? name)) ∧
    (∀ e, m.build registry caps = .error e ↔
      FirstFault (Declaration.Fault registry caps) m.declarations e) := by
  have hblames := m.blames_build registry caps
  refine ⟨?_, ?_, ?_⟩
  · rw [hblames.exists_ok_iff]
    exact forall₂_congr fun d _ => d.forall_not_fault_iff registry caps
  · intro set hset
    obtain ⟨hcaps, hdeclares⟩ := forall₂_of_build hset
    refine ⟨hcaps, fun name => ?_⟩
    exact rel_lookup_of_forall₂ hdeclares name
  · exact fun e => hblames.eq_error_iff Declaration.Fault.unique

/-- The parameter `b` has two faults, and the detail is named although the size
    stands before it.  The function `g` comes after `f`. -/
example :
    let f : FunctionDeclaration := ⟨[⟨"a", [.size 3]⟩, ⟨"b", [.size (-2), .detail "d"]⟩], none⟩
    let g : FunctionDeclaration := ⟨[], some [.detail "e"]⟩
    let m : Manifest := ⟨none, .ofList [("g", g), ("f", f)]⟩
    (m.build .empty .plain).map SignatureSet.capabilities =
      .error (.unknownDetail ⟨"f", "b"⟩ "d") := by
  decide

end Manifest

end ShapeContracts
