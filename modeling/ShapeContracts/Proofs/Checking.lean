/-
  ShapeContracts/Proofs/Checking.lean
  ===================================
  **What the check command says.**

  Checking a call takes a manifest, a function and descriptions of arrays, and
  each of these can be wrong before there is a call to check.  `Poses` says what
  has to be in order, without saying in which order it is looked at.  Where it is,
  the command gives the verdict on that call, by its exit code and by what it
  prints (`Outcome.Tells`).

  Where it is not, the error is the fault of the first part of the request that
  has one (`CallRequest.parts`).  Each part has its faults by itself
  (`Part.Fault`), and each stage of the command is shown to blame its own parts
  (`blames_loadSignatures`, `blames_checkCall`); so a call that does not fit and a
  run that fails are never taken for one another.

  Nothing here looks into a manifest in YAML: what is said holds for every
  `YamlReader`, which only comes in where a manifest is loaded.  A printed
  document is told by what is read back from it, which takes its blanks out of
  the matter (`Json.read?_pretty`).
-/
import ShapeContracts.Command.Line
import ShapeContracts.Proofs.Building
import ShapeContracts.Proofs.Call
import ShapeContracts.Proofs.DescriptionRoundTrip

namespace ShapeContracts

/-! ### Calls that are posed -/

/-- A path leads to a well formed manifest. -/
def Manifest.LoadsFrom [YamlReader] (files : Files) (path : String) (m : Manifest) : Prop :=
  ∃ content, files path = some content ∧ Manifest.read? (manifestFormat path) content = some m

/-- What is looked at before a call is checked. -/
inductive Part
  | manifest
  | declarations
  | function
  | array (text : String)

/-- The parts of a request in the order in which they are looked at. -/
def CallRequest.parts (request : CallRequest) : List Part :=
  [.manifest, .declarations, .function] ++ request.args.map .array ++
    (request.result.map .array).toList

/-- What can be wrong with a part of a request. -/
inductive Part.Fault [YamlReader] (files : Files) (config : Config) (path : String)
    (request : CallRequest) : Part → RunError → Prop
  | unreadable : files path = none → Fault files config path request .manifest (.unreadable path)
  | malformed {content : String} : files path = some content →
      Manifest.read? (manifestFormat path) content = none →
      Fault files config path request .manifest (.malformed path)
  /-- The first declaration with a fault. -/
  | declarations {m : Manifest} {cause : ManifestError} : m.LoadsFrom files path →
      FirstFault (Declaration.Fault .empty (config.capabilities m.capabilities))
        m.declarations cause →
      Fault files config path request .declarations (.invalidDeclaration path cause)
  | function {m : Manifest} : m.LoadsFrom files path →
      m.functions.get? request.function = none →
      Fault files config path request .function (.unknownFunction request.function)
  | array {text : String} {cause : ReadError} : Description.read text = .error cause →
      Fault files config path request (.array text) (.invalidDescription text cause)

section Calls

variable {config : Config} {request : CallRequest} {m : Manifest} {set : SignatureSet}

/-! ### The call -/

theorem checkCall_eq (set : SignatureSet) (request : CallRequest) :
    set.checkCall request =
      ((set.require request.function).mapError fun _ =>
        RunError.unknownFunction request.function).bind fun sig =>
          (request.args.mapM readArray).bind fun args =>
            (request.result.mapM readArray).map fun result =>
              ⟨request.function, sig.checkCall args result⟩ := rfl

/-- A function has a signature just when it is declared, and then its own. -/
theorem rel_get?_of_build (hbuild : m.build .empty (config.capabilities m.capabilities) = .ok set)
    (name : String) :
    Option.Rel (FunctionDeclaration.Declares .empty (config.capabilities m.capabilities) name)
      (m.functions.get? name) (set.signatures.get? name) :=
  rel_lookup_of_forall₂ (Manifest.forall₂_of_build hbuild).2 name

theorem get?_eq_none_iff_of_build
    (hbuild : m.build .empty (config.capabilities m.capabilities) = .ok set) (name : String) :
    m.functions.get? name = none ↔ set.signatures.get? name = none := by
  have hrel := rel_get?_of_build hbuild name
  generalize m.functions.get? name = declared at hrel ⊢
  generalize set.signatures.get? name = found at hrel ⊢
  cases hrel <;> simp

theorem require_eq_error_iff {name : String} {e : ManifestError} :
    set.require name = .error e ↔
      set.signatures.get? name = none ∧ .unknownFunction name = e := by
  unfold SignatureSet.require
  cases set.signatures.get? name <;> simp

end Calls

section Reports

variable {format : OutputFormat}

/-! ### The report -/

def CallReport.outcome (report : CallReport) (format : OutputFormat) : Outcome :=
  ⟨report.exitCode, report.render format⟩

end Reports

section Stages

variable [YamlReader] {files : Files} {config : Config} {path : String} {request : CallRequest}
  {m : Manifest} {set : SignatureSet}

/-! ### Loading -/

theorem loadManifest_eq_ok_iff : loadManifest files path = .ok m ↔ m.LoadsFrom files path := by
  unfold loadManifest Manifest.LoadsFrom
  cases files path with
  | none => simp
  | some content =>
    dsimp only
    cases hread : Manifest.read? (manifestFormat path) content with
    | none => simp [hread]
    | some m' => simp [hread]

theorem Manifest.LoadsFrom.unique {m' : Manifest} (h : m.LoadsFrom files path)
    (h' : m'.LoadsFrom files path) : m = m' :=
  Except.ok.inj ((loadManifest_eq_ok_iff.mpr h).symm.trans (loadManifest_eq_ok_iff.mpr h'))

theorem fault_manifest_iff {e : RunError} :
    Part.Fault files config path request .manifest e ↔ loadManifest files path = .error e := by
  constructor
  · intro h
    cases h with
    | unreadable hfile => simp only [loadManifest, hfile]
    | malformed hfile hread => simp only [loadManifest, hfile, hread]
  · unfold loadManifest
    intro h
    cases hfile : files path with
    | none =>
      simp only [hfile] at h
      cases h
      exact .unreadable hfile
    | some content =>
      simp only [hfile] at h
      cases hread : Manifest.read? (manifestFormat path) content with
      | none =>
        simp only [hread] at h
        cases h
        exact .malformed hfile hread
      | some m =>
        simp only [hread] at h
        cases h

theorem fault_declarations_iff (hm : m.LoadsFrom files path) {e : RunError} :
    Part.Fault files config path request .declarations e ↔
      (m.build .empty (config.capabilities m.capabilities)).mapError (.invalidDeclaration path) =
        .error e := by
  have hblames := m.blames_build .empty (config.capabilities m.capabilities)
  rw [mapError_eq_error_iff]
  constructor
  · intro h
    cases h with
    | declarations hm' hfirst =>
      cases hm.unique hm'
      exact ⟨_, (hblames.eq_error_iff Declaration.Fault.unique).mpr hfirst, rfl⟩
  · rintro ⟨cause, hcause, rfl⟩
    exact .declarations hm ((hblames.eq_error_iff Declaration.Fault.unique).mp hcause)

theorem loadSignatures_eq (files : Files) (config : Config) (path : String) :
    loadSignatures files config path = (loadManifest files path).bind fun m =>
      (m.build .empty (config.capabilities m.capabilities)).mapError
        (.invalidDeclaration path) := rfl

theorem loadSignatures_eq_ok_iff : loadSignatures files config path = .ok set ↔
    ∃ m : Manifest, m.LoadsFrom files path ∧
      m.build .empty (config.capabilities m.capabilities) = .ok set := by
  simp only [loadSignatures_eq, bind_eq_ok_iff, loadManifest_eq_ok_iff, mapError_eq_ok_iff]

theorem blames_loadSignatures (files : Files) (config : Config) (path : String)
    (request : CallRequest) :
    Blames (Part.Fault files config path request) [.manifest, .declarations]
      (loadSignatures files config path) := by
  have hmanifest : Blames (Part.Fault files config path request) [.manifest]
      (loadManifest files path) := Blames.singleton fun e => fault_manifest_iff
  rw [loadSignatures_eq]
  refine hmanifest.bind ?_
  intro m hm
  exact Blames.singleton fun e => fault_declarations_iff (loadManifest_eq_ok_iff.mp hm)

/-! ### Arrays and the function -/

theorem fault_array_iff {text : String} {e : RunError} :
    Part.Fault files config path request (.array text) e ↔ readArray text = .error e := by
  simp only [readArray, mapError_eq_error_iff, map_eq_error_iff]
  constructor
  · intro h
    cases h with
    | array hread => exact ⟨_, hread, rfl⟩
  · rintro ⟨cause, hread, rfl⟩
    exact .array hread

theorem blames_readArrays (files : Files) (config : Config) (path : String)
    (request : CallRequest) (texts : List String) :
    Blames (Part.Fault files config path request) (texts.map .array) (texts.mapM readArray) := by
  rw [List.map_eq_flatMap]
  refine Blames.mapM ?_
  intro text _
  exact Blames.singleton fun e => fault_array_iff

theorem blames_readResult (files : Files) (config : Config) (path : String)
    (request : CallRequest) (text : Option String) :
    Blames (Part.Fault files config path request) (text.map .array).toList
      (text.mapM readArray) := by
  cases text with
  | none => exact faultless_nil
  | some text => exact Blames.map some (Blames.singleton fun e => fault_array_iff)

theorem fault_function_iff (hm : m.LoadsFrom files path)
    (hbuild : m.build .empty (config.capabilities m.capabilities) = .ok set) {e : RunError} :
    Part.Fault files config path request .function e ↔
      ((set.require request.function).mapError fun _ =>
        RunError.unknownFunction request.function) = .error e := by
  simp only [mapError_eq_error_iff, require_eq_error_iff,
    ← get?_eq_none_iff_of_build hbuild request.function]
  constructor
  · intro h
    cases h with
    | function hm' hnone =>
      cases hm.unique hm'
      exact ⟨_, ⟨hnone, rfl⟩, rfl⟩
  · rintro ⟨cause, ⟨hnone, -⟩, rfl⟩
    exact .function hm hnone

theorem blames_checkCall (hm : m.LoadsFrom files path)
    (hbuild : m.build .empty (config.capabilities m.capabilities) = .ok set)
    (request : CallRequest) :
    Blames (Part.Fault files config path request)
      ([.function] ++ (request.args.map .array ++ (request.result.map .array).toList))
      (set.checkCall request) := by
  rw [checkCall_eq]
  refine (Blames.singleton fun e => fault_function_iff hm hbuild).bind ?_
  intro sig _
  refine (blames_readArrays files config path request request.args).bind ?_
  intro args _
  exact (blames_readResult files config path request request.result).map _

/-! ### The command -/

variable {sig : Signature} {args : List ArrayView} {result : Option ArrayView}
  {format : OutputFormat}

theorem check_eq (files : Files) (config : Config) (path : String) (request : CallRequest)
    (format : OutputFormat) :
    check files config path request format =
      (loadSignatures files config path).bind fun set =>
        (set.checkCall request).map fun report => report.outcome format := rfl

theorem blames_check (files : Files) (config : Config) (path : String) (request : CallRequest)
    (format : OutputFormat) :
    Blames (Part.Fault files config path request) request.parts
      (check files config path request format) := by
  have hparts : request.parts = [.manifest, .declarations] ++
      ([.function] ++ (request.args.map .array ++ (request.result.map .array).toList)) := by
    rw [CallRequest.parts, List.append_assoc]
    rfl
  rw [hparts, check_eq]
  refine (blames_loadSignatures files config path request).bind ?_
  intro set hset
  obtain ⟨m, hm, hbuild⟩ := loadSignatures_eq_ok_iff.mp hset
  exact (blames_checkCall hm hbuild request).map _

/-- A part has one fault at most. -/
theorem Part.Fault.unique (part : Part) (e₁ e₂ : RunError)
    (h₁ : part.Fault files config path request e₁)
    (h₂ : part.Fault files config path request e₂) : e₁ = e₂ := by
  cases part with
  | manifest => exact fault_unique (fun e => fault_manifest_iff) h₁ h₂
  | declarations =>
    cases h₁ with
    | declarations hm hfirst =>
      exact fault_unique (fun e => fault_declarations_iff hm) (.declarations hm hfirst) h₂
  | function =>
    cases h₁
    cases h₂
    rfl
  | array text => exact fault_unique (fun e => fault_array_iff) h₁ h₂

end Stages

/-- A description without an element type is an error where the function is
    declared, and is not looked at where it is not. -/
example :
    let files : Files := fun _ => some "\x7b\"functions\":\x7b\"f\":\x7b\x7d\x7d\x7d"
    let run (function : String) (args : List String) : Except RunError Outcome :=
      check files ⟨none, none⟩ "calls.json" ⟨function, args, none⟩ .text
    run "f" [] = .ok ⟨0, "OK f()\n"⟩ ∧
      run "f" ["2x3"] =
        .error (.invalidDescription "2x3" (.invalidDescription "2x3" .noColon)) ∧
      run "g" ["2x3"] = .error (.unknownFunction "g") := by
  decide +kernel

end ShapeContracts
