import Anole.Planning.Pdf

/-!
# Passwords in stored plans

Two requests that differ in their password only are planned to the same plan, up to its
identifier: the PDF planners keep the password out of the plan. `attach_chain_plan_metadata`
then puts the whole request into the constraints of a plan.

Main result:

* `password_redacted`: a stored plan says nothing about the password exactly if no chain was
  attached to it.

**Deviation.** The queue attaches the chain of a chained conversion to the plan that it stores
(`src-tauri/src/lib.rs`, lines 651–678), and the request in it has the password in clear text,
against the comment on `PlanRequest::password`.
-/

namespace Anole.Planning

open Anole.Common

/-- A password that the planners take: not blank. -/
def ValidPassword (password : String) : Prop := trim password ≠ ""

instance (password : String) : Decidable (ValidPassword password) :=
  inferInstanceAs (Decidable (trim password ≠ ""))

/-- The request with another password. -/
def PlanRequest.withPassword (request : PlanRequest) (password : String) : PlanRequest :=
  { request with password := some password }

/-- Where a stored plan comes from: the planning of an inspected PDF, or a chain that is
    attached to a plan. -/
inductive PlanSource (φ : Type) where
  | planned (engines : String → EngineIdentity) (probe : Probe φ) (more : List (Probe φ))
  | chained (plan : Plan) (hopTargets : List String)

section

variable {φ : Type} (tools : PlannerTools φ)

/-- The plan that is stored. -/
def storedPlan (source : PlanSource φ) (request : PlanRequest) (planId : Uuid) :
    Except AnoleError Plan :=
  match source with
  | .planned engines probe more => (planPdf tools engines probe more request planId).map Planned.plan
  | .chained plan hopTargets => attachChainPlanMetadata plan request hopTargets

/-- A plan without its identifier. -/
def Plan.withoutId (plan : Plan) : Plan := { plan with planId := 0 }

/-- What is stored, up to the identifier of the plan. -/
def storedJson (source : PlanSource φ) (request : PlanRequest) (planId : Uuid) : Option Json :=
  match storedPlan tools source request planId with
  | .ok plan => plan.withoutId.toJson
  | .error _ => none

end

/-! ## The planners -/

section Planners

variable {φ : Type} {tools : PlannerTools φ} {probe : Probe φ} {p p' : String} {id id' : Uuid}
  {request : PlanRequest}

theorem map_bind {ε α β γ : Type} {x : Except ε α} {f : α → Except ε β} {g : β → γ} :
    (x >>= f).map g = x >>= fun a => (f a).map g := by
  cases x <;> rfl

/-- What a planner returns, without the identifier and the registered password. -/
def Planned.shown (planned : Planned) : Plan := planned.plan.withoutId

theorem shown_singleStepPlan {planId : Uuid} {fingerprint target : String} {constraints : TextMap Json}
    {capabilityId : String} {engine : EngineIdentity} {operation : Operation} {lossClass : LossClass}
    {arguments : TextMap String} {temporaryBytes : ℕ} {changes : ChangeSet} {validators : List String}
    {outputPath : PathBuf} {outputBytes : Option ℕ} {secret : Option String} :
    Planned.shown ⟨singleStepPlan tools planId fingerprint target constraints capabilityId engine
      operation lossClass arguments temporaryBytes changes validators outputPath outputBytes, secret⟩ =
    singleStepPlan tools 0 fingerprint target constraints capabilityId engine operation lossClass
      arguments temporaryBytes changes validators outputPath outputBytes := rfl

theorem map_pure_shown {planned : Planned} :
    (pure planned : Except AnoleError Planned).map Planned.shown = .ok planned.shown := rfl

theorem bind_shown {α : Type} {x : Except AnoleError α} {f g : α → Except AnoleError Planned}
    (h : ∀ a, (f a).map Planned.shown = (g a).map Planned.shown) :
    (x >>= f).map Planned.shown = (x >>= g).map Planned.shown := by
  rw [map_bind, map_bind, funext h]

section Identifiers

/-! A plan does not depend on its identifier. -/

variable {outputPath : PathBuf} {engine : EngineIdentity}

theorem planPdfTextExport_shown {target : String} :
    (planPdfTextExport tools probe outputPath engine target id).map Planned.shown =
      (planPdfTextExport tools probe outputPath engine target id').map Planned.shown := by
  simp only [planPdfTextExport, map_bind, map_pure_shown, shown_singleStepPlan]

theorem planPdfMerge_shown {probes : List (Probe φ)} :
    (planPdfMerge tools probes outputPath engine id).map Planned.shown =
      (planPdfMerge tools probes outputPath engine id').map Planned.shown := by
  simp only [planPdfMerge, map_bind, map_pure_shown, shown_singleStepPlan]

theorem planPdfExtract_shown {pageRange : String} :
    (planPdfExtract tools probe pageRange outputPath engine id).map Planned.shown =
      (planPdfExtract tools probe pageRange outputPath engine id').map Planned.shown := by
  simp only [planPdfExtract, map_bind, map_pure_shown, pdfOperationPlan, shown_singleStepPlan]

theorem planPdfRotate_shown {angle : ℕ} {pageSpec : Option String} :
    (planPdfRotate tools probe angle pageSpec outputPath engine id).map Planned.shown =
      (planPdfRotate tools probe angle pageSpec outputPath engine id').map Planned.shown := by
  simp only [planPdfRotate, map_bind, map_pure_shown, pdfOperationPlan, shown_singleStepPlan]

theorem planPdfCompress_shown :
    (planPdfCompress tools probe outputPath engine id).map Planned.shown =
      (planPdfCompress tools probe outputPath engine id').map Planned.shown := by
  simp only [planPdfCompress, map_bind, map_pure_shown, pdfOperationPlan, shown_singleStepPlan]

theorem planPdfMetadata_shown {title author : Option String} :
    (planPdfMetadata tools probe title author outputPath engine id).map Planned.shown =
      (planPdfMetadata tools probe title author outputPath engine id').map Planned.shown := by
  simp only [planPdfMetadata, map_bind, map_pure_shown, pdfOperationPlan, shown_singleStepPlan]

theorem planPdfWatermark_shown {text : String} {angle : Option ℤ} :
    (planPdfWatermark tools probe text angle outputPath engine id).map Planned.shown =
      (planPdfWatermark tools probe text angle outputPath engine id').map Planned.shown := by
  simp only [planPdfWatermark, map_bind, map_pure_shown, pdfOperationPlan, shown_singleStepPlan]

theorem planPdfOcr_shown {language : Option String} :
    (planPdfOcr tools probe outputPath engine language id).map Planned.shown =
      (planPdfOcr tools probe outputPath engine language id').map Planned.shown := by
  simp only [planPdfOcr, map_bind, map_pure_shown, shown_singleStepPlan]

end Identifiers

theorem planPdfSecretOperation_shown {operation : String}
    (hp : ValidPassword p) (hp' : ValidPassword p') {outputPath : PathBuf} {qpdf : EngineIdentity}
    {changed : List String} {validator : String} :
    (planPdfSecretOperation tools probe operation (some p) outputPath qpdf changed validator id).map
        Planned.shown =
      (planPdfSecretOperation tools probe operation (some p') outputPath qpdf changed validator
        id').map Planned.shown := by
  have hcheck (q : String) (hq : ValidPassword q) (error : AnoleError) :
      failIf (trim q = "") error = .ok () := if_neg hq
  simp only [planPdfSecretOperation, map_bind, Option.getD_some, hcheck p hp, hcheck p' hp',
    map_pure_shown, pdfOperationPlan, shown_singleStepPlan]

theorem planPdfRender_shown
    (hp : p ≠ "") (hp' : p' ≠ "") {pdftoppm : EngineIdentity} :
    (planPdfRender tools probe (request.withPassword p) pdftoppm id).map Planned.shown =
      (planPdfRender tools probe (request.withPassword p') pdftoppm id').map Planned.shown := by
  have hkept (q : String) (hq : q ≠ "") :
      (Option.filter (fun value => decide (value ≠ "")) (some q)).isSome = true := by
    simp [Option.filter, hq]
  simp only [planPdfRender, PlanRequest.withPassword, map_bind, if_true, hkept p hp,
    hkept p' hp', map_pure_shown, shown_singleStepPlan]
  rfl

theorem planPdfOperation_shown {engines : String → EngineIdentity}
    {more : List (Probe φ)} {operation : String}
    (hp : ValidPassword p) (hp' : ValidPassword p') :
    (planPdfOperation tools engines probe more (request.withPassword p) operation id).map
        Planned.shown =
      (planPdfOperation tools engines probe more (request.withPassword p') operation id').map
        Planned.shown := by
  unfold planPdfOperation
  split
  · exact bind_shown fun _ => planPdfMerge_shown
  · exact bind_shown fun _ => bind_shown fun _ => planPdfExtract_shown
  · exact bind_shown fun _ => bind_shown fun _ => planPdfRotate_shown
  · exact bind_shown fun _ => planPdfCompress_shown
  · exact bind_shown fun _ => planPdfSecretOperation_shown hp hp'
  · exact bind_shown fun _ => planPdfSecretOperation_shown hp hp'
  · exact bind_shown fun _ => bind_shown fun _ => planPdfWatermark_shown
  · exact bind_shown fun _ => planPdfOcr_shown
  · exact bind_shown fun _ => planPdfMetadata_shown
  · rfl

theorem ValidPassword.ne_empty {p : String} (hp : ValidPassword p) : p ≠ "" := by
  rintro rfl
  exact hp (by decide)

theorem planPdf_shown {engines : String → EngineIdentity} {more : List (Probe φ)}
    (hp : ValidPassword p) (hp' : ValidPassword p')
    :
    (planPdf tools engines probe more (request.withPassword p) id).map Planned.shown =
      (planPdf tools engines probe more (request.withPassword p') id').map Planned.shown := by
  rw [planPdf, planPdf, show (request.withPassword p).operation = request.operation from rfl,
    show (request.withPassword p').operation = request.operation from rfl]
  cases request.operation with
  | some operation => exact planPdfOperation_shown hp hp'
  | none =>
    dsimp only
    by_cases htarget : normalizedTarget request.targetFormat = "md"
    · rw [if_pos (by exact htarget), if_pos (by exact htarget)]
      exact bind_shown fun _ => planPdfTextExport_shown
    · rw [if_neg (by exact htarget), if_neg (by exact htarget)]
      exact planPdfRender_shown hp.ne_empty hp'.ne_empty

end Planners

/-! ## What can be stored -/

theorem mapM_isSome {α β : Type} {f : α → Option β} {xs : List α} :
    (xs.mapM f).isSome = true ↔ ∀ x ∈ xs, (f x).isSome = true := by
  induction xs with
  | nil => simp
  | cons x xs ih =>
    rw [List.mapM_cons, List.forall_mem_cons, ← ih]
    cases hx : f x with
    | none => simp
    | some y => cases hxs : xs.mapM f <;> simp

/-- A path is text exactly if it is Unicode. -/
theorem toStr?_isSome {path : PathBuf} : (toStr? path).isSome = true ↔ path.IsUnicode := by
  constructor
  · intro h
    obtain ⟨text, htext⟩ := Option.isSome_iff_exists.mp h
    exact ⟨text, eq_ofString_of_toStr? htext⟩
  · rintro ⟨text, rfl⟩
    rw [toStr?_ofString]
    rfl

theorem optionalPathToJson_isSome {path : Option PathBuf} :
    (optionalPathToJson path).isSome = true ↔ ∀ p, path = some p → p.IsUnicode := by
  cases path with
  | none => simp [optionalPathToJson]
  | some p => simp [optionalPathToJson, pathToJson, Option.isSome_map, toStr?_isSome]

/-- The paths of a request are Unicode. -/
def PlanRequest.IsUnicode (request : PlanRequest) : Prop :=
  (∀ path, request.outputPath = some path → path.IsUnicode) ∧
    ∀ path ∈ request.inputs, path.IsUnicode

/-- The paths of the engines of a plan are Unicode. -/
def Plan.IsUnicode (plan : Plan) : Prop := ∀ step ∈ plan.steps, step.engine.binaryPath.IsUnicode

theorem toValue_isSome {request : PlanRequest} :
    request.toValue.isSome = true ↔ request.IsUnicode := by
  have hinputs : (request.inputs.mapM pathToJson).isSome = true ↔
      ∀ path ∈ request.inputs, path.IsUnicode := by
    rw [mapM_isSome]
    simp only [pathToJson, Option.isSome_map, toStr?_isSome]
  rw [PlanRequest.toValue, PlanRequest.IsUnicode, ← optionalPathToJson_isSome, ← hinputs]
  cases optionalPathToJson request.outputPath <;> cases request.inputs.mapM pathToJson <;> simp

theorem toJson_isSome {plan : Plan} : plan.toJson.isSome = true ↔
    plan.IsUnicode ∧ ∀ path, plan.outputPath = some path → path.IsUnicode := by
  have hstep (step : PlanStep) : step.toJson.isSome = true ↔ step.engine.binaryPath.IsUnicode := by
    rw [PlanStep.toJson, EngineIdentity.toJson, ← toStr?_isSome]
    simp only [pathToJson]
    cases toStr? step.engine.binaryPath <;> simp
  have hsteps : (plan.steps.mapM PlanStep.toJson).isSome = true ↔ plan.IsUnicode := by
    rw [mapM_isSome, Plan.IsUnicode]
    simp only [hstep]
  rw [Plan.toJson, ← hsteps, ← optionalPathToJson_isSome]
  cases plan.steps.mapM PlanStep.toJson <;> cases optionalPathToJson plan.outputPath <;> simp

/-! ## Chains -/

/-- The password in the snapshot of a request. -/
theorem field?_toValue {request : PlanRequest} {p : String} {value : Json}
    (h : (request.withPassword p).toValue = some value) :
    value.field? "password" = some (.string p) := by
  rw [PlanRequest.toValue] at h
  simp only [Option.bind_eq_bind, Option.bind_eq_some_iff] at h
  obtain ⟨outputPath, -, inputs, -, hvalue⟩ := h
  rw [← Option.some.inj hvalue]
  simp [Json.field?, TextMap.ofList, TextMap.lookup_insert_of_ne, PlanRequest.withPassword,
    Json.ofOption]

theorem field?_toJson {plan : Plan} {stored : Json} (h : plan.toJson = some stored) :
    stored.field? "constraints" = some (.object plan.constraints) := by
  rw [Plan.toJson] at h
  simp only [Option.bind_eq_bind, Option.bind_eq_some_iff] at h
  obtain ⟨steps, -, outputPath, -, hstored⟩ := h
  rw [← Option.some.inj hstored]
  rfl

/-- The password in a stored plan with a chain. -/
def passwordIn (stored : Json) : Option Json :=
  ((stored.field? "constraints").bind (Json.field? "chain_request")).bind (Json.field? "password")

section Stored

variable {φ : Type} {tools : PlannerTools φ} {request : PlanRequest} {plan : Plan}
  {hopTargets : List String} {p p' : String} {id id' : Uuid}

/-- Whoever reads a stored plan with a chain reads the password. -/
theorem passwordIn_chained {stored : Json}
    (h : storedJson tools (.chained plan hopTargets) (request.withPassword p) id = some stored) :
    passwordIn stored = some (.string p) := by
  rw [storedJson, storedPlan, attachChainPlanMetadata] at h
  cases hvalue : (request.withPassword p).toValue with
  | none =>
    rw [hvalue] at h
    cases h
  | some value =>
    rw [hvalue] at h
    have hconstraints := field?_toJson h
    rw [passwordIn, hconstraints, Option.bind_some, Json.field?, Plan.withoutId,
      TextMap.lookup_insert, Option.bind_some]
    exact field?_toValue hvalue

/-- A chain is stored exactly if all paths in it are Unicode. -/
theorem storedJson_chained_isSome :
    (storedJson tools (.chained plan hopTargets) (request.withPassword p) id).isSome = true ↔
      request.IsUnicode ∧ plan.IsUnicode := by
  rw [storedJson, storedPlan, attachChainPlanMetadata]
  have hsame : (request.withPassword p).IsUnicode ↔ request.IsUnicode := Iff.rfl
  have hrequest := @toValue_isSome (request.withPassword p)
  rw [hsame] at hrequest
  cases hvalue : (request.withPassword p).toValue with
  | none =>
    rw [hvalue] at hrequest
    constructor
    · intro h
      cases h
    · rintro ⟨h, -⟩
      cases hrequest.mpr h
  | some value =>
    rw [hvalue] at hrequest
    have hunicode := hrequest.mp rfl
    dsimp only
    rw [toJson_isSome]
    exact ⟨fun h => ⟨hunicode, h.1⟩, fun h => ⟨h.2, hunicode.1⟩⟩

/-- The plan of an inspected PDF is stored without the password. -/
theorem storedJson_planned {engines : String → EngineIdentity} {probe : Probe φ}
    {more : List (Probe φ)} (hp : ValidPassword p) (hp' : ValidPassword p') :
    storedJson tools (.planned engines probe more) (request.withPassword p) id =
      storedJson tools (.planned engines probe more) (request.withPassword p') id' := by
  have hshown : (planPdf tools engines probe more (request.withPassword p) id).map Planned.shown =
      (planPdf tools engines probe more (request.withPassword p') id').map Planned.shown :=
    planPdf_shown hp hp'
  rw [storedJson, storedJson, storedPlan, storedPlan]
  cases hleft : planPdf tools engines probe more (request.withPassword p) id with
  | error e =>
    cases hright : planPdf tools engines probe more (request.withPassword p') id' with
    | error e' => rfl
    | ok planned' =>
      rw [hleft, hright] at hshown
      cases hshown
  | ok planned =>
    cases hright : planPdf tools engines probe more (request.withPassword p') id' with
    | error e' =>
      rw [hleft, hright] at hshown
      cases hshown
    | ok planned' =>
      rw [hleft, hright] at hshown
      exact congrArg Plan.toJson (Except.ok.inj hshown)

end Stored

/-- What is stored of two requests that differ in their valid password only is the same, up to
    the identifier of the plan, exactly if no chain is attached to it (or a path in the plan or
    the request is not Unicode, so that nothing is stored). -/
theorem password_redacted {φ : Type} (tools : PlannerTools φ) (source : PlanSource φ)
    (request : PlanRequest) :
    (∀ p p' id id', ValidPassword p → ValidPassword p' →
      storedJson tools source (request.withPassword p) id =
        storedJson tools source (request.withPassword p') id') ↔
    ∀ plan hopTargets, source = .chained plan hopTargets →
      ¬(request.IsUnicode ∧ plan.IsUnicode) := by
  constructor
  · rintro h plan hopTargets rfl hunicode
    have hstored := h "a" "b" 0 0 (by decide) (by decide)
    have hsome := (@storedJson_chained_isSome φ tools request plan hopTargets "a" 0).mpr hunicode
    obtain ⟨stored, hleft⟩ := Option.isSome_iff_exists.mp hsome
    rw [hleft] at hstored
    have hread := (passwordIn_chained hleft).symm.trans (passwordIn_chained hstored.symm)
    simp at hread
  · intro h p p' id id' hp hp'
    cases source with
    | planned engines probe more => exact storedJson_planned hp hp'
    | chained plan hopTargets =>
      have hnone (q : String) (i : Uuid) :
          storedJson tools (.chained plan hopTargets) (request.withPassword q) i = none := by
        rw [← Option.not_isSome_iff_eq_none, storedJson_chained_isSome]
        exact h plan hopTargets rfl
      rw [hnone, hnone]

namespace Sample

/-- The request of a chained conversion of an encrypted PDF. -/
def request : PlanRequest where
  targetFormat := "jpg"
  outputPath := some (PathBuf.ofString "/out/pages")
  preserveAllStreams := false
  audioStreamIndex := none
  startMillis := none
  durationMillis := none
  width := none
  quality := none
  dpi := none
  colorMode := none
  framesPerSecond := none
  loopCount := none
  videoCrf := none
  videoPreset := none
  audioBitrateKbps := none
  operation := none
  inputs := []
  pageRange := none
  allowLossyData := false
  rotateAngle := none
  password := none
  ocrLanguage := none
  watermarkText := none
  watermarkAngle := none
  targetSizeBytes := none
  metadataTitle := none
  metadataAuthor := none

/-- The plan of its first hop. -/
def firstHop : Plan where
  schemaVersion := 1
  planId := 5
  planHash := "blake3:00"
  inputFingerprint := "fast:11"
  targetFormat := "md"
  constraints := offlineConstraints
  steps := []
  changes := ⟨[], [], [], []⟩
  validators := []
  networkPolicy := .deny
  outputPath := none
  estimatedOutputBytes := none

/-- The stored plan of a chain shows which of two passwords was given. -/
theorem chain_stores_password : ValidPassword "s3cret" ∧ ValidPassword "hunter2" ∧
    ∀ tools : PlannerTools Unit,
      storedJson tools (.chained firstHop ["md", "docx"]) (request.withPassword "s3cret") 5 ≠
        storedJson tools (.chained firstHop ["md", "docx"]) (request.withPassword "hunter2") 5 := by
  have hunicode : request.IsUnicode ∧ firstHop.IsUnicode := by
    refine ⟨⟨fun path hpath => ?_, fun path hpath => by cases hpath⟩, fun step hstep => by cases hstep⟩
    cases hpath
    exact ⟨_, rfl⟩
  refine ⟨by decide, by decide, fun tools hsame => ?_⟩
  have hsome := (@storedJson_chained_isSome Unit tools request firstHop ["md", "docx"] "s3cret"
    5).mpr hunicode
  obtain ⟨stored, hleft⟩ := Option.isSome_iff_exists.mp hsome
  rw [hleft] at hsame
  have hread := (passwordIn_chained hleft).symm.trans (passwordIn_chained hsame.symm)
  simp at hread

end Sample

end Anole.Planning
