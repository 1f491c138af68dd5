import Anole.Planning.Dispatch
import Anole.Planning.PlanHash
import Anole.Planning.PlanJson
import Anole.Planning.Redaction

/-!
# Chains kept in queued plans

Model of how the worker of the queue rebuilds a chain of conversions from a stored plan
(`crates/core/src/chain.rs`): `chain_execution_from_plan` (lines 62–123) and
`ConversionChain::from_hop_targets` (lines 176–209). A plan with a chain keeps the targets of its hops
and a snapshot of the request; the format of the input is taken from its file name once more.

* `chain_kept_iff`: when the chain that was found and the request come back.

**Deviation.** `find_conversion_chain` takes the format of the input by `input_extension` and
`normalize_target`, `chain_execution_from_plan` the extension as it is. So a chain from `photo.jpeg` was
found to begin at `jpg` and comes back as one that begins at `jpeg`.
-/

open Common Anole.Common

namespace Anole.Planning

open Anole.Folder (Name)
open Anole.Routes

/-- `ConversionChain::from_hop_targets`. -/
def fromHopTargets (inputFormat : String) (targets : List String) : Option ConversionChain :=
  if targets = [] then none
  else some ⟨targets.zipIdx.map fun target =>
    let source := if target.2 = 0 then inputFormat else targets.getD (target.2 - 1) ""
    ⟨source, target.1, requiredEngines (some source) target.1⟩⟩

/-- `Value::as_str`. -/
def asStr : Json → Option String
  | .string text => some text
  | _ => none

/-- `PlanRequest { target_format, output_path, ..PlanRequest::default() }`. -/
def minimalRequest (targetFormat : String) (outputPath : Option PathBuf) : PlanRequest where
  targetFormat := targetFormat
  outputPath := outputPath
  preserveAllStreams := false
  audioStreamIndex := none
  startMillis := none
  durationMillis := none
  width := none
  quality := none
  dpi := none
  colorMode := none
  framesPerSecond := none
  loopCount := none
  videoCrf := none
  videoPreset := none
  audioBitrateKbps := none
  operation := none
  inputs := []
  pageRange := none
  allowLossyData := false
  rotateAngle := none
  password := none
  ocrLanguage := none
  watermarkText := none
  watermarkAngle := none
  targetSizeBytes := none
  metadataTitle := none
  metadataAuthor := none

/-- An error of a plan whose chain cannot be read. -/
def malformedChain (message : String) : AnoleError := .new .internal .plan message "Re-queue the conversion."

/-- The targets of the hops (lines 68–83). -/
def hopTargetsOf : Json → Except AnoleError (List String)
  | .array values => .ok (values.filterMap asStr)
  | _ => .error (malformedChain "Chained plan carries a malformed hop list")

/-- The chain (lines 84–96). -/
def chainOf (inputFormat : String) (hopTargets : List String) : Except AnoleError ConversionChain :=
  match fromHopTargets inputFormat hopTargets with
  | some chain => .ok chain
  | none => .error (malformedChain "Chained plan carries an empty hop list")

/-- The snapshot of the request, or a request that has the target and the output only (lines 97–116), with
    what `serde_json` says of a snapshot that it does not take. -/
def snapshotOf (refusal : Json → String) (plan : Plan) (hopTargets : List String) : Except AnoleError PlanRequest :=
  match plan.constraints.lookup "chain_request" with
  | some snapshot =>
    match (readFields snapshot.document).bind planRequestOf with
    | some request => .ok request
    | none => .error ((malformedChain "Chained plan carries an unreadable request snapshot").withDiagnostic
        (refusal snapshot))
  | none => .ok (minimalRequest (hopTargets.getLast?.getD plan.targetFormat) plan.outputPath)

/-- `chain_execution_from_plan` on an input with this file name. -/
def chainExecutionFromPlan (refusal : Json → String) (plan : Plan) (fileName : Option Name) :
    Option (Except AnoleError (ConversionChain × PlanRequest)) :=
  (plan.constraints.lookup "chain").map fun hops => do
    let hopTargets ← hopTargetsOf hops
    let chain ← chainOf ((Routes.pathExtension fileName).getD "") hopTargets
    let request ← snapshotOf refusal plan hopTargets
    .ok (chain, { request with
      targetFormat := hopTargets.getLast?.getD request.targetFormat
      outputPath := plan.outputPath })

/-- A plan is written as JSON and read again. -/
def Plan.reread (parseUuid : String → Option Uuid) (plan : Plan) : Option Plan :=
  plan.toJson.bind fun value => planOf parseUuid value.document

/-! ## What the search begins with and what the worker begins with -/

/-- The extension of a file name is the normal name of its format, as `find_conversion_chain` takes it. -/
def NamesFormat (fileName : Option Name) : Prop :=
  Routes.pathExtension fileName = (inputExtension fileName).map normalizeTarget

instance (fileName : Option Name) : Decidable (NamesFormat fileName) :=
  inferInstanceAs (Decidable (_ = _))

/-- The worker comes to the chain and to the request, with the last format of the chain. -/
def Comes (parseUuid : String → Option Uuid) (refusal : Json → String) (fileName : Option Name) (plan : Plan)
    (request : PlanRequest) (chain : ConversionChain) : Prop :=
  let hopTargets := chain.hops.map ChainHop.toFormat
  ∃ attached stored, attachChainPlanMetadata plan request hopTargets = .ok attached ∧
    attached.reread parseUuid = some stored ∧
    chainExecutionFromPlan refusal stored fileName =
      some (.ok (chain, { request with targetFormat := hopTargets.getLast?.getD request.targetFormat }))

section

variable {parseUuid : String → Option Uuid} {refusal : Json → String} {fileName : Option Name} {plan : Plan}
  {request : PlanRequest} {value : Json} {start middle goal : String}

theorem chainOf_pair (inputFormat first second : String) :
    chainOf inputFormat [first, second] = .ok ⟨[hop inputFormat first, hop first second]⟩ := rfl

theorem hop_fromFormat (source target : String) : (hop source target).fromFormat = source := rfl

/-- A format that has a route has a name. -/
theorem ne_empty_of_edge (h : Edge shipped start middle) : start ≠ "" := by
  rintro rfl
  have hnone : neighbors shipped "" = [] := by decide
  rw [Edge, hnone] at h
  exact List.not_mem_nil h

theorem chainExecutionFromPlan_attached (hfits : request.Fits) (hvalue : request.toValue = some value)
    (hchain : plan.constraints.lookup "chain" = some (.strings [middle, goal]))
    (hrequest : plan.constraints.lookup "chain_request" = some value) :
    chainExecutionFromPlan refusal plan fileName = some (.ok
      (⟨[hop ((Routes.pathExtension fileName).getD "") middle, hop middle goal]⟩,
        { request with targetFormat := goal, outputPath := plan.outputPath })) := by
  have hsnapshot : snapshotOf refusal plan [middle, goal] = .ok request := by
    rw [snapshotOf, hrequest]
    dsimp only
    rw [planRequestOf_toValue hfits hvalue]
  have htargets : hopTargetsOf (.strings [middle, goal]) = .ok [middle, goal] := rfl
  rw [chainExecutionFromPlan, hchain, Option.map_some, htargets]
  dsimp only [bind, Except.bind]
  rw [chainOf_pair, hsnapshot]
  rfl

/-- A plan with a chain and a snapshot of the request. -/
def Plan.withChain (plan : Plan) (request : PlanRequest) (hopTargets : List String) (value : Json) : Plan :=
  { plan with
    constraints := (plan.constraints.insert "chain" (.strings hopTargets)).insert "chain_request" value
    outputPath := request.outputPath }

theorem attachChain_withChain {hopTargets : List String} (h : request.toValue = some value) :
    attachChainPlanMetadata plan request hopTargets = .ok (plan.withChain request hopTargets value) := by
  rw [attachChainPlanMetadata, h]
  rfl

theorem Plan.Fits.withChain (h : plan.Fits) (hopTargets : List String) :
    (plan.withChain request hopTargets value).Fits :=
  ⟨h.schemaVersion, h.estimatedTemporaryBytes, h.estimatedOutputBytes⟩

/-- **What comes of a stored chain**: it is stored if its paths are Unicode, and then the worker comes to the
    same request and to a chain that begins at the extension of the file. -/
theorem stored_chain (huuid : ∀ id : Uuid, parseUuid id.toText = some id) (hplan : plan.Fits)
    (hrequest : request.Fits) (middle goal : String)
    (result : Option (Except AnoleError (ConversionChain × PlanRequest))) :
    (∃ attached stored, attachChainPlanMetadata plan request [middle, goal] = .ok attached ∧
      attached.reread parseUuid = some stored ∧ chainExecutionFromPlan refusal stored fileName = result) ↔
    request.IsUnicode ∧ plan.IsUnicode ∧
      result = some (.ok (⟨[hop ((Routes.pathExtension fileName).getD "") middle, hop middle goal]⟩,
        { request with targetFormat := goal })) := by
  have hexecution : ∀ value, request.toValue = some value →
      chainExecutionFromPlan refusal (plan.withChain request [middle, goal] value) fileName =
        some (.ok (⟨[hop ((Routes.pathExtension fileName).getD "") middle, hop middle goal]⟩,
          { request with targetFormat := goal })) := fun value hvalue =>
    chainExecutionFromPlan_attached hrequest hvalue
      (by rw [Plan.withChain, TextMap.lookup_insert_of_ne (by decide), TextMap.lookup_insert]) TextMap.lookup_insert
  constructor
  · rintro ⟨attached, stored, hattach, hreread, rfl⟩
    obtain ⟨value, hvalue, rfl⟩ := attachChain_eq_ok hattach
    change (plan.withChain request [middle, goal] value).reread parseUuid = _ at hreread
    obtain ⟨json, hjson, hstored⟩ := Option.bind_eq_some_iff.mp hreread
    have hpaths := toJson_isSome.mp (Option.isSome_iff_exists.mpr ⟨json, hjson⟩)
    rw [planOf_toJson huuid (hplan.withChain _) hjson, Option.some_inj] at hstored
    rw [← hstored]
    exact ⟨toValue_isSome.mp (Option.isSome_iff_exists.mpr ⟨value, hvalue⟩), hpaths.1, hexecution value hvalue⟩
  · rintro ⟨hunicode, hengines, rfl⟩
    obtain ⟨value, hvalue⟩ := Option.isSome_iff_exists.mp (toValue_isSome.mpr hunicode)
    have hpaths : (plan.withChain request [middle, goal] value).IsUnicode ∧
        ∀ path, request.outputPath = some path → path.IsUnicode := ⟨hengines, hunicode.1⟩
    obtain ⟨json, hjson⟩ := Option.isSome_iff_exists.mp (toJson_isSome.mpr hpaths)
    refine ⟨plan.withChain request [middle, goal] value, plan.withChain request [middle, goal] value,
      attachChain_withChain hvalue, ?_, hexecution value hvalue⟩
    rw [Plan.reread, hjson, Option.bind_some, planOf_toJson huuid (hplan.withChain _) hjson]

theorem comes_iff (huuid : ∀ id : Uuid, parseUuid id.toText = some id) (hplan : plan.Fits)
    (hrequest : request.Fits) {target : String} {chain : ConversionChain}
    (hchain : findConversionChain shipped fileName target = some chain) :
    Comes parseUuid refusal fileName plan request chain ↔
      NamesFormat fileName ∧ request.IsUnicode ∧ plan.IsUnicode := by
  obtain ⟨inputExt, hext, middle, ⟨-, -, -, hfirst, -⟩, hhops⟩ := joins_of_found hchain
  generalize shipped.normalizeTarget target = goal at hhops
  have hnames : NamesFormat fileName ↔
      shipped.normalizeTarget inputExt = (Routes.pathExtension fileName).getD "" := by
    rw [NamesFormat, hext, Option.map_some]
    cases Routes.pathExtension fileName with
    | none => simpa [shipped] using ne_empty_of_edge hfirst
    | some extension => simp [shipped, eq_comm]
  have htargets : chain.hops.map ChainHop.toFormat = [middle, goal] := by
    rw [hhops]
    rfl
  have hbegin : chain = ⟨[hop ((Routes.pathExtension fileName).getD "") middle, hop middle goal]⟩ ↔
      shipped.normalizeTarget inputExt = (Routes.pathExtension fileName).getD "" := by
    constructor
    · intro hsame
      have hsource : chain.hops.head?.map ChainHop.fromFormat = some ((Routes.pathExtension fileName).getD "") := by
        rw [hsame, List.head?_cons, Option.map_some, hop_fromFormat]
      rw [hhops, List.head?_cons, Option.map_some, hop_fromFormat] at hsource
      exact Option.some_inj.mp hsource
    · intro hsource
      rw [← hsource, ← hhops]
  rw [hnames, Comes, htargets, stored_chain huuid hplan hrequest, ← hbegin, Option.some_inj, Except.ok.injEq,
    Prod.mk.injEq]
  constructor
  · rintro ⟨hunicode, hengines, hsame, -⟩
    exact ⟨hsame, hunicode, hengines⟩
  · rintro ⟨hsame, hunicode, hengines⟩
    exact ⟨hunicode, hengines, hsame, rfl⟩

end

/-- **A chain survives the queue** exactly if the extension of the file is the normal name of its format and the
    paths are Unicode; and a plan without a chain has none. -/
theorem chain_kept_iff (parseUuid : String → Option Uuid) (refusal : Json → String)
    (huuid : ∀ id : Uuid, parseUuid id.toText = some id) (fileName : Option Name) (plan : Plan)
    (request : PlanRequest) (hplan : plan.Fits) (hrequest : request.Fits) :
    (∀ target chain, findConversionChain shipped fileName target = some chain →
      (Comes parseUuid refusal fileName plan request chain ↔
        NamesFormat fileName ∧ request.IsUnicode ∧ plan.IsUnicode)) ∧
    (plan.constraints.lookup "chain" = none → chainExecutionFromPlan refusal plan fileName = none) := by
  constructor
  · intro target chain hchain
    exact comes_iff huuid hplan hrequest hchain
  · intro hnone
    rw [chainExecutionFromPlan, hnone, Option.map_none]

namespace ChainSample

/-- The reader of the hyphenated text of an identifier. -/
def parseUuid (text : String) : Option Uuid :=
  let id := BitVec.ofNat 128 (hexValue text.toList)
  if Uuid.toText id = text then some id else none

theorem parseUuid_toText (id : Uuid) : parseUuid id.toText = some id := by
  rw [parseUuid, Uuid.hexValue_toText, BitVec.ofNat_toNat, BitVec.setWidth_eq]
  exact if_pos rfl

def refusal (_ : Json) : String := "invalid type"

def plan : Plan where
  schemaVersion := 1
  planId := 7
  planHash := "blake3:00"
  inputFingerprint := "blake3:01"
  targetFormat := "txt"
  constraints := []
  steps := []
  changes := ⟨[], [], [], []⟩
  validators := []
  networkPolicy := .deny
  outputPath := none
  estimatedOutputBytes := none

def request : PlanRequest := minimalRequest "docx" (some (PathBuf.ofString "photo.docx"))

def fileName (text : String) : Option Name := some (PathBuf.ofString text)

def chain : ConversionChain := ⟨[hop "jpg" "txt", hop "txt" "docx"]⟩

theorem plan_fits : plan.Fits where
  schemaVersion := by decide
  estimatedTemporaryBytes := by simp [plan]
  estimatedOutputBytes := by simp [plan]

theorem request_fits : request.Fits := by
  constructor <;> simp [request, minimalRequest]

/-- The chain of a file that is named `.jpeg` does not come back. -/
theorem chain_lost : findConversionChain shipped (fileName "photo.jpeg") "docx" = some chain ∧
    ¬ Comes parseUuid refusal (fileName "photo.jpeg") plan request chain := by
  have hfound : findConversionChain shipped (fileName "photo.jpeg") "docx" = some chain := by decide +kernel
  refine ⟨hfound, ?_⟩
  rw [comes_iff parseUuid_toText plan_fits request_fits hfound]
  rintro ⟨hnames, -⟩
  revert hnames
  decide

theorem chain_kept_jpg : Comes parseUuid refusal (fileName "photo.jpg") plan request chain ∧
    chainExecutionFromPlan refusal plan (fileName "photo.jpg") = none := by
  obtain ⟨hkept, hnone⟩ := chain_kept_iff parseUuid refusal parseUuid_toText (fileName "photo.jpg") plan request
    plan_fits request_fits
  refine ⟨(hkept "docx" chain (by decide +kernel)).mpr ⟨by decide +kernel, ⟨?_, ?_⟩, ?_⟩, hnone rfl⟩
  · rintro path hpath
    cases hpath
    exact ⟨_, rfl⟩
  · simp [request, minimalRequest]
  · simp [Plan.IsUnicode, plan]

end ChainSample

end Anole.Planning
