import Anole.Common.Json
import Anole.Store.Jobs

/-!
# Plans

Model of the data that the planners read and write (`crates/core/src/domain.rs`, lines 8–234,
and `crates/engine-sdk/src/lib.rs`, lines 12–80), with the JSON in which a plan is stored and
the hash of a plan (`planner.rs`, lines 1248–1332).

The types of `Domain.lean` with the same names have the fields that the store and the queue
read; here they have all that is serialised.
-/

namespace Anole.Planning

open Anole.Common

/-! ## Serialisation of paths -/

/-- The character of a unit that is one. -/
def toChar? : PathUnit → Option Char
  | .char c => some c
  | .illFormed _ => none

/-- `Path::to_str`. -/
def toStr? (path : PathBuf) : Option String := (path.mapM toChar?).map String.ofList

/-- A path that is text is made of the text. -/
theorem eq_ofString_of_toStr? {path : PathBuf} {text : String} (h : toStr? path = some text) :
    path = PathBuf.ofString text := by
  obtain ⟨chars, hchars, rfl⟩ := Option.map_eq_some_iff.mp h
  rw [PathBuf.ofString, String.toList_ofList]
  clear h
  induction path generalizing chars with
  | nil =>
    cases hchars
    rfl
  | cons unit path ih =>
    rw [List.mapM_cons] at hchars
    obtain ⟨c, hc, hrest⟩ := Option.bind_eq_some_iff.mp hchars
    obtain ⟨cs, hcs, hchars⟩ := Option.bind_eq_some_iff.mp hrest
    cases hchars
    cases unit with
    | char _ =>
      cases hc
      exact congrArg _ (ih cs hcs)
    | illFormed _ => cases hc

theorem toStr?_ofString (text : String) : toStr? (PathBuf.ofString text) = some text := by
  have hchars : ∀ chars : List Char, (chars.map PathUnit.char).mapM toChar? = some chars := by
    intro chars
    induction chars with
    | nil => rfl
    | cons c chars ih =>
      rw [List.map_cons, List.mapM_cons, ih]
      rfl
  rw [toStr?, PathBuf.ofString, hchars, Option.map_some, String.ofList_toList]

/-- `serde` serialises a path as text, and refuses one that is not Unicode. -/
def pathToJson (path : PathBuf) : Option Json := (toStr? path).map .string

def optionalPathToJson : Option PathBuf → Option Json
  | none => some .null
  | some path => pathToJson path

/-! ## Probes -/

/-- `FormatKind`. -/
inductive FormatKind where
  | image | video | audio | document | pdf | data | archive | unknown
  deriving DecidableEq

/-- `StreamKind`. -/
inductive StreamKind where
  | video | audio | subtitle | attachment | data | page | recordSet | unknown
  deriving DecidableEq

/-- `ArtifactIdentity`, the fields that a planner reads. -/
structure ArtifactIdentity where
  displayPath : String
  canonicalPath : PathBuf
  sizeBytes : ℕ
  fastFingerprint : String

/-- `FormatDescriptor`, the fields that a planner reads. -/
structure FormatDescriptor where
  id : String
  kind : FormatKind

/-- `StreamProbe` of a page, with the properties `width_points`, `height_points` and
    `rotation_degrees`; `φ` stands for `f64`. -/
structure StreamProbe (φ : Type) where
  kind : StreamKind
  widthPoints : Option φ
  heightPoints : Option φ
  rotationDegrees : Option ℤ

/-- `Probe`, the fields that a planner reads. -/
structure Probe (φ : Type) where
  artifact : ArtifactIdentity
  format : FormatDescriptor
  streams : List (StreamProbe φ)

/-! ## Requests -/

/-- `PlanRequest` (lines 121–191). -/
structure PlanRequest where
  targetFormat : String
  outputPath : Option PathBuf
  preserveAllStreams : Bool
  audioStreamIndex : Option ℕ
  startMillis : Option ℕ
  durationMillis : Option ℕ
  width : Option ℕ
  quality : Option ℕ
  dpi : Option ℕ
  colorMode : Option String
  framesPerSecond : Option ℕ
  loopCount : Option ℕ
  videoCrf : Option ℕ
  videoPreset : Option String
  audioBitrateKbps : Option ℕ
  operation : Option String
  inputs : List PathBuf
  pageRange : Option String
  allowLossyData : Bool
  rotateAngle : Option ℕ
  password : Option String
  ocrLanguage : Option String
  watermarkText : Option String
  watermarkAngle : Option ℤ
  targetSizeBytes : Option ℕ
  metadataTitle : Option String
  metadataAuthor : Option String

/-- `serde_json::to_value` on a request. -/
def PlanRequest.toValue (request : PlanRequest) : Option Json := do
  let outputPath ← optionalPathToJson request.outputPath
  let inputs ← request.inputs.mapM pathToJson
  pure (.object (TextMap.ofList [
    ("target_format", .string request.targetFormat),
    ("output_path", outputPath),
    ("preserve_all_streams", .bool request.preserveAllStreams),
    ("audio_stream_index", .ofOption .natural request.audioStreamIndex),
    ("start_millis", .ofOption .natural request.startMillis),
    ("duration_millis", .ofOption .natural request.durationMillis),
    ("width", .ofOption .natural request.width),
    ("quality", .ofOption .natural request.quality),
    ("dpi", .ofOption .natural request.dpi),
    ("color_mode", .ofOption .string request.colorMode),
    ("frames_per_second", .ofOption .natural request.framesPerSecond),
    ("loop_count", .ofOption .natural request.loopCount),
    ("video_crf", .ofOption .natural request.videoCrf),
    ("video_preset", .ofOption .string request.videoPreset),
    ("audio_bitrate_kbps", .ofOption .natural request.audioBitrateKbps),
    ("operation", .ofOption .string request.operation),
    ("inputs", .array inputs),
    ("page_range", .ofOption .string request.pageRange),
    ("allow_lossy_data", .bool request.allowLossyData),
    ("rotate_angle", .ofOption .natural request.rotateAngle),
    ("password", .ofOption .string request.password),
    ("ocr_language", .ofOption .string request.ocrLanguage),
    ("watermark_text", .ofOption .string request.watermarkText),
    ("watermark_angle", .ofOption .number request.watermarkAngle),
    ("target_size_bytes", .ofOption .natural request.targetSizeBytes),
    ("metadata_title", .ofOption .string request.metadataTitle),
    ("metadata_author", .ofOption .string request.metadataAuthor)]))

/-! ## Plans -/

/-- `Certification`. -/
inductive Certification where
  | certified | experimental | unverified
  deriving DecidableEq

def Certification.json : Certification → String
  | certified => "certified"
  | experimental => "experimental"
  | unverified => "unverified"

/-- `LossClass`. -/
inductive LossClass where
  | none | containerOnly | lossless | lossy | unknown
  deriving DecidableEq

def LossClass.json : LossClass → String
  | none => "none"
  | containerOnly => "container-only"
  | lossless => "lossless"
  | lossy => "lossy"
  | unknown => "unknown"

def operationJson : Operation → String
  | .inspect => "inspect"
  | .remux => "remux"
  | .transcode => "transcode"
  | .transform => "transform"
  | .render => "render"
  | .serialize => "serialize"
  | .metadataClean => "metadata-clean"

/-- `NetworkPolicy`. -/
inductive NetworkPolicy where
  | deny | explicitAllow
  deriving DecidableEq

def NetworkPolicy.json : NetworkPolicy → String
  | deny => "deny"
  | explicitAllow => "explicit-allow"

/-- `EngineIdentity` (`engine-sdk/src/lib.rs`, lines 72–80). -/
structure EngineIdentity where
  engineId : String
  version : String
  binaryPath : PathBuf
  binarySha256 : String
  manifestSha256 : Option String
  buildConfiguration : Option String
  certification : Certification
  deriving DecidableEq

def EngineIdentity.toJson (engine : EngineIdentity) : Option Json := do
  let binaryPath ← pathToJson engine.binaryPath
  pure (.object [
    ("engine_id", .string engine.engineId),
    ("version", .string engine.version),
    ("binary_path", binaryPath),
    ("binary_sha256", .string engine.binarySha256),
    ("manifest_sha256", .ofOption .string engine.manifestSha256),
    ("build_configuration", .ofOption .string engine.buildConfiguration),
    ("certification", .string engine.certification.json)])

/-- `ChangeSet`. -/
structure ChangeSet where
  preserved : List String
  changed : List String
  dropped : List String
  unknown : List String

def ChangeSet.toJson (changes : ChangeSet) : Json :=
  .object [
    ("preserved", .strings changes.preserved),
    ("changed", .strings changes.changed),
    ("dropped", .strings changes.dropped),
    ("unknown", .strings changes.unknown)]

/-- `PlanStep` (lines 210–218). -/
structure PlanStep where
  stepId : String
  capabilityId : String
  engine : EngineIdentity
  operation : Operation
  lossClass : LossClass
  arguments : TextMap String
  estimatedTemporaryBytes : Option ℕ
  deriving DecidableEq

def argumentsJson (arguments : TextMap String) : Json :=
  .object (arguments.map fun argument => (argument.1, .string argument.2))

def PlanStep.toJson (step : PlanStep) : Option Json := do
  let engine ← step.engine.toJson
  pure (.object [
    ("step_id", .string step.stepId),
    ("capability_id", .string step.capabilityId),
    ("engine", engine),
    ("operation", .string (operationJson step.operation)),
    ("loss_class", .string step.lossClass.json),
    ("arguments", argumentsJson step.arguments),
    ("estimated_temporary_bytes", .ofOption .natural step.estimatedTemporaryBytes)])

/-- `Plan` (lines 221–234). -/
structure Plan where
  schemaVersion : ℕ
  planId : Uuid
  planHash : String
  inputFingerprint : String
  targetFormat : String
  constraints : TextMap Json
  steps : List PlanStep
  changes : ChangeSet
  validators : List String
  networkPolicy : NetworkPolicy
  outputPath : Option PathBuf
  estimatedOutputBytes : Option ℕ

/-- The JSON of a plan in the job database (`plan_json`). -/
def Plan.toJson (plan : Plan) : Option Json := do
  let steps ← plan.steps.mapM PlanStep.toJson
  let outputPath ← optionalPathToJson plan.outputPath
  pure (.object [
    ("schema_version", .natural plan.schemaVersion),
    ("plan_id", .string plan.planId.toText),
    ("plan_hash", .string plan.planHash),
    ("input_fingerprint", .string plan.inputFingerprint),
    ("target_format", .string plan.targetFormat),
    ("constraints", .object plan.constraints),
    ("steps", .array steps),
    ("changes", plan.changes.toJson),
    ("validators", .strings plan.validators),
    ("network_policy", .string plan.networkPolicy.json),
    ("output_path", outputPath),
    ("estimated_output_bytes", .ofOption .natural plan.estimatedOutputBytes)])

/-! ## The hash of a plan -/

/-- What is not modelled: BLAKE3, in hexadecimal, of `serde_json::to_vec` of a value and of a
    text; `poppler_raster_dimension` (`pdf.rs`, lines 815–833) of a length in points scaled to a
    resolution; and the `Debug` rendering of a text. -/
structure PlannerTools (φ : Type) where
  blake3Json : Json → String
  blake3Text : String → String
  rasterDimension : φ → ℕ → Except AnoleError ℕ
  debugText : String → String

/-- `HashStep`, without the path and the build of the engine. -/
def PlanStep.hashMaterial (step : PlanStep) : Json :=
  .object [
    ("step_id", .string step.stepId),
    ("capability_id", .string step.capabilityId),
    ("engine", .object [
      ("engine_id", .string step.engine.engineId),
      ("version", .string step.engine.version),
      ("binary_sha256", .string step.engine.binarySha256),
      ("manifest_sha256", .ofOption .string step.engine.manifestSha256),
      ("certification", .string step.engine.certification.json)]),
    ("operation", .string (operationJson step.operation)),
    ("loss_class", .string step.lossClass.json),
    ("arguments", argumentsJson step.arguments),
    ("estimated_temporary_bytes", .ofOption .natural step.estimatedTemporaryBytes)]

/-- `HashMaterial`. -/
def Plan.hashMaterial (plan : Plan) : Json :=
  .object [
    ("schema_version", .natural plan.schemaVersion),
    ("input_fingerprint", .string plan.inputFingerprint),
    ("target_format", .string plan.targetFormat),
    ("constraints", .object plan.constraints),
    ("steps", .array (plan.steps.map PlanStep.hashMaterial)),
    ("changes", plan.changes.toJson),
    ("validators", .strings plan.validators),
    ("network_policy", .string plan.networkPolicy.json)]

/-- `deterministic_plan_hash` (`planner.rs`, lines 1248–1332). -/
def deterministicPlanHash {φ : Type} (tools : PlannerTools φ) (plan : Plan) : String :=
  "blake3:" ++ tools.blake3Json plan.hashMaterial

/-- `plan.plan_hash = deterministic_plan_hash(&plan)?`. -/
def Plan.hashed {φ : Type} (tools : PlannerTools φ) (plan : Plan) : Plan :=
  { plan with planHash := deterministicPlanHash tools plan }

/-! ## Chains -/

/-- `attach_chain_plan_metadata` (`chain.rs`, lines 33–60). -/
def attachChainPlanMetadata (plan : Plan) (request : PlanRequest) (hopTargets : List String) :
    Except AnoleError Plan :=
  match request.toValue with
  | none =>
    .error ((AnoleError.new .internal .plan "Unable to snapshot the chained conversion request"
      "Retry the queue operation.").withDiagnostic "path contains invalid UTF-8 characters")
  | some requestJson =>
    .ok { plan with
      constraints := (plan.constraints.insert "chain" (.strings hopTargets)).insert
        "chain_request" requestJson
      outputPath := request.outputPath }

end Anole.Planning
