import Mathlib
import Anole.Common.JsonDocument
import Anole.Planning.Plan

/-!
# Plans and requests read from JSON

Model of how `serde` reads a plan and a request (`crates/core/src/domain.rs`, lines 114–234, and
`crates/engine-sdk/src/lib.rs`, lines 12–80). A reader takes no field that is missing or of another
type, except where the source has a default, and passes over the fields that it does not know.

* `planRequestOf_toValue`, `planOf_toJson`: what was written is read back.

The numbers of the model have no upper bound; `Fits` says that they are of the types of the source.
-/

open Common Anole.Common

namespace Anole.Planning

/-! ## Readers -/

/-- A path is read as text. -/
def readPath (document : Document) : Option PathBuf := (readString document).map PathBuf.ofString

/-- An `i16`. -/
def readI16 : Document → Option ℤ
  | .number (.integer n) => if -2 ^ 15 ≤ n ∧ n < 2 ^ 15 then some n else none
  | _ => none

/-- `serde_json::from_value::<PlanRequest>` (`domain.rs`, lines 114–191). -/
def planRequestOf (fields : TextMap Document) : Option PlanRequest := do
  let targetFormat ← Common.requiredField readString fields "target_format"
  let outputPath ← optionalField readPath fields "output_path"
  let preserveAllStreams ← Common.requiredField readBool fields "preserve_all_streams"
  let audioStreamIndex ← optionalField (readUnsigned 32) fields "audio_stream_index"
  let startMillis ← optionalField (readUnsigned 64) fields "start_millis"
  let durationMillis ← optionalField (readUnsigned 64) fields "duration_millis"
  let width ← optionalField (readUnsigned 32) fields "width"
  let quality ← optionalField (readUnsigned 8) fields "quality"
  let dpi ← optionalField (readUnsigned 16) fields "dpi"
  let colorMode ← optionalField readString fields "color_mode"
  let framesPerSecond ← optionalField (readUnsigned 32) fields "frames_per_second"
  let loopCount ← optionalField (readUnsigned 16) fields "loop_count"
  let videoCrf ← optionalField (readUnsigned 8) fields "video_crf"
  let videoPreset ← optionalField readString fields "video_preset"
  let audioBitrateKbps ← optionalField (readUnsigned 32) fields "audio_bitrate_kbps"
  let operation ← optionalField readString fields "operation"
  let inputs ← defaultedField (readArray readPath) fields "inputs" []
  let pageRange ← optionalField readString fields "page_range"
  let allowLossyData ← defaultedField readBool fields "allow_lossy_data" false
  let rotateAngle ← optionalField (readUnsigned 16) fields "rotate_angle"
  let password ← optionalField readString fields "password"
  let ocrLanguage ← optionalField readString fields "ocr_language"
  let watermarkText ← optionalField readString fields "watermark_text"
  let watermarkAngle ← optionalField readI16 fields "watermark_angle"
  let targetSizeBytes ← optionalField (readUnsigned 64) fields "target_size_bytes"
  let metadataTitle ← optionalField readString fields "metadata_title"
  let metadataAuthor ← optionalField readString fields "metadata_author"
  pure { targetFormat, outputPath, preserveAllStreams, audioStreamIndex, startMillis, durationMillis, width, quality,
         dpi, colorMode, framesPerSecond, loopCount, videoCrf, videoPreset, audioBitrateKbps, operation, inputs,
         pageRange, allowLossyData, rotateAngle, password, ocrLanguage, watermarkText, watermarkAngle,
         targetSizeBytes, metadataTitle, metadataAuthor }

/-- An object, as its fields. -/
def readFields : Document → Option (TextMap Document)
  | .object fields => some fields
  | _ => none

/-- A variant of an enumeration, by its name. -/
def readVariant {α : Type} (name : α → String) (variants : List α) (document : Document) : Option α :=
  (readString document).bind fun text => variants.find? fun variant => name variant = text

def readEngineIdentity (document : Document) : Option EngineIdentity := do
  let fields ← readFields document
  let engineId ← Common.requiredField readString fields "engine_id"
  let version ← Common.requiredField readString fields "version"
  let binaryPath ← Common.requiredField readPath fields "binary_path"
  let binarySha256 ← Common.requiredField readString fields "binary_sha256"
  let manifestSha256 ← optionalField readString fields "manifest_sha256"
  let buildConfiguration ← optionalField readString fields "build_configuration"
  let certification ← Common.requiredField
    (readVariant Certification.json [.certified, .experimental, .unverified]) fields "certification"
  pure { engineId, version, binaryPath, binarySha256, manifestSha256, buildConfiguration, certification }

/-- A map of texts, in the order of its keys. -/
def readArguments (document : Document) : Option (TextMap String) := do
  let fields ← readFields document
  fields.mapM fun field => (readString field.2).map fun text => (field.1, text)

def readPlanStep (document : Document) : Option PlanStep := do
  let fields ← readFields document
  let stepId ← Common.requiredField readString fields "step_id"
  let capabilityId ← Common.requiredField readString fields "capability_id"
  let engine ← Common.requiredField readEngineIdentity fields "engine"
  let operation ← Common.requiredField (readVariant operationJson
    [.inspect, .remux, .transcode, .transform, .render, .serialize, .metadataClean]) fields "operation"
  let lossClass ← Common.requiredField (readVariant LossClass.json
    [.none, .containerOnly, .lossless, .lossy, .unknown]) fields "loss_class"
  let arguments ← Common.requiredField readArguments fields "arguments"
  let estimatedTemporaryBytes ← optionalField (readUnsigned 64) fields "estimated_temporary_bytes"
  pure { stepId, capabilityId, engine, operation, lossClass, arguments, estimatedTemporaryBytes }

def readChangeSet (document : Document) : Option ChangeSet := do
  let fields ← readFields document
  let preserved ← Common.requiredField (readArray readString) fields "preserved"
  let changed ← Common.requiredField (readArray readString) fields "changed"
  let dropped ← Common.requiredField (readArray readString) fields "dropped"
  let unknown ← Common.requiredField (readArray readString) fields "unknown"
  pure { preserved, changed, dropped, unknown }

/-- `BTreeMap<String, Value>`. -/
def readConstraints (document : Document) : Option (TextMap Json) := do
  let fields ← readFields document
  Json.ofEntryDocuments fields

/-- `serde_json::from_str::<Plan>`, with the text reader of identifiers. -/
def planOf (parseUuid : String → Option Uuid) (document : Document) : Option Plan := do
  let fields ← readFields document
  let schemaVersion ← Common.requiredField (readUnsigned 32) fields "schema_version"
  let planId ← Common.requiredField (fun id => (readString id).bind parseUuid) fields "plan_id"
  let planHash ← Common.requiredField readString fields "plan_hash"
  let inputFingerprint ← Common.requiredField readString fields "input_fingerprint"
  let targetFormat ← Common.requiredField readString fields "target_format"
  let constraints ← Common.requiredField readConstraints fields "constraints"
  let steps ← Common.requiredField (readArray readPlanStep) fields "steps"
  let changes ← Common.requiredField readChangeSet fields "changes"
  let validators ← Common.requiredField (readArray readString) fields "validators"
  let networkPolicy ← Common.requiredField
    (readVariant NetworkPolicy.json [.deny, .explicitAllow]) fields "network_policy"
  let outputPath ← optionalField readPath fields "output_path"
  let estimatedOutputBytes ← optionalField (readUnsigned 64) fields "estimated_output_bytes"
  pure { schemaVersion, planId, planHash, inputFingerprint, targetFormat, constraints, steps, changes, validators,
         networkPolicy, outputPath, estimatedOutputBytes }

/-! ## Values of the types of the source -/

/-- The numbers of a request are of their types. -/
structure PlanRequest.Fits (request : PlanRequest) : Prop where
  audioStreamIndex : ∀ n ∈ request.audioStreamIndex, n < 2 ^ 32
  startMillis : ∀ n ∈ request.startMillis, n < 2 ^ 64
  durationMillis : ∀ n ∈ request.durationMillis, n < 2 ^ 64
  width : ∀ n ∈ request.width, n < 2 ^ 32
  quality : ∀ n ∈ request.quality, n < 2 ^ 8
  dpi : ∀ n ∈ request.dpi, n < 2 ^ 16
  framesPerSecond : ∀ n ∈ request.framesPerSecond, n < 2 ^ 32
  loopCount : ∀ n ∈ request.loopCount, n < 2 ^ 16
  videoCrf : ∀ n ∈ request.videoCrf, n < 2 ^ 8
  audioBitrateKbps : ∀ n ∈ request.audioBitrateKbps, n < 2 ^ 32
  rotateAngle : ∀ n ∈ request.rotateAngle, n < 2 ^ 16
  watermarkAngle : ∀ n ∈ request.watermarkAngle, -2 ^ 15 ≤ n ∧ n < 2 ^ 15
  targetSizeBytes : ∀ n ∈ request.targetSizeBytes, n < 2 ^ 64

/-- The numbers of a plan are of their types. -/
structure Plan.Fits (plan : Plan) : Prop where
  schemaVersion : plan.schemaVersion < 2 ^ 32
  estimatedTemporaryBytes : ∀ step ∈ plan.steps, ∀ n ∈ step.estimatedTemporaryBytes, n < 2 ^ 64
  estimatedOutputBytes : ∀ n ∈ plan.estimatedOutputBytes, n < 2 ^ 64

/-! ## What was written is read back -/

section Written

variable {entries : List (String × Json)} (key : String) {value : Json}

theorem readPath_written {path : PathBuf} (h : pathToJson path = some value) :
    readPath value.document = some path := by
  obtain ⟨text, htext, rfl⟩ := Option.map_eq_some_iff.mp h
  rw [Json.document, readPath, readString, Option.map_some, ← eq_ofString_of_toStr? htext]

theorem optionalField_path {path : Option PathBuf} (value : Json) (hvalue : optionalPathToJson path = some value)
    (hfield : entries.lookup key = some value) :
    optionalField readPath (Json.entryDocuments entries) key = some path := by
  rw [optionalField, Json.lookup_documents, hfield, Option.map_some]
  cases path with
  | none =>
    cases hvalue
    rw [Json.document]
  | some path =>
    obtain ⟨text, htext, rfl⟩ := Option.map_eq_some_iff.mp hvalue
    have hread := readPath_written hvalue
    rw [Json.document] at hread ⊢
    simp only [hread, Option.map_some]

theorem optionalField_string (text : Option String) (hfield : entries.lookup key = some (.ofOption .string text)) :
    optionalField readString (Json.entryDocuments entries) key = some text := by
  refine optionalField_ofOption key _ hfield ?_ fun text _ => readsBack_string text
  intro text
  rw [Json.document]
  exact Document.noConfusion

theorem optionalField_natural {bits : ℕ} (n : Option ℕ) (hfield : entries.lookup key = some (.ofOption .natural n))
    (h : ∀ m ∈ n, m < 2 ^ bits) :
    optionalField (readUnsigned bits) (Json.entryDocuments entries) key = some n := by
  refine optionalField_ofOption key _ hfield ?_ fun m hm => readsBack_natural (h m hm)
  intro m
  rw [Json.natural, Json.document]
  exact Document.noConfusion

theorem optionalField_angle (n : Option ℤ) (hfield : entries.lookup key = some (.ofOption .number n))
    (h : ∀ m ∈ n, -2 ^ 15 ≤ m ∧ m < 2 ^ 15) :
    optionalField readI16 (Json.entryDocuments entries) key = some n := by
  refine optionalField_ofOption key _ hfield ?_ ?_
  · intro m
    rw [Json.document]
    exact Document.noConfusion
  · intro m hm
    rw [ReadsBack, Json.document, readI16, if_pos (h m hm)]

theorem readVariant_written {α : Type} {name : α → String} {variants : List α} {variant : α}
    (h : variants.find? (fun other => name other = name variant) = some variant) :
    readVariant name variants (Json.string (name variant)).document = some variant := by
  rw [Json.document, readVariant, readString, Option.bind_some, h]

theorem planRequestOf_toValue {request : PlanRequest} (hfits : request.Fits)
    (h : request.toValue = some value) : (readFields value.document).bind planRequestOf = some request := by
  obtain ⟨outputPath, houtput, h⟩ := Option.bind_eq_some_iff.mp h
  obtain ⟨inputs, hinputs, h⟩ := Option.bind_eq_some_iff.mp h
  cases h
  rw [Json.document, readFields, Option.bind_some]
  have hpaths : readArray readPath (Json.array inputs).document = some request.inputs :=
    readArray_mapM (fun path _ value hvalue => readPath_written hvalue) hinputs
  generalize hwritten : List.cons ("target_format", Json.string request.targetFormat) _ = written
  have hkeys : (written.map Prod.fst).Nodup := by
    rw [← hwritten]
    simp only [List.map_cons, List.map_nil]
    decide
  have hfield : ∀ (key : String) (value : Json), (key, value) ∈ written →
      (TextMap.ofList written).lookup key = some value := fun key value hmem =>
    TextMap.lookup_ofList_of_mem hkeys hmem
  have text := fun key text hmem => optionalField_string key text (hfield key _ hmem)
  have natural := fun {bits n} key hmem (h : ∀ m ∈ n, m < 2 ^ bits) =>
    optionalField_natural key n (hfield key _ hmem) h
  rw [planRequestOf,
    requiredField_document _ _ (hfield "target_format" (.string request.targetFormat) (by simp [← hwritten]))
      (readsBack_string _),
    optionalField_path "output_path" outputPath houtput (hfield _ _ (by simp [← hwritten])),
    requiredField_document _ _ (hfield "preserve_all_streams" (.bool request.preserveAllStreams) (by simp [← hwritten]))
      (readsBack_bool _),
    natural "audio_stream_index" (by simp [← hwritten]) hfits.audioStreamIndex,
    natural "start_millis" (by simp [← hwritten]) hfits.startMillis,
    natural "duration_millis" (by simp [← hwritten]) hfits.durationMillis,
    natural "width" (by simp [← hwritten]) hfits.width,
    natural "quality" (by simp [← hwritten]) hfits.quality,
    natural "dpi" (by simp [← hwritten]) hfits.dpi,
    text "color_mode" request.colorMode (by simp [← hwritten]),
    natural "frames_per_second" (by simp [← hwritten]) hfits.framesPerSecond,
    natural "loop_count" (by simp [← hwritten]) hfits.loopCount,
    natural "video_crf" (by simp [← hwritten]) hfits.videoCrf,
    text "video_preset" request.videoPreset (by simp [← hwritten]),
    natural "audio_bitrate_kbps" (by simp [← hwritten]) hfits.audioBitrateKbps,
    text "operation" request.operation (by simp [← hwritten]),
    defaultedField_document _ _ (hfield "inputs" (.array inputs) (by simp [← hwritten])) hpaths,
    text "page_range" request.pageRange (by simp [← hwritten]),
    defaultedField_document _ _ (hfield "allow_lossy_data" (.bool request.allowLossyData) (by simp [← hwritten]))
      (readsBack_bool _),
    natural "rotate_angle" (by simp [← hwritten]) hfits.rotateAngle,
    text "password" request.password (by simp [← hwritten]),
    text "ocr_language" request.ocrLanguage (by simp [← hwritten]),
    text "watermark_text" request.watermarkText (by simp [← hwritten]),
    optionalField_angle _ _ (hfield "watermark_angle" (.ofOption .number request.watermarkAngle) (by simp [← hwritten]))
      hfits.watermarkAngle,
    natural "target_size_bytes" (by simp [← hwritten]) hfits.targetSizeBytes,
    text "metadata_title" request.metadataTitle (by simp [← hwritten]),
    text "metadata_author" request.metadataAuthor (by simp [← hwritten])]
  rfl

theorem readEngineIdentity_toJson {engine : EngineIdentity} (h : engine.toJson = some value) :
    readEngineIdentity value.document = some engine := by
  obtain ⟨binaryPath, hpath, h⟩ := Option.bind_eq_some_iff.mp h
  cases h
  rw [Json.document, readEngineIdentity, readFields, Option.bind_eq_bind, Option.bind_some]
  generalize hwritten : List.cons ("engine_id", Json.string engine.engineId) _ = written
  have text := fun key text (h : written.lookup key = some (.string text)) =>
    requiredField_document key _ h (readsBack_string text)
  have hcertification : readVariant Certification.json [.certified, .experimental, .unverified]
      (Json.string engine.certification.json).document = some engine.certification :=
    readVariant_written (by cases engine.certification <;> decide)
  rw [text "engine_id" engine.engineId (by simp [← hwritten]),
    text "version" engine.version (by simp [← hwritten, List.lookup]),
    requiredField_document "binary_path" binaryPath (by simp [← hwritten, List.lookup]) (readPath_written hpath),
    text "binary_sha256" engine.binarySha256 (by simp [← hwritten, List.lookup]),
    optionalField_string "manifest_sha256" engine.manifestSha256 (by simp [← hwritten, List.lookup]),
    optionalField_string "build_configuration" engine.buildConfiguration (by simp [← hwritten, List.lookup]),
    requiredField_document "certification" _ (by simp [← hwritten, List.lookup]) hcertification]
  rfl

theorem readArguments_written (arguments : TextMap String) :
    readArguments (argumentsJson arguments).document = some arguments := by
  rw [argumentsJson, Json.document, readArguments, readFields, Option.bind_eq_bind, Option.bind_some]
  induction arguments with
  | nil => rfl
  | cons argument arguments ih =>
    rw [List.map_cons, Json.entryDocuments, List.mapM_cons, ih, Json.document]
    rfl

theorem readPlanStep_toJson {step : PlanStep} (hfits : ∀ n ∈ step.estimatedTemporaryBytes, n < 2 ^ 64)
    (h : step.toJson = some value) : readPlanStep value.document = some step := by
  obtain ⟨engine, hengine, h⟩ := Option.bind_eq_some_iff.mp h
  cases h
  rw [Json.document, readPlanStep, readFields, Option.bind_eq_bind, Option.bind_some]
  generalize hwritten : List.cons ("step_id", Json.string step.stepId) _ = written
  have hoperation : readVariant operationJson
      [.inspect, .remux, .transcode, .transform, .render, .serialize, .metadataClean]
      (Json.string (operationJson step.operation)).document = some step.operation :=
    readVariant_written (by cases step.operation <;> decide)
  have hlossClass : readVariant LossClass.json [.none, .containerOnly, .lossless, .lossy, .unknown]
      (Json.string step.lossClass.json).document = some step.lossClass :=
    readVariant_written (by cases step.lossClass <;> decide)
  rw [requiredField_document "step_id" (.string step.stepId) (by simp [← hwritten]) (readsBack_string _),
    requiredField_document "capability_id" (.string step.capabilityId) (by simp [← hwritten, List.lookup])
      (readsBack_string _),
    requiredField_document "engine" engine (by simp [← hwritten, List.lookup]) (readEngineIdentity_toJson hengine),
    requiredField_document "operation" _ (by simp [← hwritten, List.lookup]) hoperation,
    requiredField_document "loss_class" _ (by simp [← hwritten, List.lookup]) hlossClass,
    requiredField_document "arguments" (argumentsJson step.arguments) (by simp [← hwritten, List.lookup])
      (readArguments_written _),
    optionalField_natural "estimated_temporary_bytes" step.estimatedTemporaryBytes
      (by simp [← hwritten, List.lookup]) hfits]
  rfl

theorem readChangeSet_toJson (changes : ChangeSet) : readChangeSet changes.toJson.document = some changes := by
  rw [ChangeSet.toJson, Json.document, readChangeSet, readFields, Option.bind_eq_bind, Option.bind_some]
  generalize hwritten : List.cons ("preserved", Json.strings changes.preserved) _ = written
  have strings := fun key texts (h : written.lookup key = some (.strings texts)) =>
    requiredField_document key _ h (readArray_strings texts)
  rw [strings "preserved" changes.preserved (by simp [← hwritten]),
    strings "changed" changes.changed (by simp [← hwritten, List.lookup]),
    strings "dropped" changes.dropped (by simp [← hwritten, List.lookup]),
    strings "unknown" changes.unknown (by simp [← hwritten, List.lookup])]
  rfl

/-- **A plan is read back** from what was written of it. -/
theorem planOf_toJson {parseUuid : String → Option Uuid} (huuid : ∀ id : Uuid, parseUuid id.toText = some id)
    {plan : Plan} (hfits : plan.Fits) (h : plan.toJson = some value) :
    planOf parseUuid value.document = some plan := by
  obtain ⟨steps, hsteps, h⟩ := Option.bind_eq_some_iff.mp h
  obtain ⟨outputPath, houtput, h⟩ := Option.bind_eq_some_iff.mp h
  cases h
  rw [Json.document, planOf, readFields, Option.bind_eq_bind, Option.bind_some]
  generalize hwritten : List.cons ("schema_version", Json.natural plan.schemaVersion) _ = written
  have text := fun key text (h : written.lookup key = some (.string text)) =>
    requiredField_document key _ h (readsBack_string text)
  have hid : (readString (Json.string plan.planId.toText).document).bind parseUuid = some plan.planId := by
    rw [Json.document, readString, Option.bind_some, huuid]
  have hconstraints : readConstraints (Json.object plan.constraints).document = some plan.constraints := by
    rw [Json.document, readConstraints, readFields, Option.bind_eq_bind, Option.bind_some,
      Json.ofEntryDocuments_documents]
  have hreadSteps : readArray readPlanStep (Json.array steps).document = some plan.steps :=
    readArray_mapM (fun step hstep _ hvalue =>
      readPlanStep_toJson (hfits.estimatedTemporaryBytes step hstep) hvalue) hsteps
  have hpolicy : readVariant NetworkPolicy.json [.deny, .explicitAllow]
      (Json.string plan.networkPolicy.json).document = some plan.networkPolicy :=
    readVariant_written (by cases plan.networkPolicy <;> decide)
  rw [requiredField_document "schema_version" _ (by simp [← hwritten]) (readsBack_natural hfits.schemaVersion),
    requiredField_document "plan_id" (.string plan.planId.toText) (by simp [← hwritten, List.lookup]) hid,
    text "plan_hash" plan.planHash (by simp [← hwritten, List.lookup]),
    text "input_fingerprint" plan.inputFingerprint (by simp [← hwritten, List.lookup]),
    text "target_format" plan.targetFormat (by simp [← hwritten, List.lookup]),
    requiredField_document "constraints" (.object plan.constraints) (by simp [← hwritten, List.lookup]) hconstraints,
    requiredField_document "steps" (.array steps) (by simp [← hwritten, List.lookup]) hreadSteps,
    requiredField_document "changes" plan.changes.toJson (by simp [← hwritten, List.lookup]) (readChangeSet_toJson _),
    requiredField_document "validators" (.strings plan.validators) (by simp [← hwritten, List.lookup])
      (readArray_strings _),
    requiredField_document "network_policy" _ (by simp [← hwritten, List.lookup]) hpolicy,
    optionalField_path "output_path" outputPath houtput (by simp [← hwritten, List.lookup]),
    optionalField_natural "estimated_output_bytes" plan.estimatedOutputBytes (by simp [← hwritten, List.lookup])
      hfits.estimatedOutputBytes]
  rfl

end Written

end Anole.Planning
