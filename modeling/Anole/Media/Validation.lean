import Anole.Common.Rounding
import Anole.Media.Planners

/-!
# The media validator

Model of `validate_media_output` (`crates/core/src/validation.rs`, lines 12–541): the checks that the
output of a media plan has to pass. Seconds are an opaque type, and the arithmetic on them is a
parameter.
-/

open Anole.Common
open Anole.Planning (StreamKind u32Max)

namespace Anole.Media

/-! ## Checks -/

/-- `ValidationStatus::rank` (`domain.rs`, lines 237–244). -/
def statusRank : ValidationStatus → ℕ
  | .pass => 0
  | .warning => 1
  | .unknown => 2
  | .fail => 3

/-- `ValidationStatus::worst`. -/
def worst (a b : ValidationStatus) : ValidationStatus := if statusRank b ≤ statusRank a then a else b

/-- `ValidationCheck`. -/
structure ValidationCheck where
  code : String
  status : ValidationStatus
  required : Bool
  expected : Json
  observed : Json
  evidence : String
  message : String

/-- `aggregate_status` (lines 513–521). -/
def aggregateStatus (checks : List ValidationCheck) : ValidationStatus :=
  checks.foldl (fun status item => if item.required then worst status item.status else status) .pass

/-- A required check that passes when a condition holds, with the message of either case. -/
def checkThat (code : String) (holds : Bool) (expected observed : Json) (evidence whenHolds otherwise : String) :
    ValidationCheck :=
  ⟨code, if holds then .pass else .fail, true, expected, observed, evidence, if holds then whenHolds else otherwise⟩

/-! ## Expectations -/

/-- The arithmetic of seconds (`f64`). -/
structure SecondsTools (φ : Type) where
  ofMillis : ℕ → φ
  /-- `(a - b).max(0.0)`. -/
  remaining : φ → φ → φ
  /-- `(a - b).abs()`. -/
  difference : φ → φ → φ
  /-- The tolerance of a remux, 0.050, and of everything else, 0.250. -/
  tolerance : Operation → φ
  within : φ → φ → Bool
  toJson : φ → Json

/-- `expected_audio_codec` (lines 491–501). -/
def expectedAudioCodec : String → Option String
  | "mp3" => some "mp3"
  | "m4a" | "aac" => some "aac"
  | "wav" => some "pcm_s16le"
  | "flac" => some "flac"
  | "ogg" => some "vorbis"
  | "opus" => some "opus"
  | _ => none

/-- `is_image_target` (lines 437–439). -/
def isImageTarget (target : String) : Bool := target ∈ ["jpeg", "png", "webp", "avif", "tiff", "bmp"]

/-- `expected_image_codec` (lines 441–451). -/
def expectedImageCodec : String → Option String
  | "jpeg" => some "mjpeg"
  | "png" => some "png"
  | "webp" => some "webp"
  | "avif" => some "av1"
  | "tiff" => some "tiff"
  | "bmp" => some "bmp"
  | _ => none

/-- An argument of the first step. -/
def firstArgument (plan : Planning.Plan) (name : String) : Option String :=
  plan.steps.head?.bind fun step => step.arguments.lookup name

/-- The number of streams of a kind where one stream, of a kind `only`, is expected (lines 348–367). -/
def onlyStream (inputCount : ℕ) (only kind : StreamKind) : ℕ :=
  if kind = only then 1
  else if kind ∈ [StreamKind.video, .audio, .subtitle] then 0
  else inputCount

/-- `stream_count` (lines 341–381). -/
def streamCount (inputKinds : List StreamKind) (kind : StreamKind) (plan : Planning.Plan) : ℕ :=
  let inputCount := inputKinds.count kind
  if (expectedAudioCodec plan.targetFormat).isSome then onlyStream inputCount .audio kind
  else if isImageTarget plan.targetFormat ∨ plan.targetFormat = "gif" then onlyStream inputCount .video kind
  else if kind ≠ .subtitle then inputCount
  else if (firstArgument plan "subtitle_mode").getD "none" = "copy" then inputCount
  else 0

/-- A natural number in a JSON value (`as_u64`). -/
def asNatural : Json → Option ℕ
  | .number value => if 0 ≤ value then some value.toNat else none
  | _ => none

/-- The texts of a constraint, `constraint_strings` (lines 463–472). -/
def constraintStrings (plan : Planning.Plan) (name : String) : List String :=
  match plan.constraints.lookup name with
  | some (.array items) => items.filterMap fun
    | .string text => some text
    | _ => none
  | _ => []

/-- The height of an image of a size that is scaled to a width (lines 417–433). -/
def scaledHeight (width inputWidth inputHeight : ℕ) : Option ℕ :=
  if inputWidth = 0 then none
  else
    let numerator := inputHeight * width
    let rounded := (numerator + inputWidth / 2) / inputWidth
    let even := if rounded % 2 = 0 then rounded else rounded + 1
    if max even 2 ≤ u32Max then some (max even 2) else none

/-- `expected_scaled_width_dimensions` (lines 403–435). -/
def expectedScaledWidthDimensions (inputVideo : Option StreamProbe) (plan : Planning.Plan) :
    Option (Option ℕ × Option ℕ) :=
  inputVideo.map fun inputVideo =>
    match ((plan.constraints.lookup "width").bind asNatural).filter fun width => width ≤ u32Max with
    | none => (inputVideo.width, inputVideo.height)
    | some width =>
      (some width, inputVideo.width.bind fun inputWidth =>
        inputVideo.height.bind fun inputHeight => scaledHeight width inputWidth inputHeight)

/-- What `payload_signature` (lines 474–489) lists of a stream. -/
structure Payload where
  kind : StreamKind
  codec : Option String
  width : Option ℕ
  height : Option ℕ
  sampleRate : Option ℕ
  channels : Option ℕ
  deriving DecidableEq

/-- The payload of a stream. -/
def StreamProbe.payload (stream : StreamProbe) : Payload :=
  ⟨stream.kind, stream.codec, stream.width, stream.height, stream.sampleRate, stream.channels⟩

/-- The name of a kind in JSON. -/
def kindName : StreamKind → String
  | .video => "video"
  | .audio => "audio"
  | .subtitle => "subtitle"
  | .attachment => "attachment"
  | .data => "data"
  | .page => "page"
  | .recordSet => "record-set"
  | .unknown => "unknown"

/-- `payload_signature`. -/
def payloadSignature (payloads : List Payload) : Json :=
  .array (payloads.map fun payload => .array [.string (kindName payload.kind), .ofOption .string payload.codec,
    optionalNumber payload.width, optionalNumber payload.height, optionalNumber payload.sampleRate,
    optionalNumber payload.channels])

/-! ## The validator -/

section Validator

variable {φ : Type} (seconds : SecondsTools φ) (input output : Probe φ) (plan : Planning.Plan)

/-- The first video stream. -/
def Probe.firstVideo {φ : Type} (probe : Probe φ) : Option StreamProbe :=
  probe.streams.find? fun stream => stream.kind = .video

/-- The operation of a plan. -/
def planOperation (plan : Planning.Plan) : Operation := plan.steps.head?.elim .transcode Planning.PlanStep.operation

/-- `expected_duration` (lines 383–401). -/
def expectedDuration : Option φ :=
  if plan.targetFormat ≠ "gif" then input.durationSeconds
  else
    match (plan.constraints.lookup "duration_millis").bind asNatural with
    | some millis => some (seconds.ofMillis millis)
    | none =>
      let startMillis := ((plan.constraints.lookup "start_millis").bind asNatural).getD 0
      input.durationSeconds.map fun total => seconds.remaining total (seconds.ofMillis startMillis)

/-- `duration_check` (lines 298–339). -/
def durationCheck (operation : Operation) (expected observed : Option φ) : ValidationCheck :=
  match expected, observed with
  | some wanted, some measured =>
    let difference := seconds.difference wanted measured
    checkThat "MEDIA_DURATION" (seconds.within difference (seconds.tolerance operation))
      (.object [("seconds", seconds.toJson wanted), ("tolerance_seconds", seconds.toJson (seconds.tolerance operation))])
      (.object [("difference_seconds", seconds.toJson difference), ("seconds", seconds.toJson measured)])
      "ffprobe container duration" "Duration is within the Plan tolerance."
      "Duration differs beyond the Plan tolerance."
  | _, _ => ⟨"MEDIA_DURATION", .unknown, true, .ofOption seconds.toJson expected, .ofOption seconds.toJson observed,
      "ffprobe container duration", "Duration was unavailable and cannot be marked Pass."⟩

/-- The kinds whose streams are counted, with the code of the check. -/
def countedKinds : List (StreamKind × String) :=
  [(.video, "MEDIA_VIDEO_STREAM_COUNT"), (.audio, "MEDIA_AUDIO_STREAM_COUNT"),
    (.subtitle, "MEDIA_SUBTITLE_STREAM_COUNT")]

/-- The check of the number of streams of a kind. -/
def streamCountCheck (entry : StreamKind × String) : ValidationCheck :=
  let expected := streamCount (input.streams.map StreamProbe.kind) entry.1 plan
  let observed := (output.streams.map StreamProbe.kind).count entry.1
  checkThat entry.2 (expected = observed) (.natural expected) (.natural observed) "ffprobe stream inventory"
    "Stream count matches the Plan." "Stream count differs from the Plan."

/-- The checks of the numbers of streams (lines 61–91). -/
def streamCountChecks : List ValidationCheck := countedKinds.map (streamCountCheck input output plan)

/-- The dimensions as JSON. -/
def dimensionsJson : Option (Option ℕ × Option ℕ) → Json :=
  .ofOption fun (width, height) => .array [optionalNumber width, optionalNumber height]

/-- The check of the dimensions (lines 93–130). -/
def dimensionsCheck : ValidationCheck :=
  let expected := if plan.targetFormat = "gif" ∨ isImageTarget plan.targetFormat then
      expectedScaledWidthDimensions input.firstVideo plan
    else input.firstVideo.map fun stream => (stream.width, stream.height)
  let observed := output.firstVideo.map fun stream => (stream.width, stream.height)
  checkThat "MEDIA_DIMENSIONS" (expected = observed) (dimensionsJson expected) (dimensionsJson observed)
    "ffprobe video stream dimensions" "Video dimensions are preserved."
    "Video dimensions changed without a scaling constraint."

/-- The checks of an image (lines 132–182). -/
def imageChecks (expectedCodec : String) : List ValidationCheck :=
  let observedCodec := output.firstVideo.bind StreamProbe.codec
  let alphaRequired := match plan.constraints.lookup "preserve_alpha" with
    | some (.bool required) => required
    | _ => false
  let alphaObserved := (output.firstVideo.bind StreamProbe.pixFmt).any pixelFormatHasAlpha
  [checkThat "IMAGE_CODEC" (observedCodec = some expectedCodec) (.string expectedCodec)
      (.ofOption .string observedCodec) "ffprobe image codec" "Image codec matches the Plan."
      "Image codec does not match the Plan.",
    checkThat "IMAGE_ALPHA" (!alphaRequired || alphaObserved) (.bool alphaRequired) (.bool alphaObserved)
      "ffprobe pixel format" "Alpha-channel policy is satisfied." "The output lost a required alpha channel."]

/-- The check of the audio codec (lines 184–208). -/
def audioCodecCheck (expectedCodec : String) : ValidationCheck :=
  let observedCodec := (output.streams.find? fun stream => stream.kind = .audio).bind StreamProbe.codec
  checkThat "MEDIA_AUDIO_CODEC" (observedCodec = some expectedCodec) (.string expectedCodec)
    (.ofOption .string observedCodec) "ffprobe audio codec" "Audio codec matches the Plan."
    "Audio codec does not match the Plan."

/-- The checks of cleaned metadata (lines 210–277). -/
def metadataChecks : List ValidationCheck :=
  let removed := constraintStrings plan "removed_metadata_keys"
  let retained := constraintStrings plan "retained_metadata_keys"
  let stillPresent := removed.filter fun key => (output.metadata.lookup key).isSome
  let missingRetained := retained.filter fun key => (output.metadata.lookup key).isNone
  let expectedPayload := input.streams.map StreamProbe.payload
  let observedPayload := output.streams.map StreamProbe.payload
  [checkThat "METADATA_REMOVED_KEYS" stillPresent.isEmpty (.strings removed) (.strings stillPresent)
      "ffprobe format metadata inventory" "Every metadata key named by the Plan was removed."
      "One or more metadata keys named by the Plan remain.",
    checkThat "METADATA_RETAINED_KEYS" missingRetained.isEmpty (.strings retained) (.strings missingRetained)
      "ffprobe format metadata inventory" "Structural and unknown metadata keys selected for retention remain."
      "One or more metadata keys selected for retention are missing.",
    checkThat "METADATA_PAYLOAD_SIGNATURE" (expectedPayload = observedPayload) (payloadSignature expectedPayload)
      (payloadSignature observedPayload) "ffprobe stream codecs and dimensions"
      "Encoded payload stream identities are unchanged." "Metadata cleaning changed an encoded payload stream."]

/-- The checks of `validate_media_output` (lines 20–277). -/
def mediaChecks : List ValidationCheck :=
  let operation := planOperation plan
  [checkThat "MEDIA_OUTPUT_OPENS" true (.bool true) (.bool true) "ffprobe parsed the complete output metadata"
      "Output opens with ffprobe." "",
    checkThat "MEDIA_TARGET_FORMAT" (output.format.id = plan.targetFormat) (.string plan.targetFormat)
      (.string output.format.id) "ffprobe format detection" "Detected output format matches the Plan."
      "Detected output format does not match the Plan."] ++
  (if isImageTarget plan.targetFormat then []
    else [durationCheck seconds operation (expectedDuration seconds input plan) output.durationSeconds]) ++
  streamCountChecks input output plan ++
  (if plan.targetFormat ∈ ["mp4", "gif", "jpeg", "png", "webp", "avif"] then [dimensionsCheck input output plan]
    else []) ++
  ((expectedImageCodec plan.targetFormat).elim [] (imageChecks output plan)) ++
  ((expectedAudioCodec plan.targetFormat).map (audioCodecCheck output)).toList ++
  (if operation = .metadataClean then metadataChecks input output plan else [])

/-- `validate_media_output` (lines 12–296). -/
def validateMediaOutput (jobId : Uuid) : List ValidationCheck × ValidationReport :=
  let checks := mediaChecks seconds input output plan
  (checks, ⟨jobId, plan.planHash, aggregateStatus checks, output.artifact.sizeBytes⟩)

end Validator

section Codes

variable {φ : Type} {seconds : SecondsTools φ} {input output : Probe φ} {plan : Planning.Plan}

@[simp] theorem checkThat_code {code : String} {holds : Bool} {expected observed : Json}
    {evidence whenHolds otherwise : String} :
    (checkThat code holds expected observed evidence whenHolds otherwise).code = code := rfl

@[simp] theorem durationCheck_code {operation : Operation} {expected observed : Option φ} :
    (durationCheck seconds operation expected observed).code = "MEDIA_DURATION" := by
  unfold durationCheck
  split <;> rfl

@[simp] theorem dimensionsCheck_code : (dimensionsCheck input output plan).code = "MEDIA_DIMENSIONS" := rfl

/-- The codes of the checks that look at neither the number nor the size of streams. -/
def otherCodes : List String :=
  ["MEDIA_OUTPUT_OPENS", "MEDIA_TARGET_FORMAT", "MEDIA_DURATION", "IMAGE_CODEC", "IMAGE_ALPHA", "MEDIA_AUDIO_CODEC",
    "METADATA_REMOVED_KEYS", "METADATA_RETAINED_KEYS", "METADATA_PAYLOAD_SIGNATURE"]

theorem mem_mediaChecks {check : ValidationCheck} (h : check ∈ mediaChecks seconds input output plan) :
    check ∈ streamCountChecks input output plan ∨ check = dimensionsCheck input output plan ∨
      check.code ∈ otherCodes := by
  simp only [mediaChecks, List.mem_append] at h
  rcases h with (((((h | h) | h) | h) | h) | h) | h
  · refine .inr (.inr ?_)
    simp only [List.mem_cons, List.not_mem_nil, or_false] at h
    rcases h with rfl | rfl <;> simp [otherCodes]
  · refine .inr (.inr ?_)
    split_ifs at h
    · contradiction
    · rw [List.mem_singleton.mp h]
      simp [otherCodes]
  · exact .inl h
  · split_ifs at h
    · exact .inr (.inl (List.mem_singleton.mp h))
    · contradiction
  · refine .inr (.inr ?_)
    cases hcodec : expectedImageCodec plan.targetFormat with
    | none => simp [hcodec] at h
    | some codec =>
      simp only [hcodec, Option.elim_some, imageChecks, List.mem_cons, List.not_mem_nil, or_false] at h
      rcases h with rfl | rfl <;> simp [otherCodes]
  · refine .inr (.inr ?_)
    obtain ⟨codec, _, rfl⟩ := Option.map_eq_some_iff.mp (Option.mem_toList.mp h)
    simp [otherCodes, audioCodecCheck]
  · refine .inr (.inr ?_)
    split_ifs at h
    · simp only [metadataChecks, List.mem_cons, List.not_mem_nil, or_false] at h
      rcases h with rfl | rfl | rfl <;> simp [otherCodes]
    · contradiction

theorem streamCountChecks_subset {check : ValidationCheck} (h : check ∈ streamCountChecks input output plan) :
    check ∈ mediaChecks seconds input output plan := by
  simp only [mediaChecks, List.mem_append]
  tauto

theorem dimensionsCheck_mem (h : plan.targetFormat ∈ ["mp4", "gif", "jpeg", "png", "webp", "avif"]) :
    dimensionsCheck input output plan ∈ mediaChecks seconds input output plan := by
  have hmem : dimensionsCheck input output plan ∈
      if plan.targetFormat ∈ ["mp4", "gif", "jpeg", "png", "webp", "avif"] then [dimensionsCheck input output plan]
      else [] := by
    rw [if_pos h]
    exact List.mem_singleton_self _
  simp only [mediaChecks, List.mem_append]
  tauto

end Codes

@[simp] theorem checkThat_status {code : String} {holds : Bool} {expected observed : Json}
    {evidence whenHolds otherwise : String} :
    (checkThat code holds expected observed evidence whenHolds otherwise).status = .pass ↔ holds = true := by
  rw [checkThat]
  cases holds <;> simp

end Anole.Media
