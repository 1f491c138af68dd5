import Anole.Planning.Pdf

/-!
# The media planners

Model of the planners for media inputs (`crates/core/src/planner.rs`, lines 21–47, 348–1246): MP4,
audio, GIF, still images and the cleaning of metadata. Seconds are `f64` in the source; they are an
opaque type here, and the check of a time range is a parameter.
-/

namespace Anole.Media

open Anole.Common
open Anole.Planning (ArtifactIdentity FormatDescriptor FormatKind StreamKind PlanRequest LossClass
  ChangeSet PlannerTools failIf saturatingMul u64Max)

/-! ## Probes of media -/

/-- `MetadataClassification`. -/
inductive MetadataClassification where
  | «public» | «private» | secret | unknown
  deriving DecidableEq

/-- `StreamProbe`, the fields that a planner or a validator reads; `pixFmt` is the text property
    `pix_fmt`. -/
structure StreamProbe where
  index : ℕ
  kind : StreamKind
  codec : Option String
  width : Option ℕ
  height : Option ℕ
  sampleRate : Option ℕ
  channels : Option ℕ
  pixFmt : Option String
  deriving DecidableEq

/-- `Probe`, the fields that a planner or a validator reads; `φ` stands for `f64`. -/
structure Probe (φ : Type) where
  artifact : ArtifactIdentity
  format : FormatDescriptor
  streams : List StreamProbe
  metadata : TextMap MetadataClassification
  durationSeconds : Option φ

/-- The streams of a kind. -/
def Probe.ofKind {φ : Type} (probe : Probe φ) (kind : StreamKind) : List StreamProbe :=
  probe.streams.filter fun stream => stream.kind = kind

/-- What is not modelled: the tools of all planners, the check of a time range in seconds (lines
    730–744), `Path::canonicalize`, and the `Debug` rendering of a list of texts. -/
structure MediaTools (φ : Type) where
  planner : PlannerTools φ
  timeRangeOutside : φ → ℕ → Option ℕ → Bool
  canonicalize : PathBuf → Option PathBuf
  debugTexts : List String → String

/-- `pixel_format_has_alpha` (lines 672–680, and `validation.rs`, lines 453–461). -/
def pixelFormatHasAlpha (pixelFormat : String) : Bool :=
  ["rgba", "bgra", "argb", "abgr", "yuva", "gbrap"].any (fun start => start.toList.isPrefixOf pixelFormat.toList) ||
    ["pal8", "ya8", "ya16le", "ya16be"].contains pixelFormat

/-- `value.map_or_else(|| default.to_owned(), |value| value.to_string())`. -/
def textOr (default : String) (value : Option ℕ) : String := value.elim default toString

/-- `json!` of an optional number. -/
def optionalNumber (value : Option ℕ) : Json := .ofOption .natural value

section Planners

variable {φ : Type} (tools : MediaTools φ)

/-- A plan of one step, hashed. -/
def mediaPlan (planId : Uuid) (probe : Probe φ) (target : String) (constraints : TextMap Json)
    (capabilityId : String) (engine : Planning.EngineIdentity) (operation : Operation) (lossClass : LossClass)
    (arguments : TextMap String) (temporaryBytes : ℕ) (changes : ChangeSet) (validators : List String)
    (outputPath : Option PathBuf) (outputBytes : Option ℕ) : Planning.Plan :=
  Planning.Plan.hashed tools.planner {
    schemaVersion := 1
    planId := planId
    planHash := ""
    inputFingerprint := probe.artifact.fastFingerprint
    targetFormat := target
    constraints := constraints
    steps := [{
      stepId := "step-1"
      capabilityId := capabilityId
      engine := engine
      operation := operation
      lossClass := lossClass
      arguments := arguments
      estimatedTemporaryBytes := some temporaryBytes }]
    changes := changes
    validators := validators
    networkPolicy := .deny
    outputPath := outputPath
    estimatedOutputBytes := outputBytes }

/-! ## Metadata -/

/-- `metadata_clean_muxer` (lines 463–481). -/
def metadataCleanMuxer : String → Option String
  | "mp4" => some "mp4"
  | "mov" => some "mov"
  | "mkv" => some "matroska"
  | "webm" => some "webm"
  | "mp3" => some "mp3"
  | "m4a" => some "ipod"
  | "wav" => some "wav"
  | "flac" => some "flac"
  | "ogg" => some "ogg"
  | "opus" => some "opus"
  | "aac" => some "adts"
  | "jpeg" | "png" => some "image2"
  | "webp" => some "webp"
  | "avif" => some "avif"
  | _ => none

/-- `valid_metadata_key` (lines 483–489, and `runner.rs`, lines 4514–4520). -/
def validMetadataKey (key : String) : Bool :=
  key ≠ "" && key.utf8ByteSize ≤ 128 && key.toList.all fun c => c.isAlphanum || c = '_' || c = '-' || c = '.'

/-- The keys of some classes. -/
def keysOf (probe : Probe φ) (classes : List MetadataClassification) : List String :=
  (probe.metadata.filter fun entry => entry.2 ∈ classes).map Prod.fst

/-- `plan_metadata_clean` (lines 348–461). -/
def planMetadataClean (probe : Probe φ) (outputPath : PathBuf) (ffmpeg : Planning.EngineIdentity) (planId : Uuid) :
    Except AnoleError Planning.Plan := do
  let muxer ← (metadataCleanMuxer probe.format.id).elim
    (.error (.new .unsupported .plan s!"Metadata cleaning is not available for {probe.format.id}"
      "Choose a supported media/image file or a future type-specific adapter.")) .ok
  failIf (tools.canonicalize outputPath = some probe.artifact.canonicalPath)
    (.new .policyBlocked .plan "In-place metadata cleaning is disabled"
      "Choose a new output path so the source remains unchanged.")
  let removedKeys := keysOf probe [.private, .secret]
  let retainedKeys := keysOf probe [.public, .unknown]
  match removedKeys.find? fun key => ¬ validMetadataKey key with
  | some key =>
    .error (.new .policyBlocked .plan s!"Metadata key cannot be represented safely: {tools.planner.debugText key}"
      "Retain the field or use a future type-specific metadata adapter.")
  | none =>
    let changes : ChangeSet := {
      preserved := ["encoded audio/video/image payloads", "stream inventory and dimensions",
        s!"structural/unknown metadata keys: {tools.debugTexts retainedKeys}"]
      changed := ["container metadata table is rebuilt"]
      dropped := removedKeys.map fun key => s!"metadata key: {key}"
      unknown := [] }
    let arguments := TextMap.ofList [("workflow", "metadata-clean"), ("muxer", muxer),
      ("metadata_policy", "remove-private-secret-retain-structural-unknown"), ("payload_mode", "copy"),
      ("chapter_policy", "remove")]
    let constraints := TextMap.ofList [("removed_metadata_keys", .strings removedKeys),
      ("retained_metadata_keys", .strings retainedKeys), ("in_place", .bool false),
      ("unknown_metadata_policy", .string "retain")]
    pure (mediaPlan tools planId probe probe.format.id constraints
      s!"ffmpeg.{probe.format.id}.metadata-clean.experimental" ffmpeg .metadataClean .containerOnly arguments
      probe.artifact.sizeBytes changes ["media.output-opens", "metadata.removed-keys", "metadata.payload-codecs",
        "metadata.stream-inventory"] (some outputPath) (some probe.artifact.sizeBytes))

/-! ## Still images -/

/-- The codec and the muxer of an image target (lines 572–580). -/
def imageEncoder : String → Option (String × String)
  | "jpeg" => some ("mjpeg", "image2")
  | "png" => some ("png", "image2")
  | "webp" => some ("libwebp", "webp")
  | "avif" => some ("libaom-av1", "avif")
  | "tiff" => some ("tiff", "image2")
  | "bmp" => some ("bmp", "image2")
  | _ => none

/-- The targets with a quality. -/
def isLossyImage (target : String) : Bool := target ∈ ["jpeg", "webp", "avif"]

/-- The quality of an image (lines 533–558). -/
def imageQuality (target : String) (quality : Option ℕ) : Except AnoleError (Option ℕ) :=
  if isLossyImage target then do
    let value := quality.getD 85
    failIf (value < 1 ∨ 100 < value)
      (.new .inputInvalid .plan "Image quality must be between 1 and 100" "Choose a supported --quality value.")
    pure (some value)
  else do
    failIf (quality ≠ none)
      (.new .inputInvalid .plan
        s!"{String.ofList (target.toList.map Char.toUpper)} output is lossless and does not accept --quality"
        "Remove --quality or choose JPEG, WebP, or AVIF.")
    pure none

/-- The quality in the scale of the encoder (lines 600–605). -/
def encoderQuality (target : String) (quality : ℕ) : ℕ :=
  if target = "jpeg" then min (max ((101 - quality) * 29 / 100 + 2) 2) 31
  else if target = "avif" then min ((100 - quality) * 63 / 100) 63
  else quality

/-- A width that a request may ask for. -/
def widthOutside (width : Option ℕ) : Prop := ∃ value ∈ width, value < 1 ∨ 16384 < value

instance (width : Option ℕ) : Decidable (widthOutside width) :=
  match width with
  | none => isFalse (by simp [widthOutside])
  | some value => decidable_of_iff (value < 1 ∨ 16384 < value) (by simp [widthOutside])

/-- What becomes of the dimensions (lines 618–624 and 784–790). -/
def dimensionChanges (width : Option ℕ) (changes : ChangeSet) : ChangeSet :=
  match width with
  | some width =>
    { changes with changed := changes.changed ++ [s!"output width becomes {width} pixels with aspect ratio preserved"] }
  | none => { changes with preserved := changes.preserved ++ ["source dimensions"] }

/-- The arguments of an image plan (lines 581–607). -/
def imageArguments (request : PlanRequest) (image : StreamProbe) (target codec muxer : String) (quality : Option ℕ) :
    TextMap String :=
  TextMap.ofList ([("workflow", "still-image-convert"), ("video_stream_index", toString image.index),
    ("codec", codec), ("muxer", muxer), ("orientation", "autorotate-pixels"), ("metadata", "drop"),
    ("width", textOr "source" request.width), ("quality", textOr "lossless" quality)] ++
    (quality.map fun quality => ("encoder_quality", toString (encoderQuality target quality))).toList)

/-- `plan_image_conversion` (lines 492–670). -/
def planImageConversion (probe : Probe φ) (request : PlanRequest) (ffmpeg : Planning.EngineIdentity)
    (requestedTarget : String) (planId : Uuid) : Except AnoleError Planning.Plan := do
  failIf (probe.format.kind ≠ .image)
    (.new .unsupported .plan "Image conversion requires a still-image input"
      "Choose a PNG, JPEG, WebP, AVIF, TIFF, BMP, HEIC, or HEIF image.")
  let image ← (probe.streams.find? fun stream => stream.kind = .video).elim
    (.error (.new .inputInvalid .plan "No image payload was detected" "Inspect the input and choose another file."))
    .ok
  let target := if requestedTarget = "jpg" ∨ requestedTarget = "jpeg" then "jpeg" else requestedTarget
  failIf (widthOutside request.width)
    (.new .inputInvalid .plan "Image width must be between 1 and 16384 pixels" "Choose a supported --width value.")
  let lossy := isLossyImage target
  let quality ← imageQuality target request.quality
  let sourceAlpha := image.pixFmt.any pixelFormatHasAlpha
  failIf (sourceAlpha = true ∧ (target = "jpeg" ∨ target = "bmp"))
    (.new .policyBlocked .plan "JPEG and BMP cannot preserve the input alpha channel"
      "Choose PNG/WebP/AVIF/TIFF, or wait for an explicit background-composite policy.")
  -- the dispatch reaches this planner with the targets of `imageEncoder` only
  let (codec, muxer) ← (imageEncoder target).elim
    (.error (.new .internal .plan "image target dispatch is exhaustive" "")) .ok
  let arguments := imageArguments request image target codec muxer quality
  let changes := dimensionChanges request.width {
    preserved := ["single still-image payload"]
    changed := [s!"pixels are encoded as {target}", "orientation is applied to pixels",
      "source metadata is dropped by the alpha image adapter"]
    dropped := []
    unknown := ["embedded ICC profile equivalence is not yet certified"] }
  let changes := if sourceAlpha then { changes with preserved := changes.preserved ++ ["alpha channel"] } else changes
  let constraints := TextMap.ofList [("width", optionalNumber request.width), ("quality", optionalNumber quality),
    ("preserve_alpha", .bool sourceAlpha), ("metadata_policy", .string "drop")]
  pure (mediaPlan tools planId probe target constraints s!"ffmpeg.image-to-{target}.experimental" ffmpeg .transcode
    (if lossy then .lossy else .lossless) arguments (saturatingMul probe.artifact.sizeBytes 2) changes
    ["media.output-opens", "media.target-format", "image.single-frame", "image.dimensions", "image.codec",
      "image.alpha"] request.outputPath none)

/-! ## GIF -/

/-- `plan_gif_conversion` (lines 683–839). -/
def planGifConversion (probe : Probe φ) (request : PlanRequest) (ffmpeg : Planning.EngineIdentity) (planId : Uuid) :
    Except AnoleError Planning.Plan := do
  let video ← (probe.streams.find? fun stream => stream.kind = .video).elim
    (.error (.new .inputInvalid .plan "GIF conversion requires a video stream"
      "Inspect the input and choose a file containing video.")) .ok
  let startMillis := request.startMillis.getD 0
  let durationMillis := request.durationMillis
  let framesPerSecond := request.framesPerSecond.getD 15
  let loopCount := request.loopCount.getD 0
  failIf (durationMillis = some 0)
    (.new .inputInvalid .plan "GIF duration must be greater than zero" "Choose a positive --duration-ms value.")
  failIf (framesPerSecond < 1 ∨ 60 < framesPerSecond)
    (.new .inputInvalid .plan "GIF frame rate must be between 1 and 60" "Choose --fps in the supported range.")
  failIf (widthOutside request.width)
    (.new .inputInvalid .plan "GIF width must be between 1 and 16384 pixels" "Choose a supported --width value.")
  failIf (probe.durationSeconds.any (fun seconds => tools.timeRangeOutside seconds startMillis durationMillis) = true)
    (.new .inputInvalid .plan "GIF time range is outside the input duration"
      "Choose a start and duration within the inspected media duration.")
  let arguments := TextMap.ofList [("workflow", "video-to-gif"), ("video_stream_index", toString video.index),
    ("start_millis", toString startMillis), ("duration_millis", textOr "full" durationMillis),
    ("frames_per_second", toString framesPerSecond), ("loop_count", toString loopCount),
    ("palette_max_colors", "256"), ("palette_dither", "sierra2_4a"), ("width", textOr "source" request.width)]
  let ranged := if startMillis > 0 ∨ durationMillis.isSome then
      [s!"time range starts at {startMillis} ms and lasts " ++
        durationMillis.elim "to input end" fun value => s!"{value} ms"]
    else []
  let changes := dimensionChanges request.width {
    preserved := ["selected video content"]
    changed := [s!"frame rate becomes {framesPerSecond} fps",
      "video is quantized to a generated 256-color GIF palette",
      s!"GIF loop count is {loopCount} (zero means infinite)"] ++ ranged
    dropped := []
    unknown := [] }
  let dropped := (probe.streams.filter fun stream => stream.kind ≠ .video ∨ stream.index ≠ video.index).map
    fun stream => s!"non-selected stream {stream.index}"
  let constraints := TextMap.ofList [("start_millis", .natural startMillis),
    ("duration_millis", optionalNumber durationMillis), ("width", optionalNumber request.width),
    ("frames_per_second", .natural framesPerSecond), ("loop_count", .natural loopCount),
    ("palette_max_colors", .natural 256), ("palette_dither", .string "sierra2_4a")]
  pure (mediaPlan tools planId probe "gif" constraints "ffmpeg.video-to-gif.palette" ffmpeg .transcode .lossy
    arguments (probe.artifact.sizeBytes / 2) { changes with dropped := dropped }
    ["media.output-opens", "media.target-format", "media.duration", "media.video-stream", "media.dimensions"]
    request.outputPath none)

/-! ## MP4 -/

/-- The streams that MP4 has no place for. -/
def isOtherKind (kind : StreamKind) : Bool := kind = .attachment || kind = .data || kind = .unknown

/-- The subtitle streams that MP4 cannot hold. -/
def unsupportedSubtitles (probe : Probe φ) : List StreamProbe :=
  (probe.ofKind .subtitle).filter fun stream => stream.codec ≠ some "mov_text"

/-- `other_streams` of the MP4 planner. -/
def otherStreams (probe : Probe φ) : List StreamProbe := probe.streams.filter fun stream => isOtherKind stream.kind

/-- The name of a stream in the list of what is dropped. -/
def named (label : String) (stream : StreamProbe) : String := s!"{label} stream {stream.index}"

/-- `u64::saturating_add`. -/
def saturatingAdd (a b : ℕ) : ℕ := min (a + b) u64Max

/-- `video_copy`: a size target cannot be chased through copy mode. -/
def videoCopy (probe : Probe φ) (request : PlanRequest) : Bool :=
  (probe.ofKind .video).all (fun stream => stream.codec = some "h264" || stream.codec = some "hevc") &&
    request.targetSizeBytes.isNone

/-- `audio_copy`. -/
def audioCopy (probe : Probe φ) : Bool := (probe.ofKind .audio).all fun stream => stream.codec = some "aac"

/-- `remux`. -/
def isRemux (probe : Probe φ) (request : PlanRequest) : Bool :=
  videoCopy probe request && audioCopy probe && (unsupportedSubtitles probe).isEmpty && (otherStreams probe).isEmpty

/-- `subtitle_mode`. -/
def subtitleMode (probe : Probe φ) : String :=
  if (probe.ofKind .subtitle).isEmpty then "none" else if (unsupportedSubtitles probe).isEmpty then "copy" else "drop"

/-- The arguments of an MP4 plan (lines 935–972). -/
def mp4Arguments (probe : Probe φ) (request : PlanRequest) : TextMap String :=
  TextMap.ofList ([("video_mode", if videoCopy probe request then "copy" else "libx264"),
    ("audio_mode", if audioCopy probe then "copy" else "aac"), ("subtitle_mode", subtitleMode probe),
    ("movflags", "+faststart")] ++ (request.videoCrf.map fun crf => ("video_crf", toString crf)).toList ++
    (request.videoPreset.map fun preset => ("video_preset", preset)).toList ++
    (request.audioBitrateKbps.map fun bitrate => ("audio_bitrate_kbps", toString bitrate)).toList ++
    (request.targetSizeBytes.map fun size => ("target_size_bytes", toString size)).toList)

/-- What an MP4 plan says that it drops (lines 984–1011). -/
def mp4Dropped (probe : Probe φ) (request : PlanRequest) : List String :=
  if isRemux probe request ∨ request.preserveAllStreams then []
  else (unsupportedSubtitles probe).map (named "subtitle") ++ (otherStreams probe).map (named "non-media")

/-- `plan_mp4_conversion` (lines 842–1063). -/
def planMp4Conversion (probe : Probe φ) (request : PlanRequest) (ffmpeg : Planning.EngineIdentity) (planId : Uuid) :
    Except AnoleError Planning.Plan := do
  failIf (probe.format.kind ≠ .video)
    (.new .unsupported .plan "MP4 planning requires an input containing video"
      "Choose a workflow that matches the detected input type.")
  failIf (probe.ofKind .video = [])
    (.new .inputInvalid .plan "No video stream was detected" "Inspect the input and select another file.")
  failIf (request.preserveAllStreams = true ∧ (unsupportedSubtitles probe ≠ [] ∨ otherStreams probe ≠ []))
    ((AnoleError.new .policyBlocked .plan "MP4 cannot preserve every detected stream with the current adapter"
      "Use an expert policy that explicitly converts, externalizes, or drops each stream.").withDiagnostic
      (s!"{(unsupportedSubtitles probe).length} unsupported subtitle stream(s), " ++
        s!"{(otherStreams probe).length} attachment/data/unknown stream(s)"))
  let remux := isRemux probe request
  let changed := if remux then ["container changes to MP4 without media re-encode"]
    else (if videoCopy probe request then [] else ["video is re-encoded as H.264"]) ++
      (if ¬ audioCopy probe ∧ probe.ofKind .audio ≠ [] then ["audio is re-encoded as AAC"] else [])
  let changes : ChangeSet := {
    preserved := ["duration", "video dimensions", "selected stream count", "metadata", "chapters"]
    changed := changed
    dropped := mp4Dropped probe request
    unknown := [] }
  let constraints := TextMap.ofList [("preserve_all_streams", .bool request.preserveAllStreams)]
  pure (mediaPlan tools planId probe "mp4" constraints
    (if remux then "ffmpeg.media-to-mp4.remux" else "ffmpeg.media-to-mp4.transcode") ffmpeg
    (if remux then .remux else .transcode) (if remux then .containerOnly else .lossy) (mp4Arguments probe request)
    (saturatingAdd probe.artifact.sizeBytes (probe.artifact.sizeBytes / 10)) changes
    (["media.output-opens", "media.target-format", "media.duration", "media.streams"] ++
      if request.targetSizeBytes.isSome then ["media.target-size"] else []) request.outputPath none)

/-! ## Audio -/

/-- What an audio target is made of: its codec, encoder and muxer, and whether it loses quality
    (lines 1118–1127). -/
def audioEncoder : String → Option (String × String × String × Bool)
  | "mp3" => some ("mp3", "libmp3lame", "mp3", true)
  | "m4a" => some ("aac", "aac", "ipod", true)
  | "wav" => some ("pcm_s16le", "pcm_s16le", "wav", false)
  | "flac" => some ("flac", "flac", "flac", false)
  | "ogg" => some ("vorbis", "libvorbis", "ogg", true)
  | "opus" => some ("opus", "libopus", "opus", true)
  | "aac" => some ("aac", "aac", "adts", true)
  | _ => none

/-- The audio stream of a request (lines 1102–1117). -/
def selectedAudio (audios : List StreamProbe) (requested : Option ℕ) : Except AnoleError StreamProbe :=
  match requested with
  | some index => (audios.find? fun stream => stream.index = index).elim
      (.error (.new .inputInvalid .plan s!"Audio stream index {index} does not exist"
        "Run inspect and select one of the reported audio stream indexes.")) .ok
  | none => audios.head?.elim
      (.error (.new .inputInvalid .plan "No audio stream was detected"
        "Inspect the input and choose a file containing audio.")) .ok

/-- What becomes of the selected audio stream (lines 1155–1183). -/
def audioChanges (selected : StreamProbe) (targetCodec : String) (canCopy lossy : Bool) (dropped : List String) :
    ChangeSet :=
  { preserved := ["duration", s!"audio stream {selected.index}", "source metadata supported by the target"]
    changed := [if canCopy then s!"audio stream {selected.index} is remuxed without re-encoding"
      else s!"audio stream {selected.index} is encoded as {targetCodec}"]
    dropped := dropped
    unknown := if ¬ canCopy ∧ ¬ lossy ∧ selected.codec ∈ [some "mp3", some "aac", some "vorbis", some "opus"] then
        ["lossless output does not restore quality already lost in the source"]
      else [] }

/-- The arguments of an audio plan (lines 1142–1153). -/
def audioArguments (request : PlanRequest) (selected : StreamProbe) (mode muxer targetCodec : String) :
    TextMap String :=
  TextMap.ofList ([("workflow", "audio-convert"), ("audio_stream_index", toString selected.index),
    ("audio_mode", mode), ("muxer", muxer), ("target_codec", targetCodec)] ++
    (request.audioBitrateKbps.map fun bitrate => ("audio_bitrate_kbps", toString bitrate)).toList)

/-- What an audio plan says that it drops (lines 1184–1203). -/
def audioDropped (probe : Probe φ) (selected : StreamProbe) : List String :=
  (probe.ofKind .video).map (named "video") ++
    ((probe.ofKind .audio).filter fun stream => stream.index ≠ selected.index).map (named "audio") ++
    (probe.streams.filter fun stream => stream.kind ≠ .video ∧ stream.kind ≠ .audio).map (named "non-audio")

/-- `plan_audio_conversion` (lines 1066–1246). -/
def planAudioConversion (probe : Probe φ) (request : PlanRequest) (ffmpeg : Planning.EngineIdentity) (target : String)
    (planId : Uuid) : Except AnoleError Planning.Plan := do
  failIf (probe.format.kind ≠ .video ∧ probe.format.kind ≠ .audio)
    (.new .unsupported .plan "Audio conversion requires an input containing audio"
      "Choose a media file with a detectable audio stream.")
  let audios := probe.ofKind .audio
  failIf (audios = [])
    (.new .inputInvalid .plan "No audio stream was detected" "Inspect the input and choose a file containing audio.")
  failIf (request.preserveAllStreams = true ∧ audios.length > 1)
    ((AnoleError.new .policyBlocked .plan "A single-file audio target cannot preserve every detected audio stream"
      "Select one audio stream and pass --allow-stream-drop, or create separate outputs.").withDiagnostic
      s!"{audios.length} audio streams detected")
  let selected ← selectedAudio audios request.audioStreamIndex
  -- the dispatch reaches this planner with the targets of `audioEncoder` only
  let (targetCodec, encoder, muxer, lossy) ← (audioEncoder target).elim
    (.error (.new .internal .plan "target dispatch is exhaustive" "")) .ok
  let canCopy : Bool := selected.codec = some targetCodec
  let arguments := audioArguments request selected (if canCopy then "copy" else encoder) muxer targetCodec
  let constraints := TextMap.ofList [("preserve_all_streams", .bool request.preserveAllStreams),
    ("selected_audio_stream", .natural selected.index)]
  pure (mediaPlan tools planId probe target constraints
    (s!"ffmpeg.media-to-{target}." ++ if canCopy then "remux" else "transcode") ffmpeg
    (if canCopy then .remux else .transcode)
    (if canCopy then .containerOnly else if lossy then .lossy else .lossless) arguments probe.artifact.sizeBytes
    (audioChanges selected targetCodec canCopy lossy (audioDropped probe selected))
    ["media.output-opens", "media.target-format", "media.duration", "media.audio-stream", "media.audio-codec"]
    request.outputPath none)

/-! ## Dispatch -/

/-- `plan_conversion` (lines 21–47). -/
def planConversion (probe : Probe φ) (request : PlanRequest) (ffmpeg : Planning.EngineIdentity) (planId : Uuid) :
    Except AnoleError Planning.Plan :=
  let target := Planning.normalizedTarget request.targetFormat
  if target = "mp4" then planMp4Conversion tools probe request ffmpeg planId
  else if target ∈ ["mp3", "m4a", "wav", "flac", "ogg", "opus", "aac"] then
    planAudioConversion tools probe request ffmpeg target planId
  else if target = "gif" then planGifConversion tools probe request ffmpeg planId
  else if target ∈ ["jpg", "jpeg", "png", "webp", "avif", "tiff", "bmp"] then
    planImageConversion tools probe request ffmpeg target planId
  else .error (.new .unsupported .plan s!"No certified media planner is available for {target}"
    "Choose MP4, GIF, an audio target, or JPG, PNG, WebP, or AVIF.")

end Planners

end Anole.Media
