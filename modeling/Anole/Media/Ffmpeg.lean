import Anole.Media.Planners

/-!
# The command line of FFmpeg

Model of `configure_ffmpeg_output` and `configure_metadata_clean` (`crates/core/src/runner.rs`, lines
4229–4625): the arguments that a media plan is executed with, and the streams that FFmpeg writes for
them.

* `selectedKinds`: what FFmpeg writes, by its documented reading of `-map`, `-vn`, `-an`, `-sn` and
  `-dn`.
* `mp4_command`, `audio_command`, `gif_command`, `image_command`, `clean_command`: which of these
  arguments a command holds when it could be made.
-/

open Common Anole.Common
open Anole.Planning (StreamKind invalidPlanArgument parseU32 u32Max u64Max)

namespace Anole.Media

/-! ## Arguments -/

/-- What follows `-map`. -/
inductive Selection where
  /-- `0`: every stream. -/
  | all
  /-- `0:v?`, `0:a?`, `0:s?`: the streams of a kind, if there are any. -/
  | kind (kind : StreamKind)
  /-- `0:i`: the stream with an index. -/
  | index (index : ℕ)
  /-- `[v]`: the video that leaves the filter graph. -/
  | filtered
  deriving DecidableEq

/-- An argument of FFmpeg, with its value. -/
inductive Argument where
  | map (selection : Selection)
  /-- `-vn`, `-an`, `-sn`, `-dn`: no stream of a kind is written. -/
  | exclude (kind : StreamKind)
  | option (flag value : String)
  /-- `-n` and the path of the output. -/
  | noOverwrite (path : PathBuf)
  deriving DecidableEq

/-- The input streams that a selection stands for. -/
def Selection.selects (stream : StreamProbe) : Selection → Bool
  | all => true
  | .kind selected => stream.kind = selected
  | .index selected => stream.index = selected
  | filtered => false

/-- The streams that one argument makes FFmpeg write. -/
def Argument.outputKinds (streams : List StreamProbe) : Argument → List StreamKind
  | map .filtered => [.video]
  | map selection => (streams.filter fun stream => selection.selects stream).map StreamProbe.kind
  | _ => []

/-- The kinds of the streams that FFmpeg writes for an input. -/
def selectedKinds (command : List Argument) (streams : List StreamProbe) : List StreamKind :=
  (command.flatMap (Argument.outputKinds streams)).filter fun kind => .exclude kind ∉ command

/-- An input stream that a command maps. -/
def Mapped (command : List Argument) (stream : StreamProbe) : Prop :=
  (∃ selection, .map selection ∈ command ∧ selection.selects stream = true) ∧ .exclude stream.kind ∉ command

/-- The arguments that decide which streams are written. -/
def Argument.isStream : Argument → Bool
  | map _ | exclude _ => true
  | _ => false

/-- The arguments of a command that decide which streams are written. -/
def streamArguments (command : List Argument) : List Argument := command.filter Argument.isStream

@[simp] theorem streamArguments_append (a b : List Argument) :
    streamArguments (a ++ b) = streamArguments a ++ streamArguments b := List.filter_append _ _

theorem mem_streamArguments {command : List Argument} (argument : Argument) (h : argument.isStream = true) :
    argument ∈ streamArguments command ↔ argument ∈ command := by
  rw [streamArguments, List.mem_filter]
  exact and_iff_left h

theorem mapped_streamArguments {command : List Argument} {stream : StreamProbe} :
    Mapped (streamArguments command) stream ↔ Mapped command stream := by
  unfold Mapped
  simp only [mem_streamArguments (.map _) rfl, mem_streamArguments (.exclude _) rfl]

theorem flatMap_streamArguments (command : List Argument) (streams : List StreamProbe) :
    (streamArguments command).flatMap (Argument.outputKinds streams) =
      command.flatMap (Argument.outputKinds streams) := by
  induction command with
  | nil => rfl
  | cons argument rest ih =>
    rw [streamArguments] at ih ⊢
    cases argument with
    | map selection => rw [List.filter_cons_of_pos rfl, List.flatMap_cons, List.flatMap_cons, ih]
    | exclude kind => rw [List.filter_cons_of_pos rfl, List.flatMap_cons, List.flatMap_cons, ih]
    | option flag value => rw [List.filter_cons_of_neg Bool.false_ne_true, List.flatMap_cons, ih]; rfl
    | noOverwrite path => rw [List.filter_cons_of_neg Bool.false_ne_true, List.flatMap_cons, ih]; rfl

theorem selectedKinds_streamArguments (command : List Argument) (streams : List StreamProbe) :
    selectedKinds (streamArguments command) streams = selectedKinds command streams := by
  unfold selectedKinds
  simp only [flatMap_streamArguments, mem_streamArguments (.exclude _) rfl]

/-! ## Arguments of a plan -/

/-- `str::parse` of an unsigned number. -/
def parseUnsigned (maximum : ℕ) (text : String) : Option ℕ :=
  let digits : List Char := match text.toList with
    | '+' :: rest => rest
    | cs => cs
  let value := digits.foldl (fun value c => 10 * value + (c.toNat - '0'.toNat)) 0
  if digits ≠ [] ∧ digits.all Char.isDigit = true ∧ value ≤ maximum then some value else none

/-- `checked_argument` (lines 4546–4561). -/
def checkedArgument (step : Planning.PlanStep) (name : String) (allowed : List String) : Except AnoleError String :=
  match step.arguments.lookup name with
  | none => .error (invalidPlanArgument name)
  | some value => if value ∈ allowed then .ok value else .error (invalidPlanArgument name)

/-- `checked_u32_argument` (lines 4522–4533). -/
def checkedU32Argument (step : Planning.PlanStep) (name : String) (minimum maximum : ℕ) : Except AnoleError ℕ :=
  match ((step.arguments.lookup name).bind parseU32).filter fun value => minimum ≤ value ∧ value ≤ maximum with
  | some value => .ok value
  | none => .error (invalidPlanArgument name)

/-- `checked_u64_argument` (lines 4535–4540). -/
def checkedU64Argument (step : Planning.PlanStep) (name : String) : Except AnoleError ℕ :=
  match (step.arguments.lookup name).bind (parseUnsigned u64Max) with
  | some value => .ok value
  | none => .error (invalidPlanArgument name)

/-- `video_preset_argument` (lines 4565–4586). -/
def videoPresetArgument (step : Planning.PlanStep) : Except AnoleError String :=
  let preset := (step.arguments.lookup "video_preset").getD "medium"
  if preset ∈ ["ultrafast", "superfast", "veryfast", "faster", "fast", "medium", "slow", "slower", "veryslow"] then
    .ok preset
  else .error (invalidPlanArgument "video_preset")

/-- `video_crf_argument` (lines 4589–4601). -/
def videoCrfArgument (step : Planning.PlanStep) : Except AnoleError ℕ :=
  match parseUnsigned 255 ((step.arguments.lookup "video_crf").getD "20") with
  | some crf => if crf ≤ 51 then .ok crf else .error (invalidPlanArgument "video_crf")
  | none => .error (invalidPlanArgument "video_crf")

/-- `audio_bitrate_argument` (lines 4604–4616). -/
def audioBitrateArgument (step : Planning.PlanStep) : Except AnoleError ℕ :=
  match parseU32 ((step.arguments.lookup "audio_bitrate_kbps").getD "192") with
  | some bitrate =>
    if 8 ≤ bitrate ∧ bitrate ≤ 320 then .ok bitrate else .error (invalidPlanArgument "audio_bitrate_kbps")
  | none => .error (invalidPlanArgument "audio_bitrate_kbps")

/-- `format_seconds_from_millis` (lines 4542–4544). -/
def formatSecondsFromMillis (milliseconds : ℕ) : String :=
  let fraction := toString (milliseconds % 1000)
  s!"{milliseconds / 1000}." ++ String.ofList (List.replicate (3 - fraction.length) '0') ++ fraction

/-! ## Commands -/

/-- The array `removed_metadata_keys` of a plan. -/
def removedMetadataKeys (plan : Planning.Plan) : Except AnoleError (List Json) :=
  match plan.constraints.lookup "removed_metadata_keys" with
  | some (.array keys) => .ok keys
  | _ => .error (invalidPlanArgument "removed_metadata_keys")

/-- The argument that removes a key. -/
def removeMetadata : Json → Except AnoleError Argument
  | .string key =>
    if validMetadataKey key then .ok (.option "-metadata" s!"{key}=")
    else .error (invalidPlanArgument "removed_metadata_keys")
  | _ => .error (invalidPlanArgument "removed_metadata_keys")

/-- `configure_metadata_clean` (lines 4466–4512). -/
def configureMetadataClean (plan : Planning.Plan) (step : Planning.PlanStep) : Except AnoleError (List Argument) := do
  let expectedMuxer ← (metadataCleanMuxer plan.targetFormat).elim
    (.error (invalidPlanArgument "metadata-clean target format")) .ok
  let muxer ← checkedArgument step "muxer" [expectedMuxer]
  let removedKeys ← removedMetadataKeys plan
  let removals ← removedKeys.mapM removeMetadata
  pure ([.map .all, .option "-c" "copy", .option "-map_metadata" "0", .option "-map_chapters" "-1"] ++ removals ++
    [.option "-f" muxer])

/-- The encoder of video, when it is not copied (lines 4257–4268). -/
def videoOptions (step : Planning.PlanStep) (crfOverride : Option ℕ) (videoMode : String) :
    Except AnoleError (List Argument) :=
  if videoMode = "copy" then .ok []
  else do
    let preset ← videoPresetArgument step
    let crf ← crfOverride.elim (videoCrfArgument step) .ok
    pure [.option "-preset" preset, .option "-crf" (toString crf)]

/-- The bitrate of audio, when it is not copied. -/
def audioOptions (step : Planning.PlanStep) (audioMode : String) : Except AnoleError (List Argument) :=
  if audioMode = "copy" then .ok []
  else do
    let bitrate ← audioBitrateArgument step
    pure [.option "-b:a" s!"{bitrate}k"]

/-- The arm of `"mp4"` (lines 4249–4286). -/
def configureMp4 (step : Planning.PlanStep) (crfOverride : Option ℕ) : Except AnoleError (List Argument) := do
  let subtitles : Bool := step.arguments.lookup "subtitle_mode" = some "copy"
  let videoMode ← checkedArgument step "video_mode" ["copy", "libx264"]
  let audioMode ← checkedArgument step "audio_mode" ["copy", "aac"]
  let video ← videoOptions step crfOverride videoMode
  let audio ← audioOptions step audioMode
  pure ([.map (.kind .video), .map (.kind .audio)] ++ (if subtitles then [.map (.kind .subtitle)] else []) ++
    [.option "-c:v" videoMode] ++ video ++ [.option "-c:a" audioMode] ++ audio ++
    (if subtitles then [.option "-c:s" "copy"] else []) ++
    [.option "-map_metadata" "0", .option "-map_chapters" "0", .option "-movflags" "+faststart", .option "-f" "mp4"])

/-- What the encoder of an audio target is told (lines 4312–4325). -/
def encoderOptions (step : Planning.PlanStep) (audioMode : String) : Except AnoleError (List Argument) :=
  if audioMode = "libvorbis" then .ok [.option "-q:a" "5"]
  else if audioMode = "libopus" then do
    let bitrate ← audioBitrateArgument step
    pure [.option "-b:a" s!"{max bitrate 8}k"]
  else if audioMode = "libmp3lame" ∨ audioMode = "aac" then do
    let bitrate ← audioBitrateArgument step
    pure [.option "-b:a" s!"{bitrate}k"]
  else .ok []

/-- The arm of the audio targets (lines 4287–4331), with the encoder and the muxer of the target. -/
def configureAudio (plan : Planning.Plan) (step : Planning.PlanStep) (encoder expectedMuxer : String) :
    Except AnoleError (List Argument) := do
  let streamIndex ← ((step.arguments.lookup "audio_stream_index").bind parseU32).elim
    (.error (invalidPlanArgument "audio_stream_index")) .ok
  let audioMode ← checkedArgument step "audio_mode" ["copy", encoder]
  let muxer ← checkedArgument step "muxer" [expectedMuxer]
  let options ← encoderOptions step audioMode
  pure ([.map (.index streamIndex), .exclude .video, .option "-c:a" audioMode] ++ options ++
    [.option "-map_metadata" "0"] ++
    (if plan.targetFormat = "m4a" then [.option "-movflags" "+faststart"] else []) ++ [.option "-f" muxer])

/-- The width that a plan asks for (lines 4345–4354 and 4407–4414). -/
def plannedWidth (width : String) : Except AnoleError (Option ℕ) :=
  if width = "source" then .ok none
  else
    match (parseU32 width).filter fun value => 1 ≤ value ∧ value ≤ 16384 with
    | some value => .ok (some value)
    | none => .error (invalidPlanArgument "width")

/-- The filter that scales to a width. -/
def scaleFilter (width : ℕ) : String := s!"scale={width}:-2:flags=lanczos"

/-- The duration that a plan asks for (lines 4363–4372). -/
def durationOptions (duration : String) : Except AnoleError (List Argument) :=
  if duration = "full" then .ok []
  else
    match (parseUnsigned u64Max duration).filter fun value => 0 < value with
    | some value => .ok [.option "-t" (formatSecondsFromMillis value)]
    | none => .error (invalidPlanArgument "duration_millis")

/-- The arm of `"gif"` (lines 4332–4383). -/
def configureGif (step : Planning.PlanStep) : Except AnoleError (List Argument) := do
  let streamIndex ← checkedU32Argument step "video_stream_index" 0 u32Max
  let startMillis ← checkedU64Argument step "start_millis"
  let duration ← (step.arguments.lookup "duration_millis").elim (.error (invalidPlanArgument "duration_millis")) .ok
  let framesPerSecond ← checkedU32Argument step "frames_per_second" 1 60
  let loopCount ← checkedU32Argument step "loop_count" 0 65535
  let width ← (step.arguments.lookup "width").elim (.error (invalidPlanArgument "width")) .ok
  let width ← plannedWidth width
  let scale := width.elim "" fun width => scaleFilter width ++ ","
  let filter := s!"[0:{streamIndex}]fps={framesPerSecond},{scale}split[s0][s1];" ++
    "[s0]palettegen=max_colors=256[p];[s1][p]paletteuse=dither=sierra2_4a[v]"
  let durationOption ← durationOptions duration
  pure ((if 0 < startMillis then [.option "-ss" (formatSecondsFromMillis startMillis)] else []) ++ durationOption ++
    [.option "-filter_complex" filter, .map .filtered, .exclude .audio, .option "-loop" (toString loopCount),
      .option "-f" "gif"])

/-- What the encoder of an image target is told (lines 4420–4451). -/
def imageOptions (step : Planning.PlanStep) (target : String) : Except AnoleError (List Argument) :=
  if target = "jpeg" then do
    let quality ← checkedU32Argument step "encoder_quality" 2 31
    pure [.option "-q:v" (toString quality), .option "-pix_fmt" "yuvj444p"]
  else if target = "png" then .ok [.option "-compression_level" "6"]
  else if target = "webp" then do
    let quality ← checkedU32Argument step "encoder_quality" 1 100
    pure [.option "-quality" (toString quality)]
  else if target = "avif" then do
    let quality ← checkedU32Argument step "encoder_quality" 0 63
    pure [.option "-crf" (toString quality), .option "-cpu-used" "4", .option "-still-picture" "1"]
  else .ok []

/-- The arm of the image targets (lines 4384–4453), with the codec and the muxer of the target. -/
def configureImage (plan : Planning.Plan) (step : Planning.PlanStep) (allowedCodec expectedMuxer : String) :
    Except AnoleError (List Argument) := do
  let streamIndex ← checkedU32Argument step "video_stream_index" 0 u32Max
  let codec ← checkedArgument step "codec" [allowedCodec]
  let muxer ← checkedArgument step "muxer" [expectedMuxer]
  let width ← plannedWidth ((step.arguments.lookup "width").getD "source")
  let options ← imageOptions step plan.targetFormat
  pure ([.map (.index streamIndex), .option "-frames:v" "1", .exclude .audio, .exclude .subtitle, .exclude .data,
    .option "-map_metadata" "-1"] ++ (width.map fun width => Argument.option "-vf" (scaleFilter width)).toList ++
    [.option "-c:v" codec] ++ options ++ [.option "-f" muxer])

/-- The arms of `configure_ffmpeg_output` (lines 4248–4461). -/
def configureTarget (plan : Planning.Plan) (step : Planning.PlanStep) (crfOverride : Option ℕ) :
    Except AnoleError (List Argument) :=
  if plan.targetFormat = "mp4" then configureMp4 step crfOverride
  else
    match audioEncoder plan.targetFormat, imageEncoder plan.targetFormat with
    | some (_, encoder, muxer, _), _ => configureAudio plan step encoder muxer
    | none, some (codec, muxer) => configureImage plan step codec muxer
    | none, none =>
      if plan.targetFormat = "gif" then configureGif step
      else .error (.new .unsupported .execute s!"No FFmpeg runner is available for {plan.targetFormat}"
        "Create a Plan for a supported media target.")

/-- What `configure_ffmpeg_output` adds for a step. -/
def configureStep (plan : Planning.Plan) (step : Planning.PlanStep) (crfOverride : Option ℕ) :
    Except AnoleError (List Argument) :=
  if step.operation = .metadataClean then configureMetadataClean plan step
  else configureTarget plan step crfOverride

/-- `configure_ffmpeg_output` (lines 4229–4464). -/
def configureFfmpegOutput (plan : Planning.Plan) (partialPath : PathBuf) (crfOverride : Option ℕ) :
    Except AnoleError (List Argument) :=
  match plan.steps.head? with
  | none => .error (.new .internal .execute "Plan has no FFmpeg step" "Create a new Plan and retry.")
  | some step => do
    let arguments ← configureStep plan step crfOverride
    pure (arguments ++ [.noOverwrite partialPath])

/-! ## Streams of a command -/

section Streams

variable {plan : Planning.Plan} {step : Planning.PlanStep} {crfOverride : Option ℕ} {command : List Argument}

theorem streamArguments_videoOptions {mode : String} (h : videoOptions step crfOverride mode = .ok command) :
    streamArguments command = [] := by
  unfold videoOptions at h
  split_ifs at h with hcopy
  · rw [← Except.ok.inj h]; rfl
  · obtain ⟨preset, _, h⟩ := bind_eq_ok.mp h
    obtain ⟨crf, _, h⟩ := bind_eq_ok.mp h
    rw [← Except.ok.inj h]; rfl

theorem streamArguments_audioOptions {mode : String} (h : audioOptions step mode = .ok command) :
    streamArguments command = [] := by
  unfold audioOptions at h
  split_ifs at h with hcopy
  · rw [← Except.ok.inj h]; rfl
  · obtain ⟨bitrate, _, h⟩ := bind_eq_ok.mp h
    rw [← Except.ok.inj h]; rfl

theorem streamArguments_encoderOptions {mode : String} (h : encoderOptions step mode = .ok command) :
    streamArguments command = [] := by
  unfold encoderOptions at h
  split_ifs at h with hvorbis hopus hother
  · rw [← Except.ok.inj h]; rfl
  · obtain ⟨bitrate, _, h⟩ := bind_eq_ok.mp h
    rw [← Except.ok.inj h]; rfl
  · obtain ⟨bitrate, _, h⟩ := bind_eq_ok.mp h
    rw [← Except.ok.inj h]; rfl
  · rw [← Except.ok.inj h]; rfl

theorem streamArguments_imageOptions {target : String} (h : imageOptions step target = .ok command) :
    streamArguments command = [] := by
  unfold imageOptions at h
  split_ifs at h with hjpeg hpng hwebp havif
  · obtain ⟨quality, _, h⟩ := bind_eq_ok.mp h
    rw [← Except.ok.inj h]; rfl
  · rw [← Except.ok.inj h]; rfl
  · obtain ⟨quality, _, h⟩ := bind_eq_ok.mp h
    rw [← Except.ok.inj h]; rfl
  · obtain ⟨quality, _, h⟩ := bind_eq_ok.mp h
    rw [← Except.ok.inj h]; rfl
  · rw [← Except.ok.inj h]; rfl

theorem streamArguments_configureMp4 (h : configureMp4 step crfOverride = .ok command) :
    streamArguments command = [.map (.kind .video), .map (.kind .audio)] ++
      if step.arguments.lookup "subtitle_mode" = some "copy" then [.map (.kind .subtitle)] else [] := by
  obtain ⟨videoMode, _, h⟩ := bind_eq_ok.mp h
  obtain ⟨audioMode, _, h⟩ := bind_eq_ok.mp h
  obtain ⟨video, hvideo, h⟩ := bind_eq_ok.mp h
  obtain ⟨audio, haudio, h⟩ := bind_eq_ok.mp h
  rw [← Except.ok.inj h]
  by_cases hcopy : step.arguments.lookup "subtitle_mode" = some "copy"
  · simp only [hcopy, decide_true, if_true, streamArguments_append, streamArguments_videoOptions hvideo,
      streamArguments_audioOptions haudio]
    rfl
  · simp only [hcopy, decide_false, Bool.false_eq_true, if_false, streamArguments_append,
      streamArguments_videoOptions hvideo, streamArguments_audioOptions haudio]
    rfl

theorem streamArguments_configureAudio {encoder muxer : String}
    (h : configureAudio plan step encoder muxer = .ok command) :
    ∃ index, (step.arguments.lookup "audio_stream_index").bind parseU32 = some index ∧
      streamArguments command = [.map (.index index), .exclude .video] := by
  obtain ⟨index, hindex, h⟩ := bind_eq_ok.mp h
  obtain ⟨audioMode, _, h⟩ := bind_eq_ok.mp h
  obtain ⟨muxer, _, h⟩ := bind_eq_ok.mp h
  obtain ⟨options, hoptions, h⟩ := bind_eq_ok.mp h
  refine ⟨index, elim_eq_ok.mp hindex, ?_⟩
  rw [← Except.ok.inj h]
  simp only [streamArguments_append, streamArguments_encoderOptions hoptions]
  split_ifs <;> rfl

theorem checkedU32Argument_eq_ok {name : String} {minimum maximum value : ℕ}
    (h : checkedU32Argument step name minimum maximum = .ok value) :
    (step.arguments.lookup name).bind parseU32 = some value := by
  unfold checkedU32Argument at h
  split at h
  · next found hfound =>
    rw [← Except.ok.inj h]
    exact (Option.filter_eq_some_iff.mp hfound).1
  · contradiction

theorem streamArguments_configureGif (h : configureGif step = .ok command) :
    streamArguments command = [.map .filtered, .exclude .audio] := by
  obtain ⟨index, _, h⟩ := bind_eq_ok.mp h
  obtain ⟨start, _, h⟩ := bind_eq_ok.mp h
  obtain ⟨duration, _, h⟩ := bind_eq_ok.mp h
  obtain ⟨frames, _, h⟩ := bind_eq_ok.mp h
  obtain ⟨loops, _, h⟩ := bind_eq_ok.mp h
  obtain ⟨width, _, h⟩ := bind_eq_ok.mp h
  obtain ⟨scaled, _, h⟩ := bind_eq_ok.mp h
  obtain ⟨durationOption, hduration, h⟩ := bind_eq_ok.mp h
  have hoption : streamArguments durationOption = [] := by
    unfold durationOptions at hduration
    split_ifs at hduration with hfull
    · rw [← Except.ok.inj hduration]; rfl
    · split at hduration
      · rw [← Except.ok.inj hduration]; rfl
      · contradiction
  rw [← Except.ok.inj h]
  simp only [streamArguments_append, hoption]
  split_ifs <;> rfl

theorem streamArguments_configureImage {codec muxer : String}
    (h : configureImage plan step codec muxer = .ok command) :
    ∃ index, (step.arguments.lookup "video_stream_index").bind parseU32 = some index ∧
      streamArguments command = [.map (.index index), .exclude .audio, .exclude .subtitle, .exclude .data] := by
  obtain ⟨index, hindex, h⟩ := bind_eq_ok.mp h
  obtain ⟨codec, _, h⟩ := bind_eq_ok.mp h
  obtain ⟨muxer, _, h⟩ := bind_eq_ok.mp h
  obtain ⟨width, _, h⟩ := bind_eq_ok.mp h
  obtain ⟨options, hoptions, h⟩ := bind_eq_ok.mp h
  refine ⟨index, checkedU32Argument_eq_ok hindex, ?_⟩
  rw [← Except.ok.inj h]
  simp only [streamArguments_append, streamArguments_imageOptions hoptions]
  cases width <;> rfl

theorem not_isStream_removeMetadata {key : Json} {argument : Argument} (h : removeMetadata key = .ok argument) :
    ¬ argument.isStream := by
  unfold removeMetadata at h
  split at h
  · rw [← (ite_eq_ok.mp h).2]
    exact Bool.false_ne_true
  · contradiction

theorem streamArguments_removals {keys : List Json} {removals : List Argument}
    (h : List.Forall₂ (fun key argument => removeMetadata key = .ok argument) keys removals) :
    streamArguments removals = [] := by
  induction h with
  | nil => rfl
  | cons hkey _ ih =>
    rw [streamArguments, List.filter_cons_of_neg (not_isStream_removeMetadata hkey)]
    exact ih

theorem streamArguments_configureMetadataClean (h : configureMetadataClean plan step = .ok command) :
    streamArguments command = [.map .all] := by
  obtain ⟨expected, _, h⟩ := bind_eq_ok.mp h
  obtain ⟨muxer, _, h⟩ := bind_eq_ok.mp h
  obtain ⟨keys, _, h⟩ := bind_eq_ok.mp h
  obtain ⟨removals, hremovals, h⟩ := bind_eq_ok.mp h
  have hoptions := streamArguments_removals (mapM_eq_ok.mp hremovals)
  rw [← Except.ok.inj h]
  simp only [streamArguments_append, hoptions]
  rfl

end Streams

end Anole.Media
