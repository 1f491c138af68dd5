import Anole.Media.Ffmpeg

/-!
# The streams that a media plan selects

Every planner of media writes the indexes and modes that the runner reads back; the arguments of
FFmpeg that decide which streams are written follow from the plan:

* `streamArguments_mp4`, `streamArguments_audio`, `streamArguments_gif`, `streamArguments_image`,
  `streamArguments_clean`.
-/

open Common Anole.Common
open Anole.Planning (StreamKind PlanRequest failIf_eq_ok parseU32 parseU32_toString)

namespace Anole.Media

/-! ## Plans -/

section Plans

variable {φ : Type} {tools : MediaTools φ} {probe : Probe φ} {request : PlanRequest}
  {ffmpeg : Planning.EngineIdentity} {planId : Uuid} {plan : Planning.Plan} {target : String}

/-- What FFprobe reports: streams of six kinds, each with a number of its own. -/
structure Probe.Reported (probe : Probe φ) : Prop where
  numbered : (probe.streams.map StreamProbe.index).Nodup
  kinds : ∀ stream ∈ probe.streams,
    stream.kind ∈ [StreamKind.video, .audio, .subtitle, .attachment, .data, .unknown]

/-- The number of a stream belongs to it alone. -/
theorem Probe.Reported.eq_of_index (hprobe : probe.Reported) {s t : StreamProbe} (hs : s ∈ probe.streams)
    (ht : t ∈ probe.streams) (h : s.index = t.index) : s = t :=
  List.inj_on_of_nodup_map hprobe.numbered hs ht h

theorem mem_ofKind {kind : StreamKind} {stream : StreamProbe} :
    stream ∈ probe.ofKind kind ↔ stream ∈ probe.streams ∧ stream.kind = kind := by
  rw [Probe.ofKind, List.mem_filter, decide_eq_true_eq]

/-- A plan of one step that is no cleaning of metadata. -/
def Converts (plan : Planning.Plan) (arguments : TextMap String) : Prop :=
  ∃ step, plan.steps = [step] ∧ step.operation ≠ .metadataClean ∧ step.arguments = arguments

theorem planMp4Conversion_eq_ok (h : planMp4Conversion tools probe request ffmpeg planId = .ok plan) :
    (request.preserveAllStreams = true → unsupportedSubtitles probe = [] ∧ otherStreams probe = []) ∧
      plan.targetFormat = "mp4" ∧ plan.changes.dropped = mp4Dropped probe request ∧
      Converts plan (mp4Arguments probe request) := by
  obtain ⟨_, _, h⟩ := bind_eq_ok.mp h
  obtain ⟨_, _, h⟩ := bind_eq_ok.mp h
  obtain ⟨_, hpreserve, h⟩ := bind_eq_ok.mp h
  rw [failIf_eq_ok] at hpreserve
  have hstreams : request.preserveAllStreams = true →
      unsupportedSubtitles probe = [] ∧ otherStreams probe = [] := by
    intro hall
    by_contra hne
    exact hpreserve ⟨hall, not_and_or.mp hne⟩
  rw [← Except.ok.inj h]
  refine ⟨hstreams, rfl, rfl, _, rfl, ?_, rfl⟩
  show (if isRemux probe request then Operation.remux else .transcode) ≠ .metadataClean
  split_ifs <;> exact Operation.noConfusion

theorem selectedAudio_eq_ok {audios : List StreamProbe} {requested : Option ℕ} {selected : StreamProbe}
    (h : selectedAudio audios requested = .ok selected) : selected ∈ audios := by
  unfold selectedAudio at h
  split at h
  · exact List.mem_of_find?_eq_some (elim_eq_ok.mp h)
  · exact List.mem_of_head? (elim_eq_ok.mp h)

theorem planAudioConversion_eq_ok (h : planAudioConversion tools probe request ffmpeg target planId = .ok plan) :
    ∃ selected ∈ probe.ofKind .audio, (audioEncoder target).isSome ∧ plan.targetFormat = target ∧
      plan.changes.dropped = audioDropped probe selected ∧
      ∃ mode muxer codec, Converts plan (audioArguments request selected mode muxer codec) := by
  obtain ⟨_, _, h⟩ := bind_eq_ok.mp h
  obtain ⟨_, _, h⟩ := bind_eq_ok.mp h
  obtain ⟨_, _, h⟩ := bind_eq_ok.mp h
  obtain ⟨selected, hselected, h⟩ := bind_eq_ok.mp h
  obtain ⟨⟨codec, encoder, muxer, lossy⟩, hencoder, h⟩ := bind_eq_ok.mp h
  have hsome : (audioEncoder target).isSome := Option.isSome_of_eq_some (elim_eq_ok.mp hencoder)
  refine ⟨selected, selectedAudio_eq_ok hselected, hsome, ?_⟩
  rw [← Except.ok.inj h]
  refine ⟨rfl, rfl, _, _, _, _, rfl, ?_, rfl⟩
  show (if (decide (selected.codec = some codec)) then Operation.remux else .transcode) ≠ .metadataClean
  split_ifs <;> exact Operation.noConfusion

theorem planGifConversion_eq_ok (h : planGifConversion tools probe request ffmpeg planId = .ok plan) :
    plan.targetFormat = "gif" ∧ ∃ arguments, Converts plan arguments := by
  obtain ⟨_, _, h⟩ := bind_eq_ok.mp h
  obtain ⟨_, _, h⟩ := bind_eq_ok.mp h
  obtain ⟨_, _, h⟩ := bind_eq_ok.mp h
  obtain ⟨_, _, h⟩ := bind_eq_ok.mp h
  obtain ⟨_, _, h⟩ := bind_eq_ok.mp h
  rw [← Except.ok.inj h]
  exact ⟨rfl, _, _, rfl, Operation.noConfusion, rfl⟩

theorem planImageConversion_eq_ok (h : planImageConversion tools probe request ffmpeg target planId = .ok plan) :
    ∃ image ∈ probe.ofKind .video, (imageEncoder plan.targetFormat).isSome ∧
      ∃ codec muxer quality, Converts plan (imageArguments request image plan.targetFormat codec muxer quality) := by
  obtain ⟨_, _, h⟩ := bind_eq_ok.mp h
  obtain ⟨image, himage, h⟩ := bind_eq_ok.mp h
  obtain ⟨_, _, h⟩ := bind_eq_ok.mp h
  obtain ⟨quality, _, h⟩ := bind_eq_ok.mp h
  obtain ⟨_, _, h⟩ := bind_eq_ok.mp h
  obtain ⟨⟨codec, muxer⟩, hencoder, h⟩ := bind_eq_ok.mp h
  have hfound := elim_eq_ok.mp himage
  have hkind := List.find?_some hfound
  have hmem : image ∈ probe.ofKind .video := List.mem_filter.mpr ⟨List.mem_of_find?_eq_some hfound, hkind⟩
  have hsome := Option.isSome_of_eq_some (elim_eq_ok.mp hencoder)
  refine ⟨image, hmem, ?_⟩
  rw [← Except.ok.inj h]
  exact ⟨hsome, _, _, _, _, rfl, Operation.noConfusion, rfl⟩

theorem planMetadataClean_eq_ok {outputPath : PathBuf}
    (h : planMetadataClean tools probe outputPath ffmpeg planId = .ok plan) :
    plan.targetFormat = probe.format.id ∧
      ∃ step, plan.steps = [step] ∧ step.operation = .metadataClean ∧
        step.arguments.lookup "subtitle_mode" = none := by
  obtain ⟨muxer, _, h⟩ := bind_eq_ok.mp h
  obtain ⟨_, _, h⟩ := bind_eq_ok.mp h
  dsimp only at h
  split at h
  · contradiction
  · rw [← Except.ok.inj h]
    refine ⟨rfl, _, rfl, rfl, ?_⟩
    show (TextMap.ofList _).lookup "subtitle_mode" = none
    rw [TextMap.lookup_ofList]
    simp [List.lookup_cons]

/-! ## Arguments that are read back -/

theorem lookup_optional {α : Type} {key other : String} (value : Option α) (f : α → String) (h : key ≠ other) :
    ((value.map fun a => (other, f a)).toList.reverse).lookup key = none := by
  cases value with
  | none => rfl
  | some a => simp [List.lookup_cons, beq_false_of_ne h]

theorem lookup_mp4Arguments :
    (mp4Arguments probe request).lookup "subtitle_mode" = some (subtitleMode probe) := by
  rw [mp4Arguments, TextMap.lookup_ofList]
  simp only [List.reverse_append, List.lookup_append]
  rw [lookup_optional _ _ (by decide), lookup_optional _ _ (by decide), lookup_optional _ _ (by decide),
    lookup_optional _ _ (by decide)]
  simp [List.lookup_cons]

theorem lookup_audioArguments {selected : StreamProbe} {mode muxer codec : String} :
    (audioArguments request selected mode muxer codec).lookup "audio_stream_index" =
      some (toString selected.index) := by
  rw [audioArguments, TextMap.lookup_ofList, List.reverse_append, List.lookup_append,
    lookup_optional _ _ (by decide)]
  simp [List.lookup_cons]

theorem lookup_imageArguments {image : StreamProbe} {codec muxer : String} {quality : Option ℕ} :
    (imageArguments request image target codec muxer quality).lookup "video_stream_index" =
      some (toString image.index) := by
  rw [imageArguments, TextMap.lookup_ofList, List.reverse_append, List.lookup_append,
    lookup_optional _ _ (by decide)]
  simp [List.lookup_cons]

/-! ## Commands -/

theorem planConversion_eq_ok (h : planConversion tools probe request ffmpeg planId = .ok plan) :
    planMp4Conversion tools probe request ffmpeg planId = .ok plan ∨
      (∃ target, planAudioConversion tools probe request ffmpeg target planId = .ok plan) ∨
      planGifConversion tools probe request ffmpeg planId = .ok plan ∨
      ∃ target, planImageConversion tools probe request ffmpeg target planId = .ok plan := by
  unfold planConversion at h
  dsimp only at h
  split_ifs at h with hmp4 haudio hgif himage
  · exact .inl h
  · exact .inr (.inl ⟨_, h⟩)
  · exact .inr (.inr (.inl h))
  · exact .inr (.inr (.inr ⟨_, h⟩))

theorem audioEncoder_mem (h : (audioEncoder target).isSome) :
    target ∈ ["mp3", "m4a", "wav", "flac", "ogg", "opus", "aac"] := by
  unfold audioEncoder at h
  split at h
  all_goals first | decide | contradiction

theorem imageEncoder_mem (h : (imageEncoder target).isSome) :
    target ∈ ["jpeg", "png", "webp", "avif", "tiff", "bmp"] := by
  unfold imageEncoder at h
  split at h
  all_goals first | decide | contradiction

theorem audioEncoder_ne_mp4 (h : (audioEncoder target).isSome) : target ≠ "mp4" := by
  rintro rfl
  exact absurd (audioEncoder_mem h) (by decide)

theorem imageEncoder_ne_mp4 (h : (imageEncoder target).isSome) : target ≠ "mp4" := by
  rintro rfl
  exact absurd (imageEncoder_mem h) (by decide)

theorem audioEncoder_eq_none (h : (imageEncoder target).isSome) : audioEncoder target = none := by
  rw [← Option.not_isSome_iff_eq_none]
  intro hsome
  have hdisjoint : ∀ text ∈ ["jpeg", "png", "webp", "avif", "tiff", "bmp"],
      text ∉ ["mp3", "m4a", "wav", "flac", "ogg", "opus", "aac"] := by decide
  exact hdisjoint _ (imageEncoder_mem h) (audioEncoder_mem hsome)

section Command

variable {partialPath : PathBuf} {crfOverride : Option ℕ} {command : List Argument} {arguments : TextMap String}

theorem configureFfmpegOutput_eq_ok {step : Planning.PlanStep} (hsteps : plan.steps = [step])
    (hcommand : configureFfmpegOutput plan partialPath crfOverride = .ok command) :
    ∃ made, configureStep plan step crfOverride = .ok made ∧ streamArguments command = streamArguments made := by
  unfold configureFfmpegOutput at hcommand
  rw [hsteps, List.head?_cons] at hcommand
  obtain ⟨made, hmade, hcommand⟩ := bind_eq_ok.mp hcommand
  refine ⟨made, hmade, ?_⟩
  rw [← Except.ok.inj hcommand, streamArguments_append]
  exact List.append_nil _

theorem Converts.configureTarget (hplan : Converts plan arguments)
    (hcommand : configureFfmpegOutput plan partialPath crfOverride = .ok command) :
    ∃ step made, step.arguments = arguments ∧ Media.configureTarget plan step crfOverride = .ok made ∧
      streamArguments command = streamArguments made := by
  obtain ⟨step, hsteps, hoperation, harguments⟩ := hplan
  obtain ⟨made, hmade, hstream⟩ := configureFfmpegOutput_eq_ok hsteps hcommand
  rw [configureStep, if_neg hoperation] at hmade
  exact ⟨step, made, harguments, hmade, hstream⟩

theorem streamArguments_mp4 (hplan : planMp4Conversion tools probe request ffmpeg planId = .ok plan)
    (hcommand : configureFfmpegOutput plan partialPath crfOverride = .ok command) :
    streamArguments command = [.map (.kind .video), .map (.kind .audio)] ++
      if subtitleMode probe = "copy" then [.map (.kind .subtitle)] else [] := by
  obtain ⟨_, htarget, _, hconverts⟩ := planMp4Conversion_eq_ok hplan
  obtain ⟨step, made, harguments, hmade, hstream⟩ := hconverts.configureTarget hcommand
  rw [configureTarget, if_pos htarget] at hmade
  rw [hstream, streamArguments_configureMp4 hmade, harguments, lookup_mp4Arguments]
  simp only [Option.some.injEq]

/-- An index that was written is the index that is read. -/
theorem bind_parseU32 {index read : ℕ} (h : (some (toString index)).bind parseU32 = some read) : read = index := by
  rw [Option.bind_some, parseU32_toString] at h
  split_ifs at h
  exact (Option.some.inj h).symm

theorem streamArguments_audio (hplan : planAudioConversion tools probe request ffmpeg target planId = .ok plan)
    (hcommand : configureFfmpegOutput plan partialPath crfOverride = .ok command) :
    ∃ selected ∈ probe.ofKind .audio, plan.changes.dropped = audioDropped probe selected ∧
      streamArguments command = [.map (.index selected.index), .exclude .video] := by
  obtain ⟨selected, hmem, hencoder, htarget, hdropped, mode, muxer, codec, hconverts⟩ :=
    planAudioConversion_eq_ok hplan
  obtain ⟨step, made, harguments, hmade, hstream⟩ := hconverts.configureTarget hcommand
  obtain ⟨encoder, hsome⟩ := Option.isSome_iff_exists.mp hencoder
  rw [configureTarget, htarget, if_neg (audioEncoder_ne_mp4 hencoder), hsome] at hmade
  obtain ⟨index, hindex, hmaps⟩ := streamArguments_configureAudio hmade
  rw [harguments, lookup_audioArguments] at hindex
  refine ⟨selected, hmem, hdropped, ?_⟩
  rw [hstream, hmaps, bind_parseU32 hindex]

theorem streamArguments_gif (hplan : planGifConversion tools probe request ffmpeg planId = .ok plan)
    (hcommand : configureFfmpegOutput plan partialPath crfOverride = .ok command) :
    streamArguments command = [.map .filtered, .exclude .audio] := by
  obtain ⟨htarget, arguments, hconverts⟩ := planGifConversion_eq_ok hplan
  obtain ⟨step, made, _, hmade, hstream⟩ := hconverts.configureTarget hcommand
  rw [configureTarget, htarget] at hmade
  rw [hstream, streamArguments_configureGif hmade]

theorem streamArguments_image (hplan : planImageConversion tools probe request ffmpeg target planId = .ok plan)
    (hcommand : configureFfmpegOutput plan partialPath crfOverride = .ok command) :
    ∃ image ∈ probe.ofKind .video, streamArguments command =
      [.map (.index image.index), .exclude .audio, .exclude .subtitle, .exclude .data] := by
  obtain ⟨image, hmem, hencoder, codec, muxer, quality, hconverts⟩ := planImageConversion_eq_ok hplan
  obtain ⟨step, made, harguments, hmade, hstream⟩ := hconverts.configureTarget hcommand
  obtain ⟨encoder, hsome⟩ := Option.isSome_iff_exists.mp hencoder
  rw [configureTarget, if_neg (imageEncoder_ne_mp4 hencoder), audioEncoder_eq_none hencoder, hsome] at hmade
  obtain ⟨index, hindex, hmaps⟩ := streamArguments_configureImage hmade
  rw [harguments, lookup_imageArguments] at hindex
  refine ⟨image, hmem, ?_⟩
  rw [hstream, hmaps, bind_parseU32 hindex]

theorem streamArguments_clean {outputPath : PathBuf}
    (hplan : planMetadataClean tools probe outputPath ffmpeg planId = .ok plan)
    (hcommand : configureFfmpegOutput plan partialPath crfOverride = .ok command) :
    streamArguments command = [.map .all] := by
  obtain ⟨_, step, hsteps, hoperation, _⟩ := planMetadataClean_eq_ok hplan
  obtain ⟨made, hmade, hstream⟩ := configureFfmpegOutput_eq_ok hsteps hcommand
  rw [configureStep, if_pos hoperation] at hmade
  rw [hstream, streamArguments_configureMetadataClean hmade]

end Command

end Plans

namespace Sample

def tools : MediaTools Unit where
  planner := ⟨fun _ => "00", fun _ => "00", fun _ _ => .ok 0, fun text => text⟩
  timeRangeOutside := fun _ _ _ => false
  canonicalize := fun _ => none
  debugTexts := fun _ => "[]"

def ffmpeg : Planning.EngineIdentity where
  engineId := "ffmpeg"
  version := "7.1"
  binaryPath := PathBuf.ofString "/usr/bin/ffmpeg"
  binarySha256 := "00"
  manifestSha256 := none
  buildConfiguration := none
  certification := .certified

/-- A stream with an index, a kind and a codec. -/
def stream (index : ℕ) (kind : StreamKind) (codec : String) : StreamProbe where
  index := index
  kind := kind
  codec := some codec
  width := none
  height := none
  sampleRate := none
  channels := none
  pixFmt := none

/-- An input of a format with some streams. -/
def probe (format : String) (kind : Planning.FormatKind) (streams : List StreamProbe) : Probe Unit where
  artifact := ⟨"in", PathBuf.ofString "/in", 1000, "fast:11"⟩
  format := ⟨format, kind⟩
  streams := streams
  metadata := []
  durationSeconds := none

/-- The request of a target. -/
def request (target : String) : PlanRequest where
  targetFormat := target
  outputPath := some (PathBuf.ofString "/out")
  preserveAllStreams := false
  audioStreamIndex := none
  startMillis := none
  durationMillis := none
  width := none
  quality := none
  dpi := none
  colorMode := none
  framesPerSecond := none
  loopCount := none
  videoCrf := none
  videoPreset := none
  audioBitrateKbps := none
  operation := none
  inputs := []
  pageRange := none
  allowLossyData := false
  rotateAngle := none
  password := none
  ocrLanguage := none
  watermarkText := none
  watermarkAngle := none
  targetSizeBytes := none
  metadataTitle := none
  metadataAuthor := none

end Sample

end Anole.Media
