import Anole.Media.Streams
import Anole.Media.Validation

/-!
# The numbers of streams that the validator expects

The validator computes the numbers of streams from the target format, the runner selects streams by
the operation and the arguments of the plan. They agree on every plan of a conversion. When metadata
is cleaned every stream is kept, and the validator expects the streams of a conversion to the format
all the same (`stream_counts_iff`).
-/

open Common Anole.Common
open Anole.Planning (StreamKind PlanRequest)

namespace Anole.Media

section Counts

variable {φ : Type} {tools : MediaTools φ} {probe output : Probe φ} {request : PlanRequest}
  {ffmpeg : Planning.EngineIdentity} {planId : Uuid} {plan : Planning.Plan} {target : String}
  {partialPath outputPath : PathBuf} {crfOverride : Option ℕ} {command : List Argument} {kind : StreamKind}

/-! ## The checks -/

/-- The checks of the numbers of streams among those of the validator. -/
def CountsPass (seconds : SecondsTools φ) (input output : Probe φ) (plan : Planning.Plan) (jobId : Uuid) : Prop :=
  ∀ check ∈ (validateMediaOutput seconds input output plan jobId).1,
    check.code ∈ countedKinds.map Prod.snd → check.status = .pass

/-- The kinds of the streams of a probe. -/
def Probe.kinds (probe : Probe φ) : List StreamKind := probe.streams.map StreamProbe.kind

theorem countsPass_iff {seconds : SecondsTools φ} {jobId : Uuid} :
    CountsPass seconds probe output plan jobId ↔
      ∀ entry ∈ countedKinds, streamCount probe.kinds entry.1 plan = output.kinds.count entry.1 := by
  constructor
  · intro h entry hentry
    have hcount : streamCountCheck probe output plan entry ∈ streamCountChecks probe output plan :=
      List.mem_map_of_mem hentry
    have hpass := h _ (streamCountChecks_subset hcount) (List.mem_map_of_mem hentry)
    rwa [streamCountCheck, checkThat_status, decide_eq_true_eq] at hpass
  · intro h check hmem hcode
    have hcount : check ∈ streamCountChecks probe output plan := by
      obtain hcount | rfl | hother := mem_mediaChecks hmem
      · exact hcount
      · exact absurd hcode (by simp [countedKinds])
      · have hdisjoint : ∀ code ∈ otherCodes, code ∉ countedKinds.map Prod.snd := by decide
        exact absurd hcode (hdisjoint _ hother)
    obtain ⟨entry, hentry, rfl⟩ := List.mem_map.mp hcount
    rw [streamCountCheck, checkThat_status, decide_eq_true_eq]
    exact h entry hentry

/-! ## The selected streams -/

theorem count_filter_kind {streams : List StreamProbe} {selected : StreamKind} :
    ((streams.filter fun stream => stream.kind = selected).map StreamProbe.kind).count kind =
      if kind = selected then (streams.map StreamProbe.kind).count kind else 0 := by
  rw [List.count_eq_countP, List.count_eq_countP, List.countP_map, List.countP_map, List.countP_filter]
  split_ifs with hkind
  · rw [hkind]
    congr 1
    funext stream
    simp
  · rw [List.countP_eq_zero]
    intro stream _ hboth
    simp only [Function.comp_apply, Bool.and_eq_true, beq_iff_eq, decide_eq_true_eq] at hboth
    exact hkind (hboth.1.symm.trans hboth.2)

theorem filter_index {stream : StreamProbe} (hprobe : probe.Reported) (hmem : stream ∈ probe.streams) :
    (probe.streams.filter fun other => other.index = stream.index) = [stream] := by
  have hnodup := List.Nodup.of_map _ hprobe.numbered
  have hsame : ∀ other ∈ probe.streams, decide (other.index = stream.index) = (other == stream) := by
    intro other hother
    rw [Bool.eq_iff_iff, decide_eq_true_eq, beq_iff_eq]
    exact ⟨hprobe.eq_of_index hother hmem, fun h => by rw [h]⟩
  rw [List.filter_congr hsame, List.filter_beq, List.count_eq_one_of_mem hnodup hmem]
  rfl

theorem count_mp4 (hplan : planMp4Conversion tools probe request ffmpeg planId = .ok plan)
    (hcommand : configureFfmpegOutput plan partialPath crfOverride = .ok command) :
    (selectedKinds command probe.streams).count kind =
      if kind = .video ∨ kind = .audio ∨ subtitleMode probe = "copy" ∧ kind = .subtitle then probe.kinds.count kind
      else 0 := by
  rw [← selectedKinds_streamArguments, streamArguments_mp4 hplan hcommand]
  by_cases hcopy : subtitleMode probe = "copy"
  · simp only [selectedKinds, hcopy, Probe.kinds]
    cases kind <;> simp [Argument.outputKinds, Selection.selects, count_filter_kind]
  · simp only [selectedKinds, hcopy, Probe.kinds]
    cases kind <;> simp [Argument.outputKinds, Selection.selects, count_filter_kind]

theorem selectedKinds_audio (hprobe : probe.Reported)
    (hplan : planAudioConversion tools probe request ffmpeg target planId = .ok plan)
    (hcommand : configureFfmpegOutput plan partialPath crfOverride = .ok command) :
    selectedKinds command probe.streams = [.audio] := by
  obtain ⟨selected, hmem, _, hstream⟩ := streamArguments_audio hplan hcommand
  obtain ⟨hin, hkind⟩ := mem_ofKind.mp hmem
  rw [← selectedKinds_streamArguments, hstream]
  simp [selectedKinds, Argument.outputKinds, Selection.selects, filter_index hprobe hin, hkind]

theorem selectedKinds_gif (hplan : planGifConversion tools probe request ffmpeg planId = .ok plan)
    (hcommand : configureFfmpegOutput plan partialPath crfOverride = .ok command) :
    selectedKinds command probe.streams = [.video] := by
  rw [← selectedKinds_streamArguments, streamArguments_gif hplan hcommand]
  simp [selectedKinds, Argument.outputKinds]

theorem selectedKinds_image (hprobe : probe.Reported)
    (hplan : planImageConversion tools probe request ffmpeg target planId = .ok plan)
    (hcommand : configureFfmpegOutput plan partialPath crfOverride = .ok command) :
    selectedKinds command probe.streams = [.video] := by
  obtain ⟨image, hmem, hstream⟩ := streamArguments_image hplan hcommand
  obtain ⟨hin, hkind⟩ := mem_ofKind.mp hmem
  rw [← selectedKinds_streamArguments, hstream]
  simp [selectedKinds, Argument.outputKinds, Selection.selects, filter_index hprobe hin, hkind]

theorem selectedKinds_clean (hplan : planMetadataClean tools probe outputPath ffmpeg planId = .ok plan)
    (hcommand : configureFfmpegOutput plan partialPath crfOverride = .ok command) :
    selectedKinds command probe.streams = probe.kinds := by
  rw [← selectedKinds_streamArguments, streamArguments_clean hplan hcommand]
  simp [selectedKinds, Argument.outputKinds, Selection.selects, Probe.kinds]

/-! ## The expected streams -/

theorem Converts.firstArgument {arguments : TextMap String} (h : Converts plan arguments) (name : String) :
    Media.firstArgument plan name = arguments.lookup name := by
  obtain ⟨step, hsteps, _, harguments⟩ := h
  rw [Media.firstArgument, hsteps, List.head?_cons, Option.bind_some, harguments]

theorem streamCount_mp4 (hplan : planMp4Conversion tools probe request ffmpeg planId = .ok plan)
    (hkind : kind ∈ countedKinds.map Prod.fst) :
    streamCount probe.kinds kind plan =
      if kind = .video ∨ kind = .audio ∨ subtitleMode probe = "copy" ∧ kind = .subtitle then probe.kinds.count kind
      else 0 := by
  obtain ⟨_, htarget, _, hconverts⟩ := planMp4Conversion_eq_ok hplan
  have haudio : (expectedAudioCodec "mp4").isSome = false := by decide
  have himage : ¬ (isImageTarget "mp4" = true ∨ "mp4" = "gif") := by decide
  simp only [streamCount, htarget, haudio, himage, hconverts.firstArgument, lookup_mp4Arguments, Option.getD_some]
  simp only [countedKinds, List.map_cons, List.map_nil, List.mem_cons, List.not_mem_nil, or_false] at hkind
  rcases hkind with rfl | rfl | rfl <;> simp

theorem streamCount_audio (h : (expectedAudioCodec plan.targetFormat).isSome)
    (hkind : kind ∈ countedKinds.map Prod.fst) : streamCount probe.kinds kind plan = [StreamKind.audio].count kind := by
  simp only [streamCount, h, if_true]
  simp only [countedKinds, List.map_cons, List.map_nil, List.mem_cons, List.not_mem_nil, or_false] at hkind
  rcases hkind with rfl | rfl | rfl <;> rfl

theorem streamCount_image (haudio : expectedAudioCodec plan.targetFormat = none)
    (h : isImageTarget plan.targetFormat = true ∨ plan.targetFormat = "gif")
    (hkind : kind ∈ countedKinds.map Prod.fst) : streamCount probe.kinds kind plan = [StreamKind.video].count kind := by
  simp only [streamCount, haudio, h, Option.isSome_none, Bool.false_eq_true, if_false, if_true]
  simp only [countedKinds, List.map_cons, List.map_nil, List.mem_cons, List.not_mem_nil, or_false] at hkind
  rcases hkind with rfl | rfl | rfl <;> rfl

/-- A file whose streams are those of a conversion to its format: one audio stream for an audio
format, one video stream for a still image, and no subtitles for other formats. -/
def FitsFormat (probe : Probe φ) : Prop :=
  if (expectedAudioCodec probe.format.id).isSome then
    probe.kinds.count .video = 0 ∧ probe.kinds.count .audio = 1 ∧ probe.kinds.count .subtitle = 0
  else if isImageTarget probe.format.id then
    probe.kinds.count .video = 1 ∧ probe.kinds.count .audio = 0 ∧ probe.kinds.count .subtitle = 0
  else probe.kinds.count .subtitle = 0

instance (probe : Probe φ) : Decidable (FitsFormat probe) :=
  inferInstanceAs (Decidable (
    if (expectedAudioCodec probe.format.id).isSome then
      probe.kinds.count .video = 0 ∧ probe.kinds.count .audio = 1 ∧ probe.kinds.count .subtitle = 0
    else if isImageTarget probe.format.id then
      probe.kinds.count .video = 1 ∧ probe.kinds.count .audio = 0 ∧ probe.kinds.count .subtitle = 0
    else probe.kinds.count .subtitle = 0))

theorem metadataCleanMuxer_ne_gif {muxer : String} (h : metadataCleanMuxer target = some muxer) : target ≠ "gif" := by
  rintro rfl
  have hnone : metadataCleanMuxer "gif" = none := by decide
  rw [hnone] at h
  contradiction

/-- After a cleaning, the expected numbers are those of the file if it fits its format. -/
theorem streamCount_clean_iff (hplan : planMetadataClean tools probe outputPath ffmpeg planId = .ok plan) :
    (∀ entry ∈ countedKinds, streamCount probe.kinds entry.1 plan = probe.kinds.count entry.1) ↔ FitsFormat probe := by
  obtain ⟨muxer, hmuxer, _⟩ := bind_eq_ok.mp hplan
  have hgif := metadataCleanMuxer_ne_gif (elim_eq_ok.mp hmuxer)
  obtain ⟨htarget, step, hsteps, _, hmode⟩ := planMetadataClean_eq_ok hplan
  have hnone : firstArgument plan "subtitle_mode" = none := by
    rw [firstArgument, hsteps, List.head?_cons, Option.bind_some, hmode]
  unfold FitsFormat
  by_cases haudio : (expectedAudioCodec probe.format.id).isSome
  · simp [countedKinds, streamCount, htarget, haudio, onlyStream, eq_comm]
  by_cases himage : isImageTarget probe.format.id
  · simp [countedKinds, streamCount, htarget, haudio, himage, onlyStream, eq_comm]
  · simp [countedKinds, streamCount, htarget, haudio, himage, hgif, hnone, eq_comm]

/-! ## What is written is what is expected -/

/-- A plan of one of the media planners. -/
inductive MediaPlanned (tools : MediaTools φ) (probe : Probe φ) (request : PlanRequest)
    (ffmpeg : Planning.EngineIdentity) (planId : Uuid) : Planning.Plan → Prop where
  | converted (plan : Planning.Plan) (h : planConversion tools probe request ffmpeg planId = .ok plan) :
    MediaPlanned tools probe request ffmpeg planId plan
  | cleaned (outputPath : PathBuf) (plan : Planning.Plan)
      (h : planMetadataClean tools probe outputPath ffmpeg planId = .ok plan) :
    MediaPlanned tools probe request ffmpeg planId plan

/-- An output of the format of the plan, with the streams that the command selects. -/
structure Written (command : List Argument) (plan : Planning.Plan) (probe output : Probe φ) : Prop where
  format : output.format.id = plan.targetFormat
  streams : output.kinds.Perm (selectedKinds command probe.streams)

theorem Converts.planOperation_ne {arguments : TextMap String} (h : Converts plan arguments) :
    planOperation plan ≠ .metadataClean := by
  obtain ⟨step, hsteps, hoperation, _⟩ := h
  rw [planOperation, hsteps]
  exact hoperation

/-- The plan of a conversion expects what its command selects. -/
theorem streamCount_converted (hprobe : probe.Reported)
    (hplan : planConversion tools probe request ffmpeg planId = .ok plan)
    (hcommand : configureFfmpegOutput plan partialPath crfOverride = .ok command)
    (hkind : kind ∈ countedKinds.map Prod.fst) :
    planOperation plan ≠ .metadataClean ∧
      streamCount probe.kinds kind plan = (selectedKinds command probe.streams).count kind := by
  obtain hmp4 | ⟨target, haudio⟩ | hgif | ⟨target, himage⟩ := planConversion_eq_ok hplan
  · obtain ⟨_, _, _, hconverts⟩ := planMp4Conversion_eq_ok hmp4
    exact ⟨hconverts.planOperation_ne, by rw [streamCount_mp4 hmp4 hkind, count_mp4 hmp4 hcommand]⟩
  · obtain ⟨_, _, hencoder, htarget, _, _, _, _, hconverts⟩ := planAudioConversion_eq_ok haudio
    have hexpected : ∀ text ∈ ["mp3", "m4a", "wav", "flac", "ogg", "opus", "aac"],
        (expectedAudioCodec text).isSome := by decide
    have hsome : (expectedAudioCodec plan.targetFormat).isSome := by
      rw [htarget]
      exact hexpected _ (audioEncoder_mem hencoder)
    exact ⟨hconverts.planOperation_ne, by
      rw [streamCount_audio hsome hkind, selectedKinds_audio hprobe haudio hcommand]⟩
  · obtain ⟨htarget, _, hconverts⟩ := planGifConversion_eq_ok hgif
    have hnone : expectedAudioCodec plan.targetFormat = none := by
      rw [htarget]
      decide
    exact ⟨hconverts.planOperation_ne, by
      rw [streamCount_image hnone (.inr htarget) hkind, selectedKinds_gif hgif hcommand]⟩
  · obtain ⟨_, _, hencoder, _, _, _, hconverts⟩ := planImageConversion_eq_ok himage
    have hexpected : ∀ text ∈ ["jpeg", "png", "webp", "avif", "tiff", "bmp"],
        expectedAudioCodec text = none ∧ isImageTarget text = true := by decide
    obtain ⟨hnone, htarget⟩ := hexpected _ (imageEncoder_mem hencoder)
    exact ⟨hconverts.planOperation_ne, by
      rw [streamCount_image hnone (.inl htarget) hkind, selectedKinds_image hprobe himage hcommand]⟩

/-- **The numbers of streams.** The output that FFmpeg is told to write passes the counts of the
validator, unless metadata is cleaned in a file whose streams do not fit its format. -/
theorem stream_counts_iff {seconds : SecondsTools φ} {jobId : Uuid} (hprobe : probe.Reported)
    (hplan : MediaPlanned tools probe request ffmpeg planId plan)
    (hcommand : configureFfmpegOutput plan partialPath crfOverride = .ok command)
    (hwritten : Written command plan probe output) :
    CountsPass seconds probe output plan jobId ↔ (planOperation plan = .metadataClean → FitsFormat probe) := by
  have hcount : ∀ kind, output.kinds.count kind = (selectedKinds command probe.streams).count kind :=
    fun kind => hwritten.streams.count_eq kind
  simp only [countsPass_iff, hcount]
  cases hplan with
  | converted _ hplan =>
    have hagree : ∀ entry ∈ countedKinds, planOperation plan ≠ .metadataClean ∧
        streamCount probe.kinds entry.1 plan = (selectedKinds command probe.streams).count entry.1 :=
      fun entry hentry => streamCount_converted hprobe hplan hcommand (List.mem_map_of_mem hentry)
    have hoperation := (hagree _ List.mem_cons_self).1
    exact iff_of_true (fun entry hentry => (hagree entry hentry).2) fun h => absurd h hoperation
  | cleaned path _ hplan =>
    obtain ⟨_, step, hsteps, hoperation, _⟩ := planMetadataClean_eq_ok hplan
    have hclean : planOperation plan = .metadataClean := by
      rw [planOperation, hsteps]
      exact hoperation
    rw [selectedKinds_clean hplan hcommand, streamCount_clean_iff hplan]
    simp only [hclean, true_implies]

end Counts

namespace Sample

/-- An MP3 file with a cover. -/
def cover : Probe Unit := probe "mp3" .audio [stream 0 .audio "mp3", stream 1 .video "mjpeg"]

theorem cover_reported : cover.Reported := ⟨by decide, by decide⟩

/-- Seconds that are never compared. -/
def seconds : SecondsTools Unit := ⟨fun _ => (), fun _ _ => (), fun _ _ => (), fun _ => (), fun _ _ => true, fun _ => .null⟩

/-- The cleaning of the MP3 file. -/
theorem cover_command : ∃ plan command, planMetadataClean tools cover [] ffmpeg 1 = .ok plan ∧
    planOperation plan = .metadataClean ∧ configureFfmpegOutput plan [] none = .ok command ∧
    Written command plan cover cover := ⟨_, _, rfl, rfl, rfl, rfl, List.Perm.refl _⟩

theorem stream_counts_cover : ∃ plan command, planMetadataClean tools cover [] ffmpeg 1 = .ok plan ∧
    configureFfmpegOutput plan [] none = .ok command ∧
    (CountsPass seconds cover cover plan 1 ↔ (planOperation plan = .metadataClean → FitsFormat cover)) := by
  obtain ⟨plan, command, hplan, _, hcommand, hwritten⟩ := cover_command
  have hcleaned : MediaPlanned tools cover (request "mp3") ffmpeg 1 plan := .cleaned _ _ hplan
  exact ⟨plan, command, hplan, hcommand, stream_counts_iff cover_reported hcleaned hcommand hwritten⟩

/-- The cleaned file is reported as a failure. -/
theorem cleaned_cover_fails : ∃ plan command, planMetadataClean tools cover [] ffmpeg 1 = .ok plan ∧
    configureFfmpegOutput plan [] none = .ok command ∧ Written command plan cover cover ∧
    ¬ CountsPass seconds cover cover plan 1 := by
  obtain ⟨plan, command, hplan, _, hcommand, hwritten⟩ := cover_command
  refine ⟨plan, command, hplan, hcommand, hwritten, ?_⟩
  rw [countsPass_iff]
  intro h
  exact absurd ((streamCount_clean_iff hplan).mp h) (by decide)

end Sample

end Anole.Media
