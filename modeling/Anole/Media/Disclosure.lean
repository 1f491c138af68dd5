import Anole.Media.Streams

/-!
# The streams that a media plan says it drops

An MP4 or audio plan lists the streams that it drops; the runner chooses the streams from the
arguments of the plan. The two agree, but for an input with both a subtitle that MP4 can hold and
one that it cannot: all subtitles are dropped then, and the plan names those of the second kind only
(`drops_disclosed_iff`).
-/

open Common Anole.Common
open Anole.Planning (StreamKind PlanRequest)

namespace Anole.Media

/-! ## Names -/

/-- A list of what is dropped names a stream. -/
def Named (dropped : List String) (stream : StreamProbe) : Prop := ∃ label, named label stream ∈ dropped

theorem toList_named (label : String) (stream : StreamProbe) :
    (named label stream).toList = (label ++ " stream").toList ++ ' ' :: (toString stream.index).toList := by
  have hlabel : toString " stream " = " stream" ++ " " := by decide
  rw [named, hlabel]
  simp [String.toList_append, toString]

theorem named_inj {a b : String} {s t : StreamProbe} (h : named a s = named b t) : s.index = t.index := by
  have hlist := congrArg String.toList h
  rw [toList_named, toList_named] at hlist
  exact number_of_append_eq (by decide) hlist

theorem named_append {a b : List String} {stream : StreamProbe} :
    Named (a ++ b) stream ↔ Named a stream ∨ Named b stream := by
  simp only [Named, List.mem_append, exists_or]

theorem named_map {label : String} {streams : List StreamProbe} {stream : StreamProbe} :
    Named (streams.map (named label)) stream ↔ ∃ other ∈ streams, other.index = stream.index := by
  constructor
  · rintro ⟨text, hmem⟩
    obtain ⟨other, hother, heq⟩ := List.mem_map.mp hmem
    exact ⟨other, hother, named_inj heq⟩
  · rintro ⟨other, hother, heq⟩
    refine ⟨label, List.mem_map.mpr ⟨other, hother, ?_⟩⟩
    rw [named, named, heq]

section Disclosure

variable {φ : Type} {tools : MediaTools φ} {probe : Probe φ} {request : PlanRequest}
  {ffmpeg : Planning.EngineIdentity} {planId : Uuid} {plan : Planning.Plan} {target : String}
  {partialPath : PathBuf} {crfOverride : Option ℕ} {command : List Argument} {stream : StreamProbe}

theorem named_map_iff (hprobe : probe.Reported) {label : String} {streams : List StreamProbe}
    (hsub : ∀ other ∈ streams, other ∈ probe.streams) (hstream : stream ∈ probe.streams) :
    Named (streams.map (named label)) stream ↔ stream ∈ streams := by
  rw [named_map]
  constructor
  · rintro ⟨other, hother, hindex⟩
    rwa [← hprobe.eq_of_index (hsub other hother) hstream hindex]
  · intro hmem
    exact ⟨stream, hmem, rfl⟩

/-! ## MP4 -/

theorem mem_unsupportedSubtitles : stream ∈ unsupportedSubtitles probe ↔
    stream ∈ probe.streams ∧ stream.kind = .subtitle ∧ stream.codec ≠ some "mov_text" := by
  rw [unsupportedSubtitles, List.mem_filter, mem_ofKind, decide_eq_true_eq, and_assoc]

theorem mem_otherStreams : stream ∈ otherStreams probe ↔ stream ∈ probe.streams ∧ isOtherKind stream.kind = true := by
  rw [otherStreams, List.mem_filter]

theorem subtitleMode_eq_copy :
    subtitleMode probe = "copy" ↔ probe.ofKind .subtitle ≠ [] ∧ unsupportedSubtitles probe = [] := by
  unfold subtitleMode
  split_ifs with hnone hcopy
  · simp [List.isEmpty_iff.mp hnone]
  · simp [List.isEmpty_iff.mp hcopy, List.isEmpty_iff.not.mp hnone]
  · simp [List.isEmpty_iff.not.mp hcopy]

theorem mapped_mp4 (hplan : planMp4Conversion tools probe request ffmpeg planId = .ok plan)
    (hcommand : configureFfmpegOutput plan partialPath crfOverride = .ok command) :
    Mapped command stream ↔ stream.kind = .video ∨ stream.kind = .audio ∨
      subtitleMode probe = "copy" ∧ stream.kind = .subtitle := by
  rw [← mapped_streamArguments, streamArguments_mp4 hplan hcommand, Mapped]
  by_cases hcopy : subtitleMode probe = "copy"
  · simp [hcopy, Selection.selects]
  · simp [hcopy, Selection.selects]

/-- An MP4 plan names the subtitles that MP4 cannot hold, and the streams of other kinds. -/
theorem named_mp4 (hprobe : probe.Reported)
    (hplan : planMp4Conversion tools probe request ffmpeg planId = .ok plan) (hstream : stream ∈ probe.streams) :
    Named plan.changes.dropped stream ↔ stream ∈ unsupportedSubtitles probe ∨ stream ∈ otherStreams probe := by
  obtain ⟨hpreserve, _, hdropped, _⟩ := planMp4Conversion_eq_ok hplan
  have hlist : plan.changes.dropped =
      (unsupportedSubtitles probe).map (named "subtitle") ++ (otherStreams probe).map (named "non-media") := by
    rw [hdropped, mp4Dropped]
    split_ifs with hempty
    · have hnone : unsupportedSubtitles probe = [] ∧ otherStreams probe = [] := by
        refine hempty.elim (fun hremux => ?_) hpreserve
        simp only [isRemux, Bool.and_eq_true, List.isEmpty_iff] at hremux
        exact ⟨hremux.1.2, hremux.2⟩
      rw [hnone.1, hnone.2]
      rfl
    · rfl
  rw [hlist, named_append, named_map_iff hprobe (fun other h => (mem_unsupportedSubtitles.mp h).1) hstream,
    named_map_iff hprobe (fun other h => (mem_otherStreams.mp h).1) hstream]

/-- An input with a subtitle that MP4 can hold and one that it cannot. -/
def MixedSubtitles (probe : Probe φ) : Prop :=
  (∃ held ∈ probe.ofKind .subtitle, held.codec = some "mov_text") ∧
    ∃ other ∈ probe.ofKind .subtitle, other.codec ≠ some "mov_text"

theorem unsupportedSubtitles_ne_nil {other : StreamProbe} (hmem : other ∈ probe.ofKind .subtitle)
    (hcodec : other.codec ≠ some "mov_text") : unsupportedSubtitles probe ≠ [] := by
  rw [mem_ofKind] at hmem
  exact List.ne_nil_of_mem (mem_unsupportedSubtitles.mpr ⟨hmem.1, hmem.2, hcodec⟩)

theorem mapped_mp4_iff (hprobe : probe.Reported) (hmixed : ¬ MixedSubtitles probe)
    (hplan : planMp4Conversion tools probe request ffmpeg planId = .ok plan)
    (hcommand : configureFfmpegOutput plan partialPath crfOverride = .ok command) (hstream : stream ∈ probe.streams) :
    Mapped command stream ↔ ¬ (stream ∈ unsupportedSubtitles probe ∨ stream ∈ otherStreams probe) := by
  rw [mapped_mp4 hplan hcommand, mem_unsupportedSubtitles, mem_otherStreams, subtitleMode_eq_copy]
  have hsubtitle : stream.kind = .subtitle →
      (unsupportedSubtitles probe = [] ↔ stream.codec = some "mov_text") := by
    intro hkind
    have hmem := mem_ofKind.mpr ⟨hstream, hkind⟩
    constructor
    · intro hnone
      by_contra hcodec
      exact unsupportedSubtitles_ne_nil hmem hcodec hnone
    · intro hcodec
      by_contra hne
      obtain ⟨other, hother⟩ := List.exists_mem_of_ne_nil _ hne
      obtain ⟨hin, hother, hcodec'⟩ := mem_unsupportedSubtitles.mp hother
      exact hmixed ⟨⟨stream, hmem, hcodec⟩, other, mem_ofKind.mpr ⟨hin, hother⟩, hcodec'⟩
  have hsome : stream.kind = .subtitle → probe.ofKind .subtitle ≠ [] := fun hkind =>
    List.ne_nil_of_mem (mem_ofKind.mpr ⟨hstream, hkind⟩)
  have hkinds := hprobe.kinds stream hstream
  simp only [List.mem_cons, List.not_mem_nil, or_false] at hkinds
  rcases hkinds with h | h | h | h | h | h
  · simp [h, isOtherKind]
  · simp [h, isOtherKind]
  · simp [h, isOtherKind, hstream, hsubtitle h, hsome h]
  · simp [h, isOtherKind, hstream]
  · simp [h, isOtherKind, hstream]
  · simp [h, isOtherKind, hstream]

/-! ## Audio -/

theorem mapped_audio {selected : StreamProbe} (hprobe : probe.Reported) (hmem : selected ∈ probe.ofKind .audio)
    (hcommand : streamArguments command = [.map (.index selected.index), .exclude .video])
    (hstream : stream ∈ probe.streams) : Mapped command stream ↔ stream = selected := by
  obtain ⟨hin, hkind⟩ := mem_ofKind.mp hmem
  rw [← mapped_streamArguments, hcommand, Mapped]
  constructor
  · rintro ⟨⟨selection, hselection, hselects⟩, _⟩
    simp only [List.mem_cons, Argument.map.injEq, List.not_mem_nil, or_false, reduceCtorEq] at hselection
    rw [hselection] at hselects
    exact hprobe.eq_of_index hstream hin (of_decide_eq_true hselects)
  · rintro rfl
    refine ⟨⟨_, List.mem_cons_self, decide_eq_true rfl⟩, ?_⟩
    simp [hkind]

theorem named_audio {selected : StreamProbe} (hprobe : probe.Reported) (hmem : selected ∈ probe.ofKind .audio)
    (hstream : stream ∈ probe.streams) : Named (audioDropped probe selected) stream ↔ stream ≠ selected := by
  obtain ⟨hin, hkind⟩ := mem_ofKind.mp hmem
  have hindex : stream.index = selected.index ↔ stream = selected :=
    ⟨hprobe.eq_of_index hstream hin, fun h => by rw [h]⟩
  rw [audioDropped, named_append, named_append,
    named_map_iff hprobe (fun other h => (mem_ofKind.mp h).1) hstream,
    named_map_iff hprobe (fun other h => (mem_ofKind.mp (List.mem_of_mem_filter h)).1) hstream,
    named_map_iff hprobe (fun other h => List.mem_of_mem_filter h) hstream,
    List.mem_filter, List.mem_filter, mem_ofKind, mem_ofKind]
  simp only [hstream, true_and, decide_eq_true_eq, ne_eq, hindex]
  constructor
  · rintro ((hvideo | ⟨_, hne⟩) | ⟨_, haudio⟩) rfl
    · rw [hkind] at hvideo
      contradiction
    · exact hne rfl
    · exact haudio hkind
  · intro hne
    by_cases hvideo : stream.kind = .video
    · exact .inl (.inl hvideo)
    by_cases haudio : stream.kind = .audio
    · exact .inl (.inr ⟨haudio, hne⟩)
    · exact .inr ⟨hvideo, haudio⟩

/-! ## What is disclosed -/

/-- A plan names the streams that are not mapped and no other, and an MP4 plan that is to preserve
    every stream maps every stream. -/
structure Disclosed (probe : Probe φ) (request : PlanRequest) (plan : Planning.Plan) (command : List Argument) :
    Prop where
  dropped : ∀ stream ∈ probe.streams, ¬ Mapped command stream → Named plan.changes.dropped stream
  kept : ∀ stream ∈ probe.streams, Mapped command stream → ¬ Named plan.changes.dropped stream
  preserved : plan.targetFormat = "mp4" → request.preserveAllStreams = true →
    ∀ stream ∈ probe.streams, Mapped command stream

theorem disclosed_mp4_iff (hprobe : probe.Reported)
    (hplan : planMp4Conversion tools probe request ffmpeg planId = .ok plan)
    (hcommand : configureFfmpegOutput plan partialPath crfOverride = .ok command) :
    Disclosed probe request plan command ↔ ¬ MixedSubtitles probe := by
  constructor
  · rintro hdisclosed ⟨⟨held, hheld, hcodec⟩, other, hother, hcodec'⟩
    obtain ⟨hin, hkind⟩ := mem_ofKind.mp hheld
    have hdrop : ¬ Mapped command held := by
      rw [mapped_mp4 hplan hcommand, subtitleMode_eq_copy]
      simp [hkind, unsupportedSubtitles_ne_nil hother hcodec']
    have hnamed := (named_mp4 hprobe hplan hin).mp (hdisclosed.dropped held hin hdrop)
    rw [mem_unsupportedSubtitles, mem_otherStreams] at hnamed
    simp [hkind, hcodec, isOtherKind] at hnamed
  · intro hmixed
    have hiff : ∀ stream ∈ probe.streams, Mapped command stream ↔ ¬ Named plan.changes.dropped stream := by
      intro stream hstream
      rw [mapped_mp4_iff hprobe hmixed hplan hcommand hstream, named_mp4 hprobe hplan hstream]
    refine ⟨fun stream hstream hdrop => ?_, fun stream hstream => (hiff stream hstream).mp, ?_⟩
    · exact not_not.mp ((hiff stream hstream).not.mp hdrop)
    · intro _ hall stream hstream
      obtain ⟨hunsupported, hothers⟩ := (planMp4Conversion_eq_ok hplan).1 hall
      rw [mapped_mp4_iff hprobe hmixed hplan hcommand hstream, hunsupported, hothers]
      simp

theorem disclosed_audio (hprobe : probe.Reported)
    (hplan : planAudioConversion tools probe request ffmpeg target planId = .ok plan)
    (hcommand : configureFfmpegOutput plan partialPath crfOverride = .ok command) :
    plan.targetFormat ≠ "mp4" ∧ Disclosed probe request plan command := by
  obtain ⟨selected, hmem, hdropped, hmaps⟩ := streamArguments_audio hplan hcommand
  obtain ⟨_, _, hencoder, htarget, _⟩ := planAudioConversion_eq_ok hplan
  have hmp4 : plan.targetFormat ≠ "mp4" := by
    rw [htarget]
    exact audioEncoder_ne_mp4 hencoder
  refine ⟨hmp4, fun stream hstream hdrop => ?_, fun stream hstream hmapped => ?_, fun h => absurd h hmp4⟩
  · rw [mapped_audio hprobe hmem hmaps hstream] at hdrop
    rw [hdropped, named_audio hprobe hmem hstream]
    exact hdrop
  · rw [mapped_audio hprobe hmem hmaps hstream] at hmapped
    rw [hdropped, named_audio hprobe hmem hstream]
    exact not_not.mpr hmapped

/-- **Dropped streams.** An MP4 or audio plan names exactly the streams that FFmpeg is not told to
write, unless an MP4 plan meets subtitles of both sorts. -/
theorem drops_disclosed_iff (hprobe : probe.Reported)
    (hplan : planConversion tools probe request ffmpeg planId = .ok plan)
    (htarget : plan.targetFormat = "mp4" ∨ (audioEncoder plan.targetFormat).isSome)
    (hcommand : configureFfmpegOutput plan partialPath crfOverride = .ok command) :
    Disclosed probe request plan command ↔ ¬ (plan.targetFormat = "mp4" ∧ MixedSubtitles probe) := by
  obtain hmp4 | ⟨target, haudio⟩ | hgif | ⟨target, himage⟩ := planConversion_eq_ok hplan
  · rw [disclosed_mp4_iff hprobe hmp4 hcommand]
    simp [(planMp4Conversion_eq_ok hmp4).2.1]
  · obtain ⟨hne, hdisclosed⟩ := disclosed_audio hprobe haudio hcommand
    simp [hne, hdisclosed]
  · rw [(planGifConversion_eq_ok hgif).1] at htarget
    exact absurd htarget (by decide)
  · obtain ⟨image, _, hencoder, _⟩ := planImageConversion_eq_ok himage
    rw [audioEncoder_eq_none hencoder] at htarget
    exact absurd htarget (by simp [imageEncoder_ne_mp4 hencoder])

end Disclosure

namespace Sample

/-- A video with a subtitle that MP4 can hold and one that it cannot. -/
def subtitled : Probe Unit :=
  probe "mkv" .video [stream 0 .video "h264", stream 1 .audio "aac", stream 2 .subtitle "mov_text",
    stream 3 .subtitle "subrip"]

theorem subtitled_reported : subtitled.Reported := ⟨by decide, by decide⟩

theorem subtitled_command : ∃ plan command,
    planConversion tools subtitled (request "mp4") ffmpeg 1 = .ok plan ∧
      planMp4Conversion tools subtitled (request "mp4") ffmpeg 1 = .ok plan ∧ plan.targetFormat = "mp4" ∧
      configureFfmpegOutput plan [] none = .ok command := ⟨_, _, rfl, rfl, rfl, rfl⟩

theorem drops_disclosed_subtitled : ∃ plan command,
    planConversion tools subtitled (request "mp4") ffmpeg 1 = .ok plan ∧
      configureFfmpegOutput plan [] none = .ok command ∧
      (Disclosed subtitled (request "mp4") plan command ↔ ¬ (plan.targetFormat = "mp4" ∧ MixedSubtitles subtitled)) := by
  obtain ⟨plan, command, hplan, _, htarget, hcommand⟩ := subtitled_command
  exact ⟨plan, command, hplan, hcommand, drops_disclosed_iff subtitled_reported hplan (.inl htarget) hcommand⟩

/-- The subtitle that MP4 can hold is dropped without a word. -/
theorem silent_drop : ∃ plan command, planConversion tools subtitled (request "mp4") ffmpeg 1 = .ok plan ∧
    configureFfmpegOutput plan [] none = .ok command ∧
    ∃ stream ∈ subtitled.streams, ¬ Mapped command stream ∧ ¬ Named plan.changes.dropped stream := by
  obtain ⟨plan, command, hplan, hmp4, _, hcommand⟩ := subtitled_command
  refine ⟨plan, command, hplan, hcommand, stream 2 .subtitle "mov_text", by decide, ?_, ?_⟩
  · rw [mapped_mp4 hmp4 hcommand]
    decide
  · rw [named_mp4 subtitled_reported hmp4 (by decide)]
    decide

end Sample

end Anole.Media
