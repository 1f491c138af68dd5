import Anole.Media.Streams
import Anole.Media.Validation

/-!
# The size of scaled images

An image or a GIF that is scaled to a width gets the height that FFmpeg's filter `scale=W:-2`
computes: the even number nearest to the height in proportion. The validator rounds to a whole number
first and then up to an even one, which is two too many where the height in proportion lies in the
second quarter before an even number (`scaled_dimensions_iff`).
-/

open Common Anole.Common
open Anole.Planning (StreamKind PlanRequest failIf_eq_ok u32Max)

namespace Anole.Media

section Dimensions

variable {φ : Type} {tools : MediaTools φ} {probe output : Probe φ} {request : PlanRequest}
  {ffmpeg : Planning.EngineIdentity} {planId : Uuid} {plan : Planning.Plan} {target : String}
  {video : StreamProbe} {width w h : ℕ}

/-- The height that `scale=W:-2` gives to an image of `w` by `h` pixels. -/
def scalerHeight (width w h : ℕ) : ℕ := max (2 * roundDiv (h * width) (2 * w)) 2

/-- The sizes for which the two roundings agree, in a height that is a `u32`. -/
def ScalesAlike (width w h : ℕ) : Prop := ¬ SecondQuarter (h * width) w ∧ scalerHeight width w h ≤ u32Max

instance (width w h : ℕ) : Decidable (ScalesAlike width w h) :=
  inferInstanceAs (Decidable (¬ SecondQuarter (h * width) w ∧ scalerHeight width w h ≤ u32Max))

theorem scaledHeight_eq (hw : 1 ≤ w) : scaledHeight width w h =
    if max (evenUp (roundDiv (h * width) w)) 2 ≤ u32Max then some (max (evenUp (roundDiv (h * width) w)) 2)
    else none := by
  rw [scaledHeight, if_neg (by omega), ← add_half_div]
  rfl

theorem scaledHeight_iff (hw : 1 ≤ w) :
    scaledHeight width w h = some (scalerHeight width w h) ↔ ScalesAlike width w h := by
  have hround := max_evenUp_roundDiv_iff (h * width) w hw
  rw [scaledHeight_eq hw, ScalesAlike, ← hround, scalerHeight]
  constructor
  · intro heq
    split_ifs at heq with hfits
    · have hsame := Option.some.inj heq
      exact ⟨hsame, hsame ▸ hfits⟩
  · rintro ⟨hsame, hfits⟩
    rw [if_pos (hsame ▸ hfits), hsame]

theorem expectedScaledWidthDimensions_iff (hw : 1 ≤ w) (hwidth : width ≤ 16384)
    (hvideo : video.width = some w ∧ video.height = some h)
    (hplan : plan.constraints.lookup "width" = some (.natural width)) :
    expectedScaledWidthDimensions (some video) plan = some (some width, some (scalerHeight width w h)) ↔
      ScalesAlike width w h := by
  have hread : ((plan.constraints.lookup "width").bind asNatural).filter (fun value => value ≤ u32Max) =
      some width := by
    rw [hplan, Option.bind_some]
    have hnatural : asNatural (.natural width) = some width := by simp [asNatural, Json.natural]
    have hfits : width ≤ u32Max := hwidth.trans (by decide)
    rw [hnatural, Option.filter_some, if_pos (by simpa using hfits)]
  rw [expectedScaledWidthDimensions, Option.map_some, hread, ← scaledHeight_iff hw]
  simp [hvideo.1, hvideo.2]

/-! ## The plans that scale -/

theorem le_of_not_widthOutside {requested : Option ℕ} (h : ¬ widthOutside requested) (hwidth : requested = some width) :
    width ≤ 16384 := by
  by_contra hlt
  exact h ⟨width, hwidth, .inr (Nat.lt_of_not_le hlt)⟩

theorem width_planGif (hplan : planGifConversion tools probe request ffmpeg planId = .ok plan)
    (hwidth : request.width = some width) :
    width ≤ 16384 ∧ plan.constraints.lookup "width" = some (.natural width) := by
  obtain ⟨_, _, h⟩ := bind_eq_ok.mp hplan
  obtain ⟨_, _, h⟩ := bind_eq_ok.mp h
  obtain ⟨_, _, h⟩ := bind_eq_ok.mp h
  obtain ⟨_, houtside, h⟩ := bind_eq_ok.mp h
  obtain ⟨_, _, h⟩ := bind_eq_ok.mp h
  refine ⟨le_of_not_widthOutside (failIf_eq_ok.mp houtside) hwidth, ?_⟩
  rw [← Except.ok.inj h]
  show (TextMap.ofList _).lookup "width" = _
  rw [TextMap.lookup_ofList, hwidth]
  simp [List.lookup_cons, optionalNumber, Json.ofOption]

theorem width_planImage (hplan : planImageConversion tools probe request ffmpeg target planId = .ok plan)
    (hwidth : request.width = some width) :
    width ≤ 16384 ∧ plan.constraints.lookup "width" = some (.natural width) := by
  obtain ⟨_, _, h⟩ := bind_eq_ok.mp hplan
  obtain ⟨_, _, h⟩ := bind_eq_ok.mp h
  obtain ⟨_, houtside, h⟩ := bind_eq_ok.mp h
  obtain ⟨_, _, h⟩ := bind_eq_ok.mp h
  obtain ⟨_, _, h⟩ := bind_eq_ok.mp h
  obtain ⟨_, _, h⟩ := bind_eq_ok.mp h
  refine ⟨le_of_not_widthOutside (failIf_eq_ok.mp houtside) hwidth, ?_⟩
  rw [← Except.ok.inj h]
  show (TextMap.ofList _).lookup "width" = _
  rw [TextMap.lookup_ofList, hwidth]
  simp [List.lookup_cons, optionalNumber, Json.ofOption]

/-- The targets whose size is planned and checked. -/
def scaledTargets : List String := ["gif", "jpeg", "png", "webp", "avif"]

theorem width_planned (hplan : planConversion tools probe request ffmpeg planId = .ok plan)
    (htarget : plan.targetFormat ∈ scaledTargets) (hwidth : request.width = some width) :
    width ≤ 16384 ∧ plan.constraints.lookup "width" = some (.natural width) := by
  obtain hmp4 | ⟨target, haudio⟩ | hgif | ⟨target, himage⟩ := planConversion_eq_ok hplan
  · rw [(planMp4Conversion_eq_ok hmp4).2.1] at htarget
    exact absurd htarget (by decide)
  · obtain ⟨_, _, hencoder, heq, _⟩ := planAudioConversion_eq_ok haudio
    have hdisjoint : ∀ text ∈ ["mp3", "m4a", "wav", "flac", "ogg", "opus", "aac"], text ∉ scaledTargets := by decide
    rw [heq] at htarget
    exact absurd htarget (hdisjoint _ (audioEncoder_mem hencoder))
  · exact width_planGif hgif hwidth
  · exact width_planImage himage hwidth

/-! ## The check -/

/-- The check of the dimensions among those of the validator. -/
def DimensionsPass (seconds : SecondsTools φ) (input output : Probe φ) (plan : Planning.Plan) (jobId : Uuid) : Prop :=
  ∀ check ∈ (validateMediaOutput seconds input output plan jobId).1,
    check.code = "MEDIA_DIMENSIONS" → check.status = .pass

theorem dimensionsPass_iff {seconds : SecondsTools φ} {jobId : Uuid} (htarget : plan.targetFormat ∈ scaledTargets) :
    DimensionsPass seconds probe output plan jobId ↔
      expectedScaledWidthDimensions probe.firstVideo plan =
        output.firstVideo.map fun stream => (stream.width, stream.height) := by
  have hscaled : plan.targetFormat = "gif" ∨ isImageTarget plan.targetFormat = true := by
    have hall : ∀ text ∈ scaledTargets, text = "gif" ∨ isImageTarget text = true := by decide
    exact hall _ htarget
  have hstatus : (dimensionsCheck probe output plan).status = .pass ↔
      expectedScaledWidthDimensions probe.firstVideo plan =
        output.firstVideo.map fun stream => (stream.width, stream.height) := by
    rw [dimensionsCheck, checkThat_status, decide_eq_true_eq, if_pos hscaled]
  rw [← hstatus]
  constructor
  · intro h
    have hall : ∀ text ∈ scaledTargets, text ∈ ["mp4", "gif", "jpeg", "png", "webp", "avif"] := by decide
    exact h _ (dimensionsCheck_mem (hall _ htarget)) dimensionsCheck_code
  · intro h check hmem hcode
    obtain hcount | rfl | hother := mem_mediaChecks hmem
    · obtain ⟨entry, hentry, rfl⟩ := List.mem_map.mp hcount
      have hcodes : ∀ entry ∈ countedKinds, entry.2 ≠ "MEDIA_DIMENSIONS" := by decide
      exact absurd hcode (hcodes entry hentry)
    · exact h
    · rw [hcode] at hother
      exact absurd hother (by decide)

/-- **Scaled sizes.** The validator expects the size that the scaler gives, and an image scaled as
planned passes its check, for the sizes on which the two roundings agree. -/
theorem scaled_dimensions_iff (hw : 1 ≤ w) (hwidth : width ≤ 16384)
    (hvideo : video.width = some w ∧ video.height = some h) :
    (∀ plan : Planning.Plan, plan.constraints.lookup "width" = some (.natural width) →
      (expectedScaledWidthDimensions (some video) plan = some (some width, some (scalerHeight width w h)) ↔
        ScalesAlike width w h)) ∧
    ∀ (tools : MediaTools φ) (seconds : SecondsTools φ) (probe output : Probe φ) (request : PlanRequest)
      (ffmpeg : Planning.EngineIdentity) (planId jobId : Uuid) (plan : Planning.Plan) (scaled : StreamProbe),
      planConversion tools probe request ffmpeg planId = .ok plan → plan.targetFormat ∈ scaledTargets →
      request.width = some width → probe.firstVideo = some video → output.firstVideo = some scaled →
      scaled.width = some width → scaled.height = some (scalerHeight width w h) →
      (DimensionsPass seconds probe output plan jobId ↔ ScalesAlike width w h) := by
  have hexpected : ∀ plan : Planning.Plan, plan.constraints.lookup "width" = some (.natural width) →
      (expectedScaledWidthDimensions (some video) plan = some (some width, some (scalerHeight width w h)) ↔
        ScalesAlike width w h) := fun plan => expectedScaledWidthDimensions_iff hw hwidth hvideo
  refine ⟨hexpected, ?_⟩
  intro tools seconds probe output request ffmpeg planId jobId plan scaled hplan htarget hrequest hinput houtput
    hscaled hheight
  rw [dimensionsPass_iff htarget, hinput, houtput, Option.map_some, hscaled, hheight]
  exact hexpected plan (width_planned hplan htarget hrequest).2

end Dimensions

namespace Sample

/-- An image of 5 by 13 pixels. -/
def tall : StreamProbe := { stream 0 .video "png" with width := some 5, height := some 13 }

/-- A plan that scales to a width. -/
def scaledPlan (width : ℕ) : Planning.Plan :=
  mediaPlan tools 1 (probe "png" .image [tall]) "png" [("width", .natural width)] "" ffmpeg .transcode .lossless [] 0
    ⟨[], [], [], []⟩ [] none none

theorem scaled_dimensions_tall :
    expectedScaledWidthDimensions (some tall) (scaledPlan 10) = some (some 10, some (scalerHeight 10 5 13)) ↔
      ScalesAlike 10 5 13 :=
  (@scaled_dimensions_iff Unit tall 10 5 13 (by decide) (by decide) ⟨rfl, rfl⟩).1 (scaledPlan 10) rfl

/-- The validator expects 4 pixels where the scaler gives 2. -/
theorem tall_scaled : scalerHeight 1 5 13 = 2 ∧
    expectedScaledWidthDimensions (some tall) (scaledPlan 1) = some (some 1, some 4) := ⟨by decide, by decide⟩

end Sample

end Anole.Media
