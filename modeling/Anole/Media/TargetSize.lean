import Anole.Media.Streams
import Anole.Media.Validation

/-!
# The search for a target size

Model of `mp4_target_size_bytes`, `target_size_crf_ladder` and `run_ffmpeg_attempt` (`crates/core/src/runner.rs`,
lines 4078–4226) and of the loop of `execute_plan_observed` that calls them (lines 395–427), with the check that
reports its end (lines 456–481).

The environment says for each attempt how the encoder ends, what it has written by then, whether the partial file
could be removed before and after it, and whether its size could be read.

* `ladder_spec`: the values of CRF that may be tried.
* `target_size_search_iff`: when a search is faithful to its target.
-/

open Common Anole.Common
open Anole.Planning (u64Max)

namespace Anole.Media

/-! ## The ladder -/

/-- `mp4_target_size_bytes` (lines 4201–4212). -/
def mp4TargetSizeBytes (plan : Planning.Plan) : Option ℕ :=
  if plan.targetFormat ≠ "mp4" then none
  else
    plan.steps.head?.bind fun step =>
      if step.arguments.lookup "video_mode" = some "copy" then none
      else (step.arguments.lookup "target_size_bytes").bind (parseUnsigned u64Max)

/-- The loop body of `target_size_crf_ladder` (lines 4218–4224). -/
def ladderStep (startCrf : ℕ) (ladder : List ℕ) (step : ℕ) : List ℕ :=
  let crf := min (startCrf + 6 * step) 51
  if ladder.getLast? = some crf then ladder else ladder ++ [crf]

/-- `target_size_crf_ladder` (lines 4216–4226). -/
def targetSizeCrfLadder (startCrf : ℕ) : List ℕ := (List.range 4).foldl (ladderStep startCrf) []

/-- A ladder that climbs from a CRF to another. -/
structure Climbs (startCrf top : ℕ) (ladder : List ℕ) : Prop where
  head : ladder.head? = some startCrf
  last : ladder.getLast? = some top
  increasing : ladder.Pairwise (· < ·)
  below : ∀ crf ∈ ladder, crf ≤ top

theorem Climbs.ladderStep {startCrf step : ℕ} {ladder : List ℕ}
    (h : Climbs startCrf (min (startCrf + 6 * step) 51) ladder) :
    Climbs startCrf (min (startCrf + 6 * (step + 1)) 51) (ladderStep startCrf ladder (step + 1)) := by
  unfold Media.ladderStep
  dsimp only
  have hle : min (startCrf + 6 * step) 51 ≤ min (startCrf + 6 * (step + 1)) 51 := by omega
  split
  case isTrue hlast =>
    have htop : min (startCrf + 6 * step) 51 = min (startCrf + 6 * (step + 1)) 51 := by
      rw [h.last] at hlast
      exact Option.some.inj hlast
    rw [← htop]
    exact h
  case isFalse hlast =>
    have hlt : min (startCrf + 6 * step) 51 < min (startCrf + 6 * (step + 1)) 51 := by
      refine lt_of_le_of_ne hle fun htop => hlast ?_
      rw [h.last, htop]
    refine ⟨?_, List.getLast?_concat, ?_, ?_⟩
    · rw [List.head?_append, h.head, Option.some_or]
    · rw [List.pairwise_append]
      refine ⟨h.increasing, List.pairwise_singleton _ _, fun crf hcrf top htop => ?_⟩
      rw [List.mem_singleton.mp htop]
      exact lt_of_le_of_lt (h.below crf hcrf) hlt
    · intro crf hcrf
      rcases List.mem_append.mp hcrf with hcrf | hcrf
      · exact (h.below crf hcrf).trans hle
      · rw [List.mem_singleton.mp hcrf]

theorem length_ladderStep_le (startCrf : ℕ) (ladder : List ℕ) (step : ℕ) :
    (ladderStep startCrf ladder step).length ≤ ladder.length + 1 := by
  unfold ladderStep
  dsimp only
  split
  · exact Nat.le_succ _
  · rw [List.length_append, List.length_singleton]

variable {startCrf : ℕ}

theorem climbs_foldl (hstart : startCrf ≤ 51) (steps : ℕ) :
    Climbs startCrf (min (startCrf + 6 * steps) 51) ((List.range (steps + 1)).foldl (ladderStep startCrf) []) ∧
      ((List.range (steps + 1)).foldl (ladderStep startCrf) []).length ≤ steps + 1 := by
  induction steps with
  | zero =>
    have hmin : min startCrf 51 = startCrf := Nat.min_eq_left hstart
    have hladder : (List.range 1).foldl (ladderStep startCrf) [] = [startCrf] := by simp [ladderStep, hmin]
    rw [hladder, Nat.mul_zero, Nat.add_zero, hmin]
    exact ⟨⟨rfl, rfl, List.pairwise_singleton _ _, by simp⟩, le_rfl⟩
  | succ steps ih =>
    rw [List.range_succ, List.foldl_append, List.foldl_cons, List.foldl_nil]
    exact ⟨ih.1.ladderStep, (length_ladderStep_le _ _ _).trans (Nat.succ_le_succ ih.2)⟩

/-- The ladder climbs from its start, to 51 at most, in four attempts at most. -/
theorem ladder_spec (hstart : startCrf ≤ 51) :
    Climbs startCrf (min (startCrf + 18) 51) (targetSizeCrfLadder startCrf) ∧
      (targetSizeCrfLadder startCrf).length ≤ 4 :=
  climbs_foldl hstart 3

theorem ladder_ne_nil (hstart : startCrf ≤ 51) : targetSizeCrfLadder startCrf ≠ [] := by
  intro hnil
  have hhead := (ladder_spec hstart).1.head
  rw [hnil] at hhead
  cases hhead

/-- The CRF of each attempt (lines 395–404). -/
def attemptsOf (plan : Planning.Plan) (step : Planning.PlanStep) : Except AnoleError (List (Option ℕ)) :=
  match mp4TargetSizeBytes plan with
  | some _ => (videoCrfArgument step).map fun startCrf => (targetSizeCrfLadder startCrf).map some
  | none => .ok [none]

/-! ## One attempt -/

/-- The file at the partial path: the attempt that wrote it, with its CRF, and its size. -/
structure PartialFile where
  attempt : ℕ
  crf : Option ℕ
  size : ℕ
  deriving DecidableEq

/-- How an encoder ends. -/
inductive EncoderEnd where
  /-- The command could not be made, or the process not started. -/
  | notStarted (error : AnoleError)
  /-- A pipe of the process was missing. -/
  | noPipe (name : String)
  | waitFailed (diagnostic : String)
  | cancelled
  | exited (success : Bool) (status stderr : String)

/-- What the environment does in one attempt. -/
structure Attempt where
  /-- The removal before the attempt is not refused. -/
  removes : Bool
  ends : EncoderEnd
  /-- The size of what the encoder has written, if it has created the file. -/
  written : Option ℕ
  /-- The removal after the attempt is not refused. -/
  cleans : Bool
  /-- `std::fs::metadata` answers after the attempt. -/
  measured : Bool

/-- `cleanup_partial` (lines 4921–4932). -/
def cleanupPartial (works : Bool) (file : Option PartialFile) : Option PartialFile := if works then none else file

/-- What is at the partial path when the encoder has ended. -/
def Attempt.leaves (attempt : Attempt) (index : ℕ) (crf : Option ℕ) (file : Option PartialFile) : Option PartialFile :=
  match attempt.written with
  | some size => some ⟨index, crf, size⟩
  | none => file

/-- The errors of `run_ffmpeg_attempt` (lines 4125–4187); a success has none of them. -/
def EncoderEnd.error? : EncoderEnd → Option AnoleError
  | notStarted error => some error
  | noPipe name =>
    some (.new .internal .execute s!"FFmpeg {name} pipe was not created" "Report this internal error.")
  | waitFailed diagnostic =>
    some ((AnoleError.new .executionFailed .execute "Unable to wait for FFmpeg" "Retry the conversion.").withDiagnostic
      diagnostic)
  | cancelled => some (.new .cancelled .execute "Conversion was cancelled" "Retry when ready.")
  | exited true _ _ => none
  | exited false status stderr =>
    some ((AnoleError.new .executionFailed .execute s!"FFmpeg exited with status {status}"
      "Inspect the diagnostic, adjust the Plan, or try another engine.").withDiagnostic stderr)

/-- The error of a success without a file (lines 4188–4195). -/
def noOutputError : AnoleError :=
  .new .executionFailed .execute "FFmpeg reported success but produced no output"
    "Retry with a different engine or report the input as a bug."

/-- What an attempt that failed leaves: it cleans up after a cancellation and after a failure of the encoder. -/
def Attempt.afterError (attempt : Attempt) (index : ℕ) (crf : Option ℕ) (file : Option PartialFile) :
    Option PartialFile :=
  match attempt.ends with
  | .notStarted _ => file
  | .noPipe _ | .waitFailed _ => attempt.leaves index crf file
  | .cancelled | .exited _ _ _ => cleanupPartial attempt.cleans (attempt.leaves index crf file)

/-- `run_ffmpeg_attempt` (lines 4078–4197), with the file that it leaves. -/
def runFfmpegAttempt (index : ℕ) (crf : Option ℕ) (attempt : Attempt) (file : Option PartialFile) :
    Except AnoleError Unit × Option PartialFile :=
  match attempt.ends.error? with
  | some error => (.error error, attempt.afterError index crf file)
  | none =>
    let file := attempt.leaves index crf file
    (if file.isSome then .ok () else .error noOutputError, file)

/-! ## The loop -/

/-- The partial file has a size that meets the target (lines 422–426). -/
def meetsTarget (target : Option ℕ) (attempt : Attempt) (file : Option PartialFile) : Bool :=
  target.any fun target => attempt.measured && file.any fun file => file.size ≤ target

/-- An attempt that was started, with the file that was there at its start and the size of what it wrote. -/
structure Tried where
  attempt : ℕ
  crf : Option ℕ
  found : Option PartialFile
  size : Option ℕ
  deriving DecidableEq

/-- A search: the attempts, the file after them, and the CRF that is carried on. -/
structure LadderRun where
  tried : List Tried
  file : Option PartialFile
  result : Except AnoleError (Option ℕ)

/-- The loop over the attempts (lines 405–427), from one of them on. -/
def tryAttempts (target : Option ℕ) (env : ℕ → Attempt) (index : ℕ) (attempts : List (Option ℕ))
    (file : Option PartialFile) (finalCrf : Option ℕ) : LadderRun :=
  match attempts with
  | [] => ⟨[], file, .ok finalCrf⟩
  | crf :: attempts =>
    let found := if 0 < index then cleanupPartial (env index).removes file else file
    let tried : Tried := ⟨index, crf, found, (env index).written⟩
    match runFfmpegAttempt index crf (env index) found with
    | (.error error, file) => ⟨[tried], file, .error error⟩
    | (.ok (), file) =>
      if meetsTarget target (env index) file then ⟨[tried], file, .ok crf⟩
      else
        let run := tryAttempts target env (index + 1) attempts file crf
        ⟨tried :: run.tried, run.file, run.result⟩

/-- Lines 395–427. -/
def encode (plan : Planning.Plan) (step : Planning.PlanStep) (env : ℕ → Attempt) : LadderRun :=
  match attemptsOf plan step with
  | .error error => ⟨[], none, .error error⟩
  | .ok attempts => tryAttempts (mp4TargetSizeBytes plan) env 0 attempts none none

/-- The check of a search (lines 456–481). -/
def videoTargetSizeCheck (target measuredBytes : ℕ) (finalCrf : Option ℕ) : ValidationCheck :=
  let met := measuredBytes ≤ target
  { code := "VIDEO_TARGET_SIZE", status := if met then .pass else .warning, required := false,
    expected := .natural target, observed := .natural measuredBytes,
    evidence := s!"final CRF attempt: crf={finalCrf.getD 0}",
    message :=
      if met then "Measured output bytes are within the requested target size."
      else s!"Output exceeds the target size even at the final CRF ladder step (crf={finalCrf.getD 0}); " ++
        "the highest-compression attempt was kept." }

/-! ## What is promised -/

/-- The promises that concern the attempts one by one: of a search among `attempts`, it stops where the target is
    met and not before, what goes on is the file of the last attempt under its CRF, and no file is there when an
    attempt starts, or after one that failed and was not the first. -/
structure LadderRun.Kept (target : ℕ) (attempts : List (Option ℕ)) (run : LadderRun) : Prop where
  stops : ∀ tried ∈ run.tried.dropLast, ∀ size ∈ tried.size, target < size
  exhausted : ∀ finalCrf, run.result = .ok finalCrf →
    (∃ last ∈ run.tried.getLast?, ∃ size ∈ last.size, size ≤ target) ∨ run.tried.map Tried.crf = attempts
  validated : ∀ finalCrf, run.result = .ok finalCrf →
    ∃ last ∈ run.tried.getLast?, ∃ file ∈ run.file,
      file.attempt = last.attempt ∧ file.crf = last.crf ∧ finalCrf = last.crf
  startsClear : ∀ tried ∈ run.tried, tried.found = none
  failsClear : ∀ error, run.result = .error error → (∃ last ∈ run.tried.getLast?, 0 < last.attempt) → run.file = none

/-- A search is faithful to its target: it climbs from the planned CRF, keeps the promises of its attempts, and
    reports the CRF of the file that goes on. -/
structure LadderRun.Faithful (target startCrf : ℕ) (run : LadderRun) : Prop
    extends run.Kept target ((targetSizeCrfLadder startCrf).map some) where
  numbered : run.tried.map Tried.attempt = List.range run.tried.length
  climbs : ∃ crfs : List ℕ, run.tried.map Tried.crf = crfs.map some ∧ crfs.head? = some startCrf ∧
    crfs.Pairwise (· < ·) ∧ (∀ crf ∈ crfs, crf ≤ 51) ∧ crfs.length ≤ 4
  recorded : ∀ finalCrf, run.result = .ok finalCrf → ∀ measuredBytes, ∃ file ∈ run.file, ∃ crf, file.crf = some crf ∧
    (videoTargetSizeCheck target measuredBytes finalCrf).evidence = s!"final CRF attempt: crf={crf}"

/-! ## The condition -/

/-- An attempt after which the search goes on: its file is larger than the target, or cannot be measured. -/
def Attempt.GoesOn (target : ℕ) (attempt : Attempt) : Prop :=
  attempt.ends.error? = none ∧ ∃ size ∈ attempt.written, attempt.measured = true → target < size

/-- An attempt leaves no file when it fails. -/
def Attempt.FailsClean (attempt : Attempt) : Prop :=
  match attempt.ends with
  | .notStarted _ | .exited true _ _ => True
  | .noPipe _ | .waitFailed _ => attempt.written = none
  | .cancelled | .exited false _ _ => attempt.cleans = true ∨ attempt.written = none

/-- Nothing goes wrong around an attempt: the file before it is removed, a file that it leaves when it fails is
    removed, and a file that meets the target is measured, if there are attempts to come. -/
structure Attempt.Clean (target index : ℕ) (last : Bool) (attempt : Attempt) : Prop where
  removed : 0 < index → attempt.removes = true
  cleaned : 0 < index → attempt.FailsClean
  seen : attempt.ends.error? = none → ∀ size ∈ attempt.written, size ≤ target → attempt.measured = true ∨ last = true

section Search

variable {target index : ℕ} {attempt : Attempt} {env : ℕ → Attempt} {crf finalCrf size : Option ℕ}
  {attempts : List (Option ℕ)} {file found : Option PartialFile} {run : LadderRun}
  {result : Except AnoleError (Option ℕ)} {error : AnoleError}

/-! ## The attempts that were started -/

theorem map_crf_tried :
    (tryAttempts (some target) env index attempts file finalCrf).tried.map Tried.crf <+: attempts := by
  induction attempts generalizing index file finalCrf with
  | nil => exact List.prefix_rfl
  | cons crf attempts ih =>
    unfold tryAttempts
    dsimp only
    split
    · exact List.prefix_append [crf] attempts
    · split
      · exact List.prefix_append [crf] attempts
      · rw [List.map_cons, List.prefix_cons_inj]
        exact ih

theorem tried_ne_nil (h : attempts ≠ []) : (tryAttempts (some target) env index attempts file finalCrf).tried ≠ [] := by
  cases attempts with
  | nil => exact absurd rfl h
  | cons crf attempts =>
    unfold tryAttempts
    dsimp only
    split
    · exact List.cons_ne_nil _ _
    · split <;> exact List.cons_ne_nil _ _

theorem map_attempt_tried :
    (tryAttempts (some target) env index attempts file finalCrf).tried.map Tried.attempt =
      List.range' index (tryAttempts (some target) env index attempts file finalCrf).tried.length := by
  induction attempts generalizing index file finalCrf with
  | nil => rfl
  | cons crf attempts ih =>
    unfold tryAttempts
    dsimp only
    split
    · rfl
    · split
      · rfl
      · rw [List.map_cons, ih, List.length_cons, List.range'_succ]

/-! ## One attempt keeps the promises -/

theorem kept_single :
    LadderRun.Kept target (crf :: attempts) ⟨[⟨index, crf, found, size⟩], file, result⟩ ↔
      found = none ∧ (∀ finalCrf, result = .ok finalCrf →
        ((∃ bytes ∈ size, bytes ≤ target) ∨ attempts = []) ∧
          ∃ written ∈ file, written.attempt = index ∧ written.crf = crf ∧ finalCrf = crf) ∧
        ∀ error, result = .error error → 0 < index → file = none := by
  constructor
  · intro h
    refine ⟨h.startsClear _ (List.mem_singleton_self _), fun finalCrf hresult => ⟨?_, ?_⟩, fun error herror hlater =>
      h.failsClear error herror ⟨_, rfl, hlater⟩⟩
    · rcases h.exhausted finalCrf hresult with ⟨last, hlast, hmet⟩ | hall
      · cases hlast
        exact .inl hmet
      · simp only [List.map_cons, List.map_nil, List.cons.injEq, true_and] at hall
        exact .inr hall.symm
    · obtain ⟨last, hlast, written, hwritten, hattempt, hcrf, hfinal⟩ := h.validated finalCrf hresult
      cases hlast
      exact ⟨written, hwritten, hattempt, hcrf, hfinal⟩
  · rintro ⟨hfound, hok, herror⟩
    refine ⟨by simp, fun finalCrf hresult => ?_, fun finalCrf hresult => ?_, fun other hother => ?_,
      fun error hresult ⟨last, hlast, hlater⟩ => ?_⟩
    · rcases (hok finalCrf hresult).1 with hmet | rfl
      · exact .inl ⟨_, rfl, hmet⟩
      · exact .inr rfl
    · obtain ⟨written, hwritten, hattempt, hcrf, hfinal⟩ := (hok finalCrf hresult).2
      exact ⟨_, rfl, written, hwritten, hattempt, hcrf, hfinal⟩
    · rw [List.mem_singleton.mp hother]
      exact hfound
    · cases hlast
      exact herror error hresult hlater

theorem kept_cons (hrun : run.tried ≠ []) :
    LadderRun.Kept target (crf :: attempts) ⟨⟨index, crf, found, size⟩ :: run.tried, run.file, run.result⟩ ↔
      found = none ∧ (∀ bytes ∈ size, target < bytes) ∧ run.Kept target attempts := by
  have hlast (tried : Tried) : (tried :: run.tried).getLast? = run.tried.getLast? := by
    rw [List.getLast?_cons, List.getLast?_eq_some_getLast hrun]
    rfl
  have hdrop (tried : Tried) : (tried :: run.tried).dropLast = tried :: run.tried.dropLast :=
    List.dropLast_cons_of_ne_nil hrun
  constructor
  · rintro ⟨hstops, hexhausted, hvalidated, hstarts, hfails⟩
    dsimp only at hstops hexhausted hvalidated hstarts hfails
    rw [hlast] at hexhausted hvalidated hfails
    rw [hdrop, List.forall_mem_cons] at hstops
    rw [List.forall_mem_cons] at hstarts
    refine ⟨hstarts.1, hstops.1, hstops.2, fun finalCrf hresult => ?_, hvalidated, hstarts.2, hfails⟩
    have hend := hexhausted finalCrf hresult
    rw [List.map_cons, List.cons.injEq] at hend
    exact hend.imp_right And.right
  · rintro ⟨hfound, htarget, hstops, hexhausted, hvalidated, hstarts, hfails⟩
    refine ⟨?_, fun finalCrf hresult => ?_, ?_, ?_, ?_⟩
    · dsimp only
      rw [hdrop, List.forall_mem_cons]
      exact ⟨htarget, hstops⟩
    · dsimp only
      rw [hlast, List.map_cons, List.cons.injEq]
      exact (hexhausted finalCrf hresult).imp_right fun hall => ⟨rfl, hall⟩
    · dsimp only
      rw [hlast]
      exact hvalidated
    · exact List.forall_mem_cons.mpr ⟨hfound, hstarts⟩
    · dsimp only
      rw [hlast]
      exact hfails

theorem afterError_eq_none (h : attempt.ends.error? = some error) :
    attempt.afterError index crf none = none ↔ attempt.FailsClean := by
  unfold Attempt.afterError Attempt.FailsClean Attempt.leaves cleanupPartial
  cases hends : attempt.ends with
  | exited success status stderr =>
    cases success with
    | true =>
      rw [hends] at h
      cases h
    | false => cases attempt.written <;> simp
  | _ => cases attempt.written <;> simp

/-- What is at the partial path when an attempt starts. -/
theorem found_of_tried :
    ∃ tried ∈ (tryAttempts (some target) env index (crf :: attempts) file finalCrf).tried,
      tried.found = if 0 < index then cleanupPartial (env index).removes file else file := by
  unfold tryAttempts
  dsimp only
  split
  · exact ⟨_, List.mem_singleton_self _, rfl⟩
  · split
    · exact ⟨_, List.mem_singleton_self _, rfl⟩
    · exact ⟨_, List.mem_cons_self, rfl⟩

/-- An attempt that finds no file ends the search with an error. -/
theorem tryAttempts_of_error
    (hfound : (if 0 < index then cleanupPartial (env index).removes file else file) = none)
    (herror : (env index).ends.error? = some error) :
    tryAttempts (some target) env index (crf :: attempts) file finalCrf =
      ⟨[⟨index, crf, none, (env index).written⟩], (env index).afterError index crf none, .error error⟩ := by
  simp only [tryAttempts, hfound, runFfmpegAttempt, herror]

/-- An encoder that succeeds without a file ends the search as well. -/
theorem tryAttempts_of_nothing
    (hfound : (if 0 < index then cleanupPartial (env index).removes file else file) = none)
    (herror : (env index).ends.error? = none) (hwritten : (env index).written = none) :
    tryAttempts (some target) env index (crf :: attempts) file finalCrf =
      ⟨[⟨index, crf, none, none⟩], none, .error noOutputError⟩ := by
  simp [tryAttempts, hfound, runFfmpegAttempt, herror, Attempt.leaves, hwritten]

/-- An encoder that succeeds with a file ends the search if the file meets the target. -/
theorem tryAttempts_of_written {size : ℕ}
    (hfound : (if 0 < index then cleanupPartial (env index).removes file else file) = none)
    (herror : (env index).ends.error? = none) (hwritten : (env index).written = some size) :
    tryAttempts (some target) env index (crf :: attempts) file finalCrf =
      if (env index).measured = true ∧ size ≤ target then
        ⟨[⟨index, crf, none, some size⟩], some ⟨index, crf, size⟩, .ok crf⟩
      else
        ⟨⟨index, crf, none, some size⟩ ::
            (tryAttempts (some target) env (index + 1) attempts (some ⟨index, crf, size⟩) crf).tried,
          (tryAttempts (some target) env (index + 1) attempts (some ⟨index, crf, size⟩) crf).file,
          (tryAttempts (some target) env (index + 1) attempts (some ⟨index, crf, size⟩) crf).result⟩ := by
  rw [tryAttempts]
  simp [hfound, runFfmpegAttempt, herror, Attempt.leaves, hwritten, meetsTarget]

theorem not_goesOn_of_error (h : attempt.ends.error? = some error) : ¬ attempt.GoesOn target := by
  rintro ⟨hnone, -⟩
  rw [h] at hnone
  cases hnone

theorem failsClean_of_success (h : attempt.ends.error? = none) : attempt.FailsClean := by
  unfold Attempt.FailsClean
  cases hends : attempt.ends with
  | exited success status stderr =>
    cases success with
    | true => trivial
    | false =>
      rw [hends] at h
      cases h
  | _ =>
    rw [hends] at h
    cases h

/-- One attempt: the promises are kept if it is clean, and are kept by what follows it. -/
theorem kept_step (hfile : 0 < index ↔ file ≠ none) :
    (tryAttempts (some target) env index (crf :: attempts) file finalCrf).Kept target (crf :: attempts) ↔
      (env index).Clean target index attempts.isEmpty ∧ ((env index).GoesOn target → attempts ≠ [] →
        ∀ size ∈ (env index).written, (tryAttempts (some target) env (index + 1) attempts (some ⟨index, crf, size⟩)
          crf).Kept target attempts) := by
  by_cases hremoved : 0 < index → (env index).removes = true
  case neg =>
    -- The file of the attempt before is still there.
    constructor
    · intro h
      obtain ⟨tried, htried, hfound⟩ := @found_of_tried target index env crf finalCrf attempts file
      push Not at hremoved
      rw [if_pos hremoved.1, cleanupPartial, if_neg hremoved.2, h.startsClear tried htried] at hfound
      exact absurd hfound.symm (hfile.mp hremoved.1)
    · rintro ⟨hclean, -⟩
      exact absurd hclean.removed hremoved
  have hfound : (if 0 < index then cleanupPartial (env index).removes file else file) = none := by
    split
    case isTrue hindex => rw [cleanupPartial, if_pos (hremoved hindex)]
    case isFalse hindex =>
      by_contra hne
      exact hindex (hfile.mpr hne)
  cases herror : (env index).ends.error? with
  | some error =>
    rw [tryAttempts_of_error hfound herror, kept_single, afterError_eq_none herror]
    constructor
    · rintro ⟨-, -, hclean⟩
      refine ⟨⟨hremoved, hclean error rfl, fun hnone => ?_⟩, fun hgoes => absurd hgoes (not_goesOn_of_error herror)⟩
      rw [herror] at hnone
      cases hnone
    · rintro ⟨hclean, -⟩
      exact ⟨rfl, fun _ hok => (nomatch hok), fun _ _ => hclean.cleaned⟩
  | none =>
    cases hwritten : (env index).written with
    | none =>
      rw [tryAttempts_of_nothing hfound herror hwritten, kept_single]
      constructor
      · intro _
        exact ⟨⟨hremoved, fun _ => failsClean_of_success herror, by simp [hwritten]⟩,
          fun _ _ _ hsize => (nomatch hsize)⟩
      · intro _
        exact ⟨rfl, fun _ hok => (nomatch hok), fun _ _ _ => rfl⟩
    | some size =>
      have hseen : (env index).Clean target index attempts.isEmpty ↔
          (size ≤ target → (env index).measured = true ∨ attempts.isEmpty = true) := by
        constructor
        · intro hclean
          exact hclean.seen herror size hwritten
        · intro h
          refine ⟨hremoved, fun _ => failsClean_of_success herror, fun _ written hsize => ?_⟩
          cases hwritten.symm.trans hsize
          exact h
      have hgoes : (env index).GoesOn target ↔ ((env index).measured = true → target < size) := by
        simp [Attempt.GoesOn, herror, hwritten]
      rw [tryAttempts_of_written hfound herror hwritten, hseen, hgoes]
      split
      case isTrue hmet =>
        rw [kept_single]
        constructor
        · intro _
          exact ⟨fun _ => .inl hmet.1, fun hlarge => absurd (hlarge hmet.1) (Nat.not_lt.mpr hmet.2)⟩
        · intro _
          refine ⟨rfl, fun final hok => ?_, fun _ herror => (nomatch herror)⟩
          cases hok
          exact ⟨.inl ⟨size, rfl, hmet.2⟩, _, rfl, rfl, rfl, rfl⟩
      case isFalse hmet =>
        cases attempts with
        | nil =>
          simp only [tryAttempts]
          rw [kept_single]
          constructor
          · intro _
            exact ⟨fun _ => .inr rfl, fun _ hne => absurd rfl hne⟩
          · intro _
            refine ⟨rfl, fun final hok => ?_, fun _ herror => (nomatch herror)⟩
            cases hok
            exact ⟨.inr rfl, _, rfl, rfl, rfl, rfl⟩
        | cons next attempts =>
          rw [kept_cons (tried_ne_nil (List.cons_ne_nil _ _))]
          constructor
          · rintro ⟨-, hlarge, hkept⟩
            refine ⟨fun hle => absurd (hlarge size rfl) (Nat.not_lt.mpr hle), fun _ _ written hsize => ?_⟩
            cases hsize
            exact hkept
          · rintro ⟨hsmall, hkept⟩
            have hlarge : target < size := by
              by_contra hle
              rcases hsmall (Nat.le_of_not_lt hle) with hmeasured | hempty
              · exact hmet ⟨hmeasured, Nat.le_of_not_lt hle⟩
              · cases hempty
            refine ⟨rfl, fun written hsize => ?_, hkept (fun _ => hlarge) (List.cons_ne_nil _ _) size rfl⟩
            cases hsize
            exact hlarge

/-! ## The search keeps the promises -/

/-- Every attempt that the search comes to is clean. -/
def CleanSearch (target : ℕ) (env : ℕ → Attempt) (index length : ℕ) : Prop :=
  ∀ i < length, (∀ j < i, (env (index + j)).GoesOn target) →
    (env (index + i)).Clean target (index + i) (decide (i + 1 = length))

theorem cleanSearch_succ {length : ℕ} :
    CleanSearch target env index (length + 1) ↔
      (env index).Clean target index (decide (length = 0)) ∧
        ((env index).GoesOn target → CleanSearch target env (index + 1) length) := by
  have hshift (k : ℕ) : index + 1 + k = index + (k + 1) := by omega
  unfold CleanSearch
  simp only [hshift]
  constructor
  · intro h
    have hfirst := h 0 (Nat.succ_pos _) (fun j hj => absurd hj (Nat.not_lt_zero j))
    rw [Nat.add_zero, Nat.zero_add] at hfirst
    refine ⟨by simpa [eq_comm] using hfirst, fun hgoes i hi hbefore => ?_⟩
    have hnext := h (i + 1) (Nat.succ_lt_succ hi) fun j hj => by
      cases j with
      | zero => exact hgoes
      | succ j => exact hbefore j (Nat.lt_of_succ_lt_succ hj)
    simpa using hnext
  · rintro ⟨hfirst, hrest⟩ i hi hbefore
    cases i with
    | zero => simpa [eq_comm] using hfirst
    | succ i =>
      have hgoes := hbefore 0 (Nat.succ_pos i)
      have hnext := hrest hgoes i (Nat.lt_of_succ_lt_succ hi) fun j hj => hbefore (j + 1) (Nat.succ_lt_succ hj)
      simpa using hnext

theorem kept_iff (hattempts : attempts ≠ []) (hfile : 0 < index ↔ file ≠ none) :
    (tryAttempts (some target) env index attempts file finalCrf).Kept target attempts ↔
      CleanSearch target env index attempts.length := by
  induction attempts generalizing index file finalCrf with
  | nil => exact absurd rfl hattempts
  | cons crf attempts ih =>
    have hlast : attempts.isEmpty = decide (attempts.length = 0) := by
      cases attempts <;> rfl
    rw [kept_step hfile, List.length_cons, cleanSearch_succ, hlast]
    refine and_congr_right fun _ => forall_congr' fun hgoes => ?_
    obtain ⟨-, size, hsize, -⟩ := hgoes
    cases attempts with
    | nil =>
      constructor
      · intro _ i hi
        exact absurd hi (Nat.not_lt_zero i)
      · intro _ hne
        exact absurd rfl hne
    | cons next attempts =>
      have hne : next :: attempts ≠ [] := List.cons_ne_nil _ _
      have hnext (written : ℕ) : (tryAttempts (some target) env (index + 1) (next :: attempts)
          (some ⟨index, crf, written⟩) crf).Kept target (next :: attempts) ↔
            CleanSearch target env (index + 1) (next :: attempts).length :=
        ih hne (by simp)
      simp only [hnext]
      exact ⟨fun h => h hne size hsize, fun h _ _ _ => h⟩

end Search

theorem videoCrfArgument_le {step : Planning.PlanStep} (h : videoCrfArgument step = .ok startCrf) :
    startCrf ≤ 51 := by
  unfold videoCrfArgument at h
  split at h
  · split at h
    case isTrue hle =>
      cases h
      exact hle
    case isFalse => cases h
  · cases h

theorem encode_of_target {plan : Planning.Plan} {step : Planning.PlanStep} {target startCrf : ℕ} {env : ℕ → Attempt}
    (hplan : mp4TargetSizeBytes plan = some target) (hcrf : videoCrfArgument step = .ok startCrf) :
    encode plan step env = tryAttempts (some target) env 0 ((targetSizeCrfLadder startCrf).map some) none none := by
  simp only [encode, attemptsOf, hplan, hcrf, Except.map]

/-- What a search promises beyond its attempts holds of every search that validates the file of its last attempt. -/
theorem faithful_of_kept {target startCrf : ℕ} {env : ℕ → Attempt} (hstart : startCrf ≤ 51)
    (h : (tryAttempts (some target) env 0 ((targetSizeCrfLadder startCrf).map some) none none).Kept target
      ((targetSizeCrfLadder startCrf).map some)) :
    (tryAttempts (some target) env 0 ((targetSizeCrfLadder startCrf).map some) none none).Faithful target startCrf := by
  obtain ⟨hladder, hlength⟩ := ladder_spec hstart
  have hcrfs : (tryAttempts (some target) env 0 ((targetSizeCrfLadder startCrf).map some) none none).tried.map
      Tried.crf <+: (targetSizeCrfLadder startCrf).map some := map_crf_tried
  refine ⟨h, ?_, ?_, fun finalCrf hresult measuredBytes => ?_⟩
  · rw [map_attempt_tried, List.range_eq_range']
  · obtain ⟨crfs, hcrfs, htried⟩ := List.prefix_map_iff.mp hcrfs
    have hne : crfs ≠ [] := by
      rintro rfl
      have hnil := List.map_eq_nil_iff.mp htried
      exact tried_ne_nil (by simpa using ladder_ne_nil hstart) hnil
    refine ⟨crfs, htried, ?_, hladder.increasing.sublist hcrfs.sublist, fun crf hcrf => ?_,
      hcrfs.length_le.trans hlength⟩
    · obtain ⟨rest, hrest⟩ := hcrfs
      rw [← hladder.head, ← hrest, List.head?_append_of_ne_nil _ hne]
    · exact (hladder.below crf (hcrfs.subset hcrf)).trans (min_le_right _ _)
  · obtain ⟨last, hlast, file, hfile, -, hcrf, hfinal⟩ := h.validated finalCrf hresult
    have hmem := List.mem_map_of_mem (f := Tried.crf) (List.mem_of_getLast? hlast)
    obtain ⟨crf, -, hsome⟩ := List.mem_map.mp (hcrfs.subset hmem)
    rw [← hsome] at hcrf hfinal
    refine ⟨file, hfile, crf, hcrf, ?_⟩
    rw [hfinal]
    rfl

/-- A search for a target size is faithful if and only if, around every attempt that it comes to, the file of the
    attempt before is removed, a file of a failed attempt is removed, and a file that meets the target is measured
    unless no attempt is left. -/
theorem target_size_search_iff {plan : Planning.Plan} {step : Planning.PlanStep} {target startCrf : ℕ}
    (env : ℕ → Attempt) (hplan : mp4TargetSizeBytes plan = some target) (hcrf : videoCrfArgument step = .ok startCrf) :
    (encode plan step env).Faithful target startCrf ↔
      CleanSearch target env 0 (targetSizeCrfLadder startCrf).length := by
  have hstart := videoCrfArgument_le hcrf
  have hne : (targetSizeCrfLadder startCrf).map some ≠ [] := by simpa using ladder_ne_nil hstart
  have hkept : (tryAttempts (some target) env 0 ((targetSizeCrfLadder startCrf).map some) none none).Kept target
      ((targetSizeCrfLadder startCrf).map some) ↔
        CleanSearch target env 0 ((targetSizeCrfLadder startCrf).map some).length :=
    kept_iff hne (by simp)
  rw [List.length_map] at hkept
  rw [encode_of_target hplan hcrf, ← hkept]
  constructor
  · intro h
    exact h.toKept
  · intro h
    exact faithful_of_kept hstart h

namespace SizeSample

/-- A plan for a thousand bytes from a CRF of 20. -/
def plan : Planning.Plan :=
  mediaPlan Sample.tools 1 (Sample.probe "mov" .video [Sample.stream 0 .video "h264"]) "mp4" [] "" Sample.ffmpeg
    .transcode .lossy [("target_size_bytes", "1000"), ("video_crf", "20"), ("video_mode", "h264")] 0
    ⟨[], [], [], []⟩ [] none none

def step : Planning.PlanStep where
  stepId := "step-1"
  capabilityId := ""
  engine := Sample.ffmpeg
  operation := .transcode
  lossClass := .lossy
  arguments := [("target_size_bytes", "1000"), ("video_crf", "20"), ("video_mode", "h264")]
  estimatedTemporaryBytes := some 0

/-- An attempt that writes a file of some size. -/
def writes (size : ℕ) : Attempt := ⟨true, .exited true "exit status: 0" "", some size, true, true⟩

/-- The first file is too large, and the wait for the second encoder fails. -/
def waitFails (index : ℕ) : Attempt :=
  if index = 0 then writes 5000 else { writes 300 with ends := .waitFailed "interrupted" }

/-- The first file is too large and cannot be removed, and the second encoder refuses to replace it. -/
def removalRefused (index : ℕ) : Attempt :=
  if index = 0 then writes 5000 else ⟨false, .exited false "exit status: 1" "File exists", none, false, true⟩

theorem target_size_search_written :
    (encode plan step fun _ => writes 5000).Faithful 1000 20 ↔
      CleanSearch 1000 (fun _ => writes 5000) 0 (targetSizeCrfLadder 20).length :=
  target_size_search_iff (fun _ => writes 5000) (by decide) (by decide)

/-- The file of the second attempt is left when its wait fails, and that of the first when it cannot be removed. -/
theorem search_leaves_file :
    (mp4TargetSizeBytes plan = some 1000 ∧ videoCrfArgument step = .ok 20) ∧
      ¬ (encode plan step waitFails).Faithful 1000 20 ∧ ¬ (encode plan step removalRefused).Faithful 1000 20 := by
  refine ⟨⟨by decide, by decide⟩, fun h => ?_, fun h => ?_⟩
  · have hfile : (encode plan step waitFails).file = some ⟨1, some 26, 300⟩ := by decide
    have hlast : (encode plan step waitFails).tried.getLast? = some ⟨1, some 26, none, some 300⟩ := by decide
    cases hresult : (encode plan step waitFails).result with
    | ok finalCrf =>
      have hfailed : (encode plan step waitFails).result.isOk = false := by decide
      rw [hresult] at hfailed
      cases hfailed
    | error error =>
      have hnone := h.failsClear error hresult ⟨_, hlast, by decide⟩
      rw [hfile] at hnone
      cases hnone
  · have hfound : (⟨1, some 26, some ⟨0, some 20, 5000⟩, none⟩ : Tried) ∈ (encode plan step removalRefused).tried := by
      decide
    have hnone := h.startsClear _ hfound
    cases hnone

end SizeSample

end Anole.Media
