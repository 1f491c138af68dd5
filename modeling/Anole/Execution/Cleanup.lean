import Anole.Execution.Lanes

/-!
# What a failed execution leaves staged

A job is executed again under its id, and `execute_plan_observed` refuses to start when the
partial path of that id exists (`runner.rs`, lines 117–135). Each lane calls `cleanup_partial`
on its ways out by hand; a way out with `?` leaves what is staged.

* `failsClean_iff`: an execution that fails leaves none of `staged_output_candidates` if and
  only if the step that fails cleans up, or comes before anything is staged.
-/

open Common

namespace Anole

section Failures

variable {σ β : Type} {observer : σ → Except AnoleError Unit × σ} {plan : Plan}
  {environment : Environment β} {stage : Common.Stage σ β}

/-- The places of a lane that are paths of `staged_output_candidates` (lines 4731–4743). What
    the merge of mails works in, `.fw-mbox-{job_id}`, is none of them. -/
def Lane.candidates (lane : Lane) : List Place :=
  if lane = .mboxPdf then [] else [.workspace, .product]

/-- An error leaves no path of `staged_output_candidates`. -/
def FailsClean (observer : σ → Except AnoleError Unit × σ) (plan : Plan)
    (environment : Environment β) (stage : Common.Stage σ β) : Prop :=
  Proc.wp (executePlanObserved plan environment observer) (fun _ => True)
    (fun _ next => ∀ lane ∈ plan.lane, ∀ place ∈ lane.candidates, next.files place = none)
    (fun _ _ => True) stage

/-- The step that fails cleans up, or comes before anything is staged. -/
def CleansUp (observer : σ → Except AnoleError Unit × σ) (plan : Plan)
    (environment : Environment β) (stage : Common.Stage σ β) : Prop :=
  ∀ lane ∈ plan.lane, lane.candidates ≠ [] →
    ∀ before step outcome after, lane.script environment = before ++ (step, outcome) :: after →
      ∀ reached, passes observer before stage = some reached → step.Fails observer outcome reached →
        step.onFailure ≠ .dropStaged → reached.Unstaged

theorem Lane.no_candidate_iff {lane : Lane} :
    (∀ place ∈ lane.candidates, stage.files place = none) ↔ lane.candidates ≠ [] → stage.Unstaged := by
  rw [Lane.candidates]
  split
  · simp
  · simp [Stage.Unstaged]

/-- **A failed execution leaves nothing staged** if and only if the step that fails cleans up, or
    comes before anything is staged. -/
theorem failsClean_iff (observer : σ → Except AnoleError Unit × σ) (plan : Plan)
    (environment : Environment β) (stage : Common.Stage σ β) :
    FailsClean observer plan environment stage ↔ CleansUp observer plan environment stage := by
  rw [FailsClean, CleansUp, executePlanObserved]
  cases hlane : plan.lane with
  | none => simpa using Proc.wp.mono (Proc.wp_const trivial) (fun _ h => h) (fun _ _ h => h) (fun _ _ h => h)
  | some lane =>
    simp only [Option.mem_some_iff, forall_eq', Lane.no_candidate_iff]
    by_cases hcandidates : lane.candidates = []
    · refine iff_of_true ?_ fun h => absurd hcandidates h
      exact (Proc.wp_const trivial).mono (fun _ h => h) (fun _ _ _ h => absurd hcandidates h) (fun _ _ h => h)
    · simp only [ne_eq, hcandidates, not_false_eq_true, forall_const]
      exact dropsStaged_iff

end Failures

/-! ## A job that cannot be executed again -/

namespace CleanupSample

/-- An encryption of a PDF. -/
def plan : Plan :=
  { planHash := "h", inputFingerprint := "f", targetFormat := "pdf",
    steps := [⟨"pdf.encrypt", ⟨"qpdf", "11.9.0", "s"⟩, .transform, [("operation", "encrypt")]⟩] }

/-- qpdf writes its output; `pdfinfo`, which is looked for after it, is not there. -/
def environment : Environment String where
  rounds := 0
  outcomes index :=
    { refused := index = 20
      error := .new .engineMissing .doctor "Engine executable was not found: pdfinfo"
        "Install or import a certified engine pack, then run doctor again."
      left := some (.file "encrypted") }

def stage : Common.Stage Unit String := ⟨fun _ => none, none, ()⟩

/-- **The partial output stays**, and the next execution of the job is refused. -/
theorem pdf_ops_leaves_partial :
    ¬ FailsClean (fun _ => (.ok (), ())) plan environment stage ∧
      ((executePlanObserved plan environment fun _ => (.ok (), ())) stage).final.files .product =
        some (.file "encrypted") ∧
      ((executePlanObserved plan environment fun _ => (.ok (), ())) stage).result =
        .error (environment.outcomes 20).error := by
  have hleft : ((executePlanObserved plan environment fun _ => (.ok (), ())) stage).final.files .product =
      some (.file "encrypted") := by decide +kernel
  have hresult : ((executePlanObserved plan environment fun _ => (.ok (), ())) stage).result =
      .error (environment.outcomes 20).error := by decide +kernel
  refine ⟨fun h => ?_, hleft, hresult⟩
  have hend := Proc.Fails.of_wp ⟨hresult, rfl⟩ h
  have hnone := hend .pdfOps rfl .product (by decide)
  cases hleft.symm.trans hnone

end CleanupSample

end Anole
