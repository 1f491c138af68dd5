import Anole.Execution.Lanes

/-!
# What a lane publishes

`execute_plan_observed` is to publish an output only when its validation has passed, and to leave
nothing at the output path when it returns an error. Most lanes write a partial file, validate
it, and rename it with `commit_path_no_replace` (`runner.rs`, lines 4934–4964), which replaces
nothing.

The exports of mails (`eml.rs`, lines 507–547, `msg.rs`, lines 344–399, and `mbox.rs`, lines
717–753) write the text to the output path itself and inspect it there, and the one of an
archive of mails as PDF fails when its directory cannot be removed after the commit.

* `validated_commit_iff`: an execution publishes only what it has validated if and only if it
  does not come to such a write, and to such a failure.
-/

open Common

namespace Anole

section Staged

variable {σ β : Type} {observer : σ → Except AnoleError Unit × σ} {plan : Plan} {lane : Lane}
  {environment : Environment β} {stage : Common.Stage σ β}

/-- What is at the output path has passed its validation at every moment, and nothing is there
    after an error. -/
def CommitsValidated (observer : σ → Except AnoleError Unit × σ) (plan : Plan)
    (environment : Environment β) (stage : Common.Stage σ β) : Prop :=
  Proc.wp (executePlanObserved plan environment observer) Stage.Published
    (fun _ next => next.files .destination = none) (fun _ _ => True) stage

/-- The execution does not come to a write to the output path itself that leaves something
    there, and no step of it fails after the commit. -/
def StaysStaged (observer : σ → Except AnoleError Unit × σ) (plan : Plan)
    (environment : Environment β) (stage : Common.Stage σ β) : Prop :=
  ∀ lane ∈ plan.lane, ExportsNothing observer (lane.script environment) stage ∧
    CommitsLast observer (lane.script environment) stage

/-! ## The lanes that stage their output -/

/-- The lanes that write a partial file and end with its commit. -/
def Lane.Stages (lane : Lane) : Prop := lane ≠ .eml ∧ lane ≠ .msg ∧ lane ≠ .mboxText ∧ lane ≠ .mboxPdf

instance : DecidablePred Lane.Stages := fun lane =>
  inferInstanceAs (Decidable (lane ≠ .eml ∧ lane ≠ .msg ∧ lane ≠ .mboxText ∧ lane ≠ .mboxPdf))

theorem Lane.Stages.not_exports (h : lane.Stages) (rounds : ℕ) :
    .write .destination ∉ lane.steps rounds := by
  intro hwrite
  have hparts := Lane.mem_steps hwrite
  revert h hparts
  cases lane <;> decide

/-- The steps before the last part do not matter when none of them commits. -/
theorem dropWhile_of_not_commits {head tail : List StagedStep} (h : .commit ∉ head) :
    (head ++ tail).dropWhile (· ≠ .commit) = tail.dropWhile (· ≠ .commit) := by
  refine List.dropWhile_append_of_pos fun step hstep => ?_
  rw [decide_eq_true_eq]
  rintro rfl
  exact h hstep

theorem Lane.Stages.clears_last (h : lane.Stages) (rounds : ℕ) :
    ∀ step ∈ ((lane.steps rounds).dropWhile (· ≠ .commit)).tail, step = .clear := by
  have hrounds : .commit ∉ (List.replicate rounds lane.parts.2.1).flatten := by
    rw [List.mem_flatten]
    rintro ⟨steps, hsteps, hcommit⟩
    rw [List.eq_of_mem_replicate hsteps] at hcommit
    revert hcommit
    cases lane <;> decide
  rw [lane.steps_eq_parts, List.append_assoc]
  by_cases hcommit : .commit ∈ lane.parts.1
  · have hloop : lane.parts.2.1 = [] ∧ lane.parts.2.2 = [] := by
      revert hcommit
      cases lane <;> decide
    rw [hloop.1, hloop.2, List.flatten_replicate_nil, List.append_nil, List.append_nil]
    revert h
    cases lane <;> decide
  · rw [dropWhile_of_not_commits hcommit, dropWhile_of_not_commits hrounds]
    revert h
    cases lane <;> decide

theorem Lane.Stages.commits (h : lane.Stages) (rounds : ℕ) : .commit ∈ lane.steps rounds := by
  have hparts : .commit ∈ lane.parts.1 ∨ .commit ∈ lane.parts.2.2 := by
    revert h
    cases lane <;> decide
  rw [lane.steps_eq_parts, List.mem_append, List.mem_append]
  rcases hparts with hhead | htail
  · exact .inl (.inl hhead)
  · exact .inr htail

/-- **A lane that stages its output** does so whatever happens. -/
theorem staysStaged_of_stages (h : ∀ lane ∈ plan.lane, lane.Stages) :
    StaysStaged observer plan environment stage := by
  intro lane hlane
  have hsteps := lane.script_steps environment
  refine ⟨exportsNothing_of_steps ?_, commitsLast_of_steps ?_⟩
  · rw [hsteps]
    exact (h lane hlane).not_exports _
  · rw [hsteps]
    exact (h lane hlane).clears_last _

/-! ## The result -/

/-- **An execution publishes only what it has validated** if and only if it stays staged. Every
    lane but four does, whatever happens. -/
theorem validated_commit_iff (observer : σ → Except AnoleError Unit × σ) (plan : Plan)
    (environment : Environment β) (stage : Common.Stage σ β)
    (hdestination : stage.files .destination = none) (hvalidated : stage.validated = none) :
    (CommitsValidated observer plan environment stage ↔ StaysStaged observer plan environment stage) ∧
      ((∀ lane ∈ plan.lane, lane.Stages) → StaysStaged observer plan environment stage) := by
  refine ⟨?_, staysStaged_of_stages⟩
  rw [CommitsValidated, StaysStaged, executePlanObserved]
  cases hlane : plan.lane with
  | none =>
    refine iff_of_true ?_ (by simp)
    have hnothing : Stage.Published stage := fun node hnode => by rw [hdestination] at hnode; cases hnode
    show Proc.wp (runScript observer _ >>= fun _ => Proc.fail noStepError) _ _ _ stage
    rw [Proc.wp_bind, wp_runScript_cons]
    simp only [StagedStep.step]
    split
    · exact ⟨hnothing, hdestination⟩
    · exact ⟨hnothing, by simpa [runScript] using hdestination⟩
  | some lane =>
    have horderly : (StagedPhase.raw.run (lane.script environment).steps).isSome := by
      rw [lane.script_steps]
      exact lane.steps_orderly _
    simp only [Option.mem_some_iff, forall_eq']
    exact validatedCommit_iff horderly hdestination hvalidated

end Staged

/-! ## An export that is cut short -/

namespace CommitSample

/-- The export of a mail as Markdown. -/
def plan : Plan :=
  { planHash := "h", inputFingerprint := "f", targetFormat := "md",
    steps := [⟨"eml.text", ⟨"anole.eml", "1.0", "s"⟩, .render, []⟩] }

/-- The disk is full before the text is written in full: the write leaves what it has written and
    its error is the next step. -/
def environment : Environment String where
  rounds := 0
  outcomes index :=
    { refused := index = 12
      error := .new .executionFailed .execute "Unable to write the EML export output"
        "Check the destination directory and retry."
      left := some (.file "# Sub") }

def stage : Common.Stage Unit String := ⟨fun _ => none, none, ()⟩

/-- **The partial text stays** at the output path, though nothing was validated and the execution
    returns an error. -/
theorem eml_cut_short :
    ¬ CommitsValidated (fun _ => (.ok (), ())) plan environment stage ∧
      ((executePlanObserved plan environment fun _ => (.ok (), ())) stage).final.files .destination =
        some (.file "# Sub") ∧
      ((executePlanObserved plan environment fun _ => (.ok (), ())) stage).result =
        .error (environment.outcomes 12).error := by
  have hleft : ((executePlanObserved plan environment fun _ => (.ok (), ())) stage).final.files .destination =
      some (.file "# Sub") := rfl
  have hresult : ((executePlanObserved plan environment fun _ => (.ok (), ())) stage).result =
      .error (environment.outcomes 12).error := rfl
  refine ⟨fun h => ?_, hleft, hresult⟩
  have hend := Proc.Fails.of_wp ⟨hresult, rfl⟩ h
  cases hleft.symm.trans hend

/-- The same export: it does not stay staged. -/
theorem validated_commit_iff_eml :
    (CommitsValidated (fun _ => (.ok (), ())) plan environment stage ↔
        StaysStaged (fun _ => (.ok (), ())) plan environment stage) ∧
      ((∀ lane ∈ plan.lane, lane.Stages) → StaysStaged (fun _ => (.ok (), ())) plan environment stage) :=
  validated_commit_iff _ plan environment stage rfl rfl

end CommitSample

end Anole
