import Anole.Common.Leftovers
import Anole.Execution.Cleanup
import Anole.Execution.Commit

/-!
# What an execution leaves when it passes

After an execution that passes no path of `staged_output_candidates` is there, unless the removal of the
workspace, with which some lanes end, was refused (its failure is ignored). And the output is there, unless
a lane that writes to the output itself left nothing at it.

* `Lane.unstaged_iff` and `Lane.destination_iff`: both as conditions on what the environment does.
-/

open Common

namespace Anole

section Passing

variable {σ β : Type} {observer : σ → Except AnoleError Unit × σ} {lane : Lane} {environment : Environment β}
  {stage reached : Common.Stage σ β}

open StagedStep OnFailure

/-- The lanes that end with the removal of the workspace they have worked in. -/
def Lane.WorksAside (lane : Lane) : Prop :=
  lane ∈ [.officePdf, .officeExchange, .officeCsv, .edgePrint, .heif, .magick, .markupPdf]

instance : DecidablePred Lane.WorksAside := fun lane => inferInstanceAs (Decidable (lane ∈ _))

/-- The removal of the workspace at the end of a lane is not refused. -/
def Lane.RemovesWorkspace (lane : Lane) (environment : Environment β) : Prop :=
  ∀ outcome, (lane.script environment).getLast? = some (.clear, outcome) → outcome.refused = false

/-- What a lane writes to the output itself is there afterwards. -/
def Lane.WritesOutput (lane : Lane) (environment : Environment β) : Prop :=
  ∀ outcome, (.write .destination, outcome) ∈ lane.script environment → outcome.left ≠ none

/-! ## What is staged -/

theorem leftover_rounds {left : Leftover} {steps : List StagedStep}
    (h : steps.foldlM Leftover.advance left = some left) (rounds : ℕ) :
    (List.replicate rounds steps).flatten.foldlM Leftover.advance left = some left := by
  induction rounds with
  | zero => rfl
  | succ rounds ih =>
    rw [List.replicate_succ, List.flatten_cons, List.foldlM_append, h]
    exact ih

theorem Lane.WorksAside.steps (h : lane.WorksAside) (rounds : ℕ) : ∃ steps,
    lane.steps rounds = steps ++ [clear] ∧ steps.foldlM Leftover.advance ⟨false, false⟩ = some ⟨true, false⟩ := by
  have hsteps : lane.steps rounds = (lane.steps 0).dropLast ++ [clear] ∧
      (lane.steps 0).dropLast.foldlM Leftover.advance ⟨false, false⟩ = some ⟨true, false⟩ := by
    cases lane with
    | officePdf | officeExchange | officeCsv | edgePrint | heif | magick | markupPdf => exact ⟨rfl, rfl⟩
    | _ => exact absurd h (by decide)
  exact ⟨_, hsteps⟩

/-- The other lanes leave nothing staged. -/
theorem Lane.steps_plain (h : ¬ lane.WorksAside) (hcandidates : lane.candidates ≠ []) (rounds : ℕ) :
    (lane.steps rounds).foldlM Leftover.advance ⟨false, false⟩ = some ⟨false, false⟩ ∧
      (lane.steps rounds).getLast? ≠ some clear := by
  have hparts : ∃ left, lane.parts.1.foldlM Leftover.advance ⟨false, false⟩ = some left ∧
      lane.parts.2.1.foldlM Leftover.advance left = some left ∧
      lane.parts.2.2.foldlM Leftover.advance left = some ⟨false, false⟩ := by
    cases lane with
    | mboxPdf => exact absurd rfl hcandidates
    | officePdf | officeExchange | officeCsv | edgePrint | heif | magick | markupPdf => exact absurd (by decide) h
    | _ => exact ⟨_, rfl, rfl, rfl⟩
  obtain ⟨left, hhead, hbody, htail⟩ := hparts
  constructor
  · rw [lane.steps_eq_parts, List.append_assoc, List.foldlM_append, hhead]
    show List.foldlM Leftover.advance left _ = _
    rw [List.foldlM_append, leftover_rounds hbody]
    exact htail
  · cases lane with
    | ffmpeg | pdfOcr =>
      rw [Lane.steps_eq_parts, List.getLast?_append_of_ne_nil _ (by decide)]
      decide
    | mboxPdf => exact absurd rfl hcandidates
    | officePdf | officeExchange | officeCsv | edgePrint | heif | magick | markupPdf => exact absurd (by decide) h
    | _ =>
      rw [Lane.steps_eq_parts]
      simp only [Lane.parts, List.flatten_replicate_nil, List.append_nil]
      decide

/-- **What is staged** after an execution that passes. -/
theorem Lane.unstaged_iff (hcandidates : lane.candidates ≠ []) (hstage : stage.Unstaged)
    (hpasses : passes observer (lane.script environment) stage = some reached) :
    reached.Unstaged ↔ lane.RemovesWorkspace environment := by
  have hstart : Leftover.Holds ⟨false, false⟩ stage := ⟨by rw [hstage.1]; rfl, fun _ => hstage.2⟩
  have hsteps := lane.script_steps environment
  by_cases haside : lane.WorksAside
  · obtain ⟨steps, hsplit, hleft⟩ := haside.steps environment.rounds
    rw [hsplit] at hsteps
    obtain ⟨front, outcome, tail, hscript, hfront, htail⟩ := split_at_step hsteps
    have hnil : tail = [] := List.map_eq_nil_iff.mp htail
    rw [hnil] at hscript
    rw [hscript] at hpasses
    obtain ⟨middle, hmiddle, hlast⟩ := passes_split.mp hpasses
    rw [← hfront] at hleft
    rw [unstaged_of_last_clear (leftover_after hstart hleft hmiddle) hlast, Lane.RemovesWorkspace, hscript]
    simp
  · obtain ⟨hleft, hlast⟩ := Lane.steps_plain haside hcandidates environment.rounds
    rw [← hsteps] at hleft hlast
    obtain ⟨hworkspace, hproduct⟩ := leftover_after hstart hleft hpasses
    refine iff_of_true ⟨by simpa using hworkspace, hproduct rfl⟩ fun outcome houtcome => ?_
    rw [Script.steps, List.getLast?_map, houtcome] at hlast
    exact absurd rfl hlast

/-! ## What is at the output -/

theorem Lane.commits_of_steps (h : lane ≠ .eml ∧ lane ≠ .msg ∧ lane ≠ .mboxText) (rounds : ℕ) :
    .commit ∈ lane.steps rounds ∧ .write .destination ∉ lane.steps rounds := by
  constructor
  · have hparts : .commit ∈ lane.parts.1 ∨ .commit ∈ lane.parts.2.2 := by
      revert h
      cases lane <;> decide
    rw [lane.steps_eq_parts, List.mem_append, List.mem_append]
    rcases hparts with hhead | htail
    · exact .inl (.inl hhead)
    · exact .inr htail
  · intro hwrite
    have hparts := Lane.mem_steps hwrite
    revert h hparts
    cases lane <;> decide

/-- **What is at the output** after an execution that passes. -/
theorem Lane.destination_iff (hdestination : stage.files .destination = none) (hvalidated : stage.validated = none)
    (hpasses : passes observer (lane.script environment) stage = some reached) :
    reached.files .destination ≠ none ↔ lane.WritesOutput environment := by
  have hsteps := lane.script_steps environment
  have hunique : ∀ {front tail : Script AnoleError β} {outcome : Outcome AnoleError β},
      lane.script environment = front ++ (.write .destination, outcome) :: tail →
      .write .destination ∉ front.steps → .write .destination ∉ tail.steps →
      (lane.WritesOutput environment ↔ outcome.left ≠ none) := by
    intro front tail outcome hscript hfront htail
    have hmem : ∀ {script : Script AnoleError β} {other : Outcome AnoleError β},
        .write .destination ∉ script.steps → (.write .destination, other) ∉ script :=
      fun hnot hin => hnot (List.mem_map_of_mem (f := Prod.fst) hin)
    rw [Lane.WritesOutput, hscript]
    constructor
    · exact fun h => h outcome (List.mem_append_right _ List.mem_cons_self)
    · intro h other hother
      rcases List.mem_append.mp hother with hother | hother
      · exact absurd hother (hmem hfront)
      · rcases List.mem_cons.mp hother with heq | hother
        · cases heq
          exact h
        · exact absurd hother (hmem htail)
  by_cases hlane : lane ≠ .eml ∧ lane ≠ .msg ∧ lane ≠ .mboxText
  · obtain ⟨hcommit, hwrite⟩ := Lane.commits_of_steps hlane environment.rounds
    rw [← hsteps] at hcommit hwrite
    have horderly : (StagedPhase.raw.run (lane.script environment).steps).isSome := by
      rw [hsteps]
      exact Lane.steps_orderly _ _
    refine iff_of_true (destination_of_commits horderly hcommit hdestination hvalidated hpasses) ?_
    intro outcome houtcome
    exact absurd (List.mem_map_of_mem (f := Prod.fst) houtcome) hwrite
  · have hlanes : lane = .eml ∨ lane = .msg ∨ lane = .mboxText := by tauto
    rcases hlanes with rfl | rfl | rfl
    · have hsplit : (Lane.eml.script environment).steps = (preamble ++ [check leave, check leave, check leave]) ++
          .write .destination :: ([check leave, check dropDestination] ++
            .validate .destination dropDestination :: [notify false]) := hsteps
      obtain ⟨front, outcome, rest, hscript, hfront, hrest⟩ := split_at_step hsplit
      obtain ⟨middle, validation, tail, hmiddle, hquiet, htail⟩ := split_at_step hrest
      rw [hunique hscript (by rw [hfront]; decide) (by rw [hrest]; decide)]
      rw [hscript, hmiddle] at hpasses
      rw [destination_of_exports (by rw [hfront]; decide) (by rw [hquiet]; decide) (by rw [htail]; decide)
        hdestination hpasses]
    · have hsplit : (Lane.msg.script environment).steps = (preamble ++ [check leave, check leave, check leave]) ++
          .write .destination :: ([check leave, check leave, check dropDestination] ++
            .judge :: ([notify false] ++ [.accepted])) := hsteps
      obtain ⟨front, outcome, rest, hscript, hfront, hrest⟩ := split_at_step hsplit
      obtain ⟨middle, verdict, last, hmiddle, hquiet, hlast⟩ := split_at_step hrest
      obtain ⟨tail, acceptance, ending, hend, htail, hnil⟩ := split_at_step hlast
      rw [List.map_eq_nil_iff.mp hnil] at hend
      rw [hunique hscript (by rw [hfront]; decide) (by rw [hrest]; decide)]
      rw [hscript, hmiddle, hend] at hpasses
      obtain ⟨heq, hleft⟩ := destination_of_judged (by rw [hfront]; decide) (by rw [hquiet]; decide)
        (by rw [htail]; decide) hdestination hvalidated hpasses
      rw [heq]
    · have hsplit : (Lane.mboxText.script environment).steps =
          (preamble ++ [check leave, check leave, check leave, check leave, check leave]) ++
          .write .destination :: ([check leave, check leave, check dropDestination] ++
            .judge :: ([check leave, notify false] ++ [.accepted])) := hsteps
      obtain ⟨front, outcome, rest, hscript, hfront, hrest⟩ := split_at_step hsplit
      obtain ⟨middle, verdict, last, hmiddle, hquiet, hlast⟩ := split_at_step hrest
      obtain ⟨tail, acceptance, ending, hend, htail, hnil⟩ := split_at_step hlast
      rw [List.map_eq_nil_iff.mp hnil] at hend
      rw [hunique hscript (by rw [hfront]; decide) (by rw [hrest]; decide)]
      rw [hscript, hmiddle, hend] at hpasses
      obtain ⟨heq, hleft⟩ := destination_of_judged (by rw [hfront]; decide) (by rw [hquiet]; decide)
        (by rw [htail]; decide) hdestination hvalidated hpasses
      rw [heq]

end Passing

end Anole
