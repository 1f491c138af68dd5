import Anole.Common.Staged

/-!
# What a staged script leaves when it passes

A script that passes has made or removed files at some of its steps. Two questions about what is there at its
end are answered from its steps alone:

* whether something is staged, by the flags `Leftover` (`leftover_after`); what may stay is a workspace whose
  removal, the last step, was refused (`unstaged_of_last_clear`);
* what is at the destination, for scripts that commit (`destination_of_commits`) and for scripts that write to
  the destination itself (`destination_of_exports`, `destination_of_judged`).
-/

namespace Common

section Leftovers

variable {σ ε β : Type} {observe : σ → Except ε Unit × σ} {step : StagedStep} {outcome : Outcome ε β}
  {script front tail middle : Script ε β} {stage next reached : Stage σ β}

/-! ## Scripts and their steps -/

@[simp] theorem steps_cons : Script.steps ((step, outcome) :: script) = step :: script.steps := rfl

/-- A script is split where its steps are. -/
theorem split_of_steps {a b : List StagedStep} (h : script.steps = a ++ b) :
    ∃ front tail : Script ε β, script = front ++ tail ∧ front.steps = a ∧ tail.steps = b := by
  obtain ⟨front, tail, hscript, hfront, htail⟩ := List.map_eq_append_iff.mp h
  exact ⟨front, tail, hscript, hfront, htail⟩

theorem split_at_step {a b : List StagedStep} (h : script.steps = a ++ step :: b) :
    ∃ (front : Script ε β) (outcome : Outcome ε β) (tail : Script ε β),
      script = front ++ (step, outcome) :: tail ∧ front.steps = a ∧ tail.steps = b := by
  obtain ⟨front, rest, rfl, hfront, hrest⟩ := split_of_steps h
  obtain ⟨⟨first, outcome⟩, tail, rfl, hfirst, htail⟩ := List.map_eq_cons_iff.mp hrest
  cases hfirst
  exact ⟨front, outcome, tail, rfl, hfront, htail⟩

theorem passes_split :
    passes observe (front ++ tail) stage = some reached ↔
      ∃ middle, passes observe front stage = some middle ∧ passes observe tail middle = some reached := by
  rw [passes_append, Option.bind_eq_some_iff]

/-- The observer stays in an invariant of its own. -/
theorem outer_invariant {P : σ → Prop} (hobserve : ∀ outer, P outer → P (observe outer).2) (h : P stage.outer)
    (hpasses : passes observe script stage = some reached) : P reached.outer := by
  induction script generalizing stage with
  | nil =>
    cases hpasses
    exact h
  | cons x script ih =>
    obtain ⟨step, outcome⟩ := x
    obtain ⟨next, hstep, hrest⟩ := passes_cons_eq_some.mp hpasses
    refine ih ?_ hrest
    by_cases hquiet : step.Notifies = false
    · have houter : (step.step observe outcome stage).2.outer = stage.outer := outer_of_quiet hquiet
      rw [hstep] at houter
      rw [houter]
      exact h
    · cases step with
      | notify honoured =>
        have hkept := hobserve _ h
        simp only [StagedStep.step] at hstep
        cases hanswer : observe stage.outer with
        | mk answer outer =>
          rw [hanswer] at hkept hstep
          cases answer with
          | ok _ =>
            cases hstep
            exact hkept
          | error error =>
            dsimp only at hstep
            split at hstep <;> cases hstep
            exact hkept
      | _ => exact absurd rfl hquiet

/-! ## Steps that keep the files -/

/-- A step that changes neither a file nor what was validated when it passes. -/
def StagedStep.Quiet : StagedStep → Bool
  | .check _ | .present _ | .notify _ | .accepted => true
  | _ => false

theorem same_of_quiet (h : step.Quiet = true) (hstep : step.step observe outcome stage = (.ok (), next)) :
    next.files = stage.files ∧ next.validated = stage.validated := by
  cases step with
  | check onFailure | present onFailure | accepted =>
    simp only [StagedStep.step] at hstep
    split at hstep <;> cases hstep
    exact ⟨rfl, rfl⟩
  | notify honoured =>
    simp only [StagedStep.step] at hstep
    split at hstep
    · cases hstep
      exact ⟨rfl, rfl⟩
    · split at hstep <;> cases hstep
      exact ⟨rfl, rfl⟩
  | create | write | clear | validate | judge | commit => cases h

theorem same_of_quiet_steps (h : ∀ step ∈ script.steps, step.Quiet = true)
    (hpasses : passes observe script stage = some reached) :
    reached.files = stage.files ∧ reached.validated = stage.validated := by
  induction script generalizing stage with
  | nil =>
    cases hpasses
    exact ⟨rfl, rfl⟩
  | cons x script ih =>
    obtain ⟨step, outcome⟩ := x
    rw [steps_cons, List.forall_mem_cons] at h
    obtain ⟨next, hstep, hrest⟩ := passes_cons_eq_some.mp hpasses
    obtain ⟨hfiles, hvalidated⟩ := same_of_quiet h.1 hstep
    obtain ⟨hfiles', hvalidated'⟩ := ih h.2 hrest
    exact ⟨hfiles'.trans hfiles, hvalidated'.trans hvalidated⟩

/-! ## What is staged -/

/-- Whether a workspace is there, and whether a product may be. -/
structure Leftover where
  workspace : Bool
  product : Bool

/-- What is left after a step that passes; `none` where that depends on more. -/
def Leftover.advance (left : Leftover) : StagedStep → Option Leftover
  | .create .workspace => some { left with workspace := true }
  | .create .product | .write .product => some { left with product := true }
  | .write .workspace => none
  | .commit => some { left with product := false }
  | .clear => if left.workspace then none else some left
  | _ => some left

def Leftover.Holds (left : Leftover) (stage : Stage σ β) : Prop :=
  (stage.files .workspace).isSome = left.workspace ∧ (left.product = false → stage.files .product = none)

theorem leftover_of_passes {left left' : Leftover} (h : left.Holds stage) (hadvance : left.advance step = some left')
    (hstep : step.step observe outcome stage = (.ok (), next)) : left'.Holds next := by
  obtain ⟨hworkspace, hproduct⟩ := h
  by_cases hquiet : step.Quiet = true
  · have hleft : left' = left := by
      cases step with
      | check | present | notify | accepted => exact (Option.some.inj hadvance).symm
      | create | write | clear | validate | judge | commit => cases hquiet
    rw [hleft, Leftover.Holds, (same_of_quiet hquiet hstep).1]
    exact ⟨hworkspace, hproduct⟩
  · cases step with
    | check | present | notify | accepted => exact absurd rfl hquiet
    | create place =>
      simp only [StagedStep.step] at hstep
      split at hstep <;> cases hstep
      cases place <;> cases hadvance <;> simp_all [Leftover.Holds]
    | write place =>
      simp only [StagedStep.step] at hstep
      split at hstep <;> cases hstep <;> cases place <;> cases hadvance <;> simp_all [Leftover.Holds]
    | clear =>
      obtain ⟨hnone, hleft⟩ := Option.ite_none_left_eq_some.mp hadvance
      cases hleft
      simp only [StagedStep.step] at hstep
      split at hstep <;> cases hstep <;>
        simp_all [Leftover.Holds, Stage.drop, OnFailure.files]
    | validate place onFailure =>
      cases hadvance
      simp only [StagedStep.step] at hstep
      split at hstep <;> cases hstep
      exact ⟨hworkspace, hproduct⟩
    | judge =>
      cases hadvance
      simp only [StagedStep.step] at hstep
      split at hstep <;> cases hstep <;> simp_all [Leftover.Holds, Stage.drop, OnFailure.files]
    | commit =>
      cases hadvance
      simp only [StagedStep.step] at hstep
      split at hstep <;> cases hstep
      simp_all [Leftover.Holds, Files.rename]

/-- **What is staged** after a script that passes. -/
theorem leftover_after {left left' : Leftover} (h : left.Holds stage)
    (hsteps : script.steps.foldlM Leftover.advance left = some left')
    (hpasses : passes observe script stage = some reached) : left'.Holds reached := by
  induction script generalizing stage left with
  | nil =>
    cases hsteps
    cases hpasses
    exact h
  | cons x script ih =>
    obtain ⟨step, outcome⟩ := x
    rw [steps_cons, List.foldlM_cons] at hsteps
    obtain ⟨middle, hadvance, hsteps⟩ := Option.bind_eq_some_iff.mp hsteps
    obtain ⟨next, hstep, hrest⟩ := passes_cons_eq_some.mp hpasses
    exact ih (leftover_of_passes h hadvance hstep) hsteps hrest

/-- A workspace is left if and only if its removal, at the end, is refused. -/
theorem unstaged_of_last_clear (h : Leftover.Holds ⟨true, false⟩ stage)
    (hpasses : passes observe [(.clear, outcome)] stage = some reached) :
    reached.Unstaged ↔ outcome.refused = false := by
  obtain ⟨next, hstep, hend⟩ := passes_cons_eq_some.mp hpasses
  cases hend
  obtain ⟨hworkspace, hproduct⟩ := h
  simp only [StagedStep.step] at hstep
  split at hstep
  · rename_i hrefused
    cases hstep
    refine iff_of_false (fun hunstaged => ?_) (by simp [hrefused])
    rw [hunstaged.1] at hworkspace
    cases hworkspace
  · rename_i hrefused
    cases hstep
    exact iff_of_true (by simp [Stage.Unstaged, Stage.drop, OnFailure.files]) (by simpa using hrefused)

/-! ## What is at the destination -/

/-- A script that commits leaves its product at the destination. -/
theorem destination_of_commits (hsteps : (StagedPhase.raw.run script.steps).isSome) (hcommit : .commit ∈ script.steps)
    (hdestination : stage.files .destination = none) (hvalidated : stage.validated = none)
    (hpasses : passes observe script stage = some reached) : reached.files .destination ≠ none := by
  obtain ⟨phase, hphase⟩ := Option.isSome_iff_exists.mp hsteps
  have hcommitted : phase = .committed := (run_eq_committed (by decide) hphase).mpr hcommit
  rw [hcommitted] at hphase
  have hraw : StagedPhase.raw.Holds False stage := ⟨hdestination, hvalidated⟩
  obtain ⟨node, hnode, -⟩ := holds_after hraw hphase (fun _ _ _ _ hfalse => hfalse.elim) hpasses
  rw [hnode]
  exact Option.some_ne_none node

/-- What a write leaves at the destination, where nothing was. -/
theorem destination_of_write (hdestination : stage.files .destination = none)
    (hstep : StagedStep.step observe (.write .destination) outcome stage = (.ok (), next)) :
    next.files .destination = outcome.left ∧ next.validated = stage.validated := by
  simp only [StagedStep.step] at hstep
  split at hstep
  · rename_i hleft
    cases hstep
    exact ⟨hdestination.trans hleft.symm, rfl⟩
  · rename_i node hleft
    cases hstep
    rw [hleft]
    exact ⟨by simp, rfl⟩

/-- A script that writes to the destination and validates what is there leaves what it has written. -/
theorem destination_of_exports {onFailure : OnFailure} {validation : Outcome ε β}
    (hfront : ∀ step ∈ front.steps, step.Quiet = true) (hmiddle : ∀ step ∈ middle.steps, step.Quiet = true)
    (htail : ∀ step ∈ tail.steps, step.Quiet = true) (hdestination : stage.files .destination = none)
    (hpasses : passes observe (front ++ (.write .destination, outcome) ::
      (middle ++ (.validate .destination onFailure, validation) :: tail)) stage = some reached) :
    reached.files .destination = outcome.left := by
  obtain ⟨first, hfirst, hrest⟩ := passes_split.mp hpasses
  obtain ⟨second, hwrite, hrest⟩ := passes_cons_eq_some.mp hrest
  obtain ⟨third, hthird, hrest⟩ := passes_split.mp hrest
  obtain ⟨fourth, hvalidate, hlast⟩ := passes_cons_eq_some.mp hrest
  have hnone : first.files .destination = none := by
    rw [(same_of_quiet_steps hfront hfirst).1]
    exact hdestination
  have hfourth : fourth.files = third.files := by
    simp only [StagedStep.step] at hvalidate
    split at hvalidate <;> cases hvalidate
    rfl
  rw [(same_of_quiet_steps htail hlast).1, hfourth, (same_of_quiet_steps hmiddle hthird).1]
  exact (destination_of_write hnone hwrite).1

/-- A script that writes to the destination and removes there what it rejects passes only with what it has
    written. -/
theorem destination_of_judged {verdict acceptance : Outcome ε β}
    (hfront : ∀ step ∈ front.steps, step.Quiet = true) (hmiddle : ∀ step ∈ middle.steps, step.Quiet = true)
    (htail : ∀ step ∈ tail.steps, step.Quiet = true) (hdestination : stage.files .destination = none)
    (hvalidated : stage.validated = none)
    (hpasses : passes observe (front ++ (.write .destination, outcome) ::
      (middle ++ (.judge, verdict) :: (tail ++ [(.accepted, acceptance)]))) stage = some reached) :
    reached.files .destination = outcome.left ∧ outcome.left ≠ none := by
  obtain ⟨first, hfirst, hrest⟩ := passes_split.mp hpasses
  obtain ⟨second, hwrite, hrest⟩ := passes_cons_eq_some.mp hrest
  obtain ⟨third, hthird, hrest⟩ := passes_split.mp hrest
  obtain ⟨fourth, hjudge, hrest⟩ := passes_cons_eq_some.mp hrest
  obtain ⟨fifth, hfifth, hlast⟩ := passes_split.mp hrest
  obtain ⟨last, haccepted, hend⟩ := passes_cons_eq_some.mp hlast
  cases hend
  have hstart := same_of_quiet_steps hfront hfirst
  have hwritten := destination_of_write (by rw [hstart.1]; exact hdestination) hwrite
  have hchecked := same_of_quiet_steps hmiddle hthird
  have hquiet := same_of_quiet_steps htail hfifth
  have haccepting : StagedStep.accepted.Quiet = true := rfl
  have hkept := same_of_quiet haccepting haccepted
  have hpassed : fifth.validated ≠ none := by
    simp only [StagedStep.step] at haccepted
    split at haccepted
    · cases haccepted
    · assumption
  rw [hquiet.2] at hpassed
  have hleft : third.files .destination = outcome.left := by
    rw [hchecked.1]
    exact hwritten.1
  simp only [StagedStep.step] at hjudge
  split at hjudge
  · -- What was rejected was not validated before.
    cases hjudge
    refine absurd ?_ hpassed
    show third.validated = none
    rw [hchecked.2, hwritten.2, hstart.2]
    exact hvalidated
  · cases hjudge
    rw [hkept.1, hquiet.1]
    refine ⟨hleft, ?_⟩
    rw [← hleft]
    exact hpassed

end Leftovers

end Common
