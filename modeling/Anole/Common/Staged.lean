import Anole.Common.Crash
import Anole.Common.Files

/-!
# Staged output

A straight line of steps that produces a file in a staging place, validates it and commits it to
its destination by an atomic rename that replaces nothing. Each step may be refused; what is
left of the files then is part of the step (`OnFailure`). One step tells an observer that the
product is there.

A script is a list of steps with what the environment does at each. The rule for scripts is
`wp_runScript`: a run satisfies a specification if every step that the run comes to does.

* `dropsStaged_iff`: when a script that fails leaves nothing staged.
* `validatedCommit_iff`: when only validated content is ever seen at the destination, and
  nothing is there after a failure.
-/

namespace Common

open Proc

/-- Where files are kept: a workspace directory, what has been produced, and the destination. -/
inductive Place where
  | workspace | product | destination
  deriving DecidableEq

/-- A directory, or a file with its content. -/
inductive Node (β : Type) where
  | directory
  | file (content : β)
  deriving DecidableEq

/-- What a step that fails does to the files. -/
inductive OnFailure where
  | leave | dropStaged | dropDestination
  deriving DecidableEq

/-- A step of a script. -/
inductive StagedStep where
  /-- something that may fail and changes no file -/
  | check (onFailure : OnFailure)
  /-- a new directory -/
  | create (place : Place)
  /-- a file is written, as far as it gets; whether that went well is for later checks -/
  | write (place : Place)
  /-- the product must be there -/
  | present (onFailure : OnFailure)
  /-- a removal of the staged files whose failure is ignored -/
  | clear
  /-- the observer is told, and its error is returned or ignored -/
  | notify (honoured : Bool)
  /-- the required checks of the content at a place -/
  | validate (place : Place) (onFailure : OnFailure)
  /-- the required checks of what is at the destination, which drop it and go on -/
  | judge
  /-- what was judged must have passed -/
  | accepted
  /-- the atomic rename of the product -/
  | commit
  deriving DecidableEq

/-- What the environment does at a step: whether it refuses it, with which error, and what a
    write leaves. -/
structure Outcome (ε β : Type) where
  refused : Bool
  error : ε
  left : Option (Node β)

/-- The files, the content that was validated, and the state of the observer. -/
structure Stage (σ β : Type) where
  files : Files Place (Node β)
  validated : Option (Node β)
  outer : σ

section Scripts

variable {σ ε β : Type}

/-- The files after a failure. -/
def OnFailure.files (files : Files Place (Node β)) : OnFailure → Files Place (Node β)
  | .leave => files
  | .dropStaged => (files.remove .workspace).remove .product
  | .dropDestination => files.remove .destination

def Stage.drop (stage : Stage σ β) (onFailure : OnFailure) : Stage σ β :=
  { stage with files := onFailure.files stage.files }

variable (observe : σ → Except ε Unit × σ)

/-- A step, with its result. -/
def StagedStep.step (step : StagedStep) (outcome : Outcome ε β) (stage : Stage σ β) :
    Except ε Unit × Stage σ β :=
  let refuse (onFailure : OnFailure) := (Except.error outcome.error, stage.drop onFailure)
  let proceed (files : Files Place (Node β)) := (Except.ok (), { stage with files := files })
  match step with
  | .check onFailure => if outcome.refused then refuse onFailure else (.ok (), stage)
  | .create place =>
    if outcome.refused then refuse .leave else proceed (stage.files.put place .directory)
  | .write place => match outcome.left with
    | none => (.ok (), stage)
    | some node => proceed (stage.files.put place node)
  | .present onFailure => if stage.files .product = none then refuse onFailure else (.ok (), stage)
  | .clear => if outcome.refused then (.ok (), stage) else (.ok (), stage.drop .dropStaged)
  | .notify honoured => match observe stage.outer with
    | (.ok (), outer) => (.ok (), { stage with outer := outer })
    | (.error error, outer) =>
      if honoured then (.error error, { stage with outer := outer }.drop .dropStaged)
      else (.ok (), { stage with outer := outer })
  | .validate place onFailure =>
    if outcome.refused then refuse onFailure
    else (.ok (), { stage with validated := stage.files place })
  | .judge =>
    if outcome.refused then (.ok (), stage.drop .dropDestination)
    else (.ok (), { stage with validated := stage.files .destination })
  | .accepted => if stage.validated = none then refuse .dropDestination else (.ok (), stage)
  | .commit =>
    if outcome.refused ∨ stage.files .product = none ∨ stage.files .destination ≠ none then
      refuse .dropStaged
    else proceed (stage.files.rename .product .destination)

/-- A list of steps, each with what the environment does at it. -/
abbrev Script (ε β : Type) := List (StagedStep × Outcome ε β)

/-- The script as a procedure: each step is one operation. -/
def runScript : Script ε β → Proc (Stage σ β) ε Unit
  | [] => pure ()
  | (step, outcome) :: rest => do
    atomically (step.step observe outcome)
    runScript rest

/-- Where the script comes to when none of its steps fails. -/
def passes : Script ε β → Stage σ β → Option (Stage σ β)
  | [], stage => some stage
  | (step, outcome) :: rest, stage => match step.step observe outcome stage with
    | (.ok (), next) => passes rest next
    | (.error _, _) => none

variable {observe} {step : StagedStep} {outcome : Outcome ε β} {script before after : Script ε β}
  {stage next : Stage σ β} {I : Stage σ β → Prop} {E : ε → Stage σ β → Prop}
  {Q : Unit → Stage σ β → Prop}

theorem passes_cons_of_ok (h : step.step observe outcome stage = (.ok (), next)) :
    passes observe ((step, outcome) :: script) stage = passes observe script next := by
  rw [passes, h]

theorem passes_cons_of_error {error : ε} (h : step.step observe outcome stage = (.error error, next)) :
    passes observe ((step, outcome) :: script) stage = none := by
  rw [passes, h]

theorem passes_cons_eq_some {end_ : Stage σ β} :
    passes observe ((step, outcome) :: script) stage = some end_ ↔
      ∃ next, step.step observe outcome stage = (.ok (), next) ∧
        passes observe script next = some end_ := by
  cases hstep : step.step observe outcome stage with
  | mk result next =>
    cases result with
    | ok _ =>
      rw [passes_cons_of_ok hstep]
      simp
    | error error =>
      rw [passes_cons_of_error hstep]
      simp

theorem passes_append :
    passes observe (before ++ after) stage = (passes observe before stage).bind (passes observe after) := by
  induction before generalizing stage with
  | nil => rfl
  | cons x before ih =>
    obtain ⟨step, outcome⟩ := x
    cases hstep : step.step observe outcome stage with
    | mk result next =>
      cases result with
      | ok _ =>
        rw [List.cons_append, passes_cons_of_ok hstep, passes_cons_of_ok hstep, ih]
      | error error =>
        rw [List.cons_append, passes_cons_of_error hstep, passes_cons_of_error hstep, Option.bind_none]

/-- A script that passes comes to each of its commits with a product. -/
theorem product_before_commit {end_ : Stage σ β}
    (h : passes observe (before ++ (.commit, outcome) :: after) stage = some end_) :
    ∃ reached, passes observe before stage = some reached ∧ reached.files .product ≠ none := by
  rw [passes_append] at h
  obtain ⟨reached, hreached, hrest⟩ := Option.bind_eq_some_iff.mp h
  obtain ⟨next, hstep, -⟩ := passes_cons_eq_some.mp hrest
  refine ⟨reached, hreached, fun hnone => ?_⟩
  have hrefused : outcome.refused ∨ reached.files .product = none ∨ reached.files .destination ≠ none :=
    .inr (.inl hnone)
  simp only [StagedStep.step, if_pos hrefused] at hstep
  cases hstep

theorem wp_runScript_cons :
    wp (runScript observe ((step, outcome) :: script)) I E Q stage ↔
      I (step.step observe outcome stage).2 ∧
        match step.step observe outcome stage with
        | (.ok _, next) => wp (runScript observe script) I E Q next
        | (.error error, next) => E error next := by
  rw [runScript, wp_bind, wp_atomically]
  rcases step.step observe outcome stage with ⟨error | _, next⟩
  · exact Iff.rfl
  · exact Iff.rfl

/-- **Rule for scripts.** -/
theorem wp_runScript :
    wp (runScript observe script) I E Q stage ↔
      (∀ before step outcome after, script = before ++ (step, outcome) :: after →
        ∀ reached, passes observe before stage = some reached →
          I (step.step observe outcome reached).2 ∧
            ∀ error next, step.step observe outcome reached = (.error error, next) → E error next) ∧
      ∀ reached, passes observe script stage = some reached → Q () reached := by
  induction script generalizing stage with
  | nil =>
    rw [runScript, wp_pure]
    constructor
    · intro hQ
      refine ⟨fun before step outcome after h => ?_, fun reached h => ?_⟩
      · exact absurd h.symm (List.append_ne_nil_of_right_ne_nil _ (List.cons_ne_nil _ _))
      · cases h
        exact hQ
    · intro h
      exact h.2 stage rfl
  | cons x script ih =>
    obtain ⟨step, outcome⟩ := x
    rw [wp_runScript_cons]
    cases hstep : step.step observe outcome stage with
    | mk result next =>
      constructor
      · rintro ⟨hI, hrest⟩
        refine ⟨fun before step' outcome' after hsplit reached hreached => ?_, fun reached hreached => ?_⟩
        · cases before with
          | nil =>
            cases hsplit
            cases hreached
            rw [hstep]
            refine ⟨hI, fun error next' h => ?_⟩
            cases h
            exact hrest
          | cons y before =>
            cases hsplit
            obtain ⟨next', hok, hreached⟩ := passes_cons_eq_some.mp hreached
            cases hstep.symm.trans hok
            exact (ih.mp hrest).1 before step' outcome' after rfl reached hreached
        · obtain ⟨next', hok, hreached⟩ := passes_cons_eq_some.mp hreached
          cases hstep.symm.trans hok
          exact (ih.mp hrest).2 reached hreached
      · rintro ⟨hsteps, hend⟩
        obtain ⟨hI, hE⟩ := hsteps [] step outcome script rfl stage rfl
        rw [hstep] at hI
        refine ⟨hI, ?_⟩
        cases result with
        | error error => exact hE error next hstep
        | ok _ =>
          refine ih.mpr ⟨fun before step' outcome' after hsplit reached hreached => ?_,
            fun reached hreached => ?_⟩
          · exact hsteps ((step, outcome) :: before) step' outcome' after (by rw [hsplit]; rfl) reached
              (by rw [passes_cons_of_ok hstep, hreached])
          · exact hend reached (by rw [passes_cons_of_ok hstep, hreached])

/-- A script succeeds if and only if it passes. -/
theorem wp_runScript_passes :
    wp (runScript observe script) (fun _ => True) (fun _ _ => passes observe script stage = none)
      (fun _ reached => passes observe script stage = some reached) stage := by
  refine wp_runScript.mpr ⟨fun before step outcome after hsplit reached hreached => ⟨trivial, ?_⟩,
    fun _ h => h⟩
  intro error next hfail
  rw [hsplit, passes_append, hreached, Option.bind_some, passes_cons_of_error hfail]

theorem wp_runScript_append :
    wp (runScript observe (before ++ after)) I E Q stage ↔
      wp (runScript observe before) I E (fun _ reached => wp (runScript observe after) I E Q reached)
        stage := by
  induction before generalizing stage with
  | nil =>
    rw [List.nil_append, runScript, wp_pure]
  | cons x before ih =>
    obtain ⟨step, outcome⟩ := x
    rw [List.cons_append, wp_runScript_cons, wp_runScript_cons]
    rcases step.step observe outcome stage with ⟨error | _, next⟩
    · exact Iff.rfl
    · exact and_congr_right fun _ => ih

/-! ## The observer -/

/-- A step that tells the observer. -/
def StagedStep.Notifies : StagedStep → Bool
  | .notify _ => true
  | _ => false

/-- The steps of a script. -/
def Script.steps (script : Script ε β) : List StagedStep := script.map Prod.fst

/-- The same files with another observer. -/
def Stage.told {τ : Type} (stage : Stage τ β) (outer : σ) : Stage σ β :=
  ⟨stage.files, stage.validated, outer⟩

section Observers

variable {τ : Type} {observe' : τ → Except ε Unit × τ} {quiet : Stage τ β} {outer : σ}

theorem step_told (h : step.Notifies = false) :
    step.step observe outcome (quiet.told outer) =
      ((step.step observe' outcome quiet).1, (step.step observe' outcome quiet).2.told outer) := by
  cases step with
  | notify honoured => cases h
  | write place =>
    simp only [StagedStep.step]
    cases outcome.left <;> rfl
  | commit =>
    by_cases hready : outcome.refused ∨ quiet.files .product = none ∨ quiet.files .destination ≠ none
    · exact (if_pos hready).trans (by simp only [StagedStep.step, if_pos hready]; rfl)
    · exact (if_neg hready).trans (by simp only [StagedStep.step, if_neg hready]; rfl)
  | present onFailure =>
    by_cases hproduct : quiet.files .product = none
    · exact (if_pos hproduct).trans (by simp only [StagedStep.step, if_pos hproduct]; rfl)
    · exact (if_neg hproduct).trans (by simp only [StagedStep.step, if_neg hproduct])
  | accepted =>
    by_cases hvalidated : quiet.validated = none
    · exact (if_pos hvalidated).trans (by simp only [StagedStep.step, if_pos hvalidated]; rfl)
    · exact (if_neg hvalidated).trans (by simp only [StagedStep.step, if_neg hvalidated])
  | check | create | clear | validate | judge =>
    simp only [StagedStep.step, Stage.told]
    split <;> rfl

/-- Without a milestone the observer does not matter. -/
theorem passes_told (h : ∀ step ∈ script.steps, step.Notifies = false) :
    passes observe script (quiet.told outer) =
      (passes observe' script quiet).map fun reached => reached.told outer := by
  induction script generalizing quiet with
  | nil => rfl
  | cons x script ih =>
    obtain ⟨step, outcome⟩ := x
    have hstep : step.step observe outcome (quiet.told outer) =
        ((step.step observe' outcome quiet).1, (step.step observe' outcome quiet).2.told outer) :=
      step_told (h step (by simp [Script.steps]))
    cases hresult : step.step observe' outcome quiet with
    | mk result next =>
      rw [hresult] at hstep
      cases result with
      | ok _ =>
        rw [passes_cons_of_ok hstep, passes_cons_of_ok hresult]
        exact ih fun other hother => h other (List.mem_cons_of_mem _ hother)
      | error error =>
        rw [passes_cons_of_error hstep, passes_cons_of_error hresult, Option.map_none]

/-- **With one milestone** only the answer of the observer matters. -/
theorem passes_one_milestone {honoured : Bool} (hbefore : ∀ step ∈ before.steps, step.Notifies = false)
    (hafter : ∀ step ∈ after.steps, step.Notifies = false) :
    passes observe (before ++ (.notify honoured, outcome) :: after) (quiet.told outer) =
      (passes (fun answered : τ => ((observe outer).1, answered))
        (before ++ (.notify honoured, outcome) :: after) quiet).map
        fun reached => reached.told (observe outer).2 := by
  rw [passes_append, passes_append, passes_told hbefore]
  cases passes (fun answered : τ => ((observe outer).1, answered)) before quiet with
  | none => rfl
  | some reached =>
    rw [Option.map_some, Option.bind_some, Option.bind_some, passes, passes]
    simp only [StagedStep.step, Stage.told]
    cases hanswer : observe outer with
    | mk answer outer' =>
      cases answer with
      | ok _ => exact passes_told hafter
      | error error =>
        cases honoured with
        | true => rfl
        | false => exact passes_told hafter

/-- A step that tells nothing to the observer leaves it alone. -/
theorem outer_of_quiet (h : step.Notifies = false) :
    (step.step observe outcome stage).2.outer = stage.outer := by
  have htold : step.step observe outcome stage =
      ((step.step observe outcome stage).1, (step.step observe outcome stage).2.told stage.outer) :=
    step_told h
  rw [htold]
  rfl

theorem wp_quiet {told : σ} (h : ∀ step ∈ script.steps, step.Notifies = false) (htold : stage.outer = told) :
    wp (runScript observe script) (fun _ => True) (fun _ next => next.outer = told)
      (fun _ next => next.outer = told) stage := by
  induction script generalizing stage with
  | nil => exact wp_pure.mpr htold
  | cons x script ih =>
    obtain ⟨step, outcome⟩ := x
    have houter : (step.step observe outcome stage).2.outer = told :=
      (outer_of_quiet (h step (by simp [Script.steps]))).trans htold
    rw [wp_runScript_cons]
    refine ⟨trivial, ?_⟩
    revert houter
    rcases step.step observe outcome stage with ⟨error | _, next⟩
    · exact id
    · exact ih fun other hother => h other (List.mem_cons_of_mem _ hother)

/-- **With one milestone** the observer is told once when the script succeeds, and at most once
    when it fails. -/
theorem wp_one_milestone {honoured : Bool} (hbefore : ∀ step ∈ before.steps, step.Notifies = false)
    (hafter : ∀ step ∈ after.steps, step.Notifies = false) :
    wp (runScript observe (before ++ (.notify honoured, outcome) :: after)) (fun _ => True)
      (fun _ next => next.outer = stage.outer ∨ next.outer = (observe stage.outer).2)
      (fun _ next => next.outer = (observe stage.outer).2) stage := by
  refine wp_runScript_append.mpr ((wp_quiet hbefore rfl).mono (fun _ h => h) (fun _ _ h => .inl h) ?_)
  intro _ reached hreached
  rw [wp_runScript_cons]
  refine ⟨trivial, ?_⟩
  simp only [StagedStep.step, hreached]
  rcases observe stage.outer with ⟨error | _, outer⟩
  · cases honoured with
    | true => exact .inr rfl
    | false => exact (wp_quiet hafter rfl).mono (fun _ h => h) (fun _ _ h => .inr h) (fun _ _ h => h)
  · exact (wp_quiet hafter rfl).mono (fun _ h => h) (fun _ _ h => .inr h) (fun _ _ h => h)

/-- The milestone of a script that has one. -/
theorem exists_milestone (h : script.steps.countP StagedStep.Notifies = 1) :
    ∃ (before : Script ε β) (honoured : Bool) (outcome : Outcome ε β) (after : Script ε β),
      script = before ++ (.notify honoured, outcome) :: after ∧
      (∀ step ∈ before.steps, step.Notifies = false) ∧ ∀ step ∈ after.steps, step.Notifies = false := by
  induction script with
  | nil => cases h
  | cons x script ih =>
    obtain ⟨step, outcome⟩ := x
    have hcount : Script.steps ((step, outcome) :: script) = step :: Script.steps script := rfl
    rw [hcount] at h
    by_cases hstep : step.Notifies = true
    · rw [List.countP_cons_of_pos hstep] at h
      have hquiet : ∀ step ∈ Script.steps script, ¬ step.Notifies = true :=
        List.countP_eq_zero.mp (by omega)
      cases step with
      | notify honoured =>
        exact ⟨[], honoured, outcome, script, rfl, by simp [Script.steps],
          fun other hother => Bool.eq_false_iff.mpr (hquiet other hother)⟩
      | _ => cases hstep
    · rw [List.countP_cons_of_neg hstep] at h
      obtain ⟨before, honoured, outcome', after, rfl, hbefore, hafter⟩ := ih h
      refine ⟨(step, outcome) :: before, honoured, outcome', after, rfl, ?_, hafter⟩
      intro other hother
      rcases List.mem_cons.mp hother with rfl | hother
      · exact Bool.eq_false_iff.mpr hstep
      · exact hbefore other hother

end Observers

/-! ## Steps that fail -/

/-- What a step does to the files when it fails. -/
def StagedStep.onFailure : StagedStep → OnFailure
  | .check onFailure | .present onFailure | .validate _ onFailure => onFailure
  | .notify _ | .commit => .dropStaged
  | .accepted => .dropDestination
  | .create _ | .write _ | .clear | .judge => .leave

/-- A step fails. -/
def StagedStep.Fails (observe : σ → Except ε Unit × σ) (step : StagedStep) (outcome : Outcome ε β)
    (stage : Stage σ β) : Prop :=
  ∃ error next, step.step observe outcome stage = (.error error, next)

/-- **A step that fails** drops what it has to drop, and that is all. -/
theorem files_of_fails {error : ε} (h : step.step observe outcome stage = (.error error, next)) :
    next.files = step.onFailure.files stage.files ∧ next.validated = stage.validated := by
  cases step with
  | check onFailure | present onFailure | validate place onFailure | create place | commit
  | accepted =>
    simp only [StagedStep.step] at h
    split at h
    · rw [← (Prod.mk.inj h).2]
      exact ⟨rfl, rfl⟩
    · cases h
  | write place | clear | judge =>
    simp only [StagedStep.step] at h
    split at h <;> cases h
  | notify honoured =>
    simp only [StagedStep.step] at h
    split at h
    · cases h
    · split at h
      · rw [← (Prod.mk.inj h).2]
        exact ⟨rfl, rfl⟩
      · cases h

/-! ## What is left staged -/

/-- Nothing is staged. -/
def Stage.Unstaged (stage : Stage σ β) : Prop :=
  stage.files .workspace = none ∧ stage.files .product = none

theorem unstaged_of_fails {error : ε} (h : step.step observe outcome stage = (.error error, next)) :
    next.Unstaged ↔ step.onFailure ≠ .dropStaged → stage.Unstaged := by
  unfold Stage.Unstaged
  rw [(files_of_fails h).1]
  cases step.onFailure with
  | leave => simp [OnFailure.files]
  | dropStaged => simp [OnFailure.files]
  | dropDestination => simp [OnFailure.files]

/-- **A script that fails leaves nothing staged** if and only if the step that fails drops the
    staged files, or none are there yet. -/
theorem dropsStaged_iff :
    wp (runScript observe script) (fun _ => True) (fun _ next => next.Unstaged) (fun _ _ => True) stage ↔
      ∀ before step outcome after, script = before ++ (step, outcome) :: after →
        ∀ reached, passes observe before stage = some reached → step.Fails observe outcome reached →
          step.onFailure ≠ .dropStaged → reached.Unstaged := by
  rw [wp_runScript]
  constructor
  · rintro ⟨h, -⟩ before step outcome after hsplit reached hreached ⟨error, next, hfail⟩
    exact (unstaged_of_fails hfail).mp ((h before step outcome after hsplit reached hreached).2 error next hfail)
  · intro h
    refine ⟨fun before step outcome after hsplit reached hreached => ⟨trivial, ?_⟩, fun _ _ => trivial⟩
    intro error next hfail
    exact (unstaged_of_fails hfail).mpr
      (h before step outcome after hsplit reached hreached ⟨error, next, hfail⟩)

/-! ## Validated commits -/

/-- How far a script is: nothing is at the destination; the product is validated; something
    else was written to the destination; the product is committed. -/
inductive StagedPhase where
  | raw | validated | exported | committed
  deriving DecidableEq

/-- The phase after a step; `none` for a step that has no place there. -/
def StagedPhase.advance : StagedPhase → StagedStep → Option StagedPhase
  | .raw, .check _ | .raw, .present _ | .raw, .notify _ | .raw, .clear | .raw, .create .workspace
  | .raw, .create .product | .raw, .write .workspace | .raw, .write .product => some .raw
  | .raw, .validate .product _ => some .validated
  | .raw, .write .destination => some .exported
  | .validated, .check _ | .validated, .present _ | .validated, .notify _ => some .validated
  | .validated, .commit => some .committed
  | .exported, .check _ | .exported, .notify _ | .exported, .validate .destination _
  | .exported, .judge | .exported, .accepted => some .exported
  | .committed, .check onFailure => if onFailure = .dropDestination then none else some .committed
  | .committed, .clear | .committed, .notify _ => some .committed
  | _, _ => none

/-- The phase after some steps. -/
def StagedPhase.run : StagedPhase → List StagedStep → Option StagedPhase
  | phase, [] => some phase
  | phase, step :: steps => (phase.advance step).bind fun phase => phase.run steps

/-- What is known in a phase; in `exported` as long as nothing was left at the destination. -/
def StagedPhase.Holds (nothingLeft : Prop) (stage : Stage σ β) : StagedPhase → Prop
  | .raw => stage.files .destination = none ∧ stage.validated = none
  | .validated => stage.files .destination = none ∧ stage.validated = stage.files .product
  | .exported => nothingLeft → stage.files .destination = none
  | .committed => ∃ node, stage.files .destination = some node ∧ stage.validated = some node

/-- What is at the destination is what was validated. -/
def Stage.Published (stage : Stage σ β) : Prop :=
  ∀ node, stage.files .destination = some node → stage.validated = some node

/-- Nothing unvalidated is ever at the destination, and nothing is there after a failure. -/
def ValidatedCommit (observe : σ → Except ε Unit × σ) (script : Script ε β) (stage : Stage σ β) :
    Prop :=
  wp (runScript observe script) Stage.Published (fun _ next => next.files .destination = none)
    (fun _ _ => True) stage

section Phases

variable {phase phase' : StagedPhase} {nothingLeft : Prop}

theorem StagedPhase.run_append {steps steps' : List StagedStep} :
    phase.run (steps ++ steps') = (phase.run steps).bind fun phase => phase.run steps' := by
  induction steps generalizing phase with
  | nil => rfl
  | cons step steps ih =>
    show (phase.advance step).bind _ = ((phase.advance step).bind _).bind _
    cases phase.advance step with
    | none => rfl
    | some next => exact ih

/-- A step that fails brings nothing to the destination. -/
theorem destination_none_of_fails {error : ε}
    (h : step.step observe outcome stage = (.error error, next))
    (hnone : stage.files .destination = none) : next.files .destination = none := by
  rw [(files_of_fails h).1]
  cases step.onFailure with
  | leave => exact hnone
  | dropStaged => simpa [OnFailure.files] using hnone
  | dropDestination => exact Files.remove_self

/-- It leaves the destination alone, unless that is what it drops. -/
theorem destination_of_fails {error : ε}
    (h : step.step observe outcome stage = (.error error, next))
    (hkeeps : step.onFailure ≠ .dropDestination) :
    next.files .destination = stage.files .destination := by
  rw [(files_of_fails h).1]
  cases hfailure : step.onFailure with
  | leave => rfl
  | dropStaged => simp [OnFailure.files]
  | dropDestination => exact absurd hfailure hkeeps

/-- The steps that change neither the destination nor the product keep every phase. -/
theorem StagedPhase.Holds.congr (h : phase.Holds nothingLeft stage)
    (hdestination : next.files .destination = stage.files .destination)
    (hproduct : next.files .product = stage.files .product)
    (hvalidated : next.validated = stage.validated) : phase.Holds nothingLeft next := by
  cases phase <;> simpa only [StagedPhase.Holds, hdestination, hproduct, hvalidated] using h

/-- **A step that passes** keeps what is known in its phase. -/
theorem holds_of_passes {step : StagedStep} (h : phase.Holds nothingLeft stage)
    (hadvance : phase.advance step = some phase')
    (hleft : step = .write .destination → nothingLeft → outcome.left = none)
    (hstep : step.step observe outcome stage = (.ok (), next)) : phase'.Holds nothingLeft next := by
  have hsame : phase' = phase → next.files .destination = stage.files .destination →
      next.files .product = stage.files .product → next.validated = stage.validated →
      phase'.Holds nothingLeft next := by
    rintro rfl hdestination hproduct hvalidated
    exact h.congr hdestination hproduct hvalidated
  cases step with
  | check onFailure | present onFailure | accepted =>
    have hphase : phase' = phase := by
      cases phase <;> simp [StagedPhase.advance] at hadvance <;> simp [hadvance]
    simp only [StagedStep.step] at hstep
    split at hstep
    · cases hstep
    · cases hstep
      exact hsame hphase rfl rfl rfl
  | notify honoured =>
    have hphase : phase' = phase := by
      cases phase <;> simp [StagedPhase.advance] at hadvance <;> simp [hadvance]
    simp only [StagedStep.step] at hstep
    split at hstep
    · cases hstep
      exact hsame hphase rfl rfl rfl
    · split at hstep
      · cases hstep
      · cases hstep
        exact hsame hphase rfl rfl rfl
  | create place =>
    simp only [StagedStep.step] at hstep
    split at hstep
    · cases hstep
    · cases hstep
      cases phase <;> cases place <;>
        simp only [StagedPhase.advance, Option.some.injEq, reduceCtorEq] at hadvance <;>
        subst hadvance <;> simp_all [StagedPhase.Holds]
  | write place =>
    simp only [StagedStep.step] at hstep
    cases hnode : outcome.left with
    | none =>
      rw [hnode] at hstep
      cases hstep
      cases phase <;> cases place <;>
        simp only [StagedPhase.advance, Option.some.injEq, reduceCtorEq] at hadvance <;>
        subst hadvance <;> simp_all [StagedPhase.Holds]
    | some node =>
      rw [hnode] at hstep
      cases hstep
      cases phase <;> cases place <;>
        simp only [StagedPhase.advance, Option.some.injEq, reduceCtorEq] at hadvance <;>
        subst hadvance <;> simp_all [StagedPhase.Holds]
  | clear =>
    simp only [StagedStep.step] at hstep
    have hfiles : next.files .destination = stage.files .destination ∧ next.validated = stage.validated := by
      split at hstep
      · cases hstep
        exact ⟨rfl, rfl⟩
      · cases hstep
        exact ⟨by simp [Stage.drop, OnFailure.files], rfl⟩
    cases phase <;> simp only [StagedPhase.advance, Option.some.injEq, reduceCtorEq] at hadvance <;>
      subst hadvance <;> simp_all [StagedPhase.Holds]
  | validate place onFailure =>
    simp only [StagedStep.step] at hstep
    split at hstep
    · cases hstep
    · cases hstep
      cases phase <;> cases place <;>
        simp only [StagedPhase.advance, Option.some.injEq, reduceCtorEq] at hadvance <;>
        subst hadvance <;> simp_all [StagedPhase.Holds]
  | judge =>
    simp only [StagedStep.step] at hstep
    split at hstep
    · cases hstep
      cases phase <;> simp only [StagedPhase.advance, Option.some.injEq, reduceCtorEq] at hadvance
      subst hadvance
      intro _
      show stage.files.remove .destination .destination = none
      exact Files.remove_self
    · cases hstep
      cases phase <;> simp only [StagedPhase.advance, Option.some.injEq, reduceCtorEq] at hadvance
      subst hadvance
      exact h
  | commit =>
    simp only [StagedStep.step] at hstep
    split at hstep
    · cases hstep
    · next hready =>
      obtain ⟨-, hproduct, -⟩ : ¬ outcome.refused = true ∧ stage.files .product ≠ none ∧
          stage.files .destination = none := by simpa [not_or] using hready
      cases hstep
      obtain ⟨node, hnode⟩ := Option.ne_none_iff_exists'.mp hproduct
      cases phase <;> simp only [StagedPhase.advance, Option.some.injEq, reduceCtorEq] at hadvance
      subst hadvance
      simp_all [StagedPhase.Holds]

/-- What is known where a script comes to. -/
theorem holds_after {phase phase' : StagedPhase} (h : phase.Holds nothingLeft stage)
    (hrun : phase.run before.steps = some phase')
    (hleft : ∀ before' outcome after', before = before' ++ (.write .destination, outcome) :: after' →
      nothingLeft → outcome.left = none)
    (hpasses : passes observe before stage = some next) : phase'.Holds nothingLeft next := by
  induction before generalizing phase stage with
  | nil =>
    cases hrun
    cases hpasses
    exact h
  | cons x before ih =>
    obtain ⟨step, outcome⟩ := x
    obtain ⟨middle, hadvance, hrun⟩ := Option.bind_eq_some_iff.mp hrun
    obtain ⟨stage', hstep, hpasses⟩ := passes_cons_eq_some.mp hpasses
    refine ih (holds_of_passes h hadvance ?_ hstep) hrun ?_ hpasses
    · rintro rfl
      exact hleft [] outcome before rfl
    · intro before' outcome' after' hsplit
      exact hleft ((step, outcome) :: before') outcome' after' (by rw [hsplit]; rfl)

theorem StagedPhase.Holds.published (h : phase.Holds nothingLeft stage) (hnothing : nothingLeft) :
    stage.Published := by
  intro node hnode
  cases phase <;> simp_all [StagedPhase.Holds]

/-- The commit leads to the last phase, and nothing else does. -/
theorem advance_eq_committed (hphase : phase ≠ .committed)
    (hadvance : phase.advance step = some phase') : phase' = .committed ↔ step = .commit := by
  cases step with
  | create place | write place | validate place onFailure =>
    cases phase <;> cases place <;>
      simp only [StagedPhase.advance, Option.some.injEq, reduceCtorEq] at hadvance <;>
      subst hadvance <;> simp
  | check | present | clear | notify | judge | accepted | commit =>
    cases phase <;> simp only [StagedPhase.advance, Option.some.injEq, reduceCtorEq] at hadvance <;>
      first | exact absurd rfl hphase | (subst hadvance; simp)

theorem run_committed {steps : List StagedStep}
    (hrun : StagedPhase.committed.run steps = some phase') : phase' = .committed := by
  induction steps with
  | nil => exact (Option.some.inj hrun).symm
  | cons step steps ih =>
    obtain ⟨middle, hadvance, hrun⟩ := Option.bind_eq_some_iff.mp hrun
    have hmiddle : middle = .committed := by
      cases step <;> simp [StagedPhase.advance] at hadvance <;> simp [hadvance]
    exact ih (hmiddle ▸ hrun)

/-- A script is committed from its commit on. -/
theorem run_eq_committed {steps : List StagedStep} (hphase : phase ≠ .committed)
    (hrun : phase.run steps = some phase') : phase' = .committed ↔ .commit ∈ steps := by
  induction steps generalizing phase with
  | nil =>
    cases hrun
    simp [hphase]
  | cons step steps ih =>
    obtain ⟨middle, hadvance, hrun⟩ := Option.bind_eq_some_iff.mp hrun
    have hmiddle := advance_eq_committed hphase hadvance
    by_cases hstep : step = .commit
    · have hlast := hmiddle.mpr hstep
      simp [hstep, run_committed (hlast ▸ hrun)]
    · rw [List.mem_cons, ← ih (mt hmiddle.mp hstep) hrun]
      simp [Ne.symm hstep]

/-- The writes to the destination that a script comes to leave nothing. -/
def ExportsNothing (observe : σ → Except ε Unit × σ) (script : Script ε β) (stage : Stage σ β) :
    Prop :=
  ∀ before outcome after, script = before ++ (.write .destination, outcome) :: after →
    ∀ reached, passes observe before stage = some reached → outcome.left = none

/-- No step fails after the commit. -/
def CommitsLast (observe : σ → Except ε Unit × σ) (script : Script ε β) (stage : Stage σ β) : Prop :=
  ∀ before step outcome after, script = before ++ (step, outcome) :: after →
    .commit ∈ before.steps →
      ∀ reached, passes observe before stage = some reached → ¬ step.Fails observe outcome reached

/-- **A script commits what it has validated** if and only if it writes nothing else to the
    destination and does not fail after its commit. -/
theorem validatedCommit_iff (hsteps : (StagedPhase.raw.run script.steps).isSome)
    (hdestination : stage.files .destination = none) (hvalidated : stage.validated = none) :
    ValidatedCommit observe script stage ↔
      ExportsNothing observe script stage ∧ CommitsLast observe script stage := by
  have hphase : ∀ {before step outcome after}, script = before ++ (step, outcome) :: after →
      ∃ phase phase', StagedPhase.raw.run (Script.steps before) = some phase ∧
        phase.advance step = some phase' := by
    intro before step outcome after hsplit
    rw [hsplit, Script.steps, List.map_append, StagedPhase.run_append, Option.isSome_iff_exists] at hsteps
    obtain ⟨_, hsteps⟩ := hsteps
    obtain ⟨phase, hbefore, hrest⟩ := Option.bind_eq_some_iff.mp hsteps
    obtain ⟨phase', hadvance, -⟩ := Option.bind_eq_some_iff.mp hrest
    exact ⟨phase, phase', hbefore, hadvance⟩
  have hraw : ∀ nothingLeft : Prop, StagedPhase.raw.Holds nothingLeft stage :=
    fun _ => ⟨hdestination, hvalidated⟩
  constructor
  · intro h
    obtain ⟨hmoments, -⟩ := wp_runScript.mp h
    constructor
    · intro before outcome after hsplit reached hreached
      obtain ⟨phase, phase', hbefore, hadvance⟩ := hphase hsplit
      have hphaseRaw : phase = .raw := by
        cases phase <;> simp [StagedPhase.advance] at hadvance
        rfl
      have hholds := holds_after (hraw False) (hphaseRaw ▸ hbefore)
        (fun _ _ _ _ hfalse => hfalse.elim) hreached
      by_contra hleft
      obtain ⟨node, hnode⟩ := Option.ne_none_iff_exists'.mp hleft
      have hpublished := (hmoments before _ outcome after hsplit reached hreached).1 node
      simp [StagedStep.step, hnode, hholds.2] at hpublished
    · intro before step outcome after hsplit hcommit reached hreached
      rintro ⟨error, next, hfail⟩
      obtain ⟨phase, phase', hbefore, hadvance⟩ := hphase hsplit
      have hcommitted := (run_eq_committed (by decide) hbefore).mpr hcommit
      rw [hcommitted] at hbefore hadvance
      obtain ⟨node, hnode, -⟩ := holds_after (hraw False) hbefore
        (fun _ _ _ _ hfalse => hfalse.elim) hreached
      have hkeeps : step.onFailure ≠ .dropDestination := by
        cases step <;> simp [StagedPhase.advance] at hadvance <;> simp_all [StagedStep.onFailure]
      have hnone := (hmoments before step outcome after hsplit reached hreached).2 error next hfail
      rw [destination_of_fails hfail hkeeps, hnode] at hnone
      cases hnone
  · rintro ⟨hexports, hlast⟩
    refine wp_runScript.mpr ⟨fun before step outcome after hsplit reached hreached => ?_,
      fun _ _ => trivial⟩
    obtain ⟨phase, phase', hbefore, hadvance⟩ := hphase hsplit
    have hholds := holds_after (hraw (ExportsNothing observe script stage)) hbefore
      (fun before' outcome' after' hsplit' hnothing => by
        rw [hsplit', passes_append] at hreached
        obtain ⟨middle, hmiddle, -⟩ := Option.bind_eq_some_iff.mp hreached
        exact hnothing before' outcome' (after' ++ (step, outcome) :: after)
          (by rw [hsplit, hsplit', List.append_assoc]; rfl) middle hmiddle) hreached
    cases hresult : step.step observe outcome reached with
    | mk result next =>
      cases result with
      | ok _ =>
        have hnext := holds_of_passes hholds hadvance (fun hwrite hnothing => by
          rw [hwrite] at hsplit
          exact hnothing before outcome after hsplit reached hreached) hresult
        exact ⟨hnext.published hexports, fun error next' h => by cases h⟩
      | error error =>
        have hnotCommitted : phase ≠ .committed := by
          rintro rfl
          exact hlast before step outcome after hsplit
            ((run_eq_committed (by decide) hbefore).mp rfl) reached hreached ⟨error, next, hresult⟩
        have hnone : reached.files .destination = none := by
          cases phase with
          | raw | validated => exact hholds.1
          | exported => exact hholds hexports
          | committed => exact absurd rfl hnotCommitted
        have hnext := destination_none_of_fails hresult hnone
        refine ⟨fun node hnode => ?_, fun error' next' h => ?_⟩
        · rw [show next.files .destination = some node from hnode] at hnext
          cases hnext
        · cases h
          exact hnext

/-! ## Scripts that keep both conditions whatever happens -/

/-- A script that never writes to the destination. -/
theorem exportsNothing_of_steps (h : .write .destination ∉ script.steps) :
    ExportsNothing observe script stage := by
  intro before outcome after hsplit
  rw [hsplit, Script.steps, List.map_append, List.map_cons] at h
  exact absurd (List.mem_append_right _ List.mem_cons_self) h

theorem mem_after_commit {steps steps' : List StagedStep} (h : .commit ∈ steps) :
    step ∈ ((steps ++ step :: steps').dropWhile (· ≠ .commit)).tail := by
  induction steps with
  | nil => cases h
  | cons first steps ih =>
    by_cases hfirst : first = .commit
    · simp [hfirst]
    · rw [List.cons_append, List.dropWhile_cons_of_pos (by simp [hfirst])]
      exact ih ((List.mem_cons.mp h).resolve_left (Ne.symm hfirst))

/-- A script that only clears up after its commit. -/
theorem commitsLast_of_steps (h : ∀ step ∈ (script.steps.dropWhile (· ≠ .commit)).tail, step = .clear) :
    CommitsLast observe script stage := by
  intro before step outcome after hsplit hcommit reached _
  have hclear : step = .clear := by
    refine h step ?_
    rw [hsplit, Script.steps, List.map_append, List.map_cons]
    exact mem_after_commit hcommit
  rintro ⟨error, next, hfail⟩
  simp only [hclear, StagedStep.step] at hfail
  split at hfail <;> cases hfail

end Phases

end Scripts

end Common
