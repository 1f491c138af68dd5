import Anole.Queue.Tracking

/-!
# What a failing window leaves behind

When the loop of a window ends with an error, `abort_active_window` reads every active
job and moves it to `Interrupted` (from `Running` and `Validating`) or to `Failed` (from
`Inspecting` and `Planned`), so that no claimed job stays in flight.

**Deviation.** The state machine has no edge from `Planned` to `Failed`. When the
transition from `Planned` to `Running` fails, the abort requests an illegal transition,
which is refused, and the job stays in `Planned`.

Main result: `window_abort`.
-/

open Common

namespace Anole

/-- The states the claimed jobs are to end in. -/
def restStates : List JobState := [.blocked, .interrupted, .completed, .warning, .failed, .cancelled]

/-- The transition from `Planned` to `Running` is due. -/
def Point.starting : Point → Bool
  | .start _ _ => true
  | _ => false

/-- The job the abort is going to read. -/
def Point.reading : Point → Option Uuid
  | .abort _ (id :: _) _ => some id
  | _ => none

/-- The conditions under which a failing window strands no job, for one step of a run. -/
def AbortsCleanly (s : QueueState) (label : QueueLabel) (t : QueueState) : Prop :=
  match label with
  | .event _ => True
  -- other processes put claimed jobs at most to rest
  | .other _ => ∀ id ∈ s.window.claimed,
      t.db.stateOf id = s.db.stateOf id ∨ t.db.JobIn id restStates
  | .step env =>
    -- the store works in the transition from `Planned` to `Running` and in the abort
    (s.window.point.starting = true ∨ s.window.point.executing = false →
      StoreWorks env.call s.db) ∧
    -- and the abort finds no job `Planned` that the window has not claimed
    ∀ id ∈ s.window.point.reading, id ∈ s.window.claimed ∨ s.db.stateOf id ≠ some .planned

instance (s : QueueState) (label : QueueLabel) (t : QueueState) :
    Decidable (AbortsCleanly s label t) :=
  match label with
  | .event _ => inferInstanceAs (Decidable True)
  | .other _ => List.decidableBAll _ s.window.claimed
  | .step _ => @instDecidableAnd _ _ _ (Option.decidableForallMem s.window.point.reading)

/-- The store works in the abort. -/
def AbortStoreWorks (s : QueueState) (label : QueueLabel) (_ : QueueState) : Prop :=
  match label with
  | .step env => s.window.point.executing = false → StoreWorks env.call s.db
  | _ => True

instance (s : QueueState) (label : QueueLabel) (t : QueueState) :
    Decidable (AbortStoreWorks s label t) :=
  match label with
  | .step env =>
    inferInstanceAs (Decidable (s.window.point.executing = false → StoreWorks env.call s.db))
  | .event _ | .other _ => inferInstanceAs (Decidable True)

/-- The claimed jobs are at rest, except for jobs among `todo` that the abort can move. -/
def Window.Salvages (w : Window) (db : Database) (todo : List Uuid) : Prop :=
  ∀ id ∈ w.claimed, db.JobIn id restStates ∨
    id ∈ todo ∧ db.JobIn id [.inspecting, .running, .validating]

/-- The transitions requested so far are legal. -/
def Window.RequestsLegal (w : Window) : Prop :=
  ∀ r ∈ w.requests, r.observed.canTransitionTo r.target = true

/-- The invariant of a window whose abort strands no job. -/
def Window.Salvageable (policy : SchedulerPolicy) (w : Window) (db : Database) : Prop :=
  match w.point with
  | .abortDrain _ => w.Salvages db w.activeJobs
  | .abort _ todo _ => w.Salvages db todo
  | .abortMove _ todo _ id target => w.Salvages db (id :: todo) ∧ target ∈ restStates ∧
      (db.JobIn id [.inspecting, .running, .validating] → id ∈ w.claimed →
        ∃ s, db.stateOf id = some s ∧ abortTarget s = some target)
  | .done (.error _) => w.Salvages db []
  | _ => w.Booked policy ∧ w.Tracks restStates db

/-! ## Targets -/

theorem abortTarget_mem {s target : JobState} (h : abortTarget s = some target) :
    target ∈ restStates := by
  cases s <;> cases h <;> decide

/-- The target the abort chooses is legal, except from `Planned`. -/
theorem abortTarget_legal {s target : JobState} (h : abortTarget s = some target)
    (hs : s ≠ .planned) : s.canTransitionTo target = true := by
  cases s <;> cases h <;> first | rfl | exact absurd rfl hs

theorem Counter.states_rest (c : Counter) : c.states ⊆ restStates := by
  cases c <;> decide

namespace Window

variable {json : ReportJson} {policy : SchedulerPolicy} {env : StepEnv} {w w' : Window}
  {db db' : Database} {todo todo' : List Uuid} {id : Uuid} {workers : List Uuid} {error : AnoleError}

/-! ## Salvage -/

theorem Salvages.mono (h : w.Salvages db todo) (hsub : todo ⊆ todo') : w.Salvages db todo' := by
  intro id hid
  rcases h id hid with hrest | ⟨hmem, hflight⟩
  · exact Or.inl hrest
  · exact Or.inr ⟨hsub hmem, hflight⟩

/-- Other processes may put the jobs to rest. -/
theorem Salvages.other (h : w.Salvages db todo)
    (hother : ∀ id ∈ w.claimed, db'.stateOf id = db.stateOf id ∨ db'.JobIn id restStates) :
    w.Salvages db' todo := by
  intro id hid
  rcases hother id hid with hsame | hrest
  · rcases h id hid with hrest | ⟨hmem, hflight⟩
    · exact Or.inl (hrest.of_eq hsame)
    · exact Or.inr ⟨hmem, hflight.of_eq hsame⟩
  · exact Or.inl hrest

/-- A job of the list is done with when it is at rest. -/
theorem Salvages.next (h : w.Salvages db (id :: todo))
    (hrest : id ∈ w.claimed → db.JobIn id restStates) : w.Salvages db todo := by
  intro other hother
  rcases h other hother with h1 | ⟨hmem, hflight⟩
  · exact Or.inl h1
  · rcases List.mem_cons.mp hmem with rfl | hmem
    · exact Or.inl (hrest hother)
    · exact Or.inr ⟨hmem, hflight⟩

/-- Moving a job to rest keeps the others. -/
theorem Salvages.moves (h : w.Salvages db (id :: todo)) {s next : JobState}
    (hm : db.Moves id s next db') (hnext : next ∈ restStates) : w.Salvages db' todo := by
  intro other hother
  by_cases heq : other = id
  · exact Or.inl ⟨next, hnext, heq ▸ hm.after⟩
  · have hsame := hm.stateOf_other heq
    rcases h other hother with hrest | ⟨hmem, hflight⟩
    · exact Or.inl (hrest.of_eq hsame)
    · exact Or.inr ⟨(List.mem_cons.mp hmem).resolve_left heq, hflight.of_eq hsame⟩

/-! ## The error that ends the loop -/

/-- With a working store the transition to `Running` does not fail, unless the job has
    been put to rest. -/
theorem Fails.not_planned (h : Sound json db)
    (hfails : w.Fails env db workers error) {candidate : PendingQueueJob} {probe : Probe}
    (hpoint : w.point = .start candidate probe) (hworks : StoreWorks env.call db) :
    db.stateOf candidate.id ≠ some .planned := by
  intro hplanned
  cases hfails with
  | transition id next code error hrequest hcall =>
    rw [hpoint] at hrequest
    cases hrequest
    have hlegal : JobState.planned.canTransitionTo .running = true := rfl
    obtain ⟨record, db', hok⟩ := transition_of_moves h hplanned hlegal nofun hworks "ENGINE_STARTED"
    rw [hcall] at hok
    cases hok
  | claim _ _ h' | reservation _ _ h' | exhausted h' | panicked _ _ _ h' | callback _ _ _ h'
  | sample _ _ _ _ h' | read _ _ _ h' | disappeared _ _ h' =>
    rw [hpoint] at h'
    cases h'

/-- What a window expects of the job it is busy with is a state the abort can move,
    except `Planned`. -/
theorem expects_flight {point : Point} {states : List JobState}
    (hexpects : point.expects = some (id, states)) :
    states ⊆ [.inspecting, .running, .validating] ∨ ∃ c probe, point = .start c probe ∧
      id = c.id ∧ states = [.planned] := by
  cases point with
  | start candidate probe =>
    cases hexpects
    exact Or.inr ⟨candidate, probe, rfl, rfl, rfl⟩
  | inspect | prepare | report | sample | markMove =>
    cases hexpects
    exact Or.inl (by decide)
  | markRead jobId after =>
    cases after with
    | none => cases hexpects
    | some completion =>
      cases hexpects
      exact Or.inl (by decide)
  | finish jobId completion =>
    cases completion with
    | validated status | paused | cancelled | stopped =>
      cases hexpects
      exact Or.inl (by decide)
  | top | admission | claim | idle | select | returning | abortDrain | abort | abortMove | done =>
    cases hexpects

theorem exists_expects {point : Point} (hid : id ∈ point.held ∨ id ∈ point.finishing) :
    ∃ states, point.expects = some (id, states) := by
  have hbusy : ∀ {other}, id ∈ [other] ∨ id ∈ ([] : List Uuid) → other = id := by
    intro other h
    exact (List.mem_singleton.mp (h.resolve_right List.not_mem_nil)).symm
  cases point with
  | inspect candidate | prepare candidate verdict | start candidate probe =>
    obtain rfl := hbusy hid
    exact ⟨_, rfl⟩
  | report jobId report | sample jobId report =>
    obtain rfl := hbusy hid.symm
    exact ⟨_, rfl⟩
  | markRead jobId after | markMove jobId after =>
    cases after with
    | none => rcases hid with hid | hid <;> exact absurd hid List.not_mem_nil
    | some completion =>
      obtain rfl := hbusy hid.symm
      exact ⟨_, rfl⟩
  | finish jobId completion =>
    obtain rfl := hbusy hid.symm
    cases completion <;> exact ⟨_, rfl⟩
  | top | admission | claim | idle | select | returning | abortDrain | abort | abortMove | done =>
    rcases hid with hid | hid <;> exact absurd hid List.not_mem_nil

theorem held_subset (point : Point) : point.held ⊆ point.hand := by
  cases point <;> first | exact List.Subset.refl _ | exact List.nil_subset _

/-- When the loop ends with an error, every claimed job is at rest or active. -/
theorem Booked.salvages (h : Sound json db) (hb : w.Booked policy) (ht : w.Tracks restStates db)
    (hfails : w.Fails env db workers error)
    (hstarts : ∀ c probe, w.point = .start c probe → StoreWorks env.call db) :
    w.Salvages db w.activeJobs := by
  have hactive : ∀ id, id ∈ w.activeJobs ↔
      id ∈ w.point.hand ∨ id ∈ w.workers ∨ id ∈ w.point.finishing := by
    intro id
    rw [hb.active.mem_iff, Pipeline.inProgress, List.mem_append, List.mem_append]
    rfl
  -- the job the window is busy with
  have hbusy : ∀ id, id ∈ w.point.held ∨ id ∈ w.point.finishing →
      db.JobIn id restStates ∨ db.JobIn id [.inspecting, .running, .validating] := by
    intro id hid
    obtain ⟨states, hexpects⟩ := exists_expects hid
    obtain ⟨s, hs, hstate⟩ := ht.point id states hexpects
    rcases List.mem_append.mp hs with hs | hs
    · rcases expects_flight hexpects with hsub | ⟨c, probe, hpoint, rfl, rfl⟩
      · exact Or.inr ⟨s, hsub hs, hstate⟩
      · rw [List.mem_singleton.mp hs] at hstate
        exact absurd hstate (hfails.not_planned h hpoint (hstarts c probe hpoint))
    · exact Or.inl ⟨s, hs, hstate⟩
  intro id hid
  rcases (hb.claimed id).mp hid with hheld | hworker | hfinishing | ⟨c, hc, hcounted⟩
  · have hmem := (hactive id).mpr (Or.inl (held_subset _ hheld))
    exact (hbusy id (Or.inl hheld)).imp_right fun hflight => ⟨hmem, hflight⟩
  · obtain ⟨s, hs, hstate⟩ := ht.workers id hworker
    rcases List.mem_append.mp hs with hs | hs
    · exact Or.inr ⟨(hactive id).mpr (Or.inr (Or.inl hworker)), s, List.mem_cons_of_mem _ hs, hstate⟩
    · exact Or.inl ⟨s, hs, hstate⟩
  · have hmem := (hactive id).mpr (Or.inr (Or.inr hfinishing))
    exact (hbusy id (Or.inr hfinishing)).imp_right fun hflight => ⟨hmem, hflight⟩
  · exact Or.inl ((ht.counted id c hc hcounted).mono
      (List.append_subset.mpr ⟨c.states_rest, List.Subset.refl _⟩))

/-! ## The invariant -/

theorem Salvageable.executing (hs : w.Salvageable policy db) (hexec : w.point.executing = true) :
    w.Booked policy ∧ w.Tracks restStates db := by
  unfold Salvageable at hs
  unfold Point.executing at hexec
  split at hs
  case h_5 => exact hs
  all_goals next hpoint => rw [hpoint] at hexec; cases hexec

theorem salvageable_of_executing (hb : w.Booked policy) (ht : w.Tracks restStates db)
    (hexec : w.point.executing = true) : w.Salvageable policy db := by
  unfold Salvageable
  unfold Point.executing at hexec
  split
  case h_5 => exact ⟨hb, ht⟩
  all_goals next hpoint => rw [hpoint] at hexec; cases hexec

theorem Fails.executing
    (hfails : w.Fails env db workers error) : w.point.executing = true := by
  cases hfails with
  | transition id next code error hrequest hcall =>
    generalize w.point = point at hrequest
    cases point <;> first | rfl | cases hrequest
  | claim _ _ h' | reservation _ _ h' | exhausted h' | panicked _ _ _ h' | callback _ _ _ h'
  | sample _ _ _ _ h' | read _ _ _ h' | disappeared _ _ h' =>
    rw [h']
    rfl

/-- A job the abort reads in flight is one it can move. -/
theorem Salvages.target (hs : w.Salvages db (id :: todo)) (hid : id ∈ w.claimed) {s target : JobState}
    (hstate : db.stateOf id = some s) (htarget : abortTarget s = some target) : s ≠ .planned := by
  rintro rfl
  rcases hs id hid with hrest | ⟨_, hflight⟩
  · have hmem := hrest.mem hstate
    revert hmem
    decide
  · have hmem := hflight.mem hstate
    revert hmem
    decide

/-- **A step of a window keeps its claimed jobs salvageable.** -/
theorem Salvageable.advance (h : Sound json db) (hs : w.Salvageable policy db)
    (hadv : w.Advance env db w' db')
    (hstarts : ∀ c probe, w.point = .start c probe → StoreWorks env.call db)
    (haborts : w.point.executing = false → StoreWorks env.call db) :
    w'.Salvageable policy db' := by
  have hexecuting : w'.point.executing = true → w'.Salvageable policy db' := by
    intro hexec
    obtain ⟨hb, ht⟩ := hs.executing (hadv.executing hexec)
    exact salvageable_of_executing (hadv.booked hb hexec) (hadv.tracks hb (by decide) ht hexec) hexec
  cases hadv with
  | enter | leave | rest | stop | wait | returned | accept | claimed | contended | inspected
  | started | received | sampled | readRunning | finished => exact hexecuting rfl
  | prepared candidate verdict =>
    cases verdict <;> exact hexecuting rfl
  | joined index id point hpoint hworker hnext =>
    obtain ⟨report, rfl⟩ | ⟨error, rfl⟩ := hnext <;> exact hexecuting rfl
  | reported id report =>
    refine hexecuting ?_
    unfold afterReport
    split_ifs <;> rfl
  | readOther id after | marked id after => cases after <;> exact hexecuting rfl
  | failed workers error hfails =>
    obtain ⟨hb, ht⟩ := hs.executing hfails.executing
    have hsalvages : w.Salvages db w.activeJobs := hb.salvages h ht hfails hstarts
    exact hsalvages
  | drained error hpoint horder =>
    unfold Salvageable at hs
    rw [hpoint] at hs
    exact hs.mono horder.symm.subset
  | abortDone error firstError hpoint =>
    unfold Salvageable at hs
    rw [hpoint] at hs
    exact hs
  | abortSkipped error id todo firstError firstError' hpoint hskip =>
    have hworks := haborts (by rw [hpoint]; rfl)
    unfold Salvageable at hs
    rw [hpoint] at hs
    refine hs.next fun hid => ?_
    rcases hs id hid with hrest | ⟨_, s, hmem, hstate⟩
    · exact hrest
    · have hnone := (hskip.resolve_left (not_not.mpr hworks.1)) s hstate
      simp only [List.mem_cons, List.not_mem_nil, or_false] at hmem
      rcases hmem with rfl | rfl | rfl <;> cases hnone
  | abortRequested error id todo firstError s target hpoint hstate htarget =>
    unfold Salvageable at hs
    rw [hpoint] at hs
    exact ⟨hs, abortTarget_mem htarget, fun _ _ => ⟨s, hstate, htarget⟩⟩
  | abortMoved error todo firstError id s target db' hpoint hm =>
    unfold Salvageable at hs
    rw [hpoint] at hs
    exact hs.1.moves hm hs.2.1
  | abortRefused error todo firstError id target cleanup hpoint hcall =>
    have hworks := haborts (by rw [hpoint]; rfl)
    unfold Salvageable at hs
    rw [hpoint] at hs
    obtain ⟨hsalvages, _, hread⟩ := hs
    refine hsalvages.next fun hid => ?_
    rcases hsalvages id hid with hrest | ⟨_, hflight⟩
    · exact hrest
    · obtain ⟨s, hstate, htarget⟩ := hread hflight hid
      have hlegal := abortTarget_legal htarget (hsalvages.target hid hstate htarget)
      have hnext : target ≠ .queued := by
        rintro rfl
        exact absurd (abortTarget_mem htarget) (by decide)
      obtain ⟨record, db', hok⟩ := transition_of_moves h hstate hlegal hnext hworks
        "CONTROL_PLANE_FAILED"
      rw [hcall] at hok
      cases hok

/-- Other processes may put claimed jobs to rest. -/
theorem Salvageable.other (hs : w.Salvageable policy db)
    (hother : ∀ id ∈ w.claimed, db'.stateOf id = db.stateOf id ∨ db'.JobIn id restStates) :
    w.Salvageable policy db' := by
  unfold Salvageable at hs ⊢
  split at hs
  case h_3 =>
    obtain ⟨hsalvages, hmem, hread⟩ := hs
    refine ⟨hsalvages.other hother, hmem, fun hflight hid => ?_⟩
    rcases hother _ hid with hsame | hrest
    · rw [hsame]
      exact hread (hflight.of_eq hsame.symm) hid
    · obtain ⟨s, hs, hstate⟩ := hrest
      have hin := hflight.mem hstate
      simp only [List.mem_cons, List.not_mem_nil, or_false] at hin
      rcases hin with rfl | rfl | rfl <;> exact absurd hs (by decide)
  case h_5 => exact ⟨hs.1, hs.1.tracks_other hs.2 hother⟩
  all_goals exact hs.other hother

theorem Salvageable.event (hs : w.Salvageable policy db) {event : WindowEvent}
    (hevent : w.receive event = some w') : w'.Salvageable policy db := by
  have hbooked : w.Booked policy → w'.Booked policy := fun hb => hb.event hevent
  have htracks : w.Tracks restStates db → w'.Tracks restStates db := fun ht => ht.event hevent
  obtain ⟨milestones, control, _, _, _, _, rfl⟩ := receive_eq_some hevent
  unfold Salvageable at hs ⊢
  dsimp only
  split at hs
  case h_5 => exact ⟨hbooked hs.1, htracks hs.2⟩
  all_goals exact hs

/-- **A step of a window requests legal transitions in its abort.** -/
theorem Salvageable.requestsLegal (hs : w.Salvageable policy db) (hadv : w.Advance env db w' db')
    (hlegal : w.RequestsLegal) (hread : ∀ error id todo firstError,
      w.point = .abort error (id :: todo) firstError →
        id ∈ w.claimed ∨ db.stateOf id ≠ some .planned) : w'.RequestsLegal := by
  cases hadv with
  | abortRequested error id todo firstError s target hpoint hstate htarget =>
    unfold Salvageable at hs
    rw [hpoint] at hs
    intro r hr
    rcases List.mem_append.mp hr with hr | hr
    · exact hlegal r hr
    · rw [List.mem_singleton.mp hr]
      refine abortTarget_legal htarget ?_
      rcases hread error id todo firstError hpoint with hid | hne
      · exact hs.target hid hstate htarget
      · rintro rfl
        exact hne hstate
  | prepared candidate verdict => cases verdict <;> exact hlegal
  | readOther id after | marked id after => cases after <;> exact hlegal
  | enter | leave | rest | stop | wait | returned | accept | claimed | contended | inspected
  | started | received | joined | reported | sampled | readRunning | finished | failed | drained
  | abortDone | abortSkipped | abortMoved | abortRefused => exact hlegal

end Window

/-! ## Runs -/

variable {json : ReportJson} {db : Database} {w : Window}

/-- What holds throughout a run that aborts cleanly. -/
structure QueueState.Salvageable (json : ReportJson) (policy : SchedulerPolicy) (s : QueueState) :
    Prop where
  sound : Sound json s.db
  window : s.window.Salvageable policy s.db
  requests : s.window.RequestsLegal

theorem QueueState.Salvageable.step {policy : SchedulerPolicy} {s t : QueueState} {label : QueueLabel}
    (h : s.Salvageable json policy) (hstep : QueueStep json s label t)
    (hclean : AbortsCleanly s label t) : t.Salvageable json policy := by
  have hsound := (QueueStep.writes h.sound hstep).sound h.sound
  cases label with
  | event event =>
    obtain ⟨hevent, hdb⟩ := hstep
    refine ⟨hsound, by rw [hdb]; exact h.window.event hevent, ?_⟩
    obtain ⟨milestones, control, _, _, _, _, heq⟩ := Window.receive_eq_some hevent
    rw [heq]
    exact h.requests
  | other label =>
    obtain ⟨_, hwindow⟩ := hstep
    exact ⟨hsound, by rw [hwindow]; exact h.window.other hclean, by rw [hwindow]; exact h.requests⟩
  | step env =>
    have hadv := Window.step_advance h.sound hstep
    obtain ⟨hworks, hreads⟩ := hclean
    refine ⟨hsound, h.window.advance h.sound hadv ?_ ?_, h.window.requestsLegal hadv h.requests ?_⟩
    · intro c probe hpoint
      exact hworks (Or.inl (by rw [hpoint]; rfl))
    · exact fun hexec => hworks (Or.inr hexec)
    · intro error id todo firstError hpoint
      exact hreads id (by rw [hpoint]; rfl)

/-- **A failing window strands no job.** Take a window on any reachable store and any run
    of it among other processes in which other processes put its claimed jobs at most to
    rest, the store works in the transitions from `Planned` to `Running` and in the
    abort, and the abort finds no job `Planned` that the window has not claimed. When the
    window returns an error, all jobs it has claimed are at rest, and every transition its
    abort requested is legal. -/
theorem window_abort (h : Reachable json db) {env : CallEnv} {logicalCpus limit parallel : ℕ}
    {control : QueueWindowControl}
    (hopen : openWindow env db logicalCpus limit parallel control = .ok w)
    {labels : List QueueLabel} {s : QueueState}
    (hrun : Trace (fun s label t => QueueStep json s label t ∧ AbortsCleanly s label t)
      ⟨w, db⟩ labels s) :
    (∀ error, s.window.point = .done (.error error) →
      ∀ id ∈ s.window.claimed, s.db.JobIn id restStates) ∧ s.window.RequestsLegal := by
  have hstart : QueueState.Salvageable json (.bounded logicalCpus parallel) ⟨w, db⟩ := by
    have hbooked := openWindow_booked h.sound hopen
    have htracks := openWindow_tracks restStates hopen
    obtain ⟨_, _, jobs, pending, _, _, rfl⟩ := openWindow_eq_ok hopen
    exact ⟨h.sound, ⟨hbooked, htracks⟩, fun r hr => absurd hr List.not_mem_nil⟩
  have hend := hrun.invariant hstart fun hs hstep => hs.step hstep.1 hstep.2
  refine ⟨fun error hpoint id hid => ?_, hend.requests⟩
  have hwindow := hend.window
  unfold Window.Salvageable at hwindow
  rw [hpoint] at hwindow
  exact (hwindow id hid).resolve_right fun hin => absurd hin.1 List.not_mem_nil

/-- A window whose transition from `Inspecting` meets a busy database: the job ends
    `Failed`. -/
theorem window_abort_inspecting :
    let inputs := List.replicate 4 (.step Sample.stepEnv) ++ [.step Sample.busyEnv,
      .step { Sample.stepEnv with order := [0] }] ++ List.replicate 3 (.step Sample.stepEnv)
    let s := play (QueueState.next (Sample.json 0)) ⟨Sample.window, Sample.queued⟩ inputs
    s.db.JobIn 0 restStates ∧ s.window.RequestsLegal := by
  intro inputs s
  have hplays : Plays (QueueState.next (Sample.json 0)) AbortsCleanly
      ⟨Sample.window, Sample.queued⟩ inputs := by decide
  obtain ⟨labels, hrun⟩ := QueueState.play_run hplays
  obtain ⟨hrest, hlegal⟩ := window_abort Sample.queued_reachable Sample.openWindow_window hrun
  exact ⟨hrest databaseBusy rfl 0 (by decide), hlegal⟩

/-- A window whose transition to `Running` meets a busy database. Nothing fails in its
    abort, but the transition it requests is illegal, and the job it has claimed stays
    `Planned`. -/
theorem window_abort_stranded :
    ∃ labels s, Trace (fun s label t => QueueStep (Sample.json 0) s label t ∧
        AbortStoreWorks s label t) ⟨Sample.window, Sample.queued⟩ labels s ∧
      (∃ error, s.window.point = .done (.error error)) ∧ s.window.claimed = [0] ∧
      s.db.stateOf 0 = some .planned ∧ s.window.requests = [⟨0, .planned, .failed⟩] ∧
      JobState.planned.canTransitionTo .failed = false := by
  have hplays : Plays (QueueState.next (Sample.json 0)) AbortStoreWorks
      ⟨Sample.window, Sample.queued⟩ (List.replicate 5 (.step Sample.stepEnv) ++ [.step Sample.busyEnv,
        .step { Sample.stepEnv with order := [0] }] ++ List.replicate 3 (.step Sample.stepEnv)) := by
    decide
  obtain ⟨labels, hrun⟩ := QueueState.play_run hplays
  exact ⟨labels, _, hrun, ⟨_, rfl⟩, by decide, by decide, by decide, rfl⟩

end Anole
