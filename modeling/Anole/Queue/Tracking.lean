import Anole.Queue.Books

/-!
# The store as a window expects it

While other processes leave the jobs a window has claimed alone, the state of each such
job in the store follows from where the window stands with it (`Window.Tracks`): the
job in hand, the jobs of the workers, the job being completed and the counted jobs.
`extra` are the states into which other processes may put claimed jobs all the same;
a job in such a state is no concern of the window any more.

Main results:
* `Advance.tracks`: every step of the loop keeps this agreement.
* `Booked.tracks_other`: so does every step of another process that leaves the claimed
  jobs in their states or puts them into `extra`.
-/

open Common

namespace Anole

/-- The job has one of these states. -/
def Database.JobIn (db : Database) (id : Uuid) (states : List JobState) : Prop :=
  ∃ s ∈ states, db.stateOf id = some s

instance (db : Database) (id : Uuid) (states : List JobState) : Decidable (db.JobIn id states) :=
  inferInstanceAs (Decidable (∃ s ∈ states, db.stateOf id = some s))

/-- The states of a job that was counted in a counter; a contended job is not the
    window's. -/
def Counter.states : Counter → List JobState
  | .completed => [.completed]
  | .warning => [.warning]
  | .blocked => [.blocked]
  | .failed => [.failed]
  | .cancelled => [.cancelled, .interrupted]
  | .contended => []

/-- The job a window is busy with at a point, and the states it may have. -/
def Point.expects : Point → Option (Uuid × List JobState)
  | .inspect candidate | .prepare candidate _ => some (candidate.id, [.inspecting])
  | .start candidate _ => some (candidate.id, [.planned])
  | .report id _ | .sample id _ | .markRead id (some _) => some (id, [.running, .validating])
  | .markMove id _ => some (id, [.running])
  | .finish id (.validated _) => some (id, [.validating])
  | .finish id _ => some (id, [.running, .validating])
  | _ => none

/-- The claimed jobs are in the states the window expects, or in one of `extra`. -/
structure Window.Tracks (extra : List JobState) (w : Window) (db : Database) : Prop where
  point : ∀ id states, w.point.expects = some (id, states) → db.JobIn id (states ++ extra)
  workers : ∀ id ∈ w.workers, db.JobIn id ([.running, .validating] ++ extra)
  counted : ∀ id c, c ≠ .contended → (id, c) ∈ w.counted → db.JobIn id (c.states ++ extra)

section JobIn

variable {db db' : Database} {id : Uuid} {s next : JobState} {states : List JobState}

theorem Database.JobIn.of_eq (h : db.JobIn id states) (hdb : db'.stateOf id = db.stateOf id) :
    db'.JobIn id states := by
  obtain ⟨s, hs, hstate⟩ := h
  exact ⟨s, hs, hdb.trans hstate⟩

theorem Database.JobIn.mem (h : db.JobIn id states) (hs : db.stateOf id = some s) : s ∈ states := by
  obtain ⟨s', hs', hstate⟩ := h
  rw [hs] at hstate
  exact Option.some.inj hstate ▸ hs'

theorem Database.JobIn.mono {states' : List JobState} (h : db.JobIn id states)
    (hsub : states ⊆ states') : db.JobIn id states' := by
  obtain ⟨s, hs, hstate⟩ := h
  exact ⟨s, hsub hs, hstate⟩

theorem Database.Moves.stateOf_other (hm : db.Moves id s next db') {other : Uuid}
    (hne : other ≠ id) : db'.stateOf other = db.stateOf other :=
  (hm.others other hne).stateOf

theorem Counter.running_notMem (c : Counter) : JobState.running ∉ c.states := by
  cases c <;> decide

end JobIn

namespace Window

variable {policy : SchedulerPolicy} {extra : List JobState} {env : StepEnv} {w w' : Window} {db db' : Database} {id : Uuid}
  {s next : JobState}

theorem Booked.expects_claimed (h : w.Booked policy) {states : List JobState}
    (hexpects : w.point.expects = some (id, states)) : id ∈ w.claimed := by
  have hclaimed := h.claimed id
  have hheard := h.heard id
  generalize w.point = point at hexpects hclaimed hheard
  cases point with
  | inspect candidate | prepare candidate _ | start candidate _ =>
    cases hexpects
    exact hclaimed.mpr (Or.inl (List.mem_singleton.mpr rfl))
  | report jobId _ | sample jobId _ =>
    cases hexpects
    exact hclaimed.mpr (Or.inr (Or.inr (Or.inl (List.mem_singleton.mpr rfl))))
  | markRead jobId after =>
    cases after with
    | none => cases hexpects
    | some completion =>
      cases hexpects
      exact hclaimed.mpr (Or.inr (Or.inr (Or.inl (List.mem_singleton.mpr rfl))))
  | markMove jobId after =>
    cases hexpects
    cases after with
    | none => exact hheard (List.mem_append_left _ (List.mem_singleton.mpr rfl))
    | some completion => exact hclaimed.mpr (Or.inr (Or.inr (Or.inl (List.mem_singleton.mpr rfl))))
  | finish jobId completion =>
    have hid : jobId = id := by
      cases completion <;> exact (Prod.mk.inj (Option.some.inj hexpects)).1
    exact hclaimed.mpr (Or.inr (Or.inr (Or.inl (List.mem_singleton.mpr hid.symm))))
  | top | admission | claim | idle | select | returning | abortDrain | abort | abortMove | done =>
    cases hexpects

/-- **Another process keeps the agreement** when it leaves the claimed jobs in their
    states or puts them into `extra`. -/
theorem Booked.tracks_other (h : w.Booked policy) (ht : w.Tracks extra db)
    (hother : ∀ id ∈ w.claimed, db'.stateOf id = db.stateOf id ∨ db'.JobIn id extra) :
    w.Tracks extra db' := by
  have hkeeps : ∀ {id states}, id ∈ w.claimed → db.JobIn id (states ++ extra) →
      db'.JobIn id (states ++ extra) := by
    intro id states hid hjob
    rcases hother id hid with hsame | hextra
    · exact hjob.of_eq hsame
    · exact hextra.mono (List.subset_append_right _ _)
  constructor
  case point =>
    exact fun id states hexpects => hkeeps (h.expects_claimed hexpects) (ht.point id states hexpects)
  case workers =>
    exact fun id hworker =>
      hkeeps ((h.claimed id).mpr (Or.inr (Or.inl hworker))) (ht.workers id hworker)
  case counted =>
    exact fun id c hc hcounted =>
      hkeeps ((h.claimed id).mpr (Or.inr (Or.inr (Or.inr ⟨c, hc, hcounted⟩))))
        (ht.counted id c hc hcounted)

/-- A step that expects nothing new. -/
theorem Tracks.of_point (ht : w.Tracks extra db) (hworkers : w'.workers = w.workers)
    (hcounted : w'.counted = w.counted)
    (hpoint : ∀ id states, w'.point.expects = some (id, states) → db.JobIn id (states ++ extra)) :
    w'.Tracks extra db where
  point := hpoint
  workers := by rw [hworkers]; exact ht.workers
  counted := by rw [hcounted]; exact ht.counted

/-- A step that moves one job: what is expected of it must hold afterwards, what is
    expected of the others still does. -/
theorem Tracks.of_moves (ht : w.Tracks extra db) (hm : db.Moves id s next db')
    (hpoint : ∀ other states, w'.point.expects = some (other, states) →
      other = id ∧ next ∈ states)
    (hworkers : ∀ other ∈ w'.workers, other ∈ w.workers ∧ other ≠ id ∨
      other = id ∧ (next = .running ∨ next = .validating))
    (hcounted : ∀ other c, c ≠ .contended → (other, c) ∈ w'.counted →
      (other, c) ∈ w.counted ∧ other ≠ id ∨ other = id ∧ next ∈ c.states) : w'.Tracks extra db' where
  point := by
    intro other states hexpects
    obtain ⟨rfl, hmem⟩ := hpoint other states hexpects
    exact ⟨next, List.mem_append_left _ hmem, hm.after⟩
  workers := by
    intro other hother
    rcases hworkers other hother with ⟨hold, hne⟩ | ⟨rfl, hnext⟩
    · exact (ht.workers other hold).of_eq (hm.stateOf_other hne)
    · exact ⟨next, List.mem_append_left _ (by rcases hnext with rfl | rfl <;> decide), hm.after⟩
  counted := by
    intro other c hc hother
    rcases hcounted other c hc hother with ⟨hold, hne⟩ | ⟨rfl, hmem⟩
    · exact (ht.counted other c hc hold).of_eq (hm.stateOf_other hne)
    · exact ⟨next, List.mem_append_left _ hmem, hm.after⟩

/-- The job in hand and the job being completed are with no worker and not counted. -/
theorem Booked.apart (h : w.Booked policy) (hid : w.point.hand = [id] ∨ w.point.finishing = [id]) :
    id ∉ w.workers ∧ ∀ c, (id, c) ∉ w.counted := by
  have hmem : id ∈ w.pipeline.taken ∨ id ∈ w.pipeline.joined := by
    rcases hid with hid | hid
    · exact Or.inl (by rw [pipeline, hid]; exact List.mem_singleton.mpr rfl)
    · exact Or.inr (by rw [pipeline, hid]; exact List.mem_singleton.mpr rfl)
  refine ⟨Pipeline.not_mem_running h.nodup hmem, fun c hc => ?_⟩
  refine Pipeline.not_mem_settled h.nodup ?_ (List.mem_map_of_mem hc)
  rcases hmem with hmem | hmem
  · exact Or.inl hmem
  · exact Or.inr (Or.inl hmem)

/-- A step that moves the job in hand to a point where it is expected in its new state. -/
theorem Booked.tracks_goto (h : w.Booked policy) (ht : w.Tracks extra db) (hm : db.Moves id s next db')
    (hid : w.point.hand = [id] ∨ w.point.finishing = [id])
    (hworkers : w'.workers = w.workers) (hcounted : w'.counted = w.counted)
    (hpoint : ∀ other states, w'.point.expects = some (other, states) →
      other = id ∧ next ∈ states) : w'.Tracks extra db' := by
  obtain ⟨h1, h2⟩ := h.apart hid
  refine ht.of_moves hm hpoint ?_ ?_
  · intro other hother
    rw [hworkers] at hother
    exact Or.inl ⟨hother, fun heq => h1 (heq ▸ hother)⟩
  · intro other c _ hother
    rw [hcounted] at hother
    exact Or.inl ⟨hother, fun heq => h2 c (heq ▸ hother)⟩

theorem Booked.tracks_count (h : w.Booked policy) (ht : w.Tracks extra db) (hm : db.Moves id s next db')
    (hid : w.point.hand = [id] ∨ w.point.finishing = [id]) {counter : Counter}
    (hnext : next ∈ counter.states) (hworkers : w'.workers = w.workers)
    (hcounted : w'.counted = w.counted ++ [(id, counter)]) (hpoint : w'.point.expects = none) :
    w'.Tracks extra db' := by
  obtain ⟨h1, h2⟩ := h.apart hid
  refine ht.of_moves hm ?_ ?_ ?_
  · intro other states hexpects
    rw [hpoint] at hexpects
    cases hexpects
  · intro other hother
    rw [hworkers] at hother
    exact Or.inl ⟨hother, fun heq => h1 (heq ▸ hother)⟩
  · intro other c _ hother
    rw [hcounted] at hother
    rcases List.mem_append.mp hother with hother | hother
    · exact Or.inl ⟨hother, fun heq => h2 c (heq ▸ hother)⟩
    · cases List.mem_singleton.mp hother
      exact Or.inr ⟨rfl, hnext⟩

theorem Completion.target_mem (completion : Completion) :
    completion.target ∈ completion.counter.states := by
  cases completion with
  | validated status => cases status <;> decide
  | paused | cancelled | stopped => decide

theorem eq_running_of_to_validating (h : s.canTransitionTo .validating = true) : s = .running := by
  cases s <;> simp_all [JobState.canTransitionTo]

/-- A job that is marked `Validating` was `Running`, so it is not counted. -/
theorem Tracks.marked (ht : w.Tracks extra db) (hextra : JobState.running ∉ extra)
    {after : Option Completion} (hm : db.Moves id s .validating db') :
    (w.afterMark id after).Tracks extra db' := by
  obtain rfl := eq_running_of_to_validating hm.legal
  have hworkers : (w.afterMark id after).workers = w.workers := by cases after <;> rfl
  have hcounted : (w.afterMark id after).counted = w.counted := by cases after <;> rfl
  refine ht.of_moves hm ?_ ?_ ?_
  · intro other states hexpects
    cases after with
    | none => cases hexpects
    | some completion => cases completion <;> cases hexpects <;> exact ⟨rfl, by decide⟩
  · intro other hother
    rw [hworkers] at hother
    by_cases heq : other = id
    · exact Or.inr ⟨heq, Or.inr rfl⟩
    · exact Or.inl ⟨hother, heq⟩
  · intro other c hc hother
    rw [hcounted] at hother
    refine Or.inl ⟨hother, ?_⟩
    rintro rfl
    rcases List.mem_append.mp ((ht.counted other c hc hother).mem hm.before) with hmem | hmem
    · exact c.running_notMem hmem
    · exact hextra hmem

/-- A job whose mark was not needed is `Validating` already, or beyond the window. -/
theorem Tracks.unmarked (ht : w.Tracks extra db) {after : Option Completion}
    (hpoint : w.point = .markRead id after) (hs : db.stateOf id = some s) (hne : s ≠ .running) :
    (w.afterMark id after).Tracks extra db := by
  cases after with
  | none => exact ht.of_point rfl rfl fun _ _ hexpects => nomatch hexpects
  | some completion =>
    have hjob := ht.point id [.running, .validating] (by rw [hpoint]; rfl)
    have hmem : s ∈ [.validating] ++ extra := by
      rcases List.mem_append.mp (hjob.mem hs) with hmem | hmem
      · rcases List.mem_cons.mp hmem with heq | hmem
        · exact absurd heq hne
        · exact List.mem_append_left _ hmem
      · exact List.mem_append_right _ hmem
    refine ht.of_point rfl rfl fun other states hexpects => ?_
    have hvalidating : db.JobIn id ([.validating] ++ extra) := ⟨s, hmem, hs⟩
    cases completion with
    | validated status =>
      cases hexpects
      exact hvalidating
    | paused | cancelled | stopped =>
      cases hexpects
      exact hjob

/-- A job is joined in the state it had as a worker's job. -/
theorem Tracks.join (ht : w.Tracks extra db) {index : ℕ} {point : Point}
    (hworker : w.workers[index]? = some id)
    (hnext : (∃ report, point = .report id report) ∨
      ∃ error, point = .finish id (w.completionOf error)) : (w.join index id point).Tracks extra db := by
  have hjob := ht.workers id (List.mem_of_getElem? hworker)
  constructor
  case point =>
    intro other states hexpects
    obtain ⟨report, rfl⟩ | ⟨error, rfl⟩ := hnext
    · cases hexpects
      exact hjob
    · unfold completionOf at hexpects
      split_ifs at hexpects <;> cases hexpects <;> exact hjob
  case workers => exact fun other hother => ht.workers other (List.mem_of_mem_eraseIdx hother)
  case counted => exact ht.counted

/-- **Every step of the loop keeps the agreement.** -/
theorem Advance.tracks (hadv : w.Advance env db w' db') (h : w.Booked policy)
    (hextra : JobState.running ∉ extra) (ht : w.Tracks extra db)
    (hexec : w'.point.executing = true) : w'.Tracks extra db' := by
  cases hadv with
  | enter hpoint | leave hpoint | rest hpoint | stop hpoint | wait hpoint | returned hpoint
  | accept _ _ _ hpoint | received _ _ hpoint =>
    exact ht.of_point rfl rfl fun _ _ hexpects => nomatch hexpects
  | claimed candidate db' hpoint hm =>
    refine h.tracks_goto ht hm (Or.inl (by rw [hpoint]; rfl)) rfl rfl fun other states hexpects => ?_
    cases hexpects
    exact ⟨rfl, by decide⟩
  | contended candidate s hpoint =>
    refine ⟨fun _ _ hexpects => (nomatch hexpects), ht.workers, fun id c hc hcounted => ?_⟩
    rcases List.mem_append.mp hcounted with hcounted | hcounted
    · exact ht.counted id c hc hcounted
    · cases List.mem_singleton.mp hcounted
      exact absurd rfl hc
  | inspected candidate verdict hpoint =>
    exact ht.of_point rfl rfl fun id states hexpects => ht.point id states (by rw [hpoint]; exact hexpects)
  | prepared candidate verdict s db' hpoint hm =>
    have hhand : w.point.hand = [candidate.id] := by rw [hpoint]; rfl
    cases verdict with
    | blocked code =>
      have hstate : JobState.blocked ∈ Counter.blocked.states := List.mem_singleton.mpr rfl
      exact h.tracks_count ht hm (Or.inl hhand) hstate rfl rfl rfl
    | planInvalid =>
      have hstate : JobState.failed ∈ Counter.failed.states := List.mem_singleton.mpr rfl
      exact h.tracks_count ht hm (Or.inl hhand) hstate rfl rfl rfl
    | revalidated probe =>
      refine h.tracks_goto ht hm (Or.inl hhand) rfl rfl fun other states hexpects => ?_
      cases hexpects
      exact ⟨rfl, List.mem_singleton.mpr rfl⟩
  | started candidate probe s db' hpoint hm =>
    obtain ⟨_, h2⟩ := h.apart (Or.inl (by rw [hpoint]; rfl))
    refine ht.of_moves hm (fun _ _ hexpects => nomatch hexpects) ?_ ?_
    · intro other hother
      by_cases heq : other = candidate.id
      · exact Or.inr ⟨heq, Or.inl rfl⟩
      · rcases List.mem_append.mp hother with hother | hother
        · exact Or.inl ⟨hother, heq⟩
        · exact absurd (List.mem_singleton.mp hother) heq
    · intro other c _ hother
      exact Or.inl ⟨hother, fun heq => h2 c (heq ▸ hother)⟩
  | joined index id point hpoint hworker hnext => exact ht.join hworker hnext
  | reported id report hpoint =>
    have hjob := ht.point id [.running, .validating] (by rw [hpoint]; rfl)
    unfold afterReport
    split_ifs
    · exact ht.of_point rfl rfl fun _ _ hexpects => by cases hexpects; exact hjob
    · exact ht.of_point rfl rfl fun _ _ hexpects => by cases hexpects; exact hjob
  | sampled id report db' hpoint hother =>
    have hjob := ht.point id [.running, .validating] (by rw [hpoint]; rfl)
    refine (h.tracks_other ht fun id _ => Or.inl (hother id).stateOf).of_point rfl rfl fun _ _ hexpects => ?_
    cases hexpects
    exact hjob.of_eq (hother id).stateOf
  | readRunning id after hpoint hs =>
    refine ht.of_point rfl rfl fun _ _ hexpects => ?_
    cases hexpects
    exact ⟨.running, List.mem_append_left _ (by decide), hs⟩
  | readOther id after s hpoint hs hne => exact ht.unmarked hpoint hs hne
  | marked id after s db' hpoint hm => exact ht.marked hextra hm
  | finished id completion s db' hpoint hm =>
    exact h.tracks_count ht hm (Or.inr (by rw [hpoint]; rfl)) (Completion.target_mem completion) rfl
      rfl rfl
  | failed | drained | abortDone | abortSkipped | abortRequested | abortMoved | abortRefused =>
    cases hexec

/-- Milestones and pauses change no expectation. -/
theorem Tracks.event (ht : w.Tracks extra db) {event : WindowEvent} (hevent : w.receive event = some w') :
    w'.Tracks extra db := by
  obtain ⟨milestones, control, _, _, _, _, rfl⟩ := receive_eq_some hevent
  exact { ht with }

end Window

/-- A window that has just been opened expects nothing. -/
theorem openWindow_tracks {env : CallEnv} {db : Database} {logicalCpus limit parallel : ℕ}
    {control : QueueWindowControl} {w : Window} (extra : List JobState)
    (hopen : openWindow env db logicalCpus limit parallel control = .ok w) : w.Tracks extra db := by
  obtain ⟨_, _, jobs, pending, _, _, rfl⟩ := openWindow_eq_ok hopen
  exact ⟨fun _ _ hexpects => (nomatch hexpects), fun _ h => absurd h List.not_mem_nil,
    fun _ _ _ h => absurd h List.not_mem_nil⟩

end Anole
