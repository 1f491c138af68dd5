import Anole.Queue.TwoStores

/-!
# A change of one job

Another process may change a job that a window has claimed, and the store accepts the change. The
transition that the loop requests for this job next may then be refused, and the refusal ends the
loop: `abort_active_window` takes all other jobs down. Where the loop finds a job `Queued` no more,
it counts it as contended and goes on; it does nothing of the kind for a job that it has claimed.

`Alike` relates a run in which one job is changed to a run without the change, which may be behind
at this job by one transition. As long as the loop may make the transitions it requests for the job,
each step of the first run is followed by the second, and the other jobs stay the same.

Main result: `changes_confined`.
-/

open Common

namespace Anole

/-! ## The changed job -/

/-- The row of the job in the run with the changes, and in the run without. -/
structure JobRow.Ahead (row row' : JobRow) : Prop where
  outputPath : row'.outputPath = row.outputPath
  sequence : row'.sequence ≤ row.sequence
  /-- A change of the state has used up a number. -/
  running : row'.state = .running → row.state ≠ .running → row'.sequence < row.sequence

/-- The job has rows of this kind. -/
def Database.Ahead (id : Uuid) (db db' : Database) : Prop :=
  ∃ row row', db.job? id = some row ∧ db'.job? id = some row' ∧ row.Ahead row'

/-- The job can be moved: the state machine has the edge, and a number is left for the event. -/
def Database.Permits (db : Database) (id : Uuid) (next : JobState) : Prop :=
  ∃ row ∈ db.jobs, row.id = id ∧ row.state.canTransitionTo next = true ∧ row.sequence + 1 < sqliteIntegerLimit

instance (db : Database) (id : Uuid) (next : JobState) : Decidable (db.Permits id next) :=
  inferInstanceAs (Decidable (∃ row ∈ db.jobs, row.id = id ∧ row.state.canTransitionTo next = true ∧
    row.sequence + 1 < sqliteIntegerLimit))

section Ahead

variable {json : ReportJson} {env : CallEnv} {db db' d d' : Database} {id : Uuid} {next : JobState}
  {code : String} {row row' : JobRow}

theorem JobRow.Ahead.refl (row : JobRow) : row.Ahead row := ⟨rfl, le_rfl, fun h h' => absurd h h'⟩

/-- The number of a job only grows, and it grows when the state changes. -/
theorem Writes.sequence (hw : Writes json db d) (h : Sound json db) (hrow : db.job? id = some row) :
    ∃ row', d.job? id = some row' ∧ row'.outputPath = row.outputPath ∧ row.sequence ≤ row'.sequence ∧
      (row'.state ≠ row.state → row.sequence < row'.sequence) := by
  obtain ⟨hmem, rfl⟩ := mem_of_job? hrow
  obtain ⟨row', hmem', hsame⟩ := hw.extends row hmem
  have hd : Sound json d := Writes.sound hw h
  have hlog := h.jobs.log row hmem
  have hlog' := hd.jobs.log row' hmem'
  rw [hsame.id] at hlog'
  have hprefix : (db.logOf row.id) <+: (d.logOf row.id) := Writes.log hw row.id
  have hlength : (db.logOf row.id).length = row.sequence + 1 := hlog.length
  have hlength' : (d.logOf row.id).length = row'.sequence + 1 := hlog'.length
  have hle := hprefix.length_le
  rw [hlength, hlength'] at hle
  refine ⟨row', ?_, hsame.outputPath, Nat.le_of_succ_le_succ hle, fun hne => ?_⟩
  · rw [← hsame.id]
    exact job?_of_mem hd.jobs.jobIds hmem'
  · -- logs of one length are the same log, and its last event says the state
    refine lt_of_le_of_ne (Nat.le_of_succ_le_succ hle) fun heq => hne ?_
    have hlogs : db.logOf row.id = d.logOf row.id := hprefix.eq_of_length (by rw [hlength, hlength', heq])
    have hlast : (db.logOf row.id).getLast?.map EventRow.nextState = some row.state := hlog.last
    have hlast' : (d.logOf row.id).getLast?.map EventRow.nextState = some row'.state := hlog'.last
    rw [← hlogs, hlast] at hlast'
    exact (Option.some.inj hlast').symm

/-- Another process writes to the store with the changes. -/
theorem Database.Ahead.write (hahead : db.Ahead id db') (h : Sound json db) (hw : Writes json db d) :
    d.Ahead id db' := by
  obtain ⟨row, row', hrow, hrow', hpath, hle, hrunning⟩ := hahead
  obtain ⟨row'', hrow'', hpath'', hle'', hgrows⟩ := hw.sequence h hrow
  refine ⟨row'', row', hrow'', hrow', hpath.trans hpath''.symm, hle.trans hle'', fun hr hne => ?_⟩
  by_cases hstate : row.state = .running
  · have hnew : row''.state ≠ row.state := by rwa [hstate]
    exact lt_of_le_of_lt hle (hgrows hnew)
  · exact lt_of_lt_of_le (hrunning hr hstate) hle''

theorem Database.Ahead.untouched (hahead : db.Ahead id db') (hdb : Untouched id db d)
    (hdb' : Untouched id db' d') : d.Ahead id d' := by
  obtain ⟨row, row', hrow, hrow', hrows⟩ := hahead
  exact ⟨row, row', hdb.job.trans hrow, hdb'.job.trans hrow', hrows⟩

theorem Untouched.ahead (hsame : Untouched id db db') (hknown : ∃ s, db'.stateOf id = some s) :
    db.Ahead id db' := by
  obtain ⟨s, hs⟩ := hknown
  obtain ⟨row, hrow, -⟩ := Option.map_eq_some_iff.mp hs
  exact ⟨row, row, hsame.job.symm.trans hrow, hrow, .refl row⟩

/-- Both runs move the job. -/
theorem Database.Ahead.moves (hahead : db.Ahead id db') (h : Sound json db) (h' : Sound json db')
    {rs rs' : List ReservationRow} (hm : MovesJob env db id next code row rs d)
    (hm' : MovesJob env db' id next code row' rs' d') : d.Ahead id d' := by
  obtain ⟨r, r', hr, hr', hrows⟩ := hahead
  have hrow : db.job? id = some row := by rw [← hm.jobId, job?_of_mem h.jobs.jobIds hm.mem]
  have hrow' : db'.job? id = some row' := by rw [← hm'.jobId, job?_of_mem h'.jobs.jobIds hm'.mem]
  rw [hrow] at hr
  rw [hrow'] at hr'
  obtain rfl := Option.some.inj hr
  obtain rfl := Option.some.inj hr'
  refine ⟨_, _, hm.job? h, hm'.job? h', hrows.outputPath, Nat.succ_le_succ hrows.sequence, ?_⟩
  exact fun hstate hne => absurd hstate hne

theorem claimQueuedJob_ownedKey (h : Sound json db) (env : CallEnv) (id : Uuid) (code : String) :
    (claimQueuedJob env db id code).2.ownedKey id = db.ownedKey id := by
  cases hcall : claimQueuedJob env db id code with
  | mk result d =>
    cases result with
    | error error => rw [transaction_error hcall]
    | ok result =>
      obtain ⟨row, -, -, ⟨-, -, rfl⟩ | ⟨-, hm, -⟩⟩ := claimQueuedJobBody_ok h (transaction_ok.mp hcall).2
      · rfl
      · exact hm.ownedKey_moved (by decide)

/-- A permitted transition fails only when SQLite fails. -/
theorem Database.Permits.transition (hpermits : db.Permits id next) (h : Sound json db) (hnext : next ≠ .queued)
    (hfault : env.fault = none) (code : String) :
    ∃ record row rs d, Anole.transition env db id next code = (.ok record, d) ∧
      MovesJob env db id next code row rs d := by
  obtain ⟨row, hrow, rfl, hlegal, hroom⟩ := hpermits
  obtain ⟨d, rs, hok, hm⟩ := transition_of_legal h hrow hlegal hnext hroom hfault code
  exact ⟨_, row, rs, d, hok, hm⟩

/-- What is permitted in the run with the changes is permitted in the other, if it is legal there. -/
theorem Database.Ahead.permits (hahead : db.Ahead id db') (h : Sound json db) {s : JobState}
    (hpermits : db.Permits id next) (hs : db'.stateOf id = some s) (hlegal : s.canTransitionTo next = true) :
    db'.Permits id next := by
  obtain ⟨row, row', hrow, hrow', hrows⟩ := hahead
  obtain ⟨r, hr, rfl, -, hroom⟩ := hpermits
  have hsome : db.job? r.id = some r := job?_of_mem h.jobs.jobIds hr
  rw [hsome] at hrow
  obtain rfl := Option.some.inj hrow
  obtain ⟨hmem, hid⟩ := mem_of_job? hrow'
  rw [Database.stateOf, hrow'] at hs
  cases hs
  exact ⟨row', hmem, hid, hlegal, lt_of_le_of_lt (Nat.succ_le_succ hrows.sequence) hroom⟩

theorem transition_of_fault {error : AnoleError} (hfault : env.fault = some error) (db : Database) (id : Uuid)
    (next : JobState) (code : String) : transition env db id next code = (.error error, db) := by
  unfold transition transaction
  rw [hfault]

theorem getJob_of_fault {error : AnoleError} (hfault : env.fault = some error) (db : Database) (id : Uuid) :
    getJob env db id = .error error := by
  unfold getJob
  rw [hfault]

end Ahead

/-! ## Steps of the loop -/

/-- The job of which the reservation is checked, or that is claimed before this. -/
def Point.reserving : Point → Option Uuid
  | .claim candidate | .inspect candidate => some candidate.id
  | _ => none

/-- The job of which the reservation is checked. -/
def Point.inspects : Point → Option Uuid
  | .inspect candidate => some candidate.id
  | _ => none

/-- What the loop does with a job: it claims it, inspects it, reads its mark or moves it. -/
theorem Point.concerns_cases {point : Point} {id : Uuid} (hexec : point.executing = true)
    (hid : point.concerns = some id) : (∃ candidate, point = .claim candidate ∧ candidate.id = id) ∨
      (∃ candidate, point = .inspect candidate ∧ candidate.id = id) ∨
      (∃ after, point = .markRead id after) ∨ ∃ next code, point.request = some (id, next, code) := by
  cases point with
  | claim candidate => exact .inl ⟨candidate, rfl, Option.some.inj hid⟩
  | inspect candidate => exact .inr (.inl ⟨candidate, rfl, Option.some.inj hid⟩)
  | markRead id after =>
    obtain rfl := Option.some.inj hid
    exact .inr (.inr (.inl ⟨after, rfl⟩))
  | prepare | start | markMove | finish =>
    obtain rfl := Option.some.inj hid
    exact .inr (.inr (.inr ⟨_, _, rfl⟩))
  | abort | abortMove => cases hexec
  | top | admission | idle | select | report | sample | returning | abortDrain | done => cases hid

namespace Window

variable {policy : SchedulerPolicy} {env : StepEnv} {w w' : Window} {db db' d : Database} {id : Uuid}

/-- A requested transition ends the loop, or the window goes on. -/
theorem step_request {next : JobState} {code : String} (hrequest : w.point.request = some (id, next, code))
    (env : StepEnv) : ∃ after : Window, ∀ db,
      w.step env db = some (w.attempt (transition env.call db id next code) fun _ => after) := by
  cases hp : w.point with
  | prepare candidate verdict =>
    rw [hp] at hrequest
    cases hrequest
    exact ⟨w.afterPrepare candidate verdict, fun db => by rw [step, hp]⟩
  | start candidate probe =>
    rw [hp] at hrequest
    cases hrequest
    exact ⟨w.spawn env candidate probe, fun db => by rw [step, hp]⟩
  | markMove id after =>
    rw [hp] at hrequest
    cases hrequest
    exact ⟨w.afterMark id after, fun db => by rw [step, hp]⟩
  | finish id completion =>
    rw [hp] at hrequest
    cases hrequest
    exact ⟨w.afterFinish id completion, fun db => by rw [step, hp]⟩
  | top | admission | claim | inspect | idle | select | report | sample | markRead | returning
  | abortDrain | abort | abortMove | done =>
    rw [hp] at hrequest
    cases hrequest

/-- The job the loop is about to do something with is a selected one. -/
theorem Booked.concerns_mem (h : w.Booked policy) (hexec : w.point.executing = true)
    (hid : w.point.concerns = some id) : ∃ job ∈ w.jobs, job.id = id := by
  obtain ⟨c, hp, rfl⟩ | ⟨c, hp, rfl⟩ | ⟨after, hp⟩ | ⟨next, code, hrequest⟩ := Point.concerns_cases hexec hid
  · refine h.mem_jobs ?_
    rw [Pipeline.items, pipeline, hp]
    exact List.mem_append_right _ (List.mem_append_left _ (List.mem_singleton.mpr rfl))
  · have hexpects : w.point.expects = some (c.id, [.inspecting]) := by rw [hp]; rfl
    exact h.claimed_mem (h.expects_claimed hexpects)
  · exact h.claimed_mem (h.read_claimed hp)
  · obtain ⟨states, hexpects, -⟩ := request_legal hrequest
    exact h.claimed_mem (h.expects_claimed hexpects)

theorem Booked.not_claimed (h : w.Booked policy) {candidate : PendingQueueJob}
    (hp : w.point = .claim candidate) : candidate.id ∉ w.claimed := by
  have hhand : w.point.hand = [candidate.id] := by rw [hp]; rfl
  obtain ⟨hworkers, hcounted⟩ := h.apart (Or.inl hhand)
  intro hclaimed
  have hplaces := (h.claimed candidate.id).mp hclaimed
  rw [hp] at hplaces
  rcases hplaces with hheld | hworker | hfinishing | ⟨c, -, hc⟩
  · exact absurd hheld List.not_mem_nil
  · exact hworkers hworker
  · exact absurd hfinishing List.not_mem_nil
  · exact hcounted c hc

theorem Booked.active_mem (h : w.Booked policy) (hid : id ∈ w.activeJobs) : ∃ job ∈ w.jobs, job.id = id := by
  refine h.mem_jobs ?_
  have hprogress := h.active.mem_iff.mp hid
  simp only [Pipeline.inProgress, Pipeline.items, List.mem_append] at hprogress ⊢
  tauto

/-- A step leaves alone what it does not concern. -/
theorem Effect.untouched (heffect : w.Effect db w' d) (hexec : w.point.executing = true)
    (hpoint : w.point.concerns ≠ some id) : Untouched id db d := by
  have hother : ∀ {other}, w.point.concerns = some other → id ≠ other := by
    rintro other hother rfl
    exact hpoint hother
  cases heffect with
  | none hsame => exact hsame id
  | claim candidate hp hm => exact hm.others id (hother (by rw [hp]; rfl))
  | request other s next code hrequest hm =>
    refine hm.others id (hother ?_)
    generalize w.point = point at hrequest
    cases point <;> first | (cases hrequest; rfl) | cases hrequest
  | abort error todo firstError other s target hp =>
    rw [hp] at hexec
    cases hexec

theorem Effect.claimed_subset (heffect : w.Effect db w' d) : w.claimed ⊆ w'.claimed := by
  cases heffect with
  | none _ hclaimed | request _ _ _ _ _ _ hclaimed | abort _ _ _ _ _ _ _ _ hclaimed =>
    rw [hclaimed]
    exact List.Subset.refl _
  | claim candidate _ _ hclaimed =>
    rw [hclaimed]
    exact List.subset_cons_self _ _

theorem Effect.claims_new (heffect : w.Effect db w' d) (hid : id ∈ w'.claimed) (hnew : id ∉ w.claimed) :
    ∃ candidate, w.point = .claim candidate ∧ candidate.id = id ∧ d.stateOf id = some .inspecting := by
  cases heffect with
  | none _ hclaimed | request _ _ _ _ _ _ hclaimed | abort _ _ _ _ _ _ _ _ hclaimed =>
    rw [hclaimed] at hid
    exact absurd hid hnew
  | claim candidate hp hm hclaimed =>
    rw [hclaimed] at hid
    obtain rfl := (List.mem_cons.mp hid).resolve_right hnew
    exact ⟨candidate, hp, rfl, hm.after⟩

theorem Advance.stops (hadv : w.Advance env db w' d) (hexec : w.point.executing = true)
    (hstop : w'.point.executing = false) :
    (∃ error, w'.point = .abortDrain error) ∧ w'.activeJobs = w.activeJobs ∧ w'.jobs = w.jobs := by
  cases hadv with
  | failed workers error => exact ⟨⟨error, rfl⟩, rfl, rfl⟩
  | drained _ hp | abortDone _ _ hp | abortSkipped _ _ _ _ _ hp | abortRequested _ _ _ _ _ _ hp
  | abortMoved _ _ _ _ _ _ _ hp | abortRefused _ _ _ _ _ _ hp =>
    rw [hp] at hexec
    cases hexec
  | enter | leave | rest | stop | wait | returned | accept | claimed | contended | inspected
  | started | received | sampled | readRunning | finished => cases hstop
  | prepared candidate verdict => cases verdict <;> cases hstop
  | joined index id point hp hworker hnext => obtain ⟨report, rfl⟩ | ⟨error, rfl⟩ := hnext <;> cases hstop
  | reported id report =>
    unfold afterReport at hstop
    split_ifs at hstop <;> cases hstop
  | readOther id after | marked id after => cases after <;> cases hstop

theorem Advance.jobs_eq (hadv : w.Advance env db w' d) : w'.jobs = w.jobs := by
  cases hadv with
  | prepared candidate verdict => cases verdict <;> rfl
  | readOther id after | marked id after => cases after <;> rfl
  | failed | drained | abortDone | abortSkipped | abortRequested | abortMoved | abortRefused
  | enter | leave | rest | stop | wait | returned | accept | claimed | contended | inspected
  | started | received | sampled | readRunning | finished | joined | reported => rfl

/-- A job is inspected after it has been claimed. -/
theorem Advance.inspects (hadv : w.Advance env db w' d) (hid : w'.point.inspects = some id) :
    ∃ candidate, w.point = .claim candidate ∧ candidate.id = id := by
  cases hadv with
  | claimed candidate db' hp => exact ⟨candidate, hp, Option.some.inj hid⟩
  | prepared candidate verdict => cases verdict <;> cases hid
  | readOther _ after | marked _ after => cases after <;> cases hid
  | joined index id point hp hworker hnext => obtain ⟨report, rfl⟩ | ⟨error, rfl⟩ := hnext <;> cases hid
  | reported id report =>
    unfold afterReport at hid
    split_ifs at hid <;> cases hid
  | failed | drained | abortDone | abortSkipped | abortRequested | abortMoved | abortRefused
  | enter | leave | rest | stop | wait | returned | accept | contended | inspected
  | started | received | sampled | readRunning | finished => cases hid

end Window

/-! ## The run without the changes -/

/-- What holds of a window of which no other process changes a claimed job. -/
structure Undisturbed (json : ReportJson) (policy : SchedulerPolicy) (s : QueueState) : Prop where
  sound : Sound json s.db
  executing : s.window.point.executing = true
  booked : s.window.Booked policy
  tracks : s.window.Tracks [] s.db

/-- What holds of it after a step, which may end the loop. -/
structure Stepped (json : ReportJson) (policy : SchedulerPolicy) (s : QueueState) : Prop where
  sound : Sound json s.db
  loop : s.window.point.executing = true → s.window.Booked policy ∧ s.window.Tracks [] s.db
  stops : s.window.point.executing = false → ∃ error, s.window.point = .abortDrain error
  active : ∀ id ∈ s.window.activeJobs, ∃ job ∈ s.window.jobs, job.id = id

section Undisturbed

variable {json : ReportJson} {policy : SchedulerPolicy} {env : StepEnv} {s t : QueueState} {w : Window}
  {x : Uuid} {after : Option Completion}

theorem Undisturbed.step (h : Undisturbed json policy s) (hstep : s.window.step env s.db = some (t.window, t.db)) :
    Stepped json policy t := by
  have hadv := Window.step_advance h.sound hstep
  constructor
  case sound => exact Writes.sound (Window.step_writes h.sound hstep) h.sound
  case loop => exact fun hexec => ⟨hadv.booked h.booked hexec, hadv.tracks h.booked (by decide) h.tracks hexec⟩
  case stops => exact fun hstop => (hadv.stops h.executing hstop).1
  case active =>
    intro id hid
    cases hexec : t.window.point.executing with
    | true => exact (hadv.booked h.booked hexec).active_mem hid
    | false =>
      obtain ⟨-, hactive, hjobs⟩ := hadv.stops h.executing hexec
      rw [hactive] at hid
      rw [hjobs]
      exact h.booked.active_mem hid

theorem Stepped.undisturbed (h : Stepped json policy s) (hexec : s.window.point.executing = true) :
    Undisturbed json policy s := ⟨h.sound, hexec, (h.loop hexec).1, (h.loop hexec).2⟩

theorem trace_step {d : Database} (hstep : s.window.step env s.db = some (w, d)) :
    Common.Trace (QueueStep json) s [.step env] ⟨w, d⟩ := by
  have hqueue : QueueStep json s (.step env) ⟨w, d⟩ := hstep
  exact .cons hqueue .nil

/-- The run without the changes makes up for the mark of the job. -/
structure Marked (json : ReportJson) (policy : SchedulerPolicy) (env : StepEnv) (x : Uuid) (s : QueueState)
    (w : Window) (row' : JobRow) (n : ℕ) (d : Database) : Prop where
  few : n ≤ 2
  run : Common.Trace (QueueStep json) s (List.replicate n (.step env)) ⟨w, d⟩
  stepped : Stepped json policy ⟨w, d⟩
  others : ∀ id, id ≠ x → Untouched id s.db d
  /-- The number has grown when the job was `Running`, and it is not any more. -/
  row : ∃ row'', d.job? x = some row'' ∧ row''.outputPath = row'.outputPath ∧ row''.state ≠ .running ∧
    row''.sequence = row'.sequence + if row'.state = .running then 1 else 0

theorem Undisturbed.marked (h : Undisturbed json policy s) (hp : s.window.point = .markRead x after)
    {row' : JobRow} (hrow : s.db.job? x = some row') (hfault : env.call.fault = none)
    (hroom : row'.state = .running → row'.sequence + 1 < sqliteIntegerLimit) :
    ∃ n d, Marked json policy env x s (s.window.afterMark x after) row' n d := by
  obtain ⟨hmem, rfl⟩ := mem_of_job? hrow
  have hget : getJob env.call s.db row'.id = .ok (some (jobRecordFromRow row')) := by
    unfold getJob
    rw [hfault, hrow]
    rfl
  by_cases hrunning : row'.state = .running
  · have hread : s.window.step env s.db = some (s.window.goto (.markMove row'.id after), s.db) := by
      simp only [Window.step, hp, Window.markRead, hget, jobRecordFromRow, hrunning, if_true]
    have hmid : Undisturbed json policy ⟨s.window.goto (.markMove row'.id after), s.db⟩ :=
      Stepped.undisturbed (h.step hread) rfl
    have hlegal : row'.state.canTransitionTo .validating = true := by rw [hrunning]; rfl
    obtain ⟨d, rs, hok, hm⟩ :=
      transition_of_legal h.sound hmem hlegal (by decide) (hroom hrunning) hfault "ENGINE_FINISHED"
    have hmove : (s.window.goto (.markMove row'.id after)).step env s.db =
        some (s.window.afterMark row'.id after, d) := by
      show some ((s.window.goto _).attempt (transition env.call s.db row'.id .validating "ENGINE_FINISHED") _) = _
      rw [hok]
      cases after <;> rfl
    refine ⟨2, d, le_rfl, (trace_step hread).append (trace_step (s := ⟨_, s.db⟩) hmove), hmid.step hmove,
      fun id hne => hm.untouched hne, ?_⟩
    refine ⟨_, hm.job? h.sound, rfl, ?_, ?_⟩
    · exact (by decide : JobState.validating ≠ .running)
    · rw [if_pos hrunning]
      rfl
  · have hread : s.window.step env s.db = some (s.window.afterMark row'.id after, s.db) := by
      simp only [Window.step, hp, Window.markRead, hget, jobRecordFromRow, if_neg hrunning]
    refine ⟨1, s.db, by decide, trace_step hread, h.step hread, fun id _ => .refl id s.db, ?_⟩
    exact ⟨row', hrow, rfl, hrunning, by rw [if_neg hrunning]; rfl⟩

end Undisturbed

/-! ## The two runs -/

/-- The windows of the two loops: the same, or the one without the changes has yet to read the mark
    of the job. -/
inductive SameWindow (x : Uuid) : Window → Window → Prop
  | same (w : Window) : SameWindow x w w
  | behind (w : Window) (after : Option Completion) : w.point = .markRead x after →
      SameWindow x (w.goto (.markMove x after)) w

/-- Both loops are running. `key` is the reservation of the job when it is claimed. -/
structure InLoop (json : ReportJson) (policy : SchedulerPolicy) (x : Uuid) (key : Option String)
    (s s' : QueueState) : Prop where
  sound : Sound json s.db
  windows : SameWindow x s.window s'.window
  undisturbed : Undisturbed json policy s'
  others : ∀ job ∈ s'.window.jobs, job.id ≠ x ∨ x ∉ s'.window.claimed → Untouched job.id s.db s'.db
  ahead : x ∈ s'.window.claimed → s.db.Ahead x s'.db
  reserved : s'.window.point.inspects = some x → s'.db.ownedKey x = key

/-- Where two aborts stand. -/
inductive AbortPair (x : Uuid) : Point → Point → Prop
  | drain (e e' : AnoleError) : AbortPair x (.abortDrain e) (.abortDrain e')
  | loop (e e' : AnoleError) (todo : List Uuid) (f f' : Option AnoleError) :
      AbortPair x (.abort e todo f) (.abort e' todo f')
  | behind (e e' : AnoleError) (todo : List Uuid) (f f' : Option AnoleError) (target : JobState) :
      AbortPair x (.abortMove e todo f x target) (.abort e' (x :: todo) f')
  | move (e e' : AnoleError) (todo : List Uuid) (f f' : Option AnoleError) (id : Uuid) (target : JobState) :
      id ≠ x → target ≠ .queued → AbortPair x (.abortMove e todo f id target) (.abortMove e' todo f' id target)
  | done (e e' : AnoleError) : AbortPair x (.done (.error e)) (.done (.error e'))

/-- The jobs an abort has yet to move. -/
def Window.toAbort (w : Window) : List Uuid :=
  match w.point with
  | .abortDrain _ => w.activeJobs
  | .abort _ todo _ => todo
  | .abortMove _ todo _ id _ => id :: todo
  | _ => []

/-- What two aborting windows share. -/
structure SameBooks (w w' : Window) : Prop where
  jobs : w'.jobs = w.jobs
  workers : w'.workers = w.workers
  activeJobs : w'.activeJobs = w.activeJobs
  counted : w'.counted = w.counted

/-- Both loops have ended with an error. -/
structure InAbort (json : ReportJson) (x : Uuid) (s s' : QueueState) : Prop where
  sound : Sound json s.db
  sound' : Sound json s'.db
  point : AbortPair x s.window.point s'.window.point
  books : SameBooks s.window s'.window
  listed : ∀ id ∈ s.window.toAbort, ∃ job ∈ s.window.jobs, job.id = id
  others : ∀ job ∈ s.window.jobs, job.id ≠ x → Untouched job.id s.db s'.db

/-- A run in which one job is changed, and a run without the changes. -/
inductive Alike (json : ReportJson) (policy : SchedulerPolicy) (x : Uuid) (key : Option String)
    (s s' : QueueState) : Prop
  | loop : InLoop json policy x key s s' → Alike json policy x key s s'
  | abort : InAbort json x s s' → Alike json policy x key s s'

/-- Other processes change at most this job of the window, and only when the window has claimed it. -/
def ChangesOnly (x : Uuid) (s : QueueState) (label : QueueLabel) (t : QueueState) : Prop :=
  match label with
  | .other _ => ∀ job ∈ s.window.jobs, job.id ≠ x ∨ x ∉ s.window.claimed → Untouched job.id s.db t.db
  | _ => True

/-- The loop can go on with the job: the transition it requests is permitted, and the job is inspected
    with the reservation it was claimed with. -/
def Allows (x : Uuid) (key : Option String) (s : QueueState) (label : QueueLabel) : Prop :=
  match label with
  | .step _ => (∀ request ∈ s.window.point.request, request.1 = x → s.db.Permits x request.2.1) ∧
      (s.window.point.reserving = some x → s.db.ownedKey x = key)
  | _ => True

instance (x : Uuid) (s : QueueState) (label : QueueLabel) (t : QueueState) : Decidable (ChangesOnly x s label t) :=
  match label with
  | .other _ => List.decidableBAll _ s.window.jobs
  | .step _ | .event _ => inferInstanceAs (Decidable True)

instance (x : Uuid) (key : Option String) (s : QueueState) (label : QueueLabel) : Decidable (Allows x key s label) :=
  match label with
  | .step _ => @instDecidableAnd _ _ (Option.decidableForallMem s.window.point.request) inferInstance
  | .other _ | .event _ => inferInstanceAs (Decidable True)

/-- What the run without the changes does when the other takes a step: it sees the same events, and
    not the calls of the other processes. -/
inductive Follows : QueueLabel → List QueueLabel → Prop
  | step (env : StepEnv) (n : ℕ) : n ≤ 2 → Follows (.step env) (List.replicate n (.step env))
  | event (event : WindowEvent) : Follows (.event event) [.event event]
  | other (label : StoreLabel) : Follows (.other label) []

section Runs

variable {json : ReportJson} {policy : SchedulerPolicy} {env : StepEnv} {s s' t : QueueState} {w w' : Window}
  {x : Uuid} {key : Option String} {db db' d d' : Database} {after : Option Completion}

theorem SameBooks.refl (w : Window) : SameBooks w w := ⟨rfl, rfl, rfl, rfl⟩

theorem SameBooks.trans {u v w : Window} (h : SameBooks u v) (h' : SameBooks v w) : SameBooks u w :=
  ⟨h'.jobs.trans h.jobs, h'.workers.trans h.workers, h'.activeJobs.trans h.activeJobs,
    h'.counted.trans h.counted⟩

theorem SameBooks.symm {v w : Window} (h : SameBooks v w) : SameBooks w v :=
  ⟨h.jobs.symm, h.workers.symm, h.activeJobs.symm, h.counted.symm⟩

theorem alike_of_same (hsound : Sound json d) (hstepped : Stepped json policy ⟨w, d'⟩)
    (hothers : ∀ job ∈ w.jobs, job.id ≠ x ∨ x ∉ w.claimed → Untouched job.id d d')
    (hahead : x ∈ w.claimed → d.Ahead x d') (hreserved : w.point.inspects = some x → d'.ownedKey x = key) :
    Alike json policy x key ⟨w, d⟩ ⟨w, d'⟩ := by
  cases hexec : w.point.executing with
  | true => exact .loop ⟨hsound, .same w, hstepped.undisturbed hexec, hothers, hahead, hreserved⟩
  | false =>
    obtain ⟨error, hpoint⟩ := hstepped.stops hexec
    dsimp only at hpoint
    refine .abort ⟨hsound, hstepped.sound, ?_, .refl w, fun id hid => ?_, fun job hjob hne => ?_⟩
    · rw [hpoint]
      exact .drain error error
    · unfold Window.toAbort at hid
      dsimp only at hid
      rw [hpoint] at hid
      exact hstepped.active id hid
    · exact hothers job hjob (Or.inl hne)

/-- A step of both loops to the same window that does not concern the changed job, or is its claim. -/
theorem InLoop.pair (hs : InLoop json policy x key ⟨w, db⟩ ⟨w, db'⟩)
    (hapart : w.point.concerns = some x → x ∉ w.claimed) (hkey : w.point.reserving = some x → db.ownedKey x = key)
    (hstep : w.step env db = some (w', d)) :
    ∃ d', w.step env db' = some (w', d') ∧ Alike json policy x key ⟨w', d⟩ ⟨w', d'⟩ := by
  have hund := hs.undisturbed
  have hsame : ∀ id, w.point.concerns = some id → Untouched id db db' := by
    intro id hid
    obtain ⟨job, hjob, rfl⟩ := hund.booked.concerns_mem hund.executing hid
    refine hs.others job hjob ?_
    by_cases heq : job.id = x
    · exact Or.inr (hapart (heq ▸ hid))
    · exact Or.inl heq
  obtain ⟨d', hpair⟩ := Window.step_pair hs.sound hund.sound hund.executing hsame hstep
  have heffect := (Window.step_advance hs.sound hstep).effect
  have hadv := Window.step_advance hund.sound hpair.step
  have heffect' := hadv.effect
  refine ⟨d', hpair.step, alike_of_same ?_ (hund.step (t := ⟨w', d'⟩) hpair.step) ?_ ?_ ?_⟩
  · exact Writes.sound (Window.step_writes hs.sound hstep) hs.sound
  · intro job hjob hone
    rw [hadv.jobs_eq] at hjob
    exact hpair.agree job.id (hs.others job hjob (hone.imp_right fun hx hmem => hx (heffect.claimed_subset hmem)))
  · intro hmem
    by_cases hx : x ∈ w.claimed
    · have hconcerns : w.point.concerns ≠ some x := fun heq => hapart heq hx
      exact (hs.ahead hx).untouched (heffect.untouched hund.executing hconcerns)
        (heffect'.untouched hund.executing hconcerns)
    · obtain ⟨c, hp, rfl, hstate⟩ := heffect'.claims_new hmem hx
      exact (hpair.agree c.id (hsame c.id (by rw [hp]; rfl))).ahead ⟨_, hstate⟩
  · intro hinspects
    obtain ⟨c, hp, rfl⟩ := hadv.inspects hinspects
    have hdb' : db'.ownedKey c.id = key := by
      rw [(hsame c.id (by rw [hp]; rfl)).reservation]
      exact hkey (by rw [hp]; rfl)
    have hresult : d' = (claimQueuedJob env.call db' c.id "QUEUE_REINSPECTING").2 := by
      have hstep' := hpair.step
      rw [Window.step, hp] at hstep'
      exact (congrArg Prod.snd (Option.some.inj hstep')).symm.trans (Window.attempt_snd _ _ _)
    rw [hresult, claimQueuedJob_ownedKey hund.sound, hdb']

/-- Steps to one window that leave both stores alone. -/
theorem InLoop.stay (hs : InLoop json policy x key ⟨w, db⟩ ⟨w, db'⟩) (hstep : w.step env db' = some (w', db'))
    (hclaimed : w'.claimed = w.claimed) (hinspects : w'.point.inspects ≠ some x) :
    Alike json policy x key ⟨w', db⟩ ⟨w', db'⟩ := by
  have hadv := Window.step_advance hs.undisturbed.sound hstep
  refine alike_of_same hs.sound (hs.undisturbed.step (t := ⟨w', db'⟩) hstep) ?_ ?_ fun heq => absurd heq hinspects
  · intro job hjob hone
    rw [hadv.jobs_eq] at hjob
    rw [hclaimed] at hone
    exact hs.others job hjob hone
  · intro hmem
    rw [hclaimed] at hmem
    exact hs.ahead hmem

/-- The transition that both loops request for the changed job. -/
theorem InLoop.request (hs : InLoop json policy x key ⟨w, db⟩ ⟨w, db'⟩) {next : JobState} {code : String}
    (hrequest : w.point.request = some (x, next, code)) (hpermits : db.Permits x next)
    (hstep : w.step env db = some (w', d)) :
    ∃ d', w.step env db' = some (w', d') ∧ Alike json policy x key ⟨w', d⟩ ⟨w', d'⟩ := by
  have hund := hs.undisturbed
  obtain ⟨after, hattempt⟩ := Window.step_request hrequest env
  obtain ⟨states, hexpects, hlegal⟩ := request_legal hrequest
  have hclaimed := hund.booked.expects_claimed hexpects
  have hnext := request_ne_queued hrequest
  rw [hattempt] at hstep
  cases hfault : env.call.fault with
  | some error =>
    rw [transition_of_fault hfault] at hstep
    cases hstep
    have hstep' : w.step env db' = some (w.fail error, db') := by
      rw [hattempt, transition_of_fault hfault]
      rfl
    exact ⟨db', hstep', hs.stay hstep' rfl nofun⟩
  | none =>
    obtain ⟨record, row, rs, d₁, hok, hm⟩ := hpermits.transition hs.sound hnext hfault code
    rw [hok] at hstep
    cases hstep
    obtain ⟨state, hmem, hstate⟩ := hund.tracks.point x states hexpects
    rw [List.append_nil] at hmem
    have hpermits' := (hs.ahead hclaimed).permits hs.sound hpermits hstate (hlegal state hmem)
    obtain ⟨record', row', rs', d', hok', hm'⟩ := hpermits'.transition hund.sound hnext hfault code
    have hstep' : w.step env db' = some (after, d') := by
      rw [hattempt, hok']
      rfl
    have hadv := Window.step_advance hund.sound hstep'
    refine ⟨d', hstep', alike_of_same (hm.write.sound hs.sound) (hund.step (t := ⟨after, d'⟩) hstep') ?_ ?_ ?_⟩
    · intro job hjob hone
      rw [hadv.jobs_eq] at hjob
      have hne : job.id ≠ x := hone.resolve_right fun hx => hx (hadv.effect.claimed_subset hclaimed)
      exact ((hm.untouched hne).symm.trans (hs.others job hjob (Or.inl hne))).trans (hm'.untouched hne)
    · exact fun _ => (hs.ahead hclaimed).moves hs.sound hund.sound hm hm'
    · intro hinspects
      obtain ⟨c, hp, -⟩ := hadv.inspects hinspects
      rw [hp] at hrequest
      cases hrequest

/-- The check of the reservation of the changed job. -/
theorem InLoop.inspect (hs : InLoop json policy x key ⟨w, db⟩ ⟨w, db'⟩) {candidate : PendingQueueJob}
    (hp : w.point = .inspect candidate) (hid : candidate.id = x) (hkey : db.ownedKey x = key)
    (hstep : w.step env db = some (w', d)) :
    ∃ d', w.step env db' = some (w', d') ∧ Alike json policy x key ⟨w', d⟩ ⟨w', d'⟩ := by
  have hund := hs.undisturbed
  have hexpects : w.point.expects = some (x, [.inspecting]) := by rw [hp, ← hid]; rfl
  have hclaimed : x ∈ w.claimed := hund.booked.expects_claimed hexpects
  obtain ⟨row, row', hrow, hrow', hrows⟩ := hs.ahead hclaimed
  have hkey' : db'.ownedKey x = key := hs.reserved (by rw [hp, ← hid]; rfl)
  have hcheck : w.inspect env db' candidate = w.inspect env db candidate := by
    subst hid
    rw [Window.inspect, Window.inspect, validateOutputReservation_same env.call ?_ (hkey'.trans hkey.symm)]
    rw [hrow, hrow', Option.map_some, Option.map_some, hrows.outputPath]
  simp only [Window.step, hp, Option.some.injEq, Prod.mk.injEq] at hstep
  obtain ⟨rfl, rfl⟩ := hstep
  have hstep' : w.step env db' = some (w.inspect env db candidate, db') := by
    simp only [Window.step, hp, hcheck]
  have hadv := Window.step_advance hund.sound hstep'
  refine ⟨db', hstep', hs.stay hstep' ?_ fun hinspects => ?_⟩
  · unfold Window.inspect
    split
    · split_ifs <;> rfl
    · rfl
  · obtain ⟨c, hclaim, -⟩ := hadv.inspects hinspects
    rw [hp] at hclaim
    cases hclaim

theorem markRead_of_fault {error : AnoleError} (hp : w.point = .markRead x after)
    (hfault : env.call.fault = some error) (db : Database) : w.step env db = some (w.fail error, db) := by
  simp only [Window.step, hp, Window.markRead, getJob_of_fault hfault]

/-- The run without the changes makes up for a mark that the other run has made or has found made. -/
theorem InLoop.catch_up (hs : InLoop json policy x key s ⟨w, db'⟩)
    (hp : w.point = .markRead x after) (hfault : env.call.fault = none) (hsound : Sound json d)
    (hothers : ∀ id, id ≠ x → Untouched id s.db d) {row row' : JobRow} (hrow : d.job? x = some row)
    (hrow' : db'.job? x = some row') (hpath : row'.outputPath = row.outputPath)
    (hroom : row'.sequence + (if row'.state = .running then 1 else 0) ≤ row.sequence) :
    ∃ n t', n ≤ 2 ∧ Common.Trace (QueueStep json) ⟨w, db'⟩ (List.replicate n (.step env)) t' ∧
      Alike json policy x key ⟨w.afterMark x after, d⟩ t' := by
  have hund := hs.undisturbed
  have hlimit : row'.state = .running → row'.sequence + 1 < sqliteIntegerLimit := by
    intro hrunning
    rw [if_pos hrunning] at hroom
    obtain ⟨hmem, -⟩ := mem_of_job? hrow
    exact lt_of_le_of_lt hroom (hsound.jobs.sequence row hmem)
  obtain ⟨n, d', hmarked⟩ := hund.marked hp hrow' hfault hlimit
  obtain ⟨row'', hrow'', hpath'', hstate'', hsequence⟩ := hmarked.row
  have hjobs : (w.afterMark x after).jobs = w.jobs := by cases after <;> rfl
  have hclaims : (w.afterMark x after).claimed = w.claimed := by cases after <;> rfl
  have hclaimed : x ∈ w.claimed := hund.booked.read_claimed hp
  refine ⟨n, _, hmarked.few, hmarked.run, alike_of_same hsound hmarked.stepped ?_ ?_ ?_⟩
  · intro job hjob hone
    rw [hjobs] at hjob
    rw [hclaims] at hone
    have hne : job.id ≠ x := hone.resolve_right fun hx => hx hclaimed
    have hdb := hothers job.id hne
    exact (hdb.symm.trans (hs.others job hjob (Or.inl hne))).trans (hmarked.others job.id hne)
  · refine fun _ => ⟨row, row'', hrow, hrow'', hpath''.trans hpath, ?_, fun hrunning => absurd hrunning hstate''⟩
    rw [hsequence]
    exact hroom
  · intro hinspects
    cases after <;> cases hinspects

theorem InLoop.read (hs : InLoop json policy x key ⟨w, db⟩ ⟨w, db'⟩)
    (hp : w.point = .markRead x after) (hstep : w.step env db = some (w', d)) :
    ∃ n t', n ≤ 2 ∧ Common.Trace (QueueStep json) ⟨w, db'⟩ (List.replicate n (.step env)) t' ∧
      Alike json policy x key ⟨w', d⟩ t' := by
  have hund := hs.undisturbed
  cases hfault : env.call.fault with
  | some error =>
    rw [markRead_of_fault hp hfault] at hstep
    cases hstep
    have hstep' := markRead_of_fault hp hfault db'
    exact ⟨1, _, by decide, trace_step hstep', hs.stay hstep' rfl nofun⟩
  | none =>
    obtain ⟨row, row', hrow, hrow', hrows⟩ := hs.ahead (hund.booked.read_claimed hp)
    have hget : getJob env.call db x = .ok (some (jobRecordFromRow row)) := by
      unfold getJob
      rw [hfault, hrow]
      rfl
    by_cases hrunning : row.state = .running
    · -- the window goes on to move the job; the other run waits
      simp only [Window.step, hp, Window.markRead, hget, jobRecordFromRow, hrunning, if_true, Option.some.injEq,
        Prod.mk.injEq] at hstep
      obtain ⟨rfl, rfl⟩ := hstep
      exact ⟨0, _, by decide, .nil, .loop { hs with windows := .behind w after hp }⟩
    · simp only [Window.step, hp, Window.markRead, hget, jobRecordFromRow, if_neg hrunning, Option.some.injEq,
        Prod.mk.injEq] at hstep
      obtain ⟨rfl, rfl⟩ := hstep
      refine hs.catch_up hp hfault hs.sound (fun id _ => .refl id db) hrow hrow' hrows.outputPath ?_
      split_ifs with hrunning'
      · exact hrows.running hrunning' hrunning
      · exact hrows.sequence

/-- The mark of the changed job is made, and the other run makes up for it. -/
theorem InLoop.mark (hs : InLoop json policy x key ⟨w.goto (.markMove x after), db⟩ ⟨w, db'⟩)
    (hp : w.point = .markRead x after) (hpermits : db.Permits x .validating)
    (hstep : (w.goto (.markMove x after)).step env db = some (w', d)) :
    ∃ n t', n ≤ 2 ∧ Common.Trace (QueueStep json) ⟨w, db'⟩ (List.replicate n (.step env)) t' ∧
      Alike json policy x key ⟨w', d⟩ t' := by
  have hund := hs.undisturbed
  have hmove : (w.goto (.markMove x after)).step env db = some ((w.goto (.markMove x after)).attempt
      (transition env.call db x .validating "ENGINE_FINISHED") fun _ => w.afterMark x after) := by
    cases after <;> rfl
  rw [hmove] at hstep
  cases hfault : env.call.fault with
  | some error =>
    rw [transition_of_fault hfault] at hstep
    cases hstep
    have hsame : InLoop json policy x key ⟨w, db⟩ ⟨w, db'⟩ := { hs with windows := .same w }
    have hstep' := markRead_of_fault hp hfault db'
    exact ⟨1, _, by decide, trace_step hstep', hsame.stay hstep' rfl nofun⟩
  | none =>
    obtain ⟨record, row, rs, d₁, hok, hm⟩ := hpermits.transition hs.sound (by decide) hfault "ENGINE_FINISHED"
    rw [hok] at hstep
    cases hstep
    obtain ⟨r, row', hr, hrow', hrows⟩ := hs.ahead (hund.booked.read_claimed hp)
    have hrow : db.job? x = some row := by rw [← hm.jobId, job?_of_mem hs.sound.jobs.jobIds hm.mem]
    rw [hrow] at hr
    obtain rfl := Option.some.inj hr
    refine hs.catch_up hp hfault (hm.write.sound hs.sound) (fun id hne => hm.untouched hne) (hm.job? hs.sound)
      hrow' hrows.outputPath ?_
    have hle := hrows.sequence
    show row'.sequence + _ ≤ row.sequence + 1
    split_ifs <;> omega

/-- **A step of a loop with changes** is followed by the loop without. -/
theorem InLoop.step (hs : InLoop json policy x key s s') (hallows : Allows x key s (.step env))
    (hstep : s.window.step env s.db = some (t.window, t.db)) :
    ∃ n t', n ≤ 2 ∧ Common.Trace (QueueStep json) s' (List.replicate n (.step env)) t' ∧
      Alike json policy x key t t' := by
  obtain ⟨w, db⟩ := s
  obtain ⟨v, db'⟩ := s'
  obtain ⟨w', d⟩ := t
  obtain ⟨hpermits, hkey⟩ := hallows
  dsimp only at hstep hpermits hkey
  have hund := hs.undisturbed
  have hone : (∃ d', v.step env db' = some (w', d') ∧ Alike json policy x key ⟨w', d⟩ ⟨w', d'⟩) →
      ∃ n t', n ≤ 2 ∧ Common.Trace (QueueStep json) ⟨v, db'⟩ (List.replicate n (.step env)) t' ∧
        Alike json policy x key ⟨w', d⟩ t' := by
    rintro ⟨d', hstep', halike⟩
    exact ⟨1, _, by decide, trace_step hstep', halike⟩
  cases hs.windows with
  | behind _ after hp => exact hs.mark hp (hpermits _ rfl rfl) hstep
  | same _ =>
    by_cases hapart : w.point.concerns = some x → x ∉ w.claimed
    · exact hone (hs.pair hapart hkey hstep)
    · obtain ⟨hconcerns, hclaimed⟩ := Classical.not_imp.mp hapart
      obtain ⟨c, hp, rfl⟩ | ⟨c, hp, hid⟩ | ⟨after, hp⟩ | ⟨next, code, hrequest⟩ :=
        Point.concerns_cases hund.executing hconcerns
      · exact absurd (not_not.mp hclaimed) (hund.booked.not_claimed hp)
      · exact hone (hs.inspect hp hid (hkey (by rw [hp, ← hid]; rfl)) hstep)
      · exact hs.read hp hstep
      · exact hone (hs.request hrequest (hpermits _ hrequest rfl) hstep)

/-! ### The aborts -/

theorem abortRead_point (env : StepEnv) (w : Window) (db : Database) (e : AnoleError) (id : Uuid)
    (todo : List Uuid) (f : Option AnoleError) :
    ((∃ f', (w.abortRead env db e id todo f).point = .abort e todo f') ∨
      ∃ target, target ≠ .queued ∧ (w.abortRead env db e id todo f).point = .abortMove e todo f id target) ∧
    SameBooks w (w.abortRead env db e id todo f) := by
  unfold Window.abortRead
  cases getJob env.call db id with
  | error cleanup => exact ⟨.inl ⟨_, rfl⟩, ⟨rfl, rfl, rfl, rfl⟩⟩
  | ok job =>
    cases job with
    | none => exact ⟨.inl ⟨_, rfl⟩, ⟨rfl, rfl, rfl, rfl⟩⟩
    | some job =>
      dsimp only
      cases htarget : abortTarget job.state with
      | none => exact ⟨.inl ⟨_, rfl⟩, ⟨rfl, rfl, rfl, rfl⟩⟩
      | some target =>
        have hrest := abortTarget_mem htarget
        refine ⟨.inr ⟨target, ?_, rfl⟩, rfl, rfl, rfl, rfl⟩
        rintro rfl
        exact absurd hrest (by decide)

/-- Two aborts read the same of a job that is the same. -/
theorem abortRead_pair (env : StepEnv) (w v : Window) (e e' : AnoleError) {id : Uuid} (todo : List Uuid)
    (f f' : Option AnoleError) (hne : id ≠ x) (hsame : Untouched id db db') :
    AbortPair x (w.abortRead env db e id todo f).point (v.abortRead env db' e' id todo f').point := by
  unfold Window.abortRead
  rw [getJob_same env.call hsame]
  cases getJob env.call db id with
  | error cleanup => exact .loop e e' todo _ _
  | ok job =>
    cases job with
    | none => exact .loop e e' todo f f'
    | some job =>
      dsimp only
      cases htarget : abortTarget job.state with
      | none => exact .loop e e' todo f f'
      | some target =>
        have hrest := abortTarget_mem htarget
        refine .move e e' todo f f' id target hne ?_
        rintro rfl
        exact absurd hrest (by decide)

/-- What the abort does when it requests a transition. -/
theorem abortMove_frame (env : StepEnv) (w : Window) (h : Sound json db) (e : AnoleError) (todo : List Uuid)
    (f : Option AnoleError) (id : Uuid) (target : JobState) :
    ∃ f' d, w.abortMove e todo f (transition env.call db id target "CONTROL_PLANE_FAILED") =
        (w.goto (.abort e todo f'), d) ∧
      d = (transition env.call db id target "CONTROL_PLANE_FAILED").2 ∧ Sound json d ∧
      ∀ other, other ≠ id → Untouched other db d := by
  have hwrites := transition_writes env.call h id target "CONTROL_PLANE_FAILED"
  cases hcall : transition env.call db id target "CONTROL_PLANE_FAILED" with
  | mk result d =>
    rw [hcall] at hwrites
    obtain ⟨error, rfl, rfl⟩ | ⟨record, state, rfl, hm⟩ := transition_cases h hcall
    · exact ⟨_, _, rfl, rfl, h, fun other _ => .refl other d⟩
    · exact ⟨_, _, rfl, rfl, Writes.sound hwrites h, hm.others⟩

/-- The abort without the changes makes up for what the other has done with the changed job. -/
theorem abort_reaches (env : StepEnv) (w : Window) (h : Sound json db) {e : AnoleError} {todo : List Uuid}
    {f : Option AnoleError} (hp : w.point = .abort e (x :: todo) f) :
    ∃ n t' f', n ≤ 2 ∧ Common.Trace (QueueStep json) ⟨w, db⟩ (List.replicate n (.step env)) t' ∧ Sound json t'.db ∧
      t'.window.point = .abort e todo f' ∧ SameBooks w t'.window ∧
      ∀ id, id ≠ x → Untouched id db t'.db := by
  have hstep : w.step env db = some (w.abortRead env db e x todo f, db) := by
    simp only [Window.step, hp]
  obtain ⟨⟨f', hnext⟩ | ⟨target, -, hnext⟩, hbooks⟩ := abortRead_point env w db e x todo f
  · exact ⟨1, _, f', by decide, trace_step hstep, h, hnext, hbooks, fun id _ => .refl id _⟩
  · obtain ⟨f', d, hresult, -, hsound, hothers⟩ :=
      abortMove_frame env (w.abortRead env db e x todo f) h e todo f x target
    have hmove : (w.abortRead env db e x todo f).step env db =
        some ((w.abortRead env db e x todo f).goto (.abort e todo f'), d) := by
      simp only [Window.step, hnext, hresult]
    have hlast : SameBooks w ((w.abortRead env db e x todo f).goto (.abort e todo f')) :=
      hbooks.trans ⟨rfl, rfl, rfl, rfl⟩
    exact ⟨2, _, f', le_rfl, (trace_step hstep).append (trace_step (s := ⟨_, db⟩) hmove), hsound, rfl, hlast,
      hothers⟩

/-- **A step of an abort** is followed by the abort without the changes. -/
theorem InAbort.step (hs : InAbort json x s s') (hstep : s.window.step env s.db = some (t.window, t.db)) :
    ∃ n t', n ≤ 2 ∧ Common.Trace (QueueStep json) s' (List.replicate n (.step env)) t' ∧ InAbort json x t t' := by
  obtain ⟨w, db⟩ := s
  obtain ⟨v, db'⟩ := s'
  obtain ⟨w', d⟩ := t
  obtain ⟨hsound, hsound', hpoint, hbooks, hlisted, hothers⟩ := hs
  dsimp only at hsound hsound' hpoint hbooks hlisted hothers hstep
  unfold Window.toAbort at hlisted
  generalize hp : w.point = p at hpoint hlisted
  generalize hp' : v.point = p' at hpoint
  cases hpoint with
  | drain e e' =>
    simp only [Window.step, hp, Option.ite_none_right_eq_some, Option.some.injEq, Prod.mk.injEq] at hstep
    obtain ⟨horder, rfl, rfl⟩ := hstep
    have hstep' : v.step env db' = some (v.drain env e', db') := by
      simp only [Window.step, hp', hbooks.activeJobs, horder, if_true]
    refine ⟨1, _, by decide, trace_step hstep', hsound, hsound', .loop e e' env.order none none, ?_, ?_, hothers⟩
    · exact ⟨hbooks.jobs, rfl, hbooks.activeJobs, hbooks.counted⟩
    · intro id hid
      exact hlisted id ((List.isPerm_iff.mp horder).mem_iff.mp hid)
  | loop e e' todo f f' =>
    cases todo with
    | nil =>
      simp only [Window.step, hp, Option.some.injEq, Prod.mk.injEq] at hstep
      obtain ⟨rfl, rfl⟩ := hstep
      have hstep' : v.step env db' = some (v.goto (.done (.error (withCleanup e' f'))), db') := by
        simp only [Window.step, hp']
      refine ⟨1, _, by decide, trace_step hstep', hsound, hsound', .done _ _, ?_, ?_, hothers⟩
      · exact ⟨hbooks.jobs, hbooks.workers, hbooks.activeJobs, hbooks.counted⟩
      · exact fun id hid => absurd hid List.not_mem_nil
    | cons id todo =>
      simp only [Window.step, hp, Option.some.injEq, Prod.mk.injEq] at hstep
      obtain ⟨rfl, rfl⟩ := hstep
      obtain ⟨hnext, hread⟩ := abortRead_point env w db e id todo f
      obtain ⟨job, hjob, hid⟩ := hlisted id List.mem_cons_self
      have hjobs : ∀ job ∈ (w.abortRead env db e id todo f).jobs, job.id ≠ x → Untouched job.id db db' := by
        rw [hread.jobs]
        exact hothers
      have hrest : ∀ other ∈ (w.abortRead env db e id todo f).toAbort, ∃ job ∈ (w.abortRead env db e id todo f).jobs,
          job.id = other := by
        rw [hread.jobs]
        intro other hother
        unfold Window.toAbort at hother
        obtain ⟨f₁, hnext⟩ | ⟨target, -, hnext⟩ := hnext
        · rw [hnext] at hother
          exact hlisted other (List.mem_cons_of_mem _ hother)
        · rw [hnext] at hother
          exact hlisted other hother
      by_cases hx : id = x
      · subst hx
        obtain ⟨f₁, hnext⟩ | ⟨target, -, hnext⟩ := hnext
        · obtain ⟨n, ⟨v', d'⟩, f₂, hn, hrun, hd', hreached, hsame, hleft⟩ := abort_reaches env v hsound' hp'
          have hall := (hread.symm.trans hbooks).trans hsame
          dsimp only at hreached hleft
          refine ⟨n, _, hn, hrun, hsound, hd', ?_, hall, hrest, fun job hjob hne => ?_⟩
          · rw [hnext, hreached]
            exact .loop e e' todo f₁ f₂
          · exact (hjobs job hjob hne).trans (hleft job.id hne)
        · refine ⟨0, ⟨v, db'⟩, by decide, .nil, hsound, hsound', ?_, hread.symm.trans hbooks, hrest, hjobs⟩
          rw [hnext, hp']
          exact .behind e e' todo f f' target
      · have hsame : Untouched id db db' := by
          rw [← hid] at hx ⊢
          exact hothers job hjob hx
        obtain ⟨-, hread'⟩ := abortRead_point env v db' e' id todo f'
        have hstep' : v.step env db' = some (v.abortRead env db' e' id todo f', db') := by
          simp only [Window.step, hp']
        exact ⟨1, _, by decide, trace_step hstep', hsound, hsound', abortRead_pair env w v e e' todo f f' hx hsame,
          (hread.symm.trans hbooks).trans hread', hrest, hjobs⟩
  | behind e e' todo f f' target =>
    obtain ⟨f₁, d₁, hresult, -, hd, hleft⟩ := abortMove_frame env w hsound e todo f x target
    simp only [Window.step, hp, hresult, Option.some.injEq, Prod.mk.injEq] at hstep
    obtain ⟨rfl, rfl⟩ := hstep
    obtain ⟨n, ⟨v', d'⟩, f₂, hn, hrun, hd', hreached, hsame, hleft'⟩ := abort_reaches env v hsound' hp'
    dsimp only at hreached hleft'
    refine ⟨n, _, hn, hrun, hd, hd', ?_, ?_, ?_, fun job hjob hne => ?_⟩
    · rw [hreached]
      exact .loop e e' todo f₁ f₂
    · have hgoto : SameBooks (w.goto (.abort e todo f₁)) w := ⟨rfl, rfl, rfl, rfl⟩
      exact (hgoto.trans hbooks).trans hsame
    · exact fun id hid => hlisted id (List.mem_cons_of_mem _ hid)
    · exact ((hleft job.id hne).symm.trans (hothers job hjob hne)).trans (hleft' job.id hne)
  | move e e' todo f f' id target hne htarget =>
    obtain ⟨job, hjob, hid⟩ := hlisted id List.mem_cons_self
    have hsame : Untouched id db db' := by
      rw [← hid] at hne ⊢
      exact hothers job hjob hne
    have hcall := transition_same env.call hsound hsound' hsame htarget "CONTROL_PLANE_FAILED"
    obtain ⟨f₁, d₁, hresult, hmoved, hd, -⟩ := abortMove_frame env w hsound e todo f id target
    obtain ⟨f₂, d₂, hresult', hmoved', hd', -⟩ := abortMove_frame env v hsound' e' todo f' id target
    simp only [Window.step, hp, hresult, Option.some.injEq, Prod.mk.injEq] at hstep
    obtain ⟨rfl, rfl⟩ := hstep
    have hstep' : v.step env db' = some (v.goto (.abort e' todo f₂), d₂) := by
      simp only [Window.step, hp', hresult']
    refine ⟨1, _, by decide, trace_step hstep', hd, hd', .loop e e' todo f₁ f₂, ?_, ?_, fun job hjob hx => ?_⟩
    · exact ⟨hbooks.jobs, hbooks.workers, hbooks.activeJobs, hbooks.counted⟩
    · exact fun id hid => hlisted id (List.mem_cons_of_mem _ hid)
    · have hagree := hcall.agree job.id (hothers job hjob hx)
      rw [← hmoved, ← hmoved'] at hagree
      exact hagree
  | done e e' =>
    simp only [Window.step, hp] at hstep
    cases hstep

/-! ### Whole runs -/

/-- A window takes an event that a window with the same workers takes. -/
theorem receive_books {v : Window} {event : WindowEvent} (hbooks : SameBooks w v) (hdone : v.isDone = w.isDone)
    (hevent : w.receive event = some w') : ∃ v', v.receive event = some v' ∧ SameBooks w' v' ∧
      w'.point = w.point ∧ v'.point = v.point ∧ w'.claimed = w.claimed ∧ ∀ p, w = v.goto p → w' = v'.goto p := by
  unfold Window.receive at hevent ⊢
  rw [hdone]
  split_ifs at hevent ⊢ with hd
  cases event with
  | milestone id =>
    simp only [Option.ite_none_right_eq_some, Option.some.injEq] at hevent
    obtain ⟨hworker, rfl⟩ := hevent
    have hworker' : id ∈ v.workers := by rwa [hbooks.workers]
    refine ⟨_, if_pos hworker', ⟨hbooks.jobs, hbooks.workers, hbooks.activeJobs, hbooks.counted⟩, rfl, rfl, rfl, ?_⟩
    rintro p rfl
    rfl
  | pauseFinishCurrent | pauseImmediate =>
    cases hevent
    refine ⟨_, rfl, ⟨hbooks.jobs, hbooks.workers, hbooks.activeJobs, hbooks.counted⟩, rfl, rfl, rfl, ?_⟩
    rintro p rfl
    rfl

theorem SameWindow.books (h : SameWindow x w w') : SameBooks w w' ∧ w'.isDone = w.isDone := by
  cases h with
  | same => exact ⟨.refl w, rfl⟩
  | behind w after hp =>
    refine ⟨⟨rfl, rfl, rfl, rfl⟩, ?_⟩
    unfold Window.isDone Window.goto
    rw [hp]

theorem AbortPair.done_eq (h : AbortPair x w.point w'.point) : w'.isDone = w.isDone ∧
    w'.point.executing = w.point.executing := by
  unfold Window.isDone
  generalize w.point = p at h
  generalize w'.point = p' at h
  cases h <;> exact ⟨rfl, rfl⟩

theorem Alike.books (h : Alike json policy x key s s') :
    SameBooks s.window s'.window ∧ s'.window.isDone = s.window.isDone ∧
      s'.window.point.executing = s.window.point.executing := by
  cases h with
  | loop h =>
    obtain ⟨hbooks, hdone⟩ := h.windows.books
    refine ⟨hbooks, hdone, ?_⟩
    rw [h.undisturbed.executing]
    have hwindows := h.windows
    have hexec := h.undisturbed.executing
    generalize s.window = w at hwindows
    generalize s'.window = w' at hwindows hexec
    cases hwindows with
    | same => exact hexec.symm
    | behind _ after hp => rfl
  | abort h => exact ⟨h.books, h.point.done_eq⟩

theorem Alike.others (h : Alike json policy x key s s') :
    ∀ job ∈ s.window.jobs, job.id ≠ x → Untouched job.id s.db s'.db := by
  intro job hjob hne
  cases h with
  | loop h =>
    rw [← h.windows.books.1.jobs] at hjob
    exact h.others job hjob (Or.inl hne)
  | abort h => exact h.others job hjob hne

theorem Alike.sound (h : Alike json policy x key s s') : Sound json s.db := by
  cases h with
  | loop h => exact h.sound
  | abort h => exact h.sound

theorem Alike.event (h : Alike json policy x key s s') {event : WindowEvent} {w' : Window}
    (hevent : s.window.receive event = some w') :
    ∃ v', s'.window.receive event = some v' ∧ Alike json policy x key ⟨w', s.db⟩ ⟨v', s'.db⟩ := by
  obtain ⟨hbooks, hdone, -⟩ := h.books
  obtain ⟨v', hevent', hbooks', hpoint, hpoint', hclaimed, hgoto⟩ := receive_books hbooks hdone hevent
  refine ⟨v', hevent', ?_⟩
  cases h with
  | loop h =>
    have hund := h.undisturbed
    have hclaimed' : v'.claimed = s'.window.claimed := by
      obtain ⟨_, _, _, _, _, _, rfl⟩ := Window.receive_eq_some hevent'
      rfl
    have hjobs : v'.jobs = s'.window.jobs := by
      obtain ⟨_, _, _, _, _, _, rfl⟩ := Window.receive_eq_some hevent'
      rfl
    refine .loop ⟨h.sound, ?_, ⟨hund.sound, ?_, hund.booked.event hevent', hund.tracks.event hevent'⟩, ?_, ?_, ?_⟩
    · have hwindows := h.windows
      dsimp only
      generalize s.window = w at hwindows hgoto hevent
      generalize s'.window = v at hwindows hgoto hevent' hpoint'
      cases hwindows with
      | same =>
        rw [hevent] at hevent'
        cases hevent'
        exact .same _
      | behind _ after hp =>
        rw [hgoto _ rfl]
        exact .behind v' after (hpoint'.trans hp)
    · dsimp only
      rw [hpoint']
      exact hund.executing
    · dsimp only
      rw [hjobs, hclaimed']
      exact h.others
    · dsimp only
      rw [hclaimed']
      exact h.ahead
    · dsimp only
      rw [hpoint']
      exact h.reserved
  | abort h =>
    have hjobs : w'.jobs = s.window.jobs ∧ w'.activeJobs = s.window.activeJobs := by
      obtain ⟨_, _, _, _, _, _, rfl⟩ := Window.receive_eq_some hevent
      exact ⟨rfl, rfl⟩
    refine .abort ⟨h.sound, h.sound', ?_, hbooks', ?_, ?_⟩
    · dsimp only
      rw [hpoint, hpoint']
      exact h.point
    · dsimp only
      unfold Window.toAbort
      rw [hpoint, hjobs.1, hjobs.2]
      exact h.listed
    · dsimp only
      rw [hjobs.1]
      exact h.others

/-- A call of another process has no part in the run without the changes. -/
theorem Alike.other (h : Alike json policy x key s s') {label : StoreLabel} {d : Database}
    (hstep : StoreStep json s.db label d)
    (hchanges : ∀ job ∈ s.window.jobs, job.id ≠ x ∨ x ∉ s.window.claimed → Untouched job.id s.db d) :
    Alike json policy x key ⟨s.window, d⟩ s' := by
  have hwrites := StoreStep.writes h.sound hstep
  have hsound : Sound json d := Writes.sound hwrites h.sound
  cases h with
  | loop h =>
    have hclaimed : s.window.claimed = s'.window.claimed := by
      have hwindows := h.windows
      generalize s.window = w at hwindows
      generalize s'.window = v at hwindows
      cases hwindows <;> rfl
    have hjobs := h.windows.books.1.jobs
    refine .loop { h with sound := hsound, others := fun job hjob hone => ?_, ahead := fun hmem => ?_ }
    · have hsame : Untouched job.id s.db d := by
        rw [hjobs] at hjob
        rw [← hclaimed] at hone
        exact hchanges job hjob hone
      exact hsame.symm.trans (h.others job hjob hone)
    · exact (h.ahead hmem).write h.sound hwrites
  | abort h =>
    refine .abort { h with sound := hsound, others := fun job hjob hne => ?_ }
    exact (hchanges job hjob (Or.inl hne)).symm.trans (h.others job hjob hne)

/-- **The run without the changes follows** every step. -/
theorem Alike.step (h : Alike json policy x key s s') {label : QueueLabel} (hstep : QueueStep json s label t)
    (hchanges : ChangesOnly x s label t) (hallows : Allows x key s label) :
    ∃ labels t', Follows label labels ∧ Common.Trace (QueueStep json) s' labels t' ∧ Alike json policy x key t t' := by
  cases label with
  | step env =>
    cases h with
    | loop h =>
      obtain ⟨n, t', hn, hrun, halike⟩ := h.step hallows hstep
      exact ⟨_, t', .step env n hn, hrun, halike⟩
    | abort h =>
      obtain ⟨n, t', hn, hrun, halike⟩ := h.step hstep
      exact ⟨_, t', .step env n hn, hrun, .abort halike⟩
  | event event =>
    obtain ⟨w', d⟩ := t
    obtain ⟨hevent, rfl⟩ := hstep
    obtain ⟨v', hevent', halike⟩ := h.event hevent
    have hqueue : QueueStep json s' (.event event) ⟨v', s'.db⟩ := ⟨hevent', rfl⟩
    exact ⟨_, _, .event event, .cons hqueue .nil, halike⟩
  | other label =>
    obtain ⟨w', d⟩ := t
    obtain ⟨hstore, rfl⟩ := hstep
    exact ⟨[], s', .other label, .nil, h.other hstore hchanges⟩

end Runs

/-- How the run without the changes ends. -/
structure SameEnd (x : Uuid) (jobs : List JobRecord) (t t' : QueueState) : Prop where
  done : t'.window.isDone = t.window.isDone
  executing : t'.window.point.executing = t.window.point.executing
  counted : t'.window.counted = t.window.counted
  others : ∀ job ∈ jobs, job.id ≠ x → Untouched job.id t.db t'.db

theorem QueueStep.jobs_eq {json : ReportJson} {s t : QueueState} {label : QueueLabel} (h : Sound json s.db)
    (hstep : QueueStep json s label t) : t.window.jobs = s.window.jobs := by
  cases label with
  | step env => exact (Window.step_advance h hstep).jobs_eq
  | event event =>
    obtain ⟨_, _, _, _, _, _, heq⟩ := Window.receive_eq_some hstep.1
    rw [heq]
  | other label => rw [hstep.2]

/-- **A change of one job is confined to it.** Take a run of a window in which other processes change
one of its jobs after it has been claimed, and nothing else of its jobs. If the job may make every
transition the loop requests for it, and is inspected with the reservation it was claimed with, there
is a run without these changes that ends in the same way for every other job. -/
theorem changes_confined {json : ReportJson} {db : Database} {env : CallEnv} {logicalCpus limit parallel : ℕ}
    {control : QueueWindowControl} {w : Window} {x : Uuid} {key : Option String} {labels : List QueueLabel}
    {t : QueueState} (h : Reachable json db) (hopen : openWindow env db logicalCpus limit parallel control = .ok w)
    (hrun : Common.Trace (fun s label t => QueueStep json s label t ∧ ChangesOnly x s label t ∧ Allows x key s label)
      ⟨w, db⟩ labels t) :
    ∃ parts t', List.Forall₂ Follows labels parts ∧ Common.Trace (QueueStep json) ⟨w, db⟩ parts.flatten t' ∧
      SameEnd x w.jobs t t' := by
  have hbooked := openWindow_booked h.sound hopen
  have htracks := openWindow_tracks [] hopen
  have hstart : Alike json (.bounded logicalCpus parallel) x key ⟨w, db⟩ ⟨w, db⟩ ∧ w.jobs = w.jobs := by
    obtain ⟨_, _, jobs, pending, _, _, rfl⟩ := openWindow_eq_ok hopen
    refine ⟨.loop ⟨h.sound, .same _, ⟨h.sound, rfl, hbooked, htracks⟩, ?_, ?_, nofun⟩, rfl⟩
    · exact fun job _ _ => .refl job.id db
    · exact fun hmem => absurd hmem List.not_mem_nil
  have hfollowed : ∃ parts t', List.Forall₂ Follows labels parts ∧
      Common.Trace (QueueStep json) ⟨w, db⟩ parts.flatten t' ∧
      Alike json (.bounded logicalCpus parallel) x key t t' ∧ t.window.jobs = w.jobs := by
    let R := fun s s' : QueueState => Alike json (.bounded logicalCpus parallel) x key s s' ∧ s.window.jobs = w.jobs
    refine hrun.simulate (R := R) hstart fun hs hstep => ?_
    obtain ⟨halike, hjobs⟩ := hs
    obtain ⟨labels, t', hfollows, hpart, hnext⟩ := halike.step hstep.1 hstep.2.1 hstep.2.2
    exact ⟨labels, t', hfollows, hpart, hnext, (hstep.1.jobs_eq halike.sound).trans hjobs⟩
  obtain ⟨parts, t', hparts, hrun', halike, hjobs⟩ := hfollowed
  obtain ⟨hbooks, hdone, hexec⟩ := halike.books
  refine ⟨parts, t', hparts, hrun', hdone, hexec, hbooks.counted, ?_⟩
  rw [← hjobs]
  exact halike.others

/-! ## Two jobs -/

namespace Sample

/-- A store with two `Queued` jobs, whose ids are 0 and 1. -/
def pair : Database :=
  (replay (json 0) Database.empty
    [(env 0, .enqueueJobIdempotent "k" (request "a.json" "a.yaml")),
      (env 1, .enqueueJobIdempotent "l" (request "b.json" "b.yaml"))]).2

theorem pair_reachable : Reachable (json 0) pair := ⟨_, replay_run _ _ Database.empty⟩

/-- The window that selects both. -/
def pairWindow : Window :=
  match openWindow (env 0) pair 4 2 2 .new with
  | .ok w => w
  | .error _ => .new (.bounded 4 2) .new [] []

theorem openWindow_pairWindow : openWindow (env 0) pair 4 2 2 .new = .ok pairWindow := rfl

/-- The steps after which both jobs are `Running`. -/
def started : List QueueInput := List.replicate 13 (.step stepEnv)

/-- The first worker returns with a report that passes, and the window takes some more steps. -/
def completing (steps : ℕ) : List QueueInput :=
  let passed : ValidationReport := { jobId := 0, planHash := "plan", status := .pass, outputSizeBytes := 1 }
  .step { stepEnv with ready := .joined 0 (.returned (.ok passed)) } :: List.replicate steps (.step stepEnv)

/-- Another process moves the first job. -/
def moves (next : JobState) : QueueInput := .call (env 0) (.transition 0 next "MOVED")

end Sample

/-- Another process marks a job `Validating` before the window does. -/
theorem changes_confined_marked :
    let inputs := Sample.started ++ [Sample.moves .validating] ++ Sample.completing 7 ++ Sample.completing 7
    let t := play (QueueState.next (Sample.json 0)) ⟨Sample.pairWindow, Sample.pair⟩ inputs
    ∃ t', SameEnd 0 Sample.pairWindow.jobs t t' := by
  intro inputs t
  have hplays : Plays (QueueState.next (Sample.json 0))
      (fun s label t => ChangesOnly 0 s label t ∧ Allows 0 (Sample.pair.ownedKey 0) s label)
      ⟨Sample.pairWindow, Sample.pair⟩ inputs := by decide
  obtain ⟨labels, hrun⟩ := QueueState.play_run hplays
  obtain ⟨parts, t', -, -, hend⟩ := changes_confined Sample.pair_reachable Sample.openWindow_pairWindow hrun
  exact ⟨t', hend⟩

/-- Another process cancels the first job while both are `Running`. The window wants to complete it,
    which is refused, and its abort interrupts the second job. Without the change both are completed. -/
theorem change_spreads :
    (∃ labels t, Common.Trace (fun s label t => QueueStep (Sample.json 0) s label t ∧ ChangesOnly 0 s label t)
        ⟨Sample.pairWindow, Sample.pair⟩ labels t ∧
      t.window.isDone = true ∧ t.db.stateOf 0 = some .cancelled ∧ t.db.stateOf 1 = some .interrupted) ∧
    ∃ labels t, Common.Trace (QueueStep (Sample.json 0)) ⟨Sample.pairWindow, Sample.pair⟩ labels t ∧
      t.window.isDone = true ∧ t.db.stateOf 0 = some .completed ∧ t.db.stateOf 1 = some .completed := by
  have hchanged : Plays (QueueState.next (Sample.json 0)) (ChangesOnly 0) ⟨Sample.pairWindow, Sample.pair⟩
      (Sample.started ++ [Sample.moves .cancelled] ++ Sample.completing 4 ++
        [.step { Sample.stepEnv with order := [0, 1] }] ++ List.replicate 4 (.step Sample.stepEnv)) := by
    decide
  have hplain : Plays (QueueState.next (Sample.json 0)) (fun _ _ _ => True) ⟨Sample.pairWindow, Sample.pair⟩
      (Sample.started ++ Sample.completing 8 ++ Sample.completing 7) := by
    decide
  obtain ⟨labels, hrun⟩ := QueueState.play_run hchanged
  obtain ⟨labels', hrun'⟩ := QueueState.play_run hplain
  exact ⟨⟨labels, _, hrun, by decide, by decide, by decide⟩,
    labels', _, hrun'.mono And.left, by decide, by decide, by decide⟩

end Anole
