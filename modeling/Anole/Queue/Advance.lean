import Anole.Queue.Window
import Anole.Store.Total

/-!
# What one step of a window can do

`Advance` lists the steps of a window, each with its guard, its new variables and what
it does to the store; `Fails` lists the errors that end its loop. All invariants of
the window are proved from these lists, none from `Window.step` itself.

The store is seen through the states of the jobs (`Database.stateOf`): a transition
moves one job along an edge of the state machine and leaves the others untouched
(`Database.Moves`).

Main result: `Window.step_advance`, every step is in the list.
-/

open Common

namespace Anole

/-! ## Jobs and their states -/

/-- The state column of a job. -/
def Database.stateOf (db : Database) (id : Uuid) : Option JobState := (db.job? id).map JobRow.state

/-- The job moves from `s` to `next`; the other jobs are untouched. -/
structure Database.Moves (db : Database) (id : Uuid) (s next : JobState) (db' : Database) :
    Prop where
  before : db.stateOf id = some s
  legal : s.canTransitionTo next = true
  after : db'.stateOf id = some next
  others : ∀ other, other ≠ id → Untouched other db db'

/-- Neither SQLite nor a sequence number makes a store call fail. -/
def StoreWorks (env : CallEnv) (db : Database) : Prop :=
  env.fault = none ∧ ∀ row ∈ db.jobs, row.sequence + 1 < sqliteIntegerLimit

instance (env : CallEnv) (db : Database) : Decidable (StoreWorks env db) :=
  inferInstanceAs (Decidable (_ ∧ _))

section States

variable {json : ReportJson} {env : CallEnv} {db db' : Database} {id : Uuid} {s next : JobState}
  {code : String}

theorem Untouched.stateOf (h : Untouched id db db') : db'.stateOf id = db.stateOf id :=
  congrArg _ h.job

theorem stateOf_eq_some (h : Sound json db) :
    db.stateOf id = some s ↔ ∃ row ∈ db.jobs, row.id = id ∧ row.state = s := by
  unfold Database.stateOf
  rw [Option.map_eq_some_iff]
  constructor
  · rintro ⟨row, hrow, hs⟩
    obtain ⟨hmem, hid⟩ := h.jobs.jobIds.find?_eq_some.mp hrow
    exact ⟨row, hmem, hid, hs⟩
  · rintro ⟨row, hmem, hid, hs⟩
    exact ⟨row, h.jobs.jobIds.find?_eq_some.mpr ⟨hmem, hid⟩, hs⟩

theorem MovesJob.moves (h : Sound json db) {row : JobRow} {rs : List ReservationRow}
    (hm : MovesJob env db id next code row rs db') : db.Moves id row.state next db' where
  before := (stateOf_eq_some h).mpr ⟨row, hm.mem, hm.jobId, rfl⟩
  legal := hm.legal
  after := by rw [Database.stateOf, hm.job? h]; rfl
  others := fun _ hne => hm.untouched hne

theorem transition_cases (h : Sound json db) {result : Except AnoleError JobRecord}
    (hcall : transition env db id next code = (result, db')) :
    (∃ error, result = .error error ∧ db' = db) ∨
      ∃ record s, result = .ok record ∧ db.Moves id s next db' := by
  cases result with
  | error error => exact Or.inl ⟨error, rfl, transaction_error hcall⟩
  | ok record =>
    obtain ⟨row, rs, hm, _⟩ := transition_ok h hcall
    exact Or.inr ⟨record, row.state, rfl, hm.moves h⟩

/-- A claim fails, finds that the job is not `Queued`, or moves it to `Inspecting`. -/
theorem claimQueuedJob_cases (h : Sound json db) {result : Except AnoleError (Option JobRecord)}
    (hcall : claimQueuedJob env db id code = (result, db')) :
    (∃ error, result = .error error ∧ db' = db) ∨
      (result = .ok none ∧ db' = db ∧ ∃ s, db.stateOf id = some s ∧ s ≠ .queued) ∨
      ∃ record, result = .ok (some record) ∧ db.Moves id .queued .inspecting db' := by
  cases result with
  | error error => exact Or.inl ⟨error, rfl, transaction_error hcall⟩
  | ok result =>
    obtain ⟨row, hrow, hid, ⟨hne, rfl, hdb⟩ | ⟨hqueued, hm, rfl⟩⟩ :=
      claimQueuedJobBody_ok h (transaction_ok.mp hcall).2
    · exact Or.inr (Or.inl ⟨rfl, hdb, row.state, (stateOf_eq_some h).mpr ⟨row, hrow, hid, rfl⟩, hne⟩)
    · exact Or.inr (Or.inr ⟨_, rfl, hqueued ▸ hm.moves h⟩)

/-- A legal transition is made when the store works. -/
theorem transition_of_moves (h : Sound json db) (hs : db.stateOf id = some s)
    (hlegal : s.canTransitionTo next = true) (hnext : next ≠ .queued) (hworks : StoreWorks env db)
    (code : String) : ∃ record db', transition env db id next code = (.ok record, db') := by
  obtain ⟨row, hrow, rfl, rfl⟩ := (stateOf_eq_some h).mp hs
  obtain ⟨db', rs, hok, _⟩ :=
    transition_of_legal h hrow hlegal hnext (hworks.2 row hrow) hworks.1 code
  exact ⟨_, db', hok⟩

theorem getJob_eq_ok {job : Option JobRecord} (hget : getJob env db id = .ok job) :
    env.fault = none ∧ db.stateOf id = job.map JobRecord.state := by
  unfold getJob at hget
  split at hget
  · cases hget
  · next hfault =>
    cases hget
    refine ⟨hfault, ?_⟩
    rw [Database.stateOf, Option.map_map]
    rfl

end States

/-! ## The list of steps -/

/-- The transition a window requests at a point. -/
def Point.request : Point → Option (Uuid × JobState × String)
  | .prepare candidate verdict => some (candidate.id, verdict.target, verdict.code)
  | .start candidate _ => some (candidate.id, .running, "ENGINE_STARTED")
  | .markMove jobId _ => some (jobId, .validating, "ENGINE_FINISHED")
  | .finish jobId completion => some (jobId, completion.target, completion.code)
  | _ => none

namespace Window

/-- Why the admission loop ends without a candidate. -/
def NoneFits (w : Window) : Prop :=
  w.control.admission = true ∨ w.scheduler.policy.maxProcesses ≤ w.scheduler.activeCount ∨
    w.pending = [] ∨ scanPending w.scheduler w.pending [] = none

/-- The errors that end the loop of a window, with the workers that are left. -/
inductive Fails (env : StepEnv) (w : Window) (db : Database) : List Uuid → AnoleError → Prop
  | claim (candidate : PendingQueueJob) (error : AnoleError) : w.point = .claim candidate →
      claimQueuedJob env.call db candidate.id "QUEUE_REINSPECTING" = (.error error, db) →
      Fails env w db w.workers error
  | reservation (candidate : PendingQueueJob) (error : AnoleError) : w.point = .inspect candidate →
      validateOutputReservation env.call db candidate.id = .error error →
      ¬ (error.code = .inputInvalid ∨ error.code = .outputConflict) →
      Fails env w db w.workers error
  | transition (id : Uuid) (next : JobState) (code : String) (error : AnoleError) :
      w.point.request = some (id, next, code) →
      Anole.transition env.call db id next code = (.error error, db) →
      Fails env w db w.workers error
  | exhausted : w.point = .idle → w.workers = [] → w.control.admission = false → w.pending ≠ [] →
      Fails env w db w.workers noQueuedJobFits
  | panicked (index : ℕ) (id : Uuid) (error : String) : w.point = .select →
      env.ready = .joined index (.panicked error) → w.workers[index]? = some id →
      Fails env w db (w.workers.eraseIdx index) (workerStopped error)
  | callback (id : Uuid) (report : ValidationReport) (error : AnoleError) :
      w.point = .report id report → env.onReport id report = .error error →
      Fails env w db w.workers error
  | sample (id : Uuid) (report : ValidationReport) (sample : EngineThroughputSample)
      (error : AnoleError) : w.point = .sample id report →
      recordEngineThroughputSample env.call db sample = (.error error, db) →
      Fails env w db w.workers error
  | read (id : Uuid) (after : Option Completion) (error : AnoleError) :
      w.point = .markRead id after → getJob env.call db id = .error error →
      Fails env w db w.workers error
  | disappeared (id : Uuid) (after : Option Completion) : w.point = .markRead id after →
      db.stateOf id = none → Fails env w db w.workers (activeJobDisappeared id)

/-- The steps of a window. -/
inductive Advance (env : StepEnv) (w : Window) (db : Database) : Window → Database → Prop
  | enter : w.point = .top → w.pending ≠ [] ∨ w.workers ≠ [] →
      Advance env w db (w.goto .admission) db
  | leave : w.point = .top → w.pending = [] → w.workers = [] →
      Advance env w db (w.goto .returning) db
  | accept (candidate : PendingQueueJob) (scheduler : ResourceScheduler)
      (pending : List PendingQueueJob) : w.point = .admission → w.control.admission = false →
      scanPending w.scheduler w.pending [] = some (candidate, scheduler, pending) →
      Advance env w db (w.take candidate scheduler pending) db
  | rest : w.point = .admission → w.NoneFits → Advance env w db (w.goto .idle) db
  | claimed (candidate : PendingQueueJob) (db' : Database) : w.point = .claim candidate →
      db.Moves candidate.id .queued .inspecting db' →
      Advance env w db { w with claimed := candidate.id :: w.claimed, point := .inspect candidate } db'
  | contended (candidate : PendingQueueJob) (s : JobState) : w.point = .claim candidate →
      db.stateOf candidate.id = some s → s ≠ .queued →
      Advance env w db (w.retire candidate.id .contended) db
  | inspected (candidate : PendingQueueJob) (verdict : Verdict) : w.point = .inspect candidate →
      Advance env w db (w.goto (.prepare candidate verdict)) db
  | prepared (candidate : PendingQueueJob) (verdict : Verdict) (s : JobState) (db' : Database) :
      w.point = .prepare candidate verdict → db.Moves candidate.id s verdict.target db' →
      Advance env w db (w.afterPrepare candidate verdict) db'
  | started (candidate : PendingQueueJob) (probe : Probe) (s : JobState) (db' : Database) :
      w.point = .start candidate probe → db.Moves candidate.id s .running db' →
      Advance env w db (w.spawn env candidate probe) db'
  | stop : w.point = .idle → w.workers = [] → w.control.admission = true ∨ w.pending = [] →
      Advance env w db (w.goto .returning) db
  | wait : w.point = .idle → w.workers ≠ [] → Advance env w db (w.goto .select) db
  | received (id : Uuid) (milestones : List Uuid) : w.point = .select →
      w.milestones = id :: milestones →
      Advance env w db { w with milestones := milestones, point := .markRead id none } db
  | joined (index : ℕ) (id : Uuid) (point : Point) : w.point = .select →
      w.workers[index]? = some id →
      (∃ report, point = .report id report) ∨
        (∃ error, point = .finish id (w.completionOf error)) →
      Advance env w db (w.join index id point) db
  | reported (id : Uuid) (report : ValidationReport) : w.point = .report id report →
      Advance env w db (w.afterReport id report) db
  | sampled (id : Uuid) (report : ValidationReport) (db' : Database) :
      w.point = .sample id report → (∀ other, Untouched other db db') →
      Advance env w db (w.goto (.markRead id (some (.validated report.status)))) db'
  | readRunning (id : Uuid) (after : Option Completion) : w.point = .markRead id after →
      db.stateOf id = some .running → Advance env w db (w.goto (.markMove id after)) db
  | readOther (id : Uuid) (after : Option Completion) (s : JobState) :
      w.point = .markRead id after → db.stateOf id = some s → s ≠ .running →
      Advance env w db (w.afterMark id after) db
  | marked (id : Uuid) (after : Option Completion) (s : JobState) (db' : Database) :
      w.point = .markMove id after → db.Moves id s .validating db' →
      Advance env w db (w.afterMark id after) db'
  | finished (id : Uuid) (completion : Completion) (s : JobState) (db' : Database) :
      w.point = .finish id completion → db.Moves id s completion.target db' →
      Advance env w db (w.afterFinish id completion) db'
  | returned : w.point = .returning → Advance env w db (w.goto (.done (.ok w.runReport))) db
  | failed (workers : List Uuid) (error : AnoleError) : w.Fails env db workers error →
      Advance env w db { w with workers := workers, point := .abortDrain error } db
  | drained (error : AnoleError) : w.point = .abortDrain error → env.order.Perm w.activeJobs →
      Advance env w db (w.drain env error) db
  | abortDone (error : AnoleError) (firstError : Option AnoleError) :
      w.point = .abort error [] firstError →
      Advance env w db (w.goto (.done (.error (withCleanup error firstError)))) db
  | abortSkipped (error : AnoleError) (id : Uuid) (todo : List Uuid)
      (firstError firstError' : Option AnoleError) : w.point = .abort error (id :: todo) firstError →
      env.call.fault ≠ none ∨ (∀ s, db.stateOf id = some s → abortTarget s = none) →
      Advance env w db
        { w with scheduler := w.scheduler.release id, point := .abort error todo firstError' } db
  | abortRequested (error : AnoleError) (id : Uuid) (todo : List Uuid)
      (firstError : Option AnoleError) (s target : JobState) :
      w.point = .abort error (id :: todo) firstError → db.stateOf id = some s →
      abortTarget s = some target →
      Advance env w db
        { w with
          scheduler := w.scheduler.release id
          requests := w.requests ++ [⟨id, s, target⟩]
          point := .abortMove error todo firstError id target } db
  | abortMoved (error : AnoleError) (todo : List Uuid) (firstError : Option AnoleError) (id : Uuid)
      (s target : JobState) (db' : Database) : w.point = .abortMove error todo firstError id target →
      db.Moves id s target db' → Advance env w db (w.goto (.abort error todo firstError)) db'
  | abortRefused (error : AnoleError) (todo : List Uuid) (firstError : Option AnoleError) (id : Uuid)
      (target : JobState) (cleanup : AnoleError) :
      w.point = .abortMove error todo firstError id target →
      transition env.call db id target "CONTROL_PLANE_FAILED" = (.error cleanup, db) →
      Advance env w db (w.goto (.abort error todo (firstError <|> some cleanup))) db

end Window

/-! ## Every step is in the list -/

namespace Window

variable {json : ReportJson} {env : StepEnv} {w w' : Window} {db db' : Database} {id : Uuid}

/-- A requested transition ends the loop or goes on to `next`. -/
theorem attempt_transition (h : Sound json db) {target : JobState} {code : String}
    {next : Window} (hpoint : w.point.request = some (id, target, code))
    (hstep : w.attempt (transition env.call db id target code) (fun _ => next) = (w', db')) :
    w.Advance env db w' db' ∨ ∃ s, w' = next ∧ db.Moves id s target db' := by
  cases hcall : transition env.call db id target code with
  | mk result d =>
    rw [hcall] at hstep
    obtain ⟨error, rfl, rfl⟩ | ⟨record, s, rfl, hm⟩ := transition_cases h hcall
    · cases hstep
      exact Or.inl (.failed _ _ (.transition id target code error hpoint hcall))
    · cases hstep
      exact Or.inr ⟨s, rfl, hm⟩

theorem scan_advance (hpoint : w.point = .admission) : w.Advance env db w.scan db := by
  unfold scan
  split_ifs with hloop
  · split
    · next candidate scheduler pending hscan => exact .accept _ _ _ hpoint hloop.1 hscan
    · next hscan => exact .rest hpoint (Or.inr (Or.inr (Or.inr hscan)))
  · refine .rest hpoint ?_
    unfold NoneFits
    by_cases hpaused : w.control.admission = true
    · exact Or.inl hpaused
    · by_cases hfull : w.scheduler.activeCount < w.scheduler.policy.maxProcesses
      · right; right; left
        by_contra hne
        exact hloop ⟨by simpa using hpaused, hfull, hne⟩
      · exact Or.inr (Or.inl (Nat.le_of_not_lt hfull))

theorem inspect_advance {candidate : PendingQueueJob} (hpoint : w.point = .inspect candidate) :
    w.Advance env db (w.inspect env db candidate) db := by
  unfold inspect
  split
  · next error hresult =>
    split_ifs with hcode
    · exact .inspected _ _ hpoint
    · exact .failed _ _ (.reservation candidate error hpoint hresult hcode)
  · exact .inspected _ _ hpoint

theorem idle_advance (hpoint : w.point = .idle) : w.Advance env db w.idle db := by
  unfold idle
  split_ifs with hworkers hstop
  · exact .stop hpoint hworkers hstop
  · rw [not_or] at hstop
    exact .failed _ _ (.exhausted hpoint hworkers (by simpa using hstop.1) hstop.2)
  · exact .wait hpoint hworkers

theorem select_advance (hpoint : w.point = .select) (hselect : w.select env.ready = some w') :
    w.Advance env db w' db := by
  unfold select at hselect
  split at hselect
  · split at hselect
    · cases hselect
    · next id milestones hmilestones =>
      cases hselect
      exact .received id milestones hpoint hmilestones
  · next index exit hready =>
    split at hselect
    · cases hselect
    · next id hworker =>
      cases exit with
      | panicked error =>
        cases hselect
        exact .failed _ _ (.panicked index id error hpoint hready hworker)
      | returned result =>
        cases result with
        | ok report =>
          cases hselect
          exact .joined index id _ hpoint hworker (Or.inl ⟨report, rfl⟩)
        | error error =>
          cases hselect
          exact .joined index id _ hpoint hworker (Or.inr ⟨error, rfl⟩)

theorem untouched_samples (id : Uuid) (db : Database) (samples : List EngineThroughputSample) :
    Untouched id db { db with engineThroughputSamples := samples } := ⟨rfl, rfl, rfl⟩

theorem sample_advance {report : ValidationReport} (hpoint : w.point = .sample id report)
    (hstep : w.step env db = some (w', db')) : w.Advance env db w' db' := by
  unfold step at hstep
  rw [hpoint] at hstep
  simp only [Option.some.injEq] at hstep
  split at hstep
  · cases hstep
    exact .sampled id report _ hpoint fun other => .refl other db
  · next telemetry _ =>
    cases hcall : recordEngineThroughputSample env.call db (sampleOf env report telemetry) with
    | mk result d =>
      rw [hcall] at hstep
      cases result with
      | error error =>
        cases hstep
        obtain rfl := transaction_error hcall
        exact .failed _ _ (.sample id report _ error hpoint hcall)
      | ok a =>
        cases hstep
        have hbody := (transaction_ok.mp hcall).2
        cases hbody
        exact .sampled id report _ hpoint fun other => untouched_samples other db _

theorem markRead_advance {after : Option Completion}
    (hpoint : w.point = .markRead id after) :
    w.Advance env db (w.markRead env db id after) db := by
  unfold markRead
  split
  · next error hget => exact .failed _ _ (.read id after error hpoint hget)
  · next hget => exact .failed _ _ (.disappeared id after hpoint (getJob_eq_ok hget).2)
  · next job hget =>
    have hs := (getJob_eq_ok hget).2
    split_ifs with hrunning
    · exact .readRunning id after hpoint (hs.trans (congrArg some hrunning))
    · exact .readOther id after _ hpoint hs hrunning

theorem abortRead_advance {error : AnoleError} {todo : List Uuid}
    {firstError : Option AnoleError} (hpoint : w.point = .abort error (id :: todo) firstError) :
    w.Advance env db (w.abortRead env db error id todo firstError) db := by
  unfold abortRead
  split
  · next cleanup hget =>
    refine .abortSkipped error id todo firstError _ hpoint (Or.inl fun hfault => ?_)
    unfold getJob at hget
    rw [hfault] at hget
    cases hget
  · next hget =>
    refine .abortSkipped error id todo firstError _ hpoint (Or.inr fun s hs => ?_)
    rw [(getJob_eq_ok hget).2] at hs
    cases hs
  · next job hget =>
    have hs := (getJob_eq_ok hget).2
    split
    · next hnone =>
      refine .abortSkipped error id todo firstError _ hpoint (Or.inr fun s hs' => ?_)
      rw [hs] at hs'
      cases hs'
      exact hnone
    · next target htarget => exact .abortRequested error id todo firstError _ _ hpoint hs htarget

/-- **Every step of a window is in the list.** -/
theorem step_advance (h : Sound json db) (hstep : w.step env db = some (w', db')) :
    w.Advance env db w' db' := by
  cases hpoint : w.point
  case sample id report => exact sample_advance hpoint hstep
  all_goals
    unfold step at hstep
    simp only [hpoint, Option.some.injEq, Prod.mk.injEq] at hstep
  case top =>
    obtain ⟨rfl, rfl⟩ := hstep
    split_ifs with hwork
    · exact .enter hpoint hwork
    · rw [not_or, not_not, not_not] at hwork
      exact .leave hpoint hwork.1 hwork.2
  case admission =>
    obtain ⟨rfl, rfl⟩ := hstep
    exact scan_advance hpoint
  case claim candidate =>
    cases hcall : claimQueuedJob env.call db candidate.id "QUEUE_REINSPECTING" with
    | mk result d =>
      rw [hcall] at hstep
      obtain ⟨error, rfl, rfl⟩ | ⟨rfl, rfl, s, hs, hne⟩ | ⟨record, rfl, hm⟩ :=
        claimQueuedJob_cases h hcall
      · cases hstep
        exact .failed _ _ (.claim candidate error hpoint hcall)
      · cases hstep
        exact .contended candidate s hpoint hs hne
      · cases hstep
        exact .claimed candidate _ hpoint hm
  case inspect candidate =>
    obtain ⟨rfl, rfl⟩ := hstep
    exact inspect_advance hpoint
  case prepare candidate verdict =>
    obtain hfail | ⟨s, rfl, hm⟩ := attempt_transition h (by rw [hpoint]; rfl) hstep
    · exact hfail
    · exact .prepared candidate verdict s db' hpoint hm
  case start candidate probe =>
    obtain hfail | ⟨s, rfl, hm⟩ := attempt_transition h (by rw [hpoint]; rfl) hstep
    · exact hfail
    · exact .started candidate probe s db' hpoint hm
  case idle =>
    obtain ⟨rfl, rfl⟩ := hstep
    exact idle_advance hpoint
  case select =>
    obtain ⟨v, hselect, heq⟩ := Option.map_eq_some_iff.mp hstep
    cases heq
    exact select_advance hpoint hselect
  case report id report =>
    split at hstep
    · next error hresult =>
      cases hstep
      exact .failed _ _ (.callback id report error hpoint hresult)
    · cases hstep
      exact .reported id report hpoint
  case markRead id after =>
    obtain ⟨rfl, rfl⟩ := hstep
    exact markRead_advance hpoint
  case markMove id after =>
    obtain hfail | ⟨s, rfl, hm⟩ := attempt_transition h (by rw [hpoint]; rfl) hstep
    · exact hfail
    · exact .marked id after s db' hpoint hm
  case finish id completion =>
    obtain hfail | ⟨s, rfl, hm⟩ := attempt_transition h (by rw [hpoint]; rfl) hstep
    · exact hfail
    · exact .finished id completion s db' hpoint hm
  case returning =>
    obtain ⟨rfl, rfl⟩ := hstep
    exact .returned hpoint
  case abortDrain error =>
    split_ifs at hstep with horder
    cases hstep
    exact .drained error hpoint (List.isPerm_iff.mp horder)
  case abort error todo firstError =>
    cases todo with
    | nil =>
      simp only [Option.some.injEq, Prod.mk.injEq] at hstep
      obtain ⟨rfl, rfl⟩ := hstep
      exact .abortDone error firstError hpoint
    | cons id todo =>
      simp only [Option.some.injEq, Prod.mk.injEq] at hstep
      obtain ⟨rfl, rfl⟩ := hstep
      exact abortRead_advance hpoint
  case abortMove error todo firstError id target =>
    cases hcall : transition env.call db id target "CONTROL_PLANE_FAILED" with
    | mk result d =>
      rw [hcall] at hstep
      obtain ⟨cleanup, rfl, rfl⟩ | ⟨record, s, rfl, hm⟩ := transition_cases h hcall
      · cases hstep
        exact .abortRefused error todo firstError id target cleanup hpoint hcall
      · cases hstep
        exact .abortMoved error todo firstError id s target _ hpoint hm
  case done => cases hstep

/-! ## Steps are store calls -/

theorem attempt_snd {α : Type} (w : Window) (result : Except AnoleError α × Database)
    (next : α → Window) : (w.attempt result next).2 = result.2 := by
  obtain ⟨_ | _, _⟩ := result <;> rfl

theorem step_call (json : ReportJson) (hstep : w.step env db = some (w', db')) :
    db' = db ∨ ∃ call, (exec json env.call db call).2 = db' := by
  have hattempt : ∀ {α : Type} {result : Except AnoleError α × Database} {next : α → Window},
      w.attempt result next = (w', db') → result.2 = db' :=
    fun h => (attempt_snd _ _ _).symm.trans (congrArg Prod.snd h)
  unfold step at hstep
  cases hpoint : w.point <;> simp only [hpoint, Option.some.injEq, Prod.mk.injEq] at hstep
  case top | admission | inspect | idle | markRead | returning => exact Or.inl hstep.2.symm
  case claim candidate =>
    refine Or.inr ⟨.claimQueuedJob candidate.id "QUEUE_REINSPECTING", ?_⟩
    simp only [exec, Prod.map_snd, id_eq]
    exact hattempt hstep
  case prepare candidate verdict =>
    refine Or.inr ⟨.transition candidate.id verdict.target verdict.code, ?_⟩
    simp only [exec, Prod.map_snd, id_eq]
    exact hattempt hstep
  case start candidate probe =>
    refine Or.inr ⟨.transition candidate.id .running "ENGINE_STARTED", ?_⟩
    simp only [exec, Prod.map_snd, id_eq]
    exact hattempt hstep
  case select =>
    obtain ⟨v, _, heq⟩ := Option.map_eq_some_iff.mp hstep
    exact Or.inl (congrArg Prod.snd heq).symm
  case report id report =>
    split at hstep <;> exact Or.inl (congrArg Prod.snd hstep).symm
  case sample id report =>
    split at hstep
    · exact Or.inl (congrArg Prod.snd hstep).symm
    · next telemetry _ =>
      refine Or.inr ⟨.recordEngineThroughputSample (sampleOf env report telemetry), ?_⟩
      simp only [exec, Prod.map_snd, id_eq]
      exact hattempt hstep
  case markMove id after =>
    refine Or.inr ⟨.transition id .validating "ENGINE_FINISHED", ?_⟩
    simp only [exec, Prod.map_snd, id_eq]
    exact hattempt hstep
  case finish id completion =>
    refine Or.inr ⟨.transition id completion.target completion.code, ?_⟩
    simp only [exec, Prod.map_snd, id_eq]
    exact hattempt hstep
  case abortDrain error =>
    split_ifs at hstep
    exact Or.inl (congrArg Prod.snd (Option.some.inj hstep)).symm
  case abort error todo firstError =>
    cases todo with
    | nil => exact Or.inl (congrArg Prod.snd (Option.some.inj hstep)).symm
    | cons id todo => exact Or.inl (congrArg Prod.snd (Option.some.inj hstep)).symm
  case abortMove error todo firstError id target =>
    refine Or.inr ⟨.transition id target "CONTROL_PLANE_FAILED", ?_⟩
    simp only [exec, Prod.map_snd, id_eq]
    cases hcall : transition env.call db id target "CONTROL_PLANE_FAILED" with
    | mk result d =>
      rw [hcall] at hstep
      cases result with
      | error cleanup => exact congrArg Prod.snd hstep
      | ok record => exact congrArg Prod.snd hstep
  case done => cases hstep

/-- An event adds milestones of workers or pauses the window. -/
theorem receive_eq_some {event : WindowEvent} (hevent : w.receive event = some w') :
    ∃ milestones control, milestones ⊆ w.workers ∧ milestones.length = event.milestones ∧
      control.admission = (w.control.admission || event.pauses) ∧ w.isDone = false ∧
      w' = { w with milestones := w.milestones ++ milestones, control := control } := by
  unfold receive at hevent
  split_ifs at hevent with hdone
  have hopen := Bool.eq_false_of_not_eq_true hdone
  cases event with
  | milestone id =>
    simp only [Option.ite_none_right_eq_some, Option.some.injEq] at hevent
    obtain ⟨hworker, rfl⟩ := hevent
    exact ⟨[id], w.control, by simpa using hworker, rfl, (Bool.or_false _).symm, hopen, rfl⟩
  | pauseFinishCurrent | pauseImmediate =>
    cases hevent
    exact ⟨[], _, List.nil_subset _, rfl, (Bool.or_true _).symm, hopen, by rw [List.append_nil]⟩

theorem step_writes (h : Sound json db) (hstep : w.step env db = some (w', db')) :
    Writes json db db' := by
  obtain rfl | ⟨call, rfl⟩ := step_call json hstep
  · exact .refl
  · exact exec_writes env.call h call

end Window

theorem QueueStep.writes {json : ReportJson} {s t : QueueState} {label : QueueLabel}
    (h : Sound json s.db) (hstep : QueueStep json s label t) : Writes json s.db t.db := by
  cases label with
  | step env => exact Window.step_writes h hstep
  | event event =>
    rw [hstep.2]
  | other label => exact StoreStep.writes h hstep.1

end Anole
