import Anole.Queue.Accounting

/-!
# Two stores that differ in one job

The store does to a job what it finds in the rows of this job: its row, its events, its
reservation. A call about a job that is the same in two stores comes out the same in both, and
leaves the other jobs of both alone (`SameCall`). A step of a window that does not concern the job
in which the stores differ is therefore one step on both (`Window.step_pair`).
-/

open Common

namespace Anole

section Stores

variable {json : ReportJson} {env : CallEnv} {db db' d d' : Database} {id : Uuid} {next : JobState}
  {code : String} {row : JobRow} {α : Type} {call : Database → Except AnoleError α × Database}

theorem Untouched.symm (h : Untouched id db db') : Untouched id db' db :=
  ⟨h.job.symm, h.log.symm, h.reservation.symm⟩

theorem mem_of_job? (h : db.job? id = some row) : row ∈ db.jobs ∧ row.id = id :=
  ⟨List.mem_of_find?_eq_some h, by simpa using List.find?_some h⟩

theorem MovesJob.ownedKey_moved {rs : List ReservationRow} (hm : MovesJob env db id next code row rs d)
    (hnext : next ≠ .queued) : d.ownedKey id = if next.isTerminal then none else db.ownedKey id := by
  obtain rfl := hm.jobId
  rw [hm.result]
  cases hm.reservations with
  | keep hprev hactive =>
    rw [hactive]
    rfl
  | acquire key now hqueued => exact absurd hqueued hnext
  | release hterminal =>
    rw [if_pos hterminal]
    refine ownedKey_eq_none.mpr fun r hr => ?_
    simpa using (List.mem_filter.mp hr).2

/-- Moves of the same row in two stores leave the job the same. -/
theorem MovesJob.same {rs rs' : List ReservationRow} (h : Sound json db) (h' : Sound json db')
    (hm : MovesJob env db id next code row rs d) (hm' : MovesJob env db' id next code row rs' d')
    (hnext : next ≠ .queued) (hsame : Untouched id db db') : Untouched id d d' where
  job := by rw [hm.job? h, hm'.job? h']
  log := by rw [hm.log, hm'.log, hsame.log]
  reservation := by rw [hm.ownedKey_moved hnext, hm'.ownedKey_moved hnext, hsame.reservation]

/-- A call about a job comes out the same in both stores, and leaves the other jobs alone. -/
structure SameCall {α : Type} (id : Uuid) (db db' : Database) (call : Database → Except AnoleError α × Database) :
    Prop where
  result : (call db').1 = (call db).1
  own : Untouched id (call db).2 (call db').2
  left : ∀ other, other ≠ id → Untouched other db (call db).2
  right : ∀ other, other ≠ id → Untouched other db' (call db').2

/-- Every job that agreed before agrees after it. -/
theorem SameCall.agree
    (hcall : SameCall id db db' call) (other : Uuid) (hsame : Untouched other db db') :
    Untouched other (call db).2 (call db').2 := by
  by_cases heq : other = id
  · rw [heq]
    exact hcall.own
  · exact ((hcall.left other heq).symm.trans hsame).trans (hcall.right other heq)

theorem sameCall_failed (error : AnoleError)
    (hsame : Untouched id db db') (hdb : call db = (.error error, db)) (hdb' : call db' = (.error error, db')) :
    SameCall id db db' call := by
  constructor
  case result => rw [hdb, hdb']
  case own => rw [hdb, hdb']; exact hsame
  case left => rw [hdb]; exact fun other _ => .refl other db
  case right => rw [hdb']; exact fun other _ => .refl other db'

theorem sameCall_refused {body : Database → Except AnoleError (α × Database)} (error : AnoleError)
    (hsame : Untouched id db db') (hfault : env.fault = none) (hdb : body db = .error error)
    (hdb' : body db' = .error error) : SameCall id db db' fun db => transaction env db (body db) := by
  refine sameCall_failed error hsame ?_ ?_
  · show transaction env db (body db) = _
    rw [hdb, transaction_of_error hfault]
  · show transaction env db' (body db') = _
    rw [hdb', transaction_of_error hfault]

theorem MovesJob.sameCall {a : α}
    {rs rs' : List ReservationRow} (h : Sound json db) (h' : Sound json db') (hsame : Untouched id db db')
    (hnext : next ≠ .queued) (hdb : call db = (.ok a, d)) (hm : MovesJob env db id next code row rs d)
    (hdb' : call db' = (.ok a, d')) (hm' : MovesJob env db' id next code row rs' d') : SameCall id db db' call := by
  constructor
  case result => rw [hdb, hdb']
  case own => rw [hdb, hdb']; exact hm.same h h' hm' hnext hsame
  case left => rw [hdb]; exact fun other hne => hm.untouched hne
  case right => rw [hdb']; exact fun other hne => hm'.untouched hne

theorem requireJob_none (h : db.job? id = none) : db.requireJob id = .error (jobDoesNotExist id) := by
  rw [Database.requireJob, h]

/-- The number of the next event, or the error when there is none. -/
theorem bindU64_cases (n : ℕ) : (n + 1 < sqliteIntegerLimit ∧ bindU64 (nextSequence n) = .ok (n + 1)) ∨
    ∃ error, bindU64 (nextSequence n) = .error error := by
  cases hbind : bindU64 (nextSequence n) with
  | ok m =>
    obtain ⟨rfl, hroom⟩ := bindU64_nextSequence hbind
    exact .inl ⟨hroom, rfl⟩
  | error error => exact .inr ⟨error, rfl⟩

/-- **A transition of a job that is the same in two stores** comes out the same. -/
theorem transition_same (env : CallEnv) (h : Sound json db) (h' : Sound json db') (hsame : Untouched id db db')
    (hnext : next ≠ .queued) (code : String) : SameCall id db db' fun db => transition env db id next code := by
  cases hfault : env.fault with
  | some error =>
    refine sameCall_failed error hsame ?_ ?_ <;>
    · show transaction env _ _ = _
      unfold transaction
      rw [hfault]
  | none =>
    cases hjob : db.job? id with
    | none =>
      refine sameCall_refused (jobDoesNotExist id) hsame hfault ?_ ?_
      · rw [transitionBody, requireJob_none hjob]
        rfl
      · rw [transitionBody, requireJob_none (hsame.job.trans hjob)]
        rfl
    | some row =>
      obtain ⟨hrow, rfl⟩ := mem_of_job? hjob
      obtain ⟨hrow', -⟩ := mem_of_job? (hsame.job.trans hjob)
      have hrequire := requireJob_of_mem h.jobs.jobIds hrow
      have hrequire' := requireJob_of_mem h'.jobs.jobIds hrow'
      by_cases hlegal : row.state.canTransitionTo next = true
      · obtain ⟨hroom, hbind⟩ | ⟨error, hbind⟩ := bindU64_cases row.sequence
        · obtain ⟨d, rs, hok, hm⟩ := transition_of_legal h hrow hlegal hnext hroom hfault code
          obtain ⟨d', rs', hok', hm'⟩ := transition_of_legal h' hrow' hlegal hnext hroom hfault code
          exact hm.sameCall h h' hsame hnext hok hok' hm'
        · refine sameCall_refused error hsame hfault ?_ ?_
          · rw [transitionBody, hrequire]
            simp only [bind, Except.bind, hlegal, not_true_eq_false, if_false, reserveFor, if_neg hnext, hbind]
          · rw [transitionBody, hrequire']
            simp only [bind, Except.bind, hlegal, not_true_eq_false, if_false, reserveFor, if_neg hnext, hbind]
      · refine sameCall_refused (invalidJobTransition row.state next) hsame hfault ?_ ?_
        · rw [transitionBody, hrequire]
          simp only [bind, Except.bind, hlegal]
          rfl
        · rw [transitionBody, hrequire']
          simp only [bind, Except.bind, hlegal]
          rfl

theorem claimQueuedJob_same (env : CallEnv) (h : Sound json db) (h' : Sound json db') (hsame : Untouched id db db')
    (code : String) : SameCall id db db' fun db => claimQueuedJob env db id code := by
  cases hfault : env.fault with
  | some error =>
    refine sameCall_failed error hsame ?_ ?_ <;>
    · show transaction env _ _ = _
      unfold transaction
      rw [hfault]
  | none =>
    cases hjob : db.job? id with
    | none =>
      refine sameCall_refused (jobDoesNotExist id) hsame hfault ?_ ?_
      · rw [claimQueuedJobBody, requireJob_none hjob]
        rfl
      · rw [claimQueuedJobBody, requireJob_none (hsame.job.trans hjob)]
        rfl
    | some row =>
      obtain ⟨hrow, rfl⟩ := mem_of_job? hjob
      obtain ⟨hrow', -⟩ := mem_of_job? (hsame.job.trans hjob)
      have hrequire := requireJob_of_mem h.jobs.jobIds hrow
      have hrequire' := requireJob_of_mem h'.jobs.jobIds hrow'
      by_cases hqueued : row.state = .queued
      · obtain ⟨hroom, hbind⟩ | ⟨error, hbind⟩ := bindU64_cases row.sequence
        · obtain ⟨d, hok, hm⟩ := claimQueuedJob_of_queued h hrow hqueued hroom hfault code
          obtain ⟨d', hok', hm'⟩ := claimQueuedJob_of_queued h' hrow' hqueued hroom hfault code
          exact hm.sameCall h h' hsame (by decide) hok hok' hm'
        · refine sameCall_refused error hsame hfault ?_ ?_
          · rw [claimQueuedJobBody, hrequire]
            simp only [bind, Except.bind, hqueued, ne_eq, not_true_eq_false, if_false, hbind]
          · rw [claimQueuedJobBody, hrequire']
            simp only [bind, Except.bind, hqueued, ne_eq, not_true_eq_false, if_false, hbind]
      · have hskipped : ∀ {other : Database}, other.requireJob row.id = .ok row →
            claimQueuedJob env other row.id code = (.ok none, other) := by
          intro other hother
          refine transaction_ok.mpr ⟨hfault, ?_⟩
          rw [claimQueuedJobBody, hother]
          simp only [bind, Except.bind, hqueued, ne_eq, not_false_eq_true, if_true]
          rfl
        constructor
        case result => rw [hskipped hrequire, hskipped hrequire']
        case own => rw [hskipped hrequire, hskipped hrequire']; exact hsame
        case left => rw [hskipped hrequire]; exact fun other _ => .refl other db
        case right => rw [hskipped hrequire']; exact fun other _ => .refl other db'

theorem getJob_same (env : CallEnv) (hsame : Untouched id db db') : getJob env db' id = getJob env db id := by
  rw [getJob, getJob, hsame.job]

theorem validateOutputReservation_same (env : CallEnv)
    (hpath : (db'.job? id).map JobRow.outputPath = (db.job? id).map JobRow.outputPath)
    (hkey : db'.ownedKey id = db.ownedKey id) :
    validateOutputReservation env db' id = validateOutputReservation env db id := by
  unfold validateOutputReservation getJob
  cases env.fault with
  | some error => rfl
  | none =>
    rw [hkey]
    cases hjob : db.job? id with
    | none =>
      rw [hjob, Option.map_none, Option.map_eq_none_iff] at hpath
      rw [hpath]
    | some row =>
      rw [hjob, Option.map_some, Option.map_eq_some_iff] at hpath
      obtain ⟨row', hrow', hsame⟩ := hpath
      have hrecord : (jobRecordFromRow row').outputPath = (jobRecordFromRow row).outputPath := by
        rw [jobRecordFromRow, jobRecordFromRow, hsame]
      rw [hrow']
      simp only [Option.map_some, bind, Except.bind, pure, Except.pure, hrecord]

theorem recordEngineThroughputSample_same (env : CallEnv) (db db' : Database) (sample : EngineThroughputSample) :
    (recordEngineThroughputSample env db' sample).1 = (recordEngineThroughputSample env db sample).1 ∧
      ∀ id, Untouched id db (recordEngineThroughputSample env db sample).2 := by
  unfold recordEngineThroughputSample transaction
  cases env.fault with
  | some error => exact ⟨rfl, fun id => .refl id db⟩
  | none => exact ⟨rfl, fun id => ⟨rfl, rfl, rfl⟩⟩

end Stores

/-! ## A step on two stores -/

/-- The job of which a step at this point reads or moves the row. -/
def Point.concerns : Point → Option Uuid
  | .claim candidate | .inspect candidate | .prepare candidate _ | .start candidate _ => some candidate.id
  | .markRead id _ | .markMove id _ | .finish id _ | .abort _ (id :: _) _ | .abortMove _ _ _ id _ => some id
  | _ => none

namespace Window

variable {json : ReportJson} {env : StepEnv} {w w' : Window} {db db' d : Database} {id : Uuid}

theorem attempt_eq {α : Type} (w : Window) (result : Except AnoleError α × Database) (next : α → Window) :
    w.attempt result next = ((match result.1 with
      | .error error => w.fail error
      | .ok a => next a), result.2) := by
  obtain ⟨_ | _, _⟩ := result <;> rfl

/-- A step that is the same on both stores. -/
structure PairStep (env : StepEnv) (w : Window) (db db' : Database) (w' : Window) (d d' : Database) : Prop where
  step : w.step env db' = some (w', d')
  agree : ∀ id, Untouched id db db' → Untouched id d d'

theorem pairStep_of_read (hstep : w.step env db' = some (w', db')) : PairStep env w db db' w' db db' :=
  ⟨hstep, fun _ hsame => hsame⟩

theorem pairStep_of_call {α : Type} {call : Database → Except AnoleError α × Database} (next : α → Window)
    (hcall : SameCall id db db' call) (hstep : ∀ db, w.step env db = some (w.attempt (call db) next))
    (hnext : w.step env db = some (w', d)) : ∃ d', PairStep env w db db' w' d d' := by
  rw [hstep, attempt_eq, Option.some.injEq, Prod.mk.injEq] at hnext
  obtain ⟨rfl, rfl⟩ := hnext
  refine ⟨(call db').2, ?_, hcall.agree⟩
  rw [hstep, attempt_eq, hcall.result]

/-- **A step of the loop about a job that is the same in both stores** is the same on both. -/
theorem step_pair (h : Sound json db) (h' : Sound json db') (hexec : w.point.executing = true)
    (hsame : ∀ id, w.point.concerns = some id → Untouched id db db') (hstep : w.step env db = some (w', d)) :
    ∃ d', PairStep env w db db' w' d d' := by
  have hread : ∀ {v : Window}, w.step env db = some (v, db) → w.step env db' = some (v, db') →
      ∃ d', PairStep env w db db' w' d d' := by
    intro v hdb hdb'
    rw [hdb, Option.some.injEq, Prod.mk.injEq] at hstep
    obtain ⟨rfl, rfl⟩ := hstep
    exact ⟨db', pairStep_of_read hdb'⟩
  cases hp : w.point with
  | claim candidate =>
    have hjob := hsame candidate.id (by rw [hp]; rfl)
    have hcall := claimQueuedJob_same env.call h h' hjob "QUEUE_REINSPECTING"
    refine pairStep_of_call (w.afterClaim candidate) hcall (fun db => ?_) hstep
    rw [step, hp]
  | prepare candidate verdict =>
    have hjob := hsame candidate.id (by rw [hp]; rfl)
    have hcall := transition_same env.call h h' hjob verdict.target_ne_queued verdict.code
    refine pairStep_of_call (fun _ => w.afterPrepare candidate verdict) hcall (fun db => ?_) hstep
    rw [step, hp]
  | start candidate probe =>
    have hjob := hsame candidate.id (by rw [hp]; rfl)
    have hnext : JobState.running ≠ .queued := by decide
    have hcall := transition_same env.call h h' hjob hnext "ENGINE_STARTED"
    refine pairStep_of_call (fun _ => w.spawn env candidate probe) hcall (fun db => ?_) hstep
    rw [step, hp]
  | markMove id after =>
    have hjob := hsame id (by rw [hp]; rfl)
    have hnext : JobState.validating ≠ .queued := by decide
    have hcall := transition_same env.call h h' hjob hnext "ENGINE_FINISHED"
    refine pairStep_of_call (fun _ => w.afterMark id after) hcall (fun db => ?_) hstep
    rw [step, hp]
  | finish id completion =>
    have hjob := hsame id (by rw [hp]; rfl)
    have hcall := transition_same env.call h h' hjob completion.target_ne_queued completion.code
    refine pairStep_of_call (fun _ => w.afterFinish id completion) hcall (fun db => ?_) hstep
    rw [step, hp]
  | inspect candidate =>
    have hjob := hsame candidate.id (by rw [hp]; rfl)
    have hcheck : w.inspect env db' candidate = w.inspect env db candidate := by
      rw [inspect, inspect, validateOutputReservation_same env.call (by rw [hjob.job]) hjob.reservation]
    refine hread (v := w.inspect env db candidate) ?_ ?_
    · simp only [step, hp]
    · simp only [step, hp, hcheck]
  | markRead id after =>
    have hjob := hsame id (by rw [hp]; rfl)
    have hmark : w.markRead env db' id after = w.markRead env db id after := by
      rw [markRead, markRead, getJob_same env.call hjob]
    refine hread (v := w.markRead env db id after) ?_ ?_
    · simp only [step, hp]
    · simp only [step, hp, hmark]
  | sample id report =>
    cases htelemetry : w.telemetryFor id report with
    | none =>
      refine hread (v := w.goto (.markRead id (some (.validated report.status)))) ?_ ?_
      · simp only [step, hp, htelemetry]
      · simp only [step, hp, htelemetry]
    | some telemetry =>
      have hwrites := recordEngineThroughputSample_same env.call db db' (sampleOf env report telemetry)
      have hwrites' := recordEngineThroughputSample_same env.call db' db' (sampleOf env report telemetry)
      simp only [step, hp, htelemetry, attempt_eq, Option.some.injEq, Prod.mk.injEq] at hstep
      obtain ⟨rfl, rfl⟩ := hstep
      refine ⟨(recordEngineThroughputSample env.call db' (sampleOf env report telemetry)).2, ?_, fun id hjob => ?_⟩
      · simp only [step, hp, htelemetry, attempt_eq, hwrites.1]
      · exact ((hwrites.2 id).symm.trans hjob).trans (hwrites'.2 id)
  | top | admission | idle | returning => exact hread (by simp only [step, hp]; rfl) (by simp only [step, hp])
  | select =>
    cases hselect : w.select env.ready with
    | none =>
      simp only [step, hp, hselect] at hstep
      cases hstep
    | some v =>
      refine hread (v := v) ?_ ?_
      · simp only [step, hp, hselect, Option.map_some]
      · simp only [step, hp, hselect, Option.map_some]
  | report id report =>
    cases hcallback : env.onReport id report with
    | error error =>
      refine hread (v := w.fail error) ?_ ?_
      · simp only [step, hp, hcallback]
      · simp only [step, hp, hcallback]
    | ok u =>
      refine hread (v := w.afterReport id report) ?_ ?_
      · simp only [step, hp, hcallback]
      · simp only [step, hp, hcallback]
  | abortDrain | abort | abortMove =>
    rw [hp] at hexec
    cases hexec
  | done result =>
    simp only [step, hp] at hstep
    cases hstep

end Window

end Anole
