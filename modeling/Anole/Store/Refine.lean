import Anole.Store.Write

/-!
# The transaction bodies are abstract writes

One specification lemma for each statement and each transaction body of
`Anole.Store.Jobs` and `Anole.Store.Selection`: on a sound database a successful
body is a sequence of `Write`s. The bulk action is taken apart in `Anole.Store.Turns`, and the calls are put together
in `Anole.Store.Runs`.
-/

open Common Relation

namespace Anole

/-! ## Statements -/

section Statements

variable {db db' : Database} {row : JobRow}

theorem insertJobRow_ok (h : db.insertJobRow row = .ok db') :
    (∀ r ∈ db.jobs, r.id ≠ row.id) ∧ db' = { db with jobs := db.jobs ++ [row] } := by
  obtain ⟨hfree, rfl⟩ := insertRow_eq_ok.mp h
  exact ⟨fun r hr => by simpa using hfree r hr, rfl⟩

theorem insertJobEvent_ok {row : EventRow} (h : db.insertJobEvent row = .ok db') :
    db' = { db with jobEvents := db.jobEvents ++ [row] } := by
  exact (insertRow_eq_ok.mp h).2

/-- The database with other reservations. -/
def Database.withReservations (db : Database) (rs : List ReservationRow) : Database :=
  { db with outputReservations := rs }

theorem ownedKey_eq_none {id : Uuid} :
    db.ownedKey id = none ↔ ∀ r ∈ db.outputReservations, r.jobId ≠ id := by
  rw [Database.ownedKey, Option.map_eq_none_iff, Table.find?_eq_none]

/-- The specification of `reserve_output`: the job keeps the reservation it has
    under this key, or holds exactly the new one, which no other job holds. -/
theorem reserveOutput_ok {key : PathBuf → Except AnoleError String} {id : Uuid} {path : PathBuf}
    {now : ℤ} (h : reserveOutput key db id path now = .ok db') :
    ∃ k, key path = .ok k ∧
      ((db.ownedKey id = some k ∧ db' = db) ∨
       (db.ownedKey id ≠ some k ∧
        (∀ r ∈ db.outputReservations, r.jobId ≠ id → r.canonicalOutputPath ≠ k) ∧
        db' = db.withReservations
          (Table.delete (fun r => r.jobId = id) db.outputReservations ++ [⟨k, id, now⟩]))) := by
  unfold reserveOutput at h
  obtain ⟨k, hk, h⟩ := bind_eq_ok.mp h
  refine ⟨k, hk, ?_⟩
  by_cases hown : db.ownedKey id = some k
  · simp only [hown, if_true] at h
    cases h
    exact Or.inl ⟨hown, rfl⟩
  · right
    refine ⟨hown, ?_⟩
    simp only [hown, if_false] at h
    -- giving up the old key or not, the rows before the insert are those of other jobs
    have hrows : (if (db.ownedKey id).isSome then db.deleteReservation id else db) =
        db.withReservations (Table.delete (fun r => r.jobId = id) db.outputReservations) := by
      cases hnone : db.ownedKey id with
      | some _ => rfl
      | none =>
        have : Table.delete (fun r => r.jobId = id) db.outputReservations = db.outputReservations :=
          Table.delete_eq_self fun r hr => by simpa using ownedKey_eq_none.mp hnone r hr
        rw [this]; rfl
    simp only [hrows] at h
    obtain ⟨hfree, rfl⟩ := insertRow_eq_ok.mp h
    refine ⟨fun r hr hid => ?_, rfl⟩
    have := hfree r (Table.mem_delete.mpr ⟨hr, by simpa using hid⟩)
    simp only [decide_eq_false_iff_not, not_or] at this
    exact this.1

theorem bindU64_ok {n m : ℕ} (h : bindU64 n = .ok m) : m = n ∧ n < sqliteIntegerLimit := by
  unfold bindU64 at h
  split_ifs at h with hlt
  cases h; exact ⟨rfl, hlt⟩

/-- A sequence number that can be bound is the successor of the stored one. -/
theorem bindU64_nextSequence {n m : ℕ} (h : bindU64 (nextSequence n) = .ok m) :
    m = n + 1 ∧ n + 1 < sqliteIntegerLimit := by
  obtain ⟨rfl, hlt⟩ := bindU64_ok h
  have hlim : sqliteIntegerLimit < 2 ^ 64 - 1 := by decide
  unfold nextSequence at *
  omega

theorem bindU64_nextSequence_of_lt {n : ℕ} (h : n + 1 < sqliteIntegerLimit) :
    bindU64 (nextSequence n) = .ok (n + 1) := by
  have hlim : sqliteIntegerLimit < 2 ^ 64 - 1 := by decide
  have hnext : nextSequence n = n + 1 := by unfold nextSequence; omega
  rw [hnext, bindU64]
  simp only [h, if_true]

theorem requireJob_ok {id : Uuid} (h : db.requireJob id = .ok row) :
    row ∈ db.jobs ∧ row.id = id := by
  unfold Database.requireJob at h
  split at h
  · next r hr =>
    cases h
    exact ⟨List.mem_of_find?_eq_some hr, by simpa using List.find?_some hr⟩
  · cases h

theorem job?_of_mem (hkeyed : Table.Keyed JobRow.id db.jobs) (hrow : row ∈ db.jobs) :
    db.job? row.id = some row :=
  hkeyed.find?_of_mem hrow

theorem requireJob_of_mem (hkeyed : Table.Keyed JobRow.id db.jobs)
    (hrow : row ∈ db.jobs) : db.requireJob row.id = .ok row := by
  rw [Database.requireJob, job?_of_mem hkeyed hrow]

/-- The compare-and-set on the row that was read changes exactly that row. -/
theorem updateJob_of_mem (db : Database) (hkeyed : Table.Keyed JobRow.id db.jobs)
    (hrow : row ∈ db.jobs) {set : JobRow → JobRow} :
    db.updateJob row.id row.state row.sequence set =
      ({ db with jobs := Table.update (fun r => r.id = row.id) set db.jobs }, 1) := by
  unfold Database.updateJob
  refine Prod.ext ?_ ?_
  · have : Table.update (fun r : JobRow =>
        decide (r.id = row.id ∧ r.state = row.state ∧ r.sequence = row.sequence)) set db.jobs =
        Table.update (fun r => r.id = row.id) set db.jobs := by
      refine Table.update_congr fun r hr => ?_
      by_cases hid : r.id = row.id
      · rw [hkeyed.eq hr hrow hid]; simp
      · simp [hid]
    simp only [this]
  · exact hkeyed.countP_eq_one hrow (by simp) fun s hs => by simp at hs; exact hs.1

end Statements

/-! ## Creating jobs -/

section Create

variable {json : ReportJson} {env : CallEnv} {db db' : Database}

/-- The specification of one round of `insert_jobs`. -/
theorem insertJob_ok (h : Sound json db) {id : Uuid} {n : ℕ} {request : JobCreateRequest}
    {record : JobRecord} (hok : insertJob env id n db request = .ok (record, db')) :
    ∃ key, env.reservationKey n request.outputPath = .ok key ∧
      (∀ r ∈ db.jobs, r.id ≠ id) ∧ (∀ r ∈ db.outputReservations, r.canonicalOutputPath ≠ key) ∧
      record = newJobRecord env id request ∧
      db' = db.withCreated (newJobRow env id request) key := by
  unfold insertJob at hok
  obtain ⟨db1, h1, hok⟩ := bind_eq_ok.mp hok
  obtain ⟨db2, h2, hok⟩ := bind_eq_ok.mp hok
  obtain ⟨db3, h3, hok⟩ := bind_eq_ok.mp hok
  cases hok
  obtain ⟨hid, rfl⟩ := insertJobRow_ok h1
  obtain ⟨key, hkey, hres⟩ := reserveOutput_ok h2
  have hnone : ∀ r ∈ db.outputReservations, r.jobId ≠ id := by
    intro r hr heq
    obtain ⟨row, hrow, hr0, _⟩ := h.jobs.reservationActive r hr
    exact hid row hrow (hr0.trans heq)
  have hdel : Table.delete (fun r => r.jobId = id) db.outputReservations = db.outputReservations :=
    Table.delete_eq_self fun r hr => by simpa using hnone r hr
  rcases hres with ⟨hown, _⟩ | ⟨_, hfree, rfl⟩
  · have : db.ownedKey id = some key := hown
    rw [ownedKey_eq_none.mpr hnone] at this; cases this
  · refine ⟨key, hkey, hid, fun r hr => hfree r hr (hnone r hr), rfl, ?_⟩
    rw [insertJobEvent_ok h3]
    simp only [hdel]
    rfl

theorem insertJob_write (h : Sound json db) {id : Uuid} {n : ℕ} {request : JobCreateRequest}
    {record : JobRecord} (hok : insertJob env id n db request = .ok (record, db')) :
    Write json db db' := by
  obtain ⟨key, _, hid, hkey, _, rfl⟩ := insertJob_ok h hok
  exact .create _ key rfl rfl hid hkey

/-- The specification of `insert_jobs`: the new rows follow the old ones. -/
theorem insertJobs_ok {newV4 : ℕ → Uuid} :
    ∀ (requests : List JobCreateRequest) {n : ℕ} {db db' : Database} {records : List JobRecord},
      Sound json db → insertJobs env newV4 n db requests = .ok (records, db') →
      Writes json db db' ∧ ∃ rows, db'.jobs = db.jobs ++ rows ∧
        rows.map JobRow.id = records.map JobRecord.id ∧
        ∀ row ∈ rows, row.state = .planned ∧ row.sequence = 0 := by
  intro requests
  induction requests with
  | nil => intro n db db' records _ hok; cases hok; exact ⟨.refl, [], by simp, rfl, by simp⟩
  | cons request requests ih =>
    intro n db db' records h hok
    rw [insertJobs] at hok
    obtain ⟨⟨record, db1⟩, h1, hok⟩ := bind_eq_ok.mp hok
    obtain ⟨⟨records', db2⟩, h2, hok⟩ := bind_eq_ok.mp hok
    cases hok
    have hw := insertJob_write h h1
    obtain ⟨hws, rows, hrows, hids, hnew⟩ := ih (hw.sound h) h2
    obtain ⟨key, _, _, _, rfl, rfl⟩ := insertJob_ok h h1
    refine ⟨.head hw hws, newJobRow env (newV4 n) request :: rows, ?_, ?_, ?_⟩
    · rw [hrows]
      exact List.append_assoc _ [_] rows
    · rw [List.map_cons, List.map_cons, hids]
      rfl
    · intro row hrow
      rcases List.mem_cons.mp hrow with rfl | hrow
      · exact ⟨rfl, rfl⟩
      · exact hnew row hrow

end Create

/-! ## Moves -/

section Moves

variable {json : ReportJson} {env : CallEnv} {db db' : Database} {code : String} {row : JobRow} {id : Uuid}
  {next : JobState} {rs : List ReservationRow} {now : ℤ} {key : String} {enqueue : Bool}

theorem isTerminal_of_ownedKey (h : Sound json db) (hrow : row ∈ db.jobs)
    (hown : db.ownedKey row.id = some key) : row.state.isTerminal = false := by
  unfold Database.ownedKey at hown
  obtain ⟨r, hr, _⟩ := Option.map_eq_some_iff.mp hown
  have hmem := List.mem_of_find?_eq_some hr
  have hid : r.jobId = row.id := by simpa using List.find?_some hr
  obtain ⟨r0, hr0, he0, hs⟩ := h.jobs.reservationActive r hmem
  rwa [h.jobs.jobIds.eq hr0 hrow (he0.trans hid)] at hs

/-- On the way to `Queued`, `reserve_output` makes a reservation move. -/
theorem reserveOutput_move (h : Sound json db) (hrow : row ∈ db.jobs)
    {key : PathBuf → Except AnoleError String} {path : PathBuf}
    (hok : reserveOutput key db row.id path now = .ok db') :
    ∃ rs, ReservationMove db.outputReservations row.id row.state .queued rs ∧
      db' = db.withReservations rs := by
  obtain ⟨k, _, ⟨hown, rfl⟩ | ⟨_, hfree, rfl⟩⟩ := reserveOutput_ok hok
  · exact ⟨_, .keep (isTerminal_of_ownedKey h hrow hown) rfl, rfl⟩
  · exact ⟨_, .acquire k now rfl hfree, rfl⟩

/-- A job that moves to a state other than `Queued` was not terminal before. -/
theorem isTerminal_eq_false_of_move {s next : JobState} (hlegal : s.canTransitionTo next = true)
    (hnext : next ≠ .queued) : s.isTerminal = false := by
  by_contra hs
  exact hnext (JobState.eq_queued_of_isTerminal hlegal (by simpa using hs))

/-- What a move makes of a job, common to the operations that move one. -/
structure MovesJob (env : CallEnv) (db : Database) (id : Uuid) (next : JobState) (code : String)
    (row : JobRow) (rs : List ReservationRow) (db' : Database) : Prop where
  mem : row ∈ db.jobs
  jobId : row.id = id
  legal : row.state.canTransitionTo next = true
  room : row.sequence + 1 < sqliteIntegerLimit
  reservations : ReservationMove db.outputReservations row.id row.state next rs
  result : db' = db.withMoved row next code env.now rs

theorem MovesJob.write
    (hm : MovesJob env db id next code row rs db') :
    Write json db db' := by
  rw [hm.result]
  exact .move row next code env.now rs hm.mem hm.legal hm.room hm.reservations

theorem MovesJob.untouched {id other : Uuid}
    (hm : MovesJob env db id next code row rs db') (hne : other ≠ id) :
    Untouched other db db' := by
  rw [hm.result]
  exact untouched_withMoved (by rw [hm.jobId]; exact hne) hm.reservations

theorem MovesJob.mem_moved (h : Sound json db)
    (hm : MovesJob env db id next code row rs db') :
    row.moved next (row.sequence + 1) env.now ∈ db'.jobs := by
  rw [hm.result]
  exact (mem_update_id h.jobs.jobIds hm.mem).mpr (Or.inl rfl)

theorem MovesJob.log
    (hm : MovesJob env db id next code row rs db') :
    db'.logOf id = db.logOf id ++ [⟨id, row.sequence + 1, some row.state, next, code, env.now⟩] := by
  rw [hm.result, ← hm.jobId]
  exact filter_append_own _ rfl

theorem MovesJob.job? (h : Sound json db)
    (hm : MovesJob env db id next code row rs db') :
    db'.job? id = some (row.moved next (row.sequence + 1) env.now) := by
  rw [← hm.jobId]
  exact job?_of_mem ((hm.write.sound h).jobs.jobIds) (hm.mem_moved h)

/-- The `UPDATE` and the event of a move, after its reservations. -/
theorem updateJob_insertJobEvent (hkeyed : Table.Keyed JobRow.id db.jobs) {row : JobRow}
    (hrow : row ∈ db.jobs) {next : JobState} {code : String} {now : ℤ}
    (hok : (db.updateJob row.id row.state row.sequence fun r =>
        { r with state := next, sequence := row.sequence + 1, updatedUnixMs := now }).1.insertJobEvent
      { jobId := row.id, sequence := row.sequence + 1, previousState := some row.state,
        nextState := next, code := code, timestampUnixMs := now } = .ok db') :
    db' = db.withMoved row next code now db.outputReservations := by
  rw [updateJob_of_mem db hkeyed hrow] at hok
  rw [insertJobEvent_ok hok]
  rfl

/-- The specification of one round of `queue_jobs`. -/
theorem queueJob_ok (h : Sound json db) {n : ℕ} {record : JobRecord}
    (hok : queueJob env code n db id = .ok (record, db')) :
    ∃ row rs, MovesJob env db id .queued code row rs db' ∧
      record = movedRecord row .queued (row.sequence + 1) env.now := by
  unfold queueJob at hok
  obtain ⟨row, hreq, hok⟩ := bind_eq_ok.mp hok
  obtain ⟨hrow, rfl⟩ := requireJob_ok hreq
  obtain ⟨hlegal, hok⟩ := guard_eq_ok.mp hok
  obtain ⟨db1, hres, hok⟩ := bind_eq_ok.mp hok
  obtain ⟨rs, hmove, rfl⟩ := reserveOutput_move h hrow hres
  obtain ⟨sequence, hseq, hok⟩ := bind_eq_ok.mp hok
  obtain ⟨rfl, hroom⟩ := bindU64_nextSequence hseq
  rw [updateJob_of_mem (db.withReservations rs) h.jobs.jobIds hrow] at hok
  obtain ⟨_, hok⟩ := guard_eq_ok.mp hok
  obtain ⟨db2, hevent, hok⟩ := bind_eq_ok.mp hok
  cases hok
  exact ⟨row, rs, ⟨hrow, rfl, by simpa using hlegal, hroom, hmove, insertJobEvent_ok hevent⟩, rfl⟩

theorem queueJobsLoop_writes :
    ∀ (ids : List Uuid) {n : ℕ} {db db' : Database} {records : List JobRecord}, Sound json db →
      queueJobsLoop env code n db ids = .ok (records, db') → Writes json db db' := by
  intro ids
  induction ids with
  | nil => intro n db db' records _ hok; cases hok; exact .refl
  | cons id ids ih =>
    intro n db db' records h hok
    rw [queueJobsLoop] at hok
    obtain ⟨⟨record, db1⟩, h1, hok⟩ := bind_eq_ok.mp hok
    obtain ⟨⟨records', db2⟩, h2, hok⟩ := bind_eq_ok.mp hok
    cases hok
    obtain ⟨row, rs, hm, _⟩ := queueJob_ok h h1
    exact .head hm.write (ih (hm.write.sound h) h2)

/-- The reservations before and after the `UPDATE` of a move together make its
    reservation move. -/
theorem reserveFor_ok (h : Sound json db) (hrow : row ∈ db.jobs)
    (hlegal : row.state.canTransitionTo next = true) {key : PathBuf → Except AnoleError String}
    {path : PathBuf} (hok : reserveFor key db row.id path next now = .ok db') :
    ∃ rs, db' = db.withReservations rs ∧ ∀ d : Database, d.outputReservations = rs →
      ∃ rs', ReservationMove db.outputReservations row.id row.state next rs' ∧
        releaseFor d row.id next = d.withReservations rs' := by
  unfold reserveFor at hok
  by_cases hnext : next = .queued
  · subst hnext
    rw [if_pos rfl] at hok
    obtain ⟨rs, hmove, rfl⟩ := reserveOutput_move h hrow hok
    exact ⟨rs, rfl, fun d hd => ⟨rs, hmove, by rw [← hd]; rfl⟩⟩
  · rw [if_neg hnext] at hok
    cases hok
    refine ⟨db.outputReservations, rfl, fun d hd => ?_⟩
    by_cases hterm : next.isTerminal = true
    · refine ⟨_, .release hterm, ?_⟩
      rw [releaseFor, if_pos hterm, ← hd]
      rfl
    · have hprev := isTerminal_eq_false_of_move hlegal hnext
      refine ⟨_, .keep hprev (by simpa using hterm), ?_⟩
      rw [releaseFor, if_neg hterm, ← hd]
      rfl

/-- The specification of `transition`. -/
theorem transitionBody_ok (h : Sound json db)
    {record : JobRecord} (hok : transitionBody env db id next code = .ok (record, db')) :
    ∃ row rs, MovesJob env db id next code row rs db' ∧
      record = movedRecord row next (row.sequence + 1) env.now := by
  unfold transitionBody at hok
  obtain ⟨row, hreq, hok⟩ := bind_eq_ok.mp hok
  obtain ⟨hrow, rfl⟩ := requireJob_ok hreq
  obtain ⟨hlegal, hok⟩ := guard_eq_ok.mp hok
  simp only [Bool.not_eq_true, Bool.not_eq_false] at hlegal
  obtain ⟨db1, hres, hok⟩ := bind_eq_ok.mp hok
  obtain ⟨rs, rfl, hrelease⟩ := reserveFor_ok h hrow hlegal hres
  obtain ⟨sequence, hseq, hok⟩ := bind_eq_ok.mp hok
  obtain ⟨rfl, hroom⟩ := bindU64_nextSequence hseq
  rw [updateJob_of_mem (db.withReservations rs) h.jobs.jobIds hrow] at hok
  obtain ⟨_, hok⟩ := guard_eq_ok.mp hok
  obtain ⟨db2, hevent, hok⟩ := bind_eq_ok.mp hok
  cases hok
  have hdb2 := insertJobEvent_ok hevent
  obtain ⟨rs', hmove, hrs'⟩ := hrelease db2 (by rw [hdb2]; rfl)
  exact ⟨row, rs', ⟨hrow, rfl, hlegal, hroom, hmove, by rw [hrs', hdb2]; rfl⟩, rfl⟩

/-- The specification of a claim: of the `Queued` job it makes an `Inspecting`
    one, and any other job it leaves alone. -/
theorem claimQueuedJobBody_ok (h : Sound json db)
    {result : Option JobRecord} (hok : claimQueuedJobBody env db id code = .ok (result, db')) :
    ∃ row ∈ db.jobs, row.id = id ∧
      ((row.state ≠ .queued ∧ result = none ∧ db' = db) ∨
       (row.state = .queued ∧ MovesJob env db id .inspecting code row db.outputReservations db' ∧
        result = some (movedRecord row .inspecting (row.sequence + 1) env.now))) := by
  unfold claimQueuedJobBody at hok
  obtain ⟨row, hreq, hok⟩ := bind_eq_ok.mp hok
  obtain ⟨hrow, rfl⟩ := requireJob_ok hreq
  refine ⟨row, hrow, rfl, ?_⟩
  by_cases hqueued : row.state = .queued
  · right
    rw [if_neg (not_not.mpr hqueued)] at hok
    obtain ⟨sequence, hseq, hok⟩ := bind_eq_ok.mp hok
    obtain ⟨rfl, hroom⟩ := bindU64_nextSequence hseq
    rw [← hqueued, updateJob_of_mem db h.jobs.jobIds hrow] at hok
    simp only [ne_eq, not_true_eq_false, if_false] at hok
    obtain ⟨db2, hevent, hok⟩ := bind_eq_ok.mp hok
    cases hok
    refine ⟨hqueued, ⟨hrow, rfl, by rw [hqueued]; rfl, hroom, .keep (by rw [hqueued]; rfl) rfl, ?_⟩,
      rfl⟩
    exact insertJobEvent_ok hevent
  · left
    rw [if_pos hqueued] at hok
    cases hok
    exact ⟨hqueued, rfl, rfl⟩

/-! ### Jobs queued at creation -/

/-- The job with this id is as `insert_jobs` made it. -/
def FreshJob (db : Database) (id : Uuid) : Prop :=
  ∃ row ∈ db.jobs, row.id = id ∧ row.state = .planned ∧ row.sequence = 0

theorem enqueueCreated_ok (h : Sound json db)
    (hfresh : FreshJob db id) (hok : enqueueCreated code now db id = .ok db') :
    ∃ row ∈ db.jobs, row.id = id ∧ row.state = .planned ∧ row.sequence = 0 ∧
      db' = db.withMoved row .queued code now db.outputReservations := by
  obtain ⟨row, hrow, rfl, hstate, hseq⟩ := hfresh
  refine ⟨row, hrow, rfl, hstate, hseq, ?_⟩
  apply updateJob_insertJobEvent h.jobs.jobIds hrow
  rw [hstate, hseq]
  exact hok

theorem enqueueCreated_write (h : Sound json db)
    (hfresh : FreshJob db id) (hok : enqueueCreated code now db id = .ok db') :
    Write json db db' := by
  obtain ⟨row, hrow, _, hstate, hseq, rfl⟩ := enqueueCreated_ok h hfresh hok
  refine .move row .queued code now _ hrow (by rw [hstate]; rfl) ?_ ?_
  · rw [hseq]; decide
  · exact .keep (by rw [hstate]; rfl) rfl

theorem FreshJob.of_enqueueCreated (h : Sound json db) {id other : Uuid}
    (hfresh : FreshJob db id) (hother : FreshJob db other) (hne : other ≠ id)
    (hok : enqueueCreated code now db id = .ok db') : FreshJob db' other := by
  obtain ⟨row, hrow, hid, _, _, rfl⟩ := enqueueCreated_ok h hfresh hok
  obtain ⟨r, hr, hrid, hs⟩ := hother
  refine ⟨r, (mem_update_id h.jobs.jobIds hrow).mpr (Or.inr ⟨hr, ?_⟩), hrid, hs⟩
  rw [hrid, hid]
  exact hne

theorem enqueueLoop_writes :
    ∀ (records : List JobRecord) {db db' : Database}, Sound json db →
      (records.map JobRecord.id).Nodup → (∀ record ∈ records, FreshJob db record.id) →
      records.foldlM (fun db job => enqueueCreated code now db job.id) db = .ok db' →
      Writes json db db' := by
  intro records
  induction records with
  | nil => intro db db' _ _ _ hok; cases hok; exact .refl
  | cons record records ih =>
    intro db db' h hnodup hfresh hok
    obtain ⟨db1, h1, h2⟩ := bind_eq_ok.mp hok
    rw [List.map_cons, List.nodup_cons] at hnodup
    have hrecord := hfresh record (by simp)
    have hw := enqueueCreated_write h hrecord h1
    refine .head hw (ih (hw.sound h) hnodup.2 (fun r hr => ?_) h2)
    refine .of_enqueueCreated h hrecord (hfresh r (List.mem_cons_of_mem _ hr)) ?_ h1
    intro heq
    exact hnodup.1 (List.mem_map.mpr ⟨r, hr, heq⟩)

theorem insertBatchMember_ok {row : BatchMemberRow} (hok : db.insertBatchMember row = .ok db') :
    Write json db db' ∧ db'.jobs = db.jobs := by
  obtain ⟨hfree, rfl⟩ := insertRow_eq_ok.mp hok
  refine ⟨.addBatchMember row fun r hr => ?_, rfl⟩
  have := hfree r hr
  simp only [decide_eq_false_iff_not, not_or] at this
  exact this.1

theorem insertBatch_ok {row : BatchRow} (hok : db.insertBatch row = .ok db') :
    Write json db db' ∧ db'.jobs = db.jobs := by
  obtain ⟨hfree, rfl⟩ := insertRow_eq_ok.mp hok
  exact ⟨.addBatch row fun r hr => by simpa using hfree r hr, rfl⟩

theorem createBatchBody_writes (h : Sound json db) {name : String}
    {requests : List JobCreateRequest} {record : BatchRecord}
    (hok : createBatchBody env name requests enqueue db = .ok (record, db')) :
    Writes json db db' := by
  unfold createBatchBody at hok
  obtain ⟨db1, h1, hok⟩ := bind_eq_ok.mp hok
  obtain ⟨⟨jobs, db2⟩, h2, hok⟩ := bind_eq_ok.mp hok
  obtain ⟨db3, h3, hok⟩ := bind_eq_ok.mp hok
  obtain ⟨hw1, _⟩ : Write json db db1 ∧ _ := insertBatch_ok h1
  obtain ⟨hw2, rows, hrows, hids, hnew⟩ := insertJobs_ok requests (hw1.sound h) h2
  obtain ⟨hw3, hjobs3⟩ : Writes json db2 db3 ∧ db3.jobs = db2.jobs := by
    refine foldlM_invariant (P := fun d => Writes json db2 d ∧ d.jobs = db2.jobs) h3 ⟨.refl, rfl⟩ ?_
    rintro d ⟨job, ordinal⟩ d' _ ⟨hw, hj⟩ hstep
    obtain ⟨hw', hj'⟩ : Write json d d' ∧ _ := insertBatchMember_ok hstep
    exact ⟨.tail hw hw', hj'.trans hj⟩
  have hwrites : Writes json db db3 := .trans (.head hw1 hw2) hw3
  cases enqueue with
  | false => cases hok; exact hwrites
  | true =>
    obtain ⟨db4, h4, hok⟩ := bind_eq_ok.mp hok
    cases hok
    have hsound := hwrites.sound h
    refine .trans hwrites (enqueueLoop_writes jobs hsound ?_ (fun record hrecord => ?_) h4)
    · have hkeyed := hsound.jobs.jobIds
      rw [hjobs3, hrows, Table.Keyed, List.map_append, hids] at hkeyed
      exact (List.nodup_append.mp hkeyed).2.1
    · obtain ⟨row, hrow, hid⟩ := List.mem_map.mp (hids ▸ List.mem_map_of_mem hrecord)
      refine ⟨row, ?_, hid, hnew row hrow⟩
      rw [hjobs3, hrows]
      exact List.mem_append_right _ hrow

/-! ### Idempotent submission -/

theorem boundJob_eq_some (h : Sound json db) :
    db.boundJob key = some row ↔
      row ∈ db.jobs ∧ ∃ r ∈ db.jobIdempotencyKeys, r.idempotencyKey = key ∧ r.jobId = row.id := by
  unfold Database.boundJob
  rw [Option.bind_eq_some_iff]
  constructor
  · rintro ⟨r, hr, hrow⟩
    obtain ⟨hmem, hid⟩ := h.jobs.jobIds.find?_eq_some.mp hrow
    obtain ⟨hr, hkey⟩ := h.links.idempotencyKeys.find?_eq_some.mp hr
    exact ⟨hmem, r, hr, hkey, hid.symm⟩
  · rintro ⟨hmem, r, hr, hkey, hid⟩
    exact ⟨r, h.links.idempotencyKeys.find?_eq_some.mpr ⟨hr, hkey⟩,
      h.jobs.jobIds.find?_eq_some.mpr ⟨hmem, hid.symm⟩⟩

theorem insertIdempotencyKey_ok {row : IdempotencyRow}
    (hok : db.insertIdempotencyKey row = .ok db') :
    (∀ r ∈ db.jobIdempotencyKeys, r.idempotencyKey ≠ row.idempotencyKey) ∧
      db' = { db with jobIdempotencyKeys := db.jobIdempotencyKeys ++ [row] } := by
  obtain ⟨hfree, rfl⟩ := insertRow_eq_ok.mp hok
  refine ⟨fun r hr => ?_, rfl⟩
  have := hfree r hr
  simp only [decide_eq_false_iff_not, not_or] at this
  exact this.1

/-- Binding a free key to a job created in the same transaction. -/
def Database.withKey (db : Database) (row : IdempotencyRow) : Database :=
  { db with jobIdempotencyKeys := db.jobIdempotencyKeys ++ [row] }

/-- The specification of idempotent submission: a bound key returns its job and
    writes nothing; a free key creates a job and binds the key to it. -/
theorem createJobIdempotentBody_ok (h : Sound json db) {request : JobCreateRequest}
    {result : IdempotentJobResult}
    (hok : createJobIdempotentBody env key request enqueue db = .ok (result, db')) :
    (∃ row, db.boundJob key = some row ∧ sameIntent env row request = .ok true ∧
      result = { job := jobRecordFromRow row, created := false } ∧ db' = db) ∨
    (db.boundJob key = none ∧ result.created = true ∧ result.job.id = env.newV4 0 ∧
      ∃ k, let db1 := (db.withCreated (newJobRow env (env.newV4 0) request) k).withKey
            ⟨key, env.newV4 0, env.now⟩
        Writes json db db1 ∧ FreshJob db1 (env.newV4 0) ∧
        (enqueue = false ∧ db' = db1 ∨
         enqueue = true ∧ enqueueCreated "JOB_ENQUEUED" env.now db1 (env.newV4 0) = .ok db')) := by
  unfold createJobIdempotentBody at hok
  split at hok
  · next row hbound =>
    left
    obtain ⟨same, hsame, hok⟩ := bind_eq_ok.mp hok
    cases same with
    | false => cases hok
    | true => cases hok; exact ⟨row, hbound, hsame, rfl, rfl⟩
  · next hbound =>
    right
    obtain ⟨⟨job, db1⟩, h1, hok⟩ := bind_eq_ok.mp hok
    obtain ⟨db2, h2, hok⟩ := bind_eq_ok.mp hok
    have hw := insertJob_write h h1
    obtain ⟨k, _, _, _, rfl, rfl⟩ := insertJob_ok h h1
    obtain ⟨hfree, rfl⟩ := insertIdempotencyKey_ok h2
    have hbind : Write json (db.withCreated (newJobRow env (env.newV4 0) request) k)
        ((db.withCreated (newJobRow env (env.newV4 0) request) k).withKey
          ⟨key, env.newV4 0, env.now⟩) :=
      .bindKey _ hfree ⟨newJobRow env (env.newV4 0) request, List.mem_append_right _ (by simp), rfl⟩
    refine ⟨hbound, ?_⟩
    cases enqueue with
    | false =>
      cases hok
      refine ⟨rfl, rfl, k, .tail (.single hw) hbind, ?_, Or.inl ⟨rfl, rfl⟩⟩
      exact ⟨_, List.mem_append_right _ (List.mem_singleton.mpr rfl), rfl, rfl, rfl⟩
    | true =>
      obtain ⟨db3, h3, hok⟩ := bind_eq_ok.mp hok
      cases hok
      refine ⟨rfl, rfl, k, .tail (.single hw) hbind, ?_, Or.inr ⟨rfl, h3⟩⟩
      exact ⟨_, List.mem_append_right _ (List.mem_singleton.mpr rfl), rfl, rfl, rfl⟩

theorem createJobIdempotentBody_writes (h : Sound json db)
    {request : JobCreateRequest} {result : IdempotentJobResult}
    (hok : createJobIdempotentBody env key request enqueue db = .ok (result, db')) :
    Writes json db db' := by
  rcases createJobIdempotentBody_ok h hok with ⟨row, _, _, _, rfl⟩ |
    ⟨_, _, _, k, hw, hfresh, ⟨_, rfl⟩ | ⟨_, henqueue⟩⟩
  · exact .refl
  · exact hw
  · exact .tail hw (enqueueCreated_write (hw.sound h) hfresh henqueue)

/-! ### Audits and evidence -/

/-- The specification of staging cleanup: an audit event and nothing else. -/
theorem cleanupStagingBody_ok (h : Sound json db)
    {cleanup : JobRecord → Except AnoleError Bool} {result : JobRecord × Bool}
    (hok : cleanupStagingBody env db id cleanup = .ok (result, db')) :
    ∃ row ∈ db.jobs, ∃ code ∈ cleanupCodes, row.id = id ∧ cleanupAllowed row.state = true ∧
      row.sequence + 1 < sqliteIntegerLimit ∧ db' = db.withAudited row code env.now := by
  unfold cleanupStagingBody at hok
  obtain ⟨row, hreq, hok⟩ := bind_eq_ok.mp hok
  obtain ⟨hrow, rfl⟩ := requireJob_ok hreq
  obtain ⟨hallowed, hok⟩ := guard_eq_ok.mp hok
  obtain ⟨removed, _, hok⟩ := bind_eq_ok.mp hok
  obtain ⟨sequence, hseq, hok⟩ := bind_eq_ok.mp hok
  obtain ⟨rfl, hroom⟩ := bindU64_nextSequence hseq
  simp only [jobRecordFromRow_state, jobRecordFromRow_sequence,
    updateJob_of_mem db h.jobs.jobIds hrow] at hok
  obtain ⟨_, hok⟩ := guard_eq_ok.mp hok
  obtain ⟨db2, hevent, hok⟩ := bind_eq_ok.mp hok
  cases hok
  refine ⟨row, hrow, _, ?_, rfl, by simpa using hallowed, hroom, insertJobEvent_ok hevent⟩
  unfold cleanupCodes
  split_ifs
  · simp
  · simp

theorem insertRevalidation_ok {row : RevalidationRow} (hok : db.insertRevalidation row = .ok db') :
    db' = { db with jobRevalidations := db.jobRevalidations ++ [row] } := by
  exact (insertRow_eq_ok.mp hok).2

/-- The specification of `record_revalidation`. -/
theorem recordRevalidationBody_ok {report : ValidationReport} {text : String}
    {record : RevalidationRecord}
    (hok : recordRevalidationBody env db id report text = .ok (record, db')) :
    ∃ row ∈ db.jobs, row.id = id ∧ revalidationAllowed row.state = true ∧
      report.planHash = row.planHash ∧
      db' = { db with jobRevalidations := db.jobRevalidations ++
        [⟨env.newV4 0, id, report.status, text, env.now⟩] } := by
  unfold recordRevalidationBody at hok
  obtain ⟨row, hreq, hok⟩ := bind_eq_ok.mp hok
  obtain ⟨hrow, hid⟩ := requireJob_ok hreq
  obtain ⟨hallowed, hok⟩ := guard_eq_ok.mp hok
  obtain ⟨hplan, hok⟩ := guard_eq_ok.mp hok
  obtain ⟨db1, h1, hok⟩ := bind_eq_ok.mp hok
  cases hok
  exact ⟨row, hrow, hid, by simpa using hallowed, not_not.mp hplan, insertRevalidation_ok h1⟩

end Moves

/-! ## Selections and bulk actions -/

section Selections

variable {json : ReportJson} {env : CallEnv} {db db' : Database}

theorem insertSelectionSnapshot_ok {row : SelectionSnapshotRow}
    (hok : db.insertSelectionSnapshot row = .ok db') :
    Write json db db' ∧ db'.jobs = db.jobs := by
  obtain ⟨hfree, rfl⟩ := insertRow_eq_ok.mp hok
  exact ⟨.addSelection row fun r hr => by simpa using hfree r hr, rfl⟩

theorem insertSelectionMember_ok {row : SelectionMemberRow}
    (hjob : ∃ job ∈ db.jobs, job.id = row.jobId) (hok : db.insertSelectionMember row = .ok db') :
    Write json db db' ∧ db'.jobs = db.jobs := by
  obtain ⟨hfree, rfl⟩ := insertRow_eq_ok.mp hok
  refine ⟨.addSelectionMember row (fun r hr heq => ?_) hjob, rfl⟩
  have := hfree r hr
  simp only [decide_eq_false_iff_not, not_and, not_or] at this
  rw [Prod.mk.injEq] at heq
  exact (this heq.1).2 heq.2

theorem exists_of_mem_selectionMemberIds {query : JobSelectionQuery} {id : Uuid}
    (hid : id ∈ selectionMemberIds db query) : ∃ job ∈ db.jobs, job.id = id := by
  have hmem := List.mem_of_mem_take hid
  obtain ⟨⟨ordinal, id'⟩, hrow, rfl⟩ := List.mem_map.mp hmem
  rw [List.mem_insertionSort] at hrow
  unfold selectionRows at hrow
  split at hrow
  · obtain ⟨m, _, hrow⟩ := List.mem_flatMap.mp hrow
    obtain ⟨row, hrow, heq⟩ := List.mem_map.mp hrow
    exact ⟨row, List.mem_of_mem_filter hrow, (Prod.mk.inj heq).2⟩
  · obtain ⟨row, hrow, heq⟩ := List.mem_map.mp hrow
    exact ⟨row, List.mem_of_mem_filter hrow, (Prod.mk.inj heq).2⟩

theorem captureSelectionBody_writes {query : JobSelectionQuery} {snapshot : SelectionSnapshot}
    (hok : captureSelectionBody env query db = .ok (snapshot, db')) : Writes json db db' := by
  unfold captureSelectionBody at hok
  obtain ⟨_, hok⟩ := guard_eq_ok.mp hok
  obtain ⟨db1, h1, hok⟩ := bind_eq_ok.mp hok
  obtain ⟨db2, h2, hok⟩ := bind_eq_ok.mp hok
  cases hok
  obtain ⟨hw1, hjobs1⟩ : Write json db db1 ∧ _ := insertSelectionSnapshot_ok h1
  have hloop : Writes json db db' ∧ db'.jobs = db.jobs := by
    refine foldlM_invariant (P := fun d => Writes json db d ∧ d.jobs = db.jobs) h2
      ⟨.single hw1, hjobs1⟩ ?_
    rintro d ⟨id, ordinal⟩ d' hmem ⟨hw, hjobs⟩ hstep
    have hid : id ∈ selectionMemberIds db query := by
      have := List.mem_map_of_mem (f := Prod.fst) hmem
      rwa [List.zipIdx_map_fst] at this
    have hjob := exists_of_mem_selectionMemberIds hid
    obtain ⟨hw', hjobs'⟩ : Write json d d' ∧ _ :=
      insertSelectionMember_ok (by rw [hjobs]; exact hjob) hstep
    exact ⟨.tail hw hw', hjobs'.trans hjobs⟩
  exact hloop.1

end Selections

end Anole
