import Anole.Store.Invariants

/-!
# Batch creation and queueing are all or nothing

What `create_jobs`, `create_batch`, `create_queued_batch` and `queue_jobs`
(`crates/core/src/job_store.rs`) leave in a reachable store. A call that fails leaves
every table as it was; one that succeeds leaves every listed job in place, in the order
given (`JobInPlace`, `CreatedInOrder`, `QueuedInOrder`).

The loops are followed with `HasJob`, the row, the reservation and the log of one job,
which later rounds leave alone (`HasJob.of_untouched`).

Main result: `batches_all_or_nothing`.
-/

open Common

namespace Anole

variable {json : ReportJson} {env : CallEnv} {db db' : Database} {row : JobRow} {key : String}
  {events : List EventRow} {code : String} {id : Uuid} {now : ℤ}

/-! ## A job in the store -/

/-- The job exists exactly once, under its own reservation, with its complete log. -/
structure JobInPlace (db : Database) (row : JobRow) (key : String) (events : List EventRow) :
    Prop where
  once : db.jobs.filter (fun r => r.id = row.id) = [row]
  reserved : (db.outputReservations.filter fun r => r.jobId = row.id).map
    ReservationRow.canonicalOutputPath = [key]
  exclusive : ∀ r ∈ db.outputReservations, r.canonicalOutputPath = key → r.jobId = row.id
  history : db.logOf row.id = events
  complete : Replays db row

/-- The row, the reservation and the log of a job. -/
structure HasJob (db : Database) (row : JobRow) (key : String) (events : List EventRow) :
    Prop where
  job : db.job? row.id = some row
  reservation : db.ownedKey row.id = some key
  log : db.logOf row.id = events

theorem HasJob.of_untouched (h : HasJob db row key events) (hsame : Untouched row.id db db') :
    HasJob db' row key events where
  job := hsame.job.trans h.job
  reservation := hsame.reservation.trans h.reservation
  log := hsame.log.trans h.log

theorem HasJob.mem (h : HasJob db row key events) : row ∈ db.jobs := List.mem_of_find?_eq_some h.job

/-- In a sound store that is all there is of the job. -/
theorem HasJob.inPlace (hsound : Sound json db) (h : HasJob db row key events) :
    JobInPlace db row key events := by
  obtain ⟨r, hr, rfl⟩ := Option.map_eq_some_iff.mp h.reservation
  have hmem := List.mem_of_find?_eq_some hr
  have hid : r.jobId = row.id := by simpa using List.find?_some hr
  refine ⟨hsound.jobs.jobIds.filter_key h.mem, ?_, fun s hs hkey => ?_, h.log,
    hsound.replays h.mem⟩
  · rw [← hid, hsound.jobs.reservationJobs.filter_key hmem]
    rfl
  · rw [hsound.jobs.reservationKeys.eq hs hmem hkey, hid]

theorem Untouched.mem_iff (hsame : Untouched row.id db db') (h : Sound json db)
    (h' : Sound json db') : row ∈ db'.jobs ↔ row ∈ db.jobs := by
  constructor
  · intro hrow
    exact List.mem_of_find?_eq_some (hsame.job.symm.trans (job?_of_mem h'.jobs.jobIds hrow))
  · intro hrow
    exact List.mem_of_find?_eq_some (hsame.job.trans (job?_of_mem h.jobs.jobIds hrow))

theorem untouched_withCreated (hne : id ≠ row.id) :
    Untouched id db (db.withCreated row key) where
  job := by
    show (db.jobs ++ [row]).find? _ = db.jobs.find? _
    simp [List.find?_append, hne.symm]
  log := filter_append_other _ hne.symm
  reservation := by
    show Option.map _ ((db.outputReservations ++ _).find? _) = Option.map _ (List.find? _ _)
    simp [List.find?_append, hne.symm]

/-! ## Creating jobs in order -/

/-- The row of a created job, queued or not. -/
def createdRow (env : CallEnv) (queued : Bool) (id : Uuid) (request : JobCreateRequest) : JobRow :=
  if queued then (newJobRow env id request).moved .queued 1 env.now else newJobRow env id request

/-- The log of a created job. -/
def createdLog (env : CallEnv) (queued : Bool) (id : Uuid) : List EventRow :=
  ⟨id, 0, none, .planned, "JOB_CREATED", env.now⟩ ::
    if queued then [⟨id, 1, some .planned, .queued, "BATCH_QUEUED", env.now⟩] else []

/-- Every request has a new job of its own, in the order given; `keys` are the
    reservation keys of the outputs. -/
structure CreatedInOrder (env : CallEnv) (keys : ℕ → PathBuf → Except AnoleError String)
    (db db' : Database) (queued : Bool) (requests : List JobCreateRequest) (ids : List Uuid) :
    Prop where
  length : ids.length = requests.length
  distinct : ids.Nodup
  fresh : ∀ id ∈ ids, ∀ row ∈ db.jobs, row.id ≠ id
  placed : ∀ n request id, requests[n]? = some request → ids[n]? = some id →
    ∃ key, keys n request.outputPath = .ok key ∧
      JobInPlace db' (createdRow env queued id request) key (createdLog env queued id)

/-- What the rounds of `insert_jobs` leave. -/
structure Inserted (env : CallEnv) (keys : ℕ → PathBuf → Except AnoleError String)
    (db db' : Database) (requests : List JobCreateRequest) (ids : List Uuid) : Prop where
  length : ids.length = requests.length
  distinct : ids.Nodup
  fresh : ∀ id ∈ ids, ∀ row ∈ db.jobs, row.id ≠ id
  others : ∀ id ∉ ids, Untouched id db db'
  batches : db'.batches = db.batches ∧ db'.batchMembers = db.batchMembers
  stored : ∀ n request id, requests[n]? = some request → ids[n]? = some id →
    ∃ key, keys n request.outputPath = .ok key ∧
      HasJob db' (newJobRow env id request) key (createdLog env false id)

theorem hasJob_withCreated (h : Sound json db) (hsound : Sound json (db.withCreated row key))
    (hid : ∀ r ∈ db.jobs, r.id ≠ row.id) :
    HasJob (db.withCreated row key) row key
      [⟨row.id, 0, none, .planned, "JOB_CREATED", row.createdUnixMs⟩] where
  job := job?_of_mem hsound.jobs.jobIds (List.mem_append_right _ (List.mem_singleton.mpr rfl))
  reservation := by
    have hmem : (⟨key, row.id, row.createdUnixMs⟩ : ReservationRow) ∈
        (db.withCreated row key).outputReservations :=
      List.mem_append_right _ (List.mem_singleton.mpr rfl)
    rw [Database.ownedKey, hsound.jobs.reservationJobs.find?_of_mem hmem]
    rfl
  log := by
    have hnone : db.logOf row.id = [] := by
      refine List.filter_eq_nil_iff.mpr fun e he hjob => ?_
      obtain ⟨r, hr, hrid⟩ := h.jobs.eventJob e he
      exact hid r hr (hrid.trans (of_decide_eq_true hjob))
    have hlog : (db.withCreated row key).logOf row.id = db.logOf row.id ++
        [⟨row.id, 0, none, .planned, "JOB_CREATED", row.createdUnixMs⟩] := filter_append_own _ rfl
    rw [hlog, hnone, List.nil_append]

/-- **Loop of `insert_jobs`.** Every round creates one job and leaves the earlier ones. -/
theorem insertJobs_inserted {newV4 : ℕ → Uuid} :
    ∀ (requests : List JobCreateRequest) {n : ℕ} {db db' : Database} {records : List JobRecord},
      Sound json db → insertJobs env newV4 n db requests = .ok (records, db') →
      records = List.zipWith (newJobRecord env) (records.map JobRecord.id) requests ∧
      Inserted env (fun k => env.reservationKey (n + k)) db db' requests
        (records.map JobRecord.id) := by
  intro requests
  induction requests with
  | nil =>
    intro n db db' records _ hok
    cases hok
    exact ⟨rfl, rfl, List.nodup_nil, by simp, fun _ _ => .refl _ _, ⟨rfl, rfl⟩, by simp⟩
  | cons request requests ih =>
    intro n db db' records h hok
    rw [insertJobs] at hok
    obtain ⟨⟨record, db1⟩, h1, hok⟩ := bind_eq_ok.mp hok
    obtain ⟨⟨records', db2⟩, h2, hok⟩ := bind_eq_ok.mp hok
    cases hok
    have hsound := (insertJob_write h h1).sound h
    obtain ⟨hrecords, hrest⟩ := ih hsound h2
    obtain ⟨key, hkey, hid, -, rfl, rfl⟩ := insertJob_ok h h1
    have hnew := hasJob_withCreated h hsound hid
    -- the later rounds take other ids than the first
    have hfirst : newV4 n ∉ records'.map JobRecord.id :=
      fun hmem => hrest.fresh _ hmem _ hnew.mem rfl
    refine ⟨congrArg _ hrecords, congrArg (· + 1) hrest.length,
      List.nodup_cons.mpr ⟨hfirst, hrest.distinct⟩, ?_, ?_, hrest.batches, ?_⟩
    · intro id hmem r hr
      rcases List.mem_cons.mp hmem with rfl | hmem
      · exact hid r hr
      · exact hrest.fresh id hmem r (List.mem_append_left _ hr)
    · intro id hmem
      rw [List.map_cons, List.mem_cons, not_or] at hmem
      exact (untouched_withCreated hmem.1).trans (hrest.others id hmem.2)
    · intro k other id hother hotherId
      cases k with
      | zero =>
        obtain rfl := Option.some.inj hother
        obtain rfl := Option.some.inj hotherId
        exact ⟨key, hkey, hnew.of_untouched (hrest.others _ hfirst)⟩
      | succ k =>
        obtain ⟨otherKey, hotherKey, hstored⟩ := hrest.stored k other id hother hotherId
        exact ⟨otherKey, by rw [← hotherKey, Nat.add_right_comm, Nat.add_assoc], hstored⟩

/-- The jobs a call created, once everything is written. -/
theorem Inserted.createdInOrder {keys : ℕ → PathBuf → Except AnoleError String}
    {requests : List JobCreateRequest} {ids : List Uuid} {queued : Bool} {final : Database}
    (h : Inserted env keys db db' requests ids) (hsound : Sound json final)
    (hfinal : ∀ request, ∀ id ∈ ids, ∀ key,
      HasJob db' (newJobRow env id request) key (createdLog env false id) →
      HasJob final (createdRow env queued id request) key (createdLog env queued id)) :
    CreatedInOrder env keys db final queued requests ids where
  length := h.length
  distinct := h.distinct
  fresh := h.fresh
  placed := by
    intro n request id hrequest hid
    obtain ⟨key, hkey, hstored⟩ := h.stored n request id hrequest hid
    have hplaced := hfinal request id (List.mem_of_getElem? hid) key hstored
    have hrow : (createdRow env queued id request).id = id := by
      cases queued <;> rfl
    exact ⟨key, hkey, hplaced.inPlace hsound⟩

/-! ## Queueing created jobs -/

/-- The job that `enqueueCreated` queues. -/
theorem hasJob_enqueueCreated (h : Sound json db)
    (hjob : HasJob db row key events) (hstate : row.state = .planned) (hsequence : row.sequence = 0)
    (hok : enqueueCreated code now db row.id = .ok db') :
    HasJob db' (row.moved .queued 1 now) key
      (events ++ [⟨row.id, 1, some .planned, .queued, code, now⟩]) := by
  obtain ⟨stored, hmem, hid, -, -, rfl⟩ :=
    enqueueCreated_ok h ⟨row, hjob.mem, rfl, hstate, hsequence⟩ hok
  obtain rfl := h.jobs.jobIds.eq hmem hjob.mem hid
  have hwrite := enqueueCreated_write h ⟨stored, hmem, rfl, hstate, hsequence⟩ hok
  refine ⟨?_, hjob.reservation, ?_⟩
  · have hrow : stored.moved .queued 1 now ∈
        (db.withMoved stored .queued code now db.outputReservations).jobs := by
      refine (mem_update_id h.jobs.jobIds hmem).mpr (Or.inl ?_)
      rw [hsequence]
    exact job?_of_mem (hwrite.sound h).jobs.jobIds hrow
  · have hlog : (db.withMoved stored .queued code now db.outputReservations).logOf stored.id =
        db.logOf stored.id ++
          [⟨stored.id, stored.sequence + 1, some stored.state, .queued, code, now⟩] :=
      filter_append_own _ rfl
    rw [hsequence, hstate, hjob.log] at hlog
    exact hlog

/-- The rest of the store stays as it was. -/
theorem enqueueCreated_frame (h : Sound json db)
    (hfresh : FreshJob db id) (hok : enqueueCreated code now db id = .ok db') :
    (∀ other ≠ id, Untouched other db db') ∧ db'.batches = db.batches ∧
      db'.batchMembers = db.batchMembers := by
  obtain ⟨stored, hmem, rfl, hstate, -, rfl⟩ := enqueueCreated_ok h hfresh hok
  refine ⟨fun other hne => ?_, rfl, rfl⟩
  exact untouched_withMoved hne (.keep (by rw [hstate]; rfl) rfl)

/-- **Loop of `create_batch_inner`.** Every round queues one of the created jobs. -/
theorem enqueueLoop_stored :
    ∀ (records : List JobRecord) {db db' : Database}, Sound json db →
      (records.map JobRecord.id).Nodup → (∀ record ∈ records, FreshJob db record.id) →
      records.foldlM (fun db job => enqueueCreated code now db job.id) db = .ok db' →
      (∀ id ∉ records.map JobRecord.id, Untouched id db db') ∧
      db'.batches = db.batches ∧ db'.batchMembers = db.batchMembers ∧
      ∀ row key events, row.id ∈ records.map JobRecord.id → HasJob db row key events →
        row.state = .planned → row.sequence = 0 →
        HasJob db' (row.moved .queued 1 now) key
          (events ++ [⟨row.id, 1, some .planned, .queued, code, now⟩]) := by
  intro records
  induction records with
  | nil =>
    intro db db' _ _ _ hok
    cases hok
    exact ⟨fun _ _ => .refl _ _, rfl, rfl, by simp⟩
  | cons record records ih =>
    intro db db' h hnodup hfresh hok
    obtain ⟨db1, h1, h2⟩ := bind_eq_ok.mp hok
    rw [List.map_cons, List.nodup_cons] at hnodup
    have hrecord := hfresh record (by simp)
    have hsound := (enqueueCreated_write h hrecord h1).sound h
    obtain ⟨hothers, hbatches⟩ := enqueueCreated_frame h hrecord h1
    obtain ⟨huntouched, hb, hm, hqueued⟩ := ih hsound hnodup.2 (fun other hother => by
      refine .of_enqueueCreated h hrecord (hfresh other (List.mem_cons_of_mem _ hother)) ?_ h1
      intro heq
      exact hnodup.1 (List.mem_map.mpr ⟨other, hother, heq⟩)) h2
    refine ⟨?_, hb.trans hbatches.1, hm.trans hbatches.2, ?_⟩
    · intro id hid
      rw [List.map_cons, List.mem_cons, not_or] at hid
      exact (hothers id hid.1).trans (huntouched id hid.2)
    · intro row key events hid hjob hstate hsequence
      by_cases hsame : row.id = record.id
      · have hround : enqueueCreated code now db row.id = .ok db1 := by rw [hsame]; exact h1
        refine (hasJob_enqueueCreated h hjob hstate hsequence hround).of_untouched ?_
        exact huntouched _ (show row.id ∉ _ by rw [hsame]; exact hnodup.1)
      · rw [List.map_cons, List.mem_cons] at hid
        exact hqueued row key events (hid.resolve_left hsame)
          (hjob.of_untouched (hothers _ hsame)) hstate hsequence

/-! ## Batches -/

/-- A batch with its members in order, each a new job of its own. -/
structure BatchCreated (env : CallEnv) (db db' : Database) (queued : Bool)
    (requests : List JobCreateRequest) (batch : BatchRecord) : Prop where
  fresh : ∀ other ∈ db.batches, other.id ≠ batch.id
  header : db'.batches = db.batches ++ [⟨batch.id, batch.name, env.now, env.now⟩]
  count : batch.jobCount = requests.length
  members : ∃ ids, CreatedInOrder env env.reservationKey db db' queued requests ids ∧
    db'.batchMembers = db.batchMembers ++
      ids.zipIdx.map fun member => ⟨batch.id, member.1, member.2⟩

theorem insertMembers_ok {batchId : Uuid} :
    ∀ (members : List (JobRecord × ℕ)) {db db' : Database},
      members.foldlM (fun db member => db.insertBatchMember
        { batchId := batchId, jobId := member.1.id, ordinal := member.2 }) db = .ok db' →
      db' = { db with batchMembers :=
        db.batchMembers ++ members.map fun member => ⟨batchId, member.1.id, member.2⟩ } := by
  intro members
  induction members with
  | nil =>
    intro db db' hok
    cases hok
    simp
  | cons member members ih =>
    intro db db' hok
    obtain ⟨db1, h1, h2⟩ := bind_eq_ok.mp hok
    obtain ⟨-, rfl⟩ := insertRow_eq_ok.mp h1
    rw [ih h2]
    simp [List.append_assoc]

theorem map_zipIdx_id (records : List JobRecord) (batchId : Uuid) (n : ℕ) :
    ((records.zipIdx n).map fun member => (⟨batchId, member.1.id, member.2⟩ : BatchMemberRow)) =
      ((records.map JobRecord.id).zipIdx n).map fun member => ⟨batchId, member.1, member.2⟩ := by
  induction records generalizing n with
  | nil => rfl
  | cons record records ih =>
    rw [List.zipIdx_cons, List.map_cons, List.map_cons, List.zipIdx_cons, List.map_cons, ih]

theorem createBatchBody_created (h : Sound json db) {name : String}
    {requests : List JobCreateRequest} {queued : Bool} {batch : BatchRecord}
    (hok : createBatchBody env name requests queued db = .ok (batch, db')) :
    BatchCreated env db db' queued requests batch := by
  have hsound := (createBatchBody_writes h hok).sound h
  unfold createBatchBody at hok
  obtain ⟨db1, h1, hjobs⟩ := bind_eq_ok.mp hok
  obtain ⟨⟨jobs, db2⟩, h2, hbatch⟩ := bind_eq_ok.mp hjobs
  obtain ⟨db3, h3, hend⟩ := bind_eq_ok.mp hbatch
  clear hok hjobs hbatch
  have hsound1 : Sound json db1 := by
    have hwrite : Write json db db1 := (insertBatch_ok h1).1
    exact hwrite.sound h
  obtain ⟨hfresh, rfl⟩ := insertRow_eq_ok.mp h1
  obtain ⟨-, hinserted⟩ := insertJobs_inserted requests hsound1 h2
  have hsound2 := (insertJobs_ok requests hsound1 h2).1.sound hsound1
  have hmembers := insertMembers_ok _ h3
  simp only [Nat.zero_add] at hinserted
  have hnew : ∀ id ∈ jobs.map JobRecord.id, ∀ row ∈ db.jobs, row.id ≠ id := hinserted.fresh
  have hcount : jobs.length = requests.length := by
    rw [← hinserted.length, List.length_map]
  have hfree : ∀ other ∈ db.batches, other.id ≠ env.newV4 0 :=
    fun other hother => of_decide_eq_false (hfresh other hother)
  -- the rows, logs and reservations of the jobs are those that `insert_jobs` left
  have hkept : ∀ id, Untouched id db2 db3 := by
    intro id
    rw [hmembers]
    exact ⟨rfl, rfl, rfl⟩
  have hcreated : ∀ {final : Database}, Sound json final →
      (∀ request, ∀ id ∈ jobs.map JobRecord.id, ∀ key,
        HasJob db3 (newJobRow env id request) key (createdLog env false id) →
        HasJob final (createdRow env queued id request) key (createdLog env queued id)) →
      CreatedInOrder env env.reservationKey db final queued requests (jobs.map JobRecord.id) := by
    intro final hfinal hjobs
    have horder := hinserted.createdInOrder hfinal fun request id hid key hjob =>
      hjobs request id hid key (hjob.of_untouched (hkept _))
    exact ⟨horder.length, horder.distinct, hnew, horder.placed⟩
  have hrows : db3.batchMembers = db.batchMembers ++
      (jobs.map JobRecord.id).zipIdx.map fun member => ⟨env.newV4 0, member.1, member.2⟩ := by
    rw [hmembers, ← map_zipIdx_id]
    exact congrArg (· ++ _) hinserted.batches.2
  have hheader : db3.batches = db.batches ++ [⟨env.newV4 0, name, env.now, env.now⟩] := by
    rw [hmembers]
    exact hinserted.batches.1
  cases queued with
  | false =>
    cases hend
    exact ⟨hfree, hheader, hcount, _, hcreated hsound fun _ _ _ _ hjob => hjob, hrows⟩
  | true =>
    obtain ⟨db4, h4, hresult⟩ := bind_eq_ok.mp hend
    cases hresult
    have hsound3 : Sound json db3 := foldlM_invariant h3 hsound2 fun _ hprev hstep => by
      have hwrite : Write json _ _ := (insertBatchMember_ok hstep).1
      exact hwrite.sound hprev
    have hplanned : ∀ record ∈ jobs, FreshJob db3 record.id := by
      intro record hrecord
      obtain ⟨rows, hjobs, hids, hstates⟩ := (insertJobs_ok requests hsound1 h2).2
      obtain ⟨row, hrow, hid⟩ := List.mem_map.mp (hids ▸ List.mem_map_of_mem hrecord)
      refine ⟨row, ?_, hid, hstates row hrow⟩
      rw [hmembers]
      show row ∈ db2.jobs
      rw [hjobs]
      exact List.mem_append_right _ hrow
    obtain ⟨-, hbatches, hrowsKept, hqueued⟩ :=
      enqueueLoop_stored jobs hsound3 hinserted.distinct hplanned h4
    refine ⟨hfree, hbatches.trans hheader, hcount, _, ?_, hrowsKept.trans hrows⟩
    refine hcreated hsound fun request id hid key hjob => ?_
    exact hqueued _ key _ hid hjob rfl rfl

/-! ## Queueing jobs in order -/

/-- Every listed job was allowed to move to `Queued` and is there, in the order given. -/
structure QueuedInOrder (env : CallEnv) (keys : ℕ → PathBuf → Except AnoleError String)
    (db db' : Database) (code : String) (jobIds : List Uuid) (records : List JobRecord) :
    Prop where
  order : records.map JobRecord.id = jobIds
  distinct : jobIds.Nodup
  placed : ∀ n id record, jobIds[n]? = some id → records[n]? = some record →
    ∃ row ∈ db.jobs, row.id = id ∧ row.state.canTransitionTo .queued = true ∧
      record = movedRecord row .queued (row.sequence + 1) env.now ∧
      ∃ key, keys n (PathBuf.ofString row.outputPath) = .ok key ∧
        JobInPlace db' (row.moved .queued (row.sequence + 1) env.now) key
          (db.logOf id ++ [⟨id, row.sequence + 1, some row.state, .queued, code, env.now⟩])

/-- After `reserve_output` the job owns the key of the output. -/
theorem reserveOutput_owned {keys : PathBuf → Except AnoleError String} {path : PathBuf}
    (hok : reserveOutput keys db id path now = .ok db') :
    ∃ key, keys path = .ok key ∧ db'.ownedKey id = some key := by
  obtain ⟨key, hkey, ⟨hown, rfl⟩ | ⟨-, -, rfl⟩⟩ := reserveOutput_ok hok
  · exact ⟨key, hkey, hown⟩
  · refine ⟨key, hkey, ?_⟩
    have hgone : (Table.delete (fun r => r.jobId = id) db.outputReservations).find?
        (fun r => r.jobId = id) = none := by
      refine Table.find?_eq_none.mpr fun r hr => ?_
      exact of_decide_eq_false (Table.mem_delete.mp hr).2
    rw [Database.ownedKey, Database.withReservations, List.find?_append, hgone]
    simp

/-- **Round of `queue_jobs`.** The job moves, under the key of its output. -/
theorem queueJob_stored (h : Sound json db) {n : ℕ}
    {record : JobRecord} (hok : queueJob env code n db id = .ok (record, db')) :
    ∃ row rs key, MovesJob env db id .queued code row rs db' ∧
      record = movedRecord row .queued (row.sequence + 1) env.now ∧
      env.reservationKey n (PathBuf.ofString row.outputPath) = .ok key ∧
      HasJob db' (row.moved .queued (row.sequence + 1) env.now) key
        (db.logOf id ++ [⟨id, row.sequence + 1, some row.state, .queued, code, env.now⟩]) := by
  obtain ⟨row, rs, hmove, hrecord⟩ := queueJob_ok h hok
  -- the reservations of the move are those that `reserve_output` left
  obtain ⟨key, hkey, howned⟩ : ∃ key,
      env.reservationKey n (PathBuf.ofString row.outputPath) = .ok key ∧
      db'.ownedKey id = some key := by
    unfold queueJob at hok
    obtain ⟨stored, hreq, hguard⟩ := bind_eq_ok.mp hok
    obtain ⟨hstored, hid⟩ := requireJob_ok hreq
    obtain rfl := h.jobs.jobIds.eq hstored hmove.mem (hid.trans hmove.jobId.symm)
    obtain ⟨-, hreserve⟩ := guard_eq_ok.mp hguard
    obtain ⟨db1, hres, hbind⟩ := bind_eq_ok.mp hreserve
    obtain ⟨sequence, -, hupdate⟩ := bind_eq_ok.mp hbind
    obtain ⟨-, hinsert⟩ := guard_eq_ok.mp hupdate
    obtain ⟨db2, hevent, hresult⟩ := bind_eq_ok.mp hinsert
    cases hresult
    obtain ⟨key, hkey, howned⟩ := reserveOutput_owned hres
    refine ⟨key, hkey, ?_⟩
    rw [insertJobEvent_ok hevent]
    exact howned
  refine ⟨row, rs, key, hmove, hrecord, hkey, ?_, ?_, ?_⟩
  · exact (congrArg db'.job? hmove.jobId).trans (hmove.job? h)
  · exact (congrArg db'.ownedKey hmove.jobId).trans howned
  · exact (congrArg db'.logOf hmove.jobId).trans hmove.log

/-- **Loop of `queue_jobs`.** -/
theorem queueJobsLoop_queued :
    ∀ (jobIds : List Uuid) {n : ℕ} {db db' : Database} {records : List JobRecord}, Sound json db →
      queueJobsLoop env code n db jobIds = .ok (records, db') →
      QueuedInOrder env (fun k => env.reservationKey (n + k)) db db' code jobIds records ∧
      (∀ id ∉ jobIds, Untouched id db db') ∧
      ∀ row ∈ db.jobs, row.state = .queued → row.id ∉ jobIds := by
  intro jobIds
  induction jobIds with
  | nil =>
    intro n db db' records _ hok
    cases hok
    exact ⟨⟨rfl, List.nodup_nil, by simp⟩, fun _ _ => .refl _ _, by simp⟩
  | cons id jobIds ih =>
    intro n db db' records h hok
    rw [queueJobsLoop] at hok
    obtain ⟨⟨record, db1⟩, h1, hloop⟩ := bind_eq_ok.mp hok
    obtain ⟨⟨records', db2⟩, h2, hresult⟩ := bind_eq_ok.mp hloop
    cases hresult
    obtain ⟨row, rs, key, hmove, hrecord, hkey, hjob⟩ := queueJob_stored h h1
    have hsound := hmove.write.sound h
    have hfinal := (queueJobsLoop_writes jobIds hsound h2).sound hsound
    obtain ⟨hrest, huntouched, hqueued⟩ := ih hsound h2
    -- the job is queued now, so no later round accepts it
    have hfirst : id ∉ jobIds := by
      have := hqueued _ hjob.mem rfl
      rwa [← hmove.jobId]
    refine ⟨⟨?_, List.nodup_cons.mpr ⟨hfirst, hrest.distinct⟩, ?_⟩, ?_, ?_⟩
    · rw [List.map_cons, hrest.order, hrecord]
      exact congrArg (· :: jobIds) hmove.jobId
    · intro k other otherRecord hother hotherRecord
      cases k with
      | zero =>
        obtain rfl := Option.some.inj hother
        obtain rfl := Option.some.inj hotherRecord
        refine ⟨row, hmove.mem, hmove.jobId, hmove.legal, hrecord, key, hkey, ?_⟩
        refine (hjob.of_untouched (huntouched _ ?_)).inPlace hfinal
        exact fun hmem => hfirst (hmove.jobId ▸ hmem)
      | succ k =>
        obtain ⟨otherRow, hotherRow, rfl, hlegal, hmoved, otherKey, hotherKey, hplaced⟩ :=
          hrest.placed k other otherRecord hother hotherRecord
        have hne : otherRow.id ≠ id := by
          intro hsame
          exact hfirst (hsame ▸ List.mem_of_getElem? hother)
        have hsame : Untouched otherRow.id db db1 := hmove.untouched hne
        rw [hsame.log] at hplaced
        refine ⟨otherRow, (hsame.mem_iff h hsound).mp hotherRow, rfl, hlegal, hmoved, otherKey,
          ?_, hplaced⟩
        rw [← hotherKey, Nat.add_right_comm, Nat.add_assoc]
    · intro other hother
      rw [List.mem_cons, not_or] at hother
      exact (hmove.untouched hother.1).trans (huntouched other hother.2)
    · intro other hother hstate hmem
      by_cases hsame : other.id = id
      · obtain rfl := h.jobs.jobIds.eq hother hmove.mem (hsame.trans hmove.jobId.symm)
        have hlegal := hmove.legal
        rw [hstate] at hlegal
        cases hlegal
      · have hkept := ((hmove.untouched hsame).mem_iff h hsound).mpr hother
        exact hqueued other hkept hstate ((List.mem_cons.mp hmem).resolve_left hsame)

/-! ## All or nothing -/

/-- The call fails and leaves every table as it was, or returns what is done. -/
def AllOrNothing {α : Type} (db : Database) (outcome : Except AnoleError α × Database)
    (done : α → Database → Prop) : Prop :=
  (∀ error, outcome.1 = .error error → outcome.2 = db) ∧
    ∀ result, outcome.1 = .ok result → done result outcome.2

theorem transaction_allOrNothing {α : Type} {done : α → Database → Prop}
    {body : Except AnoleError (α × Database)}
    (h : ∀ result db', body = .ok (result, db') → done result db') :
    AllOrNothing db (transaction env db body) done := by
  constructor
  · intro error herror
    exact transaction_error (Prod.ext herror rfl)
  · intro result hresult
    exact h _ _ (transaction_ok.mp (Prod.ext hresult rfl)).2

theorem createBatchInner_allOrNothing (h : Sound json db) (env : CallEnv) (name : String)
    (requests : List JobCreateRequest) (queued : Bool) :
    AllOrNothing db (createBatchInner env db name requests queued) fun batch db' =>
      BatchCreated env db db' queued requests batch := by
  unfold createBatchInner
  cases validateBatchName name with
  | error error => exact ⟨fun _ _ => rfl, fun _ hok => by cases hok⟩
  | ok name =>
    by_cases hsize : requests = [] ∨ 100000 < requests.length
    · simp only [hsize, if_true]
      exact ⟨fun _ _ => rfl, fun _ hok => by cases hok⟩
    · simp only [hsize, if_false]
      exact transaction_allOrNothing fun _ _ hok => createBatchBody_created h hok

/-- **Batch creation and queueing.** On every reachable store, `create_jobs`,
    `create_batch`, `create_queued_batch` and `queue_jobs` either fail and leave every
    table as it was, or leave every listed job in place, in the order given. -/
theorem batches_all_or_nothing (h : Reachable json db) (env : CallEnv) :
    (∀ requests, AllOrNothing db (createJobs env db requests) fun records db' =>
      records = List.zipWith (newJobRecord env) (records.map JobRecord.id) requests ∧
      CreatedInOrder env env.reservationKey db db' false requests (records.map JobRecord.id)) ∧
    (∀ name requests, AllOrNothing db (createBatch env db name requests) fun batch db' =>
      BatchCreated env db db' false requests batch) ∧
    (∀ name requests, AllOrNothing db (createQueuedBatch env db name requests) fun batch db' =>
      BatchCreated env db db' true requests batch) ∧
    ∀ jobIds code, AllOrNothing db (queueJobs env db jobIds code) fun records db' =>
      QueuedInOrder env env.reservationKey db db' code jobIds records := by
  have hsound := h.sound
  refine ⟨fun requests => ?_, fun name requests => createBatchInner_allOrNothing hsound env name
    requests false, fun name requests => createBatchInner_allOrNothing hsound env name requests true,
    fun jobIds code => ?_⟩
  · unfold createJobs
    by_cases hempty : requests = []
    · simp only [hempty, if_true]
      refine ⟨fun _ hfailed => (by cases hfailed), fun records hok => ?_⟩
      cases hok
      exact ⟨rfl, rfl, List.nodup_nil, by simp, by simp⟩
    · simp only [hempty, if_false]
      refine transaction_allOrNothing fun records db' hok => ?_
      obtain ⟨hrecords, hinserted⟩ := insertJobs_inserted requests hsound hok
      simp only [Nat.zero_add] at hinserted
      have hfinal := (insertJobs_ok requests hsound hok).1.sound hsound
      exact ⟨hrecords, hinserted.createdInOrder hfinal fun _ _ _ _ hjob => hjob⟩
  · unfold queueJobs
    by_cases hempty : jobIds = []
    · simp only [hempty, if_true]
      refine ⟨fun _ hfailed => (by cases hfailed), fun records hok => ?_⟩
      cases hok
      exact ⟨rfl, List.nodup_nil, by simp⟩
    · simp only [hempty, if_false]
      refine transaction_allOrNothing fun records db' hok => ?_
      have hqueued := (queueJobsLoop_queued jobIds hsound hok).1
      simp only [Nat.zero_add] at hqueued
      exact hqueued

/-- On the store with one cancelled job. -/
theorem batches_all_or_nothing_sample :
    let db := (exec (Sample.json 0) (Sample.env 0) Database.empty
      (.createJobs [Sample.request "a.json" "a.yaml"])).2
    let db := (exec (Sample.json 0) (Sample.env 0) db (.transition 0 .cancelled "X")).2
    ∀ jobIds code, AllOrNothing db (queueJobs (Sample.env 0) db jobIds code) fun records db' =>
      QueuedInOrder (Sample.env 0) (Sample.env 0).reservationKey db db' code jobIds records :=
  (batches_all_or_nothing (((reachable_empty (Sample.json 0)).exec _ _).exec _ _)
    (Sample.env 0)).2.2.2

end Anole
