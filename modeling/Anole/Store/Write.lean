import Anole.Store.Service

/-!
# Abstract writes and the invariant of the store

The abstract layer under all transactions of the job store: `Write` lists what
one transaction step can do to the database, once, with its guards. A job is
created (with its reservation and event 0), moves along a legal edge of the state
machine (sequence and event in step, reservation kept, taken or released), or
gets an audit event; the other constructors add rows to the tables around it.

`Sound` is the invariant: the jobs with their event logs and reservations
(`JobsSound`) and the tables that point at jobs (`LinksSound`).

Results:
* `Write.sound`: every write keeps `Sound`.
* `Write.extends`: no write removes a job or changes its input, output or Plan.
* `Write.events`: events are only ever appended.
-/

namespace Anole

open Relation (ReflTransGen)

/-! ## Event logs -/

/-- The events of one job, in the order they were written. -/
def Database.logOf (db : Database) (id : Uuid) : List EventRow :=
  db.jobEvents.filter fun e => e.jobId = id

/-- The codes of the events staging cleanup records. -/
def cleanupCodes : List String := ["STAGED_OUTPUT_CLEANED", "STAGED_OUTPUT_NOT_FOUND"]

/-- `events` is the log of a job with this id that now has this sequence number
    and state. -/
inductive EventLog (id : Uuid) : List EventRow → ℕ → JobState → Prop
  | created (now : ℤ) : EventLog id [⟨id, 0, none, .planned, "JOB_CREATED", now⟩] 0 .planned
  | moved {events : List EventRow} {n : ℕ} {s : JobState} (next : JobState) (code : String)
      (now : ℤ) : EventLog id events n s → s.canTransitionTo next = true →
      EventLog id (events ++ [⟨id, n + 1, some s, next, code, now⟩]) (n + 1) next
  | audited {events : List EventRow} {n : ℕ} {s : JobState} (code : String) (now : ℤ) :
      EventLog id events n s → cleanupAllowed s = true → code ∈ cleanupCodes →
      EventLog id (events ++ [⟨id, n + 1, some s, s, code, now⟩]) (n + 1) s

/-! ## Writes -/

/-- What moving job `id` does to the reservations. -/
inductive ReservationMove (rs : List ReservationRow) (id : Uuid) (prev next : JobState) :
    List ReservationRow → Prop
  | keep : prev.isTerminal = false → next.isTerminal = false → ReservationMove rs id prev next rs
  | acquire (key : String) (now : ℤ) : next = .queued →
      (∀ r ∈ rs, r.jobId ≠ id → r.canonicalOutputPath ≠ key) →
      ReservationMove rs id prev next (Table.delete (fun r => r.jobId = id) rs ++ [⟨key, id, now⟩])
  | release : next.isTerminal = true →
      ReservationMove rs id prev next (Table.delete (fun r => r.jobId = id) rs)

/-- The `UPDATE` of a move. -/
def JobRow.moved (next : JobState) (sequence : ℕ) (now : ℤ) (row : JobRow) : JobRow :=
  { row with state := next, sequence := sequence, updatedUnixMs := now }

/-- The `UPDATE` of an audit. -/
def JobRow.audited (sequence : ℕ) (now : ℤ) (row : JobRow) : JobRow :=
  { row with sequence := sequence, updatedUnixMs := now }

namespace Database

/-- A new job with its reservation and event 0. -/
def withCreated (db : Database) (row : JobRow) (key : String) : Database :=
  { db with
    jobs := db.jobs ++ [row]
    outputReservations := db.outputReservations ++ [⟨key, row.id, row.createdUnixMs⟩]
    jobEvents := db.jobEvents ++ [⟨row.id, 0, none, .planned, "JOB_CREATED", row.createdUnixMs⟩] }

/-- The job moved to `next`, with its event; `rs` are the reservations afterwards. -/
def withMoved (db : Database) (row : JobRow) (next : JobState) (code : String) (now : ℤ)
    (rs : List ReservationRow) : Database :=
  { db with
    jobs := Table.update (fun r => r.id = row.id) (JobRow.moved next (row.sequence + 1) now) db.jobs
    outputReservations := rs
    jobEvents := db.jobEvents ++ [⟨row.id, row.sequence + 1, some row.state, next, code, now⟩] }

/-- An audit event of the job. -/
def withAudited (db : Database) (row : JobRow) (code : String) (now : ℤ) : Database :=
  { db with
    jobs := Table.update (fun r => r.id = row.id) (JobRow.audited (row.sequence + 1) now) db.jobs
    jobEvents := db.jobEvents ++
      [⟨row.id, row.sequence + 1, some row.state, row.state, code, now⟩] }

end Database

/-- Everything a transaction of the store does, step by step. -/
inductive Write (json : ReportJson) (db : Database) : Database → Prop
  | create (row : JobRow) (key : String) : row.state = .planned → row.sequence = 0 →
      (∀ r ∈ db.jobs, r.id ≠ row.id) →
      (∀ r ∈ db.outputReservations, r.canonicalOutputPath ≠ key) →
      Write json db (db.withCreated row key)
  | move (row : JobRow) (next : JobState) (code : String) (now : ℤ) (rs : List ReservationRow) :
      row ∈ db.jobs → row.state.canTransitionTo next = true →
      row.sequence + 1 < sqliteIntegerLimit →
      ReservationMove db.outputReservations row.id row.state next rs →
      Write json db (db.withMoved row next code now rs)
  | audit (row : JobRow) (code : String) (now : ℤ) : row ∈ db.jobs →
      cleanupAllowed row.state = true → code ∈ cleanupCodes →
      row.sequence + 1 < sqliteIntegerLimit → Write json db (db.withAudited row code now)
  | bindKey (row : IdempotencyRow) :
      (∀ r ∈ db.jobIdempotencyKeys, r.idempotencyKey ≠ row.idempotencyKey) →
      (∃ job ∈ db.jobs, job.id = row.jobId) →
      Write json db { db with jobIdempotencyKeys := db.jobIdempotencyKeys ++ [row] }
  | addBatch (row : BatchRow) : (∀ r ∈ db.batches, r.id ≠ row.id) →
      Write json db { db with batches := db.batches ++ [row] }
  | addBatchMember (row : BatchMemberRow) : (∀ r ∈ db.batchMembers, r.jobId ≠ row.jobId) →
      Write json db { db with batchMembers := db.batchMembers ++ [row] }
  | addSelection (row : SelectionSnapshotRow) : (∀ r ∈ db.selectionSnapshots, r.id ≠ row.id) →
      Write json db { db with selectionSnapshots := db.selectionSnapshots ++ [row] }
  | addSelectionMember (row : SelectionMemberRow) :
      (∀ r ∈ db.selectionMembers, (r.selectionId, r.jobId) ≠ (row.selectionId, row.jobId)) →
      (∃ job ∈ db.jobs, job.id = row.jobId) →
      Write json db { db with selectionMembers := db.selectionMembers ++ [row] }
  | addBulkAction (row : BulkActionRow) : (∀ r ∈ db.bulkActions, r.actionId ≠ row.actionId) →
      Write json db { db with bulkActions := db.bulkActions ++ [row] }
  | addBulkMember (row : BulkActionMemberRow) :
      (∃ action ∈ db.bulkActions, action.actionId = row.actionId) →
      Write json db { db with bulkActionMembers := db.bulkActionMembers ++ [row] }
  | setBulkCounts (actionId : Uuid) (transitioned skippedState skippedConflict : ℕ) :
      Write json db (db.setBulkCounts actionId transitioned skippedState skippedConflict)
  | addRevalidation (row : RevalidationRow) (job : JobRow) (report : ValidationReport) :
      job ∈ db.jobs → job.id = row.jobId → revalidationAllowed job.state = true →
      json.toJson report = .ok row.reportJson → report.jobId = row.jobId →
      report.planHash = job.planHash → report.status = row.status →
      Write json db { db with jobRevalidations := db.jobRevalidations ++ [row] }
  | setSamples (samples : List EngineThroughputSample) :
      Write json db { db with engineThroughputSamples := samples }

/-- What a sequence of writes does. -/
abbrev Writes (json : ReportJson) : Database → Database → Prop := ReflTransGen (Write json)

/-! ## The invariant -/

/-- Jobs, their events and their reservations agree. -/
structure JobsSound (jobs : List JobRow) (events : List EventRow)
    (reservations : List ReservationRow) : Prop where
  jobIds : Table.Keyed JobRow.id jobs
  log : ∀ row ∈ jobs, EventLog row.id (events.filter fun e => e.jobId = row.id) row.sequence row.state
  eventJob : ∀ e ∈ events, ∃ row ∈ jobs, row.id = e.jobId
  sequence : ∀ row ∈ jobs, row.sequence < sqliteIntegerLimit
  reservationKeys : Table.Keyed ReservationRow.canonicalOutputPath reservations
  reservationJobs : Table.Keyed ReservationRow.jobId reservations
  reservationActive : ∀ r ∈ reservations, ∃ row ∈ jobs, row.id = r.jobId ∧ row.state.isTerminal = false
  activeReserved : ∀ row ∈ jobs, row.state.isTerminal = false → ∃ r ∈ reservations, r.jobId = row.id

/-- The row identifies the same submission: only state, sequence and update time
    may differ. -/
structure JobRow.SameJob (row row' : JobRow) : Prop where
  id : row'.id = row.id
  inputPath : row'.inputPath = row.inputPath
  outputPath : row'.outputPath = row.outputPath
  planHash : row'.planHash = row.planHash
  planJson : row'.planJson = row.planJson
  createdUnixMs : row'.createdUnixMs = row.createdUnixMs

/-- The revalidation row holds the JSON of a report about its job. -/
def RevalidationRow.About (json : ReportJson) (r : RevalidationRow) (row : JobRow) : Prop :=
  row.id = r.jobId ∧ ∃ report, json.toJson report = .ok r.reportJson ∧ report.jobId = r.jobId ∧
    report.planHash = row.planHash ∧ report.status = r.status

/-- The tables around the jobs point at jobs that exist, under their keys. -/
structure LinksSound (json : ReportJson) (db : Database) : Prop where
  idempotencyKeys : Table.Keyed IdempotencyRow.idempotencyKey db.jobIdempotencyKeys
  idempotencyJobs : ∀ k ∈ db.jobIdempotencyKeys, ∃ row ∈ db.jobs, row.id = k.jobId
  batchMembers : Table.Keyed BatchMemberRow.jobId db.batchMembers
  selectionMembers :
    Table.Keyed (fun m : SelectionMemberRow => (m.selectionId, m.jobId)) db.selectionMembers
  selectionJobs : ∀ m ∈ db.selectionMembers, ∃ row ∈ db.jobs, row.id = m.jobId
  bulkActions : Table.Keyed BulkActionRow.actionId db.bulkActions
  bulkMembers : ∀ m ∈ db.bulkActionMembers, ∃ a ∈ db.bulkActions, a.actionId = m.actionId
  revalidations : ∀ r ∈ db.jobRevalidations, ∃ row ∈ db.jobs, r.About json row

/-- The invariant of the job store. -/
structure Sound (json : ReportJson) (db : Database) : Prop where
  jobs : JobsSound db.jobs db.jobEvents db.outputReservations
  links : LinksSound json db

theorem sound_empty (json : ReportJson) : Sound json Database.empty where
  jobs := ⟨Table.Keyed.nil, by simp [Database.empty], by simp [Database.empty],
    by simp [Database.empty], Table.Keyed.nil, Table.Keyed.nil, by simp [Database.empty],
    by simp [Database.empty]⟩
  links := ⟨Table.Keyed.nil, by simp [Database.empty], Table.Keyed.nil, Table.Keyed.nil,
    by simp [Database.empty], Table.Keyed.nil, by simp [Database.empty], by simp [Database.empty]⟩

/-! ## Jobs are never lost or rewritten -/

/-- Every job of the first table is in the second, as the same submission. -/
def JobsExtend (jobs jobs' : List JobRow) : Prop := ∀ row ∈ jobs, ∃ row' ∈ jobs', JobRow.SameJob row row'

theorem JobRow.SameJob.refl (row : JobRow) : row.SameJob row := ⟨rfl, rfl, rfl, rfl, rfl, rfl⟩

theorem JobRow.SameJob.trans {a b c : JobRow} (h : a.SameJob b) (h' : b.SameJob c) : a.SameJob c :=
  ⟨h'.id.trans h.id, h'.inputPath.trans h.inputPath, h'.outputPath.trans h.outputPath,
    h'.planHash.trans h.planHash, h'.planJson.trans h.planJson,
    h'.createdUnixMs.trans h.createdUnixMs⟩

theorem JobsExtend.refl (jobs : List JobRow) : JobsExtend jobs jobs :=
  fun row hrow => ⟨row, hrow, .refl row⟩

theorem JobsExtend.trans {a b c : List JobRow} (h : JobsExtend a b) (h' : JobsExtend b c) :
    JobsExtend a c := by
  intro row hrow
  obtain ⟨row', hrow', hs⟩ := h row hrow
  obtain ⟨row'', hrow'', hs'⟩ := h' row' hrow'
  exact ⟨row'', hrow'', hs.trans hs'⟩

theorem jobsExtend_append (jobs : List JobRow) (row : JobRow) : JobsExtend jobs (jobs ++ [row]) :=
  fun r hr => ⟨r, List.mem_append_left _ hr, .refl r⟩

theorem jobsExtend_update (jobs : List JobRow) (p : JobRow → Bool) {f : JobRow → JobRow}
    (hf : ∀ row : JobRow, row.SameJob (f row)) : JobsExtend jobs (Table.update p f jobs) := by
  intro row hrow
  refine ⟨_, Table.mem_update.mpr ⟨row, hrow, rfl⟩, ?_⟩
  split_ifs
  · exact hf row
  · exact .refl row

theorem JobRow.sameJob_moved (next : JobState) (n : ℕ) (now : ℤ) (row : JobRow) :
    row.SameJob (row.moved next n now) := ⟨rfl, rfl, rfl, rfl, rfl, rfl⟩

theorem JobRow.sameJob_audited (n : ℕ) (now : ℤ) (row : JobRow) :
    row.SameJob (row.audited n now) := ⟨rfl, rfl, rfl, rfl, rfl, rfl⟩

variable {json : ReportJson} {db db' : Database}

theorem Write.extends (h : Write json db db') :
    JobsExtend db.jobs db'.jobs := by
  cases h with
  | create row key => exact jobsExtend_append _ _
  | move row next code now rs => exact jobsExtend_update _ _ (JobRow.sameJob_moved _ _ _)
  | audit row code now => exact jobsExtend_update _ _ (JobRow.sameJob_audited _ _)
  | bindKey | addBatch | addBatchMember | addSelection | addSelectionMember | addBulkAction
  | addBulkMember | setBulkCounts | addRevalidation | setSamples => exact .refl _

theorem Writes.extends (h : Writes json db db') :
    JobsExtend db.jobs db'.jobs := by
  induction h with
  | refl => exact .refl _
  | tail _ hw ih => exact ih.trans hw.extends

theorem Write.events (h : Write json db db') :
    db.jobEvents <+: db'.jobEvents := by
  cases h with
  | create | move | audit => exact List.prefix_append _ _
  | bindKey | addBatch | addBatchMember | addSelection | addSelectionMember | addBulkAction
  | addBulkMember | setBulkCounts | addRevalidation | setSamples => exact List.prefix_refl _

theorem Writes.events (h : Writes json db db') :
    db.jobEvents <+: db'.jobEvents := by
  induction h with
  | refl => exact List.prefix_refl _
  | tail _ hw ih => exact ih.trans hw.events

theorem Write.keys (h : Write json db db') :
    db.jobIdempotencyKeys <+: db'.jobIdempotencyKeys := by
  cases h with
  | bindKey => exact List.prefix_append _ _
  | create | move | audit | addBatch | addBatchMember | addSelection | addSelectionMember
  | addBulkAction | addBulkMember | setBulkCounts | addRevalidation | setSamples =>
    exact List.prefix_refl _

theorem Writes.keys (h : Writes json db db') :
    db.jobIdempotencyKeys <+: db'.jobIdempotencyKeys := by
  induction h with
  | refl => exact List.prefix_refl _
  | tail _ hw ih => exact ih.trans hw.keys

theorem Writes.log (h : Writes json db db') (id : Uuid) :
    db.logOf id <+: db'.logOf id :=
  h.events.filter _

/-! ## Untouched jobs -/

/-- Events of other jobs do not show in a log. -/
theorem filter_append_other (events : List EventRow) {e : EventRow} {id : Uuid} (h : e.jobId ≠ id) :
    ((events ++ [e]).filter fun e => e.jobId = id) = events.filter fun e => e.jobId = id := by
  simp [List.filter_append, h]

theorem filter_append_own (events : List EventRow) {e : EventRow} {id : Uuid} (h : e.jobId = id) :
    ((events ++ [e]).filter fun e => e.jobId = id) = (events.filter fun e => e.jobId = id) ++ [e] := by
  simp [List.filter_append, h]

/-- The row, the events and the reservation of a job are as they were. -/
structure Untouched (id : Uuid) (db db' : Database) : Prop where
  job : db'.job? id = db.job? id
  log : db'.logOf id = db.logOf id
  reservation : db'.ownedKey id = db.ownedKey id

section Untouched

variable {id : Uuid} {a b c : Database} {other : Uuid}

theorem Untouched.refl (id : Uuid) (db : Database) : Untouched id db db := ⟨rfl, rfl, rfl⟩

theorem Untouched.trans (h : Untouched id a b) (h' : Untouched id b c) : Untouched id a c :=
  ⟨h'.job.trans h.job, h'.log.trans h.log, h'.reservation.trans h.reservation⟩

theorem find?_update_other {jobs : List JobRow} {f : JobRow → JobRow}
    (hf : ∀ row, (f row).id = row.id) (hne : id ≠ other) :
    (Table.update (fun r => r.id = other) f jobs).find? (fun r => r.id = id) =
      jobs.find? fun r => r.id = id := by
  have hsame : ((fun r : JobRow => decide (r.id = id)) ∘ fun r => if decide (r.id = other) = true
      then f r else r) = fun r => decide (r.id = id) := by
    funext r
    by_cases hother : r.id = other
    · simp [hother, hf]
    · simp [hother]
  rw [Table.update, List.find?_map, hsame]
  cases hfind : jobs.find? fun r => r.id = id with
  | none => rfl
  | some row =>
    have hid : row.id = id := by simpa using List.find?_some hfind
    simp [hid, hne]

/-- A move to a state that is neither terminal nor `Queued` keeps the reservations. -/
theorem ReservationMove.eq_of_ne {rs rs' : List ReservationRow} {prev next : JobState}
    (h : ReservationMove rs id prev next rs') (hnext : next ≠ .queued)
    (hactive : next.isTerminal = false) : rs' = rs := by
  cases h with
  | keep => rfl
  | acquire key now hqueued => exact absurd hqueued hnext
  | release hterm =>
    rw [hactive] at hterm
    cases hterm

/-- Giving up or taking one reservation leaves the others alone. -/
theorem find?_delete_other {rs : List ReservationRow} (hne : id ≠ other) :
    (Table.delete (fun r => r.jobId = other) rs).find? (fun r => r.jobId = id) =
      rs.find? fun r => r.jobId = id := by
  rw [Table.delete, List.find?_filter]
  congr 1
  funext r
  by_cases hid : r.jobId = id
  · have : r.jobId ≠ other := fun h => hne (hid.symm.trans h)
    simp [hid, hne]
  · simp [hid]

theorem ReservationMove.find?_other {rs rs' : List ReservationRow}
    {prev next : JobState} (h : ReservationMove rs other prev next rs') (hne : id ≠ other) :
    rs'.find? (fun r => r.jobId = id) = rs.find? fun r => r.jobId = id := by
  cases h with
  | keep => rfl
  | acquire key now =>
    rw [List.find?_append, find?_delete_other hne]
    simp [hne.symm]
  | release => exact find?_delete_other hne

/-- Moving a job leaves the other jobs untouched. -/
theorem untouched_withMoved {db : Database} {row : JobRow} {next : JobState} {code : String}
    {now : ℤ} {rs : List ReservationRow} (hne : id ≠ row.id)
    (hmove : ReservationMove db.outputReservations row.id row.state next rs) :
    Untouched id db (db.withMoved row next code now rs) where
  job := find?_update_other (fun _ => rfl) hne
  log := filter_append_other _ hne.symm
  reservation := congrArg _ (hmove.find?_other hne)

end Untouched

theorem LinksSound.of_extends (h : LinksSound json db)
    (hjobs : JobsExtend db.jobs db'.jobs)
    (hkeys : db'.jobIdempotencyKeys = db.jobIdempotencyKeys)
    (hbatch : db'.batchMembers = db.batchMembers)
    (hsel : db'.selectionMembers = db.selectionMembers) (hbulk : db'.bulkActions = db.bulkActions)
    (hmembers : db'.bulkActionMembers = db.bulkActionMembers)
    (hreval : db'.jobRevalidations = db.jobRevalidations) : LinksSound json db' where
  idempotencyKeys := by rw [hkeys]; exact h.idempotencyKeys
  idempotencyJobs := by
    rw [hkeys]
    intro k hk
    obtain ⟨row, hrow, hid⟩ := h.idempotencyJobs k hk
    obtain ⟨row', hrow', hs⟩ := hjobs row hrow
    exact ⟨row', hrow', hs.id.trans hid⟩
  batchMembers := by rw [hbatch]; exact h.batchMembers
  selectionMembers := by rw [hsel]; exact h.selectionMembers
  selectionJobs := by
    rw [hsel]
    intro m hm
    obtain ⟨row, hrow, hid⟩ := h.selectionJobs m hm
    obtain ⟨row', hrow', hs⟩ := hjobs row hrow
    exact ⟨row', hrow', hs.id.trans hid⟩
  bulkActions := by rw [hbulk]; exact h.bulkActions
  bulkMembers := by rw [hmembers, hbulk]; exact h.bulkMembers
  revalidations := by
    rw [hreval]
    intro r hr
    obtain ⟨row, hrow, hid, report, h1, h2, h3, h4⟩ := h.revalidations r hr
    obtain ⟨row', hrow', hs⟩ := hjobs row hrow
    exact ⟨row', hrow', hs.id.trans hid, report, h1, h2, h3.trans hs.planHash.symm, h4⟩

/-! ## Writes keep the invariant -/

section Core

variable {jobs : List JobRow} {events : List EventRow} {rs rs' : List ReservationRow}
  {row r : JobRow} {prev next : JobState}

theorem mem_update_id {f : JobRow → JobRow}
    (hkeyed : Table.Keyed JobRow.id jobs) (hrow : row ∈ jobs) :
    r ∈ Table.update (fun r => r.id = row.id) f jobs ↔
      r = f row ∨ (r ∈ jobs ∧ r.id ≠ row.id) := by
  rw [Table.mem_update]
  constructor
  · rintro ⟨r0, hr0, rfl⟩
    by_cases hid : r0.id = row.id
    · rw [hkeyed.eq hr0 hrow hid]
      simp
    · simp only [hid, decide_false, Bool.false_eq_true, if_false]
      exact Or.inr ⟨hr0, hid⟩
  · rintro (rfl | ⟨hr, hid⟩)
    · exact ⟨row, hrow, by simp⟩
    · exact ⟨r, hr, by simp [hid]⟩

theorem JobsSound.create (h : JobsSound jobs events rs) {key : String}
    (hstate : row.state = .planned) (hseq : row.sequence = 0) (hid : ∀ r ∈ jobs, r.id ≠ row.id)
    (hkey : ∀ r ∈ rs, r.canonicalOutputPath ≠ key) :
    JobsSound (jobs ++ [row])
      (events ++ [⟨row.id, 0, none, .planned, "JOB_CREATED", row.createdUnixMs⟩])
      (rs ++ [⟨key, row.id, row.createdUnixMs⟩]) where
  jobIds := h.jobIds.append hid
  log := by
    intro r hr
    rcases List.mem_append.mp hr with hr | hr
    · rw [filter_append_other _ (hid r hr).symm]
      exact h.log r hr
    · obtain rfl : r = row := by simpa using hr
      have hnone : (events.filter fun e => e.jobId = r.id) = [] := by
        rw [List.filter_eq_nil_iff]
        intro e he
        obtain ⟨r0, hr0, he0⟩ := h.eventJob e he
        simpa [← he0] using hid r0 hr0
      rw [filter_append_own _ (by rfl), hnone, hstate, hseq]
      exact .created _
  eventJob := by
    intro e he
    rcases List.mem_append.mp he with he | he
    · obtain ⟨r0, hr0, he0⟩ := h.eventJob e he
      exact ⟨r0, List.mem_append_left _ hr0, he0⟩
    · obtain rfl := List.mem_singleton.mp he
      exact ⟨row, by simp, rfl⟩
  sequence := by
    intro r hr
    rcases List.mem_append.mp hr with hr | hr
    · exact h.sequence r hr
    · obtain rfl : r = row := by simpa using hr
      rw [hseq]; exact Nat.two_pow_pos 63
  reservationKeys := h.reservationKeys.append hkey
  reservationJobs := by
    refine h.reservationJobs.append fun r hr => ?_
    obtain ⟨r0, hr0, he0, _⟩ := h.reservationActive r hr
    rw [← he0]
    exact hid r0 hr0
  reservationActive := by
    intro r hr
    rcases List.mem_append.mp hr with hr | hr
    · obtain ⟨r0, hr0, he0⟩ := h.reservationActive r hr
      exact ⟨r0, List.mem_append_left _ hr0, he0⟩
    · obtain rfl := List.mem_singleton.mp hr
      exact ⟨row, by simp, rfl, by rw [hstate]; rfl⟩
  activeReserved := by
    intro r hr hactive
    rcases List.mem_append.mp hr with hr | hr
    · obtain ⟨r0, hr0, he0⟩ := h.activeReserved r hr hactive
      exact ⟨r0, List.mem_append_left _ hr0, he0⟩
    · obtain rfl : r = row := by simpa using hr
      exact ⟨_, List.mem_append_right _ (List.mem_singleton.mpr rfl), rfl⟩

/-- Updating one job with a new event keeps the jobs and their logs together;
    the reservations are a separate matter. -/
theorem JobsSound.advance (h : JobsSound jobs events rs) {f : JobRow → JobRow} {e : EventRow}
    (hrow : row ∈ jobs) (hf : ∀ r, (f r).id = r.id) (hseq : (f row).sequence < sqliteIntegerLimit)
    (he : e.jobId = row.id)
    (hlog : EventLog row.id ((events.filter fun e => e.jobId = row.id) ++ [e]) (f row).sequence
      (f row).state)
    (hkeys : Table.Keyed ReservationRow.canonicalOutputPath rs')
    (hjobs : Table.Keyed ReservationRow.jobId rs')
    (hother : ∀ r : ReservationRow, r.jobId ≠ row.id → (r ∈ rs' ↔ r ∈ rs))
    (hown : (∃ r ∈ rs', r.jobId = row.id) ↔ (f row).state.isTerminal = false) :
    JobsSound (Table.update (fun r => r.id = row.id) f jobs) (events ++ [e]) rs' where
  jobIds := h.jobIds.update hf
  log := by
    intro r hr
    rcases (mem_update_id h.jobIds hrow).mp hr with rfl | ⟨hr, hid⟩
    · rw [hf, filter_append_own _ he]
      exact hlog
    · rw [filter_append_other _ (by rw [he]; exact hid.symm)]
      exact h.log r hr
  eventJob := by
    intro e' he'
    have hold : ∀ r0 ∈ jobs, ∃ r ∈ Table.update (fun r => r.id = row.id) f jobs, r.id = r0.id := by
      intro r0 hr0
      refine ⟨_, Table.mem_update.mpr ⟨r0, hr0, rfl⟩, ?_⟩
      split_ifs
      · exact hf r0
      · rfl
    rcases List.mem_append.mp he' with he' | he'
    · obtain ⟨r0, hr0, he0⟩ := h.eventJob e' he'
      obtain ⟨r, hr, hid⟩ := hold r0 hr0
      exact ⟨r, hr, hid.trans he0⟩
    · obtain rfl := List.mem_singleton.mp he'
      obtain ⟨r, hr, hid⟩ := hold row hrow
      exact ⟨r, hr, hid.trans he.symm⟩
  sequence := by
    intro r hr
    rcases (mem_update_id h.jobIds hrow).mp hr with rfl | ⟨hr, _⟩
    · exact hseq
    · exact h.sequence r hr
  reservationKeys := hkeys
  reservationJobs := hjobs
  reservationActive := by
    intro r hr
    by_cases hid : r.jobId = row.id
    · exact ⟨f row, (mem_update_id h.jobIds hrow).mpr (Or.inl rfl), by rw [hf, hid],
        hown.mp ⟨r, hr, hid⟩⟩
    · obtain ⟨r0, hr0, he0, hs⟩ := h.reservationActive r ((hother r hid).mp hr)
      exact ⟨r0, (mem_update_id h.jobIds hrow).mpr (Or.inr ⟨hr0, by rw [he0]; exact hid⟩), he0, hs⟩
  activeReserved := by
    intro r hr hactive
    rcases (mem_update_id h.jobIds hrow).mp hr with rfl | ⟨hr, hid⟩
    · obtain ⟨r', hr', he'⟩ := hown.mpr hactive
      exact ⟨r', hr', by rw [hf]; exact he'⟩
    · obtain ⟨r', hr', he'⟩ := h.activeReserved r hr hactive
      exact ⟨r', (hother r' (by rw [he']; exact hid)).mpr hr', he'⟩

theorem ReservationMove.mem_other {id : Uuid}
    (h : ReservationMove rs id prev next rs') {r : ReservationRow} (hr : r.jobId ≠ id) :
    r ∈ rs' ↔ r ∈ rs := by
  cases h with
  | keep => exact Iff.rfl
  | acquire key now =>
    rw [List.mem_append, Table.mem_delete, List.mem_singleton]
    constructor
    · rintro (⟨h1, _⟩ | rfl)
      · exact h1
      · exact absurd rfl hr
    · intro h1; exact Or.inl ⟨h1, by simpa using hr⟩
  | release =>
    rw [Table.mem_delete]
    simp [hr]

/-- After a move the job owns a reservation exactly when its new state is not
    terminal. -/
theorem ReservationMove.own_iff {id : Uuid}
    (h : ReservationMove rs id prev next rs')
    (hprev : prev.isTerminal = false → ∃ r ∈ rs, r.jobId = id) :
    (∃ r ∈ rs', r.jobId = id) ↔ next.isTerminal = false := by
  cases h with
  | keep h1 h2 => exact iff_of_true (hprev h1) h2
  | acquire key now h1 =>
    exact iff_of_true ⟨_, List.mem_append_right _ (List.mem_singleton.mpr rfl), rfl⟩
      (by rw [h1]; rfl)
  | release h1 =>
    refine iff_of_false ?_ (by rw [h1]; simp)
    rintro ⟨r, hr, hid⟩
    simpa [hid] using (Table.mem_delete.mp hr).2

theorem ReservationMove.keyed {id : Uuid}
    (h : ReservationMove rs id prev next rs')
    (hkeys : Table.Keyed ReservationRow.canonicalOutputPath rs)
    (hjobs : Table.Keyed ReservationRow.jobId rs) :
    Table.Keyed ReservationRow.canonicalOutputPath rs' ∧ Table.Keyed ReservationRow.jobId rs' := by
  cases h with
  | keep => exact ⟨hkeys, hjobs⟩
  | acquire key now _ hfree =>
    refine ⟨hkeys.delete.append fun r hr => ?_, hjobs.delete.append fun r hr => ?_⟩
    · obtain ⟨hr, hid⟩ := Table.mem_delete.mp hr
      exact hfree r hr (by simpa using hid)
    · simpa using (Table.mem_delete.mp hr).2
  | release => exact ⟨hkeys.delete, hjobs.delete⟩

theorem JobsSound.move (h : JobsSound jobs events rs) {next : JobState} {code : String} {now : ℤ}
    (hrow : row ∈ jobs) (hlegal : row.state.canTransitionTo next = true)
    (hseq : row.sequence + 1 < sqliteIntegerLimit)
    (hmove : ReservationMove rs row.id row.state next rs') :
    JobsSound (Table.update (fun r => r.id = row.id) (JobRow.moved next (row.sequence + 1) now) jobs)
      (events ++ [⟨row.id, row.sequence + 1, some row.state, next, code, now⟩]) rs' := by
  obtain ⟨hkeys, hjobs⟩ := hmove.keyed h.reservationKeys h.reservationJobs
  exact h.advance hrow (fun _ => rfl) hseq rfl (.moved next code now (h.log row hrow) hlegal) hkeys
    hjobs (fun r hr => hmove.mem_other hr) (hmove.own_iff (h.activeReserved row hrow))

theorem JobsSound.audit (h : JobsSound jobs events rs) {code : String} {now : ℤ} (hrow : row ∈ jobs)
    (hallowed : cleanupAllowed row.state = true) (hcode : code ∈ cleanupCodes)
    (hseq : row.sequence + 1 < sqliteIntegerLimit) :
    JobsSound (Table.update (fun r => r.id = row.id) (JobRow.audited (row.sequence + 1) now) jobs)
      (events ++ [⟨row.id, row.sequence + 1, some row.state, row.state, code, now⟩]) rs := by
  refine h.advance hrow (fun _ => rfl) hseq rfl (.audited code now (h.log row hrow) hallowed hcode)
    h.reservationKeys h.reservationJobs (fun _ _ => Iff.rfl) ?_
  constructor
  · rintro ⟨r, hr, hid⟩
    obtain ⟨r0, hr0, he0, hs⟩ := h.reservationActive r hr
    rw [h.jobIds.eq hr0 hrow (he0.trans hid)] at hs
    exact hs
  · exact fun hs => h.activeReserved row hrow hs

end Core

/-- **Every write keeps the invariant.** -/
theorem Write.sound (hw : Write json db db')
    (h : Sound json db) : Sound json db' := by
  have hjobs := hw.extends
  cases hw with
  | create row key hstate hseq hid hkey =>
    exact ⟨h.jobs.create hstate hseq hid hkey, h.links.of_extends hjobs rfl rfl rfl rfl rfl rfl⟩
  | move row next code now rs hrow hlegal hseq hmove =>
    exact ⟨h.jobs.move hrow hlegal hseq hmove, h.links.of_extends hjobs rfl rfl rfl rfl rfl rfl⟩
  | audit row code now hrow hallowed hcode hseq =>
    exact ⟨h.jobs.audit hrow hallowed hcode hseq, h.links.of_extends hjobs rfl rfl rfl rfl rfl rfl⟩
  | bindKey row hfree hjob =>
    refine ⟨h.jobs, { h.links with
      idempotencyKeys := h.links.idempotencyKeys.append hfree, idempotencyJobs := ?_ }⟩
    intro k hk
    rcases List.mem_append.mp hk with hk | hk
    · exact h.links.idempotencyJobs k hk
    · obtain rfl := List.mem_singleton.mp hk
      exact hjob
  | addBatch row hfree => exact ⟨h.jobs, { h.links with }⟩
  | addBatchMember row hfree =>
    exact ⟨h.jobs, { h.links with batchMembers := h.links.batchMembers.append hfree }⟩
  | addSelection row hfree => exact ⟨h.jobs, { h.links with }⟩
  | addSelectionMember row hfree hjob =>
    refine ⟨h.jobs, { h.links with
      selectionMembers := h.links.selectionMembers.append hfree, selectionJobs := ?_ }⟩
    intro m hm
    rcases List.mem_append.mp hm with hm | hm
    · exact h.links.selectionJobs m hm
    · obtain rfl := List.mem_singleton.mp hm
      exact hjob
  | addBulkAction row hfree =>
    refine ⟨h.jobs, { h.links with
      bulkActions := h.links.bulkActions.append hfree, bulkMembers := ?_ }⟩
    intro m hm
    obtain ⟨a, ha, hid⟩ := h.links.bulkMembers m hm
    exact ⟨a, List.mem_append_left _ ha, hid⟩
  | addBulkMember row haction =>
    refine ⟨h.jobs, { h.links with bulkMembers := ?_ }⟩
    intro m hm
    rcases List.mem_append.mp hm with hm | hm
    · exact h.links.bulkMembers m hm
    · obtain rfl := List.mem_singleton.mp hm
      exact haction
  | setBulkCounts actionId t s c =>
    refine ⟨h.jobs, { h.links with
      bulkActions := h.links.bulkActions.update fun _ => rfl, bulkMembers := ?_ }⟩
    intro m hm
    obtain ⟨a, ha, hid⟩ := h.links.bulkMembers m hm
    refine ⟨_, Table.mem_update.mpr ⟨a, ha, rfl⟩, ?_⟩
    split_ifs
    · exact hid
    · exact hid
  | addRevalidation row job report hjob hid hallowed hjson h1 h2 h3 =>
    refine ⟨h.jobs, { h.links with revalidations := ?_ }⟩
    intro r hr
    rcases List.mem_append.mp hr with hr | hr
    · exact h.links.revalidations r hr
    · obtain rfl := List.mem_singleton.mp hr
      exact ⟨job, hjob, hid, report, hjson, h1, h2, h3⟩
  | setSamples samples => exact ⟨h.jobs, { h.links with }⟩

theorem Writes.sound (hw : Writes json db db')
    (h : Sound json db) : Sound json db' := by
  induction hw with
  | refl => exact h
  | tail _ hstep ih => exact hstep.sound ih

end Anole
