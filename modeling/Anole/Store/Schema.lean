import Anole.Domain
import Anole.Common.Table
import Anole.Common.Trace

/-!
# The job database

Tables and records of `crates/core/src/job_store.rs`, and the statements its
transactions are made of.

* A table is the list of its rows (`Table`). Columns keep the Rust value they
  encode: a state column holds a `JobState`, an id column a `Uuid`, a path column
  the text `to_string_lossy` gave, `plan_json` and `query_json` the Plan and the
  query they serialise.
* `job_events` drops its surrogate `event_id`: insertion order is the row order.
* A transaction reads the outside world through `CallEnv`: the clock, fresh
  UUIDs, and `reservation_key`, whose answer depends on the filesystem and may
  differ from call to call. `CallEnv.fault` is a failure of `BEGIN`, of a
  statement or of `COMMIT`.
-/

namespace Anole

/-! ## Rows -/

/-- A row of `jobs` (`job_store.rs`, lines 232–242). -/
structure JobRow where
  id : Uuid
  state : JobState
  inputPath : String
  outputPath : String
  planHash : String
  planJson : Plan
  sequence : ℕ
  createdUnixMs : ℤ
  updatedUnixMs : ℤ
  deriving DecidableEq

/-- A row of `job_events` (lines 243–252). -/
structure EventRow where
  jobId : Uuid
  sequence : ℕ
  previousState : Option JobState
  nextState : JobState
  code : String
  timestampUnixMs : ℤ
  deriving DecidableEq

/-- A row of `output_reservations` (lines 255–259): the key is the primary key
    and `job_id` is unique. -/
structure ReservationRow where
  canonicalOutputPath : String
  jobId : Uuid
  createdUnixMs : ℤ
  deriving DecidableEq

/-- A row of `batches` (lines 363–368). -/
structure BatchRow where
  id : Uuid
  name : String
  createdUnixMs : ℤ
  updatedUnixMs : ℤ
  deriving DecidableEq

/-- A row of `batch_members` (lines 369–374). -/
structure BatchMemberRow where
  batchId : Uuid
  jobId : Uuid
  ordinal : ℕ
  deriving DecidableEq

/-- A row of `job_idempotency_keys` (lines 376–380). -/
structure IdempotencyRow where
  idempotencyKey : String
  jobId : Uuid
  createdUnixMs : ℤ
  deriving DecidableEq

/-- `JobSelectionQuery` (lines 103–108). -/
structure JobSelectionQuery where
  batchId : Option Uuid
  states : List JobState
  search : Option String
  deriving DecidableEq

/-- A row of `selection_snapshots` (lines 381–386). -/
structure SelectionSnapshotRow where
  id : Uuid
  queryJson : JobSelectionQuery
  memberCount : ℕ
  createdUnixMs : ℤ
  deriving DecidableEq

/-- A row of `selection_members` (lines 387–394). -/
structure SelectionMemberRow where
  selectionId : Uuid
  jobId : Uuid
  ordinal : ℕ
  deriving DecidableEq

/-- `BulkJobAction` (lines 132–136). -/
inductive BulkJobAction where
  | cancel | resume | retry
  deriving DecidableEq

/-- A row of `bulk_actions` (lines 395–404). -/
structure BulkActionRow where
  actionId : Uuid
  selectionId : Uuid
  action : BulkJobAction
  matchedCount : ℕ
  transitionedCount : ℕ
  skippedStateCount : ℕ
  skippedConflictCount : ℕ
  createdUnixMs : ℤ
  deriving DecidableEq

/-- A row of `bulk_action_members` (lines 405–412). -/
structure BulkActionMemberRow where
  actionId : Uuid
  jobId : Uuid
  outcome : String
  previousState : JobState
  nextState : Option JobState
  deriving DecidableEq

/-- A row of `job_revalidations` (lines 447–453). -/
structure RevalidationRow where
  id : Uuid
  jobId : Uuid
  status : ValidationStatus
  reportJson : String
  createdUnixMs : ℤ
  deriving DecidableEq

/-- `EngineThroughputSample` (lines 27–34). -/
structure EngineThroughputSample where
  engineId : String
  capabilityId : String
  wallMillis : ℕ
  inputBytes : Option ℕ
  outputBytes : Option ℕ
  completedUnixMs : ℤ
  deriving DecidableEq

/-- The SQLite file: every table of `migrate` (lines 217–500). -/
structure Database where
  jobs : List JobRow
  jobEvents : List EventRow
  outputReservations : List ReservationRow
  batches : List BatchRow
  batchMembers : List BatchMemberRow
  jobIdempotencyKeys : List IdempotencyRow
  selectionSnapshots : List SelectionSnapshotRow
  selectionMembers : List SelectionMemberRow
  bulkActions : List BulkActionRow
  bulkActionMembers : List BulkActionMemberRow
  jobRevalidations : List RevalidationRow
  engineThroughputSamples : List EngineThroughputSample
  deriving DecidableEq

/-- A freshly migrated database. -/
def Database.empty : Database :=
  { jobs := [], jobEvents := [], outputReservations := [], batches := [], batchMembers := [],
    jobIdempotencyKeys := [], selectionSnapshots := [], selectionMembers := [], bulkActions := [],
    bulkActionMembers := [], jobRevalidations := [], engineThroughputSamples := [] }

/-! ## Records handed to callers -/

/-- `JobRecord` (lines 36–46). -/
structure JobRecord where
  id : Uuid
  state : JobState
  inputPath : PathBuf
  outputPath : PathBuf
  planHash : String
  sequence : ℕ
  createdUnixMs : ℤ
  updatedUnixMs : ℤ
  deriving DecidableEq

/-- `job_record_from_row` (lines 2482–2493). The id and the state parse back:
    every writer stores `to_string` and `state_name`. -/
def jobRecordFromRow (row : JobRow) : JobRecord :=
  { id := row.id, state := row.state, inputPath := PathBuf.ofString row.inputPath,
    outputPath := PathBuf.ofString row.outputPath, planHash := row.planHash,
    sequence := row.sequence, createdUnixMs := row.createdUnixMs,
    updatedUnixMs := row.updatedUnixMs }

section JobRecordFromRow

variable (row : JobRow)

@[simp] theorem jobRecordFromRow_id : (jobRecordFromRow row).id = row.id := rfl

@[simp] theorem jobRecordFromRow_state : (jobRecordFromRow row).state = row.state := rfl

@[simp] theorem jobRecordFromRow_sequence : (jobRecordFromRow row).sequence = row.sequence := rfl

end JobRecordFromRow

/-- `JobCreateRequest` (lines 88–93). -/
structure JobCreateRequest where
  inputPath : PathBuf
  outputPath : PathBuf
  plan : Plan

/-- `BatchRecord` (lines 95–101). -/
structure BatchRecord where
  id : Uuid
  name : String
  jobCount : ℕ
  createdUnixMs : ℤ
  updatedUnixMs : ℤ

/-- `IdempotentJobResult` (lines 178–182). -/
structure IdempotentJobResult where
  job : JobRecord
  created : Bool

/-- `RevalidationRecord` (lines 79–86). -/
structure RevalidationRecord where
  id : Uuid
  jobId : Uuid
  status : ValidationStatus
  report : ValidationReport
  createdUnixMs : ℤ

/-- `SelectionSnapshot` (lines 124–130). -/
structure SelectionSnapshot where
  id : Uuid
  query : JobSelectionQuery
  memberCount : ℕ
  createdUnixMs : ℤ
  deriving DecidableEq

/-- `BulkActionReport` (lines 167–176). -/
structure BulkActionReport where
  actionId : Uuid
  selectionId : Uuid
  action : BulkJobAction
  matched : ℕ
  transitioned : ℕ
  skippedState : ℕ
  skippedConflict : ℕ
  createdUnixMs : ℤ

/-! ## The outside world of a transaction -/

/-- What one transaction reads from outside the database. -/
structure CallEnv where
  /-- `now_unix_ms()`. -/
  now : ℤ
  /-- The values of the successive `Uuid::new_v4()` calls. -/
  newV4 : ℕ → Uuid
  /-- The values of the successive `reservation_key` calls. -/
  reservationKey : ℕ → PathBuf → Except AnoleError String
  /-- An SQLite failure that makes the transaction roll back. -/
  fault : Option AnoleError

/-- `storage_error` (lines 2951–2975) for an error that is not a lock conflict. -/
def storageError (diagnostic : String) : AnoleError :=
  (AnoleError.new .storageFailed .store "SQLite operation failed"
    "Check local storage health and retry.").withDiagnostic diagnostic

/-- `storage_error` for `DatabaseBusy` and `DatabaseLocked`. -/
def databaseBusy : AnoleError :=
  ((AnoleError.new .storageFailed .store "The state database is busy with another writer"
    "Retry after the other Anole operation finishes.").setRetryable true).withDiagnostic
      "database is locked"

/-- `output_reservation_error` (lines 2864–2880) for a constraint violation. -/
def outputReservationError : AnoleError :=
  (AnoleError.new .outputConflict .store
    "Another active job already reserves this output path"
    "Choose another output path or wait for the owning job to finish.").withDiagnostic
      "UNIQUE constraint failed: output_reservations.canonical_output_path"

/-- The error for a job id with no row. -/
def jobDoesNotExist (jobId : Uuid) : AnoleError :=
  AnoleError.new .storageFailed .store s!"Job does not exist: {jobId.toText}"
    "Refresh the job list."

/-- The error for a transition the state machine does not have. -/
def invalidJobTransition (current next : JobState) : AnoleError :=
  AnoleError.new .storageFailed .store
    s!"Invalid job transition: {current.debug} -> {next.debug}"
    "Refresh the job and retry a valid action."

/-- The error for an `UPDATE` that changed no row. -/
def jobStateChangedConcurrently : AnoleError :=
  (AnoleError.new .storageFailed .store "Job state changed concurrently"
    "Refresh the job and retry.").setRetryable true

/-- A transaction: committed with its result, or rolled back. The body is not
    committed when SQLite fails or when it returns early with an error. -/
def transaction {α : Type} (env : CallEnv) (db : Database)
    (body : Except AnoleError (α × Database)) : Except AnoleError α × Database :=
  match env.fault, body with
  | some error, _ => (.error error, db)
  | none, .error error => (.error error, db)
  | none, .ok (a, db') => (.ok a, db')

variable {env : CallEnv} {α : Type}

theorem transaction_ok {db db' : Database}
    {body : Except AnoleError (α × Database)} {a : α} :
    transaction env db body = (.ok a, db') ↔ env.fault = none ∧ body = .ok (a, db') := by
  unfold transaction
  cases env.fault with
  | some error => simp
  | none =>
    cases body with
    | error error => simp
    | ok r => obtain ⟨b, db''⟩ := r; simp

theorem transaction_error {db db' : Database}
    {body : Except AnoleError (α × Database)} {e : AnoleError}
    (h : transaction env db body = (.error e, db')) : db' = db := by
  unfold transaction at h
  cases hf : env.fault with
  | some error => rw [hf] at h; cases h; rfl
  | none =>
    rw [hf] at h
    cases body with
    | error error => cases h; rfl
    | ok r => obtain ⟨b, db''⟩ := r; cases h

theorem transaction_of_ok (hfault : env.fault = none) (db db' : Database)
    (a : α) : transaction env db (.ok (a, db')) = (.ok a, db') :=
  transaction_ok.mpr ⟨hfault, rfl⟩

theorem transaction_of_error (hfault : env.fault = none) (db : Database)
    (e : AnoleError) :
    transaction env db (.error e : Except AnoleError (α × Database)) = (.error e, db) := by
  unfold transaction
  rw [hfault]

/-! ## Statements -/

/-- The bound `i64::MAX + 1` of an SQLite integer. -/
abbrev sqliteIntegerLimit : ℕ := 2 ^ 63

/-- `row.4.saturating_add(1)` on `u64`. -/
def nextSequence (sequence : ℕ) : ℕ := min (sequence + 1) (2 ^ 64 - 1)

/-- Binding a `u64` parameter: `ToSql` fails above `i64::MAX`. -/
def bindU64 (value : ℕ) : Except AnoleError ℕ :=
  if value < sqliteIntegerLimit then .ok value
  else .error (storageError "out of range integral type conversion attempted")

/-- An `INSERT` into the table `t` of a database: `set` puts the new rows back, and
    `error` reports the uniqueness constraint that `clash` stands for. -/
def insertRow {ρ : Type} (clash : ρ → Bool) (row : ρ) (t : List ρ) (set : List ρ → Database)
    (error : AnoleError) : Except AnoleError Database :=
  match Table.insert clash row t with
  | some rows => .ok (set rows)
  | none => .error error

theorem insertRow_eq_ok {ρ : Type} {clash : ρ → Bool} {row : ρ} {t : List ρ}
    {set : List ρ → Database} {error : AnoleError} {db' : Database} :
    insertRow clash row t set error = .ok db' ↔
      (∀ r ∈ t, clash r = false) ∧ db' = set (t ++ [row]) := by
  unfold insertRow
  split
  · next rows hins =>
    obtain ⟨hfree, rfl⟩ := Table.insert_eq_some.mp hins
    rw [Except.ok.injEq]
    exact ⟨fun h => ⟨hfree, h.symm⟩, fun h => h.2.symm⟩
  · next hins =>
    constructor
    · intro h; cases h
    · rintro ⟨hfree, _⟩
      rw [Table.insert_of_free hfree] at hins; cases hins

namespace Database

/-- `SELECT … FROM jobs WHERE id = ?1`. -/
def job? (db : Database) (id : Uuid) : Option JobRow := db.jobs.find? fun r => r.id = id

/-- The same lookup where a missing row is an error. -/
def requireJob (db : Database) (id : Uuid) : Except AnoleError JobRow :=
  match db.job? id with
  | some row => .ok row
  | none => .error (jobDoesNotExist id)

/-- `INSERT INTO jobs`. -/
def insertJobRow (db : Database) (row : JobRow) : Except AnoleError Database :=
  insertRow (fun r => r.id = row.id) row db.jobs
    (fun rows => { db with jobs := rows }) (storageError "UNIQUE constraint failed: jobs.id")

/-- `UPDATE jobs SET … WHERE id = ? AND state = ? AND sequence = ?`, with the
    number of changed rows. -/
def updateJob (db : Database) (id : Uuid) (state : JobState) (sequence : ℕ)
    (set : JobRow → JobRow) : Database × ℕ :=
  let p := fun r : JobRow => r.id = id ∧ r.state = state ∧ r.sequence = sequence
  ({ db with jobs := Table.update (fun r => p r) set db.jobs }, db.jobs.countP fun r => p r)

/-- `INSERT INTO job_events`; `(job_id, sequence)` is unique. -/
def insertJobEvent (db : Database) (row : EventRow) : Except AnoleError Database :=
  insertRow (fun r => r.jobId = row.jobId ∧ r.sequence = row.sequence) row db.jobEvents
    (fun rows => { db with jobEvents := rows })
    (storageError "UNIQUE constraint failed: job_events.job_id, job_events.sequence")

/-- `SELECT canonical_output_path FROM output_reservations WHERE job_id = ?1`. -/
def ownedKey (db : Database) (jobId : Uuid) : Option String :=
  (db.outputReservations.find? fun r => r.jobId = jobId).map ReservationRow.canonicalOutputPath

/-- `DELETE FROM output_reservations WHERE job_id = ?1`. -/
def deleteReservation (db : Database) (jobId : Uuid) : Database :=
  { db with outputReservations := Table.delete (fun r => r.jobId = jobId) db.outputReservations }

/-- `INSERT INTO output_reservations`. -/
def insertReservation (db : Database) (row : ReservationRow) : Except AnoleError Database :=
  insertRow (fun r => r.canonicalOutputPath = row.canonicalOutputPath ∨
      r.jobId = row.jobId) row db.outputReservations
    (fun rows => { db with outputReservations := rows }) outputReservationError

end Database

end Anole
