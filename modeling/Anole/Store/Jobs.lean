import Mathlib.Data.List.DropRight
import Anole.Store.Schema

/-!
# The job transactions

Models of the transactions of `SqliteJobStore` (`crates/core/src/job_store.rs`)
that create jobs, move them through the state machine and record evidence about
them. Bulk actions are in `Anole.Store.Selection`.

Each transaction has a body, which computes on the database and returns early
with an error as the Rust `?` does, and the public function, which wraps it in
`transaction`. The `n`-th call of `reservation_key` in a transaction reads
`env.reservationKey n`.
-/

namespace Anole

/-! ## Text checks -/

/-- `char::is_whitespace`: the Unicode `White_Space` property. -/
def isWhitespace (c : Char) : Bool :=
  let n := c.toNat
  (9 ≤ n ∧ n ≤ 13) ∨ n = 0x20 ∨ n = 0x85 ∨ n = 0xA0 ∨ n = 0x1680 ∨ (0x2000 ≤ n ∧ n ≤ 0x200A) ∨
    n = 0x2028 ∨ n = 0x2029 ∨ n = 0x202F ∨ n = 0x205F ∨ n = 0x3000

/-- `char::is_control`: the general category `Cc`. -/
def isControl (c : Char) : Bool :=
  let n := c.toNat
  n ≤ 0x1F ∨ (0x7F ≤ n ∧ n ≤ 0x9F)

/-- `str::trim`. -/
def trim (text : String) : String :=
  String.ofList ((text.toList.dropWhile isWhitespace).reverse.dropWhile isWhitespace).reverse

/-- `str::to_ascii_lowercase`. -/
def toAsciiLowercase (text : String) : String := String.ofList (text.toList.map Char.toLower)

@[simp] theorem trim_trim (text : String) : trim (trim text) = trim text := by
  have hstart : ∀ cs : List Char,
      ((cs.dropWhile isWhitespace).rdropWhile isWhitespace).dropWhile isWhitespace =
        (cs.dropWhile isWhitespace).rdropWhile isWhitespace := by
    intro cs
    refine List.dropWhile_eq_self_iff.mpr fun hl => ?_
    have hhead := (List.rdropWhile_prefix isWhitespace (cs.dropWhile isWhitespace)).getElem hl
    have hne : cs.dropWhile isWhitespace ≠ [] := by
      intro hnil
      simp [hnil] at hl
    rw [hhead, ← List.head_eq_getElem hne, List.head_dropWhile_not isWhitespace hne]
    exact Bool.false_ne_true
  have htrim : ∀ text, (trim text).toList =
      (text.toList.dropWhile isWhitespace).rdropWhile isWhitespace := by
    intro text
    rw [trim, String.toList_ofList, List.rdropWhile]
  rw [← String.toList_inj, htrim, htrim, hstart, List.rdropWhile_idempotent]

/-- The check shared by batch names and idempotency keys: trimmed, not empty,
    at most `limit` characters and no control character. -/
def validateText (limit : ℕ) (error : AnoleError) (text : String) : Except AnoleError String :=
  let text := trim text
  if text.toList = [] ∨ limit < text.toList.length ∨ text.toList.any isControl then .error error
  else .ok text

/-- `validate_batch_name` (`job_store.rs`, lines 2495–2506). -/
def validateBatchName (name : String) : Except AnoleError String :=
  validateText 120 (.new .inputInvalid .store "Batch name must contain 1–120 visible characters"
    "Choose a short descriptive batch name without control characters.") name

/-- `validate_idempotency_key` (lines 2508–2519). -/
def validateIdempotencyKey (key : String) : Except AnoleError String :=
  validateText 200 (.new .inputInvalid .store
    "Idempotency key must contain 1–200 visible characters"
    "Use a stable opaque key without control characters.") key

/-! ## Creating jobs -/

/-- `reserve_output` (lines 2532–2567), where `key` is `reservation_key` at this
    call. A job that holds another key gives it up first. -/
def reserveOutput (key : PathBuf → Except AnoleError String) (db : Database) (jobId : Uuid)
    (outputPath : PathBuf) (now : ℤ) : Except AnoleError Database := do
  let key ← key outputPath
  let ownedKey := db.ownedKey jobId
  if ownedKey = some key then
    return db
  let db := if ownedKey.isSome then db.deleteReservation jobId else db
  db.insertReservation { canonicalOutputPath := key, jobId := jobId, createdUnixMs := now }

/-- The reservation a move to `next` needs before its `UPDATE`: only `Queued` needs
    one (`transition`, lines 1030–1032; the bulk action, lines 2312–2314). -/
def reserveFor (key : PathBuf → Except AnoleError String) (db : Database) (jobId : Uuid)
    (outputPath : PathBuf) (next : JobState) (now : ℤ) : Except AnoleError Database :=
  if next = .queued then reserveOutput key db jobId outputPath now else .ok db

/-- The reservation is given up on the way to a terminal state (`transition`, lines
    1077–1084; the bulk action, lines 2345–2352). -/
def releaseFor (db : Database) (jobId : Uuid) (next : JobState) : Database :=
  if next.isTerminal then db.deleteReservation jobId else db

/-- The row `insert_jobs` stores for a request (lines 2441–2459). -/
def newJobRow (env : CallEnv) (id : Uuid) (request : JobCreateRequest) : JobRow :=
  { id := id, state := .planned, inputPath := request.inputPath.toStringLossy,
    outputPath := request.outputPath.toStringLossy, planHash := request.plan.planHash,
    planJson := request.plan, sequence := 0, createdUnixMs := env.now, updatedUnixMs := env.now }

/-- The record `insert_jobs` returns for a request (lines 2468–2477). -/
def newJobRecord (env : CallEnv) (id : Uuid) (request : JobCreateRequest) : JobRecord :=
  { id := id, state := .planned, inputPath := request.inputPath,
    outputPath := request.outputPath, planHash := request.plan.planHash, sequence := 0,
    createdUnixMs := env.now, updatedUnixMs := env.now }

/-- The body of the loop of `insert_jobs` (lines 2438–2478) for the request that
    makes the `n`-th `reservation_key` call. -/
def insertJob (env : CallEnv) (id : Uuid) (n : ℕ) (db : Database) (request : JobCreateRequest) :
    Except AnoleError (JobRecord × Database) := do
  let db ← db.insertJobRow (newJobRow env id request)
  let db ← reserveOutput (env.reservationKey n) db id request.outputPath env.now
  let db ← db.insertJobEvent
    { jobId := id, sequence := 0, previousState := none, nextState := .planned,
      code := "JOB_CREATED", timestampUnixMs := env.now }
  return (newJobRecord env id request, db)

/-- `insert_jobs` (lines 2431–2480). `n` counts the requests already inserted and
    `newV4` gives their ids. -/
def insertJobs (env : CallEnv) (newV4 : ℕ → Uuid) :
    ℕ → Database → List JobCreateRequest → Except AnoleError (List JobRecord × Database)
  | _, db, [] => .ok ([], db)
  | n, db, request :: requests => do
    let (record, db) ← insertJob env (newV4 n) n db request
    let (records, db) ← insertJobs env newV4 (n + 1) db requests
    return (record :: records, db)

/-- `create_jobs` (lines 625–637). -/
def createJobs (env : CallEnv) (db : Database) (requests : List JobCreateRequest) :
    Except AnoleError (List JobRecord) × Database :=
  if requests = [] then (.ok [], db)
  else transaction env db (insertJobs env env.newV4 0 db requests)

/-- The statements that queue a job right after its creation; `create_batch_inner`
    (lines 717–738) and `create_job_idempotent_with_state` (lines 845–862) differ
    in the event code only. -/
def enqueueCreated (code : String) (now : ℤ) (db : Database) (jobId : Uuid) :
    Except AnoleError Database :=
  (db.updateJob jobId .planned 0 fun r =>
    { r with state := .queued, sequence := 1, updatedUnixMs := now }).1.insertJobEvent
    { jobId := jobId, sequence := 1, previousState := some .planned, nextState := .queued,
      code := code, timestampUnixMs := now }

/-- `INSERT INTO batches`. -/
def Database.insertBatch (db : Database) (row : BatchRow) : Except AnoleError Database :=
  insertRow (fun r => r.id = row.id) row db.batches
    (fun rows => { db with batches := rows }) (storageError "UNIQUE constraint failed: batches.id")

/-- `INSERT INTO batch_members`. -/
def Database.insertBatchMember (db : Database) (row : BatchMemberRow) :
    Except AnoleError Database :=
  insertRow (fun r => r.jobId = row.jobId ∨
      (r.batchId = row.batchId ∧ r.ordinal = row.ordinal)) row db.batchMembers
    (fun rows => { db with batchMembers := rows })
    (storageError "UNIQUE constraint failed: batch_members")

/-- The transaction body of `create_batch_inner` (lines 683–740). -/
def createBatchBody (env : CallEnv) (name : String) (requests : List JobCreateRequest)
    (enqueue : Bool) (db : Database) : Except AnoleError (BatchRecord × Database) := do
  let id := env.newV4 0
  let db ← db.insertBatch
    { id := id, name := name, createdUnixMs := env.now, updatedUnixMs := env.now }
  let (jobs, db) ← insertJobs env (fun n => env.newV4 (n + 1)) 0 db requests
  let db ← jobs.zipIdx.foldlM (fun db (job, ordinal) =>
    db.insertBatchMember { batchId := id, jobId := job.id, ordinal := ordinal }) db
  let db ← if enqueue then
      jobs.foldlM (fun db job => enqueueCreated "BATCH_QUEUED" env.now db job.id) db
    else pure db
  return ({ id := id, name := name, jobCount := jobs.length, createdUnixMs := env.now,
            updatedUnixMs := env.now }, db)

/-- `create_batch_inner` (lines 667–748). -/
def createBatchInner (env : CallEnv) (db : Database) (name : String)
    (requests : List JobCreateRequest) (enqueue : Bool) :
    Except AnoleError BatchRecord × Database :=
  match validateBatchName name with
  | .error error => (.error error, db)
  | .ok name =>
    if requests = [] ∨ 100000 < requests.length then
      (.error (.new .inputInvalid .store "A batch must contain between 1 and 100,000 jobs"
        "Choose a non-empty bounded batch."), db)
    else transaction env db (createBatchBody env name requests enqueue db)

/-- `create_batch` (lines 645–651). -/
def createBatch (env : CallEnv) (db : Database) (name : String)
    (requests : List JobCreateRequest) : Except AnoleError BatchRecord × Database :=
  createBatchInner env db name requests false

/-- `create_queued_batch` (lines 659–665). -/
def createQueuedBatch (env : CallEnv) (db : Database) (name : String)
    (requests : List JobCreateRequest) : Except AnoleError BatchRecord × Database :=
  createBatchInner env db name requests true

/-! ## Idempotent submission -/

/-- The job an idempotency key is bound to: `job_idempotency_keys JOIN jobs`
    (lines 785–812). -/
def Database.boundJob (db : Database) (key : String) : Option JobRow :=
  (db.jobIdempotencyKeys.find? fun r => r.idempotencyKey = key).bind fun r => db.job? r.jobId

/-- `INSERT INTO job_idempotency_keys`. -/
def Database.insertIdempotencyKey (db : Database) (row : IdempotencyRow) :
    Except AnoleError Database :=
  insertRow (fun r => r.idempotencyKey = row.idempotencyKey ∨
      r.jobId = row.jobId) row db.jobIdempotencyKeys
    (fun rows => { db with jobIdempotencyKeys := rows })
    (storageError "UNIQUE constraint failed: job_idempotency_keys")

/-- `same_intent` (lines 814–816). The two keys are resolved only when the input
    text and the Plan hash agree. -/
def sameIntent (env : CallEnv) (row : JobRow) (request : JobCreateRequest) :
    Except AnoleError Bool :=
  if row.inputPath = request.inputPath.toStringLossy ∧ row.planHash = request.plan.planHash then do
    let stored ← env.reservationKey 0 (PathBuf.ofString row.outputPath)
    let requested ← env.reservationKey 1 request.outputPath
    return stored = requested
  else .ok false

/-- The transaction body of `create_job_idempotent_with_state` (lines 781–866). -/
def createJobIdempotentBody (env : CallEnv) (idempotencyKey : String)
    (request : JobCreateRequest) (enqueue : Bool) (db : Database) :
    Except AnoleError (IdempotentJobResult × Database) :=
  match db.boundJob idempotencyKey with
  | some row => do
    let same ← sameIntent env row request
    if same then
      return ({ job := jobRecordFromRow row, created := false }, db)
    else
      .error (.new .policyBlocked .store
        "The idempotency key is already bound to a different job intent"
        "Reuse the key only for an identical input, Plan, and output identity.")
  | none => do
    let (job, db) ← insertJob env (env.newV4 0) 0 db request
    let db ← db.insertIdempotencyKey
      { idempotencyKey := idempotencyKey, jobId := job.id, createdUnixMs := env.now }
    if enqueue then
      let db ← enqueueCreated "JOB_ENQUEUED" env.now db job.id
      return ({ job := { job with state := .queued, sequence := 1 }, created := true }, db)
    else
      return ({ job := job, created := true }, db)

/-- `create_job_idempotent_with_state` (lines 774–866). -/
def createJobIdempotentWithState (env : CallEnv) (db : Database) (idempotencyKey : String)
    (request : JobCreateRequest) (enqueue : Bool) :
    Except AnoleError IdempotentJobResult × Database :=
  match validateIdempotencyKey idempotencyKey with
  | .error error => (.error error, db)
  | .ok key => transaction env db (createJobIdempotentBody env key request enqueue db)

/-- `create_job_idempotent` (lines 756–762). -/
def createJobIdempotent (env : CallEnv) (db : Database) (idempotencyKey : String)
    (request : JobCreateRequest) : Except AnoleError IdempotentJobResult × Database :=
  createJobIdempotentWithState env db idempotencyKey request false

/-- `enqueue_job_idempotent` (lines 770–776). -/
def enqueueJobIdempotent (env : CallEnv) (db : Database) (idempotencyKey : String)
    (request : JobCreateRequest) : Except AnoleError IdempotentJobResult × Database :=
  createJobIdempotentWithState env db idempotencyKey request true

/-! ## Transitions -/

/-- The record a transition returns. -/
def movedRecord (row : JobRow) (next : JobState) (sequence : ℕ) (now : ℤ) : JobRecord :=
  { jobRecordFromRow row with state := next, sequence := sequence, updatedUnixMs := now }

/-- The body of the loop of `queue_jobs` (lines 889–978) for the `n`-th id. -/
def queueJob (env : CallEnv) (code : String) (n : ℕ) (db : Database) (jobId : Uuid) :
    Except AnoleError (JobRecord × Database) := do
  let row ← db.requireJob jobId
  if ¬ row.state.canTransitionTo .queued then
    throw (invalidJobTransition row.state .queued)
  let db ← reserveOutput (env.reservationKey n) db jobId (PathBuf.ofString row.outputPath) env.now
  let sequence ← bindU64 (nextSequence row.sequence)
  let (db, updated) := db.updateJob jobId row.state row.sequence fun r =>
    { r with state := .queued, sequence := sequence, updatedUnixMs := env.now }
  if updated ≠ 1 then
    throw jobStateChangedConcurrently
  let db ← db.insertJobEvent
    { jobId := jobId, sequence := sequence, previousState := some row.state, nextState := .queued,
      code := code, timestampUnixMs := env.now }
  return (movedRecord row .queued sequence env.now, db)

/-- The loop of `queue_jobs`; `n` counts the ids already queued. -/
def queueJobsLoop (env : CallEnv) (code : String) :
    ℕ → Database → List Uuid → Except AnoleError (List JobRecord × Database)
  | _, db, [] => .ok ([], db)
  | n, db, jobId :: jobIds => do
    let (record, db) ← queueJob env code n db jobId
    let (records, db) ← queueJobsLoop env code (n + 1) db jobIds
    return (record :: records, db)

/-- `queue_jobs` (lines 876–981). -/
def queueJobs (env : CallEnv) (db : Database) (jobIds : List Uuid) (code : String) :
    Except AnoleError (List JobRecord) × Database :=
  if jobIds = [] then (.ok [], db)
  else transaction env db (queueJobsLoop env code 0 db jobIds)

/-- The transaction body of `transition` (lines 988–1084). -/
def transitionBody (env : CallEnv) (db : Database) (jobId : Uuid) (next : JobState)
    (code : String) : Except AnoleError (JobRecord × Database) := do
  let row ← db.requireJob jobId
  if ¬ row.state.canTransitionTo next then
    throw (invalidJobTransition row.state next)
  let db ← reserveFor (env.reservationKey 0) db jobId (PathBuf.ofString row.outputPath) next env.now
  let sequence ← bindU64 (nextSequence row.sequence)
  let (db, updated) := db.updateJob jobId row.state row.sequence fun r =>
    { r with state := next, sequence := sequence, updatedUnixMs := env.now }
  if updated ≠ 1 then
    throw jobStateChangedConcurrently
  let db ← db.insertJobEvent
    { jobId := jobId, sequence := sequence, previousState := some row.state, nextState := next,
      code := code, timestampUnixMs := env.now }
  return (movedRecord row next sequence env.now, releaseFor db jobId next)

/-- `transition` (lines 987–1097). -/
def transition (env : CallEnv) (db : Database) (jobId : Uuid) (next : JobState) (code : String) :
    Except AnoleError JobRecord × Database :=
  transaction env db (transitionBody env db jobId next code)

/-- The transaction body of `claim_queued_job` (lines 1537–1594). -/
def claimQueuedJobBody (env : CallEnv) (db : Database) (jobId : Uuid) (code : String) :
    Except AnoleError (Option JobRecord × Database) := do
  let row ← db.requireJob jobId
  if row.state ≠ .queued then
    return (none, db)
  let sequence ← bindU64 (nextSequence row.sequence)
  let (db', updated) := db.updateJob jobId .queued row.sequence fun r =>
    { r with state := .inspecting, sequence := sequence, updatedUnixMs := env.now }
  if updated ≠ 1 then
    return (none, db')
  let db' ← db'.insertJobEvent
    { jobId := jobId, sequence := sequence, previousState := some .queued,
      nextState := .inspecting, code := code, timestampUnixMs := env.now }
  return (some (movedRecord row .inspecting sequence env.now), db')

/-- `claim_queued_job` (lines 1536–1606). -/
def claimQueuedJob (env : CallEnv) (db : Database) (jobId : Uuid) (code : String) :
    Except AnoleError (Option JobRecord) × Database :=
  transaction env db (claimQueuedJobBody env db jobId code)

/-! ## Staging cleanup and revalidation evidence -/

/-- The states staging cleanup is allowed in (lines 1862–1865). -/
def cleanupAllowed : JobState → Bool
  | .blocked | .failed | .cancelled | .interrupted => true
  | _ => false

/-- The transaction body of `cleanup_staging_persisted` (lines 1843–1927);
    `cleanup` is the caller's file removal. -/
def cleanupStagingBody (env : CallEnv) (db : Database) (jobId : Uuid)
    (cleanup : JobRecord → Except AnoleError Bool) :
    Except AnoleError ((JobRecord × Bool) × Database) := do
  let row ← db.requireJob jobId
  let job := jobRecordFromRow row
  if ¬ cleanupAllowed job.state then
    throw (.new .policyBlocked .commit
      s!"Staging cleanup is not allowed while the job is {job.state.debug}"
      "Pause active work or wait for the job to become recoverable before cleanup.")
  let removed ← cleanup job
  let sequence ← bindU64 (nextSequence job.sequence)
  let (db, updated) := db.updateJob jobId job.state job.sequence fun r =>
    { r with sequence := sequence, updatedUnixMs := env.now }
  if updated ≠ 1 then
    throw ((AnoleError.new .storageFailed .store
      "Job changed while staging cleanup was being recorded"
      "Refresh the job and run an integrity check.").setRetryable true)
  let db ← db.insertJobEvent
    { jobId := jobId, sequence := sequence, previousState := some job.state,
      nextState := job.state,
      code := if removed then "STAGED_OUTPUT_CLEANED" else "STAGED_OUTPUT_NOT_FOUND",
      timestampUnixMs := env.now }
  return (({ job with sequence := sequence, updatedUnixMs := env.now }, removed), db)

/-- `cleanup_staging_persisted` (lines 1835–1929). -/
def cleanupStagingPersisted (env : CallEnv) (db : Database) (jobId : Uuid)
    (cleanup : JobRecord → Except AnoleError Bool) :
    Except AnoleError (JobRecord × Bool) × Database :=
  transaction env db (cleanupStagingBody env db jobId cleanup)

/-- `serde_json` on `ValidationReport`: `to_string` and `from_str`. -/
structure ReportJson where
  toJson : ValidationReport → Except AnoleError String
  fromJson : String → Option ValidationReport

/-- `INSERT INTO job_revalidations`. -/
def Database.insertRevalidation (db : Database) (row : RevalidationRow) :
    Except AnoleError Database :=
  insertRow (fun r => r.id = row.id) row db.jobRevalidations
    (fun rows => { db with jobRevalidations := rows })
    (storageError "UNIQUE constraint failed: job_revalidations.id")

/-- The states revalidation evidence is accepted in (lines 1157–1160). -/
def revalidationAllowed : JobState → Bool
  | .completed | .warning | .failed => true
  | _ => false

/-- The transaction body of `record_revalidation` (lines 1134–1192). -/
def recordRevalidationBody (env : CallEnv) (db : Database) (jobId : Uuid)
    (report : ValidationReport) (reportJson : String) :
    Except AnoleError (RevalidationRecord × Database) := do
  let row ← db.requireJob jobId
  if ¬ revalidationAllowed row.state then
    throw (.new .policyBlocked .validate
      "Only terminal jobs with an output can record revalidation evidence"
      "Finish the conversion successfully before running validation-only.")
  if report.planHash ≠ row.planHash then
    throw (.new .inputChanged .validate
      "Revalidation report does not match the stored immutable Plan"
      "Refresh the job and run validation-only again.")
  let id := env.newV4 0
  let db ← db.insertRevalidation
    { id := id, jobId := jobId, status := report.status, reportJson := reportJson,
      createdUnixMs := env.now }
  return ({ id := id, jobId := jobId, status := report.status, report := report,
            createdUnixMs := env.now }, db)

/-- `record_revalidation` (lines 1105–1200). -/
def recordRevalidation (json : ReportJson) (env : CallEnv) (db : Database) (jobId : Uuid)
    (report : ValidationReport) : Except AnoleError RevalidationRecord × Database :=
  if report.jobId ≠ jobId then
    (.error (.new .inputInvalid .validate "Revalidation report belongs to another job"
      "Record the report under its own Job ID."), db)
  else match json.toJson report with
    | .error error => (.error error, db)
    | .ok reportJson =>
      if 16 * 1024 * 1024 < reportJson.utf8ByteSize then
        (.error (.new .resourceExhausted .validate
          "Revalidation report exceeds the 16 MiB limit"
          "Reduce diagnostic detail before recording validation evidence."), db)
      else transaction env db (recordRevalidationBody env db jobId report reportJson)

/-! ## Restart recovery -/

/-- The states `interrupt_active_jobs` selects (line 2056). -/
def interruptSelected : JobState → Bool
  | .running | .validating => true
  | _ => false

/-- The loop of `interrupt_active_jobs` (lines 2064–2073): each id is its own
    transaction, and the first error ends the loop. `envs n` is the outside
    world of the `n`-th transaction. -/
def interruptJobs (envs : ℕ → CallEnv) :
    ℕ → Database → List Uuid → Except AnoleError (List JobRecord) × Database
  | _, db, [] => (.ok [], db)
  | n, db, id :: ids =>
    match transition (envs n) db id .interrupted "RECOVERED_AFTER_RESTART" with
    | (.error error, db) => (.error error, db)
    | (.ok record, db) =>
      match interruptJobs envs (n + 1) db ids with
      | (.error error, db) => (.error error, db)
      | (.ok records, db) => (.ok (record :: records), db)

/-- `interrupt_active_jobs` (lines 2053–2074); `envs 0` is the outside world of the
    query. -/
def interruptActiveJobs (envs : ℕ → CallEnv) (db : Database) :
    Except AnoleError (List JobRecord) × Database :=
  match (envs 0).fault with
  | some error => (.error error, db)
  | none => interruptJobs envs 1 db ((db.jobs.filter fun r => interruptSelected r.state).map JobRow.id)

/-! ## Reads -/

/-- `get_job` (lines 1250–1285). -/
def getJob (env : CallEnv) (db : Database) (jobId : Uuid) : Except AnoleError (Option JobRecord) :=
  match env.fault with
  | some error => .error error
  | none => .ok ((db.job? jobId).map jobRecordFromRow)

/-- `validate_output_reservation` (lines 1938–1976). The output path of a job
    never changes, so its two reads are taken at one moment. -/
def validateOutputReservation (env : CallEnv) (db : Database) (jobId : Uuid) :
    Except AnoleError Unit := do
  let job ← match ← getJob env db jobId with
    | some job => pure job
    | none => throw (jobDoesNotExist jobId)
  let storedKey ← match db.ownedKey jobId with
    | some key => pure key
    | none => throw (.new .storageFailed .store "Active job has no durable output reservation"
        "Run an integrity check before retrying this job.")
  let currentKey ← env.reservationKey 0 job.outputPath
  if currentKey ≠ storedKey then
    throw ((AnoleError.new .outputConflict .store
      "Output path identity changed after the job was queued"
      "Restore the original link target or cancel and recreate the job for the new location."
      ).withDiagnostic s!"reserved={storedKey}; current={currentKey}")

/-- `JobDetails` (`job_store.rs`, lines 72–77). -/
structure JobDetails where
  job : JobRecord
  plan : Plan
  events : List EventRow
  deriving DecidableEq

/-- `get_job_details` (lines 1984–2045). A `plan_json` that does not parse is one of
    the failures `env.fault` stands for. -/
def getJobDetails (env : CallEnv) (db : Database) (jobId : Uuid) :
    Except AnoleError (Option JobDetails) :=
  match env.fault with
  | some error => .error error
  | none => .ok ((db.job? jobId).map fun row =>
      { job := jobRecordFromRow row, plan := row.planJson,
        events := (db.jobEvents.filter fun e => e.jobId = jobId).insertionSort
          fun a b => a.sequence ≤ b.sequence })

/-! ## Measured throughput -/

/-- `ENGINE_THROUGHPUT_SAMPLE_WINDOW` (line 19). -/
def engineThroughputSampleWindow : ℕ := 64

/-- Dropping the oldest rows of one `(engine, capability)` pair until `keep` are
    left; the row order is the order of the autoincremented ids. -/
def trimSamples (engineId capabilityId : String) (keep : ℕ) :
    List EngineThroughputSample → List EngineThroughputSample
  | [] => []
  | row :: rows =>
    if row.engineId = engineId ∧ row.capabilityId = capabilityId ∧
        keep ≤ rows.countP fun r => r.engineId = engineId ∧ r.capabilityId = capabilityId then
      trimSamples engineId capabilityId keep rows
    else row :: trimSamples engineId capabilityId keep rows

/-- `i64::try_from(bytes).unwrap_or(i64::MAX)`. -/
def saturateI64 (value : ℕ) : ℕ := min value (2 ^ 63 - 1)

/-- `record_engine_throughput_sample` (lines 508–557). -/
def recordEngineThroughputSample (env : CallEnv) (db : Database)
    (sample : EngineThroughputSample) : Except AnoleError Unit × Database :=
  let row := { sample with
    wallMillis := saturateI64 sample.wallMillis
    inputBytes := sample.inputBytes.map saturateI64
    outputBytes := sample.outputBytes.map saturateI64 }
  transaction env db (.ok ((), { db with
    engineThroughputSamples := trimSamples sample.engineId sample.capabilityId
      engineThroughputSampleWindow (db.engineThroughputSamples ++ [row]) }))

end Anole
