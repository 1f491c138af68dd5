import Anole.Store.Selection

/-!
# The store as a transition system

Every process talks to the job database through the calls of `SqliteJobStore`;
each call is one IMMEDIATE transaction (`interrupt_active_jobs` is one for each
job it moves, and each of them is also a `transition` call). An interleaving of
several processes is therefore a sequence of calls, and `StoreStep` is the
transition system whose labels are the calls with their responses.

`Reachable json db`: `db` is the state after some sequence of calls, failed ones
included, on a freshly migrated database.
-/

namespace Anole

/-- A call of `SqliteJobStore` with its arguments. -/
inductive Call where
  | createJobs (requests : List JobCreateRequest)
  | createBatch (name : String) (requests : List JobCreateRequest)
  | createQueuedBatch (name : String) (requests : List JobCreateRequest)
  | createJobIdempotent (idempotencyKey : String) (request : JobCreateRequest)
  | enqueueJobIdempotent (idempotencyKey : String) (request : JobCreateRequest)
  | queueJobs (jobIds : List Uuid) (code : String)
  | transition (jobId : Uuid) (next : JobState) (code : String)
  | claimQueuedJob (jobId : Uuid) (code : String)
  | applyBulkAction (selectionId : Uuid) (action : BulkJobAction) (before : BeforeTransition)
  | cleanupStagingPersisted (jobId : Uuid) (cleanup : JobRecord → Except AnoleError Bool)
  | recordRevalidation (jobId : Uuid) (report : ValidationReport)
  | captureSelection (query : JobSelectionQuery)
  | interruptActiveJobs (envs : ℕ → CallEnv)
  | recordEngineThroughputSample (sample : EngineThroughputSample)

/-- What a call returns. -/
inductive Response where
  | jobs (result : Except AnoleError (List JobRecord))
  | batch (result : Except AnoleError BatchRecord)
  | idempotent (result : Except AnoleError IdempotentJobResult)
  | job (result : Except AnoleError JobRecord)
  | claim (result : Except AnoleError (Option JobRecord))
  | bulk (result : Except AnoleError BulkActionReport)
  | cleanup (result : Except AnoleError (JobRecord × Bool))
  | revalidation (result : Except AnoleError RevalidationRecord)
  | selection (result : Except AnoleError SelectionSnapshot)
  | sample (result : Except AnoleError Unit)

/-- One call: its response and the database after it. -/
def exec (json : ReportJson) (env : CallEnv) (db : Database) : Call → Response × Database
  | .createJobs requests => (createJobs env db requests).map .jobs id
  | .createBatch name requests => (createBatch env db name requests).map .batch id
  | .createQueuedBatch name requests => (createQueuedBatch env db name requests).map .batch id
  | .createJobIdempotent key request => (createJobIdempotent env db key request).map .idempotent id
  | .enqueueJobIdempotent key request =>
    (enqueueJobIdempotent env db key request).map .idempotent id
  | .queueJobs jobIds code => (queueJobs env db jobIds code).map .jobs id
  | .transition jobId next code => (transition env db jobId next code).map .job id
  | .claimQueuedJob jobId code => (claimQueuedJob env db jobId code).map .claim id
  | .applyBulkAction selectionId action before =>
    (applyBulkAction env db selectionId action before).map .bulk id
  | .cleanupStagingPersisted jobId cleanup =>
    (cleanupStagingPersisted env db jobId cleanup).map .cleanup id
  | .recordRevalidation jobId report =>
    (recordRevalidation json env db jobId report).map .revalidation id
  | .captureSelection query => (captureSelection env db query).map .selection id
  | .interruptActiveJobs envs => (interruptActiveJobs envs db).map .jobs id
  | .recordEngineThroughputSample sample =>
    (recordEngineThroughputSample env db sample).map .sample id

/-- A label of the store: a call in its outside world, with the response. -/
structure StoreLabel where
  env : CallEnv
  call : Call
  response : Response

/-- The transition relation of the store. -/
def StoreStep (json : ReportJson) (db : Database) (label : StoreLabel) (db' : Database) : Prop :=
  exec json label.env db label.call = (label.response, db')

/-- Runs of the store. -/
abbrev StoreRun (json : ReportJson) : Database → List StoreLabel → Database → Prop :=
  Common.Trace (StoreStep json)

/-- The database is reachable from a freshly migrated one. -/
def Reachable (json : ReportJson) (db : Database) : Prop :=
  ∃ labels, StoreRun json Database.empty labels db

theorem reachable_empty (json : ReportJson) : Reachable json Database.empty := ⟨[], .nil⟩

theorem Reachable.run {json : ReportJson} {db db' : Database} {labels : List StoreLabel}
    (h : Reachable json db) (hrun : StoreRun json db labels db') : Reachable json db' := by
  obtain ⟨before, h0⟩ := h
  exact ⟨before ++ labels, h0.append hrun⟩

theorem Reachable.exec {json : ReportJson} {db : Database} (h : Reachable json db) (env : CallEnv)
    (call : Call) : Reachable json (exec json env db call).2 := by
  have hstep : StoreStep json db ⟨env, call, (Anole.exec json env db call).1⟩
      (Anole.exec json env db call).2 := rfl
  exact h.run (.cons hstep .nil)

/-- The run that a list of calls makes. -/
def replay (json : ReportJson) : Database → List (CallEnv × Call) → List StoreLabel × Database
  | db, [] => ([], db)
  | db, (env, call) :: calls =>
    let result := exec json env db call
    let rest := replay json result.2 calls
    (⟨env, call, result.1⟩ :: rest.1, rest.2)

theorem replay_run (json : ReportJson) (calls : List (CallEnv × Call)) :
    ∀ db : Database, StoreRun json db (replay json db calls).1 (replay json db calls).2 := by
  induction calls with
  | nil => exact fun db => .nil
  | cons call calls ih => exact fun db => .cons rfl (ih _)

/-- Every step of the run of a list of calls meets `P`. -/
def ReplayKeeps (P : Database → Database → Prop) (json : ReportJson) :
    Database → List (CallEnv × Call) → Prop
  | _, [] => True
  | db, (env, call) :: calls =>
    P db (exec json env db call).2 ∧ ReplayKeeps P json (exec json env db call).2 calls

theorem replay_trace {P : Database → Database → Prop} {json : ReportJson}
    (calls : List (CallEnv × Call)) : ∀ db : Database, ReplayKeeps P json db calls →
      Common.Trace (fun db label db' => StoreStep json db label db' ∧ P db db') db
        (replay json db calls).1 (replay json db calls).2 := by
  induction calls with
  | nil => exact fun db _ => .nil
  | cons call calls ih => exact fun db h => .cons ⟨rfl, h.1⟩ (ih _ h.2)

/-! ## A sample world

Inputs the concrete instances below the theorems share. -/

namespace Sample

/-- A world whose clock stands still, whose fresh ids count up from `base`, where the
    identity of an output is its text and nothing fails. -/
def env (base : ℕ) : CallEnv :=
  { now := 0, newV4 := fun n => BitVec.ofNat 128 (base + n),
    reservationKey := fun _ path => .ok path.toStringLossy, fault := none }

/-- A conversion by the built-in structured engine. -/
def plan : Plan :=
  { planHash := "plan", inputFingerprint := "input", targetFormat := "yaml",
    steps := [{ capabilityId := "structured.yaml", engine := ⟨"anole.structured", "1", "sha"⟩,
                operation := .serialize, arguments := [] }] }

def request (input output : String) : JobCreateRequest :=
  { inputPath := .ofString input, outputPath := .ofString output, plan := plan }

/-- A serialiser for the reports of one job under the sample Plan. -/
def json (jobId : Uuid) : ReportJson :=
  { toJson := fun report =>
      if report.jobId = jobId ∧ report.planHash = "plan" then .ok report.status.name
      else .error (storageError "not serialised")
    fromJson := fun text =>
      ([.pass, .warning, .fail, .unknown].find? fun status => status.name = text).map fun status =>
        { jobId := jobId, planHash := "plan", status := status, outputSizeBytes := 0 } }

end Sample

end Anole
