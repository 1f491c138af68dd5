import Anole.Queue.Scheduler
import Anole.Queue.Fair

/-!
# The queue window

Model of `JobExecutionService::run_window_observed_with_progress` and of
`abort_active_window` (`crates/core/src/application/job_execution.rs`) as a state
machine. `Window` holds the local variables of the run, `Point` is where it stands.
`Window.step` goes from one point to the next: it executes at most one transaction of
the store or one read of it, so other processes act between any two steps, and it
reads the pause tokens at the points where the source does.

* `StepEnv` is what one step reads from outside: the world of its store call, the
  engine and input inspections, the report callback, what `tokio::select!` finds ready.
* A worker is its job. It runs outside the window, sends `ENGINE_FINISHED` milestones
  into the channel (`WindowEvent`) and is joined with any result, or with a panic.
* `claimed`, `counted` and `requests` are history: nothing reads them. They say which
  jobs the window has claimed, which job was counted in which counter and which
  transitions the abort has requested.

`on_progress` cannot fail and nothing depends on it; it is left out with the wait
reasons and the throughput measurement it reports.
-/

namespace Anole

/-! ## What a window holds -/

/-- `QueueWindowControl` (lines 67–107): the two cancellation tokens. -/
structure QueueWindowControl where
  admission : Bool
  workers : Bool

namespace QueueWindowControl

/-- `QueueWindowControl::new` (lines 76–81). -/
def new : QueueWindowControl := { admission := false, workers := false }

/-- `pause_finish_current` (lines 84–86). -/
def pauseFinishCurrent (control : QueueWindowControl) : QueueWindowControl :=
  { control with admission := true }

/-- `pause_immediate` (lines 89–92). -/
def pauseImmediate (control : QueueWindowControl) : QueueWindowControl :=
  { control with admission := true, workers := true }

end QueueWindowControl

/-- `QueueRunReport` (lines 26–39). -/
structure QueueRunReport where
  schemaVersion : ℕ
  selected : ℕ
  completed : ℕ
  warning : ℕ
  blocked : ℕ
  failed : ℕ
  cancelled : ℕ
  contended : ℕ
  stopped : Bool
  parallelism : ℕ
  peakActive : ℕ

/-- The six counters of a window. -/
inductive Counter where
  | completed | warning | blocked | failed | cancelled | contended
  deriving DecidableEq

/-- The values of the counters (lines 236–241). At most 256 jobs are counted, so
    `saturating_add` on `usize` is addition. -/
structure QueueCounters where
  completed : ℕ
  warning : ℕ
  blocked : ℕ
  failed : ℕ
  cancelled : ℕ
  contended : ℕ

namespace QueueCounters

def zero : QueueCounters :=
  { completed := 0, warning := 0, blocked := 0, failed := 0, cancelled := 0, contended := 0 }

/-- One more job in a counter. -/
def bump (k : QueueCounters) : Counter → QueueCounters
  | .completed => { k with completed := k.completed + 1 }
  | .warning => { k with warning := k.warning + 1 }
  | .blocked => { k with blocked := k.blocked + 1 }
  | .failed => { k with failed := k.failed + 1 }
  | .cancelled => { k with cancelled := k.cancelled + 1 }
  | .contended => { k with contended := k.contended + 1 }

/-- `terminal` (lines 540–545). -/
def terminal (k : QueueCounters) : ℕ :=
  k.completed + k.warning + k.blocked + k.failed + k.cancelled + k.contended

end QueueCounters

/-- `PendingQueueJob` (lines 617–620). -/
structure PendingQueueJob where
  details : JobDetails
  resources : ResourceRequest
  deriving DecidableEq

def PendingQueueJob.id (candidate : PendingQueueJob) : Uuid := candidate.details.job.id

/-- `Probe`, the fields the window reads: `artifact.fast_fingerprint` and
    `artifact.size_bytes`. -/
structure Probe where
  fastFingerprint : String
  sizeBytes : ℕ

/-- `ActiveJobTelemetry` (lines 763–768). -/
structure ActiveJobTelemetry where
  engineId : String
  capabilityId : String
  startedUnixMs : ℤ
  inputBytes : Option ℕ

/-- What the checks of a claimed job decide (lines 654–705): the next transition. -/
inductive Verdict where
  | blocked (code : String)
  | planInvalid
  | revalidated (probe : Probe)

namespace Verdict

def target : Verdict → JobState
  | blocked _ => .blocked
  | planInvalid => .failed
  | revalidated _ => .planned

def code : Verdict → String
  | blocked code => code
  | planInvalid => "PLAN_INVALID"
  | revalidated _ => "PLAN_REVALIDATED"

end Verdict

/-- How the job of a joined worker is completed (lines 463–521): the last transition
    and the counter. -/
inductive Completion where
  | validated (status : ValidationStatus)
  | paused
  | cancelled
  | stopped

namespace Completion

def target : Completion → JobState
  | validated .pass => .completed
  | validated .warning | validated .unknown => .warning
  | validated .fail => .failed
  | paused => .interrupted
  | cancelled => .cancelled
  | stopped => .failed

def code : Completion → String
  | validated _ => "VALIDATION_FINISHED"
  | paused => "QUEUE_PAUSED_IMMEDIATE"
  | cancelled => "QUEUE_CANCELLED"
  | stopped => "EXECUTION_STOPPED"

def counter : Completion → Counter
  | validated .pass => .completed
  | validated .warning | validated .unknown => .warning
  | validated .fail => .failed
  | paused | cancelled => .cancelled
  | stopped => .failed

end Completion

/-- Where a run of a window stands. -/
inductive Point where
  /-- The condition of the outer loop (line 252). -/
  | top
  /-- The condition of the admission loop and its scan (lines 263–292). -/
  | admission
  /-- `claim_queued_job` of the admitted candidate (line 650). -/
  | claim (candidate : PendingQueueJob)
  /-- The checks of the claimed job (lines 654–704). -/
  | inspect (candidate : PendingQueueJob)
  /-- The transition the checks decided on (lines 659–705). -/
  | prepare (candidate : PendingQueueJob) (verdict : Verdict)
  /-- The transition to `Running` and the spawn (lines 707, 309–370). -/
  | start (candidate : PendingQueueJob) (probe : Probe)
  /-- The check for an empty worker set (lines 401–411). -/
  | idle
  /-- `tokio::select!` (lines 413–439). -/
  | select
  /-- `on_report` (line 442). -/
  | report (jobId : Uuid) (report : ValidationReport)
  /-- `record_engine_throughput_sample` (lines 443–462). -/
  | sample (jobId : Uuid) (report : ValidationReport)
  /-- The read of `mark_job_validating`, for a milestone or before a completion. -/
  | markRead (jobId : Uuid) (after : Option Completion)
  /-- The transition of `mark_job_validating`. -/
  | markMove (jobId : Uuid) (after : Option Completion)
  /-- The transition that completes a job (lines 468–523). -/
  | finish (jobId : Uuid) (completion : Completion)
  /-- The construction of the report (lines 540–558). -/
  | returning
  /-- `abort_active_window` from its start to the last joined worker (lines 569–574). -/
  | abortDrain (error : AnoleError)
  /-- The loop of `abort_active_window` over the jobs still to come (lines 577–594). -/
  | abort (error : AnoleError) (todo : List Uuid) (firstError : Option AnoleError)
  /-- The transition `abort_active_window` requests (lines 580–585). -/
  | abortMove (error : AnoleError) (todo : List Uuid) (firstError : Option AnoleError)
      (jobId : Uuid) (target : JobState)
  /-- The run has returned. -/
  | done (result : Except AnoleError QueueRunReport)

/-- A transition requested by `abort_active_window`, with the state it read. -/
structure AbortRequest where
  jobId : Uuid
  observed : JobState
  target : JobState
  deriving DecidableEq

/-- The local variables of a run (lines 217–249) and its history. -/
structure Window where
  jobs : List JobRecord
  pending : List PendingQueueJob
  counters : QueueCounters
  scheduler : ResourceScheduler
  workers : List Uuid
  milestones : List Uuid
  peakActive : ℕ
  activeJobs : List Uuid
  activeTelemetry : List (Uuid × ActiveJobTelemetry)
  control : QueueWindowControl
  point : Point
  claimed : List Uuid
  counted : List (Uuid × Counter)
  requests : List AbortRequest

/-! ## The outside world of a step -/

/-- How a worker ends: with the result of the execution, or by a panic. -/
inductive WorkerExit where
  | returned (result : Except AnoleError ValidationReport)
  | panicked (error : String)

/-- The branch `tokio::select!` takes: the oldest milestone in the channel, or the
    worker with this index. -/
inductive Ready where
  | milestone
  | joined (index : ℕ) (exit : WorkerExit)

/-- What one step of a window reads from outside the window and the store. -/
structure StepEnv where
  /-- The outside world of the store call. -/
  call : CallEnv
  /-- The inspection of the engine of the `n`-th step of a Plan. -/
  inspectEngine : ℕ → String → Except AnoleError EngineIdentity
  /-- `inspect_queued_input`. -/
  inspectQueuedInput : JobDetails → EngineIdentity → Except AnoleError Probe
  /-- The report callback. -/
  onReport : Uuid → ValidationReport → Except AnoleError Unit
  /-- `unix_now_ms()`. -/
  unixNowMs : ℤ
  /-- What `tokio::select!` finds ready. -/
  ready : Ready
  /-- The workers that `abort_active_window` joins without a panic. -/
  drained : List Uuid
  /-- The order in which the `HashSet` of active jobs is iterated. -/
  order : List Uuid

/-! ## Opening -/

/-- A selected job that has no row any more (lines 221–228). -/
def queuedJobDisappeared (jobId : Uuid) : AnoleError :=
  .new .storageFailed .store s!"Queued job disappeared: {jobId.toText}"
    "Run jobs recover and inspect the database."

/-- The loop that hydrates the selected jobs (lines 219–233). A job's id, paths and Plan
    never change, so its reads are taken at one moment. -/
def hydrate (env : CallEnv) (db : Database) :
    List JobRecord → Except AnoleError (List PendingQueueJob)
  | [] => .ok []
  | job :: jobs => do
    let details ← match ← getJobDetails env db job.id with
      | some details => pure details
      | none => throw (queuedJobDisappeared job.id)
    let pending ← hydrate env db jobs
    return { details := details, resources := requestForPlan job.id details.plan } :: pending

/-- The initial values of the local variables (lines 234–249). -/
def Window.new (policy : SchedulerPolicy) (control : QueueWindowControl) (jobs : List JobRecord)
    (pending : List PendingQueueJob) : Window :=
  { jobs := jobs, pending := pending, counters := .zero, scheduler := .new policy, workers := [],
    milestones := [], peakActive := 0, activeJobs := [], activeTelemetry := [], control := control,
    point := .top, claimed := [], counted := [], requests := [] }

/-- The run up to its loop (lines 201–249), on a machine with `logicalCpus`. -/
def openWindow (env : CallEnv) (db : Database) (logicalCpus limit parallel : ℕ)
    (control : QueueWindowControl) : Except AnoleError Window := do
  if ¬ (1 ≤ parallel ∧ parallel ≤ 16) then
    throw (.new .inputInvalid .store "Parallelism must be between 1 and 16"
      "Choose --parallel 1 through 16.")
  if 256 < limit then
    throw (.new .inputInvalid .store "A scheduling window cannot hydrate more than 256 jobs"
      "Use --limit 256 or less and run another bounded window afterward.")
  let jobs ← listQueuedJobsFair env db limit
  let pending ← hydrate env db jobs
  return Window.new (.bounded logicalCpus parallel) control jobs pending

/-! ## Steps -/

/-- The scan for a candidate that fits (lines 268–287): blocked candidates are rotated to
    the back of the queue. -/
def scanPending (scheduler : ResourceScheduler) :
    List PendingQueueJob → List PendingQueueJob →
      Option (PendingQueueJob × ResourceScheduler × List PendingQueueJob)
  | [], _ => none
  | candidate :: queue, rotated =>
    match scheduler.tryAdmit candidate.resources with
    | some scheduler' => some (candidate, scheduler', queue ++ rotated)
    | none => scanPending scheduler queue (rotated ++ [candidate])

/-- The engine inspections (lines 670–685) find the identities of the Plan. -/
def enginesUnchanged (env : StepEnv) (plan : Plan) : Bool :=
  plan.steps.zipIdx.all fun (step, n) =>
    match env.inspectEngine n step.engine.engineId with
    | .ok engine =>
      engine.binarySha256 = step.engine.binarySha256 ∧ engine.version = step.engine.version
    | .error _ => false

/-- The checks of a claimed job after its reservation (lines 665–705). -/
def inspectPlan (env : StepEnv) (details : JobDetails) : Verdict :=
  match details.plan.steps with
  | [] => .planInvalid
  | first :: _ =>
    if ¬ enginesUnchanged env details.plan then .blocked "ENGINE_IDENTITY_CHANGED"
    else match env.inspectQueuedInput details first.engine with
      | .ok probe =>
        if probe.fastFingerprint = details.plan.inputFingerprint then .revalidated probe
        else .blocked "INPUT_CHANGED"
      | .error _ => .blocked "REINSPECTION_FAILED"

/-- `primary_plan_hop` (lines 771–775). -/
def primaryPlanHop (plan : Plan) : Option (String × String) :=
  plan.steps.head?.map fun step => (step.engine.engineId, step.capabilityId)

/-- `No queued job fits` (lines 405–410). -/
def noQueuedJobFits : AnoleError :=
  .new .resourceExhausted .execute
    "No queued job fits within the configured scheduler resource budget"
    "Reduce --parallel or split the queue into a smaller scheduling window."

/-- A worker that panicked (lines 431–438). -/
def workerStopped (error : String) : AnoleError :=
  .new .internal .execute s!"Queue worker stopped unexpectedly: {error}"
    "Run jobs recover and retry interrupted work."

/-- A job without a row (`mark_job_validating`, lines 836–843). -/
def activeJobDisappeared (jobId : Uuid) : AnoleError :=
  .new .storageFailed .store s!"Active job disappeared: {jobId.toText}"
    "Run jobs recover and inspect the database."

/-- The error of a run whose abort failed too (lines 528–538). -/
def withCleanup (error : AnoleError) : Option AnoleError → AnoleError
  | none => error
  | some cleanup =>
    let previous := error.diagnostic.getD ""
    error.withDiagnostic s!"{previous} control-plane cleanup also failed: {cleanup.display}"

/-- The transition `abort_active_window` requests for an observed state
    (lines 579–588). -/
def abortTarget : JobState → Option JobState
  | .running | .validating => some .interrupted
  | .inspecting | .planned => some .failed
  | _ => none

namespace Window

variable (w : Window)

def goto (point : Point) : Window := { w with point := point }

/-- An error of the loop (`?`): the run goes to `abort_active_window`. -/
def fail (error : AnoleError) : Window := w.goto (.abortDrain error)

/-- A store call of the loop: its error ends the loop. -/
def attempt {α : Type} (result : Except AnoleError α × Database) (next : α → Window) :
    Window × Database :=
  match result with
  | (.error error, db) => (w.fail error, db)
  | (.ok a, db) => (next a, db)

/-- The job is counted and no longer active. -/
def count (jobId : Uuid) (counter : Counter) : Window :=
  { w with
    counters := w.counters.bump counter
    activeJobs := w.activeJobs.erase jobId
    counted := w.counted ++ [(jobId, counter)] }

/-- A job that was not started (lines 372–386). -/
def retire (jobId : Uuid) (counter : Counter) : Window :=
  { w.count jobId counter with scheduler := w.scheduler.release jobId, point := .admission }

/-- The candidate is admitted. -/
def take (candidate : PendingQueueJob) (scheduler : ResourceScheduler)
    (pending : List PendingQueueJob) : Window :=
  { w with
    scheduler := scheduler
    pending := pending
    activeJobs := w.activeJobs.insert candidate.id
    point := .claim candidate }

/-- The admission loop up to its claim (lines 263–292). -/
def scan : Window :=
  if w.control.admission = false ∧ w.scheduler.activeCount < w.scheduler.policy.maxProcesses ∧
      w.pending ≠ [] then
    match scanPending w.scheduler w.pending [] with
    | some (candidate, scheduler, pending) => w.take candidate scheduler pending
    | none => w.goto .idle
  else w.goto .idle

/-- After the claim (lines 650–652). -/
def afterClaim (candidate : PendingQueueJob) : Option JobRecord → Window
  | none => w.retire candidate.id .contended
  | some _ => { w with claimed := candidate.id :: w.claimed, point := .inspect candidate }

/-- The checks of the claimed job (lines 654–704). -/
def inspect (env : StepEnv) (db : Database) (candidate : PendingQueueJob) : Window :=
  match validateOutputReservation env.call db candidate.id with
  | .error error =>
    if error.code = .inputInvalid ∨ error.code = .outputConflict then
      w.goto (.prepare candidate (.blocked "OUTPUT_IDENTITY_CHANGED"))
    else w.fail error
  | .ok () => w.goto (.prepare candidate (inspectPlan env candidate.details))

/-- After the transition the checks decided on. -/
def afterPrepare (candidate : PendingQueueJob) : Verdict → Window
  | .blocked _ => w.retire candidate.id .blocked
  | .planInvalid => w.retire candidate.id .failed
  | .revalidated probe => w.goto (.start candidate probe)

/-- The spawn of the worker (lines 309–370). -/
def spawn (env : StepEnv) (candidate : PendingQueueJob) (probe : Probe) : Window :=
  { w with
    activeTelemetry := match primaryPlanHop candidate.details.plan with
      | some (engineId, capabilityId) =>
        (candidate.id, ⟨engineId, capabilityId, env.unixNowMs, some probe.sizeBytes⟩) ::
          Table.delete (fun t => t.1 = candidate.id) w.activeTelemetry
      | none => w.activeTelemetry
    workers := w.workers ++ [candidate.id]
    peakActive := max w.peakActive w.scheduler.activeCount
    point := .admission }

/-- The check for an empty worker set (lines 401–411). -/
def idle : Window :=
  if w.workers = [] then
    if w.control.admission ∨ w.pending = [] then w.goto .returning else w.fail noQueuedJobFits
  else w.goto .select

/-- How a worker's error completes its job (lines 502–520). -/
def completionOf (error : AnoleError) : Completion :=
  if error.code = .cancelled then if w.control.workers then .paused else .cancelled else .stopped

/-- The worker with this index has returned (lines 422–439). -/
def join (index : ℕ) (jobId : Uuid) (point : Point) : Window :=
  { w with
    workers := w.workers.eraseIdx index
    scheduler := w.scheduler.release jobId
    point := point }

/-- `tokio::select!` and the join (lines 413–441). -/
def select : Ready → Option Window
  | .milestone => match w.milestones with
    | [] => none
    | jobId :: milestones => some { w with milestones := milestones, point := .markRead jobId none }
  | .joined index exit => match w.workers[index]? with
    | none => none
    | some jobId => some (match exit with
      | .panicked error =>
        { w with workers := w.workers.eraseIdx index, point := .abortDrain (workerStopped error) }
      | .returned (.ok report) => w.join index jobId (.report jobId report)
      | .returned (.error error) => w.join index jobId (.finish jobId (w.completionOf error)))

/-- The telemetry of a job whose output passed validation (lines 443–448). -/
def telemetryFor (jobId : Uuid) (report : ValidationReport) : Option ActiveJobTelemetry :=
  if report.status = .pass ∨ report.status = .warning then
    (w.activeTelemetry.find? fun t => t.1 = jobId).map Prod.snd
  else none

/-- The sample of a job with telemetry (lines 449–461). -/
def sampleOf (env : StepEnv) (report : ValidationReport) (telemetry : ActiveJobTelemetry) :
    EngineThroughputSample :=
  { engineId := telemetry.engineId
    capabilityId := telemetry.capabilityId
    wallMillis := (env.unixNowMs - telemetry.startedUnixMs).toNat
    inputBytes := telemetry.inputBytes
    outputBytes := some report.outputSizeBytes
    completedUnixMs := env.unixNowMs }

/-- After the callback (lines 443–463). -/
def afterReport (jobId : Uuid) (report : ValidationReport) : Window :=
  w.goto (if (w.telemetryFor jobId report).isSome then .sample jobId report
    else .markRead jobId (some (.validated report.status)))

/-- After `mark_job_validating`. -/
def afterMark (jobId : Uuid) : Option Completion → Window
  | none => w.goto .top
  | some completion => w.goto (.finish jobId completion)

/-- The read of `mark_job_validating` (lines 835–849). -/
def markRead (env : StepEnv) (db : Database) (jobId : Uuid) (after : Option Completion) : Window :=
  match getJob env.call db jobId with
  | .error error => w.fail error
  | .ok none => w.fail (activeJobDisappeared jobId)
  | .ok (some job) =>
    if job.state = .running then w.goto (.markMove jobId after) else w.afterMark jobId after

/-- After the completing transition (lines 473–523). -/
def afterFinish (jobId : Uuid) (completion : Completion) : Window :=
  { w.count jobId completion.counter with
    activeTelemetry := Table.delete (fun t => t.1 = jobId) w.activeTelemetry
    point := .top }

/-- The report (lines 546–558). -/
def runReport : QueueRunReport :=
  { schemaVersion := 1
    selected := w.jobs.length
    completed := w.counters.completed
    warning := w.counters.warning
    blocked := w.counters.blocked
    failed := w.counters.failed
    cancelled := w.counters.cancelled
    contended := w.counters.contended
    stopped := w.control.admission ∨ w.counters.terminal < w.jobs.length
    parallelism := w.scheduler.policy.maxProcesses
    peakActive := w.peakActive }

/-- `abort_active_window` up to its loop (lines 569–576). -/
def drain (env : StepEnv) (error : AnoleError) : Window :=
  { w with
    control := w.control.pauseImmediate
    workers := []
    scheduler := (w.workers.filter (· ∈ env.drained)).foldl ResourceScheduler.release w.scheduler
    point := .abort error env.order none }

/-- One job of the loop of `abort_active_window`, up to its transition
    (lines 577–588). -/
def abortRead (env : StepEnv) (db : Database) (error : AnoleError) (jobId : Uuid)
    (todo : List Uuid) (firstError : Option AnoleError) : Window :=
  let w := { w with scheduler := w.scheduler.release jobId }
  match getJob env.call db jobId with
  | .error cleanup => w.goto (.abort error todo (firstError <|> some cleanup))
  | .ok none => w.goto (.abort error todo firstError)
  | .ok (some job) => match abortTarget job.state with
    | none => w.goto (.abort error todo firstError)
    | some target =>
      { w with
        requests := w.requests ++ [⟨jobId, job.state, target⟩]
        point := .abortMove error todo firstError jobId target }

/-- The transition of `abort_active_window` (lines 580–593). -/
def abortMove (error : AnoleError) (todo : List Uuid) (firstError : Option AnoleError)
    (result : Except AnoleError JobRecord × Database) : Window × Database :=
  match result with
  | (.error cleanup, db) => (w.goto (.abort error todo (firstError <|> some cleanup)), db)
  | (.ok _, db) => (w.goto (.abort error todo firstError), db)

/-- One step of the run. There is none after its return, and `tokio::select!` waits
    until something is ready. -/
def step (env : StepEnv) (db : Database) : Option (Window × Database) :=
  match w.point with
  | .top => some (w.goto (if w.pending ≠ [] ∨ w.workers ≠ [] then .admission else .returning), db)
  | .admission => some (w.scan, db)
  | .claim candidate =>
    some (w.attempt (claimQueuedJob env.call db candidate.id "QUEUE_REINSPECTING")
      (w.afterClaim candidate))
  | .inspect candidate => some (w.inspect env db candidate, db)
  | .prepare candidate verdict =>
    some (w.attempt (transition env.call db candidate.id verdict.target verdict.code)
      fun _ => w.afterPrepare candidate verdict)
  | .start candidate probe =>
    some (w.attempt (transition env.call db candidate.id .running "ENGINE_STARTED")
      fun _ => w.spawn env candidate probe)
  | .idle => some (w.idle, db)
  | .select => (w.select env.ready).map fun w => (w, db)
  | .report jobId report => some (match env.onReport jobId report with
      | .error error => (w.fail error, db)
      | .ok () => (w.afterReport jobId report, db))
  | .sample jobId report =>
    let next := fun _ => w.goto (.markRead jobId (some (.validated report.status)))
    some (match w.telemetryFor jobId report with
      | none => (next (), db)
      | some telemetry =>
        w.attempt (recordEngineThroughputSample env.call db (sampleOf env report telemetry)) next)
  | .markRead jobId after => some (w.markRead env db jobId after, db)
  | .markMove jobId after =>
    some (w.attempt (transition env.call db jobId .validating "ENGINE_FINISHED")
      fun _ => w.afterMark jobId after)
  | .finish jobId completion =>
    some (w.attempt (transition env.call db jobId completion.target completion.code)
      fun _ => w.afterFinish jobId completion)
  | .returning => some (w.goto (.done (.ok w.runReport)), db)
  | .abortDrain error =>
    if env.order.isPerm w.activeJobs then some (w.drain env error, db) else none
  | .abort error [] firstError => some (w.goto (.done (.error (withCleanup error firstError))), db)
  | .abort error (jobId :: todo) firstError =>
    some (w.abortRead env db error jobId todo firstError, db)
  | .abortMove error todo firstError jobId target =>
    some (w.abortMove error todo firstError
      (transition env.call db jobId target "CONTROL_PLANE_FAILED"))
  | .done _ => none

end Window

/-! ## Events from outside -/

/-- What happens to a running window from outside: a worker sends its milestone, or
    somebody pauses the window. -/
inductive WindowEvent where
  | milestone (jobId : Uuid)
  | pauseFinishCurrent
  | pauseImmediate

namespace WindowEvent

/-- The number of milestones an event sends. -/
def milestones : WindowEvent → ℕ
  | milestone _ => 1
  | pauseFinishCurrent | pauseImmediate => 0

/-- The event pauses admission. -/
def pauses : WindowEvent → Bool
  | milestone _ => false
  | pauseFinishCurrent | pauseImmediate => true

end WindowEvent

/-- The run has returned. -/
def Window.isDone (w : Window) : Bool :=
  match w.point with
  | .done _ => true
  | _ => false

/-- The window after an event; a milestone comes from a worker, and nothing concerns a
    window that has returned. -/
def Window.receive (w : Window) (event : WindowEvent) : Option Window :=
  if w.isDone then none
  else match event with
    | .milestone jobId =>
      if jobId ∈ w.workers then some { w with milestones := w.milestones ++ [jobId] } else none
    | .pauseFinishCurrent => some { w with control := w.control.pauseFinishCurrent }
    | .pauseImmediate => some { w with control := w.control.pauseImmediate }

/-! ## Runs of a window -/

/-- A window and the store it works on. -/
structure QueueState where
  window : Window
  db : Database

/-- What happens next: the window takes a step, something happens to it, or another
    process calls the store. -/
inductive QueueLabel where
  | step (env : StepEnv)
  | event (event : WindowEvent)
  | other (label : StoreLabel)

/-- The transition relation of a window among other processes. -/
def QueueStep (json : ReportJson) (s : QueueState) : QueueLabel → QueueState → Prop
  | .step env, t => s.window.step env s.db = some (t.window, t.db)
  | .event event, t => s.window.receive event = some t.window ∧ t.db = s.db
  | .other label, t => StoreStep json s.db label t.db ∧ t.window = s.window

/-! ## Playing a run -/

/-- What to do next, without its outcome. -/
inductive QueueInput where
  | step (env : StepEnv)
  | event (event : WindowEvent)
  | call (env : CallEnv) (call : Call)

namespace QueueState

/-- What an input makes of a state, with the label of the step. -/
def next (json : ReportJson) (s : QueueState) : QueueInput → Option (QueueLabel × QueueState)
  | .step env => (s.window.step env s.db).map fun (w, db) => (.step env, ⟨w, db⟩)
  | .event event => (s.window.receive event).map fun w => (.event event, ⟨w, s.db⟩)
  | .call env call =>
    let result := exec json env s.db call
    some (.other ⟨env, call, result.1⟩, ⟨s.window, result.2⟩)

theorem next_step {json : ReportJson} {s t : QueueState} {input : QueueInput} {label : QueueLabel}
    (h : s.next json input = some (label, t)) : QueueStep json s label t := by
  cases input with
  | step env =>
    obtain ⟨⟨w, db⟩, hstep, heq⟩ := Option.map_eq_some_iff.mp h
    cases heq
    exact hstep
  | event event =>
    obtain ⟨w, hevent, heq⟩ := Option.map_eq_some_iff.mp h
    cases heq
    exact ⟨hevent, rfl⟩
  | call env call =>
    cases h
    exact ⟨rfl, rfl⟩

theorem play_run {json : ReportJson} {P : QueueState → QueueLabel → QueueState → Prop}
    {inputs : List QueueInput} {s : QueueState} (h : Common.Plays (next json) P s inputs) :
    ∃ labels, Common.Trace (fun s label t => QueueStep json s label t ∧ P s label t) s labels
      (Common.play (next json) s inputs) :=
  Common.play_trace (QueueStep json) (fun hnext => next_step hnext) h

end QueueState

/-! ## A sample window -/

namespace Sample

/-- A step of a window on a machine where every inspection finds what the Plan of
    `Sample.plan` says and nothing fails. -/
def stepEnv : StepEnv :=
  { call := env 0
    inspectEngine := fun _ _ => .ok ⟨"anole.structured", "1", "sha"⟩
    inspectQueuedInput := fun _ _ => .ok ⟨"input", 10⟩
    onReport := fun _ _ => .ok ()
    unixNowMs := 0
    ready := .milestone
    drained := []
    order := [] }

/-- The same step with a busy database. -/
def busyEnv : StepEnv := { stepEnv with call := { env 0 with fault := some databaseBusy } }

/-- A store with one `Queued` job, whose id is 0. -/
def queued : Database :=
  (replay (json 0) Database.empty
    [(env 0, .enqueueJobIdempotent "k" (request "a.json" "a.yaml"))]).2

theorem queued_reachable : Reachable (json 0) queued := ⟨_, replay_run _ _ Database.empty⟩

/-- The window that selects this job. -/
def window : Window :=
  match openWindow (env 0) queued 4 1 1 .new with
  | .ok w => w
  | .error _ => .new (.bounded 4 1) .new [] []

theorem openWindow_window : openWindow (env 0) queued 4 1 1 .new = .ok window := rfl

end Sample

end Anole
