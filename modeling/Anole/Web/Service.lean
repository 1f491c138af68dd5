import Anole.Common.Files
import Anole.Common.Table
import Anole.Common.Trace
import Anole.Domain

/-!
# The web service

Model of the uploads and jobs of the web server (`crates/server/src/web.rs`): `upload` (lines
387–499), `create_job` (lines 589–685), `execute_web_job` and `finish_web_job` (lines 768–886),
`sweep_expired` (lines 228–276) and the packaging of `download_job_output` (lines 940–997).

Any number of requests, conversions and sweeps run beside each other. A step of the service is a
section under one of its two locks, or one operation on a file. What a conversion does to its files
and how it ends is up to the environment, and so is the time that a step reads.

* `WebState.next`: the service after a step.
* `WebState.Sound`: every active job is executed once, and the slots add up (`sound_of_run`).
-/

open Common

namespace Anole.Web

/-! ## Data -/

/-- `std::net::IpAddr`. -/
inductive IpAddr where
  | v4 (bits : BitVec 32)
  | v6 (bits : BitVec 128)
  deriving DecidableEq

/-- The files of the server: those of `uploads/`, the directory of a job with what is below it, and
    others. -/
inductive WebPath where
  | upload (id : Uuid) (extension : String)
  | job (id : Uuid) (relative : List String)
  | elsewhere (path : String)
  deriving DecidableEq

/-- The second path is the first, or lies below it. -/
def WebPath.contains : WebPath → WebPath → Bool
  | .job id relative, .job id' relative' => decide (id = id') && relative.isPrefixOf relative'
  | path, path' => decide (path = path')

inductive FileKind where
  | file | directory
  deriving DecidableEq

/-- `UploadRecord` (lines 133–142), the fields that the service reads. -/
structure UploadRecord where
  uploadId : Uuid
  fileName : String
  storedPath : WebPath
  expiresAt : ℕ
  deriving DecidableEq

/-- `WebJobState`. -/
inductive WebJobState where
  | queued | running | succeeded | failed
  deriving DecidableEq

/-- `WebJob` (lines 145–162), the fields that the service reads. -/
structure WebJob where
  jobId : Uuid
  uploadId : Uuid
  clientIp : Option IpAddr
  targetFormat : String
  inputPath : WebPath
  outputPath : WebPath
  state : WebJobState
  expiresAt : ℕ
  archivePath : Option WebPath
  deriving DecidableEq

/-- `WebJob::is_active`. -/
def WebJob.isActive (job : WebJob) : Bool := job.state = .queued || job.state = .running

/-- The configuration, with the paths that the service computes: `planned_output_path` of a job, an
    upload and a target, `with_extension("zip")` of an output, and which files a conversion to an
    output creates and removes. -/
structure WebConfig where
  ttlSecs : ℕ
  maxConcurrentConversions : ℕ
  plannedOutputPath : Uuid → UploadRecord → String → WebPath
  withExtensionZip : WebPath → WebPath
  touches : WebPath → WebPath → Bool

/-- The slots of `WebState::new`. -/
def WebConfig.slots (config : WebConfig) : ℕ := max config.maxConcurrentConversions 1

/-! ## What is in progress -/

/-- An upload that is being received. -/
structure Uploading where
  uploadId : Uuid
  fileName : String
  extension : String
  deriving DecidableEq

def Uploading.storedPath (uploading : Uploading) : WebPath := .upload uploading.uploadId uploading.extension

/-- How far `create_job` has come: the upload was found, its file was there, the directory of the
    job was created. -/
inductive CreatePhase where
  | looked | checked
  | rooted (jobId : Uuid)
  deriving DecidableEq

structure Creating where
  record : UploadRecord
  clientIp : IpAddr
  target : String
  phase : CreatePhase
  deriving DecidableEq

/-- How far `execute_web_job` has come. An outcome is whether the conversion succeeded. -/
inductive ExecutionPhase where
  | waiting | acquired | marked
  | converting (job : WebJob)
  | released (succeeded : Bool)
  | looked (succeeded : Bool) (uploadId : Option Uuid)
  | unregistered (succeeded : Bool) (storedPath : Option WebPath)
  | cleared (succeeded : Bool)
  deriving DecidableEq

structure Execution where
  jobId : Uuid
  phase : ExecutionPhase

/-- How far `download_job_output` has come in packaging an output: the job was read, its output is a
    directory, no archive of it is there, the archive was created. -/
inductive PackagingPhase where
  | opened (archivePath : Option WebPath)
  | inspected (archivePath : Option WebPath)
  | needed | created
  deriving DecidableEq

structure Packaging where
  jobId : Uuid
  outputPath : WebPath
  phase : PackagingPhase
  deriving DecidableEq

/-- The state of the service. `drawn` are the identifiers that were drawn. -/
structure WebState where
  uploads : List UploadRecord
  jobs : List WebJob
  available : ℕ
  files : Files WebPath FileKind
  uploading : List Uploading
  creating : List Creating
  executions : List Execution
  sweeping : List ℕ
  packaging : List Packaging
  drawn : List Uuid

/-- The service at its start. -/
def WebConfig.initial (config : WebConfig) : WebState :=
  ⟨[], [], config.slots, fun _ => none, [], [], [], [], [], []⟩

/-! ## Steps -/

/-- A step: a section under a lock or an operation on a file, with the values it reads. -/
inductive WebStep where
  /-- the file of an upload is created -/
  | receive (uploading : Uploading)
  /-- the stream of an upload fails, or a write to its file, or the request is dropped -/
  | breakOff (uploading : Uploading)
  /-- an upload exceeds the limit, and its file is removed -/
  | exceed (uploading : Uploading)
  /-- an upload is recorded -/
  | record (uploading : Uploading) (now : ℕ)
  | lookupUpload (uploadId : Uuid) (clientIp : IpAddr) (target : String)
  /-- the file of the upload is looked for -/
  | check (creating : Creating)
  /-- a request is refused, or dropped -/
  | refuse (creating : Creating)
  | createRoot (creating : Creating) (jobId : Uuid)
  /-- the section that enqueues a job or rejects it -/
  | enqueue (creating : Creating) (jobId : Uuid) (now : ℕ)
  | acquire (jobId : Uuid)
  | mark (jobId : Uuid)
  | snapshot (jobId : Uuid)
  /-- a conversion creates a file -/
  | write (jobId : Uuid) (path : WebPath) (kind : FileKind)
  /-- a conversion removes a file -/
  | unlink (jobId : Uuid) (path : WebPath)
  /-- the conversion ends or is given up, and the slot is given back -/
  | release (jobId : Uuid) (succeeded : Bool)
  | lookupJob (jobId : Uuid)
  | unregister (jobId : Uuid)
  | removeInput (jobId : Uuid)
  | conclude (jobId : Uuid) (now : ℕ)
  | sweepUploads (now : ℕ)
  | sweepJobs (now : ℕ)
  | openDownload (jobId : Uuid)
  | inspectOutput (packaging : Packaging)
  | inspectArchive (packaging : Packaging)
  | createArchive (packaging : Packaging)
  /-- a download is not packaged to its end -/
  | giveUp (packaging : Packaging)
  | cacheArchive (packaging : Packaging)

/-- A file is there. -/
def isFile (files : Files WebPath FileKind) (path : WebPath) : Bool := files path = some .file

/-- `remove_file`. -/
def removeFile (files : Files WebPath FileKind) (path : WebPath) : Files WebPath FileKind :=
  if isFile files path then files.remove path else files

/-- `remove_dir_all`. -/
def removeDirAll (files : Files WebPath FileKind) (path : WebPath) : Files WebPath FileKind :=
  fun other => if path.contains other then none else files other

/-- `remove_output_artifacts` (lines 265–276). -/
def removeOutputArtifacts (files : Files WebPath FileKind) (job : WebJob) : Files WebPath FileKind :=
  let files := match files job.outputPath with
    | some .directory => removeDirAll files job.outputPath
    | some .file => files.remove job.outputPath
    | none => files
  match job.archivePath with
  | some archive => removeFile files archive
  | none => files

/-- The job that `create_job` makes (lines 643–660). -/
def Creating.job (config : WebConfig) (creating : Creating) (jobId : Uuid) (now : ℕ) : WebJob where
  jobId := jobId
  uploadId := creating.record.uploadId
  clientIp := some creating.clientIp
  targetFormat := creating.target
  inputPath := creating.record.storedPath
  outputPath := config.plannedOutputPath jobId creating.record creating.target
  state := .queued
  expiresAt := now + config.ttlSecs
  archivePath := none

/-- The job in its last state (lines 865–885). -/
def WebJob.concluded (config : WebConfig) (job : WebJob) (succeeded : Bool) (now : ℕ) : WebJob :=
  { job with state := if succeeded then .succeeded else .failed, expiresAt := now + config.ttlSecs }

/-- The job of an identifier. -/
def WebState.job? (web : WebState) (jobId : Uuid) : Option WebJob := web.jobs.find? fun job => job.jobId = jobId

def WebState.updateJob (web : WebState) (jobId : Uuid) (f : WebJob → WebJob) : List WebJob :=
  Table.update (fun job => job.jobId = jobId) f web.jobs

/-- The executions when that of a job has come to a phase. -/
def WebState.advance (web : WebState) (jobId : Uuid) (phase : ExecutionPhase) : List Execution :=
  Table.update (fun execution => execution.jobId = jobId) (fun _ => ⟨jobId, phase⟩) web.executions

/-- The executions without that of a job. -/
def WebState.ended (web : WebState) (jobId : Uuid) : List Execution :=
  Table.delete (fun execution => execution.jobId = jobId) web.executions

/-- The phase of the execution of a job. -/
def WebState.phase? (web : WebState) (jobId : Uuid) : Option ExecutionPhase :=
  (web.executions.find? fun execution => execution.jobId = jobId).map Execution.phase

/-- The jobs of an address that are active. -/
def WebState.activeFor (web : WebState) (clientIp : IpAddr) : List WebJob :=
  web.jobs.filter fun job => job.isActive && decide (job.clientIp = some clientIp)

/-- The steps of uploads (lines 387–499). -/
def WebState.nextUpload (config : WebConfig) (web : WebState) : WebStep → Option WebState
  | .receive uploading =>
    if uploading.uploadId ∈ web.drawn then none
    else some { web with
      files := web.files.put uploading.storedPath .file
      uploading := web.uploading ++ [uploading]
      drawn := uploading.uploadId :: web.drawn }
  | .breakOff uploading =>
    if uploading ∈ web.uploading then some { web with uploading := web.uploading.erase uploading } else none
  | .exceed uploading =>
    if uploading ∈ web.uploading then some { web with
      files := removeFile web.files uploading.storedPath
      uploading := web.uploading.erase uploading }
    else none
  | .record uploading now =>
    if uploading ∈ web.uploading then some { web with
      uploads := web.uploads ++ [⟨uploading.uploadId, uploading.fileName, uploading.storedPath, now + config.ttlSecs⟩]
      uploading := web.uploading.erase uploading }
    else none
  | _ => none

/-- The steps of `create_job` (lines 589–685). -/
def WebState.nextCreate (config : WebConfig) (web : WebState) : WebStep → Option WebState
  | .lookupUpload uploadId clientIp target =>
    (web.uploads.find? fun record => record.uploadId = uploadId).map fun record =>
      { web with creating := web.creating ++ [⟨record, clientIp, target, .looked⟩] }
  | .check creating =>
    if creating ∈ web.creating ∧ creating.phase = .looked ∧ isFile web.files creating.record.storedPath = true then
      some { web with creating := web.creating.erase creating ++ [{ creating with phase := .checked }] }
    else none
  | .refuse creating =>
    if creating ∈ web.creating then some { web with creating := web.creating.erase creating } else none
  | .createRoot creating jobId =>
    if creating ∈ web.creating ∧ creating.phase = .checked ∧ jobId ∉ web.drawn then
      some { web with
        files := web.files.put (.job jobId []) .directory
        creating := web.creating.erase creating ++ [{ creating with phase := .rooted jobId }]
        drawn := jobId :: web.drawn }
    else none
  | .enqueue creating jobId now =>
    if creating ∈ web.creating ∧ creating.phase = .rooted jobId then
      if web.activeFor creating.clientIp = [] then
        some { web with
          jobs := web.jobs ++ [creating.job config jobId now]
          creating := web.creating.erase creating
          executions := web.executions ++ [⟨jobId, .waiting⟩] }
      else some { web with creating := web.creating.erase creating }
    else none
  | _ => none

/-- The steps of `execute_web_job` up to the end of its slot (lines 768–813). -/
def WebState.nextExecute (config : WebConfig) (web : WebState) : WebStep → Option WebState
  | .acquire jobId =>
    if web.phase? jobId = some .waiting ∧ 0 < web.available then
      some { web with available := web.available - 1, executions := web.advance jobId .acquired }
    else none
  | .mark jobId =>
    if web.phase? jobId = some .acquired then
      some { web with
        jobs := web.updateJob jobId fun job => if job.state = .queued then { job with state := .running } else job
        executions := web.advance jobId .marked }
    else none
  | .snapshot jobId =>
    if web.phase? jobId = some .marked then
      match web.job? jobId with
      | some job => some { web with executions := web.advance jobId (.converting job) }
      | none => some { web with available := web.available + 1, executions := web.ended jobId }
    else none
  | .write jobId path kind =>
    match web.phase? jobId with
    | some (.converting job) =>
      if config.touches job.outputPath path then some { web with files := web.files.put path kind } else none
    | _ => none
  | .unlink jobId path =>
    match web.phase? jobId with
    | some (.converting job) =>
      if config.touches job.outputPath path then some { web with files := web.files.remove path } else none
    | _ => none
  | .release jobId succeeded =>
    match web.phase? jobId with
    | some (.converting _) =>
      some { web with available := web.available + 1, executions := web.advance jobId (.released succeeded) }
    | _ => none
  | _ => none

/-- The steps of `finish_web_job` (lines 847–886). -/
def WebState.nextFinish (config : WebConfig) (web : WebState) : WebStep → Option WebState
  | .lookupJob jobId =>
    match web.phase? jobId with
    | some (.released succeeded) =>
      some { web with executions := web.advance jobId (.looked succeeded ((web.job? jobId).map (·.uploadId))) }
    | _ => none
  | .unregister jobId =>
    match web.phase? jobId with
    | some (.looked succeeded none) =>
      some { web with executions := web.advance jobId (.unregistered succeeded none) }
    | some (.looked succeeded (some uploadId)) =>
      some { web with
        uploads := Table.delete (fun record => record.uploadId = uploadId) web.uploads
        executions := web.advance jobId (.unregistered succeeded
          ((web.uploads.find? fun record => record.uploadId = uploadId).map (·.storedPath))) }
    | _ => none
  | .removeInput jobId =>
    match web.phase? jobId with
    | some (.unregistered succeeded none) => some { web with executions := web.advance jobId (.cleared succeeded) }
    | some (.unregistered succeeded (some path)) =>
      some { web with files := removeFile web.files path, executions := web.advance jobId (.cleared succeeded) }
    | _ => none
  | .conclude jobId now =>
    match web.phase? jobId with
    | some (.cleared succeeded) =>
      match web.job? jobId with
      | none => some { web with executions := web.ended jobId }
      | some job =>
        some { web with
          jobs := web.updateJob jobId fun job => job.concluded config succeeded now
          files := if succeeded then web.files else removeOutputArtifacts web.files job
          executions := web.ended jobId }
    | _ => none
  | _ => none

/-- The two sections of `sweep_expired` (lines 230–251), which read the time once. -/
def WebState.nextSweep (web : WebState) : WebStep → Option WebState
  | .sweepUploads now =>
    some { web with
      uploads := web.uploads.filter fun record => now < record.expiresAt
      files := (web.uploads.filter fun record => ¬ now < record.expiresAt).foldl
        (fun files record => removeFile files record.storedPath) web.files
      sweeping := web.sweeping ++ [now] }
  | .sweepJobs now =>
    if now ∈ web.sweeping then
      some { web with
        jobs := web.jobs.filter fun job => job.isActive || decide (now < job.expiresAt)
        files := (web.jobs.filter fun job => ¬ (job.isActive || decide (now < job.expiresAt))).foldl
          removeOutputArtifacts web.files
        sweeping := web.sweeping.erase now }
    else none
  | _ => none

/-- The packaging of an output that is a directory (lines 944–997). -/
def WebState.nextPackage (config : WebConfig) (web : WebState) : WebStep → Option WebState
  | .openDownload jobId =>
    match web.job? jobId with
    | some job =>
      if job.state = .succeeded then
        some { web with packaging := web.packaging ++ [⟨jobId, job.outputPath, .opened job.archivePath⟩] }
      else none
    | none => none
  | .inspectOutput packaging =>
    match packaging.phase with
    | .opened archivePath =>
      if packaging ∈ web.packaging ∧ web.files packaging.outputPath = some .directory then
        some { web with packaging := web.packaging.erase packaging ++ [{ packaging with phase := .inspected archivePath }] }
      else none
    | _ => none
  | .inspectArchive packaging =>
    match packaging.phase with
    | .inspected archivePath =>
      if packaging ∈ web.packaging ∧ ∀ archive ∈ archivePath, isFile web.files archive = false then
        some { web with packaging := web.packaging.erase packaging ++ [{ packaging with phase := .needed }] }
      else none
    | _ => none
  | .createArchive packaging =>
    if packaging ∈ web.packaging ∧ packaging.phase = .needed then
      some { web with
        files := web.files.put (config.withExtensionZip packaging.outputPath) .file
        packaging := web.packaging.erase packaging ++ [{ packaging with phase := .created }] }
    else none
  | .giveUp packaging =>
    if packaging ∈ web.packaging then some { web with packaging := web.packaging.erase packaging } else none
  | .cacheArchive packaging =>
    if packaging ∈ web.packaging ∧ packaging.phase = .created then
      some { web with
        jobs := web.updateJob packaging.jobId fun job =>
          { job with archivePath := some (config.withExtensionZip packaging.outputPath) }
        packaging := web.packaging.erase packaging }
    else none
  | _ => none

/-- The service after a step, if the step is possible. -/
def WebState.next (config : WebConfig) (web : WebState) (step : WebStep) : Option WebState :=
  web.nextUpload config step <|> web.nextCreate config step <|> web.nextExecute config step <|>
    web.nextFinish config step <|> web.nextSweep step <|> web.nextPackage config step

/-- The transition relation of the service. -/
def Step (config : WebConfig) (web : WebState) (step : WebStep) (next : WebState) : Prop :=
  web.next config step = some next

/-- A state that the service reaches by the steps. -/
abbrev Run (config : WebConfig) (steps : List WebStep) (web : WebState) : Prop :=
  Trace (Step config) config.initial steps web

/-- The state after the steps, if each is possible and starts in a state that meets the condition. -/
def WebState.play (config : WebConfig) (P : WebState → WebStep → Prop) [∀ web step, Decidable (P web step)] :
    WebState → List WebStep → Option WebState
  | web, [] => some web
  | web, step :: steps =>
    if P web step then (web.next config step).bind fun next => next.play config P steps else none

theorem trace_of_play {config : WebConfig} {P : WebState → WebStep → Prop} [∀ web step, Decidable (P web step)]
    {web last : WebState} {steps : List WebStep} (h : web.play config P steps = some last) :
    Trace (fun web step next => Step config web step next ∧ P web step) web steps last := by
  induction steps generalizing web with
  | nil =>
    cases h
    exact .nil
  | cons step steps ih =>
    rw [WebState.play] at h
    obtain ⟨hP, h⟩ := Option.ite_none_right_eq_some.mp h
    obtain ⟨next, hnext, hrest⟩ := Option.bind_eq_some_iff.mp h
    exact .cons ⟨hnext, hP⟩ (ih hrest)

/-! ## What a step does -/

/-- A step, with what it finds: one constructor for each way through the code. -/
inductive Effect (config : WebConfig) (web : WebState) : WebStep → WebState → Prop
  | receive (uploading : Uploading) : uploading.uploadId ∉ web.drawn →
      Effect config web (.receive uploading) { web with
        files := web.files.put uploading.storedPath .file
        uploading := web.uploading ++ [uploading]
        drawn := uploading.uploadId :: web.drawn }
  | breakOff (uploading : Uploading) : uploading ∈ web.uploading →
      Effect config web (.breakOff uploading) { web with uploading := web.uploading.erase uploading }
  | exceed (uploading : Uploading) : uploading ∈ web.uploading →
      Effect config web (.exceed uploading) { web with
        files := removeFile web.files uploading.storedPath
        uploading := web.uploading.erase uploading }
  | record (uploading : Uploading) (now : ℕ) : uploading ∈ web.uploading →
      Effect config web (.record uploading now) { web with
        uploads := web.uploads ++
          [⟨uploading.uploadId, uploading.fileName, uploading.storedPath, now + config.ttlSecs⟩]
        uploading := web.uploading.erase uploading }
  | lookupUpload (record : UploadRecord) (clientIp : IpAddr) (target : String) : record ∈ web.uploads →
      Effect config web (.lookupUpload record.uploadId clientIp target)
        { web with creating := web.creating ++ [⟨record, clientIp, target, .looked⟩] }
  | check (creating : Creating) : creating ∈ web.creating → creating.phase = .looked →
      isFile web.files creating.record.storedPath = true →
      Effect config web (.check creating)
        { web with creating := web.creating.erase creating ++ [{ creating with phase := .checked }] }
  | refuse (creating : Creating) : creating ∈ web.creating →
      Effect config web (.refuse creating) { web with creating := web.creating.erase creating }
  | createRoot (creating : Creating) (jobId : Uuid) : creating ∈ web.creating → creating.phase = .checked →
      jobId ∉ web.drawn →
      Effect config web (.createRoot creating jobId) { web with
        files := web.files.put (.job jobId []) .directory
        creating := web.creating.erase creating ++ [{ creating with phase := .rooted jobId }]
        drawn := jobId :: web.drawn }
  | enqueue (creating : Creating) (jobId : Uuid) (now : ℕ) : creating ∈ web.creating →
      creating.phase = .rooted jobId → web.activeFor creating.clientIp = [] →
      Effect config web (.enqueue creating jobId now) { web with
        jobs := web.jobs ++ [creating.job config jobId now]
        creating := web.creating.erase creating
        executions := web.executions ++ [⟨jobId, .waiting⟩] }
  | reject (creating : Creating) (jobId : Uuid) (now : ℕ) : creating ∈ web.creating →
      creating.phase = .rooted jobId → web.activeFor creating.clientIp ≠ [] →
      Effect config web (.enqueue creating jobId now) { web with creating := web.creating.erase creating }
  | acquire (jobId : Uuid) : web.phase? jobId = some .waiting → 0 < web.available →
      Effect config web (.acquire jobId)
        { web with available := web.available - 1, executions := web.advance jobId .acquired }
  | mark (jobId : Uuid) : web.phase? jobId = some .acquired →
      Effect config web (.mark jobId) { web with
        jobs := web.updateJob jobId fun job => if job.state = .queued then { job with state := .running } else job
        executions := web.advance jobId .marked }
  | snapshot (jobId : Uuid) (job : WebJob) : web.phase? jobId = some .marked → web.job? jobId = some job →
      Effect config web (.snapshot jobId) { web with executions := web.advance jobId (.converting job) }
  | missing (jobId : Uuid) : web.phase? jobId = some .marked → web.job? jobId = none →
      Effect config web (.snapshot jobId)
        { web with available := web.available + 1, executions := web.ended jobId }
  | write (jobId : Uuid) (path : WebPath) (kind : FileKind) (job : WebJob) :
      web.phase? jobId = some (.converting job) → config.touches job.outputPath path = true →
      Effect config web (.write jobId path kind) { web with files := web.files.put path kind }
  | unlink (jobId : Uuid) (path : WebPath) (job : WebJob) :
      web.phase? jobId = some (.converting job) → config.touches job.outputPath path = true →
      Effect config web (.unlink jobId path) { web with files := web.files.remove path }
  | release (jobId : Uuid) (succeeded : Bool) (job : WebJob) : web.phase? jobId = some (.converting job) →
      Effect config web (.release jobId succeeded)
        { web with available := web.available + 1, executions := web.advance jobId (.released succeeded) }
  | lookupJob (jobId : Uuid) (succeeded : Bool) : web.phase? jobId = some (.released succeeded) →
      Effect config web (.lookupJob jobId)
        { web with executions := web.advance jobId (.looked succeeded ((web.job? jobId).map (·.uploadId))) }
  | unregisterNone (jobId : Uuid) (succeeded : Bool) : web.phase? jobId = some (.looked succeeded none) →
      Effect config web (.unregister jobId)
        { web with executions := web.advance jobId (.unregistered succeeded none) }
  | unregister (jobId : Uuid) (succeeded : Bool) (uploadId : Uuid) :
      web.phase? jobId = some (.looked succeeded (some uploadId)) →
      Effect config web (.unregister jobId) { web with
        uploads := Table.delete (fun record => record.uploadId = uploadId) web.uploads
        executions := web.advance jobId (.unregistered succeeded
          ((web.uploads.find? fun record => record.uploadId = uploadId).map (·.storedPath))) }
  | removeNone (jobId : Uuid) (succeeded : Bool) : web.phase? jobId = some (.unregistered succeeded none) →
      Effect config web (.removeInput jobId) { web with executions := web.advance jobId (.cleared succeeded) }
  | removeInput (jobId : Uuid) (succeeded : Bool) (path : WebPath) :
      web.phase? jobId = some (.unregistered succeeded (some path)) →
      Effect config web (.removeInput jobId)
        { web with files := removeFile web.files path, executions := web.advance jobId (.cleared succeeded) }
  | concludeNone (jobId : Uuid) (succeeded : Bool) (now : ℕ) : web.phase? jobId = some (.cleared succeeded) →
      web.job? jobId = none →
      Effect config web (.conclude jobId now) { web with executions := web.ended jobId }
  | conclude (jobId : Uuid) (succeeded : Bool) (now : ℕ) (job : WebJob) :
      web.phase? jobId = some (.cleared succeeded) → web.job? jobId = some job →
      Effect config web (.conclude jobId now) { web with
        jobs := web.updateJob jobId fun job => job.concluded config succeeded now
        files := if succeeded then web.files else removeOutputArtifacts web.files job
        executions := web.ended jobId }
  | sweepUploads (now : ℕ) :
      Effect config web (.sweepUploads now) { web with
        uploads := web.uploads.filter fun record => now < record.expiresAt
        files := (web.uploads.filter fun record => ¬ now < record.expiresAt).foldl
          (fun files record => removeFile files record.storedPath) web.files
        sweeping := web.sweeping ++ [now] }
  | sweepJobs (now : ℕ) : now ∈ web.sweeping →
      Effect config web (.sweepJobs now) { web with
        jobs := web.jobs.filter fun job => job.isActive || decide (now < job.expiresAt)
        files := (web.jobs.filter fun job => ¬ (job.isActive || decide (now < job.expiresAt))).foldl
          removeOutputArtifacts web.files
        sweeping := web.sweeping.erase now }
  | openDownload (jobId : Uuid) (job : WebJob) : web.job? jobId = some job → job.state = .succeeded →
      Effect config web (.openDownload jobId)
        { web with packaging := web.packaging ++ [⟨jobId, job.outputPath, .opened job.archivePath⟩] }
  | inspectOutput (packaging : Packaging) (archivePath : Option WebPath) :
      packaging.phase = .opened archivePath → packaging ∈ web.packaging →
      Effect config web (.inspectOutput packaging)
        { web with packaging := web.packaging.erase packaging ++ [{ packaging with phase := .inspected archivePath }] }
  | inspectArchive (packaging : Packaging) (archivePath : Option WebPath) :
      packaging.phase = .inspected archivePath → packaging ∈ web.packaging →
      Effect config web (.inspectArchive packaging)
        { web with packaging := web.packaging.erase packaging ++ [{ packaging with phase := .needed }] }
  | createArchive (packaging : Packaging) : packaging ∈ web.packaging → packaging.phase = .needed →
      Effect config web (.createArchive packaging) { web with
        files := web.files.put (config.withExtensionZip packaging.outputPath) .file
        packaging := web.packaging.erase packaging ++ [{ packaging with phase := .created }] }
  | giveUp (packaging : Packaging) : packaging ∈ web.packaging →
      Effect config web (.giveUp packaging) { web with packaging := web.packaging.erase packaging }
  | cacheArchive (packaging : Packaging) : packaging ∈ web.packaging → packaging.phase = .created →
      Effect config web (.cacheArchive packaging) { web with
        jobs := web.updateJob packaging.jobId fun job =>
          { job with archivePath := some (config.withExtensionZip packaging.outputPath) }
        packaging := web.packaging.erase packaging }

variable {config : WebConfig} {web next : WebState} {step : WebStep}

/-- A step is one of a request, a conversion, a sweep or a download. -/
theorem next_cases (h : web.next config step = some next) :
    web.nextUpload config step = some next ∨ web.nextCreate config step = some next ∨
      web.nextExecute config step = some next ∨ web.nextFinish config step = some next ∨
      web.nextSweep step = some next ∨ web.nextPackage config step = some next := by
  simp only [WebState.next, Option.orElse_eq_orElse, Option.orElse_eq_or, Option.or_eq_some_iff] at h
  tauto

theorem effect_of_upload (h : web.nextUpload config step = some next) : Effect config web step next := by
  unfold WebState.nextUpload at h
  cases step
  case receive uploading =>
    obtain ⟨hnew, h⟩ := Option.ite_none_left_eq_some.mp h
    cases h
    exact .receive uploading hnew
  case breakOff uploading =>
    obtain ⟨hmem, h⟩ := Option.ite_none_right_eq_some.mp h
    cases h
    exact .breakOff uploading hmem
  case exceed uploading =>
    obtain ⟨hmem, h⟩ := Option.ite_none_right_eq_some.mp h
    cases h
    exact .exceed uploading hmem
  case record uploading now =>
    obtain ⟨hmem, h⟩ := Option.ite_none_right_eq_some.mp h
    cases h
    exact .record uploading now hmem
  all_goals cases h

theorem effect_of_create (h : web.nextCreate config step = some next) : Effect config web step next := by
  unfold WebState.nextCreate at h
  cases step
  case lookupUpload uploadId clientIp target =>
    obtain ⟨record, hfind, rfl⟩ := Option.map_eq_some_iff.mp h
    have hid : record.uploadId = uploadId := by simpa using List.find?_some hfind
    exact hid ▸ .lookupUpload record clientIp target (List.mem_of_find?_eq_some hfind)
  case check creating =>
    obtain ⟨⟨hmem, hphase, hfile⟩, h⟩ := Option.ite_none_right_eq_some.mp h
    cases h
    exact .check creating hmem hphase hfile
  case refuse creating =>
    obtain ⟨hmem, h⟩ := Option.ite_none_right_eq_some.mp h
    cases h
    exact .refuse creating hmem
  case createRoot creating jobId =>
    obtain ⟨⟨hmem, hphase, hnew⟩, h⟩ := Option.ite_none_right_eq_some.mp h
    cases h
    exact .createRoot creating jobId hmem hphase hnew
  case enqueue creating jobId now =>
    obtain ⟨⟨hmem, hphase⟩, h⟩ := Option.ite_none_right_eq_some.mp h
    split at h
    · rename_i hnone
      cases h
      exact .enqueue creating jobId now hmem hphase hnone
    · rename_i hsome
      cases h
      exact .reject creating jobId now hmem hphase hsome
  all_goals cases h

theorem effect_of_execute (h : web.nextExecute config step = some next) : Effect config web step next := by
  unfold WebState.nextExecute at h
  cases step
  case acquire jobId =>
    obtain ⟨⟨hphase, hfree⟩, h⟩ := Option.ite_none_right_eq_some.mp h
    cases h
    exact .acquire jobId hphase hfree
  case mark jobId =>
    obtain ⟨hphase, h⟩ := Option.ite_none_right_eq_some.mp h
    cases h
    exact .mark jobId hphase
  case snapshot jobId =>
    obtain ⟨hphase, h⟩ := Option.ite_none_right_eq_some.mp h
    split at h
    · rename_i job hjob
      cases h
      exact .snapshot jobId job hphase hjob
    · rename_i hmissing
      cases h
      exact .missing jobId hphase hmissing
  case write jobId path kind =>
    dsimp only at h
    split at h
    · rename_i job hphase
      obtain ⟨htouches, h⟩ := Option.ite_none_right_eq_some.mp h
      cases h
      exact .write jobId path kind job hphase htouches
    · cases h
  case unlink jobId path =>
    dsimp only at h
    split at h
    · rename_i job hphase
      obtain ⟨htouches, h⟩ := Option.ite_none_right_eq_some.mp h
      cases h
      exact .unlink jobId path job hphase htouches
    · cases h
  case release jobId succeeded =>
    dsimp only at h
    split at h
    · rename_i job hphase
      cases h
      exact .release jobId succeeded job hphase
    · cases h
  all_goals cases h

theorem effect_of_finish (h : web.nextFinish config step = some next) : Effect config web step next := by
  unfold WebState.nextFinish at h
  cases step
  case lookupJob jobId =>
    dsimp only at h
    split at h
    · rename_i succeeded hphase
      cases h
      exact .lookupJob jobId succeeded hphase
    · cases h
  case unregister jobId =>
    dsimp only at h
    split at h
    · rename_i succeeded hphase
      cases h
      exact .unregisterNone jobId succeeded hphase
    · rename_i succeeded uploadId hphase
      cases h
      exact .unregister jobId succeeded uploadId hphase
    · cases h
  case removeInput jobId =>
    dsimp only at h
    split at h
    · rename_i succeeded hphase
      cases h
      exact .removeNone jobId succeeded hphase
    · rename_i succeeded path hphase
      cases h
      exact .removeInput jobId succeeded path hphase
    · cases h
  case conclude jobId now =>
    dsimp only at h
    split at h
    · rename_i succeeded hphase
      split at h
      · rename_i hmissing
        cases h
        exact .concludeNone jobId succeeded now hphase hmissing
      · rename_i job hjob
        cases h
        exact .conclude jobId succeeded now job hphase hjob
    · cases h
  all_goals cases h

theorem effect_of_sweep (h : web.nextSweep step = some next) : Effect config web step next := by
  unfold WebState.nextSweep at h
  cases step
  case sweepUploads now =>
    cases h
    exact .sweepUploads now
  case sweepJobs now =>
    obtain ⟨hmem, h⟩ := Option.ite_none_right_eq_some.mp h
    cases h
    exact .sweepJobs now hmem
  all_goals cases h

theorem effect_of_package (h : web.nextPackage config step = some next) : Effect config web step next := by
  unfold WebState.nextPackage at h
  cases step
  case openDownload jobId =>
    dsimp only at h
    split at h
    · rename_i job hjob
      obtain ⟨hstate, h⟩ := Option.ite_none_right_eq_some.mp h
      cases h
      exact .openDownload jobId job hjob hstate
    · cases h
  case inspectOutput packaging =>
    dsimp only at h
    split at h
    · rename_i archivePath hphase
      obtain ⟨⟨hmem, -⟩, h⟩ := Option.ite_none_right_eq_some.mp h
      cases h
      exact .inspectOutput packaging archivePath hphase hmem
    · cases h
  case inspectArchive packaging =>
    dsimp only at h
    split at h
    · rename_i archivePath hphase
      obtain ⟨⟨hmem, -⟩, h⟩ := Option.ite_none_right_eq_some.mp h
      cases h
      exact .inspectArchive packaging archivePath hphase hmem
    · cases h
  case createArchive packaging =>
    obtain ⟨⟨hmem, hphase⟩, h⟩ := Option.ite_none_right_eq_some.mp h
    cases h
    exact .createArchive packaging hmem hphase
  case giveUp packaging =>
    obtain ⟨hmem, h⟩ := Option.ite_none_right_eq_some.mp h
    cases h
    exact .giveUp packaging hmem
  case cacheArchive packaging =>
    obtain ⟨⟨hmem, hphase⟩, h⟩ := Option.ite_none_right_eq_some.mp h
    cases h
    exact .cacheArchive packaging hmem hphase
  all_goals cases h

/-- **Every step** has one of the effects. -/
theorem effect_of_step (h : Step config web step next) : Effect config web step next := by
  rcases next_cases h with h | h | h | h | h | h
  · exact effect_of_upload h
  · exact effect_of_create h
  · exact effect_of_execute h
  · exact effect_of_finish h
  · exact effect_of_sweep h
  · exact effect_of_package h

end Anole.Web
