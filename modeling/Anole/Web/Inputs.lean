import Anole.Web.Records

/-!
# The inputs of web jobs

`finish_web_job` removes the upload of a job since "the uploaded input served exactly this one
conversion" (`web.rs`, lines 848–862), and `sweep_expired` removes an upload whose time is over. But
any number of jobs can be created from one upload, and an upload expires while a job waits. What is
more, the input is removed before the job is in its last state.

* `inputs_kept`: when the file at the input path of every active job is there.
-/

open Common

namespace Anole.Web

variable {config : WebConfig} {web next : WebState} {step : WebStep} {steps : List WebStep} {phase : ExecutionPhase}
  {jobId : Uuid} {job job' : WebJob}

/-! ## What the steps must keep apart -/

/-- The files beside an output that is no upload are no uploads. -/
structure WebConfig.Local (config : WebConfig) : Prop where
  zip : ∀ output, output.isUpload = false → (config.withExtensionZip output).isUpload = false
  touches : ∀ output path, output.isUpload = false → config.touches output path = true → path.isUpload = false

/-- The jobs are made from uploads of their own that are still recorded, and not to the path of an
    upload; and no upload of an active job is swept. -/
def KeepsApart (config : WebConfig) (web : WebState) : WebStep → Prop
  | .enqueue creating jobId _ => creating.record ∈ web.uploads ∧
      (∀ job ∈ web.jobs, job.isActive = true → job.uploadId ≠ creating.record.uploadId) ∧
      (config.plannedOutputPath jobId creating.record creating.target).isUpload = false
  | .sweepUploads now => ∀ record ∈ web.uploads, record.expiresAt ≤ now →
      ∀ job ∈ web.jobs, job.isActive = true → job.uploadId ≠ record.uploadId
  | _ => True

/-- The uploads that are recorded or received are stored. -/
structure Stored (web : WebState) : Prop where
  recorded : ∀ record ∈ web.uploads, isFile web.files record.storedPath = true
  received : ∀ uploading ∈ web.uploading, isFile web.files uploading.storedPath = true

/-- The upload of a job is recorded. -/
def Registered (web : WebState) (job : WebJob) : Prop :=
  ∃ record ∈ web.uploads, record.uploadId = job.uploadId ∧ record.storedPath = job.inputPath

/-- What there is of the upload of a job in a phase of its execution. -/
def Held (web : WebState) (job : WebJob) : ExecutionPhase → Prop
  | .waiting | .acquired | .marked | .converting _ | .released _ => Registered web job
  | .looked _ uploadId => uploadId = some job.uploadId ∧ Registered web job
  | .unregistered _ path => path = some job.inputPath ∧ isFile web.files job.inputPath = true ∧
      ∀ record ∈ web.uploads, record.uploadId ≠ job.uploadId
  | .cleared _ => isFile web.files job.inputPath = false ∧ ∀ record ∈ web.uploads, record.uploadId ≠ job.uploadId

/-- The active jobs have uploads of their own, and hold them. -/
structure Inputs (web : WebState) : Prop where
  own : ∀ job ∈ web.jobs, job.isActive = true → job.uploadId ∈ web.drawn ∧ job.inputPath.OfUpload job.uploadId ∧
    ∀ uploading ∈ web.uploading, uploading.uploadId ≠ job.uploadId
  distinct : ∀ job ∈ web.jobs, ∀ other ∈ web.jobs, job.isActive = true → other.isActive = true →
    job.uploadId = other.uploadId → job.jobId = other.jobId
  held : ∀ execution ∈ web.executions, ∀ job ∈ web.jobs, job.jobId = execution.jobId → Held web job execution.phase

/-! ## Steps -/

theorem Sound.isActive (h : Sound config web) {execution : Execution} {job : WebJob}
    (hexecution : execution ∈ web.executions) (hjob : job ∈ web.jobs) (hid : job.jobId = execution.jobId) :
    job.isActive = true := by
  obtain ⟨own, hown, hownId, hstate⟩ := h.executed execution hexecution
  cases h.jobs.eq hjob hown (hid.trans hownId.symm)
  rw [WebJob.isActive, hstate]
  cases execution.phase <;> rfl

theorem Registered.mono (h : Registered web job)
    (hkeeps : ∀ record ∈ web.uploads, record.uploadId = job.uploadId → record ∈ next.uploads)
    (hid : job'.uploadId = job.uploadId) (hpath : job'.inputPath = job.inputPath) : Registered next job' := by
  obtain ⟨record, hrecord, hrecordId, hrecordPath⟩ := h
  exact ⟨record, hkeeps record hrecord hrecordId, hrecordId.trans hid.symm, hrecordPath.trans hpath.symm⟩

/-- The records and the file of a job's own upload are the same. -/
theorem Held.mono (h : Held web job phase)
    (hkeeps : ∀ record ∈ web.uploads, record.uploadId = job.uploadId → record ∈ next.uploads)
    (hback : ∀ record ∈ next.uploads, record.uploadId = job.uploadId → record ∈ web.uploads)
    (hfile : isFile next.files job.inputPath = isFile web.files job.inputPath)
    (hid : job'.uploadId = job.uploadId) (hpath : job'.inputPath = job.inputPath) : Held next job' phase := by
  have hnone : (∀ record ∈ web.uploads, record.uploadId ≠ job.uploadId) →
      ∀ record ∈ next.uploads, record.uploadId ≠ job.uploadId := by
    intro hwas record hrecord heq
    exact hwas record (hback record hrecord heq) heq
  cases phase with
  | waiting | acquired | marked | converting | released =>
    have hregistered : Registered web job := h
    exact hregistered.mono hkeeps hid hpath
  | looked =>
    obtain ⟨hown, hregistered⟩ := h
    exact ⟨hown.trans (congrArg some hid.symm), hregistered.mono hkeeps hid hpath⟩
  | unregistered =>
    obtain ⟨hown, hthere, hrecords⟩ := h
    rw [Held, hid, hpath, hfile]
    exact ⟨hown, hthere, hnone hrecords⟩
  | cleared =>
    obtain ⟨hgone, hrecords⟩ := h
    rw [Held, hid, hpath, hfile]
    exact ⟨hgone, hnone hrecords⟩

theorem Held.same (h : Held web job phase)
    (huploads : next.uploads = web.uploads)
    (hfile : isFile next.files job.inputPath = isFile web.files job.inputPath)
    (hid : job'.uploadId = job.uploadId) (hpath : job'.inputPath = job.inputPath) : Held next job' phase :=
  h.mono (fun _ hrecord _ => huploads ▸ hrecord) (fun _ hrecord _ => huploads ▸ hrecord) hfile hid hpath

theorem Stored.frame (h : Stored web) (hidentified : Identified web) (huploads : next.uploads = web.uploads)
    (huploading : next.uploading.Sublist web.uploading) (hfiles : SameOn WebPath.isUpload web.files next.files) : Stored next where
  recorded := by
    rw [huploads]
    intro record hrecord
    obtain ⟨-, hpath⟩ := hidentified.recorded record hrecord
    exact (hfiles.isFile hpath.isUpload).trans (h.recorded record hrecord)
  received uploading hmem :=
    (hfiles.isFile uploading.ofUpload.isUpload).trans (h.received uploading (huploading.subset hmem))

/-- Some uploads are no longer recorded, and files at other paths are removed. -/
theorem Stored.forget (h : Stored web) (huploads : next.uploads.Sublist web.uploads)
    (huploading : next.uploading.Sublist web.uploading)
    (hrecords : ∀ record ∈ next.uploads, isFile next.files record.storedPath = isFile web.files record.storedPath)
    (hreceived : ∀ uploading ∈ next.uploading,
      isFile next.files uploading.storedPath = isFile web.files uploading.storedPath) : Stored next where
  recorded record hrecord := (hrecords record hrecord).trans (h.recorded record (huploads.subset hrecord))
  received uploading hmem := (hreceived uploading hmem).trans (h.received uploading (huploading.subset hmem))

/-- The jobs are those of before, as far as their inputs go. -/
theorem Inputs.of_jobs (h : Inputs web)
    (hjobs : ∀ job' ∈ next.jobs, ∃ job ∈ web.jobs, job'.jobId = job.jobId ∧ job'.uploadId = job.uploadId ∧
      job'.inputPath = job.inputPath ∧ (job'.isActive = true → job.isActive = true))
    (huploading : ∀ uploading ∈ next.uploading, uploading ∈ web.uploading ∨ uploading.uploadId ∉ web.drawn)
    (hdrawn : ∀ id ∈ web.drawn, id ∈ next.drawn)
    (hheld : ∀ execution ∈ next.executions, ∀ job ∈ next.jobs, job.jobId = execution.jobId →
      Held next job execution.phase) : Inputs next where
  own := by
    intro job' hjob' hactive
    obtain ⟨job, hjob, -, hupload, hpath, hwas⟩ := hjobs job' hjob'
    obtain ⟨hdraw, hof, hother⟩ := h.own job hjob (hwas hactive)
    rw [hupload, hpath]
    refine ⟨hdrawn _ hdraw, hof, fun uploading hmem heq => ?_⟩
    rcases huploading uploading hmem with hold | hnew
    · exact hother uploading hold heq
    · exact hnew (heq ▸ hdraw)
  distinct := by
    intro job₁ h₁ job₂ h₂ hactive₁ hactive₂ hupload
    obtain ⟨was₁, hmem₁, hid₁, hupload₁, -, hwas₁⟩ := hjobs job₁ h₁
    obtain ⟨was₂, hmem₂, hid₂, hupload₂, -, hwas₂⟩ := hjobs job₂ h₂
    rw [hid₁, hid₂]
    exact h.distinct was₁ hmem₁ was₂ hmem₂ (hwas₁ hactive₁) (hwas₂ hactive₂)
      (hupload₁.symm.trans (hupload.trans hupload₂))
  held := hheld

theorem same_jobs (hjobs : next.jobs = web.jobs) : ∀ job' ∈ next.jobs, ∃ job ∈ web.jobs, job'.jobId = job.jobId ∧
    job'.uploadId = job.uploadId ∧ job'.inputPath = job.inputPath ∧ (job'.isActive = true → job.isActive = true) :=
  fun job hjob => ⟨job, hjobs ▸ hjob, rfl, rfl, rfl, id⟩

/-- A step that changes neither jobs, executions nor uploads. -/
theorem Inputs.frame (h : Inputs web) (hsound : Sound config web) (hjobs : next.jobs = web.jobs)
    (hexecutions : next.executions = web.executions) (huploads : next.uploads = web.uploads)
    (huploading : ∀ uploading ∈ next.uploading, uploading ∈ web.uploading ∨ uploading.uploadId ∉ web.drawn)
    (hdrawn : ∀ id ∈ web.drawn, id ∈ next.drawn)
    (hfiles : ∀ job ∈ web.jobs, job.isActive = true →
      isFile next.files job.inputPath = isFile web.files job.inputPath) : Inputs next := by
  refine h.of_jobs (same_jobs hjobs) huploading hdrawn ?_
  rw [hexecutions, hjobs]
  intro execution hexecution job hjob hid
  exact (h.held execution hexecution job hjob hid).same huploads
    (hfiles job hjob (hsound.isActive hexecution hjob hid)) rfl rfl

theorem Inputs.files (h : Inputs web) (hfiles : SameOn WebPath.isUpload web.files next.files) : ∀ job ∈ web.jobs,
    job.isActive = true → isFile next.files job.inputPath = isFile web.files job.inputPath := by
  intro job hjob hactive
  obtain ⟨-, hpath, -⟩ := h.own job hjob hactive
  exact hfiles.isFile hpath.isUpload

theorem Inputs.move (h : Inputs web) (hsound : Sound config web) {phase phase' : ExecutionPhase}
    (hphase : web.phase? jobId = some phase) (hexecutions : next.executions = web.advance jobId phase')
    (hjobs : next.jobs = web.jobs) (huploading : next.uploading = web.uploading) (hdrawn : next.drawn = web.drawn)
    (hothers : ∀ job ∈ web.jobs, job.jobId ≠ jobId → job.isActive = true → ∀ phase, Held web job phase →
      Held next job phase)
    (hmoved : ∀ job ∈ web.jobs, job.jobId = jobId → job.isActive = true → Held web job phase →
      Held next job phase') : Inputs next := by
  refine h.of_jobs (same_jobs hjobs) ?_ ?_ ?_
  · rw [huploading]
    exact fun uploading hmem => .inl hmem
  · rw [hdrawn]
    exact fun id hid => hid
  · intro execution hexecution job hjob hid
    rw [hexecutions] at hexecution
    rw [hjobs] at hjob
    rcases mem_advance hexecution with ⟨hother, hne⟩ | rfl
    · exact hothers job hjob (hid ▸ hne) (hsound.isActive hother hjob hid) _ (h.held execution hother job hjob hid)
    · have hmem := phase_eq_some hphase
      exact hmoved job hjob hid (hsound.isActive hmem hjob hid) (h.held _ hmem job hjob hid)

/-- An execution moves, and the uploads stay as they are. -/
theorem Inputs.moveOn (h : Inputs web) (hsound : Sound config web) {phase phase' : ExecutionPhase}
    (hphase : web.phase? jobId = some phase) (hexecutions : next.executions = web.advance jobId phase')
    (hjobs : next.jobs = web.jobs) (huploading : next.uploading = web.uploading) (hdrawn : next.drawn = web.drawn)
    (huploads : next.uploads = web.uploads) (hfiles : next.files = web.files)
    (hheld : ∀ job, Held web job phase → Held web job phase') : Inputs next :=
  h.move hsound hphase hexecutions hjobs huploading hdrawn
    (fun _ _ _ _ _ hheld => hheld.same huploads (by rw [hfiles]) rfl rfl)
    fun _ _ _ _ hwas => (hheld _ hwas).same huploads (by rw [hfiles]) rfl rfl

/-- A job changes, but neither its upload nor whether it is executed. -/
theorem Inputs.update (h : Inputs web) (hsound : Sound config web) {f : WebJob → WebJob}
    (hjobs : next.jobs = web.updateJob jobId f)
    (hf : ∀ job, (f job).jobId = job.jobId ∧ (f job).uploadId = job.uploadId ∧ (f job).inputPath = job.inputPath ∧
      ((f job).isActive = true → job.isActive = true))
    (huploads : next.uploads = web.uploads) (huploading : next.uploading = web.uploading)
    (hdrawn : next.drawn = web.drawn) (hfiles : SameOn WebPath.isUpload web.files next.files)
    (hexecutions : ∀ execution ∈ next.executions, execution ∈ web.executions ∨
      ∃ was ∈ web.executions, was.jobId = execution.jobId ∧
        ∀ job, Held web job was.phase → Held web job execution.phase) : Inputs next := by
  have hwas : ∀ job' ∈ next.jobs, ∃ job ∈ web.jobs, job'.jobId = job.jobId ∧ job'.uploadId = job.uploadId ∧
      job'.inputPath = job.inputPath ∧ (job'.isActive = true → job.isActive = true) := by
    intro job' hjob'
    obtain ⟨job, hjob, ⟨-, heq⟩ | ⟨-, heq⟩⟩ := mem_updateJob (hjobs ▸ hjob')
    · exact ⟨job, hjob, heq ▸ hf job⟩
    · exact ⟨job, hjob, heq ▸ ⟨rfl, rfl, rfl, id⟩⟩
  refine h.of_jobs hwas ?_ ?_ ?_
  · rw [huploading]
    exact fun uploading hmem => .inl hmem
  · rw [hdrawn]
    exact fun id hid => hid
  · intro execution hexecution job' hjob' hid
    obtain ⟨job, hjob, hjobId, hupload, hpath, -⟩ := hwas job' hjob'
    rcases hexecutions execution hexecution with hold | ⟨was, hmem, hwasId, hheld⟩
    · have hown := hjobId.symm.trans hid
      exact (h.held execution hold job hjob hown).same huploads
        (h.files hfiles job hjob (hsound.isActive hold hjob hown)) hupload hpath
    · have hown := hjobId.symm.trans (hid.trans hwasId.symm)
      exact (hheld job (h.held was hmem job hjob hown)).same huploads
        (h.files hfiles job hjob (hsound.isActive hmem hjob hown)) hupload hpath

/-- A job is enqueued from an upload that no active job has. -/
theorem Inputs.enqueue (h : Inputs web) (job : WebJob) (hidentified : Identified web) (hsound : Sound config web)
    {record : UploadRecord} (hrecord : record ∈ web.uploads)
    (halone : ∀ other ∈ web.jobs, other.isActive = true → other.uploadId ≠ record.uploadId)
    (hnew : ∀ other ∈ web.jobs, other.jobId ≠ job.jobId) (hupload : job.uploadId = record.uploadId)
    (hpath : job.inputPath = record.storedPath) (hjobs : next.jobs = web.jobs ++ [job])
    (hexecutions : next.executions = web.executions ++ [⟨job.jobId, .waiting⟩])
    (huploads : next.uploads = web.uploads) (huploading : next.uploading = web.uploading)
    (hdrawn : next.drawn = web.drawn) (hfiles : next.files = web.files) : Inputs next := by
  have hsplit : ∀ {other}, other ∈ next.jobs → other ∈ web.jobs ∨ other = job := by
    intro other hother
    rw [hjobs] at hother
    simpa using hother
  obtain ⟨hdraw, hof⟩ := hidentified.recorded record hrecord
  constructor
  · intro other hother hactive
    rw [hdrawn, huploading]
    rcases hsplit hother with hold | hmine
    · exact h.own other hold hactive
    · rw [hmine, hupload, hpath]
      exact ⟨hdraw, hof, fun uploading hmem heq => (hidentified.received uploading hmem).2 record hrecord heq.symm⟩
  · intro job₁ h₁ job₂ h₂ hactive₁ hactive₂ heq
    rcases hsplit h₁ with hold₁ | rfl
    · rcases hsplit h₂ with hold₂ | rfl
      · exact h.distinct job₁ hold₁ job₂ hold₂ hactive₁ hactive₂ heq
      · exact absurd (heq.trans hupload) (halone job₁ hold₁ hactive₁)
    · rcases hsplit h₂ with hold₂ | hsame₂
      · exact absurd (heq.symm.trans hupload) (halone job₂ hold₂ hactive₂)
      · rw [hsame₂]
  · intro execution hexecution other hother hid
    rw [hexecutions] at hexecution
    rcases List.mem_append.mp hexecution with hold | hmine
    · obtain ⟨own, hown, hownId, -⟩ := hsound.executed execution hold
      rcases hsplit hother with hwas | rfl
      · exact (h.held execution hold other hwas hid).same huploads (by rw [hfiles]) rfl rfl
      · exact absurd (hownId.trans hid.symm) (hnew own hown)
    · cases List.mem_singleton.mp hmine
      rcases hsplit hother with hwas | hmine
      · exact absurd hid (hnew other hwas)
      · rw [hmine]
        exact ⟨record, huploads ▸ hrecord, hupload.symm, hpath.symm⟩

/-! ## What every step keeps -/

/-- The files, the uploads and the jobs agree. -/
structure Agrees (config : WebConfig) (web : WebState) : Prop where
  sound : Sound config web
  identified : Identified web
  outputs : Outputs (fun path => path.isUpload = false) web
  stored : Stored web
  inputs : Inputs web

theorem agrees_initial : Agrees config config.initial where
  sound := sound_initial
  identified := identified_initial
  outputs := outputs_initial
  stored := {
    recorded := fun _ hrecord => absurd hrecord List.not_mem_nil
    received := fun _ huploading => absurd huploading List.not_mem_nil }
  inputs := {
    own := fun _ hjob => absurd hjob List.not_mem_nil
    distinct := fun _ hjob => absurd hjob List.not_mem_nil
    held := fun _ hexecution => absurd hexecution List.not_mem_nil }

/-- An execution is that of an active job, which holds its upload. -/
theorem Agrees.holder (h : Agrees config web)
    (hphase : web.phase? jobId = some phase) :
    ∃ own ∈ web.jobs, own.jobId = jobId ∧ own.isActive = true ∧ Held web own phase := by
  have hexecution := phase_eq_some hphase
  obtain ⟨own, hown, hid, -⟩ := h.sound.executed _ hexecution
  exact ⟨own, hown, hid, h.sound.isActive hexecution hown hid, h.inputs.held _ hexecution own hown hid⟩

theorem Agrees.stored_step (h : Agrees config web) (hlocal : config.Local) (heffect : Effect config web step next) :
    Stored next := by
  have hidentified := h.identified
  have hstored := h.stored
  have hrefl : SameOn WebPath.isUpload web.files web.files := .refl
  cases heffect with
  | receive uploading hnew =>
    refine ⟨fun record hrecord => ?_, fun other hother => ?_⟩
    · obtain ⟨hdraw, hpath⟩ := hidentified.recorded record hrecord
      exact (isFile_put_of_ne (hpath.ne uploading.ofUpload fun heq => hnew (heq ▸ hdraw))).trans
        (hstored.recorded record hrecord)
    · rcases List.mem_append.mp hother with hold | hmine
      · have hne : other.uploadId ≠ uploading.uploadId := fun heq => hnew (heq ▸ (hidentified.received other hold).1)
        exact (isFile_put_of_ne (other.ofUpload.ne uploading.ofUpload hne)).trans (hstored.received other hold)
      · rw [List.mem_singleton.mp hmine]
        exact isFile_put
  | breakOff uploading hmem => exact hstored.frame hidentified rfl List.erase_sublist hrefl
  | exceed uploading hmem =>
    refine hstored.forget (List.Sublist.refl _) List.erase_sublist (fun record hrecord => ?_) fun other hother => ?_
    · exact isFile_removeFile_of_ne ((hidentified.recorded record hrecord).2.ne uploading.ofUpload
        ((hidentified.received uploading hmem).2 record hrecord))
    · exact isFile_removeFile_of_ne (other.ofUpload.ne uploading.ofUpload (hidentified.ne_of_mem_erase hmem hother))
  | record uploading now hmem =>
    refine ⟨fun record hrecord => ?_, fun other hother => hstored.received other (List.mem_of_mem_erase hother)⟩
    rcases List.mem_append.mp hrecord with hold | hmine
    · exact hstored.recorded record hold
    · rw [List.mem_singleton.mp hmine]
      exact hstored.received uploading hmem
  | createRoot creating jobId =>
    exact hstored.frame hidentified rfl (List.Sublist.refl _) (sameOn_put rfl)
  | write jobId path kind job hphase htouches =>
    have hpath := hlocal.touches _ _ (h.outputs.converted _ (phase_eq_some hphase) job rfl) htouches
    exact hstored.frame hidentified rfl (List.Sublist.refl _) (sameOn_put hpath)
  | unlink jobId path job hphase htouches =>
    have hpath := hlocal.touches _ _ (h.outputs.converted _ (phase_eq_some hphase) job rfl) htouches
    exact hstored.frame hidentified rfl (List.Sublist.refl _) (sameOn_remove hpath)
  | unregister jobId succeeded uploadId hphase =>
    exact hstored.forget List.filter_sublist (List.Sublist.refl _) (fun _ _ => rfl) fun _ _ => rfl
  | removeInput jobId succeeded path hphase =>
    -- the path is that of the job's own upload, which is not recorded
    obtain ⟨job, hjob, hid, hactive, hown, -, hrecords⟩ := h.holder hphase
    obtain ⟨-, hpath, hreceived⟩ := h.inputs.own job hjob hactive
    cases hown
    refine hstored.forget (List.Sublist.refl _) (List.Sublist.refl _) (fun record hrecord => ?_) fun uploading hmem => ?_
    · exact isFile_removeFile_of_ne ((hidentified.recorded record hrecord).2.ne hpath (hrecords record hrecord))
    · exact isFile_removeFile_of_ne (uploading.ofUpload.ne hpath (hreceived uploading hmem))
  | conclude jobId succeeded now job hphase hjob =>
    obtain ⟨houtput, harchive⟩ := h.outputs.jobs job (job_eq_some hjob).1
    refine hstored.frame hidentified rfl (List.Sublist.refl _) ?_
    cases succeeded
    · exact sameOn_removeOutputArtifacts isUpload_upward houtput harchive
    · exact hrefl
  | sweepUploads now =>
    refine hstored.forget List.filter_sublist (List.Sublist.refl _)
      (fun record hrecord => isFile_sweep fun other hother => ?_)
      fun uploading hmem => isFile_sweep fun other hother => ?_
    · obtain ⟨hold, hlater⟩ := List.mem_filter.mp hrecord
      obtain ⟨hmem, hpassed⟩ := List.mem_filter.mp hother
      refine (hidentified.recorded record hold).2.ne (hidentified.recorded other hmem).2 fun heq => ?_
      cases hidentified.records.eq hold hmem heq
      simp only [decide_eq_true_eq] at hlater hpassed
      exact hpassed hlater
    · have hold := List.mem_of_mem_filter hother
      refine uploading.ofUpload.ne (hidentified.recorded other hold).2 fun heq => ?_
      exact (hidentified.received uploading hmem).2 other hold heq.symm
  | sweepJobs now hmem =>
    exact hstored.frame hidentified rfl (List.Sublist.refl _)
      (sameOn_sweep isUpload_upward fun job hjob => h.outputs.jobs job (List.mem_of_mem_filter hjob))
  | createArchive packaging hmem =>
    have hzip := hlocal.zip _ (h.outputs.packaged packaging hmem)
    exact hstored.frame hidentified rfl (List.Sublist.refl _) (sameOn_put hzip)
  | lookupUpload | check | refuse | enqueue | reject | acquire | mark | snapshot | missing | release | lookupJob
  | unregisterNone | removeNone | concludeNone | openDownload | inspectOutput | inspectArchive | giveUp
  | cacheArchive => exact hstored.frame hidentified rfl (List.Sublist.refl _) hrefl

theorem Agrees.inputs_step (h : Agrees config web) (hlocal : config.Local) (hapart : KeepsApart config web step)
    (heffect : Effect config web step next) : Inputs next := by
  have hsound := h.sound
  have hidentified := h.identified
  have hinputs := h.inputs
  have hreceiving : ∀ uploading ∈ web.uploading, uploading ∈ web.uploading ∨ uploading.uploadId ∉ web.drawn :=
    fun _ hmem => .inl hmem
  cases heffect with
  | receive uploading hnew =>
    refine hinputs.frame hsound rfl rfl rfl (fun other hother => ?_) (fun _ hid => List.mem_cons_of_mem _ hid)
      fun job hjob hactive => ?_
    · rcases List.mem_append.mp hother with hold | hmine
      · exact .inl hold
      · exact .inr (List.mem_singleton.mp hmine ▸ hnew)
    · obtain ⟨hdraw, hpath, -⟩ := hinputs.own job hjob hactive
      have hne := hpath.ne uploading.ofUpload fun heq => hnew (heq ▸ hdraw)
      exact isFile_put_of_ne hne
  | breakOff uploading hmem =>
    exact hinputs.frame hsound rfl rfl rfl (fun _ hother => .inl (List.mem_of_mem_erase hother)) (fun _ hid => hid)
      fun _ _ _ => rfl
  | exceed uploading hmem =>
    refine hinputs.frame hsound rfl rfl rfl (fun _ hother => .inl (List.mem_of_mem_erase hother)) (fun _ hid => hid)
      fun job hjob hactive => ?_
    obtain ⟨-, hpath, hother⟩ := hinputs.own job hjob hactive
    exact isFile_removeFile_of_ne (hpath.ne uploading.ofUpload (hother uploading hmem).symm)
  | record uploading now hmem =>
    refine hinputs.of_jobs (same_jobs rfl) (fun _ hother => .inl (List.mem_of_mem_erase hother)) (fun _ hid => hid)
      fun execution hexecution job hjob hid => ?_
    obtain ⟨-, -, hother⟩ := hinputs.own job hjob (hsound.isActive hexecution hjob hid)
    refine (hinputs.held execution hexecution job hjob hid).mono (fun _ hrecord _ => List.mem_append_left _ hrecord)
      (fun record hrecord heq => ?_) rfl rfl rfl
    rcases List.mem_append.mp hrecord with hold | hmine
    · exact hold
    · cases List.mem_singleton.mp hmine
      exact absurd heq (hother uploading hmem)
  | createRoot creating jobId =>
    exact hinputs.frame hsound rfl rfl rfl hreceiving (fun _ hid => List.mem_cons_of_mem _ hid)
      (hinputs.files (sameOn_put rfl))
  | write jobId path kind job hphase htouches =>
    have hpath := hlocal.touches _ _ (h.outputs.converted _ (phase_eq_some hphase) job rfl) htouches
    exact hinputs.frame hsound rfl rfl rfl hreceiving (fun _ hid => hid) (hinputs.files (sameOn_put hpath))
  | unlink jobId path job hphase htouches =>
    have hpath := hlocal.touches _ _ (h.outputs.converted _ (phase_eq_some hphase) job rfl) htouches
    exact hinputs.frame hsound rfl rfl rfl hreceiving (fun _ hid => hid) (hinputs.files (sameOn_remove hpath))
  | enqueue creating jobId now hmem hphase hnone =>
    obtain ⟨hrecord, halone, -⟩ := hapart
    have hrooted : jobId ∈ web.rooted := List.mem_filterMap.mpr ⟨creating, hmem, by rw [Creating.rooted?, hphase]⟩
    exact hinputs.enqueue (creating.job config jobId now) hidentified hsound hrecord halone
      (hsound.fresh jobId hrooted).2 rfl rfl rfl rfl rfl rfl rfl rfl
  | acquire jobId hphase | release jobId _ _ hphase =>
    exact hinputs.moveOn hsound hphase rfl rfl rfl rfl rfl rfl fun _ hheld => hheld
  | mark jobId hphase =>
    refine hinputs.update hsound rfl (fun job => ?_) rfl rfl rfl .refl fun execution hexecution => ?_
    · split
      · rename_i hqueued
        exact ⟨rfl, rfl, rfl, fun _ => by simp [WebJob.isActive, hqueued]⟩
      · exact ⟨rfl, rfl, rfl, id⟩
    · rcases mem_advance hexecution with ⟨hold, -⟩ | rfl
      · exact .inl hold
      · exact .inr ⟨_, phase_eq_some hphase, rfl, fun _ hheld => hheld⟩
  | snapshot jobId job hphase hjob =>
    exact hinputs.moveOn hsound hphase rfl rfl rfl rfl rfl rfl fun _ hheld => hheld
  | lookupJob jobId succeeded hphase =>
    refine hinputs.move hsound hphase rfl rfl rfl rfl (fun _ _ _ _ _ hheld => hheld.same rfl rfl rfl rfl)
      fun job hjob hid _ hregistered =>
        ⟨?_, Registered.mono (show Registered web job from hregistered) (fun _ hrecord _ => hrecord) rfl rfl⟩
    have hfind := (hsound.jobs.find?_eq_some (c := jobId)).mpr ⟨hjob, hid⟩
    rw [WebState.job?, hfind, Option.map_some]
  | unregister jobId succeeded uploadId hphase =>
    obtain ⟨own, hown, hownId, hactive, hupload, hregistered⟩ := h.holder hphase
    cases hupload
    refine hinputs.move hsound hphase rfl rfl rfl rfl (fun job hjob hne hjobActive _ hheld => ?_)
      fun job hjob hid _ _ => ?_
    · -- another job has another upload
      refine hheld.mono (fun record hrecord heq => Table.mem_delete.mpr ⟨hrecord, ?_⟩)
        (fun _ hrecord _ => (Table.mem_delete.mp hrecord).1) rfl rfl rfl
      refine decide_eq_false fun hsame => hne ?_
      exact (hinputs.distinct job hjob own hown hjobActive hactive (heq.symm.trans hsame)).trans hownId
    · cases hsound.jobs.eq hjob hown (hid.trans hownId.symm)
      obtain ⟨record, hrecord, hrecordId, hrecordPath⟩ := hregistered
      have hfind := (hidentified.records.find?_eq_some).mpr ⟨hrecord, hrecordId⟩
      refine ⟨?_, ?_, fun other hother => ?_⟩
      · rw [hfind, Option.map_some, hrecordPath]
      · exact hrecordPath ▸ h.stored.recorded record hrecord
      · exact of_decide_eq_false (Table.mem_delete.mp hother).2
  | removeInput jobId succeeded path hphase =>
    obtain ⟨own, hown, hownId, hactive, hpath, -, -⟩ := h.holder hphase
    cases hpath
    refine hinputs.move hsound hphase rfl rfl rfl rfl (fun job hjob hne hjobActive _ hheld => ?_)
      fun job hjob hid _ hheld => ?_
    · refine hheld.same rfl (isFile_removeFile_of_ne ?_) rfl rfl
      refine (hinputs.own job hjob hjobActive).2.1.ne (hinputs.own own hown hactive).2.1 fun hsame => hne ?_
      exact (hinputs.distinct job hjob own hown hjobActive hactive hsame).trans hownId
    · cases hsound.jobs.eq hjob hown (hid.trans hownId.symm)
      exact ⟨isFile_removeFile, hheld.2.2⟩
  | unregisterNone jobId succeeded hphase =>
    -- the job of an execution was found
    obtain ⟨own, -, -, -, hupload, -⟩ := h.holder hphase
    cases hupload
  | removeNone jobId succeeded hphase =>
    obtain ⟨own, -, -, -, hpath, -⟩ := h.holder hphase
    cases hpath
  | missing _ hphase hnone | concludeNone _ _ _ hphase hnone => exact absurd hnone (hsound.job_ne_none hphase)
  | conclude jobId succeeded now job hphase hjob =>
    refine hinputs.update hsound rfl (fun other => ⟨rfl, rfl, rfl, fun hactive => ?_⟩) rfl rfl rfl ?_
      fun execution hexecution => .inl (Table.mem_delete.mp hexecution).1
    · cases succeeded <;> cases hactive
    · obtain ⟨houtput, harchive⟩ := h.outputs.jobs job (job_eq_some hjob).1
      cases succeeded
      · exact sameOn_removeOutputArtifacts isUpload_upward houtput harchive
      · exact .refl
  | sweepUploads now =>
    refine hinputs.of_jobs (same_jobs rfl) hreceiving (fun _ hid => hid) fun execution hexecution job hjob hid => ?_
    have hactive := hsound.isActive hexecution hjob hid
    refine (hinputs.held execution hexecution job hjob hid).mono
      (fun record hrecord heq => List.mem_filter.mpr ⟨hrecord, ?_⟩)
      (fun _ hrecord _ => List.mem_of_mem_filter hrecord) (isFile_sweep fun record hrecord => ?_) rfl rfl
    · rw [decide_eq_true_eq]
      by_contra hpassed
      exact hapart record hrecord (Nat.not_lt.mp hpassed) job hjob hactive heq.symm
    · obtain ⟨hmem, hpassed⟩ := List.mem_filter.mp hrecord
      rw [decide_eq_true_eq] at hpassed
      exact (hinputs.own job hjob hactive).2.1.ne (hidentified.recorded record hmem).2
        (hapart record hmem (Nat.not_lt.mp hpassed) job hjob hactive)
  | sweepJobs now hmem =>
    have hkept : ∀ {job : WebJob}, job ∈ (web.jobs.filter fun job => job.isActive || decide (now < job.expiresAt)) →
        job ∈ web.jobs := fun hjob => List.mem_of_mem_filter hjob
    refine hinputs.of_jobs (fun job hjob => ⟨job, hkept hjob, rfl, rfl, rfl, id⟩) hreceiving (fun _ hid => hid)
      fun execution hexecution job hjob hid => ?_
    refine (hinputs.held execution hexecution job (hkept hjob) hid).same rfl ?_ rfl rfl
    exact hinputs.files (sameOn_sweep isUpload_upward fun other hother => h.outputs.jobs other (List.mem_of_mem_filter hother))
      job (hkept hjob) (hsound.isActive hexecution (hkept hjob) hid)
  | createArchive packaging hmem =>
    exact hinputs.frame hsound rfl rfl rfl hreceiving (fun _ hid => hid)
      (hinputs.files (sameOn_put (hlocal.zip _ (h.outputs.packaged packaging hmem))))
  | cacheArchive packaging hmem =>
    exact hinputs.update hsound rfl (fun job => ⟨rfl, rfl, rfl, id⟩) rfl rfl rfl .refl
      fun execution hexecution => .inl hexecution
  | lookupUpload | check | refuse | reject | openDownload | inspectOutput | inspectArchive | giveUp =>
    exact hinputs.frame hsound rfl rfl rfl hreceiving (fun _ hid => hid) fun _ _ _ => rfl

theorem KeepsApart.planned (h : KeepsApart config web step) : ∀ creating jobId now, step = .enqueue creating jobId now →
    (config.plannedOutputPath jobId creating.record creating.target).isUpload = false := by
  rintro creating jobId now rfl
  exact h.2.2

theorem Agrees.kept (h : Agrees config web) (hlocal : config.Local) (hstep : Step config web step next)
    (hapart : KeepsApart config web step) : Agrees config next where
  sound := h.sound.kept hstep
  identified := h.identified.kept (effect_of_step hstep)
  outputs := h.outputs.kept hlocal.zip hapart.planned (effect_of_step hstep)
  stored := h.stored_step hlocal (effect_of_step hstep)
  inputs := h.inputs_step hlocal hapart (effect_of_step hstep)

theorem agrees_of_run (hlocal : config.Local)
    (h : Trace (fun web step next => Step config web step next ∧ KeepsApart config web step) config.initial steps web) :
    Agrees config web := by
  refine h.invariant agrees_initial ?_
  rintro s step t hs ⟨hstep, hapart⟩
  exact hs.kept hlocal hstep hapart

/-! ## When the inputs are there -/

/-- The upload of a recorded job's execution is there, unless the job has removed it itself. -/
theorem Agrees.isFile_iff (h : Agrees config web) {execution : Execution} {job : WebJob}
    (hexecution : execution ∈ web.executions) (hjob : job ∈ web.jobs) (hid : job.jobId = execution.jobId) :
    isFile web.files job.inputPath = true ↔ ∀ succeeded, execution.phase ≠ .cleared succeeded := by
  have hheld := h.inputs.held execution hexecution job hjob hid
  have hregistered : Registered web job → isFile web.files job.inputPath = true := by
    rintro ⟨record, hrecord, -, hpath⟩
    exact hpath ▸ h.stored.recorded record hrecord
  cases hphase : execution.phase with
  | cleared succeeded =>
    rw [hphase] at hheld
    have hgone : isFile web.files job.inputPath = false := hheld.1
    rw [hgone]
    exact iff_of_false nofun fun hnot => hnot succeeded rfl
  | waiting | acquired | marked | converting | released =>
    rw [hphase] at hheld
    exact iff_of_true (hregistered hheld) nofun
  | looked =>
    rw [hphase] at hheld
    exact iff_of_true (hregistered hheld.2) nofun
  | unregistered =>
    rw [hphase] at hheld
    exact iff_of_true hheld.2.1 nofun

/-- **In every run** whose jobs have uploads of their own, and whose sweeps remove no upload of an
    active job, the input of an active job is there exactly when the job is not between the removal
    of its input and its last state. -/
theorem inputs_kept (hlocal : config.Local)
    (h : Trace (fun web step next => Step config web step next ∧ KeepsApart config web step) config.initial steps web) :
    ∀ job ∈ web.jobs, job.isActive = true → (isFile web.files job.inputPath = true ↔
      ∀ succeeded, web.phase? job.jobId ≠ some (.cleared succeeded)) := by
  have hagrees := agrees_of_run hlocal h
  intro job hjob hactive
  obtain ⟨execution, hexecution, hid⟩ := hagrees.sound.active job hjob hactive
  have hphase : web.phase? job.jobId = some execution.phase := by
    rw [WebState.phase?, (hagrees.sound.executions.find?_eq_some).mpr ⟨hexecution, hid⟩, Option.map_some]
  rw [hagrees.isFile_iff hexecution hjob hid.symm, hphase]
  simp only [ne_eq, Option.some.injEq]

/-! ## One upload and two jobs -/

namespace InputsSample

open AdmissionSample

instance (web : WebState) (step : WebStep) : Decidable (KeepsApart oneSlot web step) := by
  cases step <;> unfold KeepsApart <;> infer_instance

/-- The files of two jobs, each beside its output. -/
theorem oneSlot_local : oneSlot.Local where
  zip := fun _ houtput => houtput
  touches := fun _ _ houtput htouches => of_decide_eq_true htouches ▸ houtput

def mail : UploadRecord := ⟨1, "mail.eml", .upload 1 "eml", 3600⟩

/-- Another client asks for a conversion of the same upload. -/
def enqueuesAgain : List WebStep :=
  [.lookupUpload 1 (.v4 2) "pdf", .check ⟨mail, .v4 2, "pdf", .looked⟩, .createRoot ⟨mail, .v4 2, "pdf", .checked⟩ 20,
    .enqueue ⟨mail, .v4 2, "pdf", .rooted 20⟩ 20 0]

def finishes (jobId : Uuid) : List WebStep :=
  [.lookupJob jobId, .unregister jobId, .removeInput jobId, .conclude jobId 5]

/-- The first job ends while the second waits. -/
def shared : List WebStep := enqueues 1 10 (.v4 1) ++ enqueuesAgain ++ converts 10 ++ finishes 10

/-- **The input of a queued job is removed** when another job of the same upload ends. -/
theorem input_removed : ∃ web, Run oneSlot shared web ∧ ∃ job ∈ web.jobs, job.isActive = true ∧
    web.phase? job.jobId = some .waiting ∧ isFile web.files job.inputPath = false := by
  have hplay : (oneSlot.initial.play oneSlot (fun _ _ => True) shared).any (fun web => web.jobs.any fun job =>
      job.isActive && decide (web.phase? job.jobId = some .waiting) && !isFile web.files job.inputPath) = true := by
    decide
  obtain ⟨web, hweb, hjobs⟩ := (Option.any_eq_true _ _).mp hplay
  obtain ⟨job, hjob, hfound⟩ := List.any_eq_true.mp hjobs
  simp only [Bool.and_eq_true, decide_eq_true_eq, Bool.not_eq_true'] at hfound
  obtain ⟨⟨hactive, hphase⟩, hgone⟩ := hfound
  exact ⟨web, (trace_of_play hweb).mono fun h => h.1, job, hjob, hactive, hphase, hgone⟩

/-- The second client brings an upload of its own. -/
def apart : List WebStep := enqueues 1 10 (.v4 1) ++ enqueues 2 20 (.v4 2) ++ converts 10 ++ finishes 10

/-- Then the second job keeps its input. -/
theorem inputs_kept_apart : ∃ web, Run oneSlot apart web ∧ ∃ job ∈ web.jobs, job.isActive = true ∧
    isFile web.files job.inputPath = true := by
  have hplay : (oneSlot.initial.play oneSlot (KeepsApart oneSlot) apart).any (fun web => web.jobs.any fun job =>
      job.isActive && decide (web.phase? job.jobId = some .waiting)) = true := by decide
  obtain ⟨web, hweb, hjobs⟩ := (Option.any_eq_true _ _).mp hplay
  obtain ⟨job, hjob, hfound⟩ := List.any_eq_true.mp hjobs
  simp only [Bool.and_eq_true, decide_eq_true_eq] at hfound
  obtain ⟨hactive, hphase⟩ := hfound
  have hrun := trace_of_play hweb
  refine ⟨web, hrun.mono fun h => h.1, job, hjob, hactive, (inputs_kept oneSlot_local hrun job hjob hactive).mpr ?_⟩
  rw [hphase]
  exact nofun

end InputsSample

end Anole.Web
