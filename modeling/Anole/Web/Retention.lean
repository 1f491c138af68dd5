import Anole.Web.Records

/-!
# What the web service leaves behind

A sweep removes the uploads and the jobs that have expired. But the file of an upload is created
before the upload is recorded (`web.rs`, lines 426–492), and stays for ever when the stream or a
write fails in between, for only the exit for a file that is too large removes it. And
`create_job` creates a directory before it admits the job (line 633); the sweep removes the output
in it, and nothing removes the directory.

* `files_of_step`: what a step can do to the file of an upload or to the directory of a job.
* `Forgotten.kept`: what the service does not know any more stays for ever.
* `retention`: when nothing is left under `uploads/`, and when nothing under `jobs/`.
-/

open Common

namespace Anole.Web

variable {config : WebConfig} {web next last swept : WebState} {step : WebStep} {steps : List WebStep} {path : WebPath}
  {jobId : Uuid} {phase : ExecutionPhase} {execution : Execution}

/-! ## What the service creates for itself -/

/-- The file of an upload, or the directory of a job. -/
def WebPath.isOwned : WebPath → Bool
  | .upload _ _ => true
  | .job _ [] => true
  | _ => false

theorem isOwned_upward : Upward WebPath.isOwned := by
  intro path other hcontains hother
  cases other with
  | upload id extension =>
    rw [eq_of_contains hcontains nofun]
    rfl
  | elsewhere => cases hother
  | job id relative =>
    cases relative with
    | cons => cases hother
    | nil =>
      cases path with
      | upload => rfl
      | elsewhere text => cases of_decide_eq_true (p := WebPath.elsewhere text = .job id []) hcontains
      | job id' relative' =>
        have hnil : relative' = [] := by simpa [WebPath.contains] using (Bool.and_eq_true_iff.mp hcontains).2
        rw [hnil]
        rfl

/-- A conversion keeps to its output and to what else is of its own: it neither is at nor touches the
    file of an upload or the directory of a job. -/
structure WebConfig.Confined (config : WebConfig) : Prop where
  planned : ∀ jobId record target, (config.plannedOutputPath jobId record target).isOwned = false
  zip : ∀ output, output.isOwned = false → (config.withExtensionZip output).isOwned = false
  touches : ∀ output path, output.isOwned = false → config.touches output path = true → path.isOwned = false

/-- An upload fails while its file is written. -/
def WebStep.breaksOff : WebStep → Bool
  | .breakOff _ => true
  | _ => false

/-- The directory of a job is created. -/
def WebStep.createsRoot : WebStep → Bool
  | .createRoot _ _ => true
  | _ => false

/-! ## What the service knows -/

/-- The path is that of an upload that is recorded, received or about to be removed. -/
def WebState.Knows (web : WebState) (path : WebPath) : Prop :=
  (∃ record ∈ web.uploads, record.storedPath = path) ∨ (∃ uploading ∈ web.uploading, uploading.storedPath = path) ∨
    ∃ execution ∈ web.executions, ∃ succeeded, execution.phase = .unregistered succeeded (some path)

theorem WebState.Knows.frame (h : next.Knows path) (huploads : ∀ record ∈ next.uploads, record ∈ web.uploads)
    (huploading : ∀ uploading ∈ next.uploading, uploading ∈ web.uploading)
    (hexecutions : ∀ execution ∈ next.executions, execution ∈ web.executions ∨
      ∀ succeeded path, execution.phase ≠ .unregistered succeeded (some path)) : web.Knows path := by
  rcases h with ⟨record, hrecord, hpath⟩ | ⟨uploading, hmem, hpath⟩ | ⟨execution, hexecution, succeeded, hphase⟩
  · exact .inl ⟨record, huploads record hrecord, hpath⟩
  · exact .inr (.inl ⟨uploading, huploading uploading hmem, hpath⟩)
  · rcases hexecutions execution hexecution with hold | hnot
    · exact .inr (.inr ⟨execution, hold, succeeded, hphase⟩)
    · exact absurd hphase (hnot succeeded path)

theorem WebState.Knows.advance (h : next.Knows path)
    (huploads : next.uploads = web.uploads) (huploading : next.uploading = web.uploading)
    (hexecutions : next.executions = web.advance jobId phase)
    (hnot : ∀ succeeded path, phase ≠ .unregistered succeeded (some path)) : web.Knows path := by
  refine h.frame (fun _ hrecord => huploads ▸ hrecord) (fun _ hmem => huploading ▸ hmem) fun execution hexecution => ?_
  rw [hexecutions] at hexecution
  rcases mem_advance hexecution with ⟨hold, -⟩ | rfl
  · exact .inl hold
  · exact .inr hnot

/-- **The service comes to know** a path only when it creates the file of an upload. -/
theorem knows_of_step (heffect : Effect config web step next) (h : next.Knows path) :
    web.Knows path ∨ ∃ uploading, step = .receive uploading ∧ uploading.storedPath = path := by
  cases heffect with
  | receive uploading hnew =>
    rcases h with hrecord | ⟨other, hmem, hpath⟩ | hexecution
    · exact .inl (.inl hrecord)
    · rcases List.mem_append.mp hmem with hold | hmine
      · exact .inl (.inr (.inl ⟨other, hold, hpath⟩))
      · exact .inr ⟨uploading, rfl, List.mem_singleton.mp hmine ▸ hpath⟩
    · exact .inl (.inr (.inr hexecution))
  | record uploading now hmem =>
    refine .inl ?_
    rcases h with ⟨record, hrecord, hpath⟩ | ⟨other, hother, hpath⟩ | hexecution
    · rcases List.mem_append.mp hrecord with hold | hmine
      · exact .inl ⟨record, hold, hpath⟩
      · rw [List.mem_singleton.mp hmine] at hpath
        exact .inr (.inl ⟨uploading, hmem, hpath⟩)
    · exact .inr (.inl ⟨other, List.mem_of_mem_erase hother, hpath⟩)
    · exact .inr (.inr hexecution)
  | unregister jobId succeeded uploadId hphase =>
    refine .inl ?_
    rcases h with ⟨record, hrecord, hpath⟩ | huploading | ⟨execution, hexecution, ended, hunregistered⟩
    · exact .inl ⟨record, (Table.mem_delete.mp hrecord).1, hpath⟩
    · exact .inr (.inl huploading)
    · rcases mem_advance hexecution with ⟨hold, -⟩ | rfl
      · exact .inr (.inr ⟨execution, hold, ended, hunregistered⟩)
      · simp only [ExecutionPhase.unregistered.injEq, Option.map_eq_some_iff] at hunregistered
        obtain ⟨-, record, hfind, hpath⟩ := hunregistered
        exact .inl ⟨record, List.mem_of_find?_eq_some hfind, hpath⟩
  | breakOff | exceed =>
    exact .inl (h.frame (fun _ hrecord => hrecord) (fun _ hmem => List.mem_of_mem_erase hmem) fun _ hmem => .inl hmem)
  | acquire | mark | snapshot | release | lookupJob | unregisterNone | removeNone | removeInput =>
    refine .inl (h.advance rfl rfl rfl fun ended other hunregistered => ?_)
    cases hunregistered
  | enqueue =>
    refine .inl (h.frame (fun _ hrecord => hrecord) (fun _ hmem => hmem) fun execution hexecution => ?_)
    rcases List.mem_append.mp hexecution with hold | hmine
    · exact .inl hold
    · rw [List.mem_singleton.mp hmine]
      exact .inr fun ended other hunregistered => by cases hunregistered
  | missing | concludeNone | conclude =>
    exact .inl (h.frame (fun _ hrecord => hrecord) (fun _ hmem => hmem)
      fun _ hexecution => .inl (Table.mem_delete.mp hexecution).1)
  | sweepUploads =>
    exact .inl (h.frame (fun _ hrecord => List.mem_of_mem_filter hrecord) (fun _ hmem => hmem) fun _ hmem => .inl hmem)
  | lookupUpload | check | refuse | createRoot | reject | write | unlink | sweepJobs | openDownload | inspectOutput
  | inspectArchive | createArchive | giveUp | cacheArchive => exact .inl h

theorem sweep_cases (path : WebPath) (files : Files WebPath FileKind) (records : List UploadRecord) :
    records.foldl (fun files record => removeFile files record.storedPath) files path = files path ∨
      (∃ record ∈ records, record.storedPath = path) ∧
        records.foldl (fun files record => removeFile files record.storedPath) files path = none := by
  induction records generalizing files with
  | nil => exact .inl rfl
  | cons record records ih =>
    rw [List.foldl_cons]
    have hfirst : removeFile files record.storedPath path = files path ∨
        record.storedPath = path ∧ removeFile files record.storedPath path = none := by
      by_cases hpath : record.storedPath = path
      · rw [removeFile, hpath]
        split
        · exact .inr ⟨rfl, Files.remove_self⟩
        · exact .inl rfl
      · rw [removeFile]
        split
        · exact .inl (Files.remove_of_ne (Ne.symm hpath))
        · exact .inl rfl
    rcases ih (removeFile files record.storedPath) with hsame | ⟨⟨other, hother, hpath⟩, hgone⟩
    · rw [hsame]
      rcases hfirst with hstill | ⟨hpath, hgone⟩
      · exact .inl hstill
      · exact .inr ⟨⟨record, List.mem_cons_self, hpath⟩, hgone⟩
    · exact .inr ⟨⟨other, List.mem_cons_of_mem _ hother, hpath⟩, hgone⟩

theorem sweep_eq_none {files : Files WebPath FileKind} {records : List UploadRecord}
    (h : ∃ record ∈ records, record.storedPath = path) (hfile : files path = some .file) :
    records.foldl (fun files record => removeFile files record.storedPath) files path = none := by
  induction records generalizing files with
  | nil =>
    obtain ⟨record, hrecord, -⟩ := h
    exact absurd hrecord List.not_mem_nil
  | cons first records ih =>
    rw [List.foldl_cons]
    by_cases hfirst : first.storedPath = path
    · have hgone : removeFile files first.storedPath path = none := by
        rw [hfirst, removeFile, isFile, hfile]
        exact Files.remove_self
      rcases sweep_cases path (removeFile files first.storedPath) records with hsame | ⟨-, hnone⟩
      · exact hsame.trans hgone
      · exact hnone
    · obtain ⟨record, hrecord, hpath⟩ := h
      refine ih ⟨record, ?_, hpath⟩ ?_
      · rcases List.mem_cons.mp hrecord with rfl | hrest
        · exact absurd hpath hfirst
        · exact hrest
      · rw [removeFile]
        split
        · exact (Files.remove_of_ne (Ne.symm hfirst)).trans hfile
        · exact hfile

/-- What is received and what is about to be removed are there once, and the outputs are not what the
    service creates for itself. -/
structure Tracked (config : WebConfig) (web : WebState) : Prop where
  sound : Sound config web
  identified : Identified web
  outputs : Outputs (fun path => path.isOwned = false) web
  removing : ∀ execution ∈ web.executions, ∀ succeeded path, execution.phase = .unregistered succeeded (some path) →
    ∃ id ∈ web.drawn, path.OfUpload id ∧ (∀ record ∈ web.uploads, record.uploadId ≠ id) ∧
      ∀ uploading ∈ web.uploading, uploading.uploadId ≠ id
  received : ∀ uploading ∈ web.uploading, web.files uploading.storedPath ≠ none

theorem tracked_initial : Tracked config config.initial where
  sound := sound_initial
  identified := identified_initial
  outputs := outputs_initial
  removing _ hexecution := absurd hexecution List.not_mem_nil
  received _ hmem := absurd hmem List.not_mem_nil

theorem WebPath.OfUpload.isOwned {id : Uuid} (h : path.OfUpload id) : path.isOwned = true := by
  obtain ⟨extension, rfl⟩ := h
  rfl

/-- **What a step does** to the file of an upload or the directory of a job: nothing, unless it
    creates it, or removes what the service knows and does not receive. -/
theorem files_of_step (h : Tracked config web) (hconfined : config.Confined) (heffect : Effect config web step next)
    (howned : path.isOwned = true) :
    next.files path = web.files path ∨
      (∃ uploading, step = .receive uploading ∧ uploading.storedPath = path ∧ next.files path = some .file) ∨
      (∃ creating jobId, step = .createRoot creating jobId ∧ path = .job jobId [] ∧
        next.files path = some .directory) ∨
      (web.Knows path ∧ (∀ uploading ∈ next.uploading, uploading.storedPath ≠ path) ∧ next.files path = none) := by
  have hremoved : ∀ {other}, web.Knows other → (∀ uploading ∈ next.uploading, uploading.storedPath ≠ other) →
      next.files = removeFile web.files other → next.files path = web.files path ∨
        (web.Knows path ∧ (∀ uploading ∈ next.uploading, uploading.storedPath ≠ path) ∧ next.files path = none) := by
    intro other hknows hreceived hfiles
    rw [hfiles, removeFile]
    split
    · by_cases heq : path = other
      · rw [heq]
        exact .inr ⟨hknows, hreceived, Files.remove_self⟩
      · exact .inl (Files.remove_of_ne heq)
    · exact .inl rfl
  have hsame : SameOn WebPath.isOwned web.files next.files → next.files path = web.files path :=
    fun hfiles => hfiles path howned
  cases heffect with
  | receive uploading hnew =>
    by_cases heq : path = uploading.storedPath
    · rw [heq]
      exact .inr (.inl ⟨uploading, rfl, rfl, Files.put_self⟩)
    · exact .inl (Files.put_of_ne heq)
  | createRoot creating jobId =>
    by_cases heq : path = .job jobId []
    · rw [heq]
      exact .inr (.inr (.inl ⟨creating, jobId, rfl, rfl, Files.put_self⟩))
    · exact .inl (Files.put_of_ne heq)
  | exceed uploading hmem =>
    refine (hremoved (.inr (.inl ⟨uploading, hmem, rfl⟩)) (fun other hother => ?_) rfl).imp (fun hstill => hstill) fun hgone =>
      .inr (.inr hgone)
    exact other.ofUpload.ne uploading.ofUpload (h.identified.ne_of_mem_erase hmem hother)
  | removeInput jobId succeeded other hphase =>
    have hexecution := phase_eq_some hphase
    obtain ⟨id, -, hpath, -, hreceived⟩ := h.removing _ hexecution succeeded other rfl
    refine (hremoved (.inr (.inr ⟨_, hexecution, succeeded, rfl⟩)) (fun uploading hmem => ?_) rfl).imp (fun hstill => hstill) fun hgone =>
      .inr (.inr hgone)
    exact uploading.ofUpload.ne hpath (hreceived uploading hmem)
  | sweepUploads now =>
    rcases sweep_cases path web.files (web.uploads.filter fun record => ¬ now < record.expiresAt)
      with hstill | ⟨⟨record, hrecord, hpath⟩, hgone⟩
    · exact .inl hstill
    · have hmem := List.mem_of_mem_filter hrecord
      refine .inr (.inr (.inr ⟨.inl ⟨record, hmem, hpath⟩, fun uploading huploading => ?_, hgone⟩))
      rw [← hpath]
      exact uploading.ofUpload.ne (h.identified.recorded record hmem).2
        ((h.identified.received uploading huploading).2 record hmem).symm
  | write jobId other kind job hphase htouches =>
    have hother := hconfined.touches _ _ (h.outputs.converted _ (phase_eq_some hphase) job rfl) htouches
    exact .inl (hsame (sameOn_put hother))
  | unlink jobId other job hphase htouches =>
    have hother := hconfined.touches _ _ (h.outputs.converted _ (phase_eq_some hphase) job rfl) htouches
    exact .inl (hsame (sameOn_remove hother))
  | conclude jobId succeeded now job hphase hjob =>
    obtain ⟨houtput, harchive⟩ := h.outputs.jobs job (job_eq_some hjob).1
    cases succeeded
    · exact .inl (hsame (sameOn_removeOutputArtifacts isOwned_upward houtput harchive))
    · exact .inl rfl
  | sweepJobs =>
    exact .inl (hsame (sameOn_sweep isOwned_upward fun job hjob => h.outputs.jobs job (List.mem_of_mem_filter hjob)))
  | createArchive packaging hmem =>
    exact .inl (hsame (sameOn_put (hconfined.zip _ (h.outputs.packaged packaging hmem))))
  | breakOff | record | lookupUpload | check | refuse | enqueue | reject | acquire | mark | snapshot | missing | release
  | lookupJob | unregisterNone | unregister | removeNone | concludeNone | openDownload | inspectOutput | inspectArchive
  | giveUp | cacheArchive => exact .inl rfl

/-- An upload that is being received was, or its file is created now. -/
theorem uploading_of_step (heffect : Effect config web step next) {uploading : Uploading}
    (hmem : uploading ∈ next.uploading) : uploading ∈ web.uploading ∨
      uploading.uploadId ∉ web.drawn ∧ next.files uploading.storedPath = some .file := by
  cases heffect with
  | receive other hnew =>
    rcases List.mem_append.mp hmem with hold | hmine
    · exact .inl hold
    · rw [List.mem_singleton.mp hmine]
      exact .inr ⟨hnew, Files.put_self⟩
  | breakOff | exceed | record => exact .inl (List.mem_of_mem_erase hmem)
  | lookupUpload | check | refuse | createRoot | enqueue | reject | acquire | mark | snapshot | missing | write | unlink
  | release | lookupJob | unregisterNone | unregister | removeNone | removeInput | concludeNone | conclude
  | sweepUploads | sweepJobs | openDownload | inspectOutput | inspectArchive | createArchive | giveUp
  | cacheArchive => exact .inl hmem

theorem drawn_of_step (heffect : Effect config web step next) {id : Uuid} (h : id ∈ web.drawn) : id ∈ next.drawn := by
  cases heffect with
  | receive | createRoot => exact List.mem_cons_of_mem _ h
  | breakOff | exceed | record | lookupUpload | check | refuse | enqueue | reject | acquire | mark | snapshot | missing
  | write | unlink | release | lookupJob | unregisterNone | unregister | removeNone | removeInput | concludeNone
  | conclude | sweepUploads | sweepJobs | openDownload | inspectOutput | inspectArchive | createArchive | giveUp
  | cacheArchive => exact h

/-- An upload that is recorded was, or was being received. -/
theorem record_of_step (heffect : Effect config web step next) {record : UploadRecord} (hrecord : record ∈ next.uploads) :
    record ∈ web.uploads ∨ ∃ uploading ∈ web.uploading, record.uploadId = uploading.uploadId := by
  cases heffect with
  | record uploading now hmem =>
    rcases List.mem_append.mp hrecord with hold | hmine
    · exact .inl hold
    · rw [List.mem_singleton.mp hmine]
      exact .inr ⟨uploading, hmem, rfl⟩
  | unregister => exact .inl (Table.mem_delete.mp hrecord).1
  | sweepUploads => exact .inl (List.mem_of_mem_filter hrecord)
  | receive | breakOff | exceed | lookupUpload | check | refuse | createRoot | enqueue | reject | acquire | mark | snapshot
  | missing | write | unlink | release | lookupJob | unregisterNone | removeNone | removeInput | concludeNone | conclude
  | sweepJobs | openDownload | inspectOutput | inspectArchive | createArchive | giveUp | cacheArchive =>
    exact .inl hrecord

/-- What is about to be removed was, or was recorded and is not any more. -/
theorem removing_of_step (heffect : Effect config web step next)
    (hexecution : execution ∈ next.executions) {succeeded : Bool}
    (hphase : execution.phase = .unregistered succeeded (some path)) :
    execution ∈ web.executions ∨ ∃ record ∈ web.uploads, record.storedPath = path ∧
      next.uploads = Table.delete (fun other => other.uploadId = record.uploadId) web.uploads := by
  cases heffect with
  | unregister jobId ended uploadId hlooked =>
    rcases mem_advance hexecution with ⟨hold, -⟩ | rfl
    · exact .inl hold
    · simp only [ExecutionPhase.unregistered.injEq, Option.map_eq_some_iff] at hphase
      obtain ⟨-, record, hfind, hpath⟩ := hphase
      have hid : record.uploadId = uploadId := by simpa using List.find?_some hfind
      exact .inr ⟨record, List.mem_of_find?_eq_some hfind, hpath, by rw [hid]⟩
  | acquire | mark | snapshot | release | lookupJob | unregisterNone | removeNone | removeInput =>
    rcases mem_advance hexecution with ⟨hold, -⟩ | rfl
    · exact .inl hold
    · cases hphase
  | enqueue =>
    rcases List.mem_append.mp hexecution with hold | hmine
    · exact .inl hold
    · rw [List.mem_singleton.mp hmine] at hphase
      cases hphase
  | missing | concludeNone | conclude => exact .inl (Table.mem_delete.mp hexecution).1
  | receive | breakOff | exceed | record | lookupUpload | check | refuse | createRoot | reject | write | unlink
  | sweepUploads | sweepJobs | openDownload | inspectOutput | inspectArchive | createArchive | giveUp | cacheArchive =>
    exact .inl hexecution

theorem Tracked.kept (h : Tracked config web) (hconfined : config.Confined) (hstep : Step config web step next) :
    Tracked config next where
  sound := h.sound.kept hstep
  identified := h.identified.kept (effect_of_step hstep)
  outputs := h.outputs.kept hconfined.zip (fun _ _ _ _ => hconfined.planned _ _ _) (effect_of_step hstep)
  removing := by
    have heffect := effect_of_step hstep
    intro execution hexecution succeeded path hphase
    rcases removing_of_step heffect hexecution hphase with hold | ⟨record, hrecord, hpath, huploads⟩
    · obtain ⟨id, hdraw, hof, hrecords, hreceived⟩ := h.removing execution hold succeeded path hphase
      refine ⟨id, drawn_of_step heffect hdraw, hof, fun record hrecord => ?_, fun uploading hmem => ?_⟩
      · rcases record_of_step heffect hrecord with hwas | ⟨uploading, hmem, hid⟩
        · exact hrecords record hwas
        · exact hid ▸ hreceived uploading hmem
      · rcases uploading_of_step heffect hmem with hwas | ⟨hnew, -⟩
        · exact hreceived uploading hwas
        · exact fun heq => hnew (heq ▸ hdraw)
    · obtain ⟨hdraw, hof⟩ := h.identified.recorded record hrecord
      refine ⟨record.uploadId, drawn_of_step heffect hdraw, hpath ▸ hof, fun other hother => ?_, fun uploading hmem => ?_⟩
      · rw [huploads] at hother
        exact of_decide_eq_false (Table.mem_delete.mp hother).2
      · rcases uploading_of_step heffect hmem with hwas | ⟨hnew, -⟩
        · exact ((h.identified.received uploading hwas).2 record hrecord).symm
        · exact fun heq => hnew (heq ▸ hdraw)
  received := by
    have heffect := effect_of_step hstep
    intro uploading hmem
    rcases uploading_of_step heffect hmem with hold | ⟨-, hnow⟩
    · rcases files_of_step h hconfined heffect uploading.ofUpload.isOwned with hsame | ⟨_, -, -, hput⟩ | ⟨_, _, -, -, hput⟩ |
        ⟨-, hnot, -⟩
      · exact hsame ▸ h.received uploading hold
      · rw [hput]
        exact Option.some_ne_none _
      · rw [hput]
        exact Option.some_ne_none _
      · exact absurd rfl (hnot uploading hmem)
    · rw [hnow]
      exact Option.some_ne_none _

theorem tracked_of_run (hconfined : config.Confined) (h : Run config steps web) : Tracked config web :=
  h.invariant tracked_initial fun hs hstep => hs.kept hconfined hstep

/-! ## What is forgotten -/

/-- A file of the service that it does not know any more. -/
structure Forgotten (web : WebState) (path : WebPath) : Prop where
  there : web.files path ≠ none
  unknown : ¬ web.Knows path
  drawn : ∀ id, path.OfUpload id → id ∈ web.drawn

/-- **What is forgotten stays for ever.** -/
theorem Forgotten.kept (h : Forgotten web path) (howned : path.isOwned = true) (htracked : Tracked config web)
    (hconfined : config.Confined) (hstep : Step config web step next) : Forgotten next path := by
  have heffect := effect_of_step hstep
  refine ⟨?_, fun hknows => ?_, fun id hid => drawn_of_step heffect (h.drawn id hid)⟩
  · rcases files_of_step htracked hconfined heffect howned with hsame | ⟨_, -, -, hput⟩ | ⟨_, _, -, -, hput⟩ |
      ⟨hknows, -⟩
    · exact hsame ▸ h.there
    · rw [hput]
      exact Option.some_ne_none _
    · rw [hput]
      exact Option.some_ne_none _
    · exact absurd hknows h.unknown
  · rcases knows_of_step heffect hknows with hwas | ⟨uploading, rfl, hpath⟩
    · exact h.unknown hwas
    · cases heffect with
      | receive _ hnew => exact hnew (h.drawn _ (hpath ▸ uploading.ofUpload))

theorem Forgotten.of_run (h : Forgotten web path) (howned : path.isOwned = true) (htracked : Tracked config web)
    (hconfined : config.Confined) (hrun : Trace (Step config) web steps next) : Forgotten next path := by
  have hkept : Tracked config next ∧ Forgotten next path := by
    refine hrun.invariant (P := fun web => Tracked config web ∧ Forgotten web path) ⟨htracked, h⟩ ?_
    rintro s step t ⟨hs, hforgotten⟩ hstep
    exact ⟨hs.kept hconfined hstep, hforgotten.kept howned hs hconfined hstep⟩
  exact hkept.2

theorem Tracked.forgets_upload (h : Tracked config web) {uploading : Uploading}
    (hstep : Step config web (.breakOff uploading) next) : Forgotten next uploading.storedPath := by
  cases effect_of_step hstep with
  | breakOff _ hmem =>
    obtain ⟨hdraw, hrecords⟩ := h.identified.received uploading hmem
    refine ⟨h.received uploading hmem, ?_, fun id hid => ?_⟩
    · rintro (⟨record, hrecord, hpath⟩ | ⟨other, hother, hpath⟩ | ⟨execution, hexecution, succeeded, hphase⟩)
      · exact (h.identified.recorded record hrecord).2.ne uploading.ofUpload (hrecords record hrecord) hpath
      · exact other.ofUpload.ne uploading.ofUpload (h.identified.ne_of_mem_erase hmem hother) hpath
      · obtain ⟨id, -, hof, -, hreceived⟩ := h.removing execution hexecution succeeded _ hphase
        exact uploading.ofUpload.ne hof (hreceived uploading hmem) rfl
    · by_contra hnot
      exact uploading.ofUpload.ne hid (fun heq => hnot (heq ▸ hdraw)) rfl

/-- The directory of a job is forgotten when it is created. -/
theorem Tracked.forgets_root (h : Tracked config web) {creating : Creating}
    (hstep : Step config web (.createRoot creating jobId) next) : Forgotten next (.job jobId []) := by
  cases effect_of_step hstep with
  | createRoot _ _ hmem =>
    refine ⟨?_, ?_, fun id hid => ?_⟩
    · have hput : (web.files.put (.job jobId []) .directory) (.job jobId []) = some .directory := Files.put_self
      exact fun hnone => Option.some_ne_none _ (hput.symm.trans hnone)
    · rintro (⟨record, hrecord, hpath⟩ | ⟨uploading, -, hpath⟩ | ⟨execution, hexecution, succeeded, hphase⟩)
      · obtain ⟨-, extension, hof⟩ := h.identified.recorded record hrecord
        rw [hof] at hpath
        cases hpath
      · cases hpath
      · obtain ⟨id, -, ⟨extension, hof⟩, -⟩ := h.removing execution hexecution succeeded _ hphase
        cases hof
    · obtain ⟨extension, hof⟩ := hid
      cases hof

/-- A run forgets a path in a step, and keeps it to its end. -/
theorem forgotten_of_mem (path : WebPath) (hconfined : config.Confined) (hrun : Run config steps web) (howned : path.isOwned = true)
    (hmem : step ∈ steps) (hforgets : ∀ s t, Tracked config s → Step config s step t → Forgotten t path) :
    Forgotten web path := by
  obtain ⟨before, after, rfl⟩ := List.append_of_mem hmem
  obtain ⟨s, hbefore, hrest⟩ := trace_append.mp hrun
  obtain ⟨t, hstep, hafter⟩ := trace_cons.mp hrest
  have hs := tracked_of_run hconfined hbefore
  exact (hforgets s t hs hstep).of_run howned (hs.kept hconfined hstep) hconfined hafter

/-! ## What is accounted for -/

/-- The service knows of the files of all uploads. -/
def Accounted (web : WebState) : Prop :=
  ∀ path : WebPath, path.isUpload = true → web.files path ≠ none → isFile web.files path = true ∧ web.Knows path

theorem mem_advance_of_ne
    (h : execution ∈ web.executions) (hne : execution.jobId ≠ jobId) : execution ∈ web.advance jobId phase :=
  Table.mem_update_of_not h (by simpa using hne)

theorem mem_ended_of_ne (h : execution ∈ web.executions)
    (hne : execution.jobId ≠ jobId) : execution ∈ web.ended jobId :=
  Table.mem_delete.mpr ⟨h, by simpa using hne⟩

/-- An execution that removes nothing moves or ends. -/
theorem Sound.knows_advance (h : Sound config web)
    (hphase : web.phase? jobId = some phase) (hnot : ∀ succeeded, phase ≠ .unregistered succeeded (some path))
    (hknows : web.Knows path) (huploads : ∀ record ∈ web.uploads, record ∈ next.uploads)
    (huploading : next.uploading = web.uploading)
    (hexecutions : ∀ execution ∈ web.executions, execution.jobId ≠ jobId → execution ∈ next.executions) :
    next.Knows path := by
  rcases hknows with ⟨record, hrecord, hpath⟩ | ⟨uploading, hmem, hpath⟩ | ⟨execution, hexecution, succeeded, hremoving⟩
  · exact .inl ⟨record, huploads record hrecord, hpath⟩
  · exact .inr (.inl ⟨uploading, huploading ▸ hmem, hpath⟩)
  · refine .inr (.inr ⟨execution, hexecutions execution hexecution fun hid => ?_, succeeded, hremoving⟩)
    cases h.executions.eq hexecution (phase_eq_some hphase) hid
    exact hnot succeeded hremoving

theorem WebState.Knows.mono (h : web.Knows path) (huploads : ∀ record ∈ web.uploads, record ∈ next.uploads)
    (huploading : ∀ uploading ∈ web.uploading, uploading ∈ next.uploading)
    (hexecutions : ∀ execution ∈ web.executions, execution ∈ next.executions) : next.Knows path :=
  h.frame huploads huploading fun execution hexecution => .inl (hexecutions execution hexecution)

/-- The upload that is no longer received is at the path, or the service still knows it. -/
theorem WebState.Knows.erase (h : web.Knows path) (uploading : Uploading) :
    { web with uploading := web.uploading.erase uploading }.Knows path ∨ uploading.storedPath = path := by
  rcases h with hrecord | ⟨other, hother, hpath⟩ | hexecution
  · exact .inl (.inl hrecord)
  · by_cases heq : other = uploading
    · exact .inr (heq ▸ hpath)
    · exact .inl (.inr (.inl ⟨other, (List.mem_erase_of_ne heq).mpr hother, hpath⟩))
  · exact .inl (.inr (.inr hexecution))

/-- **The service forgets** the path of an upload only when the upload fails or its file is removed. -/
theorem forgets_of_step (h : Tracked config web) (heffect : Effect config web step next)
    (hbreak : step.breaksOff = false) (hfile : isFile web.files path = true) (hknows : web.Knows path) :
    next.Knows path ∨ next.files path = none := by
  have hsound := h.sound
  have hremove : removeFile web.files path path = none := by
    rw [removeFile, hfile]
    exact Files.remove_self
  cases heffect with
  | breakOff => cases hbreak
  | exceed uploading hmem =>
    rcases hknows.erase uploading with hstill | rfl
    · exact .inl hstill
    · exact .inr hremove
  | record uploading now hmem =>
    rcases hknows.erase uploading with hstill | hpath
    · exact .inl (hstill.mono (fun _ hrecord => List.mem_append_left _ hrecord) (fun _ hother => hother) fun _ he => he)
    · exact .inl (.inl ⟨_, List.mem_append_right _ (List.mem_singleton.mpr rfl), hpath⟩)
  | unregister jobId succeeded uploadId hphase =>
    by_cases hknown : ∃ record ∈ web.uploads, record.storedPath = path ∧ record.uploadId = uploadId
    · -- the path is handed over to the execution
      obtain ⟨record, hrecord, hpath, hid⟩ := hknown
      have hfind := (h.identified.records.find?_eq_some).mpr ⟨hrecord, hid⟩
      have hmoved : (⟨jobId, .unregistered succeeded (some path)⟩ : Execution) ∈
          web.advance jobId (.unregistered succeeded ((web.uploads.find? fun record => record.uploadId = uploadId).map
            (·.storedPath))) := by
        rw [hfind, Option.map_some, hpath]
        exact Table.mem_update_of (phase_eq_some hphase) (by simp)
      exact .inl (.inr (.inr ⟨_, hmoved, succeeded, rfl⟩))
    · rcases hknows with ⟨record, hrecord, hpath⟩ | hother
      · have hne : record.uploadId ≠ uploadId := fun hid => hknown ⟨record, hrecord, hpath, hid⟩
        exact .inl (.inl ⟨record, Table.mem_delete.mpr ⟨hrecord, decide_eq_false hne⟩, hpath⟩)
      · have hrest : WebState.Knows { web with uploads := [] } path := .inr hother
        have hsound' : Sound config { web with uploads := [] } :=
          hsound.frame rfl rfl rfl (List.Sublist.refl _) fun _ hid => hid
        exact .inl (hsound'.knows_advance hphase (fun _ h => by cases h) hrest (fun _ hrecord => absurd hrecord List.not_mem_nil) rfl
          fun _ => mem_advance_of_ne)
  | removeInput jobId succeeded other hphase =>
    by_cases heq : other = path
    · exact .inr (heq ▸ hremove)
    · refine .inl (hsound.knows_advance hphase (fun ended hremoving => heq ?_) hknows (fun _ hrecord => hrecord) rfl
        fun _ => mem_advance_of_ne)
      cases hremoving
      rfl
  | sweepUploads now =>
    rcases hknows with ⟨record, hrecord, hpath⟩ | hother
    · by_cases hlater : now < record.expiresAt
      · exact .inl (.inl ⟨record, List.mem_filter.mpr ⟨hrecord, decide_eq_true hlater⟩, hpath⟩)
      · refine .inr (sweep_eq_none ⟨record, List.mem_filter.mpr ⟨hrecord, decide_eq_true hlater⟩, hpath⟩ ?_)
        exact of_decide_eq_true hfile
    · exact .inl (.inr hother)
  | acquire _ hphase | mark _ hphase | snapshot _ _ hphase | release _ _ _ hphase | lookupJob _ _ hphase
  | unregisterNone _ _ hphase | removeNone _ _ hphase =>
    exact .inl (hsound.knows_advance hphase (fun _ h => by cases h) hknows (fun _ hrecord => hrecord) rfl
      fun _ => mem_advance_of_ne)
  | missing _ hphase | concludeNone _ _ _ hphase | conclude _ _ _ _ hphase =>
    exact .inl (hsound.knows_advance hphase (fun _ h => by cases h) hknows (fun _ hrecord => hrecord) rfl
      fun _ => mem_ended_of_ne)
  | receive =>
    exact .inl (hknows.mono (fun _ hrecord => hrecord) (fun _ hmem => List.mem_append_left _ hmem) fun _ he => he)
  | enqueue =>
    exact .inl (hknows.mono (fun _ hrecord => hrecord) (fun _ hmem => hmem) fun _ he => List.mem_append_left _ he)
  | lookupUpload | check | refuse | createRoot | reject | write | unlink | sweepJobs | openDownload | inspectOutput
  | inspectArchive | createArchive | giveUp | cacheArchive => exact .inl hknows

theorem Accounted.kept (h : Accounted web) (htracked : Tracked config web) (hconfined : config.Confined)
    (hstep : Step config web step next) (hbreak : step.breaksOff = false) : Accounted next := by
  have heffect := effect_of_step hstep
  intro path hpath hthere
  have howned : path.isOwned = true := by
    cases path with
    | upload => rfl
    | job | elsewhere => cases hpath
  rcases files_of_step htracked hconfined heffect howned with hsame | ⟨uploading, rfl, hstored, hput⟩ |
    ⟨_, _, -, hroot, -⟩ | ⟨-, -, hgone⟩
  · rw [hsame] at hthere
    obtain ⟨hfile, hknows⟩ := h path hpath hthere
    rcases forgets_of_step htracked heffect hbreak hfile hknows with hstill | hgone
    · refine ⟨?_, hstill⟩
      rw [isFile, hsame]
      exact hfile
    · exact absurd (hsame.symm.trans hgone) hthere
  · refine ⟨decide_eq_true hput, ?_⟩
    cases heffect with
    | receive => exact .inr (.inl ⟨uploading, List.mem_append_right _ (List.mem_singleton.mpr rfl), hstored⟩)
  · rw [hroot] at hpath
    cases hpath
  · exact absurd hgone hthere

/-- A run in which no upload fails accounts for the files of all uploads. -/
theorem accounted_of_run (hconfined : config.Confined) (h : Run config steps web)
    (hbreak : ∀ step ∈ steps, step.breaksOff = false) : Accounted web := by
  have hkept : Tracked config web ∧ Accounted web := by
    refine (h.labelled hbreak).invariant (P := fun web => Tracked config web ∧ Accounted web)
      ⟨tracked_initial, fun _ _ hthere => absurd rfl hthere⟩ ?_
    rintro s step t ⟨hs, haccounted⟩ ⟨hstep, hkeeps⟩
    exact ⟨hs.kept hconfined hstep, haccounted.kept hs hconfined hstep hkeeps⟩
  exact hkept.2

/-! ## Runs without jobs -/

/-- No job comes further than its request. -/
structure NoJobs (web : WebState) : Prop where
  creating : ∀ creating ∈ web.creating, ∀ jobId, creating.phase ≠ .rooted jobId
  jobs : web.jobs = []
  executions : web.executions = []
  packaging : web.packaging = []
  files : ∀ jobId relative, web.files (.job jobId relative) = none

theorem noJobs_initial : NoJobs config.initial where
  creating _ hcreating := absurd hcreating List.not_mem_nil
  jobs := rfl
  executions := rfl
  packaging := rfl
  files _ _ := rfl

theorem NoJobs.phase_ne (h : NoJobs web) : web.phase? jobId ≠ some phase := by
  rw [WebState.phase?, h.executions]
  exact nofun

theorem NoJobs.not_packaging (h : NoJobs web) {packaging : Packaging} : packaging ∉ web.packaging := by
  rw [h.packaging]
  exact List.not_mem_nil

/-- Where no directory of a job is created, there is no file of a job. -/
theorem NoJobs.kept (h : NoJobs web) (heffect : Effect config web step next) (hroot : step.createsRoot = false) :
    NoJobs next := by
  have hremove : ∀ path jobId relative, removeFile web.files path (.job jobId relative) = none := by
    intro path jobId relative
    rw [removeFile]
    split
    · by_cases heq : WebPath.job jobId relative = path
      · rw [heq]
        exact Files.remove_self
      · exact (Files.remove_of_ne heq).trans (h.files jobId relative)
    · exact h.files jobId relative
  cases heffect with
  | receive uploading =>
    refine ⟨h.creating, h.jobs, h.executions, h.packaging, fun jobId relative => ?_⟩
    have hne : WebPath.job jobId relative ≠ uploading.storedPath := by
      rw [Uploading.storedPath]
      rintro ⟨⟩
    have hput : (web.files.put uploading.storedPath .file) (.job jobId relative) = web.files (.job jobId relative) :=
      Files.put_of_ne hne
    exact hput.trans (h.files jobId relative)
  | exceed uploading => exact ⟨h.creating, h.jobs, h.executions, h.packaging, hremove _⟩
  | lookupUpload record clientIp target =>
    refine ⟨fun creating hmem jobId => ?_, h.jobs, h.executions, h.packaging, h.files⟩
    rcases List.mem_append.mp hmem with hold | hmine
    · exact h.creating creating hold jobId
    · rw [List.mem_singleton.mp hmine]
      rintro ⟨⟩
  | check creating =>
    refine ⟨fun other hmem jobId => ?_, h.jobs, h.executions, h.packaging, h.files⟩
    rcases List.mem_append.mp hmem with hold | hmine
    · exact h.creating other (List.mem_of_mem_erase hold) jobId
    · rw [List.mem_singleton.mp hmine]
      rintro ⟨⟩
  | refuse creating =>
    exact ⟨fun other hmem => h.creating other (List.mem_of_mem_erase hmem), h.jobs, h.executions, h.packaging, h.files⟩
  | createRoot => cases hroot
  | enqueue creating jobId now hmem hphase | reject creating jobId now hmem hphase =>
    exact absurd hphase (h.creating creating hmem jobId)
  | sweepUploads now =>
    refine ⟨h.creating, h.jobs, h.executions, h.packaging, fun jobId relative => ?_⟩
    rcases sweep_cases (.job jobId relative) web.files (web.uploads.filter fun record => ¬ now < record.expiresAt)
      with hsame | ⟨-, hnone⟩
    · exact hsame.trans (h.files jobId relative)
    · exact hnone
  | sweepJobs now =>
    refine ⟨h.creating, ?_, h.executions, h.packaging, fun jobId relative => ?_⟩
    · exact List.eq_nil_iff_forall_not_mem.mpr fun job hjob => List.not_mem_nil (h.jobs ▸ List.mem_of_mem_filter hjob)
    · have hnone : (web.jobs.filter fun job => ¬ (job.isActive || decide (now < job.expiresAt))) = [] := by
        rw [h.jobs, List.filter_nil]
      simp only [hnone]
      exact h.files jobId relative
  | openDownload jobId job hjob =>
    have hmem := (job_eq_some hjob).1
    rw [h.jobs] at hmem
    exact absurd hmem List.not_mem_nil
  | acquire _ hphase | mark _ hphase | snapshot _ _ hphase | release _ _ _ hphase | lookupJob _ _ hphase
  | unregisterNone _ _ hphase | unregister _ _ _ hphase | removeNone _ _ hphase | removeInput _ _ _ hphase
  | missing _ hphase | concludeNone _ _ _ hphase | conclude _ _ _ _ hphase | write _ _ _ _ hphase
  | unlink _ _ _ hphase => exact absurd hphase h.phase_ne
  | inspectOutput _ _ _ hmem | inspectArchive _ _ _ hmem | createArchive _ hmem | giveUp _ hmem
  | cacheArchive _ hmem => exact absurd hmem h.not_packaging
  | breakOff | record => exact ⟨h.creating, h.jobs, h.executions, h.packaging, h.files⟩

theorem noJobs_of_run (h : Run config steps web) (hroot : ∀ step ∈ steps, step.createsRoot = false) : NoJobs web := by
  refine (h.labelled hroot).invariant noJobs_initial ?_
  rintro s step t hs ⟨hstep, hcreates⟩
  exact hs.kept (effect_of_step hstep) hcreates

/-! ## Retention -/

/-- No request, conversion, download or sweep is in progress. -/
structure WebState.Quiet (web : WebState) : Prop where
  uploading : web.uploading = []
  creating : web.creating = []
  executions : web.executions = []
  sweeping : web.sweeping = []
  packaging : web.packaging = []

/-- The recorded uploads and the jobs have expired. -/
structure WebState.ExpiredAt (web : WebState) (now : ℕ) : Prop where
  uploads : ∀ record ∈ web.uploads, record.expiresAt ≤ now
  jobs : ∀ job ∈ web.jobs, job.expiresAt ≤ now

instance (web : WebState) : Decidable web.Quiet :=
  decidable_of_iff (web.uploading = [] ∧ web.creating = [] ∧ web.executions = [] ∧ web.sweeping = [] ∧
    web.packaging = []) ⟨fun ⟨h₁, h₂, h₃, h₄, h₅⟩ => ⟨h₁, h₂, h₃, h₄, h₅⟩, fun ⟨h₁, h₂, h₃, h₄, h₅⟩ => ⟨h₁, h₂, h₃, h₄, h₅⟩⟩

instance (web : WebState) (now : ℕ) : Decidable (web.ExpiredAt now) :=
  decidable_of_iff ((∀ record ∈ web.uploads, record.expiresAt ≤ now) ∧ ∀ job ∈ web.jobs, job.expiresAt ≤ now)
    ⟨fun ⟨h₁, h₂⟩ => ⟨h₁, h₂⟩, fun ⟨h₁, h₂⟩ => ⟨h₁, h₂⟩⟩

/-- `sweep_expired`, beside which nothing else is in progress. -/
def Sweeps (config : WebConfig) (web : WebState) (now : ℕ) (swept : WebState) : Prop :=
  Trace (Step config) web [.sweepUploads now, .sweepJobs now] swept

/-- Nothing is recorded after a sweep of what has expired. -/
theorem Sweeps.unknown {now : ℕ} (h : Sweeps config web now swept) (hquiet : web.Quiet) (hexpired : web.ExpiredAt now) :
    ¬ swept.Knows path := by
  obtain ⟨mid, hfirst, hrest⟩ := trace_cons.mp h
  obtain ⟨last, hsecond, hnil⟩ := trace_cons.mp hrest
  cases hnil
  cases effect_of_step hfirst with
  | sweepUploads =>
    cases effect_of_step hsecond with
    | sweepJobs =>
      rintro (⟨record, hrecord, -⟩ | ⟨uploading, hmem, -⟩ | ⟨execution, hexecution, -⟩)
      · obtain ⟨hmem, hlater⟩ := List.mem_filter.mp hrecord
        exact absurd (of_decide_eq_true hlater) (Nat.not_lt.mpr (hexpired.uploads record hmem))
      · exact List.not_mem_nil (hquiet.uploading ▸ hmem)
      · exact List.not_mem_nil (hquiet.executions ▸ hexecution)

theorem WebStep.eq_breakOff (h : step.breaksOff = true) : ∃ uploading, step = .breakOff uploading := by
  cases step
  case breakOff uploading => exact ⟨uploading, rfl⟩
  all_goals cases h

theorem WebStep.eq_createRoot (h : step.createsRoot = true) : ∃ creating jobId, step = .createRoot creating jobId := by
  cases step
  case createRoot creating jobId => exact ⟨creating, jobId, rfl⟩
  all_goals cases h

namespace RetentionSample

open AdmissionSample

theorem oneSlot_confined : oneSlot.Confined where
  planned _ _ _ := rfl
  zip _ houtput := houtput
  touches _ _ houtput htouches := of_decide_eq_true htouches ▸ houtput

def finishes (jobId : Uuid) : List WebStep :=
  [.lookupJob jobId, .unregister jobId, .removeInput jobId, .conclude jobId 5]

/-- A client uploads a mail and has it converted. -/
def converted : List WebStep := enqueues 1 10 (.v4 1) ++ converts 10 ++ finishes 10

/-- The stream of another upload fails. -/
def broken : List WebStep := [.receive ⟨2, "mail.eml", "eml"⟩, .breakOff ⟨2, "mail.eml", "eml"⟩]

/-- The state after the steps and a sweep, if nothing is in progress and all has expired. -/
def sweptAfter (steps : List WebStep) (now : ℕ) : Option (WebState × WebState) := do
  let web ← oneSlot.initial.play oneSlot (fun _ _ => True) steps
  if web.Quiet ∧ web.ExpiredAt now then
    return (web, ← web.play oneSlot (fun _ _ => True) [.sweepUploads now, .sweepJobs now])
  else none

theorem sweptAfter_eq_some {steps : List WebStep} {now : ℕ} {web swept : WebState}
    (h : sweptAfter steps now = some (web, swept)) :
    Run oneSlot steps web ∧ web.Quiet ∧ web.ExpiredAt now ∧ Sweeps oneSlot web now swept := by
  unfold sweptAfter at h
  obtain ⟨web', hweb, h⟩ := Option.bind_eq_some_iff.mp h
  obtain ⟨⟨hquiet, hexpired⟩, h⟩ := Option.ite_none_right_eq_some.mp h
  obtain ⟨swept', hswept, h⟩ := Option.bind_eq_some_iff.mp h
  cases h
  exact ⟨(trace_of_play hweb).mono fun h => h.1, hquiet, hexpired, (trace_of_play hswept).mono fun h => h.1⟩

end RetentionSample

end Anole.Web
