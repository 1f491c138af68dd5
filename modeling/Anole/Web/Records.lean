import Anole.Web.Admission

/-!
# The files of the web service

What the steps of the service do to the files of uploads and of jobs, and what they keep without
regard to which files there are: every upload has an identifier of its own (`Identified`), and what
holds of the outputs that are planned holds of all paths that the service derives from them
(`Outputs`).
-/

open Common

namespace Anole.Web

variable {config : WebConfig} {web next : WebState} {step : WebStep}

/-! ## Paths -/

def WebPath.isUpload : WebPath → Bool
  | .upload _ _ => true
  | _ => false

/-- The path of an upload. -/
def WebPath.OfUpload (uploadId : Uuid) (path : WebPath) : Prop := ∃ extension, path = .upload uploadId extension

/-- What contains a path of the kind is of the kind. -/
def Upward (P : WebPath → Bool) : Prop := ∀ path other, path.contains other = true → P other = true → P path = true

/-- The files of a kind are the same. -/
def SameOn (P : WebPath → Bool) (files files' : Files WebPath FileKind) : Prop :=
  ∀ path, P path = true → files' path = files path

theorem eq_of_contains {path other : WebPath} (h : path.contains other = true)
    (hother : ∀ id relative, other ≠ .job id relative) : path = other := by
  cases path with
  | upload | elsewhere => exact of_decide_eq_true h
  | job id relative =>
    cases other with
    | upload | elsewhere => exact of_decide_eq_true h
    | job id' relative' => exact absurd rfl (hother id' relative')

theorem isUpload_upward : Upward WebPath.isUpload := by
  intro path other hcontains hother
  have heq : path = other := by
    refine eq_of_contains hcontains fun id relative hjob => ?_
    rw [hjob] at hother
    cases hother
  rw [heq, hother]

section Files

variable {P : WebPath → Bool} {files files' files'' : Files WebPath FileKind} {path other : WebPath} {kind : FileKind}
  {job : WebJob}

theorem SameOn.refl : SameOn P files files := fun _ _ => rfl

theorem SameOn.trans (h : SameOn P files files') (h' : SameOn P files' files'') : SameOn P files files'' :=
  fun path hpath => (h' path hpath).trans (h path hpath)

theorem SameOn.isFile (h : SameOn P files files') (hpath : P path = true) :
    isFile files' path = isFile files path := by
  rw [Web.isFile, Web.isFile, h path hpath]

theorem ne_of_kind (h : P path = true) (h' : P other = false) : path ≠ other := by
  rintro rfl
  rw [h] at h'
  cases h'

theorem sameOn_put (h : P other = false) : SameOn P files (files.put other kind) :=
  fun _ hpath => Files.put_of_ne (ne_of_kind hpath h)

theorem sameOn_remove (h : P other = false) : SameOn P files (files.remove other) :=
  fun _ hpath => Files.remove_of_ne (ne_of_kind hpath h)

theorem sameOn_removeFile (h : P other = false) : SameOn P files (removeFile files other) := by
  rw [removeFile]
  split
  · exact sameOn_remove h
  · exact .refl

theorem sameOn_removeDirAll (hP : Upward P) (h : P other = false) : SameOn P files (removeDirAll files other) := by
  intro path hpath
  have houtside : other.contains path = false := by
    refine Bool.eq_false_iff.mpr fun hcontains => ?_
    rw [hP other path hcontains hpath] at h
    cases h
  rw [removeDirAll, houtside]
  rfl

/-- The artifacts of a job whose paths are of another kind. -/
theorem sameOn_removeOutputArtifacts (hP : Upward P) (houtput : P job.outputPath = false)
    (harchive : ∀ archive ∈ job.archivePath, P archive = false) : SameOn P files (removeOutputArtifacts files job) := by
  have hremoved : SameOn P files (removeOutputArtifacts files { job with archivePath := none }) := by
    unfold removeOutputArtifacts
    split
    · exact sameOn_removeDirAll hP houtput
    · exact sameOn_remove houtput
    · exact .refl
  unfold removeOutputArtifacts at hremoved ⊢
  cases hpath : job.archivePath with
  | none => exact hremoved
  | some archive => exact hremoved.trans (sameOn_removeFile (harchive archive hpath))

theorem sameOn_sweep (hP : Upward P) {jobs : List WebJob} (h : ∀ job ∈ jobs, P job.outputPath = false ∧
    ∀ archive ∈ job.archivePath, P archive = false) : SameOn P files (jobs.foldl removeOutputArtifacts files) := by
  induction jobs generalizing files with
  | nil => exact .refl
  | cons job jobs ih =>
    obtain ⟨houtput, harchive⟩ := h job List.mem_cons_self
    exact (sameOn_removeOutputArtifacts hP houtput harchive).trans
      (ih fun other hother => h other (List.mem_cons_of_mem _ hother))

theorem isFile_put : isFile (files.put path .file) path = true := by simp [isFile]

theorem isFile_put_of_ne (h : path ≠ other) : isFile (files.put other kind) path = isFile files path := by
  rw [isFile, Files.put_of_ne h, isFile]

theorem isFile_removeFile_of_ne (h : path ≠ other) : isFile (removeFile files other) path = isFile files path := by
  rw [removeFile]
  split
  · rw [isFile, Files.remove_of_ne h, isFile]
  · rfl

theorem isFile_removeFile : isFile (removeFile files path) path = false := by
  rw [removeFile]
  split
  · simp [isFile]
  · rename_i h
    exact Bool.eq_false_iff.mpr h

end Files

theorem WebPath.OfUpload.isUpload {uploadId : Uuid} {path : WebPath} (h : path.OfUpload uploadId) :
    path.isUpload = true := by
  obtain ⟨extension, rfl⟩ := h
  rfl

theorem WebPath.OfUpload.ne {a b : Uuid} {path other : WebPath} (h : path.OfUpload a) (h' : other.OfUpload b)
    (hne : a ≠ b) : path ≠ other := by
  obtain ⟨extension, rfl⟩ := h
  obtain ⟨extension', rfl⟩ := h'
  intro heq
  cases heq
  exact hne rfl

theorem Uploading.ofUpload (uploading : Uploading) : uploading.storedPath.OfUpload uploading.uploadId := ⟨_, rfl⟩

theorem isFile_sweep {files : Files WebPath FileKind} {records : List UploadRecord} {path : WebPath}
    (h : ∀ record ∈ records, path ≠ record.storedPath) :
    isFile (records.foldl (fun files record => removeFile files record.storedPath) files) path = isFile files path := by
  induction records generalizing files with
  | nil => rfl
  | cons record records ih =>
    rw [List.foldl_cons, ih fun other hother => h other (List.mem_cons_of_mem _ hother),
      isFile_removeFile_of_ne (h record List.mem_cons_self)]

/-! ## The uploads -/

/-- Every upload has an identifier of its own, and its path is made from it. -/
structure Identified (web : WebState) : Prop where
  records : Table.Keyed UploadRecord.uploadId web.uploads
  recorded : ∀ record ∈ web.uploads, record.uploadId ∈ web.drawn ∧ record.storedPath.OfUpload record.uploadId
  receiving : Table.Keyed Uploading.uploadId web.uploading
  received : ∀ uploading ∈ web.uploading, uploading.uploadId ∈ web.drawn ∧
    ∀ record ∈ web.uploads, record.uploadId ≠ uploading.uploadId

theorem identified_initial : Identified config.initial where
  records := .nil
  recorded _ hrecord := absurd hrecord List.not_mem_nil
  receiving := .nil
  received _ huploading := absurd huploading List.not_mem_nil

/-- What is received is not what else is received. -/
theorem Identified.ne_of_mem_erase (h : Identified web) {uploading other : Uploading} (hmem : uploading ∈ web.uploading)
    (hother : other ∈ web.uploading.erase uploading) : other.uploadId ≠ uploading.uploadId := by
  intro heq
  obtain ⟨hne, hold⟩ := (h.receiving.nodup.mem_erase_iff).mp hother
  exact hne (h.receiving.eq hold hmem heq)

/-- There is nothing new. -/
theorem Identified.sublist (h : Identified web) (huploads : next.uploads.Sublist web.uploads)
    (huploading : next.uploading.Sublist web.uploading) (hdrawn : ∀ id ∈ web.drawn, id ∈ next.drawn) :
    Identified next where
  records := h.records.sublist (huploads.map _)
  recorded := by
    intro record hrecord
    obtain ⟨hdraw, hpath⟩ := h.recorded record (huploads.subset hrecord)
    exact ⟨hdrawn _ hdraw, hpath⟩
  receiving := h.receiving.sublist (huploading.map _)
  received := by
    intro uploading hmem
    obtain ⟨hdraw, hrecords⟩ := h.received uploading (huploading.subset hmem)
    exact ⟨hdrawn _ hdraw, fun record hrecord => hrecords record (huploads.subset hrecord)⟩

theorem Identified.kept (h : Identified web) (heffect : Effect config web step next) : Identified next := by
  cases heffect with
  | receive uploading hnew =>
    refine ⟨h.records, fun record hrecord => ?_, h.receiving.append fun other hother heq => ?_, fun other hother => ?_⟩
    · obtain ⟨hdraw, hpath⟩ := h.recorded record hrecord
      exact ⟨List.mem_cons_of_mem _ hdraw, hpath⟩
    · exact hnew (heq ▸ (h.received other hother).1)
    · rcases List.mem_append.mp hother with hold | hmine
      · obtain ⟨hdraw, hrecords⟩ := h.received other hold
        exact ⟨List.mem_cons_of_mem _ hdraw, hrecords⟩
      · cases List.mem_singleton.mp hmine
        exact ⟨List.mem_cons_self, fun record hrecord heq => hnew (heq ▸ (h.recorded record hrecord).1)⟩
  | record uploading now hmem =>
    obtain ⟨hdraw, hnew⟩ := h.received uploading hmem
    refine ⟨h.records.append hnew, fun record hrecord => ?_, h.receiving.sublist (List.erase_sublist.map _),
      fun other hother => ?_⟩
    · rcases List.mem_append.mp hrecord with hold | hmine
      · exact h.recorded record hold
      · cases List.mem_singleton.mp hmine
        exact ⟨hdraw, uploading.ofUpload⟩
    · obtain ⟨hdraw', hrecords⟩ := h.received other (List.mem_of_mem_erase hother)
      refine ⟨hdraw', fun record hrecord => ?_⟩
      rcases List.mem_append.mp hrecord with hold | hmine
      · exact hrecords record hold
      · cases List.mem_singleton.mp hmine
        exact (h.ne_of_mem_erase hmem hother).symm
  | createRoot => exact h.sublist (List.Sublist.refl _) (List.Sublist.refl _) fun _ hid => List.mem_cons_of_mem _ hid
  | breakOff | exceed => exact h.sublist (List.Sublist.refl _) List.erase_sublist fun _ hid => hid
  | unregister | sweepUploads => exact h.sublist List.filter_sublist (List.Sublist.refl _) fun _ hid => hid
  | lookupUpload | check | refuse | enqueue | reject | acquire | mark | snapshot | missing | write | unlink | release
  | lookupJob | unregisterNone | removeNone | removeInput | concludeNone | conclude | sweepJobs | openDownload
  | inspectOutput | inspectArchive | createArchive | giveUp | cacheArchive =>
    exact h.sublist (List.Sublist.refl _) (List.Sublist.refl _) fun _ hid => hid

theorem mem_updateJob {jobId : Uuid} {f : WebJob → WebJob} {job' : WebJob} (h : job' ∈ web.updateJob jobId f) :
    ∃ job ∈ web.jobs, (job.jobId = jobId ∧ job' = f job) ∨ (job.jobId ≠ jobId ∧ job' = job) := by
  obtain ⟨job, hjob, heq⟩ := Table.mem_update.mp h
  refine ⟨job, hjob, ?_⟩
  by_cases hid : job.jobId = jobId
  · exact .inl ⟨hid, by simpa [hid] using heq⟩
  · exact .inr ⟨hid, by simpa [hid] using heq⟩

/-! ## The outputs -/

/-- A property of the paths of the outputs and their archives. -/
structure Outputs (Q : WebPath → Prop) (web : WebState) : Prop where
  jobs : ∀ job ∈ web.jobs, Q job.outputPath ∧ ∀ archive ∈ job.archivePath, Q archive
  packaged : ∀ packaging ∈ web.packaging, Q packaging.outputPath
  converted : ∀ execution ∈ web.executions, ∀ job, execution.phase = .converting job → Q job.outputPath

theorem outputs_initial {Q : WebPath → Prop} : Outputs Q config.initial where
  jobs _ hjob := absurd hjob List.not_mem_nil
  packaged _ hpackaging := absurd hpackaging List.not_mem_nil
  converted _ hexecution := absurd hexecution List.not_mem_nil

section Outputs

variable {Q : WebPath → Prop}

theorem Outputs.frame (h : Outputs Q web) (hjobs : ∀ job ∈ next.jobs, job ∈ web.jobs)
    (hpackaging : ∀ packaging ∈ next.packaging, packaging ∈ web.packaging)
    (hexecutions : ∀ execution ∈ next.executions, execution ∈ web.executions ∨
      ∀ job, execution.phase ≠ .converting job) : Outputs Q next where
  jobs job hjob := h.jobs job (hjobs job hjob)
  packaged packaging hmem := h.packaged packaging (hpackaging packaging hmem)
  converted execution hexecution job hconverting := by
    rcases hexecutions execution hexecution with hold | hnot
    · exact h.converted execution hold job hconverting
    · exact absurd hconverting (hnot job)

/-- An execution moves to another phase than that of a conversion. -/
theorem Outputs.advance (h : Outputs Q web) {jobId : Uuid} {phase : ExecutionPhase}
    (hjobs : ∀ job ∈ next.jobs, job ∈ web.jobs) (hpackaging : next.packaging = web.packaging)
    (hexecutions : next.executions = web.advance jobId phase) (hnot : ∀ job, phase ≠ .converting job) :
    Outputs Q next := by
  refine h.frame hjobs (fun _ hmem => hpackaging ▸ hmem) fun execution hexecution => ?_
  rw [hexecutions] at hexecution
  rcases mem_advance hexecution with ⟨hold, -⟩ | rfl
  · exact .inl hold
  · exact .inr hnot

/-- A job changes, and its paths keep the property. -/
theorem Outputs.update (h : Outputs Q web) {jobId : Uuid} {f : WebJob → WebJob}
    (hjobs : next.jobs = web.updateJob jobId f)
    (hf : ∀ job ∈ web.jobs, Q (f job).outputPath ∧ ∀ archive ∈ (f job).archivePath, Q archive)
    (hpackaging : ∀ packaging ∈ next.packaging, packaging ∈ web.packaging)
    (hexecutions : ∀ execution ∈ next.executions, execution ∈ web.executions ∨
      ∀ job, execution.phase ≠ .converting job) : Outputs Q next := by
  refine ⟨fun job' hjob' => ?_, fun packaging hmem => h.packaged packaging (hpackaging packaging hmem),
    fun execution hexecution job hconverting => ?_⟩
  · obtain ⟨job, hjob, ⟨-, heq⟩ | ⟨-, heq⟩⟩ := mem_updateJob (hjobs ▸ hjob')
    · exact heq ▸ hf job hjob
    · exact heq ▸ h.jobs job hjob
  · rcases hexecutions execution hexecution with hold | hnot
    · exact h.converted execution hold job hconverting
    · exact absurd hconverting (hnot job)

theorem Outputs.replace (h : Outputs Q web) {packaging packaging' : Packaging} (hmem : packaging ∈ web.packaging)
    (hpackaging : next.packaging = web.packaging.erase packaging ++ [packaging'])
    (hsame : packaging'.outputPath = packaging.outputPath) (hjobs : next.jobs = web.jobs)
    (hexecutions : next.executions = web.executions) : Outputs Q next := by
  refine ⟨hjobs ▸ h.jobs, fun other hother => ?_, hexecutions ▸ h.converted⟩
  rw [hpackaging] at hother
  rcases List.mem_append.mp hother with hold | hmine
  · exact h.packaged other (List.mem_of_mem_erase hold)
  · rw [List.mem_singleton.mp hmine, hsame]
    exact h.packaged packaging hmem

/-- **Every step** keeps a property of the outputs that their archives have too, if it holds of the
    output that the step plans. -/
theorem Outputs.kept (h : Outputs Q web) (hzip : ∀ output, Q output → Q (config.withExtensionZip output))
    (hplanned : ∀ creating jobId now, step = .enqueue creating jobId now →
      Q (config.plannedOutputPath jobId creating.record creating.target))
    (heffect : Effect config web step next) : Outputs Q next := by
  cases heffect with
  | enqueue creating jobId now =>
    refine ⟨fun job hjob => ?_, h.packaged, fun execution hexecution job hconverting => ?_⟩
    · rcases List.mem_append.mp hjob with hold | hmine
      · exact h.jobs job hold
      · rw [List.mem_singleton.mp hmine]
        exact ⟨hplanned creating jobId now rfl, nofun⟩
    · rcases List.mem_append.mp hexecution with hold | hmine
      · exact h.converted execution hold job hconverting
      · rw [List.mem_singleton.mp hmine] at hconverting
        cases hconverting
  | mark jobId =>
    refine h.update rfl (fun job hjob => ?_) (fun _ hmem => hmem) fun execution hexecution => ?_
    · split
      · exact h.jobs job hjob
      · exact h.jobs job hjob
    · rcases mem_advance hexecution with ⟨hold, -⟩ | rfl
      · exact .inl hold
      · exact .inr nofun
  | snapshot jobId job hphase hjob =>
    refine ⟨h.jobs, h.packaged, fun execution hexecution other hconverting => ?_⟩
    rcases mem_advance hexecution with ⟨hold, -⟩ | rfl
    · exact h.converted execution hold other hconverting
    · cases hconverting
      exact (h.jobs job (job_eq_some hjob).1).1
  | acquire | release | lookupJob | unregisterNone | unregister | removeNone | removeInput =>
    refine h.advance (fun _ hjob => hjob) rfl rfl fun job hconverting => ?_
    cases hconverting
  | missing | concludeNone =>
    exact h.frame (fun _ hjob => hjob) (fun _ hmem => hmem) fun _ hexecution => .inl (Table.mem_delete.mp hexecution).1
  | conclude =>
    exact h.update rfl (fun job hjob => h.jobs job hjob) (fun _ hmem => hmem)
      fun _ hexecution => .inl (Table.mem_delete.mp hexecution).1
  | sweepJobs =>
    exact h.frame (fun _ hjob => List.mem_of_mem_filter hjob) (fun _ hmem => hmem) fun _ hexecution => .inl hexecution
  | openDownload jobId job hjob =>
    refine ⟨h.jobs, fun packaging hmem => ?_, h.converted⟩
    rcases List.mem_append.mp hmem with hold | hmine
    · exact h.packaged packaging hold
    · rw [List.mem_singleton.mp hmine]
      exact (h.jobs job (job_eq_some hjob).1).1
  | inspectOutput packaging _ _ hmem | inspectArchive packaging _ _ hmem | createArchive packaging hmem =>
    exact h.replace hmem rfl rfl rfl rfl
  | giveUp =>
    exact h.frame (fun _ hjob => hjob) (fun _ hmem => List.mem_of_mem_erase hmem) fun _ hexecution => .inl hexecution
  | cacheArchive packaging hmem =>
    refine h.update rfl (fun job hjob => ⟨(h.jobs job hjob).1, fun archive harchive => ?_⟩)
      (fun _ hother => List.mem_of_mem_erase hother) fun _ hexecution => .inl hexecution
    cases harchive
    exact hzip _ (h.packaged packaging hmem)
  | receive | breakOff | exceed | record | lookupUpload | check | refuse | createRoot | reject | write | unlink
  | sweepUploads => exact h.frame (fun _ hjob => hjob) (fun _ hmem => hmem) fun _ hexecution => .inl hexecution

end Outputs

end Anole.Web
