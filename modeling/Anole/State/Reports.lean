import Anole.Common.Crash
import Anole.Common.Files
import Anole.Domain

/-!
# The report directory

Model of `ReportService` (`crates/core/src/application/report_service.rs`, lines 1–216): a
report is replaced through a partial file and a backup in the same directory, and read
back after the backup has been recovered.

The process may stop after any file operation and any written prefix, and any operation may
be refused by the system.

Main results:

* `save_crash_atomic`: whatever happened to earlier saves, a save that stops anywhere
  leaves a directory in which the next read gives the old report or the new one.
* `report_stays`: a report that was saved once is never lost again.
-/

open Common Common.Proc

namespace Anole

/-- The content of a file. -/
abbrev Bytes := List UInt8

/-- The files of the report directory: `{job}.json`, `.{job}.backup` and
    `.{job}.{uuid}.partial` (lines 68–70 and 164–170). -/
inductive ReportFile where
  | report (job : Uuid)
  | backup (job : Uuid)
  | partialFile (job nonce : Uuid)
  deriving DecidableEq

/-- The job a file belongs to. -/
def ReportFile.job : ReportFile → Uuid
  | report job => job
  | backup job => job
  | partialFile job _ => job

/-- The report directory. -/
abbrev ReportDirectory := Files ReportFile Bytes

/-- `serde_json` on `ValidationReport`: `to_vec_pretty` and `from_slice`. -/
structure ReportCodec where
  toVecPretty : ValidationReport → Except String Bytes
  fromSlice : Bytes → Except String ValidationReport

/-- What is written reads back. -/
def ReportCodec.Lossless (codec : ReportCodec) : Prop :=
  ∀ report bytes, codec.toVecPretty report = .ok bytes → codec.fromSlice bytes = .ok report

/-- What the system refuses, each with the text of the `io::Error`. -/
structure ReportIo where
  createDir : Option String
  recover : Option String
  create : Option String
  /-- `write_all` or `sync_all` stops after so many bytes. -/
  write : Option (ℕ × String)
  removePartial : Option String
  moveAway : Option String
  tempPath : Option String
  persist : Option String
  restore : Option String
  removeBackup : Option String
  metadata : Option String
  read : Option String

/-- Nothing is refused. -/
def ReportIo.none : ReportIo :=
  ⟨.none, .none, .none, .none, .none, .none, .none, .none, .none, .none, .none, .none⟩

/-- `MAX_REPORT_BYTES` (line 14). -/
def maxReportBytes : ℕ := 16 * 1024 * 1024

/-- `report_error` (lines 203–205). -/
def reportError (message action : String) : AnoleError :=
  .new .storageFailed .validate message action

/-- `report_io_error` (lines 194–201). -/
def reportIoError (error : String) : AnoleError :=
  (reportError "Unable to persist or read ValidationReport"
    "Check the report directory permissions and available storage, then retry.").withDiagnostic error

namespace ReportService

variable (codec : ReportCodec) (io : ReportIo)

/-- A procedure of the service. -/
abbrev Body (α : Type) := Proc ReportDirectory AnoleError α

/-- `recover_backup` (lines 172–179). -/
def recoverBackup (destination backup : ReportFile) : Body Unit := do
  let files ← get
  if files destination = none ∧ files backup ≠ none then
    tryOp (io.recover.map reportIoError) (·.rename backup destination)
  else if files destination ≠ none ∧ files backup ≠ none then
    tryOp (io.recover.map reportIoError) (·.remove backup)
  else
    pure ()

/-- The closure `write_result` (lines 71–78): every prefix may be what is on the disk. -/
def writePartial (file : ReportFile) (bytes : Bytes) : Body Unit := do
  let files ← get
  if files file ≠ none then fail (reportIoError "File exists (os error 17)")
  tryOp (io.create.map reportIoError) (·.put file [])
  match io.write with
  | none => through (fun files => bytes.inits.map (files.put file)) (·.put file bytes)
  | some (written, error) =>
    through (fun files => (bytes.take written).inits.map (files.put file))
      (·.put file (bytes.take written))
    fail (reportIoError error)

/-- `let _ = fs::remove_file(&partial)`. -/
def discard (file : ReportFile) : Body Unit :=
  if io.removePartial.isNone then op (·.remove file) else pure ()

/-- `persist_partial_noclobber` (lines 207–216). When `persist_noclobber` fails, the
    `TempPath` in its error removes the partial file. -/
def persistPartialNoclobber (file destination backup : ReportFile) : Body Unit := do
  match io.tempPath with
  | some error => fail (reportIoError error)
  | none =>
    let files ← get
    let refused := if files destination ≠ none then some "File exists (os error 17)" else io.persist
    match refused with
    | none => op (·.rename file destination)
    | some error =>
      if files backup ≠ none ∧ files destination = none ∧ io.restore = none then
        op (·.rename backup destination)
      discard io file
      fail (reportIoError error)

/-- The replacement of the report by the written partial file (lines 84–93). -/
def replaceReport (jobId : Uuid) (file : ReportFile) : Body Unit := do
  let files ← get
  if files (.report jobId) ≠ none then
    match io.moveAway with
    | some error =>
      discard io file
      fail (reportIoError error)
    | none => op (·.rename (.report jobId) (.backup jobId))
  persistPartialNoclobber io file (.report jobId) (.backup jobId)
  let files ← get
  if files (.backup jobId) ≠ none then
    tryOp (io.removeBackup.map reportIoError) (·.remove (.backup jobId))

/-- `ReportService::save` (lines 42–95), with the value of `Uuid::new_v4()`. -/
def save (jobId : Uuid) (report : ValidationReport) (nonce : Uuid) : Body Unit := do
  if report.jobId ≠ jobId then
    fail (reportError "ValidationReport job ID does not match its destination"
      "Persist the report under its own Job ID.")
  tryOp (io.createDir.map reportIoError) id
  recoverBackup io (.report jobId) (.backup jobId)
  let bytes ← lift ((codec.toVecPretty report).mapError fun error =>
    (reportError "Unable to serialize ValidationReport"
      "Retry after checking the report schema.").withDiagnostic error)
  if bytes.length > maxReportBytes then
    fail (reportError "ValidationReport exceeds the 16 MiB persistence limit"
      "Reduce diagnostic detail and retry report persistence.")
  let file := .partialFile jobId nonce
  match ← attempt (writePartial io file bytes) with
  | .error error =>
    discard io file
    fail error
  | .ok () => replaceReport io jobId file

/-- `ReportService::read` (lines 103–132). -/
def read (jobId : Uuid) : Body (Option ValidationReport) := do
  recoverBackup io (.report jobId) (.backup jobId)
  let files ← get
  match files (.report jobId) with
  | none => pure none
  | some bytes =>
    if let some error := io.metadata then fail (reportIoError error)
    if bytes.length > maxReportBytes then
      fail (reportError "Stored ValidationReport exceeds the 16 MiB read limit"
        "Restore a valid report or remove the corrupted oversized file.")
    if let some error := io.read then fail (reportIoError error)
    let report ← lift ((codec.fromSlice bytes).mapError fun error =>
      (reportError "Stored ValidationReport is invalid"
        "Restore the report from a trusted application-state backup.").withDiagnostic error)
    if report.jobId ≠ jobId then
      fail (reportError "Stored ValidationReport belongs to another Job ID"
        "Restore the report directory from a consistent backup.")
    pure (some report)

/-! ## What each part leaves -/

/-- What the directory shows for a job: the report file, or its backup. -/
def shown (job : Uuid) (s : ReportDirectory) : Option Bytes := s.visible (.report job) (.backup job)

/-- The files of the other jobs are as before. -/
def SameOthers (job : Uuid) (s t : ReportDirectory) : Prop := ∀ file, file.job ≠ job → t file = s file

/-- Nothing but the file `file` differs. -/
def SameBut (file : ReportFile) (s t : ReportDirectory) : Prop := ∀ other, other ≠ file → t other = s other

/-- The bytes `save` writes for a report of the job. -/
def Stored (job : Uuid) (report : ValidationReport) (bytes : Bytes) : Prop :=
  report.jobId = job ∧ codec.toVecPretty report = .ok bytes ∧ bytes.length ≤ maxReportBytes

section Parts

variable {codec io} {job nonce : Uuid} {report : ValidationReport} {s t u : ReportDirectory} {file : ReportFile}
  {bytes : Bytes}

theorem SameOthers.trans (h : SameOthers job s t) (h' : SameOthers job t u) : SameOthers job s u :=
  fun file hfile => (h' file hfile).trans (h file hfile)

theorem SameOthers.shown_other {other : Uuid} (h : SameOthers job s t) (hne : other ≠ job) :
    shown other t = shown other s :=
  Files.visible_congr (h _ hne) (h _ hne)

theorem SameBut.sameOthers (h : SameBut (.partialFile job nonce) s t) : SameOthers job s t :=
  fun file hfile => h file fun he => hfile (by rw [he]; rfl)

theorem SameBut.shown_eq {other : Uuid} (h : SameBut (.partialFile job nonce) s t) :
    shown other t = shown other s :=
  Files.visible_congr (h _ (by simp)) (h _ (by simp))

/-- Removing and renaming files of the job leaves the other jobs' files alone. -/
theorem sameOthers_remove (h : file.job = job) :
    SameOthers job s (s.remove file) :=
  fun other hother => Files.remove_of_ne fun he => hother (by rw [he, h])

theorem sameOthers_rename {a b : ReportFile} (ha : a.job = job) (hb : b.job = job) :
    SameOthers job s (s.rename a b) :=
  fun other hother => Files.rename_of_ne (fun he => hother (by rw [he, ha]))
    fun he => hother (by rw [he, hb])

theorem recoverBackup_wp : wp (recoverBackup io (.report job) (.backup job))
    (fun t => SameOthers job s t ∧ shown job t = shown job s)
    (fun _ t => io.recover ≠ none ∧ t = s)
    (fun _ t => SameOthers job s t ∧ shown job t = shown job s ∧ t (.backup job) = none) s := by
  have hrefused : ∀ error, io.recover.map reportIoError = some error → io.recover ≠ none := by
    rintro error herror hnone
    rw [hnone] at herror
    cases herror
  unfold recoverBackup
  simp only [wp_bind, wp_get, wp_ite, wp_tryOp, wp_pure]
  refine ⟨fun haway => ⟨fun e he => ⟨hrefused e he, trivial⟩, fun _ => ?_⟩, fun hthere =>
    ⟨fun hfile => ⟨fun e he => ⟨hrefused e he, trivial⟩, fun _ => ?_⟩, fun hnone => ?_⟩⟩
  · have hothers : SameOthers job s (s.rename (.backup job) (.report job)) :=
      sameOthers_rename rfl rfl
    have hshown : shown job _ = shown job s := Files.visible_restore (by simp) haway.1
    exact ⟨⟨hothers, hshown⟩, hothers, hshown, Files.rename_source⟩
  · have hothers : SameOthers job s (s.remove (.backup job)) := sameOthers_remove rfl
    have hshown : shown job _ = shown job s :=
      Files.visible_remove_backup (by simp) (Option.isSome_iff_ne_none.mpr hfile.1)
    exact ⟨⟨hothers, hshown⟩, hothers, hshown, Files.remove_self⟩
  · refine ⟨fun _ _ => rfl, trivial, ?_⟩
    by_contra hbackup
    exact hnone ⟨fun haway => hthere ⟨haway, hbackup⟩, hbackup⟩

theorem sameBut_put (bytes : Bytes) : SameBut file s (s.put file bytes) :=
  fun _ hother => Files.put_of_ne hother

theorem SameBut.put (h : SameBut file s t) (bytes : Bytes) :
    SameBut file s (t.put file bytes) :=
  fun other hother => (Files.put_of_ne hother).trans (h other hother)

theorem writePartial_wp :
    wp (writePartial io file bytes) (SameBut file s) (fun _ => SameBut file s)
      (fun _ t => SameBut file s t ∧ t file = some bytes) s := by
  unfold writePartial
  simp only [wp_bind, wp_get, wp_ite, wp_fail, wp_tryOp]
  refine ⟨fun _ => fun _ _ => rfl, fun _ => ⟨fun _ _ _ _ => rfl, fun _ => ⟨sameBut_put [], ?_⟩⟩⟩
  have hpre : ∀ written : Bytes, ∀ m ∈ written.inits.map ((s.put file []).put file),
      SameBut file s m := by
    intro written m hm
    obtain ⟨pre, -, rfl⟩ := List.mem_map.mp hm
    exact (sameBut_put []).put pre
  cases io.write with
  | none =>
    rw [wp_through]
    exact ⟨hpre bytes, (sameBut_put []).put bytes, (sameBut_put []).put bytes, Files.put_self⟩
  | some refusal =>
    simp only [wp_bind, wp_through, wp_fail]
    exact ⟨hpre _, (sameBut_put []).put _, (sameBut_put []).put _⟩

theorem SameBut.remove (h : SameBut file s t) : SameBut file s (t.remove file) :=
  fun other hother => (Files.remove_of_ne hother).trans (h other hother)

theorem discard_wp (h : SameBut file s t) :
    wp (discard io file) (SameBut file s) (fun _ _ => False) (fun _ => SameBut file s) t := by
  unfold discard
  simp only [wp_ite, wp_op, wp_pure]
  exact ⟨fun _ => ⟨h.remove, h.remove⟩, fun _ => h⟩

/-- With the old content in the backup only, publication ends with the new content, and the
    directory shows one of the two all along. -/
theorem persistPartialNoclobber_wp
    (hfile : s (.partialFile job nonce) = some bytes) (haway : s (.report job) = none) :
    wp (persistPartialNoclobber io (.partialFile job nonce) (.report job) (.backup job))
      (fun t => SameOthers job s t ∧ (shown job t = shown job s ∨ shown job t = some bytes))
      (fun _ t => SameOthers job s t ∧ shown job t = shown job s)
      (fun _ t => SameOthers job s t ∧ t (.report job) = some bytes) s := by
  unfold persistPartialNoclobber
  cases io.tempPath with
  | some error => exact wp_fail.mpr ⟨fun _ _ => rfl, rfl⟩
  | none =>
    simp only [wp_bind, wp_get, haway, ne_eq, not_true_eq_false, if_false]
    cases io.persist with
    | none =>
      have hothers : SameOthers job s (s.rename (.partialFile job nonce) (.report job)) :=
        sameOthers_rename rfl rfl
      have hnew : s.rename (.partialFile job nonce) (.report job) (.report job) = some bytes := by
        rw [Files.rename_target (by simp), hfile]
      exact wp_op.mpr ⟨⟨hothers, .inr (Files.visible_of_some hnew)⟩, hothers, hnew⟩
    | some error =>
      have hdiscard : ∀ t, SameOthers job s t → shown job t = shown job s →
          wp (discard io (.partialFile job nonce))
            (fun t => SameOthers job s t ∧ (shown job t = shown job s ∨ shown job t = some bytes))
            (fun _ t => SameOthers job s t ∧ shown job t = shown job s)
            (fun _ t => SameOthers job s t ∧ shown job t = shown job s) t := by
        intro t hothers hshown
        have hsame : ∀ u, SameBut (.partialFile job nonce) t u →
            SameOthers job s u ∧ shown job u = shown job s :=
          fun u hu => ⟨hothers.trans hu.sameOthers, hu.shown_eq.trans hshown⟩
        refine (discard_wp fun _ _ => rfl).mono ?_ (fun _ _ h => h.elim) fun _ u hu => hsame u hu
        exact fun u hu => ⟨(hsame u hu).1, .inl (hsame u hu).2⟩
      simp only [wp_bind, wp_ite, wp_op, wp_fail]
      refine ⟨fun _ => ?_, fun _ => hdiscard s (fun _ _ => rfl) rfl⟩
      have hothers : SameOthers job s (s.rename (.backup job) (.report job)) :=
        sameOthers_rename rfl rfl
      have hshown : shown job _ = shown job s := Files.visible_restore (by simp) haway
      exact ⟨⟨hothers, .inl hshown⟩, hdiscard _ hothers hshown⟩

variable (codec job report s) in
/-- The other jobs' files are as in `s`, and the directory shows for the job what it showed
    in `s`, or the report. -/
def OldOrNew (t : ReportDirectory) : Prop :=
  SameOthers job s t ∧ (shown job t = shown job s ∨
    ∃ bytes, Stored codec job report bytes ∧ shown job t = some bytes)

variable (codec job report s) in
/-- The other jobs' files are as in `s`, and the directory shows the report for the job. -/
def Replaced (t : ReportDirectory) : Prop :=
  SameOthers job s t ∧ ∃ bytes, Stored codec job report bytes ∧ shown job t = some bytes

theorem Replaced.oldOrNew (h : Replaced codec job report s t) : OldOrNew codec job report s t :=
  ⟨h.1, .inr h.2⟩

theorem OldOrNew.from (hothers : SameOthers job s t) (hshown : shown job t = shown job s)
    (h : OldOrNew codec job report t u) : OldOrNew codec job report s u :=
  ⟨hothers.trans h.1, h.2.imp_left fun hold => hold.trans hshown⟩

theorem Replaced.from (hothers : SameOthers job s t) (h : Replaced codec job report t u) :
    Replaced codec job report s u :=
  ⟨hothers.trans h.1, h.2⟩

/-- The end of the replacement, with the old content in the backup only. -/
theorem publish_wp (hstored : Stored codec job report bytes)
    (hfile : s (.partialFile job nonce) = some bytes) (haway : s (.report job) = none) :
    wp (do
      persistPartialNoclobber io (.partialFile job nonce) (.report job) (.backup job)
      let files ← get
      if files (.backup job) ≠ none then
        tryOp (io.removeBackup.map reportIoError) (·.remove (.backup job)))
      (OldOrNew codec job report s) (fun _ => OldOrNew codec job report s)
      (fun _ => Replaced codec job report s) s := by
  rw [wp_bind]
  refine (persistPartialNoclobber_wp hfile haway).mono ?_ (fun _ t ht => ⟨ht.1, .inl ht.2⟩) ?_
  · rintro t ⟨ht, hold | hnew⟩
    · exact ⟨ht, .inl hold⟩
    · exact ⟨ht, .inr ⟨bytes, hstored, hnew⟩⟩
  · rintro - t ⟨ht, hreport⟩
    have hnew : Replaced codec job report s t := ⟨ht, bytes, hstored, Files.visible_of_some hreport⟩
    have hremoved : Replaced codec job report s (t.remove (.backup job)) := by
      refine ⟨ht.trans (sameOthers_remove rfl), bytes, hstored, Files.visible_of_some ?_⟩
      rw [Files.remove_of_ne (by simp), hreport]
    simp only [wp_bind, wp_get, wp_ite, wp_tryOp, wp_pure]
    exact ⟨fun _ => ⟨fun _ _ => hnew.oldOrNew, fun _ => ⟨hremoved.oldOrNew, hremoved⟩⟩, fun _ => hnew⟩

theorem replaceReport_wp (hstored : Stored codec job report bytes)
    (hfile : s (.partialFile job nonce) = some bytes) :
    wp (replaceReport io job (.partialFile job nonce)) (OldOrNew codec job report s)
      (fun _ => OldOrNew codec job report s) (fun _ => Replaced codec job report s) s := by
  have hstart : ∀ t, SameBut (.partialFile job nonce) s t → OldOrNew codec job report s t :=
    fun t ht => ⟨ht.sameOthers, .inl ht.shown_eq⟩
  unfold replaceReport
  rw [wp_bind, wp_get, wp_ite]
  constructor
  · intro hreport
    cases io.moveAway with
    | some error =>
      simp only [wp_bind, wp_fail]
      exact (discard_wp fun _ _ => rfl).mono hstart (fun _ _ h => h.elim) fun _ => hstart
    | none =>
      have hothers : SameOthers job s (s.rename (.report job) (.backup job)) :=
        sameOthers_rename rfl rfl
      have hshown : shown job _ = shown job s :=
        Files.visible_move_away (by simp) (Option.isSome_iff_ne_none.mpr hreport)
      rw [wp_bind, wp_op]
      refine ⟨⟨hothers, .inl hshown⟩, ?_⟩
      refine (publish_wp hstored ?_ Files.rename_source).mono ?_ ?_ ?_
      · rw [Files.rename_of_ne (by simp) (by simp), hfile]
      · exact fun _ => OldOrNew.from hothers hshown
      · exact fun _ _ => OldOrNew.from hothers hshown
      · exact fun _ _ => Replaced.from hothers
  · intro hreport
    exact publish_wp hstored hfile (not_not.mp hreport)

/-- **What a save leaves.** At every moment the other jobs' files are as before, and the
    directory shows the old content or the report; at the end it shows the report. -/
theorem save_wp : wp (save codec io job report nonce) (OldOrNew codec job report s)
    (fun _ => OldOrNew codec job report s) (fun _ => Replaced codec job report s) s := by
  have hstart : OldOrNew codec job report s s := ⟨fun _ _ => rfl, .inl rfl⟩
  unfold save
  rw [wp_ite]
  refine ⟨fun _ => wp_fail.mpr hstart, fun hjob => ?_⟩
  rw [wp_bind, wp_tryOp]
  refine ⟨fun _ _ => hstart, fun _ => ⟨hstart, ?_⟩⟩
  rw [wp_bind]
  refine recoverBackup_wp.mono (fun t ht => ⟨ht.1, .inl ht.2⟩) (fun _ t ht => ht.2 ▸ hstart) ?_
  rintro - t ⟨hothers, hshown, -⟩
  have holds : OldOrNew codec job report s t := ⟨hothers, .inl hshown⟩
  rw [wp_bind, wp_lift]
  refine ⟨fun _ _ => holds, fun bytes hbytes => ?_⟩
  rw [wp_ite]
  refine ⟨fun _ => wp_fail.mpr holds, fun hsize => ?_⟩
  have hstored : Stored codec job report bytes := by
    refine ⟨not_not.mp hjob, ?_, by omega⟩
    cases hcodec : codec.toVecPretty report with
    | error error => rw [hcodec] at hbytes; cases hbytes
    | ok written => rw [hcodec] at hbytes; cases hbytes; rfl
  -- the partial file changes nothing that is shown
  have hside : ∀ u, SameBut (.partialFile job nonce) t u → OldOrNew codec job report s u :=
    fun u hu => ⟨hothers.trans hu.sameOthers, .inl (hu.shown_eq.trans hshown)⟩
  rw [wp_bind, wp_attempt]
  refine writePartial_wp.mono hside ?_ ?_
  · intro error u hu
    rw [wp_bind]
    exact (discard_wp hu).mono hside (fun _ _ h => h.elim)
      fun _ v hv => wp_fail.mpr (hside v hv)
  · rintro - u ⟨hu, hfile⟩
    have hushown : shown job u = shown job s := hu.shown_eq.trans hshown
    have huothers : SameOthers job s u := hothers.trans hu.sameOthers
    refine (replaceReport_wp hstored hfile).mono ?_ ?_ ?_
    · exact fun _ => OldOrNew.from huothers hushown
    · exact fun _ _ => OldOrNew.from huothers hushown
    · exact fun _ _ => Replaced.from huothers

/-- Reading changes nothing that is shown. -/
theorem read_wp : wp (read codec io job)
    (fun t => SameOthers job s t ∧ shown job t = shown job s)
    (fun _ t => SameOthers job s t ∧ shown job t = shown job s)
    (fun _ t => SameOthers job s t ∧ shown job t = shown job s) s := by
  unfold read
  rw [wp_bind]
  refine recoverBackup_wp.mono (fun _ h => h) (fun _ t ht => ht.2 ▸ ⟨fun _ _ => rfl, rfl⟩) ?_
  rintro - t ⟨hothers, hshown, -⟩
  have hsame : SameOthers job s t ∧ shown job t = shown job s := ⟨hothers, hshown⟩
  rw [wp_bind, wp_get]
  cases t (.report job) with
  | none => exact wp_pure.mpr hsame
  | some bytes =>
    cases io.metadata <;> cases io.read <;>
      simp only [wp_bind, wp_ite, wp_fail, wp_lift, wp_pure] <;> tauto

/-- What a directory shows reads back: nothing as `none`, stored bytes as their report. -/
theorem read_none_wp (hnone : shown job s = none) :
    wp (read codec .none job) (fun _ => True) (fun _ _ => False) (fun old _ => old = none) s := by
  unfold read
  rw [wp_bind]
  refine recoverBackup_wp.mono (fun _ _ => trivial) (fun _ _ h => h.1 rfl) ?_
  rintro - t ⟨-, hshown, hbackup⟩
  have hreport : t (.report job) = none := by
    rwa [shown, Files.visible, hbackup, Option.or_none, hnone] at hshown
  rw [wp_bind, wp_get, hreport]
  exact wp_pure.mpr rfl

theorem read_stored_wp (hlossless : codec.Lossless)
    (hstored : Stored codec job report bytes) (hbytes : shown job s = some bytes) :
    wp (read codec .none job) (fun _ => True) (fun _ _ => False) (fun old _ => old = some report) s := by
  obtain ⟨hjob, hwritten, hsize⟩ := hstored
  unfold read
  rw [wp_bind]
  refine recoverBackup_wp.mono (fun _ _ => trivial) (fun _ _ h => h.1 rfl) ?_
  rintro - t ⟨-, hshown, hbackup⟩
  have hreport : t (.report job) = some bytes := by
    rwa [shown, Files.visible, hbackup, Option.or_none, hbytes] at hshown
  rw [wp_bind, wp_get, hreport]
  show wp (if bytes.length > maxReportBytes then _ else _) _ _ _ t
  rw [if_neg (by omega)]
  show wp (lift ((codec.fromSlice bytes).mapError _) >>= _) _ _ _ t
  rw [hlossless report bytes hwritten, wp_bind]
  refine wp_ret.mpr ?_
  rw [wp_ite]
  exact ⟨fun hne => absurd hjob hne, fun _ => wp_pure.mpr rfl⟩

theorem read_of_shown_none (h : shown job s = none) :
    (read codec .none job s).result = .ok none := by
  obtain ⟨_, _, hread, rfl⟩ := (read_none_wp h).succeeds
  exact hread.1

theorem read_of_stored (hlossless : codec.Lossless)
    (hstored : Stored codec job report bytes) (hbytes : shown job s = some bytes) :
    (read codec .none job s).result = .ok (some report) := by
  obtain ⟨_, _, hread, rfl⟩ := (read_stored_wp hlossless hstored hbytes).succeeds
  exact hread.1

end Parts

/-! ## Runs of the service -/

/-- A call of `save` or `read` that ends or is cut off anywhere. -/
inductive ReportStep (s : ReportDirectory) : ReportDirectory → Prop
  | save (io : ReportIo) (job : Uuid) (report : ValidationReport) (nonce : Uuid) {t : ReportDirectory} :
      Leaves (save codec io job report nonce) s t → ReportStep s t
  | read (io : ReportIo) (job : Uuid) {t : ReportDirectory} : Leaves (read codec io job) s t →
      ReportStep s t

/-- The directories that calls lead to from an empty one. -/
def Reachable : ReportDirectory → Prop := Relation.ReflTransGen (ReportStep codec) fun _ => none

/-- Whatever is shown was written by `save`. -/
def Sound (s : ReportDirectory) : Prop :=
  ∀ job bytes, shown job s = some bytes → ∃ report, Stored codec job report bytes

section Runs

variable {codec} {s t : ReportDirectory}

/-- A step keeps what is shown for a job, or replaces it by a report. -/
theorem ReportStep.shown_eq (h : ReportStep codec s t) (job : Uuid) : shown job t = shown job s ∨
    ∃ report bytes, Stored codec job report bytes ∧ shown job t = some bytes := by
  cases h with
  | save io job' report nonce h =>
    have hold : OldOrNew codec job' report s s := ⟨fun _ _ => rfl, .inl rfl⟩
    obtain ⟨hothers, hshown⟩ := h.of_wp
      (save_wp.mono (fun _ h => h) (fun _ _ h => h) fun _ _ h => h.oldOrNew) hold
    by_cases hjob : job = job'
    · subst hjob
      exact hshown.imp_right fun hnew => ⟨report, hnew⟩
    · exact .inl (hothers.shown_other hjob)
  | read io job' h =>
    have hold : SameOthers job' s s ∧ shown job' s = shown job' s := ⟨fun _ _ => rfl, rfl⟩
    obtain ⟨hothers, hshown⟩ := h.of_wp read_wp hold
    by_cases hjob : job = job'
    · subst hjob
      exact .inl hshown
    · exact .inl (hothers.shown_other hjob)

theorem ReportStep.sound (h : ReportStep codec s t) (hs : Sound codec s) : Sound codec t := by
  intro job bytes hbytes
  rcases h.shown_eq job with hold | ⟨report, written, hstored, hnew⟩
  · exact hs job bytes (hold ▸ hbytes)
  · rw [hnew] at hbytes
    cases hbytes
    exact ⟨report, hstored⟩

theorem Reachable.sound (h : Reachable codec s) : Sound codec s := by
  induction h with
  | refl => exact fun _ _ hbytes => by cases hbytes
  | tail _ hstep ih => exact hstep.sound ih

theorem shown_stays (h : Relation.ReflTransGen (ReportStep codec) s t) {job : Uuid}
    (hshown : shown job s ≠ none) : shown job t ≠ none := by
  induction h with
  | refl => exact hshown
  | tail _ hstep ih =>
    rcases hstep.shown_eq job with hold | ⟨_, _, _, hnew⟩
    · rwa [hold]
    · rw [hnew]
      exact Option.some_ne_none _

theorem Sound.read_eq (hlossless : codec.Lossless) (hs : Sound codec s) (job : Uuid) :
    ∃ old, (read codec .none job s).result = .ok old ∧
      ∀ t, shown job t = shown job s → (read codec .none job t).result = .ok old := by
  cases hshown : shown job s with
  | none => exact ⟨none, read_of_shown_none hshown, fun t ht => read_of_shown_none ht⟩
  | some bytes =>
    obtain ⟨report, hstored⟩ := hs job bytes hshown
    exact ⟨some report, read_of_stored hlossless hstored hshown,
      fun t ht => read_of_stored hlossless hstored ht⟩

theorem Sound.read_isSome (hlossless : codec.Lossless) (hs : Sound codec s) {job : Uuid}
    (hshown : shown job s ≠ none) :
    ∃ report, (read codec .none job s).result = .ok (some report) := by
  obtain ⟨bytes, hbytes⟩ := Option.ne_none_iff_exists'.mp hshown
  obtain ⟨report, hstored⟩ := hs job bytes hbytes
  exact ⟨report, read_of_stored hlossless hstored hbytes⟩

/-- **Report replacement is crash-atomic.** In a directory that any calls have left, cut off
    or not, a save that stops anywhere leaves the old report or the new one to the next
    read, and the other jobs' reports as they were. A save that succeeds leaves the new
    one, and a report that can be read once can be read after any further calls. -/
theorem save_crash_atomic (hlossless : codec.Lossless) (hs : Reachable codec s) (io : ReportIo)
    (job : Uuid) (report : ValidationReport) (nonce : Uuid)
    (ht : Leaves (save codec io job report nonce) s t) :
    (∃ old, (read codec .none job s).result = .ok old ∧
      ((read codec .none job t).result = .ok old ∨
        (read codec .none job t).result = .ok (some report))) ∧
    (∀ other, other ≠ job → ∃ old, (read codec .none other s).result = .ok old ∧
      (read codec .none other t).result = .ok old) ∧
    (Succeeds (save codec io job report nonce) s () t →
      (read codec .none job t).result = .ok (some report)) ∧
    (∀ u, Relation.ReflTransGen (ReportStep codec) t u → ∀ other saved,
      (read codec .none other t).result = .ok (some saved) →
        ∃ found, (read codec .none other u).result = .ok (some found)) := by
  have hstep : ReportStep codec s t := .save io job report nonce ht
  have hsound := hs.sound
  have hold : OldOrNew codec job report s s := ⟨fun _ _ => rfl, .inl rfl⟩
  obtain ⟨hothers, hshown⟩ := ht.of_wp
    (save_wp.mono (fun _ h => h) (fun _ _ h => h) fun _ _ h => h.oldOrNew) hold
  refine ⟨?_, ?_, ?_, ?_⟩
  · obtain ⟨old, hread, hsame⟩ := hsound.read_eq hlossless job
    refine ⟨old, hread, ?_⟩
    rcases hshown with hkept | ⟨bytes, hstored, hbytes⟩
    · exact .inl (hsame t hkept)
    · exact .inr (read_of_stored hlossless hstored hbytes)
  · intro other hne
    obtain ⟨old, hread, hsame⟩ := hsound.read_eq hlossless other
    exact ⟨old, hread, hsame t (hothers.shown_other hne)⟩
  · intro hdone
    obtain ⟨-, bytes, hstored, hbytes⟩ := hdone.of_wp save_wp
    exact read_of_stored hlossless hstored hbytes
  · intro u hu other saved hread
    have hthere : shown other t ≠ none := by
      intro hnone
      rw [read_of_shown_none hnone] at hread
      cases hread
    have hsoundu : Sound codec u := Reachable.sound ((hs.tail hstep).trans hu)
    exact hsoundu.read_isSome hlossless (shown_stays hu hthere)

end Runs

end ReportService

namespace ReportService.Sample

open ReportService

def passed : ValidationReport :=
  { jobId := 7, planHash := "plan", status := .pass, outputSizeBytes := 3 }

def failed : ValidationReport := { passed with status := .fail }

/-- A serialiser for two reports. -/
def codec : ReportCodec :=
  { toVecPretty := fun report =>
      if report = passed then .ok [112] else if report = failed then .ok [102] else .error "other"
    fromSlice := fun bytes =>
      if bytes = [112] then .ok passed else if bytes = [102] then .ok failed else .error "other" }

theorem codec_lossless : codec.Lossless := by
  intro report bytes h
  simp only [codec] at h ⊢
  split_ifs at h with hp hf
  · cases h
    rw [hp]
    rfl
  · cases h
    rw [hf]
    rfl

/-- The directory after a first save. -/
def saved : ReportDirectory := (save codec .none 7 passed 1 fun _ => none).final

/-- The second save is cut off when the first report has been moved away. -/
def away : ReportDirectory := (save codec .none 7 failed 2 saved).moments.getD 5 saved

/-- The old report is back after the crash. -/
theorem save_crash_atomic_away :
    (∃ old, (read codec .none 7 saved).result = .ok old ∧
      ((read codec .none 7 away).result = .ok old ∨
        (read codec .none 7 away).result = .ok (some failed))) ∧
    (∀ other, other ≠ 7 → ∃ old, (read codec .none other saved).result = .ok old ∧
      (read codec .none other away).result = .ok old) ∧
    (Succeeds (save codec .none 7 failed 2) saved () away →
      (read codec .none 7 away).result = .ok (some failed)) ∧
    (∀ u, Relation.ReflTransGen (ReportStep codec) away u → ∀ other report,
      (read codec .none other away).result = .ok (some report) →
        ∃ found, (read codec .none other u).result = .ok (some found)) :=
  save_crash_atomic codec_lossless
    (.tail .refl (.save .none 7 passed 1 (.inr rfl))) .none 7 failed 2
    (.inl (.inr (List.mem_of_getElem? (i := 5) rfl)))

end ReportService.Sample

end Anole
