import Anole.Common.Trace
import Anole.State.Reports

/-!
# A save among reads of the same report

`ReportService::save` and any number of `ReportService::read` calls for one job
(`crates/core/src/application/report_service.rs`, lines 42–216) on a shared directory. Every
file operation is a step, and the steps of the calls interleave in any order; nothing is
refused by the system and nothing crashes.

Results:
* `save_undisturbed`: a run in which no step meets the race below saves the new report,
  and every read returns the old report or the new one.

**Deviation.** A read performs `recover_backup`. Between the two renames of a save the old
report is only in the backup, and a read that finds it so moves it back: the publication
then fails, and the new report is lost (`Sample.read_breaks_save`). A read that looks for
the report at that time finds none.
-/

open Common

namespace Anole

namespace ReportService

/-! ## The calls, operation by operation -/

/-- The next operation of `recover_backup` (lines 172–179). -/
inductive RecoverPc where
  | destinationExists | backupIsFile | restore | destinationIsFile | backupIsFileToo | dropBackup

/-- What follows an operation of `recover_backup`. -/
inductive RecoverNext where
  | goOn (pc : RecoverPc)
  | recovered
  | failed (error : AnoleError)

/-- The next operation of `read` (lines 103–132). -/
inductive ReadPc where
  | recover (pc : RecoverPc)
  | isFile | metadata | read
  | returned (result : Except AnoleError (Option ValidationReport))

/-- The next operation of `save` (lines 42–95) with `persist_partial_noclobber` (lines
    207–216). `persist` remembers whether a report was moved away. -/
inductive SavePc where
  | start
  | recover (pc : RecoverPc)
  | create | write | isFile | moveAway
  | persist (replaces : Bool)
  | backupIsFile | removeBackup
  | undoBackupIsFile | undoExists | undo
  | discard (error : AnoleError)
  | returned (result : Except AnoleError Unit)

/-- The error of an operation on a file that is not there. -/
def notFound : AnoleError := reportIoError "No such file or directory (os error 2)"

/-- The error of a publication over a file. -/
def fileExists : AnoleError := reportIoError "File exists (os error 17)"

section Steps

variable (codec : ReportCodec) (job : Uuid) (report : ValidationReport) (nonce : Uuid)
  (files : ReportDirectory)

/-- One operation of `recover_backup`. -/
def recoverStep : RecoverPc → ReportDirectory × RecoverNext
  | .destinationExists => (files, .goOn
      (if files (.report job) = none then .backupIsFile else .destinationIsFile))
  | .backupIsFile => (files, .goOn
      (if files (.backup job) = none then .destinationIsFile else .restore))
  | .restore =>
    if files (.backup job) = none then (files, .failed notFound)
    else (files.rename (.backup job) (.report job), .recovered)
  | .destinationIsFile =>
    (files, if files (.report job) = none then .recovered else .goOn .backupIsFileToo)
  | .backupIsFileToo =>
    (files, if files (.backup job) = none then .recovered else .goOn .dropBackup)
  | .dropBackup =>
    if files (.backup job) = none then (files, .failed notFound)
    else (files.remove (.backup job), .recovered)

/-- What `read` makes of the bytes of the report (lines 116–131). -/
def parseReport (bytes : Bytes) : Except AnoleError (Option ValidationReport) := do
  let report ← (codec.fromSlice bytes).mapError fun error =>
    (reportError "Stored ValidationReport is invalid"
      "Restore the report from a trusted application-state backup.").withDiagnostic error
  if report.jobId ≠ job then
    throw (reportError "Stored ValidationReport belongs to another Job ID"
      "Restore the report directory from a consistent backup.")
  return some report

/-- One operation of `read`. -/
def readStep : ReadPc → ReportDirectory × ReadPc
  | .recover pc => match recoverStep job files pc with
    | (files, .goOn pc) => (files, .recover pc)
    | (files, .recovered) => (files, .isFile)
    | (files, .failed error) => (files, .returned (.error error))
  | .isFile => (files, if files (.report job) = none then .returned (.ok none) else .metadata)
  | .metadata => match files (.report job) with
    | none => (files, .returned (.error notFound))
    | some bytes =>
      if bytes.length > maxReportBytes then
        (files, .returned (.error (reportError "Stored ValidationReport exceeds the 16 MiB read limit"
          "Restore a valid report or remove the corrupted oversized file.")))
      else (files, .read)
  | .read => match files (.report job) with
    | none => (files, .returned (.error notFound))
    | some bytes => (files, .returned (parseReport codec job bytes))
  | .returned result => (files, .returned result)

/-- The bytes `save` writes, after the checks that use no file (lines 43–66). -/
def reportBytes : Except AnoleError Bytes := do
  let bytes ← (codec.toVecPretty report).mapError fun error =>
    (reportError "Unable to serialize ValidationReport"
      "Retry after checking the report schema.").withDiagnostic error
  if bytes.length > maxReportBytes then
    throw (reportError "ValidationReport exceeds the 16 MiB persistence limit"
      "Reduce diagnostic detail and retry report persistence.")
  return bytes

/-- One operation of `save`; `start` is `create_dir_all`. -/
def saveStep : SavePc → ReportDirectory × SavePc
  | .start =>
    if report.jobId ≠ job then
      (files, .returned (.error (reportError "ValidationReport job ID does not match its destination"
        "Persist the report under its own Job ID.")))
    else (files, .recover .destinationExists)
  | .recover pc => match recoverStep job files pc with
    | (files, .goOn pc) => (files, .recover pc)
    | (files, .recovered) => (files, .create)
    | (files, .failed error) => (files, .returned (.error error))
  | .create => match reportBytes codec report with
    | .error error => (files, .returned (.error error))
    | .ok _ =>
      if files (.partialFile job nonce) = none then (files.put (.partialFile job nonce) [], .write)
      else (files, .discard fileExists)
  | .write => match reportBytes codec report with
    | .error error => (files, .returned (.error error))
    | .ok bytes => (files.put (.partialFile job nonce) bytes, .isFile)
  | .isFile => (files, if files (.report job) = none then .persist false else .moveAway)
  | .moveAway =>
    if files (.report job) = none then (files, .discard notFound)
    else (files.rename (.report job) (.backup job), .persist true)
  | .persist _ =>
    if files (.report job) = none then
      (files.rename (.partialFile job nonce) (.report job), .backupIsFile)
    else (files, .undoBackupIsFile)
  | .backupIsFile =>
    (files, if files (.backup job) = none then .returned (.ok ()) else .removeBackup)
  | .removeBackup =>
    if files (.backup job) = none then (files, .returned (.error notFound))
    else (files.remove (.backup job), .returned (.ok ()))
  | .undoBackupIsFile =>
    (files, if files (.backup job) = none then .discard fileExists else .undoExists)
  | .undoExists =>
    (files, if files (.report job) = none then .undo else .discard fileExists)
  | .undo =>
    -- `let _ = fs::rename(backup, destination)`
    (if files (.backup job) = none then files else files.rename (.backup job) (.report job),
      .discard fileExists)
  | .discard error => (files.remove (.partialFile job nonce), .returned (.error error))
  | .returned result => (files, .returned result)

end Steps

/-! ## The interleavings -/

/-- The shared directory, and how far the calls are. -/
structure Race where
  files : ReportDirectory
  save : SavePc
  reads : ℕ → ReadPc

/-- Who makes the next step. -/
inductive Actor where
  | save
  | read (i : ℕ)
  deriving DecidableEq

/-- A directory on which a save and any number of reads are called. -/
def Race.start (files : ReportDirectory) : Race :=
  { files := files, save := .start, reads := fun _ => .recover .destinationExists }

section Races

variable (codec : ReportCodec) (job : Uuid) (report : ValidationReport) (nonce : Uuid)

/-- The next operation of one of the calls. -/
def Race.step (race : Race) : Actor → Race
  | .save =>
    let (files, pc) := saveStep codec job report nonce race.files race.save
    { race with files := files, save := pc }
  | .read i =>
    let (files, pc) := readStep codec job race.files (race.reads i)
    { race with files := files, reads := Function.update race.reads i pc }

/-- The save has not moved the report away yet. -/
def SavePc.beforeMove : SavePc → Bool
  | .start | .recover _ | .create | .write | .isFile | .moveAway => true
  | _ => false

/-- The next operation of the save does not meet the race: the backup that it moves or
    removes is still there. -/
def SavePc.Undisturbed (files : ReportDirectory) : SavePc → Prop
  | .recover .restore | .recover .dropBackup | .removeBackup => files (.backup job) ≠ none
  | _ => True

/-- The next operation of a read does not meet the race: the backup that it moves or removes
    is still there, it does not move it back once the save has moved the report away, and it
    does not look for the report while that is away. -/
def ReadPc.Undisturbed (files : ReportDirectory) (save : SavePc) : ReadPc → Prop
  | .recover .restore => files (.backup job) ≠ none ∧ save.beforeMove = true
  | .recover .dropBackup => files (.backup job) ≠ none
  | .isFile | .metadata | .read => save ≠ .persist true
  | _ => True

/-- The next operation does not meet the race. -/
def Race.Undisturbed (race : Race) : Actor → Prop
  | .save => race.save.Undisturbed job race.files
  | .read i => (race.reads i).Undisturbed job race.files race.save

/-- Runs of undisturbed steps. -/
abbrev UndisturbedRun : Race → List Actor → Race → Prop :=
  Trace fun race actor race' => race.Undisturbed job actor ∧
    race' = race.step codec job report nonce actor

end Races

/-! ## What the calls rely on -/

section Invariant

variable {codec : ReportCodec} {job nonce : Uuid} {report : ValidationReport} {bytes : Bytes}
  {content : Option Bytes} {old : Option ValidationReport} {files files' : ReportDirectory}
  {pc : RecoverPc}

/-- Before the report is moved away: what an operation of `recover_backup` knows. -/
def RecoverPc.Knows (job : Uuid) (content : Option Bytes) (files : ReportDirectory) :
    RecoverPc → Prop
  | .destinationExists => True
  | .backupIsFile | .restore => files (.report job) = none ∨ files (.backup job) = none
  | .destinationIsFile => files (.report job) = content
  | .backupIsFileToo | .dropBackup => files (.report job) = content ∧ content ≠ none

/-- Before the report is moved away: what an operation of `read` knows. -/
def ReadPc.Knows (job : Uuid) (content : Option Bytes) (files : ReportDirectory) : ReadPc → Prop
  | .recover pc => pc.Knows job content files
  | .isFile => files (.report job) = content
  | .metadata | .read => files (.report job) = content ∧ content ≠ none
  | .returned _ => True

/-- What the calls may do to the directory before the report is moved away: nothing that
    they know of, dropping the backup, or moving it back. -/
def Recovers (job : Uuid) (content : Option Bytes) (files files' : ReportDirectory) : Prop :=
  (files' (.report job) = files (.report job) ∧
    (files' (.backup job) = files (.backup job) ∨
      (files' (.backup job) = none ∧ files (.report job) ≠ none))) ∨
  (files (.report job) = none ∧ files' (.report job) = content ∧ files' (.backup job) = none)

theorem Recovers.refl : Recovers job content files files := .inl ⟨rfl, .inl rfl⟩

theorem Recovers.shown_eq (h : Recovers job content files files')
    (hshown : shown job files = content) : shown job files' = content := by
  unfold shown Files.visible at *
  rcases h with ⟨hreport, hbackup | ⟨hnone, hthere⟩⟩ | ⟨-, hreport, hbackup⟩
  · rw [hreport, hbackup, hshown]
  · obtain ⟨v, hv⟩ := Option.ne_none_iff_exists'.mp hthere
    rw [hreport, hnone, hv]
    rw [hv] at hshown
    exact hshown
  · rw [hreport, hbackup, Option.or_none]

theorem Recovers.stays (h : Recovers job content files files') (hcontent : files (.report job) = content) :
    files' (.report job) = content := by
  rcases h with ⟨hreport, -⟩ | ⟨-, hreport, -⟩
  · exact hreport.trans hcontent
  · exact hreport

/-- What is known stays known. -/
theorem RecoverPc.Knows.recovers (h : pc.Knows job content files)
    (hstep : Recovers job content files files') : pc.Knows job content files' := by
  have haway : files (.report job) = none ∨ files (.backup job) = none →
      files' (.report job) = none ∨ files' (.backup job) = none := by
    intro haway
    rcases hstep with ⟨hreport, hbackup | ⟨hbackup, -⟩⟩ | ⟨-, -, hbackup⟩
    · exact haway.imp (hreport.trans ·) (hbackup.trans ·)
    · exact .inr hbackup
    · exact .inr hbackup
  cases pc with
  | destinationExists => trivial
  | backupIsFile => exact haway h
  | restore => exact haway h
  | destinationIsFile => exact Recovers.stays hstep h
  | backupIsFileToo => exact ⟨Recovers.stays hstep h.1, h.2⟩
  | dropBackup => exact ⟨Recovers.stays hstep h.1, h.2⟩

theorem ReadPc.Knows.recovers {pc : ReadPc} (h : pc.Knows job content files)
    (hstep : Recovers job content files files') : pc.Knows job content files' := by
  cases pc with
  | recover pc => exact RecoverPc.Knows.recovers h hstep
  | isFile => exact Recovers.stays hstep h
  | metadata => exact ⟨Recovers.stays hstep h.1, h.2⟩
  | read => exact ⟨Recovers.stays hstep h.1, h.2⟩
  | returned => trivial

/-- **Step of `recover_backup`** before the report is moved away, when the backup that it
    moves or drops is there: it never fails, and ends with the report in its place. -/
theorem recoverStep_before (hshown : shown job files = content)
    (hknows : pc.Knows job content files)
    (hthere : pc = .restore ∨ pc = .dropBackup → files (.backup job) ≠ none) :
    Recovers job content files (recoverStep job files pc).1 ∧
    match (recoverStep job files pc).2 with
    | .goOn next => next.Knows job content (recoverStep job files pc).1
    | .recovered => (recoverStep job files pc).1 (.report job) = content
    | .failed _ => False := by
  have hplace : files (.backup job) = none → files (.report job) = content := by
    intro hbackup
    rwa [shown, Files.visible, hbackup, Option.or_none] at hshown
  have hreport : files (.report job) ≠ none → files (.report job) = content := by
    intro hreport
    obtain ⟨v, hv⟩ := Option.ne_none_iff_exists'.mp hreport
    rw [← hshown, hv, shown, Files.visible_of_some hv]
  cases pc with
  | destinationExists =>
    refine ⟨.refl, ?_⟩
    unfold recoverStep
    by_cases hnone : files (.report job) = none
    · rw [if_pos hnone]
      exact .inl hnone
    · rw [if_neg hnone]
      exact hreport hnone
  | backupIsFile =>
    refine ⟨.refl, ?_⟩
    unfold recoverStep
    by_cases hnone : files (.backup job) = none
    · rw [if_pos hnone]
      exact hplace hnone
    · rw [if_neg hnone]
      exact hknows
  | restore =>
    have hbackup := hthere (.inl rfl)
    have haway : files (.report job) = none := hknows.resolve_right hbackup
    have hback : files.rename (.backup job) (.report job) (.report job) = content := by
      rw [Files.rename_target (by simp), ← hshown, shown, Files.visible_of_none haway]
    have hstep : recoverStep job files .restore = (files.rename (.backup job) (.report job), .recovered) :=
      if_neg hbackup
    rw [hstep]
    exact ⟨.inr ⟨haway, hback, Files.rename_source⟩, hback⟩
  | destinationIsFile =>
    refine ⟨.refl, ?_⟩
    by_cases hnone : files (.report job) = none
    · have hstep : recoverStep job files .destinationIsFile = (files, .recovered) := by
        rw [recoverStep, if_pos hnone]
      rw [hstep]
      exact hknows
    · have hstep : recoverStep job files .destinationIsFile = (files, .goOn .backupIsFileToo) := by
        rw [recoverStep, if_neg hnone]
      rw [hstep]
      exact ⟨hknows, hknows ▸ hnone⟩
  | backupIsFileToo =>
    refine ⟨.refl, ?_⟩
    by_cases hnone : files (.backup job) = none
    · have hstep : recoverStep job files .backupIsFileToo = (files, .recovered) := by
        rw [recoverStep, if_pos hnone]
      rw [hstep]
      exact hknows.1
    · have hstep : recoverStep job files .backupIsFileToo = (files, .goOn .dropBackup) := by
        rw [recoverStep, if_neg hnone]
      rw [hstep]
      exact hknows
  | dropBackup =>
    have hsame : files.remove (.backup job) (.report job) = files (.report job) :=
      Files.remove_of_ne (by simp)
    have hstep : recoverStep job files .dropBackup = (files.remove (.backup job), .recovered) :=
      if_neg (hthere (.inr rfl))
    rw [hstep]
    exact ⟨.inl ⟨hsame, .inr ⟨Files.remove_self, hknows.1 ▸ hknows.2⟩⟩, hsame.trans hknows.1⟩

/-- The recovery has no business with partial files. -/
theorem recoverStep_staged (pc : RecoverPc) :
    (recoverStep job files pc).1 (.partialFile job nonce) = files (.partialFile job nonce) := by
  cases pc with
  | restore =>
    rw [recoverStep]
    split
    · rfl
    · show files.rename (.backup job) (.report job) (.partialFile job nonce) = _
      rw [Files.rename_of_ne (by simp) (by simp)]
  | dropBackup =>
    rw [recoverStep]
    split
    · rfl
    · show files.remove (.backup job) (.partialFile job nonce) = _
      rw [Files.remove_of_ne (by simp)]
  | _ => rfl

/-- A recovery that moves nothing back keeps the report, and fails only if it finds the
    backup that it drops gone. -/
theorem recoverStep_after (hmoves : pc ≠ .restore)
    (hthere : pc = .dropBackup → files (.backup job) ≠ none) :
    (recoverStep job files pc).1 (.report job) = files (.report job) ∧
    ∀ error, (recoverStep job files pc).2 ≠ .failed error := by
  cases pc with
  | restore => exact absurd rfl hmoves
  | dropBackup =>
    have hsame : files.remove (.backup job) (.report job) = files (.report job) :=
      Files.remove_of_ne (by simp)
    rw [recoverStep, if_neg (hthere rfl)]
    exact ⟨hsame, fun _ h => by cases h⟩
  | destinationIsFile =>
    refine ⟨rfl, fun error h => ?_⟩
    rw [recoverStep] at h
    split at h <;> cases h
  | backupIsFileToo =>
    refine ⟨rfl, fun error h => ?_⟩
    rw [recoverStep] at h
    split at h <;> cases h
  | destinationExists => exact ⟨rfl, fun _ h => by cases h⟩
  | backupIsFile => exact ⟨rfl, fun _ h => by cases h⟩

/-- What reading the content returns. -/
def Gives (codec : ReportCodec) (job : Uuid) (old : Option ValidationReport) :
    Option Bytes → Prop
  | none => old = none
  | some bytes => bytes.length ≤ maxReportBytes ∧ parseReport codec job bytes = .ok old

/-- **Step of `read`** before the report is moved away. -/
theorem readStep_before {pc : ReadPc} {old : Option ValidationReport}
    (hgives : Gives codec job old content) (hshown : shown job files = content)
    (hknows : pc.Knows job content files)
    (hthere : pc = .recover .restore ∨ pc = .recover .dropBackup → files (.backup job) ≠ none) :
    Recovers job content files (readStep codec job files pc).1 ∧
    (readStep codec job files pc).2.Knows job content (readStep codec job files pc).1 ∧
    ∀ result, (readStep codec job files pc).2 = .returned result →
      pc = .returned result ∨ result = .ok old := by
  cases pc with
  | recover pc =>
    have hstep := recoverStep_before hshown hknows fun h => hthere (h.imp (congrArg _) (congrArg _))
    rw [readStep]
    revert hstep
    rcases recoverStep job files pc with ⟨files', next | _ | error⟩
    · exact fun ⟨hrec, hnext⟩ => ⟨hrec, hnext, fun _ h => by cases h⟩
    · exact fun ⟨hrec, hnext⟩ => ⟨hrec, hnext, fun _ h => by cases h⟩
    · exact fun ⟨_, hnext⟩ => hnext.elim
  | isFile =>
    rw [readStep]
    by_cases hnone : files (.report job) = none
    · have hcontent : content = none := hknows.symm.trans hnone
      rw [hcontent] at hgives
      rw [if_pos hnone]
      refine ⟨.refl, trivial, fun result h => .inr ?_⟩
      cases h
      rw [show old = none from hgives]
    · rw [if_neg hnone]
      exact ⟨.refl, ⟨hknows, hknows ▸ hnone⟩, fun _ h => by cases h⟩
  | metadata =>
    obtain ⟨bytes, hbytes⟩ := Option.ne_none_iff_exists'.mp hknows.2
    rw [hbytes] at hgives
    have hsize : ¬ bytes.length > maxReportBytes := by have := hgives.1; omega
    rw [readStep, hknows.1, hbytes]
    simp only [hsize, if_false]
    exact ⟨.refl, ⟨hknows.1.trans hbytes, Option.some_ne_none _⟩, fun _ h => by cases h⟩
  | read =>
    obtain ⟨bytes, hbytes⟩ := Option.ne_none_iff_exists'.mp hknows.2
    rw [hbytes] at hgives
    rw [readStep, hknows.1, hbytes]
    refine ⟨.refl, trivial, fun result h => .inr ?_⟩
    cases h
    exact hgives.2
  | returned result => exact ⟨.refl, trivial, fun _ h => .inl h⟩

/-- **Step of `read`** after the report is moved away, when the read does not move the
    backup back and looks for the report only once the new one is there. -/
theorem readStep_after {pc : ReadPc} (hmoves : pc ≠ .recover .restore)
    (hthere : pc = .recover .dropBackup → files (.backup job) ≠ none)
    (hlooks : pc = .isFile ∨ pc = .metadata ∨ pc = .read → ∃ bytes,
      files (.report job) = some bytes ∧ Gives codec job (some report) (some bytes)) :
    (readStep codec job files pc).1 (.report job) = files (.report job) ∧
    ∀ result, (readStep codec job files pc).2 = .returned result →
      pc = .returned result ∨ result = .ok (some report) := by
  cases pc with
  | recover pc =>
    have hstep := recoverStep_after (fun h => hmoves (congrArg _ h)) fun h => hthere (congrArg _ h)
    rw [readStep]
    revert hstep
    rcases recoverStep job files pc with ⟨files', next | _ | error⟩
    · exact fun ⟨hsame, _⟩ => ⟨hsame, fun _ h => by cases h⟩
    · exact fun ⟨hsame, _⟩ => ⟨hsame, fun _ h => by cases h⟩
    · exact fun ⟨_, hfails⟩ => absurd rfl (hfails error)
  | isFile =>
    obtain ⟨bytes, hbytes, -⟩ := hlooks (.inl rfl)
    rw [readStep, if_neg (by rw [hbytes]; exact Option.some_ne_none _)]
    exact ⟨rfl, fun _ h => by cases h⟩
  | metadata =>
    obtain ⟨bytes, hbytes, hgives⟩ := hlooks (.inr (.inl rfl))
    have hsize : ¬ bytes.length > maxReportBytes := by have := hgives.1; omega
    rw [readStep, hbytes]
    simp only [hsize, if_false]
    exact ⟨hbytes, fun _ h => by cases h⟩
  | read =>
    obtain ⟨bytes, hbytes, hgives⟩ := hlooks (.inr (.inr rfl))
    rw [readStep, hbytes]
    refine ⟨hbytes, fun result h => .inr ?_⟩
    cases h
    exact hgives.2
  | returned result => exact ⟨rfl, fun _ h => .inl h⟩

theorem readStep_staged (pc : ReadPc) :
    (readStep codec job files pc).1 (.partialFile job nonce) = files (.partialFile job nonce) := by
  cases pc with
  | recover pc =>
    have hstep : (recoverStep job files pc).1 (.partialFile job nonce) = _ := recoverStep_staged pc
    rw [readStep]
    revert hstep
    rcases recoverStep job files pc with ⟨files', next | _ | error⟩ <;> exact id
  | isFile => rfl
  | metadata =>
    rw [readStep]
    split
    · rfl
    · split <;> rfl
  | read =>
    rw [readStep]
    split <;> rfl
  | returned => rfl

end Invariant

/-! ## The states of an undisturbed run -/

section Runs

variable {codec : ReportCodec} {job nonce : Uuid} {report : ValidationReport} {bytes : Bytes}
  {content : Option Bytes} {old : Option ValidationReport} {race race' : Race} {actor : Actor}
  {actors : List Actor} {files : ReportDirectory} {pc : SavePc}

/-- What the save knows until the old report is away. -/
def SavePc.Knows (job nonce : Uuid) (bytes : Bytes) (content : Option Bytes)
    (files : ReportDirectory) : SavePc → Prop
  | .start => files (.partialFile job nonce) = none
  | .recover pc => pc.Knows job content files ∧ files (.partialFile job nonce) = none
  | .create => files (.report job) = content ∧ files (.partialFile job nonce) = none
  | .write => files (.report job) = content
  | .isFile => files (.report job) = content ∧ files (.partialFile job nonce) = some bytes
  | .moveAway => files (.report job) = content ∧ content ≠ none ∧
      files (.partialFile job nonce) = some bytes
  | .persist false => files (.report job) = content ∧ content = none ∧
      files (.partialFile job nonce) = some bytes
  | _ => False

/-- The directory shows the old content. -/
structure Race.Before (job nonce : Uuid) (bytes : Bytes) (content : Option Bytes) (race : Race) :
    Prop where
  shown : shown job race.files = content
  save : race.save.Knows job nonce bytes content race.files
  reads : ∀ i, (race.reads i).Knows job content race.files

/-- The old report is away. -/
structure Race.Away (job nonce : Uuid) (bytes : Bytes) (race : Race) : Prop where
  save : race.save = .persist true
  report : race.files (.report job) = none
  partialFile : race.files (.partialFile job nonce) = some bytes

/-- The new report is published. -/
structure Race.Published (job : Uuid) (bytes : Bytes) (race : Race) : Prop where
  save : race.save = .backupIsFile ∨ race.save = .removeBackup ∨ race.save = .returned (.ok ())
  report : race.files (.report job) = some bytes

/-- The reads that have ended returned the old report or the new one. -/
def Race.ReadsOk (old : Option ValidationReport) (report : ValidationReport) (race : Race) : Prop :=
  ∀ i result, race.reads i = .returned result → result = .ok old ∨ result = .ok (some report)

/-- Only the reader `i` and the directory are different. -/
theorem Race.reads_step {i k : ℕ} :
    (race.step codec job report nonce (.read i)).reads k =
      if k = i then (readStep codec job race.files (race.reads i)).2 else race.reads k :=
  Function.update_apply ..

theorem Race.ReadsOk.step {i : ℕ} (h : race.ReadsOk old report)
    (hstep : ∀ result, (readStep codec job race.files (race.reads i)).2 = .returned result →
      race.reads i = .returned result ∨ result = .ok old ∨ result = .ok (some report)) :
    (race.step codec job report nonce (.read i)).ReadsOk old report := by
  intro k result hresult
  rw [Race.reads_step] at hresult
  by_cases hk : k = i
  · rw [if_pos hk] at hresult
    exact (hstep result hresult).elim (h i result) id
  · rw [if_neg hk] at hresult
    exact h k result hresult

theorem SavePc.Knows.recovers {files files' : ReportDirectory}
    (h : pc.Knows job nonce bytes content files) (hstep : Recovers job content files files')
    (hstaged : files' (.partialFile job nonce) = files (.partialFile job nonce)) :
    pc.Knows job nonce bytes content files' := by
  cases pc with
  | start => exact hstaged.trans h
  | recover pc => exact ⟨h.1.recovers hstep, hstaged.trans h.2⟩
  | create => exact ⟨Recovers.stays hstep h.1, hstaged.trans h.2⟩
  | write => exact Recovers.stays hstep h
  | isFile => exact ⟨Recovers.stays hstep h.1, hstaged.trans h.2⟩
  | moveAway => exact ⟨Recovers.stays hstep h.1, h.2.1, hstaged.trans h.2.2⟩
  | persist replaces =>
    cases replaces with
    | false => exact ⟨Recovers.stays hstep h.1, h.2.1, hstaged.trans h.2.2⟩
    | true => exact h
  | _ => exact h

/-- A read while the directory shows the old content. -/
theorem Race.Before.step_read {i : ℕ} (h : race.Before job nonce bytes content)
    (hgives : Gives codec job old content) (hok : race.ReadsOk old report)
    (hundisturbed : race.Undisturbed job (.read i)) :
    (race.step codec job report nonce (.read i)).Before job nonce bytes content ∧
    (race.step codec job report nonce (.read i)).ReadsOk old report := by
  have hpcs : (race.reads i).Undisturbed job race.files race.save := hundisturbed
  have hthere : race.reads i = .recover .restore ∨ race.reads i = .recover .dropBackup →
      race.files (.backup job) ≠ none := by
    rintro (hpc | hpc)
    · rw [hpc] at hpcs
      exact hpcs.1
    · rw [hpc] at hpcs
      exact hpcs
  obtain ⟨hrec, hknows, hresult⟩ := readStep_before hgives h.shown (h.reads i) hthere
  refine ⟨⟨hrec.shown_eq h.shown, h.save.recovers hrec (readStep_staged _), fun k => ?_⟩,
    hok.step fun result hr => (hresult result hr).imp_right .inl⟩
  rw [Race.reads_step]
  by_cases hk : k = i
  · rw [if_pos hk]
    exact hknows
  · rw [if_neg hk]
    exact (h.reads k).recovers hrec

/-- A read once the old report is away. -/
theorem Race.readStep_late {i : ℕ} (hlate : race.save.beforeMove = false)
    (hlooks : race.save = .persist true ∨ ∃ new, race.files (.report job) = some new ∧
      Gives codec job (some report) (some new))
    (hundisturbed : race.Undisturbed job (.read i)) :
    (readStep codec job race.files (race.reads i)).1 (.report job) = race.files (.report job) ∧
    ∀ result, (readStep codec job race.files (race.reads i)).2 = .returned result →
      race.reads i = .returned result ∨ result = .ok (some report) := by
  have hpcs : (race.reads i).Undisturbed job race.files race.save := hundisturbed
  refine readStep_after ?_ ?_ ?_
  · intro hpc
    rw [hpc] at hpcs
    exact absurd (hlate.symm.trans hpcs.2) Bool.false_ne_true
  · intro hpc
    rw [hpc] at hpcs
    exact hpcs
  · intro hpc
    refine hlooks.resolve_left ?_
    rcases hpc with hpc | hpc | hpc <;> rw [hpc] at hpcs <;> exact hpcs

/-- The old content is shown, the old report is away, or the new one is published; and the
    reads that have ended returned one of the two. -/
def Race.Inv (job nonce : Uuid) (bytes : Bytes) (content : Option Bytes)
    (old : Option ValidationReport) (report : ValidationReport) (race : Race) : Prop :=
  (race.Before job nonce bytes content ∨ race.Away job nonce bytes ∨ race.Published job bytes) ∧
    race.ReadsOk old report

theorem Race.Inv.step_read {i : ℕ} (h : race.Inv job nonce bytes content old report)
    (hgives : Gives codec job old content) (hnew : Gives codec job (some report) (some bytes))
    (hundisturbed : race.Undisturbed job (.read i)) :
    (race.step codec job report nonce (.read i)).Inv job nonce bytes content old report := by
  obtain ⟨hbefore | haway | hpublished, hok⟩ := h
  · obtain ⟨hbefore', hok'⟩ := hbefore.step_read hgives hok hundisturbed
    exact ⟨.inl hbefore', hok'⟩
  · have hlate : race.save.beforeMove = false := by rw [haway.save]; rfl
    obtain ⟨hreport, hresult⟩ := race.readStep_late hlate (.inl haway.save) hundisturbed
    exact ⟨.inr (.inl ⟨haway.save, hreport.trans haway.report,
        (readStep_staged _).trans haway.partialFile⟩),
      hok.step fun result hr => (hresult result hr).imp_right .inr⟩
  · have hlate : race.save.beforeMove = false := by
      rcases hpublished.save with h | h | h <;> rw [h] <;> rfl
    obtain ⟨hreport, hresult⟩ :=
      race.readStep_late hlate (.inr ⟨bytes, hpublished.report, hnew⟩) hundisturbed
    exact ⟨.inr (.inr ⟨hpublished.save, hreport.trans hpublished.report⟩),
      hok.step fun result hr => (hresult result hr).imp_right .inr⟩

theorem Stored.reportBytes_eq (h : Stored codec job report bytes) :
    reportBytes codec report = .ok bytes := by
  obtain ⟨-, hwritten, hsize⟩ := h
  unfold reportBytes
  rw [hwritten]
  show (if bytes.length > maxReportBytes then _ else _) = _
  rw [if_neg (by omega)]
  rfl

theorem Stored.gives (hlossless : codec.Lossless) (h : Stored codec job report bytes) :
    Gives codec job (some report) (some bytes) := by
  obtain ⟨hjob, hwritten, hsize⟩ := h
  refine ⟨hsize, ?_⟩
  unfold parseReport
  rw [hlossless report bytes hwritten]
  show (if report.jobId ≠ job then _ else _) = _
  rw [if_neg (not_not.mpr hjob)]
  rfl

/-- **Step of `save`** while the directory shows the old content: it still does, or the old
    report is away, or (there was none) the new one is published. -/
theorem saveStep_before
    (hstored : Stored codec job report bytes) (hshown : shown job files = content)
    (hknows : pc.Knows job nonce bytes content files) (hundisturbed : pc.Undisturbed job files) :
    (Recovers job content files (saveStep codec job report nonce files pc).1 ∧
      (saveStep codec job report nonce files pc).2.Knows job nonce bytes content
        (saveStep codec job report nonce files pc).1) ∨
    ((saveStep codec job report nonce files pc).2 = .persist true ∧
      (saveStep codec job report nonce files pc).1 (.report job) = none ∧
      (saveStep codec job report nonce files pc).1 (.partialFile job nonce) = some bytes) ∨
    ((saveStep codec job report nonce files pc).2 = .backupIsFile ∧
      (saveStep codec job report nonce files pc).1 (.report job) = some bytes) := by
  have hput : ∀ written, Recovers job content files (files.put (.partialFile job nonce) written) :=
    fun written => .inl ⟨Files.put_of_ne (by simp), .inl (Files.put_of_ne (by simp))⟩
  have hputReport : ∀ written,
      files.put (.partialFile job nonce) written (.report job) = files (.report job) :=
    fun written => Files.put_of_ne (by simp)
  cases pc with
  | start =>
    rw [saveStep, if_neg (not_not.mpr hstored.1)]
    exact .inl ⟨.refl, trivial, hknows⟩
  | recover pc =>
    have hthere : pc = .restore ∨ pc = .dropBackup → files (.backup job) ≠ none := by
      rintro (rfl | rfl) <;> exact hundisturbed
    have hstep := recoverStep_before hshown hknows.1 hthere
    have hstaged : (recoverStep job files pc).1 (.partialFile job nonce) = none :=
      (recoverStep_staged pc).trans hknows.2
    rw [saveStep]
    revert hstep hstaged
    rcases recoverStep job files pc with ⟨files', next | _ | error⟩
    · exact fun ⟨hrec, hnext⟩ hstaged => .inl ⟨hrec, hnext, hstaged⟩
    · exact fun ⟨hrec, hnext⟩ hstaged => .inl ⟨hrec, hnext, hstaged⟩
    · exact fun ⟨_, hnext⟩ => hnext.elim
  | create =>
    rw [saveStep, hstored.reportBytes_eq]
    simp only [hknows.2, if_true]
    exact .inl ⟨hput [], (hputReport []).trans hknows.1⟩
  | write =>
    rw [saveStep, hstored.reportBytes_eq]
    exact .inl ⟨hput bytes, (hputReport bytes).trans hknows, Files.put_self⟩
  | isFile =>
    obtain ⟨hreport, hstaged⟩ := hknows
    by_cases hnone : files (.report job) = none
    · rw [saveStep, if_pos hnone]
      exact .inl ⟨.refl, hreport, hreport.symm.trans hnone, hstaged⟩
    · rw [saveStep, if_neg hnone]
      exact .inl ⟨.refl, hreport, hreport ▸ hnone, hstaged⟩
  | moveAway =>
    obtain ⟨hreport, hthere, hstaged⟩ := hknows
    have hkept : files.rename (.report job) (.backup job) (.partialFile job nonce) = some bytes := by
      rw [Files.rename_of_ne (by simp) (by simp), hstaged]
    rw [saveStep, if_neg (hreport ▸ hthere)]
    exact .inr (.inl ⟨rfl, Files.rename_source, hkept⟩)
  | persist replaces =>
    cases replaces with
    | false =>
      obtain ⟨hreport, hnone, hstaged⟩ := hknows
      have hnew : files.rename (.partialFile job nonce) (.report job) (.report job) = some bytes := by
        rw [Files.rename_target (by simp), hstaged]
      rw [saveStep, if_pos (hreport.trans hnone)]
      exact .inr (.inr ⟨rfl, hnew⟩)
    | true => exact hknows.elim
  | _ => exact hknows.elim

/-- **Step of `save`** once the new report is published: only the backup goes. -/
theorem saveStep_published
    (hpc : pc = .backupIsFile ∨ pc = .removeBackup ∨ pc = .returned (.ok ()))
    (hundisturbed : pc.Undisturbed job files) :
    ((saveStep codec job report nonce files pc).2 = .backupIsFile ∨
      (saveStep codec job report nonce files pc).2 = .removeBackup ∨
      (saveStep codec job report nonce files pc).2 = .returned (.ok ())) ∧
    (saveStep codec job report nonce files pc).1 (.report job) = files (.report job) := by
  rcases hpc with rfl | rfl | rfl
  · by_cases hnone : files (.backup job) = none
    · rw [saveStep, if_pos hnone]
      exact ⟨.inr (.inr rfl), rfl⟩
    · rw [saveStep, if_neg hnone]
      exact ⟨.inr (.inl rfl), rfl⟩
  · have hkept : files.remove (.backup job) (.report job) = files (.report job) :=
      Files.remove_of_ne (by simp)
    have hthere : files (.backup job) ≠ none := hundisturbed
    rw [saveStep, if_neg hthere]
    exact ⟨.inr (.inr rfl), hkept⟩
  · exact ⟨.inr (.inr rfl), rfl⟩

theorem Race.Inv.step_save (h : race.Inv job nonce bytes content old report)
    (hstored : Stored codec job report bytes) (hundisturbed : race.Undisturbed job .save) :
    (race.step codec job report nonce .save).Inv job nonce bytes content old report := by
  obtain ⟨hphase, hok⟩ := h
  refine ⟨?_, hok⟩
  obtain hbefore | haway | hpublished := hphase
  · rcases saveStep_before hstored hbefore.shown hbefore.save hundisturbed with
      ⟨hrec, hsave⟩ | ⟨hsave, hreport, hstaged⟩ | ⟨hsave, hreport⟩
    · exact .inl ⟨hrec.shown_eq hbefore.shown, hsave, fun i => (hbefore.reads i).recovers hrec⟩
    · exact .inr (.inl ⟨hsave, hreport, hstaged⟩)
    · exact .inr (.inr ⟨.inl hsave, hreport⟩)
  · have hstep : saveStep codec job report nonce race.files race.save =
        (race.files.rename (.partialFile job nonce) (.report job), .backupIsFile) := by
      rw [haway.save, saveStep, if_pos haway.report]
    have hnew : race.files.rename (.partialFile job nonce) (.report job) (.report job) = some bytes := by
      rw [Files.rename_target (by simp), haway.partialFile]
    refine .inr (.inr ⟨.inl (congrArg Prod.snd hstep), ?_⟩)
    exact (congrFun (congrArg Prod.fst hstep) _).trans hnew
  · obtain ⟨hsave, hreport⟩ :=
      @saveStep_published codec job nonce report race.files race.save hpublished.save hundisturbed
    exact .inr (.inr ⟨hsave, hreport.trans hpublished.report⟩)

theorem UndisturbedRun.inv (hlossless : codec.Lossless) (hstored : Stored codec job report bytes)
    (hgives : Gives codec job old content)
    (hrun : UndisturbedRun codec job report nonce race actors race')
    (h : race.Inv job nonce bytes content old report) :
    race'.Inv job nonce bytes content old report := by
  refine Trace.invariant hrun h ?_
  rintro race actor race' hinv ⟨hundisturbed, rfl⟩
  cases actor with
  | save => exact hinv.step_save hstored hundisturbed
  | read i => exact hinv.step_read hgives (hstored.gives hlossless) hundisturbed

/-! ## Every call ends -/

/-- How many operations `recover_backup` has left at most. -/
def RecoverPc.left : RecoverPc → ℕ
  | .destinationExists => 5
  | .backupIsFile => 4
  | .destinationIsFile => 3
  | .backupIsFileToo => 2
  | .restore | .dropBackup => 1

def ReadPc.left : ReadPc → ℕ
  | .recover pc => pc.left + 3
  | .isFile => 3
  | .metadata => 2
  | .read => 1
  | .returned _ => 0

def SavePc.left : SavePc → ℕ
  | .start => 15
  | .recover pc => pc.left + 9
  | .create => 9
  | .write => 8
  | .isFile => 7
  | .moveAway => 6
  | .persist _ => 5
  | .undoBackupIsFile => 4
  | .undoExists => 3
  | .undo | .backupIsFile => 2
  | .discard _ | .removeBackup => 1
  | .returned _ => 0

theorem RecoverPc.left_pos (pc : RecoverPc) : 0 < pc.left := by
  cases pc <;> decide

theorem recoverStep_left {pc next : RecoverPc}
    (h : (recoverStep job files pc).2 = .goOn next) : next.left < pc.left := by
  cases pc with
  | destinationExists =>
    rw [recoverStep] at h
    cases h
    split <;> decide
  | backupIsFile =>
    rw [recoverStep] at h
    cases h
    split <;> decide
  | destinationIsFile =>
    rw [recoverStep] at h
    split at h <;> cases h
    decide
  | backupIsFileToo =>
    rw [recoverStep] at h
    split at h <;> cases h
    decide
  | restore =>
    rw [recoverStep] at h
    split at h <;> cases h
  | dropBackup =>
    rw [recoverStep] at h
    split at h <;> cases h

/-- An operation of a call that has not ended leaves it with less to do. -/
theorem readStep_left (files : ReportDirectory) (pc : ReadPc) :
    (readStep codec job files pc).2.left ≤ pc.left - 1 := by
  cases pc with
  | recover pc =>
    have hleft := @recoverStep_left job files pc
    rw [readStep]
    revert hleft
    rcases recoverStep job files pc with ⟨files', next | _ | error⟩
    · intro hleft
      have := hleft rfl
      simp only [ReadPc.left]
      omega
    · have := pc.left_pos
      simp only [ReadPc.left]
      omega
    · simp [ReadPc.left]
  | isFile =>
    rw [readStep]
    split <;> simp [ReadPc.left]
  | metadata =>
    rw [readStep]
    split
    · simp [ReadPc.left]
    · split <;> simp [ReadPc.left]
  | read =>
    rw [readStep]
    split <;> simp [ReadPc.left]
  | returned => simp [readStep, ReadPc.left]

theorem saveStep_left (files : ReportDirectory) (pc : SavePc) :
    (saveStep codec job report nonce files pc).2.left ≤ pc.left - 1 := by
  cases pc with
  | recover pc =>
    have hleft := @recoverStep_left job files pc
    rw [saveStep]
    revert hleft
    rcases recoverStep job files pc with ⟨files', next | _ | error⟩
    · intro hleft
      have := hleft rfl
      simp only [SavePc.left]
      omega
    · have := pc.left_pos
      simp only [SavePc.left]
      omega
    · simp [SavePc.left]
  | create =>
    rw [saveStep]
    split
    · simp [SavePc.left]
    · split <;> simp [SavePc.left]
  | write =>
    rw [saveStep]
    split <;> simp [SavePc.left]
  | undo => simp [saveStep, SavePc.left]
  | discard => simp [saveStep, SavePc.left]
  | returned => simp [saveStep, SavePc.left]
  | _ =>
    rw [saveStep]
    split <;> simp [SavePc.left, RecoverPc.left]

/-- A call that makes its steps ends. -/
theorem UndisturbedRun.left (hrun : UndisturbedRun codec job report nonce race actors race') :
    race'.save.left ≤ race.save.left - actors.count .save ∧
    ∀ i, (race'.reads i).left ≤ (race.reads i).left - actors.count (.read i) := by
  induction hrun with
  | nil => exact ⟨le_rfl, fun _ => le_rfl⟩
  | @cons race race₁ race' actor actors hstep hrun ih =>
    obtain ⟨-, rfl⟩ := hstep
    cases actor with
    | save =>
      have hleft : (saveStep codec job report nonce race.files race.save).2.left ≤ _ :=
        saveStep_left race.files race.save
      refine ⟨?_, fun i => ?_⟩
      · have h : race'.save.left ≤ (saveStep codec job report nonce race.files race.save).2.left - _ := ih.1
        rw [List.count_cons_self]
        omega
      · rw [List.count_cons_of_ne (by simp)]
        exact ih.2 i
    | read k =>
      have hleft : (readStep codec job race.files (race.reads k)).2.left ≤ _ :=
        readStep_left race.files (race.reads k)
      refine ⟨?_, fun i => ?_⟩
      · rw [List.count_cons_of_ne (by simp)]
        exact ih.1
      · have h := ih.2 i
        rw [Race.reads_step] at h
        by_cases hi : i = k
        · subst hi
          rw [if_pos rfl] at h
          rw [List.count_cons_self]
          omega
        · rw [if_neg hi] at h
          rw [List.count_cons_of_ne (by simpa using Ne.symm hi)]
          exact h

theorem ReadPc.left_eq_zero {pc : ReadPc} (h : pc.left = 0) : ∃ result, pc = .returned result := by
  cases pc with
  | returned result => exact ⟨result, rfl⟩
  | recover pc => simp [ReadPc.left] at h
  | _ => cases h

theorem SavePc.left_eq_zero (h : pc.left = 0) : ∃ result, pc = .returned result := by
  cases pc with
  | returned result => exact ⟨result, rfl⟩
  | recover pc => simp [SavePc.left] at h
  | _ => cases h

/-- **An undisturbed save and its reads.** On a directory that any earlier calls have left,
    a save of a report among any number of reads, in any order of their operations that
    does not meet the race: when the save has ended it has succeeded and the report reads
    back, every read that has ended returned the old report or the new one, and a call that
    has made 15 steps has ended. -/
theorem save_undisturbed {files : ReportDirectory} (hlossless : codec.Lossless)
    (hfiles : Reachable codec files) (hstored : Stored codec job report bytes)
    (hfresh : files (.partialFile job nonce) = none)
    (hrun : UndisturbedRun codec job report nonce (.start files) actors race) :
    ∃ old, (read codec .none job files).result = .ok old ∧
      (∀ result, race.save = .returned result → result = .ok () ∧
        (read codec .none job race.files).result = .ok (some report)) ∧
      (∀ i result, race.reads i = .returned result → result = .ok old ∨ result = .ok (some report)) ∧
      (15 ≤ actors.count .save → ∃ result, race.save = .returned result) ∧
      (∀ i, 15 ≤ actors.count (.read i) → ∃ result, race.reads i = .returned result) := by
  obtain ⟨old, hread, hgives⟩ : ∃ old, (read codec .none job files).result = .ok old ∧
      Gives codec job old (shown job files) := by
    cases hshown : shown job files with
    | none => exact ⟨none, read_of_shown_none hshown, rfl⟩
    | some written =>
      obtain ⟨before, hbefore⟩ := hfiles.sound job written hshown
      exact ⟨some before, read_of_stored hlossless hbefore hshown, hbefore.gives hlossless⟩
  have hstart : (Race.start files).Inv job nonce bytes (shown job files) old report :=
    ⟨.inl ⟨rfl, hfresh, fun _ => trivial⟩, fun _ _ h => by cases h⟩
  obtain ⟨hphase, hok⟩ := UndisturbedRun.inv hlossless hstored hgives hrun hstart
  obtain ⟨hsave, hreads⟩ := UndisturbedRun.left hrun
  refine ⟨old, hread, ?_, hok, fun hcount => ?_, fun i hcount => ?_⟩
  · intro result hresult
    rcases hphase with hbefore | haway | hpublished
    · have hknows := hbefore.save
      rw [hresult] at hknows
      exact hknows.elim
    · have h := haway.save
      rw [hresult] at h
      cases h
    · have hnew : (read codec .none job race.files).result = .ok (some report) :=
        read_of_stored hlossless hstored (Files.visible_of_some hpublished.report)
      rcases hpublished.save with h | h | h <;> rw [hresult] at h <;> cases h
      exact ⟨rfl, hnew⟩
  · have hstart : (Race.start files).save.left = 15 := rfl
    exact SavePc.left_eq_zero (by omega)
  · have hstart : ((Race.start files).reads i).left = 8 := rfl
    have := hreads i
    exact ReadPc.left_eq_zero (by omega)

end Runs

end ReportService

namespace ReportService.Sample

open ReportService

/-- The race after some steps of a second save and its reads. -/
def after (actors : List Actor) : Race :=
  actors.foldl (Race.step codec 7 failed 2) (.start saved)

/-- The save up to the first rename. -/
def movedAway : List Actor := List.replicate 8 .save

/-- A read, and then the second save. -/
def orderly : List Actor := List.replicate 6 (.read 0) ++ List.replicate 11 .save

theorem save_undisturbed_orderly : (after orderly).save = .returned (.ok ()) ∧
    (read codec .none 7 (after orderly).files).result = .ok (some failed) := by
  have hrun : UndisturbedRun codec 7 failed 2 (.start saved) orderly (after orderly) := by
    repeat' first
      | exact .nil
      | refine .cons ⟨?_, rfl⟩ ?_
      | trivial
      | exact Option.some_ne_none _
      | exact SavePc.noConfusion
  have hstored : Stored codec 7 failed [102] := ⟨rfl, rfl, by decide⟩
  obtain ⟨old, -, hsave, -⟩ := save_undisturbed codec_lossless
    (.tail .refl (.save .none 7 passed 1 (.inr rfl))) hstored rfl hrun
  exact ⟨rfl, (hsave (.ok ()) rfl).2⟩

/-- A read between the two renames moves the old report back: the save fails, and the old
    report stays. A read that has looked for the report there finds none. -/
theorem read_breaks_save :
    Reachable codec saved ∧ Stored codec 7 failed [102] ∧
    (after (movedAway ++ List.replicate 3 (.read 0) ++ List.replicate 4 .save)).save =
      .returned (.error fileExists) ∧
    (read codec .none 7 (after (movedAway ++ List.replicate 3 (.read 0) ++
      List.replicate 4 .save)).files).result = .ok (some passed) ∧
    (after (List.replicate 3 (.read 0) ++ movedAway ++ [.read 0])).reads 0 = .returned (.ok none) :=
  ⟨.tail .refl (.save .none 7 passed 1 (.inr rfl)), ⟨rfl, rfl, by decide⟩, rfl, rfl, rfl⟩

end ReportService.Sample

end Anole
