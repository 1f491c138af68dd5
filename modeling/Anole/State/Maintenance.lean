import Anole.Common.Crash
import Anole.Common.Files
import Anole.Domain

/-!
# Database maintenance

Model of the restore of `MaintenanceService` (`crates/core/src/maintenance.rs`): the staged
and migrated copy (`prepare_restore`), the automatic snapshot of the live database
(`create_automatic_snapshot`, `backup_database`), the online copy over the live database and
the check after it (`restore`).

SQLite is a parameter (`Sqlite`): what its queries and its online backup answer on the
content of a database file. What the system refuses is an input (`RestoreWorld`).

**Deviation.** The `-wal` and `-shm` files belong to the database file, which is removed
with them in one operation. Paths are normal local paths with a textual file name, compared
as on Unix.
-/

open Common Common.Proc

namespace Anole

/-- `DATABASE_SCHEMA_VERSION` (line 14). -/
def databaseSchemaVersion : ℤ := 6

/-- `DEFAULT_SNAPSHOT_RETENTION` (line 18). -/
def defaultSnapshotRetention : ℕ := 5

/-- The files a restore works with: a path with its directory and file name, a temporary
    sibling of a file (`sibling_temporary_path`, lines 989–996), and a file in the `backups`
    directory beside a database. -/
inductive DatabaseFile where
  | named (directory name : String)
  | temporary (sibling : DatabaseFile) (label : String) (nonce : Uuid)
  | backups (database : DatabaseFile) (name : String)
  deriving DecidableEq

namespace DatabaseFile

/-- `parent_directory` (lines 998–1015). -/
def directory : DatabaseFile → String
  | named directory _ => if directory = "" then "." else directory
  | temporary sibling _ _ => sibling.directory
  | backups database _ => database.directory ++ "/backups"

def name : DatabaseFile → String
  | named _ name => name
  | temporary sibling label nonce => s!".{sibling.name}.{label}.{nonce.toText}"
  | backups _ name => name

def display (file : DatabaseFile) : String := s!"{file.directory}/{file.name}"

end DatabaseFile

/-- The database files there are. -/
abbrev DatabaseFiles (δ : Type) := Files DatabaseFile δ

/-- What SQLite answers on the content of a database file. -/
structure Sqlite (δ : Type) where
  /-- A file of length zero, which `Connection::open` creates. -/
  empty : δ
  /-- The online backup of the first content over the second one goes through. -/
  transfer : δ → δ → Except String Unit
  /-- `PRAGMA integrity_check` -/
  checkMessages : δ → Except String (List String)
  /-- `PRAGMA foreign_key_check` -/
  foreignKeyViolations : δ → Except String (List String)
  /-- The table `schema_migrations` exists. -/
  migrationsTable : δ → Except String Bool
  /-- `SELECT version FROM schema_migrations ORDER BY version` -/
  versions : δ → Except String (List ℤ)
  /-- The queries of `application_issues` on the rows (lines 571–719), given the recorded
      version. -/
  rowIssues : δ → ℤ → Except String (List String)
  /-- `SqliteJobStore::migrate` -/
  migrate : δ → Except AnoleError δ
  size : δ → ℕ
  sha256 : δ → String

/-- `maintenance_error` (lines 1109–1116). -/
def maintenanceError (message action text : String) : AnoleError :=
  (AnoleError.new .storageFailed .store message action).withDiagnostic text

/-- `storage_error` (lines 1099–1107). -/
def maintenanceStorageError (text : String) : AnoleError :=
  maintenanceError "SQLite maintenance operation failed"
    "Close other Anole processes, verify disk health, and retry." text

/-! ## Reading a database -/

/-- `IntegrityReport` (lines 21–28). -/
structure IntegrityReport where
  databasePath : DatabaseFile
  ok : Bool
  sqliteMessages : List String
  foreignKeyViolations : List String
  applicationIssues : List String

/-- `integrity_failure` (lines 1085–1096). -/
def integrityFailure (message : String) (report : IntegrityReport) : AnoleError :=
  maintenanceError message
    "Keep the current database unchanged and inspect the maintenance report."
    (s!"sqlite={repr report.sqliteMessages}; foreign_keys={repr report.foreignKeyViolations}; " ++
      s!"application={repr report.applicationIssues}")

namespace Sqlite

variable {δ : Type} (sqlite : Sqlite δ)

/-- `schema_version` (lines 789–800). -/
def schemaVersion (content : δ) : Except AnoleError ℤ := do
  let hasMigrations ← (sqlite.migrationsTable content).mapError maintenanceStorageError
  if hasMigrations then
    let versions ← (sqlite.versions content).mapError maintenanceStorageError
    pure (versions.max?.getD 0)
  else pure 0

/-- `application_issues` (lines 551–721). -/
def applicationIssues (content : δ) : Except AnoleError (List String) := do
  let versions ← (sqlite.versions content).mapError maintenanceStorageError
  let recordedVersion := versions.getLast?.getD 0
  let expected := (List.range recordedVersion.toNat).map fun k => (k : ℤ) + 1
  let issues :=
    if versions = expected then []
    else [s!"schema migration markers are not contiguous: {versions}"]
  let rows ← (sqlite.rowIssues content recordedVersion).mapError maintenanceStorageError
  pure (issues ++ rows)

/-- `integrity_check_connection` (lines 506–520). -/
def integrityCheckConnection (path : DatabaseFile) (content : δ) :
    Except AnoleError IntegrityReport := do
  let sqliteMessages ← (sqlite.checkMessages content).mapError maintenanceStorageError
  let foreignKeyViolations ← (sqlite.foreignKeyViolations content).mapError maintenanceStorageError
  let applicationIssues ← sqlite.applicationIssues content
  let sqliteOk := sqliteMessages.all fun message => message.map Char.toLower = "ok"
  pure {
    databasePath := path
    ok := sqliteOk && foreignKeyViolations.isEmpty && applicationIssues.isEmpty
    sqliteMessages := sqliteMessages
    foreignKeyViolations := foreignKeyViolations
    applicationIssues := applicationIssues }

end Sqlite

/-- `ensure_supported_schema` (lines 815–827). -/
def ensureSupportedSchema (version : ℤ) : Except AnoleError Unit :=
  if version > databaseSchemaVersion then
    .error (.new .storageFailed .store
      s!"Database schema v{version} is newer than supported v{databaseSchemaVersion}"
      "Open this database with an equal or newer Anole release.")
  else .ok ()

/-! ## What may be refused -/

/-- Opening a database for reading, and reading it. -/
structure Reading where
  opening : Option String
  version : Option String
  check : Option String

/-- An online backup that does not go through: an error of SQLite, a lock held for 30 seconds,
    or an unknown result. -/
inductive TransferFault where
  | sqlite (text : String)
  | locked
  | unknownResult

/-- The errors of `online_copy` (lines 439–471). -/
def TransferFault.error : TransferFault → AnoleError
  | sqlite text => maintenanceStorageError text
  | locked =>
    (AnoleError.new .policyBlocked .store
      "SQLite maintenance could not acquire a database lock within 30 seconds"
      "Stop queue execution, close other Anole processes, and retry.").setRetryable true
  | unknownResult =>
    .new .storageFailed .store "SQLite returned an unknown online-backup result"
      "Retry with a supported SQLite runtime."

/-- A copy that does not become portable (lines 473–497). -/
inductive PortableFault where
  | sqlite (text : String)
  | journalMode (actual : String)
  | sidecar (path : DatabaseFile) (text : String)

/-- The error of `remove_if_exists` (lines 1017–1028). -/
def removeError (path : DatabaseFile) (text : String) : AnoleError :=
  maintenanceError s!"Cannot remove maintenance file: {path.display}"
    "Close Anole and retry maintenance." text

def PortableFault.error : PortableFault → AnoleError
  | sqlite text => maintenanceStorageError text
  | journalMode actual =>
    .new .storageFailed .store
      s!"SQLite refused portable backup journal mode DELETE: {actual}"
      "Close other Anole processes and retry maintenance."
  | sidecar path text => removeError path text

/-- What one `online_copy` meets, and what the disk keeps of the content that is written. -/
structure CopyWorld (δ : Type) where
  openSource : Option String
  openDestination : Option String
  transfer : Option TransferFault
  arrives : δ → δ
  portable : Option PortableFault

/-- An entry of the directory `backups`. -/
structure SnapshotEntry where
  modified : ℕ
  name : String

/-- What `create_automatic_snapshot` meets, with the values of `Uuid::new_v4()`. -/
structure SnapshotWorld (δ : Type) where
  createBackups : Option String
  nonce : Uuid
  resolve : Option String
  createParent : Option String
  partialNonce : Uuid
  copy : CopyWorld δ
  check : Reading
  sync : Option String
  removeDestination : Option String
  commit : Option String
  reopen : Reading
  metadata : Option String
  hash : Option String
  removePartial : Option String
  listing : Except String (List SnapshotEntry)
  removeOld : String → Option String

/-- What `restore` meets, with the value of `Uuid::new_v4()` for the stage. -/
structure RestoreWorld (δ : Type) where
  resolve : Option String
  source : Reading
  createStageParent : Option String
  stageNonce : Uuid
  toStage : CopyWorld δ
  migrate : Option AnoleError
  checkStage : Reading
  reopenStage : Reading
  snapshot : SnapshotWorld δ
  createParent : Option String
  toLive : CopyWorld δ
  removeStage : Option String
  checkLive : Reading
  copyBack : CopyWorld δ

/-! ## Operations -/

namespace MaintenanceService

variable {δ : Type}

/-- A procedure on the database files. -/
abbrev Body (δ α : Type) := Proc (DatabaseFiles δ) AnoleError α

/-- `open_read_only` (lines 835–853), which gives the content to read. -/
def openReadOnly (opening : Option String) (path : DatabaseFile) : Body δ δ := do
  let files ← get
  match files path with
  | none =>
    fail (.new .storageFailed .store s!"Database does not exist: {path.display}"
      "Choose an existing Anole state database.")
  | some content =>
    check (opening.map maintenanceStorageError)
    pure content

/-- `remove_if_exists` (lines 1017–1028). -/
def removeIfExists (fault : Option String) (path : DatabaseFile) : Body δ Unit := do
  let files ← get
  if files path ≠ none then tryOp (fault.map (removeError path)) (·.remove path)

/-- `remove_database_files` (lines 1030–1033). -/
def removeDatabaseFiles (fault : Option String) (path : DatabaseFile) : Body δ Unit :=
  removeIfExists fault path

/-- `CopyMode` (lines 430–434). -/
inductive CopyMode where
  | portable | live
  deriving DecidableEq

variable (sqlite : Sqlite δ)

/-- `schema_version` on an opened database. -/
def readSchemaVersion (reading : Reading) (content : δ) : Body δ ℤ := do
  check (reading.version.map maintenanceStorageError)
  lift (sqlite.schemaVersion content)

/-- `integrity_check_connection` on an opened database. -/
def checkContent (reading : Reading) (path : DatabaseFile) (content : δ) :
    Body δ IntegrityReport := do
  check (reading.check.map maintenanceStorageError)
  lift (sqlite.integrityCheckConnection path content)

/-- `integrity_check_path` (lines 501–504). -/
def integrityCheckPath (reading : Reading) (path : DatabaseFile) : Body δ IntegrityReport := do
  let content ← openReadOnly reading.opening path
  checkContent sqlite reading path content

/-- `online_copy` (lines 436–499). `Connection::open` creates the destination; a transfer that
    does not end with `Done` is rolled back. -/
def onlineCopy (w : CopyWorld δ) (source destination : DatabaseFile) (mode : CopyMode) :
    Body δ Unit := do
  let content ← openReadOnly w.openSource source
  check (w.openDestination.map maintenanceStorageError)
  let files ← get
  let before := (files destination).getD sqlite.empty
  op (·.put destination before)
  check (w.transfer.map TransferFault.error)
  lift ((sqlite.transfer content before).mapError maintenanceStorageError)
  op (·.put destination (w.arrives content))
  if mode = .portable then check (w.portable.map PortableFault.error)

/-- `ensure_distinct_paths` (lines 934–946). -/
def ensureDistinctPaths (resolve : Option String) (source destination : DatabaseFile) :
    Body δ Unit := do
  check (resolve.map (maintenanceError s!"Cannot resolve maintenance path: {source.display}"
    "Choose a normal readable local path."))
  if source = destination then
    fail (.new .outputConflict .store "Backup destination cannot be the live database"
      "Choose a different backup path.")

/-- `fs::create_dir_all`, whose error names the directory. -/
def createDirAll (fault : Option String) (message action : String) : Body δ Unit :=
  check (fault.map (maintenanceError message action))

/-! ## The automatic snapshot -/

/-- `BackupReport` (lines 42–49). -/
structure BackupReport where
  databasePath : DatabaseFile
  backupPath : DatabaseFile
  sizeBytes : ℕ
  sha256 : String
  schemaVersion : ℤ

/-- The closure of `backup_database` (lines 392–423). -/
def writeBackup (w : SnapshotWorld δ) (source destination partialFile : DatabaseFile)
    (overwrite : Bool) : Body δ BackupReport := do
  onlineCopy sqlite w.copy source partialFile .portable
  let integrity ← integrityCheckPath sqlite w.check partialFile
  (if ¬integrity.ok then
    fail (integrityFailure "The new backup failed integrity validation" integrity)
  else pure ())
  check (w.sync.map (maintenanceError s!"Cannot flush backup to disk: {partialFile.display}"
    "Retry on a healthy writable local disk."))
  (if overwrite then removeIfExists w.removeDestination destination else pure ())
  tryOp (w.commit.map (maintenanceError "Cannot commit the validated backup"
    "Choose another writable backup destination.")) (·.rename partialFile destination)
  let content ← openReadOnly w.reopen.opening destination
  let version ← readSchemaVersion sqlite w.reopen content
  check (w.metadata.map (maintenanceError s!"Cannot read database metadata: {destination.display}"
    "Check that the database exists and is readable."))
  check (w.hash.map (maintenanceError s!"Cannot hash backup: {destination.display}"
    "Check that the backup is readable."))
  pure {
    databasePath := source
    backupPath := destination
    sizeBytes := sqlite.size content
    sha256 := sqlite.sha256 content
    schemaVersion := version }

/-- `backup_database` (lines 362–428). -/
def backupDatabase (w : SnapshotWorld δ) (source destination : DatabaseFile) (overwrite : Bool) :
    Body δ BackupReport := do
  let files ← get
  (if files source = none then
    fail (.new .storageFailed .store s!"Database does not exist: {source.display}"
      "Choose an existing Anole state database.")
  else pure ())
  ensureDistinctPaths w.resolve source destination
  let files ← get
  (if files destination ≠ none ∧ ¬overwrite then
    fail (.new .outputConflict .store
      s!"Backup destination already exists: {destination.display}"
      "Choose a new backup path; existing backups are never overwritten.")
  else pure ())
  createDirAll w.createParent s!"Cannot create backup directory: {destination.directory}"
    "Choose a writable backup destination."
  let partialFile := DatabaseFile.temporary destination "backup-partial" w.partialNonce
  orCleanup (writeBackup sqlite w source destination partialFile overwrite)
    (removeDatabaseFiles w.removePartial partialFile)

/-- The snapshots among the entries, the newest first (lines 1059–1069). -/
def snapshotsOf (fileName : String) (entries : List SnapshotEntry) : List SnapshotEntry :=
  let newer (left right : SnapshotEntry) : Bool :=
    right.modified < left.modified ∨ (right.modified = left.modified ∧ right.name ≤ left.name)
  (entries.filter fun entry =>
    (s!"{fileName}.").isPrefixOf entry.name && entry.name.endsWith ".sqlite3").mergeSort newer

/-- The loop of `prune_automatic_snapshots` (lines 1072–1081). -/
def pruneLoop (removeOld : String → Option String) (database preserve : DatabaseFile)
    (otherLimit keptOthers : ℕ) : List SnapshotEntry → Body δ Unit
  | [] => pure ()
  | entry :: rest =>
    if DatabaseFile.backups database entry.name = preserve then
      pruneLoop removeOld database preserve otherLimit keptOthers rest
    else if keptOthers < otherLimit then
      pruneLoop removeOld database preserve otherLimit (keptOthers + 1) rest
    else do
      removeIfExists (removeOld entry.name) (.backups database entry.name)
      pruneLoop removeOld database preserve otherLimit keptOthers rest

/-- `prune_automatic_snapshots` (lines 1044–1083). -/
def pruneAutomaticSnapshots (w : SnapshotWorld δ) (database preserve : DatabaseFile)
    (retain : ℕ) : Body δ Unit := do
  let entries ← lift (w.listing.mapError
    (maintenanceError s!"Cannot read backup directory: {preserve.directory}"
      "Check application-data permissions."))
  pruneLoop w.removeOld database preserve (retain - 1) 0 (snapshotsOf database.name entries)

/-- The path of an automatic snapshot (lines 254–262). -/
def snapshotPath (database : DatabaseFile) (reason : String) (nonce : Uuid) : DatabaseFile :=
  .backups database s!"{database.name}.{reason}.{nonce.toText}.sqlite3"

/-- `create_automatic_snapshot` (lines 242–271). -/
def createAutomaticSnapshot (w : SnapshotWorld δ) (database : DatabaseFile) (reason : String) :
    Body δ BackupReport := do
  createDirAll w.createBackups s!"Cannot create backup directory: {database.directory}/backups"
    "Choose a writable application data directory."
  let destination := snapshotPath database reason w.nonce
  let report ← backupDatabase sqlite w database destination false
  pruneAutomaticSnapshots w database destination defaultSnapshotRetention
  pure report

/-! ## The restore -/

/-- `RestorePreflightReport` (lines 51–58). -/
structure RestorePreflightReport where
  backupPath : DatabaseFile
  sourceSchemaVersion : ℤ
  restoredSchemaVersion : ℤ
  migrationRequired : Bool
  integrity : IntegrityReport

/-- `PreparedRestore` (lines 340–344). -/
structure PreparedRestore where
  stagePath : DatabaseFile
  report : RestorePreflightReport

/-- `RestoreReport` (lines 60–67). -/
structure RestoreReport where
  databasePath : DatabaseFile
  restoredFrom : DatabaseFile
  safetyBackup : Option DatabaseFile
  schemaVersion : ℤ
  integrity : IntegrityReport

/-- The path of the staged copy (line 299). -/
def stagePath (w : RestoreWorld δ) (database : DatabaseFile) : DatabaseFile :=
  .temporary database "restore-stage" w.stageNonce

/-- The checks of the selected backup (lines 274–284). -/
def checkBackup (w : RestoreWorld δ) (backup : DatabaseFile) : Body δ ℤ := do
  let content ← openReadOnly w.source.opening backup
  let sourceSchemaVersion ← readSchemaVersion sqlite w.source content
  lift (ensureSupportedSchema sourceSchemaVersion)
  let sourceIntegrity ← checkContent sqlite w.source backup content
  (if ¬sourceIntegrity.ok then
    fail (integrityFailure "The selected backup failed integrity checks" sourceIntegrity)
  else pure ())
  pure sourceSchemaVersion

/-- `SqliteJobStore::open_for_restore_staging` (`job_store.rs`, lines 202–210). -/
def openForRestoreStaging (fault : Option AnoleError) (path : DatabaseFile) : Body δ Unit := do
  check fault
  let files ← get
  let migrated ← lift (sqlite.migrate ((files path).getD sqlite.empty))
  op (·.put path migrated)

/-- The copy, the migration and the check of the stage (lines 300–326), each of which removes
    the stage when it fails. -/
def stageBackup (w : RestoreWorld δ) (backup stage : DatabaseFile) : Body δ IntegrityReport :=
  orCleanup
    (do
      onlineCopy sqlite w.toStage backup stage .portable
      openForRestoreStaging sqlite w.migrate stage
      let integrity ← integrityCheckPath sqlite w.checkStage stage
      (if ¬integrity.ok then
        fail (integrityFailure "The migrated restore copy failed integrity checks" integrity)
      else pure ())
      pure integrity)
    (removeDatabaseFiles w.removeStage stage)

/-- `prepare_restore` (lines 273–337). -/
def prepareRestore (w : RestoreWorld δ) (database backup : DatabaseFile) :
    Body δ PreparedRestore := do
  let sourceSchemaVersion ← checkBackup sqlite w backup
  createDirAll w.createStageParent
    s!"Cannot create restore staging directory: {database.directory}"
    "Choose a writable state database path."
  let stage := stagePath w database
  let integrity ← stageBackup sqlite w backup stage
  let migrated ← openReadOnly w.reopenStage.opening stage
  let restoredSchemaVersion ← readSchemaVersion sqlite w.reopenStage migrated
  pure {
    stagePath := stage
    report := {
      backupPath := backup
      sourceSchemaVersion := sourceSchemaVersion
      restoredSchemaVersion := restoredSchemaVersion
      migrationRequired := sourceSchemaVersion < databaseSchemaVersion
      integrity := integrity } }

/-- `restore_preflight` (lines 150–158). -/
def restorePreflight (w : RestoreWorld δ) (database backup : DatabaseFile) :
    Body δ RestorePreflightReport := do
  let prepared ← prepareRestore sqlite w database backup
  let _ ← (attempt (removeDatabaseFiles w.removeStage prepared.stagePath) :
    Body δ (Except AnoleError Unit))
  pure prepared.report

/-- The safety backup of a live database (lines 171–175). -/
def safetySnapshot (w : RestoreWorld δ) (database : DatabaseFile) :
    Body δ (Option DatabaseFile) := do
  let files ← get
  if files database ≠ none then
    let report ← createAutomaticSnapshot sqlite w.snapshot database "pre-restore"
    pure (some report.backupPath)
  else pure none

/-- The check after the switch, and the way back (lines 193–204). -/
def checkRestored (w : RestoreWorld δ) (database : DatabaseFile)
    (safetyBackup : Option DatabaseFile) : Body δ IntegrityReport := do
  let integrity ← integrityCheckPath sqlite w.checkLive database
  if ¬integrity.ok then
    let failure := integrityFailure
      "The restored database failed validation after the transactional switch" integrity
    match safetyBackup with
    | none => fail failure
    | some path =>
      let _ ← (attempt (onlineCopy sqlite w.copyBack path database .live) :
        Body δ (Except AnoleError Unit))
      fail failure
  else pure integrity

/-- `MaintenanceService::restore` (lines 167–211). -/
def restore (w : RestoreWorld δ) (database backup : DatabaseFile) : Body δ RestoreReport := do
  ensureDistinctPaths w.resolve backup database
  let prepared ← prepareRestore sqlite w database backup
  let safetyBackup ← safetySnapshot sqlite w database
  createDirAll w.createParent s!"Cannot create state directory: {database.directory}"
    "Choose a writable state database path."
  orCleanup (onlineCopy sqlite w.toLive prepared.stagePath database .live)
    (removeDatabaseFiles w.removeStage prepared.stagePath)
  removeDatabaseFiles w.removeStage prepared.stagePath
  let integrity ← checkRestored sqlite w database safetyBackup
  pure {
    databasePath := database
    restoredFrom := backup
    safetyBackup := safetyBackup
    schemaVersion := prepared.report.restoredSchemaVersion
    integrity := integrity }

end MaintenanceService

end Anole
