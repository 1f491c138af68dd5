import Anole.Common.Crash
import Anole.Common.Files
import Anole.Domain

/-!
# Restoring the application state

Model of `install_prepared_bundle` and `recover_interrupted_restore`
(`crates/core/src/application_state.rs`, lines 385–409, 737–984 and 1536–1619): the switch of
the database and four components to the content of a bundle, under a journal, and the
rollback or cleanup after an interruption.

The files are a map with atomic rename and removal. A component is one content, a file or a
directory tree alike, and `MaintenanceService::backup` and `restore` are atomic copies that
fail when there is no source. A complete journal file is kept as the journal it holds.

**Deviation.** The safety bundle (`backup_inner`) is one more file, written with a given
outcome.
-/

open Common Common.Proc

namespace Anole

/-- `SwapComponent` (lines 428–435). -/
inductive SwapComponent where
  | presets | settings | engineRegistry | reports
  deriving DecidableEq

/-- `RestoreSwap` (lines 437–442). -/
structure RestoreSwap where
  component : SwapComponent
  hadLive : Bool
  deriving DecidableEq

/-- `RestoreJournal` (lines 444–454). -/
structure RestoreJournal where
  schemaVersion : ℕ
  restoreId : Uuid
  safetyDatabaseName : String
  databaseHadLive : Bool
  databaseSwitchStarted : Bool
  committed : Bool
  swaps : List RestoreSwap
  deriving DecidableEq

/-- The files of an application-state layout: the database with its sidecars, the live and the
    staged components, the components moved away by a restore (`old_component_path`,
    lines 944–954), the files in `backups/`, and the journal with its backup and partials. -/
inductive StateFile where
  | database | databaseWal | databaseShm
  | live (component : SwapComponent)
  | stagedDatabase
  | staged (component : SwapComponent)
  | old (restoreId : Uuid) (component : SwapComponent)
  | backups (name : String)
  | journal | journalBackup
  | journalPartial (nonce : Uuid)
  deriving DecidableEq

/-- What a file holds: the content of a component or a database, a journal, or a part of one. -/
inductive StateContent (β : Type) where
  | content (value : β)
  | journal (value : RestoreJournal)
  | torn
  deriving DecidableEq

/-- The state directory, with a bundle staged in it. -/
abbrev StateFiles (β : Type) := Files StateFile (StateContent β)

/-- `APPLICATION_STATE_BUNDLE_SCHEMA_VERSION` (line 23). -/
def applicationStateBundleSchemaVersion : ℕ := 1

/-- `state_error` (lines 1644–1651). -/
def stateError (message : String) : AnoleError :=
  .new .storageFailed .store message
    "Keep live state unchanged, verify the bundle and free disk space, then retry."

/-- `state_io_error` (lines 1654–1656). -/
def stateIoError (error : String) : AnoleError :=
  (stateError "Unable to read or persist application state").withDiagnostic error

local instance lawfulBEqChars : LawfulBEq (List Char) := inferInstance

/-- Every component of the relative path is `Component::Normal`. -/
def normalComponents (name : String) : Bool :=
  let parts := name.toList.splitOn '/'
  name.toList.head? ≠ some '/' ∧ parts.head? ≠ some ['.'] ∧ ['.', '.'] ∉ parts

/-- `RestoreJournal::validate` (lines 958–984). The root directory exists: the journal was read
    from it. -/
def RestoreJournal.validate (journal : RestoreJournal) : Except AnoleError Unit :=
  if journal.schemaVersion ≠ applicationStateBundleSchemaVersion ∨
      (journal.databaseHadLive ∧ journal.safetyDatabaseName = "") ∨
      (journal.safetyDatabaseName ≠ "" ∧ ¬normalComponents journal.safetyDatabaseName) then
    .error (stateError "Application-state restore journal is unsafe")
  else if ¬(journal.swaps.map RestoreSwap.component).Nodup then
    .error (stateError "Application-state restore journal has duplicate swaps")
  else .ok ()

/-- `StateBundleComponents` (lines 260–269), the flags a restore reads. -/
structure BundleComponents where
  presets : Bool
  settings : Bool
  engineRegistry : Bool
  reports : Bool

def BundleComponents.included (components : BundleComponents) : SwapComponent → Bool
  | .presets => components.presets
  | .settings => components.settings
  | .engineRegistry => components.engineRegistry
  | .reports => components.reports

/-- `PreparedBundle` (lines 420–426): its manifest and preflight report, as far as a restore
    hands them on. The staged files are in the state directory. -/
structure PreparedBundle where
  bundleId : Uuid
  components : BundleComponents
  warnings : List String

/-- `StateBundleRestoreReport` (lines 310–318). -/
structure StateBundleRestoreReport where
  bundlePath : PathBuf
  bundleId : Uuid
  safetyBundle : Option StateFile
  reportsRestored : Bool
  warnings : List String

namespace ApplicationState

variable {β : Type}

/-- A procedure of the service. -/
abbrev Body (β α : Type) := Proc (StateFiles β) AnoleError α

/-! ## Files -/

/-- `MaintenanceService::backup` and `restore`: an atomic copy. -/
def copyDatabase (source destination : StateFile) : Body β Unit := do
  let files ← get
  match files source with
  | none => fail (.new .storageFailed .store "Database does not exist"
      "Choose an existing Anole state database.")
  | some content => op (·.put destination content)

/-- `recover_file_backup` (lines 1573–1581). -/
def recoverFileBackup (path backup : StateFile) : Body β Unit := do
  let files ← get
  if files path = none ∧ files backup ≠ none then
    op (·.rename backup path)
  else if files path ≠ none ∧ files backup ≠ none then
    op (·.remove backup)
  else
    pure ()

/-- `remove_path_if_exists` (lines 1599–1606). -/
def removePathIfExists (path : StateFile) : Body β Unit := do
  let files ← get
  if files path ≠ none then op (·.remove path)

/-- `remove_database_family` (lines 1608–1619). -/
def removeDatabaseFamily : Body β Unit := do
  removePathIfExists .database
  removePathIfExists .databaseWal
  removePathIfExists .databaseShm

/-- `atomic_replace_file` up to the publication (lines 1536–1559). -/
def prepareReplacement (path backup partialFile : StateFile) (content : StateContent β) :
    Body β Unit := do
  recoverFileBackup path backup
  let files ← get
  if files partialFile ≠ none then
    fail (stateIoError "File exists (os error 17)")
  op (·.put partialFile .torn)
  op (·.put partialFile content)
  let files ← get
  if files path ≠ none then
    removePathIfExists backup
    op (·.rename path backup)

/-- `atomic_replace_file` (lines 1536–1571). The path is free when the file is published. -/
def atomicReplaceFile (path backup partialFile : StateFile) (content : StateContent β) :
    Body β Unit := do
  prepareReplacement path backup partialFile content
  op (·.rename partialFile path)
  removePathIfExists backup

/-- `save_journal` (lines 886–891). -/
def saveJournal (nonce : Uuid) (journal : RestoreJournal) : Body β Unit :=
  atomicReplaceFile .journal .journalBackup (.journalPartial nonce) (.journal journal)

/-! ## Recovery -/

/-- The loop of `cleanup_committed_restore` (lines 870–872). -/
def removeOld (restoreId : Uuid) : List RestoreSwap → Body β Unit
  | [] => pure ()
  | swap :: rest => do
    removePathIfExists (.old restoreId swap.component)
    removeOld restoreId rest

/-- `safety.is_file()` and the removal (lines 879–881 and 917–919). With an empty name the path
    is the directory `backups/`. -/
def removeSafety (name : String) : Body β Unit := do
  if name ≠ "" then removePathIfExists (.backups name)

/-- `cleanup_committed_restore` (lines 869–884). -/
def cleanupCommittedRestore (journal : RestoreJournal) : Body β Unit := do
  removeOld journal.restoreId journal.swaps
  removeSafety journal.safetyDatabaseName

/-- The body of the loop of `rollback_from_journal` (lines 903–910). -/
def rollbackSwap (restoreId : Uuid) (swap : RestoreSwap) : Body β Unit := do
  let files ← get
  if files (.old restoreId swap.component) ≠ none then
    removePathIfExists (.live swap.component)
    op (·.rename (.old restoreId swap.component) (.live swap.component))
  else if ¬swap.hadLive then
    removePathIfExists (.live swap.component)

/-- The loop of `rollback_from_journal` (lines 902–911), over the reversed swaps. -/
def rollbackSwaps (restoreId : Uuid) : List RestoreSwap → Body β Unit
  | [] => pure ()
  | swap :: rest => do
    rollbackSwap restoreId swap
    rollbackSwaps restoreId rest

/-- `rollback_from_journal` (lines 893–924). -/
def rollbackFromJournal (journal : RestoreJournal) : Body β Unit := do
  if journal.databaseSwitchStarted ∧ journal.databaseHadLive then
    copyDatabase (.backups journal.safetyDatabaseName) .database
  rollbackSwaps journal.restoreId journal.swaps.reverse
  removeSafety journal.safetyDatabaseName
  if ¬journal.databaseHadLive then removeDatabaseFamily

/-- `recover_interrupted_restore` (lines 390–409). -/
def recoverInterruptedRestore : Body β Bool := do
  recoverFileBackup .journal .journalBackup
  let files ← get
  match files .journal with
  | none => pure false
  | some (.journal journal) =>
    lift journal.validate
    (if journal.committed then cleanupCommittedRestore journal else rollbackFromJournal journal)
    op (·.remove .journal)
    pure true
  | some _ => fail (stateError "Application-state restore journal is invalid")

/-! ## Installation -/

/-- The name of the safety database (lines 760–773). -/
def safetyName (restoreId : Uuid) : String :=
  "jobs.sqlite3.pre-state-restore." ++ restoreId.toText ++ ".sqlite3"

/-- The name of the safety bundle (lines 747–749). -/
def safetyBundleName (restoreId : Uuid) : String :=
  "application-state.pre-restore." ++ restoreId.toText ++ ".fwstate"

/-- The renames of `swap_component` (lines 860–865). -/
def exchangeComponent (restoreId : Uuid) (component : SwapComponent) (hadLive included : Bool) :
    Body β Unit := do
  if hadLive then op (·.rename (.live component) (.old restoreId component))
  let files ← get
  if included ∧ files (.staged component) ≠ none then
    op (·.rename (.staged component) (.live component))

/-- `swap_component` (lines 844–867) on a journal in a variable, so that its errors carry the
    journal as it is then. -/
def swapComponent (nonce : Uuid) (component : SwapComponent) (included : Bool)
    (journal : RestoreJournal) : Proc (StateFiles β) (AnoleError × RestoreJournal) RestoreJournal := do
  let files ← get
  let hadLive : Bool := files (.live component) ≠ none
  let journal := { journal with swaps := journal.swaps ++ [⟨component, hadLive⟩] }
  mapError (·, journal) (saveJournal nonce journal)
  mapError (·, journal) (exchangeComponent journal.restoreId component hadLive included)
  pure journal

/-- The calls of `swap_component` (lines 786–809), one after another. -/
def swapComponents (nonce : ℕ → Uuid) (components : BundleComponents) :
    List SwapComponent → RestoreJournal →
      Proc (StateFiles β) (AnoleError × RestoreJournal) RestoreJournal
  | [], journal => pure journal
  | component :: rest, journal => do
    let journal ← swapComponent (nonce (journal.swaps.length + 1)) component
      (components.included component) journal
    swapComponents nonce components rest journal

/-- The order of the swaps. -/
def swapOrder : List SwapComponent := [.presets, .settings, .engineRegistry, .reports]

/-- The closure `operation` (lines 785–815). -/
def switchState (nonce : ℕ → Uuid) (components : BundleComponents) (journal : RestoreJournal) :
    Proc (StateFiles β) (AnoleError × RestoreJournal) RestoreJournal := do
  let journal ← swapComponents nonce components swapOrder journal
  let journal := { journal with databaseSwitchStarted := true }
  mapError (·, journal) (saveJournal (nonce 5) journal)
  mapError (·, journal) (copyDatabase .stagedDatabase .database)
  pure journal

/-- The safety copies before the switch (lines 746–767): the bundle, with the outcome of its
    creation, and the database. -/
def takeSafetyCopies (restoreId : Uuid) (safetyBundle : Except AnoleError (StateContent β)) :
    Body β Unit := do
  let content ← lift safetyBundle
  op (·.put (.backups (safetyBundleName restoreId)) content)
  copyDatabase .database (.backups (safetyName restoreId))

/-- The rollback of a failed switch (lines 816–826). -/
def abandonRestore (error : AnoleError) (journal : RestoreJournal) :
    Body β StateBundleRestoreReport := do
  let rolledBack : Except AnoleError Unit ← attempt (rollbackFromJournal journal)
  match rolledBack with
  | .error rollback =>
    fail (error.withDiagnostic (error.diagnostic.getD "" ++
      "; application-state rollback also failed: " ++ rollback.display))
  | .ok () =>
    removePathIfExists .journal
    fail error

/-- The commit of a switch (lines 828–833). -/
def commitRestore (nonce : Uuid) (journal : RestoreJournal) : Body β Unit := do
  let journal := { journal with committed := true }
  saveJournal nonce journal
  cleanupCommittedRestore journal
  op (·.remove .journal)
  removePathIfExists .journalBackup

/-- `install_prepared_bundle` (lines 737–842), with the outcome of `backup_inner` and the values
    of `Uuid::new_v4()`. -/
def installPreparedBundle (bundlePath : PathBuf) (prepared : PreparedBundle) (restoreId : Uuid)
    (nonce : ℕ → Uuid) (safetyBundle : Except AnoleError (StateContent β)) :
    Body β StateBundleRestoreReport := do
  let files ← get
  let databaseHadLive : Bool := files .database ≠ none
  (if databaseHadLive then takeSafetyCopies restoreId safetyBundle else pure ())
  let journal : RestoreJournal :=
    { schemaVersion := applicationStateBundleSchemaVersion
      restoreId := restoreId
      safetyDatabaseName := if databaseHadLive then safetyName restoreId else ""
      databaseHadLive := databaseHadLive
      databaseSwitchStarted := false
      committed := false
      swaps := [] }
  saveJournal (nonce 0) journal
  let switched : Except (AnoleError × RestoreJournal) RestoreJournal ←
    attempt (switchState nonce prepared.components journal)
  match switched with
  | .error (error, journal) => abandonRestore error journal
  | .ok journal =>
    commitRestore (nonce 6) journal
    pure
      { bundlePath := bundlePath
        bundleId := prepared.bundleId
        safetyBundle :=
          if databaseHadLive then some (.backups (safetyBundleName restoreId)) else none
        reportsRestored := prepared.components.reports
        warnings := prepared.warnings }

end ApplicationState

end Anole
