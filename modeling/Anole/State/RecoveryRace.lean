import Anole.Common.Threads
import Anole.State.Install

/-!
# A restore beside recoveries

Model of `restore` and `recover_interrupted_restore` (`crates/core/src/application_state.rs`, lines 378–409)
as threads. Every request that opens the job store runs a recovery (`crates/server/src/routes.rs`,
lines 432–448), in processes that know nothing of each other.

The atomic steps are the file operations of the source and the copies of a database. A step that looks at a
file is a step of its own, an operation without its source fails, and a rename replaces what is at its target.

Main results:

* `install_agrees`, `restore_alone`: alone, the thread of an installation ends as the procedure does.
* `restore_beside_recoveries`: what a restore leaves when no recovery takes a step while there is a journal.

**Deviation.** A recovery takes the journal of a restore that goes on for the journal of one that was
interrupted.
-/

open Common Common.Proc

namespace Anole

namespace ApplicationState

namespace Concurrent

variable {β : Type}

/-- A thread on the state directory. -/
abbrev Body (β α : Type) := Thread (StateFiles β) AnoleError α

/-! ## Steps -/

/-- The error of an operation on a file that is not there. -/
def missing : AnoleError := stateIoError "No such file or directory (os error 2)"

/-- `exists`, `is_file` and reads. -/
def look (file : StateFile) : Body β (Option (StateContent β)) := .look fun files => files file

/-- `fs::rename`. -/
def rename (source target : StateFile) : Body β Unit :=
  .call fun files => if files source = none then (.error missing, files) else (.ok (), files.rename source target)

/-- `fs::remove_file`. -/
def remove (file : StateFile) : Body β Unit :=
  .call fun files => if files file = none then (.error missing, files) else (.ok (), files.remove file)

/-- `OpenOptions::create_new`. -/
def createNew (file : StateFile) : Body β Unit :=
  .call fun files =>
    if files file ≠ none then (.error (stateIoError "File exists (os error 17)"), files)
    else (.ok (), files.put file .torn)

/-- `write_all`. -/
def write (file : StateFile) (content : StateContent β) : Body β Unit :=
  .call fun files => (.ok (), files.put file content)

/-- `persist_noclobber`. -/
def persistNoclobber (partialFile path : StateFile) : Body β Unit :=
  .call fun files =>
    if files path ≠ none then (.error (stateIoError "File exists (os error 17)"), files)
    else if files partialFile = none then (.error missing, files)
    else (.ok (), files.rename partialFile path)

/-- `MaintenanceService::backup` and `restore`. -/
def copyDatabase (source destination : StateFile) : Body β Unit :=
  .call fun files => match files source with
    | none => (.error (.new .storageFailed .store "Database does not exist"
        "Choose an existing Anole state database."), files)
    | some content => (.ok (), files.put destination content)

/-- `let _ = …`. -/
def ignore (body : Body β Unit) : Body β Unit := do
  let _ ← (body.attempt : Body β (Except AnoleError Unit))
  pure ()

/-! ## Files -/

/-- `remove_path_if_exists` (lines 1599–1606), and a removal behind `is_file` or `exists`. -/
def removePathIfExists (path : StateFile) : Body β Unit := do
  let there ← look path
  if there ≠ none then remove path else pure ()

/-- The second half of `recover_file_backup` (lines 1577–1579). -/
def dropBackup (path backup : StateFile) : Body β Unit := do
  let there ← look path
  if there ≠ none then removePathIfExists backup else pure ()

/-- `recover_file_backup` (lines 1573–1581). -/
def recoverFileBackup (path backup : StateFile) : Body β Unit := do
  let there ← look path
  if there = none then
    let kept ← look backup
    if kept ≠ none then rename backup path else dropBackup path backup
  else dropBackup path backup

/-- `atomic_replace_file` up to the publication (lines 1536–1559). -/
def prepareReplacement (path backup partialFile : StateFile) (content : StateContent β) : Body β Unit := do
  recoverFileBackup path backup
  createNew partialFile
  write partialFile content
  let there ← look path
  if there ≠ none then
    removePathIfExists backup
    rename path backup
  else pure ()

/-- A publication that was refused (lines 1561–1566): the old file comes back, and the partial file goes with
    the error that holds it. -/
def abandonReplacement (path backup partialFile : StateFile) (error : AnoleError) : Body β Unit := do
  let kept ← look backup
  (if kept ≠ none then do
    let there ← look path
    if there = none then ignore (rename backup path) else pure ()
  else pure ())
  ignore (remove partialFile)
  .done (.error error)

/-- `atomic_replace_file` (lines 1536–1571). -/
def atomicReplaceFile (path backup partialFile : StateFile) (content : StateContent β) : Body β Unit := do
  prepareReplacement path backup partialFile content
  let persisted : Except AnoleError Unit ← (persistNoclobber partialFile path).attempt
  match persisted with
  | .error error => abandonReplacement path backup partialFile error
  | .ok () => removePathIfExists backup

/-- `save_journal` (lines 886–891). -/
def saveJournal (nonce : Uuid) (journal : RestoreJournal) : Body β Unit :=
  atomicReplaceFile .journal .journalBackup (.journalPartial nonce) (.journal journal)

/-- `remove_database_family` (lines 1608–1619). -/
def removeDatabaseFamily : Body β Unit := do
  removePathIfExists .database
  removePathIfExists .databaseWal
  removePathIfExists .databaseShm

/-- `read_bounded` (lines 1525–1534): the metadata and the bytes. -/
def readBounded (path : StateFile) : Body β (StateContent β) := do
  let there ← look path
  if there = none then .done (.error missing) else
    let read ← look path
    match read with
    | none => .done (.error missing)
    | some content => pure content

/-! ## Recovery -/

/-- The loop of `cleanup_committed_restore` (lines 870–872). -/
def removeOld (restoreId : Uuid) : List RestoreSwap → Body β Unit
  | [] => pure ()
  | swap :: rest => do
    removePathIfExists (.old restoreId swap.component)
    removeOld restoreId rest

/-- `safety.is_file()` and the removal (lines 879–881 and 917–919). -/
def removeSafety (name : String) : Body β Unit :=
  if name ≠ "" then removePathIfExists (.backups name) else pure ()

/-- `cleanup_committed_restore` (lines 869–884). -/
def cleanupCommittedRestore (journal : RestoreJournal) : Body β Unit := do
  removeOld journal.restoreId journal.swaps
  removeSafety journal.safetyDatabaseName

/-- The body of the loop of `rollback_from_journal` (lines 903–910). -/
def rollbackSwap (restoreId : Uuid) (swap : RestoreSwap) : Body β Unit := do
  let old ← look (.old restoreId swap.component)
  if old ≠ none then
    removePathIfExists (.live swap.component)
    rename (.old restoreId swap.component) (.live swap.component)
  else if ¬swap.hadLive then removePathIfExists (.live swap.component) else pure ()

/-- The loop of `rollback_from_journal` (lines 902–911), over the reversed swaps. -/
def rollbackSwaps (restoreId : Uuid) : List RestoreSwap → Body β Unit
  | [] => pure ()
  | swap :: rest => do
    rollbackSwap restoreId swap
    rollbackSwaps restoreId rest

/-- `rollback_from_journal` (lines 893–924). -/
def rollbackFromJournal (journal : RestoreJournal) : Body β Unit := do
  (if journal.databaseSwitchStarted ∧ journal.databaseHadLive then
    copyDatabase (.backups journal.safetyDatabaseName) .database else pure ())
  rollbackSwaps journal.restoreId journal.swaps.reverse
  removeSafety journal.safetyDatabaseName
  (if ¬journal.databaseHadLive then removeDatabaseFamily else pure ())

/-- `recover_interrupted_restore` (lines 390–409). -/
def recoverInterruptedRestore : Body β Bool := do
  recoverFileBackup .journal .journalBackup
  let there ← look .journal
  if there = none then pure false else
    let content ← readBounded .journal
    match content with
    | .journal journal => do
      (.done journal.validate : Body β Unit)
      (if journal.committed then cleanupCommittedRestore journal else rollbackFromJournal journal)
      remove .journal
      pure true
    | _ => .done (.error (stateError "Application-state restore journal is invalid"))

/-! ## Installation -/

/-- The renames of `swap_component` (lines 860–865). -/
def exchangeComponent (restoreId : Uuid) (component : SwapComponent) (hadLive included : Bool) : Body β Unit := do
  (if hadLive then rename (.live component) (.old restoreId component) else pure ())
  let staged ← look (.staged component)
  if included ∧ staged ≠ none then rename (.staged component) (.live component) else pure ()

/-- `swap_component` (lines 844–867) on a journal in a variable, so that its errors carry the journal as it is
    then. -/
def swapComponent (nonce : Uuid) (component : SwapComponent) (included : Bool) (journal : RestoreJournal) :
    Thread (StateFiles β) (AnoleError × RestoreJournal) RestoreJournal := do
  let there ← .look fun files => files (.live component)
  let hadLive : Bool := there ≠ none
  let journal := { journal with swaps := journal.swaps ++ [⟨component, hadLive⟩] }
  (saveJournal nonce journal).mapError (·, journal)
  (exchangeComponent journal.restoreId component hadLive included).mapError (·, journal)
  pure journal

/-- The calls of `swap_component` (lines 786–809), one after another. -/
def swapComponents (nonce : ℕ → Uuid) (components : BundleComponents) :
    List SwapComponent → RestoreJournal → Thread (StateFiles β) (AnoleError × RestoreJournal) RestoreJournal
  | [], journal => pure journal
  | component :: rest, journal => do
    let journal ← swapComponent (nonce (journal.swaps.length + 1)) component (components.included component) journal
    swapComponents nonce components rest journal

/-- The closure `operation` (lines 785–815). -/
def switchState (nonce : ℕ → Uuid) (components : BundleComponents) (journal : RestoreJournal) :
    Thread (StateFiles β) (AnoleError × RestoreJournal) RestoreJournal := do
  let journal ← swapComponents nonce components swapOrder journal
  let journal := { journal with databaseSwitchStarted := true }
  (saveJournal (nonce 5) journal).mapError (·, journal)
  (copyDatabase .stagedDatabase .database).mapError (·, journal)
  pure journal

/-- The safety copies before the switch (lines 746–767). -/
def takeSafetyCopies (restoreId : Uuid) (safetyBundle : Except AnoleError (StateContent β)) : Body β Unit := do
  let content ← .done safetyBundle
  write (.backups (safetyBundleName restoreId)) content
  copyDatabase .database (.backups (safetyName restoreId))

/-- The rollback of a failed switch (lines 816–826). -/
def abandonRestore (error : AnoleError) (journal : RestoreJournal) : Body β StateBundleRestoreReport := do
  let rolledBack : Except AnoleError Unit ← (rollbackFromJournal journal).attempt
  match rolledBack with
  | .error rollback =>
    .done (.error (error.withDiagnostic (error.diagnostic.getD "" ++
      "; application-state rollback also failed: " ++ rollback.display)))
  | .ok () =>
    ignore (remove .journal)
    .done (.error error)

/-- The commit of a switch (lines 828–833). -/
def commitRestore (nonce : Uuid) (journal : RestoreJournal) : Body β Unit := do
  let journal := { journal with committed := true }
  saveJournal nonce journal
  cleanupCommittedRestore journal
  remove .journal
  ignore (remove .journalBackup)

/-- `install_prepared_bundle` (lines 737–842), with the outcome of `backup_inner` and the values of
    `Uuid::new_v4()`. -/
def installPreparedBundle (bundlePath : PathBuf) (prepared : PreparedBundle) (restoreId : Uuid)
    (nonce : ℕ → Uuid) (safetyBundle : Except AnoleError (StateContent β)) :
    Body β StateBundleRestoreReport := do
  let database ← look .database
  let databaseHadLive : Bool := database ≠ none
  (if databaseHadLive then takeSafetyCopies restoreId safetyBundle else pure ())
  let journal : RestoreJournal :=
    { schemaVersion := applicationStateBundleSchemaVersion
      restoreId := restoreId
      safetyDatabaseName := if databaseHadLive then safetyName restoreId else ""
      databaseHadLive := databaseHadLive
      databaseSwitchStarted := false
      committed := false
      swaps := [] }
  saveJournal (nonce 0) journal
  let switched : Except (AnoleError × RestoreJournal) RestoreJournal ←
    (switchState nonce prepared.components journal).attempt
  match switched with
  | .error (error, journal) => abandonRestore error journal
  | .ok journal =>
    commitRestore (nonce 6) journal
    pure
      { bundlePath := bundlePath
        bundleId := prepared.bundleId
        safetyBundle :=
          if databaseHadLive then some (.backups (safetyBundleName restoreId)) else none
        reportsRestored := prepared.components.reports
        warnings := prepared.warnings }

/-- `restore` (lines 378–383), with the outcome of `prepare_bundle`. -/
def restore (bundlePath : PathBuf) (prepared : Except AnoleError PreparedBundle) (restoreId : Uuid)
    (nonce : ℕ → Uuid) (safetyBundle : Except AnoleError (StateContent β)) : Body β StateBundleRestoreReport := do
  let _ ← recoverInterruptedRestore
  let prepared ← .done prepared
  installPreparedBundle bundlePath prepared restoreId nonce safetyBundle

/-! ## Alone -/

section Alone

variable {s : StateFiles β} {j : RestoreJournal} {s₀ : StateFiles β} {id : Uuid} {nonces : ℕ → Uuid}
  {components : BundleComponents}

theorem rename_agrees {source target : StateFile} (h : s source ≠ none) :
    (rename source target).Agrees (op (·.rename source target)) s := .op (if_neg h)

theorem remove_agrees {file : StateFile} (h : s file ≠ none) : (remove file).Agrees (op (·.remove file)) s :=
  .op (if_neg h)

theorem copyDatabase_agrees {source destination : StateFile} :
    (copyDatabase source destination).Agrees (ApplicationState.copyDatabase source destination) s := by
  unfold ApplicationState.copyDatabase
  refine .get ?_
  unfold copyDatabase
  cases hsource : s source with
  | none =>
    refine Prod.ext ?_ ?_ <;> simp only [Thread.call, Thread.run, hsource] <;> rfl
  | some content =>
    refine .op ?_
    rw [hsource]

theorem removePathIfExists_agrees {path : StateFile} :
    (removePathIfExists path).Agrees (ApplicationState.removePathIfExists path) s := by
  unfold ApplicationState.removePathIfExists
  exact .get (.look (.ite remove_agrees fun _ => .pure ()))

theorem recoverFileBackup_agrees {path backup : StateFile} :
    (recoverFileBackup path backup).Agrees (ApplicationState.recoverFileBackup path backup) s := by
  unfold ApplicationState.recoverFileBackup
  refine .get (.look ?_)
  by_cases hpath : s path = none
  · rw [if_pos hpath]
    refine .look ?_
    by_cases hbackup : s backup = none
    · rw [if_neg (not_not.mpr hbackup), if_neg (fun h => h.2 hbackup), if_neg (fun h => h.2 hbackup)]
      refine .look ?_
      rw [if_neg (not_not.mpr hpath)]
      exact .pure ()
    · rw [if_pos hbackup, if_pos ⟨hpath, hbackup⟩]
      exact rename_agrees hbackup
  · rw [if_neg hpath, if_neg (fun h => hpath h.1)]
    refine .look ?_
    rw [if_pos hpath]
    refine .look ?_
    by_cases hbackup : s backup = none
    · rw [if_neg (not_not.mpr hbackup), if_neg (fun h => h.2 hbackup)]
      exact .pure ()
    · rw [if_pos hbackup, if_pos ⟨hpath, hbackup⟩]
      exact remove_agrees hbackup

variable {nonce : Uuid}

theorem removed_wp {path : StateFile} : wp (ApplicationState.removePathIfExists path) (fun _ => True)
    (fun _ _ => False) (fun _ t => t = s.remove path) s := removePathIfExists_wp (fun _ => trivial) rfl

theorem prepareReplacement_agrees {content : StateContent β} (hfree : s (.journalPartial nonce) = none) :
    (prepareReplacement .journal .journalBackup (.journalPartial nonce) content).Agrees
      (ApplicationState.prepareReplacement .journal .journalBackup (.journalPartial nonce) content) s := by
  unfold ApplicationState.prepareReplacement
  refine .bind_wp recoverFileBackup_agrees recoverFileBackup_wp ?_
  rintro - t ⟨-, -, hbackup, hsides⟩
  have hnone : t (.journalPartial nonce) = none := (hsides nonce).trans hfree
  refine .get ?_
  rw [if_neg (not_not.mpr hnone)]
  refine .bind (.op (if_neg (not_not.mpr hnone))) ?_
  rintro - _ ⟨-, rfl⟩
  refine .bind (.op rfl) ?_
  rintro - _ ⟨-, rfl⟩
  refine .get (.look (.ite (fun hthere => ?_) fun _ => .pure ()))
  refine .bind_wp removePathIfExists_agrees removed_wp ?_
  rintro - _ rfl
  refine rename_agrees ?_
  rw [Files.remove_of_ne (by simp)]
  exact hthere

theorem saveJournal_agrees (hfree : s (.journalPartial nonce) = none) :
    (saveJournal nonce j).Agrees (ApplicationState.saveJournal nonce j) s := by
  unfold ApplicationState.saveJournal ApplicationState.atomicReplaceFile
  refine .bind_wp (prepareReplacement_agrees hfree) (prepareReplacement_wp hfree) ?_
  rintro - t ⟨-, -, hjournal, hside, -⟩
  -- the path is free, so that the partial file is published
  refine .attempt_op ?_ removePathIfExists_agrees
  rw [if_neg (not_not.mpr hjournal), if_neg (by rw [hside]; exact Option.some_ne_none _)]

theorem removeOld_agrees (swaps : List RestoreSwap) :
    (removeOld id swaps).Agrees (ApplicationState.removeOld id swaps) s := by
  induction swaps generalizing s with
  | nil => exact .pure ()
  | cons swap rest ih => exact .bind removePathIfExists_agrees fun _ _ _ => ih

theorem removeSafety_agrees {name : String} : (removeSafety name).Agrees (ApplicationState.removeSafety name) s :=
  .ite (fun _ => removePathIfExists_agrees) fun _ => .pure ()

theorem cleanupCommittedRestore_agrees :
    (cleanupCommittedRestore j).Agrees (ApplicationState.cleanupCommittedRestore j) s :=
  .bind (removeOld_agrees j.swaps) fun _ _ _ => removeSafety_agrees

theorem exchangeComponent_agrees {c : SwapComponent} {hadLive included : Bool}
    (hhad : hadLive = true → s (.live c) ≠ none) :
    (exchangeComponent id c hadLive included).Agrees (ApplicationState.exchangeComponent id c hadLive included) s := by
  have hbring : ∀ t : StateFiles β,
      (do
        let staged ← look (.staged c)
        if included ∧ staged ≠ none then rename (.staged c) (.live c) else pure () : Body β Unit).Agrees
      (do
        let files ← get
        if included ∧ files (.staged c) ≠ none then op (·.rename (.staged c) (.live c))) t :=
    fun t => .get (.look (.ite (fun h => rename_agrees h.2) fun _ => .pure ()))
  unfold ApplicationState.exchangeComponent
  cases hadLive with
  | true => exact .bind (rename_agrees (hhad rfl)) fun _ t _ => hbring t
  | false => exact hbring s

theorem saved_wp {ε : Type} (hfree : s (.journalPartial nonce) = none) (f : AnoleError → ε) :
    wp (Proc.mapError f (ApplicationState.saveJournal nonce j)) (fun _ => True) (fun _ _ => False)
      (fun _ => Saved s j) s :=
  wp_mapError.mpr ((saveJournal_wp hfree).mono (fun _ _ => trivial) (fun _ _ h => h.elim) fun _ _ h => h)

theorem swapComponent_agrees (h : Active s₀ id components nonces j s) {c : SwapComponent} (k : ℕ) :
    (swapComponent (nonces k) c (components.included c) j).Agrees
      (ApplicationState.swapComponent (nonces k) c (components.included c) j) s := by
  unfold ApplicationState.swapComponent
  refine .get (.look ?_)
  refine .bind_wp (.mapError _ (saveJournal_agrees (h.partials k))) (saved_wp (h.partials k) _) ?_
  rintro - t ht
  refine .bind (.mapError _ (exchangeComponent_agrees fun hhad => ?_)) fun _ _ _ => .pure _
  rw [ht.data (.live c) not_false]
  exact of_decide_eq_true hhad

theorem swapComponents_agrees (l : List SwapComponent) (h : Active s₀ id components nonces j s) (hnodup : l.Nodup)
    (hl : ∀ c ∈ l, c ∉ j.swaps.map RestoreSwap.component) :
    (swapComponents nonces components l j).Agrees (ApplicationState.swapComponents nonces components l j) s := by
  induction l generalizing j s with
  | nil => exact .pure j
  | cons c rest ih =>
    obtain ⟨hfirst, hrest⟩ := List.nodup_cons.mp hnodup
    unfold ApplicationState.swapComponents
    refine .bind_wp (swapComponent_agrees h _) (swapComponent_wp h (hl c (by simp)) _) ?_
    rintro _ t ⟨rfl, ht⟩
    refine ih ht hrest fun c' hc' => ?_
    rw [withSwap_components, List.mem_append, not_or, List.mem_singleton]
    exact ⟨hl c' (List.mem_cons_of_mem _ hc'), fun he => hfirst (he ▸ hc')⟩

theorem switchState_agrees (h : Active s₀ id components nonces j s) (hempty : j.swaps = []) :
    (switchState nonces components j).Agrees (ApplicationState.switchState nonces components j) s := by
  unfold ApplicationState.switchState
  refine .bind_wp (swapComponents_agrees swapOrder h (by decide) (by simp [hempty]))
    (swapComponents_wp swapOrder h (by decide) (by simp [hempty])) ?_
  rintro j' t ⟨ht, -⟩
  refine .bind (.mapError _ (saveJournal_agrees (ht.partials 5))) fun _ _ _ => ?_
  exact .bind (.mapError _ copyDatabase_agrees) fun _ _ _ => .pure _

theorem ignore_remove_agrees {file : StateFile} :
    (ignore (remove file)).Agrees (ApplicationState.removePathIfExists file) s := by
  unfold ApplicationState.removePathIfExists
  refine .get ?_
  by_cases hnone : s file = none
  · rw [if_neg (not_not.mpr hnone)]
    refine Prod.ext rfl ?_
    show (if s file = none then (Except.error missing, s) else (Except.ok (), s.remove file)).2 = s
    rw [if_pos hnone]
  · rw [if_pos hnone]
    refine Prod.ext rfl ?_
    show (if s file = none then (Except.error missing, s) else (Except.ok (), s.remove file)).2 = s.remove file
    rw [if_neg hnone]

theorem commitRestore_agrees (hfree : s (.journalPartial nonce) = none) :
    (commitRestore nonce j).Agrees (ApplicationState.commitRestore nonce j) s := by
  unfold ApplicationState.commitRestore
  refine .bind_wp (saveJournal_agrees hfree) (saveJournal_wp hfree) ?_
  rintro - t ht
  refine .bind_wp cleanupCommittedRestore_agrees (cleanupCommittedRestore_wp rfl) ?_
  rintro - u ⟨hsame, -⟩
  refine .bind (remove_agrees ?_) fun _ _ _ => ignore_remove_agrees
  rw [hsame.1, ht.journal]
  exact Option.some_ne_none _

theorem takeSafetyCopies_agrees {safetyBundle : Except AnoleError (StateContent β)} :
    (takeSafetyCopies id safetyBundle).Agrees (ApplicationState.takeSafetyCopies id safetyBundle) s :=
  .bind (.lift safetyBundle) fun _ _ _ => .bind (.op rfl) fun _ _ _ => copyDatabase_agrees

/-- What the safety copies leave, and what they leave when they fail. -/
theorem safety_wp (hprior : Prior s₀ id nonces) (safetyBundle : Except AnoleError (StateContent β)) :
    wp (if decide (s₀ .database ≠ none) then ApplicationState.takeSafetyCopies id safetyBundle else pure ())
      (fun _ => True) (fun _ t => t = s₀)
      (fun _ t => (∀ file, (∀ name, file ≠ StateFile.backups name) → t file = s₀ file) ∧
        (s₀ .database ≠ none → t (.backups (safetyName id)) = s₀ .database)) s₀ := by
  rw [wp_ite]
  constructor
  · intro hsome
    refine (takeSafetyCopies_wp hprior (of_decide_eq_true hsome)).mono (fun _ _ => trivial) (fun _ _ h => h) ?_
    exact fun _ t ht => ⟨ht.1, fun _ => ht.2⟩
  · intro hnone
    exact wp_pure.mpr ⟨fun _ _ => rfl, fun hsome => absurd (decide_eq_true hsome) hnone⟩

theorem switched_wp (hprior : Prior s₀ id nonces) (h : Active s₀ id components nonces j s) (hempty : j.swaps = []) :
    wp (Proc.attempt (ApplicationState.switchState nonces components j) :
        Proc (StateFiles β) AnoleError (Except (AnoleError × RestoreJournal) RestoreJournal))
      (fun _ => True) (fun _ _ => False)
      (fun r t => (∃ j', r = .ok j') ∧ contents t = bundleContents components s₀ ∧
        ∀ k, t (.journalPartial (nonces k)) = none) s := by
  refine wp_attempt.mpr ((switchState_wp hprior h hempty).mono (fun _ _ => trivial) (fun _ _ h => h.elim) ?_)
  exact fun j' t ht => ⟨⟨j', rfl⟩, ht.2.2.2.2.1, ht.2.2.2.2.2⟩

theorem commitRestore_wp (hfree : s (.journalPartial nonce) = none) :
    wp (ApplicationState.commitRestore nonce j) (fun _ => True) (fun _ _ => False)
      (fun _ t => contents t = contents s ∧ t .journal = none ∧ t .journalBackup = none) s := by
  unfold ApplicationState.commitRestore
  rw [wp_bind]
  refine (saveJournal_wp hfree).mono (fun _ _ => trivial) (fun _ _ h => h) ?_
  rintro - t ht
  rw [wp_bind]
  refine (cleanupCommittedRestore_wp rfl).mono (fun _ _ => trivial) (fun _ _ h => h) ?_
  rintro - u ⟨hsame, hcontents⟩
  obtain ⟨hsettled, hjournal, hbackup⟩ :=
    settled_remove_journal (hsame.2.trans ht.backup) (hcontents.trans ht.data.contents_eq)
  rw [wp_bind, wp_op]
  refine ⟨trivial, removePathIfExists_wp (fun _ => trivial) ?_⟩
  rw [Files.remove_eq_self hbackup]
  exact ⟨hsettled.2, hjournal, hbackup⟩

/-- What is there when a restore has ended: no journal, and together the contents of the bundle or those from
    before, as the restore has succeeded or not. -/
structure Restored (s₀ : StateFiles β) (prepared : Except AnoleError PreparedBundle)
    (result : Except AnoleError StateBundleRestoreReport) (s : StateFiles β) : Prop where
  journal : s .journal = none
  journalBackup : s .journalBackup = none
  succeeded : ∀ report, result = .ok report →
    ∃ bundle, prepared = .ok bundle ∧ contents s = bundleContents bundle.components s₀
  failed : ∀ error, result = .error error → contents s = contents s₀

/-- **Alone**, the thread of an installation ends as the procedure does, -/
theorem install_agrees (hprior : Prior s₀ id nonces) (bundlePath : PathBuf) (prepared : PreparedBundle)
    (safetyBundle : Except AnoleError (StateContent β)) :
    (installPreparedBundle bundlePath prepared id nonces safetyBundle).Agrees
      (ApplicationState.installPreparedBundle bundlePath prepared id nonces safetyBundle) s₀ := by
  unfold ApplicationState.installPreparedBundle
  refine .get (.look ?_)
  refine .bind_wp (.ite (fun _ => takeSafetyCopies_agrees) fun _ => .pure ()) (safety_wp hprior safetyBundle) ?_
  rintro - t ⟨hdata, hsafety⟩
  have hfree : t (.journalPartial (nonces 0)) = none := (hdata _ (by simp)).trans (hprior.partials 0)
  refine .bind_wp (saveJournal_agrees hfree) (saveJournal_wp_first prepared.components hprior hdata hsafety
    recorded_first rfl rfl rfl) ?_
  rintro - u hu
  refine .bind_wp (.attempt (switchState_agrees hu rfl)) (switched_wp hprior hu rfl) ?_
  rintro _ v ⟨⟨j', rfl⟩, -, hsides⟩
  exact .bind (commitRestore_agrees (hsides 6)) fun _ _ _ => .pure _

/-- and the procedure has restored the bundle, or it has failed and changed nothing. -/
theorem install_wp (hprior : Prior s₀ id nonces) (bundlePath : PathBuf) (prepared : PreparedBundle)
    (safetyBundle : Except AnoleError (StateContent β)) :
    wp (ApplicationState.installPreparedBundle bundlePath prepared id nonces safetyBundle) (fun _ => True)
      (fun error => Restored s₀ (.ok prepared) (.error error))
      (fun report => Restored s₀ (.ok prepared) (.ok report)) s₀ := by
  unfold ApplicationState.installPreparedBundle
  rw [wp_bind, wp_get]
  dsimp only
  rw [wp_bind]
  refine (safety_wp hprior safetyBundle).mono (fun _ _ => trivial) ?_ ?_
  · rintro error t rfl
    exact ⟨hprior.journal, hprior.journalBackup, fun _ h => (by cases h), fun _ _ => rfl⟩
  rintro - t ⟨hdata, hsafety⟩
  rw [wp_bind]
  refine (saveJournal_wp_first prepared.components hprior hdata hsafety recorded_first rfl rfl rfl).mono
    (fun _ _ => trivial) (fun _ _ h => h.elim) ?_
  rintro - u hu
  rw [wp_bind]
  refine (switched_wp hprior hu rfl).mono (fun _ _ => trivial) (fun _ _ h => h.elim) ?_
  rintro _ v ⟨⟨j', rfl⟩, hcontents, hsides⟩
  dsimp only
  rw [wp_bind]
  refine (commitRestore_wp (hsides 6)).mono (fun _ _ => trivial) (fun _ _ h => h.elim) ?_
  rintro - w ⟨hsame, hjournal, hbackup⟩
  exact wp_pure.mpr ⟨hjournal, hbackup, fun _ _ => ⟨prepared, rfl, hsame.trans hcontents⟩, fun _ h => (by cases h)⟩

theorem recover_nothing (hjournal : s .journal = none) (hbackup : s .journalBackup = none) :
    (recoverInterruptedRestore : Body β Bool).run s = (.ok false, s) := by
  simp [recoverInterruptedRestore, recoverFileBackup, dropBackup, look, Thread.look, Thread.call, Thread.andThen,
    bind, pure, Thread.run, hjournal, hbackup]

/-- **A restore alone** restores the bundle, or fails and changes nothing. -/
theorem restore_alone (hprior : Prior s₀ id nonces) (bundlePath : PathBuf)
    (prepared : Except AnoleError PreparedBundle) (safetyBundle : Except AnoleError (StateContent β)) :
    Restored s₀ prepared ((restore bundlePath prepared id nonces safetyBundle).run s₀).1
      ((restore bundlePath prepared id nonces safetyBundle).run s₀).2 := by
  have hrecover : (restore bundlePath prepared id nonces safetyBundle).run s₀ =
      (Thread.done prepared >>= fun prepared => installPreparedBundle bundlePath prepared id nonces safetyBundle).run
        s₀ := by
    show (recoverInterruptedRestore.andThen _).run s₀ = _
    rw [Thread.run_andThen, recover_nothing hprior.journal hprior.journalBackup]
  rw [hrecover]
  cases prepared with
  | error error => exact ⟨hprior.journal, hprior.journalBackup, fun _ h => (by cases h), fun _ _ => rfl⟩
  | ok prepared =>
    exact (install_agrees hprior bundlePath prepared safetyBundle).meets
      (install_wp hprior bundlePath prepared safetyBundle)

end Alone

/-! ## Beside recoveries -/

/-- There is no journal. -/
def NoJournal (s : StateFiles β) : Prop := s .journal = none ∧ s .journalBackup = none

instance [DecidableEq β] : DecidablePred (NoJournal : StateFiles β → Prop) :=
  fun s => inferInstanceAs (Decidable (s .journal = none ∧ s .journalBackup = none))

theorem recovery_idle : (recoverInterruptedRestore : Body β Bool).Idle NoJournal := by
  -- one look after another: at the journal, its backup, and the journal twice
  simp +contextual [recoverInterruptedRestore, recoverFileBackup, dropBackup, look, Thread.look, Thread.call,
    Thread.andThen, bind, pure, Thread.Idle, NoJournal]

/-- A restore that is about to start, beside recoveries. -/
def beside (s₀ : StateFiles β) (bundlePath : PathBuf) (prepared : Except AnoleError PreparedBundle)
    (restoreId : Uuid) (nonce : ℕ → Uuid) (safetyBundle : Except AnoleError (StateContent β)) (recoveries : ℕ) :
    Beside (StateFiles β) AnoleError StateBundleRestoreReport Bool where
  store := s₀
  main := restore bundlePath prepared restoreId nonce safetyBundle
  others := fun i => if i < recoveries then recoverInterruptedRestore else .done (.ok false)

/-- **A restore beside recoveries** restores the bundle, or fails and changes nothing, when no recovery takes a
    step while there is a journal. -/
theorem restore_beside_recoveries {s₀ : StateFiles β} {id : Uuid} {nonces : ℕ → Uuid}
    (hprior : Prior s₀ id nonces) (bundlePath : PathBuf) (prepared : Except AnoleError PreparedBundle)
    (safetyBundle : Except AnoleError (StateContent β)) (recoveries : ℕ) (order : List Turn)
    (hspares : (beside s₀ bundlePath prepared id nonces safetyBundle recoveries).Spares NoJournal order)
    {result : Except AnoleError StateBundleRestoreReport}
    (hdone : ((beside s₀ bundlePath prepared id nonces safetyBundle recoveries).turns order).main = .done result) :
    Restored s₀ prepared result ((beside s₀ bundlePath prepared id nonces safetyBundle recoveries).turns order).store := by
  have hidle : ∀ i, ((beside s₀ bundlePath prepared id nonces safetyBundle recoveries).others i).Idle NoJournal := by
    intro i
    show (if i < recoveries then _ else _ : Body β Bool).Idle NoJournal
    split
    · exact recovery_idle
    · trivial
  have halone := restore_alone hprior bundlePath prepared safetyBundle
  have hsame : (restore bundlePath prepared id nonces safetyBundle).run s₀ = _ := main_outcome hidle hspares hdone
  rw [hsame] at halone
  exact halone

end Concurrent

end ApplicationState

end Anole

namespace Anole.ApplicationState.Sample

open Concurrent

/-- The restore of the sample beside one recovery. -/
def started : Beside (StateFiles ℕ) AnoleError StateBundleRestoreReport Bool :=
  beside state (PathBuf.ofString "b") (.ok bundle) 7 nonce (.ok .torn) 1

/-- The recovery runs between the swap of the settings and that of the engine registry. -/
def recoveredBetween : Beside (StateFiles ℕ) AnoleError StateBundleRestoreReport Bool :=
  started.turns (List.replicate 43 .main ++ List.replicate 20 (.other 0) ++ List.replicate 80 .main)

theorem not_restored {s : StateFiles ℕ} (h : s (.live .settings) = some (.content 2))
    (report : StateBundleRestoreReport) : ¬ Restored state (.ok bundle) (.ok report) s := by
  intro hrestored
  obtain ⟨prepared, hprepared, hcontents⟩ := hrestored.succeeded report rfl
  cases hprepared
  have hlive : s (.live .settings) = some (.content 4) := congrFun (congrArg Contents.live hcontents) .settings
  rw [h] at hlive
  exact absurd hlive (by decide)

/-- Both have succeeded, and the restored database is there with the settings from before. -/
theorem restore_mixed : (recoveredBetween.others 0).result? = some (.ok true) ∧
    ∃ report, recoveredBetween.main.result? = some (.ok report) ∧
      ¬ Restored state (.ok bundle) (.ok report) recoveredBetween.store ∧
      recoveredBetween.store .database = some (.content 3) ∧
      recoveredBetween.store (.live .settings) = some (.content 2) := by
  have hmain : recoveredBetween.main.result?.map Except.toBool = some true := by decide +kernel
  have hsettings : recoveredBetween.store (.live .settings) = some (.content 2) := by decide +kernel
  obtain ⟨result, hresult, hok⟩ := Option.map_eq_some_iff.mp hmain
  cases result with
  | error error => cases hok
  | ok report =>
    exact ⟨by decide +kernel, report, hresult, not_restored hsettings report, by decide +kernel, hsettings⟩

/-- The recovery is over when the restore saves its journal. -/
def recoveredBefore : List Turn := List.replicate 4 (.other 0) ++ List.replicate 120 .main

theorem restore_after_recovery : ∃ report, (started.turns recoveredBefore).main = .done (.ok report) ∧
    Restored state (.ok bundle) (.ok report) (started.turns recoveredBefore).store := by
  have hmain : (started.turns recoveredBefore).main.result?.map Except.toBool = some true := by decide +kernel
  have hspares : started.Spares NoJournal recoveredBefore := by decide +kernel
  obtain ⟨result, hresult, hok⟩ := Option.map_eq_some_iff.mp hmain
  cases result with
  | error error => cases hok
  | ok report =>
    have hdone := Thread.result?_eq_some.mp hresult
    unfold started at hdone hspares ⊢
    exact ⟨report, hdone, restore_beside_recoveries state_prior (PathBuf.ofString "b") (.ok bundle) (.ok .torn) 1
      recoveredBefore hspares hdone⟩

end Anole.ApplicationState.Sample
