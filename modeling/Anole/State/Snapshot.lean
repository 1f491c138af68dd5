import Anole.Common.Trace
import Anole.State.Maintenance

/-!
# The steps of a database restore

What each operation of a restore does, and exactly when it goes through: the online copy
(`onlineCopy_wp`), the integrity check (`integrityCheckPath_wp`) and the automatic snapshot
of the live database (`createAutomaticSnapshot_wp`).

A specification has the condition in both ends: it holds of a run that succeeds and fails
of one that does not.
-/

open Common Common.Proc

namespace Anole

variable {δ : Type}

/-! ## Healthy databases -/

namespace Sqlite

variable (sqlite : Sqlite δ)

/-- The content passes every check of `integrity_check_connection`. -/
def Healthy (content : δ) : Prop :=
  ∃ messages, sqlite.checkMessages content = .ok messages ∧
    (messages.all fun message => message.map Char.toLower = "ok") = true ∧
    sqlite.foreignKeyViolations content = .ok [] ∧ sqlite.applicationIssues content = .ok []

/-- What SQLite does with a healthy database: it is copied into an empty file, and a table that
    can be read is in the catalogue. -/
structure Lawful : Prop where
  transfers : ∀ content, sqlite.Healthy content → sqlite.transfer content sqlite.empty = .ok ()
  catalogue : ∀ content versions, sqlite.versions content = .ok versions →
    sqlite.migrationsTable content = .ok true

variable {sqlite} {path : DatabaseFile} {content : δ}

theorem healthy_iff : sqlite.Healthy content ↔
    ∃ report, sqlite.integrityCheckConnection path content = .ok report ∧ report.ok = true := by
  unfold Healthy integrityCheckConnection
  simp only [bind_eq_ok, mapError_eq_ok]
  constructor
  · rintro ⟨messages, hmessages, hall, hkeys, hissues⟩
    exact ⟨_, ⟨messages, hmessages, [], hkeys, [], hissues, rfl⟩, by simp [hall]⟩
  · rintro ⟨report, ⟨messages, hmessages, keys, hkeys, issues, hissues, hreport⟩, hok⟩
    cases hreport
    simp only [Bool.and_eq_true, List.isEmpty_iff] at hok
    obtain ⟨⟨hall, rfl⟩, rfl⟩ := hok
    exact ⟨messages, hmessages, hall, hkeys, hissues⟩

theorem Lawful.schemaVersion (h : sqlite.Lawful) (hc : sqlite.Healthy content) :
    ∃ version, sqlite.schemaVersion content = .ok version := by
  obtain ⟨-, -, -, -, hissues⟩ := hc
  unfold applicationIssues at hissues
  obtain ⟨versions, hversions, -⟩ := bind_eq_ok.mp hissues
  have htable := h.catalogue content versions (mapError_eq_ok.mp hversions)
  refine ⟨versions.max?.getD 0, ?_⟩
  rw [Sqlite.schemaVersion, bind_eq_ok]
  refine ⟨true, mapError_eq_ok.mpr htable, ?_⟩
  rw [if_pos rfl, bind_eq_ok]
  exact ⟨versions, hversions, rfl⟩

end Sqlite

namespace MaintenanceService

variable {sqlite : Sqlite δ} {s : DatabaseFiles δ} {path source destination : DatabaseFile}
  {content : δ} {fault : Option String} {reading : Reading}

/-! ## Reading -/

theorem openReadOnly_wp {opening : Option String} (hs : s path = some content) :
    wp (openReadOnly opening path : Body δ δ) (fun _ => True) (fun _ t => opening ≠ none ∧ t = s)
      (fun c t => opening = none ∧ c = content ∧ t = s) s := by
  rw [openReadOnly, wp_bind, wp_get, hs]
  simp only [wp_bind, wp_check, wp_pure, Option.map_eq_some_iff, Option.map_eq_none_iff]
  refine ⟨?_, fun h => ⟨h, trivial, trivial⟩⟩
  rintro e ⟨text, htext, -⟩
  exact ⟨by simp [htext], trivial⟩

theorem openReadOnly_none {opening : Option String} (hs : s path = none) :
    wp (openReadOnly opening path : Body δ δ) (fun _ => True) (fun _ t => t = s)
      (fun _ _ => False) s := by
  rw [openReadOnly, wp_bind, wp_get, hs]
  simp

theorem checkContent_wp :
    wp (checkContent sqlite reading path content : Body δ IntegrityReport) (fun _ => True)
      (fun _ t => t = s ∧ ¬(reading.check = none ∧
        ∃ report, sqlite.integrityCheckConnection path content = .ok report))
      (fun report t => t = s ∧ reading.check = none ∧
        sqlite.integrityCheckConnection path content = .ok report) s := by
  rw [checkContent, wp_bind, wp_check]
  constructor
  · intro e he
    obtain ⟨text, htext, -⟩ := Option.map_eq_some_iff.mp he
    exact ⟨rfl, by simp [htext]⟩
  · intro hnone
    rw [wp_lift]
    refine ⟨fun e he => ⟨rfl, ?_⟩, fun report hreport => ⟨rfl, by simpa using hnone, hreport⟩⟩
    rintro ⟨-, report, hreport⟩
    rw [he] at hreport
    cases hreport

/-- The database in the file is read and gives a report. -/
def Checks (sqlite : Sqlite δ) (reading : Reading) (path : DatabaseFile) (content : δ) : Prop :=
  reading.opening = none ∧ reading.check = none ∧
    ∃ report, sqlite.integrityCheckConnection path content = .ok report

theorem integrityCheckPath_wp (hs : s path = some content) :
    wp (integrityCheckPath sqlite reading path : Body δ IntegrityReport) (fun _ => True)
      (fun _ t => t = s ∧ ¬Checks sqlite reading path content)
      (fun report t => t = s ∧ Checks sqlite reading path content ∧
        sqlite.integrityCheckConnection path content = .ok report) s := by
  rw [integrityCheckPath, wp_bind]
  refine (openReadOnly_wp hs).mono (fun _ h => h) ?_ ?_
  · rintro e t ⟨hopening, rfl⟩
    exact ⟨rfl, fun h => hopening h.1⟩
  · rintro c t ⟨hopening, rfl, rfl⟩
    refine checkContent_wp.mono (fun _ h => h) ?_ ?_
    · rintro e t ⟨rfl, hfails⟩
      exact ⟨rfl, fun h => hfails h.2⟩
    · rintro report t ⟨rfl, hcheck, hreport⟩
      exact ⟨rfl, ⟨hopening, hcheck, report, hreport⟩, hreport⟩

theorem readSchemaVersion_wp :
    wp (readSchemaVersion sqlite reading content : Body δ ℤ) (fun _ => True)
      (fun _ t => t = s ∧ ¬(reading.version = none ∧
        ∃ version, sqlite.schemaVersion content = .ok version))
      (fun version t => t = s ∧ reading.version = none ∧
        sqlite.schemaVersion content = .ok version) s := by
  rw [readSchemaVersion, wp_bind, wp_check]
  constructor
  · intro e he
    obtain ⟨text, htext, -⟩ := Option.map_eq_some_iff.mp he
    exact ⟨rfl, by simp [htext]⟩
  · intro hnone
    rw [wp_lift]
    refine ⟨fun e he => ⟨rfl, ?_⟩, fun version hversion => ⟨rfl, by simpa using hnone, hversion⟩⟩
    rintro ⟨-, version, hversion⟩
    rw [he] at hversion
    cases hversion

/-! ## The online copy -/

/-- The destination of the copy is opened. -/
def Opens (w : CopyWorld δ) : Prop := w.openSource = none ∧ w.openDestination = none

/-- The copy of `content` over `before` goes through. -/
def Copies (sqlite : Sqlite δ) (w : CopyWorld δ) (mode : CopyMode) (content before : δ) : Prop :=
  Opens w ∧ w.transfer = none ∧ sqlite.transfer content before = .ok () ∧
    (mode = .portable → w.portable = none)

/-- A copy that fails has not changed a live destination, apart from creating it. -/
theorem onlineCopy_wp {w : CopyWorld δ} {mode : CopyMode} (hs : s source = some content) :
    wp (onlineCopy sqlite w source destination mode) (fun _ => True)
      (fun _ t => ¬Copies sqlite w mode content ((s destination).getD sqlite.empty) ∧
        ((¬Opens w ∧ t = s) ∨ (Opens w ∧ ∃ x, t = s.put destination x ∧
          (mode = .live → x = (s destination).getD sqlite.empty))))
      (fun _ t => Copies sqlite w mode content ((s destination).getD sqlite.empty) ∧
        t = s.put destination (w.arrives content)) s := by
  have hput (x y : δ) : (s.put destination x).put destination y = s.put destination y :=
    Function.update_idem ..
  rw [onlineCopy, wp_bind]
  refine (openReadOnly_wp hs).mono (fun _ h => h) ?_ ?_
  · rintro e t ⟨hopening, rfl⟩
    exact ⟨fun h => hopening h.1.1, .inl ⟨fun h => hopening h.1, rfl⟩⟩
  rintro c t ⟨hopening, rfl, rfl⟩
  rw [wp_bind, wp_check]
  constructor
  · intro e he
    have hne : w.openDestination ≠ none := by
      intro h
      rw [h] at he
      cases he
    exact ⟨fun h => hne h.1.2, .inl ⟨fun h => hne h.2, rfl⟩⟩
  intro hdestination
  rw [Option.map_eq_none_iff] at hdestination
  have hopens : Opens w := ⟨hopening, hdestination⟩
  simp only [wp_bind, wp_get, wp_op, wp_check, wp_lift, wp_ite, wp_pure, true_and, hput]
  refine ⟨?_, fun htransfer => ⟨?_, ?_⟩⟩
  · intro e he
    refine ⟨?_, .inr ⟨hopens, _, rfl, fun _ => rfl⟩⟩
    rintro ⟨-, h, -⟩
    rw [h] at he
    cases he
  · intro e he
    refine ⟨?_, .inr ⟨hopens, _, rfl, fun _ => rfl⟩⟩
    rintro ⟨-, -, h, -⟩
    rw [h] at he
    cases he
  · rintro ⟨⟩ hgoes
    rw [mapError_eq_ok] at hgoes
    rw [Option.map_eq_none_iff] at htransfer
    constructor
    · rintro rfl
      constructor
      · intro e he
        refine ⟨?_, .inr ⟨hopens, _, rfl, fun h => by cases h⟩⟩
        rintro ⟨-, -, -, h⟩
        rw [h rfl] at he
        cases he
      · intro hportable
        rw [Option.map_eq_none_iff] at hportable
        exact ⟨⟨hopens, htransfer, hgoes, fun _ => hportable⟩, trivial⟩
    · intro hmode
      exact ⟨⟨hopens, htransfer, hgoes, fun h => absurd h hmode⟩, trivial⟩

/-! ## Removal -/

theorem removeIfExists_wp :
    wp (removeIfExists fault path) (fun _ => True)
      (fun _ t => (s path ≠ none ∧ fault ≠ none) ∧ t = s)
      (fun _ t => (s path ≠ none → fault = none) ∧ t = s.remove path) s := by
  rw [removeIfExists, wp_bind, wp_get]
  by_cases hthere : s path = none
  · rw [if_neg (by simpa using hthere), wp_pure, Files.remove_eq_self hthere]
    exact ⟨fun h => absurd hthere h, rfl⟩
  · rw [if_pos hthere, wp_tryOp]
    constructor
    · intro e he
      refine ⟨⟨hthere, ?_⟩, rfl⟩
      intro h
      rw [h] at he
      cases he
    · intro hnone
      exact ⟨trivial, fun _ => Option.map_eq_none_iff.mp hnone, rfl⟩

theorem cleanup_wp {Q : DatabaseFiles δ → Prop}
    (hkept : s path ≠ none → fault ≠ none → Q s)
    (hgone : (s path ≠ none → fault = none) → Q (s.remove path)) :
    wp (removeDatabaseFiles fault path) (fun _ => True) (fun _ => Q) (fun _ => Q) s := by
  refine removeIfExists_wp.mono (fun _ h => h) ?_ ?_
  · rintro e t ⟨⟨hthere, hfault⟩, rfl⟩
    exact hkept hthere hfault
  · rintro - t ⟨hfault, rfl⟩
    exact hgone hfault

/-! ## The automatic snapshot -/

/-- The files other than those in `backups` and their temporary siblings. -/
def Outside (database : DatabaseFile) (file : DatabaseFile) : Prop :=
  (∀ name, file ≠ .backups database name) ∧
    ∀ name label nonce, file ≠ .temporary (.backups database name) label nonce

variable {database preserve : DatabaseFile} {w : SnapshotWorld δ}

/-- The names that the loop of `prune_automatic_snapshots` removes. -/
def superfluous (database preserve : DatabaseFile) (otherLimit keptOthers : ℕ) :
    List SnapshotEntry → List String
  | [] => []
  | entry :: rest =>
    if DatabaseFile.backups database entry.name = preserve then
      superfluous database preserve otherLimit keptOthers rest
    else if keptOthers < otherLimit then
      superfluous database preserve otherLimit (keptOthers + 1) rest
    else entry.name :: superfluous database preserve otherLimit keptOthers rest

/-- The snapshot that is kept is not among them. -/
theorem backups_ne_of_mem_superfluous {name : String} {otherLimit keptOthers : ℕ}
    {entries : List SnapshotEntry}
    (h : name ∈ superfluous database preserve otherLimit keptOthers entries) :
    DatabaseFile.backups database name ≠ preserve := by
  induction entries generalizing keptOthers with
  | nil => simp [superfluous] at h
  | cons entry rest ih =>
    rw [superfluous] at h
    split_ifs at h with hsame hroom
    · exact ih h
    · exact ih h
    · rcases List.mem_cons.mp h with rfl | h
      · exact hsame
      · exact ih h

/-- The files to be removed can be. -/
def Prunes (removeOld : String → Option String) (database : DatabaseFile) (names : List String)
    (s : DatabaseFiles δ) : Prop :=
  ∀ name ∈ names, s (.backups database name) ≠ none → removeOld name = none

/-- What pruning leaves: the preserved file and everything outside of `backups`. -/
def Pruned (database preserve : DatabaseFile) (s t : DatabaseFiles δ) : Prop :=
  t preserve = s preserve ∧ ∀ file, (∀ name, file ≠ .backups database name) → t file = s file

theorem pruneLoop_wp {removeOld : String → Option String} {otherLimit keptOthers : ℕ}
    {entries : List SnapshotEntry} :
    wp (pruneLoop removeOld database preserve otherLimit keptOthers entries) (fun _ => True)
      (fun _ t => ¬Prunes removeOld database
        (superfluous database preserve otherLimit keptOthers entries) s ∧
          Pruned database preserve s t)
      (fun _ t => Prunes removeOld database
        (superfluous database preserve otherLimit keptOthers entries) s ∧
          Pruned database preserve s t) s := by
  induction entries generalizing s keptOthers with
  | nil =>
    rw [pruneLoop, wp_pure]
    exact ⟨by simp [Prunes, superfluous], rfl, fun _ _ => rfl⟩
  | cons entry rest ih =>
    rw [pruneLoop, superfluous]
    split_ifs with hsame hroom
    · exact ih
    · exact ih
    rw [wp_bind]
    refine removeIfExists_wp.mono (fun _ h => h) ?_ ?_
    · rintro e t ⟨⟨hthere, hfault⟩, rfl⟩
      exact ⟨fun h => hfault (h _ (List.mem_cons_self ..) hthere), rfl, fun _ _ => rfl⟩
    rintro - t ⟨hfault, rfl⟩
    -- a name that occurs twice is removed once
    have hiff : Prunes removeOld database
        (superfluous database preserve otherLimit keptOthers rest)
          (s.remove (.backups database entry.name)) ↔
        Prunes removeOld database
          (entry.name :: superfluous database preserve otherLimit keptOthers rest) s := by
      constructor
      · intro h name hmem hthere
        rcases List.mem_cons.mp hmem with rfl | hmem
        · exact hfault hthere
        · by_cases hname : name = entry.name
          · rw [hname] at hthere ⊢
            exact hfault hthere
          · exact h name hmem (by rwa [Files.remove_of_ne (by simpa using hname)])
      · intro h name hmem hthere
        have hname : name ≠ entry.name := by
          rintro rfl
          exact hthere Files.remove_self
        rw [Files.remove_of_ne (by simpa using hname)] at hthere
        exact h name (List.mem_cons_of_mem _ hmem) hthere
    have hpruned (t : DatabaseFiles δ)
        (h : Pruned database preserve (s.remove (.backups database entry.name)) t) :
        Pruned database preserve s t := by
      refine ⟨h.1.trans (Files.remove_of_ne (Ne.symm hsame)), fun file hfile => ?_⟩
      exact (h.2 file hfile).trans (Files.remove_of_ne (hfile _))
    refine ih.mono (fun _ h => h) ?_ ?_
    · rintro e u ⟨hnot, hu⟩
      exact ⟨fun h => hnot (hiff.mpr h), hpruned u hu⟩
    · rintro - u ⟨hprunes, hu⟩
      exact ⟨hiff.mp hprunes, hpruned u hu⟩

/-- The copy of `content` to the snapshot is made and found good. -/
structure Writes (sqlite : Sqlite δ) (w : SnapshotWorld δ) (content : δ) : Prop where
  copy : Copies sqlite w.copy .portable content sqlite.empty
  opening : w.check.opening = none
  check : w.check.check = none
  healthy : sqlite.Healthy (w.copy.arrives content)
  sync : w.sync = none
  commit : w.commit = none
  reopen : w.reopen.opening = none
  version : w.reopen.version = none
  readable : ∃ version, sqlite.schemaVersion (w.copy.arrives content) = .ok version
  metadata : w.metadata = none
  hash : w.hash = none

/-- Only the two files have changed. -/
def OnlyIn (a b : DatabaseFile) (s t : DatabaseFiles δ) : Prop :=
  ∀ file, file ≠ a → file ≠ b → t file = s file

theorem OnlyIn.trans {a b : DatabaseFile} {t u : DatabaseFiles δ} (h : OnlyIn a b s t)
    (h' : OnlyIn a b t u) : OnlyIn a b s u :=
  fun file ha hb => (h' file ha hb).trans (h file ha hb)

theorem OnlyIn.put {a b : DatabaseFile} {x : δ} : OnlyIn a b s (s.put b x) :=
  fun _ _ hb => Files.put_of_ne hb

theorem check_wp {f : String → AnoleError} :
    wp (check (fault.map f) : Body δ Unit) (fun _ => True) (fun _ t => fault ≠ none ∧ t = s)
      (fun _ t => fault = none ∧ t = s) s := by
  rw [wp_check]
  cases fault with
  | none => simp
  | some text => simp

theorem writeBackup_wp {partialFile : DatabaseFile}
    (hs : s source = some content) (hfree : s partialFile = none)
    (hne : partialFile ≠ destination) :
    wp (writeBackup sqlite w source destination partialFile false) (fun _ => True)
      (fun _ t => ¬Writes sqlite w content ∧ OnlyIn destination partialFile s t)
      (fun report t => Writes sqlite w content ∧ OnlyIn destination partialFile s t ∧
        report.backupPath = destination ∧ t destination = some (w.copy.arrives content)) s := by
  rw [writeBackup, wp_bind]
  refine (onlineCopy_wp hs).mono (fun _ h => h) ?_ ?_
  · rintro e t ⟨hnot, hleft⟩
    rw [hfree] at hnot
    refine ⟨fun h => hnot h.copy, ?_⟩
    rcases hleft with ⟨-, rfl⟩ | ⟨-, x, rfl, -⟩
    · exact fun _ _ _ => rfl
    · exact OnlyIn.put
  rintro - t ⟨hcopy, rfl⟩
  rw [hfree] at hcopy
  have honly : OnlyIn destination partialFile s (s.put partialFile (w.copy.arrives content)) :=
    OnlyIn.put
  rw [wp_bind]
  refine (integrityCheckPath_wp Files.put_self).mono (fun _ h => h) ?_ ?_
  · rintro e t ⟨rfl, hnot⟩
    refine ⟨fun h => hnot ⟨h.opening, h.check, ?_⟩, honly⟩
    obtain ⟨report, hreport, -⟩ := Sqlite.healthy_iff.mp h.healthy
    exact ⟨report, hreport⟩
  rintro report t ⟨rfl, ⟨hopening, hcheck, -⟩, hreport⟩
  rw [wp_bind, wp_ite]
  constructor
  · intro hnot
    rw [wp_fail]
    refine ⟨fun h => hnot ?_, honly⟩
    obtain ⟨report', hreport', hok⟩ := Sqlite.healthy_iff.mp h.healthy
    rw [hreport] at hreport'
    cases hreport'
    exact hok
  intro hok
  have hhealthy : sqlite.Healthy (w.copy.arrives content) :=
    Sqlite.healthy_iff.mpr ⟨report, hreport, by simpa using hok⟩
  rw [wp_pure, wp_bind]
  refine check_wp.mono (fun _ h => h) ?_ ?_
  · rintro e t ⟨hsync, rfl⟩
    exact ⟨fun h => hsync h.sync, honly⟩
  rintro - t ⟨hsync, rfl⟩
  simp only [Bool.false_eq_true, if_false]
  rw [wp_bind, wp_pure, wp_bind, wp_tryOp]
  constructor
  · intro e he
    refine ⟨fun h => ?_, honly⟩
    rw [h.commit] at he
    cases he
  intro hcommit
  rw [Option.map_eq_none_iff] at hcommit
  refine ⟨trivial, ?_⟩
  have hthere : ((s.put partialFile (w.copy.arrives content)).rename partialFile destination)
      destination = some (w.copy.arrives content) := by
    rw [Files.rename_target hne, Files.put_self]
  have hmoved : OnlyIn destination partialFile s
      ((s.put partialFile (w.copy.arrives content)).rename partialFile destination) :=
    honly.trans fun file hd hp => Files.rename_of_ne hp hd
  rw [wp_bind]
  refine (openReadOnly_wp hthere).mono (fun _ h => h) ?_ ?_
  · rintro e t ⟨hreopen, rfl⟩
    exact ⟨fun h => hreopen h.reopen, hmoved⟩
  rintro c t ⟨hreopen, rfl, rfl⟩
  rw [wp_bind]
  refine readSchemaVersion_wp.mono (fun _ h => h) ?_ ?_
  · rintro e t ⟨rfl, hnot⟩
    exact ⟨fun h => hnot ⟨h.version, h.readable⟩, hmoved⟩
  rintro version t ⟨rfl, hversion, hread⟩
  rw [wp_bind]
  refine check_wp.mono (fun _ h => h) ?_ ?_
  · rintro e t ⟨hmetadata, rfl⟩
    exact ⟨fun h => hmetadata h.metadata, hmoved⟩
  rintro - t ⟨hmetadata, rfl⟩
  rw [wp_bind]
  refine check_wp.mono (fun _ h => h) ?_ ?_
  · rintro e t ⟨hhash, rfl⟩
    exact ⟨fun h => hhash h.hash, hmoved⟩
  rintro - t ⟨hhash, rfl⟩
  rw [wp_pure]
  exact ⟨⟨hcopy, hopening, hcheck, hhealthy, hsync, hcommit, hreopen, hversion, ⟨version, hread⟩,
    hmetadata, hhash⟩, hmoved, rfl, hthere⟩

theorem ensureDistinctPaths_wp {resolve : Option String} :
    wp (ensureDistinctPaths resolve source destination : Body δ Unit) (fun _ => True)
      (fun _ t => ¬(resolve = none ∧ source ≠ destination) ∧ t = s)
      (fun _ t => (resolve = none ∧ source ≠ destination) ∧ t = s) s := by
  rw [ensureDistinctPaths, wp_bind]
  refine check_wp.mono (fun _ h => h) ?_ ?_
  · rintro e t ⟨hresolve, rfl⟩
    exact ⟨fun h => hresolve h.1, rfl⟩
  rintro - t ⟨hresolve, rfl⟩
  rw [wp_ite, wp_fail, wp_pure]
  exact ⟨fun h => ⟨fun h' => h'.2 h, rfl⟩, fun h => ⟨⟨hresolve, h⟩, rfl⟩⟩

/-- The backup of a database to a new path is made. -/
structure Backs (sqlite : Sqlite δ) (w : SnapshotWorld δ) (content : δ) : Prop where
  resolve : w.resolve = none
  createParent : w.createParent = none
  writes : Writes sqlite w content

theorem backupDatabase_wp (hs : s source = some content)
    (hsource : source ≠ destination) (hfree : s destination = none)
    (hpart : s (.temporary destination "backup-partial" w.partialNonce) = none)
    (hne : DatabaseFile.temporary destination "backup-partial" w.partialNonce ≠ destination) :
    wp (backupDatabase sqlite w source destination false) (fun _ => True)
      (fun _ t => ¬Backs sqlite w content ∧ OnlyIn destination
        (.temporary destination "backup-partial" w.partialNonce) s t)
      (fun report t => Backs sqlite w content ∧
        OnlyIn destination (.temporary destination "backup-partial" w.partialNonce) s t ∧
        report.backupPath = destination ∧ t destination = some (w.copy.arrives content)) s := by
  rw [backupDatabase, wp_bind, wp_get, wp_bind, if_neg (by simp [hs]), wp_pure, wp_bind]
  refine ensureDistinctPaths_wp.mono (fun _ h => h) ?_ ?_
  · rintro e t ⟨hnot, rfl⟩
    exact ⟨fun h => hnot ⟨h.resolve, hsource⟩, fun _ _ _ => rfl⟩
  rintro - t ⟨⟨hresolve, -⟩, rfl⟩
  rw [wp_bind, wp_get, wp_bind, if_neg (by simp [hfree]), wp_pure, wp_bind, createDirAll]
  refine check_wp.mono (fun _ h => h) ?_ ?_
  · rintro e t ⟨hcreate, rfl⟩
    exact ⟨fun h => hcreate h.createParent, fun _ _ _ => rfl⟩
  rintro - t ⟨hcreate, rfl⟩
  rw [wp_orCleanup]
  refine (writeBackup_wp hs hpart hne).mono (fun _ h => h) ?_ ?_
  · rintro e u ⟨hnot, honly⟩
    refine cleanup_wp (fun _ _ => ⟨fun h => hnot h.writes, honly⟩)
      (fun _ => ⟨fun h => hnot h.writes, honly.trans fun file _ hp => Files.remove_of_ne hp⟩)
  · rintro report u ⟨hwrites, honly, hpath, hthere⟩
    exact ⟨⟨hresolve, hcreate, hwrites⟩, honly, hpath, hthere⟩

/-- A snapshot of the content is taken and the old ones are pruned. -/
structure Snaps (sqlite : Sqlite δ) (w : SnapshotWorld δ) (database : DatabaseFile)
    (reason : String) (content : δ) (s : DatabaseFiles δ) : Prop where
  createBackups : w.createBackups = none
  backs : Backs sqlite w content
  prunes : ∃ entries, w.listing = .ok entries ∧
    Prunes w.removeOld database
      (superfluous database (snapshotPath database reason w.nonce)
        (defaultSnapshotRetention - 1) 0 (snapshotsOf database.name entries)) s

/-- The files of the new snapshot are not there yet. -/
structure FreshSnapshot (w : SnapshotWorld δ) (database : DatabaseFile) (reason : String)
    (s : DatabaseFiles δ) : Prop where
  destination : s (snapshotPath database reason w.nonce) = none
  partialFile :
    s (.temporary (snapshotPath database reason w.nonce) "backup-partial" w.partialNonce) = none

theorem ne_backups {name : String} : database ≠ .backups database name := by
  intro h
  have hsize := congrArg sizeOf h
  simp only [DatabaseFile.backups.sizeOf_spec] at hsize
  omega

theorem temporary_ne {label : String} {nonce : Uuid} :
    DatabaseFile.temporary path label nonce ≠ path := by
  intro h
  have hsize := congrArg sizeOf h
  simp only [DatabaseFile.temporary.sizeOf_spec] at hsize
  omega

theorem createAutomaticSnapshot_wp {reason : String}
    (hs : s database = some content) (hfresh : FreshSnapshot w database reason s) :
    wp (createAutomaticSnapshot sqlite w database reason) (fun _ => True)
      (fun _ t => ¬Snaps sqlite w database reason content s ∧
        ∀ file, Outside database file → t file = s file)
      (fun report t => Snaps sqlite w database reason content s ∧
        (∀ file, Outside database file → t file = s file) ∧
        report.backupPath = snapshotPath database reason w.nonce ∧
        t (snapshotPath database reason w.nonce) = some (w.copy.arrives content)) s := by
  rw [createAutomaticSnapshot, wp_bind, createDirAll]
  refine check_wp.mono (fun _ h => h) ?_ ?_
  · rintro e t ⟨hcreate, rfl⟩
    exact ⟨fun h => hcreate h.createBackups, fun _ _ => rfl⟩
  rintro - t ⟨hcreate, rfl⟩
  rw [wp_bind]
  refine (backupDatabase_wp hs ne_backups hfresh.destination hfresh.partialFile
    temporary_ne).mono (fun _ h => h) ?_ ?_
  · rintro e u ⟨hnot, honly⟩
    exact ⟨fun h => hnot h.backs, fun file hfile => honly file (hfile.1 _) (hfile.2 _ _ _)⟩
  rintro report u ⟨hbacks, honly, hpath, hthere⟩
  have hout (file : DatabaseFile) (hfile : Outside database file) : u file = t file :=
    honly file (hfile.1 _) (hfile.2 _ _ _)
  have hprunes (entries : List SnapshotEntry) : Prunes w.removeOld database
      (superfluous database (snapshotPath database reason w.nonce)
        (defaultSnapshotRetention - 1) 0 (snapshotsOf database.name entries)) u ↔
      Prunes w.removeOld database
      (superfluous database (snapshotPath database reason w.nonce)
        (defaultSnapshotRetention - 1) 0 (snapshotsOf database.name entries)) t := by
    refine forall₂_congr fun name hname => ?_
    rw [honly _ (backups_ne_of_mem_superfluous hname) (by simp)]
  rw [wp_bind, pruneAutomaticSnapshots, wp_bind, wp_lift]
  constructor
  · intro e he
    refine ⟨?_, hout⟩
    rintro ⟨-, -, entries, hentries, -⟩
    rw [hentries] at he
    cases he
  intro entries hentries
  rw [mapError_eq_ok] at hentries
  refine pruneLoop_wp.mono (fun _ h => h) ?_ ?_
  · rintro e v ⟨hnot, -, hv⟩
    refine ⟨?_, fun file hfile => (hv file hfile.1).trans (hout file hfile)⟩
    rintro ⟨-, -, entries', hentries', h⟩
    rw [hentries] at hentries'
    cases hentries'
    exact hnot ((hprunes entries).mpr h)
  · rintro - v ⟨hgoes, hkept, hv⟩
    rw [wp_pure]
    exact ⟨⟨hcreate, hbacks, entries, hentries, (hprunes entries).mp hgoes⟩,
      fun file hfile => (hv file hfile.1).trans (hout file hfile), hpath, hkept.trans hthere⟩

end MaintenanceService

end Anole
