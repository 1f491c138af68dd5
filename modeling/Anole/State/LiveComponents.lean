import Mathlib
import Anole.State.BundleChecks

/-!
# The components of a live state

What the services write (`Activated`, `SavedReport`), how each component that they wrote
fares under the checks of a backup, and the entries that a backup stages
(`mem_stagedEntries`, `countP_stagedEntries`, `nodup_stagedEntries`).
-/

open Common Common.Proc

namespace Anole

namespace ApplicationState

variable {δ ζ : Type} {tools : BundleTools δ ζ}

/-- The documented behaviour of the formats. -/
structure BundleTools.Lawful (tools : BundleTools δ ζ) : Prop where
  sqlite : tools.sqlite.Lawful
  identity : ∀ identity content, tools.identityToVecPretty identity = .ok content →
    tools.identityFromSlice content = .ok identity
  report : tools.report.Lossless
  manifest : ∀ manifest, tools.manifestFromSlice (.manifest manifest) = .ok manifest
  uuid : ∀ id : Uuid, tools.parseUuid id.toText = some id
  sha256 : ∀ content, IsDigest (tools.sha256 content)
  zip : ∀ entries bundle, tools.zipWrite entries = .ok bundle → tools.zipRead bundle = .ok entries

/-! ## What the services write -/

/-- `valid_engine_id` (`engine-sdk/src/lib.rs`, lines 745–754), which every verified pack has
    passed. -/
def validEngineId (value : String) : Bool :=
  let lower (c : Char) : Bool := c.isLower || c.isDigit
  2 ≤ value.utf8ByteSize && value.toList.head?.any lower &&
    value.toList.all fun c => lower c || c = '.' || c = '_' || c = '-'

/-- The content of the pointer of an engine, written by `EngineRegistry::set_active`
    (`engine_registry.rs`, lines 87–145). -/
def Activated (tools : BundleTools δ ζ) (engineId : String) (content : Bytes) : Prop :=
  validEngineId engineId = true ∧ content.length ≤ maxRegistryEntryBytes ∧
    ∃ manifestPath, manifestPath ≠ [] ∧
      tools.identityToVecPretty ⟨some engineId, manifestPath⟩ = .ok content

/-- The content of a report file, written by `ReportService::save`. -/
def SavedReport (tools : BundleTools δ ζ) (stem : String) (content : Bytes) : Prop :=
  content.length ≤ maxReportBytes ∧ ∃ report : ValidationReport, stem = report.jobId.toText ∧
    tools.report.toVecPretty report = .ok content

theorem goodStem_of_validEngineId {value : String} (h : validEngineId value = true) :
    GoodStem value := by
  unfold validEngineId at h
  simp only [Bool.and_eq_true, decide_eq_true_eq] at h
  obtain ⟨⟨hlength, hhead⟩, hall⟩ := h
  refine ⟨?_, ?_, ?_⟩
  · rintro rfl
    exact absurd hlength (by decide)
  · intro hdot
    rw [hdot] at hhead
    exact absurd hhead (by decide)
  · rw [List.all_eq_true] at hall ⊢
    intro c hc
    have hchar := hall c hc
    simp only [Bool.or_eq_true, decide_eq_true_eq] at hchar
    simp only [isPortableChar, Char.isAlphanum, Char.isAlpha, Bool.or_eq_true, decide_eq_true_eq]
    tauto

theorem Uuid.length_toText (id : Uuid) : id.toText.toList.length = 36 := by
  have hdigits : ∀ width n, (hexDigits width n).length = width := by
    intro width
    induction width with
    | zero => intro n; rfl
    | succ width ih => intro n; rw [hexDigits, List.length_append, ih, List.length_singleton]
  rw [Uuid.toText, String.toList_ofList]
  simp [hdigits]

theorem utf8ByteSize_ascii {cs : List Char} (h : ∀ c ∈ cs, c.utf8Size = 1) :
    (String.ofList cs).utf8ByteSize = cs.length := by
  induction cs with
  | nil => rfl
  | cons c cs ih =>
    have hcons : String.ofList (c :: cs) = String.singleton c ++ String.ofList cs := by
      rw [← String.toList_inj, String.toList_append]
      simp
    rw [hcons, String.utf8ByteSize_append, String.utf8ByteSize_singleton,
      h c (List.mem_cons_self ..), ih fun d hd => h d (List.mem_cons_of_mem _ hd), List.length_cons,
      Nat.add_comm]

theorem Uuid.mem_toText_spec {id : Uuid} {c : Char} (h : c ∈ id.toText.toList) :
    isPortableChar c = true ∧ c ≠ '.' ∧ c.utf8Size = 1 := by
  have hdigit : ∀ d : Fin 16, isPortableChar (Nat.digitChar d) = true ∧
      Nat.digitChar d ≠ '.' ∧ (Nat.digitChar d).utf8Size = 1 := by decide
  rcases Uuid.mem_toText h with rfl | ⟨d, rfl⟩
  · decide
  · exact hdigit d

/-- The name of a report is that of a portable file. -/
theorem Uuid.goodStem (id : Uuid) : GoodStem id.toText := by
  have hlength := Uuid.length_toText id
  refine ⟨?_, ?_, List.all_eq_true.mpr fun c hc => (Uuid.mem_toText_spec hc).1⟩
  · intro hempty
    rw [hempty] at hlength
    exact absurd hlength (by decide)
  · intro hdot
    exact (Uuid.mem_toText_spec (List.mem_of_head? hdot)).2.1 rfl

theorem Uuid.portableStem (id : Uuid) : PortableStem id.toText := by
  have hlength := Uuid.length_toText id
  have hbase : id.toText.toList.takeWhile (· ≠ '.') = id.toText.toList :=
    List.takeWhile_eq_self_iff.mpr fun c hc => decide_eq_true (Uuid.mem_toText_spec hc).2.1
  refine ⟨?_, ?_, ?_⟩
  · have hsize := utf8ByteSize_ascii fun c hc => (@Uuid.mem_toText_spec id c hc).2.2
    rw [String.ofList_toList, hlength] at hsize
    omega
  · intro hdot
    exact (Uuid.mem_toText_spec (List.mem_of_getLast? hdot)).2.1 rfl
  · unfold isWindowsReservedStem
    rw [hbase]
    have hupper : (id.toText.toList.map Char.toUpper).length = 36 := by rw [List.length_map, hlength]
    generalize id.toText.toList.map Char.toUpper = base at hupper
    have hdrop : (base.drop 3).length = 33 := by rw [List.length_drop, hupper]
    have hnumbered (start : List Char) (hstart : start.length = 3) (digit : Char) :
        base.drop start.length ≠ [digit] := by
      rw [hstart]
      intro hdigit
      rw [hdigit] at hdrop
      cases hdrop
    have hnames : base ∉ ["CON".toList, "PRN".toList, "AUX".toList, "NUL".toList] := by
      intro hmem
      have hshort : ∀ name ∈ ["CON".toList, "PRN".toList, "AUX".toList, "NUL".toList],
          name.length = 3 := by decide
      rw [hshort base hmem] at hupper
      omega
    simp only [hnames, decide_false, Bool.false_or, Bool.or_eq_false_iff]
    constructor <;> split
    · exact absurd ‹_› (hnumbered _ (by decide) _)
    · rfl
    · exact absurd ‹_› (hnumbered _ (by decide) _)
    · rfl

/-! ## The components -/

variable {stem : String} {content : Bytes}

theorem Activated.good (h : Activated tools stem content) : GoodStem stem :=
  goodStem_of_validEngineId h.1

theorem SavedReport.good (h : SavedReport tools stem content) : GoodStem stem := by
  obtain ⟨-, report, rfl, -⟩ := h
  exact Uuid.goodStem _

theorem SavedReport.portable (h : SavedReport tools stem content) : PortableStem stem := by
  obtain ⟨-, report, rfl, -⟩ := h
  exact Uuid.portableStem _

theorem readBounded_eq_ok {limit : ℕ} {out : Bytes} :
    readBounded limit content = .ok out ↔ content.length ≤ limit ∧ out = content := by
  rw [readBounded, bind_eq_ok]
  simp only [rejectIf_eq_ok, exists_const, not_lt]
  exact and_congr_right fun _ => ⟨fun h => by cases h; rfl, fun h => by rw [h]; rfl⟩

/-- Settings that `read` accepts pass the check of a backup exactly if they are of schema 2. -/
theorem validateSettingsFile_eq_ok {settings : Option ApplicationSettings} {u : Unit}
    (h : readSettings tools (some content) = .ok settings) :
    validateSettingsFile tools content = .ok u ↔
      ∀ stored, tools.settingsFromSlice content = .ok stored →
        stored.schemaVersion = applicationSettingsSchemaVersion := by
  simp only [readSettings, bind_eq_ok, readBounded_eq_ok, mapError_eq_ok] at h
  obtain ⟨_, ⟨hlimit, rfl⟩, stored, hstored, _, hvalid, -⟩ := h
  rw [validateSettingsFile]
  simp only [bind_eq_ok, readBounded_eq_ok, mapError_eq_ok]
  constructor
  · rintro ⟨_, ⟨-, rfl⟩, stored', hstored', hvalid'⟩ other hother
    rw [hstored'] at hother
    cases hother
    rw [ApplicationSettings.validate, bind_eq_ok] at hvalid'
    obtain ⟨_, hversion, -⟩ := hvalid'
    rw [rejectIf_eq_ok, not_not] at hversion
    exact hversion
  · intro hversion
    refine ⟨_, ⟨hlimit, rfl⟩, stored, hstored, ?_⟩
    rwa [if_neg (by rw [hversion stored hstored]; decide)] at hvalid

/-- The check of a pointer that was activated. -/
theorem validateIdentity_eq_ok (hlaw : BundleTools.Lawful tools) (h : Activated tools stem content)
    {message : String} {u : Unit} :
    validateIdentity tools message content = .ok u ↔ stem.utf8ByteSize ≤ 128 := by
  obtain ⟨hid, hlimit, manifestPath, hpath, hcontent⟩ := h
  rw [validateIdentity]
  simp only [bind_eq_ok, readBounded_eq_ok, mapError_eq_ok]
  have hvalid : EngineRegistryIdentity.validate ⟨some stem, manifestPath⟩ = .ok u ↔
      stem.utf8ByteSize ≤ 128 := by
    have hgood := goodStem_of_validEngineId hid
    rw [EngineRegistryIdentity.validate]
    simp only [bind_eq_ok, rejectIf_eq_ok, hpath, not_false_eq_true, exists_const, true_and]
    rw [not_or, not_or, not_lt, not_not]
    exact ⟨fun h => h.2.1, fun h => ⟨hgood.nonempty, h, hgood.portable⟩⟩
  constructor
  · rintro ⟨_, ⟨-, rfl⟩, identity, hidentity, hok⟩
    rw [hlaw.identity _ _ hcontent] at hidentity
    cases hidentity
    exact hvalid.mp hok
  · intro hshort
    exact ⟨content, ⟨hlimit, rfl⟩, _, hlaw.identity _ _ hcontent, hvalid.mpr hshort⟩

theorem validateReport_saved (hlaw : BundleTools.Lawful tools) (h : SavedReport tools stem content)
    (messages : ReportMessages) :
    validateReport tools messages (stem ++ ".json") content = .ok () := by
  obtain ⟨hlimit, report, rfl, hcontent⟩ := h
  have hstem : stripSuffix ".json" (report.jobId.toText ++ ".json") = some report.jobId.toText :=
    stripSuffix_eq_some.mpr rfl
  have hread := hlaw.report _ _ hcontent
  rw [validateReport, hstem, Option.bind_some, hlaw.uuid]
  simp only [bind_eq_ok, readBounded_eq_ok, mapError_eq_ok, rejectIf_eq_ok]
  exact ⟨content, ⟨hlimit, rfl⟩, report, hread, not_not.mpr rfl⟩

/-! ## The database -/

/-- The database copy of a healthy database is its content. -/
theorem backupPortable_eq_ok (hlaw : BundleTools.Lawful tools) {database : δ}
    (h : tools.sqlite.Healthy database) : backupPortable tools database = .ok database := by
  let files : DatabaseFiles δ := fun file => if file = liveDatabase then some database else none
  have hsnaps : MaintenanceService.Snaps tools.sqlite (MaintenanceService.calmSnapshot 0 0)
      liveDatabase "" database files := MaintenanceService.calmSnapshot_calm.snaps hlaw.sqlite h
  have hrun : wp (MaintenanceService.backupDatabase tools.sqlite
      (MaintenanceService.calmSnapshot 0 0) liveDatabase portableDatabase false) (fun _ => True)
      (fun _ _ => False) (fun _ t => t portableDatabase = some database) files := by
    refine (MaintenanceService.backupDatabase_wp (if_pos rfl) (by decide) rfl rfl
      MaintenanceService.temporary_ne).mono (fun _ h => h) (fun _ _ h => h.1 hsnaps.backs) ?_
    rintro report t ⟨-, -, -, ht⟩
    exact ht
  obtain ⟨report, t, hsucceeds, ht⟩ := hrun.succeeds
  rw [backupPortable]
  simp only [files] at hsucceeds
  simp only [hsucceeds.1, hsucceeds.2, ht]

theorem preflightDatabase_eq_ok (hlaw : BundleTools.Lawful tools) {database : δ}
    (h : MaintenanceService.Restorable tools.sqlite database) :
    ∃ report, preflightDatabase tools database = .ok report := by
  let files : DatabaseFiles δ := fun file => if file = stagedDatabase then some database else none
  have hs : files stagedDatabase = some database := if_pos rfl
  have hcalm : MaintenanceService.RestoreWorld.Calm
      (MaintenanceService.calmRestore 0 0 0 : RestoreWorld δ) := MaintenanceService.calmRestore_calm
  obtain ⟨report, t, hsucceeds⟩ :=
    h.preflight hlaw.sqlite hcalm (show stagedDatabase ≠ liveDatabase by decide) rfl rfl hs
  exact ⟨report, hsucceeds.1⟩

/-! ## The staged entries -/

/-- The staged entries of a state whose directories are recovered to `R` and `P`. -/
def stagedEntries (state : LiveState δ) (R P : JsonDirectory) : List (StagedEntry δ) :=
  sortStaged (⟨databaseEntry, .database, .database state.database, maxDatabaseBytes⟩ ::
    (state.presets.map fun content =>
      ⟨presetsEntry, .presets, .bytes content, maxPresetsBytes⟩).toList ++
    (state.settings.map fun content =>
      ⟨settingsEntry, .settings, .bytes content, maxSettingsBytes⟩).toList ++
    sortStaged ((visibleFiles R).map
      (stageFile engineRegistryPrefix .engineRegistry maxRegistryEntryBytes)) ++
    sortStaged ((visibleFiles P).map (stageFile reportsPrefix .reports maxReportBytes)))

/-- One of them. -/
inductive Staged (state : LiveState δ) (R P : JsonDirectory) : StagedEntry δ → Prop where
  | database :
    Staged state R P ⟨databaseEntry, .database, .database state.database, maxDatabaseBytes⟩
  | presets {content : Bytes} (h : state.presets = some content) :
    Staged state R P ⟨presetsEntry, .presets, .bytes content, maxPresetsBytes⟩
  | settings {content : Bytes} (h : state.settings = some content) :
    Staged state R P ⟨settingsEntry, .settings, .bytes content, maxSettingsBytes⟩
  | registry {entry : String × Bytes} (h : entry ∈ visibleFiles R) :
    Staged state R P (stageFile engineRegistryPrefix .engineRegistry maxRegistryEntryBytes entry)
  | report {entry : String × Bytes} (h : entry ∈ visibleFiles P) :
    Staged state R P (stageFile reportsPrefix .reports maxReportBytes entry)

variable {state : LiveState δ} {R P : JsonDirectory} {staged : StagedEntry δ}

theorem mem_stagedEntries : staged ∈ stagedEntries state R P ↔ Staged state R P staged := by
  unfold stagedEntries sortStaged
  simp only [List.mem_mergeSort, List.cons_append, List.mem_cons, List.mem_append,
    Option.mem_toList, Option.map_eq_some_iff, List.mem_map]
  constructor
  · rintro (rfl | ((⟨content, h, rfl⟩ | ⟨content, h, rfl⟩) | ⟨entry, h, rfl⟩) | ⟨entry, h, rfl⟩)
    · exact .database
    · exact .presets h
    · exact .settings h
    · exact .registry h
    · exact .report h
  · rintro (_ | h | h | h | h)
    · exact .inl rfl
    · exact .inr (.inl (.inl (.inl ⟨_, h, rfl⟩)))
    · exact .inr (.inl (.inl (.inr ⟨_, h, rfl⟩)))
    · exact .inr (.inl (.inr ⟨_, h, rfl⟩))
    · exact .inr (.inr ⟨_, h, rfl⟩)

theorem stagedEntries_perm : (stagedEntries state R P).Perm
    (⟨databaseEntry, .database, .database state.database, maxDatabaseBytes⟩ ::
      ((state.presets.map fun content =>
        ⟨presetsEntry, .presets, .bytes content, maxPresetsBytes⟩).toList ++
      (state.settings.map fun content =>
        ⟨settingsEntry, .settings, .bytes content, maxSettingsBytes⟩).toList ++
      (visibleFiles R).map (stageFile engineRegistryPrefix .engineRegistry maxRegistryEntryBytes) ++
      (visibleFiles P).map (stageFile reportsPrefix .reports maxReportBytes))) := by
  refine (List.mergeSort_perm _ _).trans (List.Perm.cons _ ?_)
  exact ((List.Perm.append_left _ (List.mergeSort_perm _ _)).append (List.mergeSort_perm _ _))

/-- The number of entries of each component. -/
def componentCount (state : LiveState δ) (R P : JsonDirectory) : StateBundleComponent → ℕ
  | .database => 1
  | .presets => state.presets.isSome.toNat
  | .settings => state.settings.isSome.toNat
  | .engineRegistry => (visibleFiles R).length
  | .reports => (visibleFiles P).length

theorem countP_stagedEntries (component : StateBundleComponent) :
    (stagedEntries state R P).countP (fun entry => entry.component = component) =
      componentCount state R P component := by
  rw [stagedEntries_perm.countP_eq]
  have hfiles (start : String) (c : StateBundleComponent) (limit : ℕ) (files : JsonDirectory) :
      (files.map (stageFile start c limit) : List (StagedEntry δ)).countP
        (fun entry => entry.component = component) = if c = component then files.length else 0 := by
    rw [List.countP_map]
    split_ifs with hc
    · rw [List.countP_eq_length.mpr]
      intro file _
      exact decide_eq_true hc
    · rw [List.countP_eq_zero]
      intro file _
      exact fun h => hc (of_decide_eq_true h)
  simp only [List.countP_cons, List.countP_append, hfiles]
  cases hpresets : state.presets <;> cases hsettings : state.settings <;> cases component <;>
    simp [componentCount, hpresets, hsettings]

theorem any_stagedEntries (component : StateBundleComponent) :
    ((stagedEntries state R P).any fun entry => entry.component = component) =
      decide (0 < componentCount state R P component) := by
  rw [← countP_stagedEntries, Bool.eq_iff_iff, decide_eq_true_eq, List.countP_pos_iff,
    List.any_eq_true]

/-- The files under a prefix have different paths, which start like the prefix. -/
theorem nodup_stageFiles {start : String} {component : StateBundleComponent} {limit : ℕ}
    {files : JsonDirectory} (h : (files.map Prod.fst).Nodup) :
    ((files.map (stageFile start component limit) : List (StagedEntry δ)).map
      StagedEntry.archivePath).Nodup := by
  have hpaths : (files.map (stageFile start component limit) : List (StagedEntry δ)).map
      StagedEntry.archivePath = (files.map Prod.fst).map (start ++ ·) := by
    rw [List.map_map, List.map_map]
    rfl
  rw [hpaths]
  refine h.map fun name name' hsame => ?_
  have htext := congrArg String.toList hsame
  rw [String.toList_append, String.toList_append, List.append_cancel_left_eq] at htext
  exact String.toList_inj.mp htext

theorem head?_stageFiles {start : String} {component : StateBundleComponent} {limit : ℕ}
    {files : JsonDirectory} (hstart : start ≠ "") {path : String}
    (h : path ∈ (files.map (stageFile start component limit) : List (StagedEntry δ)).map
      StagedEntry.archivePath) : path.toList.head? = start.toList.head? := by
  rw [List.map_map, List.mem_map] at h
  obtain ⟨entry, -, rfl⟩ := h
  exact head?_append hstart

theorem DirectoryOf.visible_nodup {Q : String × Bytes → Prop} {directory : JsonDirectory}
    (h : DirectoryOf Q directory) : ((visibleFiles directory).map Prod.fst).Nodup :=
  h.nodup.sublist (List.filter_sublist.map Prod.fst)

theorem nodup_stagedEntries {Q Q' : String × Bytes → Prop} (hR : DirectoryOf Q R)
    (hP : DirectoryOf Q' P) :
    ((stagedEntries state R P).map StagedEntry.archivePath).Nodup := by
  rw [(stagedEntries_perm.map _).nodup_iff, List.map_cons, List.map_append, List.map_append,
    List.map_append]
  have hregistry := fun path (h : path ∈ ((visibleFiles R).map (stageFile engineRegistryPrefix
      .engineRegistry maxRegistryEntryBytes) : List (StagedEntry δ)).map StagedEntry.archivePath) =>
    head?_stageFiles (by decide) h
  have hreports := fun path (h : path ∈ ((visibleFiles P).map (stageFile reportsPrefix
      .reports maxReportBytes) : List (StagedEntry δ)).map StagedEntry.archivePath) =>
    head?_stageFiles (by decide) h
  have hpresets : ∀ path ∈ ((state.presets.map fun content => (⟨presetsEntry, .presets,
      .bytes content, maxPresetsBytes⟩ : StagedEntry δ)).toList).map StagedEntry.archivePath,
      path = presetsEntry := by
    cases state.presets <;> simp
  have hsettings : ∀ path ∈ ((state.settings.map fun content => (⟨settingsEntry, .settings,
      .bytes content, maxSettingsBytes⟩ : StagedEntry δ)).toList).map StagedEntry.archivePath,
      path = settingsEntry := by
    cases state.settings <;> simp
  have hpresets' : (((state.presets.map fun content => (⟨presetsEntry, .presets,
      .bytes content, maxPresetsBytes⟩ : StagedEntry δ)).toList).map
        StagedEntry.archivePath).Nodup := by
    cases state.presets <;> simp
  have hsettings' : (((state.settings.map fun content => (⟨settingsEntry, .settings,
      .bytes content, maxSettingsBytes⟩ : StagedEntry δ)).toList).map
        StagedEntry.archivePath).Nodup := by
    cases state.settings <;> simp
  -- the first letters of the five kinds of paths differ
  have hletters : databaseEntry.toList.head? = some 'd' ∧ presetsEntry.toList.head? = some 'p' ∧
      settingsEntry.toList.head? = some 's' ∧ engineRegistryPrefix.toList.head? = some 'e' ∧
      reportsPrefix.toList.head? = some 'r' := by decide
  obtain ⟨hd, hp, hs, he, hr⟩ := hletters
  refine List.nodup_cons.mpr ⟨fun hmem => ?_, ?_⟩
  · simp only [List.mem_append] at hmem
    rcases hmem with ((h | h) | h) | h
    · exact absurd (congrArg (·.toList.head?) (hpresets _ h)) (by rw [hd, hp]; decide)
    · exact absurd (congrArg (·.toList.head?) (hsettings _ h)) (by rw [hd, hs]; decide)
    · exact absurd (hregistry _ h) (by rw [hd, he]; decide)
    · exact absurd (hreports _ h) (by rw [hd, hr]; decide)
  · refine List.nodup_append.mpr ⟨List.nodup_append.mpr ⟨List.nodup_append.mpr
      ⟨hpresets', hsettings', ?_⟩, nodup_stageFiles hR.visible_nodup, ?_⟩,
      nodup_stageFiles hP.visible_nodup, ?_⟩
    · intro a ha b hb hsame
      rw [hpresets a ha, hsettings b hb] at hsame
      exact absurd hsame (by decide)
    · intro a ha b hb hsame
      have hb := hregistry b hb
      rw [← hsame] at hb
      rcases List.mem_append.mp ha with ha | ha
      · rw [hpresets a ha, hp, he] at hb
        exact absurd hb (by decide)
      · rw [hsettings a ha, hs, he] at hb
        exact absurd hb (by decide)
    · intro a ha b hb hsame
      have hb := hreports b hb
      rw [← hsame] at hb
      rcases List.mem_append.mp ha with ha | ha
      · rcases List.mem_append.mp ha with ha | ha
        · rw [hpresets a ha, hp, hr] at hb
          exact absurd hb (by decide)
        · rw [hsettings a ha, hs, hr] at hb
          exact absurd hb (by decide)
      · rw [hregistry a ha, he, hr] at hb
        exact absurd hb (by decide)

end ApplicationState

end Anole
