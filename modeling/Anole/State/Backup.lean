import Anole.State.LiveComponents

/-!
# Backing up the application state

Which states can be collected (`collectEntries_eq_ok`), the manifest of their backup
(`buildManifest_eq`) and when that manifest is valid (`manifestOf_valid`).
-/

open Common Common.Proc

namespace Anole

namespace ApplicationState

variable {δ ζ : Type} {tools : BundleTools δ ζ} {state : LiveState δ} {request : BundleRequest}
  {R : JsonDirectory} {entry : String × Bytes} {staged : StagedEntry δ}

/-- A state that the services accept or produce. -/
structure Produced (tools : BundleTools δ ζ) (state : LiveState δ) : Prop where
  database : MaintenanceService.Restorable tools.sqlite state.database
  databaseSize : tools.sqlite.size state.database ≤ maxDatabaseBytes
  settings : ∃ settings, readSettings tools state.settings = .ok settings
  registry : DirectoryOf (Written (Activated tools)) state.engineRegistry
  reports : DirectoryOf (Written (SavedReport tools)) state.reports
  reportCount : (visibleFiles (recovered state.reports)).length ≤ maxReportEntries

/-! ## Collecting the state -/

/-- What the collection asks of a state. -/
structure Collects (tools : BundleTools δ ζ) (state : LiveState δ) : Prop where
  presets : ∀ content, state.presets = some content → validatePresetFile tools content = .ok ()
  settings : ∀ content stored, state.settings = some content →
    tools.settingsFromSlice content = .ok stored →
      stored.schemaVersion = applicationSettingsSchemaVersion
  backups : ∀ entry ∈ state.engineRegistry, ∀ stem, backupStem entry.1 = some stem → SafeStem stem
  identities : ∀ stem content, (stem ++ ".json", content) ∈ visibleFiles (recovered state.engineRegistry) →
    stem.utf8ByteSize ≤ 128
  count : (visibleFiles (recovered state.engineRegistry)).length ≤ maxRegistryEntries

/-- A file that is there is collected exactly if it passes its check. -/
theorem collectOptionalFile_eq_ok {content : Option Bytes} {path : String}
    {component : StateBundleComponent} {limit : ℕ} {validate : Bytes → Except AnoleError Unit}
    {out : Option (StagedEntry δ)} :
    collectOptionalFile content path component limit validate = .ok out ↔
      (∀ bytes, content = some bytes → validate bytes = .ok ()) ∧
        out = content.map fun bytes => ⟨path, component, .bytes bytes, limit⟩ := by
  cases content with
  | none =>
    rw [collectOptionalFile, Except.ok.injEq, Option.map_none]
    simp [eq_comm]
  | some bytes =>
    rw [collectOptionalFile, bind_eq_ok, Option.map_some]
    simp only [Option.some.injEq, forall_eq']
    constructor
    · rintro ⟨_, hvalid, hout⟩
      cases hout
      exact ⟨hvalid, rfl⟩
    · rintro ⟨hvalid, rfl⟩
      exact ⟨(), hvalid, rfl⟩

theorem validateIdentities (hlaw : BundleTools.Lawful tools)
    (hR : DirectoryOf (Recovered (Activated tools)) R)
    (hentry : entry ∈ visibleFiles R) :
    ∃ stem content, entry = (stem ++ ".json", content) ∧ (Collectable maxRegistryEntryBytes
      (fun fileName content => do
        rejectIf (fileName.toList.head? = some '.') "Engine registry contains a hidden JSON entry"
        validateIdentity tools "Engine registry identity is invalid" content) entry ↔
      stem.utf8ByteSize ≤ 128) := by
  obtain ⟨stem, content, rfl, hactive⟩ := hR.visible hentry
  refine ⟨stem, content, rfl, ?_⟩
  have hgood := hactive.good
  have hvisible : (stem ++ ".json").toList.head? ≠ some '.' := by
    rw [head?_append hgood.nonempty]
    exact hgood.visible
  simp only [Collectable, bind_eq_ok, rejectIf_eq_ok, validateIdentity_eq_ok hlaw hactive,
    pathExtension_json hgood.nonempty, hvisible, hactive.2.1, not_false_eq_true, exists_const,
    true_and, and_true]

theorem collectRegistry_eq_ok (hlaw : BundleTools.Lawful tools)
    (h : DirectoryOf (Written (Activated tools)) state.engineRegistry)
    {out : List (StagedEntry δ)} :
    collectRegistryEntries tools state.engineRegistry = .ok out ↔
      (∀ entry ∈ state.engineRegistry, ∀ stem, backupStem entry.1 = some stem → SafeStem stem) ∧
        (∀ stem content, (stem ++ ".json", content) ∈ visibleFiles (recovered state.engineRegistry) →
          stem.utf8ByteSize ≤ 128) ∧
        (visibleFiles (recovered state.engineRegistry)).length ≤ maxRegistryEntries ∧
        out = sortStaged ((visibleFiles (recovered state.engineRegistry)).map
          (stageFile engineRegistryPrefix .engineRegistry maxRegistryEntryBytes)) := by
  have hgood : ∀ stem content, Activated tools stem content → GoodStem stem := fun _ _ h => h.good
  have hdir := recovered_spec hgood h
  have hall : (∀ entry ∈ visibleFiles (recovered state.engineRegistry),
      Collectable maxRegistryEntryBytes (fun fileName content => do
        rejectIf (fileName.toList.head? = some '.') "Engine registry contains a hidden JSON entry"
        validateIdentity tools "Engine registry identity is invalid" content) entry) ↔
      ∀ stem content, (stem ++ ".json", content) ∈ visibleFiles (recovered state.engineRegistry) →
        stem.utf8ByteSize ≤ 128 := by
    refine ⟨fun hall stem content hmem => ?_, fun hall entry hmem => ?_⟩
    · obtain ⟨stem', content', hsame, hiff⟩ := validateIdentities hlaw hdir hmem
      rw [append_json_injective (Prod.mk.inj hsame).1]
      exact hiff.mp (hall _ hmem)
    · obtain ⟨stem, content, rfl, hiff⟩ := validateIdentities hlaw hdir hmem
      exact hiff.mpr (hall stem content hmem)
  rw [collectRegistryEntries, bind_eq_ok, ← hall]
  simp only [recover_eq_ok hgood h, collectJsonDirectory_eq_ok]
  constructor
  · rintro ⟨_, ⟨hbackups, rfl⟩, hrest⟩
    exact ⟨hbackups, hrest⟩
  · rintro ⟨hbackups, hrest⟩
    exact ⟨_, ⟨hbackups, rfl⟩, hrest⟩

/-- The reports that `ReportService` saved are always collected. -/
theorem collectReports_eq (hlaw : BundleTools.Lawful tools) (h : Produced tools state) :
    (collectReportEntries tools state.reports : Except AnoleError (List (StagedEntry δ))) =
      .ok (sortStaged ((visibleFiles (recovered state.reports)).map
        (stageFile reportsPrefix .reports maxReportBytes))) := by
  have hgood : ∀ stem content, SavedReport tools stem content → GoodStem stem := fun _ _ h => h.good
  have hdir := recovered_spec hgood h.reports
  have hrecover : recoverJsonDirectoryBackups state.reports = .ok (recovered state.reports) := by
    refine (recover_eq_ok hgood h.reports).mpr ⟨fun entry hentry stem hstem => ?_, rfl⟩
    obtain ⟨content, hsaved⟩ := backupStem_written hgood (h.reports.entries entry hentry) hstem
    exact ⟨hsaved.portable.short, hsaved.portable.free⟩
  rw [collectReportEntries, hrecover, bind_eq_ok]
  refine ⟨_, rfl, collectJsonDirectory_eq_ok.mpr ⟨fun entry hentry => ?_, h.reportCount, rfl⟩⟩
  obtain ⟨stem, content, rfl, hsaved⟩ := hdir.visible hentry
  exact ⟨pathExtension_json hsaved.good.nonempty, validateReport_saved hlaw hsaved _, hsaved.1⟩

/-- A produced state is collected exactly if its files pass. -/
theorem collectEntries_eq_ok (hlaw : BundleTools.Lawful tools) (h : Produced tools state)
    {out : List (StagedEntry δ)} :
    collectEntries tools state true = .ok out ↔
      Collects tools state ∧
        out = stagedEntries state (recovered state.engineRegistry) (recovered state.reports) := by
  have hsettings : (∀ bytes, state.settings = some bytes → validateSettingsFile tools bytes = .ok ()) ↔
      ∀ content stored, state.settings = some content →
        tools.settingsFromSlice content = .ok stored →
          stored.schemaVersion = applicationSettingsSchemaVersion := by
    obtain ⟨settings, hread⟩ := h.settings
    refine forall_congr' fun content => ⟨fun hvalid stored hcontent => ?_, fun hall hcontent => ?_⟩
    · rw [hcontent] at hread
      exact (validateSettingsFile_eq_ok hread).mp (hvalid hcontent) stored
    · rw [hcontent] at hread
      exact (validateSettingsFile_eq_ok hread).mpr fun stored => hall stored hcontent
  rw [collectEntries]
  simp only [bind_eq_ok, backupPortable_eq_ok hlaw h.database.healthy, Except.ok.injEq,
    collectOptionalFile_eq_ok, collectRegistry_eq_ok hlaw h.registry, collectReports_eq hlaw h,
    if_true, hsettings]
  constructor
  · rintro ⟨_, rfl, _, ⟨hpresets, rfl⟩, _, ⟨hstored, rfl⟩, _, ⟨hbackups, hshort, hcount, rfl⟩, _,
      rfl, hout⟩
    cases hout
    exact ⟨⟨hpresets, hstored, hbackups, hshort, hcount⟩, rfl⟩
  · rintro ⟨⟨hpresets, hstored, hbackups, hshort, hcount⟩, rfl⟩
    exact ⟨_, rfl, _, ⟨hpresets, rfl⟩, _, ⟨hstored, rfl⟩, _, ⟨hbackups, hshort, hcount, rfl⟩, _,
      rfl, rfl⟩

/-! ## The manifest of a state -/

/-- The staged entries of a state. -/
def stagedOf (state : LiveState δ) : List (StagedEntry δ) :=
  stagedEntries state (recovered state.engineRegistry) (recovered state.reports)

/-- The manifest entry of a staged file. -/
def entryOf (tools : BundleTools δ ζ) (staged : StagedEntry δ) : StateBundleEntry where
  path := staged.archivePath
  component := staged.component
  sizeBytes := contentSize tools staged.content
  sha256 := tools.sha256 staged.content

/-- The manifest of the backup of a state. -/
def manifestOf (tools : BundleTools δ ζ) (request : BundleRequest) (state : LiveState δ) :
    StateBundleManifest where
  schemaVersion := applicationStateBundleSchemaVersion
  bundleId := request.bundleId
  createdUnixSeconds := request.createdUnixSeconds
  applicationVersion := applicationVersion
  components := {
    database := true
    presets := state.presets.isSome
    settings := state.settings.isSome
    engineRegistry := true
    reports := request.includeReports }
  entries := (stagedOf state).map (entryOf tools)

theorem manifestEntryOf_eq_ok {entry : StateBundleEntry} :
    manifestEntryOf tools staged = .ok entry ↔
      contentSize tools staged.content ≤ staged.limit ∧ entry = entryOf tools staged := by
  rw [manifestEntryOf, bind_eq_ok]
  simp only [rejectIf_eq_ok, exists_const, not_lt]
  exact and_congr_right fun _ => ⟨fun h => by cases h; rfl, fun h => by rw [h]; rfl⟩

theorem mapM_manifestEntryOf {entries : List (StagedEntry δ)}
    (h : ∀ staged ∈ entries, contentSize tools staged.content ≤ staged.limit) :
    entries.mapM (manifestEntryOf tools) = .ok (entries.map (entryOf tools)) := by
  induction entries with
  | nil => rfl
  | cons staged rest ih =>
    have hstaged := manifestEntryOf_eq_ok.mpr ⟨h staged (List.mem_cons_self ..), rfl⟩
    have hrest := ih fun other hother => h other (List.mem_cons_of_mem _ hother)
    rw [List.mapM_cons, hstaged, hrest]
    rfl

/-- The saved files of a state, by what wrote them. -/
theorem registry_visible (h : Produced tools state)
    (hentry : entry ∈ visibleFiles (recovered state.engineRegistry)) :
    ∃ stem content, entry = (stem ++ ".json", content) ∧ Activated tools stem content :=
  (recovered_spec (fun _ _ h => h.good) h.registry).visible hentry

theorem reports_visible (h : Produced tools state)
    (hentry : entry ∈ visibleFiles (recovered state.reports)) :
    ∃ stem content, entry = (stem ++ ".json", content) ∧ SavedReport tools stem content :=
  (recovered_spec (fun _ _ h => h.good) h.reports).visible hentry

theorem Staged.limit_eq {P : JsonDirectory} (h : Staged state R P staged) :
    staged.limit = componentLimit staged.component := by
  cases h <;> rfl

theorem stagedOf_size (h : Produced tools state) (hcollects : Collects tools state) :
    ∀ staged ∈ stagedOf state, contentSize tools staged.content ≤ staged.limit := by
  intro staged hstaged
  cases mem_stagedEntries.mp hstaged with
  | database => exact h.databaseSize
  | presets hpresets =>
    have hvalid := hcollects.presets _ hpresets
    rw [validatePresetFile, bind_eq_ok] at hvalid
    obtain ⟨_, hread, -⟩ := hvalid
    exact (readBounded_eq_ok.mp hread).1
  | settings hsettings =>
    obtain ⟨settings, hread⟩ := h.settings
    rw [hsettings, readSettings, bind_eq_ok] at hread
    obtain ⟨_, hbytes, -⟩ := hread
    exact (readBounded_eq_ok.mp hbytes).1
  | registry hentry =>
    obtain ⟨stem, content, rfl, hactive⟩ := registry_visible h hentry
    exact hactive.2.1
  | report hentry =>
    obtain ⟨stem, content, rfl, hsaved⟩ := reports_visible h hentry
    exact hsaved.1

theorem buildManifest_eq (h : Produced tools state) (hcollects : Collects tools state) :
    buildManifest tools request (stagedOf state) = .ok (manifestOf tools request state) := by
  have hflag (content : Option Bytes) : decide (0 < content.isSome.toNat) = content.isSome := by
    cases content <;> rfl
  have hpresets : decide (0 < componentCount state (recovered state.engineRegistry)
      (recovered state.reports) .presets) = state.presets.isSome := hflag _
  have hsettings : decide (0 < componentCount state (recovered state.engineRegistry)
      (recovered state.reports) .settings) = state.settings.isSome := hflag _
  rw [buildManifest, mapM_manifestEntryOf (stagedOf_size h hcollects), stagedOf,
    any_stagedEntries, any_stagedEntries, hpresets, hsettings]
  rfl

/-! ## The check of the manifest -/

theorem countOf_manifestOf (component : StateBundleComponent) :
    countOf component (manifestOf tools request state).entries =
      componentCount state (recovered state.engineRegistry) (recovered state.reports) component := by
  rw [← countP_stagedEntries, countOf, manifestOf, List.countP_map]
  rfl

theorem length_manifestOf : (manifestOf tools request state).entries.length =
    1 + state.presets.isSome.toNat + state.settings.isSome.toNat +
      (visibleFiles (recovered state.engineRegistry)).length +
      (visibleFiles (recovered state.reports)).length := by
  rw [manifestOf, List.length_map, stagedOf, stagedEntries_perm.length_eq]
  simp only [List.length_cons, List.length_append, List.length_map]
  cases state.presets <;> cases state.settings <;> simp <;> omega

theorem path_manifestOf : (manifestOf tools request state).entries.map StateBundleEntry.path =
    (stagedOf state).map StagedEntry.archivePath := by
  rw [manifestOf, List.map_map]
  rfl

/-- The names of the engines are portable. -/
def PortableEngines (state : LiveState δ) : Prop :=
  ∀ stem content, (stem ++ ".json", content) ∈ visibleFiles (recovered state.engineRegistry) →
    PortableStem stem

theorem entryValid_of_staged (hlaw : BundleTools.Lawful tools) (h : Produced tools state)
    (hcollects : Collects tools state) (hstaged : staged ∈ stagedOf state) :
    EntryValid (entryOf tools staged) ↔ Placed (entryOf tools staged) := by
  refine ⟨EntryValid.placed, fun hplaced => ?_⟩
  have hsize := stagedOf_size h hcollects staged hstaged
  have hkind := mem_stagedEntries.mp hstaged
  rw [hkind.limit_eq] at hsize
  have hpath : ensureSafeArchivePath staged.archivePath = .ok () ∧
      staged.archivePath ≠ manifestEntry := by
    have hletters : manifestEntry.toList.head? = some 'm' ∧
        engineRegistryPrefix.toList.head? = some 'e' ∧ reportsPrefix.toList.head? = some 'r' := by
      decide
    have hfixed : ∀ path ∈ [databaseEntry, presetsEntry, settingsEntry],
        ensureSafeArchivePath path = .ok () ∧ path ≠ manifestEntry := by
      simp only [ensureSafeArchivePath, rejectIf_eq_ok]
      decide
    obtain ⟨hm, he, hr⟩ := hletters
    cases hkind with
    | database => exact hfixed _ (by simp)
    | presets => exact hfixed _ (by simp)
    | settings => exact hfixed _ (by simp)
    | registry hentry =>
      obtain ⟨stem, content, rfl, hactive⟩ := registry_visible h hentry
      refine ⟨ensureSafeArchivePath_file engineRegistryPrefix_isPrefix hactive.good, fun hsame => ?_⟩
      have hhead := congrArg (·.toList.head?) hsame
      simp only [stageFile, head?_append (show engineRegistryPrefix ≠ "" by decide), he, hm] at hhead
      exact absurd hhead (by decide)
    | report hentry =>
      obtain ⟨stem, content, rfl, hsaved⟩ := reports_visible h hentry
      refine ⟨ensureSafeArchivePath_file reportsPrefix_isPrefix hsaved.good, fun hsame => ?_⟩
      have hhead := congrArg (·.toList.head?) hsame
      simp only [stageFile, head?_append (show reportsPrefix ≠ "" by decide), hr, hm] at hhead
      exact absurd hhead (by decide)
  exact ⟨hpath.1, hpath.2, hsize, hlaw.sha256 _, hplaced⟩

/-- The manifest of a collected state is valid exactly if its engines have portable names. -/
theorem manifestOf_valid (hlaw : BundleTools.Lawful tools) (h : Produced tools state)
    (hcollects : Collects tools state) (hreports : request.includeReports = true) :
    ManifestValid (manifestOf tools request state) ↔ PortableEngines state := by
  constructor
  · intro hvalid stem content hmem
    have hstaged : stageFile engineRegistryPrefix .engineRegistry maxRegistryEntryBytes
        (stem ++ ".json", content) ∈ stagedOf state := mem_stagedEntries.mpr (.registry hmem)
    have hplaced := (hvalid.entries _ (List.mem_map_of_mem hstaged)).placed
    obtain ⟨stem', content', hsame, hactive⟩ := registry_visible h hmem
    rw [← append_json_injective (Prod.mk.inj hsame).1] at hactive
    exact (ensurePrefixedJsonPath_eq_ok hactive.good).mp hplaced
  · intro hportable
    have hlength : (manifestOf tools request state).entries.length ≤
        maxReportEntries + maxRegistryEntries + 3 := by
      have hp := Bool.toNat_le state.presets.isSome
      have hs := Bool.toNat_le state.settings.isSome
      have hr := hcollects.count
      have hc := h.reportCount
      rw [length_manifestOf]
      omega
    have hversion : applicationVersion ≠ "" ∧ applicationVersion.utf8ByteSize ≤ 64 := by decide
    refine ⟨rfl, hversion, rfl, hlength, ?_, ?_, ?_, ?_, ?_, ?_, ?_, ?_, ?_⟩
    · intro entry hentry
      obtain ⟨staged, hstaged, rfl⟩ := List.mem_map.mp hentry
      rw [entryValid_of_staged hlaw h hcollects hstaged]
      cases mem_stagedEntries.mp hstaged with
      | database => rfl
      | presets => rfl
      | settings => rfl
      | registry hfile =>
        obtain ⟨stem, content, rfl, hactive⟩ := registry_visible h hfile
        exact (ensurePrefixedJsonPath_eq_ok hactive.good).mpr (hportable stem content hfile)
      | report hfile =>
        obtain ⟨stem, content, rfl, hsaved⟩ := reports_visible h hfile
        exact (ensurePrefixedJsonPath_eq_ok hsaved.good).mpr hsaved.portable
    · rw [path_manifestOf]
      exact nodup_stagedEntries (recovered_spec (fun _ _ h => h.good) h.registry)
        (recovered_spec (fun _ _ h => h.good) h.reports)
    · rw [countOf_manifestOf]
      rfl
    · rw [countOf_manifestOf]
      rfl
    · rw [countOf_manifestOf]
      rfl
    · rw [countOf_manifestOf]
      exact hcollects.count
    · rw [countOf_manifestOf]
      exact h.reportCount
    · intro hno
      cases hno
    · intro hno
      rw [manifestOf, hreports] at hno
      cases hno

end ApplicationState

end Anole
