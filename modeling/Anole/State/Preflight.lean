import Anole.State.Backup

/-!
# The preflight of a backup

The archive that a backup writes has what its manifest says, so `prepare_bundle` fails on it
only over its size or over the links of its reports.

Main result:

* `backup_accepts`: for a state that the services produce, exactly when it can be backed up
  to a bundle that the preflight accepts.

**Deviation.** The services accept and produce states that the backup refuses: settings of
schema 1, which `read` migrates; reports of jobs that were retried or interrupted after the
report was saved; engines whose identifier is no portable file name; and more reports than
a manifest of 4 MiB can list.
-/

open Common Common.Proc

namespace Anole

namespace ApplicationState

variable {δ ζ : Type} {tools : BundleTools δ ζ} {state : LiveState δ} {request : BundleRequest}

/-! ## The archive -/

/-- The entries of the archive of a backup. -/
def archiveOf (manifest : StateBundleManifest) (entries : List (StagedEntry δ)) :
    List (String × FileContent δ) :=
  (manifestEntry, .manifest manifest) :: entries.map fun entry => (entry.archivePath, entry.content)

variable {manifest : StateBundleManifest} {entries : List (StagedEntry δ)} {u : Unit} {bundle : ζ}

theorem writeBundle_eq_ok
    (h : ∀ staged ∈ entries, contentSize tools staged.content ≤ staged.limit) :
    writeBundle tools manifest entries = .ok bundle ↔
      (manifestToVecPretty manifest).utf8ByteSize ≤ maxManifestBytes ∧
        tools.zipWrite (archiveOf manifest entries) = .ok bundle := by
  have hgrew : ¬∃ entry ∈ entries, contentSize tools entry.content > entry.limit := by
    rintro ⟨entry, hentry, hlarge⟩
    have hsize := h entry hentry
    omega
  rw [writeBundle]
  simp only [bind_eq_ok, rejectIf_eq_ok, mapError_eq_ok, hgrew, not_false_eq_true, exists_const,
    true_and, not_lt]
  rfl

theorem names_archiveOf : (archiveOf manifest entries).map Prod.fst =
    manifestEntry :: entries.map StagedEntry.archivePath := by
  rw [archiveOf, List.map_cons, List.map_map]
  rfl

/-- Each staged file is found under its path. -/
theorem lookup_archiveOf (hnodup : (entries.map StagedEntry.archivePath).Nodup)
    (hother : ∀ staged ∈ entries, staged.archivePath ≠ manifestEntry) {staged : StagedEntry δ}
    (hstaged : staged ∈ entries) :
    (archiveOf manifest entries).lookup staged.archivePath = some staged.content := by
  obtain ⟨before, after, rfl⟩ := List.append_of_mem hstaged
  rw [List.lookup_eq_some_iff]
  refine ⟨(manifestEntry, .manifest manifest) :: before.map fun entry =>
      (entry.archivePath, entry.content), after.map fun entry => (entry.archivePath, entry.content),
    by simp [archiveOf], ?_⟩
  intro entry hentry
  rw [bne_iff_ne]
  rcases List.mem_cons.mp hentry with rfl | hentry
  · exact hother staged hstaged
  · obtain ⟨earlier, hearlier, rfl⟩ := List.mem_map.mp hentry
    rw [List.map_append, List.nodup_append] at hnodup
    intro hsame
    exact hnodup.2.2 _ (List.mem_map_of_mem hearlier) _ (List.mem_map_of_mem (List.mem_cons_self ..))
      hsame.symm

/-- The names of an archive pass if they are safe and differ. -/
theorem validateNames_eq_ok {names done : List String} :
    validateNames done names = .ok u ↔
      (∀ name ∈ names, ensureSafeArchivePath name = .ok () ∧ name ∉ done) ∧ names.Nodup := by
  induction names generalizing done with
  | nil => simp [validateNames]
  | cons name rest ih =>
    rw [validateNames, bind_eq_ok]
    simp only [bind_eq_ok, rejectIf_eq_ok, ih, exists_const, List.nodup_cons]
    constructor
    · rintro ⟨_, hsafe, hnew, hrest, hnodup⟩
      refine ⟨fun other hother => ?_, fun hmem => ?_, hnodup⟩
      · rcases List.mem_cons.mp hother with rfl | hother
        · exact ⟨hsafe, hnew⟩
        · exact ⟨(hrest other hother).1, fun hmem =>
            (hrest other hother).2 (List.mem_cons_of_mem _ hmem)⟩
      · exact (hrest name hmem).2 (List.mem_cons_self ..)
    · rintro ⟨hall, hnew, hnodup⟩
      obtain ⟨hsafe, hfresh⟩ := hall name (List.mem_cons_self ..)
      refine ⟨(), hsafe, hfresh, fun other hother => ?_, hnodup⟩
      obtain ⟨hsafe', hfresh'⟩ := hall other (List.mem_cons_of_mem _ hother)
      refine ⟨hsafe', fun hmem => ?_⟩
      rcases List.mem_cons.mp hmem with rfl | hmem
      · exact hnew hother
      · exact hfresh' hmem

/-- The size of the staged files. -/
def totalSize (tools : BundleTools δ ζ) (entries : List (StagedEntry δ)) : ℕ :=
  (entries.map fun staged => contentSize tools staged.content).sum

/-- The loop over the entries passes exactly if they are not too large together. -/
theorem checkEntries_eq_ok {archive : List (String × FileContent δ)} {total out : ℕ}
    (hlookup : ∀ staged ∈ entries, archive.lookup staged.archivePath = some staged.content)
    (hlimit : ∀ staged ∈ entries,
      contentSize tools staged.content ≤ componentLimit staged.component)
    (htotal : total ≤ maxTotalUncompressedBytes) :
    checkEntries tools archive total (entries.map (entryOf tools)) = .ok out ↔
      total + totalSize tools entries ≤ maxTotalUncompressedBytes ∧
        out = total + totalSize tools entries := by
  induction entries generalizing total with
  | nil =>
    rw [List.map_nil, checkEntries, Except.ok.injEq]
    simp [totalSize, htotal, eq_comm]
  | cons staged rest ih =>
    have hsum : totalSize tools (staged :: rest) =
        contentSize tools staged.content + totalSize tools rest := by
      simp [totalSize]
    have hsize := hlimit staged (List.mem_cons_self ..)
    rw [List.map_cons, checkEntries, show (entryOf tools staged).path = staged.archivePath from rfl,
      hlookup staged (List.mem_cons_self ..), hsum]
    simp only [bind_eq_ok, rejectIf_eq_ok, entryOf, ne_eq, not_true_eq_false, false_or, gt_iff_lt,
      not_lt, hsize, not_false_eq_true, exists_const, true_and]
    have hnext (hroom : total + contentSize tools staged.content ≤ maxTotalUncompressedBytes) :=
      ih (fun other hother => hlookup other (List.mem_cons_of_mem _ hother))
        (fun other hother => hlimit other (List.mem_cons_of_mem _ hother)) hroom
    constructor
    · rintro ⟨hroom, hrest⟩
      obtain ⟨hfits, rfl⟩ := (hnext hroom).mp hrest
      exact ⟨by omega, by omega⟩
    · rintro ⟨hfits, rfl⟩
      refine ⟨by omega, (hnext (by omega)).mpr ⟨by omega, by omega⟩⟩

/-! ## The staged components -/

theorem fileNameOf_file {start stem : String} {dir : List Char} (hstart : IsPrefix start dir)
    (h : GoodStem stem) : fileNameOf (start ++ (stem ++ ".json")) = stem ++ ".json" := by
  have hslash : ∀ c ∈ (stem ++ ".json").toList.reverse, decide (c ≠ '/') = true := by
    intro c hc
    refine decide_eq_true ?_
    rintro rfl
    exact not_mem_json h (by decide) (List.mem_reverse.mp hc)
  have htext : (start ++ (stem ++ ".json")).toList.reverse =
      (stem ++ ".json").toList.reverse ++ '/' :: dir.reverse := by
    rw [String.toList_append, hstart.toList, List.reverse_append, List.reverse_append]
    rfl
  rw [fileNameOf, htext, List.takeWhile_append_of_pos hslash, List.takeWhile_cons_of_neg (by simp),
    List.append_nil, List.reverse_reverse, String.ofList_toList]

/-- An archive that has the staged files. -/
def Holds (archive : List (String × FileContent δ)) (state : LiveState δ) : Prop :=
  ∀ staged ∈ stagedOf state, archive.lookup staged.archivePath = some staged.content

variable {archive : List (String × FileContent δ)}

theorem Holds.bytes (h : Holds archive state) {path : String} {component : StateBundleComponent}
    {limit : ℕ} {content : Bytes} (hstaged : ⟨path, component, .bytes content, limit⟩ ∈ stagedOf state) :
    stagedBytes archive path = .ok content := by
  have hlookup := h _ hstaged
  dsimp only at hlookup
  rw [stagedBytes, hlookup]

theorem validateStagedEntries_ok (hlaw : BundleTools.Lawful tools) (h : Produced tools state)
    (hcollects : Collects tools state) (harchive : Holds archive state)
    (hentries : ∀ staged ∈ entries, staged ∈ stagedOf state) :
    validateStagedEntries tools archive (entries.map (entryOf tools)) = .ok () := by
  induction entries with
  | nil => rfl
  | cons staged rest ih =>
    have hrest := ih fun other hother => hentries other (List.mem_cons_of_mem _ hother)
    have hstaged := hentries staged (List.mem_cons_self ..)
    rw [List.map_cons, validateStagedEntries, hrest]
    cases mem_stagedEntries.mp hstaged with
    | database => rfl
    | presets => rfl
    | settings => rfl
    | registry hfile =>
      obtain ⟨stem, content, rfl, hactive⟩ := registry_visible h hfile
      have hbytes := harchive.bytes hstaged
      have hvalid : validateIdentity tools "Bundled engine registry identity is invalid" content =
          .ok () := (validateIdentity_eq_ok hlaw hactive).mpr (hcollects.identities stem content hfile)
      simp only [entryOf, stageFile, hbytes, bind_eq_ok, Except.ok.injEq]
      exact ⟨content, rfl, (), hvalid, trivial⟩
    | report hfile =>
      obtain ⟨stem, content, rfl, hsaved⟩ := reports_visible h hfile
      have hbytes := harchive.bytes hstaged
      have hvalid := validateReport_saved hlaw hsaved bundledReportMessages
      simp only [entryOf, stageFile, hbytes, bind_eq_ok, Except.ok.injEq]
      refine ⟨content, rfl, (), ?_, trivial⟩
      rwa [fileNameOf_file reportsPrefix_isPrefix hsaved.good]

theorem validateStagedComponents_ok (hlaw : BundleTools.Lawful tools) (h : Produced tools state)
    (hcollects : Collects tools state) (harchive : Holds archive state) :
    validateStagedComponents tools archive (manifestOf tools request state) = .ok () := by
  rw [validateStagedComponents, show (manifestOf tools request state).entries =
    (stagedOf state).map (entryOf tools) from rfl,
    validateStagedEntries_ok hlaw h hcollects harchive fun _ hstaged => hstaged]
  have hpresets : (if (manifestOf tools request state).components.presets = true then do
      let content ← stagedBytes archive presetsEntry
      validatePresetFile tools content
    else .ok ()) = .ok () := by
    cases hcontent : state.presets with
    | none => rw [manifestOf, hcontent]; rfl
    | some content =>
      have hbytes := harchive.bytes (mem_stagedEntries.mpr (.presets hcontent))
      rw [manifestOf, hcontent, hbytes]
      exact hcollects.presets content hcontent
  have hsettings : (if (manifestOf tools request state).components.settings = true then do
      let content ← stagedBytes archive settingsEntry
      validateSettingsFile tools content
    else .ok ()) = .ok () := by
    cases hcontent : state.settings with
    | none => rw [manifestOf, hcontent]; rfl
    | some content =>
      have hbytes := harchive.bytes (mem_stagedEntries.mpr (.settings hcontent))
      obtain ⟨settings, hread⟩ := h.settings
      rw [hcontent] at hread
      rw [manifestOf, hcontent, hbytes]
      exact (validateSettingsFile_eq_ok hread).mpr fun stored => hcollects.settings content stored hcontent
  rw [hpresets, hsettings]
  rfl

/-! ## The links of the reports -/

/-- The job of each saved report is in the state that follows from the report. -/
def Linked (tools : BundleTools δ ζ) (state : LiveState δ) : Prop :=
  ∀ entry ∈ visibleFiles (recovered state.reports), ∀ report,
    tools.report.fromSlice entry.2 = .ok report →
      tools.jobRow state.database report.jobId.toText =
        .ok (some (report.planHash, expectedState report.status))

theorem validateReportLink_eq_ok (hlaw : BundleTools.Lawful tools) {stem : String} {content : Bytes}
    (h : SavedReport tools stem content) {database : δ} :
    validateReportLink tools database content = .ok u ↔
      ∀ report, tools.report.fromSlice content = .ok report →
        tools.jobRow database report.jobId.toText =
          .ok (some (report.planHash, expectedState report.status)) := by
  obtain ⟨hlimit, report, rfl, hcontent⟩ := h
  have hread := hlaw.report _ _ hcontent
  rw [validateReportLink]
  simp only [bind_eq_ok, readBounded_eq_ok, mapError_eq_ok, rejectIf_eq_ok, hread, Except.ok.injEq,
    forall_eq', not_not]
  constructor
  · rintro ⟨_, ⟨-, rfl⟩, _, hreport, stored, hstored, rfl⟩
    rw [hread, Except.ok.injEq] at hreport
    rw [hreport]
    exact hstored
  · intro hrow
    exact ⟨content, ⟨hlimit, rfl⟩, report, hread, _, hrow, rfl⟩

/-- The links of a list of staged files pass exactly if those of its reports do. -/
theorem validateReportLinks_eq_ok (harchive : Holds archive state)
    (hentries : ∀ staged ∈ entries, staged ∈ stagedOf state) :
    validateReportLinks tools archive state.database (entries.map (entryOf tools)) = .ok u ↔
      ∀ staged ∈ entries, staged.component = .reports → ∀ content, staged.content = .bytes content →
        validateReportLink tools state.database content = .ok () := by
  induction entries with
  | nil => simp [validateReportLinks]
  | cons staged rest ih =>
    have hrest := ih fun other hother => hentries other (List.mem_cons_of_mem _ hother)
    have hstaged := hentries staged (List.mem_cons_self ..)
    rw [List.map_cons, validateReportLinks, bind_eq_ok, List.forall_mem_cons, hrest, exists_and_right]
    refine and_congr_left fun _ => ?_
    have hkind : (entryOf tools staged).component = staged.component := rfl
    rw [hkind]
    by_cases hreport : staged.component = .reports
    · rw [if_pos hreport]
      cases mem_stagedEntries.mp hstaged with
      | @report file hfile =>
        have hpath : stagedBytes archive (entryOf tools (stageFile reportsPrefix .reports
            maxReportBytes file)).path = .ok file.2 := harchive.bytes hstaged
        rw [hpath]
        constructor
        · rintro ⟨_, hvalid⟩ - content hcontent
          cases hcontent
          exact hvalid
        · intro hvalid
          exact ⟨(), hvalid rfl file.2 rfl⟩
      | _ => cases hreport
    · rw [if_neg hreport]
      simp [hreport]

theorem validateReportLinks_iff (hlaw : BundleTools.Lawful tools) (h : Produced tools state)
    (harchive : Holds archive state) :
    validateReportLinks tools archive state.database (manifestOf tools request state).entries = .ok u ↔
      Linked tools state := by
  rw [manifestOf, validateReportLinks_eq_ok harchive fun _ hstaged => hstaged]
  constructor
  · intro hall entry hentry
    obtain ⟨stem, content, rfl, hsaved⟩ := reports_visible h hentry
    exact (validateReportLink_eq_ok hlaw hsaved).mp
      (hall _ (mem_stagedEntries.mpr (.report hentry)) rfl content rfl)
  · intro hlinked staged hstaged hreport content hcontent
    cases mem_stagedEntries.mp hstaged with
    | report hfile =>
      obtain ⟨stem, content', rfl, hsaved⟩ := reports_visible h hfile
      cases hcontent
      exact (validateReportLink_eq_ok hlaw hsaved).mpr (hlinked _ hfile)
    | _ => cases hreport

/-! ## The preflight of a backup -/

/-- The manifest of a collected state has the paths of its files, all different. -/
theorem holds_archiveOf (hvalid : ManifestValid (manifestOf tools request state)) :
    Holds (archiveOf (manifestOf tools request state) (stagedOf state)) state := by
  have hnodup := hvalid.nodup
  rw [path_manifestOf] at hnodup
  refine fun staged hstaged => lookup_archiveOf hnodup (fun other hother => ?_) hstaged
  exact (hvalid.entries _ (List.mem_map_of_mem hother)).other

theorem validateNames_archiveOf (hvalid : ManifestValid (manifestOf tools request state)) :
    validateNames [] ((archiveOf (manifestOf tools request state) (stagedOf state)).map Prod.fst) =
      .ok () := by
  have hpath (path : String) (hmem : path ∈ (stagedOf state).map StagedEntry.archivePath) :
      ensureSafeArchivePath path = .ok () ∧ path ≠ manifestEntry := by
    obtain ⟨staged, hstaged, rfl⟩ := List.mem_map.mp hmem
    have hentry := hvalid.entries (entryOf tools staged) (List.mem_map_of_mem hstaged)
    exact ⟨hentry.safe, hentry.other⟩
  have hmanifest : ensureSafeArchivePath manifestEntry = .ok () := by
    rw [ensureSafeArchivePath, rejectIf_eq_ok]
    decide
  have hnodup := hvalid.nodup
  rw [path_manifestOf] at hnodup
  rw [names_archiveOf, validateNames_eq_ok, List.forall_mem_cons, List.nodup_cons]
  refine ⟨⟨⟨hmanifest, List.not_mem_nil⟩, fun path hmem => ⟨(hpath path hmem).1, List.not_mem_nil⟩⟩,
    fun hmem => (hpath _ hmem).2 rfl, hnodup⟩

/-- The preflight of a written bundle fails only over its size or its links. -/
theorem prepareBundle_iff (hlaw : BundleTools.Lawful tools) (h : Produced tools state)
    (hcollects : Collects tools state) (hvalid : ManifestValid (manifestOf tools request state))
    (hmanifest : (manifestToVecPretty (manifestOf tools request state)).utf8ByteSize ≤ maxManifestBytes)
    (hreports : request.includeReports = true)
    (hwritten : tools.zipWrite (archiveOf (manifestOf tools request state) (stagedOf state)) =
      .ok bundle) {path : PathBuf} :
    (∃ report, prepareBundle tools path bundle = .ok report) ↔
      tools.zipSize bundle ≤ maxArchiveBytes ∧
        totalSize tools (stagedOf state) ≤ maxTotalUncompressedBytes ∧ Linked tools state := by
  have hread := hlaw.zip _ _ hwritten
  have hholds := holds_archiveOf hvalid
  have hnames := validateNames_archiveOf hvalid
  have hlength : ¬(archiveOf (manifestOf tools request state) (stagedOf state)).length >
      maxReportEntries + maxRegistryEntries + 4 := by
    have hentries := hvalid.length
    rw [manifestOf, List.length_map] at hentries
    rw [archiveOf, List.length_cons, List.length_map]
    omega
  have hlookup : (archiveOf (manifestOf tools request state) (stagedOf state)).lookup manifestEntry =
      some (.manifest (manifestOf tools request state)) := List.lookup_cons_self ..
  have hpaths : (archiveOf (manifestOf tools request state) (stagedOf state)).map Prod.fst =
      manifestEntry :: (manifestOf tools request state).entries.map StateBundleEntry.path := by
    rw [names_archiveOf, path_manifestOf]
  have hcheck (out : ℕ) : checkEntries tools (archiveOf (manifestOf tools request state)
      (stagedOf state)) 0 (manifestOf tools request state).entries = .ok out ↔
        0 + totalSize tools (stagedOf state) ≤ maxTotalUncompressedBytes ∧
          out = 0 + totalSize tools (stagedOf state) := by
    refine checkEntries_eq_ok hholds (fun staged hstaged => ?_) (Nat.zero_le _)
    rw [← (mem_stagedEntries.mp hstaged).limit_eq]
    exact stagedOf_size h hcollects staged hstaged
  have hstaged : validateStagedComponents tools (archiveOf (manifestOf tools request state)
      (stagedOf state)) (manifestOf tools request state) = .ok () :=
    validateStagedComponents_ok hlaw h hcollects hholds
  have hdatabase : stagedDatabaseContent (archiveOf (manifestOf tools request state) (stagedOf state)) =
      .ok state.database := by
    rw [stagedDatabaseContent, hholds _ (mem_stagedEntries.mpr .database)]
  obtain ⟨preflight, hpreflight⟩ := preflightDatabase_eq_ok hlaw h.database
  rw [hpaths] at hnames
  rw [prepareBundle]
  simp only [bind_eq_ok, rejectIf_eq_ok, mapError_eq_ok, hread, Except.ok.injEq, exists_eq_left',
    hlength, hlookup, hlaw.manifest, hpaths, hstaged, hdatabase, hpreflight, not_false_eq_true,
    exists_const, true_and]
  constructor
  · rintro ⟨report, hsize, _, -, -, _, -, -, total, htotal, _, hlinks, -⟩
    rw [if_pos (by exact hreports)] at hlinks
    have hroom := ((hcheck total).mp htotal).1
    rw [Nat.zero_add] at hroom
    exact ⟨not_lt.mp hsize, hroom, (validateReportLinks_iff hlaw h hholds).mp hlinks⟩
  · rintro ⟨hsize, hroom, hlinked⟩
    have hsame := List.Subset.refl (manifestEntry ::
      (manifestOf tools request state).entries.map StateBundleEntry.path)
    refine ⟨_, not_lt.mpr hsize, (), hnames, not_lt.mpr hmanifest, (),
      validateManifest_eq_ok.mpr hvalid, not_not.mpr ⟨hsame, hsame⟩, _,
      (hcheck _).mpr ⟨by rwa [Nat.zero_add], rfl⟩, (), ?_, rfl⟩
    rw [if_pos (by exact hreports)]
    exact (validateReportLinks_iff hlaw h hholds).mpr hlinked

/-! ## The size of a manifest -/

theorem size_jsonLine (indent : ℕ) (text : String) :
    (jsonLine indent text).utf8ByteSize = 2 * indent + text.utf8ByteSize + 1 := by
  have hblank : (String.ofList (List.replicate (2 * indent) ' ')).utf8ByteSize = 2 * indent := by
    rw [utf8ByteSize_ascii, List.length_replicate]
    intro c hc
    rw [List.eq_of_mem_replicate hc]
    decide
  rw [jsonLine, String.utf8ByteSize_append, String.utf8ByteSize_append, hblank]
  rfl

theorem size_jsonEntry_comma (entry : StateBundleEntry) :
    (jsonEntry entry ",").utf8ByteSize = (jsonEntry entry "").utf8ByteSize + 1 := by
  simp only [jsonEntry, String.utf8ByteSize_append, size_jsonLine, show ",".utf8ByteSize = 1 from rfl,
    show "".utf8ByteSize = 0 from rfl]
  omega

theorem size_jsonEntries (entries : List StateBundleEntry) : (jsonEntries entries).utf8ByteSize =
    (entries.map fun entry => (jsonEntry entry "").utf8ByteSize).sum + (entries.length - 1) := by
  induction entries with
  | nil => rfl
  | cons entry rest ih =>
    cases rest with
    | nil => simp [jsonEntries]
    | cons next rest =>
      rw [jsonEntries, String.utf8ByteSize_append, size_jsonEntry_comma, ih]
      simp only [List.map_cons, List.sum_cons, List.length_cons]
      omega

theorem jsonChar_digest {c : Char}
    (h : (c.isDigit || ('a' ≤ c && c ≤ 'f') || ('A' ≤ c && c ≤ 'F')) = true) : jsonChar c = [c] := by
  have hc : (48 ≤ c.toNat ∧ c.toNat ≤ 57) ∨ (97 ≤ c.toNat ∧ c.toNat ≤ 102) ∨
      (65 ≤ c.toNat ∧ c.toNat ≤ 70) := by
    simp only [Char.isDigit, Char.le_def, UInt32.le_iff_toNat_le, Bool.or_eq_true, Bool.and_eq_true,
      decide_eq_true_eq, ge_iff_le] at h
    rcases h with (h | h) | h
    · exact .inl h
    · exact .inr (.inl h)
    · exact .inr (.inr h)
  have hquote : c ≠ '"' := by
    rintro rfl
    exact absurd hc (by decide)
  have hback : c ≠ '\\' := by
    rintro rfl
    exact absurd hc (by decide)
  unfold jsonChar
  rw [if_neg hquote, if_neg hback, if_neg (by omega), if_neg (by omega), if_neg (by omega),
    if_neg (by omega), if_neg (by omega), if_neg (by omega)]

theorem size_jsonString_digest {text : String} (h : IsDigest text) :
    (jsonString text).utf8ByteSize = 66 := by
  have hplain : text.toList.flatMap jsonChar = text.toList := by
    have hchars : ∀ c ∈ text.toList, jsonChar c = [c] := fun c hc =>
      jsonChar_digest (List.all_eq_true.mp h.2 c hc)
    generalize text.toList = cs at hchars
    induction cs with
    | nil => rfl
    | cons c cs ih =>
      rw [List.flatMap_cons, hchars c (List.mem_cons_self ..),
        ih fun d hd => hchars d (List.mem_cons_of_mem _ hd)]
      rfl
  have htext : jsonString text = "\"" ++ text ++ "\"" := by
    rw [jsonString, hplain, ← String.toList_inj, String.toList_append, String.toList_append,
      String.toList_ofList]
    rfl
  rw [htext, String.utf8ByteSize_append, String.utf8ByteSize_append, h.1]
  rfl

theorem size_jsonEntry {entry : StateBundleEntry} (h : IsDigest entry.sha256) :
    (jsonEntry entry "").utf8ByteSize =
      154 + (jsonString entry.path).utf8ByteSize + (jsonString entry.component.json).utf8ByteSize +
        (toString entry.sizeBytes).utf8ByteSize := by
  have hkeys : (jsonString "path").utf8ByteSize = 6 ∧ (jsonString "component").utf8ByteSize = 11 ∧
      (jsonString "size_bytes").utf8ByteSize = 12 ∧ (jsonString "sha256").utf8ByteSize = 8 := by
    decide
  have hmarks : ": ".utf8ByteSize = 2 ∧ ",".utf8ByteSize = 1 ∧ "\x7b".utf8ByteSize = 1 ∧
      "\x7d".utf8ByteSize = 1 ∧ "".utf8ByteSize = 0 := by decide
  simp only [jsonEntry, jsonField, String.utf8ByteSize_append, size_jsonLine,
    size_jsonString_digest h]
  omega

/-- The part of a manifest outside its entries. -/
theorem size_manifestToVecPretty (manifest : StateBundleManifest) :
    (manifestToVecPretty manifest).utf8ByteSize =
      (manifestToVecPretty { manifest with entries := [] }).utf8ByteSize +
        (jsonEntries manifest.entries).utf8ByteSize := by
  simp only [manifestToVecPretty, jsonEntries, String.utf8ByteSize_append,
    show "".utf8ByteSize = 0 from rfl]
  omega

/-! ## Backup, then preflight -/

/-- The states that can be backed up to a bundle. -/
structure CanBackUp (tools : BundleTools δ ζ) (request : BundleRequest) (state : LiveState δ)
    (bundle : ζ) : Prop where
  presets : ∀ content, state.presets = some content → validatePresetFile tools content = .ok ()
  settings : ∀ content stored, state.settings = some content →
    tools.settingsFromSlice content = .ok stored →
      stored.schemaVersion = applicationSettingsSchemaVersion
  engines : PortableEngines state
  engineCount : (visibleFiles (recovered state.engineRegistry)).length ≤ maxRegistryEntries
  backups : ∀ entry ∈ state.engineRegistry, ∀ stem, backupStem entry.1 = some stem → SafeStem stem
  reports : Linked tools state
  manifest : (manifestToVecPretty (manifestOf tools request state)).utf8ByteSize ≤ maxManifestBytes
  total : totalSize tools (stagedOf state) ≤ maxTotalUncompressedBytes
  archive : tools.zipWrite (archiveOf (manifestOf tools request state) (stagedOf state)) = .ok bundle
  size : tools.zipSize bundle ≤ maxArchiveBytes

/-- A backup writes a bundle exactly if the state can be backed up to it. -/
theorem backupInner_eq_ok (hlaw : BundleTools.Lawful tools) (h : Produced tools state)
    (hnew : request.destinationExists = false) (hreports : request.includeReports = true) :
    (∃ report, backupInner tools state request = .ok (report, bundle)) ↔
      CanBackUp tools request state bundle := by
  rw [backupInner]
  simp only [bind_eq_ok, rejectIf_eq_ok, hnew, hreports, collectEntries_eq_ok hlaw h]
  constructor
  · rintro ⟨report, _, -, staged, ⟨hcollects, rfl⟩, manifest, hmanifest, _, hvalid, written, hwrite,
      preflight, hprepare, _, hsize, hout⟩
    rw [← stagedOf, buildManifest_eq h hcollects] at hmanifest
    cases hmanifest
    cases hout
    rw [validateManifest_eq_ok] at hvalid
    obtain ⟨hfits, hwritten⟩ := (writeBundle_eq_ok (stagedOf_size h hcollects)).mp hwrite
    obtain ⟨-, htotal, hlinked⟩ := (prepareBundle_iff hlaw h hcollects hvalid hfits hreports
      hwritten).mp ⟨preflight, hprepare⟩
    exact ⟨hcollects.presets, hcollects.settings,
      (manifestOf_valid hlaw h hcollects hreports).mp hvalid, hcollects.count, hcollects.backups,
      hlinked, hfits, htotal, hwritten, not_lt.mp hsize⟩
  · intro hstate
    have hcollects : Collects tools state := ⟨hstate.presets, hstate.settings, hstate.backups,
      fun stem content hmem => (hstate.engines stem content hmem).short, hstate.engineCount⟩
    have hvalid := (manifestOf_valid hlaw h hcollects hreports).mpr hstate.engines
    have hprepare : ∃ preflight, prepareBundle tools request.destination bundle = .ok preflight :=
      (prepareBundle_iff hlaw h hcollects hvalid hstate.manifest hreports hstate.archive).mpr
        ⟨hstate.size, hstate.total, hstate.reports⟩
    obtain ⟨preflight, hprepare⟩ := hprepare
    exact ⟨_, (), by decide, _, ⟨hcollects, rfl⟩, _, buildManifest_eq h hcollects, (),
      validateManifest_eq_ok.mpr hvalid, bundle,
      (writeBundle_eq_ok (stagedOf_size h hcollects)).mpr ⟨hstate.manifest, hstate.archive⟩,
      preflight, hprepare, (), not_lt.mpr hstate.size, rfl⟩

/-- A state that the services produce can be backed up, to a bundle that the preflight accepts
    wherever it lies, exactly if its settings are of schema 2, its reports are those of
    finished jobs, its engines have portable names, and its manifest and its archive stay
    within their limits. -/
theorem backup_accepts (hlaw : BundleTools.Lawful tools) (h : Produced tools state)
    (hnew : request.destinationExists = false) (hreports : request.includeReports = true) :
    (∃ report bundle, backupInner tools state request = .ok (report, bundle) ∧
      ∀ path, ∃ preflight, restorePreflight tools path bundle = .ok preflight) ↔
    ∃ bundle, CanBackUp tools request state bundle := by
  constructor
  · rintro ⟨report, bundle, hbackup, -⟩
    exact ⟨bundle, (backupInner_eq_ok hlaw h hnew hreports).mp ⟨report, hbackup⟩⟩
  · rintro ⟨bundle, hstate⟩
    obtain ⟨report, hbackup⟩ := (backupInner_eq_ok hlaw h hnew hreports).mpr hstate
    have hcollects : Collects tools state := ⟨hstate.presets, hstate.settings, hstate.backups,
      fun stem content hmem => (hstate.engines stem content hmem).short, hstate.engineCount⟩
    have hvalid := (manifestOf_valid hlaw h hcollects hreports).mpr hstate.engines
    refine ⟨report, bundle, hbackup, fun path => ?_⟩
    exact (prepareBundle_iff hlaw h hcollects hvalid hstate.manifest hreports hstate.archive).mpr
      ⟨hstate.size, hstate.total, hstate.reports⟩

end ApplicationState

namespace ApplicationState.Sample

open MaintenanceService.Sample

def textBytes (text : String) : Bytes := text.toList.map fun c => UInt8.ofNat c.toNat

/-- The settings file of an older version, and one of this version. -/
def settingsVersion1 : Bytes := textBytes
  "\x7b\"schema_version\":1,\"language\":\"en\",\"expert_mode\":false\x7d"

def settingsVersion2 : Bytes := textBytes
  "\x7b\"schema_version\":2,\"language\":\"en\",\"expert_mode\":false\x7d"

def manifestPath : PathBuf := PathBuf.ofString "/engines/ffmpeg/engine.json"

def sampleTools : BundleTools Content (List (String × FileContent Content)) where
  sqlite := sampleSqlite
  jobRow _ id :=
    .ok (if id = ReportService.Sample.passed.jobId.toText then some ("plan", "completed") else none)
  presetLibrary _ := .ok ()
  settingsFromSlice content :=
    if content = settingsVersion1 then .ok ⟨1, "en", false, "light", "classic"⟩
    else if content = settingsVersion2 then .ok ⟨2, "en", false, "light", "classic"⟩
    else .error "expected value at line 1 column 1"
  identityToVecPretty identity :=
    if identity = ⟨some "ffmpeg", manifestPath⟩ then .ok [101] else .error "other"
  identityFromSlice content :=
    if content = [101] then .ok ⟨some "ffmpeg", manifestPath⟩ else .error "other"
  report := ReportService.Sample.codec
  manifestFromSlice
    | .manifest manifest => .ok manifest
    | _ => .error "expected value at line 1 column 1"
  parseUuid text :=
    let id : Uuid := BitVec.ofNat 128 (hexValue text.toList)
    if id.toText = text then some id else none
  sha256 content :=
    if content = .bytes settingsVersion1 then
      "56facb90cdd101c5aeb8c511d57a9172d5638cd97e144cd148e435119d7b8447"
    else if content = .bytes settingsVersion2 then
      "459d8acb35f08a6c4e1de83f500ec1fa18f3505e54cb1ea77b01d8523395bb3d"
    else if content = .bytes [101] then
      "3f79bb7b435b05321651daefd374cdc681dc06faa65e374e38337b88ca046dea"
    else if content = .bytes [112] then
      "148de9c5a7a44d19e56cd9ae1a554bf67847afb0c58f6e12fa29ac7ddfca9940"
    else "ad7facb2586fc6e966c004d7d1d16b024f5805ff7cb47c7a85dabd8b48892ca7"
  zipWrite entries := .ok entries
  zipRead bundle := .ok bundle
  zipSize _ := 8192

theorem sampleTools_lawful : BundleTools.Lawful sampleTools := by
  refine ⟨sampleSqlite_lawful, fun identity content h => ?_, ReportService.Sample.codec_lossless,
    fun _ => rfl, fun id => ?_, fun content => ?_, fun entries bundle h => ?_⟩
  · simp only [sampleTools] at h ⊢
    split_ifs at h with hidentity
    cases h
    rw [hidentity]
    rfl
  · have hvalue : BitVec.ofNat 128 (hexValue id.toText.toList) = id := by
      rw [Uuid.hexValue_toText, BitVec.ofNat_toNat, BitVec.setWidth_eq]
    simp only [sampleTools, hvalue, if_true]
  · simp only [sampleTools]
    split_ifs <;> exact ⟨by decide, by decide⟩
  · cases h
    rfl

/-- A healthy database, the settings, an engine and the report of a finished job. -/
def sampleState (settings : Bytes) : LiveState Content where
  database := .current
  presets := none
  settings := some settings
  engineRegistry := [("ffmpeg.json", [101])]
  reports := [(ReportService.Sample.passed.jobId.toText ++ ".json", [112])]

def request : BundleRequest := 
  ⟨PathBuf.ofString "/usb/state.fwstate", false, true, 9, 1700000000⟩

theorem produced (settings : Bytes) (found : Option ApplicationSettings)
    (h : readSettings sampleTools (some settings) = .ok found) :
    Produced sampleTools (sampleState settings) := by
  have hhealthy : sampleTools.sqlite.Healthy Content.current :=
    ⟨["ok"], rfl, by decide +kernel, rfl, by decide +kernel⟩
  refine ⟨⟨hhealthy, ⟨6, rfl, by decide⟩, ⟨.current, rfl, hhealthy⟩⟩, ?_, ⟨found, h⟩, ?_, ?_, ?_⟩
  · exact show (4096 : ℕ) ≤ maxDatabaseBytes by decide
  · refine ⟨fun entry hentry => ?_, List.nodup_singleton _⟩
    rw [List.mem_singleton.mp hentry]
    exact @Written.file _ "ffmpeg" _ ⟨by decide, by decide, manifestPath, by decide, rfl⟩
  · refine ⟨fun entry hentry => ?_, List.nodup_singleton _⟩
    rw [List.mem_singleton.mp hentry]
    exact .file ⟨by decide, ReportService.Sample.passed, rfl, rfl⟩
  · exact (List.length_filter_le _ _).trans ((List.length_filterMap_le _ _).trans
      (show 1 ≤ maxReportEntries by decide))

/-- The staged files of the sample. -/
def sampleStaged : List (StagedEntry Content) :=
  [⟨databaseEntry, .database, .database .current, maxDatabaseBytes⟩,
    ⟨settingsEntry, .settings, .bytes settingsVersion2, maxSettingsBytes⟩,
    stageFile engineRegistryPrefix .engineRegistry maxRegistryEntryBytes ("ffmpeg.json", [101]),
    stageFile reportsPrefix .reports maxReportBytes
      (ReportService.Sample.passed.jobId.toText ++ ".json", [112])]

theorem sum_le {α : Type} {xs : List α} {size : α → ℕ} {bound : ℕ} (h : ∀ x ∈ xs, size x ≤ bound) :
    (xs.map size).sum ≤ xs.length * bound := by
  induction xs with
  | nil => exact Nat.zero_le _
  | cons x xs ih =>
    have hx := h x (List.mem_cons_self ..)
    have hxs := ih fun y hy => h y (List.mem_cons_of_mem _ hy)
    rw [List.map_cons, List.sum_cons, List.length_cons, Nat.add_mul]
    omega

/-- Settings of schema 2 do not stop the backup. -/
theorem backup_accepts_version2 : ∃ report bundle,
    backupInner sampleTools (sampleState settingsVersion2) request = .ok (report, bundle) ∧
      ∀ path, ∃ preflight, restorePreflight sampleTools path bundle = .ok preflight := by
  have hproduced : Produced sampleTools (sampleState settingsVersion2) :=
    produced _ (some ⟨2, "en", false, "light", "classic"⟩) (by decide)
  have hengines : visibleFiles (recovered (sampleState settingsVersion2).engineRegistry) =
      [("ffmpeg.json", [101])] := by decide
  have hreports : visibleFiles (recovered (sampleState settingsVersion2).reports) =
      [(ReportService.Sample.passed.jobId.toText ++ ".json", [112])] := by decide
  have hstaged : (stagedOf (sampleState settingsVersion2)).Perm sampleStaged := by
    have hperm := @stagedEntries_perm Content (sampleState settingsVersion2)
      (recovered (sampleState settingsVersion2).engineRegistry)
      (recovered (sampleState settingsVersion2).reports)
    rw [hengines, hreports] at hperm
    exact hperm
  refine (backup_accepts sampleTools_lawful hproduced rfl rfl).mpr ⟨_, ?_, ?_, ?_, ?_, ?_, ?_, ?_, ?_,
    rfl, ?_⟩
  · intro content hcontent
    cases hcontent
  · intro content stored hcontent hstored
    cases hcontent
    cases hstored
    rfl
  · intro stem content hmem
    rw [hengines, List.mem_singleton] at hmem
    rw [@append_json_injective stem "ffmpeg" (Prod.mk.inj hmem).1]
    exact ⟨by decide, by decide, by decide⟩
  · rw [hengines]
    decide
  · intro entry hentry stem hstem
    rw [List.mem_singleton.mp hentry, show backupStem "ffmpeg.json" = none by decide] at hstem
    cases hstem
  · intro entry hentry report hreport
    rw [hreports, List.mem_singleton] at hentry
    rw [hentry] at hreport
    cases hreport
    decide
  · have hsmall : ∀ staged ∈ sampleStaged,
        (jsonString staged.archivePath).utf8ByteSize ≤ 100 ∧
        (jsonString staged.component.json).utf8ByteSize ≤ 100 ∧
        (toString (contentSize sampleTools staged.content)).utf8ByteSize ≤ 100 := by decide
    have hfixed : (manifestToVecPretty { manifestOf sampleTools request
        (sampleState settingsVersion2) with entries := [] }).utf8ByteSize ≤ 1000 := by decide +kernel
    have hentries : (manifestOf sampleTools request (sampleState settingsVersion2)).entries =
        (stagedOf (sampleState settingsVersion2)).map (entryOf sampleTools) := rfl
    have hsize : ∀ staged ∈ sampleStaged,
        ((fun entry => (jsonEntry entry "").utf8ByteSize) ∘ entryOf sampleTools) staged ≤ 454 := by
      intro staged hmem
      have htexts := hsmall staged hmem
      have hdigest : IsDigest (entryOf sampleTools staged).sha256 := sampleTools_lawful.sha256 _
      rw [Function.comp_apply, size_jsonEntry hdigest]
      dsimp only [entryOf]
      omega
    have hsum : ((stagedOf (sampleState settingsVersion2)).map
        ((fun entry => (jsonEntry entry "").utf8ByteSize) ∘ entryOf sampleTools)).sum ≤
          sampleStaged.length * 454 := by
      rw [(hstaged.map _).sum_nat]
      exact sum_le hsize
    have hlimit : maxManifestBytes = 4194304 := rfl
    have hlength : sampleStaged.length = 4 := rfl
    dsimp only at hfixed
    rw [size_manifestToVecPretty, size_jsonEntries, hentries, List.map_map, List.length_map,
      hstaged.length_eq]
    omega
  · have hsmall : ∀ staged ∈ sampleStaged, contentSize sampleTools staged.content ≤ 4096 := by
      decide
    have hlimit : maxTotalUncompressedBytes = 17179869184 := rfl
    have hsum := sum_le hsmall
    rw [totalSize, (hstaged.map _).sum_nat]
    rw [show sampleStaged.length = 4 from rfl] at hsum
    omega
  · exact show (8192 : ℕ) ≤ maxArchiveBytes by decide

/-- Settings of schema 1, which `read` accepts, do. -/
theorem backup_refuses_version1 : Produced sampleTools (sampleState settingsVersion1) ∧
    ¬∃ report bundle, backupInner sampleTools (sampleState settingsVersion1) request =
      .ok (report, bundle) ∧
        ∀ path, ∃ preflight, restorePreflight sampleTools path bundle = .ok preflight := by
  have hproduced : Produced sampleTools (sampleState settingsVersion1) :=
    produced _ (some ⟨2, "en", false, "light", "classic"⟩) (by decide)
  refine ⟨hproduced, ?_⟩
  rintro ⟨report, bundle, hbackup, -⟩
  have hstate := (backupInner_eq_ok sampleTools_lawful hproduced rfl rfl).mp ⟨report, hbackup⟩
  have hstored : sampleTools.settingsFromSlice settingsVersion1 =
      .ok ⟨1, "en", false, "light", "classic"⟩ := by simp [sampleTools]
  have hversion := hstate.settings _ _ rfl hstored
  exact absurd hversion (by decide)

end ApplicationState.Sample

end Anole
