import Anole.State.Bundle

/-!
# The checks of a bundle

When each check of an application-state bundle passes: the names of its files
(`ensurePrefixedJsonPath_eq_ok`), the recovery of a directory with replacement backups
(`recover_eq_ok`), the collection of a directory (`collectJsonDirectory_eq_ok`) and the
manifest (`validateManifest_eq_ok`).
-/

open Common

namespace Anole

/-! ## Text -/

theorem stripPrefix_eq_some {start text rest : String} :
    stripPrefix start text = some rest ↔ text = start ++ rest := by
  unfold stripPrefix
  constructor
  · intro h
    split_ifs at h with hstart
    obtain ⟨tail, htail⟩ := List.isPrefixOf_iff_prefix.mp hstart
    rw [Option.some.injEq] at h
    rw [← String.toList_inj, String.toList_append, ← h, String.toList_ofList, ← htail,
      List.drop_left]
  · rintro rfl
    rw [String.toList_append, if_pos (List.isPrefixOf_iff_prefix.mpr (List.prefix_append _ _)),
      List.drop_left, String.ofList_toList]

theorem stripSuffix_eq_some {ending text rest : String} :
    stripSuffix ending text = some rest ↔ text = rest ++ ending := by
  unfold stripSuffix
  constructor
  · intro h
    split_ifs at h with hending
    obtain ⟨front, hfront⟩ := List.isSuffixOf_iff_suffix.mp hending
    rw [Option.some.injEq] at h
    rw [← String.toList_inj, String.toList_append, ← h, String.toList_ofList, ← hfront]
    simp
  · rintro rfl
    rw [String.toList_append, if_pos (List.isSuffixOf_iff_suffix.mpr (List.suffix_append _ _))]
    simp

theorem pathExtension_json {stem : String} (h : stem ≠ "") :
    pathExtension (stem ++ ".json") = some "json" := by
  have hreversed : (stem ++ ".json").toList.reverse =
      'n' :: 'o' :: 's' :: 'j' :: '.' :: stem.toList.reverse := by
    rw [String.toList_append, List.reverse_append]
    rfl
  have hne : stem.toList.reverse ≠ [] := by
    rw [ne_eq, List.reverse_eq_nil_iff, String.toList_eq_nil_iff]
    exact h
  unfold pathExtension
  rw [hreversed]
  obtain ⟨c, cs, hcs⟩ := List.exists_cons_of_ne_nil hne
  rw [hcs]
  simp [List.dropWhile, List.takeWhile]

@[simp] theorem rejectIf_eq_ok {c : Prop} [Decidable c] {message : String} {u : Unit} :
    rejectIf c message = .ok u ↔ ¬c := by
  unfold rejectIf
  split_ifs with hc
  · simp [hc]
  · simp [hc]

/-! ## Names of files -/

/-- What the name of a job or of an engine is made of. -/
structure GoodStem (stem : String) : Prop where
  nonempty : stem ≠ ""
  visible : stem.toList.head? ≠ some '.'
  portable : stem.toList.all isPortableChar = true

namespace ApplicationState

variable {stem rest : String}

theorem head?_append (h : stem ≠ "") : (stem ++ rest).toList.head? = stem.toList.head? := by
  obtain ⟨c, cs, hcs⟩ := List.exists_cons_of_ne_nil
    (show stem.toList ≠ [] by rwa [ne_eq, String.toList_eq_nil_iff])
  rw [String.toList_append, hcs]
  rfl

theorem head?_dot : ("." ++ rest).toList.head? = some '.' := by
  rw [String.toList_append]
  rfl

theorem backupStem_eq_some {name : String} :
    backupStem name = some stem ↔ name = "." ++ stem ++ ".backup" := by
  unfold backupStem
  rw [Option.bind_eq_some_iff]
  constructor
  · rintro ⟨tail, htail, hstem⟩
    rw [stripPrefix_eq_some.mp htail, stripSuffix_eq_some.mp hstem, String.append_assoc]
  · rintro rfl
    refine ⟨stem ++ ".backup", ?_, stripSuffix_eq_some.mpr rfl⟩
    rw [stripPrefix_eq_some, String.append_assoc]

theorem backupStem_file (h : GoodStem stem) : backupStem (stem ++ rest) = none := by
  rw [Option.eq_none_iff_forall_not_mem]
  intro other hother
  have hname := backupStem_eq_some.mp hother
  have hhead := congrArg (fun name => name.toList.head?) hname
  simp only [String.append_assoc, head?_append h.nonempty, head?_dot] at hhead
  exact h.visible hhead

theorem backupStem_partial : backupStem (rest ++ ".partial") = none := by
  rw [Option.eq_none_iff_forall_not_mem]
  intro other hother
  have hname := backupStem_eq_some.mp hother
  have hlast := congrArg (fun name => name.toList.getLast?) hname
  simp only [String.toList_append, List.getLast?_append] at hlast
  rw [show ".partial".toList.getLast? = some 'l' from by decide,
    show ".backup".toList.getLast? = some 'p' from by decide, Option.some_or, Option.some_or] at hlast
  exact absurd hlast (by decide)

theorem append_json_injective {stem' : String} (h : stem ++ ".json" = stem' ++ ".json") :
    stem = stem' := by
  have htext := congrArg String.toList h
  rw [String.toList_append, String.toList_append, List.append_cancel_right_eq] at htext
  exact String.toList_inj.mp htext

/-! ## Directories of JSON files -/

/-- A file that a service left in its directory: an entry, the backup of one during a
    replacement, or a partial file. -/
inductive Written (G : String → Bytes → Prop) : String × Bytes → Prop where
  | file {stem : String} {content : Bytes} (h : G stem content) : Written G (stem ++ ".json", content)
  | backup {stem : String} {content : Bytes} (h : G stem content) :
    Written G ("." ++ stem ++ ".backup", content)
  | partialFile (start : String) (content : Bytes) :
    Written G ("." ++ start ++ ".partial", content)

/-- The same, without backups. -/
inductive Recovered (G : String → Bytes → Prop) : String × Bytes → Prop where
  | file {stem : String} {content : Bytes} (h : G stem content) :
    Recovered G (stem ++ ".json", content)
  | partialFile (start : String) (content : Bytes) :
    Recovered G ("." ++ start ++ ".partial", content)

/-- A directory whose files have different names. -/
structure DirectoryOf (P : String × Bytes → Prop) (directory : JsonDirectory) : Prop where
  entries : ∀ entry ∈ directory, P entry
  nodup : (directory.map Prod.fst).Nodup

section KeyedLists

variable {done tail : JsonDirectory} {entry : String × Bytes}

theorem ne_of_nodup (h : ((done ++ entry :: tail).map Prod.fst).Nodup) {other : String × Bytes}
    (hother : other ∈ done ++ tail) : other.1 ≠ entry.1 := by
  rw [List.map_append, List.map_cons, List.nodup_append, List.nodup_cons] at h
  obtain ⟨-, ⟨htail, -⟩, hdone⟩ := h
  rcases List.mem_append.mp hother with hmem | hmem
  · exact hdone _ (List.mem_map_of_mem hmem) _ (by simp)
  · intro hsame
    rw [← hsame] at htail
    exact htail (List.mem_map_of_mem hmem)

theorem filter_entry (h : ((done ++ entry :: tail).map Prod.fst).Nodup) :
    (done ++ entry :: tail).filter (fun other => other.1 ≠ entry.1) = done ++ tail := by
  have hkeep : (done ++ tail).filter (fun other => other.1 ≠ entry.1) = done ++ tail :=
    List.filter_eq_self.mpr fun other hother => decide_eq_true (ne_of_nodup h hother)
  rw [List.filter_append] at hkeep ⊢
  rw [List.filter_cons_of_neg (by simp), hkeep]

theorem map_entry (h : ((done ++ entry :: tail).map Prod.fst).Nodup) {f : String × Bytes → String × Bytes}
    (hf : ∀ other, other.1 ≠ entry.1 → f other = other) :
    (done ++ entry :: tail).map f = done ++ f entry :: tail := by
  have hkeep : (done ++ tail).map f = done ++ tail := by
    refine (List.map_congr_left fun other hother => ?_).trans (List.map_id _)
    exact hf other (ne_of_nodup h hother)
  rw [List.map_append] at hkeep ⊢
  obtain ⟨hdone, htail⟩ := List.append_inj hkeep (List.length_map _)
  rw [List.map_cons, hdone, htail]

end KeyedLists

variable {G : String → Bytes → Prop} {done tail before after : JsonDirectory}

/-- The stems that the recovery of a backup takes. -/
def SafeStem (stem : String) : Prop := stem.utf8ByteSize ≤ 128 ∧ isWindowsReservedStem stem = false

/-- What becomes of a file of a directory with these names. -/
def recoveredEntry (names : List String) (entry : String × Bytes) : Option (String × Bytes) :=
  match backupStem entry.1 with
  | none => some entry
  | some stem => if stem ++ ".json" ∈ names then none else some (stem ++ ".json", entry.2)

/-- The directory in which each replacement backup has taken the place of its file, or has
    gone. -/
def recovered (directory : JsonDirectory) : JsonDirectory :=
  directory.filterMap (recoveredEntry (directory.map Prod.fst))

theorem backupStem_written {entry : String × Bytes} (hG : ∀ stem content, G stem content → GoodStem stem)
    (hentry : Written G entry) (h : backupStem entry.1 = some stem) : ∃ content, G stem content := by
  cases hentry with
  | file hstem => cases (backupStem_file (hG _ _ hstem)).symm.trans h
  | partialFile start content => cases backupStem_partial.symm.trans h
  | backup hstem =>
    rw [backupStem_eq_some.mpr rfl, Option.some.injEq] at h
    rw [← h]
    exact ⟨_, hstem⟩

theorem recoverEntry_eq_ok (hG : ∀ stem content, G stem content → GoodStem stem)
    {entry : String × Bytes} (hentry : Written G entry)
    (hnodup : ((done ++ entry :: tail).map Prod.fst).Nodup) :
    recoverEntry (done ++ entry :: tail) entry.1 = .ok after ↔
      (∀ stem, backupStem entry.1 = some stem → SafeStem stem) ∧
        after = done ++ ((recoveredEntry ((done ++ entry :: tail).map Prod.fst) entry).toList ++ tail) := by
  rw [recoverEntry, recoveredEntry]
  cases hbackup : backupStem entry.1 with
  | none => simp [eq_comm]
  | some stem =>
    obtain ⟨content, hstem⟩ := backupStem_written hG hentry hbackup
    have hgood := hG _ _ hstem
    have hsafe : (¬(stem = "" ∨ stem.utf8ByteSize > 128 ∨ ¬stem.toList.all isPortableChar = true ∨
        isWindowsReservedStem stem = true)) ↔ SafeStem stem := by
      simp [SafeStem, hgood.nonempty, hgood.portable]
    simp only [bind_eq_ok, rejectIf_eq_ok, hsafe, exists_const, Option.some.injEq, forall_eq']
    refine and_congr_right fun _ => ?_
    split_ifs with hthere
    · rw [filter_entry hnodup]
      simp [pure, Except.pure, eq_comm]
    · rw [map_entry hnodup fun other hother => if_neg hother, if_pos rfl]
      simp [pure, Except.pure, eq_comm]

/-- A recovered file is an entry or a partial file, and its name is a new one. -/
theorem recoveredEntry_spec (hG : ∀ stem content, G stem content → GoodStem stem)
    {entry new : String × Bytes} (hentry : Written G entry)
    (hnodup : ((done ++ entry :: tail).map Prod.fst).Nodup)
    (h : recoveredEntry ((done ++ entry :: tail).map Prod.fst) entry = some new) :
    Recovered G new ∧ ((done ++ new :: tail).map Prod.fst).Nodup := by
  have hkeep (hrec : Recovered G entry) (hnone : backupStem entry.1 = none) :
      Recovered G new ∧ ((done ++ new :: tail).map Prod.fst).Nodup := by
    rw [recoveredEntry, hnone, Option.some.injEq] at h
    rw [← h]
    exact ⟨hrec, hnodup⟩
  cases hentry with
  | file hstem => exact hkeep (.file hstem) (backupStem_file (hG _ _ hstem))
  | partialFile start content => exact hkeep (.partialFile start content) backupStem_partial
  | @backup stem content hstem =>
    rw [recoveredEntry, backupStem_eq_some.mpr rfl] at h
    dsimp only at h
    split_ifs at h with hthere
    rw [Option.some.injEq] at h
    rw [← h]
    refine ⟨.file hstem, ?_⟩
    rw [List.map_append, List.map_cons, List.nodup_append, List.nodup_cons] at hnodup
    rw [List.map_append, List.mem_append, List.map_cons, List.mem_cons] at hthere
    rw [List.map_append, List.map_cons, List.nodup_append, List.nodup_cons]
    obtain ⟨hdone, ⟨-, htail⟩, hapart⟩ := hnodup
    refine ⟨hdone, ⟨fun hmem => hthere (.inr (.inr hmem)), htail⟩, ?_⟩
    intro name hname name' hname'
    rcases List.mem_cons.mp hname' with rfl | hname'
    · rintro rfl
      exact hthere (.inl hname)
    · exact hapart name hname name' (List.mem_cons_of_mem _ hname')

/-- Recovering a file leaves the other entries where they are. -/
theorem recoveredEntry_mem {entry : String × Bytes} {other : String} (hother : backupStem entry.1 ≠ some other) :
    other ++ ".json" ∈ (done ++ ((recoveredEntry ((done ++ entry :: tail).map Prod.fst) entry).toList ++
        tail)).map Prod.fst ↔
      other ++ ".json" ∈ (done ++ entry :: tail).map Prod.fst := by
  rw [recoveredEntry]
  cases hbackup : backupStem entry.1 with
  | none => simp
  | some stem =>
    have hname : other ++ ".json" ≠ entry.1 := by
      intro hsame
      have hlast := congrArg (fun name => name.toList.getLast?) (hsame.trans (backupStem_eq_some.mp hbackup))
      simp only [String.toList_append, List.getLast?_append] at hlast
      rw [show ".json".toList.getLast? = some 'n' from by decide,
        show ".backup".toList.getLast? = some 'p' from by decide, Option.some_or,
        Option.some_or] at hlast
      exact absurd hlast (by decide)
    have hstem : other ++ ".json" ≠ stem ++ ".json" := by
      intro hsame
      rw [append_json_injective hsame] at hother
      exact hother hbackup
    dsimp only
    split_ifs
    · simp [hname]
    · simp [hname, hstem]

theorem recover_eq_ok_aux (names : List String) (done : JsonDirectory)
    (hG : ∀ stem content, G stem content → GoodStem stem)
    (hdone : ∀ entry ∈ done, Recovered G entry) (htail : ∀ entry ∈ tail, Written G entry)
    (hnodup : ((done ++ tail).map Prod.fst).Nodup)
    (hnames : ∀ entry ∈ tail, ∀ stem, backupStem entry.1 = some stem →
      (stem ++ ".json" ∈ (done ++ tail).map Prod.fst ↔ stem ++ ".json" ∈ names)) :
    DirectoryOf (Recovered G) (done ++ tail.filterMap (recoveredEntry names)) ∧
      ((tail.map Prod.fst).foldlM recoverEntry (done ++ tail) = .ok after ↔
        (∀ entry ∈ tail, ∀ stem, backupStem entry.1 = some stem → SafeStem stem) ∧
          after = done ++ tail.filterMap (recoveredEntry names)) := by
  induction tail generalizing done with
  | nil =>
    rw [List.append_nil] at hnodup
    refine ⟨by simpa using ⟨hdone, hnodup⟩, ?_⟩
    simp [pure, Except.pure, eq_comm]
  | cons entry tail ih =>
    have hentry := htail entry (List.mem_cons_self ..)
    -- the names that the step sees decide as the original names do
    have hsame : recoveredEntry ((done ++ entry :: tail).map Prod.fst) entry =
        recoveredEntry names entry := by
      rw [recoveredEntry, recoveredEntry]
      cases hbackup : backupStem entry.1 with
      | none => rfl
      | some stem => simp only [hnames entry (List.mem_cons_self ..) stem hbackup]
    have hout : done ++ (entry :: tail).filterMap (recoveredEntry names) =
        done ++ (recoveredEntry names entry).toList ++ tail.filterMap (recoveredEntry names) := by
      rw [List.filterMap_cons]
      cases recoveredEntry names entry <;> simp
    have hstep (next : JsonDirectory) := @recoverEntry_eq_ok G done tail next hG entry hentry hnodup
    have hspec (new : String × Bytes) := @recoveredEntry_spec G done tail hG entry new hentry hnodup
    have hmem (other : String) := @recoveredEntry_mem done tail entry other
    rw [hsame] at hmem
    simp only [hsame, ← List.append_assoc] at hstep hmem hspec
    have hnext := ih (done ++ (recoveredEntry names entry).toList) ?_
      (fun other hother => htail other (List.mem_cons_of_mem _ hother)) ?_ ?_
    · rw [hout]
      refine ⟨hnext.1, ?_⟩
      rw [List.map_cons, List.foldlM_cons, bind_eq_ok, List.forall_mem_cons]
      constructor
      · rintro ⟨next, hnextok, hrest⟩
        obtain ⟨hsafe, rfl⟩ := (hstep next).mp hnextok
        obtain ⟨hsafes, hafter⟩ := hnext.2.mp hrest
        exact ⟨⟨hsafe, hsafes⟩, hafter⟩
      · rintro ⟨⟨hsafe, hsafes⟩, hafter⟩
        exact ⟨_, (hstep _).mpr ⟨hsafe, rfl⟩, hnext.2.mpr ⟨hsafes, hafter⟩⟩
    · intro other hother
      rcases List.mem_append.mp hother with hother | hother
      · exact hdone other hother
      · exact (hspec other (Option.mem_toList.mp hother)).1
    · cases hnew : recoveredEntry names entry with
      | none =>
        refine hnodup.sublist (List.Sublist.map _ ?_)
        simp
      | some new => simpa using (hspec new hnew).2
    · intro other hother stem hstem
      rw [hmem stem ?_]
      · exact hnames other (List.mem_cons_of_mem _ hother) stem hstem
      · intro hback
        refine ne_of_nodup hnodup (List.mem_append_right _ hother) ?_
        rw [backupStem_eq_some.mp hstem, backupStem_eq_some.mp hback]

/-- A directory is recovered exactly if the stems of its backups are safe. -/
theorem recover_eq_ok (hG : ∀ stem content, G stem content → GoodStem stem)
    (hbefore : DirectoryOf (Written G) before) :
    recoverJsonDirectoryBackups before = .ok after ↔
      (∀ entry ∈ before, ∀ stem, backupStem entry.1 = some stem → SafeStem stem) ∧
        after = recovered before :=
  (recover_eq_ok_aux (before.map Prod.fst) [] hG (by simp) hbefore.entries hbefore.nodup
    (by simp)).2

theorem recovered_spec (hG : ∀ stem content, G stem content → GoodStem stem)
    (hbefore : DirectoryOf (Written G) before) : DirectoryOf (Recovered G) (recovered before) :=
  (@recover_eq_ok_aux G before before (before.map Prod.fst) [] hG (by simp) hbefore.entries
    hbefore.nodup (by simp)).1

/-! ## Collecting a directory -/

/-- The files that are collected: those whose name has no leading dot. -/
def visibleFiles (directory : JsonDirectory) : JsonDirectory :=
  directory.filter fun entry => entry.1.toList.head? ≠ some '.'

/-- The staged entry of a file. -/
def stageFile {δ : Type} (archivePrefix : String) (component : StateBundleComponent) (limit : ℕ)
    (entry : String × Bytes) : StagedEntry δ :=
  ⟨archivePrefix ++ entry.1, component, .bytes entry.2, limit⟩

section Collecting

variable {δ : Type} {archivePrefix : String} {component : StateBundleComponent}
  {limit maximumEntries : ℕ} {validate : String → Bytes → Except AnoleError Unit}
  {directory : JsonDirectory}

/-- What is asked of a file. -/
def Collectable (limit : ℕ) (validate : String → Bytes → Except AnoleError Unit)
    (entry : String × Bytes) : Prop :=
  pathExtension entry.1 = some "json" ∧ validate entry.1 entry.2 = .ok () ∧ entry.2.length ≤ limit

theorem collectJsonLoop_eq_ok {entries out : List (StagedEntry δ)}
    (hroom : entries.length ≤ maximumEntries) :
    collectJsonLoop archivePrefix component limit maximumEntries validate entries directory =
        .ok out ↔
      (∀ entry ∈ visibleFiles directory, Collectable limit validate entry) ∧
        entries.length + (visibleFiles directory).length ≤ maximumEntries ∧
        out = entries ++ (visibleFiles directory).map (stageFile archivePrefix component limit) := by
  induction directory generalizing entries with
  | nil =>
    rw [collectJsonLoop, Except.ok.injEq]
    simp only [visibleFiles, List.filter_nil, List.not_mem_nil, false_implies, implies_true,
      List.length_nil, Nat.add_zero, hroom, List.map_nil, List.append_nil, true_and]
    exact eq_comm
  | cons entry rest ih =>
    obtain ⟨fileName, content⟩ := entry
    rw [collectJsonLoop]
    by_cases hhidden : fileName.toList.head? = some '.'
    · rw [if_pos hhidden, ih hroom]
      have hskip : visibleFiles ((fileName, content) :: rest) = visibleFiles rest :=
        List.filter_cons_of_neg (by simpa using hhidden)
      rw [hskip]
    · have hkeep : visibleFiles ((fileName, content) :: rest) =
          (fileName, content) :: visibleFiles rest := List.filter_cons_of_pos (by simpa using hhidden)
      rw [if_neg hhidden, hkeep]
      simp only [bind_eq_ok, rejectIf_eq_ok, List.forall_mem_cons, List.length_cons, List.map_cons,
        Nat.not_lt, not_not, List.length_append, List.length_nil, exists_const, Collectable]
      constructor
      · rintro ⟨hextension, ⟨⟩, hvalid, hsize, hmax, hloop⟩
        rw [ih (by simpa using hmax)] at hloop
        obtain ⟨hall, hlength, rfl⟩ := hloop
        refine ⟨⟨⟨hextension, hvalid, hsize⟩, hall⟩, ?_, by simp [stageFile]⟩
        rw [List.length_append] at hlength
        simp only [List.length_cons, List.length_nil] at hlength
        omega
      · rintro ⟨⟨⟨hextension, hvalid, hsize⟩, hall⟩, hlength, rfl⟩
        refine ⟨hextension, (), hvalid, hsize, by omega, ?_⟩
        rw [ih (by simp; omega)]
        refine ⟨hall, ?_, by simp [stageFile]⟩
        simp only [List.length_append, List.length_cons, List.length_nil]
        omega

/-- A directory is collected exactly if each of its files is, and they are not too many. -/
theorem collectJsonDirectory_eq_ok {out : List (StagedEntry δ)} :
    collectJsonDirectory directory archivePrefix component limit maximumEntries validate = .ok out ↔
      (∀ entry ∈ visibleFiles directory, Collectable limit validate entry) ∧
        (visibleFiles directory).length ≤ maximumEntries ∧
        out = sortStaged ((visibleFiles directory).map (stageFile archivePrefix component limit)) := by
  have hloop (entries : List (StagedEntry δ)) :
      collectJsonLoop archivePrefix component limit maximumEntries validate [] directory =
          .ok entries ↔
        (∀ entry ∈ visibleFiles directory, Collectable limit validate entry) ∧
          (visibleFiles directory).length ≤ maximumEntries ∧
          entries = (visibleFiles directory).map (stageFile archivePrefix component limit) := by
    rw [collectJsonLoop_eq_ok (by simp), List.length_nil, Nat.zero_add, List.nil_append]
  rw [collectJsonDirectory, bind_eq_ok]
  constructor
  · rintro ⟨entries, hentries, hout⟩
    obtain ⟨hall, hlength, rfl⟩ := (hloop entries).mp hentries
    cases hout
    exact ⟨hall, hlength, rfl⟩
  · rintro ⟨hall, hlength, rfl⟩
    exact ⟨_, (hloop _).mpr ⟨hall, hlength, rfl⟩, rfl⟩

theorem DirectoryOf.visible (h : DirectoryOf (Recovered G) directory) {entry : String × Bytes}
    (hentry : entry ∈ visibleFiles directory) :
    ∃ stem content, entry = (stem ++ ".json", content) ∧ G stem content := by
  obtain ⟨hmem, hhead⟩ := List.mem_filter.mp hentry
  cases h.entries entry hmem with
  | file hstem => exact ⟨_, _, rfl, hstem⟩
  | partialFile start content =>
    rw [String.append_assoc, head?_dot] at hhead
    exact absurd hhead (by decide)

end Collecting

/-! ## Paths of entries -/

theorem not_mem_of_portable {c : Char} (h : GoodStem stem) (hc : isPortableChar c = false) :
    c ∉ stem.toList := by
  intro hmem
  have hall := List.all_eq_true.mp h.portable c hmem
  rw [hc] at hall
  cases hall

theorem not_mem_json {c : Char} (h : GoodStem stem) (hc : isPortableChar c = false) :
    c ∉ (stem ++ ".json").toList := by
  rw [String.toList_append, List.mem_append]
  rintro (hmem | hmem)
  · exact not_mem_of_portable h hc hmem
  · have hjson : ∀ d ∈ ".json".toList, isPortableChar d = true := List.all_eq_true.mp rfl
    rw [hjson c hmem] at hc
    cases hc

theorem getLast?_json : (stem ++ ".json").toList.getLast? = some 'n' := by
  rw [String.toList_append, List.getLast?_append,
    show ".json".toList.getLast? = some 'n' from by decide, Option.some_or]

/-- A directory and the `/` behind it. -/
structure IsPrefix (start : String) (dir : List Char) : Prop where
  toList : start.toList = dir ++ ['/']
  ne_nil : dir ≠ []
  slash : '/' ∉ dir
  backslash : '\\' ∉ dir
  ne_dot : dir ≠ ['.']
  ne_dots : dir ≠ ['.', '.']

theorem engineRegistryPrefix_isPrefix : IsPrefix engineRegistryPrefix "engine-registry".toList := by
  constructor <;> decide

theorem reportsPrefix_isPrefix : IsPrefix reportsPrefix "reports".toList := by
  constructor <;> decide

theorem ensureSafeArchivePath_file {start : String} {dir : List Char} (hstart : IsPrefix start dir)
    (h : GoodStem stem) : ensureSafeArchivePath (start ++ (stem ++ ".json")) = .ok () := by
  obtain ⟨c, cs, hdir⟩ := List.exists_cons_of_ne_nil hstart.ne_nil
  have htext : (start ++ (stem ++ ".json")).toList = dir ++ '/' :: (stem ++ ".json").toList := by
    rw [String.toList_append, hstart.toList, List.append_assoc]
    rfl
  have hhead : (start ++ (stem ++ ".json")).toList.head? = some c := by
    rw [htext, hdir]
    rfl
  have hc : c ≠ '/' := by
    rintro rfl
    exact hstart.slash (hdir ▸ List.mem_cons_self ..)
  have hparts : (start ++ (stem ++ ".json")).toList.splitOn '/' =
      [dir, (stem ++ ".json").toList] := by
    rw [htext, List.splitOn_append_cons_self_of_not_mem hstart.slash,
      List.splitOn_eq_singleton (not_mem_json h (by decide))]
  have hnormal : normalComponents (start ++ (stem ++ ".json")) = true := by
    rw [normalComponents, hparts, hhead]
    have hdots : ['.', '.'] ≠ (stem ++ ".json").toList := by
      intro hsame
      have hlast := @getLast?_json stem
      rw [← hsame] at hlast
      exact absurd hlast (by decide)
    simp only [decide_eq_true_eq, List.head?_cons, List.mem_cons, List.not_mem_nil, or_false]
    refine ⟨by simpa using hc, by simpa using hstart.ne_dot, ?_⟩
    rintro (hsame | hsame)
    · exact hstart.ne_dots hsame.symm
    · exact hdots hsame
  rw [ensureSafeArchivePath, rejectIf_eq_ok]
  rintro (hempty | hback | hslash | hslash | hparts)
  · rw [hempty] at hhead
    cases hhead
  · rw [htext, List.mem_append, List.mem_cons] at hback
    rcases hback with hback | hback | hback
    · exact hstart.backslash hback
    · exact absurd hback (by decide)
    · exact not_mem_json h (by decide) hback
  · rw [hhead, Option.some.injEq] at hslash
    exact hc hslash
  · rw [String.toList_append, List.getLast?_append, getLast?_json, Option.some_or] at hslash
    exact absurd hslash (by decide)
  · exact hparts hnormal

/-- The stems that a manifest takes. -/
structure PortableStem (stem : String) : Prop where
  short : stem.utf8ByteSize ≤ 128
  ending : stem.toList.getLast? ≠ some '.'
  free : isWindowsReservedStem stem = false

theorem ensurePrefixedJsonPath_eq_ok {start : String} (h : GoodStem stem) :
    ensurePrefixedJsonPath (start ++ (stem ++ ".json")) start = .ok () ↔ PortableStem stem := by
  have hsuffix : stripPrefix start (start ++ (stem ++ ".json")) = some (stem ++ ".json") :=
    stripPrefix_eq_some.mpr rfl
  have hstem : stripSuffix ".json" (stem ++ ".json") = some stem := stripSuffix_eq_some.mpr rfl
  have hvisible : (stem ++ ".json").toList.head? ≠ some '.' := by
    rw [head?_append h.nonempty]
    exact h.visible
  unfold ensurePrefixedJsonPath
  rw [hsuffix, Option.filter_some, if_pos (decide_eq_true ⟨pathExtension_json h.nonempty, hvisible⟩)]
  simp only [hstem, bind_eq_ok, rejectIf_eq_ok]
  constructor
  · rintro ⟨-, -, hgoes⟩
    refine ⟨?_, fun hdot => hgoes (.inr (.inr (.inr (.inl hdot)))), ?_⟩
    · by_contra hlong
      exact hgoes (.inr (.inl (Nat.not_le.mp hlong)))
    · by_contra hreserved
      exact hgoes (.inr (.inr (.inr (.inr (.inr (by simpa using hreserved))))))
  · rintro ⟨hshort, hending, hfree⟩
    refine ⟨(), ?_, ?_⟩
    · rintro (hslash | hslash)
      · exact not_mem_json h (by decide) hslash
      · exact not_mem_json h (by decide) hslash
    · rintro (hempty | hlong | hchars | hdot | hblank | hreserved)
      · exact h.nonempty hempty
      · omega
      · exact hchars h.portable
      · exact hending hdot
      · exact not_mem_of_portable h (by decide) (List.mem_of_getLast? hblank)
      · rw [hfree] at hreserved
        cases hreserved

/-! ## The manifest -/

/-- A SHA-256 digest in hexadecimal. -/
def IsDigest (text : String) : Prop :=
  text.utf8ByteSize = 64 ∧
    (text.toList.all fun c => c.isDigit || ('a' ≤ c && c ≤ 'f') || ('A' ≤ c && c ≤ 'F')) = true

/-- The path is the one of the component. -/
def Placed (entry : StateBundleEntry) : Prop :=
  match entry.component with
  | .database => entry.path = databaseEntry
  | .presets => entry.path = presetsEntry
  | .settings => entry.path = settingsEntry
  | .engineRegistry => ensurePrefixedJsonPath entry.path engineRegistryPrefix = .ok ()
  | .reports => ensurePrefixedJsonPath entry.path reportsPrefix = .ok ()

/-- What `validate_manifest` asks of an entry by itself. -/
structure EntryValid (entry : StateBundleEntry) : Prop where
  safe : ensureSafeArchivePath entry.path = .ok ()
  other : entry.path ≠ manifestEntry
  size : entry.sizeBytes ≤ componentLimit entry.component
  digest : IsDigest entry.sha256
  placed : Placed entry

variable {entry : StateBundleEntry} {entries : List StateBundleEntry} {paths : List String}
  {manifest : StateBundleManifest}

theorem validateEntry_eq_ok {u : Unit} :
    validateEntry paths entry = .ok u ↔ EntryValid entry ∧ entry.path ∉ paths := by
  have hplaced : (match entry.component with
      | .database =>
        rejectIf (entry.path ≠ databaseEntry) "Database entry has an unexpected archive path"
      | .presets =>
        rejectIf (entry.path ≠ presetsEntry) "Preset entry has an unexpected archive path"
      | .settings =>
        rejectIf (entry.path ≠ settingsEntry) "Settings entry has an unexpected archive path"
      | .engineRegistry => ensurePrefixedJsonPath entry.path engineRegistryPrefix
      | .reports => ensurePrefixedJsonPath entry.path reportsPrefix) = .ok () ↔ Placed entry := by
    unfold Placed
    cases entry.component <;> simp
  unfold validateEntry
  simp only [bind_eq_ok, rejectIf_eq_ok]
  constructor
  · rintro ⟨⟨⟩, hsafe, -, hpath, -, hmeta, hplace⟩
    rw [not_or] at hpath
    rw [not_or, not_or, not_lt, not_not, not_not] at hmeta
    exact ⟨⟨hsafe, hpath.1, hmeta.1, hmeta.2, hplaced.mp hplace⟩, hpath.2⟩
  · rintro ⟨⟨hsafe, hother, hsize, hdigest, hplace⟩, hpath⟩
    refine ⟨(), hsafe, (), not_or.mpr ⟨hother, hpath⟩, (), ?_, hplaced.mpr hplace⟩
    rw [not_or, not_or, not_lt, not_not, not_not]
    exact ⟨hsize, hdigest⟩

theorem validateEntries_eq_ok {u : Unit} : validateEntries paths entries = .ok u ↔
    (∀ entry ∈ entries, EntryValid entry ∧ entry.path ∉ paths) ∧
      (entries.map StateBundleEntry.path).Nodup := by
  induction entries generalizing paths with
  | nil => simp [validateEntries]
  | cons entry rest ih =>
    rw [validateEntries, bind_eq_ok]
    simp only [validateEntry_eq_ok, ih, exists_const, List.map_cons, List.nodup_cons]
    constructor
    · rintro ⟨hentry, hrest, hnodup⟩
      refine ⟨fun other hother => ?_, fun hmem => ?_, hnodup⟩
      · rcases List.mem_cons.mp hother with rfl | hother
        · exact hentry
        · have h := hrest other hother
          exact ⟨h.1, fun hmem => h.2 (List.mem_cons_of_mem _ hmem)⟩
      · obtain ⟨other, hother, hsame⟩ := List.mem_map.mp hmem
        exact (hrest other hother).2 (hsame ▸ List.mem_cons_self ..)
    · rintro ⟨hall, hnew, hnodup⟩
      refine ⟨hall entry (List.mem_cons_self ..), fun other hother => ?_, hnodup⟩
      have h := hall other (List.mem_cons_of_mem _ hother)
      refine ⟨h.1, fun hmem => ?_⟩
      rcases List.mem_cons.mp hmem with hsame | hmem
      · exact hnew (hsame ▸ List.mem_map_of_mem hother)
      · exact h.2 hmem

/-- What `validate_manifest` asks of a manifest. -/
structure ManifestValid (manifest : StateBundleManifest) : Prop where
  version : manifest.schemaVersion = applicationStateBundleSchemaVersion
  application : manifest.applicationVersion ≠ "" ∧ manifest.applicationVersion.utf8ByteSize ≤ 64
  database : manifest.components.database = true
  length : manifest.entries.length ≤ maxReportEntries + maxRegistryEntries + 3
  entries : ∀ entry ∈ manifest.entries, EntryValid entry
  nodup : (manifest.entries.map StateBundleEntry.path).Nodup
  oneDatabase : countOf .database manifest.entries = 1
  presets : countOf .presets manifest.entries = manifest.components.presets.toNat
  settings : countOf .settings manifest.entries = manifest.components.settings.toNat
  registry : countOf .engineRegistry manifest.entries ≤ maxRegistryEntries
  reports : countOf .reports manifest.entries ≤ maxReportEntries
  registryFlag : manifest.components.engineRegistry = false →
    countOf .engineRegistry manifest.entries = 0
  reportsFlag : manifest.components.reports = false → countOf .reports manifest.entries = 0

theorem validateManifest_eq_ok : validateManifest manifest = .ok () ↔ ManifestValid manifest := by
  unfold validateManifest
  simp only [bind_eq_ok, rejectIf_eq_ok, validateEntries_eq_ok, List.not_mem_nil,
    not_false_eq_true, and_true, exists_const, not_or, not_not, not_and, not_lt, ne_eq,
    Bool.not_eq_false]
  constructor
  · rintro ⟨hversion, happ, hdb, hlen, ⟨hentries, hnodup⟩, h1, h2, h3, h4, h5, h6, h7⟩
    exact ⟨hversion, happ, hdb, hlen, hentries, hnodup, h1, h2, h3, h4, h5, h6, h7⟩
  · rintro ⟨hversion, happ, hdb, hlen, hentries, hnodup, h1, h2, h3, h4, h5, h6, h7⟩
    exact ⟨hversion, happ, hdb, hlen, ⟨hentries, hnodup⟩, h1, h2, h3, h4, h5, h6, h7⟩

end ApplicationState

end Anole
