import Anole.Execution.Chain

/-!
# The staging names of two jobs

Model of `cleanup_staged_output` and `remove_staged_path` (`crates/core/src/runner.rs`, lines 4705–4719
and 4750–4778) on a tree of files, for the names of `staged_output_candidates`.

* `officeWorkName_eq_iff`: the short name holds the first 48 bits of an identifier.
* `cleanup_frame`: a cleanup changes nothing outside the candidates of its job.
* `staging_apart_iff`: when the staging paths of two jobs are apart, and a cleanup for one of them
  leaves the other's paths alone.

**Deviation.** `office_staged_work_path` shortens the identifier to 12 digits, so that two jobs with
outputs in one directory can share their work path.
-/

open Common

namespace Anole.Chain

open Anole.Folder (AbsPath Name System)
open Anole.Planning (toStr?)

/-! ## Removal -/

/-- What stands at a path. A link is also any reparse point of Windows. -/
inductive NodeKind where
  | file | directory | link
  deriving DecidableEq

abbrev FileTree := AbsPath → Option NodeKind

/-- How the removal of a file or a directory ends. One that fails may leave a directory half removed. -/
inductive Removal where
  | removed
  | vanished
  | failed (diagnostic : String) (gone : AbsPath → Bool)

/-- The file system that a cleanup runs on. -/
structure CleanupDisk extends System where
  ensureLocal : PathBuf → Except AnoleError Unit
  resolve : PathBuf → Except AnoleError AbsPath
  unreadable : AbsPath → Option String
  removal : AbsPath → Removal

/-- `staged_cleanup_error` (lines 4791–4799). -/
def stagedCleanupError (disk : CleanupDisk) (partialPath : AbsPath) (diagnostic : String) : AnoleError :=
  (AnoleError.new .storageFailed .commit s!"Unable to remove staged output: {disk.display partialPath}"
    "Close processes using the file and retry recovery.").withDiagnostic diagnostic

/-- The tree without the paths below a path that are gone. -/
def FileTree.without (tree : FileTree) (path : AbsPath) (gone : AbsPath → Bool) : FileTree :=
  fun other => if other.startsWith path && gone other then none else tree other

/-- `remove_staged_path` (lines 4750–4778). -/
def removeStagedPath (disk : CleanupDisk) (partialPath : AbsPath) (tree : FileTree) :
    Except AnoleError Bool × FileTree :=
  match disk.unreadable partialPath, tree partialPath with
  | some diagnostic, _ => (.error (stagedCleanupError disk partialPath diagnostic), tree)
  | none, none => (.ok false, tree)
  | none, some .link =>
    (.error (.new .policyBlocked .commit
      s!"Refusing to remove a linked or reparse staging path: {disk.display partialPath}"
      "Inspect or quarantine the unexpected staging link manually."), tree)
  | none, some kind =>
    match disk.removal partialPath with
    | .removed =>
      -- `remove_dir_all` takes what is below the path, `remove_file` the path
      (.ok true, tree.without partialPath fun other => kind = .directory || other = partialPath)
    | .vanished => (.ok false, tree)
    | .failed diagnostic gone =>
      (.error (stagedCleanupError disk partialPath diagnostic), tree.without partialPath gone)

/-- The loop of `cleanup_staged_output` (lines 4714–4717). -/
def removeStagedPaths (disk : CleanupDisk) : List AbsPath → Bool → FileTree → Except AnoleError Bool × FileTree
  | [], removed, tree => (.ok removed, tree)
  | partialPath :: rest, removed, tree =>
    match removeStagedPath disk partialPath tree with
    | (.ok now, tree) => removeStagedPaths disk rest (removed || now) tree
    | (.error error, tree) => (.error error, tree)

/-- `cleanup_staged_output` (lines 4710–4719). -/
def cleanupStagedOutput (disk : CleanupDisk) (output : PathBuf) (jobId : Uuid) (tree : FileTree) :
    Except AnoleError Bool × FileTree :=
  match (do
    disk.ensureLocal output
    let resolved ← disk.resolve output
    stagedOutputCandidates resolved jobId) with
  | .ok candidates => removeStagedPaths disk candidates false tree
  | .error error => (.error error, tree)

section Frame

variable {disk : CleanupDisk} {partialPath path : AbsPath} {paths : List AbsPath} {tree : FileTree} {removed : Bool}

theorem without_frame {gone : AbsPath → Bool} (h : path.startsWith partialPath = false) :
    tree.without partialPath gone path = tree path := by
  rw [FileTree.without, h]
  rfl

/-- One removal leaves the tree, or takes something below its path. -/
theorem removeStagedPath_cases (disk : CleanupDisk) (partialPath : AbsPath) (tree : FileTree) :
    (removeStagedPath disk partialPath tree).2 = tree ∨
      ∃ gone, (removeStagedPath disk partialPath tree).2 = tree.without partialPath gone := by
  unfold removeStagedPath
  split
  · exact .inl rfl
  · exact .inl rfl
  · exact .inl rfl
  · split
    · exact .inr ⟨_, rfl⟩
    · exact .inl rfl
    · exact .inr ⟨_, rfl⟩

theorem removeStagedPath_frame (h : path.startsWith partialPath = false) :
    (removeStagedPath disk partialPath tree).2 path = tree path := by
  rcases removeStagedPath_cases disk partialPath tree with htree | ⟨gone, htree⟩
  · rw [htree]
  · rw [htree, without_frame h]

theorem removeStagedPaths_frame (h : ∀ partialPath ∈ paths, path.startsWith partialPath = false) :
    (removeStagedPaths disk paths removed tree).2 path = tree path := by
  induction paths generalizing removed tree with
  | nil => rfl
  | cons partialPath rest ih =>
    obtain ⟨hfirst, hrest⟩ := List.forall_mem_cons.mp h
    have hone : (removeStagedPath disk partialPath tree).2 path = tree path := removeStagedPath_frame hfirst
    rw [removeStagedPaths]
    split
    · next now after heq =>
      rw [ih hrest, ← hone, heq]
    · next error after heq => rw [← hone, heq]

/-- **A cleanup** changes nothing outside the candidates of its job. -/
theorem cleanup_frame {output : PathBuf} {resolved : AbsPath} {jobId : Uuid} (hresolve : disk.resolve output = .ok resolved)
    (h : ¬ Recoverable resolved jobId path) : (cleanupStagedOutput disk output jobId tree).2 path = tree path := by
  unfold cleanupStagedOutput
  split
  · next candidates hcandidates =>
    obtain ⟨_, -, hcandidates⟩ := bind_eq_ok.mp hcandidates
    rw [hresolve] at hcandidates
    refine removeStagedPaths_frame fun candidate hmem => Bool.eq_false_iff.mpr fun hinside => h ?_
    exact ⟨candidates, hcandidates, candidate, hmem, hinside⟩
  · rfl

end Frame

/-! ## Names -/

section Names

variable {a b : Uuid} {fileName fileName' : String}

theorem length_hexDigits (width n : ℕ) : (hexDigits width n).length = width := by
  induction width generalizing n with
  | zero => rfl
  | succ width ih => rw [hexDigits, List.length_append, ih, List.length_singleton]

theorem take_hexDigits (width extra n : ℕ) :
    (hexDigits (width + extra) n).take width = hexDigits width (n / 16 ^ extra) := by
  induction extra generalizing n with
  | zero =>
    rw [Nat.pow_zero, Nat.div_one, Nat.add_zero, List.take_of_length_le (length_hexDigits width n).le]
  | succ extra ih =>
    have hlength : width ≤ (hexDigits (width + extra) (n / 16)).length := by
      rw [length_hexDigits]
      omega
    rw [← Nat.add_assoc, hexDigits, List.take_append_of_le_length hlength, ih, Nat.div_div_eq_div_mul,
      Nat.pow_succ']

theorem length_toText (id : Uuid) : id.toText.toList.length = 36 := by
  rw [Uuid.toText, String.toList_ofList]
  simp [length_hexDigits]

/-- The short name holds the first 48 bits of an identifier. -/
theorem officeWorkName_eq_iff : officeWorkName a = officeWorkName b ↔ a.toNat / 2 ^ 80 = b.toNat / 2 ^ 80 := by
  have hname : ∀ id : Uuid, officeWorkName id =
      PathBuf.ofString (".fw-" ++ String.ofList (hexDigits 12 (id.toNat / 2 ^ 80))) := by
    intro id
    rw [officeWorkName, take_hexDigits 12 20, show (16 : ℕ) ^ 20 = 2 ^ 80 by decide]
  rw [hname, hname]
  constructor
  · intro h
    have htext := congrArg String.toList (PathBuf.ofString_injective h)
    rw [String.toList_append, String.toList_append, List.append_cancel_left_eq, String.toList_ofList,
      String.toList_ofList] at htext
    have hvalue := congrArg hexValue htext
    have ha := a.isLt
    have hb := b.isLt
    rw [hexValue_hexDigits, hexValue_hexDigits] at hvalue
    omega
  · intro h
    rw [h]

/-- The names that a job stages under. -/
def stagingNames (jobId : Uuid) (fileName : String) : List Name :=
  [partialName jobId fileName, officeWorkName jobId, chainStagingName jobId]

theorem partialName_eq (h : partialName a fileName = partialName b fileName') : a = b := by
  have htext := congrArg String.toList (PathBuf.ofString_injective h)
  simp only [String.toList_append, List.append_assoc, List.append_cancel_left_eq] at htext
  have hlength : a.toText.toList.length = b.toText.toList.length := by rw [length_toText, length_toText]
  exact Uuid.toText_injective (String.toList_injective (List.append_inj_left htext hlength))

theorem chainStagingName_eq (h : chainStagingName a = chainStagingName b) : a = b := by
  have htext := congrArg String.toList (PathBuf.ofString_injective h)
  rw [String.toList_append, String.toList_append, List.append_cancel_left_eq] at htext
  exact Uuid.toText_injective (String.toList_injective htext)

theorem partialName_ne_chain : partialName a fileName ≠ chainStagingName b := by
  have hsplit : ".fw-chain-" = ".fw-" ++ "chain-" := by decide
  rw [chainStagingName, hsplit, String.append_assoc]
  exact partialName_ne_fw

theorem officeWorkName_ne_chain : officeWorkName a ≠ chainStagingName b := by
  intro h
  rw [officeWorkName, chainStagingName] at h
  have hlength := congrArg (List.length ∘ String.toList) (PathBuf.ofString_injective h)
  simp [length_toText, length_hexDigits] at hlength

/-- Two jobs share no name but the short one. -/
theorem stagingNames_apart {name : Name} (hne : a ≠ b) (ha : name ∈ stagingNames a fileName)
    (hb : name ∈ stagingNames b fileName') : officeWorkName a = officeWorkName b := by
  simp only [stagingNames, List.mem_cons, List.not_mem_nil, or_false] at ha hb
  rcases ha with ha | ha | ha <;> rcases hb with hb | hb | hb <;> have h := ha.symm.trans hb
  · exact absurd (partialName_eq h) hne
  · exact absurd h partialName_ne_fw
  · exact absurd h partialName_ne_chain
  · exact absurd h.symm partialName_ne_fw
  · exact h
  · exact absurd h officeWorkName_ne_chain
  · exact absurd h.symm partialName_ne_chain
  · exact absurd h.symm officeWorkName_ne_chain
  · exact absurd (chainStagingName_eq h) hne

end Names

/-! ## Paths -/

section Paths

variable {path p q : AbsPath} {n m : Name} {output : AbsPath} {jobId : Uuid} {candidates : List AbsPath}

theorem startsWith_iff : path.startsWith p = true ↔ path.root = p.root ∧ p.components <+: path.components := by
  rw [AbsPath.startsWith, Bool.and_eq_true, decide_eq_true_eq, List.isPrefixOf_iff_prefix]

theorem startsWith_trans (h : path.startsWith p = true) (hp : p.startsWith q = true) : path.startsWith q = true := by
  rw [startsWith_iff] at h hp ⊢
  exact ⟨h.1.trans hp.1, hp.2.trans h.2⟩

theorem join_startsWith : (p.join n).startsWith p = true := startsWith_iff.mpr ⟨rfl, List.prefix_append _ _⟩

theorem startsWith_self : path.startsWith path = true := startsWith_iff.mpr ⟨rfl, List.prefix_refl _⟩

theorem join_injective (h : p.join n = q.join m) : p = q ∧ n = m := by
  obtain ⟨root, components⟩ := p
  obtain ⟨root', components'⟩ := q
  simp only [AbsPath.join, AbsPath.mk.injEq] at h
  obtain ⟨rfl, hcomponents⟩ := h
  obtain ⟨rfl, hname⟩ := List.append_inj' hcomponents rfl
  exact ⟨rfl, List.singleton_inj.mp hname⟩

/-- A path inside another that is not that one lies inside its parent. -/
theorem join_startsWith_cases (h : (q.join m).startsWith p = true) : q.join m = p ∨ q.startsWith p = true := by
  rw [startsWith_iff] at h ⊢
  obtain ⟨hroot, hprefix⟩ := h
  rcases List.prefix_concat_iff.mp hprefix with hcomponents | hcomponents
  · left
    obtain ⟨root, components⟩ := p
    exact congrArg₂ AbsPath.mk hroot hcomponents.symm
  · exact .inr ⟨hroot, hcomponents⟩

/-- Of two paths that a path lies in, one is the other or lies in its parent. -/
theorem startsWith_join_cases (hn : path.startsWith (p.join n) = true) (hm : path.startsWith (q.join m) = true) :
    p.join n = q.join m ∨ q.startsWith (p.join n) = true ∨ p.startsWith (q.join m) = true := by
  obtain ⟨hroot, hprefix⟩ := startsWith_iff.mp hn
  obtain ⟨hroot', hprefix'⟩ := startsWith_iff.mp hm
  rcases List.prefix_or_prefix_of_prefix hprefix hprefix' with hinside | hinside
  · rcases join_startsWith_cases (startsWith_iff.mpr ⟨hroot'.symm.trans hroot, hinside⟩) with heq | hparent
    · exact .inl heq.symm
    · exact .inr (.inl hparent)
  · rcases join_startsWith_cases (startsWith_iff.mpr ⟨hroot.symm.trans hroot', hinside⟩) with heq | hparent
    · exact .inl heq
    · exact .inr (.inr hparent)

theorem stagedOutputCandidates_eq (h : stagedOutputCandidates output jobId = .ok candidates) :
    ∃ parent fileName, parent? output = some parent ∧ output.startsWith parent = true ∧
      candidates = (stagingNames jobId fileName).map parent.join := by
  cases hparent : parent? output with
  | none =>
    have hoffice : officeStagedWorkPath output jobId = .error (.new .inputInvalid .plan
        "Office output path has no parent directory" "Choose a complete output path.") := by
      rw [officeStagedWorkPath, hparent]
    obtain ⟨_, -, hrest⟩ := bind_eq_ok.mp h
    rw [hoffice] at hrest
    cases hrest
  | some parent =>
    obtain ⟨name, hname, houtput, hsibling⟩ := parent_eq_some hparent
    rw [stagedOutputCandidates, stagedOutputPath, officeStagedWorkPath, hparent] at h
    cases hfile : (fileName? output).bind toStr? with
    | none =>
      rw [hfile] at h
      cases h
    | some fileName =>
      simp only [hfile, hsibling] at h
      cases h
      exact ⟨parent, fileName, rfl, houtput ▸ join_startsWith, rfl⟩

end Paths

/-! ## Two jobs -/

section Jobs

/-- A path that some job stages under. -/
def HiddenStagingName (path : AbsPath) : Prop :=
  ∃ output jobId candidates, stagedOutputCandidates output jobId = .ok candidates ∧ path ∈ candidates

/-- The cleanup of the job of one output leaves another output and what its job stages. -/
def CleanupSpares (output : AbsPath) (jobId : Uuid) (other : AbsPath) (others : List AbsPath) : Prop :=
  ∀ (disk : CleanupDisk) (requested : PathBuf) (tree : FileTree), disk.resolve requested = .ok output →
    ∀ path, (path = other ∨ ∃ candidate ∈ others, path.startsWith candidate = true) →
      (cleanupStagedOutput disk requested jobId tree).2 path = tree path

/-- The staging paths of two jobs are apart from each other and from the outputs, and a cleanup for one job
    leaves what the other has. -/
structure StagingApart (first second : AbsPath) (a b : Uuid) (candidates candidates' : List AbsPath) : Prop where
  disjoint : candidates.Disjoint candidates'
  firstOutput : first ∉ candidates'
  secondOutput : second ∉ candidates
  spares : CleanupSpares first a second candidates'
  spares' : CleanupSpares second b first candidates

variable {first second : AbsPath} {a b : Uuid} {candidates candidates' : List AbsPath}

/-- Paths of two jobs that lie in one another, where neither output lies in what the other job stages. -/
theorem candidates_unrelated (hne : a ≠ b) (hfirst : stagedOutputCandidates first a = .ok candidates)
    (hsecond : stagedOutputCandidates second b = .ok candidates')
    (hwork : parent? first = parent? second → a.toNat / 2 ^ 80 ≠ b.toNat / 2 ^ 80)
    (hin : ¬ Recoverable first a second) (hin' : ¬ Recoverable second b first)
    {path candidate candidate' : AbsPath} (hcandidate : candidate ∈ candidates) (hcandidate' : candidate' ∈ candidates')
    (hpath : path.startsWith candidate = true) : path.startsWith candidate' = false := by
  rw [Bool.eq_false_iff]
  intro hpath'
  obtain ⟨parent, fileName, hparent, hbelow, rfl⟩ := stagedOutputCandidates_eq hfirst
  obtain ⟨parent', fileName', hparent', hbelow', rfl⟩ := stagedOutputCandidates_eq hsecond
  have hinside : second.startsWith candidate = false :=
    Bool.eq_false_iff.mpr fun hstarts => hin ⟨_, hfirst, candidate, hcandidate, hstarts⟩
  have hinside' : first.startsWith candidate' = false :=
    Bool.eq_false_iff.mpr fun hstarts => hin' ⟨_, hsecond, candidate', hcandidate', hstarts⟩
  obtain ⟨name, hname, rfl⟩ := List.mem_map.mp hcandidate
  obtain ⟨name', hname', rfl⟩ := List.mem_map.mp hcandidate'
  rcases startsWith_join_cases hpath hpath' with heq | hparents | hparents
  · obtain ⟨rfl, rfl⟩ := join_injective heq
    exact hwork (hparent.trans hparent'.symm) (officeWorkName_eq_iff.mp (stagingNames_apart hne hname hname'))
  · rw [startsWith_trans hbelow' hparents] at hinside
    cases hinside
  · rw [startsWith_trans hbelow hparents] at hinside'
    cases hinside'

/-- A disk on which every removal works. -/
def obligingDisk (output : AbsPath) : CleanupDisk where
  windows := false
  canonicalize _ := .error "unavailable"
  isDir _ := true
  ensureLocal _ := .ok ()
  resolve _ := .ok output
  unreadable _ := none
  removal _ := .removed

/-- The tree consists of directories, each inside the directories above it. -/
structure FileTree.AllDirectories (tree : FileTree) : Prop where
  kinds : ∀ path kind, tree path = some kind → kind = .directory
  nested : ∀ path inner : AbsPath, inner.startsWith path = true → tree path = none → tree inner = none

theorem obliging_step (output path : AbsPath) {tree : FileTree} (h : tree.AllDirectories) :
    ∃ removed after, removeStagedPath (obligingDisk output) path tree = (.ok removed, after) ∧ after.AllDirectories ∧
      ∀ other, (other.startsWith path = true ∨ tree other = none) → after other = none := by
  cases hkind : tree path with
  | none =>
    refine ⟨false, tree, by rw [removeStagedPath, hkind]; rfl, h, ?_⟩
    rintro other (hinside | hnone)
    · exact h.nested path other hinside hkind
    · exact hnone
  | some kind =>
    have hdirectory := h.kinds path kind hkind
    subst hdirectory
    have hafter : ∀ other, tree.without path (fun other => .directory = NodeKind.directory || other = path) other =
        if other.startsWith path = true then none else tree other := by
      intro other
      rw [FileTree.without]
      simp
    refine ⟨true, _, by rw [removeStagedPath, hkind]; rfl, ⟨fun other kind hother => ?_, ?_⟩, ?_⟩
    · rw [hafter] at hother
      split at hother
      · cases hother
      · exact h.kinds other kind hother
    · intro outer inner hinner hnone
      rw [hafter] at hnone ⊢
      split
      · rfl
      · next houtside =>
        split at hnone
        · next hinside => exact absurd (startsWith_trans hinner hinside) houtside
        · exact h.nested outer inner hinner hnone
    · intro other hother
      rw [hafter]
      split
      · rfl
      · next houtside => exact hother.resolve_left houtside

theorem obliging_run (output : AbsPath) {paths : List AbsPath} {removed : Bool} {tree : FileTree} (h : tree.AllDirectories)
    {other : AbsPath} (hother : (∃ path ∈ paths, other.startsWith path = true) ∨ tree other = none) :
    (removeStagedPaths (obligingDisk output) paths removed tree).2 other = none := by
  induction paths generalizing removed tree with
  | nil => exact hother.resolve_left (by simp)
  | cons path rest ih =>
    obtain ⟨now, after, hstep, hafter, hgone⟩ := obliging_step output path h
    rw [removeStagedPaths, hstep]
    refine ih hafter ?_
    rcases hother with ⟨inside, hmem, hstarts⟩ | hnone
    · rcases List.mem_cons.mp hmem with rfl | hmem
      · exact .inr (hgone other (.inl hstarts))
      · exact .inl ⟨inside, hmem, hstarts⟩
    · exact .inr (hgone other (.inr hnone))

theorem CleanupSpares.not_recoverable {others : List AbsPath} (h : CleanupSpares first a second others) :
    ¬ Recoverable first a second := by
  rintro ⟨candidates, hcandidates, hinside⟩
  let tree : FileTree := fun _ => some .directory
  have htree : tree.AllDirectories := ⟨fun _ _ hkind => (Option.some.inj hkind).symm, fun _ _ _ hnone => nomatch hnone⟩
  have hcleanup : cleanupStagedOutput (obligingDisk first) [] a tree =
      removeStagedPaths (obligingDisk first) candidates false tree := by
    show (match stagedOutputCandidates first a with
      | .ok candidates => removeStagedPaths (obligingDisk first) candidates false tree
      | .error error => (.error error, tree)) = _
    rw [hcandidates]
  have hkept := h (obligingDisk first) [] tree rfl second (.inl rfl)
  rw [hcleanup, obliging_run first htree (.inl hinside)] at hkept
  cases hkept

/-- **Staging names.** -/
theorem staging_apart_iff (hne : a ≠ b) (hfirst : stagedOutputCandidates first a = .ok candidates)
    (hsecond : stagedOutputCandidates second b = .ok candidates') :
    StagingApart first second a b candidates candidates' ↔
      (parent? first = parent? second → a.toNat / 2 ^ 80 ≠ b.toNat / 2 ^ 80) ∧
      ¬ Recoverable first a second ∧ ¬ Recoverable second b first := by
  constructor
  · intro h
    refine ⟨fun hparents hwork => ?_, h.spares.not_recoverable, h.spares'.not_recoverable⟩
    obtain ⟨parent, fileName, hparent, -, rfl⟩ := stagedOutputCandidates_eq hfirst
    obtain ⟨parent', fileName', hparent', -, rfl⟩ := stagedOutputCandidates_eq hsecond
    rw [hparent, hparent', Option.some.injEq] at hparents
    subst hparents
    have hmem : parent.join (officeWorkName a) ∈ (stagingNames a fileName).map parent.join :=
      List.mem_map_of_mem (List.mem_cons_of_mem _ List.mem_cons_self)
    have hmem' : parent.join (officeWorkName b) ∈ (stagingNames b fileName').map parent.join :=
      List.mem_map_of_mem (List.mem_cons_of_mem _ List.mem_cons_self)
    rw [← officeWorkName_eq_iff.mpr hwork] at hmem'
    exact h.disjoint hmem hmem'
  · rintro ⟨hwork, hin, hin'⟩
    have hunrelated : ∀ {path candidate candidate' : AbsPath}, candidate ∈ candidates → candidate' ∈ candidates' →
        path.startsWith candidate = true → ¬ path.startsWith candidate' = true :=
      fun hcandidate hcandidate' hpath =>
        Bool.eq_false_iff.mp (candidates_unrelated hne hfirst hsecond hwork hin hin' hcandidate hcandidate' hpath)
    refine ⟨fun path hmem hmem' => hunrelated hmem hmem' startsWith_self startsWith_self,
      fun hmem => hin' ⟨_, hsecond, first, hmem, startsWith_self⟩,
      fun hmem => hin ⟨_, hfirst, second, hmem, startsWith_self⟩, ?_, ?_⟩
    · intro disk requested tree hresolve path hpath
      refine cleanup_frame hresolve ?_
      rintro ⟨found, hfound, candidate, hcandidate, hinside⟩
      rcases hpath with rfl | ⟨candidate', hcandidate', hinside'⟩
      · exact hin ⟨found, hfound, candidate, hcandidate, hinside⟩
      · cases hfirst.symm.trans hfound
        exact hunrelated hcandidate hcandidate' hinside hinside'
    · intro disk requested tree hresolve path hpath
      refine cleanup_frame hresolve ?_
      rintro ⟨found, hfound, candidate', hcandidate', hinside'⟩
      rcases hpath with rfl | ⟨candidate, hcandidate, hinside⟩
      · exact hin' ⟨found, hfound, candidate', hcandidate', hinside'⟩
      · cases hsecond.symm.trans hfound
        exact hunrelated hcandidate hcandidate' hinside hinside'

end Jobs

/-! ## Two jobs with one work path -/

namespace StagingSample

def output : AbsPath := ⟨.posix, [PathBuf.ofString "out", PathBuf.ofString "report.pdf"]⟩

/-- Two identifiers that differ in the last digit. -/
def first : Uuid := 0x0123456789ab4def8123456789abcde0

def second : Uuid := 0x0123456789ab4def8123456789abcde1

def candidates (jobId : Uuid) : List AbsPath :=
  (stagingNames jobId "report.pdf").map (AbsPath.join ⟨.posix, [PathBuf.ofString "out"]⟩)

theorem candidates_eq (jobId : Uuid) : stagedOutputCandidates output jobId = .ok (candidates jobId) := rfl

/-- Staging names begin with a dot. -/
theorem not_hidden : ¬ HiddenStagingName output := by
  rintro ⟨other, jobId, found, hfound, hmem⟩
  obtain ⟨parent, fileName, -, -, rfl⟩ := stagedOutputCandidates_eq hfound
  obtain ⟨name, hname, heq⟩ := List.mem_map.mp hmem
  have hhead : name.head? = some (.char '.') := by
    simp only [stagingNames, List.mem_cons, List.not_mem_nil, or_false] at hname
    rcases hname with h | h | h
    · simp [h, partialName, PathBuf.ofString]
    · simp [h, officeWorkName, PathBuf.ofString]
    · simp [h, chainStagingName, PathBuf.ofString]
  have hlast : name = PathBuf.ofString "report.pdf" :=
    (join_injective (heq.trans (show output = AbsPath.join ⟨.posix, [PathBuf.ofString "out"]⟩
      (PathBuf.ofString "report.pdf") from rfl))).2
  rw [hlast] at hhead
  exact absurd hhead (by decide)

/-- **Two jobs of one output share a work path.** -/
theorem work_path_shared :
    first ≠ second ∧ ¬ HiddenStagingName output ∧
      stagedOutputCandidates output first = .ok (candidates first) ∧
      stagedOutputCandidates output second = .ok (candidates second) ∧
      ¬ StagingApart output output first second (candidates first) (candidates second) := by
  refine ⟨by decide, not_hidden, candidates_eq first, candidates_eq second, fun h => ?_⟩
  have hshared : officeWorkName first = officeWorkName second := officeWorkName_eq_iff.mpr (by decide)
  have hmem : ∀ jobId, AbsPath.join ⟨.posix, [PathBuf.ofString "out"]⟩ (officeWorkName jobId) ∈ candidates jobId :=
    fun jobId => List.mem_map_of_mem (List.mem_cons_of_mem _ List.mem_cons_self)
  exact h.disjoint (hmem first) (hshared ▸ hmem second)

theorem staging_apart_other :
    StagingApart output output first 2 (candidates first) (candidates 2) ↔
      (parent? output = parent? output → first.toNat / 2 ^ 80 ≠ (2 : Uuid).toNat / 2 ^ 80) ∧
        ¬ Recoverable output first output ∧ ¬ Recoverable output 2 output :=
  staging_apart_iff (by decide) (candidates_eq first) (candidates_eq 2)

end StagingSample

end Anole.Chain
