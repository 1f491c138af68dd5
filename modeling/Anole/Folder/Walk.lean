import Mathlib.Data.List.Lex
import Anole.Planning.Pdf

/-!
# Folders

Model of paths as `std::path` splits them, of the roots of a folder batch, and of the walk through
a folder (`crates/core/src/application/folder_batch.rs`, lines 56–106, 208–262 and 317–325).

* `walkFrom_ok`: the walk finds the regular files of the tree, each once, and what is discovered is
  found or skipped.
-/

open Common

namespace Anole.Folder

open Anole.Planning (toStr? normalizedTarget failIf failIf_eq_ok)

/-! ## Paths -/

/-- A component of a path (`OsString`). -/
abbrev Name := PathBuf

/-- What a path begins with: `/`, a drive, or a network or device name of Windows. -/
inductive PathRoot where
  | posix
  | disk (drive : Char)
  | verbatimDisk (drive : Char)
  | network (text : String)
  | device (text : String)
  deriving DecidableEq

def PathRoot.text : PathRoot → String
  | posix => "/"
  | disk drive => String.ofList [drive, ':', '\\']
  | verbatimDisk drive => "\\\\?\\" ++ String.ofList [drive, ':', '\\']
  | network text => text
  | device text => text

/-- An absolute path. -/
structure AbsPath where
  root : PathRoot
  components : List Name
  deriving DecidableEq

def AbsPath.join (path : AbsPath) (name : Name) : AbsPath :=
  { path with components := path.components ++ [name] }

/-- `Path::starts_with`. -/
def AbsPath.startsWith (path base : AbsPath) : Bool :=
  path.root = base.root && base.components.isPrefixOf path.components

/-- The operating system: whether it is Windows, and `Path::canonicalize` and `Path::is_dir`. -/
structure System where
  windows : Bool
  canonicalize : PathBuf → Except String AbsPath
  isDir : AbsPath → Bool

def System.separator (system : System) : PathUnit := .char (if system.windows then '\\' else '/')

/-- The path as text. -/
def System.render (system : System) (path : AbsPath) : PathBuf :=
  PathBuf.ofString path.root.text ++ [system.separator].intercalate path.components

/-- `Path::display`. -/
def System.display (system : System) (path : AbsPath) : String :=
  (system.render path).toStringLossy

/-- The bytes of a name, by which names and paths are compared. -/
def nameBytes (name : Name) : List ℕ :=
  name.flatMap fun
    | .char c => (String.utf8EncodeChar c).map UInt8.toNat
    | .illFormed bytes => bytes.map UInt8.toNat

/-- A name before and after its last dot. -/
def splitLastDot (name : Name) : Option (Name × Name) :=
  if .char '.' ∈ name then
    some ((name.reverse.dropWhile (· ≠ .char '.')).tail.reverse,
      (name.reverse.takeWhile (· ≠ .char '.')).reverse)
  else none

/-- `Path::file_stem` of a path that ends in the name. -/
def fileStem (name : Name) : Name :=
  match splitLastDot name with
  | some (before, _) => if before = [] then name else before
  | none => name

/-- `Path::extension` of a path that ends in the name. -/
def extension (name : Name) : Option Name :=
  match splitLastDot name with
  | some (before, after) => if before = [] then none else some after
  | none => none

theorem splitLastDot_append (before : Name) {after : Name} (h : PathUnit.char '.' ∉ after) :
    splitLastDot (before ++ .char '.' :: after) = some (before, after) := by
  have hreverse : (before ++ PathUnit.char '.' :: after).reverse =
      after.reverse ++ .char '.' :: before.reverse := by simp
  have hall : ∀ unit ∈ after.reverse, decide (unit ≠ PathUnit.char '.') = true := fun unit hunit =>
    decide_eq_true fun heq => h (heq ▸ List.mem_reverse.mp hunit)
  rw [splitLastDot, if_pos (by simp), hreverse, List.dropWhile_append_of_pos hall,
    List.takeWhile_append_of_pos hall]
  simp

theorem eq_of_splitLastDot {name before after : Name} (h : splitLastDot name = some (before, after)) :
    name = before ++ .char '.' :: after := by
  have hdot : .char '.' ∈ name := by
    by_contra hnot
    rw [splitLastDot, if_neg hnot] at h
    cases h
  obtain ⟨last, front, hreverse, hlast⟩ := List.eq_append_cons_of_mem (List.mem_reverse.mpr hdot)
  have hname : name = front.reverse ++ .char '.' :: last.reverse := by
    rw [← List.reverse_reverse name, hreverse, List.reverse_append, List.reverse_cons, List.append_assoc]
    rfl
  rw [hname, splitLastDot_append _ (mt List.mem_reverse.mp hlast)] at h
  obtain ⟨hbefore, hafter⟩ := Prod.mk.inj (Option.some.inj h)
  rw [hname, hbefore, hafter]

theorem fileStem_prefix (name : Name) : fileStem name <+: name := by
  rw [fileStem]
  split
  · next before after hsplit =>
    split
    · exact List.prefix_rfl
    · rw [eq_of_splitLastDot hsplit]
      exact List.prefix_append _ _
  · exact List.prefix_rfl

theorem fileStem_ne_nil {name : Name} (h : name ≠ []) : fileStem name ≠ [] := by
  rw [fileStem]
  split
  · split
    · exact h
    · assumption
  · exact h

theorem head?_fileStem (name : Name) : (fileStem name).head? = name.head? := by
  by_cases hnil : name = []
  · rw [hnil]
    rfl
  · obtain ⟨rest, hrest⟩ := fileStem_prefix name
    have hhead : (fileStem name ++ rest).head? = (fileStem name).head? :=
      List.head?_append_of_ne_nil _ (fileStem_ne_nil hnil)
    rw [hrest] at hhead
    exact hhead.symm

/-! ## Roots and extensions -/

/-- `validate_target_extension` (lines 208–226). -/
def validateTargetExtension (value : String) : Except AnoleError String :=
  let normalized := normalizedTarget value
  if normalized = "" ∨ normalized.utf8ByteSize > 16 ∨ ¬ normalized.toList.all Char.isAlphanum then
    .error (.new .inputInvalid .plan "Folder batch target extension is invalid"
      "Choose a target format using 1–16 letters or digits.")
  else .ok (if normalized = "jpeg" then "jpg" else if normalized = "yml" then "yaml" else normalized)

/-- `is_network_or_device_path` (lines 250–262). -/
def isNetworkOrDevicePath (path : PathBuf) : Bool :=
  let rendered := path.toStringLossy.toList
  if "\\\\?\\".toList.isPrefixOf rendered then
    let verbatim := rendered.drop 4
    "UNC\\".toList.isPrefixOf (verbatim.map Char.toUpper) ||
      match verbatim with
      | drive :: colon :: separator :: _ => !drive.isAlpha || colon ≠ ':' || separator ∉ ['\\', '/']
      | _ => true
  else "\\\\".toList.isPrefixOf rendered || "//".toList.isPrefixOf rendered

/-- `folder_io_error` (lines 317–325). -/
def folderIoError (path action diagnostic : String) : AnoleError :=
  (AnoleError.new .inputInvalid .inspect s!"Cannot {action} folder batch path: {path}"
    "Check local folder permissions and retry.").withDiagnostic diagnostic

/-- `canonical_local_directory` (lines 228–248). -/
def canonicalLocalDirectory (system : System) (path : PathBuf) (purpose : String) :
    Except AnoleError AbsPath := do
  failIf (path = [] ∨ isNetworkOrDevicePath path = true)
    (.new .policyBlocked .inspect s!"Folder batch {purpose} root must be a local disk path"
      "Choose a local folder instead of a network or device path.")
  let canonical ← (system.canonicalize path).mapError
    (folderIoError path.toStringLossy s!"resolve the {purpose} root")
  failIf (system.isDir canonical = false ∨ isNetworkOrDevicePath (system.render canonical) = true)
    (.new .inputInvalid .inspect s!"Folder batch {purpose} root is not a local directory"
      "Choose an existing readable local folder.")
  pure canonical

/-! ## The walk -/

/-- What an entry of a folder is. Asking for the type of an entry may fail; and reading a folder may
    fail, with what was tried and a diagnostic. -/
inductive Entry where
  | file
  | link
  | other
  | failed (diagnostic : String)
  | directory (failure : Option (String × String)) (entries : List (Name × Entry))

/-- A directory that is still to be read. -/
structure Pending where
  path : AbsPath
  failure : Option (String × String)
  entries : List (Name × Entry)

/-- `directories`, `files`, `discovered` and `skipped`; the next directory is the first. -/
structure Walk where
  directories : List Pending
  files : List AbsPath
  discovered : ℕ
  skipped : ℕ

/-- `MAX_FOLDER_BATCH_FILES`. -/
def maxFolderBatchFiles : ℕ := 100000

/-- The body of the inner loop (lines 78–104). -/
def visit (system : System) (directory : AbsPath) (walk : Walk) (entry : Name × Entry) :
    Except AnoleError Walk :=
  let path := directory.join entry.1
  match entry.2 with
  | .failed diagnostic => .error (folderIoError (system.display path) "inspect" diagnostic)
  | .link | .other => .ok { walk with discovered := walk.discovered + 1, skipped := walk.skipped + 1 }
  | .directory failure entries =>
    .ok { walk with directories := ⟨path, failure, entries⟩ :: walk.directories }
  | .file =>
    if maxFolderBatchFiles < walk.files.length + 1 then
      .error (.new .resourceExhausted .inspect "Folder batch exceeds the 100,000-file limit"
        "Choose a smaller root or split the work into multiple batches.")
    else .ok { walk with files := walk.files ++ [path], discovered := walk.discovered + 1 }

/-- `entries.sort_by_key(DirEntry::file_name)`, and then the last one first. -/
def visitOrder (entries : List (Name × Entry)) : List (Name × Entry) :=
  (entries.insertionSort fun a b => nameBytes a.1 ≤ nameBytes b.1).reverse

/-- A turn of the outer loop (lines 72–105), on the directory that is popped. -/
def visitDirectory (system : System) (walk : Walk) (directory : Pending) : Except AnoleError Walk :=
  match directory.failure with
  | some (action, diagnostic) =>
    .error (folderIoError (system.display directory.path) action diagnostic)
  | none => (visitOrder directory.entries).foldlM (visit system directory.path) walk

/-- The outer loop; the fuel bounds the number of directories. -/
def walkFolders (system : System) : ℕ → Walk → Except AnoleError Walk
  | 0, walk => .ok walk
  | fuel + 1, walk =>
    match walk.directories with
    | [] => .ok walk
    | directory :: rest => do
      let walk ← visitDirectory system { walk with directories := rest } directory
      walkFolders system fuel walk

mutual

/-- The number of directories of an entry. -/
def Entry.count : Entry → ℕ
  | .directory _ entries => 1 + countIn entries
  | _ => 0

def countIn : List (Name × Entry) → ℕ
  | [] => 0
  | (_, entry) :: entries => entry.count + countIn entries

end

mutual

/-- The regular files at and below a path. -/
def Entry.files (path : AbsPath) : Entry → List AbsPath
  | .file => [path]
  | .directory _ entries => filesIn path entries
  | _ => []

def filesIn (path : AbsPath) : List (Name × Entry) → List AbsPath
  | [] => []
  | (name, entry) :: entries => entry.files (path.join name) ++ filesIn path entries

end

/-! ## What the walk finds -/

theorem countIn_eq (entries : List (Name × Entry)) :
    countIn entries = (entries.map fun entry => entry.2.count).sum := by
  induction entries with
  | nil => rfl
  | cons entry entries ih => rw [countIn, ih, List.map_cons, List.sum_cons]

theorem filesIn_eq (path : AbsPath) (entries : List (Name × Entry)) :
    filesIn path entries = entries.flatMap fun entry => entry.2.files (path.join entry.1) := by
  induction entries with
  | nil => rfl
  | cons entry entries ih => rw [filesIn, ih, List.flatMap_cons]

theorem visitOrder_perm (entries : List (Name × Entry)) : (visitOrder entries).Perm entries :=
  (List.reverse_perm _).trans (List.perm_insertionSort _ _)

/-- The files that are found, and those of the directories that are still to be read. -/
def Walk.reach (walk : Walk) : List AbsPath :=
  walk.files ++ walk.directories.flatMap fun directory => filesIn directory.path directory.entries

/-- The directories that are still to be read, and those below them. -/
def Walk.left (walk : Walk) : ℕ :=
  (walk.directories.map fun directory => 1 + countIn directory.entries).sum

section Walk

variable {system : System} {walk walk' : Walk} {path : AbsPath} {entry : Name × Entry}
  {entries : List (Name × Entry)} {directory : Pending}

/-- A visit adds the files of the entry to what is in reach, and counts the entry. -/
theorem visit_ok (h : visit system path walk entry = .ok walk') :
    walk'.reach.Perm (walk.reach ++ entry.2.files (path.join entry.1)) ∧
      walk'.left = walk.left + entry.2.count ∧
      (walk.discovered = walk.skipped + walk.files.length →
        walk'.discovered = walk'.skipped + walk'.files.length) := by
  obtain ⟨name, entry⟩ := entry
  cases entry with
  | failed diagnostic => exact absurd h (by simp [visit])
  | link | other =>
    rw [← Except.ok.inj h]
    refine ⟨.of_eq (List.append_nil _).symm, rfl, fun hcounts => ?_⟩
    dsimp only
    omega
  | directory failure entries =>
    rw [← Except.ok.inj h]
    refine ⟨?_, ?_, id⟩
    · rw [Walk.reach, Walk.reach, List.flatMap_cons, Entry.files, List.append_assoc]
      exact List.perm_append_comm.append_left _
    · rw [Walk.left, Walk.left, List.map_cons, List.sum_cons, Entry.count, Nat.add_comm]
  | file =>
    rw [visit] at h
    split_ifs at h with hlimit
    rw [← Except.ok.inj h]
    refine ⟨?_, rfl, fun hcounts => ?_⟩
    · rw [Walk.reach, Walk.reach, Entry.files, List.append_assoc, List.append_assoc]
      exact List.perm_append_comm.append_left _
    · dsimp only
      rw [List.length_append, List.length_singleton]
      omega

theorem visits_ok (h : entries.foldlM (visit system path) walk = .ok walk') :
    walk'.reach.Perm (walk.reach ++ filesIn path entries) ∧
      walk'.left = walk.left + countIn entries ∧
      (walk.discovered = walk.skipped + walk.files.length →
        walk'.discovered = walk'.skipped + walk'.files.length) := by
  induction entries generalizing walk with
  | nil =>
    rw [← Except.ok.inj h, filesIn, List.append_nil]
    exact ⟨.refl _, rfl, id⟩
  | cons entry entries ih =>
    rw [List.foldlM_cons] at h
    obtain ⟨middle, hvisit, h⟩ := bind_eq_ok.mp h
    obtain ⟨hreach, hleft, hcounts⟩ := visit_ok hvisit
    obtain ⟨hreach', hleft', hcounts'⟩ := ih h
    refine ⟨?_, ?_, fun hstart => hcounts' (hcounts hstart)⟩
    · rw [filesIn, ← List.append_assoc]
      exact hreach'.trans (hreach.append_right _)
    · rw [hleft', hleft, countIn, Nat.add_assoc]

theorem visitDirectory_ok
    (h : visitDirectory system { walk with directories := rest } directory = .ok walk')
    (hnext : walk.directories = directory :: rest) :
    walk'.reach.Perm walk.reach ∧ walk'.left + 1 = walk.left ∧
      (walk.discovered = walk.skipped + walk.files.length →
        walk'.discovered = walk'.skipped + walk'.files.length) := by
  rw [visitDirectory] at h
  match hfailure : directory.failure with
  | some (action, diagnostic) =>
    rw [hfailure] at h
    exact absurd h (by simp)
  | none =>
    rw [hfailure] at h
    obtain ⟨hreach, hleft, hcounts⟩ := visits_ok h
    have hperm := visitOrder_perm directory.entries
    refine ⟨?_, ?_, hcounts⟩
    · refine hreach.trans ?_
      rw [Walk.reach, Walk.reach, hnext, List.flatMap_cons, filesIn_eq, filesIn_eq, List.append_assoc]
      exact (List.perm_append_comm.trans ((hperm.flatMap_right _).append_right _)).append_left _
    · have hrest : Walk.left { walk with directories := rest } =
          (rest.map fun directory => 1 + countIn directory.entries).sum := rfl
      rw [hleft, hrest, Walk.left, hnext, List.map_cons, List.sum_cons, countIn_eq, countIn_eq,
        (hperm.map _).sum_eq]
      omega

/-- With fuel for every directory the loop ends when all are read; nothing that was in reach is
    lost. -/
theorem walkFolders_ok {fuel : ℕ} (h : walkFolders system fuel walk = .ok walk')
    (hfuel : walk.left ≤ fuel) (hcounts : walk.discovered = walk.skipped + walk.files.length) :
    walk'.files.Perm walk.reach ∧ walk'.discovered = walk'.skipped + walk'.files.length := by
  have hend (final : Walk) (hnone : final.directories = []) : final.reach = final.files := by
    rw [Walk.reach, hnone, List.flatMap_nil, List.append_nil]
  induction fuel generalizing walk with
  | zero =>
    have hnone : walk.directories = [] := by
      match hdirectories : walk.directories with
      | [] => rfl
      | directory :: rest =>
        rw [Walk.left, hdirectories, List.map_cons, List.sum_cons] at hfuel
        omega
    rw [← Except.ok.inj h, hend walk hnone]
    exact ⟨.refl _, hcounts⟩
  | succ fuel ih =>
    rw [walkFolders] at h
    match hdirectories : walk.directories with
    | [] =>
      rw [hdirectories] at h
      rw [← Except.ok.inj h, hend walk hdirectories]
      exact ⟨.refl _, hcounts⟩
    | directory :: rest =>
      rw [hdirectories] at h
      obtain ⟨middle, hvisit, h⟩ := bind_eq_ok.mp h
      obtain ⟨hreach, hleft, hkeeps⟩ := visitDirectory_ok hvisit hdirectories
      obtain ⟨hfiles, hfinal⟩ := ih h (by omega) (hkeeps hcounts)
      exact ⟨hfiles.trans hreach, hfinal⟩

end Walk

/-- The walk through a folder, from its root. -/
def walkFrom (system : System) (path : AbsPath) (failure : Option (String × String))
    (entries : List (Name × Entry)) : Except AnoleError Walk :=
  walkFolders system (1 + countIn entries) ⟨[⟨path, failure, entries⟩], [], 0, 0⟩

/-- The walk finds the regular files of the tree, each once; what is discovered is found or
    skipped. -/
theorem walkFrom_ok {system : System} {path : AbsPath} {failure : Option (String × String)}
    {entries : List (Name × Entry)} {walk : Walk}
    (h : walkFrom system path failure entries = .ok walk) :
    walk.files.Perm (filesIn path entries) ∧ walk.discovered = walk.skipped + walk.files.length := by
  have hreach : Walk.reach ⟨[⟨path, failure, entries⟩], [], 0, 0⟩ = filesIn path entries := by
    rw [Walk.reach, List.nil_append, List.flatMap_singleton]
  rw [← hreach]
  exact walkFolders_ok h (by simp [Walk.left]) rfl

end Anole.Folder
