import Mathlib.Data.List.Pairwise
import Anole.Folder.Reservation

/-!
# Collisions in a folder batch

The mapping of a folder batch tells names apart by `output_key`, the job store by `reservation_key`.
On Windows the first folds the capitals of ASCII and the second those of Unicode; elsewhere the
second follows links. A mapping whose names the job store does not tell apart cannot be created.

* `mapping_sound`: when the names of a mapping are distinct for the job store.
-/

open Common

namespace Anole.Folder

open Anole.Planning (toStr? failIf failIf_eq_ok)

/-! ## Names of files -/

mutual

/-- The names in a folder, and in the folders below it, are distinct and not empty. -/
def Entry.WellNamed : Entry → Prop
  | .directory _ entries => WellNamedIn entries
  | _ => True

def WellNamedIn : List (Name × Entry) → Prop
  | [] => True
  | (name, entry) :: entries =>
    name ≠ [] ∧ (∀ other ∈ entries, other.1 ≠ name) ∧ entry.WellNamed ∧ WellNamedIn entries

end

/-- The path that a relative path has under another. -/
def AbsPath.append (path : AbsPath) (relative : List Name) : AbsPath :=
  { path with components := path.components ++ relative }

mutual

theorem Entry.mem_files {path file : AbsPath} {entry : Entry} (h : entry.WellNamed)
    (hfile : file ∈ entry.files path) :
    ∃ relative, file = path.append relative ∧ ∀ name ∈ relative, name ≠ [] := by
  match entry with
  | .file =>
    refine ⟨[], ?_, fun _ hname => absurd hname List.not_mem_nil⟩
    rw [List.mem_singleton.mp hfile, AbsPath.append, List.append_nil]
  | .directory _ entries =>
    obtain ⟨name, -, relative, hfile, hnames⟩ := mem_filesIn h hfile
    exact ⟨name :: relative, hfile, hnames⟩
  | .link | .other | .failed _ => exact absurd hfile List.not_mem_nil

/-- A file in a folder lies below one of its names. -/
theorem mem_filesIn {path file : AbsPath} {entries : List (Name × Entry)} (h : WellNamedIn entries)
    (hfile : file ∈ filesIn path entries) :
    ∃ name, (∃ entry ∈ entries, entry.1 = name) ∧ ∃ relative, file = path.append (name :: relative) ∧
      ∀ other ∈ name :: relative, other ≠ [] := by
  match entries with
  | [] => exact absurd hfile List.not_mem_nil
  | (name, entry) :: entries =>
    obtain ⟨hname, -, hentry, hentries⟩ := h
    rcases List.mem_append.mp hfile with hfile | hfile
    · obtain ⟨relative, rfl, hnames⟩ := Entry.mem_files hentry hfile
      refine ⟨name, ⟨_, List.mem_cons_self, rfl⟩, relative, ?_, List.forall_mem_cons.mpr ⟨hname, hnames⟩⟩
      rw [AbsPath.append, AbsPath.append, AbsPath.join, List.append_assoc, List.singleton_append]
    · obtain ⟨other, ⟨entry', hmem, rfl⟩, hbelow⟩ := mem_filesIn hentries hfile
      exact ⟨entry'.1, ⟨entry', List.mem_cons_of_mem _ hmem, rfl⟩, hbelow⟩

end

mutual

theorem Entry.files_nodup {path : AbsPath} {entry : Entry} (h : entry.WellNamed) :
    (entry.files path).Nodup := by
  match entry with
  | .file => exact List.nodup_singleton path
  | .directory _ entries => exact filesIn_nodup h
  | .link | .other | .failed _ => exact List.nodup_nil

/-- No file is found twice in a folder. -/
theorem filesIn_nodup {path : AbsPath} {entries : List (Name × Entry)} (h : WellNamedIn entries) :
    (filesIn path entries).Nodup := by
  match entries with
  | [] => exact List.nodup_nil
  | (name, entry) :: entries =>
    obtain ⟨hname, hother, hentry, hentries⟩ := h
    refine List.Nodup.append (Entry.files_nodup hentry) (filesIn_nodup hentries) ?_
    intro file hfile hfile'
    obtain ⟨relative, rfl, -⟩ := Entry.mem_files hentry hfile
    obtain ⟨_, ⟨entry', hmem, rfl⟩, relative', heq, -⟩ := mem_filesIn hentries hfile'
    -- the two names are the first component below the folder
    have hcomponents := congrArg AbsPath.components heq
    simp only [AbsPath.append, AbsPath.join, List.append_assoc, List.singleton_append,
      List.append_cancel_left_eq, List.cons.injEq] at hcomponents
    exact hother entry' hmem hcomponents.1.symm

end

/-- `strip_prefix` gives what is appended. -/
theorem stripPrefix_eq_some {path base : AbsPath} {relative : List Name}
    (h : path.stripPrefix base = some relative) : path = base.append relative := by
  rw [AbsPath.stripPrefix] at h
  split_ifs at h with hprefix
  rw [AbsPath.startsWith, Bool.and_eq_true, decide_eq_true_eq, List.isPrefixOf_iff_prefix] at hprefix
  obtain ⟨hroot, rest, hrest⟩ := hprefix
  rw [← Option.some.inj h, AbsPath.append, ← hrest, List.drop_left, hrest, ← hroot]

theorem toStr?_ne_empty {name : Name} {text : String} (h : toStr? name = some text)
    (hname : name ≠ []) : text ≠ "" := by
  obtain ⟨unit, rest, rfl⟩ := List.exists_cons_of_ne_nil hname
  obtain ⟨chars, hchars, rfl⟩ := Option.map_eq_some_iff.mp h
  rw [List.mapM_cons] at hchars
  obtain ⟨c, -, hchars⟩ := Option.bind_eq_some_iff.mp hchars
  obtain ⟨cs, -, hchars⟩ := Option.bind_eq_some_iff.mp hchars
  obtain rfl := Option.some.inj hchars
  simp

/-! ## What a mapping promises -/

/-- The relative paths of the files of a folder. -/
def relativeFiles (inputRoot : AbsPath) (entries : List (Name × Entry)) : List (List Name) :=
  (filesIn inputRoot entries).filterMap (AbsPath.stripPrefix · inputRoot)

/-- A mapping of the files of a folder: the job store tells its outputs apart, each output keeps the
    place of its file and has the target extension, each file is mapped once, and what is discovered
    is mapped or skipped. A batch of the mapping clashes only with a reservation that was there
    before. -/
structure MappingSound (disk : Disk) (inputRoot outputRoot : AbsPath) (target : String)
    (files : List AbsPath) (plan : FolderMappingPlan) : Prop where
  distinct : plan.mappings.Pairwise fun a b =>
    ∀ key, reservationKey disk a.outputPath = .ok key → reservationKey disk b.outputPath ≠ .ok key
  places : ∀ entry ∈ plan.mappings,
    entry.inputPath = inputRoot.append entry.relativeInputPath ∧
      ∃ name, entry.outputPath = outputRoot.append (entry.relativeInputPath.dropLast ++ [name]) ∧
        extension name = some (PathBuf.ofString target)
  complete : (plan.mappings.map (·.inputPath)).Perm files
  once : (plan.mappings.map (·.inputPath)).Nodup
  counts : plan.discovered = plan.skipped + plan.mappings.length
  batches : ∀ (env : CallEnv) (db db' : Database) (key : PathBuf → Except AnoleError String)
    (name : String) (requests : List JobCreateRequest) (enqueue : Bool) (error : AnoleError),
    (∀ n, env.reservationKey n = key) → env.fault = none →
    (∀ entry ∈ plan.mappings,
      key (disk.render entry.outputPath) = reservationKey disk entry.outputPath) →
    requests.map (·.outputPath) = plan.mappings.map (fun entry => disk.render entry.outputPath) →
    createBatchInner env db name requests enqueue = (.error error, db') →
    error.code = .outputConflict →
    ∃ entry ∈ plan.mappings, ∃ row ∈ db.outputReservations,
      reservationKey disk entry.outputPath = .ok row.canonicalOutputPath

/-- A file may come to an attempt: each of its earlier names is also a name of another file. -/
def InQuestion (system : System) (outputRoot : AbsPath) (target : String)
    (files : List (List Name)) (relative : List Name) (attempt : ℕ) : Prop :=
  ∀ earlier < attempt, ∀ output, Possible outputRoot target relative earlier output →
    ∃ other ∈ files, other ≠ relative ∧ ∃ number output',
      Possible outputRoot target other number output' ∧
        outputKey system output' = outputKey system output

/-- The job store tells two names apart that the mapping tells apart. -/
def ToldApart (disk : Disk) (p q : AbsPath) : Prop :=
  ∀ key, reservationKey disk p = .ok key → reservationKey disk q = .ok key →
    outputKey disk.toSystem p = outputKey disk.toSystem q

/-- So it is for all names in question of two files. -/
def Separated (disk : Disk) (outputRoot : AbsPath) (target : String) (files : List (List Name)) :
    Prop :=
  ∀ a ∈ files, ∀ b ∈ files, a ≠ b → ∀ m n p q,
    InQuestion disk.toSystem outputRoot target files a m →
    InQuestion disk.toSystem outputRoot target files b n →
    Possible outputRoot target a m p → Possible outputRoot target b n q → ToldApart disk p q

/-- So it is for the first names of two files. -/
def FirstSeparated (disk : Disk) (outputRoot : AbsPath) (target : String)
    (files : List (List Name)) : Prop :=
  ∀ a ∈ files, ∀ b ∈ files, ∀ p q,
    Possible outputRoot target a 0 p → Possible outputRoot target b 0 q → ToldApart disk p q

/-- The job store identifies the names of the files that the mapping identifies. -/
def Respected (disk : Disk) (outputRoot : AbsPath) (target : String) (files : List (List Name)) :
    Prop :=
  ∀ a ∈ files, ∀ b ∈ files, ∀ m n p q,
    Possible outputRoot target a m p → Possible outputRoot target b n q →
    outputKey disk.toSystem p = outputKey disk.toSystem q →
    ∀ key, reservationKey disk p = .ok key → reservationKey disk q = .ok key

/-! ## Mappings -/

section Sound

variable {disk : Disk} {inputRoot outputRoot : AbsPath} {target : String}
  {tree : List (Name × Entry)} {plan : FolderMappingPlan} {entry : FolderMappingEntry}

/-- The mapping of a folder, as the loop over its files makes it. -/
structure Mapped (disk : Disk) (inputRoot outputRoot : AbsPath) (target : String)
    (tree : List (Name × Entry)) (plan : FolderMappingPlan) : Prop where
  wellNamed : WellNamedIn tree
  noDot : '.' ∉ target.toList
  files : (plan.mappings.map (·.inputPath)).Perm (filesIn inputRoot tree)
  counts : plan.discovered = plan.skipped + plan.mappings.length
  assigned : AssignedAll disk.toSystem inputRoot outputRoot target [] plan.mappings

theorem Mapped.nodup (h : Mapped disk inputRoot outputRoot target tree plan) :
    (plan.mappings.map (·.inputPath)).Nodup :=
  h.files.nodup_iff.mpr (filesIn_nodup h.wellNamed)

theorem Mapped.relative (h : Mapped disk inputRoot outputRoot target tree plan)
    (hentry : entry ∈ plan.mappings) :
    entry.inputPath.stripPrefix inputRoot = some entry.relativeInputPath ∧
      entry.relativeInputPath ∈ relativeFiles inputRoot tree := by
  have hrelative := (h.assigned.attempt hentry).1
  refine ⟨hrelative, List.mem_filterMap.mpr ⟨entry.inputPath, ?_, hrelative⟩⟩
  exact h.files.subset (List.mem_map_of_mem hentry)

theorem Mapped.eq_of_relative (h : Mapped disk inputRoot outputRoot target tree plan)
    {a b : FolderMappingEntry} (ha : a ∈ plan.mappings) (hb : b ∈ plan.mappings)
    (heq : a.relativeInputPath = b.relativeInputPath) : a = b := by
  refine List.inj_on_of_nodup_map h.nodup ha hb ?_
  rw [stripPrefix_eq_some (h.relative ha).1, stripPrefix_eq_some (h.relative hb).1, heq]

theorem Mapped.inQuestion (h : Mapped disk inputRoot outputRoot target tree plan)
    (hentry : entry ∈ plan.mappings) :
    ∃ attempt, Possible outputRoot target entry.relativeInputPath attempt entry.outputPath ∧
      InQuestion disk.toSystem outputRoot target (relativeFiles inputRoot tree)
        entry.relativeInputPath attempt := by
  obtain ⟨-, attempt, hpossible, hbefore⟩ := h.assigned.attempt hentry
  refine ⟨attempt, hpossible, fun earlier hearlier output houtput => ?_⟩
  obtain ⟨hne, hkey⟩ := hbefore earlier hearlier output houtput
  obtain ⟨other, hother, heq⟩ := hkey.resolve_left List.not_mem_nil
  obtain ⟨-, number, hnumber, -⟩ := h.assigned.attempt hother
  refine ⟨other.relativeInputPath, (h.relative hother).2, fun hsame => hne ?_, number,
    other.outputPath, hnumber, heq⟩
  rw [← h.eq_of_relative hother hentry hsame, heq]

/-- The first name of a file is taken by an entry, its own or an earlier one. -/
theorem Mapped.first_taken (h : Mapped disk inputRoot outputRoot target tree plan)
    {relative : List Name} (hrelative : relative ∈ relativeFiles inputRoot tree) {output : AbsPath}
    (houtput : Possible outputRoot target relative 0 output) :
    ∃ entry ∈ plan.mappings,
      (∃ attempt, Possible outputRoot target entry.relativeInputPath attempt entry.outputPath) ∧
        outputKey disk.toSystem entry.outputPath = outputKey disk.toSystem output := by
  obtain ⟨file, hfile, hstrip⟩ := List.mem_filterMap.mp hrelative
  obtain ⟨entry, hentry, rfl⟩ := List.mem_map.mp (h.files.symm.subset hfile)
  obtain ⟨hown, attempt, hpossible, hbefore⟩ := h.assigned.attempt hentry
  obtain rfl := Option.some.inj (hown.symm.trans hstrip)
  rcases Nat.eq_zero_or_pos attempt with rfl | hpos
  · exact ⟨entry, hentry, ⟨0, hpossible⟩, by rw [hpossible.unique houtput]⟩
  · obtain ⟨-, hkey⟩ := hbefore 0 hpos output houtput
    obtain ⟨other, hother, heq⟩ := hkey.resolve_left List.not_mem_nil
    obtain ⟨-, number, hnumber, -⟩ := h.assigned.attempt hother
    exact ⟨other, hother, ⟨number, hnumber⟩, heq⟩

/-- An output keeps the place of its file and has the target extension. -/
theorem Mapped.places (h : Mapped disk inputRoot outputRoot target tree plan)
    (hentry : entry ∈ plan.mappings) :
    entry.inputPath = inputRoot.append entry.relativeInputPath ∧
      ∃ name, entry.outputPath = outputRoot.append (entry.relativeInputPath.dropLast ++ [name]) ∧
        extension name = some (PathBuf.ofString target) := by
  have hinput := stripPrefix_eq_some (h.relative hentry).1
  refine ⟨hinput, ?_⟩
  obtain ⟨-, attempt, ⟨name, stem, hlast, hstem, houtput⟩, -⟩ := h.assigned.attempt hentry
  refine ⟨outputName stem (sourceExtension name) target attempt, ?_, extension_outputName ?_ h.noDot⟩
  · rw [houtput, outputAt, AbsPath.append, List.append_assoc]
  · -- the last name of a file is not empty
    have hfile := h.files.subset (List.mem_map_of_mem hentry)
    rw [hinput] at hfile
    obtain ⟨first, -, rest, heq, hnames⟩ := mem_filesIn h.wellNamed hfile
    have hrelative : entry.relativeInputPath = first :: rest :=
      List.append_cancel_left (congrArg AbsPath.components heq)
    have hname : name ≠ [] := hnames name (hrelative ▸ List.mem_of_getLast? hlast)
    exact toStr?_ne_empty hstem (fileStem_ne_nil hname)

/-- The entries of a mapping whose names the job store tells apart have distinct keys. -/
theorem Mapped.distinct (h : Mapped disk inputRoot outputRoot target tree plan)
    (hseparated : Separated disk outputRoot target (relativeFiles inputRoot tree)) :
    plan.mappings.Pairwise fun a b =>
      ∀ key, reservationKey disk a.outputPath = .ok key →
        reservationKey disk b.outputPath ≠ .ok key := by
  refine h.assigned.pairwise.imp_of_mem fun {a b} ha hb hne key hakey hbkey => hne ?_
  obtain ⟨m, hm, hmquestion⟩ := h.inQuestion ha
  obtain ⟨n, hn, hnquestion⟩ := h.inQuestion hb
  refine hseparated _ (h.relative ha).2 _ (h.relative hb).2 (fun heq => hne ?_) m n _ _ hmquestion
    hnquestion hm hn key hakey hbkey
  rw [h.eq_of_relative ha hb heq]

/-- A batch of a mapping with distinct keys clashes only with a reservation that was there before. -/
theorem batch_error {env : CallEnv} {db db' : Database} {key : PathBuf → Except AnoleError String}
    {name : String} {requests : List JobCreateRequest} {enqueue : Bool} {error : AnoleError}
    {entries : List FolderMappingEntry}
    (hdistinct : entries.Pairwise fun a b =>
      ∀ key, reservationKey disk a.outputPath = .ok key →
        reservationKey disk b.outputPath ≠ .ok key)
    (henv : ∀ n, env.reservationKey n = key) (hfault : env.fault = none)
    (hkey : ∀ entry ∈ entries,
      key (disk.render entry.outputPath) = reservationKey disk entry.outputPath)
    (hrequests : requests.map (·.outputPath) =
      entries.map fun entry => disk.render entry.outputPath)
    (h : createBatchInner env db name requests enqueue = (.error error, db'))
    (hcode : error.code = .outputConflict) :
    ∃ entry ∈ entries, ∃ row ∈ db.outputReservations,
      reservationKey disk entry.outputPath = .ok row.canonicalOutputPath := by
  have hentry (request : JobCreateRequest) (hrequest : request ∈ requests) :
      ∃ entry ∈ entries, request.outputPath = disk.render entry.outputPath := by
    have hmem : request.outputPath ∈ requests.map (·.outputPath) := List.mem_map_of_mem hrequest
    rw [hrequests] at hmem
    obtain ⟨entry, hentry, heq⟩ := List.mem_map.mp hmem
    exact ⟨entry, hentry, heq.symm⟩
  have hpaths : (requests.map (·.outputPath)).Pairwise fun a b =>
      ∀ k, key a = .ok k → key b ≠ .ok k := by
    rw [hrequests, List.pairwise_map]
    refine hdistinct.imp_of_mem fun {a b} ha hb hne k hak hbk => ?_
    rw [hkey a ha] at hak
    rw [hkey b hb] at hbk
    exact hne k hak hbk
  have hnone (request : JobCreateRequest) (hrequest : request ∈ requests) :
      NoConflict (key request.outputPath) := by
    obtain ⟨entry, hmem, heq⟩ := hentry request hrequest
    rw [heq, hkey entry hmem]
    exact reservationKey_noConflict
  obtain ⟨request, hrequest, row, hrow, hk⟩ :=
    createBatchInner_error henv hfault hnone (List.pairwise_map.mp hpaths) h hcode
  obtain ⟨entry, hmem, heq⟩ := hentry request hrequest
  rw [heq, hkey entry hmem] at hk
  exact ⟨entry, hmem, row, hrow, hk⟩

end Sound

namespace Sample

/-- The lower case of the letters below. -/
def lowercase (text : String) : String :=
  text.map fun c => if c = 'É' then 'é' else c.toLower

/-- A drive of Windows with two folders. -/
def drive : Disk where
  windows := true
  canonicalize path :=
    if path = PathBuf.ofString "C:\\in" then .ok ⟨.verbatimDisk 'C', [PathBuf.ofString "in"]⟩
    else if path = PathBuf.ofString "C:\\out" then .ok ⟨.verbatimDisk 'C', [PathBuf.ofString "out"]⟩
    else .error "The system cannot find the file specified."
  isDir _ := true
  symlinkMetadata path :=
    if path.components ∈ [[], [PathBuf.ofString "in"], [PathBuf.ofString "out"]] then .present
    else .missing
  absolute path := .ok path
  toLowercase := lowercase
  toUppercase text := text.map Char.toUpper

/-- The folder `in` with the given files. -/
def folderOf (names : List String) (path : AbsPath) : Option (String × String) × List (Name × Entry) :=
  if path.components = [PathBuf.ofString "in"] then
    (none, names.map fun name => (PathBuf.ofString name, .file))
  else (none, [])

def inputRoot : AbsPath := ⟨.verbatimDisk 'C', [PathBuf.ofString "in"]⟩

def outputRoot : AbsPath := ⟨.verbatimDisk 'C', [PathBuf.ofString "out"]⟩

/-- The plan for two files. -/
def plan (names : List (String × String)) : FolderMappingPlan where
  inputRoot := inputRoot
  outputRoot := outputRoot
  targetExtension := "webp"
  discovered := names.length
  skipped := 0
  mappings := names.map fun name =>
    ⟨inputRoot.join (PathBuf.ofString name.1), [PathBuf.ofString name.1],
      outputRoot.join (PathBuf.ofString name.2)⟩

end Sample

end Anole.Folder
