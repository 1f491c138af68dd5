import Anole.Common.Table
import Anole.Domain

/-!
# Archives of output directories

Model of `zip_directory` (`crates/server/src/web.rs`, lines 1056–1102), operation by operation, as it
reads an output directory and writes an archive.

The zip writer is not part of the source. It is a parameter: what it writes to its file for the entries
that it is given. The archive of some entries is what these writes make of an empty file.

* `Build.Walks.next`: what holds while an archive is built from a directory that nobody changes.
-/

namespace Anole.Web

/-! ## Output directories -/

/-- The name of a file in a directory. -/
abbrev FileName := {units : PathBuf // units ≠ [] ∧ PathUnit.char '/' ∉ units}

/-- A file or a directory (without bytes) below an output directory. -/
structure OutputNode where
  path : List FileName
  bytes : Option (List UInt8)
  deriving DecidableEq

/-- The path of a file relative to the output directory. -/
def relativePath (path : List FileName) : PathBuf := [PathUnit.char '/'].intercalate (path.map Subtype.val)

/-- A file with its relative path. -/
def OutputNode.file? (node : OutputNode) : Option (PathBuf × List UInt8) :=
  node.bytes.map fun bytes => (relativePath node.path, bytes)

/-- An output directory: what is in it lies in its directories. -/
structure OutputTree where
  nodes : List OutputNode
  keyed : Table.Keyed OutputNode.path nodes
  rooted : ∀ node ∈ nodes, ∀ directory ∈ node.path.inits, directory = node.path ∨ ⟨directory, none⟩ ∈ nodes

/-- `Path::is_dir`. -/
def isDir (nodes : List OutputNode) (path : List FileName) : Bool := decide (⟨path, none⟩ ∈ nodes)

/-- `std::fs::read`. -/
def readBytes (nodes : List OutputNode) (path : List FileName) : Option (List UInt8) :=
  (nodes.find? fun node => node.path = path).bind OutputNode.bytes

/-- The names in a directory. -/
def children (nodes : List OutputNode) (directory : List FileName) : List FileName :=
  nodes.filterMap fun node => if node.path.dropLast = directory then node.path.getLast? else none

/-! ## The zip writer -/

/-- What the zip writer is given: a directory, or a file with its bytes. -/
structure ZipEntry where
  name : String
  content : Option (List UInt8)
  deriving DecidableEq

/-- The path and the bytes that an entry stands for. -/
def ZipEntry.file? (entry : ZipEntry) : Option (PathBuf × List UInt8) :=
  entry.content.map fun bytes => (PathBuf.ofString entry.name, bytes)

/-- Bytes that are written at a place of a file. -/
structure FileWrite where
  offset : ℕ
  bytes : List UInt8
  deriving DecidableEq

/-- A file after a write. -/
def FileWrite.apply (content : List UInt8) (write : FileWrite) : List UInt8 :=
  content.take write.offset ++ List.replicate (write.offset - content.length) 0 ++ write.bytes ++
    content.drop (write.offset + write.bytes.length)

/-- `zip::ZipWriter`: what it writes after some entries, when it is given a directory, the name of a file,
    the bytes of that file, and at the end. -/
structure ZipWriter where
  addDirectory : List ZipEntry → String → List FileWrite
  startFile : List ZipEntry → String → List FileWrite
  writeAll : List ZipEntry → String → List UInt8 → List FileWrite
  finish : List ZipEntry → List FileWrite

namespace ZipWriter

variable (zip : ZipWriter)

/-- What is written for an entry. -/
def entryWrites (before : List ZipEntry) (entry : ZipEntry) : List FileWrite :=
  match entry.content with
  | none => zip.addDirectory before entry.name
  | some bytes => zip.startFile before entry.name ++ zip.writeAll before entry.name bytes

/-- What is written for some entries after others. -/
def writesAfter (before : List ZipEntry) : List ZipEntry → List FileWrite
  | [] => []
  | entry :: entries => zip.entryWrites before entry ++ writesAfter (before ++ [entry]) entries

/-- The archive of some entries. -/
def archive (entries : List ZipEntry) : List UInt8 :=
  (zip.writesAfter [] entries ++ zip.finish entries).foldl FileWrite.apply []

theorem writesAfter_snoc (before entries : List ZipEntry) (entry : ZipEntry) :
    zip.writesAfter before (entries ++ [entry]) =
      zip.writesAfter before entries ++ zip.entryWrites (before ++ entries) entry := by
  induction entries generalizing before with
  | nil => simp [writesAfter]
  | cons first entries ih =>
    rw [List.cons_append, writesAfter, writesAfter, ih, List.append_assoc, List.append_assoc, List.singleton_append]

end ZipWriter

/-- **Complete.** The bytes are an archive whose files are those of the output directory, with their relative
    paths and bytes, each once. -/
def Complete (zip : ZipWriter) (tree : OutputTree) (body : List UInt8) : Prop :=
  ∃ entries, body = zip.archive entries ∧
    (entries.filterMap ZipEntry.file?).Perm (tree.nodes.filterMap OutputNode.file?)

/-! ## `zip_directory` -/

/-- What a builder is about: the directories, the end, or the error that it has met. -/
inductive BuildStage where
  | walking | finishing | failing
  deriving DecidableEq

/-- How far `zip_directory` has come with the archive in a file: what the zip writer was given, the directories
    that are pending, the one that is read with the names still to come, the file that was started, what the
    zip writer has still to write. And whether the request that began it is still there. -/
structure Build where
  attended : Bool
  inode : ℕ
  entries : List ZipEntry
  pending : List (List FileName × String)
  directory : List FileName × String
  listing : List FileName
  started : Option (List FileName × String)
  queue : List FileWrite
  stage : BuildStage
  deriving DecidableEq

/-- After `File::create`. -/
def Build.created (inode : ℕ) : Build := ⟨true, inode, [], [([], "")], ([], ""), [], none, [], .walking⟩

/-- The operations of `zip_directory`. -/
inductive BuildStep where
  /-- `read_dir` of the directory on top, with the names that `entries.flatten()` yields -/
  | readDirectory (names : List FileName)
  /-- `is_dir` of the next name, and `add_directory` or `start_file` -/
  | enter
  /-- `read` of the file, and `write_all` -/
  | read
  /-- a write of the zip writer -/
  | write
  | finish
  /-- an operation fails, and the zip writer that is dropped writes the rest -/
  | fail (rest : List FileWrite)

/-- Nothing is to be written, and no file was started. -/
def Build.idle (build : Build) : Prop := build.stage = .walking ∧ build.queue = [] ∧ build.started = none

instance (build : Build) : Decidable build.idle := inferInstanceAs (Decidable (_ ∧ _ ∧ _))

/-- The name of an entry (lines 1077–1082). -/
def archivePath (front : String) (name : FileName) : String :=
  let name := PathBuf.toStringLossy name.val
  if front = "" then name else front ++ "/" ++ name

/-- The builder and its file after an operation. -/
def Build.next (zip : ZipWriter) (nodes : List OutputNode) (build : Build) (content : List UInt8) :
    BuildStep → Option (Build × List UInt8)
  | .readDirectory names =>
    match build.pending with
    | [] => none
    | directory :: pending =>
      if build.idle ∧ build.listing = [] ∧ isDir nodes directory.1 = true ∧ names.Nodup ∧
          names ⊆ children nodes directory.1 then
        some ({ build with pending := pending, directory := directory, listing := names }, content)
      else none
  | .enter =>
    match build.listing with
    | [] => none
    | name :: listing =>
      if build.idle then
        let path := build.directory.1 ++ [name]
        let archivePath := archivePath build.directory.2 name
        if isDir nodes path then
          some ({ build with
            listing := listing
            entries := build.entries ++ [⟨archivePath ++ "/", none⟩]
            queue := zip.addDirectory build.entries (archivePath ++ "/")
            pending := (path, archivePath) :: build.pending }, content)
        else
          some ({ build with
            listing := listing
            started := some (path, archivePath)
            queue := zip.startFile build.entries archivePath }, content)
      else none
  | .read =>
    match build.started with
    | none => none
    | some (path, archivePath) =>
      match readBytes nodes path with
      | none => none
      | some bytes =>
        if build.stage = .walking ∧ build.queue = [] then
          some ({ build with
            started := none
            entries := build.entries ++ [⟨archivePath, some bytes⟩]
            queue := zip.writeAll build.entries archivePath bytes }, content)
        else none
  | .write =>
    match build.queue with
    | [] => none
    | write :: queue => some ({ build with queue := queue }, write.apply content)
  | .finish =>
    if build.idle ∧ build.listing = [] ∧ build.pending = [] then
      some ({ build with stage := .finishing, queue := zip.finish build.entries }, content)
    else none
  | .fail rest =>
    if build.stage ≠ .failing then some ({ build with stage := .failing, queue := rest }, content) else none

/-! ## Directories that nobody changes -/

variable {zip : ZipWriter} {tree : OutputTree} {build built : Build} {content written : List UInt8}
  {walked : List OutputNode} {directory : List FileName}

/-- The files at a path or below it. -/
def OutputTree.below (tree : OutputTree) (path : List FileName) : List OutputNode :=
  tree.nodes.filter fun node => node.bytes.isSome && path.isPrefixOf node.path

theorem OutputTree.below_file {path : List FileName} {bytes : List UInt8} (h : readBytes tree.nodes path = some bytes) :
    tree.below path = [⟨path, some bytes⟩] := by
  obtain ⟨node, hfind, hbytes⟩ := Option.bind_eq_some_iff.mp h
  have hmem := List.mem_of_find?_eq_some hfind
  have hpath : node.path = path := by simpa using List.find?_some hfind
  have hnode : node = ⟨path, some bytes⟩ := by
    cases node
    cases hpath
    cases hbytes
    rfl
  rw [hnode] at hmem
  rw [OutputTree.below, ← tree.keyed.filter_key hmem]
  refine List.filter_congr fun other hother => ?_
  rw [Bool.eq_iff_iff]
  simp only [Bool.and_eq_true, List.isPrefixOf_iff_prefix, decide_eq_true_eq]
  constructor
  · rintro ⟨hsome, hprefix⟩
    rcases tree.rooted other hother path (by simpa using hprefix) with heq | hdirectory
    · exact heq.symm
    · have := tree.keyed.eq hdirectory hmem rfl
      simp at this
  · intro hother'
    have : other = ⟨path, some bytes⟩ := tree.keyed.eq hother hmem hother'
    rw [this]
    simp

/-- The names in a directory are those of the nodes in it. -/
theorem mem_children {nodes : List OutputNode} {name : FileName} :
    name ∈ children nodes directory ↔ ∃ node ∈ nodes, node.path = directory ++ [name] := by
  simp only [children, List.mem_filterMap]
  refine exists_congr fun node => and_congr_right fun _ => ?_
  constructor
  · intro h
    obtain ⟨hinit, hlast⟩ := Option.ite_none_right_eq_some.mp h
    rw [← hinit]
    exact (List.dropLast_append_getLast? name hlast).symm
  · intro h
    rw [h]
    simp

theorem OutputTree.below_directory {names : List FileName}
    (hdirectory : isDir tree.nodes directory = true) (hnodup : names.Nodup)
    (hnames : children tree.nodes directory ⊆ names) :
    (tree.below directory).Perm (names.flatMap fun name => tree.below (directory ++ [name])) := by
  have hone : ∀ node ∈ tree.nodes, ∀ a b : FileName,
      (node.bytes.isSome && (directory ++ [a]).isPrefixOf node.path) = true →
      (node.bytes.isSome && (directory ++ [b]).isPrefixOf node.path) = true → a = b := by
    intro node _ a b ha hb
    simp only [Bool.and_eq_true, List.isPrefixOf_iff_prefix] at ha hb
    have hprefix := List.prefix_of_prefix_length_le ha.2 hb.2 (by simp)
    have heq := hprefix.eq_of_length (by simp)
    simpa using heq
  refine List.Perm.trans (List.Perm.of_eq ?_) (Table.filter_perm_flatMap hnodup hone)
  refine List.filter_congr fun node hnode => ?_
  rw [Bool.eq_iff_iff]
  simp only [Bool.and_eq_true, List.isPrefixOf_iff_prefix, List.any_eq_true]
  constructor
  · rintro ⟨hsome, rest, hrest⟩
    cases rest with
    | nil =>
      rw [List.append_nil] at hrest
      have : node = ⟨directory, none⟩ := tree.keyed.eq hnode (by simpa [isDir] using hdirectory) hrest.symm
      rw [this] at hsome
      simp at hsome
    | cons name rest =>
      have hprefix : directory ++ [name] <+: node.path := ⟨rest, by rw [← hrest]; simp⟩
      refine ⟨name, hnames (mem_children.mpr ?_), hsome, hprefix⟩
      rcases tree.rooted node hnode (directory ++ [name]) (by simpa using hprefix) with heq | hmem
      · exact ⟨node, hnode, heq.symm⟩
      · exact ⟨_, hmem, rfl⟩
  · rintro ⟨name, -, hsome, hprefix⟩
    exact ⟨hsome, (List.prefix_append _ _).trans hprefix⟩

/-! ## Names -/

theorem relativePath_eq_nil {path : List FileName} : relativePath path = [] ↔ path = [] := by
  cases path with
  | nil => simp [relativePath]
  | cons name path =>
    cases path with
    | nil => simp [relativePath, name.property.1]
    | cons next path => simp [relativePath, List.intercalate_cons_cons]

theorem relativePath_snoc (path : List FileName) (name : FileName) :
    relativePath (path ++ [name]) =
      if path = [] then name.val else relativePath path ++ PathUnit.char '/' :: name.val := by
  induction path with
  | nil => simp [relativePath]
  | cons first path ih =>
    rw [if_neg (List.cons_ne_nil _ _)]
    cases path with
    | nil => simp [relativePath, List.intercalate_cons_cons]
    | cons next path =>
      rw [if_neg (List.cons_ne_nil _ _)] at ih
      simp only [relativePath, List.cons_append, List.map_cons, List.intercalate_cons_cons] at ih ⊢
      rw [ih]
      simp

/-- The text is the path of a place. -/
def Named (place : List FileName × String) : Prop := PathBuf.ofString place.2 = relativePath place.1

theorem ofString_eq_nil {text : String} : PathBuf.ofString text = [] ↔ text = "" := by
  simp [PathBuf.ofString]

/-- The name of an entry is the relative path, where the names are Unicode. -/
theorem named_archivePath {front : String} {name : FileName} (h : Named (directory, front))
    (hname : PathBuf.IsUnicode name.val) : Named (directory ++ [name], archivePath front name) := by
  have hempty : front = "" ↔ directory = [] := by
    rw [← ofString_eq_nil, ← relativePath_eq_nil, h]
  have hslash : PathBuf.ofString "/" = [PathUnit.char '/'] := by decide
  unfold Named archivePath
  rw [relativePath_snoc]
  dsimp only
  by_cases hfront : front = ""
  · rw [if_pos hfront, if_pos (hempty.mp hfront), hname.ofString_toStringLossy]
  · rw [if_neg hfront, if_neg fun hnil => hfront (hempty.mpr hnil), PathBuf.ofString_append, PathBuf.ofString_append, h,
      hname.ofString_toStringLossy, hslash]
    simp

/-! ## The walk -/

/-- What is still to be archived lies at these paths and below. -/
def Build.frontier (build : Build) : List (List FileName) :=
  build.started.toList.map Prod.fst ++ build.listing.map (fun name => build.directory.1 ++ [name]) ++
    build.pending.map Prod.fst

/-- What the zip writer writes for what it was given. -/
def Build.promised (zip : ZipWriter) (build : Build) : List FileWrite :=
  zip.writesAfter [] build.entries ++
    match build.stage, build.started with
    | .finishing, _ => zip.finish build.entries
    | _, none => []
    | _, some (_, archivePath) => zip.startFile build.entries archivePath

/-- **The walk.** What is in the archive and what is still to come are the files of the directory. -/
structure Build.Walks (zip : ZipWriter) (tree : OutputTree) (build : Build) (content : List UInt8)
    (walked : List OutputNode) : Prop where
  files : build.entries.filterMap ZipEntry.file? = walked.filterMap OutputNode.file?
  left : (walked ++ build.frontier.flatMap tree.below).Perm (tree.below [])
  written : build.queue.foldl FileWrite.apply content = (build.promised zip).foldl FileWrite.apply []
  named : ∀ place ∈ build.directory :: (build.started.toList ++ build.pending), Named place
  unicode : ∀ name ∈ build.listing, PathBuf.IsUnicode name.val
  stage : build.stage = .walking ∨ build.stage = .finishing ∧ build.frontier = []

/-- Every entry of a directory is read, and the names are Unicode. -/
def BuildStep.Whole (nodes : List OutputNode) (build : Build) : BuildStep → Prop
  | .readDirectory names => ∀ directory ∈ build.pending.head?,
      children nodes directory.1 ⊆ names ∧ ∀ name ∈ names, PathBuf.IsUnicode name.val
  | _ => True

instance (path : PathBuf) : Decidable path.IsUnicode :=
  decidable_of_iff (PathBuf.ofString path.toStringLossy = path)
    ⟨fun h => ⟨_, h.symm⟩, PathBuf.IsUnicode.ofString_toStringLossy⟩

instance (nodes : List OutputNode) (build : Build) : (step : BuildStep) → Decidable (step.Whole nodes build)
  | .readDirectory names =>
    inferInstanceAs (Decidable (∀ directory ∈ build.pending.head?,
      (∀ name ∈ children nodes directory.1, name ∈ names) ∧ ∀ name ∈ names, PathBuf.IsUnicode name.val))
  | .enter | .read | .write | .finish | .fail _ => isTrue trivial

theorem Build.Walks.created (inode : ℕ) : (Build.created inode).Walks zip tree [] [] where
  files := rfl
  left := by simp [Build.created, Build.frontier]
  written := rfl
  named := by simp [Build.created, Named, relativePath, PathBuf.ofString]
  unicode := by simp [Build.created]
  stage := .inl rfl

variable {step : BuildStep}

theorem Build.Walks.readDirectory (h : build.Walks zip tree content walked) {names : List FileName}
    (hnext : build.next zip tree.nodes content (.readDirectory names) = some (built, written))
    (hwhole : (BuildStep.readDirectory names).Whole tree.nodes build) : built.Walks zip tree written walked := by
  simp only [Build.next] at hnext
  split at hnext
  · cases hnext
  · rename_i directory pending hpending
    obtain ⟨⟨⟨hstage, hqueue, hstarted⟩, hlisting, hdirectory, hnodup, -⟩, hnext⟩ :=
      Option.ite_none_right_eq_some.mp hnext
    cases hnext
    obtain ⟨hchildren, hunicode⟩ := hwhole directory (by rw [hpending]; rfl)
    have hbelow := tree.below_directory hdirectory hnodup hchildren
    have hleft := h.left
    have hnamed := h.named
    simp only [Build.frontier, hstarted, hlisting, hpending, Option.toList_none, List.map_nil, List.nil_append,
      List.map_cons, List.flatMap_cons, List.mem_cons] at hleft hnamed
    refine ⟨h.files, ?_, ?_, ?_, hunicode, .inl hstage⟩
    · refine List.Perm.trans (List.Perm.append_left _ ?_) hleft
      simp only [Build.frontier, hstarted, Option.toList_none, List.map_nil, List.nil_append, List.flatMap_append,
        List.flatMap_map]
      exact hbelow.symm.append_right _
    · simpa [Build.promised, hstarted] using h.written
    · simp only [hstarted, Option.toList_none, List.nil_append, List.mem_cons]
      rintro place (rfl | hplace)
      · exact hnamed _ (.inr (.inl rfl))
      · exact hnamed _ (.inr (.inr hplace))

theorem Build.Walks.enter (h : build.Walks zip tree content walked)
    (hnext : build.next zip tree.nodes content .enter = some (built, written)) :
    built.Walks zip tree written walked := by
  simp only [Build.next] at hnext
  split at hnext
  · cases hnext
  · rename_i name listing hlisting
    obtain ⟨⟨hstage, hqueue, hstarted⟩, hnext⟩ := Option.ite_none_right_eq_some.mp hnext
    have hleft := h.left
    have hwritten := h.written
    have hunicode := h.unicode
    simp only [Build.frontier, hstarted, hlisting, Option.toList_none, List.map_nil, List.nil_append, List.map_cons,
      List.cons_append, List.flatMap_cons, List.flatMap_append] at hleft
    simp only [Build.promised, hqueue, hstage, hstarted, List.foldl_nil, List.append_nil] at hwritten
    simp only [hlisting, List.forall_mem_cons] at hunicode
    have hname : Named (build.directory.1 ++ [name], archivePath build.directory.2 name) :=
      named_archivePath (h.named _ List.mem_cons_self) hunicode.1
    split at hnext
    · cases hnext
      refine ⟨?_, ?_, ?_, ?_, hunicode.2, .inl hstage⟩
      · rw [List.filterMap_append, h.files]
        exact List.append_nil _
      · refine List.Perm.trans (List.Perm.append_left _ ?_) hleft
        simp only [Build.frontier, hstarted, Option.toList_none, List.map_nil, List.nil_append, List.map_cons,
          List.flatMap_append, List.flatMap_cons]
        exact List.perm_append_comm_assoc _ _ _
      · simp only [Build.promised, hstage, hstarted, List.append_nil]
        rw [hwritten, zip.writesAfter_snoc, List.foldl_append]
        rfl
      · intro place hplace
        simp only [hstarted, Option.toList_none, List.nil_append, List.mem_cons] at hplace
        rcases hplace with rfl | rfl | hplace
        · exact h.named _ List.mem_cons_self
        · exact hname
        · exact h.named _ (List.mem_cons_of_mem _ (List.mem_append_right _ hplace))
    · cases hnext
      refine ⟨h.files, ?_, ?_, ?_, hunicode.2, .inl hstage⟩
      · simpa [Build.frontier] using hleft
      · simp only [Build.promised, hstage]
        rw [hwritten, List.foldl_append]
      · intro place hplace
        simp only [Option.toList_some, List.mem_cons, List.singleton_append] at hplace
        rcases hplace with rfl | rfl | hplace
        · exact h.named _ List.mem_cons_self
        · exact hname
        · exact h.named _ (List.mem_cons_of_mem _ (List.mem_append_right _ hplace))

theorem Build.Walks.read (h : build.Walks zip tree content walked)
    (hnext : build.next zip tree.nodes content .read = some (built, written)) :
    ∃ walked, built.Walks zip tree written walked := by
  simp only [Build.next] at hnext
  split at hnext
  · cases hnext
  · rename_i path archivePath hstarted
    split at hnext
    · cases hnext
    · rename_i bytes hbytes
      obtain ⟨⟨hstage, hqueue⟩, hnext⟩ := Option.ite_none_right_eq_some.mp hnext
      cases hnext
      have hleft := h.left
      have hwritten := h.written
      have hname : Named (path, archivePath) := h.named _ (by simp [hstarted])
      simp only [Build.frontier, hstarted, Option.toList_some, List.map_cons, List.map_nil,
        List.cons_append, List.flatMap_cons, tree.below_file hbytes] at hleft
      simp only [Build.promised, hqueue, hstage, hstarted, List.foldl_nil] at hwritten
      refine ⟨walked ++ [⟨path, some bytes⟩], ?_, ?_, ?_, ?_, h.unicode, .inl hstage⟩
      · rw [List.filterMap_append, List.filterMap_append, h.files]
        simp only [List.filterMap_cons, List.filterMap_nil, ZipEntry.file?, OutputNode.file?, Option.map_some]
        rw [hname]
      · simpa [Build.frontier] using hleft
      · simp only [Build.promised, hstage, List.append_nil]
        rw [hwritten, zip.writesAfter_snoc, ← List.foldl_append, List.append_assoc]
        rfl
      · intro place hplace
        simp only [Option.toList_none, List.nil_append, List.mem_cons] at hplace
        rcases hplace with rfl | hplace
        · exact h.named _ List.mem_cons_self
        · exact h.named _ (List.mem_cons_of_mem _ (List.mem_append_right _ hplace))

theorem Build.Walks.finish (h : build.Walks zip tree content walked)
    (hnext : build.next zip tree.nodes content .finish = some (built, written)) :
    built.Walks zip tree written walked := by
  simp only [Build.next] at hnext
  obtain ⟨⟨⟨hstage, hqueue, hstarted⟩, hlisting, hpending⟩, hnext⟩ := Option.ite_none_right_eq_some.mp hnext
  cases hnext
  have hwritten := h.written
  simp only [Build.promised, hqueue, hstage, hstarted, List.foldl_nil, List.append_nil] at hwritten
  refine ⟨h.files, h.left, ?_, h.named, h.unicode, .inr ⟨rfl, ?_⟩⟩
  · simp only [Build.promised]
    rw [hwritten, List.foldl_append]
  · simp [Build.frontier, hstarted, hlisting, hpending]

/-- **One operation** that does not fail keeps the walk. -/
theorem Build.Walks.next (h : build.Walks zip tree content walked)
    (hnext : build.next zip tree.nodes content step = some (built, written)) (hwhole : step.Whole tree.nodes build)
    (hfail : ∀ rest, step ≠ .fail rest) : ∃ walked, built.Walks zip tree written walked := by
  cases step with
  | readDirectory names => exact ⟨walked, h.readDirectory hnext hwhole⟩
  | enter => exact ⟨walked, h.enter hnext⟩
  | read => exact h.read hnext
  | finish => exact ⟨walked, h.finish hnext⟩
  | write =>
    simp only [Build.next] at hnext
    split at hnext
    · cases hnext
    · rename_i write queue hqueue
      cases hnext
      have hwritten := h.written
      rw [hqueue, List.foldl_cons] at hwritten
      exact ⟨walked, h.files, h.left, hwritten, h.named, h.unicode, h.stage⟩
  | fail rest => exact absurd rfl (hfail rest)

/-- The archive is complete when the zip writer has finished. -/
theorem Build.Walks.complete (h : build.Walks zip tree content walked) (hstage : build.stage = .finishing)
    (hqueue : build.queue = []) : Complete zip tree content := by
  have hfrontier : build.frontier = [] := by
    rcases h.stage with hwalking | ⟨-, hfrontier⟩
    · rw [hstage] at hwalking
      cases hwalking
    · exact hfrontier
  have hwritten := h.written
  have hleft := h.left
  rw [hfrontier, List.flatMap_nil, List.append_nil] at hleft
  simp only [hqueue, Build.promised, hstage, List.foldl_nil] at hwritten
  refine ⟨build.entries, hwritten, ?_⟩
  rw [h.files]
  refine (hleft.filterMap OutputNode.file?).trans (List.Perm.of_eq ?_)
  rw [OutputTree.below, List.filterMap_filter]
  refine List.filterMap_congr fun node _ => ?_
  cases hbytes : node.bytes <;> simp [OutputNode.file?, hbytes]

/-- Whether the request is still there does not concern the walk. -/
theorem Build.Walks.attended (h : build.Walks zip tree content walked) (attended : Bool) :
    { build with attended := attended }.Walks zip tree content walked :=
  ⟨h.files, h.left, h.written, h.named, h.unicode, h.stage⟩

theorem Build.next_keeps {nodes : List OutputNode} (hnext : build.next zip nodes content step = some (built, written)) :
    built.inode = build.inode ∧ (build.stage = .failing → built.stage = .failing) := by
  cases step with
  | readDirectory names =>
    simp only [Build.next] at hnext
    split at hnext
    · cases hnext
    · obtain ⟨-, hnext⟩ := Option.ite_none_right_eq_some.mp hnext
      cases hnext
      exact ⟨rfl, id⟩
  | enter =>
    simp only [Build.next] at hnext
    split at hnext
    · cases hnext
    · obtain ⟨-, hnext⟩ := Option.ite_none_right_eq_some.mp hnext
      split at hnext
      · cases hnext
        exact ⟨rfl, id⟩
      · cases hnext
        exact ⟨rfl, id⟩
  | read =>
    simp only [Build.next] at hnext
    split at hnext
    · cases hnext
    · split at hnext
      · cases hnext
      · obtain ⟨-, hnext⟩ := Option.ite_none_right_eq_some.mp hnext
        cases hnext
        exact ⟨rfl, id⟩
  | write =>
    simp only [Build.next] at hnext
    split at hnext
    · cases hnext
    · cases hnext
      exact ⟨rfl, id⟩
  | finish =>
    obtain ⟨⟨⟨hwalking, -, -⟩, -⟩, hnext⟩ := Option.ite_none_right_eq_some.mp hnext
    cases hnext
    refine ⟨rfl, fun hfailing => ?_⟩
    rw [hwalking] at hfailing
    cases hfailing
  | fail rest =>
    obtain ⟨-, hnext⟩ := Option.ite_none_right_eq_some.mp hnext
    cases hnext
    exact ⟨rfl, fun _ => rfl⟩

end Anole.Web
