import Anole.Folder.Walk

/-!
# The mapping of a folder batch

Model of `FolderBatchService::preview_mapping` (`crates/core/src/application/folder_batch.rs`,
lines 44–142 and 264–315): the files of a folder are mapped to names under another folder, and a
file whose name is taken gets a longer one.

* `mapFiles_ok`: what the loop over the files has done.
* `previewMapping_ok`: the shape of a plan.
-/

open Common

namespace Anole.Folder

open Anole.Planning (toStr? failIf failIf_eq_ok)

/-- `FolderMappingEntry`. -/
structure FolderMappingEntry where
  inputPath : AbsPath
  relativeInputPath : List Name
  outputPath : AbsPath
  deriving DecidableEq

/-- `FolderMappingPlan`. -/
structure FolderMappingPlan where
  inputRoot : AbsPath
  outputRoot : AbsPath
  targetExtension : String
  discovered : ℕ
  skipped : ℕ
  mappings : List FolderMappingEntry
  deriving DecidableEq

/-! ## Names -/

/-- `Path::strip_prefix`. -/
def AbsPath.stripPrefix (path base : AbsPath) : Option (List Name) :=
  if path.startsWith base then some (path.components.drop base.components.length) else none

/-- The suffix of an attempt (lines 290–294). -/
def attemptSuffix (sourceExtension : String) : ℕ → String
  | 0 => ""
  | 1 => s!".from-{sourceExtension}"
  | value => s!".from-{sourceExtension}-{value}"

/-- The extension of a file, for the suffix (lines 284–288). -/
def sourceExtension (name : Name) : String :=
  toAsciiLowercase (((extension name).bind toStr?).getD "source")

/-- The name of an attempt (lines 295–297). -/
def outputName (stem sourceExtension target : String) (attempt : ℕ) : Name :=
  PathBuf.ofString (stem ++ attemptSuffix sourceExtension attempt ++ "." ++ target)

/-- The output path of an attempt for a file under a root. -/
def outputAt (outputRoot : AbsPath) (target : String) (parent : List Name) (name : Name)
    (stem : String) (attempt : ℕ) : AbsPath :=
  { outputRoot with
    components :=
      outputRoot.components ++ parent ++ [outputName stem (sourceExtension name) target attempt] }

/-- `output_key` (lines 308–315). -/
def outputKey (system : System) (path : AbsPath) : String :=
  let rendered := system.display path
  if system.windows then toAsciiLowercase rendered else rendered

/-- `unique_output_path` (lines 264–306), with the set of reserved keys. -/
def uniqueOutputPath (system : System) (outputRoot : AbsPath) (relativeInput : List Name)
    (target : String) (reserved : List String) : Except AnoleError (AbsPath × List String) :=
  match relativeInput.getLast?.bind fun name => (toStr? (fileStem name)).map (name, ·) with
  | none =>
    .error (.new .inputInvalid .plan "Folder batch contains a filename that is not valid Unicode"
      "Rename the file and retry.")
  | some (name, stem) =>
    let output := outputAt outputRoot target relativeInput.dropLast name stem
    match (List.range 10001).find? fun attempt => outputKey system (output attempt) ∉ reserved with
    | some attempt => .ok (output attempt, outputKey system (output attempt) :: reserved)
    | none =>
      .error (.new .outputConflict .plan "Folder batch could not assign a unique output name"
        "Rename colliding source files or choose another output root.")

/-- The body of the loop over the files (lines 110–134), with `reserved` and `mappings`. -/
def mapFile (system : System) (inputRoot outputRoot : AbsPath) (target : String)
    (state : List String × List FolderMappingEntry) (inputPath : AbsPath) :
    Except AnoleError (List String × List FolderMappingEntry) := do
  let relative ← (inputPath.stripPrefix inputRoot).elim
    (.error ((AnoleError.new .internal .plan "Enumerated file escaped its canonical folder root"
      "Retry the preview and report this error if it repeats.").withDiagnostic "prefix not found"))
    .ok
  let output ← uniqueOutputPath system outputRoot relative target state.1
  pure (output.2, state.2 ++ [⟨inputPath, relative, output.1⟩])

/-- The order of paths, by the bytes of their names. -/
def pathOrder (path : AbsPath) : List (List ℕ) := path.components.map nameBytes

/-- `FolderBatchService::preview_mapping` (lines 44–142); `folder` is what reading a folder finds. -/
def previewMapping (system : System)
    (folder : AbsPath → Option (String × String) × List (Name × Entry))
    (inputRoot outputRoot : PathBuf) (targetExtension : String) :
    Except AnoleError FolderMappingPlan := do
  let target ← validateTargetExtension targetExtension
  let inputRoot ← canonicalLocalDirectory system inputRoot "input"
  let outputRoot ← canonicalLocalDirectory system outputRoot "output"
  failIf ((inputRoot.startsWith outputRoot || outputRoot.startsWith inputRoot) = true)
    (.new .policyBlocked .plan "Folder batch input and output roots must not overlap"
      "Choose two separate local folders.")
  let walk ← walkFrom system inputRoot (folder inputRoot).1 (folder inputRoot).2
  let files := walk.files.insertionSort fun a b => pathOrder a ≤ pathOrder b
  let mapped ← files.foldlM (mapFile system inputRoot outputRoot target) ([], [])
  pure {
    inputRoot := inputRoot
    outputRoot := outputRoot
    targetExtension := target
    discovered := walk.discovered
    skipped := walk.skipped
    mappings := mapped.2 }

/-! ## Extensions -/

theorem extension_outputName {stem source target : String} {attempt : ℕ} (hstem : stem ≠ "")
    (htarget : '.' ∉ target.toList) :
    extension (outputName stem source target attempt) = some (PathBuf.ofString target) := by
  have hname : outputName stem source target attempt =
      PathBuf.ofString (stem ++ attemptSuffix source attempt) ++
        .char '.' :: PathBuf.ofString target := by
    simp [outputName, PathBuf.ofString, String.toList_append]
  have hdot : PathUnit.char '.' ∉ PathBuf.ofString target := by
    simpa [PathBuf.ofString] using htarget
  have hbefore : PathBuf.ofString (stem ++ attemptSuffix source attempt) ≠ [] := by
    simp [PathBuf.ofString, String.toList_append, hstem]
  rw [extension, hname, splitLastDot_append _ hdot]
  exact if_neg hbefore

theorem validateTargetExtension_ok {value target : String}
    (h : validateTargetExtension value = .ok target) : '.' ∉ target.toList := by
  rw [validateTargetExtension] at h
  split_ifs at h with hinvalid hjpeg hyml
  all_goals rw [← Except.ok.inj h]
  · decide
  · decide
  · push Not at hinvalid
    exact fun hdot => absurd (List.all_eq_true.mp hinvalid.2.2 '.' hdot) (by decide)

/-! ## The loop over the files -/

/-- A name that a file may get: the name of one of its attempts. -/
def Possible (outputRoot : AbsPath) (target : String) (relative : List Name) (attempt : ℕ)
    (output : AbsPath) : Prop :=
  ∃ name stem, relative.getLast? = some name ∧ toStr? (fileStem name) = some stem ∧
    output = outputAt outputRoot target relative.dropLast name stem attempt

/-- An entry of a mapping: the name of an attempt, all earlier names of the file being reserved. -/
def Assigned (system : System) (inputRoot outputRoot : AbsPath) (target : String)
    (reserved : List String) (entry : FolderMappingEntry) : Prop :=
  entry.inputPath.stripPrefix inputRoot = some entry.relativeInputPath ∧
    ∃ attempt, Possible outputRoot target entry.relativeInputPath attempt entry.outputPath ∧
      outputKey system entry.outputPath ∉ reserved ∧
      ∀ earlier < attempt, ∀ output,
        Possible outputRoot target entry.relativeInputPath earlier output →
          outputKey system output ∈ reserved

/-- The entries of a mapping, in the order in which they are made. -/
def AssignedAll (system : System) (inputRoot outputRoot : AbsPath) (target : String) :
    List String → List FolderMappingEntry → Prop
  | _, [] => True
  | reserved, entry :: entries =>
    Assigned system inputRoot outputRoot target reserved entry ∧
      AssignedAll system inputRoot outputRoot target (outputKey system entry.outputPath :: reserved)
        entries

section Mapping

variable {system : System} {inputRoot outputRoot : AbsPath} {target : String}
  {entry : FolderMappingEntry} {entries : List FolderMappingEntry} {reserved : List String}

/-- The name of an attempt is the only one. -/
theorem Possible.unique {relative : List Name} {attempt : ℕ} {a b : AbsPath}
    (ha : Possible outputRoot target relative attempt a)
    (hb : Possible outputRoot target relative attempt b) : a = b := by
  obtain ⟨name, stem, hname, hstem, rfl⟩ := ha
  obtain ⟨name', stem', hname', hstem', rfl⟩ := hb
  obtain rfl := Option.some.inj (hname.symm.trans hname')
  obtain rfl := Option.some.inj (hstem.symm.trans hstem')
  rfl

theorem uniqueOutputPath_ok {relative : List Name} {reserved' : List String} {output : AbsPath}
    (h : uniqueOutputPath system outputRoot relative target reserved = .ok (output, reserved')) :
    reserved' = outputKey system output :: reserved ∧
      ∃ attempt, Possible outputRoot target relative attempt output ∧
        outputKey system output ∉ reserved ∧
        ∀ earlier < attempt, ∀ other, Possible outputRoot target relative earlier other →
          outputKey system other ∈ reserved := by
  rw [uniqueOutputPath] at h
  match hname : relative.getLast?.bind fun name => (toStr? (fileStem name)).map (name, ·) with
  | none =>
    rw [hname] at h
    exact absurd h (by simp)
  | some (name, stem) =>
    rw [hname] at h
    obtain ⟨last, hlast, hmap⟩ := Option.bind_eq_some_iff.mp hname
    obtain ⟨text, htext, hpair⟩ := Option.map_eq_some_iff.mp hmap
    obtain ⟨rfl, rfl⟩ := Prod.mk.inj hpair
    dsimp only at h
    split at h
    · rename_i attempt hfind
      obtain ⟨rfl, rfl⟩ := Prod.mk.inj (Except.ok.inj h)
      obtain ⟨hfree, -, hbefore⟩ := List.find?_range_eq_some.mp hfind
      refine ⟨rfl, attempt, ⟨last, text, hlast, htext, rfl⟩, of_decide_eq_true hfree,
        fun earlier hearlier other hother => ?_⟩
      rw [hother.unique ⟨last, text, hlast, htext, rfl⟩]
      exact not_not.mp (of_decide_eq_false (Bool.not_eq_true' _ |>.mp (hbefore earlier hearlier)))
    · exact absurd h (by simp)

/-- A turn of the loop makes one entry. -/
theorem mapFile_ok {state state' : List String × List FolderMappingEntry} {inputPath : AbsPath}
    (h : mapFile system inputRoot outputRoot target state inputPath = .ok state') :
    ∃ entry, entry.inputPath = inputPath ∧
      Assigned system inputRoot outputRoot target state.1 entry ∧
      state' = (outputKey system entry.outputPath :: state.1, state.2 ++ [entry]) := by
  obtain ⟨relative, hrelative, h⟩ := bind_eq_ok.mp h
  obtain ⟨⟨output, reserved'⟩, hunique, h⟩ := bind_eq_ok.mp h
  obtain ⟨rfl, hassigned⟩ := uniqueOutputPath_ok hunique
  exact ⟨⟨inputPath, relative, output⟩, rfl, ⟨elim_eq_ok.mp hrelative, hassigned⟩,
    (Except.ok.inj h).symm⟩

/-- The loop makes an entry of each file, in their order. -/
theorem mapFiles_ok {files : List AbsPath} {state state' : List String × List FolderMappingEntry}
    (h : files.foldlM (mapFile system inputRoot outputRoot target) state = .ok state') :
    ∃ entries, state'.2 = state.2 ++ entries ∧ entries.map (·.inputPath) = files ∧
      AssignedAll system inputRoot outputRoot target state.1 entries := by
  induction files generalizing state with
  | nil =>
    rw [← Except.ok.inj h]
    exact ⟨[], (List.append_nil _).symm, rfl, trivial⟩
  | cons file files ih =>
    rw [List.foldlM_cons] at h
    obtain ⟨middle, hfile, h⟩ := bind_eq_ok.mp h
    obtain ⟨entry, rfl, hassigned, rfl⟩ := mapFile_ok hfile
    obtain ⟨entries, hentries, hfiles, hall⟩ := ih h
    refine ⟨entry :: entries, ?_, ?_, hassigned, hall⟩
    · rw [hentries, List.append_assoc, List.singleton_append]
    · rw [List.map_cons, hfiles]

/-- No entry gets a reserved name. -/
theorem AssignedAll.not_mem (h : AssignedAll system inputRoot outputRoot target reserved entries)
    (hentry : entry ∈ entries) : outputKey system entry.outputPath ∉ reserved := by
  induction entries generalizing reserved with
  | nil => exact absurd hentry List.not_mem_nil
  | cons first entries ih =>
    rcases List.mem_cons.mp hentry with rfl | hentry
    · obtain ⟨-, attempt, -, hfree, -⟩ := h.1
      exact hfree
    · exact fun hmem => ih h.2 hentry (List.mem_cons_of_mem _ hmem)

/-- The keys of the entries are distinct. -/
theorem AssignedAll.pairwise (h : AssignedAll system inputRoot outputRoot target reserved entries) :
    entries.Pairwise fun a b => outputKey system a.outputPath ≠ outputKey system b.outputPath := by
  induction entries generalizing reserved with
  | nil => exact .nil
  | cons first entries ih =>
    refine .cons (fun entry hentry heq => h.2.not_mem hentry ?_) (ih h.2)
    rw [← heq]
    exact List.mem_cons_self

/-- An entry has the name of an attempt, and the earlier names of its file are those of other
    entries. -/
theorem AssignedAll.attempt (h : AssignedAll system inputRoot outputRoot target reserved entries)
    (hentry : entry ∈ entries) :
    entry.inputPath.stripPrefix inputRoot = some entry.relativeInputPath ∧
      ∃ attempt, Possible outputRoot target entry.relativeInputPath attempt entry.outputPath ∧
        ∀ earlier < attempt, ∀ output,
          Possible outputRoot target entry.relativeInputPath earlier output →
            outputKey system output ≠ outputKey system entry.outputPath ∧
              (outputKey system output ∈ reserved ∨
                ∃ other ∈ entries, outputKey system other.outputPath = outputKey system output) := by
  induction entries generalizing reserved with
  | nil => exact absurd hentry List.not_mem_nil
  | cons first entries ih =>
    rcases List.mem_cons.mp hentry with rfl | hentry
    · obtain ⟨hrelative, attempt, hpossible, hfree, hbefore⟩ := h.1
      refine ⟨hrelative, attempt, hpossible, fun earlier hearlier output houtput => ?_⟩
      have hmem := hbefore earlier hearlier output houtput
      exact ⟨fun heq => hfree (heq ▸ hmem), .inl hmem⟩
    · obtain ⟨hrelative, attempt, hpossible, hbefore⟩ := ih h.2 hentry
      refine ⟨hrelative, attempt, hpossible, fun earlier hearlier output houtput => ?_⟩
      obtain ⟨hne, hkey⟩ := hbefore earlier hearlier output houtput
      refine ⟨hne, ?_⟩
      rcases hkey with hkey | ⟨other, hother, heq⟩
      · rcases List.mem_cons.mp hkey with heq | hkey
        · exact .inr ⟨first, List.mem_cons_self, heq.symm⟩
        · exact .inl hkey
      · exact .inr ⟨other, List.mem_cons_of_mem _ hother, heq⟩

/-- What a plan is made of. -/
theorem previewMapping_ok {folder : AbsPath → Option (String × String) × List (Name × Entry)}
    {input output : PathBuf} {targetExtension : String} {plan : FolderMappingPlan}
    (h : previewMapping system folder input output targetExtension = .ok plan) :
    validateTargetExtension targetExtension = .ok plan.targetExtension ∧
      canonicalLocalDirectory system input "input" = .ok plan.inputRoot ∧
      canonicalLocalDirectory system output "output" = .ok plan.outputRoot ∧
      (plan.mappings.map (·.inputPath)).Perm (filesIn plan.inputRoot (folder plan.inputRoot).2) ∧
      plan.discovered = plan.skipped + plan.mappings.length ∧
      AssignedAll system plan.inputRoot plan.outputRoot plan.targetExtension [] plan.mappings := by
  obtain ⟨target, htarget, h⟩ := bind_eq_ok.mp h
  obtain ⟨inputRoot, hinput, h⟩ := bind_eq_ok.mp h
  obtain ⟨outputRoot, houtput, h⟩ := bind_eq_ok.mp h
  obtain ⟨⟨⟩, hoverlap, h⟩ := bind_eq_ok.mp h
  obtain ⟨walk, hwalk, h⟩ := bind_eq_ok.mp h
  obtain ⟨mapped, hmapped, h⟩ := bind_eq_ok.mp h
  rw [← Except.ok.inj h]
  obtain ⟨hfiles, hcounts⟩ := walkFrom_ok hwalk
  obtain ⟨entries, hentries, hpaths, hall⟩ := mapFiles_ok hmapped
  rw [List.nil_append] at hentries
  have hsorted := List.perm_insertionSort (fun a b => pathOrder a ≤ pathOrder b) walk.files
  refine ⟨htarget, hinput, houtput, ?_, ?_, ?_⟩
  · show (mapped.2.map (·.inputPath)).Perm _
    rw [hentries, hpaths]
    exact hsorted.trans hfiles
  · show walk.discovered = walk.skipped + mapped.2.length
    rw [hcounts, hentries, ← hsorted.length_eq, ← hpaths, List.length_map]
  · show AssignedAll system inputRoot outputRoot target [] mapped.2
    rw [hentries]
    exact hall

end Mapping

end Anole.Folder
