import Anole.Desktop.ShellNames
import Anole.Folder.Collisions

/-!
# Shell conversions

Model of how the desktop program plans the outputs of the files that the file manager hands to it
(`apps/desktop/src-tauri/src/shell_convert.rs`, lines 175–222). Each output gets a name that no earlier output
of the same call has.

* `shell_outputs_apart_iff`: when the outputs have different reservation keys in the job store.

**Deviation.** A name is free if no earlier output is the same path, while the job store tells outputs apart by
`reservation_key`. On Windows, `Photo.png` and `photo.jpg` of one directory get outputs with one key, and so do
two files of one name in a directory and a link to it. And the index of the third round ends at `u32::MAX`, where
the search would go on forever.
-/

open Common

namespace Anole.Desktop

open Anole.Folder (Name AbsPath Disk reservationKey)

/-- The file system of the desktop program, with `Path::is_file` and `Path::exists`. -/
structure ShellDisk extends Disk where
  isFile : AbsPath → Bool
  pathExists : AbsPath → Bool
  exists_of_isFile : ∀ path, isFile path = true → pathExists path = true

/-- A target of the file manager. There are no separators in it, as in no allowed target. -/
structure ShellTarget where
  text : String
  plain : '/' ∉ text.toList ∧ '\\' ∉ text.toList

/-- `PlannedConvertItem`. A rejected item has no output. -/
structure PlannedConvertItem where
  input : AbsPath
  output : Option AbsPath
  skippedConflict : Bool
  rejected : Bool
  deriving DecidableEq

section

variable (disk : ShellDisk) (target : ShellTarget)

/-- The item of an input that is a file. -/
def plannedItem (path output : AbsPath) : PlannedConvertItem := ⟨path, some output, disk.pathExists output, false⟩

def plannedItems (paths outputs : List AbsPath) : List PlannedConvertItem :=
  (paths.zip outputs).map fun pair => plannedItem disk pair.1 pair.2

/-- `plan_convert_outputs` after some outputs, if each search ends within a number of turns. -/
def planConvertOutputs (turns : ℕ) : List AbsPath → List AbsPath → Option (List PlannedConvertItem)
  | _, [] => some []
  | reserved, path :: paths =>
    if disk.isFile path then do
      let output ← suggestedConvertedName turns path target.text reserved
      let planned ← planConvertOutputs turns (output :: reserved) paths
      some (plannedItem disk path output :: planned)
    else do
      let planned ← planConvertOutputs turns reserved paths
      some (⟨path, none, false, true⟩ :: planned)

/-- `surviving_convert_items`. -/
def survivingConvertItems (items : List PlannedConvertItem) : List PlannedConvertItem :=
  items.filter fun item => !item.rejected && !item.skippedConflict

/-- `plan_convert_outputs` ends with these items. -/
def Planned (paths : List AbsPath) (items : List PlannedConvertItem) : Prop :=
  ∃ turns, planConvertOutputs disk target turns [] paths = some items

/-- The job store takes two outputs for one. -/
def SameKey (a b : AbsPath) : Prop :=
  ∃ key, reservationKey disk.toDisk a = .ok key ∧ reservationKey disk.toDisk b = .ok key

/-- What is to hold of the items of some inputs. -/
structure Sound (paths : List AbsPath) (items : List PlannedConvertItem) : Prop where
  order : items.map PlannedConvertItem.input = paths
  inDirectory : ∀ item ∈ items, ∀ output ∈ item.output,
    output.root = item.input.root ∧ output.components.dropLast = item.input.components.dropLast
  fresh : ∀ item ∈ survivingConvertItems items, ∀ output ∈ item.output,
    disk.pathExists output = false ∧ output ∉ paths
  apart : (items.filterMap PlannedConvertItem.output).Pairwise fun a b => ¬ SameKey disk a b

/-- Two different names that files may be given have different keys. -/
def Apart (files : Set AbsPath) : Prop :=
  ∀ p ∈ files, ∀ q ∈ files, ∀ k < 2 ^ 32, ∀ l < 2 ^ 32, candidate p target.text k ≠ candidate q target.text l →
    ¬ SameKey disk (candidate p target.text k) (candidate q target.text l)

end

section Plans

variable {disk : ShellDisk} {target : ShellTarget} {reserved paths outputs : List AbsPath}
  {items : List PlannedConvertItem}

theorem planConvertOutputs_cons {path : AbsPath} {turns : ℕ} (hfile : disk.isFile path = true) :
    planConvertOutputs disk target turns reserved (path :: paths) = some items ↔
      ∃ output planned, suggestedConvertedName turns path target.text reserved = some output ∧
        planConvertOutputs disk target turns (output :: reserved) paths = some planned ∧
        items = plannedItem disk path output :: planned := by
  rw [planConvertOutputs, if_pos hfile, Option.bind_eq_bind, Option.bind_eq_some_iff]
  constructor
  · rintro ⟨output, houtput, h⟩
    obtain ⟨planned, hplanned, h⟩ := Option.bind_eq_some_iff.mp h
    exact ⟨output, planned, houtput, hplanned, (Option.some_inj.mp h).symm⟩
  · rintro ⟨output, planned, houtput, hplanned, rfl⟩
    exact ⟨output, houtput, Option.bind_eq_some_iff.mpr ⟨planned, hplanned, rfl⟩⟩

theorem planConvertOutputs_mono {turns more : ℕ} (hfiles : ∀ path ∈ paths, disk.isFile path = true)
    (hle : turns ≤ more) (h : planConvertOutputs disk target turns reserved paths = some items) :
    planConvertOutputs disk target more reserved paths = some items := by
  induction paths generalizing reserved items with
  | nil => exact h
  | cons path paths ih =>
    have hfile := hfiles path List.mem_cons_self
    rw [planConvertOutputs_cons hfile] at h ⊢
    obtain ⟨output, planned, houtput, hplanned, rfl⟩ := h
    exact ⟨output, planned, suggestedConvertedName_mono hle houtput,
      ih (fun other hother => hfiles other (List.mem_cons_of_mem _ hother)) hplanned, rfl⟩

/-- **The items** of files are those of the first free names. -/
theorem planConvertOutputs_iff (hfiles : ∀ path ∈ paths, disk.isFile path = true) :
    (∃ turns, planConvertOutputs disk target turns reserved paths = some items) ↔
      ∃ outputs, Allocates (2 ^ 32) reserved (paths.map fun path => candidate path target.text) outputs ∧
        items = plannedItems disk paths outputs := by
  induction paths generalizing reserved items with
  | nil =>
    constructor
    · rintro ⟨turns, h⟩
      cases h
      exact ⟨[], .nil reserved, rfl⟩
    · rintro ⟨outputs, -, rfl⟩
      exact ⟨0, rfl⟩
  | cons path paths ih =>
    have hfile := hfiles path List.mem_cons_self
    have hrest : ∀ other ∈ paths, disk.isFile other = true := fun other hother =>
      hfiles other (List.mem_cons_of_mem _ hother)
    constructor
    · rintro ⟨turns, h⟩
      obtain ⟨output, planned, houtput, hplanned, rfl⟩ := (planConvertOutputs_cons hfile).mp h
      obtain ⟨outputs, hallocates, rfl⟩ := (ih hrest).mp ⟨turns, hplanned⟩
      exact ⟨output :: outputs, .cons (suggestedConvertedName_iff.mp ⟨turns, houtput⟩) hallocates, rfl⟩
    · rintro ⟨outputs, hallocates, rfl⟩
      rw [List.map_cons] at hallocates
      cases hallocates with
      | @cons _ _ output _ outputs hfirst hallocates =>
      obtain ⟨turns, houtput⟩ := suggestedConvertedName_iff.mpr hfirst
      obtain ⟨more, hplanned⟩ := (ih hrest).mpr ⟨outputs, hallocates, rfl⟩
      refine ⟨max turns more, (planConvertOutputs_cons hfile).mpr
        ⟨output, _, suggestedConvertedName_mono (le_max_left _ _) houtput,
          planConvertOutputs_mono hrest (le_max_right _ _) hplanned, rfl⟩⟩

theorem outputs_of_items (hlength : outputs.length = paths.length) :
    (plannedItems disk paths outputs).filterMap PlannedConvertItem.output = outputs := by
  have houtput : (PlannedConvertItem.output ∘ fun pair : AbsPath × AbsPath => plannedItem disk pair.1 pair.2) =
      some ∘ Prod.snd := rfl
  rw [plannedItems, List.filterMap_map, houtput, List.filterMap_eq_map]
  exact List.map_snd_zip (le_of_eq hlength)

theorem inputs_of_items (hlength : outputs.length = paths.length) :
    (plannedItems disk paths outputs).map PlannedConvertItem.input = paths := by
  rw [plannedItems, List.map_map]
  exact List.map_fst_zip (le_of_eq hlength.symm)

/-- The output of an item is one of the names of its input. -/
theorem exists_of_mem_items {item : PlannedConvertItem}
    (h : List.Forall₂ (fun path output => ∃ k < 2 ^ 32, candidate path target.text k = output) paths outputs)
    (hitem : item ∈ plannedItems disk paths outputs) :
    ∃ path ∈ paths, ∃ k < 2 ^ 32, item = plannedItem disk path (candidate path target.text k) := by
  induction h with
  | nil => cases hitem
  | cons hfirst _ ih =>
    rw [plannedItems, List.zip_cons_cons, List.map_cons] at hitem
    rcases List.mem_cons.mp hitem with rfl | hitem
    · obtain ⟨k, hk, rfl⟩ := hfirst
      exact ⟨_, List.mem_cons_self, k, hk, rfl⟩
    · obtain ⟨path, hpath, hk⟩ := ih hitem
      exact ⟨path, List.mem_cons_of_mem _ hpath, hk⟩

/-- Apart from the keys, all holds of every plan. -/
theorem sound_iff (hfiles : ∀ path ∈ paths, disk.isFile path = true)
    (h : Allocates (2 ^ 32) [] (paths.map fun path => candidate path target.text) outputs) :
    Sound disk paths (plannedItems disk paths outputs) ↔
      outputs.Pairwise fun a b => ¬ SameKey disk a b := by
  have hlength : outputs.length = paths.length := by
    rw [h.length_eq, List.length_map]
  have hnames := List.forall₂_map_left_iff.mp h.forall₂
  constructor
  · intro hsound
    have hpairwise := hsound.apart
    rw [outputs_of_items hlength] at hpairwise
    exact hpairwise
  · intro hpairwise
    refine ⟨inputs_of_items hlength, ?_, ?_, ?_⟩
    · intro item hitem output houtput
      obtain ⟨path, -, k, -, rfl⟩ := exists_of_mem_items hnames hitem
      cases houtput
      exact ⟨rfl, List.dropLast_concat⟩
    · intro item hitem output houtput
      obtain ⟨hmem, hsurvives⟩ := List.mem_filter.mp hitem
      obtain ⟨path, -, k, -, rfl⟩ := exists_of_mem_items hnames hmem
      cases houtput
      have hfree : disk.pathExists (candidate path target.text k) = false := by simpa [plannedItem] using hsurvives
      refine ⟨hfree, fun hinput => ?_⟩
      rw [disk.exists_of_isFile _ (hfiles _ hinput)] at hfree
      cases hfree
    · rw [outputs_of_items hlength]
      exact hpairwise

theorem planned_iff (hfiles : ∀ path ∈ paths, disk.isFile path = true) : Planned disk target paths items ↔
    ∃ outputs, Allocates (2 ^ 32) [] (paths.map fun path => candidate path target.text) outputs ∧
      items = plannedItems disk paths outputs := planConvertOutputs_iff hfiles

theorem differentUpTo_candidate (path : AbsPath) : DifferentUpTo (2 ^ 32) (candidate path target.text) :=
  fun _ _ _ _ heq => candidateName_injective (beside_injective heq)

theorem exists_paths {files : Set AbsPath} {requests : List (ℕ → AbsPath)}
    (h : ∀ request ∈ requests, ∃ path ∈ files, candidate path target.text = request) :
    ∃ paths : List AbsPath, (∀ path ∈ paths, path ∈ files) ∧
      paths.map (fun path => candidate path target.text) = requests := by
  induction requests with
  | nil => exact ⟨[], by simp, rfl⟩
  | cons request requests ih =>
    obtain ⟨path, hpath, rfl⟩ := h request List.mem_cons_self
    obtain ⟨paths, hpaths, rfl⟩ := ih fun other hother => h other (List.mem_cons_of_mem _ hother)
    exact ⟨path :: paths, List.forall_mem_cons.mpr ⟨hpath, hpaths⟩, rfl⟩

/-- **The outputs are apart**, for all lists of some files, if all names that they may be given are. -/
theorem sound_all_iff {files : Set AbsPath} (hfiles : ∀ path ∈ files, disk.isFile path = true) :
    (∀ paths, (∀ path ∈ paths, path ∈ files) → ∀ items, Planned disk target paths items → Sound disk paths items) ↔
      Apart disk target files := by
  have hsymm : ∀ a b, ¬ SameKey disk a b → ¬ SameKey disk b a := by
    rintro a b hne ⟨key, hb, ha⟩
    exact hne ⟨key, ha, hb⟩
  have hlists : (∀ paths, (∀ path ∈ paths, path ∈ files) → ∀ items, Planned disk target paths items →
      Sound disk paths items) ↔
      ∀ requests, (∀ request ∈ requests, ∃ path ∈ files, candidate path target.text = request) →
        ∀ given, Allocates (2 ^ 32) [] requests given → given.Pairwise fun a b => ¬ SameKey disk a b := by
    constructor
    · intro hall requests hrequests given hgiven
      obtain ⟨paths, hpaths, rfl⟩ := exists_paths hrequests
      have hinputs : ∀ path ∈ paths, disk.isFile path = true := fun path hpath => hfiles path (hpaths path hpath)
      exact (sound_iff hinputs hgiven).mp (hall paths hpaths _ ((planned_iff hinputs).mpr ⟨given, hgiven, rfl⟩))
    · intro hall paths hpaths items hplanned
      have hinputs : ∀ path ∈ paths, disk.isFile path = true := fun path hpath => hfiles path (hpaths path hpath)
      obtain ⟨given, hgiven, rfl⟩ := (planned_iff hinputs).mp hplanned
      refine (sound_iff hinputs hgiven).mpr (hall _ ?_ given hgiven)
      intro request hrequest
      obtain ⟨path, hpath, rfl⟩ := List.mem_map.mp hrequest
      exact ⟨path, hpaths path hpath, rfl⟩
  rw [hlists, pairwise_iff hsymm fun request => ∃ path ∈ files, candidate path target.text = request]
  constructor
  · intro hall p hp q hq
    exact hall _ ⟨p, hp, rfl⟩ _ ⟨q, hq, rfl⟩
  · rintro hall _ ⟨p, hp, rfl⟩ _ ⟨q, hq, rfl⟩
    exact hall p hp q hq

end Plans

/-- **When shell conversions do not collide**: for at most 2³² files the plan ends, and whatever the list, it is
    sound if and only if all names that the files may be given have different keys. With one copy of a file more,
    the search goes on forever. -/
theorem shell_outputs_apart_iff (disk : ShellDisk) (target : ShellTarget) (files : Set AbsPath)
    (hfiles : ∀ path ∈ files, disk.isFile path = true) :
    (∀ paths : List AbsPath, (∀ path ∈ paths, path ∈ files) → paths.length ≤ 2 ^ 32 →
      ∃ items, Planned disk target paths items) ∧
    ((∀ paths, (∀ path ∈ paths, path ∈ files) → ∀ items, Planned disk target paths items →
      Sound disk paths items) ↔ Apart disk target files) ∧
    ∀ path ∈ files, ¬ ∃ items, Planned disk target (List.replicate (2 ^ 32 + 1) path) items := by
  refine ⟨fun paths hpaths hlength => ?_, sound_all_iff hfiles, ?_⟩
  · have hdifferent : ∀ request ∈ paths.map fun path => candidate path target.text,
        DifferentUpTo (2 ^ 32) request := by
      intro request hrequest
      obtain ⟨path, -, rfl⟩ := List.mem_map.mp hrequest
      exact differentUpTo_candidate path
    have hroom : ([] : List AbsPath).length + (paths.map fun path => candidate path target.text).length ≤ 2 ^ 32 := by
      rw [List.length_nil, List.length_map, Nat.zero_add]
      exact hlength
    obtain ⟨given, hgiven⟩ := exists_allocates hdifferent hroom
    exact ⟨_, (planned_iff fun path hpath => hfiles path (hpaths path hpath)).mpr ⟨given, hgiven, rfl⟩⟩
  · rintro path hpath ⟨items, hplanned⟩
    obtain ⟨given, hgiven, -⟩ := (planned_iff fun other hother => by
      rw [List.eq_of_mem_replicate hother]
      exact hfiles path hpath).mp hplanned
    rw [List.map_replicate] at hgiven
    exact Allocates.not_replicate hgiven

namespace ShellSample

/-- A file of `C:\in`. -/
def file (name : String) : AbsPath := ⟨.disk 'C', [PathBuf.ofString "in", PathBuf.ofString name]⟩

/-- A drive of Windows with two pictures. -/
def disk : ShellDisk where
  toDisk := Folder.Sample.drive
  isFile path := path ∈ [file "Photo.png", file "photo.jpg"]
  pathExists path := path ∈ [file "Photo.png", file "photo.jpg"]
  exists_of_isFile _ h := h

def webp : ShellTarget := ⟨"webp", by decide⟩

def items : List PlannedConvertItem :=
  [plannedItem disk (file "Photo.png") (file "Photo.converted.webp"),
    plannedItem disk (file "photo.jpg") (file "photo.converted.webp")]

/-- On Windows two pictures are planned to become one file. -/
theorem pictures_collide : Planned disk webp [file "Photo.png", file "photo.jpg"] items ∧
    ¬ Sound disk [file "Photo.png", file "photo.jpg"] items := by
  refine ⟨⟨0, by decide⟩, fun hsound => ?_⟩
  have hsame : SameKey disk (file "Photo.converted.webp") (file "photo.converted.webp") :=
    ⟨"c:\\in\\photo.converted.webp", by decide +kernel, by decide +kernel⟩
  exact (List.pairwise_cons.mp hsound.apart).1 _ List.mem_cons_self hsame

theorem picture_without_end :
    ¬ ∃ items, Planned disk webp (List.replicate (2 ^ 32 + 1) (file "Photo.png")) items :=
  (shell_outputs_apart_iff disk webp {file "Photo.png", file "photo.jpg"} (by
    rintro path (rfl | rfl)
    · decide
    · decide)).2.2 _ (Set.mem_insert _ _)

end ShellSample

end Anole.Desktop
