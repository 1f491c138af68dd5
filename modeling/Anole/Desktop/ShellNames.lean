import Anole.Common.FirstFree
import Anole.Folder.Reservation

/-!
# Names of shell conversions

Model of the names that the desktop program gives to the outputs of a conversion that the file manager
asks for (`apps/desktop/src-tauri/src/shell_convert.rs`, lines 107–173), and of the targets that it takes
(`lib.rs`, lines 140–143 and 2115–2125).

* `suggestedConvertedName_iff`: the search for a name ends with the first of 2³² names that is not reserved.
* `candidate_injective`: these names are different.
-/

open Common

namespace Anole.Desktop

open Anole.Folder (Name AbsPath fileStem extension parentDir)
open Anole.Planning (toStr? normalizedTarget)

/-- `ALLOWED_SHELL_CONVERT_TARGETS`. -/
def allowedShellConvertTargets : List String :=
  ["jpg", "png", "webp", "avif", "mp4", "mp3", "m4a", "wav", "gif", "pdf", "docx", "json", "csv", "yaml", "xml"]

/-- `normalize_shell_convert_target`. -/
def normalizeShellConvertTarget (value : String) : Option String :=
  let normalized := match normalizedTarget value with
    | "jpeg" => "jpg"
    | "yml" => "yaml"
    | other => other
  if normalized ∈ allowedShellConvertTargets then some normalized else none

/-! ## Names -/

/-- `Path::file_name`. -/
def fileName (path : AbsPath) : Option Name := path.components.getLast?.filter (· ≠ parentDir)

/-- The extension of a path in lower case, or another text where there is none. -/
def lowerExtension (path : AbsPath) (default : String) : String :=
  toAsciiLowercase ((((fileName path).bind extension).bind toStr?).getD default)

/-- `is_pdf_page_directory`. -/
def isPdfPageDirectory (input : AbsPath) (target : String) : Bool :=
  lowerExtension input "" = "pdf" && ["png", "jpg", "jpeg"].contains target

/-- The target as a name has it (lines 124–128). -/
def shownTarget (target : String) : String := if toAsciiLowercase target = "jpeg" then "jpg" else target

/-- `parent.join(name)` of an input that has a parent, and a name without separators. -/
def beside (input : AbsPath) (name : String) : AbsPath :=
  { input with components := input.components.dropLast ++ [PathBuf.ofString name] }

/-- `input.file_stem().and_then(to_str).unwrap_or("output")`. -/
def shellStem (input : AbsPath) : String := (((fileName input).map fileStem).bind toStr?).getD "output"

/-- The end of a name. -/
def convertedEnd (input : AbsPath) (target : String) : String :=
  if isPdfPageDirectory input target then ".converted-" ++ target ++ "-pages" else ".converted." ++ target

/-- The name of the first round (lines 139–143). -/
def firstName (input : AbsPath) (target : String) : String := shellStem input ++ convertedEnd input target

/-- The name of the second round (lines 147–151). -/
def secondName (input : AbsPath) (target : String) : String :=
  shellStem input ++ ".from-" ++ lowerExtension input "bin" ++ convertedEnd input target

/-- The name of the third round (lines 157–163). -/
def indexedName (input : AbsPath) (target : String) (index : ℕ) : String :=
  shellStem input ++ ".from-" ++ lowerExtension input "bin" ++ "-" ++ toString index ++ convertedEnd input target

/-- `u32::MAX` -/
def indexLimit : ℕ := 2 ^ 32 - 1

/-- The loop of the third round, for a number of turns: the index grows up to `u32::MAX`. -/
def searchIndexed (reserved : List AbsPath) (input : AbsPath) (target : String) : ℕ → ℕ → Option AbsPath
  | 0, _ => none
  | turns + 1, index =>
    let candidate := beside input (indexedName input target index)
    if candidate ∈ reserved then searchIndexed reserved input target turns (min (index + 1) indexLimit)
    else some candidate

/-- `suggested_converted_name`, if its loop ends within a number of turns. -/
def suggestedConvertedName (turns : ℕ) (input : AbsPath) (target : String) (reserved : List AbsPath) :
    Option AbsPath :=
  let target := shownTarget target
  let first := beside input (firstName input target)
  let second := beside input (secondName input target)
  if first ∉ reserved then some first
  else if second ∉ reserved then some second
  else searchIndexed reserved input target turns 2

/-! ## The search for a name -/

/-- The names of the three rounds, in their order. -/
def candidateName (input : AbsPath) (target : String) : ℕ → String
  | 0 => firstName input target
  | 1 => secondName input target
  | index => indexedName input target index

def candidate (input : AbsPath) (target : String) (index : ℕ) : AbsPath :=
  beside input (candidateName input (shownTarget target) index)

section Search

variable {reserved : List AbsPath} {input output : AbsPath} {target : String} {turns index k : ℕ}

theorem candidate_of_two_le (h : 2 ≤ index) :
    candidate input target index = beside input (indexedName input (shownTarget target) index) := by
  obtain ⟨n, rfl⟩ : ∃ n, index = n + 2 := ⟨index - 2, by omega⟩
  rfl

/-- A loop that ends has come to the first free name. -/
theorem searchIndexed_some (hlow : 2 ≤ index) (hhigh : index ≤ indexLimit)
    (h : searchIndexed reserved input (shownTarget target) turns index = some output) :
    ∃ k, index ≤ k ∧ k ≤ indexLimit ∧ candidate input target k = output ∧ output ∉ reserved ∧
      ∀ j, index ≤ j → j < k → candidate input target j ∈ reserved := by
  induction turns generalizing index with
  | zero => cases h
  | succ turns ih =>
    rw [searchIndexed, ← candidate_of_two_le hlow] at h
    split_ifs at h with hreserved
    · have hnext : 2 ≤ min (index + 1) indexLimit := by omega
      obtain ⟨k, hk, hlimit, heq, hfree, hbefore⟩ := ih hnext (Nat.min_le_right _ _) h
      rcases Nat.lt_or_ge index indexLimit with hlt | hge
      · refine ⟨k, by omega, hlimit, heq, hfree, fun j hj hjk => ?_⟩
        rcases Nat.eq_or_lt_of_le hj with rfl | hj
        · exact hreserved
        · exact hbefore j (by omega) hjk
      · -- at the limit the loop stays at a name that is reserved
        have hsame : k = index := by omega
        rw [hsame] at heq
        rw [heq] at hreserved
        exact absurd hreserved hfree
    · cases h
      exact ⟨index, le_refl _, hhigh, rfl, hreserved, fun j hj hjk => by omega⟩

/-- The loop comes to a free name before which all are reserved. -/
theorem searchIndexed_of_free (hlow : 2 ≤ index) (hk : index ≤ k) (hhigh : k ≤ indexLimit) (hturns : k - index < turns)
    (hfree : candidate input target k ∉ reserved)
    (hbefore : ∀ j, index ≤ j → j < k → candidate input target j ∈ reserved) :
    searchIndexed reserved input (shownTarget target) turns index = some (candidate input target k) := by
  induction turns generalizing index with
  | zero => omega
  | succ turns ih =>
    rw [searchIndexed, ← candidate_of_two_le hlow]
    rcases Nat.eq_or_lt_of_le hk with rfl | hlt
    · rw [if_neg hfree]
    · rw [if_pos (hbefore index (le_refl _) hlt)]
      have hnext : min (index + 1) indexLimit = index + 1 := by omega
      rw [hnext]
      exact ih (by omega) (by omega) (by omega) fun j hj hjk => hbefore j (by omega) hjk

theorem suggestedConvertedName_eq : suggestedConvertedName turns input target reserved =
    if candidate input target 0 ∉ reserved then some (candidate input target 0)
    else if candidate input target 1 ∉ reserved then some (candidate input target 1)
    else searchIndexed reserved input (shownTarget target) turns 2 := rfl

/-- **The search ends** with the first name that is not reserved. -/
theorem suggestedConvertedName_iff :
    (∃ turns, suggestedConvertedName turns input target reserved = some output) ↔
      FirstFree (indexLimit + 1) reserved (candidate input target) output := by
  constructor
  · rintro ⟨turns, h⟩
    rw [suggestedConvertedName_eq] at h
    split_ifs at h with hfirst hsecond
    · obtain ⟨k, hk, hlimit, heq, hfree, hbefore⟩ := searchIndexed_some (le_refl 2) (by decide) h
      refine ⟨k, by omega, heq, hfree, fun j hj => ?_⟩
      match j with
      | 0 => exact hfirst
      | 1 => exact hsecond
      | j + 2 => exact hbefore (j + 2) (by omega) hj
    · cases h
      refine ⟨1, by decide, rfl, hsecond, fun j hj => ?_⟩
      obtain rfl : j = 0 := by omega
      exact hfirst
    · cases h
      exact ⟨0, by decide, rfl, hfirst, fun j hj => by omega⟩
  · rintro ⟨k, hk, rfl, hfree, hbefore⟩
    refine ⟨k + 1, ?_⟩
    rw [suggestedConvertedName_eq]
    match k with
    | 0 => rw [if_pos hfree]
    | 1 => rw [if_neg (not_not.mpr (hbefore 0 (by omega))), if_pos hfree]
    | k + 2 =>
      rw [if_neg (not_not.mpr (hbefore 0 (by omega))), if_neg (not_not.mpr (hbefore 1 (by omega)))]
      exact searchIndexed_of_free (le_refl 2) (by omega) (by omega) (by omega) hfree fun j _ hj => hbefore j hj

/-- A search that ends within some turns does so within more. -/
theorem suggestedConvertedName_mono {more : ℕ} (hle : turns ≤ more)
    (h : suggestedConvertedName turns input target reserved = some output) :
    suggestedConvertedName more input target reserved = some output := by
  have hsearch : ∀ {turns more index}, turns ≤ more →
      searchIndexed reserved input (shownTarget target) turns index = some output →
      searchIndexed reserved input (shownTarget target) more index = some output := by
    intro turns
    induction turns with
    | zero =>
      intro more index _ h
      cases h
    | succ turns ih =>
      intro more index hle h
      obtain ⟨more, rfl⟩ : ∃ n, more = n + 1 := ⟨more - 1, by omega⟩
      rw [searchIndexed] at h ⊢
      split_ifs at h ⊢
      · exact ih (by omega) h
      · exact h
  rw [suggestedConvertedName_eq] at h ⊢
  split_ifs at h ⊢
  · exact hsearch hle h
  · exact h
  · exact h

theorem beside_injective {name name' : String} (h : beside input name = beside input name') : name = name' := by
  have hcomponents := congrArg AbsPath.components h
  rw [beside, beside] at hcomponents
  exact PathBuf.ofString_injective (List.singleton_inj.mp (List.append_cancel_left hcomponents))

theorem candidateName_injective {j : ℕ} (h : candidateName input target k = candidateName input target j) : k = j := by
  have htext := congrArg String.toList h
  match k, j with
  | 0, 0 => rfl
  | 1, 1 => rfl
  | 0, 1 | 0, _ + 2 | 1, 0 | 1, _ + 2 | _ + 2, 0 | _ + 2, 1 =>
    have hlength := congrArg List.length htext
    simp [candidateName, firstName, secondName, indexedName] at hlength
    omega
  | k + 2, j + 2 =>
    have hend : ∀ c ∈ (convertedEnd input target).toList.head?, ¬ c.isDigit := by
      rw [convertedEnd]
      split_ifs <;> simp
    simp only [candidateName, indexedName, String.toList_append, List.append_assoc, List.append_cancel_left_eq] at htext
    exact (Common.append_toString_inj hend hend htext).1

end Search

end Anole.Desktop
