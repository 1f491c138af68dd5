import Anole.Desktop.ShellNames
import Anole.Planning.Dispatch
import Anole.Web.Requests

/-!
# Output names of the front ends

Model of how the window of the desktop program names an output (`apps/desktop/src/desktopModel.ts`, lines
75–109 and 281–314), beside the server (`crates/server/src/web.rs`, lines 736–754) and the file manager
(`shell_convert.rs`, lines 107–173).

* `names_agree_iff`: when the three choose the same shape and the same name.

**Deviation.** The comment of the server says that it mirrors `isDirectoryOutput`, which makes a directory of
the sheets of a workbook; `planned_output_path` does not. And the file manager makes a directory only of the
pages of a PDF, the other two of every input that is not a bitmap.
-/

open Common

namespace Anole.Desktop

open Anole.Folder (Name AbsPath fileStem extension parentDir)
open Anole.Planning (toStr? toStr?_ofString)
open Anole.Web (stemOf_of_fileStem names_of_dot names_of_no_dot)

/-! ## The window -/

/-- What the names depend on of `String.prototype.toLowerCase`: a text of ASCII has its ASCII lower case; in the
    lower case of any other text there is a character that is not ASCII, or the `k` of the Kelvin sign. -/
structure JsText where
  toLowerCase : String → String
  ascii : ∀ text : String, (∀ c ∈ text.toList, c.toNat < 128) → toLowerCase text = toAsciiLowercase text
  other : ∀ text : String, ∀ c ∈ text.toList, 128 ≤ c.toNat →
    ∃ d ∈ (toLowerCase text).toList, 128 ≤ d.toNat ∨ d = 'k'

/-- `text.lastIndexOf(c)` -/
def lastIndexOf (c : Char) (text : List Char) : ℤ :=
  (text.length : ℤ) - 1 - ((text.reverse.takeWhile (· ≠ c)).length : ℤ)

/-- `pathStemAndExt` with its three parts. -/
structure PathParts where
  directory : String
  stem : String
  ext : String

/-- The directory of a path and its file name. -/
def splitPath (input : String) : String × String :=
  let separator := max (lastIndexOf '/' input.toList) (lastIndexOf '\\' input.toList)
  if 0 ≤ separator then
    (String.ofList (input.toList.take (separator + 1).toNat), String.ofList (input.toList.drop (separator + 1).toNat))
  else ("", input)

/-- The stem of a file name, and what follows the dot. -/
def splitName (filename : String) : String × String :=
  let dot := lastIndexOf '.' filename.toList
  if 0 < dot then
    (String.ofList (filename.toList.take dot.toNat), String.ofList (filename.toList.drop (dot + 1).toNat))
  else (filename, "bin")

section

variable (js : JsText)

/-- `pathStemAndExt`. -/
def pathStemAndExt (input : String) : PathParts where
  directory := (splitPath input).1
  stem := (splitName (splitPath input).2).1
  ext := js.toLowerCase (splitName (splitPath input).2).2

/-- `directorySuffix`. -/
def directorySuffix (normalized : String) : String :=
  if normalized = "csv" then "converted-csv-sheets" else "converted-" ++ normalized ++ "-pages"

/-- `SINGLE_FILE_BITMAP_INPUTS` (lines 96–99). -/
def singleFileBitmapInputs : List String :=
  ["heic", "heif", "psd", "dng", "cr2", "cr3", "arw", "nef", "orf", "rw2", "pef", "raf", "tiff", "tif", "bmp"]

/-- `isDirectoryOutput`. -/
def isDirectoryOutput (input target : String) : Bool :=
  let normalized := js.toLowerCase target
  if normalized = "csv" ∧ (pathStemAndExt js input).ext = "xlsx" then true
  else if normalized ∉ ["png", "jpg", "jpeg"] then false
  else (pathStemAndExt js input).ext ∉ singleFileBitmapInputs

/-- `target === "jpeg" ? "jpg" : target` -/
def jpgOf (target : String) : String := if target = "jpeg" then "jpg" else target

/-- `suggestedOutput`. -/
def suggestedOutput (input target : String) : String :=
  if input = "" ∨ target = "" then ""
  else
    let normalized := jpgOf target
    let directory := (splitPath input).1
    let stem := (splitName (splitPath input).2).1
    if isDirectoryOutput js input target then directory ++ stem ++ "." ++ directorySuffix normalized
    else directory ++ stem ++ ".converted." ++ normalized

/-- The end of the names of `suggestedConvertedName`. -/
def suggestedEnd (input normalized : String) : String :=
  if isDirectoryOutput js input normalized then "." ++ directorySuffix normalized else ".converted." ++ normalized

/-- The loop of `suggestedConvertedName`, for a number of turns. -/
def searchName (reserved : List String) (input normalized : String) : ℕ → ℕ → Option String
  | 0, _ => none
  | turns + 1, index =>
    let parts := pathStemAndExt js input
    let candidate := parts.directory ++ parts.stem ++ ".from-" ++ parts.ext ++ "-" ++ toString index ++
      suggestedEnd js input normalized
    if candidate ∉ reserved then some candidate else searchName reserved input normalized turns (index + 1)

/-- `suggestedConvertedName`, if its loop ends within a number of turns. -/
def suggestedConvertedNameJs (turns : ℕ) (input target : String) (reserved : List String) : Option String :=
  let normalized := jpgOf target
  let parts := pathStemAndExt js input
  let first := parts.directory ++ parts.stem ++ suggestedEnd js input normalized
  let second := parts.directory ++ parts.stem ++ ".from-" ++ parts.ext ++ suggestedEnd js input normalized
  if first ∉ reserved then some first
  else if second ∉ reserved then some second
  else searchName js reserved input normalized turns 2

/-- `SUPPORTED_TARGET_FORMATS` (lines 111–113). -/
def supportedTargetFormats : List String :=
  ["jpg", "png", "webp", "avif", "mp4", "mp3", "m4a", "wav", "gif", "pdf", "docx", "md", "json", "csv", "yaml", "xml"]

/-! ## The three front ends -/

/-- The server, the window and the file manager take the target. -/
def Accepted (target : String) : Prop :=
  Web.normalizeTarget target ∈ Routes.knownTargets ∧ target ∈ supportedTargetFormats ∧
    (normalizeShellConvertTarget target).isSome

instance (target : String) : Decidable (Accepted target) := inferInstanceAs (Decidable (_ ∧ _ ∧ _))

/-- Whether the server makes a directory (`web.rs`, lines 743–748). -/
def serverDirectory (name target : String) : Bool :=
  ["jpg", "png"].contains target && !Web.singleFileBitmapInputs.contains ((Web.fileExtension name).getD "")

/-- The characters between the names of a path. -/
def separates (windows : Bool) (c : Char) : Bool := c = '/' || (windows && c = '\\')

/-- The last name of a path. -/
def finalName (windows : Bool) (path : String) : String :=
  String.ofList (path.toList.reverse.takeWhile fun c => !separates windows c).reverse

/-- A file of a directory: the text and the path of its path. -/
structure NamedInput (windows : Bool) where
  directory : String
  name : String
  path : AbsPath
  ends : ∀ c ∈ directory.toList.getLast?, separates windows c = true
  named : name ≠ "" ∧ name ≠ "." ∧ name ≠ ".."
  single : ∀ c ∈ name.toList, separates windows c = false
  last : path.components.getLast? = some (PathBuf.ofString name)

/-- The text of the path. -/
def NamedInput.text {windows : Bool} (input : NamedInput windows) : String := input.directory ++ input.name

/-- The three front ends choose the same shape and the same name, with nothing reserved. -/
def Agree {windows : Bool} (input : NamedInput windows) (target : String) : Prop :=
  let server := Web.normalizeTarget target
  let name := Web.plannedName input.name server
  isDirectoryOutput js input.text target = serverDirectory input.name server ∧
  finalName windows (suggestedOutput js input.text target) = name ∧
  (suggestedConvertedNameJs js 0 input.text target []).map (finalName windows) = some name ∧
  ∀ shell ∈ normalizeShellConvertTarget target,
    isPdfPageDirectory input.path (shownTarget shell) = serverDirectory input.name server ∧
    (suggestedConvertedName 0 input.path shell []).map (fun output => output.components.getLast?) =
      some (some (PathBuf.ofString name))

/-- A name has a dot after its first character at the same place for the window, which begins it after the last
    backslash, and for the others. -/
def SplitsAlike (name : String) : Prop :=
  '.' ∈ (finalName true name).toList.tail ∨ '.' ∉ name.toList.tail

instance (name : String) : Decidable (SplitsAlike name) := inferInstanceAs (Decidable (_ ∨ _))

/-! ## The last occurrence of a character -/

section LastIndex

variable {c : Char} {before after text : List Char}

theorem lastIndexOf_of_notMem (h : c ∉ text) : lastIndexOf c text = -1 := by
  have hall : text.reverse.takeWhile (· ≠ c) = text.reverse := by
    rw [List.takeWhile_eq_self_iff]
    intro d hd
    have hne : d ≠ c := fun heq => h (heq ▸ List.mem_reverse.mp hd)
    simpa using hne
  rw [lastIndexOf, hall, List.length_reverse]
  omega

theorem lastIndexOf_append (h : c ∉ after) : lastIndexOf c (before ++ c :: after) = before.length := by
  have hall : ∀ d ∈ after.reverse, decide (d ≠ c) = true := by
    intro d hd
    have hne : d ≠ c := fun heq => h (heq ▸ List.mem_reverse.mp hd)
    simpa using hne
  have hreverse : (before ++ c :: after).reverse = after.reverse ++ c :: before.reverse := by simp
  rw [lastIndexOf, hreverse, List.takeWhile_append_of_pos hall, List.takeWhile_cons_of_neg (by simp),
    List.append_nil, List.length_reverse, List.length_append, List.length_cons]
  omega

theorem exists_last (h : c ∈ text) : ∃ before after, text = before ++ c :: after ∧ c ∉ after := by
  obtain ⟨last, front, hreverse, hlast⟩ := List.eq_append_cons_of_mem (List.mem_reverse.mpr h)
  refine ⟨front.reverse, last.reverse, ?_, mt List.mem_reverse.mp hlast⟩
  rw [← List.reverse_reverse text, hreverse, List.reverse_append, List.reverse_cons, List.append_assoc]
  rfl

theorem lastIndexOf_lt (h : c ∉ after) : lastIndexOf c (before ++ after) < before.length ∨ before = [] := by
  by_cases hbefore : c ∈ before
  · obtain ⟨front, rest, rfl, hrest⟩ := exists_last hbefore
    have hafter : c ∉ rest ++ after := by
      rw [List.mem_append, not_or]
      exact ⟨hrest, h⟩
    rw [List.append_assoc, List.cons_append, lastIndexOf_append hafter, List.length_append, List.length_cons]
    omega
  · have htext : c ∉ before ++ after := by
      rw [List.mem_append, not_or]
      exact ⟨hbefore, h⟩
    rw [lastIndexOf_of_notMem htext]
    omega

/-- A name has a dot after its first character, the last of which cuts it; or it has none. -/
theorem dot_cases (text : List Char) : (∃ before after, text = before ++ '.' :: after ∧ before ≠ [] ∧ '.' ∉ after) ∨
    '.' ∉ text.tail := by
  by_cases hdot : '.' ∈ text.tail
  · obtain ⟨before, after, htail, hafter⟩ := exists_last hdot
    left
    cases text with
    | nil => cases hdot
    | cons c text =>
      rw [List.tail_cons] at htail
      exact ⟨c :: before, after, by rw [htail, List.cons_append], List.cons_ne_nil _ _, hafter⟩
  · exact .inr hdot

end LastIndex

/-! ## The parts of a path -/

/-- The name of a file for the window: neither kind of slash is in it. -/
def Plain (base : String) : Prop := '/' ∉ base.toList ∧ '\\' ∉ base.toList

/-- The window takes for the directory what ends in a slash of either kind. -/
theorem splitPath_append {directory base : String} (hbase : Plain base)
    (hends : ∀ c ∈ directory.toList.getLast?, separates true c = true) :
    splitPath (directory ++ base) = (directory, base) := by
  rw [splitPath, String.toList_append]
  rcases List.eq_nil_or_concat directory.toList with hnil | ⟨front, slash, hfront⟩
  · rw [hnil, List.nil_append, lastIndexOf_of_notMem hbase.1, lastIndexOf_of_notMem hbase.2, if_neg (by decide)]
    rw [String.toList_eq_nil_iff.mp hnil, String.empty_append]
  · have hslash : slash = '/' ∨ slash = '\\' := by
      have hlast := hends slash (by rw [hfront, List.concat_eq_append, List.getLast?_concat]; rfl)
      simpa [separates] using hlast
    have hlength : directory.toList.length = front.length + 1 := by
      rw [hfront, List.length_concat]
    have hmax : max (lastIndexOf '/' (directory.toList ++ base.toList))
        (lastIndexOf '\\' (directory.toList ++ base.toList)) = front.length := by
      have hne : directory.toList ≠ [] := by
        intro hnil
        rw [hnil] at hlength
        simp at hlength
      have hfirst := (lastIndexOf_lt hbase.1).resolve_right hne
      have hsecond := (lastIndexOf_lt hbase.2).resolve_right hne
      have htext : directory.toList ++ base.toList = front ++ slash :: base.toList := by
        rw [hfront, List.concat_eq_append, List.append_assoc, List.singleton_append]
      rcases hslash with rfl | rfl
      · have hat : lastIndexOf '/' (front ++ '/' :: base.toList) = front.length := lastIndexOf_append hbase.1
        rw [← htext] at hat
        omega
      · have hat : lastIndexOf '\\' (front ++ '\\' :: base.toList) = front.length := lastIndexOf_append hbase.2
        rw [← htext] at hat
        omega
    have hcut : ((front.length : ℤ) + 1).toNat = directory.toList.length := by omega
    rw [hmax, if_pos (by omega), hcut, List.take_left, List.drop_left, String.ofList_toList, String.ofList_toList]

theorem splitName_of_dot {filename : String} {before after : List Char}
    (hname : filename.toList = before ++ '.' :: after) (hbefore : before ≠ []) (hafter : '.' ∉ after) :
    splitName filename = (String.ofList before, String.ofList after) := by
  have hpositive : 0 < before.length := List.length_pos_iff.mpr hbefore
  have hcut : ((before.length : ℤ) + 1).toNat = (before ++ ['.']).length := by
    rw [List.length_append, List.length_singleton]
    omega
  have hsplit : before ++ '.' :: after = (before ++ ['.']) ++ after := by simp
  rw [splitName, hname, lastIndexOf_append hafter, if_pos (by omega), Int.toNat_natCast, List.take_left, hcut, hsplit,
    List.drop_left]

theorem splitName_of_no_dot {filename : String} (h : '.' ∉ filename.toList.tail) :
    splitName filename = (filename, "bin") := by
  have hdot : lastIndexOf '.' filename.toList ≤ 0 := by
    cases hname : filename.toList with
    | nil => decide
    | cons c text =>
      rw [hname, List.tail_cons] at h
      have hlt := @lastIndexOf_lt '.' [c] text h
      rw [List.singleton_append, List.length_singleton] at hlt
      have hne : [c] ≠ [] := List.cons_ne_nil _ _
      have hlt := hlt.resolve_right hne
      omega
  rw [splitName, if_neg (by omega)]

/-- The last name of a path whose directory ends in a separator. -/
theorem finalName_append {windows : Bool} {directory name : String}
    (hends : ∀ c ∈ directory.toList.getLast?, separates windows c = true)
    (hname : ∀ c ∈ name.toList, separates windows c = false) : finalName windows (directory ++ name) = name := by
  have hall : ∀ c ∈ name.toList.reverse, (!separates windows c) = true := by
    intro c hc
    rw [hname c (List.mem_reverse.mp hc)]
    rfl
  have hstop : directory.toList.reverse.takeWhile (fun c => !separates windows c) = [] := by
    cases hlast : directory.toList.reverse with
    | nil => rfl
    | cons c rest =>
      have hsep : separates windows c = true := by
        apply hends
        rw [List.getLast?_eq_head?_reverse, hlast]
        rfl
      rw [List.takeWhile_cons_of_neg (by rw [hsep]; decide)]
  rw [finalName, String.toList_append, List.reverse_append, List.takeWhile_append_of_pos hall, hstop, List.append_nil,
    List.reverse_reverse, String.ofList_toList]

/-- A name is cut after its last backslash. -/
theorem exists_base {name : String} (h : '/' ∉ name.toList) :
    ∃ front, name = front ++ finalName true name ∧ Plain (finalName true name) ∧
      ∀ c ∈ front.toList.getLast?, c = '\\' := by
  by_cases hslash : '\\' ∈ name.toList
  · obtain ⟨before, after, hname, hafter⟩ := exists_last hslash
    have hafterSlash : '/' ∉ after := by
      rw [hname, List.mem_append, List.mem_cons, not_or, not_or] at h
      exact h.2.2
    have hsplit : name = String.ofList (before ++ ['\\']) ++ String.ofList after := by
      apply String.toList_inj.mp
      simp [hname]
    have hfinal : finalName true name = String.ofList after := by
      conv_lhs => rw [hsplit]
      apply finalName_append
      · simp [separates]
      · intro c hc
        rw [String.toList_ofList] at hc
        have h1 : c ≠ '/' := fun heq => hafterSlash (heq ▸ hc)
        have h2 : c ≠ '\\' := fun heq => hafter (heq ▸ hc)
        simp [separates, h1, h2]
    refine ⟨String.ofList (before ++ ['\\']), ?_, ?_, by simp⟩
    · rw [hfinal]
      exact hsplit
    · rw [hfinal, Plain, String.toList_ofList]
      exact ⟨hafterSlash, hafter⟩
  · have hfinal : finalName true name = name := by
      have hall : finalName true ("" ++ name) = name := by
        apply finalName_append
        · simp
        · intro c hc
          have h1 : c ≠ '/' := fun heq => h (heq ▸ hc)
          have h2 : c ≠ '\\' := fun heq => hslash (heq ▸ hc)
          simp [separates, h1, h2]
      rwa [String.empty_append] at hall
    refine ⟨"", ?_, ?_, by simp⟩
    · rw [hfinal, String.empty_append]
    · rw [hfinal]
      exact ⟨h, hslash⟩

/-! ## Lower case -/

/-- A word that the names ask for: of ASCII without `k`, and neither empty nor `bin`. -/
def Word (word : String) : Prop :=
  word.toList.all (fun c => c.toNat < 128 && c != 'k') = true ∧ word ≠ "" ∧ word ≠ "bin"

instance (word : String) : Decidable (Word word) := inferInstanceAs (Decidable (_ ∧ _ ∧ _))

theorem toNat_lt_of_toLower {c : Char} (h : c.toLower.toNat < 128) : c.toNat < 128 := by
  rw [Char.toLower] at h
  split at h
  · next hupper =>
    have hle : c.toNat ≤ 90 := by exact_mod_cast hupper.2
    omega
  · exact h

theorem toLowerCase_eq_iff {word : String} (hword : Word word) (text : String) :
    js.toLowerCase text = word ↔ toAsciiLowercase text = word := by
  have hall : ∀ c ∈ word.toList, c.toNat < 128 ∧ c ≠ 'k' := by
    intro c hc
    simpa using List.all_eq_true.mp hword.1 c hc
  by_cases hascii : ∀ c ∈ text.toList, c.toNat < 128
  · rw [js.ascii text hascii]
  · push Not at hascii
    obtain ⟨c, hc, hlarge⟩ := hascii
    constructor
    · intro heq
      obtain ⟨d, hd, hother⟩ := js.other text c hc hlarge
      rw [heq] at hd
      obtain ⟨hsmall, hk⟩ := hall d hd
      rcases hother with hother | hother
      · omega
      · exact absurd hother hk
    · intro heq
      have hmem : c.toLower ∈ word.toList := by
        rw [← heq, toAsciiLowercase, String.toList_ofList]
        exact List.mem_map_of_mem hc
      have hsmall := toNat_lt_of_toLower (hall _ hmem).1
      omega

/-! ## The window beside the others -/

section Input

variable {windows : Bool} (input : NamedInput windows)

/-- What the window makes of a path: the stem after the directory, which is that of the others for a name that
    splits alike, and then the extension is the same word. -/
theorem window_parts : ∃ stem, (pathStemAndExt js input.text).directory ++ (pathStemAndExt js input.text).stem =
      input.directory ++ stem ∧
    (∀ c ∈ stem.toList, separates windows c = false) ∧
    (stem = Web.stemOf input.name ↔ SplitsAlike input.name) ∧
    (SplitsAlike input.name → ∀ word, Word word →
      ((pathStemAndExt js input.text).ext = word ↔ (Web.fileExtension input.name).getD "" = word)) := by
  have hslash : '/' ∉ input.name.toList := by
    intro hmem
    have hsep := input.single '/' hmem
    simp [separates] at hsep
  obtain ⟨front, hname, hplain, hfront⟩ := exists_base hslash
  generalize hbase : finalName true input.name = base at hname hplain
  have hends : ∀ c ∈ (input.directory ++ front).toList.getLast?, separates true c = true := by
    intro c hc
    rw [String.toList_append] at hc
    by_cases hnil : front.toList = []
    · rw [hnil, List.append_nil] at hc
      have hsep := input.ends c hc
      revert hsep
      cases windows <;> simp +contextual [separates]
    · rw [List.getLast?_append_of_ne_nil _ hnil] at hc
      rw [hfront c hc]
      rfl
  have hsplit : splitPath input.text = (input.directory ++ front, base) := by
    rw [NamedInput.text, hname, ← String.append_assoc]
    exact splitPath_append hplain hends
  have hchars : input.name.toList = front.toList ++ base.toList := by
    rw [hname, String.toList_append]
  have hparts : (pathStemAndExt js input.text).directory ++ (pathStemAndExt js input.text).stem =
      input.directory ++ (front ++ (splitName base).1) := by
    rw [pathStemAndExt, hsplit, ← String.append_assoc]
  have hext : (pathStemAndExt js input.text).ext = js.toLowerCase (splitName base).2 := by
    rw [pathStemAndExt, hsplit]
  refine ⟨front ++ (splitName base).1, hparts, ?_⟩
  rw [hext, SplitsAlike, hbase]
  rcases dot_cases base.toList with ⟨before, after, hdot, hbefore, hafter⟩ | hbaseDot
  · -- the dot is in what the window takes for the name
    have hnameDot : input.name.toList = (front.toList ++ before) ++ '.' :: after := by
      rw [hchars, hdot, List.append_assoc]
    obtain ⟨hstem, hextension⟩ := names_of_dot hnameDot (List.append_ne_nil_of_right_ne_nil _ hbefore) hafter
    have hstems : front ++ String.ofList before = Web.stemOf input.name := by
      rw [hstem]
      apply String.toList_inj.mp
      simp
    have hmem : '.' ∈ base.toList.tail := by
      rw [hdot, List.tail_append_of_ne_nil hbefore]
      exact List.mem_append_right _ List.mem_cons_self
    rw [splitName_of_dot hdot hbefore hafter]
    refine ⟨?_, iff_of_true hstems (.inl hmem), ?_⟩
    · intro c hc
      apply input.single
      rw [hnameDot]
      rw [hstems, hstem, String.toList_ofList] at hc
      exact List.mem_append_left _ hc
    · intro _ word hword
      rw [hextension, Option.getD_some]
      exact toLowerCase_eq_iff js hword _
  · rw [splitName_of_no_dot hbaseDot, ← hname]
    refine ⟨input.single, ?_, ?_⟩
    · rcases dot_cases input.name.toList with ⟨before, after, hdot, hbefore, hafter⟩ | hnameDot
      · -- the others cut the name before the last backslash
        refine iff_of_false ?_ ?_
        · rw [(names_of_dot hdot hbefore hafter).1]
          intro heq
          have hlength := congrArg (List.length ∘ String.toList) heq
          simp only [Function.comp_apply, String.toList_ofList, hdot, List.length_append, List.length_cons] at hlength
          omega
        · rintro (hmem | hnone)
          · exact hbaseDot hmem
          · apply hnone
            rw [hdot, List.tail_append_of_ne_nil hbefore]
            exact List.mem_append_right _ List.mem_cons_self
      · exact iff_of_true (names_of_no_dot hnameDot).1.symm (.inr hnameDot)
    · rintro (hmem | hnameDot) word hword
      · exact absurd hmem hbaseDot
      · rw [toLowerCase_eq_iff js hword, (names_of_no_dot hnameDot).2, Option.getD_none]
        have hbin : toAsciiLowercase "bin" = "bin" := by decide
        rw [hbin]
        exact iff_of_false hword.2.2.symm hword.2.1.symm

end Input

/-! ## Targets -/

/-- How the front ends spell a target that all take. -/
structure Spelled (target : String) : Prop where
  server : Web.normalizeTarget target = target
  shell : normalizeShellConvertTarget target = some target
  shown : shownTarget target = target
  jpg : jpgOf target = target
  lower : toAsciiLowercase target = target
  plain : target.toList.all (fun c => !separates true c && decide (c.toNat < 128)) = true
  ne_empty : target ≠ ""
  ne_jpeg : target ≠ "jpeg"

theorem spelled_of_accepted {target : String} (h : Accepted target) : Spelled target := by
  have hall : ∀ target ∈ supportedTargetFormats, Accepted target →
      Web.normalizeTarget target = target ∧ normalizeShellConvertTarget target = some target ∧
        shownTarget target = target ∧ jpgOf target = target ∧ toAsciiLowercase target = target ∧
        target.toList.all (fun c => !separates true c && decide (c.toNat < 128)) = true ∧ target ≠ "" ∧
        target ≠ "jpeg" := by decide
  obtain ⟨server, shell, shown, jpg, lower, plain, ne_empty, ne_jpeg⟩ := hall target h.2.1 h
  exact ⟨server, shell, shown, jpg, lower, plain, ne_empty, ne_jpeg⟩

/-- The end of a name that is a directory or a file. -/
def endOf (directory : Bool) (target : String) : String :=
  if directory then ".converted-" ++ target ++ "-pages" else ".converted." ++ target

section Ends

variable {target : String} {windows : Bool} (input : NamedInput windows)

theorem plannedName_eq (name : String) :
    Web.plannedName name target = Web.stemOf name ++ endOf (serverDirectory name target) target := by
  rw [Web.plannedName, endOf, serverDirectory]
  split_ifs <;> simp only [String.append_assoc]

theorem Spelled.toLowerCase (h : Spelled target) : js.toLowerCase target = target := by
  rw [js.ascii target, h.lower]
  intro c hc
  have hplain := List.all_eq_true.mp h.plain c hc
  rw [Bool.and_eq_true] at hplain
  exact of_decide_eq_true hplain.2

theorem fileName_input : fileName input.path = some (PathBuf.ofString input.name) := by
  rw [fileName, input.last, Option.filter_some, if_pos]
  have hne : PathBuf.ofString input.name ≠ parentDir := fun heq => input.named.2.2 (PathBuf.ofString_injective heq)
  simpa using hne

theorem lowerExtension_input : lowerExtension input.path "" = (Web.fileExtension input.name).getD "" := by
  rw [lowerExtension, fileName_input, Option.bind_some, Web.fileExtension]
  cases (extension (PathBuf.ofString input.name)).bind toStr? with
  | none => decide
  | some text => rfl

theorem shellStem_input : shellStem input.path = Web.stemOf input.name := by
  obtain ⟨rest, hrest⟩ := Folder.fileStem_prefix (PathBuf.ofString input.name)
  obtain ⟨front, back, -, hfront, -⟩ := List.map_eq_append_iff.mp hrest.symm
  have hstem : fileStem (PathBuf.ofString input.name) = PathBuf.ofString (String.ofList front) := by
    have htext : PathBuf.ofString (String.ofList front) = front.map PathUnit.char := by
      rw [PathBuf.ofString, String.toList_ofList]
    rw [htext, hfront]
  rw [shellStem, fileName_input, Option.map_some, Option.bind_some, stemOf_of_fileStem hstem, hstem, toStr?_ofString]
  rfl

theorem shellName_eq (h : Spelled target) :
    (suggestedConvertedName 0 input.path target []).map (fun output => output.components.getLast?) = some (some
      (PathBuf.ofString (Web.stemOf input.name ++ endOf (isPdfPageDirectory input.path target) target))) := by
  rw [suggestedConvertedName, h.shown, if_pos List.not_mem_nil, Option.map_some, beside, List.getLast?_concat,
    firstName, shellStem_input]
  rfl

theorem Spelled.endOf_single (h : Spelled target) (directory : Bool) :
    ∀ c ∈ (endOf directory target).toList, separates windows c = false := by
  have hmono : ∀ c, separates true c = false → separates windows c = false := by
    intro c
    cases windows <;> simp +contextual [separates]
  have hplain : ∀ c ∈ target.toList, separates true c = false := by
    intro c hc
    have hboth := List.all_eq_true.mp h.plain c hc
    rw [Bool.and_eq_true, Bool.not_eq_true'] at hboth
    exact hboth.1
  have hfixed : ∀ text ∈ [".converted-", "-pages", ".converted."],
      text.toList.all (fun c => !separates true c) = true := by decide
  have htext : ∀ text ∈ [".converted-", "-pages", ".converted."], ∀ c ∈ text.toList, separates true c = false := by
    intro text htext c hc
    simpa using List.all_eq_true.mp (hfixed text htext) c hc
  intro c hc
  apply hmono
  rw [endOf] at hc
  split_ifs at hc
  · rw [String.toList_append, String.toList_append, List.mem_append, List.mem_append] at hc
    rcases hc with (hc | hc) | hc
    · exact htext _ (by simp) c hc
    · exact hplain c hc
    · exact htext _ (by simp) c hc
  · rw [String.toList_append, List.mem_append] at hc
    rcases hc with hc | hc
    · exact htext _ (by simp) c hc
    · exact hplain c hc

theorem windowNames_eq (h : Spelled target) (hshape : isDirectoryOutput js input.text target =
    serverDirectory input.name target) : ∃ stem, (stem = Web.stemOf input.name ↔ SplitsAlike input.name) ∧
    finalName windows (suggestedOutput js input.text target) =
      stem ++ endOf (serverDirectory input.name target) target ∧
    (suggestedConvertedNameJs js 0 input.text target []).map (finalName windows) =
      some (stem ++ endOf (serverDirectory input.name target) target) := by
  obtain ⟨stem, hparts, hsingle, hstem, -⟩ := window_parts js input
  have hne : input.text ≠ "" := by
    rw [NamedInput.text]
    intro heq
    exact input.named.1 (String.append_eq_empty_iff.mp heq).2
  have hend : (if isDirectoryOutput js input.text target then "." ++ directorySuffix target
      else ".converted." ++ target) = endOf (serverDirectory input.name target) target := by
    rw [hshape, endOf]
    split_ifs with hdirectory
    · have htarget : target ≠ "csv" := by
        rintro rfl
        rw [serverDirectory, Bool.and_eq_true] at hdirectory
        exact absurd hdirectory.1 (by decide)
      rw [directorySuffix, if_neg htarget, ← String.append_assoc, ← String.append_assoc]
      rfl
    · rfl
  have hfinal : finalName windows (input.directory ++ (stem ++ endOf (serverDirectory input.name target) target)) =
      stem ++ endOf (serverDirectory input.name target) target := by
    apply finalName_append input.ends
    intro c hc
    rw [String.toList_append, List.mem_append] at hc
    exact hc.elim (hsingle c) (h.endOf_single _ c)
  refine ⟨stem, hstem, ?_, ?_⟩
  · have hwhole : suggestedOutput js input.text target =
        (pathStemAndExt js input.text).directory ++ (pathStemAndExt js input.text).stem ++
          (if isDirectoryOutput js input.text target then "." ++ directorySuffix target
          else ".converted." ++ target) := by
      rw [suggestedOutput, if_neg (not_or.mpr ⟨hne, h.ne_empty⟩), h.jpg]
      dsimp only [pathStemAndExt]
      split_ifs <;> simp only [String.append_assoc]
    rw [hwhole, hparts, hend, String.append_assoc, hfinal]
  · rw [suggestedConvertedNameJs, h.jpg, if_pos List.not_mem_nil, suggestedEnd, Option.map_some, hparts, hend,
      String.append_assoc, hfinal]

/-- **The three agree** if they choose the same shape and the window cuts the name as the others do. -/
theorem agree_iff_shapes (h : Spelled target) : Agree js input target ↔
    isDirectoryOutput js input.text target = serverDirectory input.name target ∧
    isPdfPageDirectory input.path target = serverDirectory input.name target ∧ SplitsAlike input.name := by
  rw [Agree, h.server, h.shell, plannedName_eq]
  constructor
  · rintro ⟨hwindow, hname, -, hshell⟩
    obtain ⟨hpages, -⟩ := hshell target rfl
    rw [h.shown] at hpages
    obtain ⟨stem, hstem, hfinal, -⟩ := windowNames_eq js input h hwindow
    rw [hfinal] at hname
    exact ⟨hwindow, hpages, hstem.mp (String.append_left_inj _ |>.mp hname)⟩
  · rintro ⟨hwindow, hpages, hsplit⟩
    obtain ⟨stem, hstem, hfinal, hsuggested⟩ := windowNames_eq js input h hwindow
    rw [← hstem.mpr hsplit]
    refine ⟨hwindow, hfinal, hsuggested, ?_⟩
    rintro shell hshell
    cases hshell
    rw [h.shown, shellName_eq input h, hpages, hstem.mpr hsplit]
    exact ⟨rfl, rfl⟩

/-- The window and the server choose one shape, except for the sheets of a workbook. -/
theorem windowShape_iff (h : Spelled target) (hsplit : SplitsAlike input.name) :
    isDirectoryOutput js input.text target = serverDirectory input.name target ↔
      ¬((Web.fileExtension input.name).getD "" = "xlsx" ∧ target = "csv") := by
  obtain ⟨-, -, -, -, hext⟩ := window_parts js input
  have hbook := hext hsplit "xlsx" (by decide)
  have hsingle : (pathStemAndExt js input.text).ext ∈ singleFileBitmapInputs ↔
      (Web.fileExtension input.name).getD "" ∈ Web.singleFileBitmapInputs := by
    have hwords : ∀ word ∈ singleFileBitmapInputs, Word word := by decide
    constructor
    · intro hmem
      have heq := (hext hsplit _ (hwords _ hmem)).mp rfl
      rwa [heq]
    · intro hmem
      have heq := (hext hsplit _ (hwords _ hmem)).mpr rfl
      rwa [heq]
  rw [isDirectoryOutput, h.toLowerCase, serverDirectory]
  simp only [hbook]
  by_cases hcsv : target = "csv"
  · subst hcsv
    by_cases hxlsx : (Web.fileExtension input.name).getD "" = "xlsx"
    · simp [hxlsx]
    · simp [hxlsx]
  · by_cases hbitmap : target ∈ ["png", "jpg"]
    · have hboth : target = "png" ∨ target = "jpg" := by simpa using hbitmap
      rcases hboth with rfl | rfl
      · simp [hsingle]
      · simp [hsingle]
    · rw [List.mem_cons, List.mem_singleton, not_or] at hbitmap
      simp [hcsv, hbitmap, h.ne_jpeg]

theorem shellShape_iff (h : Spelled target) : isPdfPageDirectory input.path target = serverDirectory input.name target ↔
    (target ∈ ["jpg", "png"] → (Web.fileExtension input.name).getD "" ∈ "pdf" :: singleFileBitmapInputs) := by
  rw [isPdfPageDirectory, lowerExtension_input, serverDirectory]
  generalize (Web.fileExtension input.name).getD "" = extension
  have hpdf : "pdf" ∉ Web.singleFileBitmapInputs := by decide
  by_cases hbitmap : target ∈ ["jpg", "png"]
  · have hboth : target = "jpg" ∨ target = "png" := by simpa using hbitmap
    have hshape : (decide (extension = "pdf") && ["png", "jpg", "jpeg"].contains target) = decide (extension = "pdf") ∧
        (["jpg", "png"].contains target && !Web.singleFileBitmapInputs.contains extension) =
          !Web.singleFileBitmapInputs.contains extension := by
      rcases hboth with rfl | rfl <;> simp
    rw [hshape.1, hshape.2]
    by_cases heq : extension = "pdf"
    · subst heq
      simp [hpdf]
    · rw [decide_eq_false heq, eq_comm, Bool.not_eq_false', List.contains_iff_mem]
      constructor
      · intro hmem _
        exact List.mem_cons_of_mem _ hmem
      · intro hmem
        exact (List.mem_cons.mp (hmem hbitmap)).resolve_left heq
  · have hne : target ≠ "jpg" ∧ target ≠ "png" := by simpa using hbitmap
    simp [hne, h.ne_jpeg]

end Ends

end

/-- **The three agree** on a name that the window cuts as the others do, unless it is a workbook of which the sheets
    are asked for, or a bitmap is asked for of what is neither a PDF nor a bitmap. -/
theorem names_agree_iff (js : JsText) (windows : Bool) (input : NamedInput windows) (target : String)
    (haccepted : Accepted target) : Agree js input target ↔
      SplitsAlike input.name ∧ ¬((Web.fileExtension input.name).getD "" = "xlsx" ∧ target = "csv") ∧
      (target ∈ ["jpg", "png"] → (Web.fileExtension input.name).getD "" ∈ "pdf" :: singleFileBitmapInputs) := by
  have hspelled := spelled_of_accepted haccepted
  rw [agree_iff_shapes js input hspelled, shellShape_iff input hspelled]
  constructor
  · rintro ⟨hwindow, hshell, hsplit⟩
    exact ⟨hsplit, (windowShape_iff js input hspelled hsplit).mp hwindow, hshell⟩
  · rintro ⟨hsplit, hwindow, hshell⟩
    exact ⟨(windowShape_iff js input hspelled hsplit).mpr hwindow, hshell, hsplit⟩

namespace NamesSample

/-- A lower case that changes the letters of ASCII only. -/
def js : JsText where
  toLowerCase := toAsciiLowercase
  ascii _ _ := rfl
  other text c hc hlarge := by
    refine ⟨c.toLower, ?_, .inl ?_⟩
    · rw [toAsciiLowercase, String.toList_ofList]
      exact List.mem_map_of_mem hc
    · by_contra hsmall
      have hlt := toNat_lt_of_toLower (not_le.mp hsmall)
      omega

/-- A file of `C:\in`. -/
def input (name : String) (named : name ≠ "" ∧ name ≠ "." ∧ name ≠ "..")
    (single : name.toList.all (fun c => !separates true c) = true) : NamedInput true where
  directory := "C:\\in\\"
  name := name
  path := ⟨.disk 'C', [PathBuf.ofString "in", PathBuf.ofString name]⟩
  ends := by
    intro c hc
    have hslash : c = '\\' := by simpa [eq_comm] using hc
    rw [hslash]
    rfl
  named := named
  single := by
    intro c hc
    simpa using List.all_eq_true.mp single c hc
  last := rfl

def book : NamedInput true := input "budget.xlsx" (by decide) (by decide)

/-- The sheets of a workbook are a directory for the window and a file for the server. -/
theorem sheets_differ : Accepted "csv" ∧ isDirectoryOutput js book.text "csv" = true ∧
    serverDirectory book.name "csv" = false ∧ ¬ Agree js book "csv" := by
  have haccepted : Accepted "csv" := by decide
  refine ⟨haccepted, by decide, by decide, ?_⟩
  rw [agree_iff_shapes js book (spelled_of_accepted haccepted)]
  rintro ⟨hwindow, -⟩
  revert hwindow
  decide

theorem names_agree_pages : Agree js (input "Report.v2.PDF" (by decide) (by decide)) "png" :=
  (names_agree_iff js true (input "Report.v2.PDF" (by decide) (by decide)) "png" (by decide)).mpr
    ⟨by decide, by decide, by decide⟩

end NamesSample

end Anole.Desktop
