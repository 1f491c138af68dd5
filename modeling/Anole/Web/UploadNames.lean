import Anole.Web.Upload

/-!
# Names of uploads

`sanitize_file_name` and `file_extension` (`crates/server/src/web.rs`, lines 350–370) on the names that clients send,
and what `upload` (lines 410–427) makes of them. The component of a name is what follows its last slash or backslash.

Results:
* `safe_sanitizeFileName`: the sanitized name is one component, of at most 120 characters.
* `parts_of_extension`: an upload whose sanitized name has a supported extension is stored under it.
* `upload_names_iff`: when the sanitized name keeps the extension of the client's name.

**Deviation.** The extension is no part of its own. Where nothing of the stem is left but dots, its dot is dropped with
them, and the extension becomes the name. And the name is cut after 120 characters wherever its extension begins, so
that `.xlsm` may become `.xls`.
-/

open Common

namespace Anole.Web

/-! ## Names -/

/-- The component of a client's name. -/
def baseName (raw : String) : List Char := (raw.toList.splitOnP isSlash).getLastD []

/-- The filter of `sanitize_file_name`. -/
def isKept (isAlphanumeric : Char → Bool) (c : Char) : Bool := isAlphanumeric c || c = '.' || c = '-' || c = '_'

/-- A text ends in an extension, in any case of its letters, behind a stem. -/
def EndsIn (text : List Char) (extension : String) (stem rest : List Char) : Prop :=
  text = stem ++ '.' :: rest ∧ stem ≠ [] ∧ toAsciiLowercase (String.ofList rest) = extension

/-- A single path component. -/
def Safe (name : String) : Prop :=
  name ≠ "" ∧ (∀ c ∈ name.toList, isSlash c = false) ∧ name ≠ "." ∧ name ≠ ".." ∧ name.toList.length ≤ 120

/-! ## Safety -/

theorem trimDots_prefix (text : List Char) : trimDots text <+: text.dropWhile (· = '.') := List.rdropWhile_prefix _ _

/-- Nothing begins with a dot once the dots are trimmed. -/
theorem head_trimDots {text tail : List Char} {c : Char} (h : trimDots text = c :: tail) : c ≠ '.' := by
  obtain ⟨rest, hrest⟩ := trimDots_prefix text
  rw [h, List.cons_append] at hrest
  rintro rfl
  have hhead := List.head?_dropWhile_not (fun c => decide (c = '.')) text
  rw [← hrest] at hhead
  cases hhead

theorem safe_sanitizeFileName (isAlphanumeric : Char → Bool) (raw : String) :
    Safe (sanitizeFileName isAlphanumeric raw) := by
  have hslash : ∀ c ∈ (sanitizeFileName isAlphanumeric raw).toList, isSlash c = false := fun c =>
    isSlash_of_mem_sanitizeFileName
  unfold sanitizeFileName at hslash ⊢
  dsimp only at hslash ⊢
  split at hslash
  · rename_i hempty
    rw [if_pos hempty]
    exact ⟨by decide, hslash, by decide, by decide, by decide⟩
  · rename_i hne
    rw [if_neg hne]
    obtain ⟨c, tail, htrimmed⟩ := List.exists_cons_of_ne_nil hne
    have hdot := head_trimDots htrimmed
    rw [htrimmed] at hslash ⊢
    have hname : ∀ text : String, text.toList.head? ≠ some c →
        String.ofList ((c :: tail).take 120) ≠ text := by
      rintro text hhead rfl
      exact hhead (by rw [String.toList_ofList]; rfl)
    refine ⟨hname _ ?_, hslash, hname _ ?_, hname _ ?_, ?_⟩
    · simp
    · exact fun h => hdot (Option.some.inj h).symm
    · exact fun h => hdot (Option.some.inj h).symm
    · rw [String.toList_ofList]
      exact List.length_take_le _ _

/-! ## Extensions -/

theorem fileExtension_iff {text : List Char} {ext : String} (hext : '.' ∉ ext.toList) :
    fileExtension (String.ofList text) = some ext ↔ ∃ stem rest, EndsIn text ext stem rest := by
  constructor
  · intro h
    by_cases hdot : '.' ∈ text.tail
    · obtain ⟨last, front, hreverse, hlast⟩ :=
        List.eq_append_cons_of_mem (List.mem_reverse.mpr (List.mem_of_mem_tail hdot))
      have htext : text = front.reverse ++ '.' :: last.reverse := by
        rw [← List.reverse_reverse text, hreverse, List.reverse_append, List.reverse_cons, List.append_assoc]
        rfl
      have hrest : '.' ∉ last.reverse := mt List.mem_reverse.mp hlast
      have hstem : front.reverse ≠ [] := by
        intro hnil
        rw [htext, hnil] at hdot
        exact hrest hdot
      have hlist : (String.ofList text).toList = front.reverse ++ '.' :: last.reverse := by
        rw [String.toList_ofList, htext]
      have hname := (names_of_dot hlist hstem hrest).2
      rw [hname, Option.some.injEq] at h
      exact ⟨_, _, htext, hstem, h⟩
    · rw [(names_of_no_dot (by rwa [String.toList_ofList])).2] at h
      cases h
  · rintro ⟨stem, rest, rfl, hstem, rfl⟩
    have hrest : '.' ∉ rest := by
      intro hmem
      apply hext
      rw [toAsciiLowercase, String.toList_ofList, String.toList_ofList]
      exact List.mem_map.mpr ⟨'.', hmem, rfl⟩
    rw [(names_of_dot (by rw [String.toList_ofList]) hstem hrest).2]

theorem inputExtensions_plain : ∀ ext ∈ inputExtensions, ext.toList ≠ [] ∧ ext.toList.all Char.isAlphanum = true := by
  decide

theorem isAlphanum_of_toLower {c : Char} (h : c.toLower.isAlphanum = true) : c.isAlphanum = true := by
  unfold Char.toLower at h
  split_ifs at h with hupper
  · have hc : c.isUpper = true := by simpa [Char.isUpper] using hupper
    rw [Char.isAlphanum, Char.isAlpha, hc]
    rfl
  · exact h

theorem dot_not_mem_of_inputExtensions {ext : String} (h : ext ∈ inputExtensions) : '.' ∉ ext.toList := by
  intro hmem
  have hplain := List.all_eq_true.mp (inputExtensions_plain ext h).2 '.' hmem
  exact absurd hplain (by decide)

section

variable {isAlphanumeric : Char → Bool} {ext : String} {stem rest : List Char}

theorem isAlphanum_of_extension (hext : ext ∈ inputExtensions)
    (hrest : toAsciiLowercase (String.ofList rest) = ext) : rest ≠ [] ∧ ∀ c ∈ rest, c.isAlphanum = true := by
  obtain ⟨hne, hall⟩ := inputExtensions_plain ext hext
  have hlower : ext.toList = rest.map Char.toLower := by
    rw [← hrest, toAsciiLowercase, String.toList_ofList, String.toList_ofList]
  rw [hlower] at hne hall
  refine ⟨fun hnil => hne (by rw [hnil]; rfl), fun c hc => ?_⟩
  exact isAlphanum_of_toLower (List.all_eq_true.mp hall _ (List.mem_map_of_mem hc))

/-- What is kept of a stem. -/
def keptStem (isAlphanumeric : Char → Bool) (stem : List Char) : List Char :=
  (stem.filter (isKept isAlphanumeric)).dropWhile (· = '.')

theorem trimDots_component (stem : List Char) (hascii : ∀ c : Char, c.isAlphanum = true → isAlphanumeric c = true) (hne : rest ≠ [])
    (hrest : ∀ c ∈ rest, c.isAlphanum = true) :
    trimDots ((stem ++ '.' :: rest).filter (isKept isAlphanumeric)) =
      if keptStem isAlphanumeric stem = [] then rest else keptStem isAlphanumeric stem ++ '.' :: rest := by
  have hdots : ∀ c ∈ rest, decide (c = '.') = false := fun c hc =>
    decide_eq_false fun heq => absurd (hrest c hc) (by rw [heq]; decide)
  have hkept : ('.' :: rest).filter (isKept isAlphanumeric) = '.' :: rest := by
    refine List.filter_eq_self.mpr fun c hc => ?_
    rcases List.mem_cons.mp hc with rfl | hmem
    · simp [isKept]
    · simp [isKept, hascii c (hrest c hmem)]
  have htrim : ∀ front : List Char, ((front ++ rest).reverse.dropWhile (· = '.')).reverse = front ++ rest := by
    intro front
    obtain ⟨last, before, hreverse⟩ := List.exists_cons_of_ne_nil (mt List.reverse_eq_nil_iff.mp hne)
    have hlast : decide (last = '.') = false :=
      hdots last (List.mem_reverse.mp (by rw [hreverse]; exact List.mem_cons_self))
    rw [List.reverse_append, hreverse, List.cons_append, List.dropWhile_cons_of_neg (by rw [hlast]; decide),
      ← List.cons_append, ← hreverse, ← List.reverse_append, List.reverse_reverse]
  unfold trimDots keptStem
  rw [List.filter_append, hkept, List.dropWhile_append]
  by_cases hempty : (stem.filter (isKept isAlphanumeric)).dropWhile (· = '.') = []
  · obtain ⟨first, tail, hfirst⟩ := List.exists_cons_of_ne_nil hne
    have hhead : decide (first = '.') = false := hdots first (by rw [hfirst]; exact List.mem_cons_self)
    rw [hempty, if_pos (show List.isEmpty [] = true from rfl), if_pos (rfl : ([] : List Char) = []),
      List.dropWhile_cons_of_pos (by decide), hfirst,
      List.dropWhile_cons_of_neg (by rw [hhead]; decide), ← hfirst]
    exact htrim []
  · have hfront := htrim ((stem.filter (isKept isAlphanumeric)).dropWhile (· = '.') ++ ['.'])
    rw [List.append_assoc] at hfront
    rw [if_neg (by rwa [List.isEmpty_iff]), if_neg hempty]
    exact hfront

theorem sanitizeFileName_eq (hascii : ∀ c : Char, c.isAlphanum = true → isAlphanumeric c = true) {raw : String}
    (hext : ext ∈ inputExtensions) (h : EndsIn (baseName raw) ext stem rest) :
    sanitizeFileName isAlphanumeric raw = String.ofList ((if keptStem isAlphanumeric stem = [] then rest
      else keptStem isAlphanumeric stem ++ '.' :: rest).take 120) := by
  obtain ⟨hbase, -, hlower⟩ := h
  obtain ⟨hne, hrest⟩ := isAlphanum_of_extension hext hlower
  have htrimmed := trimDots_component stem hascii hne hrest
  rw [← hbase] at htrimmed
  have hname : sanitizeFileName isAlphanumeric raw =
      if trimDots ((baseName raw).filter (isKept isAlphanumeric)) = [] then "upload"
      else String.ofList ((trimDots ((baseName raw).filter (isKept isAlphanumeric))).take 120) := rfl
  rw [hname, htrimmed, if_neg]
  split_ifs
  · exact hne
  · exact List.append_ne_nil_of_right_ne_nil _ (List.cons_ne_nil _ _)

/-- The extension of a client's name is kept, by its stem and its letters. -/
def Fits (isAlphanumeric : Char → Bool) (ext : String) (stem rest : List Char) : Prop :=
  keptStem isAlphanumeric stem ≠ [] ∧ ((keptStem isAlphanumeric stem).length + 1 + rest.length ≤ 120 ∨
    120 ≤ (keptStem isAlphanumeric stem).length ∧
      ∃ stem' rest', EndsIn ((keptStem isAlphanumeric stem).take 120) ext stem' rest')

theorem fileExtension_sanitizeFileName_iff (hascii : ∀ c : Char, c.isAlphanum = true → isAlphanumeric c = true)
    {raw : String} (hext : ext ∈ inputExtensions) (h : EndsIn (baseName raw) ext stem rest) :
    fileExtension (sanitizeFileName isAlphanumeric raw) = some ext ↔ Fits isAlphanumeric ext stem rest := by
  have hplain := dot_not_mem_of_inputExtensions hext
  obtain ⟨hne, hrest⟩ := isAlphanum_of_extension hext h.2.2
  have hdot : '.' ∉ rest := fun hmem => absurd (hrest '.' hmem) (by decide)
  rw [sanitizeFileName_eq hascii hext h, Fits]
  generalize keptStem isAlphanumeric stem = kept
  by_cases hkept : kept = []
  · -- Nothing but the extension is left, without its dot.
    rw [if_pos hkept, (names_of_no_dot ?_).2]
    · exact iff_of_false (Option.some_ne_none _).symm fun hfits => hfits.1 hkept
    · rw [String.toList_ofList]
      exact fun hmem => hdot (List.mem_of_mem_take (List.mem_of_mem_tail hmem))
  rw [if_neg hkept]
  have hlength : (kept ++ '.' :: rest).length = kept.length + 1 + rest.length := by
    rw [List.length_append, List.length_cons]
    omega
  rcases Nat.lt_or_ge 120 (kept.length + 1 + rest.length) with hlong | hshort
  · rcases Nat.lt_or_ge kept.length 120 with hcut | hlost
    · -- The cut goes through the extension.
      have htake : (kept ++ '.' :: rest).take 120 = kept ++ '.' :: rest.take (119 - kept.length) := by
        rw [List.take_append, List.take_of_length_le hcut.le, show 120 - kept.length = 119 - kept.length + 1 by omega,
          List.take_succ_cons]
      rw [htake, (names_of_dot String.toList_ofList hkept fun hmem => hdot (List.mem_of_mem_take hmem)).2,
        Option.some.injEq]
      refine iff_of_false (fun heq => ?_) fun hfits => ?_
      · have hsame : toAsciiLowercase (String.ofList (rest.take (119 - kept.length))) =
            toAsciiLowercase (String.ofList rest) := heq.trans h.2.2.symm
        have hlengths := congrArg (fun text => text.toList.length) hsame
        simp only [toAsciiLowercase, String.toList_ofList, List.length_map, List.length_take] at hlengths
        omega
      · rcases hfits.2 with hle | ⟨hle, -⟩ <;> omega
    · rw [List.take_append_of_le_length hlost, fileExtension_iff hplain]
      exact ⟨fun hends => ⟨hkept, .inr ⟨hlost, hends⟩⟩, fun hfits => (hfits.2.resolve_left (by omega)).2⟩
  · rw [List.take_of_length_le (by omega)]
    refine iff_of_true ((fileExtension_iff hplain).mpr ⟨kept, rest, rfl, hkept, h.2.2⟩) ⟨hkept, .inl hshort⟩

end

theorem parts_of_extension (env : UploadEnv) (uploadId : Uuid) (now : ℕ) {ext raw : String} {part : Part}
    (body : List MultipartEvent) (hname : part.name = some "file") (hfile : part.fileName = some raw)
    (hext : ext ∈ inputExtensions) (h : fileExtension (sanitizeFileName env.isAlphanumeric raw) = some ext) :
    env.parts uploadId now (.part part :: body) =
      env.store uploadId now (sanitizeFileName env.isAlphanumeric raw) ext part.stream := by
  rw [UploadEnv.parts, if_neg (not_not.mpr hname), hfile]
  dsimp only
  rw [h, Option.getD_some, if_neg (not_not.mpr hext)]

/-- An upload of the name is stored under an extension. -/
def StoredUnder (isAlphanumeric : Char → Bool) (raw ext : String) : Prop :=
  ∀ (env : UploadEnv) (uploadId : Uuid) (now : ℕ) (part : Part) (body : List MultipartEvent),
    env.isAlphanumeric = isAlphanumeric → part.name = some "file" → part.fileName = some raw →
    env.parts uploadId now (.part part :: body) =
      env.store uploadId now (sanitizeFileName isAlphanumeric raw) ext part.stream

/-- A supported extension of the client's name is that of the sanitized name, and the upload is stored under it. -/
def KeepsExtension (isAlphanumeric : Char → Bool) (raw : String) : Prop :=
  ∀ ext ∈ inputExtensions, fileExtension (String.ofList (baseName raw)) = some ext →
    fileExtension (sanitizeFileName isAlphanumeric raw) = some ext ∧ StoredUnder isAlphanumeric raw ext

/-- The sanitized name is a single component; and it keeps a supported extension if and only if something else than
dots is left of the stem, and the cut leaves the extension, or leaves a stem that ends in the same extension. -/
theorem upload_names_iff (isAlphanumeric : Char → Bool)
    (hascii : ∀ c : Char, c.isAlphanum = true → isAlphanumeric c = true) (raw : String) :
    (Safe (sanitizeFileName isAlphanumeric raw) ∧ KeepsExtension isAlphanumeric raw) ↔
      ∀ ext ∈ inputExtensions, ∀ stem rest, EndsIn (baseName raw) ext stem rest →
        Fits isAlphanumeric ext stem rest := by
  constructor
  · rintro ⟨-, hkeeps⟩ ext hext stem rest hends
    refine (fileExtension_sanitizeFileName_iff hascii hext hends).mp (hkeeps ext hext ?_).1
    exact (fileExtension_iff (dot_not_mem_of_inputExtensions hext)).mpr ⟨stem, rest, hends⟩
  · refine fun hfits => ⟨safe_sanitizeFileName isAlphanumeric raw, fun ext hext hfile => ?_⟩
    obtain ⟨stem, rest, hends⟩ := (fileExtension_iff (dot_not_mem_of_inputExtensions hext)).mp hfile
    have hkept := (fileExtension_sanitizeFileName_iff hascii hext hends).mpr (hfits ext hext stem rest hends)
    refine ⟨hkept, fun env uploadId now part body henv hname hpart => ?_⟩
    rw [← henv] at hkept ⊢
    exact parts_of_extension env uploadId now body hname hpart hext hkept

/-- An ordinary name. -/
theorem upload_names_report :
    (Safe (sanitizeFileName Char.isAlphanum "My report.PDF") ∧ KeepsExtension Char.isAlphanum "My report.PDF") ↔
      ∀ ext ∈ inputExtensions, ∀ stem rest, EndsIn (baseName "My report.PDF") ext stem rest →
        Fits Char.isAlphanum ext stem rest :=
  upload_names_iff Char.isAlphanum (fun _ h => h) "My report.PDF"

/-- A name without letters in its stem, and a workbook with a long name, which becomes one of another format. -/
theorem upload_names_lost : ¬ KeepsExtension Char.isAlphanum "???.pdf" ∧
    ¬ KeepsExtension Char.isAlphanum (String.ofList (List.replicate 116 'a') ++ ".xlsm") ∧
    fileExtension (sanitizeFileName Char.isAlphanum (String.ofList (List.replicate 116 'a') ++ ".xlsm")) =
      some "xls" := by
  have hascii : ∀ c : Char, c.isAlphanum = true → c.isAlphanum = true := fun _ h => h
  have hraw : (String.ofList (List.replicate 116 'a') ++ ".xlsm").toList =
      List.replicate 116 'a' ++ '.' :: ['x', 'l', 's', 'm'] := by
    rw [String.toList_append, String.toList_ofList]
    rfl
  have hbase : baseName (String.ofList (List.replicate 116 'a') ++ ".xlsm") =
      List.replicate 116 'a' ++ '.' :: ['x', 'l', 's', 'm'] := by
    rw [baseName, hraw]
    decide
  have hkept : keptStem Char.isAlphanum (List.replicate 116 'a') = List.replicate 116 'a' := by decide
  have hends : EndsIn (baseName (String.ofList (List.replicate 116 'a') ++ ".xlsm")) "xlsm" (List.replicate 116 'a')
      ['x', 'l', 's', 'm'] := ⟨hbase, by decide, by decide⟩
  have hcut : (List.replicate 116 'a' ++ '.' :: ['x', 'l', 's', 'm']).take 120 =
      List.replicate 116 'a' ++ '.' :: ['x', 'l', 's'] := rfl
  refine ⟨fun h => ?_, fun h => ?_, ?_⟩
  · exact absurd (h "pdf" (by decide) (by decide)).1 (by decide)
  · have hfile := (fileExtension_iff (by decide)).mpr ⟨_, _, hends⟩
    have hfits := (fileExtension_sanitizeFileName_iff hascii (by decide) hends).mp (h "xlsm" (by decide) hfile).1
    rw [Fits, hkept, List.length_replicate] at hfits
    rcases hfits.2 with hle | ⟨hle, -⟩
    · exact absurd hle (by decide)
    · exact absurd hle (by decide)
  · rw [sanitizeFileName_eq hascii (by decide) hends, hkept, if_neg (by decide), hcut]
    exact (fileExtension_iff (by decide)).mpr ⟨_, _, rfl, by decide, by decide⟩

end Anole.Web
