import Anole.Media.Validation
import Mathlib.Data.Set.List
import Mathlib.Data.String.Basic

/-!
# The manifest digest of an archive

Model of `ArchiveEntry::safe_name`, of `entry_manifest_digest` and of the check that compares two digests
(`crates/core/src/archive.rs`, lines 103–129, 258–266, 302–311 and 724–773).

* `intercalate_lines_injective`: joined lines of the shape `name:size` are read back, whatever stands in the
  names, when no name holds a colon.
* `manifest_separates`: two inventories have one manifest text exactly when they are equal as multisets, and
  the check compares them so when the two texts are no collision of the hash.
-/

open Common Anole.Common

namespace Anole.Archive

/-! ## Entries -/

/-- `ArchiveEntry` (lines 105–109). -/
structure ArchiveEntry where
  name : String
  size : ℕ
  deriving Inhabited

/-- `ArchiveEntry::safe_name` (lines 112–128); `isAbsolute` is `Path::is_absolute` of the platform. -/
def ArchiveEntry.safeName (isAbsolute : String → Bool) (entry : ArchiveEntry) : Except AnoleError String :=
  if ['/'] <+: entry.name.toList ∨ ['\\'] <+: entry.name.toList ∨ ['.', '.'] <:+: entry.name.toList ∨
      isAbsolute entry.name = true ∨ ':' ∈ entry.name.toList then
    .error (.new .inputInvalid .inspect s!"Archive entry has an unsafe path: {entry.name}"
      "Rebuild the archive without absolute or traversal paths.")
  else .ok entry.name

/-- What `safe_name` accepts holds no colon. -/
theorem colon_notMem_of_safeName {isAbsolute : String → Bool} {entry : ArchiveEntry} {name : String}
    (h : entry.safeName isAbsolute = .ok name) : ':' ∉ entry.name.toList := by
  unfold ArchiveEntry.safeName at h
  split at h
  · cases h
  · next hsafe => exact fun hcolon => hsafe (.inr (.inr (.inr (.inr hcolon))))

/-! ## The digest -/

/-- The line of an entry, `format!("{}:{}", entry.name, entry.size)`. -/
def ArchiveEntry.line (entry : ArchiveEntry) : String := entry.name ++ ":" ++ toString entry.size

/-- The text that `entry_manifest_digest` hashes (lines 259–264). Texts are compared by their characters,
    which is the order of their UTF-8 bytes. -/
def manifestText (entries : List ArchiveEntry) : String :=
  "\n".intercalate ((entries.map ArchiveEntry.line).insertionSort (· ≤ ·))

/-- `entry_manifest_digest` (lines 258–266); `blake3` is the hash of the bytes of a text, in hexadecimal. -/
def entryManifestDigest (blake3 : String → String) (entries : List ArchiveEntry) : String :=
  "blake3:" ++ blake3 (manifestText entries)

/-! ## The check -/

/-- `Probe`, the fields that the validator reads: the id of the format, and the properties of each stream. -/
structure ArchiveProbe where
  formatId : String
  streams : List (TextMap Json)

/-- The probe of `inspect_archive` (lines 302–347) with the entries that were read. -/
def inspectedArchive (blake3 : String → String) (format : String) (entries : List ArchiveEntry) : ArchiveProbe where
  formatId := format
  streams := [TextMap.ofList [("entry_count", .natural (min entries.length Planning.u64Max)),
    ("total_entry_bytes", .natural (entries.map ArchiveEntry.size).sum),
    ("entry_manifest_digest", .string (entryManifestDigest blake3 entries))]]

/-- A property of the first stream. -/
def ArchiveProbe.property? (probe : ArchiveProbe) (name : String) : Option Json :=
  probe.streams.head?.bind fun properties => properties.lookup name

/-- `property_u64` (lines 781–787). -/
def propertyU64 (probe : ArchiveProbe) (name : String) : Option ℕ := (probe.property? name).bind Media.asNatural

/-- `property_string` (lines 789–796). -/
def propertyString (probe : ArchiveProbe) (name : String) : Json := (probe.property? name).getD .null

/-- `status` (lines 798–804). -/
def status (value : Bool) : ValidationStatus := if value then .pass else .fail

/-- `validation_check` (lines 806–822). -/
def validationCheck (code : String) (status : ValidationStatus) (expected observed : Json) (message : String) :
    Media.ValidationCheck :=
  ⟨code, status, true, expected, observed, "Anole native archive inspector", message⟩

/-- Two values are the same text. -/
def sameText : Json → Json → Bool
  | .string a, .string b => a = b
  | _, _ => false

/-- The checks of `validate_archive_output` (lines 734–773). -/
def archiveChecks (input output : ArchiveProbe) (targetFormat : String) : List Media.ValidationCheck :=
  let expectedCount := propertyU64 input "entry_count"
  let observedCount := propertyU64 output "entry_count"
  let expectedManifest := propertyString input "entry_manifest_digest"
  let observedManifest := propertyString output "entry_manifest_digest"
  [validationCheck "ARCHIVE_OPENS" .pass (.bool true) (.bool true) "Native reader enumerated the repacked container.",
    validationCheck "ARCHIVE_TARGET_FORMAT" (status (output.formatId ≠ input.formatId)) (.string targetFormat)
      (.string output.formatId) "Output container differs from the input container.",
    validationCheck "ARCHIVE_ENTRY_COUNT" (status (expectedCount.isSome ∧ expectedCount = observedCount))
      (.ofOption .natural expectedCount) (.ofOption .natural observedCount) "Entry count is preserved.",
    validationCheck "ARCHIVE_ENTRY_MANIFEST" (status (sameText expectedManifest observedManifest)) expectedManifest
      observedManifest "Name-and-size manifest digest is preserved."]

/-- The checks with a code all pass, and there is one. -/
def Passes (code : String) (checks : List Media.ValidationCheck) : Prop :=
  ∃ check ∈ checks, check.code = code ∧ check.status = .pass

/-! ## Reading the lines back -/

/-- A line whose name holds no colon. -/
def IsLine (line : List Char) : Prop := ∃ entry : ArchiveEntry, ':' ∉ entry.name.toList ∧ entry.line.toList = line

theorem toList_line (entry : ArchiveEntry) :
    entry.line.toList = entry.name.toList ++ ':' :: (toString entry.size).toList := by
  rw [ArchiveEntry.line, String.toList_append, String.toList_append, List.append_assoc]
  rfl

theorem append_colon_inj {a b rest rest' : List Char} (ha : ':' ∉ a) (hb : ':' ∉ b)
    (h : a ++ ':' :: rest = b ++ ':' :: rest') : a = b ∧ rest = rest' := by
  induction a generalizing b with
  | nil =>
    cases b with
    | nil => exact ⟨rfl, List.tail_eq_of_cons_eq h⟩
    | cons d b =>
      have hd : ':' = d := List.head_eq_of_cons_eq h
      exact absurd (hd ▸ List.mem_cons_self) hb
  | cons c a ih =>
    cases b with
    | nil =>
      have hc : c = ':' := List.head_eq_of_cons_eq h
      exact absurd (hc ▸ List.mem_cons_self) ha
    | cons d b =>
      rw [List.mem_cons, not_or] at ha hb
      have hcd : c = d := List.head_eq_of_cons_eq h
      obtain ⟨hab, hrest⟩ := ih ha.2 hb.2 (List.tail_eq_of_cons_eq h)
      exact ⟨by rw [hcd, hab], hrest⟩

/-- A line in front of a line break, or of the end of the text. -/
theorem append_line_inj {line line' rest rest' : List Char} (hline : IsLine line) (hline' : IsLine line')
    (hrest : ∀ c ∈ rest.head?, c = '\n') (hrest' : ∀ c ∈ rest'.head?, c = '\n')
    (h : line ++ rest = line' ++ rest') : line = line' ∧ rest = rest' := by
  obtain ⟨entry, hname, rfl⟩ := hline
  obtain ⟨entry', hname', rfl⟩ := hline'
  have hbreak : ∀ {rest : List Char}, (∀ c ∈ rest.head?, c = '\n') → ∀ c ∈ rest.head?, ¬ c.isDigit := by
    intro rest hrest c hc
    rw [hrest c hc]
    decide
  rw [toList_line, toList_line, List.append_assoc, List.append_assoc, List.cons_append, List.cons_append] at h
  obtain ⟨hnames, hsizes⟩ := append_colon_inj hname hname' h
  obtain ⟨hsize, hrests⟩ := append_toString_inj (hbreak hrest) (hbreak hrest') hsizes
  rw [toList_line, toList_line, hnames, hsize]
  exact ⟨rfl, hrests⟩

/-- What follows the first of the joined lines. -/
def following (lines : List (List Char)) : List Char :=
  if lines = [] then [] else '\n' :: ['\n'].intercalate lines

theorem intercalate_cons (line : List Char) (lines : List (List Char)) :
    ['\n'].intercalate (line :: lines) = line ++ following lines := by
  cases lines with
  | nil => simp [following]
  | cons next lines => rw [List.intercalate_cons_cons, following, if_neg (List.cons_ne_nil _ _), List.append_assoc]; rfl

theorem intercalate_of_following {lines lines' : List (List Char)} (h : following lines = following lines') :
    ['\n'].intercalate lines = ['\n'].intercalate lines' := by
  unfold following at h
  split at h <;> split at h
  · next hnil hnil' => rw [hnil, hnil']
  · exact absurd h (List.cons_ne_nil _ _).symm
  · exact absurd h (List.cons_ne_nil _ _)
  · exact List.tail_eq_of_cons_eq h

theorem head?_following {lines : List (List Char)} {c : Char} (h : c ∈ (following lines).head?) : c = '\n' := by
  unfold following at h
  split at h
  · cases h
  · exact (Option.some.inj h).symm

/-- Joined lines whose names hold no colon are read back: a line break inside a name stands before the colon of
    its line, and one between two lines follows the digits of a size. -/
theorem intercalate_lines_injective {lines lines' : List (List Char)} (h : ∀ line ∈ lines, IsLine line)
    (h' : ∀ line ∈ lines', IsLine line) (hjoin : ['\n'].intercalate lines = ['\n'].intercalate lines') :
    lines = lines' := by
  have hne : ∀ {line : List Char} {rest : List (List Char)}, IsLine line →
      ['\n'].intercalate (line :: rest) ≠ [] := by
    intro line rest hline hnil
    obtain ⟨entry, -, rfl⟩ := hline
    rw [intercalate_cons, toList_line] at hnil
    simp at hnil
  induction lines generalizing lines' with
  | nil =>
    cases lines' with
    | nil => rfl
    | cons line' lines' => exact absurd hjoin.symm (hne (h' line' List.mem_cons_self))
  | cons line lines ih =>
    cases lines' with
    | nil => exact absurd hjoin (hne (h line List.mem_cons_self))
    | cons line' lines' =>
      rw [intercalate_cons, intercalate_cons] at hjoin
      obtain ⟨hline, hrest⟩ := append_line_inj (h line List.mem_cons_self) (h' line' List.mem_cons_self)
        (fun c hc => head?_following hc) (fun c hc => head?_following hc) hjoin
      rw [hline, ih (fun l hl => h l (List.mem_cons_of_mem _ hl)) (fun l hl => h' l (List.mem_cons_of_mem _ hl))
        (intercalate_of_following hrest)]

/-- No two entries whose names hold no colon have one line. -/
theorem injOn_line : Set.InjOn ArchiveEntry.line {entry | ':' ∉ entry.name.toList} := by
  intro entry hname entry' hname' h
  have hchars := congrArg String.toList h
  rw [toList_line, toList_line] at hchars
  obtain ⟨hnames, hsizes⟩ := append_colon_inj hname hname' hchars
  have hsize := toString_injective (String.toList_injective hsizes)
  cases entry
  cases entry'
  simp only [ArchiveEntry.mk.injEq]
  exact ⟨String.toList_injective hnames, hsize⟩

/-! ## The manifest separates inventories -/

/-- No name of an inventory holds a colon. -/
def PlainNames (entries : List ArchiveEntry) : Prop := ∀ entry ∈ entries, ':' ∉ entry.name.toList

instance (entries : List ArchiveEntry) : Decidable (PlainNames entries) :=
  inferInstanceAs (Decidable (∀ entry ∈ entries, ':' ∉ entry.name.toList))

theorem toList_manifestText (entries : List ArchiveEntry) :
    (manifestText entries).toList =
      ['\n'].intercalate (((entries.map ArchiveEntry.line).insertionSort (· ≤ ·)).map String.toList) := by
  rw [manifestText, String.toList_intercalate]
  rfl

theorem isLine_of_mem {entries : List ArchiveEntry} (h : PlainNames entries) :
    ∀ line ∈ ((entries.map ArchiveEntry.line).insertionSort (· ≤ ·)).map String.toList, IsLine line := by
  intro line hline
  obtain ⟨text, htext, rfl⟩ := List.mem_map.mp hline
  rw [List.mem_insertionSort] at htext
  obtain ⟨entry, hentry, rfl⟩ := List.mem_map.mp htext
  exact ⟨entry, h entry hentry, rfl⟩

/-- Lines that are equal up to their order are the lines of entries that are. -/
theorem perm_of_map_line {a b : List ArchiveEntry} (ha : PlainNames a) (hb : PlainNames b)
    (h : (a.map ArchiveEntry.line).Perm (b.map ArchiveEntry.line)) : a.Perm b := by
  let entryOf := Function.invFunOn ArchiveEntry.line {entry | ':' ∉ entry.name.toList}
  have hread : ∀ {entries : List ArchiveEntry}, PlainNames entries →
      (entries.map ArchiveEntry.line).map entryOf = entries := by
    intro entries hplain
    rw [List.map_map]
    exact (List.map_congr_left fun entry hentry => injOn_line.leftInvOn_invFunOn (hplain entry hentry)).trans
      (List.map_id entries)
  rw [← hread ha, ← hread hb]
  exact h.map entryOf

/-- Two inventories have one manifest text exactly when they are equal up to the order of their entries. -/
theorem manifestText_eq_iff {a b : List ArchiveEntry} (ha : PlainNames a) (hb : PlainNames b) :
    manifestText a = manifestText b ↔ a.Perm b := by
  constructor
  · intro h
    have hjoin := congrArg String.toList h
    rw [toList_manifestText, toList_manifestText] at hjoin
    have hlines := List.map_injective_iff.mpr (fun _ _ => String.toList_injective)
      (intercalate_lines_injective (isLine_of_mem ha) (isLine_of_mem hb) hjoin)
    apply perm_of_map_line ha hb
    calc a.map ArchiveEntry.line
        |>.Perm ((a.map ArchiveEntry.line).insertionSort (· ≤ ·)) := (List.perm_insertionSort _ _).symm
      _ = (b.map ArchiveEntry.line).insertionSort (· ≤ ·) := hlines
      _ |>.Perm (b.map ArchiveEntry.line) := List.perm_insertionSort _ _
  · intro h
    have hsorted : (a.map ArchiveEntry.line).insertionSort (· ≤ ·) =
        (b.map ArchiveEntry.line).insertionSort (· ≤ ·) := by
      apply List.Perm.eq_of_pairwise' (List.pairwise_insertionSort (· ≤ ·) _)
        (List.pairwise_insertionSort (· ≤ ·) _)
      exact (List.perm_insertionSort _ _).trans ((h.map _).trans (List.perm_insertionSort _ _).symm)
    rw [manifestText, manifestText, hsorted]

theorem propertyString_digest (blake3 : String → String) (format : String) (entries : List ArchiveEntry) :
    propertyString (inspectedArchive blake3 format entries) "entry_manifest_digest" =
      .string (entryManifestDigest blake3 entries) := by
  unfold propertyString ArchiveProbe.property? inspectedArchive
  rw [List.head?_cons, Option.bind_some, TextMap.lookup_ofList]
  rfl

/-- The verdict of `ARCHIVE_ENTRY_MANIFEST` on the probes of two inventories. -/
theorem passes_manifest_iff (blake3 : String → String) (format format' target : String) (a b : List ArchiveEntry) :
    Passes "ARCHIVE_ENTRY_MANIFEST"
        (archiveChecks (inspectedArchive blake3 format a) (inspectedArchive blake3 format' b) target) ↔
      blake3 (manifestText a) = blake3 (manifestText b) := by
  have hdigest : entryManifestDigest blake3 a = entryManifestDigest blake3 b ↔
      blake3 (manifestText a) = blake3 (manifestText b) := by
    unfold entryManifestDigest
    rw [← String.toList_inj, String.toList_append, String.toList_append, List.append_cancel_left_eq, String.toList_inj]
  simp only [Passes, archiveChecks, propertyString_digest, validationCheck, sameText, status, List.mem_cons,
    List.not_mem_nil, or_false, exists_eq_or_imp, exists_eq_left, String.reduceEq, false_and, false_or, true_and,
    decide_eq_true_eq, ite_eq_left_iff, reduceCtorEq, imp_false, not_not]
  exact hdigest

/-- **The manifest digest separates inventories.** -/
theorem manifest_separates (a b : List ArchiveEntry) (ha : PlainNames a) (hb : PlainNames b) :
    (manifestText a = manifestText b ↔ a.Perm b) ∧
    ∀ (blake3 : String → String) (format format' target : String),
      (blake3 (manifestText a) = blake3 (manifestText b) → manifestText a = manifestText b) →
      (Passes "ARCHIVE_ENTRY_MANIFEST"
          (archiveChecks (inspectedArchive blake3 format a) (inspectedArchive blake3 format' b) target) ↔
        a.Perm b) := by
  have htext := manifestText_eq_iff ha hb
  refine ⟨htext, ?_⟩
  intro blake3 format format' target hcollision
  rw [passes_manifest_iff, ← htext]
  exact ⟨hcollision, congrArg blake3⟩

/-- With a colon in a name, two inventories can have one text. -/
example : manifestText [⟨"a:1\nb", 2⟩] = manifestText [⟨"a", 1⟩, ⟨"b", 2⟩] := by decide

namespace ManifestSample

/-- Two files, the name of one with a line break. -/
def inventory : List ArchiveEntry := [⟨"notes\n10.txt", 10⟩, ⟨"b.txt", 20⟩]

theorem manifest_separates_reversed :
    manifestText inventory = manifestText inventory.reverse ∧
      Passes "ARCHIVE_ENTRY_MANIFEST"
        (archiveChecks (inspectedArchive id "zip" inventory) (inspectedArchive id "7z" inventory.reverse) "7z") := by
  have h := manifest_separates inventory inventory.reverse (by decide) (by decide)
  have hperm : inventory.Perm inventory.reverse := (List.reverse_perm inventory).symm
  exact ⟨h.1.mpr hperm, (h.2 id "zip" "7z" "7z" id).mpr hperm⟩

end ManifestSample

end Anole.Archive
