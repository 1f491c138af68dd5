import Anole.Common.Split
import Anole.Folder.Mapping
import Anole.Mail.Sanitizer

/-!
# Office packages

Model of `inspect_package` (`crates/core/src/office.rs`, lines 1067–1226 and 1282–1289), which looks
for macros and for external relationships in a ZIP package. The readers of ZIP and of XML are not part
of the repository: a package is the list of the entries that `ZipArchive` shows, and the reader of XML
is a parameter.

* `inspectPackage_clean_iff`: which packages are found to be clean.
* `Cleared.noExternal`, `Cleared.noMacro`: a cleared package has no external relationship and no macros,
  in whatever way they are spelled.
-/

open Common Anole.Common

namespace Anole.Office

open Anole.Folder (extension splitLastDot splitLastDot_append)
open Anole.Planning (toStr? toStr?_ofString u64Max)

/-! ## Limits (lines 23–25) -/

def maxOfficeEntries : ℕ := 10000

def maxOfficeExpandedBytes : ℕ := 1024 * 1024 * 1024

def maxRelationshipBytes : ℕ := 8 * 1024 * 1024

/-- `u64::saturating_add`. -/
def saturatingAdd (a b : ℕ) : ℕ := min (a + b) u64Max

/-- Whether a limit is passed does not depend on the saturation. -/
theorem saturatingAdd_within {a b limit : ℕ} (hlimit : limit < u64Max) :
    ¬limit < saturatingAdd a b ↔ a + b ≤ limit := by
  unfold saturatingAdd
  omega

theorem saturatingAdd_eq {a b limit : ℕ} (hlimit : limit < u64Max) (h : a + b ≤ limit) :
    saturatingAdd a b = a + b := by
  unfold saturatingAdd
  omega

theorem maxOfficeExpandedBytes_lt : maxOfficeExpandedBytes < u64Max := by decide

theorem maxRelationshipBytes_lt : maxRelationshipBytes < u64Max := by decide

/-! ## Parts and their XML -/

/-- An entry: its declared size, and what opening it and then reading it to its end return. -/
structure PackageEntry where
  name : String
  size : ℕ
  content : Except String (Except String (List UInt8))

/-- An attribute, with what `normalized_value` returns. -/
structure PartAttribute where
  key : List Char
  value : Except String (List Char)

/-- An event of the XML reader. A start tag and an empty element show the same. -/
inductive PartEvent where
  | element (name : List Char) (attributes : List (Except String PartAttribute))
  | docType
  | other

/-- What `read_event` returns on some bytes, until the end or an error. -/
abbrev XmlReader := List UInt8 → List (Except String PartEvent)

/-- `eq_ignore_ascii_case`. -/
def eqIgnoreAsciiCase (a b : List Char) : Bool := lowercase a = lowercase b

/-- `QName::local_name`: what follows the first colon. -/
def localName (key : List Char) : List Char :=
  match key.dropWhile (· ≠ ':') with
  | [] => key
  | _ :: rest => rest

/-! ## Errors -/

def invalidZip (error : String) : AnoleError :=
  (AnoleError.new .inputInvalid .inspect "Office package ZIP structure is invalid"
    "Choose a complete DOCX, PPTX, or XLSX file.").withDiagnostic error

def resourceError (message : String) : AnoleError :=
  .new .resourceExhausted .inspect message "Reduce or split the Office document, then retry."

def packageReadError (error : String) : AnoleError :=
  (AnoleError.new .inputInvalid .inspect "Unable to read an Office package entry"
    "Choose a complete OOXML document.").withDiagnostic error

def packageIoError (error : String) : AnoleError :=
  (AnoleError.new .inputInvalid .inspect "Unable to read Office relationship XML"
    "Choose a complete OOXML document.").withDiagnostic error

def relationshipXmlError (error : String) : AnoleError :=
  (AnoleError.new .inputInvalid .inspect "Office relationship XML is malformed"
    "Repair or recreate the Office document.").withDiagnostic error

/-! ## Inspection -/

/-- The loop over the attributes in `relationships_are_external`. -/
def attributesAreExternal : List (Except String PartAttribute) → Except AnoleError Bool
  | [] => .ok false
  | read :: rest => do
    let found ← read.mapError relationshipXmlError
    if localName found.key = "TargetMode".toList then
      let value ← found.value.mapError relationshipXmlError
      if eqIgnoreAsciiCase value "external".toList then pure true else attributesAreExternal rest
    else attributesAreExternal rest

/-- `relationships_are_external` (lines 1195–1226). -/
def relationshipsAreExternal : List (Except String PartEvent) → Except AnoleError Bool
  | [] => .ok false
  | .error error :: _ => .error (relationshipXmlError error)
  | .ok (.element _ attributes) :: rest => do
    if ← attributesAreExternal attributes then pure true else relationshipsAreExternal rest
  | .ok .docType :: _ =>
    .error (.new .policyBlocked .inspect "Office relationship XML contains a DTD"
      "Remove active or external package content and retry.")
  | .ok .other :: rest => relationshipsAreExternal rest

/-- `is_relationship_part` (lines 1282–1289). -/
def isRelationshipPart (name : List Char) : Bool :=
  (name.splitOn '/').getLast?.any fun fileName =>
    eqIgnoreAsciiCase fileName ".rels".toList ||
      ((extension (PathBuf.ofString (String.ofList fileName))).bind toStr?).any fun extension =>
        eqIgnoreAsciiCase extension.toList "rels".toList

/-- `entry.name().replace('\\', "/").to_ascii_lowercase()`. -/
def PackageEntry.lowerName (entry : PackageEntry) : List Char :=
  lowercase (entry.name.toList.map fun c => if c = '\\' then '/' else c)

/-- The test for a macro in `inspect_package`. -/
def isMacroName (name : List Char) : Bool :=
  "vbaproject.bin".toList.isSuffixOf name || "basic/".toList.isPrefixOf name || decide ("/basic/".toList <:+: name)

/-- What the loop of `inspect_package` has found. -/
structure PackageScan where
  hasMacros : Bool
  hasExternalRelationships : Bool
  relationshipBytes : ℕ

/-- What `inspect_package` does with a part of relationships (lines 1119–1129). -/
def inspectRelationships (reader : XmlReader) (scan : PackageScan) (entry : PackageEntry)
    (data : Except String (List UInt8)) : Except AnoleError PackageScan := do
  let relationshipBytes := saturatingAdd scan.relationshipBytes entry.size
  failWhen (maxRelationshipBytes < relationshipBytes)
    (resourceError "Office relationship XML exceeds the 8 MiB alpha limit")
  let bytes ← data.mapError packageIoError
  let external ← relationshipsAreExternal (reader bytes)
  pure ⟨scan.hasMacros, scan.hasExternalRelationships || external, relationshipBytes⟩

/-- The body of the loop of `inspect_package` (lines 1110–1131). -/
def inspectEntry (reader : XmlReader) (scan : PackageScan) (entry : PackageEntry) : Except AnoleError PackageScan :=
  entry.content.mapError packageReadError >>= fun data =>
    let scan := { scan with hasMacros := scan.hasMacros || isMacroName entry.lowerName }
    if isRelationshipPart entry.lowerName then inspectRelationships reader scan entry data else .ok scan

/-- The body of the loop of `check_package_limits` (lines 1149–1159). -/
def addEntry (expanded : ℕ) (entry : PackageEntry) : Except AnoleError ℕ := do
  let _ ← entry.content.mapError packageReadError
  let expanded := saturatingAdd expanded entry.size
  failWhen (maxOfficeExpandedBytes < expanded)
    (resourceError "Office package expanded size exceeds the 1 GiB alpha limit")
  pure expanded

/-- `check_package_limits` (lines 1142–1161). -/
def checkPackageLimits (entries : List PackageEntry) : Except AnoleError ℕ := do
  failWhen (maxOfficeEntries < entries.length) (resourceError "Office package contains too many ZIP entries")
  entries.foldlM addEntry 0

/-- `archive.by_name(name).is_ok()`. -/
def hasPart (entries : List PackageEntry) (name : String) : Bool :=
  entries.any fun entry => entry.name = name && entry.content.toOption.isSome

/-- The text of the entry `mimetype`, or nothing. -/
def mimetypeText (entries : List PackageEntry) : String :=
  ((entries.find? fun entry => entry.name = "mimetype").bind fun entry =>
    entry.content.toOption.bind fun data =>
      data.toOption.bind fun bytes => String.fromUTF8? ⟨bytes.toArray⟩).getD ""

/-- `detect_package_family` (lines 1163–1193). -/
def detectPackageFamily (entries : List PackageEntry) : Option String :=
  if hasPart entries "word/document.xml" then some "docx"
  else if hasPart entries "ppt/presentation.xml" then some "pptx"
  else if hasPart entries "xl/workbook.xml" then some "xlsx"
  else if hasPart entries "content.xml" && hasPart entries "META-INF/manifest.xml" then
    let flavor := (mimetypeText entries).toList
    if "presentation".toList <:+: flavor then some "odp"
    else if "spreadsheet".toList <:+: flavor then some "ods"
    else some "odt"
  else none

/-- `PackageInspection` (lines 1071–1078). -/
structure PackageInspection where
  format : String
  entryCount : ℕ
  expandedBytes : ℕ
  hasMacros : Bool
  hasExternalRelationships : Bool

/-- `inspect_package` (lines 1095–1140) of what `ZipArchive::new` returns. -/
def inspectPackage (reader : XmlReader) (archive : Except String (List PackageEntry)) :
    Except AnoleError PackageInspection := do
  let entries ← archive.mapError invalidZip
  let expandedBytes ← checkPackageLimits entries
  let format ← (detectPackageFamily entries).elim
    (.error (.new .unsupported .inspect "ZIP package is not recognized as DOCX, PPTX, or XLSX"
      "Choose a supported macro-free OOXML file.")) Except.ok
  let scan ← entries.foldlM (inspectEntry reader) ⟨false, false, 0⟩
  pure {
    format := format
    entryCount := entries.length
    expandedBytes := expandedBytes
    hasMacros := scan.hasMacros
    hasExternalRelationships := scan.hasExternalRelationships }

/-! ## What is found -/

/-- An attribute that is read, and is no external target mode. -/
def QuietAttribute (read : Except String PartAttribute) : Prop :=
  ∃ found, read = .ok found ∧ (localName found.key = "TargetMode".toList →
    ∃ value, found.value = .ok value ∧ eqIgnoreAsciiCase value "external".toList = false)

/-- An event that does not end the search. -/
def QuietEvent : Except String PartEvent → Prop
  | .ok (.element _ attributes) => ∀ read ∈ attributes, QuietAttribute read
  | .ok .docType => False
  | .ok .other => True
  | .error _ => False

theorem attributesAreExternal_eq_false_iff (attributes : List (Except String PartAttribute)) :
    attributesAreExternal attributes = .ok false ↔ ∀ read ∈ attributes, QuietAttribute read := by
  induction attributes with
  | nil => exact iff_of_true rfl fun _ h => absurd h List.not_mem_nil
  | cons read rest ih =>
    rw [attributesAreExternal, bind_eq_ok, List.forall_mem_cons, ← ih, QuietAttribute]
    simp only [mapError_eq_ok]
    constructor
    · rintro ⟨found, hfound, h⟩
      by_cases hname : localName found.key = "TargetMode".toList
      · rw [if_pos hname, bind_eq_ok] at h
        obtain ⟨value, hvalue, h⟩ := h
        rw [mapError_eq_ok] at hvalue
        split_ifs at h with hexternal
        · cases h
        · exact ⟨⟨found, hfound, fun _ => ⟨value, hvalue, by simpa using hexternal⟩⟩, h⟩
      · rw [if_neg hname] at h
        exact ⟨⟨found, hfound, fun hkey => absurd hkey hname⟩, h⟩
    · rintro ⟨⟨found, hfound, hquiet⟩, h⟩
      refine ⟨found, hfound, ?_⟩
      by_cases hname : localName found.key = "TargetMode".toList
      · obtain ⟨value, hvalue, hexternal⟩ := hquiet hname
        rw [if_pos hname, bind_eq_ok]
        refine ⟨value, mapError_eq_ok.mpr hvalue, ?_⟩
        rw [if_neg (by simpa using hexternal)]
        exact h
      · rw [if_neg hname]
        exact h

/-- **The search finds nothing** when every event is quiet. -/
theorem relationshipsAreExternal_eq_false_iff (events : List (Except String PartEvent)) :
    relationshipsAreExternal events = .ok false ↔ ∀ event ∈ events, QuietEvent event := by
  induction events with
  | nil => exact iff_of_true rfl fun _ h => absurd h List.not_mem_nil
  | cons event rest ih =>
    rw [List.forall_mem_cons, ← ih]
    match event with
    | .error _ | .ok .docType =>
      refine iff_of_false (fun h => ?_) fun h => h.1
      cases h
    | .ok .other => exact (and_iff_right trivial).symm
    | .ok (.element _ attributes) =>
      rw [relationshipsAreExternal, bind_eq_ok, QuietEvent, ← attributesAreExternal_eq_false_iff]
      constructor
      · rintro ⟨external, hexternal, h⟩
        cases external with
        | true => cases h
        | false => exact ⟨hexternal, h⟩
      · rintro ⟨hexternal, h⟩
        exact ⟨false, hexternal, h⟩

/-! ## The loops -/

/-- What an entry adds to the bytes of relationships. -/
def PackageEntry.relationshipSize (entry : PackageEntry) : ℕ :=
  if isRelationshipPart entry.lowerName then entry.size else 0

/-- The entry opens. -/
def PackageEntry.Opens (entry : PackageEntry) : Prop := ∃ data, entry.content = .ok data

/-- An entry in which `inspect_package` finds nothing. -/
structure PackageEntry.Clears (reader : XmlReader) (entry : PackageEntry) : Prop where
  opens : entry.Opens
  macroFree : isMacroName entry.lowerName = false
  relationships : isRelationshipPart entry.lowerName = true →
    ∃ bytes, entry.content = .ok (.ok bytes) ∧ ∀ event ∈ reader bytes, QuietEvent event

def PackageScan.Clean (scan : PackageScan) : Prop := scan.hasMacros = false ∧ scan.hasExternalRelationships = false

variable {reader : XmlReader} {entries : List PackageEntry} {entry : PackageEntry} {scan result : PackageScan}

theorem addEntry_eq_ok {expanded total : ℕ} : addEntry expanded entry = .ok total ↔
    entry.Opens ∧ expanded + entry.size ≤ maxOfficeExpandedBytes ∧ total = expanded + entry.size := by
  unfold addEntry PackageEntry.Opens
  simp only [bind_eq_ok, mapError_eq_ok, failWhen_eq_ok, saturatingAdd_within maxOfficeExpandedBytes_lt]
  constructor
  · rintro ⟨data, hdata, -, hwithin, h⟩
    cases h
    exact ⟨⟨data, hdata⟩, hwithin, saturatingAdd_eq maxOfficeExpandedBytes_lt hwithin⟩
  · rintro ⟨⟨data, hdata⟩, hwithin, rfl⟩
    refine ⟨data, hdata, (), hwithin, ?_⟩
    rw [saturatingAdd_eq maxOfficeExpandedBytes_lt hwithin]
    rfl

theorem addEntries_eq_ok {expanded total : ℕ} (hexpanded : expanded ≤ maxOfficeExpandedBytes) :
    entries.foldlM addEntry expanded = .ok total ↔ (∀ entry ∈ entries, entry.Opens) ∧
      expanded + (entries.map PackageEntry.size).sum ≤ maxOfficeExpandedBytes ∧
      total = expanded + (entries.map PackageEntry.size).sum := by
  induction entries generalizing expanded with
  | nil =>
    simp only [List.foldlM_nil, pure, Except.pure, Except.ok.injEq, List.not_mem_nil, List.map_nil, List.sum_nil]
    simp [hexpanded, eq_comm]
  | cons entry entries ih =>
    rw [List.foldlM_cons, bind_eq_ok, List.forall_mem_cons, List.map_cons, List.sum_cons]
    simp only [addEntry_eq_ok]
    constructor
    · rintro ⟨_, ⟨hopens, hwithin, rfl⟩, h⟩
      obtain ⟨hrest, hsum, rfl⟩ := (ih hwithin).mp h
      exact ⟨⟨hopens, hrest⟩, by omega, by omega⟩
    · rintro ⟨⟨hopens, hrest⟩, hsum, rfl⟩
      have hwithin : expanded + entry.size ≤ maxOfficeExpandedBytes := by omega
      exact ⟨_, ⟨hopens, hwithin, rfl⟩, (ih hwithin).mpr ⟨hrest, by omega, by omega⟩⟩

/-- **What the limits say.** -/
theorem checkPackageLimits_eq_ok {total : ℕ} : checkPackageLimits entries = .ok total ↔
    entries.length ≤ maxOfficeEntries ∧ (∀ entry ∈ entries, entry.Opens) ∧
      (entries.map PackageEntry.size).sum ≤ maxOfficeExpandedBytes ∧
      total = (entries.map PackageEntry.size).sum := by
  unfold checkPackageLimits
  simp only [bind_eq_ok, failWhen_eq_ok, addEntries_eq_ok (Nat.zero_le _), Nat.zero_add, Nat.not_lt]
  constructor
  · rintro ⟨-, hlength, h⟩
    exact ⟨hlength, h⟩
  · rintro ⟨hlength, h⟩
    exact ⟨(), hlength, h⟩

theorem inspectRelationships_eq_ok {data : Except String (List UInt8)} :
    inspectRelationships reader scan entry data = .ok result ↔
      scan.relationshipBytes + entry.size ≤ maxRelationshipBytes ∧
        ∃ bytes external, data = .ok bytes ∧ relationshipsAreExternal (reader bytes) = .ok external ∧
          result = ⟨scan.hasMacros, scan.hasExternalRelationships || external,
            scan.relationshipBytes + entry.size⟩ := by
  unfold inspectRelationships
  simp only [bind_eq_ok, failWhen_eq_ok, mapError_eq_ok, saturatingAdd_within maxRelationshipBytes_lt]
  constructor
  · rintro ⟨-, hwithin, bytes, hbytes, external, hexternal, h⟩
    cases h
    rw [saturatingAdd_eq maxRelationshipBytes_lt hwithin]
    exact ⟨hwithin, bytes, external, hbytes, hexternal, rfl⟩
  · rintro ⟨hwithin, bytes, external, hbytes, hexternal, rfl⟩
    refine ⟨(), hwithin, bytes, hbytes, external, hexternal, ?_⟩
    rw [saturatingAdd_eq maxRelationshipBytes_lt hwithin]
    rfl

/-- No round passes the limit of the relationships. -/
theorem inspectEntry_within (h : inspectEntry reader scan entry = .ok result)
    (hscan : scan.relationshipBytes ≤ maxRelationshipBytes) : result.relationshipBytes ≤ maxRelationshipBytes := by
  obtain ⟨data, -, h⟩ := bind_eq_ok.mp h
  simp only at h
  split_ifs at h with hrelationship
  · obtain ⟨hwithin, _, _, -, -, rfl⟩ := inspectRelationships_eq_ok.mp h
    exact hwithin
  · cases h
    exact hscan

/-- **A round that finds nothing.** -/
theorem inspectEntry_clean_iff (hscan : scan.relationshipBytes ≤ maxRelationshipBytes) :
    inspectEntry reader scan entry = .ok result ∧ result.Clean ↔
      scan.Clean ∧ entry.Clears reader ∧ scan.relationshipBytes + entry.relationshipSize ≤ maxRelationshipBytes ∧
        result = ⟨false, false, scan.relationshipBytes + entry.relationshipSize⟩ := by
  unfold inspectEntry PackageScan.Clean PackageEntry.relationshipSize
  simp only [bind_eq_ok, mapError_eq_ok]
  constructor
  · rintro ⟨⟨data, hdata, h⟩, hmacros, hexternal⟩
    split_ifs at h ⊢ with hrelationship
    · obtain ⟨hwithin, bytes, external, rfl, hfound, rfl⟩ := inspectRelationships_eq_ok.mp h
      rw [Bool.or_eq_false_iff] at hmacros hexternal
      rw [hexternal.2, relationshipsAreExternal_eq_false_iff] at hfound
      refine ⟨⟨hmacros.1, hexternal.1⟩, ⟨⟨_, hdata⟩, hmacros.2, fun _ => ⟨bytes, hdata, hfound⟩⟩, hwithin, ?_⟩
      rw [hmacros.1, hmacros.2, hexternal.1, hexternal.2]
      rfl
    · cases h
      rw [Bool.or_eq_false_iff] at hmacros
      refine ⟨⟨hmacros.1, hexternal⟩, ⟨⟨_, hdata⟩, hmacros.2, fun h => absurd h hrelationship⟩, hscan, ?_⟩
      rw [hmacros.1, hmacros.2, hexternal]
      rfl
  · rintro ⟨⟨hmacros, hexternal⟩, hclears, hwithin, rfl⟩
    obtain ⟨data, hdata⟩ := hclears.opens
    refine ⟨⟨data, hdata, ?_⟩, rfl, rfl⟩
    rw [hmacros, hexternal, hclears.macroFree]
    split_ifs at hwithin ⊢ with hrelationship
    · obtain ⟨bytes, hbytes, hquiet⟩ := hclears.relationships hrelationship
      rw [hdata] at hbytes
      exact inspectRelationships_eq_ok.mpr
        ⟨hwithin, bytes, false, Except.ok.inj hbytes, (relationshipsAreExternal_eq_false_iff _).mpr hquiet, rfl⟩
    · rfl

/-- **The whole loop finds nothing** when no round does. -/
theorem inspectEntries_clean_iff (hscan : scan.relationshipBytes ≤ maxRelationshipBytes) :
    (∃ result, entries.foldlM (inspectEntry reader) scan = .ok result ∧ result.Clean) ↔
      scan.Clean ∧ (∀ entry ∈ entries, entry.Clears reader) ∧
        scan.relationshipBytes + (entries.map PackageEntry.relationshipSize).sum ≤ maxRelationshipBytes := by
  induction entries generalizing scan with
  | nil =>
    constructor
    · rintro ⟨_, h, hclean⟩
      cases h
      exact ⟨hclean, fun _ h => absurd h List.not_mem_nil, hscan⟩
    · rintro ⟨hclean, -, -⟩
      exact ⟨scan, rfl, hclean⟩
  | cons entry entries ih =>
    rw [List.forall_mem_cons, List.map_cons, List.sum_cons]
    simp only [List.foldlM_cons, bind_eq_ok]
    constructor
    · rintro ⟨result, ⟨next, hnext, h⟩, hclean⟩
      obtain ⟨hmiddle, hrest, hsum⟩ := (ih (inspectEntry_within hnext hscan)).mp ⟨result, h, hclean⟩
      obtain ⟨hfirst, hclears, -, rfl⟩ := (inspectEntry_clean_iff hscan).mp ⟨hnext, hmiddle⟩
      exact ⟨hfirst, ⟨hclears, hrest⟩, by simpa only [Nat.add_assoc] using hsum⟩
    · rintro ⟨hfirst, ⟨hclears, hrest⟩, hsum⟩
      rw [← Nat.add_assoc] at hsum
      have hwithin : scan.relationshipBytes + entry.relationshipSize ≤ maxRelationshipBytes := by omega
      obtain ⟨hnext, hmiddle⟩ := (inspectEntry_clean_iff hscan).mpr ⟨hfirst, hclears, hwithin, rfl⟩
      obtain ⟨result, h, hclean⟩ := (ih hwithin).mpr ⟨hmiddle, hrest, hsum⟩
      exact ⟨result, ⟨_, hnext, h⟩, hclean⟩

/-- A package in which `inspect_package` finds nothing. -/
structure Cleared (reader : XmlReader) (entries : List PackageEntry) : Prop where
  few : entries.length ≤ maxOfficeEntries
  expanded : (entries.map PackageEntry.size).sum ≤ maxOfficeExpandedBytes
  family : (detectPackageFamily entries).isSome
  clears : ∀ entry ∈ entries, entry.Clears reader
  relationships : (entries.map PackageEntry.relationshipSize).sum ≤ maxRelationshipBytes

def PackageInspection.Clean (inspection : PackageInspection) : Prop :=
  inspection.hasMacros = false ∧ inspection.hasExternalRelationships = false

/-- **Which packages are clean.** -/
theorem inspectPackage_clean_iff {archive : Except String (List PackageEntry)} :
    (∃ inspection, inspectPackage reader archive = .ok inspection ∧ inspection.Clean) ↔
      ∃ entries, archive = .ok entries ∧ Cleared reader entries := by
  have hloop : ∀ {entries : List PackageEntry},
      (∃ result, entries.foldlM (inspectEntry reader) ⟨false, false, 0⟩ = .ok result ∧ result.Clean) ↔
        (∀ entry ∈ entries, entry.Clears reader) ∧
          (entries.map PackageEntry.relationshipSize).sum ≤ maxRelationshipBytes := by
    intro entries
    rw [inspectEntries_clean_iff (Nat.zero_le _), Nat.zero_add]
    exact and_iff_right ⟨rfl, rfl⟩
  unfold inspectPackage
  simp only [bind_eq_ok, mapError_eq_ok, elim_eq_ok, checkPackageLimits_eq_ok]
  constructor
  · rintro ⟨inspection, ⟨entries, harchive, total, ⟨hfew, -, hexpanded, -⟩, family, hfamily, scan, hscan, h⟩, hclean⟩
    cases h
    obtain ⟨hclears, hrelationships⟩ := hloop.mp ⟨scan, hscan, hclean⟩
    exact ⟨entries, harchive, hfew, hexpanded, Option.isSome_of_mem hfamily, hclears, hrelationships⟩
  · rintro ⟨entries, harchive, h⟩
    obtain ⟨family, hfamily⟩ := Option.isSome_iff_exists.mp h.family
    obtain ⟨scan, hscan, hclean⟩ := hloop.mpr ⟨h.clears, h.relationships⟩
    exact ⟨_, ⟨entries, harchive, _, ⟨h.few, fun entry hentry => (h.clears entry hentry).opens, h.expanded, rfl⟩,
      family, hfamily, scan, hscan, rfl⟩, hclean⟩

theorem inspectPackage_format {archive : Except String (List PackageEntry)} {inspection : PackageInspection}
    (h : inspectPackage reader archive = .ok inspection) :
    ∃ entries, archive = .ok entries ∧ detectPackageFamily entries = some inspection.format := by
  unfold inspectPackage at h
  simp only [bind_eq_ok, mapError_eq_ok, elim_eq_ok] at h
  obtain ⟨entries, harchive, _, -, family, hfamily, _, -, h⟩ := h
  cases h
  exact ⟨entries, harchive, hfamily⟩

/-! ## What a package refers to -/

/-- A name in XML, with a namespace prefix or without one. -/
def IsNamed (name localPart : List Char) : Prop :=
  name = localPart ∨ ∃ nsPrefix, ':' ∉ nsPrefix ∧ name = nsPrefix ++ ':' :: localPart

/-- Some element with one of the names has an attribute with a value as described. -/
def HoldsElement (events : List (Except String PartEvent)) (names : List String) (key : String)
    (described : List Char → Prop) : Prop :=
  ∃ name attributes found value, .ok (.element name attributes) ∈ events ∧
    (∃ localPart ∈ names, IsNamed name localPart.toList) ∧ .ok found ∈ attributes ∧
    IsNamed found.key key.toList ∧ found.value = .ok value ∧ described value

/-- The folders and the file of a part, ignoring case. Both separators count. -/
def PackageEntry.segments (entry : PackageEntry) : List (List Char) := entry.lowerName.splitOn '/'

/-- The file is a `.rels` part. -/
def PackageEntry.IsRels (entry : PackageEntry) : Prop := ∃ file ∈ entry.segments.getLast?, ".rels".toList <:+ file

/-- The part is a VBA project, or in a folder of Basic. -/
def PackageEntry.IsMacroPart (entry : PackageEntry) : Prop :=
  "vbaproject.bin".toList ∈ entry.segments.getLast? ∨ "basic".toList ∈ entry.segments.dropLast

/-- Some relationship has an external target. -/
def ExternalRelationship (reader : XmlReader) (entries : List PackageEntry) : Prop :=
  ∃ entry ∈ entries, entry.IsRels ∧ ∃ bytes, entry.content = .ok (.ok bytes) ∧
    HoldsElement (reader bytes) ["Relationship"] "TargetMode" fun value =>
      eqIgnoreAsciiCase value "External".toList = true

def remoteSchemes : List String := ["http", "https", "ftp", "ftps", "sftp", "smb", "webdav", "webdavs"]

/-- An absolute URL of a remote scheme. -/
def IsRemoteUrl (value : List Char) : Prop :=
  ∃ scheme ∈ remoteSchemes, (scheme ++ "://").toList <+: lowercase value

/-- An ODF package with an image, an object or a section from elsewhere. -/
def RemoteReference (reader : XmlReader) (entries : List PackageEntry) : Prop :=
  hasPart entries "content.xml" = true ∧ hasPart entries "META-INF/manifest.xml" = true ∧
    ∃ entry ∈ entries, entry.name ∈ ["content.xml", "styles.xml"] ∧ ∃ bytes, entry.content = .ok (.ok bytes) ∧
      HoldsElement (reader bytes) ["image", "object", "section-source"] "href" IsRemoteUrl

def MacroPart (entries : List PackageEntry) : Prop := ∃ entry ∈ entries, entry.IsMacroPart

theorem localName_of_isNamed {name localPart : List Char} (h : IsNamed name localPart) (hcolon : ':' ∉ localPart) :
    localName name = localPart := by
  unfold localName
  rcases h with rfl | ⟨nsPrefix, hprefix, rfl⟩
  · have hdrop : name.dropWhile (· ≠ ':') = [] := by
      rw [List.dropWhile_eq_nil_iff]
      intro c hc
      exact decide_eq_true fun heq => hcolon (heq ▸ hc)
    rw [hdrop]
  · have hall : ∀ c ∈ nsPrefix, decide (c ≠ ':') = true :=
      fun c hc => decide_eq_true fun heq => hprefix (heq ▸ hc)
    rw [List.dropWhile_append_of_pos hall, List.dropWhile_cons_of_neg (by simp)]

/-- Any file that ends in `.rels` is read. -/
theorem isRelationshipPart_of_isRels (h : entry.IsRels) : isRelationshipPart entry.lowerName = true := by
  obtain ⟨file, hfile, stem, rfl⟩ := h
  unfold isRelationshipPart
  rw [show (entry.lowerName.splitOn '/').getLast? = some _ from hfile, Option.any_some, Bool.or_eq_true]
  by_cases hstem : stem = []
  · left
    rw [hstem]
    rfl
  · right
    have hname : PathBuf.ofString (String.ofList (stem ++ ".rels".toList)) =
        PathBuf.ofString (String.ofList stem) ++ PathUnit.char '.' :: PathBuf.ofString "rels" := by
      simp [PathBuf.ofString]
    have hbefore : PathBuf.ofString (String.ofList stem) ≠ [] := by
      simpa [PathBuf.ofString] using hstem
    have hextension : extension (PathBuf.ofString (String.ofList (stem ++ ".rels".toList))) =
        some (PathBuf.ofString "rels") := by
      rw [extension, hname, splitLastDot_append _ (by decide)]
      exact if_neg hbefore
    rw [hextension, Option.bind_some, toStr?_ofString]
    rfl

theorem isMacroName_of_isMacroPart (h : entry.IsMacroPart) : isMacroName entry.lowerName = true := by
  unfold isMacroName
  simp only [Bool.or_eq_true, List.isSuffixOf_iff_suffix, List.isPrefixOf_iff_prefix, decide_eq_true_iff]
  rcases h with hlast | hfolder
  · exact .inl (.inl (suffix_of_getLast?_splitOn hlast))
  · rcases occurs_of_mem_dropLast_splitOn hfolder with hfront | hinside
    · exact .inl (.inr hfront)
    · exact .inr hinside

/-- **No external relationship** is in a cleared package. -/
theorem Cleared.noExternal (h : Cleared reader entries) : ¬ExternalRelationship reader entries := by
  rintro ⟨entry, hentry, hrels, bytes, hcontent, name, attributes, found, value, helement, -, hfound, hkey, hvalue,
    hexternal⟩
  obtain ⟨bytes', hcontent', hquiet⟩ := (h.clears entry hentry).relationships (isRelationshipPart_of_isRels hrels)
  rw [hcontent] at hcontent'
  cases hcontent'
  obtain ⟨found', hfound', htarget⟩ := hquiet _ helement _ hfound
  cases hfound'
  obtain ⟨value', hvalue', hinternal⟩ := htarget (localName_of_isNamed hkey (by decide))
  rw [hvalue] at hvalue'
  cases hvalue'
  have hsame : lowercase "External".toList = lowercase "external".toList := by decide
  unfold eqIgnoreAsciiCase at hexternal hinternal
  rw [hsame] at hexternal
  rw [hexternal] at hinternal
  cases hinternal

/-- **No macro part** is in a cleared package. -/
theorem Cleared.noMacro (h : Cleared reader entries) : ¬MacroPart entries := by
  rintro ⟨entry, hentry, hmacro⟩
  have hfree := (h.clears entry hentry).macroFree
  rw [isMacroName_of_isMacroPart hmacro] at hfree
  cases hfree

end Anole.Office
