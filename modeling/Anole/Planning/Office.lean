import Anole.Document.OfficePackage
import Anole.Planning.Markup

/-!
# Plans of Office documents

Model of `office_format_hint`, `inspect_office` and the three planners of Office documents
(`crates/core/src/office.rs`, lines 33–487), with what a package refers to.

Main result:

* `deny_all_iff`: when an accepted package has nothing from elsewhere and no macros.

**Deviation.** External resources are looked for in the relationships of OOXML only. An ODF package
links an image, an object or a section in `content.xml` and `styles.xml`, which are not read.
-/

open Common Anole.Common

namespace Anole.Planning

open Anole.Office

/-! ## Inspection -/

/-- An input: what `identify_artifact` and `File::open` return, and the rest that is read of its path. -/
structure OfficeFile where
  displayPath : String
  /-- The extension, where it is text. -/
  pathExtension : Option String
  artifact : Except AnoleError ArtifactIdentity
  length : ℕ
  /-- The first six bytes, and what `ZipArchive::new` returns. -/
  opened : Except String (List UInt8 × Except String (List PackageEntry))

def rtfMagic : List UInt8 := [0x7b, 0x5c, 0x72, 0x74, 0x66]

def zipMagic : List UInt8 := [0x50, 0x4b, 0x03, 0x04]

/-- `input_error` (lines 1291–1299). -/
def officeInputError (file : OfficeFile) (error : String) : AnoleError :=
  (AnoleError.new .inputInvalid .inspect s!"Unable to read Office input: {file.displayPath}"
    "Check file permissions and storage health.").withDiagnostic error

/-- `office_format_hint` of a file that begins like ZIP (lines 46–61). -/
def packageFormatHint (file : OfficeFile) : Except String (List PackageEntry) → Except AnoleError (Option String)
  | .error error =>
    let extensionIsOffice := file.pathExtension.any fun value =>
      toAsciiLowercase value ∈ ["docx", "pptx", "xlsx", "odt", "ods", "odp"]
    if extensionIsOffice then .error (invalidZip error) else .ok none
  | .ok entries => do
    let _ ← checkPackageLimits entries
    pure (detectPackageFamily entries)

/-- `office_format_hint` (lines 33–62). -/
def officeFormatHint (file : OfficeFile) : Except AnoleError (Option String) :=
  file.opened.mapError (officeInputError file) >>= fun content =>
    if rtfMagic.isPrefixOf content.1 then .ok (some "rtf")
    else if zipMagic.isPrefixOf content.1 then packageFormatHint file content.2
    else .ok none

/-- `inspect_rtf_envelope` (lines 1080–1093). -/
def inspectRtfEnvelope (file : OfficeFile) : PackageInspection where
  format := "rtf"
  entryCount := 1
  expandedBytes := file.length
  hasMacros := false
  hasExternalRelationships := false

/-- `office_format_hint(path).ok().flatten() == Some("rtf")`. -/
def isRtf (file : OfficeFile) : Bool := (officeFormatHint file).toOption.join = some "rtf"

/-- What the inspection worker returns (lines 77–83). -/
def inspectEnvelope (reader : XmlReader) (file : OfficeFile) : Except AnoleError PackageInspection :=
  if isRtf file then .ok (inspectRtfEnvelope file)
  else file.opened.mapError (officeInputError file) >>= fun content => inspectPackage reader content.2

/-- `inspect_office` (lines 72–187). A `Probe` of an Office document has the fields of one of mail. -/
def inspectOffice (reader : XmlReader) (file : OfficeFile) : Except AnoleError DocumentProbe := do
  let artifact ← file.artifact
  let inspection ← inspectEnvelope reader file
  failIf (inspection.hasMacros = true)
    (.new .policyBlocked .inspect "Office package contains a VBA project"
      "Remove macros in an isolated trusted editor, then retry with macro-free OOXML.")
  failIf (inspection.hasExternalRelationships = true)
    (.new .policyBlocked .inspect "Office package contains external relationships under deny-all policy"
      "Embed or remove external resources, then retry.")
  pure {
    artifact := artifact
    formatId := inspection.format
    properties := TextMap.ofList [("package_entries", .natural inspection.entryCount),
      ("expanded_bytes", .natural inspection.expandedBytes), ("required_part_present", .bool true),
      ("has_macros", .bool false), ("has_external_relationships", .bool false)] }

/-! ## Planners -/

section Planners

variable {φ : Type} (tools : PlannerTools φ)

/-- `unsupported` (lines 1350–1357). -/
def officeUnsupported (message : String) : AnoleError :=
  .new .unsupported .plan message "Choose DOCX, PPTX, or XLSX input and PDF output."

/-- The arguments of LibreOffice. -/
def sofficeArguments (source target : String) : TextMap String :=
  TextMap.ofList [("source_format", source), ("target_format", target), ("headless", "true"),
    ("isolated_profile", "true"), ("macros", "disabled"), ("external_resources", "deny")]

def officeConstraints : List (String × Json) :=
  [("network", .string "deny"), ("macros", .string "disabled"), ("external_resources", .string "deny"),
    ("isolated_user_profile", .bool true)]

/-- `plan_office_to_pdf` (lines 195–309). -/
def planOfficeToPdf (probe : DocumentProbe) (outputPath : PathBuf) (soffice pdfinfo pdftoppm : EngineIdentity)
    (planId : Uuid) : Except AnoleError Plan := do
  failIf (probe.formatId ∉ ["docx", "pptx", "xlsx", "odt", "ods", "odp", "rtf"])
    (officeUnsupported "Office-to-PDF requires OOXML, ODF, or RTF input")
  failIf (soffice.engineId ≠ "soffice" ∨ pdfinfo.engineId ≠ "pdfinfo" ∨ pdftoppm.engineId ≠ "pdftoppm")
    (.new .engineIncompatible .plan "Office-to-PDF Plan was given an incorrect engine"
      "Run doctor and use soffice, pdfinfo, and pdftoppm.")
  let conversion : PlanStep := {
    stepId := "step-1"
    capabilityId := s!"libreoffice.{probe.formatId}-to-pdf.headless"
    engine := soffice
    operation := .render
    lossClass := .unknown
    arguments := sofficeArguments probe.formatId "pdf"
    estimatedTemporaryBytes := some (saturatingMul probe.artifact.sizeBytes 8) }
  pure (Plan.hashed tools {
    schemaVersion := 1
    planId := planId
    planHash := ""
    inputFingerprint := probe.artifact.fastFingerprint
    targetFormat := "pdf"
    constraints := TextMap.ofList (officeConstraints ++ [("all_pdf_pages_must_render", .bool true)])
    steps := [conversion, structuralValidation "step-2" pdfinfo, renderValidation "step-3" pdftoppm]
    changes := {
      preserved := ["visible document content supported by LibreOffice",
        "page order produced by the isolated office renderer"]
      changed := ["editable Office structure rendered into fixed PDF pages", "active content disabled"]
      dropped := ["macros, editable formulas/objects, transitions, and interactive behavior"]
      unknown := ["font substitution and pixel-level layout fidelity require fixture comparison"] }
    validators := ["office.pdf-opens", "office.pdf-page-count", "office.pdf-page-sizes",
      "office.pdf-all-pages-render", "office.font-diagnostics", "office.visual-drift"]
    networkPolicy := .deny
    outputPath := some outputPath
    estimatedOutputBytes := none })

/-- `plan_office_document_exchange` (lines 316–399). -/
def planOfficeDocumentExchange (probe : DocumentProbe) (outputPath : PathBuf) (soffice : EngineIdentity)
    (target : String) (planId : Uuid) : Except AnoleError Plan := do
  let target := normalizedTarget target
  failIf (probe.formatId ∉ ["docx", "odt"]) (officeUnsupported "Document exchange requires DOCX or ODF text input")
  failIf (probe.formatId = target)
    (.new .unsupported .plan s!"Document exchange cannot convert {target} to itself"
      "Choose the opposite document format.")
  failIf (target ∉ ["docx", "odt"]) (officeUnsupported "Document exchange target must be DOCX or ODT")
  failIf (soffice.engineId ≠ "soffice")
    (.new .engineIncompatible .plan "Document exchange Plan was given an incorrect engine"
      "Run doctor and use soffice.")
  let changes : ChangeSet := {
    preserved := ["visible document content supported by LibreOffice",
      "body text order produced by the isolated office converter"]
    changed := ["package structure is rewritten between OOXML and ODF containers"]
    dropped := ["macros and interactive behavior"]
    unknown := ["application-specific styling fidelity requires fixture comparison"] }
  pure (singleStepPlan tools planId probe.artifact.fastFingerprint target (TextMap.ofList officeConstraints)
    s!"libreoffice.{probe.formatId}-to-{target}.headless" soffice .transform .unknown
    (sofficeArguments probe.formatId target) (saturatingMul probe.artifact.sizeBytes 8) changes
    ["office.package-opens", "office.target-structure"] outputPath none)

/-- `plan_office_csv_export` (lines 411–487). -/
def planOfficeCsvExport (probe : DocumentProbe) (outputPath : PathBuf) (engine : EngineIdentity) (planId : Uuid) :
    Except AnoleError Plan := do
  failIf (probe.formatId ≠ "xlsx") (officeUnsupported "Office CSV export requires XLSX spreadsheet input")
  failIf (engine.engineId ≠ "anole.office-csv")
    (.new .engineIncompatible .plan "Office CSV export Plan was given an incorrect engine"
      "Run doctor and use the built-in anole.office-csv engine.")
  let changes : ChangeSet := {
    preserved := ["cell values of every worksheet as cached by the workbook", "row order and sheet order"]
    changed := ["formulas are exported as their cached computed values",
      "each worksheet is flattened to its own text grid"]
    dropped := ["cell styling, number formats, charts, and macros"]
    unknown := ["cells whose cached value predates the last edit show the cache"] }
  pure (singleStepPlan tools planId probe.artifact.fastFingerprint "csv"
    (TextMap.ofList [("network", .string "deny"), ("external_resources", .string "deny"),
      ("worksheets", .string "all worksheets, one CSV per sheet"),
      ("output_shape", .string "paged directory of CSV files")])
    "anole.office-csv.xlsx-all-sheets" engine .transform .lossy
    (TextMap.ofList [("source_format", "xlsx"), ("target_format", "csv"), ("worksheets", "all"),
      ("formulas", "cached-values")])
    (saturatingMul probe.artifact.sizeBytes 4) changes
    ["office.csv-opens", "office.csv-sheet-count", "office.csv-rows-present"] outputPath none)

/-- A plan of some planner for an inspected input. -/
inductive OfficePlan (reader : XmlReader) (file : OfficeFile) : Plan → Prop where
  | pdf {probe outputPath soffice pdfinfo pdftoppm planId plan} (inspected : inspectOffice reader file = .ok probe)
      (planned : planOfficeToPdf tools probe outputPath soffice pdfinfo pdftoppm planId = .ok plan) :
      OfficePlan reader file plan
  | exchange {probe outputPath soffice target planId plan} (inspected : inspectOffice reader file = .ok probe)
      (planned : planOfficeDocumentExchange tools probe outputPath soffice target planId = .ok plan) :
      OfficePlan reader file plan
  | csv {probe outputPath engine planId plan} (inspected : inspectOffice reader file = .ok probe)
      (planned : planOfficeCsvExport tools probe outputPath engine planId = .ok plan) :
      OfficePlan reader file plan

end Planners

/-! ## What the gate covers -/

/-- `ZipArchive` reads the file as a package of these entries. -/
def OfficeFile.Package (file : OfficeFile) (entries : List PackageEntry) : Prop :=
  ∃ leading, file.opened = .ok (leading, .ok entries)

/-- The file begins like RTF. -/
def OfficeFile.StartsRtf (file : OfficeFile) : Prop :=
  ∃ leading archive, file.opened = .ok (leading, archive) ∧ rtfMagic <+: leading

/-- Nothing is from elsewhere, and there are no macros. -/
structure Inert (reader : XmlReader) (entries : List PackageEntry) : Prop where
  noExternal : ¬ExternalRelationship reader entries
  noReference : ¬RemoteReference reader entries
  noMacro : ¬MacroPart entries

/-- The gate covers the package: it is inert if it is accepted, and nothing is fetched for a plan that denies
    the network. -/
structure DenyAllCovers {φ : Type} (tools : PlannerTools φ) (reader : XmlReader) (file : OfficeFile)
    (entries : List PackageEntry) : Prop where
  accepted : ∀ probe, inspectOffice reader file = .ok probe → Inert reader entries
  planned : ∀ plan, OfficePlan tools reader file plan → plan.networkPolicy = .deny →
    ¬(ExternalRelationship reader entries ∨ RemoteReference reader entries)

variable {reader : XmlReader} {file : OfficeFile} {entries : List PackageEntry}

theorem detectPackageFamily_mem {family : String} (h : detectPackageFamily entries = some family) :
    family ∈ ["docx", "pptx", "xlsx", "odt", "ods", "odp"] := by
  unfold detectPackageFamily at h
  dsimp only at h
  split_ifs at h
  all_goals
    cases h
    decide

theorem packageFormatHint_ne_rtf (archive : Except String (List PackageEntry)) :
    packageFormatHint file archive ≠ .ok (some "rtf") := by
  intro h
  cases archive with
  | error error =>
    rw [packageFormatHint] at h
    split_ifs at h
    cases h
  | ok entries =>
    rw [packageFormatHint, bind_eq_ok] at h
    obtain ⟨_, -, h⟩ := h
    exact absurd (detectPackageFamily_mem (Except.ok.inj h)) (by decide)

/-- The hint says RTF when the file begins like it. -/
theorem isRtf_iff : isRtf file = true ↔ file.StartsRtf := by
  have hjoin : ∀ hint : Except AnoleError (Option String),
      hint.toOption.join = some "rtf" ↔ hint = .ok (some "rtf") := by
    intro hint
    cases hint with
    | error _ => exact iff_of_false (fun h => by cases h) fun h => by cases h
    | ok found => simp [Except.toOption]
  rw [isRtf, decide_eq_true_iff, hjoin, officeFormatHint, bind_eq_ok, OfficeFile.StartsRtf]
  simp only [mapError_eq_ok, List.isPrefixOf_iff_prefix]
  constructor
  · rintro ⟨⟨leading, archive⟩, hopened, h⟩
    refine ⟨leading, archive, hopened, ?_⟩
    by_contra hrtf
    rw [if_neg hrtf] at h
    split_ifs at h with hzip
    · exact packageFormatHint_ne_rtf archive h
    · cases h
  · rintro ⟨leading, archive, hopened, hrtf⟩
    exact ⟨⟨leading, archive⟩, hopened, if_pos hrtf⟩

theorem inspectEnvelope_clean_iff : (∃ inspection, inspectEnvelope reader file = .ok inspection ∧ inspection.Clean) ↔
    file.StartsRtf ∨ ∃ entries, file.Package entries ∧ Cleared reader entries := by
  unfold inspectEnvelope
  rw [← isRtf_iff]
  by_cases hrtf : isRtf file = true
  · rw [if_pos hrtf]
    exact iff_of_true ⟨_, rfl, rfl, rfl⟩ (.inl hrtf)
  rw [if_neg hrtf, or_iff_right hrtf]
  simp only [bind_eq_ok, mapError_eq_ok]
  constructor
  · rintro ⟨inspection, ⟨⟨leading, archive⟩, hopened, h⟩, hclean⟩
    obtain ⟨entries, rfl, hcleared⟩ := inspectPackage_clean_iff.mp ⟨inspection, h, hclean⟩
    exact ⟨entries, ⟨leading, hopened⟩, hcleared⟩
  · rintro ⟨entries, ⟨leading, hopened⟩, hcleared⟩
    obtain ⟨inspection, h, hclean⟩ := inspectPackage_clean_iff.mpr ⟨entries, rfl, hcleared⟩
    exact ⟨inspection, ⟨_, hopened, h⟩, hclean⟩

/-- **What is accepted**: a readable file that begins like RTF, or is a cleared package. -/
theorem inspectOffice_ok_iff : (∃ probe, inspectOffice reader file = .ok probe) ↔
    (∃ artifact, file.artifact = .ok artifact) ∧
      (file.StartsRtf ∨ ∃ entries, file.Package entries ∧ Cleared reader entries) := by
  rw [← inspectEnvelope_clean_iff]
  unfold inspectOffice
  simp only [bind_eq_ok, failIf_eq_ok, PackageInspection.Clean, Bool.not_eq_true]
  constructor
  · rintro ⟨_, artifact, hartifact, inspection, hinspection, _, hmacros, _, hexternal, -⟩
    exact ⟨⟨artifact, hartifact⟩, inspection, hinspection, hmacros, hexternal⟩
  · rintro ⟨⟨artifact, hartifact⟩, inspection, hinspection, hmacros, hexternal⟩
    exact ⟨_, artifact, hartifact, inspection, hinspection, (), hmacros, (), hexternal, rfl⟩

theorem inspectOffice_format {probe : DocumentProbe} (h : inspectOffice reader file = .ok probe) :
    probe.formatId ∈ ["docx", "pptx", "xlsx", "odt", "ods", "odp", "rtf"] := by
  unfold inspectOffice at h
  simp only [bind_eq_ok] at h
  obtain ⟨_, -, inspection, hinspection, _, -, _, -, h⟩ := h
  cases h
  show inspection.format ∈ _
  unfold inspectEnvelope at hinspection
  split_ifs at hinspection
  · cases hinspection
    show "rtf" ∈ _
    decide
  · obtain ⟨content, -, hpackage⟩ := bind_eq_ok.mp hinspection
    obtain ⟨entries, -, hfamily⟩ := inspectPackage_format hpackage
    exact List.mem_append_left ["rtf"] (detectPackageFamily_mem hfamily)

/-- Each accepted document has a plan, which denies the network. -/
theorem planOfficeToPdf_ok {φ : Type} (tools : PlannerTools φ) {probe : DocumentProbe}
    (h : inspectOffice reader file = .ok probe) (outputPath : PathBuf) {soffice pdfinfo pdftoppm : EngineIdentity}
    (hsoffice : soffice.engineId = "soffice") (hpdfinfo : pdfinfo.engineId = "pdfinfo")
    (hpdftoppm : pdftoppm.engineId = "pdftoppm") (planId : Uuid) :
    ∃ plan, OfficePlan tools reader file plan ∧ plan.networkPolicy = .deny := by
  have hplan : ∃ plan, planOfficeToPdf tools probe outputPath soffice pdfinfo pdftoppm planId = .ok plan ∧
      plan.networkPolicy = .deny := by
    unfold planOfficeToPdf
    simp only [failIf_bind_eq_ok, hsoffice, hpdfinfo, hpdftoppm]
    exact ⟨_, ⟨fun hformat => hformat (inspectOffice_format h), by simp, rfl⟩, rfl⟩
  obtain ⟨plan, hplan, hdeny⟩ := hplan
  exact ⟨plan, .pdf h hplan, hdeny⟩

theorem OfficePlan.inspected_ok {φ : Type} {tools : PlannerTools φ} {plan : Plan}
    (h : OfficePlan tools reader file plan) : ∃ probe, inspectOffice reader file = .ok probe := by
  cases h with
  | pdf inspected _ | exchange inspected _ | csv inspected _ => exact ⟨_, inspected⟩

/-- **When the gate covers a package.** Nothing of a file that begins like RTF is looked at. Of any other file that
    is cleared, only the references of ODF are not. -/
theorem deny_all_iff {φ : Type} (tools : PlannerTools φ) (reader : XmlReader) (file : OfficeFile)
    (entries : List PackageEntry) :
    (file.Package entries → DenyAllCovers tools reader file entries) ↔
      (∃ artifact, file.artifact = .ok artifact) → file.Package entries →
        (file.StartsRtf → Inert reader entries) ∧
          (¬file.StartsRtf → Cleared reader entries → ¬RemoteReference reader entries) := by
  constructor
  · intro h hartifact hpackage
    have hcovers := h hpackage
    constructor
    · intro hrtf
      obtain ⟨probe, hprobe⟩ := inspectOffice_ok_iff.mpr ⟨hartifact, .inl hrtf⟩
      exact hcovers.accepted probe hprobe
    · intro _ hcleared
      obtain ⟨probe, hprobe⟩ := inspectOffice_ok_iff.mpr ⟨hartifact, .inr ⟨entries, hpackage, hcleared⟩⟩
      exact (hcovers.accepted probe hprobe).noReference
  · intro h hpackage
    have hinert : (∃ probe, inspectOffice reader file = .ok probe) → Inert reader entries := by
      intro haccepted
      obtain ⟨hartifact, hway⟩ := inspectOffice_ok_iff.mp haccepted
      obtain ⟨hrtf, hodf⟩ := h hartifact hpackage
      by_cases hstarts : file.StartsRtf
      · exact hrtf hstarts
      obtain ⟨others, ⟨leading, hopened⟩, hcleared⟩ := hway.resolve_left hstarts
      obtain ⟨leading', hopened'⟩ := hpackage
      rw [hopened] at hopened'
      cases hopened'
      exact ⟨hcleared.noExternal, hodf hstarts hcleared, hcleared.noMacro⟩
    refine ⟨fun probe hprobe => hinert ⟨probe, hprobe⟩, fun plan hplan _ => ?_⟩
    have hnothing := hinert hplan.inspected_ok
    exact not_or.mpr ⟨hnothing.noExternal, hnothing.noReference⟩

namespace OfficeSample

def contentXml : List UInt8 :=
  ("<office:document-content xmlns:office=\"urn:oasis:names:tc:opendocument:xmlns:office:1.0\" " ++
    "xmlns:draw=\"urn:oasis:names:tc:opendocument:xmlns:drawing:1.0\" " ++
    "xmlns:xlink=\"http://www.w3.org/1999/xlink\"><office:body><office:text><draw:frame>" ++
    "<draw:image xlink:href=\"https://x/a.png\"/></draw:frame></office:text></office:body>" ++
    "</office:document-content>").toList.map fun c => c.toNat.toUInt8

def written (key value : String) : Except String PartAttribute := .ok ⟨key.toList, .ok value.toList⟩

/-- The events of `contentXml`; the other parts are empty. -/
def readXml : XmlReader := fun bytes =>
  if bytes = contentXml then
    [.ok (.element "office:document-content".toList
        [written "xmlns:office" "urn:oasis:names:tc:opendocument:xmlns:office:1.0",
          written "xmlns:draw" "urn:oasis:names:tc:opendocument:xmlns:drawing:1.0",
          written "xmlns:xlink" "http://www.w3.org/1999/xlink"]),
      .ok (.element "office:body".toList []), .ok (.element "office:text".toList []),
      .ok (.element "draw:frame".toList []),
      .ok (.element "draw:image".toList [written "xlink:href" "https://x/a.png"]),
      .ok .other, .ok .other, .ok .other, .ok .other]
  else []

/-- A text document with an image from elsewhere. -/
def linkedEntries : List PackageEntry :=
  [⟨"mimetype", 0, .ok (.ok [])⟩, ⟨"content.xml", 400, .ok (.ok contentXml)⟩,
    ⟨"META-INF/manifest.xml", 0, .ok (.ok [])⟩]

def linked : OfficeFile where
  displayPath := "/a.odt"
  pathExtension := some "odt"
  artifact := .ok ⟨"/a.odt", PathBuf.ofString "/a.odt", 900, "blake3:00"⟩
  length := 900
  opened := .ok ([0x50, 0x4b, 0x03, 0x04, 0x14, 0x00], .ok linkedEntries)

theorem linked_cleared : Cleared readXml linkedEntries where
  few := by decide
  expanded := by decide
  family := by
    unfold detectPackageFamily
    rw [if_neg (by decide), if_neg (by decide), if_neg (by decide), if_pos (by decide)]
    dsimp only
    split_ifs <;> rfl
  clears := by
    simp only [linkedEntries, List.forall_mem_cons]
    refine ⟨⟨⟨_, rfl⟩, by decide, fun h => absurd h (by decide)⟩, ⟨⟨_, rfl⟩, by decide, fun h => absurd h (by decide)⟩,
      ⟨⟨_, rfl⟩, by decide, fun h => absurd h (by decide)⟩, fun _ h => absurd h List.not_mem_nil⟩
  relationships := by decide

theorem linked_refers : RemoteReference readXml linkedEntries := by
  refine ⟨by decide, by decide, ⟨"content.xml", 400, .ok (.ok contentXml)⟩, by simp [linkedEntries], by decide,
    contentXml, rfl, ?_⟩
  refine ⟨"draw:image".toList, [written "xlink:href" "https://x/a.png"],
    ⟨"xlink:href".toList, .ok "https://x/a.png".toList⟩, "https://x/a.png".toList, ?_,
    ⟨"image", by decide, .inr ⟨"draw".toList, by decide, by decide⟩⟩, ?_,
    .inr ⟨"xlink".toList, by decide, by decide⟩, rfl, "https", by decide, by decide⟩
  · unfold readXml
    rw [if_pos rfl]
    simp
  · exact List.mem_singleton.mpr rfl

def engine (id : String) : EngineIdentity := { Sample.qpdf with engineId := id }

/-- A plan that denies the network is made for a document with an image from elsewhere. -/
theorem linked_image_planned :
    (∃ plan, OfficePlan Sample.tools readXml linked plan ∧ plan.networkPolicy = .deny) ∧
      ¬(linked.Package linkedEntries → DenyAllCovers Sample.tools readXml linked linkedEntries) := by
  have hpackage : linked.Package linkedEntries := ⟨_, rfl⟩
  obtain ⟨probe, hprobe⟩ := inspectOffice_ok_iff.mpr ⟨⟨_, rfl⟩, .inr ⟨_, hpackage, linked_cleared⟩⟩
  constructor
  · have hengine : ∀ id, (engine id).engineId = id := fun _ => rfl
    exact planOfficeToPdf_ok Sample.tools hprobe [] (hengine "soffice") (hengine "pdfinfo") (hengine "pdftoppm") 0
  · intro h
    exact ((h hpackage).accepted probe hprobe).noReference linked_refers

end OfficeSample

end Anole.Planning
