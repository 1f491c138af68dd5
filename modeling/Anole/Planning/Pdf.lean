import Anole.Common.Decimal
import Anole.Planning.Plan

/-!
# The PDF planners

Model of the planners of PDF inputs (`crates/core/src/pdf.rs`, lines 202–490, 783–844,
1058–1310, 1430–1782, 2006–2074 and 2280–2291; `ocr.rs`, lines 20–205) and of the
part of `prepare_conversion` that hands the fields of a request to them (`workflow.rs`, lines
132–160, 262–278 and 412–514), for inputs that have been inspected.

A planner also returns the password that it registers for its plan (`register_pdf_secret`).
-/

namespace Anole.Planning

open Anole.Common

/-! ## Numbers and texts -/

def u32Max : ℕ := 2 ^ 32 - 1

def u64Max : ℕ := 2 ^ 64 - 1

/-- `u64::saturating_mul`. -/
def saturatingMul (a b : ℕ) : ℕ := min (a * b) u64Max

/-- `u32::try_from(len).unwrap_or(u32::MAX)`. -/
def clampU32 (n : ℕ) : ℕ := min n u32Max

/-- `value.trim().trim_start_matches('.').to_ascii_lowercase()` (`workflow.rs`, lines 353–355). -/
def normalizedTarget (target : String) : String :=
  toAsciiLowercase (String.ofList ((trim target).toList.dropWhile (· = '.')))

/-- `str::split` on a character. -/
def splitText (separator : Char) (text : String) : List String :=
  (text.toList.splitOn separator).map String.ofList

/-- `str::parse::<u32>`. -/
def parseU32 (text : String) : Option ℕ :=
  let digits : List Char := match text.toList with
    | '+' :: rest => rest
    | cs => cs
  let value := digits.foldl (fun value c => 10 * value + (c.toNat - '0'.toNat)) 0
  if digits ≠ [] ∧ digits.all Char.isDigit = true ∧ value ≤ u32Max then some value else none

/-- A `u32` is read back from its digits. -/
theorem parseU32_toString (n : ℕ) : parseU32 (toString n) = if n ≤ u32Max then some n else none := by
  have hdigits : ∀ c ∈ (toString n).toList, c.isDigit := fun c hc => isDigit_of_mem_toString hc
  have hvalue := foldl_toString n
  have hne := toString_toList_ne_nil n
  unfold parseU32
  generalize (toString n).toList = cs at hdigits hvalue hne
  split
  · exact absurd (hdigits '+' List.mem_cons_self) (by decide)
  · simp only [hvalue, hne, List.all_eq_true.mpr hdigits, ne_eq, not_false_eq_true, true_and]

/-! ## Errors -/

/-- `unsupported` (lines 1031–1038). -/
def unsupported (message : String) : AnoleError :=
  .new .unsupported .plan message "Choose PDF input and PNG or JPEG output."

/-- `input_pdf_error` (lines 1011–1019). -/
def inputPdfError (message diagnostic : String) : AnoleError :=
  (AnoleError.new .inputInvalid .inspect message "Choose a complete, supported PDF.").withDiagnostic
    diagnostic

/-- `invalid_page_range` (lines 1108–1115). -/
def invalidPageRange : AnoleError :=
  .new .inputInvalid .plan "Page range must look like 1-3,7 within the document"
    "Use 1-based page numbers separated by commas and hyphens."

/-- `invalid_plan_argument` (`runner.rs`, lines 4618–4625). -/
def invalidPlanArgument (name : String) : AnoleError :=
  .new .policyBlocked .execute s!"Plan contains an invalid or missing {name} argument"
    "Create a new Plan with the installed Anole version."

/-- `ErrorCode::ResourceExhausted` of a page count that is no `u32`. -/
def pageCountError : AnoleError :=
  .new .resourceExhausted .plan "PDF page count cannot be represented" "Split the PDF and retry."

/-- `u32::try_from(probe.streams.len())`. -/
def pageCountOf {φ : Type} (probe : Probe φ) : Except AnoleError ℕ :=
  if probe.streams.length ≤ u32Max then .ok probe.streams.length else .error pageCountError

/-- The checks below return an error when a condition holds. -/
def failIf (c : Prop) [Decidable c] (error : AnoleError) : Except AnoleError Unit :=
  if c then .error error else .ok ()

theorem failIf_eq_ok {c : Prop} [Decidable c] {error : AnoleError} {u : Unit} : failIf c error = .ok u ↔ ¬ c := by
  rw [failIf]
  split_ifs with hc <;> simp [hc]

/-- `ensure_pdf_probe` (lines 1469–1479). -/
def ensurePdfProbe {φ : Type} (probe : Probe φ) (operation : String) : Except AnoleError Unit :=
  failIf (probe.format.id ≠ "pdf")
    (.new .unsupported .plan s!"PDF {operation} needs a PDF input" "Retry with a PDF file.")

/-- `ensure_qpdf` (lines 1481–1491). -/
def ensureQpdf (qpdf : EngineIdentity) (operation : String) : Except AnoleError Unit :=
  failIf (qpdf.engineId ≠ "qpdf")
    (.new .engineIncompatible .plan s!"The {operation} Plan was given the wrong engine"
      "Run doctor and use qpdf.")

/-! ## Page ranges -/

/-- The pages of one part of a range, in the loop of `parse_page_range` (lines 1063–1087). -/
def parsePart (part : String) : Except AnoleError (List ℕ) :=
  let part := trim part
  if part = "" then .ok []
  else
    match splitText '-' part with
    | [single] =>
      match parseU32 single with
      | some page => .ok [page]
      | none => .error invalidPageRange
    | [first, last] =>
      match parseU32 (trim first), parseU32 (trim last) with
      | some first, some last =>
        if last < first then .error invalidPageRange
        else .ok (List.range' first (last - first + 1))
      | _, _ => .error invalidPageRange
    | _ => .error invalidPageRange

/-- `parse_page_range` (lines 1061–1106). -/
def parsePageRange (range : String) (pageCount : ℕ) : Except AnoleError (List ℕ × ℕ) := do
  let parts ← (splitText ',' range).mapM parsePart
  let selected := parts.flatten
  failIf (selected = []) invalidPageRange
  let maximum := selected.foldl max 0
  failIf (maximum > pageCount ∨ 0 ∈ selected)
    (.new .inputInvalid .plan
      s!"Page range reaches page {maximum} but the PDF has {pageCount} pages"
      "Adjust the range to the document.")
  pure (selected, clampU32 selected.length)

/-- `normalize_page_range_for_qpdf` (lines 2280–2291). -/
def normalizePageRangeForQpdf (range : String) : Except AnoleError String := do
  let parts := ((splitText ',' range).map trim).filter fun part => part ≠ ""
  failIf (parts = []) invalidPageRange
  pure (String.intercalate ","
    (parts.map fun part => String.ofList (part.toList.filter fun c => c ≠ ' ')))

/-! ## Plans -/

/-- A plan, and the password that is registered for it. -/
structure Planned where
  plan : Plan
  secret : Option String

/-- The constraints of the operations on whole files. -/
def offlineConstraints : TextMap Json :=
  TextMap.ofList [("network", .string "deny"), ("external_resources", .string "deny")]

/-- A plan of one step, hashed. The planners differ in the fields given here. -/
def singleStepPlan {φ : Type} (tools : PlannerTools φ) (planId : Uuid) (fingerprint target : String)
    (constraints : TextMap Json) (capabilityId : String) (engine : EngineIdentity)
    (operation : Operation) (lossClass : LossClass) (arguments : TextMap String)
    (temporaryBytes : ℕ) (changes : ChangeSet) (validators : List String) (outputPath : PathBuf)
    (outputBytes : Option ℕ) : Plan :=
  Plan.hashed tools {
    schemaVersion := 1
    planId := planId
    planHash := ""
    inputFingerprint := fingerprint
    targetFormat := target
    constraints := constraints
    steps := [{
      stepId := "step-1"
      capabilityId := capabilityId
      engine := engine
      operation := operation
      lossClass := lossClass
      arguments := arguments
      estimatedTemporaryBytes := some temporaryBytes }]
    changes := changes
    validators := validators
    networkPolicy := .deny
    outputPath := some outputPath
    estimatedOutputBytes := outputBytes }

section Planners

variable {φ : Type} (tools : PlannerTools φ)

/-- `pdf_operation_plan` (lines 1430–1467). -/
def pdfOperationPlan (capabilityId : String) (arguments : TextMap String) (probe : Probe φ)
    (outputPath : PathBuf) (qpdf : EngineIdentity) (changes : ChangeSet) (validators : List String)
    (planId : Uuid) : Plan :=
  singleStepPlan tools planId probe.artifact.fastFingerprint "pdf" offlineConstraints capabilityId
    qpdf .transform .none arguments (saturatingMul probe.artifact.sizeBytes 2) changes validators
    outputPath none

/-- `plan_pdf_text_export` (lines 208–283). -/
def planPdfTextExport (probe : Probe φ) (outputPath : PathBuf) (pdftotext : EngineIdentity)
    (target : String) (planId : Uuid) : Except AnoleError Planned := do
  let target := normalizedTarget target
  failIf (probe.format.id ≠ "pdf" ∨ probe.format.kind ≠ .pdf)
    (unsupported "PDF text export requires a PDF input")
  failIf (target ≠ "md") (unsupported "PDF text export supports only md")
  failIf (pdftotext.engineId ≠ "pdftotext")
    (.new .engineIncompatible .plan "PDF text export was given the wrong engine"
      "Run doctor and use pdftotext.")
  let pageCount ← pageCountOf probe
  let arguments := TextMap.ofList [("source_format", "pdf"), ("target_format", "md"),
    ("pages", toString pageCount), ("layout", "reading-order")]
  let changes : ChangeSet := {
    preserved := ["the concatenated text layer in reading order"]
    changed := [s!"the PDF text layer is re-serialized as a Markdown file ({pageCount} pages)"]
    dropped := ["headings, tables, lists, and all layout structure", "images and vector graphics"]
    unknown := ["reading order of multi-column layouts"] }
  pure ⟨singleStepPlan tools planId probe.artifact.fastFingerprint "md" offlineConstraints
    "poppler.pdf-to-md.offline" pdftotext .transform .lossy arguments
    (saturatingMul probe.artifact.sizeBytes 2) changes ["document.text-extractable"] outputPath none,
    none⟩

/-- `expected_dimensions` (lines 783–813). -/
def expectedDimensions (probe : Probe φ) (dpi : ℕ) : Except AnoleError (List (ℕ × ℕ)) :=
  probe.streams.mapM fun page => do
    let width ← page.widthPoints.elim (.error (inputPdfError "PDF probe lacks page width" "")) .ok
    let height ← page.heightPoints.elim (.error (inputPdfError "PDF probe lacks page height" "")) .ok
    let rotation := page.rotationDegrees.getD 0 % 360
    let swapped := rotation = 90 ∨ rotation = 270
    let first ← tools.rasterDimension (if swapped then height else width) dpi
    let second ← tools.rasterDimension (if swapped then width else height) dpi
    pure (first, second)

/-- `estimated_raster_bytes` (lines 835–844). -/
def estimatedRasterBytes (dimensions : List (ℕ × ℕ)) (gray : Bool) : ℕ :=
  dimensions.foldl (fun total size =>
    min (total + saturatingMul (saturatingMul size.1 size.2) (if gray then 1 else 3)) u64Max) 0

/-- The format of a render (lines 306–318). -/
def renderTarget (target : String) : Except AnoleError String :=
  match normalizedTarget target with
  | "jpg" | "jpeg" => .ok "jpeg"
  | "png" => .ok "png"
  | _ => .error (unsupported "PDF rendering supports only PNG or JPEG")

/-- The quality of a render (lines 342–366). -/
def renderQuality (target : String) (quality : Option ℕ) : Except AnoleError (Option ℕ) :=
  if target = "jpeg" then do
    let value := quality.getD 85
    failIf (value < 1 ∨ 100 < value)
      (.new .inputInvalid .plan "JPEG quality must be between 1 and 100"
        "Choose a supported --quality value.")
    pure (some value)
  else do
    failIf (quality ≠ none)
      (.new .inputInvalid .plan "PNG rendering is lossless and does not accept --quality"
        "Remove --quality or choose JPEG.")
    pure none

/-- `plan_pdf_render` (lines 290–490). -/
def planPdfRender (probe : Probe φ) (request : PlanRequest) (pdftoppm : EngineIdentity)
    (planId : Uuid) : Except AnoleError Planned := do
  failIf (probe.format.id ≠ "pdf" ∨ probe.format.kind ≠ .pdf)
    (unsupported "PDF rendering requires a PDF input")
  failIf (pdftoppm.engineId ≠ "pdftoppm")
    (.new .engineIncompatible .plan "PDF rendering was given the wrong engine"
      "Run doctor and use pdftoppm.")
  let target ← renderTarget request.targetFormat
  let dpi := request.dpi.getD 144
  failIf (dpi < 36 ∨ 600 < dpi)
    (.new .inputInvalid .plan "PDF render DPI must be between 36 and 600"
      "Choose a supported --dpi value.")
  let colorMode := toAsciiLowercase (trim (request.colorMode.getD "rgb"))
  failIf (colorMode ∉ ["rgb", "gray"])
    (.new .inputInvalid .plan "PDF color mode must be rgb or gray"
      "Choose --color-mode rgb or --color-mode gray.")
  let quality ← renderQuality target request.quality
  let outputPath ← request.outputPath.elim
    (.error (.new .inputInvalid .plan "PDF rendering requires an output directory path"
      "Choose a new page-directory path.")) .ok
  let pageCount ← pageCountOf probe
  failIf (pageCount = 0 ∨ ∃ page ∈ probe.streams, page.kind ≠ .page)
    (inputPdfError "PDF probe has no valid page set" probe.artifact.displayPath)
  let dimensions ← expectedDimensions tools probe dpi
  failIf (∃ size ∈ dimensions, saturatingMul size.1 size.2 > 100000000)
    (.new .resourceExhausted .plan "A rendered PDF page would exceed the 100-megapixel alpha limit"
      "Choose a lower DPI or split unusual pages into another document.")
  let arguments := TextMap.ofList [("target_format", target), ("dpi", toString dpi),
    ("color_mode", colorMode), ("page_count", toString pageCount),
    ("jpeg_quality", quality.elim "not-applicable" toString), ("page_prefix", "page")]
  let password := request.password.filter fun value => value ≠ ""
  let arguments := if password.isSome then arguments.insert "password" "[redacted]" else arguments
  let constraints := TextMap.ofList [("network", .string "deny"),
    ("output_kind", .string "page-directory"), ("page_count", .natural pageCount),
    ("dpi", .natural dpi), ("color_mode", .string colorMode),
    ("expected_dimensions",
      .array (dimensions.map fun size => .array [.natural size.1, .natural size.2])),
    ("alpha_expected", .bool false), ("background", .string "opaque-white")]
  let rawBytes := estimatedRasterBytes dimensions (colorMode = "gray")
  let changes : ChangeSet := {
    preserved := ["all PDF pages in source order", "page aspect ratios at the selected DPI"]
    changed := [s!"vector and text content rasterized at {dpi} DPI",
      s!"color output rendered in {colorMode} mode", "page backgrounds flattened to opaque white"]
    dropped := ["searchable text, links, forms, annotations, and PDF structure",
      "page transparency"]
    unknown := ["ICC/profile equivalence is not certified by the alpha validator"] }
  pure ⟨singleStepPlan tools planId probe.artifact.fastFingerprint target constraints
    s!"poppler.pdf-to-{target}.all-pages" pdftoppm .render
    (if target = "png" then .lossless else .lossy) arguments rawBytes changes
    ["pdf.page-count", "pdf.each-page-opens", "pdf.page-format", "pdf.page-dimensions",
      "pdf.color-mode", "pdf.alpha-policy"] outputPath (some rawBytes),
    password⟩

/-- A path as an argument of qpdf, without a verbatim prefix (lines 1186–1194). -/
def qpdfPath (path : PathBuf) : String :=
  let text := path.toStringLossy.toList
  let verbatim := ['\\', '\\', '?', '\\']
  String.ofList (if verbatim.isPrefixOf text then text.drop 4 else text)

/-- `joint_input_fingerprint` (lines 1117–1124). -/
def jointInputFingerprint (probes : List (Probe φ)) : String :=
  "joint:" ++ tools.blake3Text (String.intercalate (String.ofList [Char.ofNat 31])
    (probes.map fun probe => probe.artifact.fastFingerprint))

/-- `plan_pdf_merge` (lines 1132–1237). -/
def planPdfMerge (probes : List (Probe φ)) (outputPath : PathBuf) (qpdf : EngineIdentity)
    (planId : Uuid) : Except AnoleError Planned := do
  failIf (probes.length < 2)
    (.new .unsupported .plan "PDF merge needs at least two inputs" "Pass two or more PDF files.")
  failIf (∃ probe ∈ probes, probe.format.id ≠ "pdf" ∨ probe.streams.length = 0)
    (.new .unsupported .plan "PDF merge inputs must all be inspected PDFs"
      "Run doctor and retry with PDF files only.")
  failIf (qpdf.engineId ≠ "qpdf")
    (.new .engineIncompatible .plan "The merge Plan was given the wrong engine"
      "Run doctor and use qpdf.")
  let expectedPages := (probes.map fun probe => probe.streams.length).sum
  failIf (expectedPages > 10000)
    (.new .resourceExhausted .plan
      s!"Merged PDF would have {expectedPages} pages; the alpha limit is 10000"
      "Merge fewer or smaller documents.")
  let inputs := String.intercalate ";" (probes.map fun probe => qpdfPath probe.artifact.canonicalPath)
  let arguments := TextMap.ofList [("operation", "pdf-merge"), ("inputs", inputs),
    ("expected_pages", toString expectedPages)]
  let changes : ChangeSet := {
    preserved := ["every page of every input, in input order", "page content streams"]
    changed := ["documents are concatenated into one container"]
    dropped := []
    unknown := ["per-document metadata of all but the first input"] }
  pure ⟨singleStepPlan tools planId (jointInputFingerprint tools probes) "pdf" offlineConstraints
    "qpdf.pdf-merge" qpdf .transform .none arguments
    (saturatingMul ((probes.map fun probe => probe.artifact.sizeBytes).sum % 2 ^ 64) 2) changes
    ["pdf-ops.merge-page-count"] outputPath none, none⟩

/-- `plan_pdf_extract` (lines 1245–1310). -/
def planPdfExtract (probe : Probe φ) (pageRange : String) (outputPath : PathBuf)
    (qpdf : EngineIdentity) (planId : Uuid) : Except AnoleError Planned := do
  failIf (probe.format.id ≠ "pdf")
    (.new .unsupported .plan "PDF extraction needs a PDF input" "Retry with a PDF file.")
  failIf (qpdf.engineId ≠ "qpdf")
    (.new .engineIncompatible .plan "The extraction Plan was given the wrong engine"
      "Run doctor and use qpdf.")
  let (_, selected) ← parsePageRange pageRange (clampU32 probe.streams.length)
  let normalizedRange ← normalizePageRangeForQpdf pageRange
  let arguments := TextMap.ofList [("operation", "pdf-extract"), ("page_range", normalizedRange),
    ("expected_pages", toString selected)]
  let changes : ChangeSet := {
    preserved := ["selected pages in document order", "page content streams"]
    changed := ["unselected pages are removed"]
    dropped := ["pages outside the requested range"]
    unknown := ["document-level metadata is not certified"] }
  pure ⟨pdfOperationPlan tools "qpdf.pdf-extract" arguments probe outputPath qpdf changes
    ["pdf-ops.extract-page-count"] planId, none⟩

/-- The pages that a rotation selects (lines 1515–1520); the empty text stands for all. -/
def rotatePages (pageSpec : Option String) (pageCount : ℕ) : Except AnoleError String :=
  match pageSpec with
  | none => .ok ""
  | some spec => do
    let _ ← parsePageRange spec pageCount
    normalizePageRangeForQpdf spec

/-- `plan_pdf_rotate` (lines 1499–1548). -/
def planPdfRotate (probe : Probe φ) (angle : ℕ) (pageSpec : Option String) (outputPath : PathBuf)
    (qpdf : EngineIdentity) (planId : Uuid) : Except AnoleError Planned := do
  ensurePdfProbe probe "rotation"
  ensureQpdf qpdf "rotation"
  failIf (angle ∉ [90, 180, 270])
    (.new .inputInvalid .plan s!"Rotation angle must be 90, 180, or 270; got {angle}"
      "Pass --angle with 90, 180, or 270.")
  let pageCount := clampU32 probe.streams.length
  let pages ← rotatePages pageSpec pageCount
  let arguments := TextMap.ofList [("operation", "pdf-rotate"), ("angle", toString angle),
    ("pages", pages), ("expected_pages", toString pageCount)]
  let changes : ChangeSet := {
    preserved := ["every page in document order", "page content streams"]
    changed := [s!"selected pages rotate by {angle} degrees"]
    dropped := []
    unknown := ["viewer-dependent rendering of rotated pages"] }
  pure ⟨pdfOperationPlan tools "qpdf.pdf-rotate" arguments probe outputPath qpdf changes
    ["pdf-ops.rotate-page-count"] planId, none⟩

/-- `plan_pdf_compress` (lines 1556–1591). -/
def planPdfCompress (probe : Probe φ) (outputPath : PathBuf) (qpdf : EngineIdentity)
    (planId : Uuid) : Except AnoleError Planned := do
  ensurePdfProbe probe "compression"
  ensureQpdf qpdf "compression"
  let arguments := TextMap.ofList [("operation", "pdf-compress"),
    ("expected_pages", toString (clampU32 probe.streams.length))]
  let changes : ChangeSet := {
    preserved := ["every page in document order", "page content"]
    changed := ["streams are recompressed with maximum Flate",
      "objects are packed into object streams"]
    dropped := []
    unknown := ["exact byte-level reproduction is not certified"] }
  pure ⟨pdfOperationPlan tools "qpdf.pdf-compress" arguments probe outputPath qpdf changes
    ["pdf-ops.compress-page-count", "pdf-ops.compress-ratio"] planId, none⟩

/-- `plan_pdf_secret_operation` (lines 1593–1638). -/
def planPdfSecretOperation (probe : Probe φ) (operation : String) (password : Option String)
    (outputPath : PathBuf) (qpdf : EngineIdentity) (changed : List String) (validator : String)
    (planId : Uuid) : Except AnoleError Planned := do
  ensurePdfProbe probe operation
  ensureQpdf qpdf operation
  let password := trim (password.getD "")
  failIf (password = "")
    (.new .inputInvalid .plan s!"PDF {operation} needs a non-empty password"
      "Pass --password with the document password.")
  let arguments := TextMap.ofList [("operation", operation), ("password", "[redacted]"),
    ("expected_pages", toString (clampU32 probe.streams.length))]
  let changes : ChangeSet := {
    preserved := ["every page in document order"]
    changed := changed
    dropped := []
    unknown := ["document-level metadata is not certified"] }
  pure ⟨pdfOperationPlan tools s!"qpdf.{operation}" arguments probe outputPath qpdf changes
    [validator] planId, some password⟩

/-- `plan_pdf_encrypt` (lines 1647–1665). -/
def planPdfEncrypt (probe : Probe φ) (password : Option String) (outputPath : PathBuf)
    (qpdf : EngineIdentity) (planId : Uuid) : Except AnoleError Planned :=
  planPdfSecretOperation tools probe "pdf-encrypt" password outputPath qpdf
    ["the document is encrypted with AES-256", "printing stays allowed; modification is denied"]
    "pdf-ops.encrypt-locked" planId

/-- `plan_pdf_decrypt` (lines 1672–1687). -/
def planPdfDecrypt (probe : Probe φ) (password : Option String) (outputPath : PathBuf)
    (qpdf : EngineIdentity) (planId : Uuid) : Except AnoleError Planned :=
  planPdfSecretOperation tools probe "pdf-decrypt" password outputPath qpdf
    ["encryption is removed from the document"] "pdf-ops.decrypt-page-count" planId

/-- The check of a metadata field (lines 1720–1734). -/
def metadataField (field : String) (value : Option String) : Except AnoleError Unit :=
  failIf (∃ text ∈ value, text.utf8ByteSize > 200 ∨ text.toList.any isControl = true)
    (.new .inputInvalid .plan
      s!"PDF metadata {field} must be at most 200 bytes without control characters"
      "Shorten the value and remove control characters.")

/-- `plan_pdf_metadata` (lines 1701–1774). -/
def planPdfMetadata (probe : Probe φ) (title author : Option String) (outputPath : PathBuf)
    (qpdf : EngineIdentity) (planId : Uuid) : Except AnoleError Planned := do
  ensurePdfProbe probe "metadata"
  ensureQpdf qpdf "metadata"
  let title := (title.map trim).filter fun value => value ≠ ""
  let author := (author.map trim).filter fun value => value ≠ ""
  failIf (title = none ∧ author = none)
    (.new .inputInvalid .plan "PDF metadata needs a title or an author"
      "Pass --metadata-title and/or --metadata-author.")
  metadataField "title" title
  metadataField "author" author
  let arguments := TextMap.ofList ([("operation", "pdf-metadata"),
    ("expected_pages", toString (clampU32 probe.streams.length))] ++
    (title.map fun value => ("metadata_title", value)).toList ++
    (author.map fun value => ("metadata_author", value)).toList)
  let changes : ChangeSet := {
    preserved := ["every page in document order", "page content streams"]
    changed := (title.map fun _ => "the document /Title is replaced").toList ++
      (author.map fun _ => "the document /Author is replaced").toList
    dropped := []
    unknown := ["other /Info entries are not certified"] }
  pure ⟨pdfOperationPlan tools "qpdf.pdf-metadata" arguments probe outputPath qpdf changes
    ["pdf-ops.metadata-page-count", "pdf-ops.metadata-fields"] planId, none⟩

/-- `plan_pdf_watermark` (lines 2006–2074). -/
def planPdfWatermark (probe : Probe φ) (text : String) (angle : Option ℤ) (outputPath : PathBuf)
    (qpdf : EngineIdentity) (planId : Uuid) : Except AnoleError Planned := do
  ensurePdfProbe probe "watermark"
  ensureQpdf qpdf "watermark"
  let text := trim text
  failIf (text = "")
    (.new .inputInvalid .plan "PDF watermark needs non-empty text"
      "Pass --watermark-text with the stamp text.")
  failIf (text.utf8ByteSize > 80 ∨ ¬text.toList.all fun c => 0x20 ≤ c.toNat && c.toNat ≤ 0x7E)
    (.new .inputInvalid .plan "Watermark text must be printable ASCII of at most 80 bytes"
      "Use plain ASCII letters, digits, spaces, and punctuation.")
  let angle := angle.getD (-45)
  failIf (angle < -180 ∨ 180 < angle)
    (.new .inputInvalid .plan s!"Watermark angle must be within -180..=180 degrees; got {angle}"
      "Pass --watermark-angle between -180 and 180.")
  let arguments := TextMap.ofList [("operation", "pdf-watermark"), ("watermark_text", text),
    ("watermark_angle", toString angle), ("expected_pages", toString (clampU32 probe.streams.length))]
  let changes : ChangeSet := {
    preserved := ["every page in document order", "existing page content"]
    changed := ["a translucent '" ++ text ++ s!"' watermark at {angle} degrees is stamped on every page"]
    dropped := []
    unknown := ["z-order of the watermark over interactive forms"] }
  pure ⟨pdfOperationPlan tools "qpdf.pdf-watermark" arguments probe outputPath qpdf changes
    ["pdf-ops.watermark-page-count", "pdf-ops.watermark-text-present"] planId, none⟩

/-- `normalize_ocr_language` (`ocr.rs`, lines 32–48). -/
def normalizeOcrLanguage (raw : Option String) : Except AnoleError String := do
  let language := toAsciiLowercase (trim (raw.getD "eng"))
  failIf (language = "" ∨ language.utf8ByteSize > 16 ∨
      ¬language.toList.all fun c => c.isLower || c = '_')
    (.new .inputInvalid .plan s!"Unsupported OCR language code: {tools.debugText language}"
      "Use a Tesseract language code such as eng or chi_sim.")
  pure language

/-- `plan_pdf_ocr` (`ocr.rs`, lines 119–157) and `ocr_plan` (lines 159–203). -/
def planPdfOcr (probe : Probe φ) (outputPath : PathBuf) (tesseract : EngineIdentity)
    (language : Option String) (planId : Uuid) : Except AnoleError Planned := do
  failIf (probe.format.id ≠ "pdf")
    (.new .unsupported .plan "PDF OCR needs a PDF input" "Retry with a PDF file.")
  failIf (tesseract.engineId ≠ "tesseract")
    (.new .engineIncompatible .plan "The OCR Plan was given the wrong engine"
      "Run doctor and use tesseract.")
  let language ← normalizeOcrLanguage tools language
  let arguments := TextMap.ofList [("operation", "pdf-ocr"), ("ocr_mode", "pdf"), ("dpi", "150"),
    ("language", language), ("psm", "3"), ("expected_pages", toString (clampU32 probe.streams.length))]
  let changes : ChangeSet := {
    preserved := []
    changed := ["recognized text becomes the output artifact"]
    dropped := ["all visual and layout information"]
    unknown := ["OCR recognition accuracy is not certified"] }
  pure ⟨singleStepPlan tools planId probe.artifact.fastFingerprint "txt" offlineConstraints
    "tesseract.pdf-ocr" tesseract .transform .lossy arguments
    (saturatingMul probe.artifact.sizeBytes 3) changes ["ocr.text-nonempty", "ocr.page-coverage"]
    outputPath none, none⟩

/-! ## Dispatch -/

/-- `required_output` (`workflow.rs`, lines 342–351). -/
def requiredOutput (request : PlanRequest) (operation : String) : Except AnoleError PathBuf :=
  request.outputPath.elim
    (.error (.new .inputInvalid .plan s!"{operation} requires an output path"
      "Choose an output path.")) .ok

/-- A field that an operation asks for. -/
def requiredField {α : Type} (field : Option α) (message action : String) : Except AnoleError α :=
  field.elim (.error (.new .inputInvalid .plan message action)) .ok

/-- `prepare_pdf_operation` (`workflow.rs`, lines 391–514) on inspected inputs: the first one and
    those of `request.inputs`. -/
def planPdfOperation (engines : String → EngineIdentity) (probe : Probe φ) (more : List (Probe φ))
    (request : PlanRequest) (operation : String) (planId : Uuid) : Except AnoleError Planned :=
  match operation with
  | "pdf-merge" => do
    let output ← requiredOutput request "PDF merge"
    planPdfMerge tools (probe :: more) output (engines "qpdf") planId
  | "pdf-extract" => do
    let pageRange ← requiredField request.pageRange "PDF extraction needs a page range"
      "Pass --pages like 1-3,7."
    let output ← requiredOutput request "PDF extract"
    planPdfExtract tools probe pageRange output (engines "qpdf") planId
  | "pdf-rotate" => do
    let angle ← requiredField request.rotateAngle "PDF rotation needs an angle"
      "Pass --angle with 90, 180, or 270."
    let output ← requiredOutput request "PDF rotate"
    planPdfRotate tools probe angle request.pageRange output (engines "qpdf") planId
  | "pdf-compress" => do
    let output ← requiredOutput request "PDF compress"
    planPdfCompress tools probe output (engines "qpdf") planId
  | "pdf-encrypt" => do
    let password ← requiredField request.password "PDF pdf-encrypt needs a password"
      "Pass --password with the document password."
    let output ← requiredOutput request "pdf-encrypt"
    planPdfEncrypt tools probe (some password) output (engines "qpdf") planId
  | "pdf-decrypt" => do
    let password ← requiredField request.password "PDF pdf-decrypt needs a password"
      "Pass --password with the document password."
    let output ← requiredOutput request "pdf-decrypt"
    planPdfDecrypt tools probe (some password) output (engines "qpdf") planId
  | "pdf-watermark" => do
    let text ← requiredField request.watermarkText "PDF watermark needs text"
      "Pass --watermark-text with the stamp text."
    let output ← requiredOutput request "PDF watermark"
    planPdfWatermark tools probe text request.watermarkAngle output (engines "qpdf") planId
  | "pdf-ocr" => do
    let output ← requiredOutput request "PDF OCR"
    planPdfOcr tools probe output (engines "tesseract") request.ocrLanguage planId
  | "pdf-metadata" => do
    let output ← requiredOutput request "PDF metadata"
    planPdfMetadata tools probe request.metadataTitle request.metadataAuthor output
      (engines "qpdf") planId
  | other =>
    .error (.new .unsupported .plan s!"Unknown operation: {other}"
      ("Choose pdf-merge, pdf-extract, pdf-rotate, pdf-compress, pdf-encrypt, pdf-decrypt, " ++
        "pdf-watermark, pdf-ocr, or pdf-metadata."))

/-- The planning of an inspected PDF: an operation, the text export or a render (`workflow.rs`,
    lines 30–32, 143–157 and 265–280). -/
def planPdf (engines : String → EngineIdentity) (probe : Probe φ) (more : List (Probe φ))
    (request : PlanRequest) (planId : Uuid) : Except AnoleError Planned :=
  match request.operation with
  | some operation => planPdfOperation tools engines probe more request operation planId
  | none =>
    let target := normalizedTarget request.targetFormat
    if target = "md" then do
      let output ← requiredOutput request "PDF text export"
      planPdfTextExport tools probe output (engines "pdftotext") target planId
    else planPdfRender tools probe request (engines "pdftoppm") planId

end Planners

end Anole.Planning
