import Anole.Common.HtmlTags
import Anole.Planning.Mail

/-!
# Plans of markup

Model of `detects_external_resource` (`crates/core/src/document.rs`, lines 1032–1043) and of the five
planners that ask it about Markdown, HTML and SVG (`document.rs`, lines 113–548; `edge_pdf.rs`, lines
25–184).

Main result:

* `markup_gate_iff`: when every planner refuses a text that places an image.

**Deviation.** The detector looks for a few spellings: `src=` without a space before the `=`, an
inline image of Markdown (`![` and `](`), and `<image` without a namespace prefix. A text with another
spelling passes, unless one of these occurs in it anyway.
-/

open Common Anole.Common

namespace Anole.Planning

/-! ## The detector -/

/-- `str::contains`. -/
def contains (marker : String) (text : List Char) : Bool := marker.toList <:+: text

/-- `detects_external_resource` (lines 1032–1043). -/
def detectsExternalResource (source : String) (format : String) : Bool :=
  let lowered := lowercase source.toList
  if format = "markdown" then contains "![" lowered && contains "](" lowered
  else if format = "svg" then contains "<image" lowered
  else contains "<img" lowered && contains "src=" lowered

/-- `MAX_MARKUP_BYTES`. -/
def maxMarkupBytes : ℕ := 16 * 1024 * 1024

/-- `inspect_document_properties` of markup (lines 792–818), nothing where it fails. -/
def markupProperties {φ : Type} (tools : MailTools φ) (text format : String) : Option (TextMap Json) :=
  if maxMarkupBytes < text.utf8ByteSize then none
  else
    let hasExternalResource := detectsExternalResource text format
    let visible := if format = "html" ∨ format = "svg" then tools.htmlText text else some text
    visible.map fun visible =>
      let normalized := tools.normalizedTokens visible
      TextMap.ofList [("semantic_token_digest", .string ("blake3:" ++ tools.planner.blake3Text normalized)),
        ("text_characters", .natural normalized.toList.length), ("required_parts_present", .bool false),
        ("has_external_resource", .bool hasExternalResource)]

/-! ## Planners -/

/-- A `Probe` of a document has the fields of one of mail. -/
abbrev DocumentProbe := MailProbe

section Planners

variable {φ : Type} (tools : PlannerTools φ)

/-- `unsupported` (`document.rs`, lines 1090–1097). -/
def documentUnsupported (message : String) : AnoleError :=
  .new .unsupported .plan message "Choose Markdown/HTML → DOCX or install a future document adapter."

/-- The error of the gate. -/
def resourceBlocked : AnoleError :=
  .new .policyBlocked .plan "Markup contains an external image/resource under deny-all policy"
    "Remove the resource or wait for an explicitly authorized resource-root policy."

/-- The arguments of Pandoc. -/
def pandocArguments (source target : String) : List (String × String) :=
  [("source_format", source), ("target_format", target), ("sandbox", "true"), ("standalone", "true"),
    ("resource_policy", "deny-all")]

def documentConstraints : List (String × Json) :=
  [("network", .string "deny"), ("external_resources", .string "deny"), ("macros", .string "disabled")]

/-- What `plan_markup_to_docx` and `plan_markup_to_epub` share; `name` is what they call the target. -/
def planPandoc (name wrongEngine target changed unknown : String) (validators : List String) (probe : DocumentProbe)
    (outputPath : PathBuf) (pandoc : EngineIdentity) (planId : Uuid) : Except AnoleError Plan := do
  failIf (probe.formatId ∉ ["markdown", "html", "plain"])
    (documentUnsupported s!"Pandoc {name} input must be Markdown, HTML, or plain text")
  failIf (pandoc.engineId ≠ "pandoc") (.new .engineIncompatible .plan wrongEngine "Run doctor and use Pandoc.")
  failIf (probe.hasExternalResource = true) resourceBlocked
  let changes : ChangeSet := {
    preserved := ["normalized textual content", "document structure supported by Pandoc"]
    changed := [changed]
    dropped := ["external resources under the default deny policy"]
    unknown := [unknown] }
  pure (singleStepPlan tools planId probe.artifact.fastFingerprint target (TextMap.ofList documentConstraints)
    s!"pandoc.{probe.formatId}-to-{target}.offline" pandoc .transform .unknown
    (TextMap.ofList (pandocArguments probe.formatId target)) (saturatingMul probe.artifact.sizeBytes 4) changes
    validators outputPath none)

/-- `plan_markup_to_docx` (lines 113–202). -/
def planMarkupToDocx : DocumentProbe → PathBuf → EngineIdentity → Uuid → Except AnoleError Plan :=
  planPandoc tools "DOCX" "The document Plan was given the wrong engine" "docx"
    "layout is rendered using Pandoc's default DOCX reference document"
    "visual fidelity is not certified by the alpha DOCX validator"
    ["docx.package-opens", "docx.required-parts", "docx.semantic-token-digest"]

/-- `plan_markup_to_epub` (lines 204–290). -/
def planMarkupToEpub : DocumentProbe → PathBuf → EngineIdentity → Uuid → Except AnoleError Plan :=
  planPandoc tools "EPUB" "The EPUB Plan was given the wrong engine" "epub"
    "layout is rendered using Pandoc's default EPUB styling"
    "visual fidelity is not certified by the alpha EPUB validator"
    ["epub.container-valid", "epub.content-documents", "epub.text-coverage"]

/-- `plan_markup_export` (lines 302–397). -/
def planMarkupExport (probe : DocumentProbe) (outputPath : PathBuf) (pandoc : EngineIdentity) (target : String)
    (planId : Uuid) : Except AnoleError Plan := do
  let target := normalizedTarget target
  let source := probe.formatId
  failIf (source ∉ ["docx", "html"])
    (documentUnsupported "Pandoc export input must be a DOCX package or an HTML document")
  failIf (target ∉ ["txt", "md", "html", "epub"])
    (documentUnsupported "Markup export target must be txt, md, html, or epub")
  failIf (pandoc.engineId ≠ "pandoc")
    (.new .engineIncompatible .plan "The markup export Plan was given the wrong engine" "Run doctor and use Pandoc.")
  failIf (source = "html" ∧ probe.hasExternalResource = true) (remoteBlocked "The HTML document")
  let changes : ChangeSet := {
    preserved := ["normalized textual content", "document structure supported by Pandoc"]
    changed := [s!"{source} structure is re-serialized through Pandoc's default {target} writer"]
    dropped := [(if source = "docx" then "Word" else "HTML") ++ "-specific layout and active content"]
    unknown := ["semantic token order may be re-arranged by the Pandoc reader"] }
  pure (singleStepPlan tools planId probe.artifact.fastFingerprint target (TextMap.ofList documentConstraints)
    s!"pandoc.{source}-to-{target}.offline" pandoc .transform .unknown
    (TextMap.ofList (pandocArguments source target)) (saturatingMul probe.artifact.sizeBytes 4) changes
    (if target = "epub" then ["epub.container-valid", "epub.content-documents", "epub.text-coverage"]
      else ["document.text-extractable"]) outputPath none)

/-- The steps of Poppler that only validate. -/
def validationStep (stepId capabilityId : String) (engine : EngineIdentity) (key value target : String) : PlanStep where
  stepId := stepId
  capabilityId := capabilityId
  engine := engine
  operation := .inspect
  lossClass := .none
  arguments := TextMap.ofList [(key, value), ("target_format", target), ("purpose", "validation-only")]
  estimatedTemporaryBytes := none

def structuralValidation (stepId : String) (pdfinfo : EngineIdentity) : PlanStep :=
  validationStep stepId "poppler.pdf-structural-validation.all-pages" pdfinfo "page_sizes" "required" "pdf"

def renderValidation (stepId : String) (pdftoppm : EngineIdentity) : PlanStep :=
  validationStep stepId "poppler.pdf-render-validation.all-pages" pdftoppm "dpi" "72" "png"

/-- `plan_markup_to_pdf` (lines 406–548). -/
def planMarkupToPdf (probe : DocumentProbe) (outputPath : PathBuf) (pandoc soffice pdfinfo pdftoppm : EngineIdentity)
    (planId : Uuid) : Except AnoleError Plan := do
  failIf (probe.formatId ∉ ["markdown", "html", "plain"])
    (documentUnsupported "Pandoc PDF input must be Markdown, HTML, or plain text")
  failIf (probe.hasExternalResource = true) resourceBlocked
  failIf (pandoc.engineId ≠ "pandoc" ∨ soffice.engineId ≠ "soffice" ∨ pdfinfo.engineId ≠ "pdfinfo" ∨
      pdftoppm.engineId ≠ "pdftoppm")
    (.new .engineIncompatible .plan "The markup-to-PDF Plan was given an incorrect engine"
      "Run doctor and use Pandoc, soffice, pdfinfo, and pdftoppm.")
  let pandocStep : PlanStep := {
    stepId := "step-1"
    capabilityId := s!"pandoc.{probe.formatId}-to-docx.intermediate.offline"
    engine := pandoc
    operation := .transform
    lossClass := .unknown
    arguments := TextMap.ofList (pandocArguments probe.formatId "docx" ++ [("purpose", "intermediate")])
    estimatedTemporaryBytes := some (saturatingMul probe.artifact.sizeBytes 4) }
  let officeStep : PlanStep := {
    stepId := "step-2"
    capabilityId := "libreoffice.docx-to-pdf.headless"
    engine := soffice
    operation := .render
    lossClass := .unknown
    arguments := TextMap.ofList [("source_format", "docx"), ("target_format", "pdf"), ("headless", "true"),
      ("isolated_profile", "true"), ("macros", "disabled"), ("external_resources", "deny")]
    estimatedTemporaryBytes := some (saturatingMul probe.artifact.sizeBytes 8) }
  pure (Plan.hashed tools {
    schemaVersion := 1
    planId := planId
    planHash := ""
    inputFingerprint := probe.artifact.fastFingerprint
    targetFormat := "pdf"
    constraints := TextMap.ofList (documentConstraints ++
      [("isolated_user_profile", .bool true), ("all_pdf_pages_must_render", .bool true)])
    steps := [pandocStep, officeStep, structuralValidation "step-3" pdfinfo, renderValidation "step-4" pdftoppm]
    changes := {
      preserved := ["normalized textual content through the intermediate DOCX",
        "document structure supported by Pandoc and LibreOffice"]
      changed := ["markup is normalized through Pandoc's default DOCX reference document",
        "editable structure is rendered into fixed PDF pages"]
      dropped := ["external resources, active content, and interactive behavior"]
      unknown := ["font substitution and pixel-level layout fidelity require fixture comparison"] }
    validators := ["docx.semantic-token-digest", "office.pdf-opens", "office.pdf-page-count",
      "office.pdf-page-sizes", "office.pdf-all-pages-render", "office.font-diagnostics", "office.visual-drift"]
    networkPolicy := .deny
    outputPath := some outputPath
    estimatedOutputBytes := none })

/-- The engines of a browser print. -/
structure PrintEngines where
  msedge : EngineIdentity
  pdfinfo : EngineIdentity
  pdftoppm : EngineIdentity
  pdftotext : EngineIdentity
  pdffonts : EngineIdentity

/-- `plan_edge_print_to_pdf` (`edge_pdf.rs`, lines 33–184). -/
def planEdgePrintToPdf (probe : DocumentProbe) (outputPath : PathBuf) (engines : PrintEngines) (planId : Uuid) :
    Except AnoleError Plan := do
  failIf (probe.formatId ∉ ["html", "svg"])
    (.new .unsupported .plan "Browser print input must be HTML or SVG"
      "Choose HTML/SVG to PDF or another supported document route.")
  failIf (probe.hasExternalResource = true) resourceBlocked
  failIf (engines.msedge.engineId ≠ "msedge" ∨ engines.pdfinfo.engineId ≠ "pdfinfo" ∨
      engines.pdftoppm.engineId ≠ "pdftoppm" ∨ engines.pdftotext.engineId ≠ "pdftotext" ∨
      engines.pdffonts.engineId ≠ "pdffonts")
    (.new .engineIncompatible .plan "The browser-print Plan was given an incorrect engine"
      "Run doctor and use msedge, pdfinfo, pdftoppm, pdftotext, and pdffonts.")
  let printStep : PlanStep := {
    stepId := "step-1"
    capabilityId := s!"edge.{probe.formatId}-to-pdf.vector-print"
    engine := engines.msedge
    operation := .render
    lossClass := .none
    arguments := TextMap.ofList [("source_format", probe.formatId), ("target_format", "pdf"), ("headless", "true"),
      ("isolated_profile", "true"), ("network", "deny"), ("external_resources", "deny")]
    estimatedTemporaryBytes := some (saturatingMul probe.artifact.sizeBytes 6) }
  pure (Plan.hashed tools {
    schemaVersion := 1
    planId := planId
    planHash := ""
    inputFingerprint := probe.artifact.fastFingerprint
    targetFormat := "pdf"
    constraints := TextMap.ofList [("network", .string "deny"), ("external_resources", .string "deny"),
      ("isolated_user_profile", .bool true), ("all_pdf_pages_must_render", .bool true),
      ("text_must_remain_extractable", .bool true)]
    steps := [printStep, structuralValidation "step-2" engines.pdfinfo, renderValidation "step-3" engines.pdftoppm,
      validationStep "step-4" "poppler.pdf-text-layer-validation.all-pages" engines.pdftotext "layout"
        "reading-order" "text",
      validationStep "step-5" "poppler.pdf-font-embedding-validation.all-pages" engines.pdffonts "embedded"
        "required" "pdf"]
    changes := {
      preserved := ["text is printed as selectable, searchable vector text",
        "vector graphics are emitted as PDF drawing operations"]
      changed := ["markup is paginated by the installed browser print engine into fixed PDF pages"]
      dropped := ["external resources, scripts, and interactive behavior"]
      unknown := ["browser font substitution fidelity requires fixture comparison"] }
    validators := ["edge.pdf-opens", "edge.pdf-page-count", "edge.pdf-page-sizes", "edge.pdf-all-pages-render",
      "edge.pdf-text-layer", "edge.pdf-fonts-embedded", "edge.pdf-text-fidelity"]
    networkPolicy := .deny
    outputPath := some outputPath
    estimatedOutputBytes := none })

end Planners

/-! ## Images -/

/-- An `img` start tag with a `src` attribute: in any case, with spaces around the `=` and quotes or not. -/
structure ImgTag where
  name : List Char
  /-- A space, and any other attributes before this one. -/
  between : List Char
  key : List Char
  beforeEquals : List Char
  afterEquals : List Char
  /-- The value, with its quotes. -/
  value : List Char
  name_eq : lowercase name = "img".toList
  key_eq : lowercase key = "src".toList
  spaces : ∀ c ∈ beforeEquals ++ afterEquals, isHtmlSpace c

def ImgTag.text (tag : ImgTag) : List Char :=
  '<' :: tag.name ++ tag.between ++ tag.key ++ tag.beforeEquals ++ '=' :: tag.afterEquals ++ tag.value

/-- How a reference-style image gives its label. -/
inductive ReferenceStyle where
  | full (label : List Char)
  | collapsed
  | shortcut

/-- The languages of `document_format_hint` that place images. -/
inductive MarkupFormat where
  | markdown | html | svg

def MarkupFormat.id : MarkupFormat → String
  | markdown => "markdown"
  | html => "html"
  | svg => "svg"

/-- An image resource, as it is written in its language. -/
inductive Image : MarkupFormat → Type where
  | tag (img : ImgTag) : Image .html
  | inline (description destination : List Char) : Image .markdown
  | reference (description : List Char) (style : ReferenceStyle) (destination : List Char) : Image .markdown
  | rawTag (img : ImgTag) : Image .markdown
  | element (nsPrefix : Option (List Char)) : Image .svg

/-- What stands behind the description of a reference-style image. -/
def ReferenceStyle.text : ReferenceStyle → List Char
  | full label => '[' :: label ++ [']']
  | collapsed => ['[', ']']
  | shortcut => []

/-- The label of the definition. -/
def ReferenceStyle.label (description : List Char) : ReferenceStyle → List Char
  | full label => label
  | collapsed | shortcut => description

/-- The parts of a text that make an image. -/
def Image.spellings {format : MarkupFormat} : Image format → List (List Char)
  | tag img | rawTag img => [img.text]
  | inline description destination => ["![".toList ++ description ++ "](".toList ++ destination ++ [')']]
  | reference description style destination =>
    ["![".toList ++ description ++ ']' :: style.text,
      '[' :: style.label description ++ "]:".toList ++ destination]
  | element nsPrefix => ['<' :: (nsPrefix.map (· ++ [':'])).getD [] ++ "image".toList]

/-- A text, with the images that a reader of its language finds in it. -/
structure MarkupText (format : MarkupFormat) where
  text : String
  images : List (Image format)
  written : ∀ image ∈ images, ∀ spelling ∈ image.spellings, spelling <:+: text.toList

/-- The planners refuse the text. -/
structure MarkupRefused {φ : Type} (tools : MailTools φ) (format : MarkupFormat) (text : String) : Prop where
  detected : detectsExternalResource text format.id = true
  docx : ∀ probe outputPath pandoc planId plan, probe.formatId = format.id →
    markupProperties tools text format.id = some probe.properties →
    planMarkupToDocx tools.planner probe outputPath pandoc planId ≠ .ok plan
  epub : ∀ probe outputPath pandoc planId plan, probe.formatId = format.id →
    markupProperties tools text format.id = some probe.properties →
    planMarkupToEpub tools.planner probe outputPath pandoc planId ≠ .ok plan
  pdf : ∀ probe outputPath pandoc soffice pdfinfo pdftoppm planId plan, probe.formatId = format.id →
    markupProperties tools text format.id = some probe.properties →
    planMarkupToPdf tools.planner probe outputPath pandoc soffice pdfinfo pdftoppm planId ≠ .ok plan
  exported : ∀ probe outputPath pandoc target planId plan, probe.formatId = format.id →
    markupProperties tools text format.id = some probe.properties →
    planMarkupExport tools.planner probe outputPath pandoc target planId ≠ .ok plan
  print : ∀ probe outputPath engines planId plan, probe.formatId = format.id →
    markupProperties tools text format.id = some probe.properties →
    planEdgePrintToPdf tools.planner probe outputPath engines planId ≠ .ok plan

/-- An inline image of Markdown. -/
def Image.isInline {format : MarkupFormat} : Image format → Prop
  | inline _ _ => True
  | _ => False

/-- A reference-style image of Markdown. -/
def Image.isReference {format : MarkupFormat} : Image format → Prop
  | reference _ _ _ => True
  | _ => False

/-- In some case, a part occurs in a text. -/
def Occurs (part : String) (text : String) : Prop := part.toList <:+: lowercase text.toList

/-- The text has a spelling that the detector knows. In HTML, somewhere a `=` directly follows `src`. In
    Markdown, some image is inline, or one is by reference and `](` occurs anyway, as inline links have it,
    or there are only raw tags and both marks occur anyway. In SVG, some element is without a prefix, or its
    name occurs anyway. -/
def Spelled : {format : MarkupFormat} → MarkupText format → Prop
  | .html, document => Occurs "src=" document.text
  | .markdown, document => (∃ image ∈ document.images, image.isInline) ∨
    (((∃ image ∈ document.images, image.isReference) ∨ Occurs "![" document.text) ∧ Occurs "](" document.text)
  | .svg, document => Image.element none ∈ document.images ∨ Occurs "<image" document.text

/-! ## The gate -/

section Gate

variable {φ : Type} {tools : MailTools φ} {format : MarkupFormat} {text : String} {probe : DocumentProbe}
  {document : MarkupText format}

theorem contains_iff {marker : String} : contains marker (lowercase text.toList) = true ↔ Occurs marker text := by
  rw [contains, decide_eq_true_iff, Occurs]

theorem occurs_of_part {marker : String} {spelling : List Char} (h : spelling <:+: text.toList)
    (hmarker : marker.toList <:+: lowercase spelling) : Occurs marker text := by
  obtain ⟨before, after, htext⟩ := h
  apply hmarker.trans
  refine ⟨lowercase before, lowercase after, ?_⟩
  rw [← htext]
  simp only [lowercase, List.map_append]

/-- An `img` tag begins with its name. -/
theorem ImgTag.occurs (tag : ImgTag) (h : tag.text <:+: text.toList) : Occurs "<img" text := by
  apply occurs_of_part h
  refine ⟨[], lowercase (tag.between ++ tag.key ++ tag.beforeEquals ++ '=' :: tag.afterEquals ++ tag.value), ?_⟩
  have hname := tag.name_eq
  unfold lowercase at hname ⊢
  simp only [ImgTag.text, List.map_append, List.map_cons, List.cons_append, hname, List.append_assoc]
  rfl

theorem hasExternalResource_markup (h : markupProperties tools text format.id = some probe.properties) :
    probe.hasExternalResource = detectsExternalResource text format.id := by
  unfold markupProperties at h
  split_ifs at h with hsize hhtml
  · obtain ⟨visible, -, hproperties⟩ := Option.map_eq_some_iff.mp h
    rw [MailProbe.hasExternalResource, ← hproperties, TextMap.lookup_ofList]
    rfl
  · obtain ⟨visible, -, hproperties⟩ := Option.map_eq_some_iff.mp h
    rw [MailProbe.hasExternalResource, ← hproperties, TextMap.lookup_ofList]
    rfl

/-- A check that is passed. -/
theorem failIf_bind_eq_ok {α : Type} {c : Prop} [Decidable c] {error : AnoleError} {next : Unit → Except AnoleError α}
    {result : α} : (failIf c error >>= next) = .ok result ↔ ¬c ∧ next () = .ok result := by
  unfold failIf
  split_ifs with hc
  · simp only [hc, not_true_eq_false, false_and, iff_false]
    intro h
    cases h
  · exact ⟨fun h => ⟨hc, h⟩, fun h => h.2⟩

theorem planPandoc_blocked {name wrongEngine target changed unknown : String} {validators : List String}
    {outputPath : PathBuf} {pandoc : EngineIdentity} {planId : Uuid} {plan : Plan}
    (h : probe.hasExternalResource = true) :
    planPandoc tools.planner name wrongEngine target changed unknown validators probe outputPath pandoc planId ≠
      .ok plan := by
  intro hplan
  unfold planPandoc at hplan
  simp only [failIf_bind_eq_ok] at hplan
  exact hplan.2.2.1 h

/-- Whatever the request, the planners make no plan of a text in which the detector finds something. -/
theorem refused_of_detected (h : detectsExternalResource text format.id = true) : MarkupRefused tools format text := by
  have hblocked : ∀ probe : DocumentProbe, markupProperties tools text format.id = some probe.properties →
      probe.hasExternalResource = true := fun probe hprobe => (hasExternalResource_markup hprobe).trans h
  refine ⟨h, ?_, ?_, ?_, ?_, ?_⟩
  · intro probe outputPath pandoc planId plan _ hprobe
    exact planPandoc_blocked (hblocked probe hprobe)
  · intro probe outputPath pandoc planId plan _ hprobe
    exact planPandoc_blocked (hblocked probe hprobe)
  · intro probe outputPath pandoc soffice pdfinfo pdftoppm planId plan _ hprobe hplan
    unfold planMarkupToPdf at hplan
    simp only [failIf_bind_eq_ok] at hplan
    exact hplan.2.1 (hblocked probe hprobe)
  · intro probe outputPath pandoc target planId plan hformat hprobe hplan
    unfold planMarkupExport at hplan
    simp only [failIf_bind_eq_ok] at hplan
    obtain ⟨hsource, -, -, hresource, -⟩ := hplan
    -- of the three languages it takes only HTML
    have hhtml : probe.formatId = "html" := by
      rw [hformat] at hsource ⊢
      revert hsource
      cases format <;> decide
    exact hresource ⟨hhtml, hblocked probe hprobe⟩
  · intro probe outputPath engines planId plan _ hprobe hplan
    unfold planEdgePrintToPdf at hplan
    simp only [failIf_bind_eq_ok] at hplan
    exact hplan.2.1 (hblocked probe hprobe)

/-! ## What the detector finds -/

theorem detects_html : detectsExternalResource text "html" = true ↔ Occurs "<img" text ∧ Occurs "src=" text := by
  unfold detectsExternalResource
  rw [if_neg (by decide), if_neg (by decide), Bool.and_eq_true, contains_iff, contains_iff]

theorem detects_markdown :
    detectsExternalResource text "markdown" = true ↔ Occurs "![" text ∧ Occurs "](" text := by
  unfold detectsExternalResource
  rw [if_pos rfl, Bool.and_eq_true, contains_iff, contains_iff]

theorem detects_svg : detectsExternalResource text "svg" = true ↔ Occurs "<image" text := by
  unfold detectsExternalResource
  rw [if_neg (by decide), if_pos rfl, contains_iff]

theorem detects_html_iff {document : MarkupText .html} (himages : document.images ≠ []) :
    detectsExternalResource document.text "html" = true ↔ Spelled document := by
  obtain ⟨image, himage⟩ := List.exists_mem_of_ne_nil _ himages
  have htag : Occurs "<img" document.text := by
    cases image with
    | tag img => exact img.occurs (document.written _ himage _ List.mem_cons_self)
  rw [detects_html]
  exact and_iff_right htag

/-- The two marks of an inline image; the first one also begins an image by reference. -/
theorem occurs_inline {document : MarkupText .markdown} {image : Image .markdown} (himage : image ∈ document.images) :
    (image.isInline → Occurs "![" document.text ∧ Occurs "](" document.text) ∧
      (image.isReference → Occurs "![" document.text) := by
  have hwritten := document.written image himage
  constructor
  · intro hinline
    cases image with
    | inline description destination =>
      have hspelling := hwritten _ List.mem_cons_self
      refine ⟨occurs_of_part hspelling ?_, occurs_of_part hspelling ?_⟩
      · refine ⟨[], lowercase (description ++ "](".toList ++ destination ++ [')']), ?_⟩
        simp [lowercase]
      · refine ⟨lowercase ("![".toList ++ description), lowercase (destination ++ [')']), ?_⟩
        simp [lowercase]
    | reference | rawTag => exact absurd hinline id
  · intro hreference
    cases image with
    | reference description style destination =>
      apply occurs_of_part (hwritten _ List.mem_cons_self)
      refine ⟨[], lowercase (description ++ ']' :: style.text), ?_⟩
      simp [lowercase]
    | inline | rawTag => exact absurd hreference id

theorem detects_markdown_iff {document : MarkupText .markdown} :
    detectsExternalResource document.text "markdown" = true ↔ Spelled document := by
  rw [detects_markdown]
  constructor
  · intro h
    exact .inr ⟨.inr h.1, h.2⟩
  · rintro (⟨image, himage, hinline⟩ | ⟨⟨image, himage, hreference⟩ | hmark, hend⟩)
    · exact (occurs_inline himage).1 hinline
    · exact ⟨(occurs_inline himage).2 hreference, hend⟩
    · exact ⟨hmark, hend⟩

theorem detects_svg_iff {document : MarkupText .svg} :
    detectsExternalResource document.text "svg" = true ↔ Spelled document := by
  rw [detects_svg]
  constructor
  · intro h
    exact .inr h
  · rintro (himage | h)
    · exact occurs_of_part (document.written _ himage _ List.mem_cons_self) ⟨[], [], by simp [lowercase]⟩
    · exact h

end Gate

/-- **When the gate is sound.** A text that places an image is refused exactly if it has a spelling that the
    detector knows. -/
theorem markup_gate_iff {φ : Type} (tools : MailTools φ) (format : MarkupFormat) (document : MarkupText format) :
    (document.images ≠ [] → MarkupRefused tools format document.text) ↔ document.images = [] ∨ Spelled document := by
  by_cases himages : document.images = []
  · exact iff_of_true (fun h => absurd himages h) (.inl himages)
  have hdetects : detectsExternalResource document.text format.id = true ↔ Spelled document := by
    cases format with
    | html => exact detects_html_iff himages
    | markdown => exact detects_markdown_iff
    | svg => exact detects_svg_iff
  rw [← hdetects]
  constructor
  · intro h
    exact .inr (h himages).detected
  · intro h _
    exact refused_of_detected (h.resolve_left himages)

namespace MarkupSample

/-- A tag with spaces around its `=`. -/
def spacedTag : ImgTag :=
  ⟨"img".toList, [' '], "src".toList, [' '], [' '], "\"https://x/a.png\"".toList, rfl, rfl,
    List.forall_iff_forall_mem.mp (by decide)⟩

def spacedPage : MarkupText .html where
  text := "<p><img src = \"https://x/a.png\"></p>"
  images := [.tag spacedTag]
  written := by
    intro image himage spelling hspelling
    rw [List.mem_singleton.mp himage] at hspelling
    rw [List.mem_singleton.mp hspelling]
    decide

def referenceNote : MarkupText .markdown where
  text := "![logo][x]\n\n[x]: https://x/a.png\n"
  images := [.reference "logo".toList (.full ['x']) " https://x/a.png".toList]
  written := by
    intro image himage spelling hspelling
    rw [List.mem_singleton.mp himage] at hspelling
    revert spelling
    decide

def prefixedPicture : MarkupText .svg where
  text := "<s:svg xmlns:s=\"http://www.w3.org/2000/svg\"><s:image href=\"https://x/a.png\"/></s:svg>"
  images := [.element (some ['s'])]
  written := by
    intro image himage spelling hspelling
    rw [List.mem_singleton.mp himage] at hspelling
    rw [List.mem_singleton.mp hspelling]
    decide

/-- In each language there is a text that places an image and is not refused. -/
theorem markup_passes :
    ¬(spacedPage.images ≠ [] → MarkupRefused Sample.mailTools .html spacedPage.text) ∧
      ¬(referenceNote.images ≠ [] → MarkupRefused Sample.mailTools .markdown referenceNote.text) ∧
      ¬(prefixedPicture.images ≠ [] → MarkupRefused Sample.mailTools .svg prefixedPicture.text) := by
  refine ⟨fun h => ?_, fun h => ?_, fun h => ?_⟩
  · exact absurd (h (List.cons_ne_nil _ _)).detected (by decide)
  · exact absurd (h (List.cons_ne_nil _ _)).detected (by decide)
  · exact absurd (h (List.cons_ne_nil _ _)).detected (by decide +kernel)

end MarkupSample

end Anole.Planning
