import Anole.Planning.Routes

/-!
# The dispatcher of conversions

Model of `ensure_route_available` (`crates/core/src/capabilities.rs`, lines 47–192 and 242–256) and of the
branches of `prepare_conversion` for requests without an operation (`workflow.rs`, lines 28–291), with the
engines that each branch looks up and the formats that its planner takes.

* `routes_match_iff`: when the table of routes and the dispatcher agree.

**Deviation.** The dispatcher knows the aliases `jpeg`, `yml`, `tgz` and `taz` of the table, but not `markdown`,
and the table removes spaces and dots twice. Two lanes look up an engine that the table does not ask for:
`pdfinfo` for the text of a PDF, and `ffprobe` for an image on a page.
-/

open Common Anole.Common

namespace Anole.Routes

open Anole.Folder (Name extension)
open Anole.Planning (toStr? normalizedTarget)

/-! ## The table with the engines at hand -/

/-- `KNOWN_TARGETS` (lines 9–12). -/
def knownTargets : List String :=
  ["jpg", "png", "webp", "avif", "tiff", "bmp", "mp4", "mp3", "m4a", "wav", "gif", "pdf", "docx", "epub", "json",
    "csv", "yaml", "xml", "zip", "tar.gz", "md", "txt", "odt", "7z", "html"]

/-- `RouteAvailability` (lines 14–21). -/
structure RouteAvailability where
  targetFormat : String
  available : Bool
  requiredEngines : List String
  missingEngines : List String
  message : String

/-- `route_engine_lanes` (lines 242–256). -/
def routeEngineLanes (input : Option String) (target : String) : List (List String) :=
  let target := normalizeTarget target
  let input := input.getD ""
  if input = "svg" ∧ target = "pdf" then [browserPrintLane]
  else if input ∈ ["html", "htm"] ∧ target = "pdf" then
    [browserPrintLane, ["pandoc", "soffice", "pdfinfo", "pdftoppm"]]
  else [requiredEngines (some input) target]

/-- `chained_unavailable_route` (lines 130–154). -/
def chainedUnavailableRoute (target : String) (input : Option String) : RouteAvailability where
  targetFormat := target
  available := false
  requiredEngines := []
  missingEngines := []
  message := match findConversionChain shipped (some (PathBuf.ofString ("fixture." ++ input.getD ""))) target with
    | some chain =>
      "No direct route; reachable via chain " ++ String.intercalate " > " (chain.hops.map ChainHop.toFormat) ++ "."
    | none => "This input/target route is not supported."

/-- The entry of a supported target (lines 87–121); `available` says whether an engine is found. -/
def supportedRoute (available : String → Bool) (input : Option String) (target : String) : RouteAvailability :=
  let lanes := routeEngineLanes input target
  let missing (lane : List String) := lane.filter fun engine => !available engine
  match lanes.find? fun lane => (missing lane).isEmpty with
  | some lane => {
      targetFormat := target
      available := true
      requiredEngines := lane
      missingEngines := []
      message := if lane.isEmpty then "Available through the built-in structured engine."
        else "Available through " ++ String.intercalate ", " lane ++ "." }
  | none =>
    let preferred := lanes.headD []
    { targetFormat := target
      available := false
      requiredEngines := preferred
      missingEngines := missing preferred
      message := "Install or import an engine pack that provides: " ++ String.intercalate ", " (missing preferred) ++
        "." }

/-- `capability_snapshot_for_input` (lines 47–126): the routes. -/
def capabilitySnapshot (available : String → Bool) (input : Option String) : List (String × RouteAvailability) :=
  knownTargets.map fun target =>
    (target, if target ∈ supportedTargets input then supportedRoute available input target
      else chainedUnavailableRoute target input)

/-- The end of `ensure_route_available` (lines 172–191). -/
def RouteAvailability.grant (route : RouteAvailability) : Except AnoleError RouteAvailability :=
  if route.available then .ok route
  else if route.missingEngines = [] then
    .error (.new .unsupported .plan route.message "Choose a supported target for this input.")
  else .error (.new .engineMissing .plan route.message
    "Open Engines and install or import the required verified pack.")

/-- `ensure_route_available` (lines 156–192). The lookup normalizes the target once more. -/
def ensureRouteAvailable (available : String → Bool) (input : Option String) (target : String) :
    Except AnoleError RouteAvailability :=
  let normalized := normalizeTarget target
  match (capabilitySnapshot available input).lookup (normalizeTarget normalized) with
  | none => .error (.new .unsupported .plan s!"Unknown target format: {normalized}"
      "Choose one of the target formats shown as available.")
  | some route => route.grant

/-! ## Lanes -/

/-- The branches of `prepare_conversion`, by the planner that each calls. -/
inductive PlannedLane where
  | officeCsv | structured | archive | officeExchange | markupExport | mbox | msg | eml | pdfText | imageOcr
  | markupToDocx | markupToEpub | officeToPdf | imageToPdf | edgePrint | markupToPdf | magick | pdfRender | heic
  | media

/-- The source formats and targets that the planner of a lane takes. -/
def PlannedLane.takes (lane : PlannedLane) (format target : String) : Bool :=
  match lane with
  | officeCsv => format = "xlsx"
  | structured => format ∈ ["csv", "json", "yaml", "xml"] && target ∈ ["csv", "json", "yaml", "yml", "xml"]
  | archive => format ∈ ["zip", "tar.gz", "7z"] && target ∈ ["zip", "tar.gz", "tgz", "taz", "7z"] &&
      format ≠ normalizeTarget target
  | officeExchange => format ∈ ["docx", "odt"] && target ∈ ["docx", "odt"] && format ≠ target
  | markupExport => format ∈ ["docx", "html"] && target ∈ ["txt", "md", "html", "epub"]
  | mbox => format = "mbox" && target ∈ ["txt", "html", "pdf", "md"]
  | msg => format = "msg" && target ∈ ["txt", "html", "md"]
  | eml => format = "eml" && target ∈ ["txt", "html", "md"]
  | pdfText => format = "pdf" && target = "md"
  | imageOcr => format ∈ ["png", "jpg", "jpeg", "tiff", "bmp"] && target ∈ ["txt", "md"]
  | markupToDocx | markupToEpub => format ∈ ["markdown", "html", "plain"]
  | officeToPdf => format ∈ ["docx", "pptx", "xlsx", "odt", "ods", "odp", "rtf"]
  | imageToPdf => format ∈ ["png", "jpeg", "tiff", "bmp"]
  | edgePrint => format ∈ ["html", "svg"]
  | markupToPdf => format ∈ ["markdown", "html", "plain"]
  | magick => format ∈ ["psd", "dng", "cr2", "cr3", "arw", "nef", "orf", "rw2", "pef", "raf"] &&
      target ∈ ["jpg", "jpeg", "png", "tiff", "tif"]
  | pdfRender => format = "pdf" && target ∈ ["jpg", "jpeg", "png"]
  | heic => format = "heic" && target ∈ ["jpg", "jpeg", "png"]
  | media => target ∈ ["mp4", "mp3", "m4a", "wav", "flac", "ogg", "opus", "aac", "gif", "jpg", "jpeg", "png", "webp",
      "avif", "tiff", "bmp"]

/-- What is found in a readable file: the hints of its first bytes, and the formats that the inspectors report. -/
structure Detections where
  officeHint : Option String
  pdfHint : Bool
  structuredFormat : Except AnoleError String
  archiveFormat : Except AnoleError String
  documentFormat : Except AnoleError String
  mediaFormat : Except AnoleError String

/-- A branch that was taken: its lane, the format of its probe, and the engines that it looks up and cannot do
    without. -/
structure Dispatched where
  lane : PlannedLane
  format : String
  engines : List String

def rasterExtensions : List String := ["png", "jpg", "jpeg", "tiff", "tif", "bmp"]

/-- `magick_format_id` (`inspect.rs`, lines 579–593). -/
def magickFormats : List String := ["psd", "dng", "cr2", "cr3", "arw", "nef", "orf", "rw2", "pef", "raf"]

/-- `prepare_conversion` after the branches of markup to PDF (lines 248–290). -/
def dispatchMedia (extension : Option String) (detected : Detections) (target : String) :
    Except AnoleError Dispatched :=
  if target ∈ ["jpg", "jpeg", "png", "tiff"] ∧ extension.getD "" ∈ magickFormats then
    .ok ⟨.magick, extension.getD "", ["magick", "ffprobe"]⟩
  else if detected.pdfHint then .ok ⟨.pdfRender, "pdf", ["pdfinfo", "pdftoppm", "ffprobe"]⟩
  else detected.mediaFormat.map fun format =>
    if format = "heic" ∧ target ∈ ["jpg", "jpeg", "png"] then ⟨.heic, format, ["ffprobe", "heif-dec"]⟩
    else ⟨.media, format, ["ffprobe", "ffmpeg"]⟩

/-- The branch of markup to PDF (lines 212–246); `browser` says whether the engines of the browser lane are
    found. -/
def dispatchMarkup (browser : Bool) (format : String) : Except AnoleError Dispatched :=
  if format ∈ ["html", "svg"] ∧ browser = true then .ok ⟨.edgePrint, format, browserPrintLane⟩
  else if format = "svg" then
    .error (.new .engineMissing .plan "SVG-to-PDF requires the browser print engine lane"
      "Install Microsoft Edge and the Poppler utilities, then run doctor again.")
  else .ok ⟨.markupToPdf, format, ["pandoc", "soffice", "pdfinfo", "pdftoppm"]⟩

/-- `prepare_conversion` after the branch of markup exports (lines 98–246). -/
def dispatchContent (browser : Bool) (extension : Option String) (detected : Detections) (target : String) :
    Except AnoleError Dispatched :=
  if target ∈ ["txt", "html", "pdf", "md"] ∧ extension = some "mbox" then
    .ok ⟨.mbox, "mbox", if target = "pdf" then ["qpdf"] else []⟩
  else if target ∈ ["txt", "html", "md"] ∧ extension = some "msg" then .ok ⟨.msg, "msg", []⟩
  else if target ∈ ["txt", "html", "md"] ∧ extension = some "eml" then
    detected.documentFormat.map fun format => ⟨.eml, format, []⟩
  else if target = "md" ∧ detected.pdfHint = true then .ok ⟨.pdfText, "pdf", ["pdfinfo", "pdftotext"]⟩
  else if target ∈ ["txt", "md"] ∧ extension.getD "" ∈ rasterExtensions then
    detected.mediaFormat.map fun format => ⟨.imageOcr, format, ["ffprobe", "tesseract"]⟩
  else if target ∈ ["docx", "epub"] then
    detected.documentFormat.map fun format =>
      ⟨if target = "epub" then .markupToEpub else .markupToDocx, format, ["pandoc"]⟩
  else if target = "pdf" ∧ detected.officeHint.isSome then
    .ok ⟨.officeToPdf, detected.officeHint.getD "", ["soffice", "pdftoppm", "pdfinfo"]⟩
  else if target = "pdf" ∧ extension.getD "" ∈ rasterExtensions then
    detected.mediaFormat.map fun format => ⟨.imageToPdf, format, ["ffprobe", "soffice", "pdftoppm", "pdfinfo"]⟩
  else
    match detected.documentFormat with
    | .ok format =>
      if target = "pdf" ∧ format ∈ ["markdown", "html", "svg", "plain"] then dispatchMarkup browser format
      else dispatchMedia extension detected target
    | .error _ => dispatchMedia extension detected target

/-- The branches of `prepare_conversion` (lines 41–290) for a normalized target; `extension` is the extension of
    the path in lower case. -/
def dispatch (browser : Bool) (extension : Option String) (detected : Detections) (target : String) :
    Except AnoleError Dispatched :=
  if target = "csv" ∧ detected.officeHint = some "xlsx" then .ok ⟨.officeCsv, "xlsx", []⟩
  else if target ∈ ["csv", "json", "yaml", "yml", "xml"] then
    detected.structuredFormat.map fun format => ⟨.structured, format, []⟩
  else if target ∈ ["zip", "tar.gz", "tgz", "taz", "7z"] then
    detected.archiveFormat.map fun format => ⟨.archive, format, []⟩
  else if target ∈ ["docx", "odt"] ∧ detected.officeHint.getD "" ∈ ["docx", "odt"] ∧
      detected.officeHint ≠ some target then
    .ok ⟨.officeExchange, detected.officeHint.getD "", ["soffice"]⟩
  else if target ∈ ["txt", "md", "html", "epub"] ∧ extension.getD "" ∈ ["docx", "html", "htm"] then
    detected.documentFormat >>= fun format =>
      if format ∈ ["docx", "html"] then .ok ⟨.markupExport, format, ["pandoc"]⟩
      else dispatchContent browser extension detected target
  else dispatchContent browser extension detected target

/-- `inspect_engine`, whose error names the engine. -/
def inspectEngine (available : String → Bool) (engine : String) : Except AnoleError Unit :=
  failWhen (available engine = false)
    (.new .engineMissing .doctor s!"Engine executable was not found: {engine}"
      "Install or import a certified engine pack, then run doctor again.")

/-- The extension of a path, in lower case. -/
def pathExtension (fileName : Option Name) : Option String :=
  ((fileName.bind extension).bind toStr?).map toAsciiLowercase

/-- `prepare_conversion` (lines 28–291) up to the planner, which may still refuse the formats. -/
def prepareConversion (available : String → Bool) (fileName : Option Name) (detected : Detections) (target : String) :
    Except AnoleError Dispatched := do
  let _ ← ensureRouteAvailable available (inputExtension fileName) target
  let target := normalizedTarget target
  let found ← dispatch (browserPrintLane.all available) (pathExtension fileName) detected target
  found.engines.forM (inspectEngine available)
  failWhen (found.lane.takes found.format target = false)
    (.new .unsupported .plan "The planner does not take this conversion" "Choose a supported target.")
  pure found

/-! ## Inputs of a format -/

/-- The error of an inspector that does not know the format. -/
def unrecognized : AnoleError :=
  .new .unsupported .inspect "The file is not of a recognized format" "Choose a supported input file."

/-- A format, where it is one. -/
def formatOf (format : String) : Except AnoleError String := if format = "" then .error unrecognized else .ok format

/-- What is found in a file whose content is of the format that its extension names. -/
def detectionsOf (input : String) : Detections where
  officeHint := if input ∈ ["docx", "pptx", "xlsx", "odt", "ods", "odp", "rtf"] then some input else none
  pdfHint := input = "pdf"
  structuredFormat := formatOf <| match input with
    | "csv" | "json" | "yaml" | "xml" => input
    | "yml" => "yaml"
    | _ => ""
  archiveFormat := formatOf <| match input with
    | "zip" | "tar.gz" | "7z" => input
    | _ => ""
  documentFormat := formatOf <| match input with
    | "docx" | "html" | "svg" | "eml" => input
    | "htm" => "html"
    | "md" | "markdown" => "markdown"
    | "txt" | "text" => "plain"
    | _ => ""
  mediaFormat := formatOf <| match input with
    | "png" | "tiff" | "bmp" | "heic" | "mov" | "mkv" | "avi" | "webm" | "mp4" | "wav" | "flac" | "aac" | "m4a"
    | "ogg" | "opus" | "mp3" => input
    | "jpg" | "jpeg" => "jpeg"
    | "tif" => "tiff"
    | "heif" => "heic"
    | _ => ""

/-- The targets, as their spellings are normalized, that the dispatcher and the planners know. -/
def plannedTargets : List String :=
  ["csv", "json", "yaml", "yml", "xml", "zip", "tar.gz", "tgz", "taz", "7z", "docx", "odt", "txt", "md", "html",
    "epub", "pdf", "jpg", "jpeg", "png", "tiff", "mp4", "mp3", "m4a", "wav", "flac", "ogg", "opus", "aac", "gif",
    "webp", "avif", "bmp"]

/-- The lanes that look up an engine which their route does not require. -/
def ExtraLookup (input target : String) : Prop :=
  (input = "pdf" ∧ target = "md") ∨ (input ∈ rasterExtensions ∧ target = "pdf")

instance (input target : String) : Decidable (ExtraLookup input target) :=
  inferInstanceAs (Decidable (_ ∨ _))

/-- The branch that is taken, if its planner takes the conversion. -/
def serves (browser : Bool) (extension : Option String) (input target : String) : Option Dispatched :=
  (dispatch browser extension (detectionsOf input) target).toOption.filter fun found =>
    found.lane.takes found.format target

/-- A lane serves the conversion, with engines of the lane of the route. -/
def agrees (browser : Bool) (extension : Option String) (input target : String) (lane : List String) : Bool :=
  (serves browser extension input target).any fun found => found.engines.all (· ∈ lane)

variable {extension : Option String} {browser : Bool}

theorem serves_eq_some_iff {input target : String} {found : Dispatched} :
    serves browser extension input target = some found ↔
      dispatch browser extension (detectionsOf input) target = .ok found ∧
        found.lane.takes found.format target = true := by
  unfold serves
  rw [Option.filter_eq_some_iff]
  cases dispatch browser extension (detectionsOf input) target with
  | error _ => simp [Except.toOption]
  | ok found => simp [Except.toOption]

theorem agrees_eq_true_iff {input target : String} {lane : List String} :
    agrees browser extension input target lane = true ↔
      ∃ found, serves browser extension input target = some found ∧ ∀ engine ∈ found.engines, engine ∈ lane := by
  unfold agrees
  rw [Option.any_eq_true]
  simp

/-- The input formats with routes, other than `tar.gz`. -/
def inputFormats : List String :=
  ["csv", "json", "yaml", "yml", "xml", "pdf", "heic", "heif", "docx", "odt", "xlsx", "pptx", "ods", "odp", "rtf",
    "svg", "html", "htm", "md", "markdown", "txt", "text", "zip", "eml", "msg", "mbox", "7z", "png", "jpg", "jpeg",
    "tiff", "tif", "bmp", "psd", "dng", "cr2", "cr3", "arw", "nef", "orf", "rw2", "pef", "raf", "mov", "mkv", "avi",
    "webm", "mp4", "wav", "flac", "aac", "m4a", "ogg", "opus", "mp3"]

/-- **The whole table.** A lane at hand leads to a lane that serves, and its engines suffice except for the two
    extra lookups. -/
theorem served_of_supported : ∀ input ∈ inputFormats, ∀ target ∈ plannedTargets,
    normalizeTarget target ∈ targetsOf input → ∀ browser : Bool,
      ∀ lane ∈ routeEngineLanes (some input) (normalizeTarget target),
        (lane = browserPrintLane → browser = true) →
        (browser = true → (routeEngineLanes (some input) (normalizeTarget target)).head? = some browserPrintLane →
          lane = browserPrintLane) →
        (serves browser (some input) input target).isSome = true ∧
          (agrees browser (some input) input target lane = true ↔ ¬ExtraLookup input target) := by
  decide +kernel

theorem mem_inputFormats {input : String} (htar : input ≠ "tar.gz") (hne : targetsOf input ≠ []) :
    input ∈ inputFormats := by
  unfold targetsOf at hne
  split at hne <;> first | exact absurd rfl htar | exact absurd rfl hne | decide

/-! ## Accepted routes -/

section Accepted

variable {available : String → Bool} {input : Option String} {spelled : String} {route : RouteAvailability}

theorem lookup_map_self {β : Type} (f : String → β) (names : List String) (name : String) :
    (names.map fun name => (name, f name)).lookup name = if name ∈ names then some (f name) else none := by
  induction names with
  | nil => rfl
  | cons first names ih =>
    rw [List.map_cons, List.lookup_cons, ih]
    by_cases heq : name = first
    · simp [heq]
    · rw [beq_eq_false_iff_ne.mpr heq]
      simp [heq]

theorem routeEngineLanes_ne_nil (input : Option String) (target : String) : routeEngineLanes input target ≠ [] := by
  unfold routeEngineLanes
  dsimp only
  split_ifs <;> exact List.cons_ne_nil _ _

/-- A supported target is granted with the first lane at hand, or some engine is missing. -/
theorem grant_supportedRoute (available : String → Bool) (input : Option String) (target : String) :
    (∃ route, (supportedRoute available input target).grant = .ok route ∧
      (routeEngineLanes input target).find? (·.all available) = some route.requiredEngines) ∨
    ((routeEngineLanes input target).find? (·.all available) = none ∧
      ∃ error, (supportedRoute available input target).grant = .error error ∧ error.code = .engineMissing) := by
  have hmissing : ∀ lane : List String,
      (lane.filter fun engine => !available engine).isEmpty = lane.all available := by
    intro lane
    rw [Bool.eq_iff_iff, List.isEmpty_iff, List.filter_eq_nil_iff, List.all_eq_true]
    simp
  unfold supportedRoute
  simp only [hmissing]
  cases hlane : (routeEngineLanes input target).find? (·.all available) with
  | some lane => exact .inl ⟨_, rfl, rfl⟩
  | none =>
    refine .inr ⟨rfl, ?_⟩
    obtain ⟨preferred, rest, hlanes⟩ := List.exists_cons_of_ne_nil (routeEngineLanes_ne_nil input target)
    rw [List.find?_eq_none] at hlane
    have hpreferred := hlane preferred (hlanes ▸ List.mem_cons_self)
    rw [← hmissing, List.isEmpty_iff] at hpreferred
    rw [hlanes, List.headD_cons, RouteAvailability.grant, if_neg Bool.false_ne_true, if_neg hpreferred]
    exact ⟨_, rfl, rfl⟩

theorem ensureRouteAvailable_supported (hknown : normalizeTarget (normalizeTarget spelled) ∈ knownTargets)
    (hsupported : normalizeTarget (normalizeTarget spelled) ∈ targetsOf (input.getD "")) :
    ensureRouteAvailable available input spelled =
      (supportedRoute available input (normalizeTarget (normalizeTarget spelled))).grant := by
  have hmem : normalizeTarget (normalizeTarget spelled) ∈ supportedTargets input := by
    rwa [supportedTargets, List.mem_insertionSort]
  unfold ensureRouteAvailable capabilitySnapshot
  simp only [lookup_map_self]
  rw [if_pos hknown, if_pos hmem]

/-- With all engines at hand, a supported target is granted. -/
theorem ensureRouteAvailable_all (hsupported : normalizeTarget (normalizeTarget spelled) ∈ targetsOf (input.getD ""))
    (hknown : normalizeTarget (normalizeTarget spelled) ∈ knownTargets) :
    ∃ route, ensureRouteAvailable (fun _ => true) input spelled = .ok route := by
  rw [ensureRouteAvailable_supported hknown hsupported]
  rcases grant_supportedRoute (fun _ => true) input (normalizeTarget (normalizeTarget spelled)) with
    ⟨route, hroute, -⟩ | ⟨hnone, -⟩
  · exact ⟨route, hroute⟩
  · obtain ⟨preferred, rest, hlanes⟩ := List.exists_cons_of_ne_nil
      (routeEngineLanes_ne_nil input (normalizeTarget (normalizeTarget spelled)))
    rw [hlanes, List.find?_eq_none] at hnone
    exact absurd (List.all_eq_true.mpr fun _ _ => rfl) (hnone preferred List.mem_cons_self)

theorem ensureRouteAvailable_unsupported
    (h : normalizeTarget (normalizeTarget spelled) ∉ targetsOf (input.getD "")) :
    ∃ error, ensureRouteAvailable available input spelled = .error error ∧ error.code = .unsupported := by
  have hmem : normalizeTarget (normalizeTarget spelled) ∉ supportedTargets input := by
    rwa [supportedTargets, List.mem_insertionSort]
  unfold ensureRouteAvailable capabilitySnapshot
  simp only [lookup_map_self]
  split_ifs with hknown
  · exact ⟨_, rfl, rfl⟩
  · exact ⟨_, rfl, rfl⟩

theorem targetsOf_known {input target : String} (h : target ∈ targetsOf input) : target ∈ knownTargets := by
  revert target
  unfold targetsOf
  split <;> decide

/-- What is accepted: a supported target one of whose lanes is at hand, and the first such lane. -/
theorem ensureRouteAvailable_ok (h : ensureRouteAvailable available input spelled = .ok route) :
    normalizeTarget (normalizeTarget spelled) ∈ targetsOf (input.getD "") ∧
      (routeEngineLanes input (normalizeTarget (normalizeTarget spelled))).find? (·.all available) =
        some route.requiredEngines := by
  by_cases hsupported : normalizeTarget (normalizeTarget spelled) ∈ targetsOf (input.getD "")
  · refine ⟨hsupported, ?_⟩
    rw [ensureRouteAvailable_supported (targetsOf_known hsupported) hsupported] at h
    rcases grant_supportedRoute available input (normalizeTarget (normalizeTarget spelled)) with
      ⟨granted, hgranted, hlane⟩ | ⟨-, error, herror, -⟩
    · rw [hgranted] at h
      cases h
      exact hlane
    · rw [herror] at h
      cases h
  · obtain ⟨error, herror, -⟩ : ∃ error, ensureRouteAvailable available input spelled = .error error ∧
        error.code = .unsupported := ensureRouteAvailable_unsupported hsupported
    rw [herror] at h
    cases h

end Accepted

/-! ## Agreement -/

theorem normalizeTarget_congr {a b : String} (h : normalizedTarget a = normalizedTarget b) :
    normalizeTarget a = normalizeTarget b := by
  unfold normalizeTarget
  rw [h]

/-- The second normalization changes nothing about a target that the dispatcher knows. -/
theorem normalizeTarget_planned {spelled : String} (h : normalizedTarget spelled ∈ plannedTargets) :
    normalizeTarget (normalizeTarget spelled) = normalizeTarget (normalizedTarget spelled) := by
  have hnames : ∀ target ∈ plannedTargets, normalizedTarget target = target ∧
      normalizeTarget (normalizeTarget target) = normalizeTarget target := by decide
  obtain ⟨hsettled, htwice⟩ := hnames _ h
  rw [normalizeTarget_congr hsettled.symm, htwice]

/-- **No planner takes** a target that the dispatcher does not know. -/
theorem takes_eq_false {detected : Detections} {target : String}
    {found : Dispatched} (h : target ∉ plannedTargets)
    (hfound : dispatch browser extension detected target = .ok found) :
    found.lane.takes found.format target = false := by
  have hmedia : ∀ {found}, dispatchMedia extension detected target = .ok found →
      found.lane.takes found.format target = false := by
    intro found hfound
    simp only [plannedTargets, List.mem_cons, List.not_mem_nil, or_false, not_or] at h
    simp only [dispatchMedia, List.mem_cons, List.not_mem_nil, or_false, h, false_and, if_false, and_false] at hfound
    split_ifs at hfound
    · cases hfound
      simp [PlannedLane.takes, h]
    · cases hformat : detected.mediaFormat with
      | error _ =>
        rw [hformat] at hfound
        cases hfound
      | ok format =>
        rw [hformat] at hfound
        cases hfound
        simp [PlannedLane.takes, h]
  simp only [plannedTargets, List.mem_cons, List.not_mem_nil, or_false, not_or] at h
  simp only [dispatch, dispatchContent, List.mem_cons, List.not_mem_nil, or_false, h, false_and, if_false] at hfound
  split at hfound
  · exact hmedia hfound
  · exact hmedia hfound

/-- An archive of the format is served, whatever the extension of its path. -/
theorem served_tarGz {target : String} (htarget : target ∈ plannedTargets)
    (hsupported : normalizeTarget target ∈ targetsOf "tar.gz") (browser : Bool) (extension : Option String)
    (lane : List String) : (serves browser extension "tar.gz" target).isSome = true ∧
      (agrees browser extension "tar.gz" target lane = true ↔ ¬ExtraLookup "tar.gz" target) := by
  have hnames : ∀ target ∈ plannedTargets, normalizeTarget target ∈ targetsOf "tar.gz" →
      target = "zip" ∨ target = "7z" := by decide
  rcases hnames target htarget hsupported with rfl | rfl
  · exact ⟨rfl, iff_of_true rfl (by decide)⟩
  · exact ⟨rfl, iff_of_true rfl (by decide)⟩

/-- Except for `tar.gz`, the extension of an input is that of its path. -/
theorem pathExtension_of_inputExtension {fileName : Option Name} {input : String}
    (h : inputExtension fileName = some input) (htar : input ≠ "tar.gz") : pathExtension fileName = some input := by
  unfold inputExtension at h
  obtain ⟨name, rfl, hname⟩ := Option.bind_eq_some_iff.mp h
  obtain ⟨text, -, htext⟩ := Option.bind_eq_some_iff.mp hname
  simp only at htext
  split_ifs at htext with hend
  · cases htext
    exact absurd rfl htar
  · exact htext

section Routes

variable {available : String → Bool} {fileName : Option Name} {spelled : String} {route : RouteAvailability}

/-- **On an accepted route** to a target that the dispatcher knows, a lane serves the conversion, and only the two
    lanes with an extra lookup fail to agree. -/
theorem served_of_accepted (haccepted : ensureRouteAvailable available (inputExtension fileName) spelled = .ok route)
    (hplanned : normalizedTarget spelled ∈ plannedTargets) :
    (serves (browserPrintLane.all available) (pathExtension fileName) ((inputExtension fileName).getD "")
        (normalizedTarget spelled)).isSome = true ∧
      (agrees (browserPrintLane.all available) (pathExtension fileName) ((inputExtension fileName).getD "")
          (normalizedTarget spelled) route.requiredEngines = true ↔
        ¬ExtraLookup ((inputExtension fileName).getD "") (normalizedTarget spelled)) := by
  obtain ⟨hsupported, hlane⟩ := ensureRouteAvailable_ok haccepted
  rw [normalizeTarget_planned hplanned] at hsupported hlane
  cases hinput : inputExtension fileName with
  | none =>
    rw [hinput] at hsupported
    exact absurd hsupported List.not_mem_nil
  | some input =>
    rw [hinput] at hsupported hlane
    rw [Option.getD_some] at hsupported ⊢
    by_cases htar : input = "tar.gz"
    · subst htar
      exact served_tarGz hplanned hsupported _ _ _
    rw [pathExtension_of_inputExtension hinput htar]
    apply served_of_supported input (mem_inputFormats htar (List.ne_nil_of_mem hsupported)) _ hplanned hsupported
    · exact List.mem_of_find?_eq_some hlane
    · intro hbrowser
      have hall := List.find?_some hlane
      rwa [hbrowser] at hall
    · intro hbrowser hhead
      obtain ⟨rest, hlanes⟩ := List.head?_eq_some_iff.mp hhead
      have hfirst : (browserPrintLane :: rest).find? (·.all available) = some browserPrintLane :=
        List.find?_cons_of_pos hbrowser
      rw [hlanes, hfirst] at hlane
      exact (Option.some.inj hlane).symm

end Routes

/-- The table and the dispatcher agree about an input of a format and a spelling of a target. What is accepted is
    dispatched to a lane that takes it and looks up no other engines, and what is refused for a missing engine
    is not prepared. -/
structure RoutesMatch (available : String → Bool) (fileName : Option Name) (spelled : String) : Prop where
  dispatched : ∀ route, ensureRouteAvailable available (inputExtension fileName) spelled = .ok route →
    ∃ found, dispatch (browserPrintLane.all available) (pathExtension fileName)
        (detectionsOf ((inputExtension fileName).getD "")) (normalizedTarget spelled) = .ok found ∧
      found.lane.takes found.format (normalizedTarget spelled) = true ∧
      ∀ engine ∈ found.engines, engine ∈ route.requiredEngines
  refused : ∀ error, ensureRouteAvailable available (inputExtension fileName) spelled = .error error →
    error.code = .engineMissing → ∀ found, prepareConversion available fileName
      (detectionsOf ((inputExtension fileName).getD "")) spelled ≠ .ok found

/-- **When the routes match.** An accepted target has, once, a name that the dispatcher knows, and the lane is not
    one of those with an extra lookup. -/
theorem routes_match_iff (available : String → Bool) (fileName : Option Name) (spelled : String) :
    RoutesMatch available fileName spelled ↔
      ∀ route, ensureRouteAvailable available (inputExtension fileName) spelled = .ok route →
        normalizedTarget spelled ∈ plannedTargets ∧
          ¬ExtraLookup ((inputExtension fileName).getD "") (normalizedTarget spelled) := by
  constructor
  · intro h route haccepted
    obtain ⟨found, hfound, htakes, hengines⟩ := h.dispatched route haccepted
    have hplanned : normalizedTarget spelled ∈ plannedTargets := by
      by_contra hunknown
      rw [takes_eq_false hunknown hfound] at htakes
      cases htakes
    have hserves := serves_eq_some_iff.mpr ⟨hfound, htakes⟩
    exact ⟨hplanned, (served_of_accepted haccepted hplanned).2.mp (agrees_eq_true_iff.mpr ⟨found, hserves, hengines⟩)⟩
  · intro h
    refine ⟨fun route haccepted => ?_, fun error herror _ found hfound => ?_⟩
    · obtain ⟨hplanned, hextra⟩ := h route haccepted
      obtain ⟨found, hserves, hengines⟩ :=
        agrees_eq_true_iff.mp ((served_of_accepted haccepted hplanned).2.mpr hextra)
      obtain ⟨hfound, htakes⟩ := serves_eq_some_iff.mp hserves
      exact ⟨found, hfound, htakes, hengines⟩
    · unfold prepareConversion at hfound
      rw [herror] at hfound
      cases hfound

namespace DispatchSample

/-- An accepted route that the dispatcher does not follow. -/
theorem not_match {available : String → Bool} {fileName : Option Name} {spelled : String} (engines : List String)
    (haccepted : (ensureRouteAvailable available (inputExtension fileName) spelled).toOption.map
      RouteAvailability.requiredEngines = some engines)
    (hagrees : agrees (browserPrintLane.all available) (pathExtension fileName) ((inputExtension fileName).getD "")
      (normalizedTarget spelled) engines = false) : ¬RoutesMatch available fileName spelled := by
  intro h
  cases hroute : ensureRouteAvailable available (inputExtension fileName) spelled with
  | error _ =>
    rw [hroute] at haccepted
    cases haccepted
  | ok route =>
    rw [hroute] at haccepted
    cases haccepted
    obtain ⟨found, hfound, htakes, hengines⟩ := h.dispatched route hroute
    rw [agrees_eq_true_iff.mpr ⟨found, serves_eq_some_iff.mpr ⟨hfound, htakes⟩, hengines⟩] at hagrees
    cases hagrees

/-- The text of a PDF looks up `pdfinfo`, an image on a page `ffprobe`, and `markdown` is no target of the
    dispatcher. -/
theorem routes_differ :
    ¬RoutesMatch (· = "pdftotext") (some (PathBuf.ofString "a.pdf")) "md" ∧
      ¬RoutesMatch (· ≠ "ffprobe") (some (PathBuf.ofString "a.png")) "pdf" ∧
      ¬RoutesMatch (fun _ => true) (some (PathBuf.ofString "a.docx")) "markdown" := by
  refine ⟨?_, ?_, ?_⟩
  · exact not_match ["pdftotext"] (by decide) (by decide)
  · exact not_match ["soffice", "pdfinfo", "pdftoppm"] (by decide) (by decide)
  · exact not_match ["pandoc"] (by decide) (by decide)

end DispatchSample

end Anole.Routes
