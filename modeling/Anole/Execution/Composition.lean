import Anole.Execution.Chain
import Anole.Planning.Dispatch

/-!
# The segments of an offered chain

`run_chain_segments` (`crates/core/src/chain.rs`, lines 363–408) gives the output of each segment to the next
one, as a file whose extension names its format. Whether that works depends on the lane that
`prepare_conversion` takes for each segment, and on what the lane commits.

* `chains_compose_iff`: for which inputs and targets every offered chain composes.

**Deviation.** The pages of a PDF and the sheets of a workbook are committed as a directory, and both formats are
among the intermediate ones. The search also removes spaces from the extension of the input, which the table of
routes does not.
-/

open Common Anole.Common

namespace Anole.Chain

open Anole.Folder (Name)
open Anole.Planning (normalizedTarget toStr?_ofString)
open Anole.Routes

/-! ## What a lane commits -/

/-- A regular file, or a directory of files. -/
inductive OutputShape where
  | file | directory
  deriving DecidableEq

/-- What the runner renames to the output (`runner.rs`, lines 86–4196): a page directory in
    `execute_pdf_render_plan` and a sheet directory in `execute_office_csv_plan`. -/
def outputShape : Lane → OutputShape
  | .pdfRender | .officeCsv => .directory
  | _ => .file

/-- The engine of the first step of a plan. -/
def plannedEngine : PlannedLane → String
  | .officeCsv => "anole.office-csv"
  | .structured => "anole.structured"
  | .archive => "anole.archive"
  | .officeExchange | .officeToPdf | .imageToPdf => "soffice"
  | .markupExport | .markupToDocx | .markupToEpub | .markupToPdf => "pandoc"
  | .mbox => "anole.mbox"
  | .msg => "anole.msg"
  | .eml => "anole.eml"
  | .pdfText => "pdftotext"
  | .imageOcr => "tesseract"
  | .edgePrint => "msedge"
  | .magick => "magick"
  | .pdfRender => "pdftoppm"
  | .heic => "heif-dec"
  | .media => "ffmpeg"

/-- The lane of the runner for a plan of a planner. -/
def runnerLane (lane : PlannedLane) (target : String) : Lane :=
  match lane with
  | .officeCsv => .officeCsv
  | .structured => .structured
  | .archive => .archive
  | .officeExchange => .officeExchange
  | .markupExport | .markupToDocx | .markupToEpub => .pandoc
  | .mbox => if target = "pdf" then .mboxPdf else .mboxText
  | .msg => .msg
  | .eml => .eml
  | .pdfText => .pdftotextText
  | .imageOcr => .imageOcr
  | .officeToPdf | .imageToPdf => .officePdf
  | .edgePrint => .edgePrint
  | .markupToPdf => .markupPdf
  | .magick => .magick
  | .pdfRender => .pdfRender
  | .heic => .heif
  | .media => .ffmpeg

/-- The targets of the plans of a lane, as far as the runner looks at them. -/
def PlansFor (lane : PlannedLane) (target : String) : Prop :=
  match lane with
  | .officeToPdf | .imageToPdf | .markupToPdf => target = "pdf"
  | .officeExchange | .markupExport | .markupToDocx | .markupToEpub => target ≠ "pdf"
  | .pdfText => target = "md"
  | _ => True

/-- The runner dispatches a plan to the lane of its planner. -/
theorem laneOf_eq {lane : PlannedLane} {step : PlanStep} {target : String}
    (hengine : step.engine.engineId = plannedEngine lane) (hoperation : step.argument "operation" = none)
    (hocr : lane = .imageOcr → step.argument "ocr_mode" = some "image") (htarget : PlansFor lane target) :
    laneOf step target = runnerLane lane target := by
  unfold laneOf
  rw [hoperation, hengine]
  cases lane with
  | imageOcr =>
    rw [hocr rfl]
    rfl
  | _ => simp_all [plannedEngine, runnerLane, PlansFor]

/-! ## Segments -/

/-- The file that a segment reads: the input, or what the previous segment was to write. -/
def segmentInput (fileName : Option Name) (hops : List ChainHop) : ℕ → Option Name
  | 0 => fileName
  | index + 1 => hops[index]?.map fun hop => hopName index hop.toFormat

/-- A file whose content is of the format that its name says is taken for the target, unless an engine is missing. -/
def SegmentPrepares (fileName : Option Name) (target : String) : Prop :=
  ∀ available : String → Bool,
    (∃ error, ensureRouteAvailable available (inputExtension fileName) target = .error error ∧
      error.code = .engineMissing) ∨
    (∃ route, ensureRouteAvailable available (inputExtension fileName) target = .ok route) ∧
      ∃ found, serves (browserPrintLane.all available) (Routes.pathExtension fileName)
        ((inputExtension fileName).getD "") (normalizedTarget target) = some found

/-- The lane that is taken commits a regular file. -/
def SegmentCommitsFile (fileName : Option Name) (target : String) : Prop :=
  ∀ available route found, ensureRouteAvailable available (inputExtension fileName) target = .ok route →
    serves (browserPrintLane.all available) (Routes.pathExtension fileName) ((inputExtension fileName).getD "")
      (normalizedTarget target) = some found →
    outputShape (runnerLane found.lane (normalizedTarget target)) = .file

/-- Every segment is taken, and every one but the last leaves a file for the next one. -/
structure Composes (fileName : Option Name) (chain : ConversionChain) : Prop where
  prepares : ∀ index hop, chain.hops[index]? = some hop →
    SegmentPrepares (segmentInput fileName chain.hops index) hop.toFormat
  commits : ∀ index hop, chain.hops[index]? = some hop → index + 1 < chain.hops.length →
    SegmentCommitsFile (segmentInput fileName chain.hops index) hop.toFormat

/-- The conversions whose output is a directory. -/
def Paged (input target : String) : Prop :=
  (input = "pdf" ∧ target ∈ ["jpg", "png"]) ∨ (input = "xlsx" ∧ target = "csv")

instance (input target : String) : Decidable (Paged input target) := inferInstanceAs (Decidable (_ ∨ _))

theorem targetsOf_settled {input target : String} (h : target ∈ targetsOf input) :
    target ∈ plannedTargets ∧ normalizedTarget target = target ∧ normalizeTarget target = target := by
  have hknown : ∀ target ∈ knownTargets, target ∈ plannedTargets ∧ normalizedTarget target = target ∧
      normalizeTarget target = target := by decide
  exact hknown target (targetsOf_known h)

/-- **A supported segment** is taken. -/
theorem segmentPrepares_of_supported {fileName : Option Name} {target : String}
    (h : target ∈ targetsOf ((inputExtension fileName).getD "")) : SegmentPrepares fileName target := by
  obtain ⟨hplanned, hnormalized, hsettled⟩ := targetsOf_settled h
  have hkey : normalizeTarget (normalizeTarget target) = target := by rw [hsettled, hsettled]
  have hsupported : normalizeTarget (normalizeTarget target) ∈ targetsOf ((inputExtension fileName).getD "") := by
    rwa [hkey]
  intro available
  have hensure : ensureRouteAvailable available (inputExtension fileName) target =
      (supportedRoute available (inputExtension fileName) (normalizeTarget (normalizeTarget target))).grant :=
    ensureRouteAvailable_supported (targetsOf_known hsupported) hsupported
  rcases grant_supportedRoute available (inputExtension fileName) (normalizeTarget (normalizeTarget target)) with
    ⟨route, hroute, -⟩ | ⟨-, error, herror, hcode⟩
  · right
    rw [← hensure] at hroute
    have hserves := (served_of_accepted hroute (hnormalized.symm ▸ hplanned)).1
    exact ⟨⟨route, hroute⟩, Option.isSome_iff_exists.mp hserves⟩
  · left
    rw [← hensure] at herror
    exact ⟨error, herror, hcode⟩

/-- What is served commits a file, except for pages and sheets. -/
theorem served_commits : ∀ input ∈ inputFormats, ∀ target ∈ targetsOf input, ∀ browser : Bool,
    (serves browser (some input) input target).all (fun found =>
      decide (outputShape (runnerLane found.lane target) = .file ↔ ¬Paged input target)) = true := by
  decide

section Chains

variable {fileName : Option Name} {input target intermediate : String}

theorem edge_shipped_iff {source : String} : Edge shipped source target ↔ target ∈ targetsOf source := by
  have hmem : ∀ listed, listed ∈ supportedTargets (some source) ↔ listed ∈ targetsOf source := by
    intro listed
    rw [supportedTargets, List.mem_insertionSort]
    exact Iff.rfl
  have hsame : ∀ listed ∈ supportedTargets (some source), normalizeTarget listed = listed := by
    intro listed hlisted
    rw [hmem] at hlisted
    exact (targetsOf_settled hlisted).2.2
  unfold Edge neighbors
  simp only [shipped]
  rw [List.map_congr_left hsame, List.map_id', hmem]

/-- An alias of a format has its routes. -/
theorem targetsOf_normalizeTarget (h : targetsOf input ≠ []) : targetsOf (normalizeTarget input) = targetsOf input := by
  by_cases htar : input = "tar.gz"
  · rw [htar]
    decide
  · have hall : ∀ input ∈ inputFormats, targetsOf (normalizeTarget input) = targetsOf input := by decide
    exact hall input (mem_inputFormats htar h)

/-- The file between two segments has the format that its name says. -/
theorem inputExtension_hopName (h : intermediate ∈ intermediateWhitelist) :
    inputExtension (some (hopName 0 intermediate)) = some intermediate := by
  revert intermediate
  decide

/-- Whether the first segment leaves a file. -/
theorem segmentCommitsFile_iff (hinput : inputExtension fileName = some input) (hsupported : target ∈ targetsOf input)
    (hinner : target ∈ intermediateWhitelist) : SegmentCommitsFile fileName target ↔ ¬Paged input target := by
  obtain ⟨hplanned, hnormalized, hsettled⟩ := targetsOf_settled hsupported
  have htar : input ≠ "tar.gz" := by
    rintro rfl
    revert target
    decide
  have hmem := mem_inputFormats htar (List.ne_nil_of_mem hsupported)
  have hserved : ∀ browser found, serves browser (some input) input target = some found →
      (outputShape (runnerLane found.lane target) = .file ↔ ¬Paged input target) := by
    intro browser found hfound
    have htable := served_commits input hmem target hsupported browser
    rw [hfound, Option.all_some] at htable
    exact of_decide_eq_true htable
  unfold SegmentCommitsFile
  rw [hinput, pathExtension_of_inputExtension hinput htar, Option.getD_some, hnormalized]
  constructor
  · intro h
    have hkey : normalizeTarget (normalizeTarget target) = target := by rw [hsettled, hsettled]
    have hprepares : SegmentPrepares fileName target := segmentPrepares_of_supported (by rwa [hinput])
    obtain ⟨route, hroute⟩ : ∃ route, ensureRouteAvailable (fun _ => true) (some input) target = .ok route :=
      ensureRouteAvailable_all (by rwa [hkey]) (targetsOf_known (by rwa [hkey]))
    rcases hprepares fun _ => true with ⟨error, herror, -⟩ | ⟨-, found, hfound⟩
    · rw [hinput, hroute] at herror
      cases herror
    · rw [hinput, pathExtension_of_inputExtension hinput htar, Option.getD_some, hnormalized] at hfound
      exact (hserved _ found hfound).mp (h _ route found hroute hfound)
  · intro hpaged available route found _ hfound
    exact (hserved _ found hfound).mpr hpaged

theorem forall_hops {P : ℕ → ChainHop → Prop} {first second : ChainHop} (hfirst : P 0 first) (hsecond : P 1 second) :
    ∀ index hop, [first, second][index]? = some hop → P index hop := by
  intro index hop hhop
  cases index with
  | zero =>
    rw [List.getElem?_cons_zero, Option.some.injEq] at hhop
    rwa [← hhop]
  | succ index =>
    rw [List.getElem?_cons_succ, List.getElem?_singleton] at hhop
    split_ifs at hhop with hindex
    rw [Option.some.injEq] at hhop
    rwa [← hhop, hindex]

/-- **When one chain composes**: its input is named as in the table, and its first segment leaves no directory. -/
theorem composes_iff {chain : ConversionChain} {goal : String} (hinput : inputExtension fileName = some input)
    (hjoins : Joins shipped (normalizeTarget input) goal intermediate)
    (hhops : chain.hops = [hop (normalizeTarget input) intermediate, hop intermediate goal]) :
    Composes fileName chain ↔ targetsOf input ≠ [] ∧ ¬Paged input intermediate := by
  obtain ⟨-, -, hinner, hfirst, hsecond⟩ := hjoins
  rw [edge_shipped_iff] at hfirst hsecond
  constructor
  · intro h
    have hprepares := h.prepares 0 (hop (normalizeTarget input) intermediate) (by rw [hhops]; rfl)
    have hcommits := h.commits 0 (hop (normalizeTarget input) intermediate) (by rw [hhops]; rfl)
      (by rw [hhops]; exact Nat.one_lt_two)
    have hrouted : targetsOf input ≠ [] := by
      intro hnone
      have hunsupported : ∃ error, ensureRouteAvailable (fun _ => true) (inputExtension fileName) intermediate =
          .error error ∧ error.code = .unsupported := by
        apply ensureRouteAvailable_unsupported
        rw [hinput, Option.getD_some, hnone]
        exact List.not_mem_nil
      obtain ⟨error, herror, hcode⟩ := hunsupported
      rcases hprepares fun _ => true with ⟨error', herror', hcode'⟩ | ⟨⟨route, hroute⟩, -⟩
      · have hsame : error = error' := Except.error.inj (herror.symm.trans herror')
        rw [hsame, hcode'] at hcode
        cases hcode
      · cases herror.symm.trans hroute
    rw [targetsOf_normalizeTarget hrouted] at hfirst
    exact ⟨hrouted, (segmentCommitsFile_iff hinput hfirst hinner).mp hcommits⟩
  · rintro ⟨hrouted, hpaged⟩
    rw [targetsOf_normalizeTarget hrouted] at hfirst
    constructor
    · rw [hhops]
      apply forall_hops
      · apply segmentPrepares_of_supported
        show intermediate ∈ targetsOf ((inputExtension fileName).getD "")
        rwa [hinput]
      · apply segmentPrepares_of_supported
        show goal ∈ targetsOf ((inputExtension (some (hopName 0 intermediate))).getD "")
        rwa [inputExtension_hopName hinner]
    · rw [hhops]
      apply forall_hops
      · intro _
        exact (segmentCommitsFile_iff hinput hfirst hinner).mpr hpaged
      · intro hlast
        exact absurd hlast (lt_irrefl 2)

/-- A chain from a PDF goes through its pages, and one from a workbook to records through its sheets. -/
theorem paged_iff (hjoins : Joins shipped (normalizeTarget input) target intermediate)
    (hrouted : targetsOf input ≠ []) :
    Paged input intermediate ↔ input = "pdf" ∨ (input = "xlsx" ∧ target ∈ ["json", "yaml", "xml"]) := by
  obtain ⟨-, hdirect, hinner, hfirst, hsecond⟩ := hjoins
  rw [edge_shipped_iff, targetsOf_normalizeTarget hrouted] at hdirect hfirst
  rw [edge_shipped_iff] at hsecond
  constructor
  · rintro (⟨hpdf, -⟩ | ⟨rfl, rfl⟩)
    · exact .inl hpdf
    · have hrecords : ∀ target ∈ targetsOf "csv", target ∉ targetsOf "xlsx" → target ∈ ["json", "yaml", "xml"] := by
        decide
      exact .inr ⟨rfl, hrecords target hsecond hdirect⟩
  · rintro (rfl | ⟨rfl, htarget⟩)
    · have hpages : ∀ inner ∈ targetsOf "pdf", inner ∈ intermediateWhitelist → inner ∈ ["jpg", "png"] := by decide
      exact .inl ⟨rfl, hpages intermediate hfirst hinner⟩
    · have hsheets : ∀ inner ∈ targetsOf "xlsx", ∀ target ∈ ["json", "yaml", "xml"], target ∈ targetsOf inner →
          inner = "csv" := by decide
      exact .inr ⟨rfl, hsheets intermediate hfirst target htarget hsecond⟩

theorem joins_of_found_shipped {chain : ConversionChain}
    (h : findConversionChain shipped fileName target = some chain) :
    ∃ input, inputExtension fileName = some input ∧ ∃ intermediate,
      Joins shipped (normalizeTarget input) (normalizeTarget target) intermediate ∧
        chain.hops = [hop (normalizeTarget input) intermediate, hop intermediate (normalizeTarget target)] := by
  have hfound := joins_of_found h
  simp only [shipped] at hfound
  exact hfound

/-- **When the offered chains compose.** The extension of the input must be one of the table, without spaces, and
    neither the pages of a PDF nor the sheets of a workbook may be what the second segment reads. -/
theorem chains_compose_iff (fileName : Option Name) (target : String) :
    (∀ chain, findConversionChain shipped fileName target = some chain → Composes fileName chain) ↔
      ((findConversionChain shipped fileName target).isSome →
        ∃ input, inputExtension fileName = some input ∧ targetsOf input ≠ [] ∧ input ≠ "pdf" ∧
          ¬(input = "xlsx" ∧ normalizeTarget target ∈ ["json", "yaml", "xml"])) := by
  have hcondition : ∀ chain, findConversionChain shipped fileName target = some chain →
      (Composes fileName chain ↔ ∃ input, inputExtension fileName = some input ∧ targetsOf input ≠ [] ∧
        input ≠ "pdf" ∧ ¬(input = "xlsx" ∧ normalizeTarget target ∈ ["json", "yaml", "xml"])) := by
    intro chain hchain
    obtain ⟨input, hinput, intermediate, hjoins, hhops⟩ := joins_of_found_shipped hchain
    rw [composes_iff hinput hjoins hhops]
    constructor
    · rintro ⟨hrouted, hpaged⟩
      rw [paged_iff hjoins hrouted, not_or] at hpaged
      exact ⟨input, hinput, hrouted, hpaged⟩
    · rintro ⟨input', hinput', hrouted, hpaged⟩
      rw [hinput, Option.some.injEq] at hinput'
      subst hinput'
      refine ⟨hrouted, ?_⟩
      rw [paged_iff hjoins hrouted, not_or]
      exact hpaged
  constructor
  · intro h hfound
    obtain ⟨chain, hchain⟩ := Option.isSome_iff_exists.mp hfound
    exact (hcondition chain hchain).mp (h chain hchain)
  · intro h chain hchain
    exact (hcondition chain hchain).mpr (h (Option.isSome_of_mem hchain))

end Chains

namespace ComposeSample

/-- A chain whose first segment leaves a directory. -/
theorem not_composes {fileName : Option Name} {chain : ConversionChain} {first : ChainHop} (input : String)
    (hfirst : chain.hops[0]? = some first) (hlong : 1 < chain.hops.length)
    (hinput : inputExtension fileName = some input) (hsupported : first.toFormat ∈ targetsOf input)
    (hinner : first.toFormat ∈ intermediateWhitelist) (hpaged : Paged input first.toFormat) :
    ¬Composes fileName chain := by
  intro h
  have hcommits : SegmentCommitsFile fileName first.toFormat := h.commits 0 first hfirst hlong
  exact (segmentCommitsFile_iff hinput hsupported hinner).mp hcommits hpaged

/-- Chains are offered through the sheets of a workbook and through the pages of a PDF. -/
theorem offered_chains_fail :
    (∃ chain, findConversionChain shipped (some (PathBuf.ofString "a.xlsx")) "json" = some chain ∧
      ¬Composes (some (PathBuf.ofString "a.xlsx")) chain) ∧
    ∃ chain, findConversionChain shipped (some (PathBuf.ofString "a.pdf")) "webp" = some chain ∧
      ¬Composes (some (PathBuf.ofString "a.pdf")) chain := by
  constructor
  · refine ⟨⟨[hop "xlsx" "csv", hop "csv" "json"]⟩, by decide +kernel, ?_⟩
    exact not_composes "xlsx" List.getElem?_cons_zero Nat.one_lt_two (by decide) (by decide) (by decide)
      (by decide)
  · refine ⟨⟨[hop "pdf" "jpg", hop "jpg" "webp"]⟩, by decide +kernel, ?_⟩
    exact not_composes "pdf" List.getElem?_cons_zero Nat.one_lt_two (by decide) (by decide) (by decide)
      (by decide)

end ComposeSample

end Anole.Chain
