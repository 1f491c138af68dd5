import Anole.Common.PathSearch
import Anole.Folder.Walk

/-!
# Routes and the search for a conversion chain

Model of the table of routes (`crates/core/src/capabilities.rs`, lines 196–371) and of
`find_conversion_chain` (`chain.rs`, lines 126–282). Where a format has no route to the target, the
program offers a chain of two conversions through an intermediate format of a whitelist.

* `Shipped.supportedTargets_named`: every target of the shipped table has a name.
* `find_conversion_chain_exact`: whatever the table of routes, a chain is found if and only if
  there is no direct route and some whitelisted format leads from the input to the target; the
  chain found is the one through such a format.

The table and the names of its formats are parameters of the search, with the shipped ones as an
instance.
-/

open Common

namespace Anole.Routes

open Anole.Folder (Name extension)
open Anole.Planning (toStr? normalizedTarget)

/-! ## Formats and engines -/

/-- `normalize_target` (`capabilities.rs`, lines 360–371). -/
def normalizeTarget (target : String) : String :=
  match normalizedTarget target with
  | "jpeg" => "jpg"
  | "markdown" => "md"
  | "yml" => "yaml"
  | "tgz" | "taz" => "tar.gz"
  | value => value

/-- `input_extension` (`capabilities.rs`, lines 348–358; `chain.rs`, lines 274–282) of a path with
    this file name. -/
def inputExtension (fileName : Option Name) : Option String := do
  let fileName ← fileName
  let name := toAsciiLowercase (← toStr? fileName)
  if ".tar.gz".toList <:+ name.toList ∨ ".tgz".toList <:+ name.toList ∨ ".taz".toList <:+ name.toList then
    some "tar.gz"
  else ((extension fileName).bind toStr?).map toAsciiLowercase

/-- The targets of a format (lines 197–238). -/
def targetsOf : String → List String
  | "csv" | "json" | "yaml" | "yml" | "xml" => ["csv", "json", "yaml", "xml"]
  | "pdf" => ["jpg", "png", "md"]
  | "heic" | "heif" => ["jpg", "png"]
  | "docx" => ["pdf", "txt", "md", "html", "epub", "odt"]
  | "odt" => ["pdf", "docx"]
  | "xlsx" => ["pdf", "csv"]
  | "pptx" | "ods" | "odp" | "rtf" | "svg" => ["pdf"]
  | "html" | "htm" => ["pdf", "docx", "epub", "md"]
  | "md" | "markdown" | "txt" | "text" => ["pdf", "docx", "epub"]
  | "zip" => ["tar.gz", "7z"]
  | "eml" | "msg" => ["txt", "html", "md"]
  | "mbox" => ["txt", "html", "pdf", "md"]
  | "tar.gz" => ["zip", "7z"]
  | "7z" => ["zip", "tar.gz"]
  | "png" | "jpg" | "jpeg" => ["webp", "avif", "tiff", "bmp", "pdf", "txt", "md"]
  | "tiff" | "tif" | "bmp" => ["webp", "avif", "png", "pdf", "txt", "md"]
  | "psd" | "dng" | "cr2" | "cr3" | "arw" | "nef" | "orf" | "rw2" | "pef" | "raf" => ["png", "jpg", "tiff"]
  | "mov" | "mkv" | "avi" | "webm" | "mp4" => ["mp4", "gif", "mp3"]
  | "wav" | "flac" | "aac" | "m4a" | "ogg" | "opus" | "mp3" => ["m4a", "mp3", "wav"]
  | _ => []

/-- `supported_targets` (lines 196–240). A `BTreeSet` lists its elements in order. -/
def supportedTargets (input : Option String) : List String :=
  (targetsOf (input.getD "")).insertionSort (· ≤ ·)

/-- `browser_print_lane` (line 258). -/
def browserPrintLane : List String := ["msedge", "pdfinfo", "pdftoppm", "pdftotext", "pdffonts"]

/-- `required_engines` (lines 262–346). -/
def requiredEngines (input : Option String) (target : String) : List String :=
  let target := normalizeTarget target
  let input := input.getD ""
  if input ∈ ["csv", "json", "yaml", "yml", "xml"] ∧ target ∈ ["csv", "json", "yaml", "xml"] then []
  else if input ∈ ["zip", "tar.gz", "7z"] ∧ target ∈ ["zip", "tar.gz", "7z"] then []
  else if input ∈ ["eml", "msg"] ∧ target ∈ ["txt", "html", "md"] then []
  else if input = "mbox" ∧ target ∈ ["txt", "html", "md"] then []
  else if input = "mbox" ∧ target = "pdf" then
    ["msedge", "pdfinfo", "pdftoppm", "pdftotext", "pdffonts", "qpdf"]
  else if input = "pdf" ∧ target ∈ ["jpg", "png"] then ["pdfinfo", "pdftoppm", "ffprobe"]
  else if input = "pdf" ∧ target = "md" then ["pdftotext"]
  else if input = "docx" ∧ target ∈ ["txt", "md", "html", "epub"] then ["pandoc"]
  else if input = "xlsx" ∧ target = "csv" then []
  else if input ∈ ["html", "htm"] ∧ target = "md" then ["pandoc"]
  else if (input = "docx" ∧ target = "odt") ∨ (input = "odt" ∧ target = "docx") then ["soffice"]
  else if input ∈ ["docx", "pptx", "xlsx", "odt", "ods", "odp", "rtf"] ∧ target = "pdf" then
    ["soffice", "pdfinfo", "pdftoppm"]
  else if input ∈ ["md", "markdown", "html", "htm", "txt", "text"] ∧ target ∈ ["docx", "epub"] then ["pandoc"]
  else if input ∈ ["html", "htm", "svg"] ∧ target = "pdf" then browserPrintLane
  else if input ∈ ["md", "markdown", "txt", "text"] ∧ target = "pdf" then
    ["pandoc", "soffice", "pdfinfo", "pdftoppm"]
  else if input ∈ ["png", "jpg", "jpeg", "tiff", "tif", "bmp"] ∧ target = "pdf" then
    ["soffice", "pdfinfo", "pdftoppm"]
  else if input ∈ ["heic", "heif"] ∧ target ∈ ["jpg", "png"] then ["ffprobe", "heif-dec"]
  else if input ∈ ["psd", "dng", "cr2", "cr3", "arw", "nef", "orf", "rw2", "pef", "raf"] ∧
      target ∈ ["jpg", "png", "tiff"] then ["magick", "ffprobe"]
  else if input ∈ ["png", "jpg", "jpeg", "tiff", "tif", "bmp"] ∧ target ∈ ["txt", "md"] then
    ["ffprobe", "tesseract"]
  else ["ffprobe", "ffmpeg"]

/-! ## Chains -/

/-- `MAX_CHAIN_DEPTH` (`chain.rs`, line 127). -/
def maxChainDepth : ℕ := 2

/-- `INTERMEDIATE_WHITELIST` (lines 140–142). -/
def intermediateWhitelist : List String :=
  ["html", "png", "jpg", "tiff", "pdf", "docx", "txt", "json", "csv", "yaml", "xml", "wav"]

/-- `ChainHop` (lines 146–150). -/
structure ChainHop where
  fromFormat : String
  toFormat : String
  requiredEngines : List String
  deriving DecidableEq

/-- `ConversionChain` (lines 154–156). -/
structure ConversionChain where
  hops : List ChainHop
  deriving DecidableEq

/-- The routes between formats. No format is the empty name. -/
structure RouteTable where
  supportedTargets : Option String → List String
  normalizeTarget : String → String
  named : ∀ input, ∀ target ∈ supportedTargets input, normalizeTarget target ≠ ""

variable (routes : RouteTable)

/-- `neighbors` (lines 266–271). -/
def neighbors (format : String) : List String :=
  (routes.supportedTargets (some format)).map routes.normalizeTarget

/-- There is a direct route. -/
def Edge (source target : String) : Prop := target ∈ neighbors routes source

instance (source target : String) : Decidable (Edge routes source target) :=
  inferInstanceAs (Decidable (_ ∈ _))

/-- The hop from one format to another. -/
def hop (source target : String) : ChainHop := ⟨source, target, requiredEngines (some source) target⟩

/-- `to_hops` (lines 256–264). -/
def toHops (path : List String) : List ChainHop := (path.zip path.tail).map fun pair => hop pair.1 pair.2

/-- What the search of `find_conversion_chain` looks for (lines 229–253). -/
def chainSearch (target : String) : PathSearch String where
  neighbors := neighbors routes
  ignored := (· = "")
  inner := (· ∈ intermediateWhitelist)
  goal := target
  depth := maxChainDepth

/-- `find_conversion_chain` (lines 216–254). -/
def findConversionChain (input : Option Name) (target : String) : Option ConversionChain := do
  let target := routes.normalizeTarget target
  let inputExt ← inputExtension input
  let start := routes.normalizeTarget inputExt
  if start = target then none
  else if target ∈ neighbors routes start then none
  else ((chainSearch routes target).search [[start]]).map fun path => ⟨toHops path⟩

/-! ## What is found -/

/-- A format that joins a start to a target which it has no route to. -/
def Joins (start target intermediate : String) : Prop :=
  start ≠ target ∧ ¬ Edge routes start target ∧ intermediate ∈ intermediateWhitelist ∧
    Edge routes start intermediate ∧ Edge routes intermediate target

variable {routes} {start target intermediate : String}

theorem edge_ne_empty (h : Edge routes start target) : target ≠ "" := by
  obtain ⟨listed, hlisted, rfl⟩ := List.mem_map.mp h
  exact routes.named _ listed hlisted

theorem Joins.isRoute (h : Joins routes start target intermediate) :
    (chainSearch routes target).IsRoute start [intermediate] := by
  obtain ⟨hne, hdirect, hinner, hfirst, hsecond⟩ := h
  have hstart : start ≠ intermediate := by
    rintro rfl
    exact hdirect hsecond
  have htarget : intermediate ≠ target := by
    rintro rfl
    exact hdirect hfirst
  constructor
  · simpa [chainSearch] using ⟨hfirst, hsecond⟩
  · simpa [chainSearch] using ⟨⟨hstart, hne⟩, htarget⟩
  · simpa [chainSearch] using hinner
  · simpa [chainSearch] using ⟨edge_ne_empty hfirst, edge_ne_empty hsecond⟩
  · exact le_refl 2

/-- Without a direct route, a route of at most two edges has one format in the middle. -/
theorem joins_of_isRoute {middle : List String} (h : (chainSearch routes target).IsRoute start middle)
    (hdirect : ¬ Edge routes start target) :
    ∃ intermediate, middle = [intermediate] ∧ Joins routes start target intermediate := by
  match middle, h with
  | [], h => exact absurd (List.isChain_pair.mp h.edges) hdirect
  | [intermediate], h =>
    have hedges := h.edges
    rw [List.singleton_append, List.isChain_cons_cons, List.isChain_pair] at hedges
    have hne : start ≠ target := by
      rintro rfl
      exact (List.nodup_cons.mp h.nodup).1 (List.mem_append_right _ List.mem_cons_self)
    have hinner := of_decide_eq_true (h.inner intermediate List.mem_cons_self)
    exact ⟨intermediate, rfl, hne, hdirect, hinner, hedges⟩
  | _ :: _ :: _, h =>
    have hshort : _ ≤ maxChainDepth := h.short
    rw [maxChainDepth, List.length_cons, List.length_cons] at hshort
    omega

theorem search_start (hdirect : ¬ Edge routes start target) :
    ((chainSearch routes target).search [[start]]).isSome ↔
      ∃ intermediate, Joins routes start target intermediate := by
  rw [PathSearch.search_isSome_iff (by decide : 0 < maxChainDepth)]
  constructor
  · rintro ⟨middle, hroute⟩
    obtain ⟨intermediate, -, hjoins⟩ := joins_of_isRoute hroute hdirect
    exact ⟨intermediate, hjoins⟩
  · rintro ⟨intermediate, hjoins⟩
    exact ⟨[intermediate], hjoins.isRoute⟩

theorem findConversionChain_of_inputExtension {input : Option Name} {inputExt : String}
    (h : inputExtension input = some inputExt) :
    findConversionChain routes input target =
      if routes.normalizeTarget inputExt = routes.normalizeTarget target ∨
          Edge routes (routes.normalizeTarget inputExt) (routes.normalizeTarget target) then none
      else ((chainSearch routes (routes.normalizeTarget target)).search
        [[routes.normalizeTarget inputExt]]).map fun path => ⟨toHops path⟩ := by
  rw [findConversionChain, h, Option.bind_eq_bind, Option.bind_some, ite_or]
  rfl

/-- **What is found** leads from the input through a format that joins it to the target. -/
theorem joins_of_found {input : Option Name} {chain : ConversionChain}
    (h : findConversionChain routes input target = some chain) :
    ∃ inputExt, inputExtension input = some inputExt ∧
      ∃ intermediate, Joins routes (routes.normalizeTarget inputExt) (routes.normalizeTarget target) intermediate ∧
        chain.hops =
          [hop (routes.normalizeTarget inputExt) intermediate, hop intermediate (routes.normalizeTarget target)] := by
  cases hext : inputExtension input with
  | none =>
    rw [findConversionChain, hext] at h
    cases h
  | some inputExt =>
    rw [findConversionChain_of_inputExtension hext] at h
    split_ifs at h with hdirect
    rw [not_or] at hdirect
    obtain ⟨path, hpath, rfl⟩ := Option.map_eq_some_iff.mp h
    obtain ⟨middle, rfl, hroute⟩ :=
      PathSearch.search_eq_some (PathSearch.openQueue_start (by decide : 0 < maxChainDepth)) hpath
    obtain ⟨intermediate, rfl, hjoins⟩ := joins_of_isRoute hroute hdirect.2
    exact ⟨inputExt, rfl, intermediate, hjoins, rfl⟩

variable (routes) (target)

theorem find_conversion_chain_exact (input : Option Name) :
    let goal := routes.normalizeTarget target
    ((findConversionChain routes input target).isSome ↔
      ∃ inputExt, inputExtension input = some inputExt ∧
        ∃ intermediate, Joins routes (routes.normalizeTarget inputExt) goal intermediate) ∧
    ∀ chain, findConversionChain routes input target = some chain →
      ∃ inputExt, inputExtension input = some inputExt ∧
        ∃ intermediate, Joins routes (routes.normalizeTarget inputExt) goal intermediate ∧
          chain.hops = [hop (routes.normalizeTarget inputExt) intermediate, hop intermediate goal] := by
  intro goal
  refine ⟨?_, fun chain hchain => joins_of_found hchain⟩
  cases hext : inputExtension input with
  | none => simp [findConversionChain, hext]
  | some inputExt =>
    rw [findConversionChain_of_inputExtension hext]
    by_cases hdirect : routes.normalizeTarget inputExt = goal ∨ Edge routes (routes.normalizeTarget inputExt) goal
    · have hnone : ∀ intermediate, ¬ Joins routes (routes.normalizeTarget inputExt) goal intermediate := by
        rintro intermediate ⟨hne, hedge, -⟩
        exact hdirect.elim hne hedge
      rw [if_pos hdirect]
      simpa using hnone
    · rw [if_neg hdirect, Option.isSome_map, search_start fun h => hdirect (Or.inr h)]
      simp [goal]

/-! ## The shipped table -/

theorem supportedTargets_named (input : Option String) :
    ∀ listed ∈ supportedTargets input, normalizeTarget listed ≠ "" := by
  intro listed hlisted
  rw [supportedTargets, List.mem_insertionSort] at hlisted
  revert listed
  unfold targetsOf
  split <;> decide

/-- The routes that the program knows. -/
def shipped : RouteTable := ⟨supportedTargets, normalizeTarget, supportedTargets_named⟩

example : findConversionChain shipped (some (PathBuf.ofString "fixture.xlsx")) "jpg" =
    some ⟨[hop "xlsx" "pdf", hop "pdf" "jpg"]⟩ := by
  decide +kernel

end Anole.Routes
