import Anole.Common.Split
import Anole.Planning.Pdf

/-!
# The command line of qpdf

Model of `pdf_ops_command` and `external_process_path` (`crates/core/src/runner.rs`, lines 1753–1765 and
2620–2721), and what becomes of the inputs of a merge between the planner, which joins their paths with
`;`, and the command, which splits them again (`merge_inputs_iff`).
-/

open Common Anole.Common

namespace Anole.Planning

/-! ## Paths -/

/-- The prefix of a Windows verbatim path. -/
def verbatim : List Char := ['\\', '\\', '?', '\\']

/-- The prefix of a Windows verbatim network path. -/
def verbatimUnc : List Char := verbatim ++ ['U', 'N', 'C', '\\']

/-- The characters of a path, with U+FFFD for what is no character. -/
def lossyChars (path : PathBuf) : List Char := path.map PathUnit.lossy

/-- The path of some characters. -/
def ofChars (chars : List Char) : PathBuf := chars.map PathUnit.char

/-- `external_process_path` (lines 1753–1765), on Windows or elsewhere. -/
def externalProcessPath (windows : Bool) (path : PathBuf) : PathBuf :=
  if windows then
    if verbatimUnc <+: lossyChars path then ofChars (['\\', '\\'] ++ (lossyChars path).drop 8)
    else if verbatim <+: lossyChars path then ofChars ((lossyChars path).drop 4)
    else path
  else path

/-! ## Commands -/

/-- An argument of qpdf. -/
inductive QpdfArgument where
  | text (text : String)
  | path (path : PathBuf)

/-- An argument of a step that must be there. -/
def stepArgument (step : PlanStep) (name : String) : Except AnoleError String :=
  (step.arguments.lookup name).elim (.error (invalidPlanArgument name)) .ok

/-- The arguments of a merge of some inputs. -/
def mergeCommand (windows : Bool) (inputs : List PathBuf) : List QpdfArgument :=
  [.text "--empty", .text "--pages"] ++
    inputs.flatMap fun path => [.path (externalProcessPath windows path), .text "1-z"]

/-- The merge (lines 2629–2643). -/
def mergeArguments (windows : Bool) (step : PlanStep) : Except AnoleError (List QpdfArgument) := do
  let inputs ← stepArgument step "inputs"
  let paths := (splitText ';' inputs).map PathBuf.ofString
  failIf (paths.length < 2) (invalidPlanArgument "inputs")
  pure (mergeCommand windows paths)

/-- The rotation (lines 2655–2671). -/
def rotateArguments (step : PlanStep) (input : PathBuf) : Except AnoleError (List QpdfArgument) := do
  let angle ← stepArgument step "angle"
  failIf (angle ∉ ["90", "180", "270"]) (invalidPlanArgument "angle")
  let pages := (step.arguments.lookup "pages").getD ""
  pure [.path input, .text (if pages = "" then s!"--rotate=+{angle}" else s!"--rotate=+{angle}:{pages}")]

/-- `pdf_ops_command` (lines 2620–2721) of an input path; the secret and the stamp are there when the
    caller has them. -/
def pdfOpsCommand (windows : Bool) (step : PlanStep) (canonicalPath : PathBuf) (operation : String)
    (secret : Option String) (stamp : Option PathBuf) : Except AnoleError (List QpdfArgument) :=
  let input := externalProcessPath windows canonicalPath
  match operation with
  | "pdf-merge" => mergeArguments windows step
  | "pdf-extract" => do
    let range ← stepArgument step "page_range"
    pure [.text "--empty", .text "--pages", .path input, .text range]
  | "pdf-rotate" => rotateArguments step input
  | "pdf-compress" => .ok [.path input, .text "--compress-streams=y", .text "--object-streams=generate",
      .text "--recompress-flate", .text "--compression-level=9"]
  | "pdf-watermark" => do
    let stamp ← stamp.elim (.error (invalidPlanArgument "watermark stamp")) .ok
    pure [.path input, .text "--overlay", .path (externalProcessPath windows stamp), .text "--repeat=1-z"]
  | "pdf-encrypt" => do
    let password ← secret.elim (.error (invalidPlanArgument "password (unavailable after a restart)")) .ok
    pure [.path input, .text "--encrypt", .text password, .text password, .text "256", .text "--print=full",
      .text "--modify=none"]
  | "pdf-decrypt" => do
    let password ← secret.elim (.error (invalidPlanArgument "password (unavailable after a restart)")) .ok
    pure [.text s!"--password={password}", .text "--decrypt", .path input]
  | _ => .error (invalidPlanArgument "operation")

/-- The paths that a command hands to qpdf. -/
def commandPaths (command : List QpdfArgument) : List PathBuf :=
  command.filterMap fun
    | .path path => some path
    | .text _ => none

/-! ## What a path becomes -/

/-- A canonical path without its Windows verbatim prefix. -/
def withoutVerbatim (windows : Bool) (path : PathBuf) : PathBuf :=
  if windows then
    if ofChars verbatimUnc <+: path then ofChars ['\\', '\\'] ++ path.drop 8
    else if ofChars verbatim <+: path then path.drop 4
    else path
  else path

/-- A path that reaches qpdf as it is. -/
structure MergeSafe (windows : Bool) (path : PathBuf) : Prop where
  unicode : path.IsUnicode
  separator : PathUnit.char ';' ∉ path
  plain : if windows then ¬ ofChars verbatimUnc <+: path ∧ ¬ ofChars (verbatim ++ verbatim) <+: path
    else ¬ ofChars verbatim <+: path

theorem prefix_lossyChars {start : List Char} (hstart : '\uFFFD' ∉ start) {path : PathBuf} :
    start <+: lossyChars path ↔ ofChars start <+: path := by
  induction start generalizing path with
  | nil => simp [ofChars]
  | cons c start ih =>
    rw [List.mem_cons, not_or] at hstart
    cases path with
    | nil => simp [ofChars, lossyChars]
    | cons unit path =>
      have hunit : c = unit.lossy ↔ PathUnit.char c = unit := by
        cases unit with
        | char d => simp [PathUnit.lossy]
        | illFormed bytes => simp [PathUnit.lossy, Ne.symm hstart.1]
      have hrest := @ih hstart.2 path
      simp only [lossyChars, ofChars, List.map_cons, List.cons_prefix_cons] at hrest ⊢
      rw [hunit, hrest]

theorem ofChars_lossyChars_iff {path : PathBuf} : ofChars (lossyChars path) = path ↔ path.IsUnicode := by
  constructor
  · intro h
    refine ⟨String.ofList (lossyChars path), ?_⟩
    rw [PathBuf.ofString, String.toList_ofList]
    exact h.symm
  · rintro ⟨text, rfl⟩
    simp [ofChars, lossyChars, PathBuf.ofString, Function.comp_def, PathUnit.lossy]

/-- The text that the planner makes of a path. -/
def plannedChars (path : PathBuf) : List Char :=
  if verbatim <+: lossyChars path then (lossyChars path).drop 4 else lossyChars path

theorem toList_qpdfPath (path : PathBuf) : (qpdfPath path).toList = plannedChars path := by
  have hlossy : path.toStringLossy.toList = lossyChars path := String.toList_ofList
  rw [qpdfPath, hlossy, String.toList_ofList, plannedChars]
  simp only [List.isPrefixOf_iff_prefix]
  rfl

@[simp] theorem lossyChars_ofChars (chars : List Char) : lossyChars (ofChars chars) = chars := by
  simp [ofChars, lossyChars, Function.comp_def, PathUnit.lossy]

@[simp] theorem lossyChars_append (p q : PathBuf) : lossyChars (p ++ q) = lossyChars p ++ lossyChars q :=
  List.map_append

theorem ofChars_append (a b : List Char) : ofChars (a ++ b) = ofChars a ++ ofChars b := List.map_append

theorem isUnicode_append {chars : List Char} {path : PathBuf} :
    (ofChars chars ++ path).IsUnicode ↔ path.IsUnicode := by
  rw [← ofChars_lossyChars_iff, ← ofChars_lossyChars_iff, lossyChars_append, lossyChars_ofChars, ofChars_append,
    List.append_cancel_left_eq]

theorem externalProcessPath_plain {windows : Bool} {path : PathBuf} (h : ¬ verbatim <+: lossyChars path) :
    externalProcessPath windows path = path := by
  unfold externalProcessPath
  split_ifs with hwindows hunc
  · exact absurd ((List.prefix_append verbatim _).trans hunc) h
  · rfl
  · rfl

/-- On Windows a verbatim prefix is lost. -/
theorem length_externalProcessPath_lt {chars : List Char} (h : verbatim <+: chars) :
    (externalProcessPath true (ofChars chars)).length < chars.length := by
  have hlen : 4 ≤ chars.length := h.length_le
  unfold externalProcessPath
  rw [if_pos rfl, lossyChars_ofChars]
  split_ifs with hunc
  · have hlong : 8 ≤ chars.length := hunc.length_le
    simp only [ofChars, List.length_map, List.length_append, List.length_drop, List.length_cons, List.length_nil]
    omega
  · simp only [ofChars, List.length_map, List.length_drop]
    omega

theorem length_externalProcessPath_le (windows : Bool) (chars : List Char) :
    (externalProcessPath windows (ofChars chars)).length ≤ chars.length := by
  by_cases hverbatim : verbatim <+: chars
  · cases windows with
    | true => exact (length_externalProcessPath_lt hverbatim).le
    | false => exact (List.length_map _).le
  · rw [externalProcessPath_plain (by rwa [lossyChars_ofChars])]
    exact (List.length_map _).le

theorem verbatimUnc_prefix_iff {path : PathBuf} :
    ofChars verbatimUnc <+: ofChars verbatim ++ path ↔ ofChars ['U', 'N', 'C', '\\'] <+: path := by
  rw [verbatimUnc, ofChars_append, List.prefix_append_right_inj]

theorem verbatim_prefix_iff {path : PathBuf} :
    ofChars (verbatim ++ verbatim) <+: ofChars verbatim ++ path ↔ verbatim <+: lossyChars path := by
  rw [ofChars_append, List.prefix_append_right_inj, prefix_lossyChars (by decide)]

/-- A path with a verbatim prefix in front reaches qpdf without it, on Windows only. -/
theorem merge_verbatim_iff {windows : Bool} {path : PathBuf} :
    externalProcessPath windows (ofChars (lossyChars path)) = withoutVerbatim windows (ofChars verbatim ++ path) ↔
      windows = true ∧ path.IsUnicode ∧ ¬ ofChars verbatimUnc <+: ofChars verbatim ++ path ∧
        ¬ ofChars (verbatim ++ verbatim) <+: ofChars verbatim ++ path := by
  have hlen := length_externalProcessPath_le windows (lossyChars path)
  have hlossy : (lossyChars path).length = path.length := List.length_map _
  have hshort : ∀ other : PathBuf, (externalProcessPath windows (ofChars (lossyChars path))).length < other.length →
      externalProcessPath windows (ofChars (lossyChars path)) ≠ other := by
    rintro other hlt heq
    rw [heq] at hlt
    exact hlt.false
  cases windows with
  | false =>
    have hlong : (withoutVerbatim false (ofChars verbatim ++ path)).length = 4 + path.length := List.length_append
    exact iff_of_false (hshort _ (by omega)) fun h => Bool.false_ne_true h.1
  | true =>
    rw [withoutVerbatim, if_pos rfl, if_pos (List.prefix_append _ _)]
    simp only [verbatimUnc_prefix_iff, verbatim_prefix_iff]
    have hdrop : (ofChars verbatim ++ path).drop 4 = path := rfl
    by_cases hunc : ofChars ['U', 'N', 'C', '\\'] <+: path
    · have hplain : ¬ verbatim <+: lossyChars path := by
        obtain ⟨rest, rfl⟩ := hunc
        rw [lossyChars_append, lossyChars_ofChars, verbatim, List.cons_append, List.cons_prefix_cons]
        exact fun h => absurd h.1 (by decide)
      rw [if_pos hunc, externalProcessPath_plain (by rwa [lossyChars_ofChars])]
      refine iff_of_false (fun heq => ?_) fun h => h.2.2.1 hunc
      obtain ⟨rest, rfl⟩ := hunc
      rw [lossyChars_append, lossyChars_ofChars] at heq
      exact absurd (List.cons.inj heq).1 (by decide)
    rw [if_neg hunc, hdrop]
    by_cases hdouble : verbatim <+: lossyChars path
    · have hlt := length_externalProcessPath_lt hdouble
      exact iff_of_false (hshort _ (by omega)) fun h => h.2.2.2 hdouble
    · rw [externalProcessPath_plain (by rwa [lossyChars_ofChars]), ofChars_lossyChars_iff]
      simp [hunc, hdouble]

theorem merge_path_iff {windows : Bool} {path : PathBuf} (hseparator : PathUnit.char ';' ∉ path) :
    externalProcessPath windows (ofChars (plannedChars path)) = withoutVerbatim windows path ↔
      MergeSafe windows path := by
  by_cases hverbatim : verbatim <+: lossyChars path
  · obtain ⟨rest, rfl⟩ := (prefix_lossyChars (by decide)).mp hverbatim
    have hplanned : plannedChars (ofChars verbatim ++ rest) = lossyChars rest := by
      rw [plannedChars, if_pos hverbatim, lossyChars_append, lossyChars_ofChars]
      rfl
    rw [hplanned, merge_verbatim_iff]
    constructor
    · rintro ⟨rfl, hunicode, hunc, hdouble⟩
      exact ⟨isUnicode_append.mpr hunicode, hseparator, ⟨hunc, hdouble⟩⟩
    · rintro ⟨hunicode, _, hplain⟩
      cases windows with
      | false => exact absurd (List.prefix_append _ _) hplain
      | true => exact ⟨rfl, isUnicode_append.mp hunicode, hplain⟩
  · have hunits : ¬ ofChars verbatim <+: path := fun h => hverbatim ((prefix_lossyChars (by decide)).mpr h)
    have hunc : ¬ ofChars verbatimUnc <+: path := fun h => hunits ((List.prefix_append _ _).trans h)
    have hdouble : ¬ ofChars (verbatim ++ verbatim) <+: path := fun h => hunits ((List.prefix_append _ _).trans h)
    have hkept : withoutVerbatim windows path = path := by
      unfold withoutVerbatim
      split_ifs <;> rfl
    rw [plannedChars, if_neg hverbatim, hkept, externalProcessPath_plain (by rwa [lossyChars_ofChars]),
      ofChars_lossyChars_iff]
    constructor
    · intro hunicode
      refine ⟨hunicode, hseparator, ?_⟩
      split_ifs
      · exact ⟨hunc, hdouble⟩
      · exact hunits
    · exact MergeSafe.unicode

/-! ## Merges -/

section Merge

variable {φ : Type} {tools : PlannerTools φ} {probes : List (Probe φ)} {outputPath canonicalPath : PathBuf}
  {qpdf : EngineIdentity} {planId : Uuid} {planned : Planned} {windows : Bool} {secret : Option String}
  {stamp : Option PathBuf}

theorem planPdfMerge_eq_ok (h : planPdfMerge tools probes outputPath qpdf planId = .ok planned) :
    2 ≤ probes.length ∧ ∃ step, planned.plan.steps = [step] ∧ step.arguments.lookup "inputs" =
      some (String.intercalate ";" (probes.map fun probe => qpdfPath probe.artifact.canonicalPath)) := by
  obtain ⟨_, htwo, h⟩ := bind_eq_ok.mp h
  obtain ⟨_, _, h⟩ := bind_eq_ok.mp h
  obtain ⟨_, _, h⟩ := bind_eq_ok.mp h
  obtain ⟨_, _, h⟩ := bind_eq_ok.mp h
  rw [failIf_eq_ok] at htwo
  rw [← Except.ok.inj h]
  refine ⟨by omega, _, rfl, ?_⟩
  show (TextMap.ofList _).lookup "inputs" = _
  rw [TextMap.lookup_ofList]
  rfl

theorem map_ofString_splitText (separator : Char) (text : String) :
    (splitText separator text).map PathBuf.ofString = (text.toList.splitOn separator).map ofChars := by
  rw [splitText, List.map_map]
  refine List.map_congr_left fun piece _ => ?_
  rw [Function.comp_apply, PathBuf.ofString, String.toList_ofList, ofChars]

theorem commandPaths_merge (paths : List PathBuf) :
    commandPaths (mergeCommand windows paths) = paths.map (externalProcessPath windows) := by
  induction paths with
  | nil => rfl
  | cons path paths ih =>
    simp only [commandPaths, mergeCommand, List.flatMap_cons, List.filterMap_append, List.filterMap_cons, List.filterMap_nil,
      List.map_cons] at ih ⊢
    simpa using ih

theorem mergeArguments_eq (windows : Bool) {step : PlanStep} {texts : List String} (htwo : 2 ≤ texts.length)
    (hinputs : step.arguments.lookup "inputs" = some (String.intercalate ";" texts)) :
    ∃ command, mergeArguments windows step = .ok command ∧ commandPaths command =
      (([';'].intercalate (texts.map String.toList)).splitOn ';').map fun piece =>
        externalProcessPath windows (ofChars piece) := by
  have hsemicolon : ";".toList = [';'] := by decide
  have hpaths : (splitText ';' (String.intercalate ";" texts)).map PathBuf.ofString =
      (([';'].intercalate (texts.map String.toList)).splitOn ';').map ofChars := by
    rw [map_ofString_splitText, String.toList_intercalate, hsemicolon]
  have hne : texts.map String.toList ≠ [] := by
    intro hnil
    rw [List.map_eq_nil_iff.mp hnil] at htwo
    exact absurd htwo (by decide)
  have hlen : 2 ≤ ((splitText ';' (String.intercalate ";" texts)).map PathBuf.ofString).length := by
    rw [hpaths, List.length_map, length_splitOn_intercalate hne, List.length_map]
    omega
  have hcommand : mergeArguments windows step =
      .ok (mergeCommand windows ((splitText ';' (String.intercalate ";" texts)).map PathBuf.ofString)) := by
    rw [mergeArguments, bind_eq_ok]
    exact ⟨_, elim_eq_ok.mpr hinputs, bind_eq_ok.mpr ⟨(), failIf_eq_ok.mpr (by omega), rfl⟩⟩
  refine ⟨_, hcommand, ?_⟩
  rw [commandPaths_merge, hpaths, List.map_map]
  rfl

theorem semicolon_plannedChars {path : PathBuf} : ';' ∈ plannedChars path ↔ PathUnit.char ';' ∈ path := by
  have hlossy : ';' ∈ lossyChars path ↔ PathUnit.char ';' ∈ path := by
    rw [lossyChars, List.mem_map]
    constructor
    · rintro ⟨unit, hunit, heq⟩
      cases unit with
      | char c => exact heq ▸ hunit
      | illFormed bytes =>
        have hmark : '\uFFFD' = ';' := heq
        exact absurd hmark (by decide)
    · intro hmem
      exact ⟨_, hmem, rfl⟩
  rw [plannedChars, ← hlossy]
  split_ifs with hverbatim
  · obtain ⟨rest, hrest⟩ := hverbatim
    rw [← hrest, List.mem_append]
    simp [verbatim]
  · rfl

/-- **Merge inputs.** qpdf is handed the canonical paths of the inputs, in order, exactly when each of
them is safe. -/
theorem merge_inputs_iff (hplan : planPdfMerge tools probes outputPath qpdf planId = .ok planned) :
    ∃ step command, planned.plan.steps = [step] ∧
      pdfOpsCommand windows step canonicalPath "pdf-merge" secret stamp = .ok command ∧
      (commandPaths command = probes.map (fun probe => withoutVerbatim windows probe.artifact.canonicalPath) ↔
        ∀ probe ∈ probes, MergeSafe windows probe.artifact.canonicalPath) := by
  obtain ⟨htwo, step, hsteps, hinputs⟩ := planPdfMerge_eq_ok hplan
  obtain ⟨command, hcommand, hpaths⟩ := mergeArguments_eq windows (by rwa [List.length_map]) hinputs
  refine ⟨step, command, hsteps, hcommand, ?_⟩
  have htexts : (probes.map fun probe => qpdfPath probe.artifact.canonicalPath).map String.toList =
      probes.map fun probe => plannedChars probe.artifact.canonicalPath := by
    rw [List.map_map]
    exact List.map_congr_left fun probe _ => toList_qpdfPath _
  rw [hpaths, htexts]
  have hne : (probes.map fun probe => plannedChars probe.artifact.canonicalPath) ≠ [] := by
    intro hnil
    rw [List.map_eq_nil_iff.mp hnil, List.length_nil] at htwo
    omega
  by_cases hfree : ∀ probe ∈ probes, PathUnit.char ';' ∉ probe.artifact.canonicalPath
  · have hpieces : ∀ piece ∈ probes.map (fun probe => plannedChars probe.artifact.canonicalPath), ';' ∉ piece := by
      simp only [List.forall_mem_map, semicolon_plannedChars]
      exact hfree
    rw [List.splitOn_intercalate ';' hpieces hne, List.map_map, List.map_inj_left]
    exact forall₂_congr fun probe hprobe => merge_path_iff (hfree probe hprobe)
  · refine iff_of_false (fun heq => hfree ?_) fun hsafe => hfree fun probe hprobe => (hsafe probe hprobe).separator
    have hlen := congrArg List.length heq
    rw [List.length_map, List.length_map] at hlen
    have hcount := (splitOn_intercalate_iff hne).mp (hlen.trans (List.length_map _).symm)
    simpa only [List.forall_mem_map, semicolon_plannedChars] using hcount

end Merge

namespace Sample

def tools : PlannerTools Unit := ⟨fun _ => "00", fun _ => "00", fun _ _ => .ok 0, fun text => text⟩

def qpdf : EngineIdentity where
  engineId := "qpdf"
  version := "12.0"
  binaryPath := PathBuf.ofString "/usr/bin/qpdf"
  binarySha256 := "00"
  manifestSha256 := none
  buildConfiguration := none
  certification := .certified

/-- A PDF of one page. -/
def pdf (path : PathBuf) : Probe Unit where
  artifact := ⟨"in", path, 1000, "fast:11"⟩
  format := ⟨"pdf", .pdf⟩
  streams := [⟨.page, none, none, none⟩]

/-- A file name with a semicolon. -/
def separated : PathBuf := PathBuf.ofString "/a;b.pdf"

theorem merge_inputs_two : ∃ planned,
    planPdfMerge tools [pdf (PathBuf.ofString "/a.pdf"), pdf separated] [] qpdf 1 = .ok planned ∧
    ∃ step command, planned.plan.steps = [step] ∧
      pdfOpsCommand false step [] "pdf-merge" none none = .ok command ∧
      (commandPaths command = [pdf (PathBuf.ofString "/a.pdf"), pdf separated].map (fun probe =>
          withoutVerbatim false probe.artifact.canonicalPath) ↔
        ∀ probe ∈ [pdf (PathBuf.ofString "/a.pdf"), pdf separated],
          MergeSafe false probe.artifact.canonicalPath) := by
  obtain ⟨planned, hplan⟩ : ∃ planned,
      planPdfMerge tools [pdf (PathBuf.ofString "/a.pdf"), pdf separated] [] qpdf 1 = .ok planned := ⟨_, rfl⟩
  exact ⟨planned, hplan, merge_inputs_iff hplan⟩

/-- The path with a semicolon reaches qpdf as two paths. -/
theorem merge_splits_path : ∃ planned step command,
    planPdfMerge tools [pdf (PathBuf.ofString "/a.pdf"), pdf separated] [] qpdf 1 = .ok planned ∧
    planned.plan.steps = [step] ∧ pdfOpsCommand false step [] "pdf-merge" none none = .ok command ∧
    commandPaths command = [PathBuf.ofString "/a.pdf", PathBuf.ofString "/a", PathBuf.ofString "b.pdf"] :=
  ⟨_, _, _, rfl, rfl, rfl, by decide⟩

end Sample

end Anole.Planning
