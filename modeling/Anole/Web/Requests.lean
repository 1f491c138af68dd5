import Anole.Common.LexicalPath
import Anole.Common.Split
import Anole.Folder.Walk
import Anole.Planning.PlanJson
import Anole.Web.Service

/-!
# The requests of web clients

Model of how the web server makes the request of a plan from what a client sends
(`crates/server/src/web.rs`): `sanitize_file_name`, `file_extension` and `normalize_target` (lines
350–379), `request_fields`, `plan_request_from_value` and `planned_output_path` (lines 687–754), and
their callers `upload_plan` (lines 549–582), `create_job` (lines 589–685) and `run_conversion` (lines
817–845).

"A client cannot redirect conversions at arbitrary server paths" (lines 688–689), for the fields that
are paths are removed. But the target format, of which only the dots at its start and the case are
changed, becomes the end of the path of the output, and may have separators and `..` in it.

* `requests_confined`: when the output is a child of the directory of the job; and the upload is the
  only input.
-/

open Common

namespace Anole.Web

open Anole.Common (TextMap PathPart)
open Anole.Folder (Name AbsPath fileStem extension)
open Anole.Planning (PlanRequest normalizedTarget toStr? eq_ofString_of_toStr? toStr?_ofString readPath planRequestOf)

/-! ## File names and targets -/

def isSlash (c : Char) : Bool := c = '/' || c = '\\'

/-- `str::trim_matches('.')`. -/
def trimDots (text : List Char) : List Char := ((text.dropWhile (· = '.')).reverse.dropWhile (· = '.')).reverse

/-- `sanitize_file_name`, with `char::is_alphanumeric`. -/
def sanitizeFileName (isAlphanumeric : Char → Bool) (raw : String) : String :=
  let base := (raw.toList.splitOnP isSlash).getLastD []
  let cleaned := base.filter fun c => isAlphanumeric c || c = '.' || c = '-' || c = '_'
  let trimmed := trimDots cleaned
  if trimmed = [] then "upload" else String.ofList (trimmed.take 120)

/-- `file_extension`. -/
def fileExtension (name : String) : Option String :=
  ((extension (PathBuf.ofString name)).bind toStr?).map toAsciiLowercase

/-- `normalize_target`. -/
def normalizeTarget (target : String) : String :=
  match normalizedTarget target with
  | "jpeg" => "jpg"
  | "yml" => "yaml"
  | other => other

/-- `SINGLE_FILE_BITMAP_INPUTS` (lines 72–75). -/
def singleFileBitmapInputs : List String :=
  ["heic", "heif", "psd", "dng", "cr2", "cr3", "arw", "nef", "orf", "rw2", "pef", "raf", "tiff", "tif", "bmp"]

/-- `Path::new(name).file_stem().and_then(to_str).unwrap_or("upload")`. -/
def stemOf (name : String) : String := (toStr? (fileStem (PathBuf.ofString name))).getD "upload"

/-- The last name of `planned_output_path`. -/
def plannedName (fileName target : String) : String :=
  let directoryOutput := ["jpg", "png"].contains target &&
    !singleFileBitmapInputs.contains ((fileExtension fileName).getD "")
  if directoryOutput then stemOf fileName ++ ".converted-" ++ target ++ "-pages"
  else stemOf fileName ++ ".converted." ++ target

/-- `planned_output_path`. -/
def plannedOutputPath (system : Folder.System) (jobRoot : AbsPath) (fileName target : String) : PathBuf :=
  system.render jobRoot ++ system.separator :: PathBuf.ofString (plannedName fileName target)

/-! ## Fields -/

/-- How a request of a client ends without a request for a plan: an error, or a panic of `json!` on a
    path that is not Unicode. -/
inductive WebError where
  | refused (error : AnoleError)
  | panicked
  deriving DecidableEq

/-- `invalid_input` (lines 319–327). -/
def invalidInput (message action : String) : WebError := .refused (.new .inputInvalid .inspect message action)

/-- `RESERVED`. -/
def reserved : List String := ["input_path", "inputPath", "output_path", "outputPath", "inputs"]

/-- `request_fields`. -/
def requestFields : Document → Except WebError (TextMap Document)
  | .object entries => .ok (TextMap.ofList (entries.filter fun entry => !reserved.contains entry.1))
  | _ => .error (invalidInput "request body must be a JSON object"
      "Send a JSON object with upload_id and target_format.")

/-- `fields.get(key).and_then(Value::as_str).unwrap_or_default()`. -/
def textField (fields : TextMap Document) (key : String) : String := ((fields.lookup key).bind readString).getD ""

/-- `PlanRequest::default()` as JSON. -/
def defaultRequest : TextMap Document := TextMap.ofList [
  ("target_format", .string ""), ("output_path", .null), ("preserve_all_streams", .bool false),
  ("audio_stream_index", .null), ("start_millis", .null), ("duration_millis", .null), ("width", .null),
  ("quality", .null), ("dpi", .null), ("color_mode", .null), ("frames_per_second", .null), ("loop_count", .null),
  ("video_crf", .null), ("video_preset", .null), ("audio_bitrate_kbps", .null), ("operation", .null),
  ("inputs", .array []), ("page_range", .null), ("allow_lossy_data", .bool false), ("rotate_angle", .null),
  ("password", .null), ("ocr_language", .null), ("watermark_text", .null), ("watermark_angle", .null),
  ("target_size_bytes", .null), ("metadata_title", .null), ("metadata_author", .null)]

/-- The fields of the client over the defaults, and the target and the output over both. -/
def mergedFields (fields : TextMap Document) (target output : String) : TextMap Document :=
  let merged := fields.foldl (fun base entry => base.insert entry.1 entry.2) defaultRequest
  (merged.insert "target_format" (.string target)).insert "output_path" (.string output)

/-- `plan_request_from_value`, with what `serde_json` says of fields that it does not take. -/
def planRequestFromValue (refusal : TextMap Document → String) (fields : TextMap Document) (target : String)
    (output : PathBuf) : Except WebError PlanRequest :=
  match toStr? output with
  | none => .error .panicked
  | some output =>
    let merged := mergedFields fields target output
    match planRequestOf merged with
    | some request => .ok request
    | none => .error (invalidInput ("invalid PlanRequest fields: " ++ refusal merged)
        "Fix the request body fields and retry.")

/-! ## Requests -/

/-- The server: its system, the directory of the jobs, and the texts of `serde_json`. -/
structure WebServer where
  system : Folder.System
  jobsDir : AbsPath
  refusal : TextMap Document → String

/-- The upload of a request. -/
def requestedUpload (fields : TextMap Document) : Except WebError String :=
  let uploadId := textField fields "upload_id"
  if uploadId = "" then
    .error (invalidInput "upload_id is required" "Upload a file first, then submit the conversion.")
  else .ok uploadId

/-- The target of a request. -/
def requestedTarget (fields : TextMap Document) : Except WebError String :=
  let target := normalizeTarget (textField fields "target_format")
  if target = "" then .error (invalidInput "target_format is required" "Choose a target format.") else .ok target

/-- The directory of previews. -/
def WebServer.previewRoot (server : WebServer) : AbsPath := server.jobsDir.join (PathBuf.ofString "preview")

/-- The directory of a job. -/
def WebServer.jobRoot (server : WebServer) (jobId : Uuid) : AbsPath :=
  server.jobsDir.join (PathBuf.ofString jobId.toText)

/-- The request that `upload_plan` hands to the planner. -/
def WebServer.uploadPlan (server : WebServer) (fileName : String) (body : Document) : Except WebError PlanRequest := do
  let fields ← requestFields body
  let target ← requestedTarget fields
  let output := plannedOutputPath server.system server.previewRoot fileName target
  planRequestFromValue server.refusal fields target output

/-- The request that `run_conversion` hands to the planner for a job of `create_job`. -/
def WebServer.runConversion (server : WebServer) (jobId : Uuid) (fileName : String) (body : Document) :
    Except WebError PlanRequest := do
  let fields ← requestFields body
  let _uploadId ← requestedUpload fields
  let target ← requestedTarget fields
  let output := plannedOutputPath server.system (server.jobRoot jobId) fileName target
  let request ← planRequestFromValue server.refusal fields target output
  pure { request with outputPath := some output }

/-- The inputs that `prepare_conversion` inspects (`workflow.rs`, lines 28–34 and 380–387). -/
def planInputs (input : PathBuf) (request : PlanRequest) : List PathBuf :=
  match request.operation with
  | some "pdf-merge" => input :: request.inputs
  | _ => [input]

/-! ## Paths by their parts -/

/-- A separator of the system. -/
def isSeparator (system : Folder.System) (unit : PathUnit) : Bool :=
  unit = .char '/' || (system.windows && unit = .char '\\')

def partOf (name : Name) : PathPart Name :=
  if name = PathBuf.ofString "." then .here
  else if name = PathBuf.ofString ".." then .parent
  else .name name

/-- The parts between separators. -/
def partsIn (pieces : List Name) : List (PathPart Name) := (pieces.filter (· ≠ [])).map partOf

def partsOf (system : Folder.System) (path : PathBuf) : List (PathPart Name) :=
  partsIn (path.splitOnP (isSeparator system))

/-- The parts of a target after its first separator. -/
def targetParts (system : Folder.System) (target : String) : List (PathPart Name) :=
  partsIn ((PathBuf.ofString target).splitOnP (isSeparator system)).tail

/-- The output, normalized, is a child of the directory. -/
def DirectChild (system : Folder.System) (root : AbsPath) (output : Option PathBuf) : Prop :=
  ∃ rest child, output = some (system.render root ++ system.separator :: rest) ∧
    PathPart.resolve root.components (partsOf system rest) = root.components ++ [child]

/-- No unit is a separator of any system. -/
def SlashFree (name : Name) : Prop := .char '/' ∉ name ∧ .char '\\' ∉ name

instance (name : Name) : Decidable (SlashFree name) := inferInstanceAs (Decidable (_ ∧ _))

section Parts

variable {system : Folder.System} {front name : Name}

theorem SlashFree.isSeparator (h : SlashFree name) {unit : PathUnit} (hunit : unit ∈ name) :
    isSeparator system unit = false := by
  have hslash : unit ≠ .char '/' := fun heq => h.1 (heq ▸ hunit)
  have hback : unit ≠ .char '\\' := fun heq => h.2 (heq ▸ hunit)
  simp [Web.isSeparator, hslash, hback]

theorem SlashFree.append (h : SlashFree front) (h' : SlashFree name) : SlashFree (front ++ name) :=
  ⟨by simp [h.1, h'.1], by simp [h.2, h'.2]⟩

/-- A name of more than two units before the first separator. -/
theorem partsOf_append (system : Folder.System) (h : SlashFree front) (hlength : 2 < front.length) (rest : Name) :
    ∃ first, partsOf system (front ++ rest) =
      .name first :: partsIn (rest.splitOnP (isSeparator system)).tail := by
  obtain ⟨piece, pieces, hpieces⟩ := List.exists_cons_of_ne_nil (List.splitOnP_ne_nil (isSeparator system) rest)
  have hlong : 2 < (front ++ piece).length := by
    rw [List.length_append]
    omega
  have hne : ∀ name : Name, name.length ≤ 2 → front ++ piece ≠ name := by
    intro name hname heq
    rw [heq] at hlong
    omega
  have hkept : ((front ++ piece) :: pieces).filter (· ≠ []) = (front ++ piece) :: pieces.filter (· ≠ []) :=
    List.filter_cons_of_pos (decide_eq_true (hne [] (by decide)))
  have hname : partOf (front ++ piece) = .name (front ++ piece) := by
    rw [partOf, if_neg (hne _ (by decide)), if_neg (hne _ (by decide))]
  refine ⟨front ++ piece, ?_⟩
  rw [partsOf, Common.splitOnP_append (fun unit => h.isSeparator), hpieces, List.modifyHead_cons, List.tail_cons, partsIn,
    hkept, List.map_cons, hname, partsIn]

/-- Names without separators have no further parts. -/
theorem SlashFree.tail_eq_nil (h : SlashFree name) : (name.splitOnP (Web.isSeparator system)).tail = [] := by
  have hseparator : ∀ unit ∈ name, Web.isSeparator system unit = false := fun unit => h.isSeparator
  have hsplit := Common.splitOnP_append hseparator ([] : Name)
  rw [List.append_nil] at hsplit
  rw [hsplit]
  rfl

end Parts

/-! ## Stems and extensions -/

section Names

variable {name : String} {before after : List Char}

theorem stemOf_of_fileStem {stem : String} (h : fileStem (PathBuf.ofString name) = PathBuf.ofString stem) :
    stemOf name = stem := by
  rw [stemOf, h, toStr?_ofString, Option.getD_some]

/-- A name is cut at its last dot, if that is not its first character. -/
theorem names_of_dot (hname : name.toList = before ++ '.' :: after) (hbefore : before ≠ []) (hafter : '.' ∉ after) :
    stemOf name = String.ofList before ∧
      fileExtension name = some (toAsciiLowercase (String.ofList after)) := by
  have hpath : PathBuf.ofString name = before.map PathUnit.char ++ .char '.' :: after.map PathUnit.char := by
    rw [PathBuf.ofString, hname, List.map_append, List.map_cons]
  have hdot : PathUnit.char '.' ∉ after.map PathUnit.char := by
    rintro hmem
    obtain ⟨c, hc, heq⟩ := List.mem_map.mp hmem
    exact hafter (PathUnit.char.inj heq ▸ hc)
  have hsplit : Folder.splitLastDot (PathBuf.ofString name) =
      some (before.map PathUnit.char, after.map PathUnit.char) := by
    rw [hpath, Folder.splitLastDot_append _ hdot]
  have hne : before.map PathUnit.char ≠ [] := fun heq => hbefore (List.map_eq_nil_iff.mp heq)
  have htext : ∀ chars : List Char, chars.map PathUnit.char = PathBuf.ofString (String.ofList chars) := by
    intro chars
    rw [PathBuf.ofString, String.toList_ofList]
  rw [htext, htext] at hsplit
  rw [htext] at hne
  constructor
  · apply stemOf_of_fileStem
    rw [fileStem, hsplit]
    exact if_neg hne
  · rw [fileExtension, extension, hsplit]
    simp only [if_neg hne, Option.bind_some, toStr?_ofString, Option.map_some]

theorem names_of_no_dot (h : '.' ∉ name.toList.tail) : stemOf name = name ∧ fileExtension name = none := by
  have hcases : Folder.splitLastDot (PathBuf.ofString name) = none ∨
      ∃ rest, Folder.splitLastDot (PathBuf.ofString name) = some ([], rest) := by
    cases hname : name.toList with
    | nil =>
      left
      rw [PathBuf.ofString, hname]
      rfl
    | cons c text =>
      rw [hname, List.tail_cons] at h
      have htext : PathUnit.char '.' ∉ text.map PathUnit.char := by
        rintro hmem
        obtain ⟨d, hd, heq⟩ := List.mem_map.mp hmem
        exact h (PathUnit.char.inj heq ▸ hd)
      rw [PathBuf.ofString, hname, List.map_cons]
      by_cases hc : c = '.'
      · right
        rw [hc]
        exact ⟨_, Folder.splitLastDot_append [] htext⟩
      · left
        rw [Folder.splitLastDot, if_neg]
        rw [List.mem_cons, not_or]
        exact ⟨fun heq => hc (PathUnit.char.inj heq).symm, htext⟩
  constructor
  · apply stemOf_of_fileStem
    obtain hnone | ⟨rest, hsome⟩ := hcases
    · rw [fileStem, hnone]
    · rw [fileStem, hsome]
      exact if_pos rfl
  · obtain hnone | ⟨rest, hsome⟩ := hcases
    · rw [fileExtension, extension, hnone]
      rfl
    · rw [fileExtension, extension, hsome]
      rfl

end Names

/-! ## Sanitized names -/

theorem mem_of_mem_trimDots {text : List Char} {c : Char} (h : c ∈ trimDots text) : c ∈ text := by
  rw [trimDots, List.mem_reverse] at h
  exact List.dropWhile_subset _ (List.mem_reverse.mp (List.dropWhile_subset _ h))

theorem slashFree_ofString {text : String} (h : ∀ c ∈ text.toList, isSlash c = false) :
    SlashFree (PathBuf.ofString text) := by
  have hnot : ∀ c, isSlash c = true → PathUnit.char c ∉ PathBuf.ofString text := by
    intro c hc hmem
    obtain ⟨d, hd, heq⟩ := List.mem_map.mp hmem
    cases heq
    rw [h c hd] at hc
    cases hc
  exact ⟨hnot '/' rfl, hnot '\\' rfl⟩

theorem isSlash_of_mem_sanitizeFileName {isAlphanumeric : Char → Bool} {raw : String} {c : Char}
    (h : c ∈ (sanitizeFileName isAlphanumeric raw).toList) : isSlash c = false := by
  rw [sanitizeFileName] at h
  split at h
  · have hall : "upload".toList.all (fun c => !isSlash c) = true := by decide
    simpa using List.all_eq_true.mp hall c h
  · rw [String.toList_ofList] at h
    have hcleaned := mem_of_mem_trimDots (List.mem_of_mem_take h)
    have hbase := List.mem_of_mem_filter hcleaned
    rw [List.getLastD_eq_getLast?] at hbase
    cases hlast : (raw.toList.splitOnP isSlash).getLast? with
    | none =>
      rw [hlast] at hbase
      cases hbase
    | some piece =>
      rw [hlast] at hbase
      exact Common.not_of_mem_splitOnP (List.mem_of_getLast? hlast) hbase

theorem slashFree_sanitizeFileName (isAlphanumeric : Char → Bool) (raw : String) :
    SlashFree (PathBuf.ofString (sanitizeFileName isAlphanumeric raw)) :=
  slashFree_ofString fun _ => isSlash_of_mem_sanitizeFileName

theorem mem_of_mem_fileStem {name : Name} {unit : PathUnit} (h : unit ∈ fileStem name) : unit ∈ name :=
  (Folder.fileStem_prefix name).subset h

theorem slashFree_stemOf {name : String} (h : SlashFree (PathBuf.ofString name)) :
    SlashFree (PathBuf.ofString (stemOf name)) := by
  rw [stemOf]
  cases hstem : toStr? (fileStem (PathBuf.ofString name)) with
  | none => decide
  | some stem =>
    rw [Option.getD_some, ← eq_ofString_of_toStr? hstem]
    exact ⟨fun hslash => h.1 (mem_of_mem_fileStem hslash), fun hslash => h.2 (mem_of_mem_fileStem hslash)⟩

/-- A text after a mark that keeps its first piece from being `.` or `..`. -/
theorem partsOf_marked (system : Folder.System) (mark : String) {stem : String}
    (hstem : SlashFree (PathBuf.ofString stem)) (hmark : SlashFree (PathBuf.ofString mark))
    (hlength : 2 < (PathBuf.ofString mark).length) (rest : String) :
    ∃ first, partsOf system (PathBuf.ofString (stem ++ mark ++ rest)) = .name first :: targetParts system rest := by
  have hfront : 2 < (PathBuf.ofString stem ++ PathBuf.ofString mark).length := by
    rw [List.length_append]
    omega
  rw [PathBuf.ofString_append, PathBuf.ofString_append]
  exact partsOf_append system (hstem.append hmark) hfront _

theorem targetParts_eq_nil (system : Folder.System) {target : String} (h : SlashFree (PathBuf.ofString target)) :
    targetParts system target = [] := by
  rw [targetParts, h.tail_eq_nil]
  rfl

/-- **The parts of the planned name** are a name and the further parts of the target. -/
theorem partsOf_plannedName (system : Folder.System) {fileName : String} (h : SlashFree (PathBuf.ofString fileName))
    (target : String) : ∃ first, partsOf system (PathBuf.ofString (plannedName fileName target)) =
      .name first :: targetParts system target := by
  have hstem := slashFree_stemOf h
  rw [plannedName]
  by_cases hdirectory : (["jpg", "png"].contains target &&
      !singleFileBitmapInputs.contains ((fileExtension fileName).getD "")) = true
  · -- there are no separators in `jpg` and `png`
    have hfree : SlashFree (PathBuf.ofString target) ∧ SlashFree (PathBuf.ofString (target ++ "-pages")) := by
      have htarget : target = "jpg" ∨ target = "png" := by simpa using (Bool.and_eq_true_iff.mp hdirectory).1
      rcases htarget with rfl | rfl <;> decide
    obtain ⟨first, hfirst⟩ := partsOf_marked system ".converted-" hstem (by decide) (by decide) (target ++ "-pages")
    refine ⟨first, ?_⟩
    rw [targetParts_eq_nil system hfree.2, ← String.append_assoc] at hfirst
    rw [targetParts_eq_nil system hfree.1]
    simpa only [hdirectory, if_true] using hfirst
  · simp only [hdirectory, Bool.false_eq_true, if_false]
    exact partsOf_marked system ".converted." hstem (by decide) (by decide) target

/-! ## Requests -/

theorem planRequestOf_eq_some {fields : TextMap Document} {request : PlanRequest}
    (h : planRequestOf fields = some request) :
    optionalField readPath fields "output_path" = some request.outputPath ∧
      defaultedField (readArray readPath) fields "inputs" [] = some request.inputs := by
  obtain ⟨_, -, h⟩ := Option.bind_eq_some_iff.mp h
  obtain ⟨outputPath, houtput, h⟩ := Option.bind_eq_some_iff.mp h
  iterate 14 obtain ⟨_, -, h⟩ := Option.bind_eq_some_iff.mp h
  obtain ⟨inputs, hinputs, h⟩ := Option.bind_eq_some_iff.mp h
  iterate 10 obtain ⟨_, -, h⟩ := Option.bind_eq_some_iff.mp h
  cases h
  exact ⟨houtput, hinputs⟩

/-- Fields that are not there change nothing. -/
theorem lookup_merge {fields base : TextMap Document} {key : String} (h : fields.lookup key = none) :
    (fields.foldl (fun base entry => base.insert entry.1 entry.2) base).lookup key = base.lookup key := by
  induction fields generalizing base with
  | nil => rfl
  | cons entry fields ih =>
    have hne : key ≠ entry.1 := by simpa using List.lookup_eq_none_iff.mp h entry List.mem_cons_self
    have hrest : fields.lookup key = none := by
      rwa [List.lookup_cons, beq_false_of_ne hne] at h
    rw [List.foldl_cons, ih hrest, TextMap.lookup_insert_of_ne hne]

theorem lookup_requestFields {body : Document} {fields : TextMap Document} (h : requestFields body = .ok fields)
    {key : String} (hkey : reserved.contains key = true) : fields.lookup key = none := by
  cases body with
  | object entries =>
    cases h
    rw [TextMap.lookup_ofList, List.lookup_eq_none_iff]
    intro entry hentry
    have hkept := (List.mem_filter.mp (List.mem_reverse.mp hentry)).2
    have hne : key ≠ entry.1 := by
      rintro rfl
      rw [hkey] at hkept
      cases hkept
    simpa using hne
  | null | bool | number | string | array => cases h

/-- **A request** has the output of the server, and no inputs of the client. -/
theorem planRequestFromValue_eq_ok {refusal : TextMap Document → String} {body : Document} {fields : TextMap Document}
    {target : String} {output : PathBuf} {request : PlanRequest} (hfields : requestFields body = .ok fields)
    (h : planRequestFromValue refusal fields target output = .ok request) :
    request.outputPath = some output ∧ request.inputs = [] := by
  rw [planRequestFromValue] at h
  cases htext : toStr? output with
  | none =>
    rw [htext] at h
    cases h
  | some text =>
    rw [htext] at h
    dsimp only at h
    cases hrequest : planRequestOf (mergedFields fields target text) with
    | none =>
      rw [hrequest] at h
      cases h
    | some built =>
      rw [hrequest] at h
      cases h
      obtain ⟨houtput, hinputs⟩ := planRequestOf_eq_some hrequest
      have hpath : (mergedFields fields target text).lookup "output_path" = some (.string text) :=
        TextMap.lookup_insert
      have hdefault : (mergedFields fields target text).lookup "inputs" = some (.array []) := by
        rw [mergedFields, TextMap.lookup_insert_of_ne (by decide), TextMap.lookup_insert_of_ne (by decide),
          lookup_merge (lookup_requestFields hfields (by decide)), defaultRequest, TextMap.lookup_ofList]
        rfl
      rw [optionalField, hpath] at houtput
      rw [defaultedField, hdefault] at hinputs
      rw [eq_ofString_of_toStr? htext]
      exact ⟨(Option.some.inj houtput).symm, (Option.some.inj hinputs).symm⟩

/-- The request that the server hands to the planner for a file name and what a client sends, and the
    directory that it is for. -/
def WebServer.Hands (server : WebServer) (fileName : String) (body : Document) (root : AbsPath)
    (request : PlanRequest) : Prop :=
  (server.uploadPlan fileName body = .ok request ∧ root = server.previewRoot) ∨
    ∃ jobId, server.runConversion jobId fileName body = .ok request ∧ root = server.jobRoot jobId

/-- A request is made from the fields and the target of what the client sends. -/
theorem WebServer.Hands.request {server : WebServer} {fileName : String} {body : Document} {root : AbsPath}
    {request : PlanRequest} (h : server.Hands fileName body root request) : ∃ fields target,
      requestFields body = .ok fields ∧ requestedTarget fields = .ok target ∧
        request.outputPath = some (plannedOutputPath server.system root fileName target) ∧ request.inputs = [] := by
  rcases h with ⟨h, rfl⟩ | ⟨jobId, h, rfl⟩
  · obtain ⟨fields, hfields, h⟩ := bind_eq_ok.mp h
    obtain ⟨target, htarget, h⟩ := bind_eq_ok.mp h
    exact ⟨fields, target, hfields, htarget, planRequestFromValue_eq_ok hfields h⟩
  · obtain ⟨fields, hfields, h⟩ := bind_eq_ok.mp h
    obtain ⟨_, -, h⟩ := bind_eq_ok.mp h
    obtain ⟨target, htarget, h⟩ := bind_eq_ok.mp h
    obtain ⟨built, hbuilt, h⟩ := bind_eq_ok.mp h
    cases h
    exact ⟨fields, target, hfields, htarget, rfl, (planRequestFromValue_eq_ok hfields hbuilt).2⟩

theorem directChild_iff {system : Folder.System} {root : AbsPath} {fileName target : String}
    (h : SlashFree (PathBuf.ofString fileName)) :
    DirectChild system root (some (plannedOutputPath system root fileName target)) ↔
      PathPart.Returns root.components (targetParts system target) := by
  obtain ⟨first, hparts⟩ := partsOf_plannedName system h target
  rw [← PathPart.resolve_child_iff root.components first, ← hparts]
  constructor
  · rintro ⟨rest, child, hrest, hchild⟩
    have hsame : rest = PathBuf.ofString (plannedName fileName target) := by
      have hpaths := Option.some.inj hrest
      rw [plannedOutputPath, List.append_cancel_left_eq] at hpaths
      exact (List.cons.inj hpaths).2.symm
    exact ⟨child, hsame ▸ hchild⟩
  · rintro ⟨child, hchild⟩
    exact ⟨_, child, rfl, hchild⟩

/-- **For every file name and every body**, the output of the request that is handed to the planner is
    a child of the directory of the job exactly when the parts of the target after its first separator
    lead back into it; and the upload is the only input. -/
theorem requests_confined (server : WebServer) (isAlphanumeric : Char → Bool) (rawName : String) (body : Document)
    (stored : PathBuf) {root : AbsPath} {request : PlanRequest} {target : String}
    (htarget : (requestFields body >>= requestedTarget) = .ok target)
    (h : server.Hands (sanitizeFileName isAlphanumeric rawName) body root request) :
    (DirectChild server.system root request.outputPath ↔
        PathPart.Returns root.components (targetParts server.system target)) ∧
      planInputs stored request = [stored] := by
  obtain ⟨fields, target', hfields, htarget', houtput, hinputs⟩ := h.request
  have hsame : target' = target := by
    obtain ⟨fields', hfields', hrequested⟩ := bind_eq_ok.mp htarget
    have heq : fields = fields' := Except.ok.inj (hfields.symm.trans hfields')
    rw [heq, hrequested] at htarget'
    exact (Except.ok.inj htarget').symm
  constructor
  · rw [houtput, hsame]
    exact directChild_iff (slashFree_sanitizeFileName isAlphanumeric rawName)
  · rw [planInputs, hinputs]
    split <;> rfl

/-! ## A target with separators -/

namespace RequestsSample

def server : WebServer where
  system := ⟨false, fun _ => .error "", fun _ => true⟩
  jobsDir := ⟨.posix, [PathBuf.ofString "srv", PathBuf.ofString "web", PathBuf.ofString "jobs"]⟩
  refusal _ := ""

/-- The compression of an upload, to a format. -/
def body (target : String) : Document := .object [("upload_id", .string "1"), ("target_format", .string target),
  ("operation", .string "pdf-compress"), ("inputs", .array [.string "/etc/passwd"])]

def fileName : String := sanitizeFileName Char.isAlphanum "../report.pdf"

theorem hands_of_output (target : String) (output : PathBuf)
    (h : ((server.uploadPlan fileName (body target)).toOption.map (·.outputPath)) = some (some output)) :
    ∃ request, server.Hands fileName (body target) server.previewRoot request ∧ request.outputPath = some output := by
  obtain ⟨request, hrequest, houtput⟩ := Option.map_eq_some_iff.mp h
  cases hplan : server.uploadPlan fileName (body target) with
  | error error =>
    rw [hplan] at hrequest
    cases hrequest
  | ok built =>
    rw [hplan] at hrequest
    cases hrequest
    exact ⟨request, .inl ⟨hplan, rfl⟩, houtput⟩

/-- **The output leaves the directory** of the previews, and that of the jobs. -/
theorem output_escapes : ∃ request,
    server.Hands fileName (body "pdf/../../../uploads/1.pdf") server.previewRoot request ∧
      ¬ DirectChild server.system server.previewRoot request.outputPath := by
  obtain ⟨request, hands, houtput⟩ := hands_of_output "pdf/../../../uploads/1.pdf"
    (PathBuf.ofString "/srv/web/jobs/preview/report.converted.pdf/../../../uploads/1.pdf") (by decide)
  refine ⟨request, hands, fun hchild => ?_⟩
  have hplanned : PathBuf.ofString "/srv/web/jobs/preview/report.converted.pdf/../../../uploads/1.pdf" =
      plannedOutputPath server.system server.previewRoot fileName "pdf/../../../uploads/1.pdf" := by decide
  rw [houtput, hplanned, directChild_iff (by decide)] at hchild
  obtain ⟨last, hlast⟩ := hchild
  have hlength := congrArg List.length hlast
  rw [List.length_append, List.length_singleton] at hlength
  exact absurd hlength (by decide)

/-- The output of a target without separators does not, and the inputs of the client are not taken. -/
theorem requests_confined_pdf : ∃ request, server.Hands fileName (body "pdf") server.previewRoot request ∧
    DirectChild server.system server.previewRoot request.outputPath ∧
    planInputs (PathBuf.ofString "/srv/web/uploads/1.pdf") request = [PathBuf.ofString "/srv/web/uploads/1.pdf"] := by
  obtain ⟨request, hands, -⟩ := hands_of_output "pdf"
    (PathBuf.ofString "/srv/web/jobs/preview/report.converted.pdf") (by decide)
  have htarget : (requestFields (body "pdf") >>= requestedTarget) = .ok "pdf" := by decide
  obtain ⟨hchild, hinputs⟩ := requests_confined server Char.isAlphanum "../report.pdf" (body "pdf")
    (PathBuf.ofString "/srv/web/uploads/1.pdf") htarget hands
  refine ⟨request, hands, hchild.mpr ?_, hinputs⟩
  have hparts : targetParts server.system "pdf" = [] := by decide
  rw [hparts]
  exact PathPart.returns_nil _

end RequestsSample

end Anole.Web
