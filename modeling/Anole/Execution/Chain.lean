import Anole.Execution.Commit
import Anole.Execution.Conversion
import Anole.Folder.Collisions

/-!
# Conversion chains

Model of `execute_conversion_chain` (`crates/core/src/chain.rs`, lines 294–422) and of the staging
paths of a job (`runner.rs`, lines 117–124 and 4690–4748, `mbox.rs`, line 663). A chain runs one
segment for each hop, and every segment is a whole execution. The outputs of the inner segments go
to `.fw-chain-{job_id}` beside the final output, which is removed at the end.

Each segment runs under `Uuid::new_v4()`, not under the job's identifier, against the comments on
`chain_staging_dir` (crash recovery finds every staging path through `staged_output_candidates`)
and of the runner (a report is persisted under the executing job's id).

* `runChainSegments_ok`: the report of a chain carries the identifier of its last segment.
* `chain_unrecoverable`: a chain that succeeds never reports under its job, and what the last
  segment stages beside the output is not found by the job's identifier.

What preparing a segment gives and what the environment does during its execution are parameters.
-/

open Common

namespace Anole.Chain

open Anole.Folder (AbsPath Name System)
open Anole.Planning (PlanRequest toStr? toStr?_ofString eq_ofString_of_toStr?)

/-! ## Staging paths -/

/-- `Path::parent`. -/
def parent? (path : AbsPath) : Option AbsPath :=
  if path.components = [] then none else some { path with components := path.components.dropLast }

/-- `Path::file_name`. -/
def fileName? (path : AbsPath) : Option Name := path.components.getLast?

/-- `Path::with_file_name` of a path with a last component. -/
def withFileName (path : AbsPath) (name : Name) : AbsPath :=
  { path with components := path.components.dropLast ++ [name] }

def partialName (jobId : Uuid) (fileName : String) : Name :=
  PathBuf.ofString (".anole-partial-" ++ jobId.toText ++ "-" ++ fileName)

/-- The first 12 of the 32 digits of an identifier. -/
def officeWorkName (jobId : Uuid) : Name :=
  PathBuf.ofString (".fw-" ++ String.ofList ((hexDigits 32 jobId.toNat).take 12))

def chainStagingName (jobId : Uuid) : Name := PathBuf.ofString (".fw-chain-" ++ jobId.toText)

def mboxStagingName (jobId : Uuid) : Name := PathBuf.ofString (".fw-mbox-" ++ jobId.toText)

/-- `staged_output_path` (lines 4690–4703). -/
def stagedOutputPath (output : AbsPath) (jobId : Uuid) : Except AnoleError AbsPath :=
  match (fileName? output).bind toStr? with
  | none => .error (.new .inputInvalid .plan "Output filename is not valid Unicode"
      "Choose a Unicode output filename.")
  | some fileName => .ok (withFileName output (partialName jobId fileName))

/-- `office_staged_work_path` (lines 4738–4748). -/
def officeStagedWorkPath (output : AbsPath) (jobId : Uuid) : Except AnoleError AbsPath :=
  match parent? output with
  | none => .error (.new .inputInvalid .plan "Office output path has no parent directory"
      "Choose a complete output path.")
  | some parent => .ok (parent.join (officeWorkName jobId))

/-- `staged_output_candidates` (lines 4726–4736). -/
def stagedOutputCandidates (output : AbsPath) (jobId : Uuid) : Except AnoleError (List AbsPath) := do
  let staged ← stagedOutputPath output jobId
  let office ← officeStagedWorkPath output jobId
  pure ([staged, office] ++ ((parent? output).map (·.join (chainStagingName jobId))).toList)

/-- The plans whose partial path is the short one (lines 117–120). -/
def usesOfficeWorkPath (step : PlanStep) (targetFormat : String) : Bool :=
  step.engine.engineId = "soffice" || step.engine.engineId = "msedge" ||
    (step.engine.engineId = "pandoc" && targetFormat = "pdf")

/-- `chain_staging_dir` (`chain.rs`, lines 410–422). -/
def chainStagingDir (finalOutput : AbsPath) (jobId : Uuid) : Except AnoleError AbsPath :=
  match parent? finalOutput with
  | none => .error (.new .inputInvalid .plan "Resolved output path has no parent directory"
      "Choose a complete output path.")
  | some parent => .ok (parent.join (chainStagingName jobId))

/-! ## Segments -/

/-- What preparing a segment gives, the identifier that is drawn for it, and what happens during
    its execution. -/
structure HopEnv (β : Type) where
  /-- `prepare_conversion` -/
  prepare : PathBuf → PlanRequest → Except AnoleError Plan
  newV4 : Uuid
  execution : Environment β
  /-- the report of the execution, up to its identifier -/
  report : ValidationReport
  /-- where the product lies in the directory of a lane that works in one -/
  productIn : List Name
  /-- what is created elsewhere, such as in the directory for temporary files -/
  elsewhere : List AbsPath

/-- One execution of a run. -/
structure Segment (β : Type) where
  hop : HopEnv β
  plan : Plan
  output : AbsPath
  jobId : Uuid

section Segments

variable {β : Type}

/-- The partial path (lines 117–124), and for the merge of mails its own directory. -/
def Segment.partialPath (segment : Segment β) : Option AbsPath :=
  match segment.plan.steps.head? with
  | none => none
  | some step =>
    if laneOf step segment.plan.targetFormat = .mboxPdf then
      (parent? segment.output).map (·.join (mboxStagingName segment.jobId))
    else if usesOfficeWorkPath step segment.plan.targetFormat then
      (officeStagedWorkPath segment.output segment.jobId).toOption
    else (stagedOutputPath segment.output segment.jobId).toOption

/-- The lanes that work in a directory. -/
def worksInDirectory (lane : Lane) : Bool := .create .workspace ∈ lane.steps 0

/-- Where a segment keeps what is at a place. -/
def Segment.path (segment : Segment β) (lane : Lane) : Place → Option AbsPath
  | .destination => some segment.output
  | .workspace => segment.partialPath
  | .product =>
    if worksInDirectory lane then segment.partialPath.map (·.append segment.hop.productIn)
    else segment.partialPath

/-- The stage at the start: a place at which something is makes the execution fail. -/
def emptyStage : Common.Stage Unit β := ⟨fun _ => none, none, ()⟩

/-- The observer of `execute_plan`. -/
def noObserver : Unit → Except AnoleError Unit × Unit := fun _ => (.ok (), ())

/-- The path is there at some moment of the execution. -/
def Segment.Creates (segment : Segment β) (path : AbsPath) : Prop :=
  path ∈ segment.hop.elsewhere ∨ ∃ lane ∈ segment.plan.lane, ∃ before after reached place,
    lane.script segment.hop.execution = before ++ after ∧
      passes noObserver before emptyStage = some reached ∧ reached.files place ≠ none ∧
      segment.path lane place = some path

/-- `execute_plan` (lines 57–84). -/
def Segment.execute (system : System) (segment : Segment β) : Except AnoleError ExecutionResult :=
  (executePlanObserved segment.plan segment.hop.execution noObserver emptyStage).result.map fun _ =>
    ⟨system.render segment.output, { segment.hop.report with jobId := segment.jobId }⟩

end Segments

/-! ## Chains -/

/-- What is around a chain: the disk, what the two calls on the directory of the chain give, and
    the segments. -/
structure ChainEnv (β : Type) where
  system : System
  /-- `resolve_output_identity` -/
  resolve : PathBuf → AbsPath
  pathExists : AbsPath → Bool
  createDir : Except String Unit
  removeDirAll : Except String Unit
  hop : ℕ → HopEnv β

section Chains

variable {β : Type}

/-- `hop-{index}.{to}`. -/
def hopName (index : ℕ) (target : String) : Name :=
  PathBuf.ofString ("hop-" ++ toString index ++ "." ++ target)

/-- The output of a segment: that of the chain for the last, which no hop follows. -/
def segmentOutput (env : ChainEnv β) (finalOutput : PathBuf) (staging : AbsPath) (index : ℕ)
    (target : String) (following : List String) : PathBuf :=
  if following = [] then finalOutput else env.system.render (staging.join (hopName index target))

/-- The request for a segment, which is no operation. -/
def segmentRequest (request : PlanRequest) (target : String) (output : PathBuf) : PlanRequest :=
  { request with targetFormat := target, outputPath := some output, operation := none }

/-- `run_chain_segments` from a hop on (lines 363–408), with the segments that are executed. -/
def runChainSegments (env : ChainEnv β) (request : PlanRequest) (finalOutput : PathBuf) (staging : AbsPath) :
    ℕ → List String → PathBuf → Option ExecutionResult → Except AnoleError ExecutionResult × List (Segment β)
  | _, [], _, some result => (.ok result, [])
  | _, [], _, none => (.error (.new .internal .plan "Conversion chain has no segments"
      "Create a new Plan and retry."), [])
  | index, target :: hops, input, _ =>
    let output := segmentOutput env finalOutput staging index target hops
    match (env.hop index).prepare input (segmentRequest request target output) with
    | .error error => (.error error, [])
    | .ok plan =>
      let segment : Segment β := ⟨env.hop index, plan, env.resolve output, (env.hop index).newV4⟩
      match segment.execute env.system with
      | .error error => (.error error, [segment])
      | .ok result =>
        let rest := runChainSegments env request finalOutput staging (index + 1) hops result.outputPath (some result)
        (rest.1, segment :: rest.2)

/-- A run of a chain: its result, the directory that it creates, and its segments. -/
structure ChainRun (β : Type) where
  result : Except AnoleError ExecutionResult
  staging : Option AbsPath
  segments : List (Segment β)

/-- `execute_conversion_chain` (lines 294–361) with the targets of the hops. -/
def executeConversionChain (env : ChainEnv β) (input : PathBuf) (request : PlanRequest)
    (hops : List String) (jobId : Uuid) : ChainRun β :=
  match request.outputPath with
  | none => ⟨.error (.new .inputInvalid .plan "Chained conversion requires an output path"
      "Choose an output path."), none, []⟩
  | some finalOutput =>
    let final := env.resolve finalOutput
    if env.pathExists final then
      ⟨.error (.new .outputConflict .commit ("Output already exists: " ++ finalOutput.toStringLossy)
        "Choose another output path or an explicit conflict policy."), none, []⟩
    else match chainStagingDir final jobId with
      | .error error => ⟨.error error, none, []⟩
      | .ok staging =>
        if env.pathExists staging then
          ⟨.error (.new .outputConflict .execute
            ("Chain staging directory already exists: " ++ env.system.display staging)
            "Inspect and remove the leftover chain staging directory."), none, []⟩
        else match env.createDir with
          | .error error => ⟨.error ((AnoleError.new .storageFailed .execute
              ("Unable to create chain staging directory: " ++ env.system.display staging)
              "Choose an output directory you can write to.").withDiagnostic error), none, []⟩
          | .ok () =>
            let (outcome, segments) := runChainSegments env request finalOutput staging 0 hops input none
            match env.removeDirAll, outcome with
            | .error error, .ok _ => ⟨.error ((AnoleError.new .storageFailed .commit
                ("Unable to remove chain staging directory: " ++ env.system.display staging)
                "Remove the leftover staging directory manually.").withDiagnostic error), some staging, segments⟩
            | _, outcome => ⟨outcome, some staging, segments⟩

/-- The path is there at some moment of the run. -/
def ChainRun.Creates (run : ChainRun β) (path : AbsPath) : Prop :=
  path ∈ run.staging ∨ ∃ segment ∈ run.segments, segment.Creates path

/-- The path is one that recovery looks for, or lies inside one. -/
def Recoverable (final : AbsPath) (jobId : Uuid) (path : AbsPath) : Prop :=
  ∃ candidates, stagedOutputCandidates final jobId = .ok candidates ∧
    ∃ candidate ∈ candidates, path.startsWith candidate = true

/-- What is created outside the final destination is found by the job's identifier. -/
def ChainRun.Covered (run : ChainRun β) (final : AbsPath) (jobId : Uuid) : Prop :=
  ∀ path, run.Creates path → path.startsWith final = false → Recoverable final jobId path

/-- The run reports under the job that ran it, and recovery finds what it creates. -/
structure ChainRun.BelongsTo (run : ChainRun β) (final : AbsPath) (jobId : Uuid) : Prop where
  reports : ∀ result, run.result = .ok result → result.report.jobId = jobId
  covered : run.Covered final jobId

end Chains

/-! ## Paths beside each other -/

section Paths

variable {path : AbsPath} {name other : Name} {inner : List Name} {a b : Uuid}

/-- What lies at one name of a directory lies inside another only if the names are equal. -/
theorem join_append_startsWith :
    ((path.join name).append inner).startsWith (path.join other) = true ↔ name = other := by
  rw [AbsPath.startsWith, Bool.and_eq_true, decide_eq_true_eq, List.isPrefixOf_iff_prefix]
  simp only [AbsPath.join, AbsPath.append, true_and, List.append_assoc, List.prefix_append_right_inj]
  exact List.cons_prefix_cons.trans (by simp [eq_comm])

@[simp] theorem append_nil (path : AbsPath) : path.append [] = path := by
  rw [AbsPath.append, List.append_nil]

/-- A path with a parent is the parent with its file name. -/
theorem parent_eq_some {parent : AbsPath} (h : parent? path = some parent) :
    ∃ fileName, fileName? path = some fileName ∧ path = parent.join fileName ∧
      ∀ sibling, withFileName path sibling = parent.join sibling := by
  rw [parent?] at h
  split at h
  · cases h
  · rename_i hcomponents
    cases h
    refine ⟨path.components.getLast hcomponents, List.getLast?_eq_some_getLast hcomponents, ?_, fun _ => rfl⟩
    rw [AbsPath.join, List.dropLast_append_getLast]

/-- The partial name tells identifiers apart, -/
theorem partialName_injective {fileName : String} (h : partialName a fileName = partialName b fileName) : a = b := by
  have htext := congrArg String.toList (PathBuf.ofString_injective h)
  simp only [String.toList_append, List.append_assoc, List.append_cancel_left_eq] at htext
  exact Uuid.toText_injective (String.toList_injective (List.append_cancel_right htext))

/-- and is neither the file name itself, -/
theorem partialName_ne {fileName : String} : partialName a fileName ≠ PathBuf.ofString fileName := by
  intro h
  have hlength := congrArg (List.length ∘ String.toList) (PathBuf.ofString_injective h)
  simp at hlength
  omega

/-- nor one of the short names. -/
theorem partialName_ne_fw {fileName rest : String} : partialName a fileName ≠ PathBuf.ofString (".fw-" ++ rest) := by
  intro h
  have htext := congrArg (List.take 2 ∘ String.toList) (PathBuf.ofString_injective h)
  simp at htext

end Paths

/-! ## The segments of a chain -/

section Runs

variable {β : Type} {env : ChainEnv β} {system : System} {segment : Segment β} {request : PlanRequest}
  {finalOutput input : PathBuf} {staging path : AbsPath} {hops : List String} {jobId : Uuid} {index : ℕ}
  {last : Option ExecutionResult} {result : ExecutionResult}

/-- **An execution** reports under the identifier that it is called with. -/
theorem Segment.execute_ok (h : segment.execute system = .ok result) :
    result.report.jobId = segment.jobId ∧ result.outputPath = system.render segment.output ∧
      (executePlanObserved segment.plan segment.hop.execution noObserver emptyStage).result = .ok () := by
  rw [Segment.execute] at h
  cases hresult : (executePlanObserved segment.plan segment.hop.execution noObserver
      (emptyStage : Common.Stage Unit β)).result with
  | error error =>
    rw [hresult] at h
    cases h
  | ok _ =>
    rw [hresult] at h
    cases h
    exact ⟨rfl, rfl, rfl⟩

/-- **The segments of a chain**: each runs under the identifier that is drawn for its hop. The last
    gives the result and the output of the chain, and the others write into the staging directory. -/
theorem runChainSegments_ok (hhops : hops ≠ [])
    (h : (runChainSegments env request finalOutput staging index hops input last).1 = .ok result) :
    ∃ inner segment, (runChainSegments env request finalOutput staging index hops input last).2 = inner ++ [segment] ∧
      segment.execute env.system = .ok result ∧ segment.output = env.resolve finalOutput ∧
      (∃ hop, hop < hops.length ∧ segment.jobId = (env.hop (index + hop)).newV4) ∧
      ∀ other ∈ inner, ∃ name, other.output = env.resolve (env.system.render (staging.join name)) := by
  induction hops generalizing index input last with
  | nil => exact absurd rfl hhops
  | cons target hops ih =>
    rw [runChainSegments] at h ⊢
    cases hplan : (env.hop index).prepare input
        (segmentRequest request target (segmentOutput env finalOutput staging index target hops)) with
    | error error =>
      simp only [hplan] at h
      cases h
    | ok plan =>
      simp only [hplan] at h ⊢
      cases hexecute : Segment.execute env.system (⟨env.hop index, plan,
          env.resolve (segmentOutput env finalOutput staging index target hops), (env.hop index).newV4⟩ : Segment β) with
      | error error =>
        simp only [hexecute] at h
        cases h
      | ok executed =>
        simp only [hexecute] at h ⊢
        by_cases hlast : hops = []
        · -- the last hop: its result is that of the chain
          subst hlast
          rw [runChainSegments] at h ⊢
          cases h
          refine ⟨[], _, rfl, hexecute, ?_, ⟨0, Nat.zero_lt_succ _, rfl⟩, fun _ hother => absurd hother List.not_mem_nil⟩
          exact congrArg env.resolve (if_pos rfl)
        · obtain ⟨inner, segment, hsegments, hresult, houtput, ⟨hop, hhop, hid⟩, hinner⟩ := ih hlast h
          refine ⟨_ :: inner, segment, congrArg _ hsegments, hresult, houtput, ⟨hop + 1, ?_, ?_⟩, ?_⟩
          · exact Nat.succ_lt_succ hhop
          · rw [hid, Nat.add_assoc, Nat.add_comm 1]
          · intro other hother
            rcases List.mem_cons.mp hother with rfl | hother
            · exact ⟨hopName index target, congrArg env.resolve (if_neg hlast)⟩
            · exact hinner other hother

/-- **A chain that succeeds** has run its segments. -/
theorem executeConversionChain_ok
    (h : (executeConversionChain env input request hops jobId).result = .ok result) :
    ∃ finalOutput staging, request.outputPath = some finalOutput ∧
      chainStagingDir (env.resolve finalOutput) jobId = .ok staging ∧
      (runChainSegments env request finalOutput staging 0 hops input none).1 = .ok result ∧
      (executeConversionChain env input request hops jobId).staging = some staging ∧
      (executeConversionChain env input request hops jobId).segments =
        (runChainSegments env request finalOutput staging 0 hops input none).2 := by
  unfold executeConversionChain at h ⊢
  cases houtput : request.outputPath with
  | none =>
    simp only [houtput] at h
    cases h
  | some finalOutput =>
    simp only [houtput] at h ⊢
    split at h
    · cases h
    · rename_i hfinal
      rw [if_neg hfinal]
      cases hstaging : chainStagingDir (env.resolve finalOutput) jobId with
      | error error =>
        simp only [hstaging] at h
        cases h
      | ok staging =>
        simp only [hstaging] at h ⊢
        split at h
        · cases h
        · rename_i hnew
          rw [if_neg hnew]
          cases hcreate : env.createDir with
          | error error =>
            simp only [hcreate] at h
            cases h
          | ok _ =>
            simp only [hcreate] at h ⊢
            refine ⟨finalOutput, staging, rfl, hstaging, ?_⟩
            cases hrun : runChainSegments env request finalOutput staging 0 hops input none with
            | mk outcome segments =>
              rw [hrun] at h
              cases hremove : env.removeDirAll with
              | ok _ =>
                rw [hremove] at h
                exact ⟨h, rfl, rfl⟩
              | error error =>
                rw [hremove] at h
                cases outcome with
                | ok _ => cases h
                | error other => cases h

/-! ## What recovery finds -/

/-- The segment stages its output in a file or a directory with the long name beside it. -/
def Segment.StagesBeside (segment : Segment β) : Prop :=
  ∃ step ∈ segment.plan.steps.head?, (laneOf step segment.plan.targetFormat).Stages ∧
    usesOfficeWorkPath step segment.plan.targetFormat = false

/-- A segment that succeeds has had its product at its partial path. -/
theorem Segment.creates_staged {staged : AbsPath} (h : segment.StagesBeside)
    (hexecute : segment.execute system = .ok result)
    (hstaged : stagedOutputPath segment.output segment.jobId = .ok staged) :
    ∃ inner, segment.Creates (staged.append inner) := by
  obtain ⟨step, hstep, hstages, hoffice⟩ := h
  have hlane : segment.plan.lane = some (laneOf step segment.plan.targetFormat) := by
    rw [Plan.lane, hstep, Option.map_some]
  have hpartial : segment.partialPath = some staged := by
    rw [Segment.partialPath, hstep]
    simp only [if_neg hstages.2.2.2, hoffice, hstaged]
    rfl
  have hproduct : ∃ inner, segment.path (laneOf step segment.plan.targetFormat) .product =
      some (staged.append inner) := by
    rw [Segment.path, hpartial]
    split
    · exact ⟨_, rfl⟩
    · exact ⟨[], by rw [append_nil]⟩
  -- the script passes, and comes to its commit with a product
  obtain ⟨-, -, hresult⟩ := Segment.execute_ok hexecute
  rw [executePlanObserved, hlane] at hresult
  have hpasses := Proc.Succeeds.of_wp ⟨hresult, rfl⟩ wp_runScript_passes
  have hcommit : .commit ∈ ((laneOf step segment.plan.targetFormat).script segment.hop.execution).steps := by
    rw [Lane.script_steps]
    exact hstages.commits _
  obtain ⟨⟨_, outcome⟩, hmem, rfl⟩ := List.mem_map.mp hcommit
  obtain ⟨before, after, hscript⟩ := List.append_of_mem hmem
  rw [hscript] at hpasses
  obtain ⟨reached, hreached, hthere⟩ := product_before_commit hpasses
  obtain ⟨inner, hinner⟩ := hproduct
  exact ⟨inner, .inr ⟨_, hlane, before, _, reached, .product, hscript, hreached, hthere, hinner⟩⟩

theorem stagedOutputCandidates_beside {final candidate : AbsPath} {candidates : List AbsPath} {fileName : String}
    {parent : AbsPath} (hparent : parent? final = some parent)
    (hfile : (fileName? final).bind toStr? = some fileName)
    (h : stagedOutputCandidates final jobId = .ok candidates) (hcandidate : candidate ∈ candidates) :
    candidate = parent.join (partialName jobId fileName) ∨
      ∃ rest, candidate = parent.join (PathBuf.ofString (".fw-" ++ rest)) := by
  obtain ⟨-, -, -, hsibling⟩ := parent_eq_some hparent
  simp only [stagedOutputCandidates, stagedOutputPath, officeStagedWorkPath, hfile, hparent, hsibling] at h
  cases h
  rcases List.mem_append.mp hcandidate with hcandidate | hcandidate
  · rcases List.mem_pair.mp hcandidate with rfl | rfl
    · exact .inl rfl
    · exact .inr ⟨_, rfl⟩
  · cases List.mem_singleton.mp hcandidate
    exact .inr ⟨"chain-" ++ jobId.toText, by rw [chainStagingName, ← String.append_assoc]; rfl⟩

/-- **What the last segment stages** beside the output is not found under another identifier. -/
theorem staged_not_recoverable {final staged parent : AbsPath} {other : Uuid}
    (hparent : parent? final = some parent) (hstaged : stagedOutputPath final other = .ok staged)
    (hother : other ≠ jobId) (inner : List Name) :
    (staged.append inner).startsWith final = false ∧ ¬ Recoverable final jobId (staged.append inner) := by
  obtain ⟨name, hname, hfinal, hsibling⟩ := parent_eq_some hparent
  rw [stagedOutputPath] at hstaged
  split at hstaged
  · cases hstaged
  · rename_i fileName hfile
    rw [hsibling] at hstaged
    cases hstaged
    have hunicode : name = PathBuf.ofString fileName := by
      rw [hname, Option.bind_some] at hfile
      exact eq_ofString_of_toStr? hfile
    constructor
    · rw [Bool.eq_false_iff, hfinal, Ne, join_append_startsWith, hunicode]
      exact partialName_ne
    · rintro ⟨candidates, hcandidates, candidate, hcandidate, hinside⟩
      rcases stagedOutputCandidates_beside hparent hfile hcandidates hcandidate with rfl | ⟨rest, rfl⟩
      · exact hother (partialName_injective (join_append_startsWith.mp hinside))
      · exact partialName_ne_fw (join_append_startsWith.mp hinside)

/-! ## The result -/

/-- **A chain that succeeds** never reports under the job that ran it, when the identifiers that are
    drawn for its hops are new; and what its last segment stages beside the output is not found by
    the job's identifier. -/
theorem chain_unrecoverable (env : ChainEnv β) (input : PathBuf) (request : PlanRequest) (hops : List String)
    (jobId : Uuid) (hnew : ∀ hop < hops.length, (env.hop hop).newV4 ≠ jobId) {result : ExecutionResult}
    (h : (executeConversionChain env input request hops jobId).result = .ok result) :
    ∀ finalOutput ∈ request.outputPath,
      ¬ (executeConversionChain env input request hops jobId).BelongsTo (env.resolve finalOutput) jobId ∧
      ∀ last ∈ (executeConversionChain env input request hops jobId).segments.getLast?, last.StagesBeside →
        ¬ (executeConversionChain env input request hops jobId).Covered (env.resolve finalOutput) jobId := by
  obtain ⟨finalOutput, staging, houtput, hstaging, hrun, hdirectory, hsegments⟩ := executeConversionChain_ok h
  intro finalOutput' hfinal
  cases houtput.symm.trans hfinal
  have hhops : hops ≠ [] := by
    rintro rfl
    rw [runChainSegments] at hrun
    cases hrun
  obtain ⟨inner, segment, hlist, hexecute, hlast, ⟨hop, hhop, hid⟩, -⟩ := runChainSegments_ok hhops hrun
  have hother : segment.jobId ≠ jobId := by
    rw [hid, Nat.zero_add]
    exact hnew hop hhop
  obtain ⟨hreport, -, -⟩ := Segment.execute_ok hexecute
  refine ⟨fun hbelongs => hother (hreport.symm.trans (hbelongs.reports result h)), ?_⟩
  intro last hmem hbeside hcovered
  rw [hsegments, hlist, List.getLast?_concat] at hmem
  cases hmem
  have hparent : ∃ parent, parent? (env.resolve finalOutput) = some parent := by
    rw [chainStagingDir] at hstaging
    cases hparent : parent? (env.resolve finalOutput) with
    | none =>
      rw [hparent] at hstaging
      cases hstaging
    | some parent => exact ⟨parent, rfl⟩
  obtain ⟨parent, hparent⟩ := hparent
  cases hstaged : stagedOutputPath (env.resolve finalOutput) segment.jobId with
  | ok staged =>
    have houtput' : stagedOutputPath segment.output segment.jobId = .ok staged := by rw [hlast, hstaged]
    obtain ⟨inside, hcreates⟩ := Segment.creates_staged hbeside hexecute houtput'
    obtain ⟨houtside, hlost⟩ := staged_not_recoverable hparent hstaged hother inside
    refine hlost (hcovered _ (.inr ⟨segment, ?_, hcreates⟩) houtside)
    rw [hsegments, hlist]
    exact List.mem_append_right _ List.mem_cons_self
  | error error =>
    -- the file name is no text: nothing of the job is found
    obtain ⟨name, hname, hpath, -⟩ := parent_eq_some hparent
    have hnotext : toStr? name = none := by
      rw [stagedOutputPath, hname, Option.bind_some] at hstaged
      split at hstaged
      · assumption
      · cases hstaged
    have hdirectory' : staging = parent.join (chainStagingName jobId) := by
      rw [chainStagingDir, hparent] at hstaging
      exact (Except.ok.inj hstaging).symm
    have houtside : staging.startsWith (env.resolve finalOutput) = false := by
      rw [Bool.eq_false_iff, hpath, hdirectory', ← append_nil (parent.join _), Ne, join_append_startsWith]
      rintro rfl
      rw [chainStagingName, toStr?_ofString] at hnotext
      cases hnotext
    obtain ⟨candidates, hcandidates, -⟩ := hcovered staging (.inl hdirectory) houtside
    rw [stagedOutputCandidates, stagedOutputPath, hname, Option.bind_some, hnotext] at hcandidates
    cases hcandidates

end Runs

/-! ## A document that becomes pictures by way of a PDF -/

namespace ChainSample

def refusal : AnoleError := .new .executionFailed .execute "refused" "Retry."

/-- A segment of one engine in which everything works. -/
def hopEnv (engineId targetFormat : String) (newV4 : Uuid) : HopEnv String where
  prepare _ _ := .ok ⟨"plan", "input", targetFormat, [⟨"convert", ⟨engineId, "1.0", "s"⟩, .render, []⟩]⟩
  newV4 := newV4
  execution := ⟨0, fun _ => ⟨false, refusal, some (.file "content")⟩⟩
  report := ⟨0, "plan", .pass, 7⟩
  productIn := [PathBuf.ofString "converted", PathBuf.ofString "report.pdf"]
  elsewhere := []

def env : ChainEnv String where
  system := ⟨false, fun _ => .error "", fun _ => true⟩
  resolve path := ⟨.posix, (path.splitOn (.char '/')).filter (· ≠ [])⟩
  pathExists _ := false
  createDir := .ok ()
  removeDirAll := .ok ()
  hop := fun
    | 0 => hopEnv "soffice" "pdf" 2
    | _ => hopEnv "pdftoppm" "jpg" 3

def finalOutput : PathBuf := PathBuf.ofString "/out/report.jpg"

def request : PlanRequest :=
  { targetFormat := "jpg", outputPath := some finalOutput, preserveAllStreams := false, audioStreamIndex := none,
    startMillis := none, durationMillis := none, width := none, quality := none, dpi := none,
    colorMode := none, framesPerSecond := none, loopCount := none, videoCrf := none, videoPreset := none,
    audioBitrateKbps := none, operation := none, inputs := [], pageRange := none, allowLossyData := false,
    rotateAngle := none, password := none, ocrLanguage := none, watermarkText := none,
    watermarkAngle := none, targetSizeBytes := none, metadataTitle := none, metadataAuthor := none }

def run : ChainRun String :=
  executeConversionChain env (PathBuf.ofString "/in/report.docx") request ["pdf", "jpg"] 1

def result : ExecutionResult := ⟨PathBuf.ofString "/out/report.jpg", ⟨3, "plan", .pass, 7⟩⟩

/-- **The job 1 gets a report of the job 3.** -/
theorem chain_reports_hop :
    run.result = .ok result ∧ result.report.jobId ≠ 1 ∧ ¬ run.BelongsTo (env.resolve finalOutput) 1 := by
  have hresult : run.result = .ok result := by decide +kernel
  have hreport : result.report.jobId ≠ 1 := by decide
  exact ⟨hresult, hreport, fun h => hreport (h.reports result hresult)⟩

/-- The last segment draws pages beside the output, and recovery does not find them. -/
theorem chain_unrecoverable_pages :
    ¬ run.BelongsTo (env.resolve finalOutput) 1 ∧
      ∀ last ∈ run.segments.getLast?, last.StagesBeside → ¬ run.Covered (env.resolve finalOutput) 1 := by
  have hnew : ∀ hop < ["pdf", "jpg"].length, (env.hop hop).newV4 ≠ 1 := by decide
  have hresult : (executeConversionChain env (PathBuf.ofString "/in/report.docx") request ["pdf", "jpg"] 1).result =
      .ok result := by decide +kernel
  exact chain_unrecoverable env (PathBuf.ofString "/in/report.docx") request ["pdf", "jpg"] 1 hnew hresult
    finalOutput rfl

end ChainSample

end Anole.Chain
