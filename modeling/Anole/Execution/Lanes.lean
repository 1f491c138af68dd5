import Anole.Common.Staged
import Anole.Domain

/-!
# The lanes of the runner

Model of `execute_plan_observed` (`crates/core/src/runner.rs`, lines 86–517) and of the lanes it
dispatches to (`runner.rs`, lines 519–4196, `eml.rs`, lines 507–547, `msg.rs`, lines 344–399, and
`mbox.rs`, lines 645–848).

A lane is a straight line of steps that may fail: with `?` (`leave`), after
`cleanup_partial` (`dropStaged`), or after the removal of the output (`dropDestination`). A
cancellation is one of the ways to fail. The partial path is the workspace of the lanes that
work in a directory, and the product of the others. The checks that a step makes, and the
errors they give, are the environment's.

`Lane.steps_orderly`: in every lane the commit follows the validation of what it commits.
-/

open Common

namespace Anole

/-- The branches of `execute_plan_observed`, with those of `execute_pdf_ops_plan` (lines
    2886–2927) and `run_mbox_export` (`mbox.rs`, lines 704–716). -/
inductive Lane where
  | pdfOps | pdfMetadata | pdfOcr | imageOcr | eml | msg | mboxPdf | mboxText | archive | officeCsv
  | structured | heif | magick | pdftotextText | markupPdf | pandoc | officePdf | officeExchange
  | edgePrint | pdfRender | ffmpeg
  deriving DecidableEq

/-- `step.arguments.get(name)`. -/
def PlanStep.argument (step : PlanStep) (name : String) : Option String := step.arguments.lookup name

/-- The lane of a plan with a first step. -/
def laneOf (step : PlanStep) (targetFormat : String) : Lane :=
  match step.argument "operation" with
  | some "pdf-metadata" => .pdfMetadata
  | some "pdf-ocr" => .pdfOcr
  | some _ => .pdfOps
  | none =>
    let engineId := step.engine.engineId
    if engineId = "tesseract" ∧ step.argument "ocr_mode" = some "image" then .imageOcr
    else if engineId = "anole.eml" then .eml
    else if engineId = "anole.msg" then .msg
    else if engineId = "anole.mbox" then if targetFormat = "pdf" then .mboxPdf else .mboxText
    else if engineId = "anole.archive" then .archive
    else if engineId = "anole.office-csv" then .officeCsv
    else if engineId = "anole.structured" then .structured
    else if engineId = "heif-dec" then .heif
    else if engineId = "magick" then .magick
    else if engineId = "pdftotext" ∧ targetFormat = "md" then .pdftotextText
    else if engineId = "pandoc" then if targetFormat = "pdf" then .markupPdf else .pandoc
    else if engineId = "soffice" then if targetFormat = "pdf" then .officePdf else .officeExchange
    else if engineId = "msedge" then .edgePrint
    else if engineId = "pdftoppm" then .pdfRender
    else .ffmpeg

/-- The lane of a plan; a plan without a step is refused (lines 98–105). -/
def Plan.lane (plan : Plan) : Option Lane := plan.steps.head?.map (laneOf · plan.targetFormat)

/-! ## What the lanes share -/

open StagedStep OnFailure

/-- Lines 97–157: the network policy, the first step, the resolution of the output path, an
    output that exists, a changed input, the partial path, one that exists, and the parent of
    the output. -/
def preamble : List StagedStep := List.replicate 8 (check leave)

/-- From the pipes of an engine on: its two pipes, the wait, a cancellation, and its status. -/
def engineEnds : List StagedStep :=
  [check leave, check leave, check leave, check dropStaged, check dropStaged]

/-- From the milestone to the commit: the milestone, a changed input, the inspection of the
    product, its validation, an output that appeared, and the commit. -/
def finish : List StagedStep :=
  [notify true, check dropStaged, check dropStaged, validate .product dropStaged, check dropStaged,
    commit]

/-- The same with a cancellation and the rendering of the pages. -/
def finishRendered : List StagedStep :=
  [notify true, check dropStaged, check dropStaged, check dropStaged, check dropStaged,
    validate .product dropStaged, check dropStaged, commit]

/-! ## The lanes -/

/-- `run_ffmpeg_attempt` (lines 4078–4196): the arguments, the start, and the run. -/
def ffmpegAttempt : List StagedStep :=
  [check leave, check leave, write .product] ++ engineEnds ++ [present leave]

/-- The main path (lines 392–516), with so many further attempts of the ladder. -/
def ffmpegSteps (rounds : ℕ) : List StagedStep :=
  [check leave] ++ ffmpegAttempt ++ (List.replicate rounds (clear :: ffmpegAttempt)).flatten ++
    -- a cancellation
    [check dropStaged] ++ finish

/-- `execute_office_pdf_plan` (lines 519–820): the arguments, the workspace with its
    directories and the profile, LibreOffice, the stem of the input, and a cancellation. -/
def officePdfSteps : List StagedStep :=
  [check leave, create .workspace, check dropStaged, check dropStaged, check dropStaged,
    write .product] ++ engineEnds ++
  [check leave, check dropStaged, present dropStaged] ++ finishRendered ++ [clear]

/-- `execute_office_document_exchange` (lines 824–1075). -/
def officeExchangeSteps : List StagedStep :=
  [check leave, create .workspace, check dropStaged, check dropStaged, check dropStaged,
    write .product] ++ engineEnds ++
  [check leave, check dropStaged, present dropStaged, notify true, check dropStaged,
    check dropStaged, check dropStaged, validate .product dropStaged, check dropStaged, commit, clear]

/-- `execute_office_csv_plan` (lines 1081–1183): the arguments, the workspace, the worker, a
    cancellation, and the end without an inspection. -/
def officeCsvSteps : List StagedStep :=
  [check leave, create .workspace, write .product, check dropStaged, check dropStaged, notify true,
    check dropStaged, validate .product dropStaged, check dropStaged, commit, clear]

/-- `execute_edge_print_plan` (lines 1185–1504): like the Office lane, with a timeout of the
    browser, no stem, and the text and the fonts as further evidence. -/
def edgePrintSteps : List StagedStep :=
  [check leave, create .workspace, check dropStaged, check dropStaged, check dropStaged,
    write .product] ++ engineEnds ++
  [check dropStaged, check dropStaged, present dropStaged, notify true, check dropStaged,
    check dropStaged, check dropStaged, check dropStaged, check dropStaged,
    validate .product dropStaged, check dropStaged, commit, clear]

/-- `execute_pdf_render_plan` (lines 1767–1977): the pages are written to the partial directory
    itself. The password and the quality are looked at when it is there. -/
def pdfRenderSteps : List StagedStep :=
  [check leave, create .product, check leave, check leave, check leave, check dropStaged,
    write .product] ++ engineEnds ++
  -- `normalize_poppler_pages`, a cancellation
  [check dropStaged, check dropStaged] ++ finish

/-- `execute_heif_plan` (lines 2055–2233): the quality is looked at when the workspace is
    there; after the run the workspace is listed. -/
def heifSteps : List StagedStep :=
  [check leave, create .workspace, check leave, check dropStaged, write .product] ++ engineEnds ++
  [check leave, check dropStaged, present dropStaged] ++ finish ++ [clear]

/-- `execute_magick_plan` (lines 2235–2421). -/
def magickSteps : List StagedStep :=
  [check leave, create .workspace, check leave, check dropStaged, write .product] ++ engineEnds ++
  [present dropStaged] ++ finish ++ [clear]

/-- A step inside a lane that cleans up after every failure of it. -/
def inWorkspace : StagedStep → StagedStep
  | check _ | create _ => check dropStaged
  | present _ => present dropStaged
  | step => step

/-- `execute_markup_pdf_plan` (lines 2423–2616): Pandoc with its intermediate document, a
    cancellation, the inspection and the validation of that document, and the Office lane in
    the workspace, where it has a directory of its own: its removal leaves the workspace. -/
def markupPdfSteps : List StagedStep :=
  [check leave, create .workspace, check dropStaged] ++ engineEnds ++
  [check dropStaged, check dropStaged, check dropStaged, check dropStaged] ++
  (officePdfSteps.filter (· ≠ clear)).map inWorkspace ++ [clear]

/-- `execute_pdf_ops_plan` (lines 2864–3062): the arguments with the watermark layer, the
    command, the start of qpdf, and its run; pdfinfo is looked for after the milestone and a
    changed input. -/
def pdfOpsSteps : List StagedStep :=
  [check leave, check leave, check leave, write .product] ++ engineEnds ++
  [present dropStaged, notify true, check dropStaged, check leave, check dropStaged,
    validate .product dropStaged, check dropStaged, commit]

/-- `execute_pdf_metadata` (lines 3257–3381): the worker, its result, a cancellation. -/
def pdfMetadataSteps : List StagedStep :=
  [check leave, write .product, check leave, check leave, present dropStaged, check dropStaged,
    notify true, check dropStaged, check leave, check dropStaged, check dropStaged,
    validate .product dropStaged, check dropStaged, commit]

/-- `commit_ocr_text_output` (lines 3148–3186) after the write of the text. -/
def ocrEnds : List StagedStep := finish

/-- One page of `execute_pdf_ocr` (lines 3419–3494): a cancellation, pdftoppm, its status, the
    list of the pages, the page, tesseract. -/
def ocrPage : List StagedStep :=
  [check dropStaged, check leave, check dropStaged, check dropStaged, check dropStaged, check leave]

/-- `execute_pdf_ocr` (lines 3384–3525) for so many pages. -/
def pdfOcrSteps (rounds : ℕ) : List StagedStep :=
  [check leave, check leave, check leave] ++ (List.replicate rounds ocrPage).flatten ++
  [write .product, check dropStaged] ++ ocrEnds

/-- `execute_image_ocr_plan` (lines 3188–3253). -/
def imageOcrSteps : List StagedStep :=
  [check leave, check leave, write .product, check dropStaged, check dropStaged] ++ ocrEnds

/-- `execute_archive_plan` (lines 3554–3659): the worker, its result, a cancellation. -/
def archiveSteps : List StagedStep :=
  [check leave, write .product, check leave, check leave, present dropStaged, check dropStaged] ++
  finish

/-- `execute_pdftotext_text_plan` (lines 3665–3786): the arguments, the timeout, the start, the
    status, a cancellation, and the write of the text. -/
def pdftotextTextSteps : List StagedStep :=
  [check leave, check leave, check leave, check dropStaged, check dropStaged, write .product,
    check dropStaged] ++ finish

/-- `execute_pandoc_plan` (lines 3789–3961): the arguments, the start, the run, a cancellation. -/
def pandocSteps : List StagedStep :=
  [check leave, check leave, write .product] ++ engineEnds ++ [present leave, check dropStaged] ++
  finish

/-- `execute_structured_plan` (lines 3963–4071): the worker, a cancellation, its result, and
    another cancellation. -/
def structuredSteps : List StagedStep :=
  [write .product, check leave, check dropStaged, check dropStaged, present leave,
    check dropStaged] ++ finish

/-- `execute_eml_export` and its branch (lines 178–199): the output path, an output that
    exists, the mail, the write of the output, its result, and the inspection. -/
def emlSteps : List StagedStep :=
  [check leave, check leave, check leave, write .destination, check leave, check dropDestination,
    validate .destination dropDestination, notify false]

/-- `execute_msg_export` and its branch (lines 200–219). An output that is rejected is removed,
    and the error comes after the milestone. -/
def msgSteps : List StagedStep :=
  [check leave, check leave, check leave, write .destination, check leave, check leave,
    check dropDestination, judge, notify false, accepted]

/-- `execute_mbox_export` for a text target, and its branch (lines 220–238): the output path,
    an output that exists, the mails, the parent, the directory `.fw-mbox-{job_id}` (which is no
    partial path), the write of the output, its result, the inspection, and the removal of the
    directory. -/
def mboxTextSteps : List StagedStep :=
  [check leave, check leave, check leave, check leave, check leave, write .destination, check leave,
    check leave, check dropDestination, judge, check leave, notify false, accepted]

/-- One mail of `execute_mbox_pdf` (lines 772–804): a cancellation, the write of the page, its
    result, and the preparation and execution of its plan, all in `.fw-mbox-{job_id}`. -/
def mboxMail : List StagedStep := List.replicate 5 (check dropStaged)

/-- `execute_mbox_export` for `pdf`: pdfinfo, the pages, qpdf, the merge, the inspection,
    pdftotext, the text; the directory is removed on every way out. -/
def mboxPdfSteps (rounds : ℕ) : List StagedStep :=
  [check leave, check leave, check leave, check leave, create .workspace] ++
  (List.replicate rounds mboxMail).flatten ++
  [check dropStaged, check dropStaged, check dropStaged, write .product, check dropStaged,
    check dropStaged, check dropStaged, check dropStaged, validate .product dropStaged,
    check dropStaged, commit, check leave, notify false]

/-- The steps of a lane whose loop makes so many rounds. -/
def Lane.body (rounds : ℕ) : Lane → List StagedStep
  | .pdfOps => pdfOpsSteps
  | .pdfMetadata => pdfMetadataSteps
  | .pdfOcr => pdfOcrSteps rounds
  | .imageOcr => imageOcrSteps
  | .eml => emlSteps
  | .msg => msgSteps
  | .mboxPdf => mboxPdfSteps rounds
  | .mboxText => mboxTextSteps
  | .archive => archiveSteps
  | .officeCsv => officeCsvSteps
  | .structured => structuredSteps
  | .heif => heifSteps
  | .magick => magickSteps
  | .pdftotextText => pdftotextTextSteps
  | .markupPdf => markupPdfSteps
  | .pandoc => pandocSteps
  | .officePdf => officePdfSteps
  | .officeExchange => officeExchangeSteps
  | .edgePrint => edgePrintSteps
  | .pdfRender => pdfRenderSteps
  | .ffmpeg => ffmpegSteps rounds

/-- `execute_plan_observed`. -/
def Lane.steps (rounds : ℕ) (lane : Lane) : List StagedStep := preamble ++ lane.body rounds

/-! ## Their order -/

/-- What a lane does before its loop, in a round, and after the loop. -/
def Lane.parts : Lane → List StagedStep × List StagedStep × List StagedStep
  | .ffmpeg => (preamble ++ [check leave] ++ ffmpegAttempt, clear :: ffmpegAttempt, [check dropStaged] ++ finish)
  | .pdfOcr => (preamble ++ [check leave, check leave, check leave], ocrPage,
      [write .product, check dropStaged] ++ ocrEnds)
  | .mboxPdf => (preamble ++ [check leave, check leave, check leave, check leave, create .workspace], mboxMail,
      [check dropStaged, check dropStaged, check dropStaged, write .product, check dropStaged,
        check dropStaged, check dropStaged, check dropStaged, validate .product dropStaged,
        check dropStaged, commit, check leave, notify false])
  | lane => (lane.steps 0, [], [])

theorem Lane.steps_eq_parts (rounds : ℕ) (lane : Lane) :
    lane.steps rounds =
      lane.parts.1 ++ (List.replicate rounds lane.parts.2.1).flatten ++ lane.parts.2.2 := by
  have hnone : (List.replicate rounds ([] : List StagedStep)).flatten = [] := by simp
  cases lane with
  | ffmpeg | pdfOcr | mboxPdf =>
    simp [Lane.steps, Lane.body, Lane.parts, ffmpegSteps, pdfOcrSteps, mboxPdfSteps]
  | _ =>
    simp only [Lane.parts, hnone, List.append_nil]
    rfl

theorem run_rounds {phase : StagedPhase} {steps : List StagedStep} (h : phase.run steps = some phase)
    (rounds : ℕ) : phase.run (List.replicate rounds steps).flatten = some phase := by
  induction rounds with
  | zero => rfl
  | succ rounds ih =>
    rw [List.replicate_succ, List.flatten_cons, StagedPhase.run_append, h, Option.bind_some, ih]

/-- **In every lane** the commit follows the validation of what it commits, and what is written
    to the output itself is never committed. -/
theorem Lane.steps_orderly (rounds : ℕ) (lane : Lane) :
    (StagedPhase.raw.run (lane.steps rounds)).isSome := by
  have hparts : ∃ phase, StagedPhase.raw.run lane.parts.1 = some phase ∧
      phase.run lane.parts.2.1 = some phase ∧ (phase.run lane.parts.2.2).isSome := by
    cases lane <;> exact ⟨_, rfl, rfl, rfl⟩
  obtain ⟨phase, hhead, hbody, htail⟩ := hparts
  rw [lane.steps_eq_parts, List.append_assoc, StagedPhase.run_append, hhead, Option.bind_some,
    StagedPhase.run_append, run_rounds hbody, Option.bind_some]
  exact htail

theorem Lane.mem_steps {step : StagedStep} {rounds : ℕ} {lane : Lane} (h : step ∈ lane.steps rounds) :
    step ∈ lane.parts.1 ∨ step ∈ lane.parts.2.1 ∨ step ∈ lane.parts.2.2 := by
  rw [lane.steps_eq_parts, List.mem_append, List.mem_append, List.mem_flatten] at h
  rcases h with (hhead | ⟨steps, hsteps, hstep⟩) | htail
  · exact .inl hhead
  · rw [List.eq_of_mem_replicate hsteps] at hstep
    exact .inr (.inl hstep)
  · exact .inr (.inr htail)

/-! ## Executions -/

/-- What the environment does during an execution: the rounds of the loop, and what happens at
    each step. -/
structure Environment (β : Type) where
  rounds : ℕ
  outcomes : ℕ → Outcome AnoleError β

variable {σ β : Type}

/-- A lane with what the environment does at each of its steps. -/
def Lane.script (lane : Lane) (environment : Environment β) : Script AnoleError β :=
  (lane.steps environment.rounds).mapIdx fun index step => (step, environment.outcomes index)

/-- Lines 98–105. -/
def noStepError : AnoleError :=
  .new .internal .execute "Plan has no executable step" "Create a new Plan and retry."

/-- `execute_plan_observed`: the network policy comes before the first step. -/
def executePlanObserved (plan : Plan) (environment : Environment β)
    (observer : σ → Except AnoleError Unit × σ) : Proc (Common.Stage σ β) AnoleError Unit :=
  match plan.lane with
  | some lane => runScript observer (lane.script environment)
  | none => do
    runScript observer [(check leave, environment.outcomes 0)]
    .fail noStepError

theorem Lane.script_steps (lane : Lane) (environment : Environment β) :
    (lane.script environment).steps = lane.steps environment.rounds := by
  refine List.ext_getElem? fun index => ?_
  rw [Script.steps, Lane.script, List.getElem?_map, List.getElem?_mapIdx, Option.map_map]
  exact Option.map_id'

/-! ## How an execution ends -/

/-- **Every lane** reports one milestone. -/
theorem Lane.one_milestone (lane : Lane) (environment : Environment β) :
    (lane.script environment).steps.countP StagedStep.Notifies = 1 := by
  have hparts : lane.parts.1.countP StagedStep.Notifies + lane.parts.2.2.countP StagedStep.Notifies = 1 ∧
      lane.parts.2.1.countP StagedStep.Notifies = 0 := by
    cases lane <;> decide
  have hrounds : (List.replicate environment.rounds lane.parts.2.1).flatten.countP StagedStep.Notifies = 0 := by
    simp [List.countP_flatten, hparts.2]
  rw [lane.script_steps, lane.steps_eq_parts, List.countP_append, List.countP_append]
  omega

/-- The execution passes when the observer gives this answer. -/
def Plan.Executes (plan : Plan) (environment : Environment β) (answer : Except AnoleError Unit)
    (quiet : Common.Stage Unit β) : Prop :=
  ∃ lane ∈ plan.lane, (passes (fun _ => (answer, ())) (lane.script environment) quiet).isSome

/-- **An execution** that passes has told the observer; one that fails has told it at most once. -/
theorem executePlanObserved_ends (plan : Plan) (environment : Environment β)
    (observer : σ → Except AnoleError Unit × σ) (quiet : Common.Stage Unit β) (told : σ) :
    (plan.Executes environment (observer told).1 quiet ∧
        ∃ reached, Proc.Succeeds (executePlanObserved plan environment observer) (quiet.told told) () reached ∧
          reached.outer = (observer told).2) ∨
      (¬ plan.Executes environment (observer told).1 quiet ∧
        ∃ error reached, Proc.Fails (executePlanObserved plan environment observer) (quiet.told told) error reached ∧
          (reached.outer = told ∨ reached.outer = (observer told).2)) := by
  rw [executePlanObserved, Plan.Executes]
  cases hlane : plan.lane with
  | none =>
    refine .inr ⟨by simp, ?_⟩
    have hfails : Proc.wp (runScript observer [(check leave, environment.outcomes 0)] >>= fun _ =>
        (Proc.fail noStepError : Proc (Common.Stage σ β) AnoleError Unit)) (fun _ => True)
        (fun _ next => next.outer = told) (fun _ _ => False) (quiet.told told) := by
      rw [Proc.wp_bind]
      exact (wp_quiet (by simp [Script.steps, StagedStep.Notifies]) rfl).mono (fun _ h => h) (fun _ _ h => h) (fun _ _ h => Proc.wp_fail.mpr h)
    obtain ⟨error, reached, hfail, houter⟩ := hfails.fails
    exact ⟨error, reached, hfail, .inl houter⟩
  | some lane =>
    simp only [Option.mem_some_iff, exists_eq_left']
    obtain ⟨before, honoured, outcome, after, hscript, hbefore, hafter⟩ :=
      exists_milestone (lane.one_milestone environment)
    have hends : Proc.wp (runScript observer (before ++ (.notify honoured, outcome) :: after)) (fun _ => True)
        (fun _ next => next.outer = told ∨ next.outer = (observer told).2)
        (fun _ next => next.outer = (observer told).2) (quiet.told told) :=
      wp_one_milestone hbefore hafter
    have hpasses : passes observer (before ++ (.notify honoured, outcome) :: after) (quiet.told told) =
        (passes (fun answered : Unit => ((observer told).1, answered))
          (before ++ (.notify honoured, outcome) :: after) quiet).map fun reached =>
            reached.told (observer told).2 :=
      passes_one_milestone hbefore hafter
    rw [hscript]
    have hrun : Proc.wp (runScript observer (before ++ (.notify honoured, outcome) :: after)) (fun _ => True)
        (fun _ _ => passes observer (before ++ (.notify honoured, outcome) :: after) (quiet.told told) = none)
        (fun _ reached => passes observer (before ++ (.notify honoured, outcome) :: after) (quiet.told told) =
          some reached) (quiet.told told) := wp_runScript_passes
    rw [hpasses] at hrun
    cases hreached : passes (fun answered : Unit => ((observer told).1, answered))
        (before ++ (.notify honoured, outcome) :: after) quiet with
    | none =>
      rw [hreached] at hrun
      obtain ⟨error, reached, hfail, -⟩ := (hrun.mono (fun _ h => h) (fun _ _ h => h) (fun _ _ h => by cases h)).fails
      exact .inr ⟨by simp, error, reached, hfail, hfail.of_wp hends⟩
    | some end_ =>
      rw [hreached] at hrun
      obtain ⟨_, reached, hok, -⟩ := (hrun.mono (fun _ h => h) (fun _ _ h => by cases h) (fun _ _ h => h)).succeeds
      exact .inl ⟨rfl, reached, hok, hok.of_wp hends⟩

end Anole
