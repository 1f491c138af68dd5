import Anole.Execution.Completion
import Anole.Execution.Conversion
import Anole.Web.Service

/-!
# The conversion of a web job

Model of `execute_web_job` and `run_conversion` (`crates/server/src/web.rs`, lines 768–845) around
`ConversionService::run_prepared`. The timeout cancels a token that the runner observes, and the same
token ends the `select!` that awaits the conversion. When the `select!` comes first the conversion is
dropped where it is awaited, and nothing ends its durable job.

What a step of the lane that observes the token does is up to the environment, as its other failures are.

* `web_job_settles_iff`: when a web job that has ended leaves its durable job ended as well.
-/

open Common

namespace Anole.Web

variable {β : Type}

/-- What `prepare_conversion` gives. -/
structure WebPlan where
  inputPath : PathBuf
  outputPath : Option PathBuf
  plan : Anole.Plan

/-- The plan is approved as it is (lines 829–838). -/
def WebPlan.prepared (plan : WebPlan) : PreparedConversion where
  inputPath := plan.inputPath
  outputPath := plan.outputPath
  plan := plan.plan
  approvedPlanHash := plan.plan.planHash

/-- When the timeout drops the conversion: never, before `run_prepared`, or while the execution awaits the step
    after so many of them. -/
inductive Timeout where
  | never
  | preparing
  | executing (steps : ℕ)

/-- A web job that has ended: its durable job, if one was created, with its lane, and what is there. -/
structure WebOutcome (β : Type) where
  durable : Option Uuid
  lane : Option Lane
  state : WebJobState
  db : Database
  files : Files Place (Common.Node β)

/-- Nothing is in the directory of the web job, which was created for it. -/
def fresh (env : ConversionEnv β) : ConversionEnv β := { env with files := fun _ => none }

/-- The durable job, with the store after its creation (`conversion_service.rs`, lines 86–95). -/
def createdJob (env : ConversionEnv β) (prepared : PreparedConversion) (db : Database) :
    Option (JobRecord × Database) :=
  match ensurePlanApproved prepared.plan (some prepared.approvedPlanHash), prepared.outputPath with
  | .ok (), some output =>
    match createJob env.create db ⟨prepared.inputPath, output, prepared.plan⟩ with
    | (.ok created, db) => some (created, db)
    | (.error _, _) => none
  | _, _ => none

/-- The durable job when it runs, with the store. -/
def startedJob (env : ConversionEnv β) (prepared : PreparedConversion) (db : Database) :
    Option (JobRecord × Database) :=
  (createdJob env prepared db).bind fun created =>
    match transition env.started created.2 created.1.id .running "ENGINE_STARTED" with
    | (.ok running, db) => some (running, db)
    | (.error _, _) => none

/-- The execution of a durable job that runs. -/
def executionOf (env : ConversionEnv β) (plan : Anole.Plan) (running : JobRecord × Database) :=
  executePlanObserved plan env.execution (markValidating env.validating running.1.id) ⟨env.files, none, running.2⟩

/-- What is there after `run_prepared`. -/
def filesAfter (env : ConversionEnv β) (prepared : PreparedConversion) (db : Database) : Files Place (Common.Node β) :=
  (startedJob env prepared db).elim env.files fun running => (executionOf env prepared.plan running).final.files

/-- Where the execution is when it awaits the step after so many; nothing, if it does not come to it. The step
    that is awaited has not been done. -/
def awaiting (env : ConversionEnv β) (prepared : PreparedConversion) (db : Database) (steps : ℕ) :
    Option (Uuid × Common.Stage Database β) := do
  let running ← startedJob env prepared db
  let lane ← prepared.plan.lane
  let script := lane.script env.execution
  if steps < script.length then
    let reached ← passes (markValidating env.validating running.1.id) (script.take steps) ⟨env.files, none, running.2⟩
    pure (running.1.id, reached)
  else none

/-- `remove_output_artifacts` of a job that failed; `removed` says whether the removal works. -/
def withoutOutput (removed : Bool) (files : Files Place (Common.Node β)) : Files Place (Common.Node β) :=
  if removed then files.remove .destination else files

/-- A conversion that comes to its end. -/
def conversionEnded (env : ConversionEnv β) (removed : Bool) (prepared : PreparedConversion) (db : Database) :
    WebOutcome β :=
  let run := runPrepared env prepared db
  let durable := (createdJob env prepared db).map fun created => created.1.id
  let files := filesAfter env prepared db
  match run.1 with
  | .ok _ => ⟨durable, prepared.plan.lane, .succeeded, run.2, files⟩
  | .error _ => ⟨durable, prepared.plan.lane, .failed, run.2, withoutOutput removed files⟩

/-- `execute_web_job` with `run_conversion`: `prepare` is what comes before `run_prepared`. -/
def executeWebJob (env : ConversionEnv β) (removed : Bool) (prepare : Except AnoleError WebPlan) (timeout : Timeout)
    (db : Database) : WebOutcome β :=
  match prepare, timeout with
  | .error _, _ | .ok _, .preparing => ⟨none, none, .failed, db, fun _ => none⟩
  | .ok plan, .never => conversionEnded (fresh env) removed plan.prepared db
  | .ok plan, .executing steps =>
    match awaiting (fresh env) plan.prepared db steps with
    | some (jobId, reached) =>
      ⟨some jobId, plan.plan.lane, .failed, reached.outer, withoutOutput removed reached.files⟩
    | none => conversionEnded (fresh env) removed plan.prepared db

/-- **The web job is settled**: its durable job is not active and holds no output, nothing is staged for it, and
    the web job has succeeded exactly if the durable job has and its output is there. -/
structure WebOutcome.Settled (outcome : WebOutcome β) : Prop where
  ended : ∀ jobId ∈ outcome.durable, ∀ s, outcome.db.stateOf jobId = some s →
    s ≠ .planned ∧ s ≠ .inspecting ∧ s ≠ .running ∧ s ≠ .validating
  free : ∀ jobId ∈ outcome.durable, outcome.db.ownedKey jobId = none
  unstaged : outcome.durable ≠ none → ∀ lane ∈ outcome.lane, ∀ place ∈ lane.candidates, outcome.files place = none
  succeeded : outcome.state = .succeeded ↔ ∃ jobId ∈ outcome.durable,
    (outcome.db.stateOf jobId = some .completed ∨ outcome.db.stateOf jobId = some .warning) ∧
      outcome.files .destination ≠ none

/-- The conversion is not dropped while it executes, its durable job was started, what fails cleans up, and at
    the end everything works: of an execution that passes the report is saved and says that the output is good,
    the milestone and the last transition are recorded, the workspace is removed and the output is there; of
    one that fails the recovery works. -/
structure SettlesWhen (env : ConversionEnv β) (prepared : PreparedConversion) (db : Database) (timeout : Timeout) :
    Prop where
  awaited : ∀ steps, timeout = .executing steps → awaiting env prepared db steps = none
  started : env.started.fault = none
  cleans : ∀ running, startedJob env prepared db = some running →
    CleansUp (markValidating env.validating running.1.id) prepared.plan env.execution ⟨env.files, none, running.2⟩
  passes : prepared.plan.Executes env.execution env.validating.answer ⟨env.files, none, ()⟩ →
    env.saved = .ok () ∧ env.executed.report.status ≠ .fail ∧ env.validating.fault = none ∧ env.finish.fault = none ∧
      ∀ lane ∈ prepared.plan.lane, (lane.candidates ≠ [] → lane.RemovesWorkspace env.execution) ∧
        lane.WritesOutput env.execution
  fails : ¬ prepared.plan.Executes env.execution env.validating.answer ⟨env.files, none, ()⟩ →
    env.look.fault = none ∧ env.recover.fault = none

/-! ## The durable job -/

section Durable

variable {json : ReportJson} {env : ConversionEnv β} {prepared : PreparedConversion} {db db' : Database}
  {created : JobRecord} {s : JobState} {n : ℕ} {jobId : Uuid}

/-- A job owns its output as long as it has not ended. -/
theorem ownedKey_of_jobAt (h : JobAt json db jobId s n) : db.ownedKey jobId = none ↔ s.isTerminal = true := by
  obtain ⟨row, hrow, rfl, rfl, -⟩ := h.row
  cases hterminal : row.state.isTerminal with
  | false =>
    obtain ⟨r, -, -, hkey⟩ := h.sound.exists_reservation hrow hterminal
    rw [hkey]
    simp
  | true =>
    refine iff_of_true (ownedKey_eq_none.mpr fun r hr hid => ?_) rfl
    obtain ⟨other, hother, hsame, hactive⟩ := h.sound.jobs.reservationActive r hr
    rw [h.sound.jobs.jobIds.eq hother hrow (hsame.trans hid), hterminal] at hactive
    cases hactive

/-- `run_prepared` without a durable job fails, -/
theorem runPrepared_of_not_created (h : createdJob env prepared db = none) :
    ∃ error db', runPrepared env prepared db = (.error error, db') := by
  unfold createdJob at h
  unfold runPrepared
  split at h
  · rename_i output happroved houtput
    rw [happroved, houtput]
    dsimp only
    split at h
    · cases h
    · rename_i error after hcall
      rw [hcall]
      exact ⟨error, after, rfl⟩
  · rename_i hnot
    cases happroved : ensurePlanApproved prepared.plan (some prepared.approvedPlanHash) with
    | error error => exact ⟨error, db, rfl⟩
    | ok _ =>
      cases houtput : prepared.outputPath with
      | none => exact ⟨_, db, rfl⟩
      | some output => exact absurd houtput (hnot output happroved)

/-- and with one it goes on from there. -/
theorem runPrepared_of_created (h : Reachable json db) (hcreated : createdJob env prepared db = some (created, db')) :
    runPrepared env prepared db = runCreated env prepared.plan db' created.id ∧
      JobAt json db' created.id .planned 0 := by
  unfold createdJob at hcreated
  unfold runPrepared
  split at hcreated
  · rename_i output happroved houtput
    split at hcreated
    · rename_i record after hcall
      cases hcreated
      rw [happroved, houtput]
      dsimp only
      rw [hcall]
      exact ⟨rfl, createJob_ok h.sound hcall⟩
    · cases hcreated
  · cases hcreated

/-- **The course of a conversion** whose durable job was started. -/
theorem conversion_course (h : Reachable json db) (hcreated : createdJob env prepared db = some (created, db'))
    (hstarted : env.started.fault = none) :
    ∃ running result reached s n, startedJob env prepared db = some running ∧ running.1.id = created.id ∧
      JobAt json running.2 created.id .running 1 ∧
      (executionOf env prepared.plan running).result = result ∧
      (executionOf env prepared.plan running).final = reached ∧
      runPrepared env prepared db = concludeConversion env created.id result reached.outer ∧
      JobAt json reached.outer created.id s n ∧ isExecuting s = true ∧ n + 1 < sqliteIntegerLimit ∧
      (result = .ok () ↔ prepared.plan.Executes env.execution env.validating.answer ⟨env.files, none, ()⟩) ∧
      (result = .ok () → s = if env.validating.fault = none then .validating else .running) := by
  obtain ⟨hrun, hplanned⟩ := runPrepared_of_created h hcreated
  have hlegal : JobState.planned.canTransitionTo .running = true := rfl
  obtain ⟨running, db1, hok, hid, hat⟩ :=
    hplanned.transition_ok hlegal (by decide) (by decide) hstarted "ENGINE_STARTED"
  obtain ⟨result, reached, s, n, hresult, hfinal, hjob⟩ := hat.execution env prepared.plan
  refine ⟨(running, db1), result, reached, s, n, ?_, hid, hat, ?_, ?_, ?_, hjob⟩
  · rw [startedJob, hcreated, Option.bind_some, hok]
  · rw [executionOf, hid]
    exact hresult
  · rw [executionOf, hid]
    exact hfinal
  · rw [hrun, runCreated, hok]
    simp only [hid]
    rw [hresult, hfinal]

/-- A durable job that cannot be started stays planned. -/
theorem conversion_not_started (h : Reachable json db) (hcreated : createdJob env prepared db = some (created, db'))
    (hstarted : env.started.fault ≠ none) :
    (∃ error, runPrepared env prepared db = (.error error, db')) ∧ JobAt json db' created.id .planned 0 ∧
      startedJob env prepared db = none := by
  obtain ⟨hrun, hplanned⟩ := runPrepared_of_created h hcreated
  have hrefused : env.started.fault ≠ none ∨ JobState.planned.canTransitionTo .running = false := .inl hstarted
  obtain ⟨error, herror⟩ := hplanned.transition_error hrefused "ENGINE_STARTED"
  refine ⟨⟨error, ?_⟩, hplanned, ?_⟩
  · rw [hrun, runCreated, herror]
  · rw [startedJob, hcreated, Option.bind_some, herror]

/-- **A conversion that is dropped** while it executes leaves its durable job active. -/
theorem awaiting_active (h : Reachable json db) (hcreated : createdJob env prepared db = some (created, db'))
    {steps : ℕ} {reached : Common.Stage Database β} (hawaiting : awaiting env prepared db steps = some (jobId, reached)) :
    jobId = created.id ∧ ∃ s n, JobAt json reached.outer jobId s n ∧ isExecuting s = true := by
  unfold awaiting at hawaiting
  obtain ⟨running, hrunning, hawaiting⟩ := Option.bind_eq_some_iff.mp hawaiting
  obtain ⟨lane, -, hawaiting⟩ := Option.bind_eq_some_iff.mp hawaiting
  obtain ⟨-, hawaiting⟩ := Option.ite_none_right_eq_some.mp hawaiting
  obtain ⟨stage, hpasses, hend⟩ := Option.bind_eq_some_iff.mp hawaiting
  cases hend
  have hstarted : env.started.fault = none := by
    by_contra hnot
    rw [(conversion_not_started h hcreated hnot).2.2] at hrunning
    cases hrunning
  obtain ⟨running', _, _, _, _, hrunning', hid, hat, -⟩ := conversion_course h hcreated hstarted
  cases hrunning.symm.trans hrunning'
  -- The observer takes the job from running to validating, and not further.
  have hinvariant : JobAt json reached.outer created.id .running 1 ∨
      JobAt json reached.outer created.id .validating 2 := by
    refine outer_invariant (P := fun outer => JobAt json outer created.id .running 1 ∨
      JobAt json outer created.id .validating 2) ?_ (.inl hat) hpasses
    rintro outer (hrunning | hvalidating)
    · rw [hid]
      have hmarked := (hrunning.markValidating_eq (by decide) env.validating).2
      split at hmarked
      · exact .inr hmarked
      · rw [hmarked]
        exact .inl hrunning
    · rw [hid]
      have hillegal : env.validating.fault ≠ none ∨ JobState.validating.canTransitionTo .validating = false := .inr rfl
      obtain ⟨error, herror⟩ := hvalidating.transition_error hillegal "ENGINE_FINISHED"
      rw [markValidating, herror]
      exact .inr hvalidating
  refine ⟨hid, ?_⟩
  rw [hid]
  rcases hinvariant with hrunning | hvalidating
  · exact ⟨_, _, hrunning, rfl⟩
  · exact ⟨_, _, hvalidating, rfl⟩

end Durable

/-! ## When a web job is settled -/

section Settled

variable {json : ReportJson} {env : ConversionEnv β} {prepared : PreparedConversion} {db db' : Database}
  {created : JobRecord} {removed : Bool} {reached : Common.Stage Database β} {running : JobRecord × Database}
  {lane : Lane}

theorem passes_of_executed {plan : Anole.Plan}
    (hresult : (executionOf env plan running).result = .ok ()) (hfinal : (executionOf env plan running).final = reached)
    (hlane : plan.lane = some lane) :
    passes (markValidating env.validating running.1.id) (lane.script env.execution) ⟨env.files, none, running.2⟩ =
      some reached := by
  have hrun : Proc.wp (runScript (markValidating env.validating running.1.id) (lane.script env.execution))
      (fun _ => True)
      (fun _ _ => passes (markValidating env.validating running.1.id) (lane.script env.execution)
        ⟨env.files, none, running.2⟩ = none)
      (fun _ reached => passes (markValidating env.validating running.1.id) (lane.script env.execution)
        ⟨env.files, none, running.2⟩ = some reached) ⟨env.files, none, running.2⟩ := wp_runScript_passes
  rw [executionOf, executePlanObserved, hlane] at hresult hfinal
  have hend := hrun.2
  rw [hresult] at hend
  exact hend.trans (congrArg some hfinal)

/-- An execution leaves nothing staged if and only if its failure cleans up, or it passes and its workspace is
    removed. -/
theorem unstaged_iff {result : Except AnoleError Unit}
    (hfiles : env.files = fun _ => none)
    (hresult : (executionOf env prepared.plan running).result = result)
    (hfinal : (executionOf env prepared.plan running).final = reached) :
    (∀ lane ∈ prepared.plan.lane, ∀ place ∈ lane.candidates, reached.files place = none) ↔
      CleansUp (markValidating env.validating running.1.id) prepared.plan env.execution ⟨env.files, none, running.2⟩ ∧
        (result = .ok () → ∀ lane ∈ prepared.plan.lane, lane.candidates ≠ [] →
          lane.RemovesWorkspace env.execution) := by
  rw [← failsClean_iff]
  cases result with
  | error error =>
    have hfailed : (executePlanObserved prepared.plan env.execution (markValidating env.validating running.1.id)
        ⟨env.files, none, running.2⟩).result = .error error := hresult
    constructor
    · intro hnone
      refine ⟨⟨fun _ _ => trivial, ?_⟩, fun hok => by cases hok⟩
      rw [hfailed]
      exact hfinal ▸ hnone
    · rintro ⟨hclean, -⟩
      exact Proc.Fails.of_wp ⟨hresult, hfinal⟩ hclean
  | ok _ =>
    have hpassed : (executePlanObserved prepared.plan env.execution (markValidating env.validating running.1.id)
        ⟨env.files, none, running.2⟩).result = .ok () := hresult
    have hclean : FailsClean (markValidating env.validating running.1.id) prepared.plan env.execution
        ⟨env.files, none, running.2⟩ := by
      refine ⟨fun _ _ => trivial, ?_⟩
      rw [hpassed]
      trivial
    have hstart : Stage.Unstaged (⟨env.files, none, running.2⟩ : Common.Stage Database β) := by
      rw [hfiles]
      exact ⟨rfl, rfl⟩
    simp only [hclean, true_and, forall_const]
    refine forall_congr' fun lane => forall_congr' fun hlane => ?_
    rw [Lane.no_candidate_iff]
    exact forall_congr' fun hcandidates =>
      Lane.unstaged_iff hcandidates hstart (passes_of_executed hresult hfinal hlane)

/-- `remove_output_artifacts` concerns the output only. -/
theorem withoutOutput_staged {files : Files Place (Common.Node β)} :
    (∀ place ∈ lane.candidates, withoutOutput removed files place = none) ↔
      ∀ place ∈ lane.candidates, files place = none := by
  refine forall_congr' fun place => forall_congr' fun hplace => ?_
  have hne : place ≠ .destination := by
    rw [Lane.candidates] at hplace
    rintro rfl
    split at hplace <;> simp at hplace
  rw [withoutOutput]
  split
  · rw [Files.remove_of_ne hne]
  · rfl

/-- The output of an execution that succeeds is there if and only if its lane has written it. -/
theorem output_iff {plan : Anole.Plan}
    (hfiles : env.files = fun _ => none) (hresult : (executionOf env plan running).result = .ok ())
    (hfinal : (executionOf env plan running).final = reached)
    (hlane : plan.lane = some lane) :
    reached.files .destination ≠ none ↔ lane.WritesOutput env.execution := by
  have hdestination : (⟨env.files, none, running.2⟩ : Common.Stage Database β).files .destination = none := by
    rw [hfiles]
  exact Lane.destination_iff hdestination rfl (passes_of_executed hresult hfinal hlane)

theorem conversionEnded_files_of_ok {r : ConversionRunResult} (h : (runPrepared env prepared db).1 = .ok r) :
    (conversionEnded env removed prepared db).files = filesAfter env prepared db := by
  rw [conversionEnded]
  simp only [h]

/-- The web job of a conversion that has come to its end, by the state of the durable job. -/
theorem settled_iff_of_end {t : JobState} {m : ℕ} (hcreated : createdJob env prepared db = some (created, db'))
    (hend : JobAt json (runPrepared env prepared db).2 created.id t m) :
    (conversionEnded env removed prepared db).Settled ↔
      (t ≠ .planned ∧ t ≠ .inspecting ∧ t ≠ .running ∧ t ≠ .validating) ∧ t.isTerminal = true ∧
        (∀ lane ∈ prepared.plan.lane, ∀ place ∈ lane.candidates, filesAfter env prepared db place = none) ∧
        ((∃ r, (runPrepared env prepared db).1 = .ok r) ↔ (t = .completed ∨ t = .warning) ∧
          (conversionEnded env removed prepared db).files .destination ≠ none) := by
  have hdurable : (conversionEnded env removed prepared db).durable = some created.id := by
    rw [conversionEnded, hcreated]
    split <;> rfl
  have hlane : (conversionEnded env removed prepared db).lane = prepared.plan.lane := by
    rw [conversionEnded]
    split <;> rfl
  have hdb : (conversionEnded env removed prepared db).db = (runPrepared env prepared db).2 := by
    rw [conversionEnded]
    split <;> rfl
  have hstate : (conversionEnded env removed prepared db).state = .succeeded ↔
      ∃ r, (runPrepared env prepared db).1 = .ok r := by
    rw [conversionEnded]
    cases hrun : (runPrepared env prepared db).1 <;> simp
  have hfiles : ∀ lane : Lane, (∀ place ∈ lane.candidates,
      (conversionEnded env removed prepared db).files place = none) ↔
      ∀ place ∈ lane.candidates, filesAfter env prepared db place = none := by
    intro lane
    rw [conversionEnded]
    split
    · rfl
    · exact withoutOutput_staged
  have hat : ∀ s, (runPrepared env prepared db).2.stateOf created.id = some s ↔ t = s := fun s => by
    rw [hend.stateOf, Option.some_inj]
  have hended : (conversionEnded env removed prepared db).Settled ↔ _ :=
    ⟨fun h => (⟨h.ended, h.free, h.unstaged, h.succeeded⟩ : _ ∧ _ ∧ _ ∧ _), fun h => ⟨h.1, h.2.1, h.2.2.1, h.2.2.2⟩⟩
  rw [hended, hdurable, hlane, hdb, hstate]
  simp only [Option.mem_some_iff, forall_eq', exists_eq_left', ne_eq, reduceCtorEq, not_false_eq_true, forall_const, hat,
    hfiles, ownedKey_of_jobAt hend]

/-- The job of an execution that failed has ended if and only if the recovery works; it is not completed. -/
theorem endState_error (env : ConversionEnv β) {s : JobState} (hs : isExecuting s = true) (error : AnoleError) :
    ((env.endState s (.error error)).isTerminal = true ↔ env.look.fault = none ∧ env.recover.fault = none) ∧
      env.endState s (.error error) ≠ .completed ∧ env.endState s (.error error) ≠ .warning := by
  rw [ConversionEnv.endState]
  by_cases hworks : env.look.fault = none ∧ env.recover.fault = none
  · rw [if_pos hworks]
    simp only [hworks, and_self, iff_true]
    split <;> decide
  · rw [if_neg hworks]
    cases s <;> simp_all [isExecuting, JobState.isTerminal]

/-- The job of an execution that passed has ended if and only if its report is saved and the last transition is
    made; it is completed, then, unless the report says that the output failed. -/
theorem endState_ok (env : ConversionEnv β) {s : JobState} (hs : isExecuting s = true) :
    ((env.endState s (.ok ())).isTerminal = true ↔ env.saved = .ok () ∧ env.finish.fault = none ∧
        s.canTransitionTo (finalState env.executed.report.status) = true) ∧
      (env.endState s (.ok ()) = .completed ∨ env.endState s (.ok ()) = .warning →
        env.executed.report.status ≠ .fail) ∧
      (env.saved = .ok () ∧ env.finish.fault = none ∧
        s.canTransitionTo (finalState env.executed.report.status) = true →
        env.executed.report.status ≠ .fail → env.endState s (.ok ()) = .completed ∨ env.endState s (.ok ()) = .warning) := by
  rw [ConversionEnv.endState]
  cases hsave : env.saved with
  | error error =>
    dsimp only
    split <;> cases s <;> simp_all [isExecuting, JobState.isTerminal]
  | ok _ =>
    dsimp only
    by_cases hworks : env.finish.fault = none ∧ s.canTransitionTo (finalState env.executed.report.status) = true
    · rw [if_pos hworks]
      simp only [hworks, and_self, iff_true]
      cases env.executed.report.status <;> decide
    · rw [if_neg hworks]
      cases s <;> simp_all [isExecuting, JobState.isTerminal]

/-- **A conversion that comes to its end** settles its web job if and only if its durable job was started and
    all works that has to. -/
theorem ended_settled_iff (h : Reachable json db) (hfiles : env.files = fun _ => none)
    (hcreated : createdJob env prepared db = some (created, db')) {timeout : Timeout}
    (hawaited : ∀ steps, timeout = .executing steps → awaiting env prepared db steps = none) :
    (conversionEnded env removed prepared db).Settled ↔ SettlesWhen env prepared db timeout := by
  by_cases hstarted : env.started.fault = none
  · obtain ⟨running, result, reached, s, n, hrunning, -, -, hresult, hfinal, hrun, hjob, hs, hroom, hexecutes, hstate⟩ :=
      conversion_course h hcreated hstarted
    obtain ⟨⟨m, hend⟩, hok⟩ := conclude_ends hjob hs hroom result
    rw [← hrun] at hend hok
    have hafter : filesAfter env prepared db = reached.files := by
      rw [filesAfter, hrunning]
      exact congrArg Stage.files hfinal
    -- a terminal state is none of the four
    have hended : ∀ t : JobState, (t ≠ .planned ∧ t ≠ .inspecting ∧ t ≠ .running ∧ t ≠ .validating) ∧
        t.isTerminal = true ↔ t.isTerminal = true := by
      intro t
      cases t <;> decide
    have hwhen : SettlesWhen env prepared db timeout ↔
        CleansUp (markValidating env.validating running.1.id) prepared.plan env.execution
          ⟨env.files, none, running.2⟩ ∧
        (prepared.plan.Executes env.execution env.validating.answer ⟨env.files, none, ()⟩ →
          env.saved = .ok () ∧ env.executed.report.status ≠ .fail ∧ env.validating.fault = none ∧
            env.finish.fault = none ∧ ∀ lane ∈ prepared.plan.lane,
              (lane.candidates ≠ [] → lane.RemovesWorkspace env.execution) ∧ lane.WritesOutput env.execution) ∧
        (¬ prepared.plan.Executes env.execution env.validating.answer ⟨env.files, none, ()⟩ →
          env.look.fault = none ∧ env.recover.fault = none) := by
      constructor
      · exact fun h => ⟨h.cleans running hrunning, h.passes, h.fails⟩
      · rintro ⟨hcleans, hpasses, hfails⟩
        refine ⟨hawaited, hstarted, fun other hother => ?_, hpasses, hfails⟩
        cases hrunning.symm.trans hother
        exact hcleans
    rw [settled_iff_of_end hcreated hend, ← and_assoc, hended, hafter, unstaged_iff hfiles hresult hfinal, hok, hwhen]
    cases result with
    | error error =>
      have hnot : ¬ prepared.plan.Executes env.execution env.validating.answer ⟨env.files, none, ()⟩ :=
        fun hyes => by cases hexecutes.mpr hyes
      obtain ⟨hterminal, hcompleted, hwarning⟩ := endState_error env hs error
      simp only [hterminal, hcompleted, hwarning, hnot, reduceCtorEq, false_implies, and_true, false_and, or_self,
        not_false_eq_true, forall_const, true_and]
      exact and_comm
    | ok _ =>
      have hyes := hexecutes.mp rfl
      obtain ⟨hterminal, hgood, hcompleted⟩ := endState_ok env hs
      have hlegal : env.executed.report.status ≠ .fail →
          (s.canTransitionTo (finalState env.executed.report.status) = true ↔ env.validating.fault = none) := by
        intro hstatus
        rw [hstate rfl]
        by_cases hfault : env.validating.fault = none <;>
          cases hreport : env.executed.report.status <;> simp_all [finalState, JobState.canTransitionTo]
      obtain ⟨lane, hlane, -⟩ := id hyes
      have houtput := output_iff hfiles hresult hfinal hlane
      rw [hterminal]
      constructor
      · rintro ⟨hworks, ⟨hcleans, hremoves⟩, hsucceeds⟩
        obtain ⟨hdone, hthere⟩ := hsucceeds.mp ⟨rfl, hworks⟩
        obtain ⟨hsaved, hfinish, hmoves⟩ := hworks
        obtain ⟨r, hr⟩ := hok.mpr ⟨rfl, hsaved, hfinish, hmoves⟩
        rw [conversionEnded_files_of_ok hr, hafter] at hthere
        have hstatus := hgood hdone
        refine ⟨hcleans, fun _ => ⟨hsaved, hstatus, (hlegal hstatus).mp hmoves, hfinish, fun other hother => ?_⟩, fun hnot =>
          absurd hyes hnot⟩
        cases hlane.symm.trans hother
        exact ⟨hremoves rfl lane hlane, houtput.mp hthere⟩
      · rintro ⟨hcleans, hpasses, -⟩
        obtain ⟨hsaved, hstatus, hvalidating, hfinish, hlanes⟩ := hpasses hyes
        have hmoves := (hlegal hstatus).mpr hvalidating
        obtain ⟨r, hr⟩ := hok.mpr ⟨rfl, hsaved, hfinish, hmoves⟩
        have hthere := houtput.mpr (hlanes lane hlane).2
        rw [conversionEnded_files_of_ok hr, hafter]
        exact ⟨⟨hsaved, hfinish, hmoves⟩, ⟨hcleans, fun _ lane hlane => (hlanes lane hlane).1⟩,
          iff_of_true ⟨rfl, hsaved, hfinish, hmoves⟩ ⟨hcompleted ⟨hsaved, hfinish, hmoves⟩ hstatus, hthere⟩⟩
  · obtain ⟨-, hplanned, -⟩ := conversion_not_started h hcreated hstarted
    obtain ⟨⟨error, hrun⟩, -, -⟩ := conversion_not_started h hcreated hstarted
    have hend : JobAt json (runPrepared env prepared db).2 created.id .planned 0 := by
      rw [hrun]
      exact hplanned
    rw [settled_iff_of_end hcreated hend]
    exact iff_of_false (fun hall => hall.1.1 rfl) fun hwhen => hstarted hwhen.started

/-- Without a durable job there is nothing to settle. -/
theorem settled_of_not_created {outcome : WebOutcome β} (hdurable : outcome.durable = none)
    (hstate : outcome.state = .failed) : outcome.Settled := by
  refine ⟨fun jobId hjob => ?_, fun jobId hjob => ?_, fun hnot => absurd hdurable hnot, ?_⟩
  · rw [hdurable] at hjob
    cases hjob
  · rw [hdurable] at hjob
    cases hjob
  · rw [hstate, hdurable]
    simp

theorem conversionEnded_settled_iff (h : Reachable json db) (hfiles : env.files = fun _ => none) {timeout : Timeout}
    (hawaited : ∀ steps, timeout = .executing steps → awaiting env prepared db steps = none) :
    (conversionEnded env removed prepared db).Settled ↔
      (createdJob env prepared db ≠ none → SettlesWhen env prepared db timeout) := by
  cases hcreated : createdJob env prepared db with
  | none =>
    refine iff_of_true (settled_of_not_created ?_ ?_) (fun hnot => absurd rfl hnot)
    · rw [conversionEnded, hcreated]
      split <;> rfl
    · obtain ⟨error, db', hrun⟩ := runPrepared_of_not_created hcreated
      rw [conversionEnded, hrun]
  | some created =>
    rw [ended_settled_iff h hfiles hcreated hawaited]
    simp

/-- A web job whose conversion is dropped while it executes is not settled. -/
theorem not_settled_of_awaiting (h : Reachable json db) {steps : ℕ} {jobId : Uuid}
    (hawaiting : awaiting env prepared db steps = some (jobId, reached)) (lane : Option Lane)
    (files : Files Place (Common.Node β)) :
    createdJob env prepared db ≠ none ∧ ¬ (⟨some jobId, lane, .failed, reached.outer, files⟩ : WebOutcome β).Settled := by
  cases hcreated : createdJob env prepared db with
  | none =>
    unfold awaiting at hawaiting
    rw [startedJob, hcreated] at hawaiting
    cases hawaiting
  | some created =>
    refine ⟨Option.some_ne_none _, fun hsettled => ?_⟩
    obtain ⟨-, s, n, hat, hs⟩ := awaiting_active h hcreated hawaiting
    obtain ⟨-, -, hrunning, hvalidating⟩ := hsettled.ended jobId rfl s hat.stateOf
    cases s <;> simp_all [isExecuting]

/-- **The web job is settled** if and only if no durable job was created, or the timeout does not drop its
    conversion and all works that has to. -/
theorem web_job_settles_iff (h : Reachable json db) (env : ConversionEnv β) (removed : Bool)
    (prepare : Except AnoleError WebPlan) (timeout : Timeout) :
    (executeWebJob env removed prepare timeout db).Settled ↔
      ∀ plan, prepare = .ok plan → timeout ≠ .preparing → createdJob (fresh env) plan.prepared db ≠ none →
        SettlesWhen (fresh env) plan.prepared db timeout := by
  cases prepare with
  | error error =>
    refine iff_of_true ?_ (fun plan hplan => by cases hplan)
    cases timeout <;> exact settled_of_not_created rfl rfl
  | ok plan =>
    simp only [Except.ok.injEq, forall_eq']
    cases timeout with
    | preparing => exact iff_of_true (settled_of_not_created rfl rfl) fun hnot => absurd rfl hnot
    | never =>
      have hawaited : ∀ steps, Timeout.never = .executing steps → awaiting (fresh env) plan.prepared db steps = none :=
        fun _ hnever => by cases hnever
      show (conversionEnded (fresh env) removed plan.prepared db).Settled ↔ _
      rw [conversionEnded_settled_iff h rfl hawaited]
      simp
    | executing steps =>
      cases hawaiting : awaiting (fresh env) plan.prepared db steps with
      | none =>
        have hawaited : ∀ other, Timeout.executing steps = .executing other →
            awaiting (fresh env) plan.prepared db other = none := by
          intro other hother
          cases hother
          exact hawaiting
        simp only [executeWebJob, hawaiting]
        rw [conversionEnded_settled_iff h rfl hawaited]
        simp
      | some left =>
        obtain ⟨jobId, reached⟩ := left
        obtain ⟨hcreated, hnot⟩ := not_settled_of_awaiting h hawaiting plan.plan.lane
          (withoutOutput removed reached.files)
        simp only [executeWebJob, hawaiting]
        refine iff_of_false hnot fun hwhen => ?_
        have hnone := (hwhen (by simp) hcreated).awaited steps rfl
        rw [hawaiting] at hnone
        cases hnone

end Settled

/-! ## A conversion that is dropped -/

namespace TimeoutSample

def plan : WebPlan := ⟨.ofString "in.json", some (.ofString "out.yaml"), Sample.plan⟩

/-- Everything works. -/
def env : ConversionEnv String := { ConversionSample.env with finish := Sample.env 1 }

/-- The timeout comes when the product has been written: the web job has failed, its durable job runs, and the
    product stays. -/
theorem durable_job_left_running :
    ¬ (executeWebJob env true (.ok plan) (.executing 9) Database.empty).Settled ∧
      (executeWebJob env true (.ok plan) (.executing 9) Database.empty).state = .failed ∧
      (executeWebJob env true (.ok plan) (.executing 9) Database.empty).durable = some 1 ∧
      (executeWebJob env true (.ok plan) (.executing 9) Database.empty).db.stateOf 1 = some .running ∧
      (executeWebJob env true (.ok plan) (.executing 9) Database.empty).files .product ≠ none := by
  have hdurable : (executeWebJob env true (.ok plan) (.executing 9) Database.empty).durable = some 1 := by
    decide
  have hstate : (executeWebJob env true (.ok plan) (.executing 9) Database.empty).db.stateOf 1 = some .running := by
    decide
  exact ⟨fun h => (h.ended 1 hdurable .running hstate).2.2.1 rfl, by decide, hdurable, hstate, by decide⟩

/-- With a conversion that comes to its end in time. -/
theorem web_job_settles_in_time :
    (executeWebJob env true (.ok plan) .never Database.empty).Settled ↔
      ∀ other, (Except.ok plan : Except AnoleError WebPlan) = .ok other → Timeout.never ≠ .preparing →
        createdJob (fresh env) other.prepared Database.empty ≠ none →
          SettlesWhen (fresh env) other.prepared Database.empty .never :=
  web_job_settles_iff (reachable_empty (Sample.json 1)) env true (.ok plan) .never

end TimeoutSample

end Anole.Web
