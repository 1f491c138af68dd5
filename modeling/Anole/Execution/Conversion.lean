import Anole.Execution.Lanes
import Anole.Queue.Advance

/-!
# Immediate conversions

Model of `ConversionService::run_prepared` (`application/conversion_service.rs`, lines 73–163) and
of `ReportService::persist_before_terminal` (`application/report_service.rs`, lines 140–188). The
job of a conversion goes from `Planned` to `Running`, at the milestone to `Validating`, and at the
end to a terminal state; a failed execution and a report that is not saved take it to `Failed`,
`Cancelled` or `Interrupted`. The last transition is made once, and a failure of it is returned as
it is.

What SQLite does at each call, what the environment does at each step of the lane, and what saving
the report gives are parameters. `on_job_updated` sees the records and changes nothing.

* `conversion_settles_iff`: when the job of a conversion is not left active.
-/

open Common

namespace Anole

/-! ## Approval -/

/-- `ensure_plan_approved` (`workflow.rs`, lines 301–323). -/
def ensurePlanApproved (plan : Plan) (approvedPlanHash : Option String) : Except AnoleError Unit :=
  match approvedPlanHash.filter fun value => trim value ≠ "" with
  | none => .error (.new .policyBlocked .plan "Conversion requires an approved preview Plan"
      "Inspect and preview the Plan, then approve that exact Plan for execution.")
  | some approved =>
    if approved ≠ plan.planHash then
      .error ((AnoleError.new .inputChanged .plan "The conversion Plan changed after preview"
        "Review the updated Plan and approve it again before execution.").withDiagnostic
        s!"approved_plan_hash={approved}; current_plan_hash={plan.planHash}")
    else .ok ()

/-- `create_job` (`job_store.rs`, lines 599–620). -/
def createJob (env : CallEnv) (db : Database) (request : JobCreateRequest) :
    Except AnoleError JobRecord × Database :=
  match createJobs env db [request] with
  | (.error error, db) => (.error error, db)
  | (.ok records, db) => match records.getLast? with
    | some record => (.ok record, db)
    | none => (.error (.new .internal .store "Bulk job creation returned no job"
        "Retry creating the job."), db)

/-! ## The run of a conversion -/

/-- What `run_prepared` is called with. -/
structure PreparedConversion where
  inputPath : PathBuf
  outputPath : Option PathBuf
  plan : Plan
  approvedPlanHash : String

/-- What an execution returns (`runner.rs`, lines 38–43). -/
structure ExecutionResult where
  outputPath : PathBuf
  report : ValidationReport
  deriving DecidableEq

/-- What the environment does at each call of a run: `look` and `recover` are the two calls that
    bring an active job to an end after a failure. -/
structure ConversionEnv (β : Type) where
  create : CallEnv
  started : CallEnv
  validating : CallEnv
  look : CallEnv
  recover : CallEnv
  finish : CallEnv
  execution : Environment β
  /-- the files of the output and of what is staged for it -/
  files : Files Place (Node β)
  /-- what the execution returns when no step of it fails -/
  executed : ExecutionResult
  /-- the result of `ReportService::save` -/
  saved : Except AnoleError Unit

/-- `ConversionRunResult`. -/
structure ConversionRunResult where
  job : JobRecord
  outputPath : PathBuf
  report : ValidationReport
  deriving DecidableEq

/-- `matches!(state, JobState::Running | JobState::Validating)`. -/
def isExecuting : JobState → Bool
  | .running | .validating => true
  | _ => false

/-- The state that ends a job with a report (`report_service.rs`, lines 156–160). -/
def finalState : ValidationStatus → JobState
  | .pass => .completed
  | .warning | .unknown => .warning
  | .fail => .failed

/-- The job is looked up, and an active one moves to `next`: `interrupt_after_report_failure`
    (`report_service.rs`, lines 174–188) and the recovery of `run_prepared` (lines 132–145). -/
def endIfExecuting (look recover : CallEnv) (db : Database) (jobId : Uuid) (next : JobState)
    (code : String) : Except AnoleError (Option JobRecord) × Database :=
  match getJob look db jobId with
  | .error error => (.error error, db)
  | .ok none => (.ok none, db)
  | .ok (some current) =>
    if isExecuting current.state then (transition recover db jobId next code).map (·.map some) id
    else (.ok none, db)

section Runs

variable {β : Type}

/-- `persist_before_terminal`. -/
def persistBeforeTerminal (env : ConversionEnv β) (db : Database) (jobId : Uuid) (code : String) :
    Except AnoleError JobRecord × Database :=
  match env.saved with
  | .error error =>
    match endIfExecuting env.look env.recover db jobId .interrupted "REPORT_PERSIST_FAILED" with
    | (.ok _, db) => (.error error, db)
    | (.error recovery, db) =>
      let previous := error.diagnostic.getD ""
      (.error (error.withDiagnostic
        s!"{previous}; recovery transition also failed: {recovery.display}"), db)
  | .ok () => transition env.finish db jobId (finalState env.executed.report.status) code

/-- The observer of the milestone (lines 106–114). -/
def markValidating (env : CallEnv) (jobId : Uuid) (db : Database) : Except AnoleError Unit × Database :=
  (transition env db jobId .validating "ENGINE_FINISHED").map (·.map fun _ => ()) id

/-- The diagnostic of an execution whose recovery failed too (lines 149–158). -/
def withRecoveryError (error recovery : AnoleError) : AnoleError :=
  let original := error.diagnostic.getD ""
  error.withDiagnostic (
    if original = "" then s!"job recovery transition also failed: {recovery.display}"
    else s!"{original}; job recovery transition also failed: {recovery.display}")

/-- What follows an execution (lines 117–162). -/
def concludeConversion (env : ConversionEnv β) (jobId : Uuid) (result : Except AnoleError Unit)
    (db : Database) : Except AnoleError ConversionRunResult × Database :=
  match result with
  | .ok () => (persistBeforeTerminal env db jobId "VALIDATION_FINISHED").map
      (·.map fun job => ⟨job, env.executed.outputPath, env.executed.report⟩) id
  | .error error =>
    let cancelled := error.code = .cancelled
    match endIfExecuting env.look env.recover db jobId (if cancelled then .cancelled else .failed)
      (if cancelled then "EXECUTION_CANCELLED" else "EXECUTION_STOPPED") with
    | (.ok _, db) => (.error error, db)
    | (.error recovery, db) => (.error (withRecoveryError error recovery), db)

/-- `run_prepared` from the created job on (lines 94–162). -/
def runCreated (env : ConversionEnv β) (plan : Plan) (db : Database) (jobId : Uuid) :
    Except AnoleError ConversionRunResult × Database :=
  match transition env.started db jobId .running "ENGINE_STARTED" with
  | (.error error, db) => (.error error, db)
  | (.ok running, db) =>
    let run := executePlanObserved plan env.execution (markValidating env.validating running.id)
      ⟨env.files, none, db⟩
    concludeConversion env running.id run.result run.final.outer

/-- `run_prepared`. -/
def runPrepared (env : ConversionEnv β) (prepared : PreparedConversion) (db : Database) :
    Except AnoleError ConversionRunResult × Database :=
  match ensurePlanApproved prepared.plan (some prepared.approvedPlanHash) with
  | .error error => (.error error, db)
  | .ok () =>
    match prepared.outputPath with
    | none => (.error (.new .inputInvalid .plan
        "Immediate conversion requires a resolved output path"
        "Choose an output path and preview the Plan again."), db)
    | some output =>
      match createJob env.create db ⟨prepared.inputPath, output, prepared.plan⟩ with
      | (.error error, db) => (.error error, db)
      | (.ok created, db) => runCreated env prepared.plan db created.id

end Runs

/-! ## A job on its way -/

/-- The job is in the state `s` after `n` moves. -/
structure JobAt (json : ReportJson) (db : Database) (jobId : Uuid) (s : JobState) (n : ℕ) : Prop where
  sound : Sound json db
  row : ∃ row ∈ db.jobs, row.id = jobId ∧ row.state = s ∧ row.sequence = n

/-- What a call that finds a legal transition answers. -/
def CallEnv.answer (env : CallEnv) : Except AnoleError Unit :=
  match env.fault with
  | some error => .error error
  | none => .ok ()

section Jobs

variable {json : ReportJson} {env : CallEnv} {db db' : Database} {jobId : Uuid} {s next : JobState} {n : ℕ}
  {code : String}

theorem JobAt.stateOf (h : JobAt json db jobId s n) : db.stateOf jobId = some s := by
  obtain ⟨row, hrow, hid, hs, -⟩ := h.row
  exact (stateOf_eq_some h.sound).mpr ⟨row, hrow, hid, hs⟩

theorem createJob_ok (h : Sound json db) {request : JobCreateRequest} {record : JobRecord}
    (hok : createJob env db request = (.ok record, db')) : JobAt json db' record.id .planned 0 := by
  rw [createJob, createJobs, if_neg (List.cons_ne_nil _ _)] at hok
  cases hcall : transaction env db (insertJobs env env.newV4 0 db [request]) with
  | mk result committed =>
    rw [hcall] at hok
    cases result with
    | error error => cases hok
    | ok records =>
      have hbody := (transaction_ok.mp hcall).2
      rw [insertJobs] at hbody
      obtain ⟨⟨record', db1⟩, hinsert, hrest⟩ := bind_eq_ok.mp hbody
      cases hrest
      cases hok
      have hsound := (insertJob_write h hinsert).sound h
      obtain ⟨key, -, -, -, rfl, rfl⟩ := insertJob_ok h hinsert
      refine ⟨hsound, newJobRow env (env.newV4 0) request, ?_, rfl, rfl, rfl⟩
      exact List.mem_append_right _ List.mem_cons_self

/-- A legal transition is made. -/
theorem JobAt.transition_ok (h : JobAt json db jobId s n) (hlegal : s.canTransitionTo next = true)
    (hnext : next ≠ .queued) (hroom : n + 1 < sqliteIntegerLimit) (hfault : env.fault = none)
    (code : String) : ∃ record db', transition env db jobId next code = (.ok record, db') ∧ record.id = jobId ∧
      JobAt json db' jobId next (n + 1) := by
  obtain ⟨row, hrow, rfl, rfl, rfl⟩ := h.row
  obtain ⟨db', rs, hok, hmoves⟩ := transition_of_legal h.sound hrow hlegal hnext hroom hfault code
  refine ⟨_, db', hok, rfl, hmoves.write.sound h.sound, _, hmoves.mem_moved h.sound, rfl, rfl, rfl⟩

/-- A transition that SQLite or the state machine refuses changes nothing. -/
theorem JobAt.transition_error (h : JobAt json db jobId s n)
    (hrefused : env.fault ≠ none ∨ s.canTransitionTo next = false) (code : String) :
    ∃ error, transition env db jobId next code = (.error error, db) := by
  cases hcall : transition env db jobId next code with
  | mk result db' =>
    cases result with
    | error error => exact ⟨error, by rw [transaction_error hcall]⟩
    | ok record =>
      obtain ⟨row, rs, hmoves, -⟩ := Anole.transition_ok h.sound hcall
      obtain ⟨row', hrow', hid, hs, -⟩ := h.row
      have hsame : row = row' := h.sound.jobs.jobIds.eq hmoves.mem hrow' (hmoves.jobId.trans hid.symm)
      have hlegal := hmoves.legal
      rw [hsame, hs] at hlegal
      rcases hrefused with hfault | hillegal
      · exact absurd (transaction_ok.mp hcall).1 hfault
      · rw [hillegal] at hlegal
        cases hlegal

theorem JobAt.getJob_eq (h : JobAt json db jobId s n) (hfault : env.fault = none) :
    ∃ record, getJob env db jobId = .ok (some record) ∧ record.state = s := by
  cases hget : getJob env db jobId with
  | error error =>
    rw [getJob, hfault] at hget
    cases hget
  | ok job =>
    have hstate := (getJob_eq_ok hget).2
    rw [h.stateOf] at hstate
    cases job with
    | none => cases hstate
    | some record => exact ⟨record, rfl, (Option.some.inj hstate).symm⟩

/-- An active job is ended when both calls work, -/
theorem JobAt.endIfExecuting_ok (h : JobAt json db jobId s n) (hs : isExecuting s = true)
    (hnext : next = .interrupted ∨ next = .cancelled ∨ next = .failed) (hroom : n + 1 < sqliteIntegerLimit)
    {look recover : CallEnv} (hlook : look.fault = none) (hrecover : recover.fault = none) (code : String) :
    ∃ ended db', endIfExecuting look recover db jobId next code = (.ok ended, db') ∧
      JobAt json db' jobId next (n + 1) := by
  obtain ⟨current, hget, hcurrent⟩ := h.getJob_eq hlook
  have hlegal : s.canTransitionTo next = true := by
    rcases hnext with rfl | rfl | rfl <;> cases s <;> simp_all [isExecuting, JobState.canTransitionTo]
  have hqueued : next ≠ .queued := by
    rcases hnext with rfl | rfl | rfl <;> decide
  obtain ⟨record, db', hok, -, hat⟩ := h.transition_ok hlegal hqueued hroom hrecover code
  refine ⟨some record, db', ?_, hat⟩
  rw [endIfExecuting, hget]
  simp only [hcurrent, hs, if_true, hok]
  rfl

/-- and left as it is otherwise. -/
theorem JobAt.endIfExecuting_error (h : JobAt json db jobId s n) (hs : isExecuting s = true)
    {look recover : CallEnv} (hfails : ¬ (look.fault = none ∧ recover.fault = none)) (next : JobState)
    (code : String) : ∃ error, endIfExecuting look recover db jobId next code = (.error error, db) := by
  rw [endIfExecuting]
  cases hlook : look.fault with
  | some error => exact ⟨error, by rw [getJob, hlook]⟩
  | none =>
    obtain ⟨current, hget, hcurrent⟩ := h.getJob_eq hlook
    have hnot : recover.fault ≠ none ∨ s.canTransitionTo next = false :=
      .inl fun hrecover => hfails ⟨hlook, hrecover⟩
    obtain ⟨error, hrefused⟩ := h.transition_error hnot code
    refine ⟨error, ?_⟩
    rw [hget]
    simp only [hcurrent, hs, if_true, hrefused]
    rfl

/-- The milestone: the job is validating afterwards, or nothing has changed. -/
theorem JobAt.markValidating_eq (h : JobAt json db jobId .running n) (hroom : n + 1 < sqliteIntegerLimit)
    (env : CallEnv) :
    (markValidating env jobId db).1 = env.answer ∧
      if env.fault = none then JobAt json (markValidating env jobId db).2 jobId .validating (n + 1)
      else (markValidating env jobId db).2 = db := by
  cases hfault : env.fault with
  | some error =>
    have hcall : transition env db jobId .validating "ENGINE_FINISHED" = (.error error, db) := by
      simp only [transition, transaction, hfault]
    rw [markValidating, hcall, CallEnv.answer, hfault]
    exact ⟨rfl, rfl⟩
  | none =>
    have hlegal : JobState.running.canTransitionTo .validating = true := rfl
    obtain ⟨record, db', hok, -, hat⟩ := h.transition_ok hlegal (by decide) hroom hfault "ENGINE_FINISHED"
    rw [markValidating, hok, CallEnv.answer, hfault]
    exact ⟨rfl, hat⟩

end Jobs

/-! ## When a conversion settles its job -/

section Settled

variable {β : Type} {json : ReportJson} {env : ConversionEnv β} {db : Database} {jobId : Uuid}
  {s : JobState} {n : ℕ} {plan : Plan}

/-- The job is not left active, and a result is returned only when the job is in the state that
    matches the report. -/
def SettlesJob (jobId : Uuid) (run : Except AnoleError ConversionRunResult × Database) : Prop :=
  (∀ s, run.2.stateOf jobId = some s → s ≠ .inspecting ∧ s ≠ .running ∧ s ≠ .validating) ∧
    ∀ result, run.1 = .ok result → run.2.stateOf jobId = some (finalState result.report.status)

/-- When the execution passes and its report is saved, the last transition works and finds a job
    that it may end: the milestone was recorded, or the report says that the output failed. When
    not, the two calls that end an active job work. -/
def ConversionSettles (env : ConversionEnv β) (plan : Plan) : Prop :=
  env.started.fault = none →
    (plan.Executes env.execution env.validating.answer ⟨env.files, none, ()⟩ ∧ env.saved = .ok () →
      env.finish.fault = none ∧ (env.validating.fault = none ∨ env.executed.report.status = .fail)) ∧
    (¬ (plan.Executes env.execution env.validating.answer ⟨env.files, none, ()⟩ ∧ env.saved = .ok ()) →
      env.look.fault = none ∧ env.recover.fault = none)

/-- A run that ends with the job in the state `s`. -/
theorem settlesJob_of_error {error : AnoleError} (hstate : db.stateOf jobId = some s) :
    SettlesJob jobId (.error error, db) ↔ s ≠ .inspecting ∧ s ≠ .running ∧ s ≠ .validating := by
  simp [SettlesJob, hstate]

theorem ended_ne_active {next : JobState} (h : next = .interrupted ∨ next = .cancelled ∨ next = .failed) :
    next ≠ .inspecting ∧ next ≠ .running ∧ next ≠ .validating := by
  rcases h with rfl | rfl | rfl <;> decide

theorem not_settled_of_executing {error : AnoleError} (h : JobAt json db jobId s n)
    (hs : isExecuting s = true) : ¬ SettlesJob jobId (.error error, db) := by
  rw [settlesJob_of_error h.stateOf]
  cases s <;> simp_all [isExecuting]

/-- **A failed execution** settles the job if and only if the two recovery calls work. -/
theorem conclude_error_iff (h : JobAt json db jobId s n) (hs : isExecuting s = true)
    (hroom : n + 1 < sqliteIntegerLimit) (error : AnoleError) :
    SettlesJob jobId (concludeConversion env jobId (.error error) db) ↔
      env.look.fault = none ∧ env.recover.fault = none := by
  have hnext : ∀ cancelled : Prop, [Decidable cancelled] →
      (if cancelled then JobState.cancelled else .failed) = .interrupted ∨
      (if cancelled then JobState.cancelled else .failed) = .cancelled ∨
      (if cancelled then JobState.cancelled else .failed) = .failed := by
    intro cancelled _
    split <;> simp
  rw [concludeConversion]
  by_cases hworks : env.look.fault = none ∧ env.recover.fault = none
  · obtain ⟨ended, db', hok, hat⟩ := h.endIfExecuting_ok hs (hnext (error.code = .cancelled)) hroom
      hworks.1 hworks.2 (if error.code = .cancelled then "EXECUTION_CANCELLED" else "EXECUTION_STOPPED")
    simp only [hok]
    rw [settlesJob_of_error hat.stateOf]
    exact iff_of_true (ended_ne_active (hnext _)) hworks
  · obtain ⟨recovery, herror⟩ := h.endIfExecuting_error hs hworks
      (if error.code = .cancelled then .cancelled else .failed)
      (if error.code = .cancelled then "EXECUTION_CANCELLED" else "EXECUTION_STOPPED")
    simp only [herror]
    exact iff_of_false (not_settled_of_executing h hs) hworks

/-- **A report that is not saved** settles the job if and only if the two recovery calls work. -/
theorem conclude_unsaved_iff (h : JobAt json db jobId s n) (hs : isExecuting s = true)
    (hroom : n + 1 < sqliteIntegerLimit) (hsaved : env.saved ≠ .ok ()) :
    SettlesJob jobId (concludeConversion env jobId (.ok ()) db) ↔
      env.look.fault = none ∧ env.recover.fault = none := by
  cases hsave : env.saved with
  | ok _ => exact absurd hsave hsaved
  | error error =>
    rw [concludeConversion, persistBeforeTerminal, hsave]
    by_cases hworks : env.look.fault = none ∧ env.recover.fault = none
    · obtain ⟨ended, db', hok, hat⟩ :=
        h.endIfExecuting_ok hs (.inl rfl) hroom hworks.1 hworks.2 "REPORT_PERSIST_FAILED"
      simp only [hok]
      exact iff_of_true ((settlesJob_of_error hat.stateOf).mpr (by decide)) hworks
    · obtain ⟨recovery, herror⟩ := h.endIfExecuting_error hs hworks .interrupted "REPORT_PERSIST_FAILED"
      simp only [herror]
      exact iff_of_false (not_settled_of_executing h hs) hworks

/-- **A report that is saved** settles the job if and only if the last transition works and is
    legal. -/
theorem conclude_saved_iff (h : JobAt json db jobId s n) (hs : isExecuting s = true)
    (hroom : n + 1 < sqliteIntegerLimit) (hsaved : env.saved = .ok ()) :
    SettlesJob jobId (concludeConversion env jobId (.ok ()) db) ↔
      env.finish.fault = none ∧ (s = .validating ∨ env.executed.report.status = .fail) := by
  have hlegal : s.canTransitionTo (finalState env.executed.report.status) = true ↔
      s = .validating ∨ env.executed.report.status = .fail := by
    cases s <;> cases env.executed.report.status <;> simp_all [isExecuting, finalState, JobState.canTransitionTo]
  have hqueued : finalState env.executed.report.status ≠ .queued := by
    cases env.executed.report.status <;> decide
  rw [concludeConversion, persistBeforeTerminal, hsaved]
  by_cases hworks : env.finish.fault = none ∧ (s = .validating ∨ env.executed.report.status = .fail)
  · obtain ⟨record, db', hok, -, hat⟩ :=
      h.transition_ok (hlegal.mpr hworks.2) hqueued hroom hworks.1 "VALIDATION_FINISHED"
    simp only [hok]
    refine iff_of_true ⟨fun state hstate => ?_, fun result hresult => ?_⟩ hworks
    · cases hat.stateOf.symm.trans hstate
      cases env.executed.report.status <;> decide
    · cases hresult
      exact hat.stateOf
  · have hrefused : env.finish.fault ≠ none ∨ s.canTransitionTo (finalState env.executed.report.status) = false := by
      by_cases hfault : env.finish.fault = none
      · exact .inr (Bool.eq_false_iff.mpr fun h => hworks ⟨hfault, hlegal.mp h⟩)
      · exact .inl hfault
    obtain ⟨error, herror⟩ := h.transition_error hrefused "VALIDATION_FINISHED"
    simp only [herror]
    exact iff_of_false (not_settled_of_executing h hs) hworks

/-- The state in which a conversion leaves its job, when the job has come to the state `s` and the execution to
    a result. -/
def ConversionEnv.endState (env : ConversionEnv β) (s : JobState) : Except AnoleError Unit → JobState
  | .error error =>
    if env.look.fault = none ∧ env.recover.fault = none then
      if error.code = .cancelled then .cancelled else .failed
    else s
  | .ok () => match env.saved with
    | .error _ => if env.look.fault = none ∧ env.recover.fault = none then .interrupted else s
    | .ok () =>
      if env.finish.fault = none ∧ s.canTransitionTo (finalState env.executed.report.status) = true then
        finalState env.executed.report.status
      else s

/-- **How a conversion ends**: where it leaves its job, and when it returns a result. -/
theorem conclude_ends (h : JobAt json db jobId s n) (hs : isExecuting s = true) (hroom : n + 1 < sqliteIntegerLimit)
    (result : Except AnoleError Unit) :
    (∃ m, JobAt json (concludeConversion env jobId result db).2 jobId (env.endState s result) m) ∧
      ((∃ r, (concludeConversion env jobId result db).1 = .ok r) ↔ result = .ok () ∧ env.saved = .ok () ∧
        env.finish.fault = none ∧ s.canTransitionTo (finalState env.executed.report.status) = true) := by
  cases result with
  | error error =>
    have hnever : ¬ (Except.error error = .ok () ∧ env.saved = .ok () ∧ env.finish.fault = none ∧
        s.canTransitionTo (finalState env.executed.report.status) = true) := fun h => by cases h.1
    rw [concludeConversion, ConversionEnv.endState]
    by_cases hworks : env.look.fault = none ∧ env.recover.fault = none
    · have hnext : (if error.code = .cancelled then JobState.cancelled else .failed) = .interrupted ∨
          (if error.code = .cancelled then JobState.cancelled else .failed) = .cancelled ∨
          (if error.code = .cancelled then JobState.cancelled else .failed) = .failed := by
        split <;> simp
      obtain ⟨ended, db', hok, hat⟩ := h.endIfExecuting_ok hs hnext hroom hworks.1 hworks.2
        (if error.code = .cancelled then "EXECUTION_CANCELLED" else "EXECUTION_STOPPED")
      simp only [hok, if_pos hworks]
      exact ⟨⟨_, hat⟩, iff_of_false (by simp) hnever⟩
    · obtain ⟨recovery, herror⟩ := h.endIfExecuting_error hs hworks
        (if error.code = .cancelled then .cancelled else .failed)
        (if error.code = .cancelled then "EXECUTION_CANCELLED" else "EXECUTION_STOPPED")
      simp only [herror, if_neg hworks]
      exact ⟨⟨_, h⟩, iff_of_false (by simp) hnever⟩
  | ok _ =>
    cases hsave : env.saved with
    | error error =>
      rw [concludeConversion, persistBeforeTerminal, hsave]
      simp only [ConversionEnv.endState, hsave]
      by_cases hworks : env.look.fault = none ∧ env.recover.fault = none
      · obtain ⟨ended, db', hok, hat⟩ :=
          h.endIfExecuting_ok hs (.inl rfl) hroom hworks.1 hworks.2 "REPORT_PERSIST_FAILED"
        simp only [hok, if_pos hworks]
        exact ⟨⟨_, hat⟩, iff_of_false (by simp [Except.map]) (by simp)⟩
      · obtain ⟨recovery, herror⟩ := h.endIfExecuting_error hs hworks .interrupted "REPORT_PERSIST_FAILED"
        simp only [herror, if_neg hworks]
        exact ⟨⟨_, h⟩, iff_of_false (by simp [Except.map]) (by simp)⟩
    | ok _ =>
      rw [concludeConversion, persistBeforeTerminal, hsave]
      simp only [ConversionEnv.endState, hsave]
      by_cases hworks : env.finish.fault = none ∧ s.canTransitionTo (finalState env.executed.report.status) = true
      · have hqueued : finalState env.executed.report.status ≠ .queued := by
          cases env.executed.report.status <;> decide
        obtain ⟨record, db', hok, -, hat⟩ := h.transition_ok hworks.2 hqueued hroom hworks.1 "VALIDATION_FINISHED"
        simp only [hok, if_pos hworks]
        exact ⟨⟨_, hat⟩, iff_of_true ⟨_, rfl⟩ ⟨trivial, trivial, hworks⟩⟩
      · have hrefused : env.finish.fault ≠ none ∨
            s.canTransitionTo (finalState env.executed.report.status) = false := by
          by_cases hfault : env.finish.fault = none
          · exact .inr (Bool.eq_false_iff.mpr fun h => hworks ⟨hfault, h⟩)
          · exact .inl hfault
        obtain ⟨error, herror⟩ := h.transition_error hrefused "VALIDATION_FINISHED"
        simp only [herror, if_neg hworks]
        exact ⟨⟨_, h⟩, iff_of_false (by simp [Except.map]) (fun hall => hworks hall.2.2)⟩

/-- **The execution** of a job that is running: whether it passes is up to the environment, and the job is
    active when it ends. -/
theorem JobAt.execution (h : JobAt json db jobId .running 1) (env : ConversionEnv β) (plan : Plan) :
    ∃ result reached s n, (executePlanObserved plan env.execution (markValidating env.validating jobId)
        ⟨env.files, none, db⟩).result = result ∧
      (executePlanObserved plan env.execution (markValidating env.validating jobId)
        ⟨env.files, none, db⟩).final = reached ∧
      JobAt json reached.outer jobId s n ∧ isExecuting s = true ∧ n + 1 < sqliteIntegerLimit ∧
      (result = .ok () ↔ plan.Executes env.execution env.validating.answer ⟨env.files, none, ()⟩) ∧
      (result = .ok () → s = if env.validating.fault = none then .validating else .running) := by
  obtain ⟨hanswer, hmarked⟩ := h.markValidating_eq (by decide) env.validating
  have hends := executePlanObserved_ends plan env.execution (markValidating env.validating jobId)
    ⟨env.files, none, ()⟩ db
  rw [hanswer] at hends
  rcases hends with ⟨hexecutes, reached, ⟨hresult, hfinal⟩, houter⟩ |
    ⟨hnot, error, reached, ⟨hresult, hfinal⟩, houter⟩
  · by_cases hfault : env.validating.fault = none
    · rw [if_pos hfault, ← houter] at hmarked
      exact ⟨_, _, _, _, hresult, hfinal, hmarked, rfl, by decide, iff_of_true rfl hexecutes,
        fun _ => (if_pos hfault).symm⟩
    · rw [if_neg hfault, ← houter] at hmarked
      exact ⟨_, _, _, _, hresult, hfinal, hmarked.symm ▸ h, rfl, by decide, iff_of_true rfl hexecutes,
        fun _ => (if_neg hfault).symm⟩
  · -- wherever the milestone left it, the job is active
    have hactive : ∃ s n, JobAt json reached.outer jobId s n ∧ isExecuting s = true ∧ n + 1 < sqliteIntegerLimit := by
      rcases houter with houter | houter
      · exact ⟨.running, 1, houter ▸ h, rfl, by decide⟩
      · split at hmarked
        · exact ⟨.validating, 2, houter ▸ hmarked, rfl, by decide⟩
        · exact ⟨.running, 1, (houter.trans hmarked) ▸ h, rfl, by decide⟩
    obtain ⟨s, n, hjob, hs, hroom⟩ := hactive
    exact ⟨_, _, s, n, hresult, hfinal, hjob, hs, hroom, iff_of_false (fun hok => by cases hok) hnot,
      fun hok => by cases hok⟩

/-- **The run after the creation** of its job. -/
theorem runCreated_settles_iff (h : JobAt json db jobId .planned 0) :
    SettlesJob jobId (runCreated env plan db jobId) ↔ ConversionSettles env plan := by
  rw [runCreated, ConversionSettles]
  by_cases hstarted : env.started.fault = none
  · have hlegal : JobState.planned.canTransitionTo .running = true := rfl
    obtain ⟨running, db1, hok, hid, hat⟩ :=
      h.transition_ok hlegal (by decide) (by decide) hstarted "ENGINE_STARTED"
    obtain ⟨result, reached, s, n, hresult, hfinal, hjob, hs, hroom, hexecutes, hstate⟩ := hat.execution env plan
    simp only [hok, hid, hstarted, forall_const]
    rw [hresult, hfinal]
    cases result with
    | error error =>
      have hnot : ¬ plan.Executes env.execution env.validating.answer ⟨env.files, none, ()⟩ :=
        fun hyes => by cases hexecutes.mpr hyes
      simp only [hnot, false_and, false_implies, not_false_eq_true, forall_const, true_and]
      exact conclude_error_iff hjob hs hroom error
    | ok _ =>
      have hyes := hexecutes.mp rfl
      by_cases hsaved : env.saved = .ok ()
      · simp only [hyes, hsaved, and_self, forall_const, not_true_eq_false, false_implies, and_true]
        rw [conclude_saved_iff hjob hs hroom hsaved, hstate rfl]
        by_cases hfault : env.validating.fault = none <;> simp [hfault]
      · simp only [hsaved, and_false, false_implies, not_false_eq_true, forall_const, true_and]
        exact conclude_unsaved_iff hjob hs hroom hsaved
  · have hrefused : env.started.fault ≠ none ∨ JobState.planned.canTransitionTo .running = false :=
      .inl hstarted
    obtain ⟨error, herror⟩ := h.transition_error hrefused "ENGINE_STARTED"
    simp only [herror]
    exact iff_of_true ((settlesJob_of_error h.stateOf).mpr (by decide)) fun hworks => absurd hworks hstarted

/-- **A conversion whose job was created** does not leave it active, and returns a result only in
    the state that matches the report, if and only if `ConversionSettles`. -/
theorem conversion_settles_iff (h : Reachable json db) (env : ConversionEnv β)
    (prepared : PreparedConversion) {output : PathBuf} {created : JobRecord} {db' : Database}
    (happroved : ensurePlanApproved prepared.plan (some prepared.approvedPlanHash) = .ok ())
    (houtput : prepared.outputPath = some output)
    (hcreated : createJob env.create db ⟨prepared.inputPath, output, prepared.plan⟩ = (.ok created, db')) :
    SettlesJob created.id (runPrepared env prepared db) ↔ ConversionSettles env prepared.plan := by
  rw [runPrepared, happroved]
  simp only [houtput, hcreated]
  exact runCreated_settles_iff (createJob_ok h.sound hcreated)

end Settled

/-! ## A conversion that leaves its job active -/

namespace ConversionSample

def prepared : PreparedConversion :=
  { inputPath := .ofString "in.json", outputPath := some (.ofString "out.yaml"), plan := Sample.plan,
    approvedPlanHash := "plan" }

/-- Everything works, but SQLite is busy at the last transition, once. -/
def env : ConversionEnv String where
  create := Sample.env 1
  started := Sample.env 1
  validating := Sample.env 1
  look := Sample.env 1
  recover := Sample.env 1
  finish := { Sample.env 1 with fault := some databaseBusy }
  execution := ⟨0, fun _ => ⟨false, databaseBusy, some (.file "a: 1")⟩⟩
  files := fun _ => none
  executed := ⟨.ofString "out.yaml", ⟨1, "plan", .pass, 4⟩⟩
  saved := .ok ()

/-- The output is there and its report is saved; the job stays `Validating` after the error. -/
theorem conversion_left_validating :
    ¬ SettlesJob 1 (runPrepared env prepared Database.empty) ∧
      (runPrepared env prepared Database.empty).1 = .error databaseBusy ∧
      (runPrepared env prepared Database.empty).2.stateOf 1 = some .validating := by
  have hresult : (runPrepared env prepared Database.empty).1 = .error databaseBusy := by decide +kernel
  have hstate : (runPrepared env prepared Database.empty).2.stateOf 1 = some .validating := by decide +kernel
  exact ⟨fun h => (h.1 .validating hstate).2.2 rfl, hresult, hstate⟩

def created : JobRecord :=
  newJobRecord (Sample.env 1) 1 ⟨.ofString "in.json", .ofString "out.yaml", Sample.plan⟩

/-- With a store that works the conversion settles its job. -/
theorem conversion_settles_working :
    SettlesJob created.id (runPrepared { env with finish := Sample.env 1 } prepared Database.empty) ↔
      ConversionSettles { env with finish := Sample.env 1 } prepared.plan := by
  have happroved : ensurePlanApproved prepared.plan (some prepared.approvedPlanHash) = .ok () := by decide
  have hcreated : (createJob (Sample.env 1) Database.empty
      ⟨prepared.inputPath, .ofString "out.yaml", prepared.plan⟩).1 = .ok created := by decide
  exact conversion_settles_iff (reachable_empty (Sample.json 1)) { env with finish := Sample.env 1 } prepared
    happroved rfl (Prod.ext hcreated rfl)

end ConversionSample

end Anole
