import Anole.Store.Turns

/-!
# Runs of the store are runs of abstract writes

The calls of the store refine the writes: on a sound database every call, in any
outside world, leaves a database that a sequence of `Write`s leads to, and a call
that fails leaves the database unchanged (`interrupt_active_jobs` leaves the jobs
it moved before the failure).

Main results:
* `exec_writes`: every call is a sequence of writes.
* `Reachable.sound`: every reachable database satisfies the invariant.
* `StoreRun.writes`: a run of the store is a sequence of writes.
-/

open Common Relation

namespace Anole

variable {json : ReportJson} {env : CallEnv} {db db' : Database}

/-! ## Calls -/

theorem transaction_writes {α : Type} {body : Except AnoleError (α × Database)}
    (hbody : ∀ a d, body = .ok (a, d) → Writes json db d) :
    Writes json db (transaction env db body).2 := by
  cases hresult : transaction env db body with
  | mk result d =>
    cases result with
    | error e =>
      rw [transaction_error hresult]
    | ok a => exact hbody a d (transaction_ok.mp hresult).2

theorem transition_writes (env : CallEnv) (h : Sound json db) (id : Uuid) (next : JobState) (code : String) :
    Writes json db (transition env db id next code).2 := by
  refine transaction_writes fun record d hok => ?_
  obtain ⟨row, rs, hm, _⟩ := transitionBody_ok h hok
  exact .single hm.write

theorem claimQueuedJob_writes (env : CallEnv) (h : Sound json db) (id : Uuid) (code : String) :
    Writes json db (claimQueuedJob env db id code).2 := by
  refine transaction_writes fun result d hok => ?_
  obtain ⟨row, _, _, ⟨_, _, rfl⟩ | ⟨_, hm, _⟩⟩ := claimQueuedJobBody_ok h hok
  · exact .refl
  · exact .single hm.write

theorem interruptJobs_writes {envs : ℕ → CallEnv} :
    ∀ (ids : List Uuid) {n : ℕ} {db : Database}, Sound json db →
      Writes json db (interruptJobs envs n db ids).2 := by
  intro ids
  induction ids with
  | nil => intro n db _; exact .refl
  | cons id ids ih =>
    intro n db h
    have hw := transition_writes (envs n) h id .interrupted "RECOVERED_AFTER_RESTART"
    rw [interruptJobs]
    split
    · next error d hresult => rw [hresult] at hw; exact hw
    · next record d hresult =>
      rw [hresult] at hw
      have hrest := @ih (n + 1) d (hw.sound h)
      split
      · next error d' hresult' => rw [hresult'] at hrest; exact hw.trans hrest
      · next records d' hresult' => rw [hresult'] at hrest; exact hw.trans hrest

theorem createBatchInner_writes (env : CallEnv) (h : Sound json db) (name : String)
    (requests : List JobCreateRequest) (enqueue : Bool) :
    Writes json db (createBatchInner env db name requests enqueue).2 := by
  unfold createBatchInner
  split
  · exact .refl
  · split_ifs
    · exact .refl
    · exact transaction_writes fun record d hok => createBatchBody_writes h hok

theorem createJobIdempotentWithState_writes (env : CallEnv) (h : Sound json db) (key : String)
    (request : JobCreateRequest) (enqueue : Bool) :
    Writes json db (createJobIdempotentWithState env db key request enqueue).2 := by
  unfold createJobIdempotentWithState
  split
  · exact .refl
  · exact transaction_writes fun result d hok => createJobIdempotentBody_writes h hok

theorem recordRevalidation_writes (env : CallEnv) (id : Uuid) (report : ValidationReport) :
    Writes json db (recordRevalidation json env db id report).2 := by
  unfold recordRevalidation
  split_ifs with hjob
  · exact .refl
  · split
    · exact .refl
    · next text htext =>
      split_ifs
      · exact .refl
      · refine transaction_writes fun record d hok => ?_
        obtain ⟨row, hrow, hid, hallowed, hplan, rfl⟩ := recordRevalidationBody_ok hok
        exact .single (.addRevalidation _ row report hrow hid hallowed htext (not_not.mp hjob)
          hplan rfl)

/-- **Every call is a sequence of writes**, in any outside world and whether it
    succeeds or not. -/
theorem exec_writes (env : CallEnv) (h : Sound json db) (call : Call) :
    Writes json db (exec json env db call).2 := by
  cases call with
  | createJobs requests =>
    simp only [exec, Prod.map_snd, id_eq]
    unfold createJobs
    split_ifs
    · exact .refl
    · exact transaction_writes fun records d hok => (insertJobs_ok requests h hok).1
  | createBatch name requests =>
    simp only [exec, Prod.map_snd, id_eq]
    exact createBatchInner_writes env h name requests false
  | createQueuedBatch name requests =>
    simp only [exec, Prod.map_snd, id_eq]
    exact createBatchInner_writes env h name requests true
  | createJobIdempotent key request =>
    simp only [exec, Prod.map_snd, id_eq]
    exact createJobIdempotentWithState_writes env h key request false
  | enqueueJobIdempotent key request =>
    simp only [exec, Prod.map_snd, id_eq]
    exact createJobIdempotentWithState_writes env h key request true
  | queueJobs ids code =>
    simp only [exec, Prod.map_snd, id_eq]
    unfold queueJobs
    split_ifs
    · exact .refl
    · exact transaction_writes fun records d hok => queueJobsLoop_writes ids h hok
  | transition id next code =>
    simp only [exec, Prod.map_snd, id_eq]
    exact transition_writes env h id next code
  | claimQueuedJob id code =>
    simp only [exec, Prod.map_snd, id_eq]
    exact claimQueuedJob_writes env h id code
  | applyBulkAction selectionId action before =>
    simp only [exec, Prod.map_snd, id_eq]
    exact transaction_writes fun report d hok => applyBulkActionBody_writes h hok
  | cleanupStagingPersisted id cleanup =>
    simp only [exec, Prod.map_snd, id_eq]
    refine transaction_writes fun result d hok => ?_
    obtain ⟨row, hrow, code, hcode, _, hallowed, hroom, rfl⟩ := cleanupStagingBody_ok h hok
    exact .single (.audit row code env.now hrow hallowed hcode hroom)
  | recordRevalidation id report =>
    simp only [exec, Prod.map_snd, id_eq]
    exact recordRevalidation_writes env id report
  | captureSelection query =>
    simp only [exec, Prod.map_snd, id_eq]
    unfold captureSelection
    split
    · exact .refl
    · exact transaction_writes fun snapshot d hok => captureSelectionBody_writes hok
  | interruptActiveJobs envs =>
    simp only [exec, Prod.map_snd, id_eq]
    unfold interruptActiveJobs
    split
    · exact .refl
    · exact interruptJobs_writes _ h
  | recordEngineThroughputSample sample =>
    simp only [exec, Prod.map_snd, id_eq]
    refine transaction_writes fun result d hok => ?_
    cases hok
    exact .single (.setSamples _)

/-! ## Runs -/

variable {labels : List StoreLabel} {label : StoreLabel}

theorem StoreStep.writes (h : Sound json db) (hstep : StoreStep json db label db') :
    Writes json db db' := by
  have hw := exec_writes label.env h label.call
  rw [show exec json label.env db label.call = (label.response, db') from hstep] at hw
  exact hw

theorem StoreRun.writes (h : Sound json db) (hrun : StoreRun json db labels db') :
    Writes json db db' := by
  induction hrun with
  | nil => exact .refl
  | cons hstep _ ih =>
    have hw := StoreStep.writes h hstep
    exact hw.trans (ih (hw.sound h))

/-- **Every reachable database satisfies the invariant.** -/
theorem Reachable.sound (h : Reachable json db) : Sound json db := by
  obtain ⟨labels, hrun⟩ := h
  exact (StoreRun.writes (sound_empty json) hrun).sound (sound_empty json)

end Anole
