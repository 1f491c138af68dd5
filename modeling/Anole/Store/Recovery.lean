import Anole.Store.Total

/-!
# Recovery after a crash

When every process dies, the jobs they had claimed are left in `Inspecting`,
`Planned`, `Running` or `Validating`: the claim path moves a job through these
states in four transactions. On restart `interrupt_active_jobs` moves the
`Running` and the `Validating` ones to `Interrupted`.

**Deviation.** A job that died in `Inspecting` is not selected. It stays in
`Inspecting`, from where no bulk action and no transition leads back to `Queued`,
while the recovery document counts a process lost in `Inspecting` as interrupted.

Main results: `crash_recovery`, and `recovery_restarts` for recoveries that fail on their way.
-/

open Common

namespace Anole

variable {json : ReportJson} {db db' : Database} {envs : ℕ → CallEnv} {records : List JobRecord} {row : JobRow}

/-- The states in which a process that has claimed a job may die. -/
def InFlight (s : JobState) : Prop :=
  s = .inspecting ∨ s = .planned ∨ s = .running ∨ s = .validating

/-- No active job is lost: none is left in a state of a running process, and every job
    that was in flight can be queued again and still holds its reservation. -/
structure Recovered (db db' : Database) : Prop where
  idle : ∀ row ∈ db'.jobs, row.state ≠ .inspecting ∧ row.state ≠ .running ∧ row.state ≠ .validating
  requeueable : ∀ row ∈ db.jobs, InFlight row.state →
    ∃ row' ∈ db'.jobs, row'.id = row.id ∧ row'.state.canTransitionTo .queued = true
  reserved : ∀ row ∈ db.jobs, InFlight row.state →
    ∃ key, db.ownedKey row.id = some key ∧ db'.ownedKey row.id = some key

theorem interruptSelected_iff {s : JobState} :
    interruptSelected s = true ↔ s = .running ∨ s = .validating := by
  cases s <;> simp [interruptSelected]

/-! ## One interruption -/

theorem MovesJob.ownedKey {env : CallEnv} {id : Uuid} {code : String}
    {rs : List ReservationRow} (hm : MovesJob env db id .interrupted code row rs db') (other : Uuid) :
    db'.ownedKey other = db.ownedKey other := by
  have hrs := hm.reservations.eq_of_ne (by decide) rfl
  rw [hm.result, hrs]
  rfl

/-! ## The loop -/

/-- What a completed recovery of the listed jobs has done. -/
structure Interrupted (db : Database) (ids : List Uuid) (db' : Database) : Prop where
  others : ∀ id ∉ ids, db'.job? id = db.job? id
  listed : ∀ id ∈ ids, ∃ row, db'.job? id = some row ∧ row.state = .interrupted
  reservations : ∀ id, db'.ownedKey id = db.ownedKey id

/-- The induction follows the list of ids; the jobs still to come are untouched. -/
theorem interruptJobs_ok :
    ∀ (ids : List Uuid) {n : ℕ} {db db' : Database} {records : List JobRecord}, Sound json db →
      interruptJobs envs n db ids = (.ok records, db') → Interrupted db ids db' := by
  intro ids
  induction ids with
  | nil =>
    intro n db db' records _ hok
    cases hok
    exact ⟨fun _ _ => rfl, fun id hid => (List.not_mem_nil hid).elim, fun _ => rfl⟩
  | cons id ids ih =>
    intro n db db' records h hok
    rw [interruptJobs] at hok
    split at hok
    · cases hok
    · next record db₁ hfirst =>
      split at hok
      · cases hok
      · next records' db₂ hrest =>
        cases hok
        obtain ⟨row, rs, hm, _⟩ := transition_ok h hfirst
        have hmoved := hm.job? h
        have hrest := ih (hm.write.sound h) hrest
        refine ⟨fun other hother => ?_, fun other hother => ?_, fun other => ?_⟩
        · rw [List.mem_cons, not_or] at hother
          rw [hrest.others other hother.2, (hm.untouched hother.1).job]
        · by_cases hmem : other ∈ ids
          · exact hrest.listed other hmem
          · have heq : other = id := by
              rcases List.mem_cons.mp hother with heq | hin
              · exact heq
              · exact absurd hin hmem
            rw [hrest.others other hmem, heq, hmoved]
            exact ⟨_, rfl, rfl⟩
        · rw [hrest.reservations other, hm.ownedKey other]

/-- Recovery completes when SQLite does not fail and the sequence numbers of the
    selected jobs have successors. -/
theorem interruptJobs_total (hfaults : ∀ n, (envs n).fault = none) :
    ∀ (ids : List Uuid) {n : ℕ} {db : Database}, Sound json db → ids.Nodup →
      (∀ id ∈ ids, ∃ row ∈ db.jobs, row.id = id ∧ interruptSelected row.state = true ∧
        row.sequence + 1 < sqliteIntegerLimit) →
      ∃ records db', interruptJobs envs n db ids = (.ok records, db') := by
  intro ids
  induction ids with
  | nil => intro n db _ _ _; exact ⟨[], db, rfl⟩
  | cons id ids ih =>
    intro n db h hnodup hids
    obtain ⟨row, hrow, rfl, hselected, hroom⟩ := hids id (by simp)
    have hlegal : row.state.canTransitionTo .interrupted = true := by
      rcases interruptSelected_iff.mp hselected with hs | hs
      · rw [hs]; rfl
      · rw [hs]; rfl
    obtain ⟨db₁, rs, hfirst, hm⟩ := transition_of_legal h hrow hlegal (by decide) hroom
      (hfaults n) "RECOVERED_AFTER_RESTART"
    rw [List.nodup_cons] at hnodup
    have hlater : ∀ id ∈ ids, ∃ row ∈ db₁.jobs, row.id = id ∧ interruptSelected row.state = true ∧
        row.sequence + 1 < sqliteIntegerLimit := by
      intro other hother
      obtain ⟨r, hr, hid, hrest⟩ := hids other (List.mem_cons_of_mem _ hother)
      have hne : other ≠ row.id := fun heq => hnodup.1 (heq ▸ hother)
      refine ⟨r, ?_, hid, hrest⟩
      rw [hm.result]
      exact (mem_update_id h.jobs.jobIds hrow).mpr (Or.inr ⟨hr, by rw [hid]; exact hne⟩)
    obtain ⟨records, db₂, hrest⟩ := @ih (n + 1) db₁ (hm.write.sound h) hnodup.2 hlater
    refine ⟨movedRecord row .interrupted (row.sequence + 1) (envs n).now :: records, db₂, ?_⟩
    rw [interruptJobs, hfirst]
    simp only [hrest]

/-! ## Recovery -/

theorem nodup_selected (h : Sound json db) :
    ((db.jobs.filter fun r => interruptSelected r.state).map JobRow.id).Nodup :=
  h.jobs.jobIds.sublist ((List.filter_sublist).map JobRow.id)

theorem mem_selected (h : Sound json db) (hrow : row ∈ db.jobs) :
    row.id ∈ (db.jobs.filter fun r => interruptSelected r.state).map JobRow.id ↔
      interruptSelected row.state = true := by
  constructor
  · intro hmem
    obtain ⟨r, hr, hid⟩ := List.mem_map.mp hmem
    obtain ⟨hr, hselected⟩ := List.mem_filter.mp hr
    rwa [h.jobs.jobIds.eq hr hrow hid] at hselected
  · intro hselected
    exact List.mem_map_of_mem (List.mem_filter.mpr ⟨hrow, hselected⟩)

/-- After recovery a selected job is `Interrupted` and any other job is as it was. -/
theorem interruptActiveJobs_ok (h : Sound json db)
    (hok : interruptActiveJobs envs db = (.ok records, db')) :
    Interrupted db ((db.jobs.filter fun r => interruptSelected r.state).map JobRow.id) db' := by
  unfold interruptActiveJobs at hok
  split at hok
  · cases hok
  · exact interruptJobs_ok _ h hok

theorem interruptActiveJobs_sound (h : Sound json db)
    (hok : interruptActiveJobs envs db = (.ok records, db')) : Sound json db' := by
  have hw := exec_writes (envs 0) h (.interruptActiveJobs envs)
  simp only [exec, Prod.map_snd, id_eq, hok] at hw
  exact hw.sound h

theorem job?_eq_some (h : Sound json db) {id : Uuid} :
    db.job? id = some row ↔ row ∈ db.jobs ∧ row.id = id :=
  h.jobs.jobIds.find?_eq_some

theorem recovered_iff (h : Sound json db)
    (hok : interruptActiveJobs envs db = (.ok records, db')) :
    Recovered db db' ↔ ∀ row ∈ db.jobs, row.state ≠ .inspecting := by
  have hdone := interruptActiveJobs_ok h hok
  have h' := interruptActiveJobs_sound h hok
  -- a job that is not selected is in the store as before
  have hkept : ∀ row ∈ db.jobs, ¬ interruptSelected row.state = true → row ∈ db'.jobs := by
    intro row hrow hnot
    have hjob := hdone.others row.id ((mem_selected h hrow).not.mpr hnot)
    rw [job?_of_mem h.jobs.jobIds hrow] at hjob
    exact ((job?_eq_some h').mp hjob).1
  constructor
  · intro hrec row hrow hs
    have hrow' := hkept row hrow (by rw [hs]; decide)
    exact (hrec.idle row hrow').1 hs
  · intro hnone
    constructor
    case idle =>
      intro row' hrow'
      have hjob := job?_of_mem h'.jobs.jobIds hrow'
      by_cases hid : row'.id ∈ (db.jobs.filter fun r => interruptSelected r.state).map JobRow.id
      · obtain ⟨r, hr, hs⟩ := hdone.listed row'.id hid
        rw [hjob] at hr
        rw [Option.some.inj hr, hs]
        decide
      · rw [hdone.others row'.id hid] at hjob
        have hrow := ((job?_eq_some h).mp hjob).1
        have hnot := (mem_selected h hrow).not.mp hid
        rw [interruptSelected_iff, not_or] at hnot
        exact ⟨hnone row' hrow, hnot.1, hnot.2⟩
    case requeueable =>
      intro row hrow hflight
      by_cases hselected : interruptSelected row.state = true
      · obtain ⟨r, hr, hs⟩ := hdone.listed row.id ((mem_selected h hrow).mpr hselected)
        obtain ⟨hmem, hid⟩ := (job?_eq_some h').mp hr
        exact ⟨r, hmem, hid, by rw [hs]; rfl⟩
      · refine ⟨row, hkept row hrow hselected, rfl, ?_⟩
        rw [interruptSelected_iff, not_or] at hselected
        rcases hflight with hs | hs | hs | hs
        · exact absurd hs (hnone row hrow)
        · rw [hs]; rfl
        · exact absurd hs hselected.1
        · exact absurd hs hselected.2
    case reserved =>
      intro row hrow hflight
      have hactive : row.state.isTerminal = false := by
        rcases hflight with hs | hs | hs | hs <;> rw [hs] <;> rfl
      obtain ⟨r, _, _, hkey⟩ := h.exists_reservation hrow hactive
      exact ⟨_, hkey, (hdone.reservations row.id).trans hkey⟩

/-- **Crash recovery.** Take any reachable store in which all processes die. Recovery
    completes if SQLite does not fail (and no sequence number is exhausted), and a
    completed recovery leaves no active job lost exactly when no job had died in
    `Inspecting`. -/
theorem crash_recovery (h : Reachable json db) :
    ((∀ n, (envs n).fault = none) → (∀ row ∈ db.jobs, row.sequence + 1 < sqliteIntegerLimit) →
      ∃ records db', interruptActiveJobs envs db = (.ok records, db')) ∧
    ∀ records db', interruptActiveJobs envs db = (.ok records, db') →
      (Recovered db db' ↔ ∀ row ∈ db.jobs, row.state ≠ .inspecting) := by
  refine ⟨fun hfaults hroom => ?_, fun records db' hok => recovered_iff h.sound hok⟩
  unfold interruptActiveJobs
  rw [hfaults 0]
  refine interruptJobs_total hfaults _ h.sound (nodup_selected h.sound) fun id hid => ?_
  obtain ⟨row, hrow, rfl⟩ := List.mem_map.mp hid
  obtain ⟨hrow, hselected⟩ := List.mem_filter.mp hrow
  exact ⟨row, hrow, rfl, hselected, hroom row hrow⟩

/-- Recovery of a store whose only process died while it ran a job. -/
theorem crash_recovery_running :
    let calls := [(Sample.env 0, .enqueueJobIdempotent "k" (Sample.request "a.json" "a.yaml")),
      (Sample.env 0, .claimQueuedJob 0 "C"), (Sample.env 0, .transition 0 .planned "P"),
      (Sample.env 0, .transition 0 .running "R")]
    let db := (replay (Sample.json 0) Database.empty calls).2
    Recovered db (interruptActiveJobs (fun _ => Sample.env 0) db).2 := by
  intro calls db
  have hreachable : Reachable (Sample.json 0) db := ⟨_, replay_run _ calls Database.empty⟩
  obtain ⟨htotal, hlaw⟩ := @crash_recovery _ _ (fun _ => Sample.env 0) hreachable
  obtain ⟨records, db', hok⟩ := htotal (fun _ => rfl) (by decide)
  rw [hok]
  exact (hlaw records db' hok).mpr (by decide)

/-- A process that dies right after its claim has committed: the job stays in
    `Inspecting`, and nothing leads from there to `Queued`. -/
theorem crash_recovery_lost :
    let calls := [(Sample.env 0, .enqueueJobIdempotent "k" (Sample.request "a.json" "a.yaml")),
      (Sample.env 0, .claimQueuedJob 0 "C")]
    let db := (replay (Sample.json 0) Database.empty calls).2
    let recovered := interruptActiveJobs (fun _ => Sample.env 0) db
    Reachable (Sample.json 0) db ∧ recovered.1.isOk = true ∧
      recovered.2.jobs.map JobRow.state = [.inspecting] ∧
      JobState.inspecting.canTransitionTo .queued = false ∧
      BulkJobAction.resume.targetFor .inspecting = none ∧
      BulkJobAction.retry.targetFor .inspecting = none := by
  refine ⟨⟨_, replay_run _ _ Database.empty⟩, ?_⟩
  decide

/-! ## Recoveries that fail on their way -/

/-- The job was running and was interrupted, by one event. -/
def InterruptedOnce (id : Uuid) (db db' : Database) : Prop :=
  ∃ row now, db.job? id = some row ∧ interruptSelected row.state = true ∧
    db'.job? id = some (row.moved .interrupted (row.sequence + 1) now) ∧
    db'.logOf id = db.logOf id ++
      [⟨id, row.sequence + 1, some row.state, .interrupted, "RECOVERED_AFTER_RESTART", now⟩]

/-- Some of the running jobs were interrupted, and nothing else has changed. -/
structure Interrupting (db db' : Database) : Prop where
  jobs : ∀ id, Untouched id db db' ∨ InterruptedOnce id db db'
  reservations : ∀ id, db'.ownedKey id = db.ownedKey id

section Interrupting

variable {mid : Database}

theorem Interrupting.refl (db : Database) : Interrupting db db := ⟨fun id => .inl (.refl id db), fun _ => rfl⟩

/-- An interrupted job is not interrupted again. -/
theorem Interrupting.trans (h : Interrupting db mid) (h' : Interrupting mid db') : Interrupting db db' := by
  refine ⟨fun id => ?_, fun id => (h'.reservations id).trans (h.reservations id)⟩
  rcases h.jobs id with hkept | ⟨row, now, hjob, hselected, hmoved, hlog⟩
  · refine (h'.jobs id).imp hkept.trans ?_
    rintro ⟨row, now, hjob, hselected, hmoved, hlog⟩
    exact ⟨row, now, hkept.job ▸ hjob, hselected, hmoved, hkept.log ▸ hlog⟩
  · rcases h'.jobs id with hkept | ⟨row', _, hjob', hselected', _⟩
    · exact .inr ⟨row, now, hjob, hselected, hkept.job.trans hmoved, hkept.log.trans hlog⟩
    · cases hmoved.symm.trans hjob'
      cases hselected'

theorem interruptSelected_of_legal {s : JobState} (h : s.canTransitionTo .interrupted = true) :
    interruptSelected s = true := by
  cases s <;> simp_all [JobState.canTransitionTo, interruptSelected]

theorem MovesJob.interrupting {env : CallEnv} {id : Uuid} {rs : List ReservationRow} (h : Sound json db)
    (hm : MovesJob env db id .interrupted "RECOVERED_AFTER_RESTART" row rs db') : Interrupting db db' := by
  refine ⟨fun other => ?_, hm.ownedKey⟩
  by_cases hother : other = id
  · rw [hother]
    exact .inr ⟨row, env.now, (job?_eq_some h).mpr ⟨hm.mem, hm.jobId⟩, interruptSelected_of_legal hm.legal,
      hm.job? h, hm.log⟩
  · exact .inl (hm.untouched hother)

/-- Wherever the loop ends. -/
theorem interruptJobs_interrupting (ids : List Uuid) {n : ℕ} (h : Sound json db) :
    Interrupting db (interruptJobs envs n db ids).2 := by
  induction ids generalizing n db with
  | nil => exact .refl db
  | cons id ids ih =>
    rw [interruptJobs]
    split
    · next error d hfirst =>
      rw [transaction_error hfirst]
      exact .refl db
    · next record d hfirst =>
      obtain ⟨row, rs, hm, -⟩ := transition_ok h hfirst
      have hrest := (hm.interrupting h).trans (ih (n := n + 1) (hm.write.sound h))
      split
      · next error d' hresult => rwa [hresult] at hrest
      · next records d' hresult => rwa [hresult] at hrest

theorem interruptActiveJobs_interrupting (envs : ℕ → CallEnv) (h : Sound json db) :
    Interrupting db (interruptActiveJobs envs db).2 := by
  unfold interruptActiveJobs
  split
  · exact .refl db
  · exact interruptJobs_interrupting _ h

/-- A completed recovery leaves nothing to interrupt. -/
theorem interruptActiveJobs_drained (h : Sound json db)
    (hok : interruptActiveJobs envs db = (.ok records, db')) :
    db'.jobs.filter (fun r => interruptSelected r.state) = [] := by
  have hdone := interruptActiveJobs_ok h hok
  refine List.filter_eq_nil_iff.mpr fun row hrow hselected => ?_
  have hjob := job?_of_mem (interruptActiveJobs_sound h hok).jobs.jobIds hrow
  by_cases hid : row.id ∈ (db.jobs.filter fun r => interruptSelected r.state).map JobRow.id
  · obtain ⟨r, hr, hs⟩ := hdone.listed row.id hid
    rw [Option.some.inj (hjob.symm.trans hr), hs] at hselected
    cases hselected
  · rw [hdone.others row.id hid] at hjob
    exact hid ((mem_selected h ((job?_eq_some h).mp hjob).1).mpr hselected)

/-- **A recovery may be cut short.** Any number of recoveries of a reachable store end anywhere, then one
    completes. A job that was `Running` or `Validating` was interrupted by exactly one event, any other job is
    as it was, and a further recovery does nothing. -/
theorem recovery_restarts (h : Reachable json db)
    (hcut : Relation.ReflTransGen (fun a b => ∃ envs, (interruptActiveJobs envs a).2 = b) db mid)
    (hok : interruptActiveJobs envs mid = (.ok records, db')) :
    (∀ row ∈ db.jobs, if interruptSelected row.state then InterruptedOnce row.id db db'
      else Untouched row.id db db') ∧
      ∀ again : ℕ → CallEnv, (again 0).fault = none → interruptActiveJobs again db' = (.ok [], db') := by
  have hmid : Sound json mid ∧ Interrupting db mid := by
    clear hok
    induction hcut with
    | refl => exact ⟨h.sound, .refl db⟩
    | tail _ hlast ih =>
      obtain ⟨envs, rfl⟩ := hlast
      have hw := exec_writes (envs 0) ih.1 (.interruptActiveJobs envs)
      exact ⟨hw.sound ih.1, ih.2.trans (interruptActiveJobs_interrupting envs ih.1)⟩
  have hlast := interruptActiveJobs_interrupting envs hmid.1
  rw [hok] at hlast
  have hdrained := interruptActiveJobs_drained hmid.1 hok
  refine ⟨fun row hrow => ?_, fun again hagain => ?_⟩
  · have hjob := job?_of_mem h.sound.jobs.jobIds hrow
    rcases (hmid.2.trans hlast).jobs row.id with hkept | honce
    · split
      · next hselected =>
        have hrow' := ((job?_eq_some (interruptActiveJobs_sound hmid.1 hok)).mp (hkept.job.trans hjob)).1
        exact absurd hselected (List.filter_eq_nil_iff.mp hdrained row hrow')
      · exact hkept
    · obtain ⟨r, _, hr, hselected, _⟩ := id honce
      rw [Option.some.inj (hjob.symm.trans hr), if_pos hselected]
      rwa [← Option.some.inj (hjob.symm.trans hr)]
  · rw [interruptActiveJobs, hagain, hdrained]
    rfl

end Interrupting

/-- SQLite fails at the second of two running jobs. -/
theorem recovery_restarts_twice :
    let calls := [(Sample.env 0, .enqueueJobIdempotent "k" (Sample.request "a.json" "a.yaml")),
      (Sample.env 1, .enqueueJobIdempotent "l" (Sample.request "b.json" "b.yaml")),
      (Sample.env 0, .claimQueuedJob 0 "C"), (Sample.env 0, .claimQueuedJob 1 "C"),
      (Sample.env 0, .transition 0 .planned "P"), (Sample.env 0, .transition 1 .planned "P"),
      (Sample.env 0, .transition 0 .running "R"), (Sample.env 0, .transition 1 .running "R")]
    let db := (replay (Sample.json 0) Database.empty calls).2
    let failing := fun n => { Sample.env 0 with fault := if n = 2 then some databaseBusy else none }
    let mid := (interruptActiveJobs failing db).2
    let db' := (interruptActiveJobs (fun _ => Sample.env 0) mid).2
    mid.jobs.map JobRow.state = [.interrupted, .running] ∧ InterruptedOnce 0 db db' ∧ InterruptedOnce 1 db db' := by
  intro calls db failing mid db'
  have hreachable : Reachable (Sample.json 0) db := ⟨_, replay_run _ calls Database.empty⟩
  have hok : interruptActiveJobs (fun _ => Sample.env 0) mid = (.ok _, db') := rfl
  obtain ⟨hjobs, -⟩ := recovery_restarts hreachable (.single ⟨failing, rfl⟩) hok
  refine ⟨by decide, ?_, ?_⟩
  · exact hjobs (db.jobs.get ⟨0, by decide⟩) (List.get_mem _ _)
  · exact hjobs (db.jobs.get ⟨1, by decide⟩) (List.get_mem _ _)

end Anole
