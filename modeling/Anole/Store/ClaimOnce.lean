import Anole.Store.Invariants

/-!
# Every entry into `Queued` is claimed at most once

Two schedulers may list the same `Queued` jobs and race for them. The argument that
they never both run a job is in its event log: an event into `Inspecting` can only
follow an event into `Queued` (`EventLog.inspecting_le_queued`), a successful claim is
an event into `Inspecting`, and logs only grow.

Main result: `claim_once`.
-/

open Common

namespace Anole

variable {json : ReportJson} {env : CallEnv} {db db' : Database} {id : Uuid}

/-! ## Events into `Queued` and into `Inspecting` -/

/-- The event by which a job enters `Queued`. -/
def EventRow.entersQueued (e : EventRow) : Bool :=
  e.nextState = .queued ∧ e.previousState ≠ some .queued

/-- The event by which a job enters `Inspecting`. -/
def EventRow.entersInspecting (e : EventRow) : Bool := e.nextState = .inspecting

/-- Each event into `Inspecting` uses up one event into `Queued`; while the job is
    `Queued` one is left. The induction follows the log. -/
theorem EventLog.inspecting_le_queued {events : List EventRow} {n : ℕ} {s : JobState}
    (h : EventLog id events n s) :
    events.countP EventRow.entersInspecting + (if s = .queued then 1 else 0) ≤
      events.countP EventRow.entersQueued := by
  induction h with
  | created now => exact Nat.zero_le _
  | @moved events n s next code now _ hlegal ih =>
    rw [List.countP_append, List.countP_append, List.countP_singleton, List.countP_singleton]
    have hne := JobState.ne_of_canTransitionTo hlegal
    simp only [EventRow.entersInspecting, EventRow.entersQueued, decide_eq_true_eq]
    by_cases hinspecting : next = .inspecting
    · have hqueued : s = .queued := JobState.eq_queued_of_to_inspecting (hinspecting ▸ hlegal)
      rw [if_pos hqueued] at ih
      simp only [hinspecting, if_true, reduceCtorEq, false_and, if_false]
      omega
    · by_cases hqueued : next = .queued
      · have hs : s ≠ .queued := fun hs => hne (hs.trans hqueued.symm)
        rw [if_neg hs] at ih
        simp only [hqueued, hs, reduceCtorEq, if_false, if_true, ne_eq, Option.some.injEq,
          not_false_eq_true, and_self]
        omega
      · simp only [hinspecting, hqueued, if_false, false_and]
        omega
  | @audited events n s code now _ hallowed _ ih =>
    rw [List.countP_append, List.countP_append]
    have hs : s ≠ .queued := by rintro rfl; cases hallowed
    have hi : s ≠ .inspecting := by rintro rfl; cases hallowed
    have hnone : [(⟨id, n + 1, some s, s, code, now⟩ : EventRow)].countP
        EventRow.entersInspecting = 0 := by simp [EventRow.entersInspecting, hi]
    omega

/-- The last event of a `Queued` job is the one by which it entered `Queued`. -/
theorem EventLog.exists_entersQueued {events : List EventRow} {n : ℕ}
    (h : EventLog id events n .queued) : ∃ es e, events = es ++ [e] ∧ e.entersQueued = true := by
  cases h with
  | moved next code now h0 hlegal =>
    refine ⟨_, _, rfl, ?_⟩
    have hne := JobState.ne_of_canTransitionTo hlegal
    simpa [EventRow.entersQueued] using hne
  | audited code now h0 hallowed => cases hallowed

/-! ## Claims -/

/-- The label is a successful claim of the job: `claim_queued_job` returned `Some`. -/
def StoreLabel.claims (id : Uuid) (label : StoreLabel) : Bool :=
  match label.call, label.response with
  | .claimQueuedJob jobId _, .claim (.ok (some _)) => jobId = id
  | _, _ => false

/-- A successful claim is a move of the job from `Queued` to `Inspecting`. -/
theorem moves_of_claims (h : Sound json db) {label : StoreLabel}
    (hstep : StoreStep json db label db') (hclaims : label.claims id = true) :
    ∃ row code, row.state = .queued ∧
      MovesJob label.env db id .inspecting code row db.outputReservations db' := by
  obtain ⟨env, call, response⟩ := label
  unfold StoreLabel.claims at hclaims
  split at hclaims
  · next jobId code record hcall hresponse =>
    simp only [decide_eq_true_eq] at hclaims
    obtain rfl : call = .claimQueuedJob id code := by rw [← hclaims]; exact hcall
    obtain rfl : response = .claim (.ok (some record)) := hresponse
    simp only [StoreStep, exec, Prod.map, id_eq, Prod.mk.injEq, Response.claim.injEq] at hstep
    have hok : claimQueuedJob env db id code = (.ok (some record), db') :=
      Prod.ext hstep.1 hstep.2
    obtain ⟨row, hrow, hid, hcase⟩ := claimQueuedJobBody_ok h (transaction_ok.mp hok).2
    rcases hcase with ⟨_, hnone, _⟩ | ⟨hqueued, hmoves, _⟩
    · cases hnone
    · exact ⟨row, code, hqueued, hmoves⟩
  · cases hclaims

/-- A claim adds an event into `Inspecting`. -/
theorem countP_inspecting_of_claims (h : Sound json db) {label : StoreLabel}
    (hstep : StoreStep json db label db') (hclaims : label.claims id = true) :
    (db.logOf id).countP EventRow.entersInspecting + 1 =
      (db'.logOf id).countP EventRow.entersInspecting := by
  obtain ⟨row, code, _, hm⟩ := moves_of_claims h hstep hclaims
  rw [hm.log, List.countP_append]
  rfl

/-- The successful claims of a run are among the events into `Inspecting`. -/
theorem countP_claims_le {labels : List StoreLabel} (h : Sound json db)
    (hrun : StoreRun json db labels db') :
    (db.logOf id).countP EventRow.entersInspecting + labels.countP (StoreLabel.claims id) ≤
      (db'.logOf id).countP EventRow.entersInspecting := by
  induction hrun with
  | nil => simp
  | @cons db db₁ db' label labels hstep _ ih =>
    have hw := StoreStep.writes h hstep
    have hrest := ih (hw.sound h)
    rw [List.countP_cons]
    by_cases hclaims : label.claims id = true
    · have := countP_inspecting_of_claims h hstep hclaims
      rw [if_pos hclaims]
      omega
    · have := (hw.log id).sublist.countP_le (p := EventRow.entersInspecting)
      rw [if_neg hclaims]
      omega

/-- Between two successful claims of a job it enters `Queued`. -/
theorem entersQueued_between {db₁ db₂ db₃ : Database} {a b : StoreLabel} {between : List StoreLabel}
    (h : Sound json db) (ha : StoreStep json db a db₁) (hrun : StoreRun json db₁ between db₂)
    (hb : StoreStep json db₂ b db₃) (hca : a.claims id = true) (hcb : b.claims id = true) :
    ∃ es, db₂.logOf id = db₁.logOf id ++ es ∧ ∃ e ∈ es, e.entersQueued = true := by
  have h₁ := (StoreStep.writes h ha).sound h
  have hw := StoreRun.writes h₁ hrun
  have h₂ := hw.sound h₁
  obtain ⟨row, code, hqueued, hm⟩ := moves_of_claims h₂ hb hcb
  have hlog := h₂.jobs.log row hm.mem
  rw [hm.jobId, hqueued] at hlog
  obtain ⟨fs, e, hfs, he⟩ := hlog.exists_entersQueued
  obtain ⟨es, hes⟩ := hw.log id
  refine ⟨es, hes.symm, e, ?_, he⟩
  obtain ⟨row₁, code₁, _, hm₁⟩ := moves_of_claims h ha hca
  -- the log before ends with the first claim's event, the log now with `e`
  have hlast : db₁.logOf id ++ es = fs ++ [e] := hes.trans hfs
  cases es using List.reverseRec with
  | nil =>
    rw [List.append_nil, hm₁.log] at hlast
    have heq := (List.append_inj' hlast rfl).2
    rw [← (List.cons.inj heq).1] at he
    cases he
  | append_singleton es e' =>
    rw [← List.append_assoc] at hlast
    have heq := (List.append_inj' hlast rfl).2
    rw [(List.cons.inj heq).1]
    simp

/-- A claim returns `None` exactly for a job that is not `Queued`, and then it changes
    nothing. -/
theorem claimQueuedJob_result (h : Sound json db) {code : String} {result : Option JobRecord}
    (hcall : claimQueuedJob env db id code = (.ok result, db')) :
    ∃ row ∈ db.jobs, row.id = id ∧ (result = none ↔ row.state ≠ .queued) ∧
      (result = none → db' = db) := by
  obtain ⟨row, hrow, hid, hcase⟩ := claimQueuedJobBody_ok h (transaction_ok.mp hcall).2
  refine ⟨row, hrow, hid, ?_⟩
  rcases hcase with ⟨hne, rfl, hdb⟩ | ⟨hqueued, _, rfl⟩
  · exact ⟨⟨fun _ => hne, fun _ => rfl⟩, fun _ => hdb⟩
  · refine ⟨⟨fun hnone => ?_, fun hne => absurd hqueued hne⟩, fun hnone => ?_⟩
    · cases hnone
    · cases hnone

/-- A claim that meets no storage failure does return `None` for a job that is not
    `Queued`. -/
theorem claimQueuedJob_of_ne_queued (h : Sound json db) {row : JobRow} (hrow : row ∈ db.jobs)
    (hfault : env.fault = none) (hne : row.state ≠ .queued) (code : String) :
    claimQueuedJob env db row.id code = (.ok none, db) := by
  refine transaction_ok.mpr ⟨hfault, ?_⟩
  rw [claimQueuedJobBody, requireJob_of_mem h.jobs.jobIds hrow]
  exact if_pos hne

/-- **Exactly-once claim.** In every run of any processes over one store: between two
    successful claims of a job it enters `Queued`, so its successful claims are no
    more than its entries into `Queued`; and a claim returns `None` exactly when the
    job is not `Queued`, leaving the store unchanged. -/
theorem claim_once {labels : List StoreLabel} (hrun : StoreRun json Database.empty labels db)
    (id : Uuid) :
    (∀ l₁ a l₂ b l₃, labels = l₁ ++ a :: (l₂ ++ b :: l₃) → a.claims id = true →
      b.claims id = true → ∃ db₁ db₂, StoreRun json Database.empty (l₁ ++ [a]) db₁ ∧
        StoreRun json db₁ l₂ db₂ ∧ StoreRun json db₂ (b :: l₃) db ∧
        ∃ es, db₂.logOf id = db₁.logOf id ++ es ∧ ∃ e ∈ es, e.entersQueued = true) ∧
    labels.countP (StoreLabel.claims id) ≤ (db.logOf id).countP EventRow.entersQueued ∧
    (∀ env code result db', claimQueuedJob env db id code = (.ok result, db') →
      ∃ row ∈ db.jobs, row.id = id ∧ (result = none ↔ row.state ≠ .queued) ∧
        (result = none → db' = db)) ∧
    ∀ env code, env.fault = none → ∀ row ∈ db.jobs, row.id = id → row.state ≠ .queued →
      claimQueuedJob env db id code = (.ok none, db) := by
  have h := Reachable.sound ⟨labels, hrun⟩
  refine ⟨?_, ?_, fun env code result db' => claimQueuedJob_result h, ?_⟩
  · intro l₁ a l₂ b l₃ hsplit hca hcb
    rw [hsplit] at hrun
    obtain ⟨db₀, hbefore, hrest⟩ := trace_append.mp hrun
    obtain ⟨db₁, ha, hrest⟩ := trace_cons.mp hrest
    obtain ⟨db₂, hbetween, hafter⟩ := trace_append.mp hrest
    obtain ⟨db₃, hb, _⟩ := trace_cons.mp hafter
    exact ⟨db₁, db₂, hbefore.snoc ha, hbetween, hafter,
      entersQueued_between (Reachable.sound ⟨l₁, hbefore⟩) ha hbetween hb hca hcb⟩
  · have hclaims : _ + labels.countP (StoreLabel.claims id) ≤ _ :=
      countP_claims_le (sound_empty json) hrun
    rw [show (Database.empty.logOf id).countP EventRow.entersInspecting = 0 from rfl] at hclaims
    by_cases hjob : ∃ row ∈ db.jobs, row.id = id
    · obtain ⟨row, hrow, rfl⟩ := hjob
      have hlog := (h.jobs.log row hrow).inspecting_le_queued
      change (db.logOf row.id).countP _ + _ ≤ (db.logOf row.id).countP _ at hlog
      omega
    · have hempty : db.logOf id = [] := by
        refine List.filter_eq_nil_iff.mpr fun e he heq => hjob ?_
        obtain ⟨row, hrow, hid⟩ := h.jobs.eventJob e he
        exact ⟨row, hrow, hid.trans (by simpa using heq)⟩
      rw [hempty] at hclaims ⊢
      simpa using hclaims
  · rintro env code hfault row hrow rfl hne
    exact claimQueuedJob_of_ne_queued h hrow hfault hne code

/-- A job claimed, stopped, queued again and claimed again: two claims, so it entered
    `Queued` at least twice. -/
theorem claim_once_twice :
    let calls := [(Sample.env 0, .enqueueJobIdempotent "k" (Sample.request "a.json" "a.yaml")),
      (Sample.env 0, .claimQueuedJob 0 "C"), (Sample.env 0, .transition 0 .blocked "B"),
      (Sample.env 0, .transition 0 .queued "Q"), (Sample.env 0, .claimQueuedJob 0 "C")]
    2 ≤ ((replay (Sample.json 0) Database.empty calls).2.logOf 0).countP
      EventRow.entersQueued := by
  intro calls
  have hclaims : (replay (Sample.json 0) Database.empty calls).1.countP
      (StoreLabel.claims 0) = 2 := by decide
  rw [← hclaims]
  exact (claim_once (replay_run (Sample.json 0) calls Database.empty) 0).2.1

end Anole
