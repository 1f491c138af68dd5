import Anole.Store.Invariants

/-!
# Revalidation evidence and the integrity check

Model of `append_revalidation_issues` (`crates/core/src/maintenance.rs`, lines
723–759), which the integrity check of the store runs over all revalidation rows.

**Deviation.** `record_revalidation` accepts evidence about a `Failed` job, and a
`Failed` job may go back to `Queued` (`can_transition_to`, the bulk Retry). The check
then reports the evidence of a healthy store as inconsistent, because it wants the
job of every row to be `Completed`, `Warning` or `Failed` now.

Main result: `evidence_healthy`, for runs in which no job with evidence is queued
again.
-/

open Common

namespace Anole

variable {json : ReportJson} {db db' : Database}

/-! ## The check -/

/-- The test `append_revalidation_issues` makes of one row of the join (lines 746–754). -/
def revalidationValid (json : ReportJson) (r : RevalidationRow) (job : JobRow) : Bool :=
  revalidationAllowed job.state && (json.fromJson r.reportJson).any fun report =>
    report.jobId = r.jobId && report.planHash = job.planHash && report.status = r.status

/-- `append_revalidation_issues` (lines 723–759). -/
def appendRevalidationIssues (json : ReportJson) (db : Database) : List String :=
  db.jobRevalidations.filterMap fun r => (db.job? r.jobId).bind fun job =>
    if revalidationValid json r job then none
    else some s!"revalidation {r.id.toText} has inconsistent job/report identity"

theorem appendRevalidationIssues_eq_nil :
    appendRevalidationIssues json db = [] ↔ ∀ r ∈ db.jobRevalidations, ∀ job,
      db.job? r.jobId = some job → revalidationValid json r job = true := by
  rw [appendRevalidationIssues, List.filterMap_eq_nil_iff]
  refine forall₂_congr fun r hr => ?_
  cases db.job? r.jobId with
  | none => simp
  | some job =>
    rw [Option.bind_some]
    split_ifs with hvalid
    · simp [hvalid]
    · simp [hvalid]

/-! ## Steps that keep evidence healthy -/

/-- The stored text reads back as the report it was written from. -/
def ReportJson.ReadsBack (json : ReportJson) (text : String) : Prop :=
  ∀ report, json.toJson report = .ok text → ∃ back, json.fromJson text = some back ∧
    back.jobId = report.jobId ∧ back.planHash = report.planHash ∧ back.status = report.status

/-- The events a step adds. -/
def newEvents (db db' : Database) : List EventRow := db'.jobEvents.drop db.jobEvents.length

/-- The step takes no job with evidence from `Failed` back to `Queued`, and the evidence
    reads back from its JSON. -/
structure EvidenceKept (json : ReportJson) (db db' : Database) : Prop where
  retry : ∀ r ∈ db'.jobRevalidations, ∀ e ∈ newEvents db db', e.jobId = r.jobId →
    e.previousState = some .failed → e.nextState ≠ .queued
  readable : ∀ r ∈ db'.jobRevalidations, json.ReadsBack r.reportJson

/-- Every revalidation row is about a job in a state evidence is accepted in. -/
def EvidenceHealthy (db : Database) : Prop :=
  ∀ r ∈ db.jobRevalidations, ∃ row ∈ db.jobs, row.id = r.jobId ∧
    revalidationAllowed row.state = true

/-- Only a retry leaves the states evidence is accepted in. -/
theorem eq_failed_and_queued_of_allowed {s next : JobState}
    (hlegal : s.canTransitionTo next = true) (hs : revalidationAllowed s = true) :
    s = .failed ∧ next = .queued := by
  cases s <;> simp_all [revalidationAllowed, JobState.canTransitionTo]

theorem Write.revalidations (hw : Write json db db') :
    db.jobRevalidations <+: db'.jobRevalidations := by
  cases hw with
  | addRevalidation => exact List.prefix_append _ _
  | create | move | audit | bindKey | addBatch | addBatchMember | addSelection
  | addSelectionMember | addBulkAction | addBulkMember | setBulkCounts | setSamples =>
    exact List.prefix_refl _

theorem Write.evidenceHealthy (hw : Write json db db') (h : Sound json db)
    (hhealthy : EvidenceHealthy db)
    (hretry : ∀ r ∈ db'.jobRevalidations, ∀ e ∈ newEvents db db', e.jobId = r.jobId →
      e.previousState = some .failed → e.nextState ≠ .queued) : EvidenceHealthy db' := by
  cases hw with
  | create row key =>
    intro r hr
    obtain ⟨job, hjob, hid⟩ := hhealthy r hr
    exact ⟨job, List.mem_append_left _ hjob, hid⟩
  | move row next code now rs hrow hlegal hseq hmove =>
    intro r hr
    obtain ⟨job, hjob, hid, hallowed⟩ := hhealthy r hr
    by_cases hother : job.id = row.id
    · -- the moved job has evidence, so the move is a retry
      rw [h.jobs.jobIds.eq hjob hrow hother] at hallowed hid
      obtain ⟨hfailed, hqueued⟩ := eq_failed_and_queued_of_allowed hlegal hallowed
      have hevent : ⟨row.id, row.sequence + 1, some row.state, next, code, now⟩ ∈
          newEvents db (db.withMoved row next code now rs) := by
        simp [newEvents, Database.withMoved]
      exact absurd hqueued (hretry r hr _ hevent hid (congrArg some hfailed))
    · exact ⟨job, (mem_update_id h.jobs.jobIds hrow).mpr (Or.inr ⟨hjob, hother⟩), hid, hallowed⟩
  | audit row code now hrow =>
    intro r hr
    obtain ⟨job, hjob, hid, hallowed⟩ := hhealthy r hr
    refine ⟨_, Table.mem_update.mpr ⟨job, hjob, rfl⟩, ?_⟩
    split_ifs
    · exact ⟨hid, hallowed⟩
    · exact ⟨hid, hallowed⟩
  | addRevalidation row job report hjob hid hallowed =>
    intro r hr
    rcases List.mem_append.mp hr with hr | hr
    · exact hhealthy r hr
    · obtain rfl := List.mem_singleton.mp hr
      exact ⟨job, hjob, hid, hallowed⟩
  | bindKey | addBatch | addBatchMember | addSelection | addSelectionMember | addBulkAction
  | addBulkMember | setBulkCounts | setSamples => exact hhealthy

/-- Writes after some writes add their events after those. -/
theorem newEvents_subset {a b c : Database} (hab : a.jobEvents <+: b.jobEvents)
    (hbc : b.jobEvents <+: c.jobEvents) :
    newEvents a b ⊆ newEvents a c ∧ newEvents b c ⊆ newEvents a c := by
  constructor
  · exact (hbc.drop _).subset
  · intro e he
    unfold newEvents at *
    have hle : a.jobEvents.length ≤ b.jobEvents.length := hab.length_le
    rw [show b.jobEvents.length = a.jobEvents.length + (b.jobEvents.length - a.jobEvents.length) by
      omega, ← List.drop_drop] at he
    exact List.mem_of_mem_drop he

theorem Writes.evidenceHealthy (hw : Writes json db db') (h : Sound json db)
    (hhealthy : EvidenceHealthy db)
    (hretry : ∀ r ∈ db'.jobRevalidations, ∀ e ∈ newEvents db db', e.jobId = r.jobId →
      e.previousState = some .failed → e.nextState ≠ .queued) : EvidenceHealthy db' := by
  induction hw with
  | refl => exact hhealthy
  | @tail mid last hws hlast ih =>
    obtain ⟨hearlier, hlater⟩ := newEvents_subset (Writes.events hws) hlast.events
    have hmid : EvidenceHealthy mid := by
      refine ih fun r hr e he => ?_
      exact hretry r (hlast.revalidations.subset hr) e (hearlier he)
    exact hlast.evidenceHealthy (Writes.sound hws h) hmid fun r hr e he => hretry r hr e (hlater he)

/-- What the check wants follows from healthy evidence that reads back. -/
theorem appendRevalidationIssues_of_healthy (h : Sound json db) (hhealthy : EvidenceHealthy db)
    (hreadable : ∀ r ∈ db.jobRevalidations, json.ReadsBack r.reportJson) :
    appendRevalidationIssues json db = [] := by
  refine appendRevalidationIssues_eq_nil.mpr fun r hr job hjob => ?_
  obtain ⟨hjob, hid⟩ := h.jobs.jobIds.find?_eq_some.mp hjob
  obtain ⟨row, hrow, hrowid, hallowed⟩ := hhealthy r hr
  obtain ⟨row', hrow', habout⟩ := h.links.revalidations r hr
  obtain ⟨hrow'id, report, htext, hreportJob, hreportPlan, hreportStatus⟩ := habout
  rw [h.jobs.jobIds.eq hrow hjob (hrowid.trans hid.symm)] at hallowed
  rw [h.jobs.jobIds.eq hrow' hjob (hrow'id.trans hid.symm)] at hreportPlan
  obtain ⟨back, hback, hbackJob, hbackPlan, hbackStatus⟩ := hreadable r hr report htext
  rw [revalidationValid, hallowed, hback]
  simp [hbackJob, hbackPlan, hbackStatus, hreportJob, hreportPlan, hreportStatus]

/-- **Evidence stays healthy.** In every run of the store in which no step takes a job
    with evidence from `Failed` back to `Queued` and the recorded reports read back,
    the integrity check reports no revalidation issue in any state reached. -/
theorem evidence_healthy {labels : List StoreLabel}
    (hrun : Trace (fun db label db' => StoreStep json db label db' ∧ EvidenceKept json db db')
      Database.empty labels db) : appendRevalidationIssues json db = [] := by
  have hkept : Sound json db ∧ EvidenceHealthy db ∧
      ∀ r ∈ db.jobRevalidations, json.ReadsBack r.reportJson := by
    refine hrun.invariant (P := fun d => Sound json d ∧ EvidenceHealthy d ∧
      ∀ r ∈ d.jobRevalidations, json.ReadsBack r.reportJson)
      ⟨sound_empty json, fun r hr => (List.not_mem_nil hr).elim,
        fun r hr => (List.not_mem_nil hr).elim⟩ ?_
    rintro d label d' ⟨hsound, hhealthy, _⟩ ⟨hstep, hkeep⟩
    have hw := StoreStep.writes hsound hstep
    exact ⟨hw.sound hsound, hw.evidenceHealthy hsound hhealthy hkeep.retry, hkeep.readable⟩
  exact appendRevalidationIssues_of_healthy hkept.1 hkept.2.1 hkept.2.2

theorem Sample.json_readsBack (jobId : Uuid) (text : String) : (Sample.json jobId).ReadsBack text := by
  rintro ⟨reportJob, planHash, status, size⟩ hreport
  simp only [Sample.json] at hreport
  split_ifs at hreport with hjob
  obtain ⟨rfl, rfl⟩ := hjob
  obtain rfl := Except.ok.inj hreport
  have hfind : ([.pass, .warning, .fail, .unknown].find? fun s => s.name = status.name) =
      some status := by
    cases status <;> decide
  refine ⟨⟨reportJob, "plan", status, 0⟩, ?_, rfl, rfl, rfl⟩
  simp only [Sample.json, hfind, Option.map_some]

/-- A job that fails, with evidence about its output. -/
def Sample.failedWithEvidence : List (CallEnv × Call) :=
  [(Sample.env 0, .enqueueJobIdempotent "k" (Sample.request "a.json" "a.yaml")),
   (Sample.env 0, .claimQueuedJob 0 "C"), (Sample.env 0, .transition 0 .failed "F"),
   (Sample.env 7, .recordRevalidation 0 ⟨0, "plan", .fail, 0⟩)]

/-- The check passes while the job stays `Failed`. -/
theorem evidence_healthy_failed : appendRevalidationIssues (Sample.json 0)
    (replay (Sample.json 0) Database.empty Sample.failedWithEvidence).2 = [] := by
  have hreadable := Sample.json_readsBack 0
  exact evidence_healthy (replay_trace Sample.failedWithEvidence Database.empty
    ⟨⟨by decide, fun r _ => hreadable _⟩, ⟨by decide, fun r _ => hreadable _⟩,
      ⟨by decide, fun r _ => hreadable _⟩, ⟨by decide, fun r _ => hreadable _⟩, trivial⟩)

/-- It reports an issue once the job is queued again for a retry. -/
theorem evidence_unhealthy_retried :
    let db := (replay (Sample.json 0) Database.empty
      (Sample.failedWithEvidence ++ [(Sample.env 0, .transition 0 .queued "RETRY")])).2
    Reachable (Sample.json 0) db ∧ appendRevalidationIssues (Sample.json 0) db ≠ [] := by
  refine ⟨⟨_, replay_run _ _ Database.empty⟩, ?_⟩
  decide

end Anole
