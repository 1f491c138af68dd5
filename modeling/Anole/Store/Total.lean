import Anole.Store.Invariants

/-!
# Transitions that do not fail

On a sound database a legal transition to a state other than `Queued` fails only when
SQLite fails or the sequence number has no successor, and so does a claim of a
`Queued` job. (A transition to `Queued` may also fail because the destination is
taken.)
-/

open Common

namespace Anole

variable {json : ReportJson} {env : CallEnv} {db db' : Database} {row : JobRow}
  {next : JobState}

/-- The number of the next event of a job is free. -/
theorem insertJobEvent_next (h : Sound json db) (hrow : row ∈ db.jobs) (jobs : List JobRow)
    (previous : Option JobState) (next : JobState) (code : String) (now : ℤ) :
    ({ db with jobs := jobs } : Database).insertJobEvent
        ⟨row.id, row.sequence + 1, previous, next, code, now⟩ =
      .ok { db with
        jobs := jobs
        jobEvents := db.jobEvents ++ [⟨row.id, row.sequence + 1, previous, next, code, now⟩] } := by
  refine insertRow_eq_ok.mpr ⟨fun r hr => ?_, rfl⟩
  simp only [decide_eq_false_iff_not, not_and]
  intro hid hnumber
  have hlog := (h.jobs.log row hrow).numbered
  have hmem : r.sequence ∈ (db.jobEvents.filter fun e => e.jobId = row.id).map
      EventRow.sequence :=
    List.mem_map_of_mem (List.mem_filter.mpr ⟨hr, by simpa using hid⟩)
  rw [hlog, List.mem_range] at hmem
  omega

theorem transitionBody_of_legal (env : CallEnv) (h : Sound json db) (hrow : row ∈ db.jobs)
    (hlegal : row.state.canTransitionTo next = true) (hnext : next ≠ .queued)
    (hroom : row.sequence + 1 < sqliteIntegerLimit) (code : String) :
    transitionBody env db row.id next code =
      .ok (movedRecord row next (row.sequence + 1) env.now,
        releaseFor (db.withMoved row next code env.now db.outputReservations) row.id next) := by
  refine bind_eq_ok.mpr ⟨row, requireJob_of_mem h.jobs.jobIds hrow, guard_eq_ok.mpr ⟨?_, ?_⟩⟩
  · exact not_not.mpr hlegal
  refine bind_eq_ok.mpr ⟨db, if_neg hnext, bind_eq_ok.mpr ⟨_, bindU64_nextSequence_of_lt hroom, ?_⟩⟩
  rw [updateJob_of_mem db h.jobs.jobIds hrow]
  refine guard_eq_ok.mpr ⟨not_not.mpr rfl, bind_eq_ok.mpr ⟨_, ?_, rfl⟩⟩
  exact insertJobEvent_next h hrow _ _ _ _ _

/-- A legal transition to another state than `Queued` is made. -/
theorem transition_of_legal (h : Sound json db) (hrow : row ∈ db.jobs)
    (hlegal : row.state.canTransitionTo next = true) (hnext : next ≠ .queued)
    (hroom : row.sequence + 1 < sqliteIntegerLimit) (hfault : env.fault = none) (code : String) :
    ∃ db' rs, transition env db row.id next code =
        (.ok (movedRecord row next (row.sequence + 1) env.now), db') ∧
      MovesJob env db row.id next code row rs db' := by
  have hok := transitionBody_of_legal env h hrow hlegal hnext hroom code
  obtain ⟨row', rs, hm, _⟩ := transitionBody_ok h hok
  rw [h.jobs.jobIds.eq hm.mem hrow hm.jobId] at hm
  exact ⟨_, rs, transaction_ok.mpr ⟨hfault, hok⟩, hm⟩

/-- A transition that is made is legal and had a free sequence number. -/
theorem transition_ok (h : Sound json db) {id : Uuid} {code : String} {record : JobRecord}
    (hok : transition env db id next code = (.ok record, db')) :
    ∃ row rs, MovesJob env db id next code row rs db' ∧
      record = movedRecord row next (row.sequence + 1) env.now :=
  transitionBody_ok h (transaction_ok.mp hok).2

/-- A claim of a `Queued` job succeeds. -/
theorem claimQueuedJob_of_queued (h : Sound json db) (hrow : row ∈ db.jobs)
    (hqueued : row.state = .queued) (hroom : row.sequence + 1 < sqliteIntegerLimit)
    (hfault : env.fault = none) (code : String) :
    ∃ db', claimQueuedJob env db row.id code =
        (.ok (some (movedRecord row .inspecting (row.sequence + 1) env.now)), db') ∧
      MovesJob env db row.id .inspecting code row db.outputReservations db' := by
  have hok : claimQueuedJobBody env db row.id code =
      .ok (some (movedRecord row .inspecting (row.sequence + 1) env.now),
        db.withMoved row .inspecting code env.now db.outputReservations) := by
    refine bind_eq_ok.mpr ⟨row, requireJob_of_mem h.jobs.jobIds hrow, ?_⟩
    rw [if_neg (not_not.mpr hqueued)]
    refine bind_eq_ok.mpr ⟨_, bindU64_nextSequence_of_lt hroom, ?_⟩
    rw [← hqueued, updateJob_of_mem db h.jobs.jobIds hrow]
    simp only [ne_eq, not_true_eq_false, if_false]
    refine bind_eq_ok.mpr ⟨_, ?_, rfl⟩
    exact insertJobEvent_next h hrow _ _ _ _ _
  refine ⟨_, transaction_ok.mpr ⟨hfault, hok⟩, ?_⟩
  obtain ⟨row', hrow', hid, ⟨_, hnone, _⟩ | ⟨_, hm, _⟩⟩ := claimQueuedJobBody_ok h hok
  · cases hnone
  · rwa [h.jobs.jobIds.eq hrow' hrow hid] at hm

end Anole
