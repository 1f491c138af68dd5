import Anole.Store.Invariants
import Anole.Store.Members

/-!
# The history of the store

Nothing that the store has recorded is taken back. Jobs, events, keys, batches, selections and evidence are only
added to, and a job in `Completed` or `Warning` stays as it is: no transition, no bulk action and no cleanup
touches its row or its log.

Main results: `history_kept`, and `job_details_whole`: a reader is shown the whole log of a job.
-/

open Common Relation

namespace Anole

/-- Rows were only added to the tables that keep a history. -/
structure Appended (db db' : Database) : Prop where
  events : db.jobEvents <+: db'.jobEvents
  keys : db.jobIdempotencyKeys <+: db'.jobIdempotencyKeys
  batches : db.batches <+: db'.batches
  batchMembers : db.batchMembers <+: db'.batchMembers
  revalidations : db.jobRevalidations <+: db'.jobRevalidations
  bulkMembers : db.bulkActionMembers <+: db'.bulkActionMembers

/-- What a later state of the store keeps of an earlier one. -/
structure HistoryKept (db db' : Database) : Prop where
  jobs : JobsExtend db.jobs db'.jobs
  appended : Appended db db'
  selections : SelectionsExtend db db'
  finished : ∀ row ∈ db.jobs, row.state = .completed ∨ row.state = .warning →
    row ∈ db'.jobs ∧ db'.logOf row.id = db.logOf row.id

section History

variable {json : ReportJson} {db db' : Database} {labels : List StoreLabel} {row : JobRow}

theorem Write.appended (hw : Write json db db') : Appended db db' := by
  cases hw <;> constructor <;> first | exact List.prefix_refl _ | exact List.prefix_append _ _

theorem Writes.appended (hw : Writes json db db') : Appended db db' := by
  induction hw with
  | refl => constructor <;> exact List.prefix_refl _
  | tail _ hw ih =>
    have hlast := hw.appended
    exact ⟨ih.events.trans hlast.events, ih.keys.trans hlast.keys, ih.batches.trans hlast.batches,
      ih.batchMembers.trans hlast.batchMembers, ih.revalidations.trans hlast.revalidations,
      ih.bulkMembers.trans hlast.bulkMembers⟩

theorem Write.finished (hw : Write json db db') (h : Sound json db) (hrow : row ∈ db.jobs)
    (hfinished : row.state = .completed ∨ row.state = .warning) :
    row ∈ db'.jobs ∧ db'.logOf row.id = db.logOf row.id := by
  cases hw with
  | create new key _ _ hfresh =>
    exact ⟨List.mem_append_left _ hrow, filter_append_other _ (hfresh row hrow).symm⟩
  | move moved next code now rs hmoved hlegal =>
    have hne : row.id ≠ moved.id := by
      intro hid
      rw [← h.jobs.jobIds.eq hrow hmoved hid, JobState.not_canTransitionTo_of_finished hfinished] at hlegal
      cases hlegal
    exact ⟨(mem_update_id h.jobs.jobIds hmoved).mpr (.inr ⟨hrow, hne⟩), filter_append_other _ hne.symm⟩
  | audit audited code now haudited hallowed =>
    have hne : row.id ≠ audited.id := by
      intro hid
      rw [← h.jobs.jobIds.eq hrow haudited hid] at hallowed
      rcases hfinished with hstate | hstate <;> rw [hstate] at hallowed <;> cases hallowed
    exact ⟨(mem_update_id h.jobs.jobIds haudited).mpr (.inr ⟨hrow, hne⟩), filter_append_other _ hne.symm⟩
  | bindKey | addBatch | addBatchMember | addSelection | addSelectionMember | addBulkAction
  | addBulkMember | setBulkCounts | addRevalidation | setSamples => exact ⟨hrow, rfl⟩

theorem Writes.finished (hw : Writes json db db') (h : Sound json db) (hrow : row ∈ db.jobs)
    (hfinished : row.state = .completed ∨ row.state = .warning) :
    row ∈ db'.jobs ∧ db'.logOf row.id = db.logOf row.id := by
  induction hw with
  | refl => exact ⟨hrow, rfl⟩
  | tail hws hw ih =>
    obtain ⟨hrow', hlog⟩ := hw.finished (Writes.sound hws h) ih.1 hfinished
    exact ⟨hrow', hlog.trans ih.2⟩

/-- **The store keeps its history** in every run of any processes from a reachable state. -/
theorem history_kept (h : Reachable json db) (hrun : StoreRun json db labels db') : HistoryKept db db' := by
  have hw := StoreRun.writes h.sound hrun
  exact ⟨hw.extends, hw.appended, StoreRun.selections h.sound hrun, fun _ hrow => hw.finished h.sound hrow⟩

/-- **`get_job_details` shows the whole log** of a job, in order: from its creation, by legal moves and audits, to
    the state that is shown. -/
theorem job_details_whole (h : Reachable json db) {env : CallEnv} (hfault : env.fault = none) (hrow : row ∈ db.jobs) :
    getJobDetails env db row.id = .ok (some ⟨jobRecordFromRow row, row.planJson, db.logOf row.id⟩) ∧
      EventLog row.id (db.logOf row.id) row.sequence row.state := by
  have hlog : EventLog row.id (db.logOf row.id) row.sequence row.state := h.sound.jobs.log row hrow
  have hordered : (db.logOf row.id).Pairwise fun a b => a.sequence ≤ b.sequence := by
    refine List.pairwise_map.mp ?_
    rw [hlog.numbered]
    exact List.pairwise_le_range
  refine ⟨?_, hlog⟩
  rw [getJobDetails, hfault, job?_of_mem h.sound.jobs.jobIds hrow, ← hordered.insertionSort_eq]
  rfl

end History

theorem job_details_whole_queued :
    let db := (replay (Sample.json 0) Database.empty
      [(Sample.env 0, .enqueueJobIdempotent "k" (Sample.request "a.json" "a.yaml"))]).2
    EventLog 0 (db.logOf 0) 1 .queued := by
  intro db
  have hreachable : Reachable (Sample.json 0) db := ⟨_, replay_run _ _ Database.empty⟩
  exact (job_details_whole hreachable (show (Sample.env 0).fault = none from rfl) (List.getElem_mem (n := 0) (by decide))).2

/-- A job that has completed, and what is then tried on it. -/
theorem history_kept_completed :
    let run := [(Sample.env 0, .enqueueJobIdempotent "k" (Sample.request "a.json" "a.yaml")),
      (Sample.env 0, .claimQueuedJob 0 "C"), (Sample.env 0, .transition 0 .planned "P"),
      (Sample.env 0, .transition 0 .running "R"), (Sample.env 0, .transition 0 .validating "V"),
      (Sample.env 0, .transition 0 .completed "D")]
    let db := (replay (Sample.json 0) Database.empty run).2
    let db' := (replay (Sample.json 0) db [(Sample.env 0, .queueJobs [0] "Q"),
      (Sample.env 0, .transition 0 .cancelled "X"), (Sample.env 0, .transition 0 .queued "Q")]).2
    db.jobs.map JobRow.state = [.completed] ∧ HistoryKept db db' := by
  intro run db db'
  have hreachable : Reachable (Sample.json 0) db := ⟨_, replay_run _ run Database.empty⟩
  exact ⟨by decide, history_kept hreachable (replay_run _ _ db)⟩

end Anole
