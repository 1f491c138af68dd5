import Anole.Store.Write

/-!
# The fair listing of the queue

Model of `list_queued_jobs_fair` (`crates/core/src/job_store.rs`, lines 1487–1527): one
lane for each batch and one for the jobs outside batches; the listing takes the first
job of every lane, then the second of every lane, and so on.

A job is in at most one batch (`batch_members.job_id` is unique), so the left joins give
one row for each job.

Result: `listQueuedJobsFair_ok`, the listed jobs are distinct and were `Queued`.
-/

namespace Anole

/-- A row of `eligible` (lines 1492–1506): a queued job with its lane. -/
structure LaneRow where
  row : JobRow
  laneId : String
  laneOrdinal : ℤ
  laneCreatedUnixMs : ℤ

/-- The jobs with `state = 'queued'`. -/
def Database.queued (db : Database) : List JobRow := db.jobs.filter fun r => r.state = .queued

/-- The lane of a job: its batch, or `__interactive__`, which counts as created with
    the oldest queued job. -/
def Database.laneRow (db : Database) (row : JobRow) : LaneRow :=
  let member := db.batchMembers.find? fun m => m.jobId = row.id
  let batch := member.bind fun m => db.batches.find? fun b => b.id = m.batchId
  { row := row
    laneId := match member with
      | some m => m.batchId.toText
      | none => "__interactive__"
    laneOrdinal := match member with
      | some m => m.ordinal
      | none => row.createdUnixMs
    laneCreatedUnixMs := match batch with
      | some b => b.createdUnixMs
      | none => ((db.queued.map JobRow.createdUnixMs).min?).getD 0 }

/-- The order within a lane (line 1510). -/
def LaneRow.compareInLane (a b : LaneRow) : Ordering :=
  (compare a.laneOrdinal b.laneOrdinal).then
    ((compare a.row.createdUnixMs b.row.createdUnixMs).then (compare a.row.id.toNat b.row.id.toNat))

/-- `ROW_NUMBER() OVER (PARTITION BY lane_id …)` (lines 1508–1511). -/
def laneRank (rows : List LaneRow) (a : LaneRow) : ℕ :=
  1 + rows.countP fun b => b.laneId = a.laneId ∧ b.compareInLane a = .lt

/-- The order of the listing (lines 1517–1518). -/
def LaneRow.compareFair (rows : List LaneRow) (a b : LaneRow) : Ordering :=
  (compare (laneRank rows a) (laneRank rows b)).then
    ((compare a.laneCreatedUnixMs b.laneCreatedUnixMs).then
      ((compare a.laneId b.laneId).then
        ((compare a.laneOrdinal b.laneOrdinal).then (compare a.row.id.toNat b.row.id.toNat))))

/-- `list_queued_jobs_fair` (lines 1487–1527). -/
def listQueuedJobsFair (env : CallEnv) (db : Database) (limit : ℕ) :
    Except AnoleError (List JobRecord) :=
  match env.fault with
  | some error => .error error
  | none =>
    let rows := db.queued.map db.laneRow
    let sorted := rows.insertionSort fun a b => a.compareFair rows b ≠ .gt
    .ok ((sorted.map fun a => jobRecordFromRow a.row).take (max 1 (min limit 10000)))

variable {json : ReportJson} {env : CallEnv} {db : Database} {limit : ℕ} {jobs : List JobRecord}

theorem perm_laneRows (r : LaneRow → LaneRow → Prop) [DecidableRel r] :
    (((db.queued.map db.laneRow).insertionSort r).map LaneRow.row).Perm db.queued := by
  have hrows : (db.queued.map db.laneRow).map LaneRow.row = db.queued := by
    rw [List.map_map]
    exact List.map_id _
  have hperm := (List.perm_insertionSort r (db.queued.map db.laneRow)).map LaneRow.row
  rwa [hrows] at hperm

/-- The listed jobs are distinct and were `Queued`. -/
theorem listQueuedJobsFair_ok (h : Sound json db)
    (hok : listQueuedJobsFair env db limit = .ok jobs) :
    (jobs.map JobRecord.id).Nodup ∧
      ∀ job ∈ jobs, ∃ row ∈ db.jobs, row.id = job.id ∧ row.state = .queued := by
  unfold listQueuedJobsFair at hok
  split at hok
  · cases hok
  · cases hok
    have hperm := @perm_laneRows db (fun a b => a.compareFair (db.queued.map db.laneRow) b ≠ .gt) _
    constructor
    · have hids : (db.queued.map JobRow.id).Nodup :=
        h.jobs.jobIds.sublist (List.filter_sublist.map JobRow.id)
      refine List.Nodup.sublist ((List.take_sublist _ _).map JobRecord.id) ?_
      rw [List.map_map]
      have hnodup := (hperm.map JobRow.id).nodup_iff.mpr hids
      rwa [List.map_map] at hnodup
    · intro job hjob
      obtain ⟨a, ha, rfl⟩ := List.mem_map.mp (List.mem_of_mem_take hjob)
      have hrow := hperm.mem_iff.mp (List.mem_map_of_mem ha)
      obtain ⟨hmem, hqueued⟩ := List.mem_filter.mp hrow
      exact ⟨a.row, hmem, rfl, by simpa using hqueued⟩

end Anole
