import Anole.Common.RoundRobin
import Anole.Queue.Fair
import Mathlib.Data.Prod.Lex
import Mathlib.Data.String.Basic

/-!
# Fairness of the queue listing

The listing of `list_queued_jobs_fair` (`crates/core/src/job_store.rs`, lines 1487–1527) is a
round robin over the lanes: a batch, or the jobs outside every batch.

Main results:

* `fair_window`: any window of the listing takes the lanes turn by turn, each in its own
  order, and a shorter window is a prefix of a longer one.
* `queued_job_listed`: how long a window has to be to hold a job.
* `laneRow_laneId_eq_iff`: the text `lane_id` tells the lanes apart.
-/

namespace Anole

variable {db : Database}

/-! ## Lanes -/

/-- The lane of a job: its batch, or `none` outside batches. -/
def Database.lane (db : Database) (id : Uuid) : Option Uuid :=
  (db.batchMembers.find? fun m => m.jobId = id).map BatchMemberRow.batchId

/-- The place of a job in its lane: the ordinal in the batch (outside batches the time of
    creation), then the time of creation, then the id. -/
def Database.laneKey (db : Database) (row : JobRow) : ℤ ×ₗ ℤ ×ₗ ℕ :=
  toLex ((db.laneRow row).laneOrdinal, toLex (row.createdUnixMs, row.id.toNat))

/-- The queued jobs of a lane in the order of the lane. -/
def Database.laneQueue (db : Database) (lane : Option Uuid) : List JobRecord :=
  (Common.laneItems (fun row => db.lane row.id) db.laneKey db.queued lane).map jobRecordFromRow

theorem Uuid.toText_ne_interactive (id : Uuid) : id.toText ≠ "__interactive__" := by
  intro h
  have hyphen : '-' ∈ id.toText.toList := by simp [Uuid.toText]
  rw [h] at hyphen
  revert hyphen
  decide

/-- `lane_id` tells the lanes apart. -/
theorem laneRow_laneId_eq_iff (a b : JobRow) :
    (db.laneRow a).laneId = (db.laneRow b).laneId ↔ db.lane a.id = db.lane b.id := by
  unfold Database.laneRow Database.lane
  cases db.batchMembers.find? fun m => m.jobId = a.id with
  | none =>
    cases db.batchMembers.find? fun m => m.jobId = b.id with
    | none => simp
    | some m => simpa using m.batchId.toText_ne_interactive.symm
  | some m =>
    cases db.batchMembers.find? fun m => m.jobId = b.id with
    | none => simpa using m.batchId.toText_ne_interactive
    | some m' =>
      simp only [Option.map_some, Option.some.injEq]
      exact ⟨Uuid.toText_injective, fun h => by rw [h]⟩

theorem compareInLane_eq_lt_iff (a b : JobRow) :
    (db.laneRow a).compareInLane (db.laneRow b) = .lt ↔ db.laneKey a < db.laneKey b := by
  rw [LaneRow.compareInLane, Database.laneKey, Database.laneKey, Prod.Lex.toLex_lt_toLex,
    Prod.Lex.toLex_lt_toLex, Ordering.then_eq_lt, Ordering.then_eq_lt]
  simp only [compare_lt_iff_lt, compare_eq_iff_eq]
  rfl

/-- The rank of the query counts from one. -/
theorem laneRank_laneRow (row : JobRow) : laneRank (db.queued.map db.laneRow) (db.laneRow row) =
    1 + Common.rank (fun row => db.lane row.id) db.laneKey db.queued row := by
  rw [laneRank, List.countP_map, Common.rank]
  congr 1
  refine List.countP_congr fun b _ => ?_
  simp only [Function.comp_apply, decide_eq_true_eq, laneRow_laneId_eq_iff, compareInLane_eq_lt_iff]

/-! ## The order of the listing -/

/-- What the rows are sorted by (lines 1517–1518). -/
def fairKey (rows : List LaneRow) (a : LaneRow) : ℕ ×ₗ ℤ ×ₗ String ×ₗ ℤ ×ₗ ℕ :=
  toLex (laneRank rows a, toLex (a.laneCreatedUnixMs,
    toLex (a.laneId, toLex (a.laneOrdinal, a.row.id.toNat))))

theorem compareFair_ne_gt_iff (rows : List LaneRow) (a b : LaneRow) :
    a.compareFair rows b ≠ .gt ↔ fairKey rows a ≤ fairKey rows b := by
  have hswap : a.compareFair rows b = .gt ↔ fairKey rows b < fairKey rows a := by
    rw [LaneRow.compareFair, fairKey, fairKey]
    simp only [Prod.Lex.toLex_lt_toLex, Ordering.then_eq_gt, compare_gt_iff_gt, compare_eq_iff_eq]
    rw [eq_comm (a := laneRank rows a), eq_comm (a := a.laneCreatedUnixMs),
      eq_comm (a := a.laneId), eq_comm (a := a.laneOrdinal)]
  rw [ne_eq, hswap, not_lt]

/-- The rows in the order of the listing. -/
def Database.fairRows (db : Database) : List JobRow :=
  let rows := db.queued.map db.laneRow
  (rows.insertionSort fun a b => a.compareFair rows b ≠ .gt).map LaneRow.row

theorem listQueuedJobsFair_eq {env : CallEnv} (hfault : env.fault = none) (limit : ℕ) :
    listQueuedJobsFair env db limit =
      .ok ((db.fairRows.map jobRecordFromRow).take (max 1 (min limit 10000))) := by
  rw [listQueuedJobsFair, hfault, Database.fairRows, List.map_map]
  rfl

theorem fairRows_isRoundRobin :
    Common.IsRoundRobin (fun row => db.lane row.id) db.laneKey db.queued db.fairRows := by
  refine ⟨perm_laneRows _, ?_⟩
  set rows := db.queued.map db.laneRow with hrows
  let r : LaneRow → LaneRow → Prop := fun a b => a.compareFair rows b ≠ .gt
  have htotal : Std.Total r := by
    refine ⟨fun a b => ?_⟩
    simp only [r, compareFair_ne_gt_iff]
    exact le_total _ _
  have htrans : IsTrans LaneRow r := by
    refine ⟨fun a b c => ?_⟩
    simp only [r, compareFair_ne_gt_iff]
    exact le_trans
  have hsorted := List.pairwise_insertionSort r rows
  refine List.pairwise_map.mpr (hsorted.imp_of_mem fun {a b} ha hb hab => ?_)
  obtain ⟨row, -, rfl⟩ := List.mem_map.mp ((List.mem_insertionSort r).mp ha)
  obtain ⟨row', -, rfl⟩ := List.mem_map.mp ((List.mem_insertionSort r).mp hb)
  have hrank : laneRank rows (db.laneRow row) ≤ laneRank rows (db.laneRow row') := by
    rcases Prod.Lex.toLex_le_toLex.mp ((compareFair_ne_gt_iff rows _ _).mp hab) with hlt | heq
    · exact hlt.le
    · exact heq.1.le
  rw [hrows, laneRank_laneRow, laneRank_laneRow] at hrank
  show Common.rank _ db.laneKey db.queued row ≤ Common.rank _ db.laneKey db.queued row'
  omega

/-- Ids are different, so the places in the lanes are. -/
theorem laneKeyed_queued (h : Table.Keyed JobRow.id db.jobs) :
    Common.LaneKeyed (fun row => db.lane row.id) db.laneKey db.queued := by
  have hids : (db.queued.map JobRow.id).Nodup := h.sublist (List.filter_sublist.map JobRow.id)
  refine (List.pairwise_map.mp hids).imp fun {a b} hid _ hkey => hid ?_
  have hkey' := congrArg (fun k => (ofLex (ofLex k).2).2) hkey
  exact BitVec.eq_of_toNat_eq hkey'

/-! ## The window -/

/-- What a window of `limit` jobs promises. -/
structure FairWindow (db : Database) (limit : ℕ) (jobs : List JobRecord) : Prop where
  /-- It lists queued jobs, each once, and as many as asked for when there are so many. -/
  queued : ∀ job ∈ jobs, ∃ row ∈ db.jobs, row.state = .queued ∧ jobRecordFromRow row = job
  distinct : (jobs.map JobRecord.id).Nodup
  length : jobs.length = min limit db.queued.length
  /-- The jobs of a lane are the first of the lane, in the lane's order. -/
  inLane : ∀ lane, jobs.filter (fun job => db.lane job.id = lane) <+: db.laneQueue lane
  /-- A lane's job at place `k + 1` comes after every other lane's job at place `k`. -/
  turns : ∀ lane lane' k a b xs ys, (db.laneQueue lane)[k + 1]? = some a →
    (db.laneQueue lane')[k]? = some b → jobs = xs ++ a :: ys → b ∈ xs
  /-- No lane has two jobs more than a lane with a queued job outside the window. -/
  balanced : ∀ lane lane', (∃ b ∈ db.laneQueue lane', b ∉ jobs) →
    jobs.countP (fun job => db.lane job.id = lane) ≤
      jobs.countP (fun job => db.lane job.id = lane') + 1

section Window

variable {limit : ℕ} (hjobs : Table.Keyed JobRow.id db.jobs)

include hjobs

theorem jobRecordFromRow_inj {a b : JobRow} (ha : a ∈ db.queued) (hb : b ∈ db.queued)
    (h : jobRecordFromRow a = jobRecordFromRow b) : a = b :=
  hjobs.eq (List.mem_filter.mp ha).1 (List.mem_filter.mp hb).1 (congrArg JobRecord.id h)

/-- The first `limit` rows of the listing. -/
theorem fairWindow_take (limit : ℕ) :
    FairWindow db limit ((db.fairRows.map jobRecordFromRow).take limit) := by
  have hrobin := @fairRows_isRoundRobin db
  have hkeyed := laneKeyed_queued hjobs
  have hpre : db.fairRows.take limit <+: db.fairRows := List.take_prefix _ _
  have hmem : ∀ row ∈ db.fairRows.take limit, row ∈ db.queued :=
    fun row hrow => hrobin.perm.mem_iff.mp (List.mem_of_mem_take hrow)
  rw [← List.map_take]
  set w := db.fairRows.take limit with hw
  refine ⟨?_, ?_, ?_, ?_, ?_, ?_⟩
  · intro job hjob
    obtain ⟨row, hrow, rfl⟩ := List.mem_map.mp hjob
    obtain ⟨hrow, hqueued⟩ := List.mem_filter.mp (hmem row hrow)
    exact ⟨row, hrow, of_decide_eq_true hqueued, rfl⟩
  · rw [List.map_map]
    have hids : (db.queued.map JobRow.id).Nodup := hjobs.sublist (List.filter_sublist.map JobRow.id)
    have hnodup := (hrobin.perm.map JobRow.id).nodup_iff.mpr hids
    exact hnodup.sublist ((List.take_sublist _ _).map JobRow.id)
  · rw [List.length_map, hw, List.length_take, hrobin.perm.length_eq]
  · intro lane
    rw [List.filter_map]
    exact (hrobin.window_filter hkeyed hpre lane).map jobRecordFromRow
  · intro lane lane' k a b xs ys ha hb hsplit
    rw [Database.laneQueue, List.getElem?_map, Option.map_eq_some_iff] at ha hb
    obtain ⟨row, hrow, rfl⟩ := ha
    obtain ⟨row', hrow', rfl⟩ := hb
    obtain ⟨xs, rest, hrows, rfl, hrest⟩ := List.map_eq_append_iff.mp hsplit
    obtain ⟨row₁, ys, rfl, hsame, rfl⟩ := List.map_eq_cons_iff.mp hrest
    have hrow₁ : row₁ ∈ w := by
      rw [hrows]
      exact List.mem_append_right _ List.mem_cons_self
    have hqueued := (Common.mem_laneItems.mp (List.mem_of_getElem? hrow)).1
    obtain rfl := jobRecordFromRow_inj hjobs (hmem row₁ hrow₁) hqueued hsame
    exact List.mem_map_of_mem (hrobin.mem_of_turn hkeyed (hrows ▸ hpre) hrow hrow')
  · rintro lane lane' ⟨b, hb, hout⟩
    obtain ⟨row, hrow, rfl⟩ := List.mem_map.mp hb
    have hout' : row ∉ w := fun h => hout (List.mem_map_of_mem h)
    rw [List.countP_map, List.countP_map]
    exact hrobin.count_le hkeyed hpre hrow hout'

/-- **Fair window.** The listing takes the lanes turn by turn, and a shorter listing is a
    prefix of a longer one. -/
theorem fair_window {env : CallEnv} (hfault : env.fault = none) {n m : ℕ} (hn : 1 ≤ n)
    (hnm : n ≤ m) (hm : m ≤ 10000) :
    ∃ window wide, listQueuedJobsFair env db n = .ok window ∧
      listQueuedJobsFair env db m = .ok wide ∧ window <+: wide ∧ FairWindow db n window := by
  refine ⟨_, _, listQueuedJobsFair_eq hfault n, listQueuedJobsFair_eq hfault m, ?_, ?_⟩
  · exact List.take_prefix_take_left (by omega)
  · rw [show max 1 (min n 10000) = n by omega]
    exact fairWindow_take hjobs n

/-- **A job waits for its turn only.** A window with a place in every lane for the job at place `k` and for each
    place before it holds the job, however many jobs the other lanes have. -/
theorem queued_job_listed {env : CallEnv} (hfault : env.fault = none) {n k : ℕ} (hn : n ≤ 10000)
    {lane : Option Uuid} {job : JobRecord} (hjob : (db.laneQueue lane)[k]? = some job)
    (hlong : (db.queued.map fun row => db.lane row.id).dedup.length * (k + 1) ≤ n) :
    ∃ window, listQueuedJobsFair env db n = .ok window ∧ job ∈ window := by
  refine ⟨_, listQueuedJobsFair_eq hfault n, ?_⟩
  rw [Database.laneQueue, List.getElem?_map, Option.map_eq_some_iff] at hjob
  obtain ⟨row, hrow, rfl⟩ := hjob
  have hrobin := @fairRows_isRoundRobin db
  rw [← List.map_take]
  refine List.mem_map_of_mem ?_
  by_cases hall : db.fairRows.length ≤ max 1 (min n 10000)
  · rw [List.take_of_length_le hall]
    exact hrobin.perm.mem_iff.mpr (Common.mem_laneItems.mp (List.mem_of_getElem? hrow)).1
  · refine hrobin.mem_of_length (laneKeyed_queued hjobs) (List.take_prefix _ _) hrow (hlong.trans ?_)
    rw [List.length_take]
    omega

end Window

namespace Sample

/-- A queued job of the sample store. -/
def queuedRow (id : Uuid) (createdUnixMs : ℤ) : JobRow :=
  { id := id, state := .queued, inputPath := "in", outputPath := "out", planHash := "hash",
    planJson := plan, sequence := 0, createdUnixMs := createdUnixMs, updatedUnixMs := createdUnixMs }

/-- A batch with two jobs, and two jobs outside it. -/
def mixedLanes : Database :=
  { Database.empty with
    jobs := [queuedRow 1 5, queuedRow 2 6, queuedRow 3 7, queuedRow 4 8]
    batches := [⟨9, "batch", 6, 6⟩]
    batchMembers := [⟨9, 2, 0⟩, ⟨9, 3, 1⟩] }

theorem fair_window_mixedLanes : ∃ window wide,
    listQueuedJobsFair (env 0) mixedLanes 3 = .ok window ∧
      listQueuedJobsFair (env 0) mixedLanes 4 = .ok wide ∧
      window <+: wide ∧ FairWindow mixedLanes 3 window :=
  fair_window (show Table.Keyed JobRow.id mixedLanes.jobs by unfold Table.Keyed; decide) rfl
    (by decide) (by decide) (by decide)

/-- Two places are enough for the first job of the batch. -/
theorem queued_job_listed_batch : ∃ window,
    listQueuedJobsFair (env 0) mixedLanes 2 = .ok window ∧ jobRecordFromRow (queuedRow 2 6) ∈ window :=
  queued_job_listed (show Table.Keyed JobRow.id mixedLanes.jobs by unfold Table.Keyed; decide) rfl (by decide)
    (show (mixedLanes.laneQueue (some 9))[0]? = _ from rfl) (by decide)

end Sample

end Anole
