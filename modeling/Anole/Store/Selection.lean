import Anole.Store.Jobs

/-!
# Stable selections and bulk actions

Models of the selection queries of `crates/core/src/job_store.rs`
(`capture_selection` and the SQL that `job_query_from_where` builds) and of
`apply_bulk_action_transaction`, which applies one action to every member of a
captured selection in ordinal order within one transaction.

* `likeMatch` is SQLite's `LIKE … ESCAPE '\'`: `%` and `_` are wildcards, and
  characters compare without ASCII case.
* `bulkMember` is the loop body of the bulk action. `BulkState` is what the loop
  carries: the database and the three counters.
-/

namespace Anole

/-! ## Selection queries -/

/-- Character comparison of `LIKE`: ASCII letters without case. -/
def likeChar (a b : Char) : Bool := a.toLower = b.toLower

/-- `text LIKE pattern ESCAPE '\'`. -/
def likeMatch : List Char → List Char → Bool
  | [], text => text = []
  | '%' :: pattern, text => text.tails.any fun rest => likeMatch pattern rest
  | '_' :: pattern, _ :: text => likeMatch pattern text
  | '\\' :: c :: pattern, d :: text => likeChar c d && likeMatch pattern text
  | ['\\'], _ => false
  | c :: pattern, d :: text => likeChar c d && likeMatch pattern text
  | _ :: _, [] => false

/-- `search.replace('\\', "\\\\").replace('%', "\\%").replace('_', "\\_")`
    (`job_store.rs`, lines 2185–2188). -/
def escapeLike (search : List Char) : List Char :=
  search.flatMap fun c => if c = '\\' ∨ c = '%' ∨ c = '_' then ['\\', c] else [c]

/-- `normalize_selection_query` (lines 2101–2133). -/
def normalizeSelectionQuery (query : JobSelectionQuery) : Except AnoleError JobSelectionQuery :=
  let states := query.states.foldl (fun states s => if s ∈ states then states else states ++ [s]) []
  let search := (query.search.map trim).filter fun text => text.toList ≠ []
  if search.any fun text => 200 < text.toList.length ∨ text.toList.any isControl then
    .error (.new .inputInvalid .store
      "Selection search must contain at most 200 visible characters"
      "Shorten the search and remove control characters.")
  else .ok { batchId := query.batchId, states := states, search := search }

/-- The search condition: the text as a literal part of the input or output path
    (lines 2184–2199). -/
def searchMatches (row : JobRow) : Option String → Bool
  | none => true
  | some search =>
    let pattern := '%' :: escapeLike search.toList ++ ['%']
    likeMatch pattern row.inputPath.toList || likeMatch pattern row.outputPath.toList

/-- The state and search conditions of `job_query_from_where` (lines 2167–2202). -/
def queryMatches (query : JobSelectionQuery) (row : JobRow) : Bool :=
  (query.states = [] ∨ row.state ∈ query.states) && searchMatches row query.search

/-- The rows of `selection_member_ids` (lines 2135–2157) before `LIMIT`, as pairs of
    the ordering column and the job id. -/
def selectionRows (db : Database) (query : JobSelectionQuery) : List (ℤ × Uuid) :=
  match query.batchId with
  | some batchId => (db.batchMembers.filter fun m => m.batchId = batchId).flatMap fun m =>
      (db.jobs.filter fun row => row.id = m.jobId ∧ queryMatches query row).map fun row =>
        ((m.ordinal : ℤ), row.id)
  | none => (db.jobs.filter fun row => queryMatches query row).map fun row =>
      (row.createdUnixMs, row.id)

/-- The order `ORDER BY column ASC, jobs.id ASC`. -/
def selectionOrder (a b : ℤ × Uuid) : Prop := a.1 < b.1 ∨ (a.1 = b.1 ∧ a.2 ≤ b.2)

instance : DecidableRel selectionOrder := fun _ _ => inferInstanceAs (Decidable (_ ∨ _))

/-- `selection_member_ids` (lines 2135–2157). -/
def selectionMemberIds (db : Database) (query : JobSelectionQuery) : List Uuid :=
  (((selectionRows db query).insertionSort selectionOrder).map Prod.snd).take 100001

/-- `INSERT INTO selection_snapshots`. -/
def Database.insertSelectionSnapshot (db : Database) (row : SelectionSnapshotRow) :
    Except AnoleError Database :=
  insertRow (fun r => r.id = row.id) row db.selectionSnapshots
    (fun rows => { db with selectionSnapshots := rows })
    (storageError "UNIQUE constraint failed: selection_snapshots.id")

/-- `INSERT INTO selection_members`. -/
def Database.insertSelectionMember (db : Database) (row : SelectionMemberRow) :
    Except AnoleError Database :=
  insertRow (fun r => r.selectionId = row.selectionId ∧ (r.ordinal = row.ordinal ∨
      r.jobId = row.jobId)) row db.selectionMembers
    (fun rows => { db with selectionMembers := rows })
    (storageError "UNIQUE constraint failed: selection_members")

/-- The transaction body of `capture_selection` (lines 1728–1776). -/
def captureSelectionBody (env : CallEnv) (query : JobSelectionQuery) (db : Database) :
    Except AnoleError (SelectionSnapshot × Database) := do
  let memberIds := selectionMemberIds db query
  if 100000 < memberIds.length then
    throw (.new .resourceExhausted .store "Selection exceeds the 100,000-job snapshot limit"
      "Narrow the batch, state filters, or search query.")
  let id := env.newV4 0
  let db ← db.insertSelectionSnapshot
    { id := id, queryJson := query, memberCount := memberIds.length, createdUnixMs := env.now }
  let db ← memberIds.zipIdx.foldlM (fun db (jobId, ordinal) =>
    db.insertSelectionMember { selectionId := id, jobId := jobId, ordinal := ordinal }) db
  return ({ id := id, query := query, memberCount := memberIds.length,
            createdUnixMs := env.now }, db)

/-- `capture_selection` (lines 1724–1783). -/
def captureSelection (env : CallEnv) (db : Database) (query : JobSelectionQuery) :
    Except AnoleError SelectionSnapshot × Database :=
  match normalizeSelectionQuery query with
  | .error error => (.error error, db)
  | .ok query => transaction env db (captureSelectionBody env query db)

/-! ## Bulk actions -/

namespace BulkJobAction

/-- `BulkJobAction::target_for` (lines 138–164). -/
def targetFor : BulkJobAction → JobState → Option JobState
  | cancel, state =>
    if state = .planned ∨ state = .queued ∨ state = .blocked ∨ state = .interrupted then
      some .cancelled
    else none
  | resume, state =>
    if state = .blocked ∨ state = .interrupted then some .queued else none
  | retry, state =>
    if state = .failed ∨ state = .cancelled ∨ state = .interrupted then some .queued else none

/-- `bulk_action_event_code` (lines 2423–2429). -/
def eventCode : BulkJobAction → String
  | cancel => "BULK_CANCELLED"
  | resume => "BULK_RESUMED"
  | retry => "BULK_RETRIED"

/-- Bulk actions only make legal transitions. -/
theorem canTransitionTo_of_targetFor {action : BulkJobAction} {state next : JobState}
    (h : action.targetFor state = some next) : state.canTransitionTo next = true := by
  cases action <;> cases state <;> simp_all [targetFor, JobState.canTransitionTo]

end BulkJobAction

/-- The members of a selection with their rows, in ordinal order
    (`apply_bulk_action_transaction`, lines 2230–2247). -/
def selectionJobs (db : Database) (selectionId : Uuid) : List JobRow :=
  ((db.selectionMembers.filter fun m => m.selectionId = selectionId).insertionSort
    fun a b => a.ordinal ≤ b.ordinal).filterMap fun m => db.job? m.jobId

/-- `INSERT INTO bulk_actions`. -/
def Database.insertBulkAction (db : Database) (row : BulkActionRow) :
    Except AnoleError Database :=
  insertRow (fun r => r.actionId = row.actionId) row db.bulkActions
    (fun rows => { db with bulkActions := rows })
    (storageError "UNIQUE constraint failed: bulk_actions.action_id")

/-- `insert_bulk_member` (lines 2390–2413). -/
def Database.insertBulkMember (db : Database) (row : BulkActionMemberRow) :
    Except AnoleError Database :=
  insertRow (fun r => r.actionId = row.actionId ∧ r.jobId = row.jobId) row db.bulkActionMembers
    (fun rows => { db with bulkActionMembers := rows })
    (storageError "UNIQUE constraint failed: bulk_action_members.action_id, bulk_action_members.job_id")

/-- What the loop of a bulk action carries. -/
structure BulkState where
  db : Database
  transitioned : ℕ
  skippedState : ℕ
  skippedConflict : ℕ

/-- The caller's hook of `apply_bulk_action_persisted`, by the position of the
    member it is called for. -/
abbrev BeforeTransition := ℕ → JobRecord → Except AnoleError Unit

/-- A member that is not transitioned: its outcome is recorded. -/
def bulkSkip (actionId : Uuid) (outcome : String) (db : Database) (job : JobRecord) :
    Except AnoleError Database :=
  db.insertBulkMember { actionId := actionId, jobId := job.id, outcome := outcome,
                        previousState := job.state, nextState := none }

/-- The transition of one member (lines 2306–2361), up to its outcome row. -/
def bulkTransition (env : CallEnv) (action : BulkJobAction) (actionId : Uuid) (n : ℕ)
    (db : Database) (job : JobRecord) (next : JobState) : Except AnoleError Database := do
  let db ← reserveFor (env.reservationKey (2 * n + 1)) db job.id job.outputPath next env.now
  let sequence ← bindU64 (nextSequence job.sequence)
  let db := (db.updateJob job.id job.state job.sequence fun r =>
    { r with state := next, sequence := sequence, updatedUnixMs := env.now }).1
  let db ← db.insertJobEvent
    { jobId := job.id, sequence := sequence, previousState := some job.state, nextState := next,
      code := action.eventCode, timestampUnixMs := env.now }
  (releaseFor db job.id next).insertBulkMember
    { actionId := actionId, jobId := job.id, outcome := "transitioned", previousState := job.state,
      nextState := some next }

/-- Another job holds the reservation key of the member (lines 2281–2304). -/
def conflictingOwner (db : Database) (key : String) (jobId : Uuid) : Bool :=
  (db.outputReservations.find? fun r => r.canonicalOutputPath = key).any fun r => r.jobId ≠ jobId

/-- The conflict check of the `n`-th member (lines 2279–2304), made on the way to
    `Queued` only. -/
def bulkConflict (env : CallEnv) (n : ℕ) (db : Database) (job : JobRecord) (next : JobState) :
    Except AnoleError Bool :=
  if next = .queued then do
    let key ← env.reservationKey (2 * n) job.outputPath
    return conflictingOwner db key job.id
  else .ok false

/-- The body of the loop of `apply_bulk_action_transaction` (lines 2267–2363) for the
    `n`-th member. Its key is resolved for the conflict check and once more by
    `reserve_output`. -/
def bulkMember (env : CallEnv) (action : BulkJobAction) (actionId : Uuid)
    (before : BeforeTransition) (st : BulkState) (member : JobRow × ℕ) :
    Except AnoleError BulkState :=
  let job := jobRecordFromRow member.1
  let n := member.2
  match action.targetFor job.state with
  | none => do
    let db ← bulkSkip actionId "skipped-state" st.db job
    return { st with db := db, skippedState := st.skippedState + 1 }
  | some next => do
    let conflict ← bulkConflict env n st.db job next
    if conflict then
      let db ← bulkSkip actionId "skipped-output-conflict" st.db job
      return { st with db := db, skippedConflict := st.skippedConflict + 1 }
    else
      before n job
      let db ← bulkTransition env action actionId n st.db job next
      return { st with db := db, transitioned := st.transitioned + 1 }

/-- The loop over the members. The counters are `u64` and saturate; a selection has
    at most 100,000 members. -/
def bulkLoop (env : CallEnv) (action : BulkJobAction) (actionId : Uuid)
    (before : BeforeTransition) (members : List (JobRow × ℕ)) (st : BulkState) :
    Except AnoleError BulkState :=
  members.foldlM (bulkMember env action actionId before) st

/-- `UPDATE bulk_actions SET … WHERE action_id = ?4` (lines 2364–2377). -/
def Database.setBulkCounts (db : Database) (actionId : Uuid)
    (transitioned skippedState skippedConflict : ℕ) : Database :=
  let set (r : BulkActionRow) : BulkActionRow :=
    { r with transitionedCount := transitioned, skippedStateCount := skippedState,
             skippedConflictCount := skippedConflict }
  { db with bulkActions := Table.update (fun r => r.actionId = actionId) set db.bulkActions }

/-- The transaction body of `apply_bulk_action_transaction` (lines 2211–2388). -/
def applyBulkActionBody (env : CallEnv) (db : Database) (selectionId : Uuid)
    (action : BulkJobAction) (before : BeforeTransition) :
    Except AnoleError (BulkActionReport × Database) := do
  if ¬ db.selectionSnapshots.any (fun s => s.id = selectionId) then
    throw (.new .inputInvalid .store
      s!"Selection snapshot does not exist: {selectionId.toText}"
      "Capture a new stable selection before applying a bulk action.")
  let rows := selectionJobs db selectionId
  let actionId := env.newV4 0
  let db ← db.insertBulkAction
    { actionId := actionId, selectionId := selectionId, action := action,
      matchedCount := rows.length, transitionedCount := 0, skippedStateCount := 0,
      skippedConflictCount := 0, createdUnixMs := env.now }
  let st ← bulkLoop env action actionId before rows.zipIdx
    { db := db, transitioned := 0, skippedState := 0, skippedConflict := 0 }
  return ({ actionId := actionId, selectionId := selectionId, action := action,
            matched := rows.length, transitioned := st.transitioned,
            skippedState := st.skippedState, skippedConflict := st.skippedConflict,
            createdUnixMs := env.now },
          st.db.setBulkCounts actionId st.transitioned st.skippedState st.skippedConflict)

/-- `apply_bulk_action_transaction` (lines 2204–2388). -/
def applyBulkAction (env : CallEnv) (db : Database) (selectionId : Uuid)
    (action : BulkJobAction) (before : BeforeTransition) :
    Except AnoleError BulkActionReport × Database :=
  transaction env db (applyBulkActionBody env db selectionId action before)

end Anole
