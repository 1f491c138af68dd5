import Anole.Store.Refine

/-!
# The turns of a bulk action

`BulkTurn` says what one round of the loop of `apply_bulk_action_transaction` does to
the member whose turn it is: it is skipped because of its state, skipped because
another job holds its reservation key, or moved. A committed bulk action is a
sequence of turns, one for each member in ordinal order (`bulkLoop_turns`).

A member's row is read once, before the loop. The turns of the other members do
not change it (`BulkTurn.mem_other`), so at its turn the row is still current.
-/

open Common Relation

namespace Anole

variable {json : ReportJson} {env : CallEnv} {db db' : Database} {action : BulkJobAction}
  {actionId : Uuid} {before : BeforeTransition} {st st' : BulkState} {member : JobRow × ℕ} {row : JobRow}
  {selectionId : Uuid}

/-- The outcome of a member, recorded. -/
def Database.withBulkMember (db : Database) (row : BulkActionMemberRow) : Database :=
  { db with bulkActionMembers := db.bulkActionMembers ++ [row] }

theorem insertBulkMember_ok {row : BulkActionMemberRow} (hok : db.insertBulkMember row = .ok db') :
    db' = db.withBulkMember row := by
  exact (insertRow_eq_ok.mp hok).2

/-- What one round does: `member` is the row read before the loop and its position. -/
inductive BulkTurn (env : CallEnv) (action : BulkJobAction) (actionId : Uuid) (st : BulkState)
    (member : JobRow × ℕ) : BulkState → Prop
  | skippedState : action.targetFor member.1.state = none →
      BulkTurn env action actionId st member
        { st with
          db := st.db.withBulkMember
            ⟨actionId, member.1.id, "skipped-state", member.1.state, none⟩
          skippedState := st.skippedState + 1 }
  | skippedConflict (key : String) : action.targetFor member.1.state = some .queued →
      env.reservationKey (2 * member.2) (PathBuf.ofString member.1.outputPath) = .ok key →
      conflictingOwner st.db key member.1.id = true →
      BulkTurn env action actionId st member
        { st with
          db := st.db.withBulkMember
            ⟨actionId, member.1.id, "skipped-output-conflict", member.1.state, none⟩
          skippedConflict := st.skippedConflict + 1 }
  | transitioned (next : JobState) (db : Database) (rs : List ReservationRow) :
      action.targetFor member.1.state = some next →
      (next = .queued → ∃ key,
        env.reservationKey (2 * member.2) (PathBuf.ofString member.1.outputPath) = .ok key ∧
          conflictingOwner st.db key member.1.id = false) →
      MovesJob env st.db member.1.id next action.eventCode member.1 rs db →
      BulkTurn env action actionId st member
        { st with
          db := db.withBulkMember
            ⟨actionId, member.1.id, "transitioned", member.1.state, some next⟩
          transitioned := st.transitioned + 1 }

theorem bulkTransition_ok (h : Sound json db) (hrow : row ∈ db.jobs) {n : ℕ}
    {next : JobState} (htarget : action.targetFor row.state = some next)
    (hok : bulkTransition env action actionId n db (jobRecordFromRow row) next = .ok db') :
    ∃ rs db1, MovesJob env db row.id next action.eventCode row rs db1 ∧
      db' = db1.withBulkMember ⟨actionId, row.id, "transitioned", row.state, some next⟩ := by
  have hlegal := BulkJobAction.canTransitionTo_of_targetFor htarget
  unfold bulkTransition at hok
  simp only [jobRecordFromRow_id, jobRecordFromRow_state, jobRecordFromRow_sequence] at hok
  obtain ⟨db1, hres, hok⟩ := bind_eq_ok.mp hok
  obtain ⟨rs, rfl, hrelease⟩ := reserveFor_ok h hrow hlegal hres
  obtain ⟨sequence, hseq, hok⟩ := bind_eq_ok.mp hok
  obtain ⟨rfl, hroom⟩ := bindU64_nextSequence hseq
  obtain ⟨db2, hevent, hok⟩ := bind_eq_ok.mp hok
  rw [updateJob_of_mem (db.withReservations rs) h.jobs.jobIds hrow] at hevent
  have hdb2 := insertJobEvent_ok hevent
  obtain ⟨rs', hmove, hrs'⟩ := hrelease db2 (by rw [hdb2]; rfl)
  have hmoved : releaseFor db2 row.id next = db.withMoved row next action.eventCode env.now rs' := by
    rw [hrs', hdb2]; rfl
  refine ⟨rs', _, ⟨hrow, rfl, hlegal, hroom, hmove, rfl⟩, ?_⟩
  rw [← hmoved]
  exact insertBulkMember_ok hok

theorem bulkConflict_ok {n : ℕ} {next : JobState} {conflict : Bool}
    (hok : bulkConflict env n db (jobRecordFromRow row) next = .ok conflict) :
    (next = .queued ∧ ∃ key, env.reservationKey (2 * n) (PathBuf.ofString row.outputPath) = .ok key ∧
      conflictingOwner db key row.id = conflict) ∨ (next ≠ .queued ∧ conflict = false) := by
  unfold bulkConflict at hok
  by_cases hnext : next = .queued
  · left
    rw [if_pos hnext] at hok
    obtain ⟨key, hkey, hok⟩ := bind_eq_ok.mp hok
    cases hok
    exact ⟨hnext, key, hkey, rfl⟩
  · right
    rw [if_neg hnext] at hok
    cases hok
    exact ⟨hnext, rfl⟩

theorem bulkMember_turn (h : Sound json st.db) (hrow : member.1 ∈ st.db.jobs)
    (hok : bulkMember env action actionId before st member = .ok st') :
    BulkTurn env action actionId st member st' := by
  unfold bulkMember at hok
  simp only [jobRecordFromRow_state] at hok
  split at hok
  · next htarget =>
    obtain ⟨db1, hskip, hok⟩ := bind_eq_ok.mp hok
    cases hok
    rw [insertBulkMember_ok hskip]
    exact .skippedState htarget
  · next next htarget =>
    obtain ⟨conflict, hconflict, hok⟩ := bind_eq_ok.mp hok
    have hcheck := bulkConflict_ok hconflict
    cases conflict with
    | true =>
      obtain ⟨db1, hskip, hok⟩ := bind_eq_ok.mp hok
      cases hok
      rw [insertBulkMember_ok hskip]
      rcases hcheck with ⟨rfl, key, hkey, howner⟩ | ⟨_, hfalse⟩
      · exact .skippedConflict key htarget hkey howner
      · cases hfalse
    | false =>
      obtain ⟨_, _, hok⟩ := bind_eq_ok.mp hok
      obtain ⟨db1, htransition, hok⟩ := bind_eq_ok.mp hok
      cases hok
      obtain ⟨rs, db2, hmoves, rfl⟩ := bulkTransition_ok h hrow htarget htransition
      refine .transitioned next db2 rs htarget ?_ hmoves
      rintro rfl
      rcases hcheck with ⟨_, key, hkey, howner⟩ | ⟨hne, _⟩
      · exact ⟨key, hkey, howner⟩
      · exact absurd rfl hne

/-- The action a bulk action records its members under is in the table. -/
def HasAction (db : Database) (actionId : Uuid) : Prop := ∃ a ∈ db.bulkActions, a.actionId = actionId

theorem BulkTurn.writes (hturn : BulkTurn env action actionId st member st')
    (haction : HasAction st.db actionId) :
    Writes json st.db st'.db ∧ HasAction st'.db actionId := by
  cases hturn with
  | skippedState => exact ⟨.single (.addBulkMember _ haction), haction⟩
  | skippedConflict => exact ⟨.single (.addBulkMember _ haction), haction⟩
  | transitioned next db rs _ _ hmoves =>
    have hactions : HasAction db actionId := by rw [hmoves.result]; exact haction
    exact ⟨.tail (.single hmoves.write) (.addBulkMember _ hactions), hactions⟩

theorem BulkTurn.mem_other (h : Sound json st.db) (hturn : BulkTurn env action actionId st member st')
    (hid : row.id ≠ member.1.id) : row ∈ st'.db.jobs ↔ row ∈ st.db.jobs := by
  cases hturn with
  | skippedState => exact Iff.rfl
  | skippedConflict => exact Iff.rfl
  | transitioned next db rs _ _ hmoves =>
    rw [hmoves.result]
    change row ∈ Table.update _ _ _ ↔ _
    rw [mem_update_id h.jobs.jobIds hmoves.mem]
    constructor
    · rintro (rfl | ⟨hrow, _⟩)
      · exact absurd rfl hid
      · exact hrow
    · exact fun hrow => Or.inr ⟨hrow, hid⟩

/-- One round of the loop, with the turn it is. -/
def BulkRound (env : CallEnv) (action : BulkJobAction) (actionId : Uuid) (before : BeforeTransition)
    (st : BulkState) (member : JobRow × ℕ) (st' : BulkState) : Prop :=
  bulkMember env action actionId before st member = .ok st' ∧
    BulkTurn env action actionId st member st'

theorem bulkLoop_rounds :
    ∀ (members : List (JobRow × ℕ)) {st st' : BulkState}, Sound json st.db →
      HasAction st.db actionId → (members.map fun m => m.1.id).Nodup →
      (∀ m ∈ members, m.1 ∈ st.db.jobs) →
      bulkLoop env action actionId before members st = .ok st' →
      Trace (BulkRound env action actionId before) st members st' := by
  intro members
  induction members with
  | nil => intro st st' _ _ _ _ hok; cases hok; exact .nil
  | cons member members ih =>
    intro st st' h haction hnodup hrows hok
    unfold bulkLoop at hok
    rw [List.foldlM_cons] at hok
    obtain ⟨st1, h1, h2⟩ := bind_eq_ok.mp hok
    have hturn := bulkMember_turn h (hrows member (by simp)) h1
    obtain ⟨hw, haction1⟩ : Writes json st.db st1.db ∧ _ := hturn.writes haction
    rw [List.map_cons, List.nodup_cons] at hnodup
    refine .cons ⟨h1, hturn⟩ (ih (hw.sound h) haction1 hnodup.2 (fun m hm => ?_) h2)
    have hne : m.1.id ≠ member.1.id := by
      intro heq
      exact hnodup.1 (List.mem_map.mpr ⟨m, hm, heq⟩)
    exact (hturn.mem_other h hne).mpr (hrows m (List.mem_cons_of_mem _ hm))

/-- The rounds up to some member are what the loop over these members does. -/
theorem bulkLoop_of_rounds {members : List (JobRow × ℕ)}
    (hrounds : Trace (BulkRound env action actionId before) st members st') :
    bulkLoop env action actionId before members st = .ok st' :=
  foldlM_eq_ok.mpr (hrounds.mono And.left)

theorem bulkTurns_writes {members : List (JobRow × ℕ)}
    (hturns : Trace (BulkTurn env action actionId) st members st')
    (haction : HasAction st.db actionId) : Writes json st.db st'.db := by
  have hkeep : Writes json st.db st'.db ∧ HasAction st'.db actionId := by
    refine hturns.invariant (P := fun s => Writes json st.db s.db ∧ HasAction s.db actionId)
      ⟨.refl, haction⟩ ?_
    rintro s m s' ⟨hw, ha⟩ hturn
    obtain ⟨hw', ha'⟩ : Writes json s.db s'.db ∧ _ := hturn.writes ha
    exact ⟨.trans hw hw', ha'⟩
  exact hkeep.1

/-! ## The members of a selection -/

/-- The members of a selection in ordinal order. -/
def orderedMembers (db : Database) (selectionId : Uuid) : List SelectionMemberRow :=
  (db.selectionMembers.filter fun m => m.selectionId = selectionId).insertionSort
    fun a b => a.ordinal ≤ b.ordinal

theorem map_id_selectionJobs (h : Sound json db) (selectionId : Uuid) :
    (selectionJobs db selectionId).map JobRow.id =
      (orderedMembers db selectionId).map SelectionMemberRow.jobId := by
  have hjobs : ∀ m ∈ orderedMembers db selectionId, ∃ row ∈ db.jobs, row.id = m.jobId := by
    intro m hm
    rw [orderedMembers, List.mem_insertionSort] at hm
    exact h.links.selectionJobs m (List.mem_of_mem_filter hm)
  change ((orderedMembers db selectionId).filterMap fun m => db.job? m.jobId).map JobRow.id = _
  generalize orderedMembers db selectionId = members at hjobs ⊢
  induction members with
  | nil => rfl
  | cons m members ih =>
    obtain ⟨row, hrow, hid⟩ := hjobs m (by simp)
    have hjob : db.job? m.jobId = some row := h.jobs.jobIds.find?_eq_some.mpr ⟨hrow, hid⟩
    rw [List.filterMap_cons, hjob, List.map_cons, List.map_cons, hid]
    rw [ih fun m hm => hjobs m (List.mem_cons_of_mem _ hm)]

theorem nodup_selectionJobs (h : Sound json db) (selectionId : Uuid) :
    ((selectionJobs db selectionId).map JobRow.id).Nodup := by
  rw [map_id_selectionJobs h]
  have hperm := List.perm_insertionSort (fun a b : SelectionMemberRow => a.ordinal ≤ b.ordinal)
    (db.selectionMembers.filter fun m => m.selectionId = selectionId)
  refine ((hperm.map SelectionMemberRow.jobId).nodup_iff).mpr ?_
  have hkeyed := h.links.selectionMembers
  refine List.Nodup.map_on ?_ (hkeyed.nodup.filter _)
  intro a ha b hb heq
  obtain ⟨ha, hsa⟩ := List.mem_filter.mp ha
  obtain ⟨hb, hsb⟩ := List.mem_filter.mp hb
  simp only [decide_eq_true_eq] at hsa hsb
  exact hkeyed.eq ha hb (Prod.ext (hsa.trans hsb.symm) heq)

theorem nodup_zipIdx_selectionJobs (h : Sound json db) (selectionId : Uuid) :
    ((selectionJobs db selectionId).zipIdx.map fun m => m.1.id).Nodup := by
  have hids : ((selectionJobs db selectionId).zipIdx.map fun m => m.1.id) =
      ((selectionJobs db selectionId).zipIdx.map Prod.fst).map JobRow.id := by
    rw [List.map_map]
    rfl
  rw [hids, List.zipIdx_map_fst]
  exact nodup_selectionJobs h selectionId

theorem mem_of_mem_selectionJobs
    (hrow : row ∈ selectionJobs db selectionId) : row ∈ db.jobs := by
  obtain ⟨m, _, hjob⟩ := List.mem_filterMap.mp hrow
  exact List.mem_of_find?_eq_some hjob

/-! ## The whole action -/

/-- The database with the row of a starting bulk action. -/
def Database.withBulkAction (db : Database) (env : CallEnv) (selectionId : Uuid)
    (action : BulkJobAction) : Database :=
  { db with bulkActions := db.bulkActions ++
      [⟨env.newV4 0, selectionId, action, (selectionJobs db selectionId).length, 0, 0, 0, env.now⟩] }

/-- What the loop of a bulk action starts from. -/
def bulkStart (db : Database) (env : CallEnv) (selectionId : Uuid) (action : BulkJobAction) :
    BulkState :=
  { db := db.withBulkAction env selectionId action, transitioned := 0, skippedState := 0,
    skippedConflict := 0 }

theorem insertBulkAction_ok {row : BulkActionRow} (hok : db.insertBulkAction row = .ok db') :
    (∀ r ∈ db.bulkActions, r.actionId ≠ row.actionId) ∧
      db' = { db with bulkActions := db.bulkActions ++ [row] } := by
  obtain ⟨hfree, rfl⟩ := insertRow_eq_ok.mp hok
  exact ⟨fun r hr => by simpa using hfree r hr, rfl⟩

/-- A committed bulk action, taken apart: the action row, the turns, the counts. -/
theorem applyBulkActionBody_ok (h : Sound json db) {report : BulkActionReport}
    (hok : applyBulkActionBody env db selectionId action before = .ok (report, db')) :
    ∃ st', (∀ r ∈ db.bulkActions, r.actionId ≠ env.newV4 0) ∧
      Trace (BulkRound env action (env.newV4 0) before) (bulkStart db env selectionId action)
        (selectionJobs db selectionId).zipIdx st' ∧
      db' = st'.db.setBulkCounts (env.newV4 0) st'.transitioned st'.skippedState
        st'.skippedConflict ∧
      report = ⟨env.newV4 0, selectionId, action, (selectionJobs db selectionId).length,
        st'.transitioned, st'.skippedState, st'.skippedConflict, env.now⟩ := by
  unfold applyBulkActionBody at hok
  obtain ⟨_, hok⟩ := guard_eq_ok.mp hok
  obtain ⟨db1, h1, hok⟩ := bind_eq_ok.mp hok
  obtain ⟨hfree, rfl⟩ := insertBulkAction_ok h1
  obtain ⟨st', h2, hok⟩ := bind_eq_ok.mp hok
  cases hok
  have hw : Write json db (db.withBulkAction env selectionId action) := .addBulkAction _ hfree
  refine ⟨st', hfree, ?_, rfl, rfl⟩
  refine bulkLoop_rounds _ (hw.sound h) ⟨_, List.mem_append_right _ (List.mem_singleton.mpr rfl), rfl⟩
    (nodup_zipIdx_selectionJobs h selectionId) (fun m hm => ?_) h2
  have hrow : m.1 ∈ selectionJobs db selectionId := by
    have := List.mem_map_of_mem (f := Prod.fst) hm
    rwa [List.zipIdx_map_fst] at this
  exact mem_of_mem_selectionJobs hrow

theorem applyBulkActionBody_writes (h : Sound json db)
    {report : BulkActionReport}
    (hok : applyBulkActionBody env db selectionId action before = .ok (report, db')) :
    Writes json db db' := by
  obtain ⟨st', hfree, hrounds, rfl, _⟩ := applyBulkActionBody_ok h hok
  have hw : Write json db (db.withBulkAction env selectionId action) := .addBulkAction _ hfree
  have hws : Writes json _ st'.db := bulkTurns_writes (hrounds.mono And.right)
    ⟨_, List.mem_append_right _ (List.mem_singleton.mpr rfl), rfl⟩
  exact .tail (.head hw hws) (.setBulkCounts _ _ _ _)

end Anole
