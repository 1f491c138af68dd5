import Anole.Store.Runs

/-!
# Bulk actions are atomic and account for every member

`apply_bulk_action_transaction` either leaves the store as it was or handles every
member of the selection exactly once, in ordinal order. The outcome of a member
is decided at its turn: earlier members may have taken or released the destination
it needs.

Main result: `bulk_action_accounted`, from the per-turn facts (`BulkTurn.outcome`,
`BulkTurn.untouched`, `BulkTurn.counts`).
-/

open Common

namespace Anole

variable {json : ReportJson} {env : CallEnv} {db db' : Database} {action : BulkJobAction}
  {actionId selectionId : Uuid} {before : BeforeTransition} {st st' : BulkState}
  {member : JobRow × ℕ} {row : JobRow}

/-! ## One turn -/

theorem BulkTurn.outcome (hturn : BulkTurn env action actionId st member st') :
    ∃ r : BulkActionMemberRow, r.actionId = actionId ∧ r.jobId = member.1.id ∧
      st'.db.bulkActionMembers = st.db.bulkActionMembers ++ [r] := by
  cases hturn with
  | skippedState => exact ⟨⟨actionId, member.1.id, _, _, _⟩, rfl, rfl, rfl⟩
  | skippedConflict => exact ⟨⟨actionId, member.1.id, _, _, _⟩, rfl, rfl, rfl⟩
  | transitioned next db rs _ _ hm =>
    refine ⟨⟨actionId, member.1.id, "transitioned", member.1.state, some next⟩, rfl, rfl, ?_⟩
    rw [Database.withBulkMember, hm.result]
    rfl

theorem BulkTurn.counts (hturn : BulkTurn env action actionId st member st') :
    st'.transitioned + st'.skippedState + st'.skippedConflict =
      st.transitioned + st.skippedState + st.skippedConflict + 1 := by
  cases hturn with
  | skippedState => simp only; omega
  | skippedConflict => simp only; omega
  | transitioned => simp only; omega

theorem untouched_withBulkMember (id : Uuid) (row : BulkActionMemberRow) :
    Untouched id db (db.withBulkMember row) := ⟨rfl, rfl, rfl⟩

theorem BulkTurn.untouched (hturn : BulkTurn env action actionId st member st') {id : Uuid}
    (hne : id ≠ member.1.id) : Untouched id st.db st'.db := by
  cases hturn with
  | skippedState => exact untouched_withBulkMember id _
  | skippedConflict => exact untouched_withBulkMember id _
  | transitioned next db rs _ _ hm => exact (hm.untouched hne).trans (untouched_withBulkMember id _)

/-! ## All turns -/

section Turns

variable {members : List (JobRow × ℕ)}

theorem bulkTurns_counts (hturns : Trace (BulkTurn env action actionId) st members st') :
    st'.transitioned + st'.skippedState + st'.skippedConflict =
      st.transitioned + st.skippedState + st.skippedConflict + members.length := by
  induction hturns with
  | nil => rfl
  | cons hturn _ ih =>
    have := hturn.counts
    rw [List.length_cons]
    omega

theorem bulkTurns_untouched (hturns : Trace (BulkTurn env action actionId) st members st')
    {id : Uuid} (hne : ∀ m ∈ members, id ≠ m.1.id) : Untouched id st.db st'.db := by
  induction hturns with
  | nil => exact .refl _ _
  | cons hturn _ ih =>
    have hfirst := hturn.untouched (hne _ (by simp))
    exact hfirst.trans (ih fun m hm => hne m (List.mem_cons_of_mem _ hm))

theorem bulkTurns_outcomes (hturns : Trace (BulkTurn env action actionId) st members st') :
    ∃ rs : List BulkActionMemberRow, st'.db.bulkActionMembers = st.db.bulkActionMembers ++ rs ∧
      rs.map BulkActionMemberRow.jobId = members.map (fun m => m.1.id) ∧
      ∀ r ∈ rs, r.actionId = actionId := by
  induction hturns with
  | nil => exact ⟨[], by simp, rfl, by simp⟩
  | cons hturn _ ih =>
    obtain ⟨r, ha, hj, hr⟩ := hturn.outcome
    obtain ⟨rs, hrs, hids, hactions⟩ := ih
    refine ⟨r :: rs, ?_, ?_, ?_⟩
    · rw [hrs, hr, List.append_assoc]
      rfl
    · rw [List.map_cons, List.map_cons, hj, hids]
    · intro r' hr'
      rcases List.mem_cons.mp hr' with rfl | hr'
      · exact ha
      · exact hactions r' hr'

end Turns

/-! ## The whole action -/

/-- No other job holds the reservation key of the member whose turn it is. -/
def KeyFree (env : CallEnv) (db : Database) (row : JobRow) (n : ℕ) : Prop :=
  ∃ key, env.reservationKey (2 * n) (PathBuf.ofString row.outputPath) = .ok key ∧
    ∀ r ∈ db.outputReservations, r.canonicalOutputPath = key → r.jobId = row.id

/-- What a committed action did to the member at position `n` of the selection: `st` is
    the state of the loop at its turn and `r` its outcome row. -/
structure MemberHandled (env : CallEnv) (action : BulkJobAction) (db db' : Database)
    (row : JobRow) (n : ℕ) (st : BulkState) (r : BulkActionMemberRow) : Prop where
  /-- It is transitioned exactly when its state has a target and the destination a
      target of `Queued` needs is free. -/
  transitioned : r.outcome = "transitioned" ↔ ∃ next, action.targetFor row.state = some next ∧
    (next = .queued → KeyFree env st.db row n)
  /-- A transition is legal and is what the store holds afterwards. -/
  moved : r.outcome = "transitioned" → ∃ next, action.targetFor row.state = some next ∧
    row.state.canTransitionTo next = true ∧
    db'.job? row.id = some (row.moved next (row.sequence + 1) env.now)
  /-- A skipped member keeps its state, sequence, events and reservation. -/
  skipped : r.outcome ≠ "transitioned" → Untouched row.id db db'

/-- What a committed bulk action did. -/
structure BulkAccounted (env : CallEnv) (db : Database) (selectionId : Uuid)
    (action : BulkJobAction) (before : BeforeTransition) (report : BulkActionReport)
    (db' : Database) : Prop where
  counts : report.matched = report.transitioned + report.skippedState + report.skippedConflict
  matched : report.matched =
    (db.selectionMembers.filter fun m => m.selectionId = selectionId).length
  /-- Every member of the selection has exactly one outcome row. -/
  outcomes : ∀ m ∈ db.selectionMembers, m.selectionId = selectionId →
    (db'.bulkActionMembers.countP fun r => r.actionId = report.actionId ∧ r.jobId = m.jobId) = 1
  /-- The members are handled in ordinal order, each in the state the earlier ones leave. -/
  handled : ∀ n row, (selectionJobs db selectionId)[n]? = some row →
    ∃ st, bulkLoop env action report.actionId before ((selectionJobs db selectionId).zipIdx.take n)
        (bulkStart db env selectionId action) = .ok st ∧
      ∃ r ∈ db'.bulkActionMembers, r.actionId = report.actionId ∧ r.jobId = row.id ∧
        MemberHandled env action db db' row n st r

theorem conflictingOwner_eq_false (h : Sound json db) {key : String} {id : Uuid} :
    conflictingOwner db key id = false ↔
      ∀ r ∈ db.outputReservations, r.canonicalOutputPath = key → r.jobId = id := by
  unfold conflictingOwner
  cases hfind : db.outputReservations.find? fun r => r.canonicalOutputPath = key with
  | none =>
    have hnone := Table.find?_eq_none.mp hfind
    simp only [Option.any_none, true_iff]
    exact fun r hr hkey => absurd hkey (hnone r hr)
  | some r =>
    obtain ⟨hr, hkey⟩ := h.jobs.reservationKeys.find?_eq_some.mp hfind
    simp only [Option.any_some, ne_eq, decide_not, Bool.not_eq_false', decide_eq_true_eq]
    constructor
    · intro hid s hs hs'
      rw [h.jobs.reservationKeys.eq hs hr (hs'.trans hkey.symm)]
      exact hid
    · exact fun hall => hall r hr hkey

/-- The outcome of a turn, seen from the end of the action. `hbefore` and `hafter` are
    the turns of the other members. -/
theorem BulkTurn.handled (h : Sound json st.db) {n : ℕ}
    (hturn : BulkTurn env action actionId st (row, n) st')
    (hbefore : Untouched row.id db st.db) (hafter : Untouched row.id st'.db db') :
    ∃ r, st'.db.bulkActionMembers = st.db.bulkActionMembers ++ [r] ∧ r.actionId = actionId ∧
      r.jobId = row.id ∧ MemberHandled env action db db' row n st r := by
  cases hturn with
  | skippedState htarget =>
    have hrow : Untouched row.id st.db db' := (untouched_withBulkMember row.id _).trans hafter
    simp only at htarget
    refine ⟨⟨actionId, row.id, "skipped-state", row.state, none⟩, rfl, rfl, rfl, ?_, ?_,
      fun _ => hbefore.trans hrow⟩
    · simp [htarget]
    · simp
  | skippedConflict key htarget hkey hconflict =>
    have hrow : Untouched row.id st.db db' := (untouched_withBulkMember row.id _).trans hafter
    simp only at htarget hkey hconflict
    refine ⟨⟨actionId, row.id, "skipped-output-conflict", row.state, none⟩, rfl, rfl, rfl, ?_, ?_,
      fun _ => hbefore.trans hrow⟩
    · simp only [htarget, String.reduceEq, Option.some.injEq, exists_eq_left', forall_const,
        false_iff]
      rintro ⟨key', hkey', hfree⟩
      rw [hkey] at hkey'
      obtain rfl := Except.ok.inj hkey'
      rw [(conflictingOwner_eq_false h).mpr hfree] at hconflict
      cases hconflict
    · simp
  | transitioned next db₁ rs htarget hfree hm =>
    simp only at htarget hfree hm
    refine ⟨⟨actionId, row.id, "transitioned", row.state, some next⟩, ?_, rfl, rfl, ?_, ?_, ?_⟩
    · rw [Database.withBulkMember, hm.result]
      rfl
    · refine iff_of_true rfl ⟨next, htarget, fun hqueued => ?_⟩
      obtain ⟨key, hkey, howner⟩ := hfree hqueued
      exact ⟨key, hkey, (conflictingOwner_eq_false h).mp howner⟩
    · refine fun _ => ⟨next, htarget, hm.legal, ?_⟩
      have hjob := hm.job? h
      rw [← hjob]
      exact hafter.job
    · exact fun hne => absurd rfl hne

/-! ## The members of the selection -/

theorem length_selectionJobs (h : Sound json db) (selectionId : Uuid) :
    (selectionJobs db selectionId).length =
      (db.selectionMembers.filter fun m => m.selectionId = selectionId).length := by
  rw [← List.length_map (f := JobRow.id), map_id_selectionJobs h, List.length_map]
  exact List.length_insertionSort _ _

/-- The members before a position, the one there, and the ones after. -/
theorem zipIdx_split {rows : List JobRow} {n : ℕ} (hrow : rows[n]? = some row) :
    rows.zipIdx = rows.zipIdx.take n ++ (row, n) :: rows.zipIdx.drop (n + 1) := by
  obtain ⟨hn, hget⟩ := List.getElem?_eq_some_iff.mp hrow
  have hlen : n < rows.zipIdx.length := by rw [List.length_zipIdx]; exact hn
  have hentry : rows.zipIdx[n] = (row, n) := by rw [List.getElem_zipIdx, hget, Nat.zero_add]
  rw [← hentry, ← List.drop_eq_getElem_cons hlen, List.take_append_drop]

/-- The state of the loop at the turn of the member at position `n`, and its turn. -/
theorem handled_of_rounds (h : Sound json db) {n : ℕ} {st₀ : BulkState}
    (hsound₀ : Sound json st₀.db) (haction : HasAction st₀.db actionId)
    (hstart : Untouched row.id db st₀.db)
    (hrow : (selectionJobs db selectionId)[n]? = some row)
    (hrounds : Trace (BulkRound env action actionId before) st₀
      (selectionJobs db selectionId).zipIdx st')
    (hend : Untouched row.id st'.db db') :
    ∃ st, bulkLoop env action actionId before ((selectionJobs db selectionId).zipIdx.take n) st₀ =
        .ok st ∧
      ∃ r ∈ st'.db.bulkActionMembers, r.actionId = actionId ∧ r.jobId = row.id ∧
        MemberHandled env action db db' row n st r := by
  have hnodup := nodup_zipIdx_selectionJobs h selectionId
  rw [zipIdx_split hrow, List.map_append, List.map_cons, List.nodup_middle, List.nodup_cons,
    List.mem_append, not_or] at hnodup
  have hother : ∀ members : List (JobRow × ℕ), row.id ∉ members.map (fun m => m.1.id) →
      ∀ m ∈ members, row.id ≠ m.1.id :=
    fun members hnot m hm heq => hnot (List.mem_map.mpr ⟨m, hm, heq.symm⟩)
  rw [zipIdx_split hrow] at hrounds
  obtain ⟨st, hbefore, hrest⟩ := trace_append.mp hrounds
  obtain ⟨st₁, ⟨_, hturn⟩, hafter⟩ := trace_cons.mp hrest
  refine ⟨st, bulkLoop_of_rounds hbefore, ?_⟩
  have hturnsBefore : Trace (BulkTurn env action actionId) st₀ _ st := hbefore.mono And.right
  have hturnsAfter : Trace (BulkTurn env action actionId) st₁ _ st' := hafter.mono And.right
  have hsound : Sound json st.db := (bulkTurns_writes hturnsBefore haction).sound hsound₀
  have huntouched := hstart.trans (bulkTurns_untouched hturnsBefore (hother _ hnodup.1.1))
  have hlater := (bulkTurns_untouched hturnsAfter (hother _ hnodup.1.2)).trans hend
  obtain ⟨r, hr, ha, hj, hhandled⟩ := hturn.handled hsound huntouched hlater
  obtain ⟨rs, hrs, _⟩ := bulkTurns_outcomes hturnsAfter
  refine ⟨r, ?_, ha, hj, hhandled⟩
  rw [hrs, hr]
  simp

theorem countP_outcome {start rs : List BulkActionMemberRow} {ids : List Uuid} {id : Uuid}
    (hstart : ∀ r ∈ start, r.actionId ≠ actionId) (hrs : rs.map BulkActionMemberRow.jobId = ids)
    (hactions : ∀ r ∈ rs, r.actionId = actionId) (hnodup : ids.Nodup) (hid : id ∈ ids) :
    ((start ++ rs).countP fun r => r.actionId = actionId ∧ r.jobId = id) = 1 := by
  have hold : (start.countP fun r => r.actionId = actionId ∧ r.jobId = id) = 0 :=
    List.countP_eq_zero.mpr fun r hr hp => hstart r hr (by simp at hp; exact hp.1)
  have hnew : (rs.countP fun r => r.actionId = actionId ∧ r.jobId = id) = ids.count id := by
    rw [← hrs, List.count, List.countP_map]
    refine List.countP_congr fun r hr => ?_
    simp [hactions r hr]
  rw [List.countP_append, hold, hnew, List.count_eq_one_of_mem hnodup hid]

theorem applyBulkActionBody_accounted (h : Sound json db) {report : BulkActionReport}
    (hok : applyBulkActionBody env db selectionId action before = .ok (report, db')) :
    BulkAccounted env db selectionId action before report db' := by
  obtain ⟨st', hfree, hrounds, rfl, rfl⟩ := applyBulkActionBody_ok h hok
  have hturns : Trace (BulkTurn env action (env.newV4 0)) _ _ st' := hrounds.mono And.right
  have hw : Write json db (db.withBulkAction env selectionId action) := .addBulkAction _ hfree
  have haction : HasAction (db.withBulkAction env selectionId action) (env.newV4 0) :=
    ⟨_, List.mem_append_right _ (List.mem_singleton.mpr rfl), rfl⟩
  constructor
  case counts =>
    have hcounts := bulkTurns_counts hturns
    rw [List.length_zipIdx] at hcounts
    simpa [bulkStart] using hcounts.symm
  case matched => exact length_selectionJobs h selectionId
  case outcomes =>
    intro m hm hselection
    obtain ⟨rs, hrs, hids, hactions⟩ := bulkTurns_outcomes hturns
    change (st'.db.bulkActionMembers.countP _) = 1
    rw [hrs]
    refine countP_outcome (fun r hr heq => ?_) hids hactions (nodup_zipIdx_selectionJobs h _) ?_
    · obtain ⟨a, ha, hid⟩ := h.links.bulkMembers r hr
      exact hfree a ha (hid.trans heq)
    · have hmem : m.jobId ∈ (selectionJobs db selectionId).map JobRow.id := by
        rw [map_id_selectionJobs h]
        refine List.mem_map_of_mem ?_
        rw [orderedMembers, List.mem_insertionSort, List.mem_filter]
        exact ⟨hm, by simpa using hselection⟩
      obtain ⟨row, hrow, hid⟩ := List.mem_map.mp hmem
      rw [← hid]
      have : row ∈ (selectionJobs db selectionId).zipIdx.map Prod.fst := by
        rw [List.zipIdx_map_fst]
        exact hrow
      obtain ⟨p, hp, rfl⟩ := List.mem_map.mp this
      exact List.mem_map.mpr ⟨p, hp, rfl⟩
  case handled =>
    intro n row hrow
    exact handled_of_rounds h (hw.sound h) haction ⟨rfl, rfl, rfl⟩ hrow hrounds ⟨rfl, rfl, rfl⟩

/-- **Atomicity and accounting of bulk actions.** In every reachable store a bulk
    action either fails and leaves every table unchanged, or handles each member of
    the selection exactly once. -/
theorem bulk_action_accounted (h : Reachable json db)
    {result : Except AnoleError BulkActionReport}
    (hcall : applyBulkAction env db selectionId action before = (result, db')) :
    (∃ error, result = .error error ∧ db' = db) ∨
    ∃ report, result = .ok report ∧
      BulkAccounted env db selectionId action before report db' := by
  cases result with
  | error error => exact Or.inl ⟨error, rfl, transaction_error hcall⟩
  | ok report =>
    exact Or.inr ⟨report, rfl, applyBulkActionBody_accounted h.sound (transaction_ok.mp hcall).2⟩

/-- Two cancelled jobs with one destination: a retry queues the first and skips the
    second. -/
theorem bulk_action_accounted_retry :
    let calls := [(Sample.env 0, .createJobs [Sample.request "a.json" "o.yaml"]),
      (Sample.env 0, .transition 0 .cancelled "X"),
      (Sample.env 1, .createJobs [Sample.request "b.json" "o.yaml"]),
      (Sample.env 1, .transition 1 .cancelled "X"),
      (Sample.env 2, .captureSelection { batchId := none, states := [], search := none })]
    let db := (replay (Sample.json 0) Database.empty calls).2
    let done := applyBulkAction (Sample.env 3) db 2 .retry fun _ _ => .ok ()
    ∃ report, done.1 = .ok report ∧ report.transitioned = 1 ∧ report.skippedConflict = 1 ∧
      BulkAccounted (Sample.env 3) db 2 .retry (fun _ _ => .ok ()) report done.2 := by
  intro calls db done
  have hreachable : Reachable (Sample.json 0) db := ⟨_, replay_run _ calls Database.empty⟩
  rcases bulk_action_accounted hreachable (Prod.mk.eta (p := done)).symm with
    ⟨error, herror, _⟩ | ⟨report, hreport, haccounted⟩
  · have hok : done.1.isOk = true := by decide
    rw [herror] at hok
    cases hok
  · have hcounts : done.1.map (fun r => (r.transitioned, r.skippedConflict)) = .ok (1, 1) := by
      decide
    rw [hreport] at hcounts
    have := Except.ok.inj hcounts
    exact ⟨report, hreport, (Prod.mk.inj this).1, (Prod.mk.inj this).2, haccounted⟩

end Anole
