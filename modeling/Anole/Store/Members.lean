import Anole.Store.Runs

/-!
# Members of selections over runs

`capture_selection` is the only call that writes `selection_snapshots` and `selection_members`, and it
writes members of the selection it creates. So the members of a selection never change.

* `exec_selections`: what a call adds to the two tables.
* `StoreRun.selections`: what a run adds to them.
-/

open Common Relation

namespace Anole

/-- Selections were added with their members, and the others are as they were. -/
structure SelectionsExtend (db db' : Database) : Prop where
  added : ∃ rows members, db'.selectionSnapshots = db.selectionSnapshots ++ rows ∧
    db'.selectionMembers = db.selectionMembers ++ members ∧
    (∀ row ∈ rows, ∀ s ∈ db.selectionSnapshots, s.id ≠ row.id) ∧
    ∀ m ∈ members, ∃ row ∈ rows, row.id = m.selectionId

/-- Every member is one of a selection. -/
def SelectionsSound (db : Database) : Prop := ∀ m ∈ db.selectionMembers, ∃ s ∈ db.selectionSnapshots, s.id = m.selectionId

namespace SelectionsExtend

variable {db db' db'' : Database}

/-- The two tables are as they were. -/
theorem kept (hsnapshots : db'.selectionSnapshots = db.selectionSnapshots)
    (hmembers : db'.selectionMembers = db.selectionMembers) : SelectionsExtend db db' :=
  ⟨[], [], by rw [hsnapshots, List.append_nil], by rw [hmembers, List.append_nil],
    fun _ hrow => absurd hrow List.not_mem_nil, fun _ hm => absurd hm List.not_mem_nil⟩

theorem refl (db : Database) : SelectionsExtend db db := kept rfl rfl

theorem trans (h : SelectionsExtend db db') (h' : SelectionsExtend db' db'') : SelectionsExtend db db'' := by
  obtain ⟨rows, members, hsnapshots, hmembers, hnew, hown⟩ := h.added
  obtain ⟨rows', members', hsnapshots', hmembers', hnew', hown'⟩ := h'.added
  refine ⟨rows ++ rows', members ++ members', ?_, ?_, ?_, ?_⟩
  · rw [hsnapshots', hsnapshots, List.append_assoc]
  · rw [hmembers', hmembers, List.append_assoc]
  · intro row hrow s hs
    rcases List.mem_append.mp hrow with hrow | hrow
    · exact hnew row hrow s hs
    · exact hnew' row hrow s (by rw [hsnapshots]; exact List.mem_append_left _ hs)
  · intro m hm
    rcases List.mem_append.mp hm with hm | hm
    · obtain ⟨row, hrow, hid⟩ := hown m hm
      exact ⟨row, List.mem_append_left _ hrow, hid⟩
    · obtain ⟨row, hrow, hid⟩ := hown' m hm
      exact ⟨row, List.mem_append_right _ hrow, hid⟩

theorem sound (h : SelectionsExtend db db') (hsound : SelectionsSound db) : SelectionsSound db' := by
  obtain ⟨rows, members, hsnapshots, hmembers, -, hown⟩ := h.added
  intro m hm
  rw [hmembers] at hm
  rw [hsnapshots]
  rcases List.mem_append.mp hm with hm | hm
  · obtain ⟨s, hs, hid⟩ := hsound m hm
    exact ⟨s, List.mem_append_left _ hs, hid⟩
  · obtain ⟨row, hrow, hid⟩ := hown m hm
    exact ⟨row, List.mem_append_right _ hrow, hid⟩

/-- **The members** of a selection that exists are as they were. -/
theorem orderedMembers (h : SelectionsExtend db db') {s : SelectionSnapshotRow} (hs : s ∈ db.selectionSnapshots) :
    Anole.orderedMembers db' s.id = Anole.orderedMembers db s.id := by
  obtain ⟨rows, members, -, hmembers, hnew, hown⟩ := h.added
  have hother : members.filter (fun m => m.selectionId = s.id) = [] := by
    rw [List.filter_eq_nil_iff]
    intro m hm hid
    obtain ⟨row, hrow, hrowid⟩ := hown m hm
    exact hnew row hrow s hs ((of_decide_eq_true hid).symm.trans hrowid.symm)
  rw [Anole.orderedMembers, hmembers, List.filter_append, hother, List.append_nil]
  rfl

end SelectionsExtend

/-! ## Calls -/

section Calls

variable {json : ReportJson} {env : CallEnv} {db db' : Database} {action : BulkJobAction} {id : Uuid}
  {code : String} {enqueue : Bool}

theorem transaction_selections {α : Type} {body : Except AnoleError (α × Database)}
    (hbody : ∀ a d, body = .ok (a, d) → SelectionsExtend db d) : SelectionsExtend db (transaction env db body).2 := by
  cases hresult : transaction env db body with
  | mk result d =>
    cases result with
    | error e =>
      rw [transaction_error hresult]
      exact .refl db
    | ok a => exact hbody a d (transaction_ok.mp hresult).2

theorem MovesJob.selections {next : JobState} {row : JobRow} {rs : List ReservationRow}
    (hm : MovesJob env db id next code row rs db') : SelectionsExtend db db' := by
  rw [hm.result]
  exact .kept rfl rfl

theorem insertJobs_selections {newV4 : ℕ → Uuid} (requests : List JobCreateRequest) {n : ℕ}
    {records : List JobRecord} (h : Sound json db) (hok : insertJobs env newV4 n db requests = .ok (records, db')) :
    SelectionsExtend db db' := by
  induction requests generalizing n db db' records with
  | nil =>
    cases hok
    exact .refl db
  | cons request requests ih =>
    obtain ⟨⟨record, db1⟩, h1, hok⟩ := bind_eq_ok.mp hok
    obtain ⟨⟨records, db2⟩, h2, hok⟩ := bind_eq_ok.mp hok
    cases hok
    have hfirst : SelectionsExtend db db1 := by
      obtain ⟨key, -, -, -, -, hdb⟩ := insertJob_ok h h1
      rw [hdb]
      exact .kept rfl rfl
    exact hfirst.trans (ih ((insertJob_write h h1).sound h) h2)

theorem enqueueCreated_selections {now : ℤ}
    (hok : enqueueCreated code now db id = .ok db') : SelectionsExtend db db' := by
  rw [insertJobEvent_ok hok]
  exact .kept rfl rfl

theorem createBatchBody_selections {name : String} {requests : List JobCreateRequest}
    {record : BatchRecord} (h : Sound json db)
    (hok : createBatchBody env name requests enqueue db = .ok (record, db')) : SelectionsExtend db db' := by
  unfold createBatchBody at hok
  obtain ⟨db1, h1, hok⟩ := bind_eq_ok.mp hok
  obtain ⟨⟨jobs, db2⟩, h2, hok⟩ := bind_eq_ok.mp hok
  obtain ⟨db3, h3, hok⟩ := bind_eq_ok.mp hok
  obtain ⟨hw, -⟩ : Write json db db1 ∧ _ := insertBatch_ok h1
  have hbatch : SelectionsExtend db db1 := by
    rw [(insertRow_eq_ok.mp h1).2]
    exact .kept rfl rfl
  have hjobs := hbatch.trans (insertJobs_selections requests (hw.sound h) h2)
  have hmembers : SelectionsExtend db db3 := by
    refine foldlM_invariant h3 hjobs ?_
    intro d member d' _ hd hstep
    rw [(insertRow_eq_ok.mp hstep).2]
    exact hd.trans (.kept rfl rfl)
  cases enqueue with
  | false =>
    cases hok
    exact hmembers
  | true =>
    obtain ⟨db4, h4, hok⟩ := bind_eq_ok.mp hok
    cases hok
    exact foldlM_invariant h4 hmembers fun _ hd hstep => hd.trans (enqueueCreated_selections hstep)

theorem createBatchInner_selections {name : String} {requests : List JobCreateRequest}
    (h : Sound json db) : SelectionsExtend db (createBatchInner env db name requests enqueue).2 := by
  unfold createBatchInner
  split
  · exact .refl db
  · split_ifs
    · exact .refl db
    · exact transaction_selections fun record d hok => createBatchBody_selections h hok

theorem createJobIdempotentWithState_selections {key : String} {request : JobCreateRequest}
    (h : Sound json db) : SelectionsExtend db (createJobIdempotentWithState env db key request enqueue).2 := by
  unfold createJobIdempotentWithState
  split
  · exact .refl db
  · refine transaction_selections fun result d hok => ?_
    obtain ⟨_, -, -, -, rfl⟩ | ⟨-, -, -, k, -, -, ⟨-, rfl⟩ | ⟨-, henqueue⟩⟩ := createJobIdempotentBody_ok h hok
    · exact .refl d
    · exact .kept rfl rfl
    · refine SelectionsExtend.trans ?_ (enqueueCreated_selections henqueue)
      exact .kept rfl rfl

theorem queueJobsLoop_selections (ids : List Uuid) {n : ℕ} {records : List JobRecord}
    (h : Sound json db) (hok : queueJobsLoop env code n db ids = .ok (records, db')) : SelectionsExtend db db' := by
  induction ids generalizing n db db' records with
  | nil =>
    cases hok
    exact .refl db
  | cons id ids ih =>
    obtain ⟨⟨record, db1⟩, h1, hok⟩ := bind_eq_ok.mp hok
    obtain ⟨⟨records, db2⟩, h2, hok⟩ := bind_eq_ok.mp hok
    cases hok
    obtain ⟨row, rs, hm, -⟩ := queueJob_ok h h1
    have hw : Write json db db1 := hm.write
    exact hm.selections.trans (ih (hw.sound h) h2)

theorem transition_selections {next : JobState} (h : Sound json db) :
    SelectionsExtend db (transition env db id next code).2 := by
  refine transaction_selections fun record d hok => ?_
  obtain ⟨row, rs, hm, -⟩ := transitionBody_ok h hok
  exact hm.selections

theorem interruptJobs_selections {envs : ℕ → CallEnv} (ids : List Uuid) {n : ℕ} (h : Sound json db) :
    SelectionsExtend db (interruptJobs envs n db ids).2 := by
  induction ids generalizing n db with
  | nil => exact .refl db
  | cons id ids ih =>
    have hfirst : SelectionsExtend db (transition (envs n) db id .interrupted "RECOVERED_AFTER_RESTART").2 :=
      transition_selections h
    have hwrites := transition_writes (envs n) h id .interrupted "RECOVERED_AFTER_RESTART"
    rw [interruptJobs]
    split
    · next error d hresult =>
      rw [hresult] at hfirst
      exact hfirst
    · next record d hresult =>
      rw [hresult] at hfirst hwrites
      have hrest := ih (n := n + 1) (hwrites.sound h)
      split
      · next error d' hresult' =>
        rw [hresult'] at hrest
        exact hfirst.trans hrest
      · next records d' hresult' =>
        rw [hresult'] at hrest
        exact hfirst.trans hrest

theorem BulkTurn.selections {actionId : Uuid} {st st' : BulkState} {member : JobRow × ℕ}
    (hturn : BulkTurn env action actionId st member st') : SelectionsExtend st.db st'.db := by
  cases hturn with
  | skippedState | skippedConflict => exact .kept rfl rfl
  | transitioned next db rs _ _ hm => exact hm.selections.trans (.kept rfl rfl)

theorem bulkTurns_selections {actionId : Uuid} {st st' : BulkState}
    {members : List (JobRow × ℕ)} (hturns : Trace (BulkTurn env action actionId) st members st') :
    SelectionsExtend st.db st'.db := by
  induction hturns with
  | nil => exact .refl _
  | cons hturn _ ih => exact hturn.selections.trans ih

theorem applyBulkActionBody_selections {selectionId : Uuid} {before : BeforeTransition}
    {report : BulkActionReport} (h : Sound json db)
    (hok : applyBulkActionBody env db selectionId action before = .ok (report, db')) : SelectionsExtend db db' := by
  obtain ⟨st', -, hrounds, rfl, -⟩ := applyBulkActionBody_ok h hok
  have hstart : SelectionsExtend db (db.withBulkAction env selectionId action) := .kept rfl rfl
  have hturns := bulkTurns_selections (hrounds.mono And.right)
  exact (hstart.trans hturns).trans (.kept rfl rfl)

theorem recordRevalidation_selections {report : ValidationReport} :
    SelectionsExtend db (recordRevalidation json env db id report).2 := by
  unfold recordRevalidation
  split_ifs
  · exact .refl db
  · split
    · exact .refl db
    · split_ifs
      · exact .refl db
      · refine transaction_selections fun record d hok => ?_
        obtain ⟨row, -, -, -, -, rfl⟩ := recordRevalidationBody_ok hok
        exact .kept rfl rfl

/-- The members that `capture_selection` inserts, with their ordinals. -/
def capturedMembers (id : Uuid) (jobIds : List Uuid) : List SelectionMemberRow :=
  jobIds.zipIdx.map fun (jobId, ordinal) => { selectionId := id, jobId := jobId, ordinal := ordinal }

/-- A selection with its members. -/
def Database.withSelection (db : Database) (row : SelectionSnapshotRow) (members : List SelectionMemberRow) : Database :=
  { db with
    selectionSnapshots := db.selectionSnapshots ++ [row]
    selectionMembers := db.selectionMembers ++ members }

theorem insertSelectionMembers_ok {members : List (Uuid × ℕ)}
    (hok : members.foldlM (fun db (jobId, ordinal) =>
      db.insertSelectionMember { selectionId := id, jobId := jobId, ordinal := ordinal }) db = .ok db') :
    db' = { db with selectionMembers := db.selectionMembers ++ members.map fun (jobId, ordinal) =>
      { selectionId := id, jobId := jobId, ordinal := ordinal } } := by
  induction members generalizing db with
  | nil =>
    cases hok
    rw [List.map_nil, List.append_nil]
  | cons member members ih =>
    obtain ⟨db1, h1, hok⟩ := bind_eq_ok.mp (by rwa [List.foldlM_cons] at hok)
    obtain ⟨-, rfl⟩ := insertRow_eq_ok.mp h1
    rw [ih hok, List.map_cons, List.append_assoc]
    rfl

/-- **What `capture_selection` writes**: the selection, and its members in order. -/
theorem captureSelectionBody_ok {query : JobSelectionQuery} {snapshot : SelectionSnapshot}
    (hok : captureSelectionBody env query db = .ok (snapshot, db')) :
    (∀ s ∈ db.selectionSnapshots, s.id ≠ env.newV4 0) ∧
      db' = db.withSelection ⟨env.newV4 0, query, (selectionMemberIds db query).length, env.now⟩
        (capturedMembers (env.newV4 0) (selectionMemberIds db query)) := by
  unfold captureSelectionBody at hok
  obtain ⟨-, hok⟩ := guard_eq_ok.mp hok
  obtain ⟨db1, h1, hok⟩ := bind_eq_ok.mp hok
  obtain ⟨db2, h2, hok⟩ := bind_eq_ok.mp hok
  cases hok
  obtain ⟨hfree, rfl⟩ := insertRow_eq_ok.mp h1
  exact ⟨fun s hs => by simpa using hfree s hs, insertSelectionMembers_ok h2⟩

theorem captureSelectionBody_selections {query : JobSelectionQuery} {snapshot : SelectionSnapshot}
    (hok : captureSelectionBody env query db = .ok (snapshot, db')) : SelectionsExtend db db' := by
  obtain ⟨hfree, rfl⟩ := captureSelectionBody_ok hok
  refine ⟨[_], _, rfl, rfl, ?_, ?_⟩
  · intro row hrow s hs
    rw [List.mem_singleton.mp hrow]
    exact hfree s hs
  · intro m hm
    obtain ⟨member, -, rfl⟩ := List.mem_map.mp hm
    exact ⟨_, List.mem_singleton.mpr rfl, rfl⟩

/-- **What a call adds** to the selections. -/
theorem exec_selections (env : CallEnv) (h : Sound json db) (call : Call) :
    SelectionsExtend db (exec json env db call).2 := by
  cases call with
  | createJobs requests =>
    simp only [exec, Prod.map_snd, id_eq]
    unfold createJobs
    split_ifs
    · exact .refl db
    · exact transaction_selections fun records d hok => insertJobs_selections requests h hok
  | createBatch name requests =>
    simp only [exec, Prod.map_snd, id_eq]
    exact createBatchInner_selections h
  | createQueuedBatch name requests =>
    simp only [exec, Prod.map_snd, id_eq]
    exact createBatchInner_selections h
  | createJobIdempotent key request =>
    simp only [exec, Prod.map_snd, id_eq]
    exact createJobIdempotentWithState_selections h
  | enqueueJobIdempotent key request =>
    simp only [exec, Prod.map_snd, id_eq]
    exact createJobIdempotentWithState_selections h
  | queueJobs ids code =>
    simp only [exec, Prod.map_snd, id_eq]
    unfold queueJobs
    split_ifs
    · exact .refl db
    · exact transaction_selections fun records d hok => queueJobsLoop_selections ids h hok
  | transition id next code =>
    simp only [exec, Prod.map_snd, id_eq]
    exact transition_selections h
  | claimQueuedJob id code =>
    simp only [exec, Prod.map_snd, id_eq]
    refine transaction_selections fun result d hok => ?_
    obtain ⟨row, -, -, ⟨-, -, rfl⟩ | ⟨-, hm, -⟩⟩ := claimQueuedJobBody_ok h hok
    · exact .refl d
    · exact hm.selections
  | applyBulkAction selectionId action before =>
    simp only [exec, Prod.map_snd, id_eq]
    exact transaction_selections fun report d hok => applyBulkActionBody_selections h hok
  | cleanupStagingPersisted id cleanup =>
    simp only [exec, Prod.map_snd, id_eq]
    refine transaction_selections fun result d hok => ?_
    obtain ⟨row, -, code, -, -, -, -, rfl⟩ := cleanupStagingBody_ok h hok
    exact .kept rfl rfl
  | recordRevalidation id report =>
    simp only [exec, Prod.map_snd, id_eq]
    exact recordRevalidation_selections
  | captureSelection query =>
    simp only [exec, Prod.map_snd, id_eq]
    unfold captureSelection
    split
    · exact .refl db
    · exact transaction_selections fun snapshot d hok => captureSelectionBody_selections hok
  | interruptActiveJobs envs =>
    simp only [exec, Prod.map_snd, id_eq]
    unfold interruptActiveJobs
    split
    · exact .refl db
    · exact interruptJobs_selections _ h
  | recordEngineThroughputSample sample =>
    simp only [exec, Prod.map_snd, id_eq]
    refine transaction_selections fun result d hok => ?_
    cases hok
    exact .kept rfl rfl

end Calls

/-! ## Runs -/

section Runs

variable {json : ReportJson} {db db' : Database} {labels : List StoreLabel}

theorem StoreStep.selections {label : StoreLabel} (h : Sound json db) (hstep : StoreStep json db label db') :
    SelectionsExtend db db' := by
  have hexec := exec_selections label.env h label.call
  rw [show exec json label.env db label.call = (label.response, db') from hstep] at hexec
  exact hexec

/-- **What a run adds** to the selections. -/
theorem StoreRun.selections (h : Sound json db) (hrun : StoreRun json db labels db') : SelectionsExtend db db' := by
  induction hrun with
  | nil => exact .refl _
  | cons hstep _ ih => exact (StoreStep.selections h hstep).trans (ih ((StoreStep.writes h hstep).sound h))

/-- **Every member** in a reachable store is one of a selection. -/
theorem Reachable.selectionsSound (h : Reachable json db) : SelectionsSound db := by
  obtain ⟨labels, hrun⟩ := h
  exact (StoreRun.selections (sound_empty json) hrun).sound fun m hm => absurd hm List.not_mem_nil

end Runs

end Anole
