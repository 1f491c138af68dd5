import Anole.Store.Runs

/-!
# Reservations and event logs of reachable stores

What the invariant `Sound` says of every reachable database, in the terms of the
tables themselves.

Main results:
* `reservations_exact`: every job owns one reservation, none once it is terminal,
  and no two jobs share a destination.
* `logs_replay`: the events of a job replay its state, number by number.
-/

namespace Anole

variable {json : ReportJson} {db : Database}

/-! ## Reservations -/

/-- The reservations of a store follow the states of its jobs. -/
structure ReservationsExact (db : Database) : Prop where
  /-- A job owns exactly one row, a terminal job none. -/
  owned : ∀ row ∈ db.jobs, (db.outputReservations.countP fun r => r.jobId = row.id) =
    if row.state.isTerminal then 0 else 1
  /-- No two jobs own the same canonical key. -/
  exclusive : ∀ r ∈ db.outputReservations, ∀ s ∈ db.outputReservations,
    r.canonicalOutputPath = s.canonicalOutputPath → r.jobId = s.jobId
  /-- Two jobs that are not terminal hold different destinations. -/
  destinations : ∀ a ∈ db.jobs, ∀ b ∈ db.jobs, a.state.isTerminal = false →
    b.state.isTerminal = false → a.id ≠ b.id →
    ∃ k l, db.ownedKey a.id = some k ∧ db.ownedKey b.id = some l ∧ k ≠ l

theorem Sound.exists_reservation (h : Sound json db) {row : JobRow} (hrow : row ∈ db.jobs)
    (hactive : row.state.isTerminal = false) :
    ∃ r ∈ db.outputReservations, r.jobId = row.id ∧
      db.ownedKey row.id = some r.canonicalOutputPath := by
  obtain ⟨r, hr, hid⟩ := h.jobs.activeReserved row hrow hactive
  refine ⟨r, hr, hid, ?_⟩
  have hfind : db.outputReservations.find? (fun r => r.jobId = row.id) = some r :=
    h.jobs.reservationJobs.find?_eq_some.mpr ⟨hr, hid⟩
  rw [Database.ownedKey, hfind]
  rfl

theorem Sound.reservationsExact (h : Sound json db) : ReservationsExact db where
  owned := by
    intro row hrow
    cases hterm : row.state.isTerminal with
    | false =>
      obtain ⟨r, hr, hid, _⟩ := h.exists_reservation hrow hterm
      exact h.jobs.reservationJobs.countP_eq_one hr (by simpa using hid)
        fun s hs => by rw [hid]; simpa using hs
    | true =>
      refine List.countP_eq_zero.mpr fun r hr hid => ?_
      obtain ⟨r0, hr0, he0, hs⟩ := h.jobs.reservationActive r hr
      have : r0.id = row.id := he0.trans (by simpa using hid)
      rw [h.jobs.jobIds.eq hr0 hrow this, hterm] at hs
      cases hs
  exclusive := by
    intro r hr s hs hkey
    rw [h.jobs.reservationKeys.eq hr hs hkey]
  destinations := by
    intro a ha b hb hsa hsb hne
    obtain ⟨r, hr, hra, hka⟩ := h.exists_reservation ha hsa
    obtain ⟨s, hs, hsb', hkb⟩ := h.exists_reservation hb hsb
    refine ⟨_, _, hka, hkb, fun hkey => hne ?_⟩
    rw [← hra, ← hsb', h.jobs.reservationKeys.eq hr hs hkey]

/-- **Reservation invariant.** In every reachable store a job owns exactly one
    reservation, or none if it is terminal, and no destination is held twice. -/
theorem reservations_exact (h : Reachable json db) : ReservationsExact db :=
  h.sound.reservationsExact

/-- Two jobs, one of them cancelled. -/
theorem reservations_exact_sample :
    let db := (exec (Sample.json 0) (Sample.env 0) Database.empty
      (.createJobs [Sample.request "a.json" "a.yaml", Sample.request "b.json" "b.yaml"])).2
    ReservationsExact (exec (Sample.json 0) (Sample.env 0) db (.transition 0 .cancelled "X")).2 :=
  reservations_exact (((reachable_empty (Sample.json 0)).exec _ _).exec _ _)

/-! ## Event logs -/

/-- The log of a job replays the job. -/
structure Replays (db : Database) (row : JobRow) : Prop where
  /-- The events are numbered `0..=sequence`, in the order they were written. -/
  numbered : (db.logOf row.id).map EventRow.sequence = List.range (row.sequence + 1)
  first : ∀ e, (db.logOf row.id)[0]? = some e → e.previousState = none ∧ e.nextState = .planned
  chained : ∀ k d e, (db.logOf row.id)[k]? = some d → (db.logOf row.id)[k + 1]? = some e →
    e.previousState = some d.nextState
  last : (db.logOf row.id).getLast?.map EventRow.nextState = some row.state
  /-- Two different states are a legal transition. -/
  legal : ∀ e ∈ db.logOf row.id, ∀ p, e.previousState = some p → p ≠ e.nextState →
    p.canTransitionTo e.nextState = true
  /-- Equal states are a cleanup of a job that can be cleaned up. -/
  audits : ∀ e ∈ db.logOf row.id, e.previousState = some e.nextState →
    (e.nextState = .blocked ∨ e.nextState = .failed ∨ e.nextState = .cancelled ∨
      e.nextState = .interrupted) ∧ e.code ∈ cleanupCodes
  bounded : row.sequence < 2 ^ 63

section EventLog

variable {id : Uuid} {events : List EventRow} {n : ℕ} {s : JobState}

theorem EventLog.length (h : EventLog id events n s) : events.length = n + 1 := by
  induction h with
  | created => rfl
  | moved _ _ _ _ _ ih => simp [ih]
  | audited _ _ _ _ _ ih => simp [ih]

theorem EventLog.numbered (h : EventLog id events n s) :
    events.map EventRow.sequence = List.range (n + 1) := by
  induction h with
  | created => rfl
  | @moved events n s _ _ _ _ _ ih => rw [List.map_append, ih, List.range_succ (n := n + 1)]; rfl
  | @audited events n s _ _ _ _ _ ih => rw [List.map_append, ih, List.range_succ (n := n + 1)]; rfl

theorem EventLog.last (h : EventLog id events n s) :
    events.getLast?.map EventRow.nextState = some s := by
  cases h with
  | created => rfl
  | moved => simp
  | audited => simp

theorem EventLog.first (h : EventLog id events n s) :
    ∃ now, events[0]? = some ⟨id, 0, none, .planned, "JOB_CREATED", now⟩ := by
  induction h with
  | created now => exact ⟨now, rfl⟩
  | @moved events n s _ _ _ h0 _ ih =>
    rwa [List.getElem?_append_left (by rw [h0.length]; omega)]
  | @audited events n s _ _ h0 _ _ ih =>
    rwa [List.getElem?_append_left (by rw [h0.length]; omega)]

/-- Appending an event whose previous state is the state of the log keeps the
    events chained. -/
theorem chained_snoc {e : EventRow}
    (hchain : ∀ k d e, events[k]? = some d → events[k + 1]? = some e →
      e.previousState = some d.nextState)
    (hlast : events.getLast?.map EventRow.nextState = some s) (he : e.previousState = some s) :
    ∀ k d e', (events ++ [e])[k]? = some d → (events ++ [e])[k + 1]? = some e' →
      e'.previousState = some d.nextState := by
  intro k d e' hd he'
  have hk : k + 1 < (events ++ [e]).length := (List.getElem?_eq_some_iff.mp he').1
  rw [List.length_append, List.length_singleton] at hk
  rw [List.getElem?_append_left (by omega)] at hd
  by_cases hk1 : k + 1 < events.length
  · rw [List.getElem?_append_left hk1] at he'
    exact hchain k d e' hd he'
  · have hlen : k + 1 = events.length := by omega
    rw [hlen, List.getElem?_concat_length] at he'
    obtain rfl := Option.some.inj he'
    have hlast' : events.getLast? = some d := by
      rw [List.getLast?_eq_getElem?, show events.length - 1 = k by omega]
      exact hd
    rw [hlast'] at hlast
    rw [he, ← hlast]
    rfl

theorem EventLog.chained (h : EventLog id events n s) :
    ∀ k d e, events[k]? = some d → events[k + 1]? = some e →
      e.previousState = some d.nextState := by
  induction h with
  | created now => intro k d e _ he; simp at he
  | moved next code now h0 _ ih => exact chained_snoc ih h0.last rfl
  | audited code now h0 _ _ ih => exact chained_snoc ih h0.last rfl

theorem EventLog.event (h : EventLog id events n s) {e : EventRow} (he : e ∈ events) :
    e.previousState = none ∨
    (∃ p, e.previousState = some p ∧ p.canTransitionTo e.nextState = true) ∨
    (e.previousState = some e.nextState ∧ cleanupAllowed e.nextState = true ∧
      e.code ∈ cleanupCodes) := by
  induction h with
  | created now =>
    obtain rfl := List.mem_singleton.mp he
    exact Or.inl rfl
  | moved next code now _ hlegal ih =>
    rcases List.mem_append.mp he with he | he
    · exact ih he
    · obtain rfl := List.mem_singleton.mp he
      exact Or.inr (Or.inl ⟨_, rfl, hlegal⟩)
  | audited code now _ hallowed hcode ih =>
    rcases List.mem_append.mp he with he | he
    · exact ih he
    · obtain rfl := List.mem_singleton.mp he
      exact Or.inr (Or.inr ⟨rfl, hallowed, hcode⟩)

end EventLog

theorem cleanupAllowed_iff {s : JobState} : cleanupAllowed s = true ↔
    s = .blocked ∨ s = .failed ∨ s = .cancelled ∨ s = .interrupted := by
  cases s <;> simp [cleanupAllowed]

theorem Sound.replays (h : Sound json db) {row : JobRow} (hrow : row ∈ db.jobs) :
    Replays db row where
  numbered := (h.jobs.log row hrow).numbered
  first := by
    intro e he
    obtain ⟨now, hfirst⟩ := (h.jobs.log row hrow).first
    obtain rfl := Option.some.inj (hfirst.symm.trans he)
    exact ⟨rfl, rfl⟩
  chained := (h.jobs.log row hrow).chained
  last := (h.jobs.log row hrow).last
  legal := by
    intro e he p hp hne
    rcases (h.jobs.log row hrow).event he with hnone | ⟨q, hq, hlegal⟩ | ⟨hself, _⟩
    · rw [hnone] at hp; cases hp
    · rw [hq] at hp
      rwa [← Option.some.inj hp]
    · rw [hself] at hp
      exact absurd (Option.some.inj hp).symm hne
  audits := by
    intro e he hself
    rcases (h.jobs.log row hrow).event he with hnone | ⟨q, hq, hlegal⟩ | ⟨_, hallowed, hcode⟩
    · rw [hnone] at hself; cases hself
    · rw [hq] at hself
      exact absurd (Option.some.inj hself) (JobState.ne_of_canTransitionTo hlegal)
    · exact ⟨cleanupAllowed_iff.mp hallowed, hcode⟩
  bounded := h.jobs.sequence row hrow

/-- **Event-log invariant.** In every reachable store the events of each job replay
    it: gapless numbers, chained states, legal moves, and the stored state last. -/
theorem logs_replay (h : Reachable json db) : ∀ row ∈ db.jobs, Replays db row :=
  fun _ hrow => h.sound.replays hrow

/-- A job that was queued, cancelled and cleaned up. -/
theorem logs_replay_sample :
    let db := (exec (Sample.json 0) (Sample.env 0) Database.empty
      (.enqueueJobIdempotent "k" (Sample.request "a.json" "a.yaml"))).2
    let db := (exec (Sample.json 0) (Sample.env 0) db (.transition 0 .cancelled "X")).2
    ∀ row ∈ (exec (Sample.json 0) (Sample.env 0) db
      (.cleanupStagingPersisted 0 fun _ => .ok true)).2.jobs,
      Replays (exec (Sample.json 0) (Sample.env 0) db
        (.cleanupStagingPersisted 0 fun _ => .ok true)).2 row :=
  logs_replay ((((reachable_empty (Sample.json 0)).exec _ _).exec _ _).exec _ _)

end Anole
