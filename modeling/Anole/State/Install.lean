import Anole.State.Rollback

/-!
# Interrupted restores

`install_prepared_bundle` (`crates/core/src/application_state.rs`, lines 737–842) cut off at
any file operation, and `recover_interrupted_restore` run after it, cut off any number of
times and then run to its end.

Main results:

* `restore_recovers`: the recovery ends with the prior content or the bundle's, as the
  committed journal had been written or not, exactly when no earlier recovery was cut off
  between the removal of the safety database and the removal of the journal.
* `install_commits`: the moments of an installation.

**Deviation.** `rollback_from_journal` removes the safety database before
`recover_interrupted_restore` removes the journal (lines 405–407), and a recovery that finds
the journal needs the safety database again: a crash in between leaves a journal that no
later recovery gets past.
-/

open Common Common.Proc

namespace Anole

namespace ApplicationState

variable {β : Type} {s t u : StateFiles β} {s₀ : StateFiles β} {id : Uuid} {j : RestoreJournal}

/-! ## Saving the journal -/

/-- The committed journal has been published. -/
def CommittedWritten (s : StateFiles β) : Prop :=
  ∃ j, s .journal = some (.journal j) ∧ j.committed = true

theorem not_committedWritten (h : recorded s = some (.journal j)) (hj : j.committed = false) :
    ¬CommittedWritten s := by
  rintro ⟨j', hj', hcommitted⟩
  rw [recorded, Files.visible_of_some hj'] at h
  obtain rfl : j' = j := by simpa using h
  rw [hj] at hcommitted
  cases hcommitted

variable {nonce : Uuid}

/-- Up to the publication the recorded journal is the old one; then only its backup holds it. -/
theorem prepareReplacement_wp {content : StateContent β} (hfree : s (.journalPartial nonce) = none) :
    wp (prepareReplacement .journal .journalBackup (.journalPartial nonce) content)
      (fun t => SameData s t ∧ recorded t = recorded s) (fun _ _ => False)
      (fun _ t => SameData s t ∧ recorded t = recorded s ∧ t .journal = none ∧
        t (.journalPartial nonce) = some content ∧
        ∀ n, n ≠ nonce → t (.journalPartial n) = s (.journalPartial n)) s := by
  unfold prepareReplacement
  rw [wp_bind]
  refine recoverFileBackup_wp.mono (fun _ h => h) (fun _ _ h => h) ?_
  rintro - t ⟨hdata, hjournal, hbackup, hsides⟩
  have hrecorded : recorded t = recorded s := (recorded_of_backup_none hbackup).trans hjournal
  -- the partial file is no part of what is recorded
  have hput : ∀ v (x : StateContent β), SameData s v ∧ recorded v = recorded s →
      SameData s (v.put (.journalPartial nonce) x) ∧
        recorded (v.put (.journalPartial nonce) x) = recorded s := by
    rintro v x ⟨hv, hvrecorded⟩
    refine ⟨hv.trans (sameData_put trivial), Eq.trans ?_ hvrecorded⟩
    exact Files.visible_congr (Files.put_of_ne (by simp)) (Files.put_of_ne (by simp))
  have hfirst := hput t .torn ⟨hdata, hrecorded⟩
  have hsecond := hput _ content hfirst
  rw [wp_bind, wp_get, wp_ite]
  refine ⟨fun hthere => absurd ((hsides nonce).trans hfree) hthere, fun _ => ?_⟩
  rw [wp_bind, wp_op]
  refine ⟨hfirst, ?_⟩
  rw [wp_bind, wp_op]
  refine ⟨hsecond, ?_⟩
  set v := (t.put (.journalPartial nonce) .torn).put (.journalPartial nonce) content with hv
  have hvfile : v (.journalPartial nonce) = some content := Files.put_self
  have hvother : ∀ n, n ≠ nonce → v (.journalPartial n) = s (.journalPartial n) := by
    intro n hn
    rw [hv, Files.put_of_ne (by simpa using hn), Files.put_of_ne (by simpa using hn), hsides]
  have hvbackup : v .journalBackup = none := by
    rw [hv, Files.put_of_ne (by simp), Files.put_of_ne (by simp), hbackup]
  rw [wp_bind, wp_get, wp_ite]
  constructor
  · intro hthere
    have hrename : SameData s (v.rename .journal .journalBackup) :=
      hsecond.1.trans (sameData_rename trivial trivial)
    have hsame : recorded (v.rename .journal .journalBackup) = recorded s :=
      (Files.visible_move_away (by simp) (Option.isSome_iff_ne_none.mpr hthere)).trans hsecond.2
    rw [wp_bind]
    refine removePathIfExists_wp (fun hsome => absurd hvbackup hsome) ?_
    rw [Files.remove_eq_self hvbackup, wp_op]
    refine ⟨⟨hrename, hsame⟩, hrename, hsame, Files.rename_source, ?_, fun n hn => ?_⟩
    · rw [Files.rename_of_ne (by simp) (by simp), hvfile]
    · rw [Files.rename_of_ne (by simp) (by simp), hvother n hn]
  · intro hthere
    exact wp_pure.mpr ⟨hsecond.1, hsecond.2, not_not.mp hthere, hvfile, hvother⟩

theorem publish_wp (hdata : SameData s t) (hside : t (.journalPartial nonce) = some (.journal j)) :
    let v := t.rename (.journalPartial nonce) .journal
    (SameData s v ∧ recorded v = some (.journal j) ∧ v .journal = some (.journal j)) ∧
      wp (removePathIfExists .journalBackup)
        (fun u => SameData s u ∧ recorded u = some (.journal j)) (fun _ _ => False)
        (fun _ u => SameData s u ∧ u .journal = some (.journal j) ∧ u .journalBackup = none ∧
          u (.journalPartial nonce) = none ∧
          ∀ n, n ≠ nonce → u (.journalPartial n) = t (.journalPartial n)) v := by
  intro v
  have hv : SameData s v := hdata.trans (sameData_rename trivial trivial)
  have hnew : v .journal = some (.journal j) := (Files.rename_target (by simp)).trans hside
  have hremoved : v.remove .journalBackup .journal = some (.journal j) := by
    rw [Files.remove_of_ne (by simp), hnew]
  have hdata' : SameData s (v.remove .journalBackup) := hv.trans (sameData_remove trivial)
  refine ⟨⟨hv, Files.visible_of_some hnew, hnew⟩, ?_⟩
  refine removePathIfExists_wp (fun _ => ⟨hdata', Files.visible_of_some hremoved⟩)
    ⟨hdata', hremoved, Files.remove_self, ?_, fun n hn => ?_⟩
  · rw [Files.remove_of_ne (by simp)]
    exact Files.rename_source
  · rw [Files.remove_of_ne (by simp)]
    exact Files.rename_of_ne (by simpa using hn) (by simp)

/-- A saved journal: what `saveJournal` leaves, with the partial files that were free. -/
structure Saved (s : StateFiles β) (j : RestoreJournal) (t : StateFiles β) : Prop where
  data : SameData s t
  journal : t .journal = some (.journal j)
  backup : t .journalBackup = none
  partials : ∀ n, s (.journalPartial n) = none → t (.journalPartial n) = none

theorem saveJournal_wp (hfree : s (.journalPartial nonce) = none) :
    wp (saveJournal nonce j)
      (fun t => SameData s t ∧ (recorded t = recorded s ∨ recorded t = some (.journal j)))
      (fun _ _ => False) (fun _ => Saved s j) s := by
  unfold saveJournal atomicReplaceFile
  rw [wp_bind]
  refine (prepareReplacement_wp hfree).mono (fun t ht => ⟨ht.1, .inl ht.2⟩) (fun _ _ h => h) ?_
  rintro - t ⟨hdata, -, -, hside, hothers⟩
  obtain ⟨⟨hv, hrecorded, -⟩, hfinish⟩ := publish_wp hdata hside
  rw [wp_bind, wp_op]
  refine ⟨⟨hv, .inr hrecorded⟩, hfinish.mono (fun u hu => ⟨hu.1, .inr hu.2⟩) (fun _ _ h => h) ?_⟩
  rintro - u ⟨hu, hjournal, hbackup, hnone, hothers'⟩
  refine ⟨hu, hjournal, hbackup, fun n hn => ?_⟩
  by_cases he : n = nonce
  · rw [he, hnone]
  · rw [hothers' n he, hothers n he, hn]

/-- The committed journal is written at one moment of its save. -/
theorem saveJournal_commits {j₀ : RestoreJournal} (hfree : s (.journalPartial nonce) = none)
    (hrecorded : recorded s = some (.journal j₀)) (hopen : j₀.committed = false)
    (hcommitted : j.committed = true) :
    Commits (saveJournal nonce j) CommittedWritten
      (fun t => SameData s t ∧ recorded t = recorded s)
      (fun t => SameData s t ∧ recorded t = some (.journal j))
      (fun _ t => SameData s t ∧ t .journal = some (.journal j) ∧ t .journalBackup = none) s := by
  unfold saveJournal atomicReplaceFile
  refine Commits.later ((prepareReplacement_wp hfree).mono (fun t ht => ⟨?_, ht⟩)
    (fun _ _ _ => trivial) fun _ _ h => h) ?_
  · exact not_committedWritten (ht.2.trans hrecorded) hopen
  rintro - t ⟨hdata, -, -, hside, -⟩
  obtain ⟨⟨hv, hnew, hjournal⟩, hfinish⟩ := publish_wp hdata hside
  refine Commits.earlier (Commits.op (Q := fun _ v => v = t.rename (.journalPartial nonce) .journal)
    ⟨j, hjournal, hcommitted⟩ ⟨hv, hnew⟩ rfl) ?_
  rintro - _ rfl
  exact hfinish.mono (fun _ h => h) (fun _ _ _ => trivial) fun _ u hu => ⟨hu.1, hu.2.1, hu.2.2.1⟩

/-! ## The state before and during the switch -/

/-- What the bundle has for the five components. -/
def bundleContents (components : BundleComponents) (s : StateFiles β) : Contents β :=
  ⟨s .stagedDatabase, fun c => if components.included c then s (.staged c) else none⟩

/-- No restore is going on in `s₀`, the identifiers of the new one are fresh, and its bundle is
    staged. -/
structure Prior (s₀ : StateFiles β) (id : Uuid) (nonces : ℕ → Uuid) : Prop where
  journal : s₀ .journal = none
  journalBackup : s₀ .journalBackup = none
  partials : ∀ k, s₀ (.journalPartial (nonces k)) = none
  old : ∀ c, s₀ (.old id c) = none
  stagedDatabase : s₀ .stagedDatabase ≠ none

variable (s₀ id) in
/-- The state while components are switched: those in the journal hold the bundle's content,
    and the prior content is moved away. -/
structure Active (components : BundleComponents) (nonces : ℕ → Uuid) (j : RestoreJournal)
    (s : StateFiles β) : Prop where
  journal : s .journal = some (.journal j)
  backup : s .journalBackup = none
  partials : ∀ k, s (.journalPartial (nonces k)) = none
  recorded : Recorded s₀ id j
  uncommitted : j.committed = false
  notStarted : j.databaseSwitchStarted = false
  safety : s₀ .database ≠ none → s (.backups (safetyName id)) = s₀ .database
  database : s .database = s₀ .database
  stagedDatabase : s .stagedDatabase = s₀ .stagedDatabase
  swapped : ∀ c ∈ j.swaps.map RestoreSwap.component,
    s (.old id c) = s₀ (.live c) ∧ s (.live c) = (bundleContents components s₀).live c
  waiting : ∀ c ∉ j.swaps.map RestoreSwap.component,
    s (.live c) = s₀ (.live c) ∧ s (.old id c) = none ∧ s (.staged c) = s₀ (.staged c)

variable {components : BundleComponents} {nonces : ℕ → Uuid} {c : SwapComponent}

/-- A component whose prior content, if any, is moved away can be undone. -/
theorem componentUndoable_of_old (h : s (.old id c) = s₀ (.live c)) :
    ComponentUndoable s₀ id c s := by
  by_cases hnone : s₀ (.live c) = none
  · exact .inr (.inr ⟨hnone, h.trans hnone⟩)
  · exact .inr (.inl ⟨hnone, h⟩)

theorem Active.undoable (h : Active s₀ id components nonces j s) : Undoable s₀ id j s :=
  ⟨fun hswitch => absurd hswitch (by rw [h.notStarted]; decide), fun _ => h.database,
    fun swap hswap => componentUndoable_of_old (h.swapped _ (List.mem_map_of_mem hswap)).1,
    fun c hc => ⟨(h.waiting c hc).1, (h.waiting c hc).2.1⟩⟩

theorem Active.recorded_eq (h : Active s₀ id components nonces j s) :
    ApplicationState.recorded s = some (.journal j) :=
  (recorded_of_backup_none h.backup).trans h.journal

/-- The journal with one more swap. -/
def withSwap (s₀ : StateFiles β) (c : SwapComponent) (j : RestoreJournal) : RestoreJournal :=
  { j with swaps := j.swaps ++ [⟨c, decide (s₀ (.live c) ≠ none)⟩] }

@[simp] theorem withSwap_components : (withSwap s₀ c j).swaps.map RestoreSwap.component =
    j.swaps.map RestoreSwap.component ++ [c] := by
  simp [withSwap]

theorem Recorded.withSwap (h : Recorded s₀ id j) (hc : c ∉ j.swaps.map RestoreSwap.component) :
    Recorded s₀ id (withSwap s₀ c j) := by
  refine ⟨?_, h.restoreId, h.name, h.hadLive, fun swap hswap => ?_⟩
  · have hnodup : ((ApplicationState.withSwap s₀ c j).swaps.map RestoreSwap.component).Nodup := by
      rw [withSwap_components]
      exact List.nodup_append.mpr ⟨h.nodup, List.nodup_singleton c, fun a ha b hb he =>
        hc (by rw [← List.mem_singleton.mp hb, ← he]; exact ha)⟩
    exact validate_eq_ok.mpr ⟨(validate_eq_ok.mp h.valid).1, hnodup⟩
  · rcases List.mem_append.mp hswap with hswap | hswap
    · exact h.swaps swap hswap
    · rw [List.mem_singleton.mp hswap]

/-- A component that was not switched yet may be recorded. -/
theorem Undoable.withSwap (h : Undoable s₀ id j s) (hc : ComponentUndoable s₀ id c s) :
    Undoable s₀ id (withSwap s₀ c j) s := by
  refine ⟨h.safety, h.database, fun swap hswap => ?_, fun c' hc' => ?_⟩
  · rcases List.mem_append.mp hswap with hswap | hswap
    · exact h.swapped swap hswap
    · rw [List.mem_singleton.mp hswap]
      exact hc
  · rw [withSwap_components, List.mem_append, not_or] at hc'
    exact h.waiting c' hc'.1

/-- Only the files of one component differ: live, moved away or staged. -/
def SameButComponent (id : Uuid) (c : SwapComponent) (s t : StateFiles β) : Prop :=
  ∀ file, file ≠ .live c → file ≠ .old id c → file ≠ .staged c → t file = s file

/-- The prior content is moved away at every moment, and the staged one is live at the end. -/
theorem exchangeComponent_wp {hadLive included : Bool} (hhad : hadLive = decide (s (.live c) ≠ none))
    (hold : s (.old id c) = none) :
    wp (exchangeComponent id c hadLive included)
      (fun t => SameButComponent id c s t ∧ t (.old id c) = s (.live c)) (fun _ _ => False)
      (fun _ t => SameButComponent id c s t ∧ t (.old id c) = s (.live c) ∧
        t (.live c) = if included then s (.staged c) else none) s := by
  -- the second rename, once nothing is live
  have hbring : ∀ v, SameButComponent id c s v → v (.old id c) = s (.live c) →
      v (.live c) = none → v (.staged c) = s (.staged c) →
      wp (do
        let files ← get
        if included ∧ files (.staged c) ≠ none then op (·.rename (.staged c) (.live c)))
        (fun t => SameButComponent id c s t ∧ t (.old id c) = s (.live c))
        (fun (_ : AnoleError) _ => False)
        (fun _ t => SameButComponent id c s t ∧ t (.old id c) = s (.live c) ∧
          t (.live c) = if included then s (.staged c) else none) v := by
    intro v hframe hvold hvlive hvstaged
    have hframe' : SameButComponent id c s (v.rename (.staged c) (.live c)) := by
      intro file hlive hold hstaged
      rw [Files.rename_of_ne hstaged hlive]
      exact hframe file hlive hold hstaged
    have hold' : v.rename (.staged c) (.live c) (.old id c) = s (.live c) := by
      rw [Files.rename_of_ne (by simp) (by simp), hvold]
    rw [wp_bind, wp_get, wp_ite]
    constructor
    · rintro ⟨hincluded, -⟩
      refine wp_op.mpr ⟨⟨hframe', hold'⟩, hframe', hold', ?_⟩
      rw [Files.rename_target (by simp), hvstaged, if_pos hincluded]
    · intro hnot
      refine wp_pure.mpr ⟨hframe, hvold, ?_⟩
      rw [hvlive]
      split_ifs with hincluded
      · by_contra hne
        exact hnot ⟨hincluded, by rw [hvstaged]; exact fun h => hne h.symm⟩
      · rfl
  unfold exchangeComponent
  rw [wp_ite]
  constructor
  · intro _
    have hframe : SameButComponent id c s (s.rename (.live c) (.old id c)) :=
      fun file hlive hold _ => Files.rename_of_ne hlive hold
    have hold' : s.rename (.live c) (.old id c) (.old id c) = s (.live c) :=
      Files.rename_target (by simp)
    rw [wp_bind, wp_op]
    refine ⟨⟨hframe, hold'⟩, hbring _ hframe hold' Files.rename_source ?_⟩
    exact Files.rename_of_ne (by simp) (by simp)
  · intro hnot
    have hnone : s (.live c) = none := by
      rw [hhad, decide_eq_true_eq] at hnot
      exact not_not.mp hnot
    exact hbring s (fun _ _ _ _ => rfl) (by rw [hold, hnone]) hnone rfl

/-- Moving the prior content of one component away keeps a state undoable. -/
theorem Undoable.of_component (h : Undoable s₀ id j s) (hframe : SameButComponent id c s t)
    (hc : c ∈ j.swaps.map RestoreSwap.component) (hold : t (.old id c) = s₀ (.live c)) :
    Undoable s₀ id j t := by
  have hother : ∀ c', c' ≠ c → t (.live c') = s (.live c') ∧ t (.old id c') = s (.old id c') :=
    fun c' hne => ⟨hframe _ (by simpa using hne) (by simp) (by simp),
      hframe _ (by simp) (by simpa using hne) (by simp)⟩
  refine ⟨fun hs hsome => ?_, fun hs => ?_, fun swap hswap => ?_, fun c' hc' => ?_⟩
  · rw [hframe _ (by simp) (by simp) (by simp), h.safety hs hsome]
  · rw [hframe _ (by simp) (by simp) (by simp), h.database hs]
  · by_cases he : swap.component = c
    · rw [he]
      exact componentUndoable_of_old hold
    · have hundoable := h.swapped swap hswap
      unfold ComponentUndoable at hundoable ⊢
      rwa [(hother _ he).1, (hother _ he).2]
  · have hne : c' ≠ c := fun he => hc' (he ▸ hc)
    rw [(hother c' hne).1, (hother c' hne).2]
    exact h.waiting c' hc'

theorem swapComponent_wp (h : Active s₀ id components nonces j s)
    (hc : c ∉ j.swaps.map RestoreSwap.component) (k : ℕ) :
    wp (swapComponent (nonces k) c (components.included c) j) (Open s₀ id) (fun _ _ => False)
      (fun j' t => j' = withSwap s₀ c j ∧ Active s₀ id components nonces j' t) s := by
  obtain ⟨hlive, hold, hstaged⟩ := h.waiting c hc
  have hrec' := h.recorded.withSwap hc
  have hundoable' : Undoable s₀ id (withSwap s₀ c j) s := h.undoable.withSwap (.inl ⟨hold, hlive⟩)
  unfold swapComponent
  rw [wp_bind, wp_get, hlive]
  show wp (mapError (·, withSwap s₀ c j) (saveJournal (nonces k) (withSwap s₀ c j)) >>= fun _ =>
    mapError (·, withSwap s₀ c j) (exchangeComponent j.restoreId c (decide (s₀ (.live c) ≠ none))
      (components.included c)) >>= fun _ => pure (withSwap s₀ c j)) _ _ _ s
  rw [h.recorded.restoreId, wp_bind, wp_mapError]
  refine (saveJournal_wp (j := withSwap s₀ c j) (h.partials k)).mono ?_ (fun _ _ h => h) ?_
  · rintro t ⟨hdata, hsame | hnew⟩
    · exact ⟨j, hsame.trans h.recorded_eq, h.uncommitted, h.recorded, h.undoable.of_sameData hdata⟩
    · exact ⟨_, hnew, h.uncommitted, hrec', hundoable'.of_sameData hdata⟩
  rintro - t ht
  have hrecorded : recorded t = some (.journal (withSwap s₀ c j)) :=
    (recorded_of_backup_none ht.backup).trans ht.journal
  have htlive : t (.live c) = s₀ (.live c) := (ht.data (.live c) not_false).trans hlive
  have htold : t (.old id c) = none := (ht.data (.old id c) not_false).trans hold
  have htstaged : t (.staged c) = s₀ (.staged c) := (ht.data (.staged c) not_false).trans hstaged
  rw [wp_bind, wp_mapError]
  refine (exchangeComponent_wp (by rw [htlive]) htold).mono ?_ (fun _ _ h => h) ?_
  · rintro v ⟨hframe, hvold⟩
    rw [htlive] at hvold
    refine ⟨withSwap s₀ c j, ?_, h.uncommitted, hrec',
      (hundoable'.of_sameData ht.data).of_component hframe (by simp) hvold⟩
    rw [← hrecorded]
    exact Files.visible_congr (hframe _ (by simp) (by simp) (by simp))
      (hframe _ (by simp) (by simp) (by simp))
  · rintro - v ⟨hframe, hvold, hvlive⟩
    have hkeep : ∀ file, ¬StateFile.IsJournal file → file ≠ .live c → file ≠ .old id c →
        file ≠ .staged c → v file = s file :=
      fun file hfile hlive hold hstaged => (hframe file hlive hold hstaged).trans (ht.data file hfile)
    rw [wp_pure]
    refine ⟨rfl, ?_, ?_, fun n => ?_, hrec', h.uncommitted, h.notStarted, fun hsome => ?_, ?_, ?_,
      fun c' hc' => ?_, fun c' hc' => ?_⟩
    · exact (hframe _ (by simp) (by simp) (by simp)).trans ht.journal
    · exact (hframe _ (by simp) (by simp) (by simp)).trans ht.backup
    · exact (hframe _ (by simp) (by simp) (by simp)).trans (ht.partials _ (h.partials n))
    · exact (hkeep (.backups _) not_false (by simp) (by simp) (by simp)).trans (h.safety hsome)
    · exact (hkeep .database not_false (by simp) (by simp) (by simp)).trans h.database
    · exact (hkeep .stagedDatabase not_false (by simp) (by simp) (by simp)).trans h.stagedDatabase
    · by_cases he : c' = c
      · rw [he, hvold, hvlive, htlive, htstaged]
        exact ⟨rfl, rfl⟩
      · have hmem : c' ∈ j.swaps.map RestoreSwap.component := by simpa [he] using hc'
        rw [hkeep (.old id c') not_false (by simp) (by simpa using he) (by simp),
          hkeep (.live c') not_false (by simpa using he) (by simp) (by simp)]
        exact h.swapped c' hmem
    · rw [withSwap_components, List.mem_append, not_or, List.mem_singleton] at hc'
      have he := hc'.2
      rw [hkeep (.live c') not_false (by simpa using he) (by simp) (by simp),
        hkeep (.old id c') not_false (by simp) (by simpa using he) (by simp),
        hkeep (.staged c') not_false (by simp) (by simp) (by simpa using he)]
      exact h.waiting c' hc'.1

theorem swapComponents_wp (l : List SwapComponent) {j : RestoreJournal} {s : StateFiles β}
    (h : Active s₀ id components nonces j s) (hnodup : l.Nodup)
    (hl : ∀ c ∈ l, c ∉ j.swaps.map RestoreSwap.component) :
    wp (swapComponents nonces components l j) (Open s₀ id) (fun _ _ => False)
      (fun j' t => Active s₀ id components nonces j' t ∧
        j'.swaps.map RestoreSwap.component = j.swaps.map RestoreSwap.component ++ l) s := by
  induction l generalizing j s with
  | nil => exact wp_pure.mpr ⟨h, (List.append_nil _).symm⟩
  | cons c rest ih =>
    obtain ⟨hfirst, hrest⟩ := List.nodup_cons.mp hnodup
    unfold swapComponents
    rw [wp_bind]
    refine (swapComponent_wp h (hl c (by simp)) _).mono (fun _ h => h) (fun _ _ h => h) ?_
    rintro _ t ⟨rfl, ht⟩
    refine (ih ht hrest fun c' hc' => ?_).mono (fun _ h => h) (fun _ _ h => h) ?_
    · rw [withSwap_components, List.mem_append, not_or, List.mem_singleton]
      exact ⟨hl c' (List.mem_cons_of_mem _ hc'), fun he => hfirst (he ▸ hc')⟩
    · rintro j' u ⟨hu, hswaps⟩
      refine ⟨hu, ?_⟩
      rw [hswaps, withSwap_components, List.append_assoc]
      rfl

theorem switchState_wp (hprior : Prior s₀ id nonces) (h : Active s₀ id components nonces j s)
    (hempty : j.swaps = []) :
    wp (switchState nonces components j) (Open s₀ id) (fun _ _ => False)
      (fun j' t => recorded t = some (.journal j') ∧ j'.committed = false ∧ Recorded s₀ id j' ∧
        Undoable s₀ id j' t ∧ contents t = bundleContents components s₀ ∧
        ∀ k, t (.journalPartial (nonces k)) = none) s := by
  have hall : ∀ c, c ∈ swapOrder := by intro c; cases c <;> decide
  unfold switchState
  rw [wp_bind]
  refine (swapComponents_wp swapOrder h (by decide) (by simp [hempty])).mono (fun _ h => h)
    (fun _ _ h => h) ?_
  rintro j₁ t ⟨ht, hswaps⟩
  rw [hempty, List.map_nil, List.nil_append] at hswaps
  -- the journal of the started switch
  set j₂ : RestoreJournal := { j₁ with databaseSwitchStarted := true } with hj₂
  have hrec : Recorded s₀ id j₂ := ⟨ht.recorded.valid, ht.recorded.restoreId, ht.recorded.name,
    ht.recorded.hadLive, ht.recorded.swaps⟩
  have hundoable : Undoable s₀ id j₂ t := ⟨fun _ => ht.safety,
    (fun hs => by cases hs), ht.undoable.swapped, ht.undoable.waiting⟩
  show wp (mapError (·, j₂) (saveJournal (nonces 5) j₂) >>= fun _ =>
    mapError (·, j₂) (copyDatabase .stagedDatabase .database) >>= fun _ => pure j₂) _ _ _ t
  rw [wp_bind, wp_mapError]
  refine (saveJournal_wp (ht.partials 5)).mono ?_ (fun _ _ h => h) ?_
  · rintro u ⟨hdata, hsame | hnew⟩
    · exact ⟨j₁, hsame.trans ht.recorded_eq, ht.uncommitted, ht.recorded, ht.undoable.of_sameData hdata⟩
    · exact ⟨j₂, hnew, ht.uncommitted, hrec, hundoable.of_sameData hdata⟩
  rintro - u hu
  obtain ⟨content, hcontent⟩ := Option.ne_none_iff_exists'.mp hprior.stagedDatabase
  have hstaged : u .stagedDatabase = some content :=
    ((hu.data .stagedDatabase not_false).trans ht.stagedDatabase).trans hcontent
  have hrecorded : recorded (u.put .database content) = some (.journal j₂) :=
    (sameJournal_put (show ¬StateFile.IsJournal .database from not_false)).recorded_eq.trans
      ((recorded_of_backup_none hu.backup).trans hu.journal)
  have hundoable' : Undoable s₀ id j₂ (u.put .database content) :=
    (hundoable.of_sameData hu.data).of_same (fun _ => Files.put_of_ne (by simp))
      (fun hs => by cases hs) (fun _ => Files.put_of_ne (by simp)) fun _ => Files.put_of_ne (by simp)
  rw [wp_bind, wp_mapError]
  refine copyDatabase_wp hstaged ⟨j₂, hrecorded, ht.uncommitted, hrec, hundoable'⟩ ?_
  rw [wp_pure]
  refine ⟨hrecorded, ht.uncommitted, hrec, hundoable', ?_, fun k => ?_⟩
  · rw [contents, bundleContents, Files.put_self, hcontent]
    congr 1
    funext c
    rw [Files.put_of_ne (by simp), hu.data (.live c) not_false]
    exact (ht.swapped c (hswaps ▸ hall c)).2
  · rw [Files.put_of_ne (by simp)]
    exact hu.partials _ (ht.partials k)

/-! ## The whole installation -/

/-- Neither the prior state nor an open one has a committed journal. -/
def OldSide (s₀ : StateFiles β) (id : Uuid) (s : StateFiles β) : Prop :=
  Settled (contents s₀) s ∨ Open s₀ id s

/-- The bundle's content is there, with its journal committed or gone. -/
def NewSide (c : Contents β) (s : StateFiles β) : Prop := Committed c s ∨ Settled c s

theorem OldSide.not_committedWritten (h : OldSide s₀ id s) : ¬CommittedWritten s := by
  rcases h with ⟨hnone, -⟩ | ⟨j, hj, hopen, -⟩
  · rintro ⟨j, hj, -⟩
    rw [recorded, Files.visible_of_some hj] at hnone
    cases hnone
  · exact ApplicationState.not_committedWritten hj hopen

/-- What the safety copies leave: everything but `backups/` as before, and the safety database. -/
theorem takeSafetyCopies_wp {safetyBundle : Except AnoleError (StateContent β)}
    (hprior : Prior s₀ id nonces) (hsome : s₀ .database ≠ none) :
    wp (takeSafetyCopies id safetyBundle) (Settled (contents s₀)) (fun _ t => t = s₀)
      (fun _ t => (∀ file, (∀ name, file ≠ .backups name) → t file = s₀ file) ∧
        t (.backups (safetyName id)) = s₀ .database) s₀ := by
  have hsettled : ∀ t, (∀ file, (∀ name, file ≠ StateFile.backups name) → t file = s₀ file) →
      Settled (contents s₀) t := by
    intro t ht
    refine ⟨?_, contents_eq (ht _ (by simp)) fun c => ht _ (by simp)⟩
    rw [recorded, Files.visible, ht _ (by simp), ht _ (by simp), hprior.journal,
      hprior.journalBackup, Option.or_none]
  obtain ⟨content, hcontent⟩ := Option.ne_none_iff_exists'.mp hsome
  unfold takeSafetyCopies
  rw [wp_bind, wp_lift]
  refine ⟨fun _ _ => rfl, fun bundle _ => ?_⟩
  have hfirst : ∀ file, (∀ name, file ≠ .backups name) →
      s₀.put (.backups (safetyBundleName id)) bundle file = s₀ file :=
    fun file hfile => Files.put_of_ne (hfile _)
  have hsource : s₀.put (.backups (safetyBundleName id)) bundle .database = some content := by
    rw [hfirst _ (by simp), hcontent]
  have hsecond : ∀ file, (∀ name, file ≠ .backups name) →
      (s₀.put (.backups (safetyBundleName id)) bundle).put (.backups (safetyName id)) content file =
        s₀ file :=
    fun file hfile => (Files.put_of_ne (hfile _)).trans (hfirst file hfile)
  rw [wp_bind, wp_op]
  refine ⟨hsettled _ hfirst, copyDatabase_wp hsource (hsettled _ hsecond) ⟨hsecond, ?_⟩⟩
  rw [Files.put_self, hcontent]

/-- The journal of a restore before any swap. -/
theorem recorded_first : Recorded s₀ id
    { schemaVersion := applicationStateBundleSchemaVersion
      restoreId := id
      safetyDatabaseName := if decide (s₀ .database ≠ none) then safetyName id else ""
      databaseHadLive := decide (s₀ .database ≠ none)
      databaseSwitchStarted := false
      committed := false
      swaps := [] } := by
  refine ⟨validate_eq_ok.mpr ⟨?_, List.nodup_nil⟩, rfl, by simp, rfl, by simp⟩
  by_cases hsome : s₀ .database ≠ none
  · simp [hsome, safetyName_ne_empty, normalComponents_safetyName]
  · simp [hsome]

theorem saveJournal_wp_first (components : BundleComponents) (hprior : Prior s₀ id nonces)
    (hdata : ∀ file, (∀ name, file ≠ StateFile.backups name) → s file = s₀ file)
    (hsafety : s₀ .database ≠ none → s (.backups (safetyName id)) = s₀ .database)
    (hj : Recorded s₀ id j) (hopen : j.committed = false) (hstart : j.databaseSwitchStarted = false)
    (hempty : j.swaps = []) :
    wp (saveJournal (nonces 0) j) (OldSide s₀ id) (fun _ _ => False)
      (fun _ => Active s₀ id components nonces j) s := by
  have hjournal : s .journal = none := (hdata _ (by simp)).trans hprior.journal
  have hbackup : s .journalBackup = none := (hdata _ (by simp)).trans hprior.journalBackup
  have hsides : ∀ k, s (.journalPartial (nonces k)) = none :=
    fun k => (hdata _ (by simp)).trans (hprior.partials k)
  have hsettled : Settled (contents s₀) s := by
    refine ⟨(recorded_of_backup_none hbackup).trans hjournal, ?_⟩
    exact contents_eq (hdata _ (by simp)) fun c => hdata _ (by simp)
  have hundoable : Undoable s₀ id j s := by
    refine ⟨fun hs => absurd hs (by rw [hstart]; decide), fun _ => hdata _ (by simp),
      fun swap hswap => ?_, fun c _ => ?_⟩
    · rw [hempty] at hswap
      cases hswap
    · exact ⟨hdata _ (by simp), (hdata _ (by simp)).trans (hprior.old c)⟩
  refine (saveJournal_wp (hsides 0)).mono ?_ (fun _ _ h => h) ?_
  · rintro t ⟨hsame, hold | hnew⟩
    · exact .inl (hsettled.of_sameData hsame hold)
    · exact .inr ⟨j, hnew, hopen, hj, hundoable.of_sameData hsame⟩
  · rintro - t ht
    refine ⟨ht.journal, ht.backup, fun k => ht.partials _ (hsides k), hj, hopen, hstart,
      fun hsome => (ht.data (.backups _) not_false).trans (hsafety hsome),
      (ht.data .database not_false).trans (hdata _ (by simp)),
      (ht.data .stagedDatabase not_false).trans (hdata _ (by simp)), ?_, fun c _ => ?_⟩
    · rw [hempty]
      simp
    · exact ⟨(ht.data (.live c) not_false).trans (hdata _ (by simp)),
        ((ht.data (.old id c) not_false).trans (hdata _ (by simp))).trans (hprior.old c),
        (ht.data (.staged c) not_false).trans (hdata _ (by simp))⟩

theorem Recorded.committed (h : Recorded s₀ id j) :
    ({ j with committed := true } : RestoreJournal).validate = .ok () := h.valid

/-- The commit: from the save of the committed journal on, the bundle's content is there. -/
theorem commitRestore_commits {c : Contents β} (hfree : s (.journalPartial nonce) = none)
    (hrecorded : ApplicationState.recorded s = some (.journal j)) (hopen : j.committed = false)
    (hj : Recorded s₀ id j) (hcontents : contents s = c) :
    Commits (commitRestore nonce j) CommittedWritten
      (fun t => SameData s t ∧ ApplicationState.recorded t = ApplicationState.recorded s)
      (NewSide c) (fun _ => Settled c) s := by
  have hnew : ∀ t, SameData s t →
      ApplicationState.recorded t = some (.journal { j with committed := true }) → Committed c t :=
    fun t hdata ht => ⟨_, ht, rfl, hj.committed, hdata.contents_eq.trans hcontents⟩
  unfold commitRestore
  refine Commits.earlier ((saveJournal_commits hfree hrecorded hopen rfl).mono
    (fun _ h => h) fun t ht => .inl (hnew t ht.1 ht.2)) ?_
  rintro - t ⟨hdata, hjournal, hbackup⟩
  rw [wp_bind]
  refine (cleanupCommittedRestore_wp (hdata.contents_eq.trans hcontents)).mono ?_
    (fun _ _ _ => trivial) ?_
  · rintro u ⟨hsame, hu⟩
    refine .inl ⟨_, ?_, rfl, hj.committed, hu⟩
    rw [hsame.recorded_eq, recorded_of_backup_none hbackup, hjournal]
  · rintro - u ⟨hsame, hu⟩
    obtain ⟨hsettled, -, hnone⟩ := settled_remove_journal (hsame.2.trans hbackup) hu
    rw [wp_bind, wp_op]
    refine ⟨.inr hsettled, removePathIfExists_wp (fun h => absurd hnone h) ?_⟩
    rwa [Files.remove_eq_self hnone]

/-- **The moments of an installation.** Until the committed journal is published the prior
    content can be brought back; from then on the bundle's content is there. -/
theorem install_commits (hprior : Prior s₀ id nonces) (bundlePath : PathBuf)
    (prepared : PreparedBundle) (safetyBundle : Except AnoleError (StateContent β)) :
    Commits (installPreparedBundle bundlePath prepared id nonces safetyBundle) CommittedWritten
      (OldSide s₀ id) (NewSide (bundleContents prepared.components s₀)) (fun _ _ => True) s₀ := by
  have hmark : ∀ t, OldSide s₀ id t → ¬CommittedWritten t ∧ OldSide s₀ id t :=
    fun t ht => ⟨ht.not_committedWritten, ht⟩
  unfold installPreparedBundle
  refine Commits.later (S := fun files t => files = s₀ ∧ t = s₀) (wp_get.mpr ⟨rfl, rfl⟩) ?_
  rintro files t ⟨hfiles, ht⟩
  subst t files
  -- the safety copies, when there is a database
  refine Commits.later (S := fun _ t => (∀ file, (∀ name, file ≠ StateFile.backups name) →
    t file = s₀ file) ∧ (s₀ .database ≠ none → t (.backups (safetyName id)) = s₀ .database)) ?_ ?_
  · rw [wp_ite]
    refine ⟨fun hsome => ?_, fun hnone => wp_pure.mpr ⟨fun _ _ => rfl, fun hsome => ?_⟩⟩
    · exact (takeSafetyCopies_wp hprior (of_decide_eq_true hsome)).mono
        (fun t ht => hmark t (.inl ht)) (fun _ _ _ => trivial) fun _ t ht => ⟨ht.1, fun _ => ht.2⟩
    · exact absurd (decide_eq_true hsome) hnone
  rintro - t ⟨hdata, hsafety⟩
  -- the first journal, and the switch
  refine Commits.later ((saveJournal_wp_first prepared.components hprior hdata hsafety
    recorded_first rfl rfl rfl).mono hmark (fun _ _ h => h.elim) fun _ _ h => h) ?_
  rintro - u hu
  refine Commits.later (S := fun r v => ∃ j', r = .ok j' ∧ recorded v = some (.journal j') ∧
    j'.committed = false ∧ Recorded s₀ id j' ∧ Undoable s₀ id j' v ∧
    contents v = bundleContents prepared.components s₀ ∧
    ∀ k, v (.journalPartial (nonces k)) = none) ?_ ?_
  · rw [wp_attempt]
    exact (switchState_wp hprior hu rfl).mono (fun v hv => hmark v (.inr hv)) (fun _ _ h => h.elim)
      fun j' v hv => ⟨j', rfl, hv⟩
  · rintro _ v ⟨j', rfl, hrecorded, hopen, hrec, hundoable, hcontents, hsides⟩
    refine Commits.earlier ((commitRestore_commits (hsides 6) hrecorded hopen hrec hcontents).mono
      (fun w hw => .inr ?_) fun _ h => h) fun _ _ _ => wp_pure.mpr trivial
    exact ⟨j', hw.2.trans hrecorded, hopen, hrec, hundoable.of_sameData hw.1⟩

/-! ## Recovery after a crash -/

theorem recover_crash_old (h : OldSide s₀ id s) (hcrash : Crashes recoverInterruptedRestore s t) :
    OldSide s₀ id t ∨ Stranded t := by
  rcases h with h | h
  · exact .inl (.inl (hcrash.of_wp (recover_wp_settled h) h))
  · rcases hcrash.of_wp (recover_wp_open h) (.inl h) with h | h | h
    · exact .inl (.inr h)
    · exact .inr h
    · exact .inl (.inl h)

theorem recover_crash_new {c : Contents β} (h : NewSide c s)
    (hcrash : Crashes recoverInterruptedRestore s t) : NewSide c t := by
  rcases h with h | h
  · exact hcrash.of_wp (recover_wp_committed h) (.inl h)
  · exact .inr (hcrash.of_wp (recover_wp_settled h) h)

theorem stranded_last {cuts : List (StateFiles β)} {start : StateFiles β}
    (hcuts : (start :: cuts).IsChain (Crashes recoverInterruptedRestore))
    (h : ∃ cut ∈ start :: cuts, Stranded cut) :
    Stranded ((start :: cuts).getLast (List.cons_ne_nil _ _)) := by
  induction cuts generalizing start with
  | nil =>
    obtain ⟨cut, hcut, hstranded⟩ := h
    rwa [List.mem_singleton.mp hcut] at hstranded
  | cons next rest ih =>
    rw [List.isChain_cons_cons] at hcuts
    rw [List.getLast_cons_cons]
    refine ih hcuts.2 ?_
    obtain ⟨cut, hcut, hstranded⟩ := h
    rcases List.mem_cons.mp hcut with rfl | hcut
    · exact ⟨next, by simp, hcuts.1.of_wp (recover_wp_stranded hstranded) hstranded⟩
    · exact ⟨cut, hcut, hstranded⟩

theorem not_succeeds_of_stranded (h : Stranded s) (recovered : Bool) (u : StateFiles β) :
    ¬Succeeds recoverInterruptedRestore s recovered u :=
  fun hsuccess => hsuccess.of_wp (recover_wp_stranded h)

/-- Cut off recoveries that strand nothing keep the side. -/
theorem side_last {P : StateFiles β → Prop}
    (hstep : ∀ s t, P s → Crashes recoverInterruptedRestore s t → ¬Stranded t → P t)
    {cuts : List (StateFiles β)} {start : StateFiles β}
    (hcuts : (start :: cuts).IsChain (Crashes recoverInterruptedRestore))
    (hfree : ∀ cut ∈ cuts, ¬Stranded cut) (h : P start) :
    P ((start :: cuts).getLast (List.cons_ne_nil _ _)) := by
  induction cuts generalizing start with
  | nil => exact h
  | cons cut rest ih =>
    rw [List.isChain_cons_cons] at hcuts
    rw [List.getLast_cons_cons]
    exact ih hcuts.2 (fun c hc => hfree c (List.mem_cons_of_mem _ hc))
      (hstep start cut h hcuts.1 (hfree cut (by simp)))

theorem recover_old (h : OldSide s₀ id s) : ∃ recovered u,
    Succeeds recoverInterruptedRestore s recovered u ∧ u .journal = none ∧
      u .journalBackup = none ∧ contents u = contents s₀ := by
  have hwp : wp recoverInterruptedRestore (fun _ => True) (fun _ _ => False)
      (fun _ u => Settled (contents s₀) u ∧ u .journal = none ∧ u .journalBackup = none) s := by
    rcases h with h | h
    · exact (recover_wp_settled h).mono (fun _ _ => trivial) (fun _ _ h => h) fun _ _ h => h
    · exact (recover_wp_open h).mono (fun _ _ => trivial) (fun _ _ h => h) fun _ _ h => h
  obtain ⟨recovered, u, hsuccess, hsettled, hjournal, hbackup⟩ := hwp.succeeds
  exact ⟨recovered, u, hsuccess, hjournal, hbackup, hsettled.2⟩

theorem recover_new {c : Contents β} (h : NewSide c s) : ∃ recovered u,
    Succeeds recoverInterruptedRestore s recovered u ∧ u .journal = none ∧
      u .journalBackup = none ∧ contents u = c := by
  have hwp : wp recoverInterruptedRestore (fun _ => True) (fun _ _ => False)
      (fun _ u => Settled c u ∧ u .journal = none ∧ u .journalBackup = none) s := by
    rcases h with h | h
    · exact (recover_wp_committed h).mono (fun _ _ => trivial) (fun _ _ h => h) fun _ _ h => h
    · exact (recover_wp_settled h).mono (fun _ _ => trivial) (fun _ _ h => h) fun _ _ h => h
  obtain ⟨recovered, u, hsuccess, hsettled, hjournal, hbackup⟩ := hwp.succeeds
  exact ⟨recovered, u, hsuccess, hjournal, hbackup, hsettled.2⟩

/-- **Interrupted restores recover.** An installation is cut off at `t` after the moments
    `pre`, and recoveries are cut off one after another. The next one succeeds, removes the
    journal and leaves the bundle's content if the committed journal had been published, the
    prior content if not, exactly when none of the cut-off recoveries stopped between the
    removal of the safety database and that of the journal. -/
theorem restore_recovers (hprior : Prior s₀ id nonces) (bundlePath : PathBuf)
    (prepared : PreparedBundle) (safetyBundle : Except AnoleError (StateContent β))
    {pre post cuts : List (StateFiles β)}
    (hcrash : s₀ :: (installPreparedBundle bundlePath prepared id nonces safetyBundle s₀).moments =
      pre ++ t :: post)
    (hcuts : (t :: cuts).IsChain (Crashes recoverInterruptedRestore)) :
    (∃ recovered u, Succeeds recoverInterruptedRestore
        ((t :: cuts).getLast (List.cons_ne_nil _ _)) recovered u ∧
      u .journal = none ∧ u .journalBackup = none ∧
      ((∃ m ∈ pre ++ [t], CommittedWritten m) →
        contents u = bundleContents prepared.components s₀) ∧
      ((∀ m ∈ pre ++ [t], ¬CommittedWritten m) → contents u = contents s₀)) ↔
    ∀ cut ∈ cuts, ¬Stranded cut := by
  -- the side on which the installation was cut off
  have hside : ((∃ m ∈ pre ++ [t], CommittedWritten m) ∧
      NewSide (bundleContents prepared.components s₀) t) ∨
      ((∀ m ∈ pre ++ [t], ¬CommittedWritten m) ∧ OldSide s₀ id t) := by
    have hstart : OldSide s₀ id s₀ := by
      refine .inl ⟨?_, rfl⟩
      rw [recorded, Files.visible, hprior.journal, hprior.journalBackup, Option.or_none]
    cases pre with
    | nil =>
      rw [List.nil_append, List.cons.injEq] at hcrash
      obtain ⟨rfl, -⟩ := hcrash
      refine .inr ⟨fun m hm => ?_, hstart⟩
      rw [List.nil_append, List.mem_singleton] at hm
      rw [hm]
      exact hstart.not_committedWritten
    | cons m₀ pre =>
      rw [List.cons_append, List.cons.injEq] at hcrash
      obtain ⟨rfl, hcrash⟩ := hcrash
      rcases (install_commits hprior bundlePath prepared safetyBundle).cut hcrash with
        ⟨⟨m, hm, hmark⟩, hnew⟩ | ⟨hunmarked, hold⟩
      · exact .inl ⟨⟨m, List.mem_cons_of_mem _ hm, hmark⟩, hnew⟩
      · refine .inr ⟨fun m hm => ?_, hold⟩
        rw [List.cons_append] at hm
        rcases List.mem_cons.mp hm with rfl | hm
        · exact hstart.not_committedWritten
        · exact hunmarked m hm
  constructor
  · rintro ⟨recovered, u, hsuccess, -⟩ cut hcut hstranded
    exact not_succeeds_of_stranded
      (stranded_last hcuts ⟨cut, List.mem_cons_of_mem _ hcut, hstranded⟩) recovered u hsuccess
  · intro hfree
    rcases hside with ⟨⟨m, hm, hmark⟩, hnew⟩ | ⟨hunmarked, hold⟩
    · obtain ⟨recovered, u, hsuccess, hjournal, hbackup, hcontents⟩ :=
        recover_new (side_last (fun _ _ h hc _ => recover_crash_new h hc) hcuts hfree hnew)
      exact ⟨recovered, u, hsuccess, hjournal, hbackup, fun _ => hcontents,
        fun h => absurd hmark (h m hm)⟩
    · obtain ⟨recovered, u, hsuccess, hjournal, hbackup, hcontents⟩ :=
        recover_old (side_last (fun _ _ h hc hns => (recover_crash_old h hc).resolve_right hns)
          hcuts hfree hold)
      refine ⟨recovered, u, hsuccess, hjournal, hbackup, ?_, fun _ => hcontents⟩
      rintro ⟨m, hm, hmark⟩
      exact absurd hmark (hunmarked m hm)

end ApplicationState

end Anole

namespace Anole.ApplicationState.Sample

/-- A state with a database and settings, and a bundle with both. -/
def state : StateFiles ℕ
  | .database => some (.content 1)
  | .live .settings => some (.content 2)
  | .stagedDatabase => some (.content 3)
  | .staged .settings => some (.content 4)
  | _ => none

def bundle : PreparedBundle :=
  { bundleId := 9, components := ⟨false, true, false, false⟩, warnings := [] }

def nonce (k : ℕ) : Uuid := BitVec.ofNat 128 k

theorem getD_mem {α : Type} {l : List α} {n : ℕ} {d : α} (h : n < l.length) : l.getD n d ∈ l := by
  rw [List.getD_eq_getElem?_getD, List.getElem?_eq_getElem h]
  exact List.getElem_mem h

theorem state_prior : Prior state 7 nonce :=
  ⟨rfl, rfl, fun _ => rfl, fun _ => rfl, by decide⟩

/-- The moments of the installation of the bundle. -/
def moments : List (StateFiles ℕ) :=
  (installPreparedBundle (PathBuf.ofString "b") bundle 7 nonce (.ok .torn) state).moments

/-- The installation is cut off when the database has been switched. -/
def switched : StateFiles ℕ := moments.getD 32 state

theorem exists_cut : ∃ pre post, state :: moments = pre ++ switched :: post :=
  List.append_of_mem (List.mem_cons_of_mem _ (getD_mem (by decide +kernel)))

/-- The first recovery is cut off when it has removed the safety database. -/
def safetyRemoved : StateFiles ℕ := (recoverInterruptedRestore switched).moments.getD 3 switched

theorem switched_crash : Crashes recoverInterruptedRestore switched safetyRemoved :=
  .inr (getD_mem (by decide +kernel))

/-- No later recovery succeeds. -/
theorem restore_stranded : (∃ pre post, state :: moments = pre ++ switched :: post) ∧
    [switched, safetyRemoved].IsChain (Crashes recoverInterruptedRestore) ∧
    ¬∃ recovered u, Succeeds recoverInterruptedRestore safetyRemoved recovered u := by
  refine ⟨exists_cut, .cons_cons switched_crash (.singleton _), ?_⟩
  rintro ⟨recovered, u, hsuccess, -⟩
  have herror : (recoverInterruptedRestore safetyRemoved).result.toBool = false := by decide +kernel
  rw [hsuccess] at herror
  cases herror

/-- A recovery cut off earlier strands nothing. -/
def databaseBack : StateFiles ℕ := (recoverInterruptedRestore switched).moments.getD 0 switched

theorem restore_recovers_databaseBack : ∃ pre post, state ::
      (installPreparedBundle (PathBuf.ofString "b") bundle 7 nonce (.ok .torn) state).moments = pre ++ switched :: post ∧
    ((∃ recovered u, Succeeds recoverInterruptedRestore
          ([switched, databaseBack].getLast (List.cons_ne_nil _ _)) recovered u ∧
        u .journal = none ∧ u .journalBackup = none ∧
        ((∃ m ∈ pre ++ [switched], CommittedWritten m) →
          contents u = bundleContents bundle.components state) ∧
        ((∀ m ∈ pre ++ [switched], ¬CommittedWritten m) → contents u = contents state)) ↔
      ∀ cut ∈ [databaseBack], ¬Stranded cut) := by
  obtain ⟨pre, post, hcrash⟩ := exists_cut
  unfold moments at hcrash
  exact ⟨pre, post, hcrash, restore_recovers state_prior (PathBuf.ofString "b") bundle (.ok .torn)
    hcrash (.cons_cons (.inr (getD_mem (by decide +kernel))) (.singleton _))⟩

end Anole.ApplicationState.Sample
