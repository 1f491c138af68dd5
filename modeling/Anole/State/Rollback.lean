import Anole.State.Restore

/-!
# The rollback of a restore

What the parts of `recover_interrupted_restore` do at every moment. A state is `Undoable`
when what is live, moved away and saved still holds everything the prior state held; the
rollback keeps it so until it removes the safety database, and ends with the prior content.

Main results:

* `rollbackFromJournal_wp`: from an undoable state the rollback ends with the prior
  content, through moments that are undoable or `Stranded`.
* `recover_wp_open`, `recover_wp_committed`, `recover_wp_stranded`: the same for recovery.
-/

open Common Common.Proc

namespace Anole

namespace ApplicationState

variable {β : Type} {s t u : StateFiles β}

/-! ## Contents and frames -/

/-- What the five components hold. -/
structure Contents (β : Type) where
  database : Option (StateContent β)
  live : SwapComponent → Option (StateContent β)

/-- What the five live components hold. -/
def contents (s : StateFiles β) : Contents β := ⟨s .database, fun c => s (.live c)⟩

theorem contents_eq (hdatabase : t .database = s .database)
    (hlive : ∀ c, t (.live c) = s (.live c)) : contents t = contents s := by
  rw [contents, contents, hdatabase, funext hlive]

/-- The journal as the next recovery finds it. -/
def recorded (s : StateFiles β) : Option (StateContent β) := s.visible .journal .journalBackup

/-- The files of the journal. -/
def StateFile.IsJournal : StateFile → Prop
  | .journal | .journalBackup | .journalPartial _ => True
  | _ => False

/-- Only files of the journal differ. -/
def SameData (s t : StateFiles β) : Prop := ∀ file, ¬StateFile.IsJournal file → t file = s file

/-- The journal and its backup are the same. -/
def SameJournal (s t : StateFiles β) : Prop :=
  t .journal = s .journal ∧ t .journalBackup = s .journalBackup

theorem SameData.refl : SameData s s := fun _ _ => rfl

theorem SameData.trans (h : SameData s t) (h' : SameData t u) : SameData s u :=
  fun file hfile => (h' file hfile).trans (h file hfile)

theorem SameData.contents_eq (h : SameData s t) : contents t = contents s :=
  ApplicationState.contents_eq (h _ not_false) fun _ => h _ not_false

theorem SameJournal.refl : SameJournal s s := ⟨rfl, rfl⟩

theorem SameJournal.trans (h : SameJournal s t) (h' : SameJournal t u) : SameJournal s u :=
  ⟨h'.1.trans h.1, h'.2.trans h.2⟩

theorem SameJournal.recorded_eq (h : SameJournal s t) : recorded t = recorded s :=
  Files.visible_congr h.1 h.2

section Frames

variable {file source : StateFile} {content : StateContent β}

theorem sameData_put (h : StateFile.IsJournal file) : SameData s (s.put file content) :=
  fun other hother => Files.put_of_ne fun he => hother (by rw [he]; exact h)

theorem sameData_remove (h : StateFile.IsJournal file) : SameData s (s.remove file) :=
  fun other hother => Files.remove_of_ne fun he => hother (by rw [he]; exact h)

theorem sameData_rename (hsource : StateFile.IsJournal source) (h : StateFile.IsJournal file) :
    SameData s (s.rename source file) :=
  fun other hother => Files.rename_of_ne (fun he => hother (by rw [he]; exact hsource))
    fun he => hother (by rw [he]; exact h)

theorem ne_of_isJournal (h : ¬StateFile.IsJournal file) : StateFile.journal ≠ file ∧
    StateFile.journalBackup ≠ file := by
  constructor <;> (rintro rfl; exact h trivial)

theorem sameJournal_put (h : ¬StateFile.IsJournal file) : SameJournal s (s.put file content) :=
  ⟨Files.put_of_ne (ne_of_isJournal h).1, Files.put_of_ne (ne_of_isJournal h).2⟩

theorem sameJournal_remove (h : ¬StateFile.IsJournal file) : SameJournal s (s.remove file) :=
  ⟨Files.remove_of_ne (ne_of_isJournal h).1, Files.remove_of_ne (ne_of_isJournal h).2⟩

theorem removePathIfExists_wp {I : StateFiles β → Prop} {E : AnoleError → StateFiles β → Prop}
    {Q : Unit → StateFiles β → Prop} (hthere : s file ≠ none → I (s.remove file))
    (hQ : Q () (s.remove file)) : wp (removePathIfExists file) I E Q s := by
  unfold removePathIfExists
  simp only [wp_bind, wp_get, wp_ite, wp_op, wp_pure]
  refine ⟨fun h => ⟨hthere h, hQ⟩, fun h => ?_⟩
  rwa [Files.remove_eq_self (not_not.mp h)] at hQ

end Frames

/-! ## The journal of a restore -/

theorem safetyName_toList (id : Uuid) : ∃ rest, (safetyName id).toList = 'j' :: rest ∧ '/' ∉ 'j' :: rest := by
  unfold safetyName
  have hslash := id.slash_not_mem_toText
  generalize id.toText = text at hslash
  have hhead : "jobs.sqlite3.pre-state-restore.".toList = 'j' :: "obs.sqlite3.pre-state-restore.".toList := by decide
  refine ⟨"obs.sqlite3.pre-state-restore.".toList ++ text.toList ++ ".sqlite3".toList, ?_, ?_⟩
  · rw [String.toList_append, String.toList_append, hhead, List.cons_append, List.cons_append]
  · rw [List.mem_cons, List.mem_append, List.mem_append]
    rintro (h | (h | h) | h)
    · exact absurd h (by decide)
    · exact absurd h (by decide)
    · exact hslash h
    · exact absurd h (by decide)

theorem safetyName_ne_empty {id : Uuid} : safetyName id ≠ "" := by
  obtain ⟨rest, hlist, -⟩ := safetyName_toList id
  intro h
  rw [h] at hlist
  cases hlist

theorem normalComponents_safetyName {id : Uuid} : normalComponents (safetyName id) = true := by
  obtain ⟨rest, hlist, hslash⟩ := safetyName_toList id
  simp only [normalComponents, hlist, List.splitOn_eq_singleton hslash]
  have hj : ('j' : Char) ≠ '/' ∧ ('j' : Char) ≠ '.' := by decide
  simp [hj.1, hj.2]

variable (s₀ : StateFiles β) (id : Uuid)

/-- `j` is a journal of the restore `id` that started in `s₀`. -/
structure Recorded (j : RestoreJournal) : Prop where
  valid : j.validate = .ok ()
  restoreId : j.restoreId = id
  name : j.safetyDatabaseName = if s₀ .database ≠ none then safetyName id else ""
  hadLive : j.databaseHadLive = decide (s₀ .database ≠ none)
  swaps : ∀ swap ∈ j.swaps, swap.hadLive = decide (s₀ (.live swap.component) ≠ none)

/-- The prior content of a component is live and nothing is moved away, or it is moved away,
    or there was none. -/
def ComponentUndoable (c : SwapComponent) (s : StateFiles β) : Prop :=
  (s (.old id c) = none ∧ s (.live c) = s₀ (.live c)) ∨
    (s₀ (.live c) ≠ none ∧ s (.old id c) = s₀ (.live c)) ∨
      (s₀ (.live c) = none ∧ s (.old id c) = none)

/-- Everything the prior state held is still there for the journal `j`. -/
structure Undoable (j : RestoreJournal) (s : StateFiles β) : Prop where
  safety : j.databaseSwitchStarted = true → s₀ .database ≠ none →
    s (.backups (safetyName id)) = s₀ .database
  database : j.databaseSwitchStarted = false → s .database = s₀ .database
  swapped : ∀ swap ∈ j.swaps, ComponentUndoable s₀ id swap.component s
  waiting : ∀ c ∉ j.swaps.map RestoreSwap.component,
    s (.live c) = s₀ (.live c) ∧ s (.old id c) = none

/-- The state waits for the rollback of a started switch whose safety database is gone. -/
def Stranded (s : StateFiles β) : Prop :=
  ∃ j, recorded s = some (.journal j) ∧ j.committed = false ∧ j.databaseSwitchStarted = true ∧
    j.databaseHadLive = true ∧ s (.backups j.safetyDatabaseName) = none

variable {s₀ id} {j : RestoreJournal} {components : List SwapComponent}

/-- A valid journal has the schema version and a plain name, and swaps no component twice. -/
theorem validate_eq_ok : j.validate = .ok () ↔
    ¬(j.schemaVersion ≠ applicationStateBundleSchemaVersion ∨
      (j.databaseHadLive ∧ j.safetyDatabaseName = "") ∨
      (j.safetyDatabaseName ≠ "" ∧ ¬normalComponents j.safetyDatabaseName)) ∧
    (j.swaps.map RestoreSwap.component).Nodup := by
  unfold RestoreJournal.validate
  split_ifs with hbad hnodup
  · simp only [hbad, not_true_eq_false, false_and]
  · simp only [hbad, hnodup, not_false_eq_true, and_self]
  · simp only [hnodup, and_false]

theorem Recorded.nodup (h : Recorded s₀ id j) : (j.swaps.map RestoreSwap.component).Nodup :=
  (validate_eq_ok.mp h.valid).2

theorem Undoable.of_sameData (h : Undoable s₀ id j s) (hdata : SameData s t) :
    Undoable s₀ id j t := by
  refine ⟨fun hswitch hlive => ?_, fun hswitch => ?_, fun swap hswap => ?_, fun c hc => ?_⟩
  · rw [hdata (.backups _) not_false, h.safety hswitch hlive]
  · rw [hdata .database not_false, h.database hswitch]
  · have hundoable := h.swapped swap hswap
    unfold ComponentUndoable at hundoable ⊢
    rwa [hdata (.old _ _) not_false, hdata (.live _) not_false]
  · rw [hdata (.old _ _) not_false, hdata (.live _) not_false]
    exact h.waiting c hc

/-! ## Swaps rolled back -/

/-- Only the files of the listed components differ: live, or moved away. -/
def SameButSwaps (id : Uuid) (components : List SwapComponent) (s t : StateFiles β) : Prop :=
  ∀ file, (∀ c ∈ components, file ≠ .live c ∧ file ≠ .old id c) → t file = s file

theorem SameButSwaps.sameJournal
    (h : SameButSwaps id components s t) : SameJournal s t :=
  ⟨h _ fun _ _ => ⟨by simp, by simp⟩, h _ fun _ _ => ⟨by simp, by simp⟩⟩

theorem SameButSwaps.trans (h : SameButSwaps id components s t)
    (h' : SameButSwaps id components t u) : SameButSwaps id components s u :=
  fun file hfile => (h' file hfile).trans (h file hfile)

theorem SameButSwaps.mono {components components' : List SwapComponent}
    (h : SameButSwaps id components s t) (hsub : components ⊆ components') :
    SameButSwaps id components' s t :=
  fun file hfile => h file fun c hc => hfile c (hsub hc)

theorem SameButSwaps.undoable_other {c : SwapComponent}
    (h : SameButSwaps id components s t) (hc : c ∉ components)
    (hundoable : ComponentUndoable s₀ id c s) : ComponentUndoable s₀ id c t := by
  have hne : ∀ c' ∈ components, c ≠ c' := fun c' hc' he => hc (he ▸ hc')
  unfold ComponentUndoable at hundoable ⊢
  rwa [h (.old id c) fun c' hc' => ⟨by simp, by simpa using hne c' hc'⟩,
    h (.live c) fun c' hc' => ⟨by simpa using hne c' hc', by simp⟩]

/-- One swap is rolled back: the prior content is live again. -/
theorem rollbackSwap_wp {swap : RestoreSwap}
    (hlive : swap.hadLive = decide (s₀ (.live swap.component) ≠ none))
    (hundoable : ComponentUndoable s₀ id swap.component s) :
    wp (rollbackSwap id swap)
      (fun t => SameButSwaps id [swap.component] s t ∧ ComponentUndoable s₀ id swap.component t)
      (fun _ _ => False)
      (fun _ t => SameButSwaps id [swap.component] s t ∧ t (.live swap.component) = s₀ (.live swap.component) ∧
        t (.old id swap.component) = none) s := by
  set c := swap.component with hc
  have hremoved : SameButSwaps id [c] s (s.remove (.live c)) :=
    fun file hfile => Files.remove_of_ne (hfile c (by simp)).1
  unfold rollbackSwap
  rw [wp_bind, wp_get, wp_ite, ← hc]
  constructor
  · intro hold
    -- something is moved away, so it is the prior content
    have haway : s₀ (.live c) ≠ none ∧ s (.old id c) = s₀ (.live c) := by
      rcases hundoable with h | h | h
      · exact absurd h.1 hold
      · exact h
      · exact absurd h.2 hold
    rw [wp_bind]
    refine removePathIfExists_wp (fun _ => ⟨hremoved, .inr (.inl ⟨haway.1, ?_⟩)⟩) ?_
    · rw [Files.remove_of_ne (by simp), haway.2]
    · have hback : (s.remove (.live c)).rename (.old id c) (.live c) (.live c) = s₀ (.live c) := by
        rw [Files.rename_target (by simp), Files.remove_of_ne (by simp), haway.2]
      have hframe : SameButSwaps id [c] s ((s.remove (.live c)).rename (.old id c) (.live c)) :=
        hremoved.trans fun file hfile =>
          Files.rename_of_ne (hfile c (by simp)).2 (hfile c (by simp)).1
      exact wp_op.mpr ⟨⟨hframe, .inl ⟨Files.rename_source, hback⟩⟩, hframe, hback, Files.rename_source⟩
  · intro hold
    have hold := not_not.mp hold
    rw [wp_ite]
    constructor
    · intro hhad
      have hnone : s₀ (.live c) = none := by
        rw [hlive] at hhad
        simpa using hhad
      have holdr : s.remove (.live c) (.old id c) = none := by
        rw [Files.remove_of_ne (by simp), hold]
      refine removePathIfExists_wp (fun _ => ⟨hremoved, .inr (.inr ⟨hnone, holdr⟩)⟩) ?_
      exact ⟨hremoved, by rw [Files.remove_self, hnone], holdr⟩
    · intro hhad
      have hsome : s₀ (.live c) ≠ none := by
        rw [hlive] at hhad
        simpa using hhad
      rw [wp_pure]
      refine ⟨fun _ _ => rfl, ?_, hold⟩
      rcases hundoable with h | h | h
      · exact h.2
      · rw [hold] at h
        exact absurd h.2.symm h.1
      · exact absurd h.1 hsome

theorem rollbackSwaps_wp (swaps : List RestoreSwap) {s : StateFiles β}
    (hlive : ∀ swap ∈ swaps, swap.hadLive = decide (s₀ (.live swap.component) ≠ none))
    (hnodup : (swaps.map RestoreSwap.component).Nodup)
    (hundoable : ∀ swap ∈ swaps, ComponentUndoable s₀ id swap.component s) :
    wp (rollbackSwaps id swaps)
      (fun t => SameButSwaps id (swaps.map RestoreSwap.component) s t ∧
        ∀ swap ∈ swaps, ComponentUndoable s₀ id swap.component t)
      (fun _ _ => False)
      (fun _ t => SameButSwaps id (swaps.map RestoreSwap.component) s t ∧
        ∀ swap ∈ swaps, t (.live swap.component) = s₀ (.live swap.component) ∧
          t (.old id swap.component) = none) s := by
  induction swaps generalizing s with
  | nil => exact wp_pure.mpr ⟨fun _ _ => rfl, by simp⟩
  | cons swap rest ih =>
    rw [List.map_cons] at hnodup
    obtain ⟨hfirst, hrest⟩ := List.nodup_cons.mp hnodup
    have hone : [swap.component] ⊆ (swap :: rest).map RestoreSwap.component := by simp
    have hsub : rest.map RestoreSwap.component ⊆ (swap :: rest).map RestoreSwap.component := by simp
    have hother : ∀ sw ∈ rest, sw.component ∉ [swap.component] := by
      intro sw hsw he
      rw [List.mem_singleton] at he
      exact hfirst (he ▸ List.mem_map_of_mem hsw)
    unfold rollbackSwaps
    rw [wp_bind]
    refine (rollbackSwap_wp (hlive swap (by simp)) (hundoable swap (by simp))).mono ?_
      (fun _ _ h => h) ?_
    · rintro t ⟨hframe, hswap⟩
      refine ⟨hframe.mono hone, fun sw hsw => ?_⟩
      rcases List.mem_cons.mp hsw with rfl | hsw
      · exact hswap
      · exact hframe.undoable_other (hother sw hsw) (hundoable sw (List.mem_cons_of_mem _ hsw))
    · rintro - t ⟨hframe, hback, hold⟩
      refine (ih (fun sw hsw => hlive sw (List.mem_cons_of_mem _ hsw)) hrest fun sw hsw =>
        hframe.undoable_other (hother sw hsw) (hundoable sw (List.mem_cons_of_mem _ hsw))).mono
        ?_ (fun _ _ h => h) ?_
      · rintro u ⟨hframe', hrest'⟩
        refine ⟨(hframe.mono hone).trans (hframe'.mono hsub), fun sw hsw => ?_⟩
        rcases List.mem_cons.mp hsw with rfl | hsw
        · exact hframe'.undoable_other hfirst (.inl ⟨hold, hback⟩)
        · exact hrest' sw hsw
      · rintro - u ⟨hframe', hrest'⟩
        refine ⟨(hframe.mono hone).trans (hframe'.mono hsub), fun sw hsw => ?_⟩
        rcases List.mem_cons.mp hsw with rfl | hsw
        · have hkept : ∀ file, file = .live sw.component ∨ file = .old id sw.component →
              u file = t file := by
            intro file hfile
            refine hframe' file fun c hc => ?_
            have hne : sw.component ≠ c := fun he => hfirst (he ▸ hc)
            rcases hfile with rfl | rfl <;> simp [hne]
          rw [hkept _ (.inl rfl), hkept _ (.inr rfl)]
          exact ⟨hback, hold⟩
        · exact hrest' sw hsw

/-! ## The whole rollback -/

theorem copyDatabase_wp {source destination : StateFile} {content : StateContent β}
    {I : StateFiles β → Prop} {E : AnoleError → StateFiles β → Prop}
    {Q : Unit → StateFiles β → Prop} (hsource : s source = some content)
    (hI : I (s.put destination content)) (hQ : Q () (s.put destination content)) :
    wp (copyDatabase source destination) I E Q s := by
  unfold copyDatabase
  rw [wp_bind, wp_get, hsource]
  exact wp_op.mpr ⟨hI, hQ⟩

/-- A change of a file that the undo does not need keeps a state undoable. -/
theorem Undoable.of_same (h : Undoable s₀ id j s)
    (hsafety : j.databaseSwitchStarted = true → t (.backups (safetyName id)) = s (.backups (safetyName id)))
    (hdatabase : j.databaseSwitchStarted = false → t .database = s .database)
    (hlive : ∀ c, t (.live c) = s (.live c)) (hold : ∀ c, t (.old id c) = s (.old id c)) :
    Undoable s₀ id j t := by
  refine ⟨fun hswitch hsome => ?_, fun hswitch => ?_, fun swap hswap => ?_, fun c hc => ?_⟩
  · rw [hsafety hswitch, h.safety hswitch hsome]
  · rw [hdatabase hswitch, h.database hswitch]
  · have hundoable := h.swapped swap hswap
    unfold ComponentUndoable at hundoable ⊢
    rwa [hold, hlive]
  · rw [hold, hlive]
    exact h.waiting c hc

/-- The swaps of an undoable state are rolled back: every component is live again. -/
theorem Undoable.rollbackSwaps_wp (hj : Recorded s₀ id j) (h : Undoable s₀ id j s)
    (hnodup : (j.swaps.map RestoreSwap.component).Nodup) :
    wp (rollbackSwaps id j.swaps.reverse)
      (fun t => SameJournal s t ∧ Undoable s₀ id j t) (fun _ _ => False)
      (fun _ t => SameJournal s t ∧ Undoable s₀ id j t ∧ t .database = s .database ∧
        ∀ c, t (.live c) = s₀ (.live c)) s := by
  have hkeep : ∀ t, SameButSwaps id (j.swaps.reverse.map RestoreSwap.component) s t →
      (∀ swap ∈ j.swaps.reverse, ComponentUndoable s₀ id swap.component t) →
      SameJournal s t ∧ Undoable s₀ id j t := by
    intro t hframe hswaps
    refine ⟨hframe.sameJournal, ⟨fun hswitch hsome => ?_, fun hswitch => ?_, fun swap hswap => ?_,
      fun c hc => ?_⟩⟩
    · rw [hframe _ fun _ _ => ⟨by simp, by simp⟩, h.safety hswitch hsome]
    · rw [hframe _ fun _ _ => ⟨by simp, by simp⟩, h.database hswitch]
    · exact hswaps swap (List.mem_reverse.mpr hswap)
    · have hne : ∀ c' ∈ j.swaps.reverse.map RestoreSwap.component, c ≠ c' := by
        rintro c' hc' rfl
        rw [List.map_reverse, List.mem_reverse] at hc'
        exact hc hc'
      rw [hframe (.live c) fun c' hc' => ⟨by simpa using hne c' hc', by simp⟩,
        hframe (.old id c) fun c' hc' => ⟨by simp, by simpa using hne c' hc'⟩]
      exact h.waiting c hc
  refine (ApplicationState.rollbackSwaps_wp j.swaps.reverse
    (fun swap hswap => hj.swaps swap (List.mem_reverse.mp hswap)) ?_
    (fun swap hswap => h.swapped swap (List.mem_reverse.mp hswap))).mono ?_ (fun _ _ h => h) ?_
  · rw [List.map_reverse]
    exact List.nodup_reverse.mpr hnodup
  · exact fun t ht => hkeep t ht.1 ht.2
  · rintro - t ⟨hframe, hback⟩
    obtain ⟨hjournal, hundoable⟩ := hkeep t hframe fun swap hswap =>
      .inl ⟨(hback swap hswap).2, (hback swap hswap).1⟩
    refine ⟨hjournal, hundoable, hframe _ fun _ _ => ⟨by simp, by simp⟩, fun c => ?_⟩
    by_cases hc : c ∈ j.swaps.map RestoreSwap.component
    · obtain ⟨swap, hswap, rfl⟩ := List.mem_map.mp hc
      exact (hback swap (List.mem_reverse.mpr hswap)).1
    · exact (hundoable.waiting c hc).1

/-- The last steps of the rollback: the safety database is removed, and so is the database
    when there was none. -/
theorem finishRollback_wp (hj : Recorded s₀ id j) (h : Undoable s₀ id j s)
    (hdatabase : s₀ .database ≠ none → s .database = s₀ .database)
    (hlive : ∀ c, s (.live c) = s₀ (.live c)) :
    wp (do
      removeSafety j.safetyDatabaseName
      if ¬j.databaseHadLive then removeDatabaseFamily)
      (fun t => SameJournal s t ∧ (Undoable s₀ id j t ∨ (j.databaseSwitchStarted = true ∧
        j.databaseHadLive = true ∧ t (.backups j.safetyDatabaseName) = none)))
      (fun _ _ => False)
      (fun _ t => SameJournal s t ∧ contents t = contents s₀) s := by
  by_cases hsome : s₀ .database ≠ none
  · -- a safety database may be removed
    have hname : j.safetyDatabaseName = safetyName id := by rw [hj.name, if_pos hsome]
    have hhad : j.databaseHadLive = true := by rw [hj.hadLive, decide_eq_true_eq]; exact hsome
    have hjournal : SameJournal s (s.remove (.backups (safetyName id))) := sameJournal_remove not_false
    have hcontents : contents (s.remove (.backups (safetyName id))) = contents s₀ := by
      refine contents_eq ?_ fun c => ?_
      · rw [Files.remove_of_ne (by simp), hdatabase hsome]
      · rw [Files.remove_of_ne (by simp), hlive c]
    rw [wp_bind, removeSafety, hname, wp_ite]
    refine ⟨fun _ => ?_, fun hempty => absurd safetyName_ne_empty hempty⟩
    refine removePathIfExists_wp (fun _ => ⟨hjournal, ?_⟩) ?_
    · cases hswitch : j.databaseSwitchStarted with
      | true => exact .inr ⟨rfl, hhad, Files.remove_self⟩
      | false =>
        refine .inl (h.of_same (fun hs => absurd hs (by rw [hswitch]; decide)) (fun _ => ?_)
          (fun _ => ?_) fun _ => ?_)
        all_goals exact Files.remove_of_ne (by simp)
    · rw [wp_ite, hhad]
      exact ⟨fun hnot => absurd rfl hnot, fun _ => wp_pure.mpr ⟨hjournal, hcontents⟩⟩
  · -- there was no database, so there is no safety database
    have hnone := not_not.mp hsome
    have hname : j.safetyDatabaseName = "" := by rw [hj.name, if_neg hsome]
    have hhad : j.databaseHadLive = false := by rw [hj.hadLive, decide_eq_false_iff_not]; exact hsome
    have hfamily : ∀ t file, SameJournal s t → Undoable s₀ id j t →
        file ∈ [StateFile.database, .databaseWal, .databaseShm] →
          SameJournal s (t.remove file) ∧ Undoable s₀ id j (t.remove file) := by
      intro t file hjournal hundoable hfile
      have hne : ∀ other, other ∉ [StateFile.database, .databaseWal, .databaseShm] →
          t.remove file other = t other :=
        fun other hother => Files.remove_of_ne fun he => hother (he ▸ hfile)
      refine ⟨hjournal.trans ⟨hne _ (by simp), hne _ (by simp)⟩, hundoable.of_same
        (fun _ => hne _ (by simp)) (fun hswitch => ?_) (fun _ => hne _ (by simp))
        fun _ => hne _ (by simp)⟩
      by_cases hdb : StateFile.database = file
      · rw [← hdb, Files.remove_self, hundoable.database hswitch, hnone]
      · exact Files.remove_of_ne hdb
    obtain ⟨hj₁, hu₁⟩ := hfamily s .database .refl h (by simp)
    obtain ⟨hj₂, hu₂⟩ := hfamily _ .databaseWal hj₁ hu₁ (by simp)
    obtain ⟨hj₃, hu₃⟩ := hfamily _ .databaseShm hj₂ hu₂ (by simp)
    rw [wp_bind, removeSafety, hname, wp_ite]
    refine ⟨fun hne => absurd rfl hne, fun _ => wp_pure.mpr ?_⟩
    rw [wp_ite, hhad]
    refine ⟨fun _ => ?_, fun hnot => absurd Bool.false_ne_true hnot⟩
    unfold removeDatabaseFamily
    rw [wp_bind]
    refine removePathIfExists_wp (fun _ => ⟨hj₁, .inl hu₁⟩) ?_
    rw [wp_bind]
    refine removePathIfExists_wp (fun _ => ⟨hj₂, .inl hu₂⟩) ?_
    refine removePathIfExists_wp (fun _ => ⟨hj₃, .inl hu₃⟩) ⟨hj₃, contents_eq ?_ fun c => ?_⟩
    · rw [Files.remove_of_ne (by simp), Files.remove_of_ne (by simp), Files.remove_self, hnone]
    · rw [Files.remove_of_ne (by simp), Files.remove_of_ne (by simp), Files.remove_of_ne (by simp),
        hlive c]

/-- **The rollback.** From an undoable state it ends with the prior content, and on the way
    the state is undoable or the safety database of a started switch is gone. -/
theorem rollbackFromJournal_wp (hj : Recorded s₀ id j) (h : Undoable s₀ id j s) :
    wp (rollbackFromJournal j)
      (fun t => SameJournal s t ∧ (Undoable s₀ id j t ∨ (j.databaseSwitchStarted = true ∧
        j.databaseHadLive = true ∧ t (.backups j.safetyDatabaseName) = none)))
      (fun _ _ => False)
      (fun _ t => SameJournal s t ∧ contents t = contents s₀) s := by
  have hnodup : (j.swaps.map RestoreSwap.component).Nodup := hj.nodup
  -- the swaps and the last steps, once the database is back
  have hrest : ∀ t, SameJournal s t → Undoable s₀ id j t →
      (s₀ .database ≠ none → t .database = s₀ .database) →
      wp (do
        rollbackSwaps id j.swaps.reverse
        removeSafety j.safetyDatabaseName
        if ¬j.databaseHadLive then removeDatabaseFamily)
        (fun t => SameJournal s t ∧ (Undoable s₀ id j t ∨ (j.databaseSwitchStarted = true ∧
          j.databaseHadLive = true ∧ t (.backups j.safetyDatabaseName) = none)))
        (fun _ _ => False)
        (fun _ t => SameJournal s t ∧ contents t = contents s₀) t := by
    intro t hjournal hundoable hdatabase
    rw [wp_bind]
    refine (hundoable.rollbackSwaps_wp hj hnodup).mono ?_ (fun _ _ h => h) ?_
    · exact fun u hu => ⟨hjournal.trans hu.1, .inl hu.2⟩
    · rintro - u ⟨hjournal', hundoable', hsame, hlive⟩
      refine (finishRollback_wp hj hundoable' (fun hsome => hsame.trans (hdatabase hsome)) hlive).mono
        ?_ (fun _ _ h => h) ?_
      · exact fun v hv => ⟨(hjournal.trans hjournal').trans hv.1, hv.2⟩
      · exact fun _ v hv => ⟨(hjournal.trans hjournal').trans hv.1, hv.2⟩
  unfold rollbackFromJournal
  rw [wp_ite, hj.restoreId]
  constructor
  · rintro ⟨hswitch, hhad⟩
    have hsome : s₀ .database ≠ none := by
      rw [hj.hadLive, decide_eq_true_eq] at hhad
      exact hhad
    obtain ⟨content, hcontent⟩ := Option.ne_none_iff_exists'.mp hsome
    have hname : j.safetyDatabaseName = safetyName id := by rw [hj.name, if_pos hsome]
    have hsource : s (.backups j.safetyDatabaseName) = some content := by
      rw [hname, h.safety hswitch hsome, hcontent]
    have hjournal : SameJournal s (s.put .database content) := sameJournal_put not_false
    have hundoable : Undoable s₀ id j (s.put .database content) :=
      h.of_same (fun _ => Files.put_of_ne (by simp))
        (fun hs => absurd hs (by rw [hswitch]; decide))
        (fun _ => Files.put_of_ne (by simp)) fun _ => Files.put_of_ne (by simp)
    rw [wp_bind]
    refine copyDatabase_wp hsource ⟨hjournal, .inl hundoable⟩ ?_
    exact hrest _ hjournal hundoable fun _ => by rw [Files.put_self, hcontent]
  · intro hnot
    refine hrest s .refl h fun hsome => h.database ?_
    have hhad : j.databaseHadLive = true := by
      rw [hj.hadLive, decide_eq_true_eq]
      exact hsome
    cases hswitch : j.databaseSwitchStarted with
    | false => rfl
    | true => exact absurd ⟨hswitch, hhad⟩ hnot

/-! ## Recovery -/

variable (s₀ id) in
/-- An uncommitted journal is there, and everything it needs. -/
def Open (s : StateFiles β) : Prop :=
  ∃ j, recorded s = some (.journal j) ∧ j.committed = false ∧ Recorded s₀ id j ∧ Undoable s₀ id j s

/-- A committed journal is there, and the contents are `c`. -/
def Committed (c : Contents β) (s : StateFiles β) : Prop :=
  ∃ j, recorded s = some (.journal j) ∧ j.committed = true ∧ j.validate = .ok () ∧ contents s = c

/-- No journal is there, and the contents are `c`. -/
def Settled (c : Contents β) (s : StateFiles β) : Prop := recorded s = none ∧ contents s = c

variable {c : Contents β}

theorem Open.of_sameData (h : Open s₀ id s) (hdata : SameData s t)
    (hrecorded : recorded t = recorded s) : Open s₀ id t := by
  obtain ⟨j, hj, hopen, hrec, hundoable⟩ := h
  exact ⟨j, hrecorded.trans hj, hopen, hrec, hundoable.of_sameData hdata⟩

theorem Committed.of_sameData (h : Committed c s) (hdata : SameData s t)
    (hrecorded : recorded t = recorded s) : Committed c t := by
  obtain ⟨j, hj, hcommitted, hvalid, hcontents⟩ := h
  exact ⟨j, hrecorded.trans hj, hcommitted, hvalid, hdata.contents_eq.trans hcontents⟩

theorem Settled.of_sameData (h : Settled c s) (hdata : SameData s t)
    (hrecorded : recorded t = recorded s) : Settled c t :=
  ⟨hrecorded.trans h.1, hdata.contents_eq.trans h.2⟩

theorem Stranded.of_sameData (h : Stranded s) (hdata : SameData s t)
    (hrecorded : recorded t = recorded s) : Stranded t := by
  obtain ⟨j, hj, hopen, hswitch, hhad, hgone⟩ := h
  exact ⟨j, hrecorded.trans hj, hopen, hswitch, hhad, (hdata (.backups _) not_false).trans hgone⟩

/-- The backup of the journal is recovered: the journal file is the recorded journal. -/
theorem recoverFileBackup_wp : wp (recoverFileBackup .journal .journalBackup)
    (fun t => SameData s t ∧ recorded t = recorded s) (fun _ _ => False)
    (fun _ t => SameData s t ∧ t .journal = recorded s ∧ t .journalBackup = none ∧
      ∀ n, t (.journalPartial n) = s (.journalPartial n)) s := by
  unfold recoverFileBackup
  simp only [wp_bind, wp_get, wp_ite, wp_op, wp_pure]
  refine ⟨fun haway => ?_, fun hthere => ⟨fun hfile => ?_, fun hnone => ?_⟩⟩
  · replace haway := haway.1
    have hdata : SameData s (s.rename .journalBackup .journal) := sameData_rename trivial trivial
    refine ⟨⟨hdata, Files.visible_restore (by simp) haway⟩, hdata, ?_, Files.rename_source,
      fun n => Files.rename_of_ne (by simp) (by simp)⟩
    rw [Files.rename_target (by simp), recorded, Files.visible_of_none haway]
  · have hdata : SameData s (s.remove .journalBackup) := sameData_remove trivial
    obtain ⟨content, hcontent⟩ := Option.ne_none_iff_exists'.mp hfile.1
    refine ⟨⟨hdata, Files.visible_remove_backup (by simp) (by rw [hcontent]; rfl)⟩, hdata, ?_,
      Files.remove_self, fun n => Files.remove_of_ne (by simp)⟩
    rw [Files.remove_of_ne (by simp), recorded, Files.visible_of_some hcontent, hcontent]
  · have hbackup : s .journalBackup = none := by
      by_contra hbackup
      exact hnone ⟨fun haway => hthere ⟨haway, hbackup⟩, hbackup⟩
    refine ⟨.refl, ?_, hbackup, fun _ => trivial⟩
    rw [recorded, Files.visible, hbackup, Option.or_none]

theorem recorded_of_backup_none (h : s .journalBackup = none) : recorded s = s .journal := by
  rw [recorded, Files.visible, h, Option.or_none]

theorem settled_remove_journal (hbackup : s .journalBackup = none) (hcontents : contents s = c) :
    Settled c (s.remove .journal) ∧ s.remove .journal .journal = none ∧
      s.remove .journal .journalBackup = none := by
  have hdata : SameData s (s.remove .journal) := sameData_remove trivial
  have hbackup' : s.remove .journal .journalBackup = none := by
    rw [Files.remove_of_ne (by simp), hbackup]
  refine ⟨⟨?_, hdata.contents_eq.trans hcontents⟩, Files.remove_self, hbackup'⟩
  rw [recorded_of_backup_none hbackup', Files.remove_self]

theorem recover_wp_settled (h : Settled c s) :
    wp recoverInterruptedRestore (Settled c) (fun _ _ => False)
      (fun _ t => Settled c t ∧ t .journal = none ∧ t .journalBackup = none) s := by
  unfold recoverInterruptedRestore
  rw [wp_bind]
  refine recoverFileBackup_wp.mono (fun t ht => h.of_sameData ht.1 ht.2) (fun _ _ h => h) ?_
  rintro - t ⟨hdata, hjournal, hbackup, -⟩
  have hnone : t .journal = none := hjournal.trans h.1
  rw [wp_bind, wp_get, hnone]
  refine wp_pure.mpr ⟨h.of_sameData hdata ?_, hnone, hbackup⟩
  rw [recorded_of_backup_none hbackup, hjournal]

/-- An open state is rolled back, unless the recovery is cut off between the removal of the
    safety database and that of the journal. -/
theorem recover_wp_open (h : Open s₀ id s) :
    wp recoverInterruptedRestore
      (fun t => Open s₀ id t ∨ Stranded t ∨ Settled (contents s₀) t) (fun _ _ => False)
      (fun _ t => Settled (contents s₀) t ∧ t .journal = none ∧ t .journalBackup = none) s := by
  unfold recoverInterruptedRestore
  rw [wp_bind]
  refine recoverFileBackup_wp.mono (fun t ht => .inl (h.of_sameData ht.1 ht.2)) (fun _ _ h => h) ?_
  rintro - t ⟨hdata, hjournal, hbackup, -⟩
  obtain ⟨j, hj, hopen, hrec, hundoable⟩ := h
  have ht : recorded t = some (.journal j) := by rw [recorded_of_backup_none hbackup, hjournal, hj]
  rw [wp_bind, wp_get, hjournal, hj]
  show wp (lift j.validate >>= _) _ _ _ t
  rw [hrec.valid, wp_bind]
  refine wp_ret.mpr ?_
  rw [wp_bind, if_neg (by rw [hopen]; decide)]
  refine (rollbackFromJournal_wp hrec (hundoable.of_sameData hdata)).mono ?_ (fun _ _ h => h) ?_
  · rintro u ⟨hsame, hundoable' | ⟨hswitch, hhad, hgone⟩⟩
    · exact .inl ⟨j, hsame.recorded_eq.trans ht, hopen, hrec, hundoable'⟩
    · exact .inr (.inl ⟨j, hsame.recorded_eq.trans ht, hopen, hswitch, hhad, hgone⟩)
  · rintro - u ⟨hsame, hcontents⟩
    have hsettled := settled_remove_journal (hsame.2.trans hbackup) hcontents
    rw [wp_bind, wp_op, wp_pure]
    exact ⟨.inr (.inr hsettled.1), hsettled⟩

/-- Removing what a committed restore has moved away changes no content. -/
theorem removeOld_wp (swaps : List RestoreSwap) {s : StateFiles β} (hcontents : contents s = c) :
    wp (removeOld id swaps) (fun t => SameJournal s t ∧ contents t = c) (fun _ _ => False)
      (fun _ t => SameJournal s t ∧ contents t = c) s := by
  induction swaps generalizing s with
  | nil => exact wp_pure.mpr ⟨.refl, hcontents⟩
  | cons swap rest ih =>
    have hsame : SameJournal s (s.remove (.old id swap.component)) := sameJournal_remove not_false
    have hcontents' : contents (s.remove (.old id swap.component)) = c := by
      rw [← hcontents]
      exact contents_eq (Files.remove_of_ne (by simp)) fun _ => Files.remove_of_ne (by simp)
    unfold removeOld
    rw [wp_bind]
    refine removePathIfExists_wp (fun _ => ⟨hsame, hcontents'⟩) ?_
    refine (ih hcontents').mono ?_ (fun _ _ h => h) ?_
    · exact fun t ht => ⟨hsame.trans ht.1, ht.2⟩
    · exact fun _ t ht => ⟨hsame.trans ht.1, ht.2⟩

theorem cleanupCommittedRestore_wp (hcontents : contents s = c) :
    wp (cleanupCommittedRestore j) (fun t => SameJournal s t ∧ contents t = c) (fun _ _ => False)
      (fun _ t => SameJournal s t ∧ contents t = c) s := by
  unfold cleanupCommittedRestore
  rw [wp_bind]
  refine (removeOld_wp j.swaps hcontents).mono (fun _ h => h) (fun _ _ h => h) ?_
  rintro - t ⟨hsame, hcontents'⟩
  have hremoved : SameJournal s (t.remove (.backups j.safetyDatabaseName)) ∧
      contents (t.remove (.backups j.safetyDatabaseName)) = c := by
    refine ⟨hsame.trans (sameJournal_remove not_false), ?_⟩
    rw [← hcontents']
    exact contents_eq (Files.remove_of_ne (by simp)) fun _ => Files.remove_of_ne (by simp)
  unfold removeSafety
  rw [wp_ite]
  exact ⟨fun _ => removePathIfExists_wp (fun _ => hremoved) hremoved,
    fun _ => wp_pure.mpr ⟨hsame, hcontents'⟩⟩

theorem recover_wp_committed (h : Committed c s) :
    wp recoverInterruptedRestore (fun t => Committed c t ∨ Settled c t) (fun _ _ => False)
      (fun _ t => Settled c t ∧ t .journal = none ∧ t .journalBackup = none) s := by
  unfold recoverInterruptedRestore
  rw [wp_bind]
  refine recoverFileBackup_wp.mono (fun t ht => .inl (h.of_sameData ht.1 ht.2)) (fun _ _ h => h) ?_
  rintro - t ⟨hdata, hjournal, hbackup, -⟩
  obtain ⟨j, hj, hcommitted, hvalid, hcontents⟩ := h
  have ht : recorded t = some (.journal j) := by rw [recorded_of_backup_none hbackup, hjournal, hj]
  rw [wp_bind, wp_get, hjournal, hj]
  show wp (lift j.validate >>= _) _ _ _ t
  rw [hvalid, wp_bind]
  refine wp_ret.mpr ?_
  rw [wp_bind, if_pos hcommitted]
  refine (cleanupCommittedRestore_wp (hdata.contents_eq.trans hcontents)).mono ?_ (fun _ _ h => h) ?_
  · exact fun u hu => .inl ⟨j, hu.1.recorded_eq.trans ht, hcommitted, hvalid, hu.2⟩
  · rintro - u ⟨hsame, hcontents'⟩
    have hsettled := settled_remove_journal (hsame.2.trans hbackup) hcontents'
    rw [wp_bind, wp_op, wp_pure]
    exact ⟨.inr hsettled.1, hsettled⟩

/-- A stranded state stays so: no recovery gets past the missing safety database. -/
theorem recover_wp_stranded (h : Stranded s) :
    wp recoverInterruptedRestore Stranded (fun _ => Stranded) (fun _ _ => False) s := by
  unfold recoverInterruptedRestore
  rw [wp_bind]
  refine recoverFileBackup_wp.mono (fun t ht => h.of_sameData ht.1 ht.2) (fun _ _ h => h.elim) ?_
  rintro - t ⟨hdata, hjournal, hbackup, -⟩
  obtain ⟨j, hj, hopen, hswitch, hhad, hgone⟩ := h
  have hstranded : Stranded t := by
    refine ⟨j, ?_, hopen, hswitch, hhad, (hdata (.backups _) not_false).trans hgone⟩
    rw [recorded_of_backup_none hbackup, hjournal, hj]
  rw [wp_bind, wp_get, hjournal, hj]
  show wp (lift j.validate >>= _) _ _ _ t
  rw [wp_bind, wp_lift]
  refine ⟨fun _ _ => hstranded, fun _ _ => ?_⟩
  rw [wp_bind, if_neg (by rw [hopen]; decide), rollbackFromJournal, wp_ite]
  refine ⟨fun _ => ?_, fun hnot => absurd ⟨hswitch, hhad⟩ hnot⟩
  rw [wp_bind, copyDatabase, wp_bind, wp_get, (hdata (.backups _) not_false).trans hgone]
  exact wp_fail.mpr hstranded

end ApplicationState

end Anole
