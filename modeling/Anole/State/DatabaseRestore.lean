import Anole.State.Snapshot

/-!
# Restoring the database

A restore goes through twelve steps (`RestoreStep`). `Passes` says when a step goes through,
on the files before the restore; `Harmless` says when a failure at the step leaves the live
database as it was and no staged copy. `restore_wp` is the run of a restore: it fails at the
first step that does not pass, and is then harmless or not.

Main result:

* `restore_contract`: exactly when a restore repairs the live database, and keeps it when
  it fails.

**Deviation from the documentation.** `restore` promises an error "without replacing the
live database". An error of the check after the switch comes with the new content in place,
and a live database that fails its checks cannot be restored over at all, because its
snapshot is refused. Three early exits leave the staged copy behind.
-/

open Common Common.Proc

namespace Anole

namespace MaintenanceService

variable {δ : Type}

/-- The steps of `restore` (lines 167–211) and `prepare_restore` (lines 273–337), in order. -/
inductive RestoreStep where
  | distinctPaths | checkBackup | createStageParent | copyToStage | migrateStage | checkStage
  | reopenStage | snapshot | createParent | copyToLive | removeStage | checkLive

/-- The place of a step in the order. -/
def RestoreStep.rank : RestoreStep → ℕ
  | distinctPaths => 0
  | checkBackup => 1
  | createStageParent => 2
  | copyToStage => 3
  | migrateStage => 4
  | checkStage => 5
  | reopenStage => 6
  | snapshot => 7
  | createParent => 8
  | copyToLive => 9
  | removeStage => 10
  | checkLive => 11

theorem RestoreStep.rank_injective : Function.Injective RestoreStep.rank := by
  intro a b h
  cases a <;> cases b <;> first | rfl | exact absurd h (by decide)

section Steps

variable (sqlite : Sqlite δ) (w : RestoreWorld δ) (database backup : DatabaseFile)
  (s : DatabaseFiles δ)

/-- The selected backup arrives in the stage and becomes `m` there. -/
def Migrates (m : δ) : Prop :=
  ∃ b, s backup = some b ∧ sqlite.migrate (w.toStage.arrives b) = .ok m

/-- The step goes through, given that the steps before it have. -/
def Passes : RestoreStep → Prop
  | .distinctPaths => w.resolve = none ∧ backup ≠ database
  | .checkBackup => ∃ b, s backup = some b ∧ w.source.opening = none ∧ w.source.version = none ∧
      (∃ version, sqlite.schemaVersion b = .ok version ∧ version ≤ databaseSchemaVersion) ∧
      w.source.check = none ∧ sqlite.Healthy b
  | .createStageParent => w.createStageParent = none
  | .copyToStage => ∃ b, s backup = some b ∧ Copies sqlite w.toStage .portable b sqlite.empty
  | .migrateStage => w.migrate = none ∧ ∃ m, Migrates sqlite w backup s m
  | .checkStage => w.checkStage.opening = none ∧ w.checkStage.check = none ∧
      ∃ m, Migrates sqlite w backup s m ∧ sqlite.Healthy m
  | .reopenStage => w.reopenStage.opening = none ∧ w.reopenStage.version = none ∧
      ∃ m version, Migrates sqlite w backup s m ∧ sqlite.schemaVersion m = .ok version
  | .snapshot => ∀ d, s database = some d → Snaps sqlite w.snapshot database "pre-restore" d s
  | .createParent => w.createParent = none
  | .copyToLive => ∃ m, Migrates sqlite w backup s m ∧
      Copies sqlite w.toLive .live m ((s database).getD sqlite.empty)
  | .removeStage => w.removeStage = none
  | .checkLive => w.checkLive.opening = none ∧ w.checkLive.check = none ∧
      ∃ m, Migrates sqlite w backup s m ∧ sqlite.Healthy (w.toLive.arrives m)

/-- After a check that found the new content `x` of the live database bad, the snapshot of its
    old content `d` is copied back. -/
def ComesBack (x d : δ) : Prop :=
  Checks sqlite w.checkLive database x ∧
    Copies sqlite w.copyBack .live (w.snapshot.copy.arrives d) x

/-- A failure at the step leaves the live database as it was and no staged copy. -/
def Harmless : RestoreStep → Prop
  | .distinctPaths | .checkBackup | .createStageParent => True
  | .copyToStage => Opens w.toStage → w.removeStage = none
  | .migrateStage | .checkStage => w.removeStage = none
  | .reopenStage | .snapshot | .createParent => False
  | .copyToLive => w.removeStage = none ∧ (Opens w.toLive → s database ≠ none)
  | .removeStage => False
  | .checkLive => ∃ d m, s database = some d ∧ Migrates sqlite w backup s m ∧
      ((ComesBack sqlite w database (w.toLive.arrives m) d ∧
          w.copyBack.arrives (w.snapshot.copy.arrives d) = d) ∨
        (¬ComesBack sqlite w database (w.toLive.arrives m) d ∧ w.toLive.arrives m = d))

/-- The steps before this one go through. -/
def PassedBefore (step : RestoreStep) : Prop :=
  ∀ earlier, earlier.rank < step.rank → Passes sqlite w database backup s earlier

/-- The step is the first that does not go through. -/
def FailsFirst (step : RestoreStep) : Prop :=
  PassedBefore sqlite w database backup s step ∧ ¬Passes sqlite w database backup s step

/-- The live database is as it was in `s`, and there is no staged copy. -/
def Untouched (t : DatabaseFiles δ) : Prop :=
  t database = s database ∧ t (stagePath w database) = none

/-- A restore that ended in `t` with an error: the first step that did not go through accounts
    for what is left. -/
def FailedIn (t : DatabaseFiles δ) : Prop :=
  ∃ step, FailsFirst sqlite w database backup s step ∧
    (Untouched w database s t ↔ Harmless sqlite w database backup s step)

end Steps

variable {sqlite : Sqlite δ} {w : RestoreWorld δ} {database backup : DatabaseFile}
  {s t : DatabaseFiles δ} {step : RestoreStep} {m : δ}

theorem PassedBefore.next (h : PassedBefore sqlite w database backup s step)
    (step' : RestoreStep) (hstep : Passes sqlite w database backup s step) (hrank : step'.rank = step.rank + 1) :
    PassedBefore sqlite w database backup s step' := by
  intro earlier hearlier
  rcases Nat.lt_succ_iff_lt_or_eq.mp (hrank ▸ hearlier) with hlt | heq
  · exact h earlier hlt
  · rwa [RestoreStep.rank_injective heq]

theorem FailsFirst.unique {step' : RestoreStep}
    (h : FailsFirst sqlite w database backup s step)
    (h' : FailsFirst sqlite w database backup s step') : step = step' := by
  rcases Nat.lt_trichotomy step.rank step'.rank with hlt | heq | hlt
  · exact absurd (h'.1 step hlt) h.2
  · exact RestoreStep.rank_injective heq
  · exact absurd (h.1 step' hlt) h'.2

theorem Migrates.unique {m' : δ} (h : Migrates sqlite w backup s m)
    (h' : Migrates sqlite w backup s m') : m = m' := by
  obtain ⟨b, hb, hm⟩ := h
  obtain ⟨b', hb', hm'⟩ := h'
  rw [hb] at hb'
  cases hb'
  rw [hm] at hm'
  cases hm'
  rfl

/-- A step that fails. -/
theorem FailedIn.intro (hbefore : PassedBefore sqlite w database backup s step)
    (hfails : ¬Passes sqlite w database backup s step)
    (hiff : Untouched w database s t ↔ Harmless sqlite w database backup s step) :
    FailedIn sqlite w database backup s t := ⟨step, ⟨hbefore, hfails⟩, hiff⟩

theorem stage_ne : stagePath w database ≠ database := temporary_ne

/-! ## The staged copy -/

theorem checkBackup_wp (database : DatabaseFile) :
    wp (checkBackup sqlite w backup) (fun _ => True)
      (fun _ t => ¬Passes sqlite w database backup s .checkBackup ∧ t = s)
      (fun _ t => Passes sqlite w database backup s .checkBackup ∧ t = s) s := by
  rw [checkBackup, wp_bind]
  cases hs : s backup with
  | none =>
    refine (openReadOnly_none hs).mono (fun _ h => h) ?_ (fun _ _ h => h.elim)
    rintro e t rfl
    refine ⟨?_, rfl⟩
    rintro ⟨b, hb, -⟩
    rw [hs] at hb
    cases hb
  | some b =>
    have hsame {b' : δ} (hb' : s backup = some b') : b' = b := by
      rw [hs] at hb'
      cases hb'
      rfl
    refine (openReadOnly_wp hs).mono (fun _ h => h) ?_ ?_
    · rintro e t ⟨hopening, rfl⟩
      exact ⟨fun ⟨_, _, h, _⟩ => hopening h, rfl⟩
    rintro c t ⟨hopening, rfl, rfl⟩
    rw [wp_bind]
    refine readSchemaVersion_wp.mono (fun _ h => h) ?_ ?_
    · rintro e t ⟨rfl, hnot⟩
      refine ⟨?_, rfl⟩
      rintro ⟨b', hb', -, hversion, ⟨version, hread, -⟩, -⟩
      cases hsame hb'
      exact hnot ⟨hversion, version, hread⟩
    rintro version t ⟨rfl, hversion, hread⟩
    rw [wp_bind, wp_lift]
    have hsupported : ensureSupportedSchema version = .ok () ↔ version ≤ databaseSchemaVersion := by
      rw [ensureSupportedSchema]
      split_ifs with hnewer
      · simpa using hnewer
      · simpa using hnewer
    constructor
    · intro e he
      refine ⟨?_, rfl⟩
      rintro ⟨b', hb', -, -, ⟨version', hread', hle⟩, -⟩
      cases hsame hb'
      rw [hread] at hread'
      cases hread'
      rw [hsupported.mpr hle] at he
      cases he
    rintro ⟨⟩ hle
    rw [hsupported] at hle
    rw [wp_bind]
    refine checkContent_wp.mono (fun _ h => h) ?_ ?_
    · rintro e t ⟨rfl, hnot⟩
      refine ⟨?_, rfl⟩
      rintro ⟨b', hb', -, -, -, hcheck, hhealthy⟩
      cases hsame hb'
      obtain ⟨report, hreport, -⟩ := Sqlite.healthy_iff.mp hhealthy
      exact hnot ⟨hcheck, report, hreport⟩
    rintro report t ⟨rfl, hcheck, hreport⟩
    rw [wp_bind, wp_ite, wp_fail, wp_pure, wp_pure]
    constructor
    · intro hnot
      refine ⟨?_, rfl⟩
      rintro ⟨b', hb', -, -, -, -, hhealthy⟩
      cases hsame hb'
      obtain ⟨report', hreport', hok⟩ := Sqlite.healthy_iff.mp hhealthy
      rw [hreport] at hreport'
      cases hreport'
      exact hnot hok
    · intro hok
      exact ⟨⟨c, hs, hopening, hversion, ⟨version, hread, hle⟩, hcheck,
        Sqlite.healthy_iff.mpr ⟨report, hreport, by simpa using hok⟩⟩, rfl⟩

theorem stage_cleanup_wp (hlive : t database = s database) :
    wp (removeDatabaseFiles w.removeStage (stagePath w database) : Body δ Unit) (fun _ => True)
      (fun _ u => Untouched w database s u ↔
        (t (stagePath w database) ≠ none → w.removeStage = none))
      (fun _ u => Untouched w database s u ↔
        (t (stagePath w database) ≠ none → w.removeStage = none)) t := by
  refine cleanup_wp (fun hthere hfault => ?_) (fun hgoes => ?_)
  · exact ⟨fun h => absurd h.2 hthere, fun h => absurd (h hthere) hfault⟩
  · refine ⟨fun _ => hgoes, fun _ => ⟨?_, Files.remove_self⟩⟩
    rw [Files.remove_of_ne stage_ne.symm, hlive]

theorem stageBackup_wp (hfree : s (stagePath w database) = none)
    (hbefore : PassedBefore sqlite w database backup s .copyToStage) :
    wp (stageBackup sqlite w backup (stagePath w database)) (fun _ => True)
      (fun _ t => FailedIn sqlite w database backup s t)
      (fun _ t => PassedBefore sqlite w database backup s .reopenStage ∧
        ∃ m, Migrates sqlite w backup s m ∧ t = s.put (stagePath w database) m) s := by
  obtain ⟨b, hb, -⟩ := hbefore .checkBackup (by decide)
  have hsame {b' : δ} (hb' : s backup = some b') : b' = b := by
    rw [hb] at hb'
    cases hb'
    rfl
  have hlive (x : δ) : (s.put (stagePath w database) x) database = s database :=
    Files.put_of_ne stage_ne.symm
  have hput (x y : δ) : (s.put (stagePath w database) x).put (stagePath w database) y =
      s.put (stagePath w database) y := Function.update_idem ..
  -- once the stage exists, a failure is harmless exactly if it can be removed
  have hstaged {step : RestoreStep} {x : δ}
      (hbefore : PassedBefore sqlite w database backup s step)
      (hfails : ¬Passes sqlite w database backup s step)
      (hharm : Harmless sqlite w database backup s step ↔ w.removeStage = none) :
      wp (removeDatabaseFiles w.removeStage (stagePath w database) : Body δ Unit) (fun _ => True)
        (fun _ => FailedIn sqlite w database backup s)
        (fun _ => FailedIn sqlite w database backup s) (s.put (stagePath w database) x) := by
    refine (stage_cleanup_wp (hlive x)).mono (fun _ h => h) ?_ ?_ <;>
    · intro _ u hu
      refine FailedIn.intro hbefore hfails (hu.trans ?_)
      rw [Files.put_self, hharm]
      simp
  rw [stageBackup, wp_orCleanup, wp_bind]
  refine (onlineCopy_wp hb).mono (fun _ h => h) ?_ ?_
  · rintro e t ⟨hnot, hleft⟩
    rw [hfree] at hnot
    have hfails : ¬Passes sqlite w database backup s .copyToStage := by
      rintro ⟨b', hb', hcopies⟩
      rw [hsame hb'] at hcopies
      exact hnot hcopies
    rcases hleft with ⟨hopens, rfl⟩ | ⟨hopens, x, rfl, -⟩
    · refine (stage_cleanup_wp rfl).mono (fun _ h => h) ?_ ?_ <;>
      · intro _ u hu
        refine FailedIn.intro hbefore hfails (hu.trans ?_)
        rw [hfree, Harmless]
        simp [hopens]
    · refine hstaged hbefore hfails ?_
      rw [Harmless]
      simp [hopens]
  rintro - t ⟨hcopies, rfl⟩
  rw [hfree] at hcopies
  have hbefore := hbefore.next .migrateStage ⟨b, hb, hcopies⟩ rfl
  simp only [openForRestoreStaging, wp_bind, wp_check, wp_get, wp_lift, wp_op, Files.put_self,
    Option.getD_some, true_and, hput]
  refine ⟨fun e he => hstaged hbefore ?_ Iff.rfl, fun hnone => ⟨fun e he => ?_, fun m hm => ?_⟩⟩
  · rintro ⟨hnone, -⟩
    rw [hnone] at he
    cases he
  · refine hstaged hbefore ?_ Iff.rfl
    rintro ⟨-, m, b', hb', hm⟩
    rw [hsame hb', he] at hm
    cases hm
  have hmigrates : Migrates sqlite w backup s m := ⟨b, hb, hm⟩
  have hbefore := hbefore.next .checkStage ⟨hnone, m, hmigrates⟩ rfl
  refine (integrityCheckPath_wp Files.put_self).mono (fun _ h => h) ?_ ?_
  · rintro e t ⟨rfl, hnot⟩
    refine hstaged hbefore ?_ Iff.rfl
    rintro ⟨hopening, hcheck, m', hm', hhealthy⟩
    rw [← hmigrates.unique hm'] at hhealthy
    obtain ⟨report, hreport, -⟩ := Sqlite.healthy_iff.mp hhealthy
    exact hnot ⟨hopening, hcheck, report, hreport⟩
  rintro report t ⟨rfl, ⟨hopening, hcheck, -⟩, hreport⟩
  rw [wp_ite, wp_fail, wp_pure]
  constructor
  · intro hnot
    refine hstaged hbefore ?_ Iff.rfl
    rintro ⟨-, -, m', hm', hhealthy⟩
    rw [← hmigrates.unique hm'] at hhealthy
    obtain ⟨report', hreport', hok⟩ := Sqlite.healthy_iff.mp hhealthy
    rw [hreport] at hreport'
    cases hreport'
    exact hnot hok
  · intro hok
    rw [wp_pure]
    refine ⟨hbefore.next .reopenStage ⟨hopening, hcheck, m, hmigrates, ?_⟩ rfl, m, hmigrates, rfl⟩
    exact Sqlite.healthy_iff.mpr ⟨report, hreport, by simpa using hok⟩

theorem prepareRestore_wp (hfree : s (stagePath w database) = none)
    (hbefore : PassedBefore sqlite w database backup s .checkBackup) :
    wp (prepareRestore sqlite w database backup) (fun _ => True)
      (fun _ t => FailedIn sqlite w database backup s t)
      (fun prepared t => PassedBefore sqlite w database backup s .snapshot ∧
        prepared.stagePath = stagePath w database ∧
        ∃ m, Migrates sqlite w backup s m ∧ t = s.put (stagePath w database) m) s := by
  rw [prepareRestore, wp_bind]
  refine (checkBackup_wp database).mono (fun _ h => h) ?_ ?_
  · rintro e t ⟨hfails, rfl⟩
    exact FailedIn.intro hbefore hfails ⟨fun _ => trivial, fun _ => ⟨rfl, hfree⟩⟩
  rintro version t ⟨hpasses, rfl⟩
  have hbefore := hbefore.next .createStageParent hpasses rfl
  rw [wp_bind, createDirAll]
  refine check_wp.mono (fun _ h => h) ?_ ?_
  · rintro e t ⟨hfails, rfl⟩
    exact FailedIn.intro hbefore hfails ⟨fun _ => trivial, fun _ => ⟨rfl, hfree⟩⟩
  rintro - t ⟨hcreated, rfl⟩
  rw [wp_bind]
  refine (stageBackup_wp hfree (hbefore.next .copyToStage hcreated rfl)).mono (fun _ h => h) (fun _ _ h => h) ?_
  rintro report u ⟨hbefore, m, hm, rfl⟩
  -- the two exits that leave the stage behind
  have hleft {e : AnoleError} (hfails : ¬Passes sqlite w database backup t .reopenStage) :
      FailedIn sqlite w database backup t (t.put (stagePath w database) m) := by
    refine FailedIn.intro hbefore hfails ⟨fun h => ?_, fun h => h.elim⟩
    rw [Untouched, Files.put_self] at h
    cases h.2
  rw [wp_bind]
  refine (openReadOnly_wp Files.put_self).mono (fun _ h => h) ?_ ?_
  · rintro e u ⟨hopening, rfl⟩
    exact hleft (e := e) fun h => hopening h.1
  rintro c u ⟨hopening, rfl, rfl⟩
  rw [wp_bind]
  refine readSchemaVersion_wp.mono (fun _ h => h) ?_ ?_
  · rintro e u ⟨rfl, hnot⟩
    refine hleft (e := e) ?_
    rintro ⟨-, hversion, m', version', hm', hread⟩
    rw [← hm.unique hm'] at hread
    exact hnot ⟨hversion, version', hread⟩
  rintro restored u ⟨rfl, hversion, hread⟩
  rw [wp_pure]
  exact ⟨hbefore.next .snapshot ⟨hopening, hversion, c, restored, hm, hread⟩ rfl, rfl, c, hm, rfl⟩

/-! ## The switch -/

theorem outside_database : Outside database database :=
  ⟨fun _ => ne_backups, fun name label nonce h => by
    have hsize := congrArg sizeOf h
    simp only [DatabaseFile.temporary.sizeOf_spec, DatabaseFile.backups.sizeOf_spec] at hsize
    omega⟩

theorem outside_stage : Outside database (stagePath w database) := by
  refine ⟨fun name h => ?_, fun name label nonce h => ?_⟩
  · cases h
  rw [stagePath, DatabaseFile.temporary.injEq] at h
  exact ne_backups h.1

/-- The files of a restore are not there yet. -/
structure FreshRestore (w : RestoreWorld δ) (database : DatabaseFile) (s : DatabaseFiles δ) :
    Prop where
  stage : s (stagePath w database) = none
  snapshot : FreshSnapshot w.snapshot database "pre-restore" s

/-- Where the content of the live database is kept during the switch. -/
def Kept (w : RestoreWorld δ) (database : DatabaseFile) (s t : DatabaseFiles δ)
    (safety : Option DatabaseFile) : Prop :=
  (s database = none ∧ safety = none) ∨ ∃ d path, s database = some d ∧ safety = some path ∧
    path ≠ database ∧ path ≠ stagePath w database ∧ t path = some (w.snapshot.copy.arrives d)

theorem safetySnapshot_wp (backup : DatabaseFile) (hfresh : FreshRestore w database s)
    (ht : t = s.put (stagePath w database) m) :
    wp (safetySnapshot sqlite w database) (fun _ => True)
      (fun _ u => ¬Passes sqlite w database backup s .snapshot ∧
        u database = s database ∧ u (stagePath w database) = some m)
      (fun safety u => Passes sqlite w database backup s .snapshot ∧
        u database = s database ∧ u (stagePath w database) = some m ∧
        Kept w database s u safety) t := by
  have hlive : t database = s database := by rw [ht, Files.put_of_ne stage_ne.symm]
  have hstage : t (stagePath w database) = some m := by rw [ht, Files.put_self]
  rw [safetySnapshot, wp_bind, wp_get, hlive]
  cases hs : s database with
  | none =>
    rw [if_neg (by simp), wp_pure]
    refine ⟨fun d hd => ?_, hlive.trans hs, hstage, .inl ⟨hs, rfl⟩⟩
    rw [hs] at hd
    cases hd
  | some d =>
    rw [if_pos (by simp), wp_bind]
    -- the stage is not one of the files of the snapshot
    have hother (file : DatabaseFile) (h : file ≠ stagePath w database) : t file = s file := by
      rw [ht, Files.put_of_ne h]
    have hback (name : String) : DatabaseFile.backups database name ≠ stagePath w database :=
      fun h => outside_stage.1 name h.symm
    have hsnaps : Snaps sqlite w.snapshot database "pre-restore" d t ↔
        Passes sqlite w database backup s .snapshot := by
      have hprunes (removeOld : String → Option String) (names : List String) :
          Prunes removeOld database names t ↔ Prunes removeOld database names s := by
        refine forall₂_congr fun name _ => ?_
        rw [hother _ (hback name)]
      constructor
      · rintro ⟨hcreate, hbacks, entries, hentries, h⟩ d' hd'
        rw [hs] at hd'
        cases hd'
        exact ⟨hcreate, hbacks, entries, hentries, (hprunes _ _).mp h⟩
      · intro h
        obtain ⟨hcreate, hbacks, entries, hentries, h⟩ := h d hs
        exact ⟨hcreate, hbacks, entries, hentries, (hprunes _ _).mpr h⟩
    have hfresh' : FreshSnapshot w.snapshot database "pre-restore" t := by
      refine ⟨(hother _ (hback _)).trans hfresh.snapshot.destination,
        (hother _ fun h => ?_).trans hfresh.snapshot.partialFile⟩
      exact outside_stage.2 _ _ _ h.symm
    refine (createAutomaticSnapshot_wp (hlive.trans hs) hfresh').mono (fun _ h => h) ?_ ?_
    · rintro e u ⟨hnot, hout⟩
      exact ⟨fun h => hnot (hsnaps.mpr h), (hout _ outside_database).trans (hlive.trans hs),
        (hout _ outside_stage).trans hstage⟩
    · rintro report u ⟨hsnapped, hout, hpath, hthere⟩
      rw [wp_pure]
      refine ⟨hsnaps.mp hsnapped, (hout _ outside_database).trans (hlive.trans hs),
        (hout _ outside_stage).trans hstage, .inr ⟨d, _, hs, rfl, ?_, ?_, ?_⟩⟩
      · rw [hpath]
        exact ne_backups.symm
      · rw [hpath]
        exact hback _
      · rw [hpath]
        exact hthere

/-- The check after the switch, over a live database that holds `x`. -/
theorem checkRestored_wp {safety : Option DatabaseFile} (hm : Migrates sqlite w backup s m)
    (hbefore : PassedBefore sqlite w database backup s .checkLive)
    (hlive : t database = some (w.toLive.arrives m)) (hstage : t (stagePath w database) = none)
    (hkept : Kept w database s t safety) :
    wp (checkRestored sqlite w database safety) (fun _ => True)
      (fun _ u => FailedIn sqlite w database backup s u)
      (fun _ u => Passes sqlite w database backup s .checkLive ∧ u = t) t := by
  -- the new content stays in place
  have hstays (hfails : ¬Passes sqlite w database backup s .checkLive)
      (hnot : ∀ d, s database = some d →
        ¬ComesBack sqlite w database (w.toLive.arrives m) d) :
      FailedIn sqlite w database backup s t := by
    refine FailedIn.intro hbefore hfails ⟨?_, ?_⟩
    · rintro ⟨hsame, -⟩
      rw [hlive] at hsame
      exact ⟨_, m, hsame.symm, hm, .inr ⟨hnot _ hsame.symm, rfl⟩⟩
    · rintro ⟨d, m', hd, hm', ⟨hback, -⟩ | ⟨-, hsame⟩⟩
      · rw [← hm.unique hm'] at hback
        exact absurd hback (hnot d hd)
      · rw [← hm.unique hm'] at hsame
        exact ⟨by rw [hlive, hd, hsame], hstage⟩
  rw [checkRestored, wp_bind]
  refine (integrityCheckPath_wp hlive).mono (fun _ h => h) ?_ ?_
  · rintro e u ⟨rfl, hnot⟩
    refine hstays ?_ fun d _ h => hnot h.1
    rintro ⟨hopening, hcheck, m', hm', hhealthy⟩
    rw [← hm.unique hm'] at hhealthy
    obtain ⟨report, hreport, -⟩ := Sqlite.healthy_iff.mp hhealthy
    exact hnot ⟨hopening, hcheck, report, hreport⟩
  rintro report u ⟨rfl, hchecks, hreport⟩
  have hhealthy_iff : sqlite.Healthy (w.toLive.arrives m) ↔ report.ok = true := by
    refine ⟨fun h => ?_, fun h => Sqlite.healthy_iff.mpr ⟨report, hreport, h⟩⟩
    obtain ⟨report', hreport', hok⟩ := Sqlite.healthy_iff.mp h
    rw [hreport] at hreport'
    cases hreport'
    exact hok
  rw [wp_ite, wp_pure]
  constructor
  · intro hbad
    have hfails : ¬Passes sqlite w database backup s .checkLive := by
      rintro ⟨-, -, m', hm', hhealthy⟩
      rw [← hm.unique hm', hhealthy_iff] at hhealthy
      exact hbad hhealthy
    rcases hkept with ⟨hs, rfl⟩ | ⟨d, path, hs, rfl, hne, hne', hthere⟩
    · rw [wp_fail]
      refine hstays hfails fun d hd => ?_
      rw [hs] at hd
      cases hd
    · simp only [wp_bind, wp_attempt, wp_fail]
      refine (onlineCopy_wp hthere).mono (fun _ h => h) ?_ ?_
      · rintro e v ⟨hnot, hleft⟩
        have hv : v = u := by
          rcases hleft with ⟨-, rfl⟩ | ⟨-, x, rfl, hx⟩
          · rfl
          · rw [hx rfl, hlive, Option.getD_some, Files.put, ← hlive, Function.update_eq_self]
        rw [hlive, Option.getD_some] at hnot
        rw [hv]
        refine hstays hfails fun d' hd' h => hnot ?_
        rw [hs] at hd'
        cases hd'
        exact h.2
      · rintro - v ⟨hcopies, rfl⟩
        rw [hlive, Option.getD_some] at hcopies
        refine FailedIn.intro hbefore hfails ⟨?_, ?_⟩
        · rintro ⟨hsame, -⟩
          rw [Files.put_self, hs] at hsame
          exact ⟨d, m, hs, hm, .inl ⟨⟨hchecks, hcopies⟩, Option.some.inj hsame⟩⟩
        · rintro ⟨d', m', hd', hm', ⟨-, hsame⟩ | ⟨hnot, -⟩⟩
          · rw [hs] at hd'
            cases hd'
            refine ⟨by rw [Files.put_self, hs, hsame], ?_⟩
            rw [Files.put_of_ne stage_ne, hstage]
          · rw [hs] at hd'
            cases hd'
            rw [← hm.unique hm'] at hnot
            exact absurd ⟨hchecks, hcopies⟩ hnot
  · intro hok
    exact ⟨⟨hchecks.1, hchecks.2.1, m, hm, hhealthy_iff.mpr (by simpa using hok)⟩, rfl⟩

theorem restore_wp (sqlite : Sqlite δ) (backup : DatabaseFile) (hfresh : FreshRestore w database s) :
    wp (restore sqlite w database backup) (fun _ => True)
      (fun _ t => FailedIn sqlite w database backup s t)
      (fun _ t => (∀ step, Passes sqlite w database backup s step) ∧
        ∃ m, Migrates sqlite w backup s m ∧ t database = some (w.toLive.arrives m)) s := by
  have hstart : PassedBefore sqlite w database backup s .distinctPaths :=
    fun earlier h => absurd h (Nat.not_lt_zero _)
  rw [restore, wp_bind]
  refine ensureDistinctPaths_wp.mono (fun _ h => h) ?_ ?_
  · rintro e t ⟨hnot, rfl⟩
    exact FailedIn.intro hstart hnot ⟨fun _ => trivial, fun _ => ⟨rfl, hfresh.stage⟩⟩
  rintro - t ⟨hpaths, rfl⟩
  rw [wp_bind]
  refine (prepareRestore_wp hfresh.stage (hstart.next .checkBackup hpaths rfl)).mono (fun _ h => h)
    (fun _ _ h => h) ?_
  rintro prepared u ⟨hbefore, hpath, m, hm, hu⟩
  rw [wp_bind]
  refine (safetySnapshot_wp backup hfresh hu).mono (fun _ h => h) ?_ ?_
  · rintro e v ⟨hfails, -, hstage⟩
    refine FailedIn.intro hbefore hfails ⟨fun h => ?_, fun h => h.elim⟩
    rw [h.2] at hstage
    cases hstage
  rintro safety v ⟨hsnapped, hlive, hstage, hkept⟩
  have hbefore := hbefore.next .createParent hsnapped rfl
  rw [wp_bind, createDirAll]
  refine check_wp.mono (fun _ h => h) ?_ ?_
  · rintro e v' ⟨hfails, rfl⟩
    refine FailedIn.intro hbefore hfails ⟨fun h => ?_, fun h => h.elim⟩
    rw [h.2] at hstage
    cases hstage
  rintro - v' ⟨hcreated, rfl⟩
  have hbefore := hbefore.next .copyToLive hcreated rfl
  rw [wp_bind, wp_orCleanup, hpath]
  refine (onlineCopy_wp hstage).mono (fun _ h => h) ?_ ?_
  · rintro e x ⟨hnot, hleft⟩
    rw [hlive] at hnot
    have hfails : ¬Passes sqlite w database backup t .copyToLive := by
      rintro ⟨m', hm', hcopies⟩
      rw [← hm.unique hm'] at hcopies
      exact hnot hcopies
    have hstage' : x (stagePath w database) = some m := by
      rcases hleft with ⟨-, rfl⟩ | ⟨-, y, rfl, -⟩
      · exact hstage
      · rw [Files.put_of_ne stage_ne, hstage]
    have hsame : x database = t database ↔ (Opens w.toLive → t database ≠ none) := by
      rcases hleft with ⟨hopens, rfl⟩ | ⟨hopens, y, rfl, hy⟩
      · exact ⟨fun _ h => absurd h hopens, fun _ => hlive⟩
      · rw [Files.put_self, hy rfl, hlive]
        cases ht : t database with
        | none => simp [hopens]
        | some d => simp
    have hrem : wp (removeDatabaseFiles w.removeStage (stagePath w database) : Body δ Unit)
        (fun _ => True) (fun _ => FailedIn sqlite w database backup t)
        (fun _ => FailedIn sqlite w database backup t) x := by
      refine cleanup_wp (fun _ hfault => ?_) (fun hgoes => ?_)
      · refine FailedIn.intro hbefore hfails ⟨fun h => ?_, fun h => absurd h.1 hfault⟩
        rw [h.2] at hstage'
        cases hstage'
      · refine FailedIn.intro hbefore hfails ?_
        rw [Untouched, Files.remove_of_ne stage_ne.symm, hsame, Harmless]
        refine ⟨fun h => ⟨hgoes (by simp [hstage']), h.1⟩, fun h => ⟨h.2, Files.remove_self⟩⟩
    exact hrem
  rintro - x ⟨hcopies, rfl⟩
  rw [hlive] at hcopies
  have hbefore := hbefore.next .removeStage ⟨m, hm, hcopies⟩ rfl
  have hstage' : (v'.put database (w.toLive.arrives m)) (stagePath w database) = some m := by
    rw [Files.put_of_ne stage_ne, hstage]
  rw [wp_bind]
  refine removeIfExists_wp.mono (fun _ h => h) ?_ ?_
  · rintro e x ⟨⟨-, hfault⟩, rfl⟩
    refine FailedIn.intro hbefore hfault ⟨fun h => ?_, fun h => h.elim⟩
    rw [h.2] at hstage'
    cases hstage'
  rintro - x ⟨hgoes, rfl⟩
  have hbefore := hbefore.next .checkLive (hgoes (by simp [hstage'])) rfl
  have hnew : ((v'.put database (w.toLive.arrives m)).remove (stagePath w database)) database =
      some (w.toLive.arrives m) := by
    rw [Files.remove_of_ne stage_ne.symm, Files.put_self]
  have hkept' : Kept w database t
      ((v'.put database (w.toLive.arrives m)).remove (stagePath w database)) safety := by
    rcases hkept with hkept | ⟨d, path, hs, hsafety, hne, hne', hthere⟩
    · exact .inl hkept
    · refine .inr ⟨d, path, hs, hsafety, hne, hne', ?_⟩
      rw [Files.remove_of_ne hne', Files.put_of_ne hne, hthere]
  rw [wp_bind]
  refine (checkRestored_wp hm hbefore hnew Files.remove_self hkept').mono (fun _ h => h)
    (fun _ _ h => h) ?_
  rintro report y ⟨hchecked, rfl⟩
  rw [wp_pure]
  refine ⟨fun step => ?_, m, hm, hnew⟩
  rcases Nat.lt_or_ge step.rank RestoreStep.checkLive.rank with hlt | hge
  · exact hbefore step hlt
  · cases step <;> first | exact hchecked | exact absurd hge (by decide)

/-! ## The contract -/

/-- Nothing is refused, no lock is held and the disk keeps what is written. -/
structure CopyWorld.Calm (w : CopyWorld δ) : Prop where
  opens : Opens w
  transfer : w.transfer = none
  arrives : ∀ x, w.arrives x = x
  portable : w.portable = none

structure Reading.Calm (r : Reading) : Prop where
  opening : r.opening = none
  version : r.version = none
  check : r.check = none

structure SnapshotWorld.Calm (w : SnapshotWorld δ) : Prop where
  createBackups : w.createBackups = none
  resolve : w.resolve = none
  createParent : w.createParent = none
  copy : CopyWorld.Calm w.copy
  check : Reading.Calm w.check
  sync : w.sync = none
  commit : w.commit = none
  reopen : Reading.Calm w.reopen
  metadata : w.metadata = none
  hash : w.hash = none
  listing : ∃ entries, w.listing = .ok entries
  removeOld : ∀ name, w.removeOld name = none

structure RestoreWorld.Calm (w : RestoreWorld δ) : Prop where
  resolve : w.resolve = none
  source : Reading.Calm w.source
  createStageParent : w.createStageParent = none
  toStage : CopyWorld.Calm w.toStage
  migrate : w.migrate = none
  checkStage : Reading.Calm w.checkStage
  reopenStage : Reading.Calm w.reopenStage
  snapshot : SnapshotWorld.Calm w.snapshot
  createParent : w.createParent = none
  toLive : CopyWorld.Calm w.toLive
  removeStage : w.removeStage = none
  checkLive : Reading.Calm w.checkLive

/-- Calm worlds, with the given identifiers. -/
def calmReading : Reading := ⟨none, none, none⟩

def calmCopy : CopyWorld δ := ⟨none, none, none, id, none⟩

def calmSnapshot (nonce partialNonce : Uuid) : SnapshotWorld δ where
  createBackups := none
  nonce := nonce
  resolve := none
  createParent := none
  partialNonce := partialNonce
  copy := calmCopy
  check := calmReading
  sync := none
  removeDestination := none
  commit := none
  reopen := calmReading
  metadata := none
  hash := none
  removePartial := none
  listing := .ok []
  removeOld := fun _ => none

def calmRestore (stageNonce nonce partialNonce : Uuid) : RestoreWorld δ where
  resolve := none
  source := calmReading
  createStageParent := none
  stageNonce := stageNonce
  toStage := calmCopy
  migrate := none
  checkStage := calmReading
  reopenStage := calmReading
  snapshot := calmSnapshot nonce partialNonce
  createParent := none
  toLive := calmCopy
  removeStage := none
  checkLive := calmReading
  copyBack := calmCopy

theorem calmReading_calm : Reading.Calm calmReading := ⟨rfl, rfl, rfl⟩

theorem calmCopy_calm : CopyWorld.Calm (calmCopy : CopyWorld δ) :=
  ⟨⟨rfl, rfl⟩, rfl, fun _ => rfl, rfl⟩

theorem calmSnapshot_calm {nonce partialNonce : Uuid} :
    SnapshotWorld.Calm (calmSnapshot nonce partialNonce : SnapshotWorld δ) :=
  ⟨rfl, rfl, rfl, calmCopy_calm, calmReading_calm, rfl, rfl, calmReading_calm, rfl, rfl, ⟨[], rfl⟩,
    fun _ => rfl⟩

theorem calmRestore_calm {stageNonce nonce partialNonce : Uuid} :
    RestoreWorld.Calm (calmRestore stageNonce nonce partialNonce : RestoreWorld δ) :=
  ⟨rfl, calmReading_calm, rfl, calmCopy_calm, rfl, calmReading_calm, calmReading_calm,
    calmSnapshot_calm, rfl, calmCopy_calm, rfl, calmReading_calm⟩

/-- `restore_preflight` accepts the backup when nothing is refused. -/
def Accepted (sqlite : Sqlite δ) (database backup : DatabaseFile) (s : DatabaseFiles δ) : Prop :=
  ∃ w : RestoreWorld δ, RestoreWorld.Calm w ∧ s (stagePath w database) = none ∧
    ∃ report t, Succeeds (restorePreflight sqlite w database backup) s report t

/-- A restore repairs the live database, and when it fails it keeps it and leaves no stage. -/
structure RestoreContract (sqlite : Sqlite δ) (w : RestoreWorld δ)
    (database backup : DatabaseFile) (s : DatabaseFiles δ) : Prop where
  repairs : RestoreWorld.Calm w → Accepted sqlite database backup s →
    ∃ report t b m, Succeeds (restore sqlite w database backup) s report t ∧
      s backup = some b ∧ sqlite.migrate b = .ok m ∧ t database = some m
  keeps : ∀ e t, Fails (restore sqlite w database backup) s e t → Untouched w database s t

/-- When it does. -/
structure RestoreCondition (sqlite : Sqlite δ) (w : RestoreWorld δ)
    (database backup : DatabaseFile) (s : DatabaseFiles δ) : Prop where
  /-- The backup is another file than the live database. -/
  apart : RestoreWorld.Calm w → Accepted sqlite database backup s → backup ≠ database
  /-- The live database, if there is one, is healthy, and SQLite can write the migrated
      backup over it. -/
  healthy : RestoreWorld.Calm w → Accepted sqlite database backup s → ∀ d, s database = some d →
    sqlite.Healthy d ∧ ∀ b m, s backup = some b → sqlite.migrate b = .ok m →
      sqlite.transfer m d = .ok ()
  /-- The first step that fails, if any, is one whose failure is harmless. -/
  harmless : ∀ step, FailsFirst sqlite w database backup s step →
    Harmless sqlite w database backup s step

theorem CopyWorld.Calm.copies {c : CopyWorld δ} {mode : CopyMode} {content before : δ}
    (h : CopyWorld.Calm c) (hgoes : sqlite.transfer content before = .ok ()) :
    Copies sqlite c mode content before := ⟨h.opens, h.transfer, hgoes, fun _ => h.portable⟩

theorem Accepted.staged (haccepted : Accepted sqlite database backup s)
    (hcalm : RestoreWorld.Calm w) (hne : backup ≠ database) :
    PassedBefore sqlite w database backup s .snapshot ∧
      ∃ b m, s backup = some b ∧ sqlite.migrate b = .ok m ∧ sqlite.Healthy m := by
  obtain ⟨w₀, hcalm₀, hfree, report, t, hsucceeds⟩ := haccepted
  have hstart : PassedBefore sqlite w₀ database backup s .checkBackup := by
    intro step hstep
    cases step <;> first | exact ⟨hcalm₀.resolve, hne⟩ | exact absurd hstep (by decide)
  have hwp : wp (restorePreflight sqlite w₀ database backup) (fun _ => True) (fun _ _ => True)
      (fun _ _ => PassedBefore sqlite w₀ database backup s .snapshot) s := by
    rw [restorePreflight, wp_bind]
    refine (prepareRestore_wp hfree hstart).mono (fun _ h => h) (fun _ _ _ => trivial) ?_
    rintro prepared u ⟨hbefore, -⟩
    rw [wp_bind, wp_attempt]
    refine removeIfExists_wp.mono (fun _ h => h) ?_ ?_ <;>
    · intro _ _ _
      rw [wp_pure]
      exact hbefore
  have hbefore₀ := hsucceeds.of_wp hwp
  have hmigrates {m : δ} (h : Migrates sqlite w₀ backup s m) : Migrates sqlite w backup s m := by
    obtain ⟨b, hb, hm⟩ := h
    rw [hcalm₀.toStage.arrives] at hm
    exact ⟨b, hb, by rwa [hcalm.toStage.arrives]⟩
  constructor
  · intro step hstep
    have hpasses₀ := hbefore₀ step hstep
    cases step with
    | distinctPaths => exact ⟨hcalm.resolve, hne⟩
    | checkBackup =>
      obtain ⟨b, hb, -, -, hversion, -, hhealthy⟩ := hpasses₀
      exact ⟨b, hb, hcalm.source.opening, hcalm.source.version, hversion, hcalm.source.check,
        hhealthy⟩
    | createStageParent => exact hcalm.createStageParent
    | copyToStage =>
      obtain ⟨b, hb, hcopies⟩ := hpasses₀
      exact ⟨b, hb, hcalm.toStage.copies hcopies.2.2.1⟩
    | migrateStage =>
      obtain ⟨-, m, hm⟩ := hpasses₀
      exact ⟨hcalm.migrate, m, hmigrates hm⟩
    | checkStage =>
      obtain ⟨-, -, m, hm, hhealthy⟩ := hpasses₀
      exact ⟨hcalm.checkStage.opening, hcalm.checkStage.check, m, hmigrates hm, hhealthy⟩
    | reopenStage =>
      obtain ⟨-, -, m, version, hm, hread⟩ := hpasses₀
      exact ⟨hcalm.reopenStage.opening, hcalm.reopenStage.version, m, version, hmigrates hm, hread⟩
    | snapshot | createParent | copyToLive | removeStage | checkLive =>
      exact absurd hstep (by decide)
  · obtain ⟨-, -, m, ⟨b, hb, hm⟩, hhealthy⟩ := hbefore₀ .checkStage (by decide)
    rw [hcalm₀.toStage.arrives] at hm
    exact ⟨b, m, hb, hm, hhealthy⟩

/-- When nothing is refused, a healthy live database is snapshotted. -/
theorem SnapshotWorld.Calm.snaps {v : SnapshotWorld δ} {d : δ} {reason : String}
    (hlaw : sqlite.Lawful) (hcalm : SnapshotWorld.Calm v) (hd : sqlite.Healthy d) :
    Snaps sqlite v database reason d s := by
  obtain ⟨entries, hentries⟩ := hcalm.listing
  refine ⟨hcalm.createBackups, ⟨hcalm.resolve, hcalm.createParent, ?_⟩, entries, hentries,
    fun name _ _ => hcalm.removeOld name⟩
  have harrives : v.copy.arrives d = d := hcalm.copy.arrives d
  refine ⟨hcalm.copy.copies (hlaw.transfers d hd), hcalm.check.opening, hcalm.check.check, ?_,
    hcalm.sync, hcalm.commit, hcalm.reopen.opening, hcalm.reopen.version, ?_, hcalm.metadata,
    hcalm.hash⟩
  · rwa [harrives]
  · rw [harrives]
    exact hlaw.schemaVersion hd

/-- When nothing is refused and the live database is absent or healthy, every step goes
    through. -/
theorem RestoreWorld.Calm.passes (hlaw : sqlite.Lawful) (hcalm : RestoreWorld.Calm w)
    (haccepted : Accepted sqlite database backup s) (hne : backup ≠ database)
    (hlive : ∀ d, s database = some d → sqlite.Healthy d ∧ ∀ b m, s backup = some b →
      sqlite.migrate b = .ok m → sqlite.transfer m d = .ok ()) (step : RestoreStep) :
    Passes sqlite w database backup s step := by
  obtain ⟨hbefore, b, m, hb, hm, hgood⟩ := haccepted.staged hcalm hne
  have hmigrates : Migrates sqlite w backup s m := by
    refine ⟨b, hb, ?_⟩
    rwa [hcalm.toStage.arrives]
  rcases Nat.lt_or_ge step.rank RestoreStep.snapshot.rank with hlt | hge
  · exact hbefore step hlt
  cases step with
  | snapshot =>
    intro d hd
    exact hcalm.snapshot.snaps hlaw (hlive d hd).1
  | createParent => exact hcalm.createParent
  | copyToLive =>
    refine ⟨m, hmigrates, hcalm.toLive.copies ?_⟩
    cases hs : s database with
    | none => exact hlaw.transfers m hgood
    | some d => exact (hlive d hs).2 b m hb hm
  | removeStage => exact hcalm.removeStage
  | checkLive =>
    refine ⟨hcalm.checkLive.opening, hcalm.checkLive.check, m, hmigrates, ?_⟩
    rwa [hcalm.toLive.arrives]
  | distinctPaths | checkBackup | createStageParent | copyToStage | migrateStage
  | checkStage | reopenStage => exact absurd hge (by decide)

/-- The backup is healthy, of a supported schema, and migrates to a healthy database. -/
structure Restorable (sqlite : Sqlite δ) (content : δ) : Prop where
  healthy : sqlite.Healthy content
  version : ∃ version, sqlite.schemaVersion content = .ok version ∧ version ≤ databaseSchemaVersion
  migrates : ∃ migrated, sqlite.migrate content = .ok migrated ∧ sqlite.Healthy migrated

theorem Restorable.preflight (hlaw : sqlite.Lawful) (hcalm : RestoreWorld.Calm w)
    (hne : backup ≠ database) (hfree : s (stagePath w database) = none)
    (hlive : s database = none) {b : δ} (hb : s backup = some b) (h : Restorable sqlite b) :
    ∃ report t, Succeeds (restorePreflight sqlite w database backup) s report t := by
  obtain ⟨hhealthy, hversion, m, hm, hgood⟩ := h
  have hmigrates : Migrates sqlite w backup s m := by
    refine ⟨b, hb, ?_⟩
    rwa [hcalm.toStage.arrives]
  have hpasses : ∀ step, Passes sqlite w database backup s step := by
    intro step
    cases step with
    | distinctPaths => exact ⟨hcalm.resolve, hne⟩
    | checkBackup =>
      exact ⟨b, hb, hcalm.source.opening, hcalm.source.version, hversion, hcalm.source.check,
        hhealthy⟩
    | createStageParent => exact hcalm.createStageParent
    | copyToStage => exact ⟨b, hb, hcalm.toStage.copies (hlaw.transfers b hhealthy)⟩
    | migrateStage => exact ⟨hcalm.migrate, m, hmigrates⟩
    | checkStage =>
      exact ⟨hcalm.checkStage.opening, hcalm.checkStage.check, m, hmigrates, hgood⟩
    | reopenStage =>
      obtain ⟨version, hread⟩ := hlaw.schemaVersion hgood
      exact ⟨hcalm.reopenStage.opening, hcalm.reopenStage.version, m, version, hmigrates, hread⟩
    | snapshot =>
      intro d hd
      rw [hlive] at hd
      cases hd
    | createParent => exact hcalm.createParent
    | copyToLive =>
      refine ⟨m, hmigrates, hcalm.toLive.copies ?_⟩
      rw [hlive]
      exact hlaw.transfers m hgood
    | removeStage => exact hcalm.removeStage
    | checkLive =>
      refine ⟨hcalm.checkLive.opening, hcalm.checkLive.check, m, hmigrates, ?_⟩
      rwa [hcalm.toLive.arrives]
  have hwp : wp (restorePreflight sqlite w database backup) (fun _ => True) (fun _ _ => False)
      (fun _ _ => True) s := by
    rw [restorePreflight, wp_bind]
    refine (prepareRestore_wp hfree fun step _ => hpasses step).mono (fun _ h => h) ?_ ?_
    · rintro e t ⟨step, hfirst, -⟩
      exact hfirst.2 (hpasses step)
    · rintro prepared u -
      rw [wp_bind, wp_attempt]
      refine removeIfExists_wp.mono (fun _ h => h) ?_ ?_ <;>
      · intro _ _ _
        rw [wp_pure]
        trivial
  obtain ⟨report, t, hsucceeds, -⟩ := hwp.succeeds
  exact ⟨report, t, hsucceeds⟩

/-- **A restore repairs the live database, and keeps it when it fails**, exactly when the backup
    is another file, the live database is absent or healthy, and no failure comes after the
    staged copy has been checked, other than one of the copy over the live database. -/
theorem restore_contract (hlaw : sqlite.Lawful) (hfresh : FreshRestore w database s) :
    RestoreContract sqlite w database backup s ↔ RestoreCondition sqlite w database backup s := by
  have hrun := restore_wp sqlite backup hfresh
  constructor
  · rintro ⟨hrepairs, hkeeps⟩
    have hpasses (hcalm : RestoreWorld.Calm w) (haccepted : Accepted sqlite database backup s)
        (step : RestoreStep) : Passes sqlite w database backup s step := by
      obtain ⟨report, t, b, m, hsucceeds, -⟩ := hrepairs hcalm haccepted
      exact (hsucceeds.of_wp hrun).1 step
    refine ⟨fun hcalm haccepted => (hpasses hcalm haccepted .distinctPaths).2,
      fun hcalm haccepted d hd => ⟨?_, fun b m hb hm => ?_⟩, fun step hstep => ?_⟩
    · have hwrites := (hpasses hcalm haccepted .snapshot d hd).backs.writes
      have hhealthy := hwrites.healthy
      rwa [hcalm.snapshot.copy.arrives] at hhealthy
    · obtain ⟨m', ⟨b', hb', hm'⟩, hcopies⟩ := hpasses hcalm haccepted .copyToLive
      rw [hb] at hb'
      cases hb'
      rw [hcalm.toStage.arrives, hm] at hm'
      cases hm'
      have hgoes := hcopies.2.2.1
      rwa [hd] at hgoes
    · have hfails : wp (restore sqlite w database backup) (fun _ => True)
          (fun _ t => FailedIn sqlite w database backup s t) (fun _ _ => False) s :=
        hrun.mono (fun _ h => h) (fun _ _ h => h) fun _ _ h => hstep.2 (h.1 step)
      obtain ⟨e, t, hends, step', hfirst, hiff⟩ := hfails.fails
      rw [hstep.unique hfirst]
      exact hiff.mp (hkeeps e t hends)
  · rintro ⟨hapart, hhealthy, hharmless⟩
    refine ⟨fun hcalm haccepted => ?_, fun e t hends => ?_⟩
    · have hall := hcalm.passes hlaw haccepted (hapart hcalm haccepted) (hhealthy hcalm haccepted)
      obtain ⟨-, m, b, hb, hm⟩ := hall .migrateStage
      have hgoes : wp (restore sqlite w database backup) (fun _ => True) (fun _ _ => False)
          (fun _ t => t database = some m) s := by
        refine hrun.mono (fun _ h => h) ?_ ?_
        · rintro e t ⟨step, hfirst, -⟩
          exact hfirst.2 (hall step)
        · rintro report t ⟨-, m', hm', ht⟩
          rw [ht, hcalm.toLive.arrives, Migrates.unique ⟨b, hb, hm⟩ hm']
      obtain ⟨report, t, hsucceeds, ht⟩ := hgoes.succeeds
      rw [hcalm.toStage.arrives] at hm
      exact ⟨report, t, b, m, hsucceeds, hb, hm, ht⟩
    · obtain ⟨step, hfirst, hiff⟩ := hends.of_wp hrun
      exact hiff.mpr (hharmless step hfirst)

end MaintenanceService

end Anole

namespace Anole.MaintenanceService.Sample

/-- The contents of the sample: a database of the current schema, one that fails
    `PRAGMA integrity_check`, and one of schema 5 with what it migrates to. -/
inductive Content where
  | empty | current | damaged | version5 | migrated
  deriving DecidableEq

def sampleSqlite : Sqlite Content where
  empty := .empty
  transfer := fun _ _ => .ok ()
  checkMessages := fun content =>
    .ok (if content = .damaged then ["row 3 missing from index jobs_state"] else ["ok"])
  foreignKeyViolations := fun _ => .ok []
  migrationsTable := fun content => .ok (content ≠ .empty)
  versions
    | .empty => .error "no such table: schema_migrations"
    | .version5 => .ok [1, 2, 3, 4, 5]
    | _ => .ok [1, 2, 3, 4, 5, 6]
  rowIssues := fun _ _ => .ok []
  migrate
    | .version5 => .ok .migrated
    | content => .ok content
  size := fun _ => 4096
  sha256 := fun _ => "ad7facb2586fc6e966c004d7d1d16b024f5805ff7cb47c7a85dabd8b48892ca7"

def calmWorld : RestoreWorld Content := calmRestore 3 1 2

def jobs : DatabaseFile := .named "/state" "jobs.sqlite3"

def selected : DatabaseFile := .named "/usb" "backup.sqlite3"

/-- A live database and a backup of schema 5. -/
def filesWith (live : Content) : DatabaseFiles Content := fun file =>
  if file = jobs then some live else if file = selected then some .version5 else none

theorem sampleSqlite_lawful : sampleSqlite.Lawful := by
  refine ⟨fun _ _ => rfl, fun content versions h => ?_⟩
  cases content <;> first | rfl | cases h

theorem calmWorld_calm : RestoreWorld.Calm calmWorld := calmRestore_calm

theorem filesWith_fresh (live : Content) : FreshRestore calmWorld jobs (filesWith live) :=
  ⟨rfl, ⟨rfl, rfl⟩⟩

/-- A run whose result is a value. -/
theorem exists_succeeds {σ ε α : Type} {p : Proc σ ε α} {s : σ}
    (h : (p s).result.isOk = true) : ∃ a t, Succeeds p s a t := by
  cases hr : (p s).result with
  | ok a => exact ⟨a, _, hr, rfl⟩
  | error e =>
    rw [hr] at h
    cases h

theorem accepted (live : Content) :
    Accepted sampleSqlite jobs selected (filesWith live) := by
  refine ⟨calmWorld, calmWorld_calm, rfl, exists_succeeds ?_⟩
  cases live <;> decide +kernel

/-- Over a healthy database the restore keeps its contract. -/
theorem restore_contract_current :
    RestoreContract sampleSqlite calmWorld jobs selected (filesWith .current) := by
  have hlive (d : Content) (hd : filesWith .current jobs = some d) :
      sampleSqlite.Healthy d ∧ ∀ b m, filesWith .current selected = some b →
        sampleSqlite.migrate b = .ok m → sampleSqlite.transfer m d = .ok () := by
    cases hd
    exact ⟨⟨["ok"], rfl, by decide +kernel, rfl, by decide +kernel⟩, fun _ _ _ _ => rfl⟩
  refine (restore_contract sampleSqlite_lawful (filesWith_fresh _)).mpr
    ⟨fun _ _ => by decide, fun _ _ => hlive, fun step h => ?_⟩
  exact absurd (calmWorld_calm.passes sampleSqlite_lawful (accepted _) (by decide) hlive step) h.2

/-- Over a damaged database it does not, although the backup is accepted and nothing is
    refused. -/
theorem restore_refuses_damaged :
    RestoreWorld.Calm calmWorld ∧ Accepted sampleSqlite jobs selected (filesWith .damaged) ∧
      ¬RestoreContract sampleSqlite calmWorld jobs selected (filesWith .damaged) := by
  refine ⟨calmWorld_calm, accepted _, fun h => ?_⟩
  obtain ⟨report, t, -, -, hsucceeds, -⟩ := h.repairs calmWorld_calm (accepted _)
  have hfails : (restore sampleSqlite calmWorld jobs selected
      (filesWith .damaged)).result.isOk = false := by decide +kernel
  rw [hsucceeds.1] at hfails
  cases hfails

end Anole.MaintenanceService.Sample
