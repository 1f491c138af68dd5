import Anole.Queue.Books

/-!
# The report of a window

What a window has done when it returns a report, in every run beside other processes that do what they like to
its jobs.

Results:
* `window_reports`: a report accounts for every selected job.
* `queued_job_fits`: the loop never ends with "No queued job fits".
-/

open Common

namespace Anole

/-- The report of a window: every selected job is still pending or was counted once. -/
structure Window.Reports (policy : SchedulerPolicy) (w : Window) (report : QueueRunReport) : Prop where
  made : report = w.runReport
  counters : w.counters = tally (w.counted.map Prod.snd)
  places : (w.pending.map PendingQueueJob.id ++ w.counted.map Prod.fst).Perm (w.jobs.map JobRecord.id)
  once : (w.counted.map Prod.fst).Nodup
  total : report.completed + report.warning + report.blocked + report.failed + report.cancelled +
    report.contended + w.pending.length = report.selected
  stopped : report.stopped = true ↔ w.control.admission = true ∨ w.pending ≠ []
  released : w.scheduler.active = []
  peak : report.peakActive ≤ policy.maxProcesses

/-- Where the loop rests: nothing more fits, or no worker is left. -/
def Window.Rests (w : Window) : Prop :=
  match w.point with
  | .idle => w.NoneFits
  | .returning => w.workers = []
  | .done (.ok report) => w.workers = [] ∧ report = w.runReport
  | _ => True

theorem terminal_tally (counted : List Counter) : (tally counted).terminal = counted.length := by
  induction counted using List.reverseRecOn with
  | nil => rfl
  | append_singleton counted c ih =>
    rw [tally_append, List.length_append, ← ih]
    cases c <;> simp only [QueueCounters.bump, QueueCounters.terminal, List.length_singleton] <;> omega

namespace Window

variable {env : StepEnv} {w w' : Window} {db db' : Database}

theorem Advance.rests (hadv : w.Advance env db w' db') (h : w.Rests) : w'.Rests := by
  cases hadv with
  | rest _ hnone => exact hnone
  | leave _ _ hworkers | stop _ hworkers => exact hworkers
  | returned hpoint =>
    rw [Rests, hpoint] at h
    exact ⟨h, rfl⟩
  | prepared _ verdict => cases verdict <;> exact trivial
  | readOther _ after | marked _ after => cases after <;> exact trivial
  | joined _ _ _ _ _ hnext => obtain ⟨_, rfl⟩ | ⟨_, rfl⟩ := hnext <;> exact trivial
  | reported =>
    unfold afterReport
    split_ifs <;> exact trivial
  | enter | accept | claimed | contended | inspected | started | wait | received | sampled | readRunning
  | finished | failed | drained | abortDone | abortSkipped | abortRequested | abortMoved | abortRefused =>
    exact trivial

/-- A pause does not make anything fit. -/
theorem Rests.event (h : w.Rests) {event : WindowEvent} (hevent : w.receive event = some w') : w'.Rests := by
  obtain ⟨milestones, control, _, _, hcontrol, hopen, rfl⟩ := receive_eq_some hevent
  revert h hopen
  unfold Rests isDone
  dsimp only
  cases w.point with
  | idle => exact fun h _ => h.imp_left fun hpaused => by rw [hcontrol, hpaused, Bool.true_or]
  | done => exact fun _ hopen => Bool.noConfusion hopen
  | _ => exact fun h _ => h

end Window

/-- What holds throughout every run of a window. -/
structure QueueState.Kept (json : ReportJson) (policy : SchedulerPolicy) (s : QueueState) : Prop where
  sound : Sound json s.db
  booked : s.window.point.executing = true → s.window.Booked policy
  rests : s.window.Rests

section Runs

variable {json : ReportJson} {policy : SchedulerPolicy} {s t : QueueState} {db : Database} {w : Window}
  {env : CallEnv} {logicalCpus limit parallel : ℕ} {control : QueueWindowControl} {labels : List QueueLabel}

theorem QueueState.Kept.step (h : s.Kept json policy) {label : QueueLabel} (hstep : QueueStep json s label t) :
    t.Kept json policy := by
  have hsound := (QueueStep.writes h.sound hstep).sound h.sound
  cases label with
  | step env =>
    have hadv := Window.step_advance h.sound hstep
    exact ⟨hsound, fun hexec => hadv.booked (h.booked (hadv.executing hexec)) hexec, hadv.rests h.rests⟩
  | event event =>
    have hevent := hstep.1
    refine ⟨hsound, fun hexec => (h.booked ?_).event hevent, h.rests.event hevent⟩
    obtain ⟨_, _, _, _, _, _, heq⟩ := Window.receive_eq_some hevent
    rwa [heq] at hexec
  | other label => exact ⟨hsound, hstep.2 ▸ h.booked, hstep.2 ▸ h.rests⟩

theorem kept_of_run (h : Reachable json db) (hopen : openWindow env db logicalCpus limit parallel control = .ok w)
    (hrun : Trace (QueueStep json) ⟨w, db⟩ labels s) : s.Kept json (.bounded logicalCpus parallel) := by
  refine hrun.invariant ⟨h.sound, fun _ => openWindow_booked h.sound hopen, ?_⟩ fun hs hstep => hs.step hstep
  obtain ⟨_, _, _, _, _, _, rfl⟩ := openWindow_eq_ok hopen
  exact trivial

/-- **A window accounts for its jobs.** Whatever other processes do to them: when the window returns a report,
    each selected job is still pending or was counted once, the numbers of the report are those of the counted
    jobs, and nothing is reserved any more. -/
theorem window_reports (h : Reachable json db)
    (hopen : openWindow env db logicalCpus limit parallel control = .ok w)
    (hrun : Trace (QueueStep json) ⟨w, db⟩ labels s) {report : QueueRunReport}
    (hdone : s.window.point = .done (.ok report)) :
    s.window.Reports (.bounded logicalCpus parallel) report := by
  have hkept := kept_of_run h hopen hrun
  have hbooked := hkept.booked (by rw [hdone]; rfl)
  have hrests := hkept.rests
  rw [Window.Rests, hdone] at hrests
  obtain ⟨hworkers, rfl⟩ := hrests
  have hplaces := hbooked.places
  have hslots := hbooked.slots
  simp only [Window.pipeline, Pipeline.items, Pipeline.slots, hdone, Point.hand, Point.finishing, hworkers,
    List.nil_append] at hplaces hslots
  have hcounted : s.window.counters.terminal = s.window.counted.length := by
    rw [hbooked.counters, terminal_tally, List.length_map]
  have hlength := hplaces.length_eq
  simp only [List.length_append, List.length_map] at hlength
  have htotal : s.window.counters.terminal + s.window.pending.length = s.window.jobs.length := by omega
  refine ⟨rfl, hbooked.counters, hplaces, ?_, htotal, ?_, List.map_eq_nil_iff.mp hslots.eq_nil, hbooked.peak⟩
  · exact (hplaces.nodup_iff.mpr hbooked.distinct).of_append_right
  · simp only [Window.runReport, decide_eq_true_eq, ← List.length_pos_iff]
    exact or_congr_right (by omega)

/-- **A queued job always fits.** A window without workers never ends its loop with "No queued job fits": it
    returns its report. -/
theorem queued_job_fits (h : Reachable json db)
    (hopen : openWindow env db logicalCpus limit parallel control = .ok w)
    (hrun : Trace (QueueStep json) ⟨w, db⟩ labels s) (hidle : s.window.point = .idle)
    (hworkers : s.window.workers = []) : s.window.idle.point = .returning := by
  have hkept := kept_of_run h hopen hrun
  have hbooked := hkept.booked (by rw [hidle]; rfl)
  have hrests := hkept.rests
  rw [Window.Rests, hidle] at hrests
  have hslots := hbooked.slots
  simp only [Window.pipeline, Pipeline.slots, hidle, Point.hand, hworkers, List.nil_append] at hslots
  have hactive := List.map_eq_nil_iff.mp hslots.eq_nil
  rw [Window.idle, if_pos hworkers, if_pos ?_]
  · rfl
  · rcases hrests with hpaused | hfull | hempty | hscan
    · exact .inl hpaused
    · rw [hbooked.samePolicy, ResourceScheduler.activeCount, hactive] at hfull
      exact absurd hfull (Nat.not_le.mpr (bounded_classLimit_pos logicalCpus parallel .lightweight))
    · exact .inr hempty
    · cases hpending : s.window.pending with
      | nil => exact .inr rfl
      | cons c rest =>
        obtain ⟨scheduler, hadmit⟩ :=
          tryAdmit_requestForPlan hbooked.scheduler hactive hbooked.samePolicy c.id c.details.plan
        have hresources := hbooked.requests c (by rw [hpending]; exact List.mem_cons_self)
        rw [hpending, scanPending, hresources, hadmit] at hscan
        cases hscan

end Runs

/-! ## A blocked job -/

namespace Sample

/-- A step of a window whose engines are gone. -/
def noEngine : StepEnv := { stepEnv with inspectEngine := fun _ _ => .error databaseBusy }

/-- The window claims its only job, blocks it and rests. -/
def blockedRun (steps : ℕ) : QueueState :=
  play (QueueState.next (json 0)) ⟨window, queued⟩ (List.replicate steps (.step noEngine))

end Sample

theorem window_reports_blocked : ∃ report, (Sample.blockedRun 8).window.Reports (.bounded 4 1) report := by
  have hplays : Plays (QueueState.next (Sample.json 0)) (fun _ _ _ => True) ⟨Sample.window, Sample.queued⟩
      (List.replicate 8 (.step Sample.noEngine)) := by decide
  obtain ⟨labels, hrun⟩ := QueueState.play_run hplays
  exact ⟨_, window_reports Sample.queued_reachable Sample.openWindow_window (hrun.mono fun h => h.1) rfl⟩

theorem queued_job_fits_blocked : (Sample.blockedRun 6).window.idle.point = .returning := by
  have hplays : Plays (QueueState.next (Sample.json 0)) (fun _ _ _ => True) ⟨Sample.window, Sample.queued⟩
      (List.replicate 6 (.step Sample.noEngine)) := by decide
  obtain ⟨labels, hrun⟩ := QueueState.play_run hplays
  exact queued_job_fits Sample.queued_reachable Sample.openWindow_window (hrun.mono fun h => h.1) rfl rfl

end Anole
