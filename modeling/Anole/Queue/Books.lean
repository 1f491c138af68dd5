import Anole.Common.Pipeline
import Anole.Queue.Advance

/-!
# The books of a window

Until its loop ends with an error, a window knows where each of its selected jobs is:
pending, in hand (admitted and being prepared), with a worker, joined and being
completed, or counted. `Window.Booked` says that every selected job is in exactly one
of these places and that the scheduler, the active set, the counters and the history
agree with them. It speaks of the window alone, so nothing other processes do matters.

Main results:
* `Advance.booked`: every step of the loop keeps the books.
* `Booked.owns`: a transition is only requested for a job the window has claimed.
-/

open Common

namespace Anole

/-! ## Places -/

namespace Point

/-- The admitted job that is being prepared. -/
def hand : Point → List Uuid
  | .claim candidate | .inspect candidate | .prepare candidate _ | .start candidate _ =>
    [candidate.id]
  | _ => []

/-- The same, once it is claimed. -/
def held : Point → List Uuid
  | .inspect candidate | .prepare candidate _ | .start candidate _ => [candidate.id]
  | _ => []

/-- The joined job that is being completed. -/
def finishing : Point → List Uuid
  | .report id _ | .sample id _ | .markRead id (some _) | .markMove id (some _) | .finish id _ => [id]
  | _ => []

/-- The job whose milestone is being handled. -/
def heard : Point → List Uuid
  | .markRead id none | .markMove id none => [id]
  | _ => []

/-- The loop has not ended with an error. -/
def executing : Point → Bool
  | .abortDrain _ | .abort _ _ _ | .abortMove _ _ _ _ _ | .done (.error _) => false
  | _ => true

end Point

/-- The counters after these jobs were counted. -/
def tally (counted : List Counter) : QueueCounters := counted.foldl QueueCounters.bump .zero

@[simp] theorem tally_append (counted : List Counter) (c : Counter) :
    tally (counted ++ [c]) = (tally counted).bump c := by
  simp [tally]

/-- The selected jobs of a window, by stage. -/
def Window.pipeline (w : Window) : Pipeline Uuid Counter :=
  { waiting := w.pending.map PendingQueueJob.id
    taken := w.point.hand
    running := w.workers
    joined := w.point.finishing
    settled := w.counted }

/-- Every selected job is in exactly one stage, and the rest of the window agrees. -/
structure Window.Booked (policy : SchedulerPolicy) (w : Window) : Prop where
  places : w.pipeline.items.Perm (w.jobs.map JobRecord.id)
  distinct : (w.jobs.map JobRecord.id).Nodup
  active : w.activeJobs.Perm w.pipeline.inProgress
  slots : (w.scheduler.active.map ResourceRequest.jobId).Perm w.pipeline.slots
  claimed : ∀ id, id ∈ w.claimed ↔ id ∈ w.point.held ∨ id ∈ w.workers ∨ id ∈ w.point.finishing ∨
    ∃ c, c ≠ .contended ∧ (id, c) ∈ w.counted
  heard : ∀ id ∈ w.point.heard ++ w.milestones, id ∈ w.claimed
  scheduler : w.scheduler.Sound
  samePolicy : w.scheduler.policy = policy
  requests : ∀ c ∈ w.pending, c.resources = requestForPlan c.id c.details.plan
  counters : w.counters = tally (w.counted.map Prod.snd)
  peak : w.peakActive ≤ policy.maxProcesses

namespace Window

variable {policy : SchedulerPolicy} {env : StepEnv} {w w' : Window} {db db' : Database} {id : Uuid}
  {candidate : PendingQueueJob}

/-! ## Scanning -/

/-- The specification of the scan: it takes out a candidate that was admitted. -/
theorem scanPending_eq_some {scheduler scheduler' : ResourceScheduler}
    {rest : List PendingQueueJob} :
    ∀ {queue rotated : List PendingQueueJob},
      scanPending scheduler queue rotated = some (candidate, scheduler', rest) →
      scheduler.tryAdmit candidate.resources = some scheduler' ∧
        candidate ∈ queue ∧ (queue ++ rotated).Perm (candidate :: rest) := by
  intro queue
  induction queue with
  | nil => intro rotated h; cases h
  | cons c queue ih =>
    intro rotated h
    rw [scanPending] at h
    cases htry : scheduler.tryAdmit c.resources with
    | some s =>
      rw [htry] at h
      cases h
      exact ⟨htry, by simp, List.Perm.refl _⟩
    | none =>
      rw [htry] at h
      obtain ⟨hs, hmem, hperm⟩ := ih h
      refine ⟨hs, List.mem_cons_of_mem _ hmem, List.Perm.trans ?_ hperm⟩
      grind

/-! ## Keeping the books -/

theorem Booked.nodup (h : w.Booked policy) : w.pipeline.items.Nodup :=
  h.places.nodup_iff.mpr h.distinct

/-- Going from a point to another one with the same job in hand. -/
theorem Booked.goto (h : w.Booked policy) {here point : Point} (hpoint : w.point = here)
    (hhand : point.hand = here.hand) (hheld : point.held = here.held)
    (hfinishing : point.finishing = here.finishing) (hheard : point.heard ⊆ here.heard) :
    (w.goto point).Booked policy := by
  subst hpoint
  have hpipeline : (w.goto point).pipeline = w.pipeline := by
    simp only [pipeline, Window.goto, hhand, hfinishing]
  refine { h with places := ?places, active := ?active, slots := ?slots, claimed := ?claimed, heard := ?heard }
  case places => rw [hpipeline]; exact h.places
  case active => rw [hpipeline]; exact h.active
  case slots => rw [hpipeline]; exact h.slots
  case claimed =>
    intro id
    show id ∈ w.claimed ↔ id ∈ point.held ∨ id ∈ w.workers ∨ id ∈ point.finishing ∨ _
    rw [hheld, hfinishing]
    exact h.claimed id
  case heard =>
    intro id hid
    rcases List.mem_append.mp hid with hid | hid
    · exact h.heard id (List.mem_append_left _ (hheard hid))
    · exact h.heard id (List.mem_append_right _ hid)

theorem Booked.counters_count (h : w.Booked policy) (id : Uuid) (c : Counter) :
    w.counters.bump c = tally ((w.counted ++ [(id, c)]).map Prod.snd) := by
  rw [List.map_append, h.counters]
  exact (tally_append _ _).symm

/-- Retiring the job in hand, which is claimed unless it is contended. -/
theorem Booked.retire (h : w.Booked policy) {c : Counter} (hhand : w.point.hand = [id])
    (hheld : w.point.held = if c = .contended then [] else [id]) (hfinishing : w.point.finishing = []) :
    (w.retire id c).Booked policy := by
  have hpipeline : (w.retire id c).pipeline =
      { w.pipeline with taken := [], settled := w.pipeline.settled ++ [(id, c)] } := by
    simp only [pipeline, Window.retire, count, hfinishing]
    rfl
  constructor
  case places =>
    rw [hpipeline]
    exact (Pipeline.Move.drop id c hhand).items.trans h.places
  case distinct => exact h.distinct
  case active =>
    have hactive := h.active
    rw [w.pipeline.inProgress_drop c hhand, ← hpipeline] at hactive
    have herased := hactive.erase id
    rwa [List.erase_cons_head] at herased
  case slots =>
    have hslots := h.slots
    rw [w.pipeline.slots_drop c hhand, ← hpipeline] at hslots
    have herased := hslots.erase id
    rw [List.erase_cons_head] at herased
    show ((w.scheduler.release id).active.map _).Perm _
    rwa [h.scheduler.release_jobIds]
  case claimed =>
    intro other
    have hclaimed := h.claimed other
    rw [hheld, hfinishing] at hclaimed
    show other ∈ w.claimed ↔ other ∈ [] ∨ other ∈ w.workers ∨ other ∈ [] ∨
      ∃ k, k ≠ .contended ∧ (other, k) ∈ w.counted ++ [(id, c)]
    grind
  case heard => exact fun id hid => h.heard id (List.mem_append_right _ hid)
  case scheduler => exact h.scheduler.release id
  case samePolicy => exact (ResourceScheduler.release_policy _ _).trans h.samePolicy
  case requests => exact h.requests
  case counters => exact h.counters_count id c
  case peak => exact h.peak

theorem Booked.afterFinish (h : w.Booked policy) {completion : Completion}
    (hpoint : w.point = .finish id completion) : (w.afterFinish id completion).Booked policy := by
  have hjoined : w.pipeline.joined = [id] := by rw [pipeline, hpoint]; rfl
  have hpipeline : (w.afterFinish id completion).pipeline =
      { w.pipeline with
        joined := [], settled := w.pipeline.settled ++ [(id, completion.counter)] } := by
    simp only [pipeline, hpoint]
    rfl
  refine { h with
    places := ?places, active := ?active, slots := ?slots, claimed := ?claimed, heard := ?heard, counters := ?counters }
  case places =>
    rw [hpipeline]
    exact (Pipeline.Move.settle id completion.counter hjoined).items.trans h.places
  case active =>
    have hactive := h.active.trans (w.pipeline.inProgress_settle completion.counter hjoined)
    rw [← hpipeline] at hactive
    have herased := hactive.erase id
    rwa [List.erase_cons_head] at herased
  case slots => rw [hpipeline]; exact h.slots
  case claimed =>
    intro other
    have hclaimed := h.claimed other
    rw [hpoint] at hclaimed
    have hcounter : completion.counter ≠ .contended := by
      cases completion with
      | validated status => cases status <;> decide
      | paused | cancelled | stopped => decide
    show other ∈ w.claimed ↔ other ∈ [] ∨ other ∈ w.workers ∨ other ∈ [] ∨
      ∃ k, k ≠ .contended ∧ (other, k) ∈ w.counted ++ [(id, completion.counter)]
    simp only [Point.held, Point.finishing] at hclaimed
    grind
  case heard => exact fun id hid => h.heard id (List.mem_append_right _ hid)
  case counters => exact h.counters_count id completion.counter

theorem Booked.take (h : w.Booked policy)
    {scheduler : ResourceScheduler} {pending : List PendingQueueJob} (hpoint : w.point = .admission)
    (hscan : scanPending w.scheduler w.pending [] = some (candidate, scheduler, pending)) :
    (w.take candidate scheduler pending).Booked policy := by
  obtain ⟨htry, hmem, hperm⟩ := scanPending_eq_some hscan
  rw [List.append_nil] at hperm
  obtain ⟨hsound, hpolicy, hactive⟩ := h.scheduler.tryAdmit htry
  have htaken : w.pipeline.taken = [] := by rw [pipeline, hpoint]; rfl
  have hpipeline : (w.take candidate scheduler pending).pipeline =
      { w.pipeline with waiting := pending.map PendingQueueJob.id, taken := [candidate.id] } := by
    simp only [pipeline, hpoint]
    rfl
  constructor
  case places =>
    rw [hpipeline]
    exact (Pipeline.Move.take _ _ (hperm.map PendingQueueJob.id) htaken).items.trans h.places
  case distinct => exact h.distinct
  case active =>
    have hnew : candidate.id ∉ w.activeJobs := by
      rw [h.active.mem_iff]
      exact Pipeline.not_mem_inProgress h.nodup (List.mem_map_of_mem hmem)
    rw [hpipeline, w.pipeline.inProgress_take htaken]
    show (w.activeJobs.insert candidate.id).Perm _
    rw [List.insert_of_not_mem hnew]
    exact h.active.cons _
  case slots =>
    have hrequest : candidate.resources.jobId = candidate.id := by rw [h.requests candidate hmem]; rfl
    rw [hpipeline, w.pipeline.slots_take htaken]
    show (scheduler.active.map ResourceRequest.jobId).Perm _
    rw [hactive, List.map_append, List.map_singleton, hrequest]
    exact (List.perm_append_singleton _ _).trans (h.slots.cons _)
  case claimed =>
    have hclaimed := h.claimed
    rw [hpoint] at hclaimed
    exact hclaimed
  case heard => exact fun id hid => h.heard id (List.mem_append_right _ hid)
  case scheduler => exact hsound
  case samePolicy => exact hpolicy.trans h.samePolicy
  case requests =>
    intro c hc
    exact h.requests c (hperm.mem_iff.mpr (List.mem_cons_of_mem _ hc))
  case counters => exact h.counters
  case peak => exact h.peak

theorem Booked.spawn (h : w.Booked policy) {probe : Probe}
    (hpoint : w.point = .start candidate probe) : (w.spawn env candidate probe).Booked policy := by
  have htaken : w.pipeline.taken = [candidate.id] := by rw [pipeline, hpoint]; rfl
  have hpipeline : (w.spawn env candidate probe).pipeline =
      { w.pipeline with taken := [], running := w.pipeline.running ++ [candidate.id] } := by
    simp only [pipeline, hpoint]
    rfl
  refine { h with
    places := ?places, active := ?active, slots := ?slots, claimed := ?claimed, heard := ?heard, peak := ?peak }
  case places =>
    rw [hpipeline]
    exact (Pipeline.Move.start candidate.id htaken).items.trans h.places
  case active =>
    rw [hpipeline]
    exact h.active.trans (w.pipeline.inProgress_start htaken).symm
  case slots =>
    rw [hpipeline]
    exact h.slots.trans (w.pipeline.slots_start htaken).symm
  case claimed =>
    intro other
    have hclaimed := h.claimed other
    rw [hpoint] at hclaimed
    show other ∈ w.claimed ↔ other ∈ [] ∨ other ∈ w.workers ++ [candidate.id] ∨ other ∈ [] ∨
      ∃ k, k ≠ .contended ∧ (other, k) ∈ w.counted
    simp only [Point.held, Point.finishing] at hclaimed
    grind
  case heard => exact fun id hid => h.heard id (List.mem_append_right _ hid)
  case peak =>
    have hprocesses := h.scheduler.processes
    rw [h.samePolicy] at hprocesses
    exact max_le h.peak hprocesses

theorem Booked.join (h : w.Booked policy) {index : ℕ} {point : Point} (hpoint : w.point = .select)
    (hworker : w.workers[index]? = some id)
    (hnext : (∃ report, point = .report id report) ∨
      ∃ error, point = .finish id (w.completionOf error)) :
    (w.join index id point).Booked policy := by
  obtain ⟨hindex, hget⟩ := List.getElem?_eq_some_iff.mp hworker
  have hworkers : w.workers.Perm (id :: w.workers.eraseIdx index) := by
    have hperm := List.getElem_cons_eraseIdx_perm hindex
    rw [hget] at hperm
    exact hperm.symm
  have hjoined : w.pipeline.joined = [] := by rw [pipeline, hpoint]; rfl
  have hshape : point.hand = [] ∧ point.held = [] ∧ point.finishing = [id] ∧ point.heard = [] := by
    obtain ⟨report, rfl⟩ | ⟨error, rfl⟩ := hnext <;> exact ⟨rfl, rfl, rfl, rfl⟩
  obtain ⟨hhand, hheld, hfinishing, hheard⟩ := hshape
  have hpipeline : (w.join index id point).pipeline =
      { w.pipeline with running := w.workers.eraseIdx index, joined := [id] } := by
    simp only [pipeline, Window.join, hhand, hfinishing, hpoint]
    rfl
  constructor
  case places =>
    rw [hpipeline]
    exact (Pipeline.Move.join id _ hworkers hjoined).items.trans h.places
  case distinct => exact h.distinct
  case active =>
    rw [hpipeline]
    exact h.active.trans (w.pipeline.inProgress_join hworkers hjoined).symm
  case slots =>
    have herased := (h.slots.trans (w.pipeline.slots_join hworkers)).erase id
    rw [List.erase_cons_head] at herased
    rw [hpipeline]
    show ((w.scheduler.release id).active.map _).Perm _
    rwa [h.scheduler.release_jobIds]
  case claimed =>
    intro other
    have hclaimed := h.claimed other
    rw [hpoint] at hclaimed
    show other ∈ w.claimed ↔ other ∈ point.held ∨ other ∈ w.workers.eraseIdx index ∨
      other ∈ point.finishing ∨ ∃ k, k ≠ .contended ∧ (other, k) ∈ w.counted
    have hmem := hworkers.mem_iff (a := other)
    rw [hheld, hfinishing]
    simp only [Point.held, Point.finishing] at hclaimed
    grind
  case heard =>
    show ∀ id ∈ point.heard ++ w.milestones, id ∈ w.claimed
    rw [hheard]
    exact fun id hid => h.heard id (List.mem_append_right _ hid)
  case scheduler => exact h.scheduler.release id
  case samePolicy => exact (ResourceScheduler.release_policy _ _).trans h.samePolicy
  case requests => exact h.requests
  case counters => exact h.counters
  case peak => exact h.peak

theorem Booked.claim (h : w.Booked policy)
    (hpoint : w.point = .claim candidate) :
    Booked policy { w with claimed := candidate.id :: w.claimed, point := .inspect candidate } := by
  have hgoto : ({ w with point := .inspect candidate } : Window).pipeline = w.pipeline := by
    simp only [pipeline, hpoint]
    rfl
  refine { h with places := ?places, active := ?active, slots := ?slots, claimed := ?claimed, heard := ?heard }
  case places => exact (congrArg (List.Perm · _) (congrArg _ hgoto)).mpr h.places
  case active => exact (congrArg (List.Perm _) (congrArg _ hgoto)).mpr h.active
  case slots => exact (congrArg (List.Perm _) (congrArg _ hgoto)).mpr h.slots
  case claimed =>
    intro other
    have hclaimed := h.claimed other
    rw [hpoint] at hclaimed
    show other ∈ candidate.id :: w.claimed ↔ other ∈ [candidate.id] ∨ other ∈ w.workers ∨
      other ∈ [] ∨ _
    simp only [Point.held, Point.finishing] at hclaimed
    grind
  case heard => exact fun id hid => List.mem_cons_of_mem _ (h.heard id (List.mem_append_right _ hid))

theorem Booked.receive (h : w.Booked policy) {milestones : List Uuid} (hpoint : w.point = .select)
    (hmilestones : w.milestones = id :: milestones) :
    Booked policy { w with milestones := milestones, point := .markRead id none } := by
  have hgoto : ({ w with point := .markRead id none } : Window).pipeline = w.pipeline := by
    simp only [pipeline, hpoint]
    rfl
  refine { h with places := ?places, active := ?active, slots := ?slots, claimed := ?claimed, heard := ?heard }
  case places => exact (congrArg (List.Perm · _) (congrArg _ hgoto)).mpr h.places
  case active => exact (congrArg (List.Perm _) (congrArg _ hgoto)).mpr h.active
  case slots => exact (congrArg (List.Perm _) (congrArg _ hgoto)).mpr h.slots
  case claimed =>
    have hclaimed := h.claimed
    rw [hpoint] at hclaimed
    exact hclaimed
  case heard =>
    have hheard := h.heard
    rw [hpoint, hmilestones] at hheard
    exact hheard

/-- The loop cannot be resumed. -/
theorem Advance.executing (hadv : w.Advance env db w' db') (hexec : w'.point.executing = true) :
    w.point.executing = true := by
  cases hadv with
  | enter hpoint | leave hpoint | rest hpoint | stop hpoint | wait hpoint | returned hpoint
  | accept _ _ _ hpoint | claimed _ _ hpoint | contended _ _ hpoint | inspected _ _ hpoint
  | prepared _ _ _ _ hpoint | started _ _ _ _ hpoint | received _ _ hpoint | joined _ _ _ hpoint
  | reported _ _ hpoint | sampled _ _ _ hpoint | readRunning _ _ hpoint | readOther _ _ _ hpoint
  | marked _ _ _ _ hpoint | finished _ _ _ _ hpoint =>
    rw [hpoint]
    rfl
  | failed | drained | abortDone | abortSkipped | abortRequested | abortMoved | abortRefused =>
    cases hexec

/-- After `mark_job_validating` the window completes the job or goes back to the top. -/
theorem Booked.afterMark (h : w.Booked policy) {after : Option Completion} {here : Point}
    (hpoint : w.point = here) (hhere : here = .markRead id after ∨ here = .markMove id after) :
    (w.afterMark id after).Booked policy := by
  cases after with
  | none => rcases hhere with rfl | rfl <;> exact h.goto hpoint rfl rfl rfl (List.nil_subset _)
  | some completion =>
    rcases hhere with rfl | rfl <;> exact h.goto hpoint rfl rfl rfl (List.nil_subset _)

/-- **Every step of the loop keeps the books.** -/
theorem Advance.booked (hadv : w.Advance env db w' db') (h : w.Booked policy)
    (hexec : w'.point.executing = true) : w'.Booked policy := by
  cases hadv with
  | enter hpoint | leave hpoint | rest hpoint | stop hpoint | wait hpoint | returned hpoint
  | inspected _ _ hpoint | sampled _ _ _ hpoint =>
    exact h.goto hpoint rfl rfl rfl (List.nil_subset _)
  | accept candidate scheduler pending hpoint _ hscan => exact h.take hpoint hscan
  | claimed candidate db' hpoint => exact h.claim hpoint
  | contended candidate s hpoint =>
    exact h.retire (by rw [hpoint]; rfl) (by rw [hpoint]; rfl) (by rw [hpoint]; rfl)
  | prepared candidate verdict s db' hpoint =>
    cases verdict with
    | blocked code => exact h.retire (by rw [hpoint]; rfl) (by rw [hpoint]; rfl) (by rw [hpoint]; rfl)
    | planInvalid => exact h.retire (by rw [hpoint]; rfl) (by rw [hpoint]; rfl) (by rw [hpoint]; rfl)
    | revalidated probe => exact h.goto hpoint rfl rfl rfl (List.nil_subset _)
  | started candidate probe s db' hpoint => exact h.spawn hpoint
  | received id milestones hpoint hmilestones => exact h.receive hpoint hmilestones
  | joined index id point hpoint hworker hnext => exact h.join hpoint hworker hnext
  | reported id report hpoint =>
    unfold afterReport
    split_ifs
    · exact h.goto hpoint rfl rfl rfl (List.nil_subset _)
    · exact h.goto hpoint rfl rfl rfl (List.nil_subset _)
  | readRunning id after hpoint =>
    cases after with
    | none => exact h.goto hpoint rfl rfl rfl (List.Subset.refl _)
    | some completion => exact h.goto hpoint rfl rfl rfl (List.nil_subset _)
  | readOther id after s hpoint => exact h.afterMark hpoint (Or.inl rfl)
  | marked id after s db' hpoint => exact h.afterMark hpoint (Or.inr rfl)
  | finished id completion s db' hpoint => exact h.afterFinish hpoint
  | failed | drained | abortDone | abortSkipped | abortRequested | abortMoved | abortRefused =>
    cases hexec

/-- Milestones and pauses keep the books. -/
theorem Booked.event (h : w.Booked policy) {event : WindowEvent}
    (hevent : w.receive event = some w') : w'.Booked policy := by
  obtain ⟨milestones, control, hworkers, _, _, _, rfl⟩ := receive_eq_some hevent
  refine { h with heard := fun other hother => ?_ }
  rw [← List.append_assoc] at hother
  rcases List.mem_append.mp hother with hother | hother
  · exact h.heard other hother
  · exact (h.claimed other).mpr (Or.inr (Or.inl (hworkers hother)))

/-! ## Ownership -/

/-- **A transition is only requested for a claimed job.** -/
theorem Booked.owns (h : w.Booked policy) {target : JobState} {code : String}
    (hrequest : w.point.request = some (id, target, code)) : id ∈ w.claimed := by
  have hclaimed := h.claimed id
  have hheard := h.heard id
  cases hpoint : w.point with
  | prepare candidate verdict =>
    rw [hpoint] at hrequest hclaimed
    cases hrequest
    exact hclaimed.mpr (Or.inl (List.mem_singleton.mpr rfl))
  | start candidate probe =>
    rw [hpoint] at hrequest hclaimed
    cases hrequest
    exact hclaimed.mpr (Or.inl (List.mem_singleton.mpr rfl))
  | markMove jobId after =>
    rw [hpoint] at hrequest hclaimed hheard
    cases hrequest
    cases after with
    | none => exact hheard (List.mem_append_left _ (List.mem_singleton.mpr rfl))
    | some completion => exact hclaimed.mpr (Or.inr (Or.inr (Or.inl (List.mem_singleton.mpr rfl))))
  | finish jobId completion =>
    rw [hpoint] at hrequest hclaimed
    cases hrequest
    exact hclaimed.mpr (Or.inr (Or.inr (Or.inl (List.mem_singleton.mpr rfl))))
  | top | admission | claim | inspect | idle | select | report | sample | markRead | returning
  | abortDrain | abort | abortMove | done =>
    rw [hpoint] at hrequest
    cases hrequest

end Window

/-! ## Opening -/

section Opening

variable {json : ReportJson} {env : CallEnv} {db : Database} {w : Window}
  {logicalCpus limit parallel : ℕ} {control : QueueWindowControl}

theorem getJobDetails_id {id : Uuid} {details : JobDetails}
    (hget : getJobDetails env db id = .ok (some details)) : details.job.id = id := by
  unfold getJobDetails at hget
  split at hget
  · cases hget
  · simp only [Except.ok.injEq, Option.map_eq_some_iff] at hget
    obtain ⟨row, hrow, rfl⟩ := hget
    have hid := List.find?_some hrow
    simpa using hid

/-- The hydrated jobs are the selected ones, with the requests of their Plans. -/
theorem hydrate_ok :
    ∀ {jobs : List JobRecord} {pending : List PendingQueueJob},
      hydrate env db jobs = .ok pending →
      pending.map PendingQueueJob.id = jobs.map JobRecord.id ∧
        ∀ c ∈ pending, c.resources = requestForPlan c.id c.details.plan := by
  intro jobs
  induction jobs with
  | nil => intro pending h; cases h; exact ⟨rfl, fun c hc => absurd hc (List.not_mem_nil)⟩
  | cons job jobs ih =>
    intro pending h
    rw [hydrate] at h
    obtain ⟨found, hget, h⟩ := bind_eq_ok.mp h
    cases found with
    | none => cases h
    | some details =>
      obtain ⟨_, hdetails, h⟩ := bind_eq_ok.mp h
      obtain ⟨rest, hrest, h⟩ := bind_eq_ok.mp h
      cases hdetails
      cases h
      obtain ⟨hids, hrequests⟩ := ih hrest
      have hid : details.job.id = job.id := getJobDetails_id hget
      refine ⟨?_, ?_⟩
      · rw [List.map_cons, List.map_cons, hids, PendingQueueJob.id, hid]
      · intro c hc
        rcases List.mem_cons.mp hc with rfl | hc
        · rw [PendingQueueJob.id, hid]
        · exact hrequests c hc

/-- The checks and the selection of `openWindow`. -/
theorem openWindow_eq_ok (hopen : openWindow env db logicalCpus limit parallel control = .ok w) :
    (1 ≤ parallel ∧ parallel ≤ 16) ∧ limit ≤ 256 ∧ ∃ jobs pending,
      listQueuedJobsFair env db limit = .ok jobs ∧ hydrate env db jobs = .ok pending ∧
      w = .new (.bounded logicalCpus parallel) control jobs pending := by
  unfold openWindow at hopen
  obtain ⟨hparallel, hopen⟩ := guard_eq_ok.mp hopen
  obtain ⟨hlimit, hopen⟩ := guard_eq_ok.mp hopen
  obtain ⟨jobs, hjobs, hopen⟩ := bind_eq_ok.mp hopen
  obtain ⟨pending, hpending, hopen⟩ := bind_eq_ok.mp hopen
  cases hopen
  exact ⟨not_not.mp hparallel, Nat.le_of_not_lt hlimit, jobs, pending, hjobs, hpending, rfl⟩

theorem openWindow_booked (h : Sound json db)
    (hopen : openWindow env db logicalCpus limit parallel control = .ok w) :
    w.Booked (.bounded logicalCpus parallel) := by
  obtain ⟨_, _, jobs, pending, hjobs, hpending, rfl⟩ := openWindow_eq_ok hopen
  obtain ⟨hids, hrequests⟩ := hydrate_ok hpending
  have hbudget : (SchedulerPolicy.bounded logicalCpus parallel).memoryBudgetBytes < 2 ^ 64 - 1 := by
    show 2 * 1024 * mib < 2 ^ 64 - 1
    decide
  constructor
  case places =>
    show (pending.map PendingQueueJob.id ++ []).Perm (jobs.map JobRecord.id)
    rw [List.append_nil, hids]
  case distinct => exact (listQueuedJobsFair_ok h hjobs).1
  case active => exact List.Perm.refl _
  case slots => exact List.Perm.refl _
  case claimed => simp [Window.new, Point.held, Point.finishing]
  case heard => simp [Window.new, Point.heard]
  case scheduler => exact ResourceScheduler.sound_new hbudget
  case samePolicy => rfl
  case requests => exact hrequests
  case counters => rfl
  case peak => exact Nat.zero_le _

end Opening

end Anole
