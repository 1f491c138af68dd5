import Anole.Domain
import Anole.Common.Table

/-!
# The resource scheduler

Model of `crates/core/src/scheduler.rs`: which jobs of a queue window may run at
the same time. `ResourceScheduler` admits a request when the process limit, the
memory budget, the exclusive engines and the limit of its work class allow it, and
`requestForPlan` reads the request off a Plan.

The `BTreeMap` of active requests is a table keyed by job (`Table`), the `BTreeSet`
of exclusivity keys a list without repetitions.

Results:
* `ResourceScheduler.Sound`: the books of the scheduler (reserved memory, held keys,
  limits) agree with the active requests. Admission and release keep it.
* `tryAdmit_requestForPlan`: an idle scheduler admits the request of any Plan.
-/

namespace Anole

/-- `MIB` (line 8). -/
def mib : ℕ := 1024 * 1024

/-- `u64::saturating_add`. -/
def saturatingAdd (a b : ℕ) : ℕ := min (a + b) (2 ^ 64 - 1)

/-- `Ord::clamp`. -/
def clamp (n low high : ℕ) : ℕ := max low (min n high)

/-- `WorkClass` (lines 10–19). -/
inductive WorkClass where
  | lightweight | ioHeavy | cpuHeavy | memoryHeavy | gpu | serialEngine
  deriving DecidableEq

/-- `rank` (lines 218–227), by which work classes are ordered. -/
def WorkClass.rank : WorkClass → ℕ
  | lightweight => 0
  | ioHeavy => 1
  | cpuHeavy => 2
  | memoryHeavy => 3
  | gpu => 4
  | serialEngine => 5

/-- `Ord::max` on work classes. -/
def WorkClass.max (a b : WorkClass) : WorkClass := if b.rank < a.rank then a else b

/-- `AdmissionBlocker` (lines 21–29). -/
inductive AdmissionBlocker where
  | alreadyActive | processLimit | memoryBudget | exclusiveEngine | classLimit

/-- `ResourceRequest` (lines 31–37). -/
structure ResourceRequest where
  jobId : Uuid
  workClass : WorkClass
  memoryBytes : ℕ
  exclusivityKey : Option String
  deriving DecidableEq

/-- `SchedulerPolicy` (lines 39–46). -/
structure SchedulerPolicy where
  maxProcesses : ℕ
  maxCpuHeavy : ℕ
  maxIoHeavy : ℕ
  maxGpu : ℕ
  memoryBudgetBytes : ℕ

/-- `SchedulerPolicy::bounded` (lines 49–61) on a machine with `logicalCpus`. -/
def SchedulerPolicy.bounded (logicalCpus requestedProcesses : ℕ) : SchedulerPolicy :=
  let maxProcesses := clamp requestedProcesses 1 16
  { maxProcesses := maxProcesses
    maxCpuHeavy := clamp ((logicalCpus + 1) / 2) 1 maxProcesses
    maxIoHeavy := min 2 maxProcesses
    maxGpu := 1
    memoryBudgetBytes := 2 * 1024 * mib }

/-- The limit of a work class (lines 123–130). -/
def SchedulerPolicy.classLimit (policy : SchedulerPolicy) : WorkClass → ℕ
  | .cpuHeavy => policy.maxCpuHeavy
  | .ioHeavy => policy.maxIoHeavy
  | .gpu => policy.maxGpu
  | .lightweight | .memoryHeavy | .serialEngine => policy.maxProcesses

/-- `ResourceScheduler` (lines 64–70). -/
structure ResourceScheduler where
  policy : SchedulerPolicy
  active : List ResourceRequest
  exclusivityKeys : List String
  reservedMemoryBytes : ℕ

namespace ResourceScheduler

/-- `ResourceScheduler::new` (lines 73–81). -/
def new (policy : SchedulerPolicy) : ResourceScheduler :=
  { policy := policy, active := [], exclusivityKeys := [], reservedMemoryBytes := 0 }

/-- `active_count` (lines 83–86). -/
def activeCount (s : ResourceScheduler) : ℕ := s.active.length

/-- `admission_blocker` (lines 93–132). -/
def admissionBlocker (s : ResourceScheduler) (request : ResourceRequest) :
    Option AdmissionBlocker :=
  if ∃ r ∈ s.active, r.jobId = request.jobId then some .alreadyActive
  else if s.policy.maxProcesses ≤ s.active.length then some .processLimit
  else if s.policy.memoryBudgetBytes < saturatingAdd s.reservedMemoryBytes request.memoryBytes then
    some .memoryBudget
  else if request.exclusivityKey.any (· ∈ s.exclusivityKeys) then some .exclusiveEngine
  else if s.policy.classLimit request.workClass ≤
      s.active.countP (fun r => r.workClass = request.workClass) then some .classLimit
  else none

/-- `try_admit` (lines 134–146); `none` is `false`, which changes nothing. -/
def tryAdmit (s : ResourceScheduler) (request : ResourceRequest) : Option ResourceScheduler :=
  if (s.admissionBlocker request).isSome then none
  else some
    { s with
      reservedMemoryBytes := saturatingAdd s.reservedMemoryBytes request.memoryBytes
      exclusivityKeys := match request.exclusivityKey with
        | some key => s.exclusivityKeys.insert key
        | none => s.exclusivityKeys
      active := s.active ++ [request] }

/-- `release` (lines 148–159), without the flag that says whether the job was active. -/
def release (s : ResourceScheduler) (jobId : Uuid) : ResourceScheduler :=
  match s.active.find? fun r => r.jobId = jobId with
  | none => s
  | some request =>
    { s with
      active := Table.delete (fun r => r.jobId = jobId) s.active
      reservedMemoryBytes := s.reservedMemoryBytes - request.memoryBytes
      exclusivityKeys := match request.exclusivityKey with
        | some key => s.exclusivityKeys.erase key
        | none => s.exclusivityKeys }

end ResourceScheduler

/-! ## Requests of Plans -/

/-- `value.contains(marker)`. -/
def containsText (value marker : String) : Bool :=
  value.toList.tails.any fun rest => marker.toList.isPrefixOf rest

/-- The argument values that mark a step of a hardware encoder (lines 181–186). -/
def gpuMarkers : List String := ["nvenc", "qsv", "vaapi", "videotoolbox"]

/-- The step runs on a hardware encoder (lines 181–186). `String.map Char.toLower` is
    `to_ascii_lowercase`. -/
def PlanStep.usesGpu (step : PlanStep) : Bool :=
  step.arguments.any fun (_, value) =>
    gpuMarkers.any fun marker => containsText (value.map Char.toLower) marker

/-- The work class of an operation (lines 191–196). -/
def Operation.workClass : Operation → WorkClass
  | .inspect | .serialize => .lightweight
  | .remux | .metadataClean => .ioHeavy
  | .transcode => .cpuHeavy
  | .transform | .render => .memoryHeavy

/-- The loop of `request_for_plan` (lines 166–197) with its accumulators: the serial
    engines end it, a hardware encoder overrides the class so far. -/
def classifySteps : WorkClass → Option String → List PlanStep → WorkClass × Option String
  | workClass, exclusivityKey, [] => (workClass, exclusivityKey)
  | workClass, exclusivityKey, step :: steps =>
    if step.engine.engineId = "soffice" then (.serialEngine, some "soffice")
    else if step.engine.engineId = "msedge" then (.serialEngine, some "msedge")
    else if step.usesGpu then classifySteps .gpu (some "gpu-encoder") steps
    else classifySteps (workClass.max step.operation.workClass) exclusivityKey steps

/-- The memory reserved for a work class (lines 198–204). -/
def WorkClass.memoryBytes : WorkClass → ℕ
  | lightweight => 64 * mib
  | ioHeavy => 192 * mib
  | cpuHeavy | serialEngine => 1024 * mib
  | gpu => 512 * mib
  | memoryHeavy => 768 * mib

/-- `request_for_plan` (lines 163–211). -/
def requestForPlan (jobId : Uuid) (plan : Plan) : ResourceRequest :=
  let (workClass, exclusivityKey) := classifySteps .lightweight none plan.steps
  { jobId := jobId, workClass := workClass, memoryBytes := workClass.memoryBytes,
    exclusivityKey := exclusivityKey }

/-! ## The books of the scheduler -/

namespace ResourceScheduler

variable {s s' : ResourceScheduler} {request : ResourceRequest} {jobId : Uuid}

/-- The books of the scheduler agree with its active requests and with its policy. -/
structure Sound (s : ResourceScheduler) : Prop where
  budget : s.policy.memoryBudgetBytes < 2 ^ 64 - 1
  jobIds : Table.Keyed ResourceRequest.jobId s.active
  processes : s.active.length ≤ s.policy.maxProcesses
  memory : s.reservedMemoryBytes = (s.active.map ResourceRequest.memoryBytes).sum
  withinBudget : s.reservedMemoryBytes ≤ s.policy.memoryBudgetBytes
  keys : s.exclusivityKeys.Perm (s.active.filterMap ResourceRequest.exclusivityKey)
  exclusive : s.exclusivityKeys.Nodup
  classes : ∀ c, s.active.countP (fun r => r.workClass = c) ≤ s.policy.classLimit c

theorem sound_new {policy : SchedulerPolicy} (h : policy.memoryBudgetBytes < 2 ^ 64 - 1) :
    (new policy).Sound where
  budget := h
  jobIds := Table.Keyed.nil
  processes := Nat.zero_le _
  memory := rfl
  withinBudget := Nat.zero_le _
  keys := List.Perm.refl _
  exclusive := List.nodup_nil
  classes := fun _ => Nat.zero_le _

/-- What an unblocked request meets. -/
structure Fits (s : ResourceScheduler) (request : ResourceRequest) : Prop where
  inactive : ∀ r ∈ s.active, r.jobId ≠ request.jobId
  processes : s.active.length < s.policy.maxProcesses
  memory : saturatingAdd s.reservedMemoryBytes request.memoryBytes ≤ s.policy.memoryBudgetBytes
  exclusive : ∀ key, request.exclusivityKey = some key → key ∉ s.exclusivityKeys
  workClass : s.active.countP (fun r => r.workClass = request.workClass) <
    s.policy.classLimit request.workClass

theorem admissionBlocker_eq_none : s.admissionBlocker request = none ↔ s.Fits request := by
  unfold admissionBlocker
  constructor
  · intro h
    split_ifs at h with h1 h2 h3 h4 h5
    refine ⟨?_, Nat.lt_of_not_le h2, Nat.le_of_not_lt h3, ?_, Nat.lt_of_not_le h5⟩
    · intro r hr hid
      exact h1 ⟨r, hr, hid⟩
    · intro key hkey hmem
      exact h4 (by simpa [hkey] using hmem)
  · intro h
    have h1 : ¬ ∃ r ∈ s.active, r.jobId = request.jobId := by
      rintro ⟨r, hr, hid⟩
      exact h.inactive r hr hid
    have h4 : ¬ request.exclusivityKey.any (· ∈ s.exclusivityKeys) = true := by
      rw [Option.any_eq_true]
      rintro ⟨key, hkey, hmem⟩
      exact h.exclusive key hkey (by simpa using hmem)
    rw [if_neg h1, if_neg (Nat.not_le.mpr h.processes), if_neg (Nat.not_lt.mpr h.memory), if_neg h4,
      if_neg (Nat.not_le.mpr h.workClass)]

/-- The specification of `try_admit`. -/
theorem tryAdmit_eq_some : s.tryAdmit request = some s' ↔ s.Fits request ∧ s' =
    { s with
      reservedMemoryBytes := saturatingAdd s.reservedMemoryBytes request.memoryBytes
      exclusivityKeys := match request.exclusivityKey with
        | some key => s.exclusivityKeys.insert key
        | none => s.exclusivityKeys
      active := s.active ++ [request] } := by
  unfold tryAdmit
  rw [← admissionBlocker_eq_none]
  split_ifs with h
  · rw [Option.isSome_iff_ne_none] at h
    simp [h]
  · rw [Option.not_isSome_iff_eq_none] at h
    simp [h, eq_comm]

theorem tryAdmit_of_fits (h : s.Fits request) : ∃ s', s.tryAdmit request = some s' :=
  ⟨_, tryAdmit_eq_some.mpr ⟨h, rfl⟩⟩

/-- Admission adds the request to the active ones and keeps the books. -/
theorem Sound.tryAdmit (h : s.Sound) (htry : s.tryAdmit request = some s') :
    s'.Sound ∧ s'.policy = s.policy ∧ s'.active = s.active ++ [request] := by
  obtain ⟨hfits, rfl⟩ := tryAdmit_eq_some.mp htry
  refine ⟨?_, rfl, rfl⟩
  have hbudget := h.budget
  have hroom := hfits.memory
  have hsum : saturatingAdd s.reservedMemoryBytes request.memoryBytes =
      s.reservedMemoryBytes + request.memoryBytes := by
    unfold saturatingAdd at hroom ⊢
    omega
  constructor
  case budget => exact hbudget
  case jobIds => exact h.jobIds.append hfits.inactive
  case processes =>
    have := hfits.processes
    simp only [List.length_append, List.length_singleton]
    omega
  case memory =>
    simp only [List.map_append, List.map_cons, List.map_nil, List.sum_append, List.sum_cons,
      List.sum_nil, Nat.add_zero]
    rw [hsum, h.memory]
  case withinBudget => exact hroom
  case keys =>
    cases hkey : request.exclusivityKey with
    | none => simpa [hkey] using h.keys
    | some key =>
      have hnew := hfits.exclusive key hkey
      simp only [List.insert_of_not_mem hnew, List.filterMap_append, List.filterMap_cons, hkey,
        List.filterMap_nil]
      exact (List.Perm.cons key h.keys).trans (List.perm_append_singleton _ _).symm
  case exclusive =>
    cases request.exclusivityKey with
    | none => exact h.exclusive
    | some key => exact h.exclusive.insert
  case classes =>
    intro c
    rw [List.countP_append, List.countP_singleton]
    by_cases hc : request.workClass = c
    · subst hc
      have := hfits.workClass
      simp only [decide_true, if_true]
      omega
    · simpa [hc] using h.classes c

/-- The specification of `release`: the job is no longer active. -/
theorem release_active (s : ResourceScheduler) (jobId : Uuid) :
    (s.release jobId).active = Table.delete (fun r => r.jobId = jobId) s.active := by
  unfold release
  split
  · next hnone =>
    exact (Table.delete_eq_self fun r hr => by simpa using Table.find?_eq_none.mp hnone r hr).symm
  · rfl

theorem Sound.release_jobIds (h : s.Sound) (jobId : Uuid) :
    (s.release jobId).active.map ResourceRequest.jobId =
      (s.active.map ResourceRequest.jobId).erase jobId := by
  rw [release_active, List.Nodup.erase_eq_filter h.jobIds, List.filter_map]
  congr 1

@[simp] theorem release_policy (s : ResourceScheduler) (jobId : Uuid) :
    (s.release jobId).policy = s.policy := by
  unfold release
  split
  · rfl
  · rfl

theorem Sound.release (h : s.Sound) (jobId : Uuid) : (s.release jobId).Sound := by
  unfold ResourceScheduler.release
  split
  · exact h
  · next request hfind =>
    obtain ⟨hmem, hid⟩ := h.jobIds.find?_eq_some.mp hfind
    have hperm : s.active.Perm (request :: Table.delete (fun r => r.jobId = jobId) s.active) :=
      h.jobIds.perm_cons_delete hmem fun r => by simp [hid]
    have hlength := hperm.length_eq
    have hsum := (hperm.map ResourceRequest.memoryBytes).sum_nat
    have hkeys := h.keys.trans (hperm.filterMap ResourceRequest.exclusivityKey)
    rw [List.length_cons] at hlength
    rw [List.map_cons, List.sum_cons] at hsum
    have hmemory := h.memory
    have hwithin := h.withinBudget
    have hprocesses := h.processes
    constructor
    case budget => exact h.budget
    case jobIds => exact h.jobIds.delete
    case processes =>
      simp only
      omega
    case memory =>
      simp only
      omega
    case withinBudget =>
      simp only
      omega
    case keys =>
      cases hkey : request.exclusivityKey with
      | none => simpa [hkey] using hkeys
      | some key =>
        rw [List.filterMap_cons_some hkey] at hkeys
        simpa using hkeys.erase key
    case exclusive =>
      cases request.exclusivityKey with
      | none => exact h.exclusive
      | some key => exact h.exclusive.erase key
    case classes =>
      intro c
      exact (List.Sublist.countP_le List.filter_sublist).trans (h.classes c)

theorem Sound.idle (h : s.Sound) (hidle : s.active = []) :
    s.reservedMemoryBytes = 0 ∧ s.exclusivityKeys = [] := by
  refine ⟨by simpa [hidle] using h.memory, ?_⟩
  have hkeys := h.keys
  rw [hidle] at hkeys
  exact List.perm_nil.mp hkeys

end ResourceScheduler

/-! ## Plans fit into an idle scheduler -/

theorem WorkClass.memoryBytes_le (c : WorkClass) : c.memoryBytes ≤ 1024 * mib := by
  cases c <;> decide

theorem bounded_classLimit_pos (logicalCpus requested : ℕ) (c : WorkClass) :
    0 < (SchedulerPolicy.bounded logicalCpus requested).classLimit c := by
  have hprocesses : 0 < clamp requested 1 16 := by unfold clamp; omega
  cases c with
  | cpuHeavy =>
    show 0 < clamp _ 1 _
    unfold clamp
    omega
  | ioHeavy =>
    show 0 < min 2 (clamp requested 1 16)
    omega
  | gpu => exact Nat.one_pos
  | lightweight | memoryHeavy | serialEngine => exact hprocesses

/-- **An idle scheduler admits the request of any Plan.** -/
theorem tryAdmit_requestForPlan {s : ResourceScheduler} (h : s.Sound) (hidle : s.active = [])
    {logicalCpus requested : ℕ} (hpolicy : s.policy = .bounded logicalCpus requested) (jobId : Uuid)
    (plan : Plan) : ∃ s', s.tryAdmit (requestForPlan jobId plan) = some s' := by
  obtain ⟨hreserved, hkeys⟩ := h.idle hidle
  refine ResourceScheduler.tryAdmit_of_fits ⟨?_, ?_, ?_, ?_, ?_⟩
  · simp [hidle]
  · have hpos := bounded_classLimit_pos logicalCpus requested .lightweight
    rw [hidle, hpolicy]
    exact hpos
  · have hmemory := (requestForPlan jobId plan).workClass.memoryBytes_le
    have hbudget : s.policy.memoryBudgetBytes = 2 * 1024 * mib := by rw [hpolicy]; rfl
    have hmib : mib = 1048576 := rfl
    change saturatingAdd s.reservedMemoryBytes (requestForPlan jobId plan).workClass.memoryBytes ≤ _
    unfold saturatingAdd
    omega
  · simp [hkeys]
  · have hpos := bounded_classLimit_pos logicalCpus requested (requestForPlan jobId plan).workClass
    rw [hidle, hpolicy]
    exact hpos

end Anole
