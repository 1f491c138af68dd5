import Mathlib.Algebra.Order.Group.Nat
import Anole.Common.Largest
import Anole.Folder.Mapping
import Anole.Queue.Scheduler

/-!
# The disk budget of a folder batch

Model of `FolderBatchService::disk_budget` (`crates/core/src/application/folder_batch.rs`, lines
144–205): the outputs of all jobs, the temporary files of the jobs that run at a time, and a margin,
against the space that is free.

* `diskBudget_eq_ok`: the budget is that of exact sums, cut to 64 bits.
* `disk_budget_sound_iff`: when the budget covers every schedule of every part of a batch.

**Deviation.** A job without any estimate counts twice its input, but a step without one counts
nothing beside a step that has one.
-/

open Common

namespace Anole.Folder

open Anole.Planning (failIf_eq_ok saturatingMul u64Max)

/-! ## Definitions -/

/-- What `disk_budget` reads of a `JobCreateRequest`: `input_path`, and of its Plan
    `estimated_output_bytes` and the `estimated_temporary_bytes` of the steps. -/
structure BudgetRequest where
  inputPath : PathBuf
  estimatedOutputBytes : Option ℕ
  temporaryBytes : List (Option ℕ)

/-- `FolderDiskBudget` (lines 30–38). -/
structure FolderDiskBudget where
  estimatedOutputBytes : ℕ
  peakTemporaryBytes : ℕ
  safetyMarginBytes : ℕ
  requiredBytes : ℕ
  availableBytes : ℕ
  sufficient : Bool
  deriving DecidableEq

/-- A system with the lengths of its files and the free space of its disks. -/
structure BudgetDisk extends System where
  metadata : PathBuf → Except String ℕ
  availableSpace : AbsPath → Except String ℕ

/-- `output_bytes` of a job (lines 163–166). -/
def outputBytes (inputBytes : ℕ) (request : BudgetRequest) : ℕ :=
  request.estimatedOutputBytes.getD (saturatingAdd (saturatingMul inputBytes 2) (64 * 1024))

/-- The estimates of the steps that have one. -/
def BudgetRequest.known (request : BudgetRequest) : List ℕ := request.temporaryBytes.filterMap id

/-- `peak` of a job (lines 168–174). -/
def temporaryPeak (inputBytes : ℕ) (request : BudgetRequest) : ℕ :=
  request.known.max?.getD (saturatingMul inputBytes 2)

/-- The body of the loop over the requests (lines 159–175). -/
def measureRequest (disk : BudgetDisk) (request : BudgetRequest) : Except AnoleError (ℕ × ℕ) := do
  let inputBytes ← (disk.metadata request.inputPath).mapError
    (folderIoError request.inputPath.toStringLossy "measure")
  pure (outputBytes inputBytes request, temporaryPeak inputBytes request)

/-- The arithmetic on what was measured (lines 176–203). -/
def budgetFrom (measured : List (ℕ × ℕ)) (parallelism available : ℕ) : FolderDiskBudget :=
  let estimated := (measured.map Prod.fst).foldl saturatingAdd 0
  let temporary := (measured.map Prod.snd).insertionSort (· ≥ ·)
  let peak := (temporary.take parallelism).foldl saturatingAdd 0
  let working := saturatingAdd estimated peak
  let margin := max (working / 10) (256 * 1024 * 1024)
  let required := saturatingAdd working margin
  { estimatedOutputBytes := estimated
    peakTemporaryBytes := peak
    safetyMarginBytes := margin
    requiredBytes := required
    availableBytes := available
    sufficient := available ≥ required }

/-- `FolderBatchService::disk_budget` (lines 150–204). -/
def diskBudget (disk : BudgetDisk) (outputRoot : PathBuf) (requests : List BudgetRequest)
    (parallelism : ℕ) : Except AnoleError FolderDiskBudget := do
  let outputRoot ← canonicalLocalDirectory disk.toSystem outputRoot "output"
  let measured ← requests.mapM (measureRequest disk)
  let available ← (disk.availableSpace outputRoot).mapError
    (AnoleError.new .storageFailed .store
      s!"Cannot read available space for folder batch output: {disk.display outputRoot}"
      "Choose a local output disk with readable capacity information.").withDiagnostic
  pure (budgetFrom measured (clamp parallelism 1 16) available)

/-! ## Exact sums -/

section Exact

variable (disk : BudgetDisk)

/-- The size of the input of a job. -/
def BudgetDisk.inputBytes (request : BudgetRequest) : ℕ := ((disk.metadata request.inputPath).toOption).getD 0

/-- The size of the input can be read. -/
def BudgetDisk.Measures (request : BudgetRequest) : Prop := (disk.metadata request.inputPath).isOk = true

instance (request : BudgetRequest) : Decidable (disk.Measures request) := inferInstanceAs (Decidable (_ = _))

/-- The output of a job. -/
def exactOutput (request : BudgetRequest) : ℕ :=
  request.estimatedOutputBytes.getD (disk.inputBytes request * 2 + 64 * 1024)

/-- The temporary files that are counted for a job. -/
def exactPeak (request : BudgetRequest) : ℕ := request.known.max?.getD (disk.inputBytes request * 2)

/-- The outputs of all jobs. -/
def totalOutput (requests : List BudgetRequest) : ℕ := (requests.map (exactOutput disk)).sum

/-- The temporary files that are counted for jobs of which some run at a time. -/
def totalPeak (requests : List BudgetRequest) (parallelism : ℕ) : ℕ :=
  (largest (clamp parallelism 1 16) (requests.map (exactPeak disk))).sum

/-- The work and its margin. -/
def withMargin (working : ℕ) : ℕ := working + max (working / 10) (256 * 1024 * 1024)

/-- What a batch needs. -/
def exactRequired (requests : List BudgetRequest) (parallelism : ℕ) : ℕ :=
  withMargin (totalOutput disk requests + totalPeak disk requests parallelism)

variable {disk} {root : PathBuf} {request : BudgetRequest} {requests : List BudgetRequest}
  {parallelism : ℕ} {measured : List (ℕ × ℕ)} {budget : FolderDiskBudget}

theorem saturatingAdd_eq (a b : ℕ) : saturatingAdd a b = min (a + b) u64Max := rfl

theorem foldl_saturatingAdd (l : List ℕ) : l.foldl saturatingAdd 0 = min l.sum u64Max := by
  have h : ∀ a ≤ u64Max, l.foldl saturatingAdd a = min (a + l.sum) u64Max := by
    induction l with
    | nil =>
      intro a ha
      simpa using ha
    | cons b l ih =>
      intro a _
      have hle : saturatingAdd a b ≤ u64Max := min_le_right _ _
      rw [List.foldl_cons, ih _ hle, List.sum_cons, saturatingAdd_eq]
      omega
  simpa using h 0 (Nat.zero_le _)

theorem min_cut (n m bound : ℕ) : min (min (min n bound + m) bound) bound = min (n + m) bound := by
  omega

theorem min_outputBytes (disk : BudgetDisk) (request : BudgetRequest) :
    min (outputBytes (disk.inputBytes request) request) u64Max = min (exactOutput disk request) u64Max := by
  rw [outputBytes, exactOutput]
  cases request.estimatedOutputBytes with
  | some bytes => rw [Option.getD_some, Option.getD_some]
  | none =>
    rw [Option.getD_none, Option.getD_none, saturatingAdd_eq, saturatingMul]
    exact min_cut _ _ _

theorem min_temporaryPeak (disk : BudgetDisk) (request : BudgetRequest) :
    min (temporaryPeak (disk.inputBytes request) request) u64Max = min (exactPeak disk request) u64Max := by
  rw [temporaryPeak, exactPeak]
  cases request.known.max? with
  | some bytes => rw [Option.getD_some, Option.getD_some]
  | none => simp [saturatingMul]

/-- A sum that is as large as each of its numbers does not tell numbers apart that are cut alike. -/
theorem min_map_congr (total : List ℕ → ℕ) {cut exact : BudgetRequest → ℕ}
    (htotal : ∀ l : List ℕ, ∀ n ∈ l, n ≤ total l) (h : ∀ request, min (cut request) u64Max = min (exact request) u64Max) :
    min (total (requests.map cut)) u64Max = min (total (requests.map exact)) u64Max := by
  by_cases hsmall : ∀ request ∈ requests, cut request = exact request
  · rw [List.map_congr_left hsmall]
  · push Not at hsmall
    obtain ⟨request, hmem, hne⟩ := hsmall
    have hcut : cut request ≤ total (requests.map cut) := htotal _ _ (List.mem_map_of_mem hmem)
    have hexact : exact request ≤ total (requests.map exact) := htotal _ _ (List.mem_map_of_mem hmem)
    have hrequest := h request
    omega

theorem mapM_measureRequest : requests.mapM (measureRequest disk) = .ok measured ↔
    (∀ request ∈ requests, disk.Measures request) ∧
      measured = requests.map fun request =>
        (outputBytes (disk.inputBytes request) request, temporaryPeak (disk.inputBytes request) request) := by
  have hone : ∀ request pair, measureRequest disk request = .ok pair ↔ disk.Measures request ∧
      pair = (outputBytes (disk.inputBytes request) request, temporaryPeak (disk.inputBytes request) request) := by
    intro request pair
    rw [measureRequest, BudgetDisk.Measures, BudgetDisk.inputBytes]
    cases disk.metadata request.inputPath with
    | error diagnostic => simp [Except.mapError, Except.isOk, Except.toBool, bind, Except.bind]
    | ok bytes => simp [Except.mapError, Except.isOk, Except.toBool, bind, Except.bind, pure, Except.pure,
        Except.toOption, eq_comm]
  rw [mapM_eq_ok]
  simp only [hone]
  induction requests generalizing measured with
  | nil => simp
  | cons request requests ih =>
    rw [List.forall₂_cons_left_iff, List.forall_mem_cons, List.map_cons]
    constructor
    · rintro ⟨pair, rest, ⟨hmeasures, rfl⟩, hrest, rfl⟩
      obtain ⟨hall, rfl⟩ := ih.mp hrest
      exact ⟨⟨hmeasures, hall⟩, rfl⟩
    · rintro ⟨⟨hmeasures, hall⟩, rfl⟩
      exact ⟨_, _, ⟨hmeasures, rfl⟩, ih.mpr ⟨hall, rfl⟩, rfl⟩

/-- The budget of a batch, in exact numbers cut to 64 bits. -/
def budgetOf (disk : BudgetDisk) (requests : List BudgetRequest) (parallelism available : ℕ) : FolderDiskBudget :=
  let estimated := min (totalOutput disk requests) u64Max
  let peak := min (totalPeak disk requests parallelism) u64Max
  let working := saturatingAdd estimated peak
  let required := min (exactRequired disk requests parallelism) u64Max
  { estimatedOutputBytes := estimated
    peakTemporaryBytes := peak
    safetyMarginBytes := max (working / 10) (256 * 1024 * 1024)
    requiredBytes := required
    availableBytes := available
    sufficient := available ≥ required }

theorem clamp_pos (parallelism : ℕ) : 0 < clamp parallelism 1 16 :=
  Nat.lt_of_lt_of_le Nat.zero_lt_one (le_max_left _ _)

theorem estimated_eq (disk : BudgetDisk) (requests : List BudgetRequest) :
    (requests.map fun request => outputBytes (disk.inputBytes request) request).foldl saturatingAdd 0 =
      min (totalOutput disk requests) u64Max := by
  rw [foldl_saturatingAdd]
  exact min_map_congr List.sum (fun l n hn => List.single_le_sum (fun _ _ => Nat.zero_le _) n hn) (min_outputBytes disk)

theorem peak_eq (disk : BudgetDisk) (requests : List BudgetRequest) (parallelism : ℕ) :
    (largest (clamp parallelism 1 16) (requests.map fun request =>
        temporaryPeak (disk.inputBytes request) request)).foldl saturatingAdd 0 =
      min (totalPeak disk requests parallelism) u64Max := by
  rw [foldl_saturatingAdd]
  exact min_map_congr (fun l => (largest (clamp parallelism 1 16) l).sum)
    (fun l n hn => le_sum_largest hn (clamp_pos parallelism)) (min_temporaryPeak disk)

theorem required_eq (estimated peak : ℕ) :
    saturatingAdd (saturatingAdd (min estimated u64Max) (min peak u64Max))
      (max (saturatingAdd (min estimated u64Max) (min peak u64Max) / 10) (256 * 1024 * 1024)) =
    min (withMargin (estimated + peak)) u64Max := by
  rw [saturatingAdd_eq, saturatingAdd_eq, withMargin]
  omega

theorem budgetFrom_measured (requests : List BudgetRequest) (parallelism available : ℕ) :
    budgetFrom (requests.map fun request =>
        (outputBytes (disk.inputBytes request) request, temporaryPeak (disk.inputBytes request) request))
      (clamp parallelism 1 16) available = budgetOf disk requests parallelism available := by
  have hestimated := estimated_eq disk requests
  have hpeak := peak_eq disk requests parallelism
  have hrequired := required_eq (totalOutput disk requests) (totalPeak disk requests parallelism)
  rw [largest] at hpeak
  simp only [budgetFrom, budgetOf, exactRequired, List.map_map, Function.comp_def, hestimated, hpeak, hrequired]
  rfl

/-- **The budget of a batch.** -/
theorem diskBudget_eq_ok : diskBudget disk root requests parallelism = .ok budget ↔
    ∃ outputRoot available, canonicalLocalDirectory disk.toSystem root "output" = .ok outputRoot ∧
      disk.availableSpace outputRoot = .ok available ∧ (∀ request ∈ requests, disk.Measures request) ∧
      budget = budgetOf disk requests parallelism available := by
  simp only [diskBudget, bind_eq_ok, mapM_measureRequest, mapError_eq_ok]
  constructor
  · rintro ⟨outputRoot, hroot, _, ⟨hmeasures, rfl⟩, available, havailable, hbudget⟩
    rw [budgetFrom_measured] at hbudget
    exact ⟨outputRoot, available, hroot, havailable, hmeasures, (Except.ok.inj hbudget).symm⟩
  · rintro ⟨outputRoot, available, hroot, havailable, hmeasures, rfl⟩
    refine ⟨outputRoot, hroot, _, ⟨hmeasures, rfl⟩, available, havailable, ?_⟩
    rw [budgetFrom_measured]
    rfl

end Exact

/-! ## What the budget covers -/

section Sound

variable (disk : BudgetDisk)

/-- Jobs of a batch that run at a time, each with one of its steps. -/
structure Schedule (requests : List BudgetRequest) (parallelism : ℕ)
    (running : List (BudgetRequest × Option ℕ)) : Prop where
  jobs : (running.map Prod.fst).Sublist requests
  parallel : running.length ≤ clamp parallelism 1 16
  steps : ∀ job ∈ running, job.2 ∈ job.1.temporaryBytes

/-- The temporary files of a step; without an estimate twice the input. -/
def stepBytes (job : BudgetRequest × Option ℕ) : ℕ := job.2.getD (disk.inputBytes job.1 * 2)

/-- The budget of a batch bounds every schedule, unless it reached the largest number; it grows with the batch
    and the parallelism, stays within 64 bits, and is not sufficient when the exact one does not. -/
structure BudgetSound (root : PathBuf) (requests : List BudgetRequest) (parallelism : ℕ) : Prop where
  covers : ∀ budget running, diskBudget disk root requests parallelism = .ok budget →
    Schedule requests parallelism running →
      totalOutput disk requests + (running.map (stepBytes disk)).sum ≤
          budget.estimatedOutputBytes + budget.peakTemporaryBytes ∨
        u64Max ≤ budget.estimatedOutputBytes + budget.peakTemporaryBytes
  grows : ∀ more parallelism' budget budget', requests.Subperm more → parallelism ≤ parallelism' →
    diskBudget disk root requests parallelism = .ok budget →
    diskBudget disk root more parallelism' = .ok budget' → budget.requiredBytes ≤ budget'.requiredBytes
  fits : ∀ budget, diskBudget disk root requests parallelism = .ok budget →
    budget.estimatedOutputBytes ≤ u64Max ∧ budget.peakTemporaryBytes ≤ u64Max ∧
      budget.safetyMarginBytes ≤ u64Max ∧ budget.requiredBytes ≤ u64Max
  saturated : ∀ budget, diskBudget disk root requests parallelism = .ok budget →
    u64Max < exactRequired disk requests parallelism → budget.sufficient = false

/-- A step has no estimate, and those of the others are below twice the input. -/
def Undercounted (request : BudgetRequest) : Prop :=
  none ∈ request.temporaryBytes ∧ exactPeak disk request < disk.inputBytes request * 2

variable {disk} {root : PathBuf} {request : BudgetRequest} {requests more : List BudgetRequest}
  {parallelism parallelism' : ℕ}

theorem exactRequired_mono (hmore : requests.Subperm more) (hparallelism : parallelism ≤ parallelism') :
    exactRequired disk requests parallelism ≤ exactRequired disk more parallelism' := by
  obtain ⟨part, hperm, hsub⟩ := hmore
  have houtput : totalOutput disk requests ≤ totalOutput disk more := by
    rw [totalOutput, ← (hperm.map _).sum_eq]
    exact (hsub.map _).sum_le_sum fun _ _ => Nat.zero_le _
  have hpeaks : (requests.map (exactPeak disk)).Subperm (more.map (exactPeak disk)) :=
    ⟨part.map (exactPeak disk), hperm.map _, hsub.map _⟩
  have hclamp : clamp parallelism 1 16 ≤ clamp parallelism' 1 16 :=
    max_le_max_left 1 (min_le_min_right 16 hparallelism)
  have hpeak : totalPeak disk requests parallelism ≤ totalPeak disk more parallelism' :=
    sum_largest_mono hpeaks hclamp
  rw [exactRequired, exactRequired, withMargin, withMargin]
  omega

/-- A step takes no more than what is counted for its job, unless the job is undercounted. -/
theorem stepBytes_le {step : Option ℕ} (hstep : step ∈ request.temporaryBytes) (h : ¬ Undercounted disk request) :
    stepBytes disk (request, step) ≤ exactPeak disk request := by
  cases step with
  | none => exact not_lt.mp fun hlt => h ⟨hstep, hlt⟩
  | some bytes =>
    have hknown : bytes ∈ request.known := List.mem_filterMap.mpr ⟨some bytes, hstep, rfl⟩
    show bytes ≤ request.known.max?.getD (disk.inputBytes request * 2)
    cases hmax : request.known.max? with
    | none =>
      rw [List.max?_eq_none_iff.mp hmax] at hknown
      exact absurd hknown List.not_mem_nil
    | some greatest => exact (List.max?_eq_some_iff.mp hmax).2 bytes hknown

/-- The jobs of a schedule take no more than what is counted for them. -/
theorem Schedule.sum_le {running : List (BudgetRequest × Option ℕ)} (h : Schedule requests parallelism running)
    (hcounted : ∀ request ∈ requests, ¬ Undercounted disk request) :
    (running.map (stepBytes disk)).sum ≤ totalPeak disk requests parallelism := by
  have hpart : ((running.map Prod.fst).map (exactPeak disk)).Subperm (requests.map (exactPeak disk)) :=
    (h.jobs.map _).subperm
  have hjobs : (running.map (stepBytes disk)).sum ≤ ((running.map Prod.fst).map (exactPeak disk)).sum := by
    rw [List.map_map]
    refine List.sum_le_sum fun job hjob => ?_
    have hmem : job.1 ∈ requests := h.jobs.subset (List.mem_map_of_mem hjob)
    exact stepBytes_le (h.steps job hjob) (hcounted job.1 hmem)
  refine hjobs.trans (sum_le_sum_largest hpart ?_)
  rw [List.length_map, List.length_map]
  exact h.parallel

/-- What the free space and the undercounted jobs of a pool have to be. -/
def PoolFits (disk : BudgetDisk) (pool : List BudgetRequest) (available : ℕ) : Prop :=
  (∀ request ∈ pool, disk.Measures request → Undercounted disk request →
    u64Max ≤ exactOutput disk request + exactPeak disk request) ∧
  (available < u64Max ∨ exactRequired disk (pool.filter (disk.Measures ·)) 16 ≤ u64Max)

theorem PoolFits.covers {pool : List BudgetRequest} {available : ℕ} (h : PoolFits disk pool available)
    (hbatch : requests.Sublist pool) (hmeasures : ∀ request ∈ requests, disk.Measures request)
    {running : List (BudgetRequest × Option ℕ)} (hrunning : Schedule requests parallelism running) :
    let budget := budgetOf disk requests parallelism available
    totalOutput disk requests + (running.map (stepBytes disk)).sum ≤
        budget.estimatedOutputBytes + budget.peakTemporaryBytes ∨
      u64Max ≤ budget.estimatedOutputBytes + budget.peakTemporaryBytes := by
  show _ ≤ min (totalOutput disk requests) u64Max + min (totalPeak disk requests parallelism) u64Max ∨
    u64Max ≤ min (totalOutput disk requests) u64Max + min (totalPeak disk requests parallelism) u64Max
  by_cases hcounted : ∀ request ∈ requests, ¬ Undercounted disk request
  · have hsum := hrunning.sum_le hcounted
    omega
  · push Not at hcounted
    obtain ⟨request, hmem, hunder⟩ := hcounted
    have hlarge := h.1 request (hbatch.subset hmem) (hmeasures request hmem) hunder
    have houtput : exactOutput disk request ≤ totalOutput disk requests :=
      List.single_le_sum (fun _ _ => Nat.zero_le _) _ (List.mem_map_of_mem hmem)
    have hpeak : exactPeak disk request ≤ totalPeak disk requests parallelism :=
      le_sum_largest (List.mem_map_of_mem hmem) (clamp_pos parallelism)
    omega

theorem PoolFits.saturated {pool : List BudgetRequest} {available : ℕ} (h : PoolFits disk pool available)
    (hbatch : requests.Sublist pool) (hmeasures : ∀ request ∈ requests, disk.Measures request)
    (hlarge : u64Max < exactRequired disk requests parallelism) :
    (budgetOf disk requests parallelism available).sufficient = false := by
  have hmeasured : requests.Sublist (pool.filter (disk.Measures ·)) := by
    have hfilter := hbatch.filter (disk.Measures ·)
    rwa [List.filter_eq_self.mpr fun request hmem => decide_eq_true (hmeasures request hmem)] at hfilter
  have hclamp : exactRequired disk requests parallelism = exactRequired disk requests (clamp parallelism 1 16) := by
    have htwice : clamp (clamp parallelism 1 16) 1 16 = clamp parallelism 1 16 := by
      rw [clamp, clamp]
      omega
    rw [exactRequired, exactRequired, totalPeak, totalPeak, htwice]
  have hle : clamp parallelism 1 16 ≤ 16 := by
    rw [clamp]
    omega
  have hpool : exactRequired disk requests (clamp parallelism 1 16) ≤
      exactRequired disk (pool.filter (disk.Measures ·)) 16 := exactRequired_mono hmeasured.subperm hle
  have havailable : available < u64Max := by
    refine h.2.resolve_right fun hsmall => ?_
    omega
  show decide (available ≥ min (exactRequired disk requests parallelism) u64Max) = false
  rw [decide_eq_false_iff_not]
  omega

theorem requiredBytes_mono {budget budget' : FolderDiskBudget} (hmore : requests.Subperm more)
    (hparallelism : parallelism ≤ parallelism') (hbudget : diskBudget disk root requests parallelism = .ok budget)
    (hbudget' : diskBudget disk root more parallelism' = .ok budget') :
    budget.requiredBytes ≤ budget'.requiredBytes := by
  obtain ⟨_, _, -, -, -, rfl⟩ := diskBudget_eq_ok.mp hbudget
  obtain ⟨_, _, -, -, -, rfl⟩ := diskBudget_eq_ok.mp hbudget'
  exact min_le_min_right u64Max (exactRequired_mono hmore hparallelism)

theorem budget_le_u64Max {budget : FolderDiskBudget} (hbudget : diskBudget disk root requests parallelism = .ok budget) :
    budget.estimatedOutputBytes ≤ u64Max ∧ budget.peakTemporaryBytes ≤ u64Max ∧
      budget.safetyMarginBytes ≤ u64Max ∧ budget.requiredBytes ≤ u64Max := by
  obtain ⟨_, _, -, -, -, rfl⟩ := diskBudget_eq_ok.mp hbudget
  refine ⟨min_le_right _ _, min_le_right _ _, max_le ?_ (by decide), min_le_right _ _⟩
  exact (Nat.div_le_self _ _).trans (min_le_right _ _)

/-- **The disk budget.** -/
theorem disk_budget_sound_iff (disk : BudgetDisk) (root : PathBuf) (pool : List BudgetRequest) :
    (∀ batch : List BudgetRequest, batch.Sublist pool → ∀ parallelism, BudgetSound disk root batch parallelism) ↔
      ∀ outputRoot available, canonicalLocalDirectory disk.toSystem root "output" = .ok outputRoot →
        disk.availableSpace outputRoot = .ok available → PoolFits disk pool available := by
  constructor
  · intro hsound outputRoot available hroot havailable
    have hbudget : ∀ {requests : List BudgetRequest} {parallelism : ℕ},
        (∀ request ∈ requests, disk.Measures request) →
        diskBudget disk root requests parallelism = .ok (budgetOf disk requests parallelism available) :=
      fun hmeasures => diskBudget_eq_ok.mpr ⟨outputRoot, available, hroot, havailable, hmeasures, rfl⟩
    refine ⟨fun request hmem hmeasures hunder => ?_, ?_⟩
    · -- the job alone, with its step without an estimate
      have halone : Schedule [request] 1 [(request, none)] := by
        refine ⟨List.Sublist.refl _, le_refl 1, fun job hjob => ?_⟩
        rw [List.mem_singleton.mp hjob]
        exact hunder.1
      have hcovers := (hsound [request] (List.singleton_sublist.mpr hmem) 1).covers _ _
        (hbudget (by simpa using hmeasures)) halone
      have hoverrun : exactPeak disk request < disk.inputBytes request * 2 := hunder.2
      change exactOutput disk request + 0 + (disk.inputBytes request * 2 + 0) ≤
          min (exactOutput disk request + 0) u64Max + min (exactPeak disk request + 0) u64Max ∨
        u64Max ≤ min (exactOutput disk request + 0) u64Max + min (exactPeak disk request + 0) u64Max at hcovers
      omega
    · -- all jobs whose inputs can be measured, at the largest parallelism
      by_contra hneither
      rw [not_or, not_lt, not_le] at hneither
      have hsufficient := (hsound _ List.filter_sublist 16).saturated _
        (hbudget fun request hmem => of_decide_eq_true (List.mem_filter.mp hmem).2) hneither.2
      refine (of_decide_eq_false hsufficient) ?_
      exact (min_le_right _ _).trans hneither.1
  · intro hfits batch hbatch parallelism
    refine ⟨fun budget running hbudget hrunning => ?_, fun _ _ _ _ => requiredBytes_mono,
      fun _ => budget_le_u64Max, fun budget hbudget hlarge => ?_⟩
    · obtain ⟨outputRoot, available, hroot, havailable, hmeasures, rfl⟩ := diskBudget_eq_ok.mp hbudget
      exact (hfits outputRoot available hroot havailable).covers hbatch hmeasures hrunning
    · obtain ⟨outputRoot, available, hroot, havailable, hmeasures, rfl⟩ := diskBudget_eq_ok.mp hbudget
      exact (hfits outputRoot available hroot havailable).saturated hbatch hmeasures hlarge

end Sound

/-! ## An undercounted job -/

namespace BudgetSample

/-- A disk with one folder, files of a gibibyte, and four gibibytes that are free. -/
def disk : BudgetDisk where
  windows := false
  canonicalize _ := .ok ⟨.posix, [PathBuf.ofString "batch"]⟩
  isDir _ := true
  metadata _ := .ok (2 ^ 30)
  availableSpace _ := .ok (2 ^ 32)

/-- A job whose first step writes ten bytes. The second has no estimate. -/
def request : BudgetRequest := ⟨PathBuf.ofString "/in/a.pdf", some 100, [some 10, none]⟩

def budget : FolderDiskBudget := ⟨100, 10, 2 ^ 28, 2 ^ 28 + 110, 2 ^ 32, true⟩

theorem batch_undercounted :
    diskBudget disk (PathBuf.ofString "/batch") [request] 1 = .ok budget ∧
      ¬ BudgetSound disk (PathBuf.ofString "/batch") [request] 1 := by
  have hbudget : diskBudget disk (PathBuf.ofString "/batch") [request] 1 = .ok budget := by decide
  refine ⟨hbudget, fun hsound => ?_⟩
  have hschedule : Schedule [request] 1 [(request, none)] := by
    refine ⟨List.Sublist.refl _, le_refl 1, fun job hjob => ?_⟩
    rw [List.mem_singleton.mp hjob]
    decide
  exact absurd (hsound.covers budget _ hbudget hschedule) (by decide)

end BudgetSample

end Anole.Folder
