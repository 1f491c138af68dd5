import Anole.Queue.Admission

/-!
# Requests of Plans with several steps

`request_for_plan` (`crates/core/src/scheduler.rs`, lines 159–229) folds the steps of a Plan into one request.

* `requests_conservative_iff`: when the requests of two Plans are conservative.

**Deviation.** A step of a hardware encoder overrides the class so far, whose reservation may be larger, and a
class of a higher rank may reserve less than one of a lower rank. A Plan has one exclusivity key, so that of
its exclusive engines only the first serial one is held.
-/

namespace Anole

/-- The engines of which one instance runs at a time (lines 167–178). -/
def PlanStep.isSerial (step : PlanStep) : Bool :=
  step.engine.engineId = "soffice" ∨ step.engine.engineId = "msedge"

/-- The exclusive engine of a step: LibreOffice, Edge, or a hardware encoder. -/
def PlanStep.exclusiveEngine (step : PlanStep) : Option String :=
  if step.isSerial then some step.engine.engineId
  else if step.usesGpu then some "gpu-encoder" else none

/-- A step of the Plan uses the exclusive engine. -/
def Plan.Uses (plan : Plan) (engine : String) : Prop := ∃ step ∈ plan.steps, step.exclusiveEngine = some engine

/-- The Plan with other steps. -/
def Plan.withSteps (plan : Plan) (steps : List PlanStep) : Plan := { plan with steps := steps }

/-- The request of a Plan reserves as much as each of its steps would, for a class as high, and does not depend
    on their order. -/
structure Plan.Conservative (plan : Plan) : Prop where
  memory : ∀ step ∈ plan.steps, ∀ jobId,
    (requestForPlan jobId (plan.withSteps [step])).memoryBytes ≤ (requestForPlan jobId plan).memoryBytes
  workClass : ∀ step ∈ plan.steps, ∀ jobId,
    (requestForPlan jobId (plan.withSteps [step])).workClass.rank ≤ (requestForPlan jobId plan).workClass.rank
  order : ∀ steps : List PlanStep, steps.Perm plan.steps → ∀ jobId,
    requestForPlan jobId (plan.withSteps steps) = requestForPlan jobId plan

/-- No scheduler ever has jobs of both Plans active. -/
def NeverTogether (plan other : Plan) : Prop :=
  ∀ logicalCpus requested calls, ∀ a b : Uuid, a ≠ b →
    ¬ (requestForPlan a plan ∈ (ResourceScheduler.after logicalCpus requested calls).active ∧
      requestForPlan b other ∈ (ResourceScheduler.after logicalCpus requested calls).active)

/-- The requests of two Plans are conservative, and Plans that use the same exclusive engine never run
    together. -/
structure ConservativePair (plan other : Plan) : Prop where
  first : plan.Conservative
  second : other.Conservative
  apart : ∀ engine, plan.Uses engine → other.Uses engine → NeverTogether plan other

/-- The class of a Plan reserves enough: the Plan has a step of a serial engine; or, with a hardware encoder, its
    other steps neither transcode nor transform nor render; or, without one, it does not both transcode and
    transform or render. -/
def Plan.ReservesAll (plan : Plan) : Prop :=
  (∃ step ∈ plan.steps, step.isSerial = true) ∨
    if ∃ step ∈ plan.steps, step.usesGpu = true then
      ∀ step ∈ plan.steps, step.usesGpu = true ∨ step.operation ∉ [.transcode, .transform, .render]
    else (∀ step ∈ plan.steps, step.operation ≠ .transcode) ∨
      ∀ step ∈ plan.steps, step.operation ∉ [.transform, .render]

/-- The Plan does not use both serial engines. -/
def Plan.OneSerial (plan : Plan) : Prop := ¬ (plan.Uses "soffice" ∧ plan.Uses "msedge")

/-- Two Plans that both use a hardware encoder use the same serial engines. -/
def SameSerial (plan other : Plan) : Prop :=
  plan.Uses "gpu-encoder" → other.Uses "gpu-encoder" →
    (plan.Uses "soffice" ↔ other.Uses "soffice") ∧ (plan.Uses "msedge" ↔ other.Uses "msedge")

/-! ## The request of a Plan -/

section Request

variable {step : PlanStep} {steps front tail : List PlanStep} {plan other : Plan} {jobId : Uuid} {c : WorkClass}
  {k : Option String} {engine : String}

/-- The highest class of the operations. -/
def heaviest (steps : List PlanStep) : WorkClass :=
  steps.foldl (fun c step => c.max step.operation.workClass) .lightweight

theorem classifySteps_cons_serial (h : step.isSerial = true) :
    classifySteps c k (step :: steps) = (.serialEngine, some step.engine.engineId) := by
  have hengine : step.engine.engineId = "soffice" ∨ step.engine.engineId = "msedge" := of_decide_eq_true h
  unfold classifySteps
  rcases hengine with hengine | hengine
  · rw [if_pos hengine, hengine]
  · rw [if_neg (by rw [hengine]; decide), if_pos hengine, hengine]

theorem classifySteps_cons (h : step.isSerial = false) :
    classifySteps c k (step :: steps) =
      if step.usesGpu then classifySteps .gpu (some "gpu-encoder") steps
      else classifySteps (c.max step.operation.workClass) k steps := by
  have hengine : ¬ (step.engine.engineId = "soffice" ∨ step.engine.engineId = "msedge") := of_decide_eq_false h
  rw [not_or] at hengine
  rw [classifySteps, if_neg hengine.1, if_neg hengine.2]

/-- The first step of a serial engine decides, -/
theorem classifySteps_serial (hfront : ∀ s ∈ front, s.isSerial = false) (h : step.isSerial = true) :
    classifySteps c k (front ++ step :: tail) = (.serialEngine, some step.engine.engineId) := by
  induction front generalizing c k with
  | nil => exact classifySteps_cons_serial h
  | cons first rest ih =>
    have hrest := fun s hs => hfront s (List.mem_cons_of_mem _ hs)
    rw [List.cons_append, classifySteps_cons (hfront first List.mem_cons_self)]
    split
    · exact ih hrest
    · exact ih hrest

theorem WorkClass.max_gpu (operation : Operation) : WorkClass.gpu.max operation.workClass = .gpu := by
  cases operation <;> rfl

theorem classifySteps_after_gpu (h : ∀ s ∈ steps, s.isSerial = false) :
    classifySteps .gpu (some "gpu-encoder") steps = (.gpu, some "gpu-encoder") := by
  induction steps with
  | nil => rfl
  | cons first rest ih =>
    have hrest := fun s hs => h s (List.mem_cons_of_mem _ hs)
    rw [classifySteps_cons (h first List.mem_cons_self), WorkClass.max_gpu, ite_self]
    exact ih hrest

/-- then any step of a hardware encoder, -/
theorem classifySteps_gpu (h : ∀ s ∈ steps, s.isSerial = false) (hgpu : ∃ s ∈ steps, s.usesGpu = true) :
    classifySteps c k steps = (.gpu, some "gpu-encoder") := by
  induction steps generalizing c k with
  | nil => simp at hgpu
  | cons first rest ih =>
    have hrest := fun s hs => h s (List.mem_cons_of_mem _ hs)
    rw [classifySteps_cons (h first List.mem_cons_self)]
    split
    · exact classifySteps_after_gpu hrest
    · next hfirst =>
      refine ih hrest ?_
      obtain ⟨s, hs, husing⟩ := hgpu
      rcases List.mem_cons.mp hs with rfl | hs
      · exact absurd husing hfirst
      · exact ⟨s, hs, husing⟩

/-- and else the operations. -/
theorem classifySteps_plain (h : ∀ s ∈ steps, s.isSerial = false) (hgpu : ∀ s ∈ steps, s.usesGpu = false) :
    classifySteps c k steps = (steps.foldl (fun c step => c.max step.operation.workClass) c, k) := by
  induction steps generalizing c with
  | nil => rfl
  | cons first rest ih =>
    have hrest := fun s hs => h s (List.mem_cons_of_mem _ hs)
    rw [classifySteps_cons (h first List.mem_cons_self), hgpu first List.mem_cons_self]
    exact ih hrest fun s hs => hgpu s (List.mem_cons_of_mem _ hs)

/-- The request of a class with its key. -/
def classRequest (jobId : Uuid) (c : WorkClass) (key : Option String) : ResourceRequest :=
  ⟨jobId, c, c.memoryBytes, key⟩

theorem requestForPlan_eq : requestForPlan jobId plan =
    classRequest jobId (classifySteps .lightweight none plan.steps).1 (classifySteps .lightweight none plan.steps).2 :=
  rfl

/-- **The request of a Plan**: that of its first step of a serial engine, -/
theorem request_serial (h : ∃ step ∈ plan.steps, step.isSerial = true) : ∃ first ∈ plan.steps,
    first.isSerial = true ∧
      ∀ jobId, requestForPlan jobId plan = classRequest jobId .serialEngine (some first.engine.engineId) := by
  obtain ⟨first, hfind⟩ := Option.isSome_iff_exists.mp (List.find?_isSome.mpr h)
  obtain ⟨hserial, front, tail, hsteps, hnot⟩ := List.find?_eq_some_iff_append.mp hfind
  have hfront : ∀ s ∈ front, s.isSerial = false := fun s hs => by simpa using hnot s hs
  refine ⟨first, by simp [hsteps], hserial, fun jobId => ?_⟩
  rw [requestForPlan_eq, hsteps, classifySteps_serial hfront hserial]

/-- that of a hardware encoder, -/
theorem request_gpu (h : ∀ s ∈ plan.steps, s.isSerial = false) (hgpu : ∃ s ∈ plan.steps, s.usesGpu = true)
    (jobId : Uuid) : requestForPlan jobId plan = classRequest jobId .gpu (some "gpu-encoder") := by
  rw [requestForPlan_eq, classifySteps_gpu h hgpu]

/-- or that of its heaviest operation. -/
theorem request_plain (h : ∀ s ∈ plan.steps, s.isSerial = false) (hgpu : ∀ s ∈ plan.steps, s.usesGpu = false)
    (jobId : Uuid) : requestForPlan jobId plan = classRequest jobId (heaviest plan.steps) none := by
  rw [requestForPlan_eq, classifySteps_plain h hgpu]
  rfl

theorem steps_cases (steps : List PlanStep) : (∃ s ∈ steps, s.isSerial = true) ∨
    ((∀ s ∈ steps, s.isSerial = false) ∧ ∃ s ∈ steps, s.usesGpu = true) ∨
    ((∀ s ∈ steps, s.isSerial = false) ∧ ∀ s ∈ steps, s.usesGpu = false) := by
  by_cases hserial : ∃ s ∈ steps, s.isSerial = true
  · exact .inl hserial
  · have hnot : ∀ s ∈ steps, s.isSerial = false :=
      fun s hs => Bool.eq_false_iff.mpr fun h => hserial ⟨s, hs, h⟩
    by_cases hgpu : ∃ s ∈ steps, s.usesGpu = true
    · exact .inr (.inl ⟨hnot, hgpu⟩)
    · exact .inr (.inr ⟨hnot, fun s hs => Bool.eq_false_iff.mpr fun h => hgpu ⟨s, hs, h⟩⟩)

/-! ## Memory, class and order -/

/-- The request of a single step. -/
theorem request_single : requestForPlan jobId (plan.withSteps [step]) =
    if step.isSerial then classRequest jobId .serialEngine (some step.engine.engineId)
    else if step.usesGpu then classRequest jobId .gpu (some "gpu-encoder")
    else classRequest jobId step.operation.workClass none := by
  rw [requestForPlan_eq]
  show classRequest jobId (classifySteps .lightweight none [step]).1 (classifySteps .lightweight none [step]).2 = _
  cases hserial : step.isSerial with
  | true =>
    rw [classifySteps_cons_serial hserial]
    rfl
  | false =>
    rw [classifySteps_cons hserial]
    cases step.usesGpu with
    | true => rfl
    | false =>
      cases hop : step.operation <;> rfl

theorem WorkClass.max_cases (c d : WorkClass) : c.rank ≤ (c.max d).rank ∧ d.rank ≤ (c.max d).rank ∧
    (c.max d = c ∨ c.max d = d) := by
  unfold WorkClass.max
  split
  · exact ⟨le_rfl, by omega, .inl rfl⟩
  · exact ⟨by omega, le_rfl, .inr rfl⟩

/-- The fold over the classes ends with the highest of them. -/
theorem foldl_max (c : WorkClass) (steps : List PlanStep) :
    let highest := steps.foldl (fun c step => c.max step.operation.workClass) c
    c.rank ≤ highest.rank ∧ (∀ step ∈ steps, step.operation.workClass.rank ≤ highest.rank) ∧
      (highest = c ∨ ∃ step ∈ steps, step.operation.workClass = highest) := by
  induction steps generalizing c with
  | nil => exact ⟨le_rfl, by simp, .inl rfl⟩
  | cons first rest ih =>
    obtain ⟨hc, hfirst, hmax⟩ := WorkClass.max_cases c first.operation.workClass
    obtain ⟨hle, hall, hmem⟩ := ih (c.max first.operation.workClass)
    refine ⟨hc.trans hle, fun step hstep => ?_, ?_⟩
    · rcases List.mem_cons.mp hstep with rfl | hstep
      · exact hfirst.trans hle
      · exact hall step hstep
    · rcases hmem with hmem | ⟨step, hstep, hmem⟩
      · rcases hmax with hmax | hmax
        · exact .inl (hmem.trans hmax)
        · exact .inr ⟨first, List.mem_cons_self, (hmem.trans hmax).symm⟩
      · exact .inr ⟨step, List.mem_cons_of_mem _ hstep, hmem⟩

theorem le_heaviest (h : step ∈ steps) : step.operation.workClass.rank ≤ (heaviest steps).rank :=
  (foldl_max .lightweight steps).2.1 step h

theorem heaviest_mem (steps : List PlanStep) :
    heaviest steps = .lightweight ∨ ∃ step ∈ steps, step.operation.workClass = heaviest steps :=
  (foldl_max .lightweight steps).2.2

theorem heaviest_perm {steps' : List PlanStep} (h : steps.Perm steps') : heaviest steps = heaviest steps' := by
  have hcomm : ∀ c d e : WorkClass, (c.max d).max e = (c.max e).max d := by
    intro c d e
    cases c <;> cases d <;> cases e <;> rfl
  have : RightCommutative fun (c : WorkClass) (step : PlanStep) => c.max step.operation.workClass :=
    ⟨fun c step step' => hcomm c _ _⟩
  exact h.foldl_eq WorkClass.lightweight

theorem Operation.rank_le (operation : Operation) : operation.workClass.rank ≤ 3 := by
  cases operation <;> decide

theorem WorkClass.rank_le (c : WorkClass) : c.rank ≤ 5 := by
  cases c <;> decide

/-- The class of a Plan ranks as high as that of each of its steps. -/
theorem rank_single_le (h : step ∈ plan.steps) :
    (requestForPlan jobId (plan.withSteps [step])).workClass.rank ≤ (requestForPlan jobId plan).workClass.rank := by
  rcases steps_cases plan.steps with hserial | ⟨hserial, hgpu⟩ | ⟨hserial, hgpu⟩
  · obtain ⟨first, -, -, hrequest⟩ := request_serial hserial
    rw [hrequest]
    exact WorkClass.rank_le _
  · rw [request_gpu hserial hgpu, request_single, if_neg (by simp [hserial step h])]
    split
    · exact le_rfl
    · have hle := step.operation.rank_le
      show step.operation.workClass.rank ≤ 4
      omega
  · rw [request_plain hserial hgpu, request_single, if_neg (by simp [hserial step h]), if_neg (by simp [hgpu step h])]
    exact le_heaviest h

/-- Only the class of transforms and renders ranks higher than one that reserves more, that of transcodes. -/
theorem memoryBytes_le_iff (c d : Operation) (h : c.workClass.rank ≤ d.workClass.rank) :
    c.workClass.memoryBytes ≤ d.workClass.memoryBytes ↔ ¬ (c = .transcode ∧ d ∈ [.transform, .render]) := by
  revert h
  cases c <;> cases d <;> decide

/-- The heaviest operation reserves as much as each one if and only if they do not mix. -/
theorem heaviest_iff : (∀ step ∈ steps, step.operation.workClass.memoryBytes ≤ (heaviest steps).memoryBytes) ↔
    (∀ step ∈ steps, step.operation ≠ .transcode) ∨ ∀ step ∈ steps, step.operation ∉ [.transform, .render] := by
  constructor
  · intro hmemory
    by_contra hmixed
    push Not at hmixed
    obtain ⟨⟨coded, hcoded, htranscode⟩, drawn, hdrawn, hrender⟩ := hmixed
    rcases heaviest_mem steps with hlight | ⟨top, htop, hclass⟩
    · have hle := le_heaviest hcoded
      rw [hlight, htranscode] at hle
      exact absurd hle (by decide)
    · have hle := le_heaviest hdrawn
      have hcodedLe := le_heaviest hcoded
      have hreserves := hmemory coded hcoded
      rw [← hclass] at hle hcodedLe hreserves
      have hnot := (memoryBytes_le_iff _ _ hcodedLe).mp hreserves
      refine hnot ⟨htranscode, ?_⟩
      revert hle hrender
      generalize drawn.operation = a
      generalize top.operation = b
      cases a <;> cases b <;> decide
  · intro hpure step hstep
    have hle := le_heaviest hstep
    rcases heaviest_mem steps with hlight | ⟨top, htop, hclass⟩
    · rw [hlight] at hle ⊢
      revert hle
      cases step.operation <;> decide
    · rw [← hclass] at hle ⊢
      refine (memoryBytes_le_iff _ _ hle).mpr ?_
      rintro ⟨htranscode, hrender⟩
      rcases hpure with hpure | hpure
      · exact hpure step hstep htranscode
      · exact hpure top htop hrender

/-- **The memory** of each step is reserved if and only if the class of the Plan reserves enough. -/
theorem memory_iff : (∀ step ∈ plan.steps, ∀ jobId,
    (requestForPlan jobId (plan.withSteps [step])).memoryBytes ≤ (requestForPlan jobId plan).memoryBytes) ↔
      plan.ReservesAll := by
  unfold Plan.ReservesAll
  rcases steps_cases plan.steps with hserial | ⟨hserial, hgpu⟩ | ⟨hserial, hgpu⟩
  · obtain ⟨first, -, -, hrequest⟩ := request_serial hserial
    refine iff_of_true (fun step _ jobId => ?_) (.inl hserial)
    rw [hrequest]
    exact WorkClass.memoryBytes_le _
  · have hnot : ¬ ∃ step ∈ plan.steps, step.isSerial = true := by
      rintro ⟨step, hstep, hyes⟩
      rw [hserial step hstep] at hyes
      cases hyes
    rw [or_iff_right hnot, if_pos hgpu]
    refine forall_congr' fun step => forall_congr' fun hstep => ?_
    simp only [request_gpu hserial hgpu, request_single, hserial step hstep, Bool.false_eq_true, if_false]
    cases step.usesGpu with
    | true => simp
    | false => cases hop : step.operation <;> simp [classRequest, Operation.workClass, WorkClass.memoryBytes, mib]
  · have hnot : ¬ ∃ step ∈ plan.steps, step.isSerial = true := by
      rintro ⟨step, hstep, hyes⟩
      rw [hserial step hstep] at hyes
      cases hyes
    have hnone : ¬ ∃ step ∈ plan.steps, step.usesGpu = true := by
      rintro ⟨step, hstep, hyes⟩
      rw [hgpu step hstep] at hyes
      cases hyes
    have hmemory : (∀ step ∈ plan.steps, ∀ jobId,
        (requestForPlan jobId (plan.withSteps [step])).memoryBytes ≤ (requestForPlan jobId plan).memoryBytes) ↔
        ∀ step ∈ plan.steps, step.operation.workClass.memoryBytes ≤ (heaviest plan.steps).memoryBytes := by
      refine forall_congr' fun step => forall_congr' fun hstep => ?_
      simp only [request_plain hserial hgpu, request_single, hserial step hstep, hgpu step hstep,
        Bool.false_eq_true, if_false]
      exact ⟨fun h => h 0, fun h _ => h⟩
    rw [or_iff_right hnot, if_neg hnone, hmemory]
    exact heaviest_iff

/-- The step of a serial engine that is its exclusive one. -/
theorem serial_of_engine (hengine : engine = "soffice" ∨ engine = "msedge")
    (h : step.exclusiveEngine = some engine) : step.isSerial = true ∧ engine = step.engine.engineId := by
  unfold PlanStep.exclusiveEngine at h
  split at h
  · next hserial => exact ⟨hserial, (Option.some.inj h).symm⟩
  · split at h
    · rw [← Option.some.inj h] at hengine
      exact absurd hengine (by decide)
    · cases h

theorem Plan.OneSerial.engine_eq (h : plan.OneSerial) {other : PlanStep} (hstep : step ∈ plan.steps)
    (hserial : step.isSerial = true) (hother : other ∈ plan.steps) (hserial' : other.isSerial = true) :
    step.engine.engineId = other.engine.engineId := by
  have huses : ∀ s ∈ plan.steps, s.isSerial = true → plan.Uses s.engine.engineId :=
    fun s hs hserial => ⟨s, hs, if_pos hserial⟩
  have hstepUses := huses step hstep hserial
  have hotherUses := huses other hother hserial'
  have hengine : step.engine.engineId = "soffice" ∨ step.engine.engineId = "msedge" := of_decide_eq_true hserial
  have hengine' : other.engine.engineId = "soffice" ∨ other.engine.engineId = "msedge" := of_decide_eq_true hserial'
  rcases hengine with hengine | hengine <;> rcases hengine' with hengine' | hengine' <;>
    rw [hengine] at hstepUses <;> rw [hengine'] at hotherUses
  · rw [hengine, hengine']
  · exact absurd ⟨hstepUses, hotherUses⟩ h
  · exact absurd ⟨hotherUses, hstepUses⟩ h
  · rw [hengine, hengine']

/-- **The order** of the steps is without effect if and only if they are not of both serial engines. -/
theorem order_iff : (∀ steps : List PlanStep, steps.Perm plan.steps → ∀ jobId,
    requestForPlan jobId (plan.withSteps steps) = requestForPlan jobId plan) ↔ plan.OneSerial := by
  constructor
  · rintro horder ⟨⟨office, hoffice, hofficeKey⟩, browser, hbrowser, hbrowserKey⟩
    -- either engine is the first one in some order
    have hfirst : ∀ step ∈ plan.steps, ∀ engine, (engine = "soffice" ∨ engine = "msedge") →
        step.exclusiveEngine = some engine → (requestForPlan 0 plan).exclusivityKey = some engine := by
      intro step hstep engine hengine hkey
      obtain ⟨hserial, rfl⟩ := serial_of_engine hengine hkey
      rw [← horder (step :: plan.steps.erase step) (List.perm_cons_erase hstep).symm 0, requestForPlan_eq]
      show (classifySteps .lightweight none (step :: plan.steps.erase step)).2 = _
      rw [classifySteps_cons_serial hserial]
    have hsame := (hfirst office hoffice "soffice" (.inl rfl) hofficeKey).symm.trans
      (hfirst browser hbrowser "msedge" (.inr rfl) hbrowserKey)
    exact absurd hsame (by decide)
  · intro hone steps hperm jobId
    have hmem : ∀ {step}, step ∈ steps ↔ step ∈ plan.steps := hperm.mem_iff
    rcases steps_cases plan.steps with ⟨step, hstep, hyes⟩ | ⟨hserial, step, hstep, hyes⟩ | ⟨hserial, hgpu⟩
    · have hthere : ∃ s ∈ (plan.withSteps steps).steps, s.isSerial = true := ⟨step, hmem.mpr hstep, hyes⟩
      obtain ⟨first, hfirst, hserial, hrequest⟩ := request_serial ⟨step, hstep, hyes⟩
      obtain ⟨first', hfirst', hserial', hrequest'⟩ := request_serial hthere
      rw [hrequest, hrequest', hone.engine_eq hfirst hserial (hmem.mp hfirst') hserial']
    · have hnot : ∀ s ∈ (plan.withSteps steps).steps, s.isSerial = false := fun s hs => hserial s (hmem.mp hs)
      have hthere : ∃ s ∈ (plan.withSteps steps).steps, s.usesGpu = true := ⟨step, hmem.mpr hstep, hyes⟩
      rw [request_gpu hserial ⟨step, hstep, hyes⟩, request_gpu hnot hthere]
    · have hnot : ∀ s ∈ (plan.withSteps steps).steps, s.isSerial = false := fun s hs => hserial s (hmem.mp hs)
      have hnone : ∀ s ∈ (plan.withSteps steps).steps, s.usesGpu = false := fun s hs => hgpu s (hmem.mp hs)
      rw [request_plain hserial hgpu, request_plain hnot hnone]
      exact congrArg (fun c => classRequest jobId c none) (heaviest_perm hperm)

/-! ## Plans that are kept apart -/

/-- The key of the request, of whichever job. -/
def Plan.heldKey (plan : Plan) : Option String := (requestForPlan 0 plan).exclusivityKey

theorem requestForPlan_key (jobId : Uuid) (plan : Plan) : (requestForPlan jobId plan).exclusivityKey = plan.heldKey :=
  rfl

/-- What a Plan uses is LibreOffice, Edge or a hardware encoder. -/
theorem engine_cases (h : plan.Uses engine) :
    engine = "soffice" ∨ engine = "msedge" ∨ engine = "gpu-encoder" := by
  obtain ⟨step, -, hengine⟩ := h
  unfold PlanStep.exclusiveEngine at hengine
  split at hengine
  · next hserial =>
    have hid : step.engine.engineId = "soffice" ∨ step.engine.engineId = "msedge" := of_decide_eq_true hserial
    rw [← Option.some.inj hengine]
    tauto
  · split at hengine
    · exact .inr (.inr (Option.some.inj hengine).symm)
    · cases hengine

/-- The key that is held is of an engine that the Plan uses; -/
theorem uses_heldKey (h : plan.heldKey = some engine) : plan.Uses engine := by
  unfold Plan.heldKey at h
  rcases steps_cases plan.steps with hserial | ⟨hserial, hgpu⟩ | ⟨hserial, hgpu⟩
  · obtain ⟨first, hfirst, hyes, hrequest⟩ := request_serial hserial
    rw [hrequest] at h
    exact ⟨first, hfirst, (if_pos hyes).trans h⟩
  · rw [request_gpu hserial hgpu] at h
    obtain ⟨step, hstep, hyes⟩ := hgpu
    refine ⟨step, hstep, Eq.trans ?_ h⟩
    rw [PlanStep.exclusiveEngine, hserial step hstep, hyes]
    rfl
  · rw [request_plain hserial hgpu] at h
    cases h

/-- it is the serial engine, if the Plan uses one, -/
theorem Plan.OneSerial.heldKey_serial (hone : plan.OneSerial)
    (hengine : engine = "soffice" ∨ engine = "msedge") (h : plan.Uses engine) : plan.heldKey = some engine := by
  obtain ⟨step, hstep, hkey⟩ := h
  obtain ⟨hserial, rfl⟩ := serial_of_engine hengine hkey
  obtain ⟨first, hfirst, hyes, hrequest⟩ := request_serial ⟨step, hstep, hserial⟩
  rw [Plan.heldKey, hrequest, ← hone.engine_eq hfirst hyes hstep hserial]
  rfl

/-- and else the hardware encoder. -/
theorem heldKey_gpu (h : plan.Uses "gpu-encoder") (hoffice : ¬ plan.Uses "soffice") (hbrowser : ¬ plan.Uses "msedge") :
    plan.heldKey = some "gpu-encoder" := by
  have hserial : ∀ s ∈ plan.steps, s.isSerial = false := by
    refine fun s hs => Bool.eq_false_iff.mpr fun hyes => ?_
    have huses : plan.Uses s.engine.engineId := ⟨s, hs, if_pos hyes⟩
    have hid : s.engine.engineId = "soffice" ∨ s.engine.engineId = "msedge" := of_decide_eq_true hyes
    rcases hid with hid | hid <;> rw [hid] at huses
    · exact hoffice huses
    · exact hbrowser huses
  obtain ⟨step, hstep, hkey⟩ := h
  rw [PlanStep.exclusiveEngine, hserial step hstep] at hkey
  have hgpu : step.usesGpu = true := by
    by_contra hnot
    simp [hnot] at hkey
  rw [Plan.heldKey, request_gpu hserial ⟨step, hstep, hgpu⟩]
  rfl

theorem exists_heldKey (hone : plan.OneSerial) (h : plan.Uses engine) :
    ∃ key, plan.heldKey = some key := by
  by_cases hoffice : plan.Uses "soffice"
  · exact ⟨_, hone.heldKey_serial (.inl rfl) hoffice⟩
  · by_cases hbrowser : plan.Uses "msedge"
    · exact ⟨_, hone.heldKey_serial (.inr rfl) hbrowser⟩
    · rcases engine_cases h with rfl | rfl | rfl
      · exact absurd h hoffice
      · exact absurd h hbrowser
      · exact ⟨_, heldKey_gpu h hoffice hbrowser⟩

/-- Plans that hold the same key never run together, -/
theorem neverTogether_of_key {key : String} (h : plan.heldKey = some key) (h' : other.heldKey = some key) :
    NeverTogether plan other := by
  rintro logicalCpus requested calls a b hne ⟨hin, hin'⟩
  obtain ⟨hsound, -⟩ := ResourceScheduler.sound_after logicalCpus requested calls
  have hnodup := hsound.keys.nodup_iff.mp hsound.exclusive
  have hdistinct : requestForPlan b other ≠ requestForPlan a plan := fun heq =>
    hne (congrArg ResourceRequest.jobId heq).symm
  have hmem := (List.mem_erase_of_ne hdistinct).mpr hin'
  have hperm := (List.perm_cons_erase hin).trans ((List.perm_cons_erase hmem).cons _)
  have htwice := (hperm.filterMap ResourceRequest.exclusivityKey).nodup_iff.mp hnodup
  rw [List.filterMap_cons_some ((requestForPlan_key a plan).trans h),
    List.filterMap_cons_some ((requestForPlan_key b other).trans h')] at htwice
  simp at htwice

theorem key_of_gpu (h : (requestForPlan jobId plan).workClass = .gpu) : plan.heldKey = some "gpu-encoder" := by
  rw [Plan.heldKey]
  rcases steps_cases plan.steps with hserial | ⟨hserial, hgpu⟩ | ⟨hserial, hgpu⟩
  · obtain ⟨first, -, -, hrequest⟩ := request_serial hserial
    rw [hrequest] at h
    cases h
  · rw [request_gpu hserial hgpu]
    rfl
  · rw [request_plain hserial hgpu] at h
    have hheaviest : heaviest plan.steps = .gpu := h
    rcases heaviest_mem plan.steps with hlight | ⟨step, -, hstep⟩
    · rw [hlight] at hheaviest
      cases hheaviest
    · have hle := step.operation.rank_le
      rw [hstep, hheaviest] at hle
      exact absurd hle (by decide)

theorem countP_pair_le {p : ResourceRequest → Bool} {r r' : ResourceRequest} (h : ¬ (p r = true ∧ p r' = true)) :
    [r, r'].countP p ≤ 1 := by
  cases hr : p r <;> cases hr' : p r' <;> simp_all

/-- Two requests of different keys are within a policy for two processes. -/
theorem within_two (hne : plan.heldKey ≠ other.heldKey) {key key' : String} (h : plan.heldKey = some key)
    (h' : other.heldKey = some key') :
    (SchedulerPolicy.bounded 4 2).Within [requestForPlan 0 plan, requestForPlan 1 other] := by
  have hlength : ∀ c : WorkClass,
      [requestForPlan 0 plan, requestForPlan 1 other].countP (fun r => r.workClass = c) ≤ 2 :=
    fun c => List.countP_le_length
  have hmemory := (requestForPlan 0 plan).workClass.memoryBytes_le
  have hmemory' := (requestForPlan 1 other).workClass.memoryBytes_le
  refine ⟨le_rfl, hlength .cpuHeavy, hlength .ioHeavy, ?_, ?_, ?_⟩
  · refine countP_pair_le fun hboth => ?_
    exact hne ((key_of_gpu (of_decide_eq_true hboth.1)).trans (key_of_gpu (of_decide_eq_true hboth.2)).symm)
  · have hmib : mib = 1048576 := rfl
    show (requestForPlan 0 plan).workClass.memoryBytes + ((requestForPlan 1 other).workClass.memoryBytes + 0) ≤
      2 * 1024 * mib
    omega
  · rw [List.filterMap_cons_some ((requestForPlan_key 0 plan).trans h),
      List.filterMap_cons_some ((requestForPlan_key 1 other).trans h'), List.filterMap_nil]
    rw [h, h'] at hne
    simpa using hne

/-- and Plans that hold different ones may. -/
theorem together_of_keys {key key' : String} (h : plan.heldKey = some key) (h' : other.heldKey = some key')
    (hne : key ≠ key') : ¬ NeverTogether plan other := by
  intro hnever
  have hkeys : plan.heldKey ≠ other.heldKey := by
    rw [h, h']
    simpa using hne
  obtain ⟨hnew, hpolicy⟩ := ResourceScheduler.sound_after 4 2 []
  obtain ⟨s, hs⟩ := tryAdmit_requestForPlan hnew rfl hpolicy 0 plan
  obtain ⟨hsound, hsame, hactive⟩ := hnew.tryAdmit hs
  have hone : s.active = [requestForPlan 0 plan] := hactive
  have hfits : s.Fits (requestForPlan 1 other) := by
    refine hsound.fits_iff.mpr ⟨?_, ?_⟩
    · rw [hone]
      intro r hr
      rw [List.mem_singleton.mp hr]
      show (0 : Uuid) ≠ 1
      decide
    · rw [hone, hsame, hpolicy]
      exact within_two hkeys h h'
  obtain ⟨s', hs'⟩ := ResourceScheduler.tryAdmit_of_fits hfits
  obtain ⟨-, -, htwo⟩ := hsound.tryAdmit hs'
  have hrun : ResourceScheduler.after 4 2 [.tryAdmit (requestForPlan 0 plan), .tryAdmit (requestForPlan 1 other)] =
      s' := by
    show ((((ResourceScheduler.after 4 2 []).call (.tryAdmit (requestForPlan 0 plan))).2.call
      (.tryAdmit (requestForPlan 1 other))).2) = s'
    rw [ResourceScheduler.call_of_some hs, ResourceScheduler.call_of_some hs']
  have hnot := hnever 4 2 [.tryAdmit (requestForPlan 0 plan), .tryAdmit (requestForPlan 1 other)] 0 1 (by decide)
  rw [hrun, htwo, hone] at hnot
  exact hnot ⟨List.mem_cons_self, List.mem_cons_of_mem _ List.mem_cons_self⟩

/-- **Plans are kept apart** where they use the same exclusive engine if and only if they use the same serial
    engine with a hardware encoder. -/
theorem apart_iff (hone : plan.OneSerial) (hone' : other.OneSerial) :
    (∀ engine, plan.Uses engine → other.Uses engine → NeverTogether plan other) ↔ SameSerial plan other := by
  constructor
  · intro hapart huses huses'
    obtain ⟨key, hkey⟩ := exists_heldKey hone huses
    obtain ⟨key', hkey'⟩ := exists_heldKey hone' huses'
    have hsame : key = key' := by
      by_contra hne
      exact together_of_keys hkey hkey' hne (hapart _ huses huses')
    subst hsame
    have hiff : ∀ engine, (engine = "soffice" ∨ engine = "msedge") → (plan.Uses engine ↔ other.Uses engine) := by
      intro engine hengine
      constructor
      · intro hplan
        have heq := hone.heldKey_serial hengine hplan
        rw [hkey, ← hkey'] at heq
        exact uses_heldKey heq
      · intro hother
        have heq := hone'.heldKey_serial hengine hother
        rw [hkey', ← hkey] at heq
        exact uses_heldKey heq
    exact ⟨hiff "soffice" (.inl rfl), hiff "msedge" (.inr rfl)⟩
  · intro hsame engine huses huses'
    rcases engine_cases huses with rfl | rfl | rfl
    · exact neverTogether_of_key (hone.heldKey_serial (.inl rfl) huses) (hone'.heldKey_serial (.inl rfl) huses')
    · exact neverTogether_of_key (hone.heldKey_serial (.inr rfl) huses) (hone'.heldKey_serial (.inr rfl) huses')
    · obtain ⟨hoffice, hbrowser⟩ := hsame huses huses'
      by_cases hwith : plan.Uses "soffice"
      · exact neverTogether_of_key (hone.heldKey_serial (.inl rfl) hwith)
          (hone'.heldKey_serial (.inl rfl) (hoffice.mp hwith))
      · by_cases hwith' : plan.Uses "msedge"
        · exact neverTogether_of_key (hone.heldKey_serial (.inr rfl) hwith')
            (hone'.heldKey_serial (.inr rfl) (hbrowser.mp hwith'))
        · exact neverTogether_of_key (heldKey_gpu huses hwith hwith')
            (heldKey_gpu huses' (fun h => hwith (hoffice.mpr h)) fun h => hwith' (hbrowser.mpr h))

/-- **The requests of two Plans are conservative** if and only if the class of each reserves enough, neither uses
    both serial engines, and with a hardware encoder they use the same one. -/
theorem requests_conservative_iff (plan other : Plan) : ConservativePair plan other ↔
    plan.ReservesAll ∧ other.ReservesAll ∧ plan.OneSerial ∧ other.OneSerial ∧ SameSerial plan other := by
  have hconservative : ∀ plan : Plan, plan.Conservative ↔ plan.ReservesAll ∧ plan.OneSerial := by
    intro plan
    constructor
    · exact fun h => ⟨memory_iff.mp h.memory, order_iff.mp h.order⟩
    · exact fun h => ⟨memory_iff.mpr h.1, fun step hstep jobId => rank_single_le hstep, order_iff.mpr h.2⟩
  constructor
  · rintro ⟨hfirst, hsecond, hapart⟩
    obtain ⟨hreserves, hone⟩ := (hconservative plan).mp hfirst
    obtain ⟨hreserves', hone'⟩ := (hconservative other).mp hsecond
    exact ⟨hreserves, hreserves', hone, hone', (apart_iff hone hone').mp hapart⟩
  · rintro ⟨hreserves, hreserves', hone, hone', hsame⟩
    exact ⟨(hconservative plan).mpr ⟨hreserves, hone⟩, (hconservative other).mpr ⟨hreserves', hone'⟩,
      (apart_iff hone hone').mpr hsame⟩

end Request

namespace PlanRequestSample

/-- A step of FFmpeg with a software or a hardware encoder, and one of LibreOffice. -/
def encode (encoder : String) : PlanStep :=
  { capabilityId := "ffmpeg.video", engine := ⟨"ffmpeg", "7", "sha"⟩, operation := .transcode,
    arguments := [("encoder", encoder)] }

def office : PlanStep :=
  { capabilityId := "office.pdf", engine := ⟨"soffice", "24", "sha"⟩, operation := .render, arguments := [] }

def plan (steps : List PlanStep) : Plan :=
  { planHash := "plan", inputFingerprint := "input", targetFormat := "mp4", steps := steps }

/-- Two encodings reserve 512 MiB, and the first of them alone 1 GiB; and with a step of LibreOffice before it, a
    hardware encoder may run beside another one. -/
theorem requests_not_conservative :
    (requestForPlan 0 (plan [encode "libx264", encode "h264_nvenc"])).memoryBytes = 512 * mib ∧
    (requestForPlan 0 (plan [encode "libx264"])).memoryBytes = 1024 * mib ∧
    ¬ (plan [encode "libx264", encode "h264_nvenc"]).Conservative ∧
    ¬ NeverTogether (plan [office, encode "h264_nvenc"]) (plan [encode "h264_nvenc"]) := by
  have hmixed : (requestForPlan 0 (plan [encode "libx264", encode "h264_nvenc"])).memoryBytes = 512 * mib := by
    decide +kernel
  have halone : (requestForPlan 0 (plan [encode "libx264"])).memoryBytes = 1024 * mib := by decide +kernel
  refine ⟨hmixed, halone, fun h => ?_, ?_⟩
  · have hle := h.memory (encode "libx264") (by simp [plan]) 0
    rw [hmixed] at hle
    exact absurd (halone ▸ hle) (by decide)
  · have hoffice : (plan [office, encode "h264_nvenc"]).heldKey = some "soffice" := by decide
    have hgpu : (plan [encode "h264_nvenc"]).heldKey = some "gpu-encoder" := by decide +kernel
    exact together_of_keys hoffice hgpu (by decide)

end PlanRequestSample

end Anole
