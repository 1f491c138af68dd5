import Anole.Planning.Pdf

/-!
# What the hash of a plan covers

The hash of a plan is taken over a copy of the plan that `deterministic_plan_hash` builds field
by field. `Plan.work` is the plan without the fields that are not part of the work: its
identifier and hash, the paths of its output and its engines, the estimated size of the output.

Main result:

* `plan_hash_iff`: on two plans the hash tells the work apart unless the plans differ in the
  builds of their engines only; and a plan of the job database carries its own hash exactly if no
  chain was attached to it after it was hashed.

**Deviation.** `HashEngine` (`planner.rs`, lines 1249–1256) has no `build_configuration`; and
`attach_chain_plan_metadata` changes the constraints of a plan and leaves the hash from before,
so `application_issues` (`maintenance.rs`, lines 697–719) reports the job of every chain.
-/

namespace Anole.Common

theorem Json.natural_injective : Function.Injective Json.natural := by
  intro n m h
  rw [natural, natural, Json.number.injEq] at h
  exact Int.ofNat.inj h

theorem Json.strings_injective : Function.Injective Json.strings := by
  intro texts others h
  rw [strings, strings, Json.array.injEq] at h
  exact List.map_injective_iff.mpr (fun _ _ => Json.string.inj) h

theorem Json.ofOption_injective {α : Type} {f : α → Json} (hf : Function.Injective f)
    (hnull : ∀ a, f a ≠ null) : Function.Injective (ofOption f) := by
  intro a b h
  match a, b, h with
  | none, none, _ => rfl
  | none, some b, h => exact absurd h.symm (hnull b)
  | some a, none, h => exact absurd h (hnull a)
  | some a, some b, h => exact congrArg some (hf h)

theorem Json.ofOption_string_injective : Function.Injective (Json.ofOption Json.string) :=
  ofOption_injective (fun _ _ => Json.string.inj) (fun _ => Json.noConfusion)

theorem Json.ofOption_natural_injective : Function.Injective (Json.ofOption Json.natural) :=
  ofOption_injective natural_injective (fun _ => Json.noConfusion)

/-- Two functions that identify the same arguments identify the same lists. -/
theorem map_eq_map_iff_of_forall {α β γ : Type} {f : α → β} {g : α → γ}
    (h : ∀ a b, f a = f b ↔ g a = g b) {items others : List α} :
    items.map f = others.map f ↔ items.map g = others.map g := by
  induction items generalizing others with
  | nil => simp
  | cons item items ih =>
    cases others with
    | nil => simp
    | cons other others => simp only [List.map_cons, List.cons.injEq, h, ih]

/-- Setting a key of a map in order to the value that it has changes nothing. -/
theorem TextMap.insert_of_lookup {α : Type} {key : String} {value : α} {map : TextMap α}
    (hsorted : map.Pairwise (·.1 < ·.1)) (h : map.lookup key = some value) :
    map.insert key value = map := by
  induction map with
  | nil => exact absurd h (by simp)
  | cons entry rest ih =>
    obtain ⟨hbefore, hrest⟩ := List.pairwise_cons.mp hsorted
    rw [List.lookup_cons] at h
    rw [insert]
    by_cases hkey : key = entry.1
    · rw [beq_iff_eq.mpr hkey] at h
      rw [if_pos hkey, hkey, ← Option.some.inj h]
    · rw [beq_false_of_ne hkey] at h
      obtain ⟨before, after, rfl, -⟩ := List.lookup_eq_some_iff.mp h
      have hlater : entry.1 < key := hbefore (key, value) (by simp)
      rw [if_neg hkey, if_neg (String.lt_asymm hlater), ih hrest h]

end Anole.Common

namespace Anole.Planning

open Anole.Common

/-! ## The work of a plan -/

/-- An engine without its path. -/
def engineWork (engine : EngineIdentity) : EngineIdentity := { engine with binaryPath := [] }

def PlanStep.work (step : PlanStep) : PlanStep := { step with engine := engineWork step.engine }

/-- A plan without its identifier, hash, output path and estimated size, and without the paths
    of its engines. -/
def Plan.work (plan : Plan) : Plan :=
  { plan with
    planId := 0
    planHash := ""
    steps := plan.steps.map PlanStep.work
    outputPath := none
    estimatedOutputBytes := none }

def PlanStep.withoutBuild (step : PlanStep) : PlanStep :=
  { step with engine := { step.engine with buildConfiguration := none } }

/-- A plan without the builds of its engines. -/
def Plan.withoutBuilds (plan : Plan) : Plan :=
  { plan with steps := plan.steps.map PlanStep.withoutBuild }

/-- The work of two plans differs in the builds of the engines, and in nothing else. -/
def DifferInBuildsOnly (first second : Plan) : Prop :=
  first.work ≠ second.work ∧ first.work.withoutBuilds = second.work.withoutBuilds

/-- BLAKE3 has no collision on the materials of two plans. -/
def NoCollision {φ : Type} (tools : PlannerTools φ) (first second : Plan) : Prop :=
  tools.blake3Json first.hashMaterial = tools.blake3Json second.hashMaterial →
    first.hashMaterial = second.hashMaterial

/-- The hash tells the work of two plans apart. -/
structure HashIdentifies {φ : Type} (tools : PlannerTools φ) (first second : Plan) : Prop where
  same : first.work = second.work →
    deterministicPlanHash tools first = deterministicPlanHash tools second
  different : first.work ≠ second.work →
    deterministicPlanHash tools first ≠ deterministicPlanHash tools second

/-! ## The material of the hash -/

theorem certificationJson_injective : Function.Injective Certification.json := by
  intro first second
  cases first <;> cases second <;> decide

theorem lossClassJson_injective : Function.Injective LossClass.json := by
  intro first second
  cases first <;> cases second <;> decide

theorem operationJson_injective : Function.Injective operationJson := by
  intro first second
  cases first <;> cases second <;> decide

theorem networkPolicyJson_injective : Function.Injective NetworkPolicy.json := by
  intro first second
  cases first <;> cases second <;> decide

theorem argumentsJson_injective : Function.Injective argumentsJson := by
  intro first second h
  rw [argumentsJson, argumentsJson, Json.object.injEq] at h
  refine List.map_injective_iff.mpr (fun argument other hargument => ?_) h
  rw [Prod.mk.injEq, Json.string.injEq] at hargument
  exact Prod.ext hargument.1 hargument.2

theorem changeSetToJson_injective : Function.Injective ChangeSet.toJson := by
  intro first second h
  simp only [ChangeSet.toJson, Json.object.injEq, List.cons.injEq, Prod.mk.injEq, true_and,
    and_true, Json.strings_injective.eq_iff] at h
  obtain ⟨hpreserved, hchanged, hdropped, hunknown⟩ := h
  cases first
  cases second
  simp_all only

/-- The material of a step is the step without the path and the build of its engine. -/
theorem stepMaterial_eq_iff {first second : PlanStep} :
    first.hashMaterial = second.hashMaterial ↔
      first.work.withoutBuild = second.work.withoutBuild := by
  simp only [PlanStep.hashMaterial, Json.object.injEq, List.cons.injEq, Prod.mk.injEq, true_and,
    and_true, Json.string.injEq, Json.ofOption_string_injective.eq_iff,
    Json.ofOption_natural_injective.eq_iff, certificationJson_injective.eq_iff,
    operationJson_injective.eq_iff, lossClassJson_injective.eq_iff,
    argumentsJson_injective.eq_iff, PlanStep.work, PlanStep.withoutBuild, engineWork,
    PlanStep.mk.injEq, EngineIdentity.mk.injEq, and_assoc]

/-- The material of a plan is its work without the builds of its engines. -/
theorem hashMaterial_eq_iff {first second : Plan} :
    first.hashMaterial = second.hashMaterial ↔
      first.work.withoutBuilds = second.work.withoutBuilds := by
  have hsteps : first.steps.map PlanStep.hashMaterial = second.steps.map PlanStep.hashMaterial ↔
      (first.steps.map PlanStep.work).map PlanStep.withoutBuild =
        (second.steps.map PlanStep.work).map PlanStep.withoutBuild := by
    rw [List.map_map, List.map_map]
    exact map_eq_map_iff_of_forall fun _ _ => stepMaterial_eq_iff
  simp only [Plan.hashMaterial, Json.object.injEq, List.cons.injEq, Prod.mk.injEq, true_and,
    and_true, Json.natural_injective.eq_iff, Json.string.injEq, Json.array.injEq, hsteps,
    changeSetToJson_injective.eq_iff, Json.strings_injective.eq_iff,
    networkPolicyJson_injective.eq_iff, Plan.work, Plan.withoutBuilds, Plan.mk.injEq]

section Hash

variable {φ : Type} {tools : PlannerTools φ} {first second : Plan}

/-- The hashes of plans with the same material agree. -/
theorem planHash_congr (h : first.hashMaterial = second.hashMaterial) :
    deterministicPlanHash tools first = deterministicPlanHash tools second := by
  rw [deterministicPlanHash, deterministicPlanHash, h]

/-- Without a collision, the hash says what the material says. -/
theorem planHash_eq_iff (h : NoCollision tools first second) :
    deterministicPlanHash tools first = deterministicPlanHash tools second ↔
      first.hashMaterial = second.hashMaterial := by
  refine ⟨fun heq => ?_, planHash_congr⟩
  rw [deterministicPlanHash, deterministicPlanHash, String.append_right_inj] at heq
  exact h heq

theorem hashIdentifies_iff (h : NoCollision tools first second) :
    HashIdentifies tools first second ↔ ¬ DifferInBuildsOnly first second := by
  have hhash := (planHash_eq_iff h).trans hashMaterial_eq_iff
  constructor
  · rintro hidentifies ⟨hne, hbuilds⟩
    exact hidentifies.different hne (hhash.mpr hbuilds)
  · intro hbuilds
    refine ⟨fun hwork => hhash.mpr (congrArg Plan.withoutBuilds hwork), fun hne heq => ?_⟩
    exact hbuilds ⟨hne, hhash.mp heq⟩

end Hash

/-! ## The plans of the job database -/

/-- Where a plan of the job database comes from: what a planner fills in before its last
    statement, which sets the hash, and for a chain the request and the targets of its hops
    (`prepare_chained_queue_plan`, `src-tauri/src/lib.rs`, lines 651–676). -/
structure PlanOrigin where
  draft : Plan
  chain : Option (PlanRequest × List String)

/-- The plan that is stored. -/
def PlanOrigin.stored {φ : Type} (tools : PlannerTools φ) (origin : PlanOrigin) :
    Except AnoleError Plan :=
  match origin.chain with
  | none => .ok (origin.draft.hashed tools)
  | some (request, hopTargets) =>
    attachChainPlanMetadata (origin.draft.hashed tools) request hopTargets

/-- What `application_issues` says about the hash of a job (`maintenance.rs`, lines 710–718); the
    job stores `storedHash` beside its plan. -/
def planHashIssue {φ : Type} (tools : PlannerTools φ) (jobId storedHash : String) (plan : Plan) :
    Option String :=
  if plan.planHash = storedHash ∧ deterministicPlanHash tools plan = storedHash then none
  else some s!"job {jobId} has a mismatched Plan hash"

/-- A job that is stored with the hash of its plan (`insert_jobs`) passes the check of its hash,
    which is the hash of the plan. -/
structure CarriesHash {φ : Type} (tools : PlannerTools φ) (plan : Plan) : Prop where
  own : plan.planHash = deterministicPlanHash tools plan
  unreported : ∀ jobId, planHashIssue tools jobId plan.planHash plan = none

/-- No chain is attached, or the constraints already say what the chain would. -/
def PlanOrigin.ChainRecorded (origin : PlanOrigin) : Prop :=
  ∀ request hopTargets, origin.chain = some (request, hopTargets) →
    origin.draft.constraints.lookup "chain" = some (.strings hopTargets) ∧
    origin.draft.constraints.lookup "chain_request" = request.toValue

section Stored

variable {φ : Type} {tools : PlannerTools φ} {plan : Plan} {origin : PlanOrigin}

theorem carriesHash_iff :
    CarriesHash tools plan ↔ plan.planHash = deterministicPlanHash tools plan := by
  refine ⟨CarriesHash.own, fun hown => ⟨hown, fun jobId => ?_⟩⟩
  rw [planHashIssue, if_pos ⟨rfl, hown.symm⟩]

/-- A chain changes two constraints and the path of the output. -/
theorem attachChain_eq_ok {request : PlanRequest} {hopTargets : List String} {extended : Plan}
    (h : attachChainPlanMetadata plan request hopTargets = .ok extended) :
    ∃ value, request.toValue = some value ∧
      extended = { plan with
        constraints := (plan.constraints.insert "chain" (.strings hopTargets)).insert
          "chain_request" value
        outputPath := request.outputPath } := by
  rw [attachChainPlanMetadata] at h
  match hvalue : request.toValue with
  | none => rw [hvalue] at h; exact absurd h (by simp)
  | some value => rw [hvalue] at h; exact ⟨value, rfl, (Except.ok.inj h).symm⟩

/-- Setting the two constraints of a chain changes nothing exactly if they are there. -/
theorem insert_chain_eq_iff {constraints : TextMap Json} {hops request : Json}
    (hsorted : constraints.Pairwise (·.1 < ·.1)) :
    (constraints.insert "chain" hops).insert "chain_request" request = constraints ↔
      constraints.lookup "chain" = some hops ∧
      constraints.lookup "chain_request" = some request := by
  constructor
  · intro h
    rw [← h, TextMap.lookup_insert_of_ne (by decide), TextMap.lookup_insert, TextMap.lookup_insert]
    exact ⟨rfl, rfl⟩
  · rintro ⟨hhops, hrequest⟩
    rw [TextMap.insert_of_lookup hsorted hhops, TextMap.insert_of_lookup hsorted hrequest]

/-- A stored plan carries its own hash exactly if no chain was attached after it was hashed. -/
theorem stored_carriesHash_iff (hsorted : origin.draft.constraints.Pairwise (·.1 < ·.1))
    (hstored : origin.stored tools = .ok plan) (hcollision : NoCollision tools origin.draft plan) :
    CarriesHash tools plan ↔ origin.ChainRecorded := by
  rw [carriesHash_iff]
  rw [PlanOrigin.stored] at hstored
  match hchain : origin.chain with
  | none =>
    rw [hchain] at hstored
    refine iff_of_true ?_ fun request hopTargets h => absurd (hchain.symm.trans h) (by simp)
    rw [← Except.ok.inj hstored]
    exact planHash_congr rfl
  | some (request, hopTargets) =>
    rw [hchain] at hstored
    obtain ⟨value, hvalue, hplan⟩ := attachChain_eq_ok hstored
    have hown : plan.planHash = deterministicPlanHash tools origin.draft := by rw [hplan]; rfl
    have hmaterial : origin.draft.hashMaterial = plan.hashMaterial ↔
        plan.constraints = origin.draft.constraints := by
      rw [hplan]
      simp only [Plan.hashMaterial, Plan.hashed, Json.object.injEq, List.cons.injEq,
        Prod.mk.injEq, true_and, and_true]
      exact eq_comm
    rw [hown, planHash_eq_iff hcollision, hmaterial, hplan]
    refine (insert_chain_eq_iff hsorted).trans ?_
    rw [PlanOrigin.ChainRecorded, hchain]
    constructor
    · rintro ⟨hhops, hrequest⟩ request' hopTargets' h
      obtain ⟨rfl, rfl⟩ := Prod.mk.inj (Option.some.inj h)
      exact ⟨hhops, hrequest.trans hvalue.symm⟩
    · intro h
      exact ⟨(h request hopTargets rfl).1, (h request hopTargets rfl).2.trans hvalue⟩

end Stored

/-- The hash identifies the work of plans that do not differ in the builds of their engines only,
    and stored plans carry it unless a chain was attached. -/
theorem plan_hash_iff {φ : Type} (tools : PlannerTools φ) :
    (∀ first second, NoCollision tools first second →
      (HashIdentifies tools first second ↔ ¬ DifferInBuildsOnly first second)) ∧
    (∀ (origin : PlanOrigin) (plan : Plan), origin.draft.constraints.Pairwise (·.1 < ·.1) →
      origin.stored tools = .ok plan → NoCollision tools origin.draft plan →
      (CarriesHash tools plan ↔ origin.ChainRecorded)) :=
  ⟨fun _ _ => hashIdentifies_iff, fun _ _ => stored_carriesHash_iff⟩

namespace Sample

/-- A hash that tells the plans of one step below apart. -/
def chainHash (material : Json) : String :=
  match material.field? "constraints" with
  | some (.object ((key, _) :: _)) => if key = "chain" then "01" else "02"
  | _ => "00"

def hashTools : PlannerTools Unit := ⟨chainHash, fun _ => "00", fun _ _ => .ok 0, fun text => text⟩

def ffmpeg (build : Option String) : EngineIdentity where
  engineId := "ffmpeg"
  version := "8.0"
  binaryPath := PathBuf.ofString "/usr/bin/ffmpeg"
  binarySha256 := "00"
  manifestSha256 := none
  buildConfiguration := build
  certification := .certified

/-- A plan with an engine of a build. -/
def built (build : Option String) : Plan where
  schemaVersion := 1
  planId := 0
  planHash := ""
  inputFingerprint := "fast:11"
  targetFormat := "mkv"
  constraints := []
  steps := [⟨"step-1", "ffmpeg.remux", ffmpeg build, .remux, .containerOnly, [], none⟩]
  changes := ⟨[], [], [], []⟩
  validators := []
  networkPolicy := .deny
  outputPath := none
  estimatedOutputBytes := none

/-- A request for a chain. -/
def chainRequest : PlanRequest where
  targetFormat := "mp4"
  outputPath := none
  preserveAllStreams := false
  audioStreamIndex := none
  startMillis := none
  durationMillis := none
  width := none
  quality := none
  dpi := none
  colorMode := none
  framesPerSecond := none
  loopCount := none
  videoCrf := none
  videoPreset := none
  audioBitrateKbps := none
  operation := none
  inputs := []
  pageRange := none
  allowLossyData := false
  rotateAngle := none
  password := none
  ocrLanguage := none
  watermarkText := none
  watermarkAngle := none
  targetSizeBytes := none
  metadataTitle := none
  metadataAuthor := none

def chained : PlanOrigin := ⟨built none, some (chainRequest, ["mkv", "mp4"])⟩

theorem plan_hash_chained : ∃ plan, chained.stored hashTools = .ok plan ∧
    (HashIdentifies hashTools (built none) plan ↔ ¬ DifferInBuildsOnly (built none) plan) ∧
    (CarriesHash hashTools plan ↔ chained.ChainRecorded) := by
  obtain ⟨plan, hplan, hhash⟩ : ∃ plan, chained.stored hashTools = .ok plan ∧
      hashTools.blake3Json plan.hashMaterial = "01" := ⟨_, rfl, rfl⟩
  have hcollision : NoCollision hashTools (built none) plan := by
    intro h
    rw [hhash] at h
    exact absurd h (by decide)
  exact ⟨plan, hplan, (plan_hash_iff hashTools).1 _ _ hcollision,
    (plan_hash_iff hashTools).2 chained plan .nil hplan hcollision⟩

/-- Another build of the engine has the same hash, and the check of the hashes reports a chain. -/
theorem chain_reported :
    (built none).work ≠ (built (some "--enable-gpl")).work ∧
    deterministicPlanHash hashTools (built none) =
      deterministicPlanHash hashTools (built (some "--enable-gpl")) ∧
    ∃ plan, chained.stored hashTools = .ok plan ∧
      plan.planHash ≠ deterministicPlanHash hashTools plan ∧
      planHashIssue hashTools "1" plan.planHash plan = some "job 1 has a mismatched Plan hash" := by
  refine ⟨fun h => ?_, rfl, _, rfl, by decide, by decide⟩
  have hsteps := congrArg Plan.steps h
  exact absurd hsteps (by decide)

end Sample

end Anole.Planning
