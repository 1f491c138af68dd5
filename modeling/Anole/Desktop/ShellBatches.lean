import Mathlib.Algebra.Ring.Nat
import Mathlib.Data.List.Nodup
import Mathlib.Data.List.Range
import Mathlib.Data.Nat.Notation
import Mathlib.Tactic.Common

/-!
# Batches of shell conversions

Model of `ShellConvertCoordinator` (`apps/desktop/src-tauri/src/shell_convert.rs`, lines 20–101), which collects the
files of one verb in a buffer and hands them on as batches in a queue. A run is any sequence of the three operations;
the requests are numbered, so that equal paths are told apart.

Results:
* `Invariant.step`, `run_invariant`: no request is lost but for those that a full buffer or a full queue drops, their
  order is kept, and each batch holds requests of its own target and preset.
* `batches_exact_iff`: when, moreover, each push reports what it did.

**Deviation.** A push with a preset into an empty buffer reports a batch although there is none: the preset of the
buffer is compared with that of the request also when no request is in it. And a push that ends a batch while the
queue is full drops the oldest batch, and reports no overflow.
-/

namespace Anole.Desktop.Batches

/-- `CONVERT_READY_FIFO_LIMIT`. -/
def convertReadyFifoLimit : ℕ := 8

/-- `CONVERT_PATHS_LIMIT`. -/
def convertPathsLimit : ℕ := 32

/-! ## The coordinator -/

/-- `DesktopShellOpenBatch`. -/
structure ShellOpenBatch (α : Type) where
  target : String
  preset : Option String
  paths : List α

/-- `ShellConvertCoordinator`. -/
structure Coordinator (α : Type) where
  bufferTarget : Option String
  bufferPreset : Option String
  bufferPaths : List α
  ready : List (ShellOpenBatch α)
  generation : ℕ

/-- `ConvertPushOutcome`. -/
structure PushOutcome where
  flushedReady : Bool
  overflowed : Bool

variable {α β : Type}

def Coordinator.new : Coordinator α := ⟨none, none, [], [], 0⟩

namespace Coordinator

variable (c : Coordinator α)

/-- The queue with another batch. -/
def enqueue (batch : ShellOpenBatch α) : List (ShellOpenBatch α) :=
  (if convertReadyFifoLimit ≤ c.ready.length then c.ready.tail else c.ready) ++ [batch]

/-- `flush_quiet`. -/
def flushQuiet : Option (ShellOpenBatch α) × Coordinator α :=
  match c.bufferTarget with
  | none => (none, c)
  | some target =>
    if c.bufferPaths.isEmpty then (none, { c with bufferTarget := none, bufferPreset := none })
    else
      let batch : ShellOpenBatch α := ⟨target, c.bufferPreset, c.bufferPaths⟩
      (some batch,
        { c with bufferTarget := none, bufferPreset := none, bufferPaths := [], ready := c.enqueue batch })

/-- The condition of `push` (lines 48–53). -/
def differs (target : String) (preset : Option String) : Bool :=
  c.bufferTarget.any (fun current => current != target) || c.bufferPreset != preset

/-- The part of `push` behind the flush. -/
def append (target : String) (preset : Option String) (path : α) : Coordinator α :=
  { c with
    bufferTarget := some (c.bufferTarget.getD target)
    bufferPreset := preset
    bufferPaths := (if convertPathsLimit ≤ c.bufferPaths.length then c.bufferPaths.tail else c.bufferPaths) ++ [path]
    generation := min (c.generation + 1) (2 ^ 64 - 1) }

/-- `push`. -/
def push (target : String) (preset : Option String) (path : α) : PushOutcome × Coordinator α :=
  let flushed := if c.differs target preset then c.flushQuiet.2 else c
  (⟨c.differs target preset, decide (convertPathsLimit ≤ flushed.bufferPaths.length)⟩,
    flushed.append target preset path)

/-- `take_ready`. -/
def takeReady : Option (ShellOpenBatch α) × Coordinator α := (c.ready.head?, { c with ready := c.ready.tail })

end Coordinator

/-! ## Runs -/

/-- An operation of a run. -/
inductive Operation (α : Type) where
  | push (target : String) (preset : Option String) (path : α)
  | flushQuiet
  | takeReady

/-- A path that was pushed, with its verb. -/
structure Request (α : Type) where
  number : ℕ
  target : String
  preset : Option String
  path : α

/-- The oldest batch of a full queue. -/
def oldestBatch (c : Coordinator β) : List β :=
  if convertReadyFifoLimit ≤ c.ready.length then (c.ready.head?.map fun batch => batch.paths).getD [] else []

/-- A batch ends before a request of another verb. -/
def Ends (c : Coordinator β) (target : String) (preset : Option String) : Prop :=
  ¬ c.bufferPaths.isEmpty ∧ (c.bufferTarget ≠ some target ∨ c.bufferPreset ≠ preset)

instance (c : Coordinator β) (target : String) (preset : Option String) : Decidable (Ends c target preset) :=
  inferInstanceAs (Decidable (_ ∧ _))

/-- What a full buffer or a full queue drops. -/
def lost (c : Coordinator β) : Operation α → List β
  | .push target preset _ =>
    if Ends c target preset then oldestBatch c
    else if convertPathsLimit ≤ c.bufferPaths.length then c.bufferPaths.take 1 else []
  | .flushQuiet => if c.bufferPaths.isEmpty then [] else oldestBatch c
  | .takeReady => []

/-- A run, with the batches that were taken, the requests, and the numbers of those that were dropped. -/
structure Session (α : Type) where
  coordinator : Coordinator (Request α)
  taken : List (ShellOpenBatch (Request α))
  pushed : List (Request α)
  dropped : List ℕ

def Session.start : Session α := ⟨.new, [], [], []⟩

namespace Session

variable (s : Session α)

/-- The coordinator and the batch that is taken. -/
def apply : Operation α → Coordinator (Request α) × Option (ShellOpenBatch (Request α))
  | .push target preset path => ((s.coordinator.push target preset ⟨s.pushed.length, target, preset, path⟩).2, none)
  | .flushQuiet => (s.coordinator.flushQuiet.2, none)
  | .takeReady => (s.coordinator.takeReady.2, s.coordinator.takeReady.1)

/-- The request of an operation. -/
def requests : Operation α → List (Request α)
  | .push target preset path => [⟨s.pushed.length, target, preset, path⟩]
  | _ => []

def step (operation : Operation α) : Session α where
  coordinator := (s.apply operation).1
  taken := s.taken ++ (s.apply operation).2.toList
  pushed := s.pushed ++ s.requests operation
  dropped := s.dropped ++ (lost s.coordinator operation).map Request.number

/-- The requests of the batches that were taken, of those that are ready, and of the buffer. -/
def held : List (Request α) :=
  s.taken.flatMap ShellOpenBatch.paths ++
    (s.coordinator.ready.flatMap ShellOpenBatch.paths ++ s.coordinator.bufferPaths)

end Session

def run (operations : List (Operation α)) : Session α := operations.foldl Session.step .start

/-! ## The buffer -/

/-- The batch of the requests in the buffer. -/
def Coordinator.bufferBatch (c : Coordinator α) : ShellOpenBatch α :=
  ⟨c.bufferTarget.getD "", c.bufferPreset, c.bufferPaths⟩

/-- The buffer has the target and the preset of its requests, and none when it is empty. -/
structure Coherent (c : Coordinator (Request α)) : Prop where
  target : ∀ request ∈ c.bufferPaths, c.bufferTarget = some request.target
  preset : ∀ request ∈ c.bufferPaths, c.bufferPreset = request.preset
  target_none : c.bufferPaths = [] → c.bufferTarget = none
  preset_none : c.bufferPaths = [] → c.bufferPreset = none
  length_le : c.bufferPaths.length ≤ convertPathsLimit

/-- A batch of requests of its target and its preset. -/
def Sound (batch : ShellOpenBatch (Request α)) : Prop :=
  batch.paths ≠ [] ∧ batch.paths.length ≤ convertPathsLimit ∧
    ∀ request ∈ batch.paths, request.target = batch.target ∧ request.preset = batch.preset

section

variable {c : Coordinator (Request α)} {target : String} {preset : Option String} {request : Request α}

theorem Coherent.exists_target (h : Coherent c) (hfilled : c.bufferPaths ≠ []) :
    ∃ current, c.bufferTarget = some current := by
  obtain ⟨first, rest, hpaths⟩ := List.exists_cons_of_ne_nil hfilled
  exact ⟨first.target, h.target first (by rw [hpaths]; exact List.mem_cons_self)⟩

theorem Coherent.sound (h : Coherent c) (hfilled : c.bufferPaths ≠ []) : Sound c.bufferBatch := by
  refine ⟨hfilled, h.length_le, fun request hrequest => ⟨?_, (h.preset request hrequest).symm⟩⟩
  rw [Coordinator.bufferBatch, h.target request hrequest, Option.getD_some]

theorem flushQuiet_empty (h : Coherent c) (hempty : c.bufferPaths = []) : c.flushQuiet = (none, c) := by
  rw [Coordinator.flushQuiet, h.target_none hempty]

theorem flushQuiet_filled (h : Coherent c) (hfilled : c.bufferPaths ≠ []) :
    c.flushQuiet = (some c.bufferBatch, ⟨none, none, [], c.enqueue c.bufferBatch, c.generation⟩) := by
  obtain ⟨current, hcurrent⟩ := h.exists_target hfilled
  unfold Coordinator.flushQuiet Coordinator.bufferBatch
  rw [hcurrent]
  dsimp only
  rw [if_neg (by rwa [List.isEmpty_iff]), Option.getD_some]

theorem differs_iff (h : Coherent c) (hfilled : c.bufferPaths ≠ []) :
    c.differs target preset = true ↔ c.bufferTarget ≠ some target ∨ c.bufferPreset ≠ preset := by
  obtain ⟨current, hcurrent⟩ := h.exists_target hfilled
  rw [Coordinator.differs, hcurrent, Bool.or_eq_true, Option.any_some, bne_iff_ne, bne_iff_ne,
    Ne, Ne, Ne, Option.some.injEq]

theorem push_empty (h : Coherent c) (hempty : c.bufferPaths = []) :
    c.push target preset request = (⟨preset.isSome, false⟩,
      ⟨some target, preset, [request], c.ready, min (c.generation + 1) (2 ^ 64 - 1)⟩) := by
  have hdiffers : c.differs target preset = preset.isSome := by
    rw [Coordinator.differs, h.target_none hempty, h.preset_none hempty]
    cases preset <;> rfl
  have hsame : (if c.differs target preset then c.flushQuiet.2 else c) = c := by
    rw [flushQuiet_empty h hempty, ite_self]
  unfold Coordinator.push
  rw [hsame, hdiffers]
  dsimp only [Coordinator.append]
  rw [h.target_none hempty, hempty]
  rfl

theorem push_ends (h : Coherent c) (hends : Ends c target preset) :
    c.push target preset request = (⟨true, false⟩,
      ⟨some target, preset, [request], c.enqueue c.bufferBatch, min (c.generation + 1) (2 ^ 64 - 1)⟩) := by
  have hfilled : c.bufferPaths ≠ [] := by rw [Ne, ← List.isEmpty_iff]; exact hends.1
  unfold Coordinator.push
  rw [(differs_iff h hfilled).mpr hends.2, if_pos rfl, flushQuiet_filled h hfilled]
  rfl

theorem push_joins (h : Coherent c) (hfilled : c.bufferPaths ≠ []) (hends : ¬ Ends c target preset) :
    c.push target preset request = (⟨false, decide (convertPathsLimit ≤ c.bufferPaths.length)⟩,
      ⟨some target, preset,
        (if convertPathsLimit ≤ c.bufferPaths.length then c.bufferPaths.tail else c.bufferPaths) ++ [request], c.ready,
        min (c.generation + 1) (2 ^ 64 - 1)⟩) := by
  have hsame : ¬ (c.bufferTarget ≠ some target ∨ c.bufferPreset ≠ preset) := fun hdiffer =>
    hends ⟨by rwa [List.isEmpty_iff], hdiffer⟩
  have hdiffers : c.differs target preset = false := by
    rw [← Bool.not_eq_true, differs_iff h hfilled]
    exact hsame
  push Not at hsame
  unfold Coordinator.push
  rw [hdiffers, if_neg Bool.false_ne_true]
  dsimp only [Coordinator.append]
  rw [hsame.1, Option.getD_some]

end

/-! ## Conservation -/

/-- The requests that were not dropped. -/
def survivors (pushed : List (Request α)) (dropped : List ℕ) : List (Request α) :=
  pushed.filter fun request => request.number ∉ dropped

theorem survivors_append (pushed requests : List (Request α)) (dropped : List ℕ) :
    survivors (pushed ++ requests) dropped = survivors pushed dropped ++ survivors requests dropped :=
  List.filter_append _ _

/-- Nothing but what is dropped goes missing, where the requests have different numbers. -/
theorem conserved_step {pushed requests before lost after : List (Request α)} {dropped : List ℕ}
    (hnodup : ((pushed ++ requests).map Request.number).Nodup)
    (hdropped : ∀ request ∈ requests, request.number ∉ dropped)
    (hsplit : survivors pushed dropped ++ requests = before ++ lost ++ after) :
    before ++ after = survivors (pushed ++ requests) (dropped ++ lost.map Request.number) := by
  have hrequests : survivors requests dropped = requests :=
    List.filter_eq_self.mpr fun request hrequest => by simpa using hdropped request hrequest
  have hheld : survivors (pushed ++ requests) dropped = before ++ lost ++ after := by
    rw [survivors_append, hrequests, hsplit]
  have hsub : ((before ++ lost ++ after).map Request.number).Nodup := by
    rw [← hheld]
    exact hnodup.sublist (List.filter_sublist.map _)
  have htwice : survivors (pushed ++ requests) (dropped ++ lost.map Request.number) =
      survivors (survivors (pushed ++ requests) dropped) (lost.map Request.number) := by
    unfold survivors
    rw [List.filter_filter]
    refine List.filter_congr fun request _ => ?_
    rw [← Bool.decide_and]
    exact decide_eq_decide.mpr (by rw [List.mem_append]; tauto)
  have hnone : survivors lost (lost.map Request.number) = [] :=
    List.filter_eq_nil_iff.mpr fun request hrequest => by simpa using ⟨request, hrequest, rfl⟩
  rw [List.map_append, List.map_append, List.nodup_append, List.nodup_append] at hsub
  obtain ⟨⟨-, -, hbefore⟩, -, hafter⟩ := hsub
  rw [htwice, hheld, survivors_append, survivors_append, hnone, List.append_nil]
  congr 1
  · refine (List.filter_eq_self.mpr fun request hrequest => ?_).symm
    rw [decide_eq_true_eq]
    exact fun hlost => hbefore _ (List.mem_map_of_mem hrequest) _ hlost rfl
  · refine (List.filter_eq_self.mpr fun request hrequest => ?_).symm
    rw [decide_eq_true_eq]
    exact fun hlost => hafter _ (List.mem_append_right _ hlost) _ (List.mem_map_of_mem hrequest) rfl

/-- What holds in every state of a run. -/
structure Invariant (s : Session α) : Prop where
  coherent : Coherent s.coordinator
  sound : ∀ batch ∈ s.taken ++ s.coordinator.ready, Sound batch
  numbered : s.pushed.map Request.number = List.range s.pushed.length
  dropped_lt : ∀ number ∈ s.dropped, number < s.pushed.length
  conserved : s.held = survivors s.pushed s.dropped

section

variable {s : Session α}

theorem enqueue_eq (c : Coordinator β) (batch : ShellOpenBatch β) (rest : List β) :
    oldestBatch c ++ ((c.enqueue batch).flatMap ShellOpenBatch.paths ++ rest) =
      c.ready.flatMap ShellOpenBatch.paths ++ (batch.paths ++ rest) := by
  unfold oldestBatch Coordinator.enqueue
  split_ifs with hfull
  · obtain ⟨oldest, rest, hready⟩ : ∃ oldest rest, c.ready = oldest :: rest :=
      List.exists_cons_of_length_pos (lt_of_lt_of_le (by decide) hfull)
    simp [hready]
  · simp

theorem mem_of_mem_enqueue {c : Coordinator β} {batch other : ShellOpenBatch β} (h : other ∈ c.enqueue batch) :
    other ∈ c.ready ∨ other = batch := by
  rw [Coordinator.enqueue, List.mem_append, List.mem_singleton] at h
  refine h.imp_left fun hmem => ?_
  split_ifs at hmem
  · exact List.mem_of_mem_tail hmem
  · exact hmem

/-- A step drops what is lost, and keeps the rest in its order. -/
theorem held_step (h : Invariant s) (operation : Operation α) :
    ∃ before after, s.held ++ s.requests operation = before ++ lost s.coordinator operation ++ after ∧
      (s.step operation).held = before ++ after := by
  unfold Session.held Session.step
  cases operation with
  | push target preset path =>
    by_cases hempty : s.coordinator.bufferPaths = []
    · have hends : ¬ Ends s.coordinator target preset := fun hends => hends.1 (List.isEmpty_iff.mpr hempty)
      refine ⟨s.taken.flatMap ShellOpenBatch.paths ++ s.coordinator.ready.flatMap ShellOpenBatch.paths,
        [⟨s.pushed.length, target, preset, path⟩], ?_, ?_⟩
      · rw [lost, if_neg hends, hempty, if_neg (by simp [convertPathsLimit])]
        simp [Session.requests]
      · simp [Session.apply, push_empty h.coherent hempty]
    by_cases hends : Ends s.coordinator target preset
    · refine ⟨s.taken.flatMap ShellOpenBatch.paths,
        (s.coordinator.enqueue s.coordinator.bufferBatch).flatMap ShellOpenBatch.paths ++
          [⟨s.pushed.length, target, preset, path⟩], ?_, ?_⟩
      · rw [lost, if_pos hends, List.append_assoc _ (oldestBatch _), enqueue_eq]
        simp [Session.requests, Coordinator.bufferBatch]
      · simp [Session.apply, push_ends h.coherent hends]
    · refine ⟨s.taken.flatMap ShellOpenBatch.paths ++ s.coordinator.ready.flatMap ShellOpenBatch.paths,
        (if convertPathsLimit ≤ s.coordinator.bufferPaths.length then s.coordinator.bufferPaths.tail
          else s.coordinator.bufferPaths) ++ [⟨s.pushed.length, target, preset, path⟩], ?_, ?_⟩
      · rw [lost, if_neg hends]
        split_ifs
        · obtain ⟨first, rest, hpaths⟩ := List.exists_cons_of_ne_nil hempty
          simp [Session.requests, hpaths]
        · simp [Session.requests]
      · simp [Session.apply, push_joins h.coherent hempty hends]
  | flushQuiet =>
    by_cases hempty : s.coordinator.bufferPaths = []
    · refine ⟨s.held, [], ?_, ?_⟩
      · simp [lost, hempty, Session.requests, Session.held]
      · simp [Session.apply, flushQuiet_empty h.coherent hempty, Session.held]
    · refine ⟨s.taken.flatMap ShellOpenBatch.paths,
        (s.coordinator.enqueue s.coordinator.bufferBatch).flatMap ShellOpenBatch.paths ++ [], ?_, ?_⟩
      · rw [lost, if_neg (by rwa [List.isEmpty_iff]), List.append_assoc _ (oldestBatch _), enqueue_eq]
        simp [Session.requests, Coordinator.bufferBatch]
      · simp [Session.apply, flushQuiet_filled h.coherent hempty]
  | takeReady =>
    refine ⟨s.held, [], ?_, ?_⟩
    · simp [lost, Session.requests, Session.held]
    · rcases hready : s.coordinator.ready with _ | ⟨first, rest⟩ <;>
        simp [Session.apply, Coordinator.takeReady, Session.held, hready]

theorem Coherent.single (target : String) (preset : Option String) (request : Request α)
    (ready : List (ShellOpenBatch (Request α))) (generation : ℕ) (htarget : request.target = target)
    (hpreset : request.preset = preset) : Coherent ⟨some target, preset, [request], ready, generation⟩ where
  target := fun _ hother => by rw [List.mem_singleton.mp hother, htarget]
  preset := fun _ hother => by rw [List.mem_singleton.mp hother, hpreset]
  target_none := fun h => absurd h (List.cons_ne_nil _ _)
  preset_none := fun h => absurd h (List.cons_ne_nil _ _)
  length_le := show 1 ≤ convertPathsLimit by decide

theorem coherent_step (h : Invariant s) (operation : Operation α) : Coherent (s.step operation).coordinator := by
  have hcoherent := h.coherent
  unfold Session.step
  cases operation with
  | push target preset path =>
    by_cases hempty : s.coordinator.bufferPaths = []
    · simp only [Session.apply, push_empty hcoherent hempty]
      exact .single _ _ _ _ _ rfl rfl
    by_cases hends : Ends s.coordinator target preset
    · simp only [Session.apply, push_ends hcoherent hends]
      exact .single _ _ _ _ _ rfl rfl
    · simp only [Session.apply, push_joins hcoherent hempty hends]
      have hsame : s.coordinator.bufferTarget = some target ∧ s.coordinator.bufferPreset = preset := by
        have hdiffer : ¬ (s.coordinator.bufferTarget ≠ some target ∨ s.coordinator.bufferPreset ≠ preset) :=
          fun hdiffer => hends ⟨by rwa [List.isEmpty_iff], hdiffer⟩
        push Not at hdiffer
        exact hdiffer
      have hmem : ∀ request ∈ (if convertPathsLimit ≤ s.coordinator.bufferPaths.length
          then s.coordinator.bufferPaths.tail else s.coordinator.bufferPaths), request ∈ s.coordinator.bufferPaths := by
        intro request hrequest
        split_ifs at hrequest
        · exact List.mem_of_mem_tail hrequest
        · exact hrequest
      refine ⟨fun request hrequest => ?_, fun request hrequest => ?_, fun hnil => ?_, fun hnil => ?_, ?_⟩
      · rcases List.mem_append.mp hrequest with hold | hnew
        · rw [← hcoherent.target request (hmem request hold), hsame.1]
        · rw [List.mem_singleton.mp hnew]
      · rcases List.mem_append.mp hrequest with hold | hnew
        · rw [← hcoherent.preset request (hmem request hold), hsame.2]
        · rw [List.mem_singleton.mp hnew]
      · exact absurd hnil (by simp)
      · exact absurd hnil (by simp)
      · have hle := hcoherent.length_le
        have hlimit : convertPathsLimit = 32 := rfl
        dsimp only
        rw [List.length_append, List.length_singleton]
        split_ifs with hfull
        · rw [List.length_tail]
          omega
        · omega
  | flushQuiet =>
    by_cases hempty : s.coordinator.bufferPaths = []
    · simp only [Session.apply, flushQuiet_empty hcoherent hempty]
      exact hcoherent
    · simp only [Session.apply, flushQuiet_filled hcoherent hempty]
      exact ⟨fun _ h => absurd h List.not_mem_nil, fun _ h => absurd h List.not_mem_nil, fun _ => rfl, fun _ => rfl,
        Nat.zero_le _⟩
  | takeReady => exact ⟨hcoherent.1, hcoherent.2, hcoherent.3, hcoherent.4, hcoherent.5⟩

/-- A batch after a step was there before, or is that of the buffer. -/
theorem mem_step (h : Invariant s) (operation : Operation α) {batch : ShellOpenBatch (Request α)}
    (hmem : batch ∈ (s.step operation).taken ++ (s.step operation).coordinator.ready) :
    batch ∈ s.taken ++ s.coordinator.ready ∨
      s.coordinator.bufferPaths ≠ [] ∧ batch = s.coordinator.bufferBatch := by
  have hcoherent := h.coherent
  unfold Session.step at hmem
  cases operation with
  | push target preset path =>
    by_cases hempty : s.coordinator.bufferPaths = []
    · simp only [Session.apply, push_empty hcoherent hempty, Option.toList_none, List.append_nil] at hmem
      exact .inl hmem
    by_cases hends : Ends s.coordinator target preset
    · simp only [Session.apply, push_ends hcoherent hends, Option.toList_none, List.append_nil] at hmem
      rcases List.mem_append.mp hmem with htaken | hready
      · exact .inl (List.mem_append_left _ htaken)
      · exact (mem_of_mem_enqueue hready).imp (List.mem_append_right _) fun heq => ⟨hempty, heq⟩
    · simp only [Session.apply, push_joins hcoherent hempty hends, Option.toList_none, List.append_nil] at hmem
      exact .inl hmem
  | flushQuiet =>
    by_cases hempty : s.coordinator.bufferPaths = []
    · simp only [Session.apply, flushQuiet_empty hcoherent hempty, Option.toList_none, List.append_nil] at hmem
      exact .inl hmem
    · simp only [Session.apply, flushQuiet_filled hcoherent hempty, Option.toList_none, List.append_nil] at hmem
      rcases List.mem_append.mp hmem with htaken | hready
      · exact .inl (List.mem_append_left _ htaken)
      · exact (mem_of_mem_enqueue hready).imp (List.mem_append_right _) fun heq => ⟨hempty, heq⟩
  | takeReady =>
    left
    simp only [Session.apply, Coordinator.takeReady] at hmem
    cases hready : s.coordinator.ready with
    | nil => simpa [hready] using hmem
    | cons first rest => simpa [hready] using hmem

theorem numbered_step (h : Invariant s) (operation : Operation α) :
    (s.step operation).pushed.map Request.number = List.range (s.step operation).pushed.length := by
  unfold Session.step
  cases operation with
  | push => simp [Session.requests, h.numbered, List.range_succ]
  | flushQuiet => simpa [Session.requests] using h.numbered
  | takeReady => simpa [Session.requests] using h.numbered

theorem Invariant.step (h : Invariant s) (operation : Operation α) : Invariant (s.step operation) := by
  obtain ⟨before, after, hsplit, hheld⟩ := held_step h operation
  have hnumbered := numbered_step h operation
  have hrequests : ∀ request ∈ s.requests operation, request.number ∉ s.dropped := by
    intro request hrequest hdropped
    have hlt := h.dropped_lt _ hdropped
    cases operation with
    | push =>
      rw [Session.requests, List.mem_singleton] at hrequest
      rw [hrequest] at hlt
      exact lt_irrefl _ hlt
    | flushQuiet => exact List.not_mem_nil hrequest
    | takeReady => exact List.not_mem_nil hrequest
  refine ⟨coherent_step h operation, fun batch hbatch => ?_, hnumbered, fun number hnumber => ?_, ?_⟩
  · rcases mem_step h operation hbatch with hold | ⟨hfilled, rfl⟩
    · exact h.sound batch hold
    · exact h.coherent.sound hfilled
  · rcases List.mem_append.mp hnumber with hold | hnew
    · exact lt_of_lt_of_le (h.dropped_lt number hold) (by simp [Session.step])
    · obtain ⟨request, hlost, rfl⟩ := List.mem_map.mp hnew
      have hmem : request ∈ s.held ++ s.requests operation := by
        rw [hsplit]
        exact List.mem_append_left _ (List.mem_append_right _ hlost)
      rw [h.conserved] at hmem
      have hpushed : request ∈ (s.step operation).pushed :=
        List.mem_append.mpr ((List.mem_append.mp hmem).imp_left List.mem_of_mem_filter)
      rw [← List.mem_range, ← hnumbered]
      exact List.mem_map_of_mem hpushed
  · rw [hheld]
    refine conserved_step ?_ hrequests (by rw [← h.conserved, hsplit])
    rw [show s.pushed ++ s.requests operation = (s.step operation).pushed from rfl, hnumbered]
    exact List.nodup_range

end

theorem run_append (operations : List (Operation α)) (operation : Operation α) :
    run (operations ++ [operation]) = (run operations).step operation := by
  rw [run, List.foldl_append]
  rfl

theorem run_invariant (operations : List (Operation α)) : Invariant (run operations) := by
  induction operations using List.reverseRecOn with
  | nil =>
    exact ⟨⟨fun _ h => absurd h List.not_mem_nil, fun _ h => absurd h List.not_mem_nil, fun _ => rfl, fun _ => rfl,
      Nat.zero_le _⟩, fun _ h => absurd h List.not_mem_nil, rfl, fun _ h => absurd h List.not_mem_nil, rfl⟩
  | append_singleton operations operation ih =>
    rw [run_append]
    exact ih.step operation

/-! ## Reports -/

section

variable {s : Session α}

/-- A batch is ready that was not before. -/
def Moved (s : Session α) (operation : Operation α) : Prop :=
  ∃ batch ∈ (s.step operation).coordinator.ready, batch ∉ s.coordinator.ready

/-- A push reports a batch when it moved one, and an overflow when it dropped something. -/
def Reports (s : Session α) : Operation α → Prop
  | .push target preset path =>
    let outcome := (s.coordinator.push target preset ⟨s.pushed.length, target, preset, path⟩).1
    (outcome.flushedReady = true ↔ Moved s (.push target preset path)) ∧
      (outcome.overflowed = true ↔ lost s.coordinator (.push target preset path) ≠ [])
  | _ => True

/-- A push has no preset when the buffer is empty, and ends no batch while the queue is full. -/
def Plain (s : Session α) : Operation α → Prop
  | .push target preset _ =>
    ¬ (s.coordinator.bufferPaths.isEmpty ∧ preset.isSome) ∧
      ¬ (Ends s.coordinator target preset ∧ convertReadyFifoLimit ≤ s.coordinator.ready.length)
  | _ => True

theorem not_moved {operation : Operation α} (h : (s.step operation).coordinator.ready = s.coordinator.ready) :
    ¬ Moved s operation := by
  rintro ⟨batch, hmem, hnot⟩
  exact hnot (h ▸ hmem)

theorem Invariant.bufferBatch_not_mem (h : Invariant s) (hfilled : s.coordinator.bufferPaths ≠ []) :
    s.coordinator.bufferBatch ∉ s.coordinator.ready := by
  intro hmem
  obtain ⟨first, rest, hpaths⟩ := List.exists_cons_of_ne_nil hfilled
  have hfirst : first ∈ s.coordinator.bufferPaths := by rw [hpaths]; exact List.mem_cons_self
  have hnodup : (s.held.map Request.number).Nodup := by
    have hpushed : (s.pushed.map Request.number).Nodup := by
      rw [h.numbered]
      exact List.nodup_range
    rw [h.conserved]
    exact hpushed.sublist (List.filter_sublist.map _)
  have hheld := (hnodup.of_map _)
  rw [Session.held, List.nodup_append, List.nodup_append] at hheld
  exact hheld.2.1.2.2 first (List.mem_flatMap.mpr ⟨_, hmem, hfirst⟩) first hfirst rfl

theorem oldestBatch_ne_nil (h : Invariant s) :
    oldestBatch s.coordinator ≠ [] ↔ convertReadyFifoLimit ≤ s.coordinator.ready.length := by
  unfold oldestBatch
  split_ifs with hfull
  · obtain ⟨oldest, rest, hready⟩ : ∃ oldest rest, s.coordinator.ready = oldest :: rest :=
      List.exists_cons_of_length_pos (lt_of_lt_of_le (by decide) hfull)
    have hsound := h.sound oldest (List.mem_append_right _ (by rw [hready]; exact List.mem_cons_self))
    rw [hready]
    exact iff_of_true hsound.1 (hready ▸ hfull)
  · exact iff_of_false (fun hne => hne rfl) hfull

theorem reports_iff (h : Invariant s) (operation : Operation α) : Reports s operation ↔ Plain s operation := by
  have hcoherent := h.coherent
  cases operation with
  | push target preset path =>
    have hstep : (s.step (.push target preset path)).coordinator =
        (s.coordinator.push target preset ⟨s.pushed.length, target, preset, path⟩).2 := rfl
    unfold Reports Plain lost
    dsimp only
    by_cases hempty : s.coordinator.bufferPaths = []
    · have hends : ¬ Ends s.coordinator target preset := fun hends => hends.1 (List.isEmpty_iff.mpr hempty)
      have hmoved : ¬ Moved s (.push target preset path) :=
        not_moved (by rw [hstep, push_empty hcoherent hempty])
      rw [push_empty hcoherent hempty, if_neg hends, hempty]
      simp [hmoved, hends, convertPathsLimit]
    by_cases hends : Ends s.coordinator target preset
    · have hmoved : Moved s (.push target preset path) := by
        refine ⟨s.coordinator.bufferBatch, ?_, h.bufferBatch_not_mem hempty⟩
        rw [hstep, push_ends hcoherent hends]
        exact List.mem_append_right _ List.mem_cons_self
      rw [push_ends hcoherent hends, if_pos hends, oldestBatch_ne_nil h]
      simp [hmoved, hends, hempty]
    · have hmoved : ¬ Moved s (.push target preset path) :=
        not_moved (by rw [hstep, push_joins hcoherent hempty hends])
      rw [push_joins hcoherent hempty hends, if_neg hends]
      simp [hmoved, hends, hempty]
  | flushQuiet => exact Iff.rfl
  | takeReady => exact Iff.rfl

end

/-- A run that loses nothing but what is dropped, puts the requests into batches of their verbs, and reports each push
as it was. -/
structure Exact (operations : List (Operation α)) : Prop where
  conserved : (run operations).held = survivors (run operations).pushed (run operations).dropped
  sound : ∀ batch ∈ (run operations).taken ++ (run operations).coordinator.ready, Sound batch
  reports : ∀ before operation, before ++ [operation] <+: operations → Reports (run before) operation

/-- A run is exact if and only if no push brings a preset to an empty buffer, and none ends a batch while the queue is
full. -/
theorem batches_exact_iff (operations : List (Operation α)) :
    Exact operations ↔ ∀ before operation, before ++ [operation] <+: operations → Plain (run before) operation := by
  have hinvariant := run_invariant operations
  refine ⟨fun h before operation hprefix => ?_, fun h => ⟨hinvariant.conserved, hinvariant.sound, ?_⟩⟩
  · exact (reports_iff (run_invariant before) operation).mp (h.reports before operation hprefix)
  · intro before operation hprefix
    exact (reports_iff (run_invariant before) operation).mpr (h before operation hprefix)

/-- The first file of a verb with a preset, and ten files of ten verbs. -/
theorem pushes_misreported : ¬ Exact [Operation.push "webp" (some "small") 0] ∧
    ¬ Exact ((List.range 10).map fun n => Operation.push (String.ofList (List.replicate n 'p')) none n) := by
  refine ⟨fun h => ?_, fun h => ?_⟩
  · have hplain := (reports_iff (run_invariant []) _).mp (h.reports [] _ (List.prefix_refl _))
    exact hplain.1 (by decide)
  · have hplain := (reports_iff (run_invariant _) _).mp
      (h.reports ((List.range 9).map fun n => Operation.push (String.ofList (List.replicate n 'p')) none n)
        (.push "ppppppppp" none 9) (List.prefix_refl _))
    exact hplain.2 (by decide)

end Anole.Desktop.Batches
