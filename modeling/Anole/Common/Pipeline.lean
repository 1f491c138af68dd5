import Mathlib.Data.List.Perm.Basic

/-!
# Pipelines

Items pass through stages: they wait, are taken (one at a time), run side by side, are
joined (one at a time) and are settled with an outcome. `Pipeline.Move` lists the moves
between the stages.

Results: no move loses or duplicates an item (`Move.items`), so the settled items are
distinct when the first ones were; and each move says what it does to the items in
progress and to those that occupy a slot.
-/

namespace Common

/-- The items in their stages. -/
structure Pipeline (ι κ : Type) where
  waiting : List ι
  taken : List ι
  running : List ι
  joined : List ι
  settled : List (ι × κ)

namespace Pipeline

variable {ι κ : Type}

/-- Every item, stage by stage. -/
def items (p : Pipeline ι κ) : List ι :=
  p.waiting ++ (p.taken ++ (p.running ++ (p.joined ++ p.settled.map Prod.fst)))

/-- The items that have left the queue and are not settled. -/
def inProgress (p : Pipeline ι κ) : List ι := p.taken ++ (p.running ++ p.joined)

/-- The items that occupy a slot: taken or running. -/
def slots (p : Pipeline ι κ) : List ι := p.taken ++ p.running

/-- The moves between the stages. -/
inductive Move (p : Pipeline ι κ) : Pipeline ι κ → Prop
  | take (x : ι) (rest : List ι) : p.waiting.Perm (x :: rest) → p.taken = [] →
      Move p { p with waiting := rest, taken := [x] }
  | start (x : ι) : p.taken = [x] → Move p { p with taken := [], running := p.running ++ [x] }
  | drop (x : ι) (k : κ) : p.taken = [x] →
      Move p { p with taken := [], settled := p.settled ++ [(x, k)] }
  | join (x : ι) (rest : List ι) : p.running.Perm (x :: rest) → p.joined = [] →
      Move p { p with running := rest, joined := [x] }
  | settle (x : ι) (k : κ) : p.joined = [x] →
      Move p { p with joined := [], settled := p.settled ++ [(x, k)] }

variable {p q : Pipeline ι κ} {x : ι}

/-- **No move loses or duplicates an item.** -/
theorem Move.items [DecidableEq ι] (h : Move p q) : q.items.Perm p.items := by
  unfold Pipeline.items
  cases h with
  | take x rest hperm htaken =>
    rw [htaken]
    grind
  | start x htaken =>
    rw [htaken]
    grind
  | drop x k htaken =>
    rw [htaken]
    simp only [List.map_append, List.map_cons, List.map_nil]
    grind
  | join x rest hperm hjoined =>
    rw [hjoined]
    grind
  | settle x k hjoined =>
    rw [hjoined]
    simp only [List.map_append, List.map_cons, List.map_nil]
    grind

/-! ## One stage at a time -/

theorem not_mem_running (h : p.items.Nodup) (hx : x ∈ p.taken ∨ x ∈ p.joined) : x ∉ p.running := by
  unfold items at h
  grind

theorem not_mem_settled (h : p.items.Nodup) (hx : x ∈ p.taken ∨ x ∈ p.joined ∨ x ∈ p.running) :
    x ∉ p.settled.map Prod.fst := by
  unfold items at h
  grind

theorem not_mem_inProgress (h : p.items.Nodup) (hx : x ∈ p.waiting) : x ∉ p.inProgress := by
  unfold items at h
  unfold inProgress
  grind

/-! ## The items in progress and the slots -/

section Effects

variable (p) {rest : List ι} (k : κ)

theorem inProgress_take (htaken : p.taken = []) :
    ({ p with waiting := rest, taken := [x] } : Pipeline ι κ).inProgress = x :: p.inProgress := by
  simp [inProgress, htaken]

theorem slots_take (htaken : p.taken = []) :
    ({ p with waiting := rest, taken := [x] } : Pipeline ι κ).slots = x :: p.slots := by
  simp [slots, htaken]

theorem inProgress_start [DecidableEq ι] (htaken : p.taken = [x]) :
    ({ p with taken := [], running := p.running ++ [x] } : Pipeline ι κ).inProgress.Perm
      p.inProgress := by
  unfold inProgress
  rw [htaken]
  grind

theorem slots_start [DecidableEq ι] (htaken : p.taken = [x]) :
    ({ p with taken := [], running := p.running ++ [x] } : Pipeline ι κ).slots.Perm p.slots := by
  unfold slots
  rw [htaken]
  grind

theorem inProgress_drop (htaken : p.taken = [x]) :
    p.inProgress =
      x :: ({ p with taken := [], settled := p.settled ++ [(x, k)] } : Pipeline ι κ).inProgress := by
  simp [inProgress, htaken]

theorem slots_drop (htaken : p.taken = [x]) :
    p.slots =
      x :: ({ p with taken := [], settled := p.settled ++ [(x, k)] } : Pipeline ι κ).slots := by
  simp [slots, htaken]

theorem inProgress_join [DecidableEq ι] (hrunning : p.running.Perm (x :: rest))
    (hjoined : p.joined = []) :
    ({ p with running := rest, joined := [x] } : Pipeline ι κ).inProgress.Perm p.inProgress := by
  unfold inProgress
  rw [hjoined]
  grind

theorem slots_join [DecidableEq ι] (hrunning : p.running.Perm (x :: rest)) :
    p.slots.Perm (x :: ({ p with running := rest, joined := [x] } : Pipeline ι κ).slots) := by
  unfold slots
  grind

theorem inProgress_settle [DecidableEq ι] (hjoined : p.joined = [x]) :
    p.inProgress.Perm
      (x :: ({ p with joined := [], settled := p.settled ++ [(x, k)] } : Pipeline ι κ).inProgress) := by
  unfold inProgress
  rw [hjoined]
  grind

end Effects

end Pipeline

end Common
