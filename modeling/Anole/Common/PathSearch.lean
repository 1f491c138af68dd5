import Mathlib.Algebra.BigOperators.Group.List.Basic
import Mathlib.Algebra.Ring.Nat
import Mathlib.Data.List.Chain
import Mathlib.Data.List.Nodup
import Mathlib.Tactic.SplitIfs

/-!
# Breadth-first search with a bound on the depth

A graph is given by the neighbours of each node, and a queue holds the paths to extend. A
neighbour that is already on the path is passed over, and so is one that the search ignores. The
search ends with the first path that reaches the goal; any other extension is queued when its last
node may stand inside a path and it is not too long to be extended.

Results:

* `work_extend`: the search terminates, since a queued path counts for the paths that come from it.
* `search_eq_some`: the path found is a route.
* `search_isSome_iff`: the search from a node finds a path if and only if there is a route.
-/

namespace Common

/-- What a search knows of a graph. The goal is reached in at most `depth` edges. -/
structure PathSearch (α : Type) where
  neighbors : α → List α
  ignored : α → Bool
  inner : α → Bool
  goal : α
  depth : ℕ

namespace PathSearch

variable {α : Type} [Inhabited α]

/-! ## Paths -/

/-- The node at the end of a path. -/
def node (path : List α) : α := path.getLast?.getD default

theorem node_mem {path : List α} (h : path ≠ []) : node path ∈ path := by
  rw [node, List.getLast?_eq_getLast_of_ne_nil h, Option.getD_some]
  exact List.getLast_mem h

theorem isChain_concat {R : α → α → Prop} {start next : α} {middle : List α} :
    (start :: (middle ++ [next])).IsChain R ↔ (start :: middle).IsChain R ∧ R (node (start :: middle)) next := by
  rw [← List.cons_append, List.isChain_append]
  have hlast : ∃ last, (start :: middle).getLast? = some last :=
    ⟨_, List.getLast?_eq_getLast_of_ne_nil (List.cons_ne_nil _ _)⟩
  obtain ⟨last, hlast⟩ := hlast
  simp [node, hlast]

variable (graph : PathSearch α)

/-- The neighbours that the loop passes over. -/
def Passed (path : List α) (next : α) : Prop :=
  next = node path ∨ graph.ignored next = true ∨ next ∈ path

/-- The neighbours whose extension is queued. -/
def Opens (path : List α) (next : α) : Prop :=
  ¬ graph.Passed path next ∧ next ≠ graph.goal ∧ graph.inner next = true ∧ path.length + 1 ≤ graph.depth

variable {graph} {path found nexts middle rest : List α} {queue queue' : List (List α)} {start next : α}

/-- Nodes that lead from the start to the goal, in at most `depth` edges. -/
structure IsRoute (graph : PathSearch α) (start : α) (middle : List α) : Prop where
  edges : (start :: (middle ++ [graph.goal])).IsChain fun a b => b ∈ graph.neighbors a
  nodup : (start :: (middle ++ [graph.goal])).Nodup
  inner : ∀ next ∈ middle, graph.inner next = true
  counted : ∀ next ∈ middle ++ [graph.goal], graph.ignored next = false
  short : middle.length + 1 ≤ graph.depth

/-- The beginnings of routes that the queue holds. -/
structure IsOpen (graph : PathSearch α) (start : α) (middle : List α) : Prop where
  edges : (start :: middle).IsChain fun a b => b ∈ graph.neighbors a
  nodup : (start :: middle).Nodup
  inner : ∀ next ∈ middle, graph.inner next = true
  counted : ∀ next ∈ middle, graph.ignored next = false
  short : middle.length + 1 ≤ graph.depth

theorem IsOpen.extend (h : graph.IsOpen start middle) (hnext : next ∈ graph.neighbors (node (start :: middle)))
    (hopens : graph.Opens (start :: middle) next) : graph.IsOpen start (middle ++ [next]) := by
  obtain ⟨hpassed, -, hinner, hlength⟩ := hopens
  rw [Passed, not_or, not_or] at hpassed
  refine ⟨isChain_concat.mpr ⟨h.edges, hnext⟩, ?_, ?_, ?_, ?_⟩
  · rw [← List.cons_append, ← List.concat_eq_append]
    exact List.Nodup.concat hpassed.2.2 h.nodup
  · simpa [or_imp, forall_and, hinner] using h.inner
  · simpa [or_imp, forall_and, hpassed.2.1] using h.counted
  · simpa using hlength

theorem IsOpen.isRoute (h : graph.IsOpen start middle) (hgoal : graph.goal ∈ graph.neighbors (node (start :: middle)))
    (hpassed : ¬ graph.Passed (start :: middle) graph.goal) : graph.IsRoute start middle := by
  rw [Passed, not_or, not_or] at hpassed
  refine ⟨isChain_concat.mpr ⟨h.edges, hgoal⟩, ?_, h.inner, ?_, h.short⟩
  · rw [← List.cons_append, ← List.concat_eq_append]
    exact List.Nodup.concat hpassed.2.2 h.nodup
  · simpa [or_imp, forall_and, hpassed.2.1] using h.counted

/-- A node of a route is a neighbour of the one before it, which the loop does not pass over. -/
theorem IsRoute.next_of_eq (h : graph.IsRoute start middle) {front : List α}
    (heq : middle ++ [graph.goal] = front ++ next :: rest) :
    next ∈ graph.neighbors (node (start :: front)) ∧ ¬ graph.Passed (start :: front) next := by
  have hsplit : start :: (middle ++ [graph.goal]) = start :: (front ++ [next]) ++ rest := by
    rw [heq, List.cons_append, List.append_assoc, List.singleton_append]
  have hedges := h.edges
  rw [hsplit, List.isChain_append] at hedges
  have hnodup := h.nodup
  rw [hsplit] at hnodup
  have hfresh : next ∉ start :: front := by
    have hfront := (List.nodup_append.mp hnodup).1
    rw [← List.cons_append, List.nodup_append] at hfront
    exact fun hmem => hfront.2.2 next hmem next List.mem_cons_self rfl
  refine ⟨(isChain_concat.mp hedges.1).2, ?_⟩
  rintro (hnode | hignored | hmem)
  · exact hfresh (hnode ▸ node_mem (List.cons_ne_nil _ _))
  · rw [h.counted next (by simp [heq])] at hignored
    exact Bool.false_ne_true hignored
  · exact hfresh hmem

/-- The next node of a route is queued, unless it is the goal. -/
theorem IsRoute.opens (h : graph.IsRoute start (middle ++ next :: rest)) :
    next ∈ graph.neighbors (node (start :: middle)) ∧ graph.Opens (start :: middle) next := by
  have hmem : next ∈ middle ++ next :: rest := by simp
  obtain ⟨hnext, hpassed⟩ := h.next_of_eq (List.append_assoc middle (next :: rest) [graph.goal])
  refine ⟨hnext, hpassed, ?_, h.inner next hmem, ?_⟩
  · rintro rfl
    have hgoal := (List.nodup_append.mp (List.nodup_cons.mp h.nodup).2).2.2
    exact hgoal _ hmem _ List.mem_cons_self rfl
  · have hshort := h.short
    rw [List.length_append, List.length_cons] at hshort
    rw [List.length_cons]
    omega

/-! ## The search -/

variable [DecidableEq α] (graph)

instance (path : List α) (next : α) : Decidable (graph.Passed path next) :=
  inferInstanceAs (Decidable (_ ∨ _ ∨ _))

instance (path : List α) (next : α) : Decidable (graph.Opens path next) :=
  inferInstanceAs (Decidable (_ ∧ _ ∧ _ ∧ _))

/-- The loop over the neighbours of the last node: the path that reached the goal, or the queue. -/
def extend (path : List α) : List α → List (List α) → List α ⊕ List (List α)
  | [], queue => .inr queue
  | next :: rest, queue =>
    if graph.Passed path next then extend path rest queue
    else if next = graph.goal then .inl (path ++ [next])
    else if graph.inner next ∧ (path ++ [next]).length ≤ graph.depth then
      extend path rest (queue ++ [path ++ [next]])
    else extend path rest queue

variable {graph}

theorem extend_eq_inl (h : graph.extend path nexts queue = .inl found) :
    graph.goal ∈ nexts ∧ ¬ graph.Passed path graph.goal ∧ found = path ++ [graph.goal] := by
  induction nexts generalizing queue with
  | nil => simp [extend] at h
  | cons next rest ih =>
    rw [extend] at h
    split_ifs at h with hpassed hgoal hopens
    · obtain ⟨hmem, hrest⟩ := ih h
      exact ⟨List.mem_cons_of_mem _ hmem, hrest⟩
    · subst hgoal
      exact ⟨List.mem_cons_self, hpassed, (Sum.inl.inj h).symm⟩
    all_goals
      obtain ⟨hmem, hrest⟩ := ih h
      exact ⟨List.mem_cons_of_mem _ hmem, hrest⟩

theorem extend_eq_inr (h : graph.extend path nexts queue = .inr queue') :
    (graph.goal ∈ nexts → graph.Passed path graph.goal) ∧
      queue' = queue ++ (nexts.filter (graph.Opens path ·)).map (path ++ [·]) := by
  induction nexts generalizing queue with
  | nil => simpa [extend, eq_comm] using h
  | cons next rest ih =>
    rw [extend] at h
    split_ifs at h with hpassed hgoal hopens
    · obtain ⟨hmem, rfl⟩ := ih h
      have hcloses : ¬ graph.Opens path next := fun hopens => hopens.1 hpassed
      rw [List.filter_cons_of_neg (by simpa using hcloses)]
      refine ⟨fun hgoal => ?_, rfl⟩
      rcases List.mem_cons.mp hgoal with rfl | hgoal
      · exact hpassed
      · exact hmem hgoal
    · obtain ⟨hmem, rfl⟩ := ih h
      have hlength : path.length + 1 ≤ graph.depth := by simpa using hopens.2
      rw [List.filter_cons_of_pos (by simpa using ⟨hpassed, hgoal, hopens.1, hlength⟩)]
      refine ⟨fun hnext => hmem ?_, by simp⟩
      exact (List.mem_cons.mp hnext).resolve_left (Ne.symm hgoal)
    · obtain ⟨hmem, rfl⟩ := ih h
      have hcloses : ¬ graph.Opens path next := fun h => hopens ⟨h.2.2.1, by simpa using h.2.2.2⟩
      rw [List.filter_cons_of_neg (by simpa using hcloses)]
      refine ⟨fun hnext => hmem ?_, rfl⟩
      exact (List.mem_cons.mp hnext).resolve_left (Ne.symm hgoal)

/-! ## Termination -/

variable (graph)

/-- How many paths a queued path can lead to, itself included, in `left` more steps. -/
def branches : ℕ → List α → ℕ
  | 0, _ => 1
  | left + 1, path =>
    1 + (((graph.neighbors (node path)).filter (graph.Opens path ·)).map
      fun next => branches left (path ++ [next])).sum

/-- What is left to do for a queue. -/
def work (queue : List (List α)) : ℕ :=
  (queue.map fun path => graph.branches (graph.depth - path.length) path).sum

variable {graph}

theorem work_extend (h : graph.extend path (graph.neighbors (node path)) queue = .inr queue') :
    graph.work queue' < graph.work (path :: queue) := by
  obtain ⟨-, rfl⟩ := extend_eq_inr h
  simp only [work, List.map_append, List.map_map, List.sum_append, List.map_cons, List.sum_cons]
  suffices hchildren : (((graph.neighbors (node path)).filter (graph.Opens path ·)).map
      ((fun path => graph.branches (graph.depth - path.length) path) ∘ (path ++ [·]))).sum <
        graph.branches (graph.depth - path.length) path by omega
  cases hleft : graph.depth - path.length with
  | zero =>
    have hnone : (graph.neighbors (node path)).filter (graph.Opens path ·) = [] := by
      rw [List.filter_eq_nil_iff]
      intro next _ hopens
      have := (of_decide_eq_true hopens).2.2.2
      omega
    simp [hnone, branches]
  | succ left =>
    have hlength : ∀ next : α, graph.depth - (path ++ [next]).length = left := by
      intro next
      rw [List.length_append, List.length_singleton]
      omega
    simp only [branches, Function.comp_def, hlength]
    omega

/-- The loop over the queue. -/
def search (graph : PathSearch α) (queue : List (List α)) : Option (List α) :=
  match queue with
  | [] => none
  | path :: queue =>
    match _h : graph.extend path (graph.neighbors (node path)) queue with
    | .inl found => some found
    | .inr queue => search graph queue
termination_by graph.work queue
decreasing_by exact work_extend _h

/-! ## What the search finds -/

/-- Every path in the queue is open. -/
def OpenQueue (graph : PathSearch α) (start : α) (queue : List (List α)) : Prop :=
  ∀ path ∈ queue, ∃ middle, path = start :: middle ∧ graph.IsOpen start middle

theorem OpenQueue.extend (h : graph.OpenQueue start (path :: queue))
    (hextend : graph.extend path (graph.neighbors (node path)) queue = .inr queue') :
    graph.OpenQueue start queue' := by
  obtain ⟨middle, rfl, hopen⟩ := h path List.mem_cons_self
  obtain ⟨-, rfl⟩ := extend_eq_inr hextend
  intro extended hmem
  rcases List.mem_append.mp hmem with hmem | hmem
  · exact h extended (List.mem_cons_of_mem _ hmem)
  · obtain ⟨next, hnext, rfl⟩ := List.mem_map.mp hmem
    obtain ⟨hnext, hopens⟩ := List.mem_filter.mp hnext
    exact ⟨middle ++ [next], rfl, hopen.extend hnext (of_decide_eq_true hopens)⟩

theorem search_eq_some (hqueue : graph.OpenQueue start queue) (h : graph.search queue = some found) :
    ∃ middle, found = start :: (middle ++ [graph.goal]) ∧ graph.IsRoute start middle := by
  induction queue using search.induct graph with
  | case1 => simp [search] at h
  | case2 path queue found' hextend =>
    rw [search, hextend] at h
    obtain ⟨hgoal, hpassed, rfl⟩ := extend_eq_inl hextend
    obtain ⟨middle, rfl, hopen⟩ := hqueue path List.mem_cons_self
    exact ⟨middle, (Option.some.inj h).symm, hopen.isRoute hgoal hpassed⟩
  | case3 path queue queue' hextend ih =>
    rw [search, hextend] at h
    exact ih (hqueue.extend hextend) h

theorem search_eq_none (h : graph.search queue = none) (hmem : start :: middle ∈ queue) :
    ¬ graph.IsRoute start (middle ++ rest) := by
  induction queue using search.induct graph generalizing middle rest with
  | case1 => exact absurd hmem List.not_mem_nil
  | case2 path queue found hextend => rw [search, hextend] at h; exact absurd h (by simp)
  | case3 path queue queue' hextend ih =>
    rw [search, hextend] at h
    obtain ⟨hgoal, rfl⟩ := extend_eq_inr hextend
    rcases List.mem_cons.mp hmem with rfl | hmem
    · intro hroute
      cases rest with
      | nil =>
        rw [List.append_nil] at hroute
        obtain ⟨hnext, hpassed⟩ := hroute.next_of_eq rfl
        exact hpassed (hgoal hnext)
      | cons next rest =>
        obtain ⟨hnext, hopens⟩ := hroute.opens
        have hfilter : next ∈ (graph.neighbors (node (start :: middle))).filter (graph.Opens (start :: middle) ·) :=
          List.mem_filter.mpr ⟨hnext, decide_eq_true hopens⟩
        have happend : middle ++ next :: rest = middle ++ [next] ++ rest := by simp
        rw [happend] at hroute
        exact ih h (List.mem_append_right _ (List.mem_map_of_mem hfilter)) hroute
    · exact ih h (List.mem_append_left _ hmem)

omit [Inhabited α] [DecidableEq α] in
theorem openQueue_start (hdepth : 0 < graph.depth) : graph.OpenQueue start [[start]] := by
  intro path hpath
  rw [List.mem_singleton] at hpath
  exact ⟨[], hpath, List.isChain_singleton _, by simp, by simp, by simp, hdepth⟩

theorem search_isSome_iff (hdepth : 0 < graph.depth) :
    (graph.search [[start]]).isSome ↔ ∃ middle, graph.IsRoute start middle := by
  constructor
  · intro hsome
    obtain ⟨found, hfound⟩ := Option.isSome_iff_exists.mp hsome
    obtain ⟨middle, -, hroute⟩ := search_eq_some (openQueue_start hdepth) hfound
    exact ⟨middle, hroute⟩
  · rintro ⟨middle, hroute⟩
    by_contra hnone
    rw [Bool.not_eq_true, Option.isSome_eq_false_iff, Option.isNone_iff_eq_none] at hnone
    have hmem : [start] ∈ [[start]] := List.mem_cons_self
    exact search_eq_none hnone hmem hroute

end PathSearch

end Common
