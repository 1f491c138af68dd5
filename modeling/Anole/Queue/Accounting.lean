import Anole.Queue.Ownership

/-!
# The claimed jobs of a window

* `request_legal`: what a window requests of the store is a legal move from every state that it expects.
* `Window.Booked.claimed_mem`: the jobs that it has claimed are selected ones.
-/

open Common

namespace Anole

theorem Verdict.target_legal (verdict : Verdict) :
    JobState.inspecting.canTransitionTo verdict.target = true := by
  cases verdict <;> rfl

/-- A requested transition is legal in all states the window expects. -/
theorem request_legal {point : Point} {id : Uuid} {next : JobState} {code : String}
    (h : point.request = some (id, next, code)) :
    ∃ states, point.expects = some (id, states) ∧ ∀ s ∈ states, s.canTransitionTo next = true := by
  cases point with
  | prepare candidate verdict =>
    cases h
    exact ⟨_, rfl, List.forall_mem_singleton.mpr verdict.target_legal⟩
  | start | markMove =>
    cases h
    exact ⟨_, rfl, by decide⟩
  | finish jobId completion =>
    cases h
    cases completion with
    | validated status => cases status <;> exact ⟨_, rfl, by decide⟩
    | paused | cancelled | stopped => exact ⟨_, rfl, by decide⟩
  | top | admission | claim | inspect | idle | select | report | sample | markRead | returning
  | abortDrain | abort | abortMove | done => cases h

namespace Window

variable {policy : SchedulerPolicy} {w : Window} {id : Uuid}

theorem Booked.mem_jobs (h : w.Booked policy) (hid : id ∈ w.pipeline.items) :
    ∃ job ∈ w.jobs, job.id = id :=
  List.mem_map.mp (h.places.mem_iff.mp hid)

theorem Booked.claimed_mem (h : w.Booked policy) (hid : id ∈ w.claimed) :
    ∃ job ∈ w.jobs, job.id = id := by
  refine h.mem_jobs ?_
  unfold Pipeline.items
  rcases (h.claimed id).mp hid with hheld | hworker | hfinishing | ⟨c, _, hcounted⟩
  · exact List.mem_append_right _ (List.mem_append_left _ (held_subset _ hheld))
  · exact List.mem_append_right _ (List.mem_append_right _ (List.mem_append_left _ hworker))
  · exact List.mem_append_right _ (List.mem_append_right _ (List.mem_append_right _
      (List.mem_append_left _ hfinishing)))
  · exact List.mem_append_right _ (List.mem_append_right _ (List.mem_append_right _
      (List.mem_append_right _ (List.mem_map_of_mem hcounted))))

theorem Booked.read_claimed (h : w.Booked policy) {after : Option Completion}
    (hpoint : w.point = .markRead id after) : id ∈ w.claimed := by
  have hclaimed := h.claimed id
  have hheard := h.heard id
  rw [hpoint] at hclaimed hheard
  cases after with
  | none => exact hheard (List.mem_append_left _ (List.mem_singleton.mpr rfl))
  | some completion => exact hclaimed.mpr (Or.inr (Or.inr (Or.inl (List.mem_singleton.mpr rfl))))

end Window

end Anole
