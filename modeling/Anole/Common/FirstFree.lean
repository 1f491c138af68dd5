import Mathlib.Data.List.Forall2
import Mathlib.Data.List.Nodup
import Mathlib.Data.List.Pairwise
import Mathlib.Data.List.Perm.Subperm
import Mathlib.Order.Nat
import Mathlib.Data.Nat.Find

/-!
# First free candidates

Requests are served in their order. Each has a sequence of candidates, and is given the first of them that no
earlier request was given.

Results:
* `exists_allocates`: there are enough candidates for as many requests.
* `Allocates.nodup`: no candidate is given twice.
* `pairwise_iff`: a symmetric relation holds between any two candidates that are given, whatever the requests,
  if and only if it holds between any two different candidates.
-/

namespace Common

variable {α : Type}

/-- The first of a number of candidates that is not taken. -/
def FirstFree (limit : ℕ) (taken : List α) (candidate : ℕ → α) (a : α) : Prop :=
  ∃ k < limit, candidate k = a ∧ a ∉ taken ∧ ∀ j < k, candidate j ∈ taken

/-- What requests are given, by their candidates. -/
inductive Allocates (limit : ℕ) : List α → List (ℕ → α) → List α → Prop
  | nil (taken : List α) : Allocates limit taken [] []
  | cons {taken : List α} {candidate : ℕ → α} {a : α} {requests : List (ℕ → α)} {given : List α}
      (first : FirstFree limit taken candidate a) (rest : Allocates limit (a :: taken) requests given) :
      Allocates limit taken (candidate :: requests) (a :: given)

variable {limit : ℕ} {taken : List α} {candidate : ℕ → α} {a b : α} {requests more : List (ℕ → α)}
  {given given' : List α}

/-- A free candidate is enough for a first one. -/
theorem exists_firstFree_of_free (h : ∃ k < limit, candidate k ∉ taken) :
    ∃ a, FirstFree limit taken candidate a := by
  classical
  have hfind := Nat.find_spec h
  refine ⟨candidate (Nat.find h), Nat.find h, hfind.1, rfl, hfind.2, fun j hj => ?_⟩
  have hbefore := Nat.find_min h hj
  rw [not_and_not_right] at hbefore
  exact hbefore (lt_trans hj hfind.1)

/-- The candidates of a request are different. -/
def DifferentUpTo (limit : ℕ) (candidate : ℕ → α) : Prop :=
  ∀ k < limit, ∀ l < limit, candidate k = candidate l → k = l

theorem DifferentUpTo.nodup (h : DifferentUpTo limit candidate) : ((List.range limit).map candidate).Nodup := by
  refine List.Nodup.map_on ?_ List.nodup_range
  intro k hk l hl heq
  exact h k (List.mem_range.mp hk) l (List.mem_range.mp hl) heq

/-- With less taken than there are candidates, one is free. -/
theorem exists_firstFree (h : DifferentUpTo limit candidate) (hlength : taken.length < limit) :
    ∃ a, FirstFree limit taken candidate a := by
  apply exists_firstFree_of_free
  by_contra hall
  push Not at hall
  have hsubset : (List.range limit).map candidate ⊆ taken := by
    intro a ha
    obtain ⟨k, hk, rfl⟩ := List.mem_map.mp ha
    exact hall k (List.mem_range.mp hk)
  have hle := (List.subperm_of_subset h.nodup hsubset).length_le
  rw [List.length_map, List.length_range] at hle
  omega

theorem exists_allocates (h : ∀ candidate ∈ requests, DifferentUpTo limit candidate)
    (hlength : taken.length + requests.length ≤ limit) : ∃ given, Allocates limit taken requests given := by
  induction requests generalizing taken with
  | nil => exact ⟨[], .nil taken⟩
  | cons candidate requests ih =>
    rw [List.length_cons] at hlength
    have hroom : taken.length < limit := by omega
    obtain ⟨a, hfirst⟩ := exists_firstFree (h candidate List.mem_cons_self) hroom
    have hrestRoom : (a :: taken).length + requests.length ≤ limit := by
      rw [List.length_cons]
      omega
    obtain ⟨given, hrest⟩ := ih (fun other hother => h other (List.mem_cons_of_mem _ hother)) hrestRoom
    exact ⟨a :: given, .cons hfirst hrest⟩

namespace Allocates

theorem length_eq (h : Allocates limit taken requests given) : given.length = requests.length := by
  induction h with
  | nil => rfl
  | cons _ _ ih => rw [List.length_cons, List.length_cons, ih]

/-- **No candidate is given twice**, and none that was taken. -/
theorem nodup (h : Allocates limit taken requests given) : given.Nodup ∧ ∀ a ∈ given, a ∉ taken := by
  induction h with
  | nil => exact ⟨List.nodup_nil, fun _ ha => absurd ha List.not_mem_nil⟩
  | cons first _ ih =>
    obtain ⟨k, -, -, hfree, -⟩ := first
    refine ⟨List.nodup_cons.mpr ⟨fun ha => ih.2 _ ha List.mem_cons_self, ih.1⟩, ?_⟩
    intro b hb
    rcases List.mem_cons.mp hb with rfl | hb
    · exact hfree
    · exact fun htaken => ih.2 b hb (List.mem_cons_of_mem _ htaken)

/-- What is given is a candidate of its request. -/
theorem forall₂ (h : Allocates limit taken requests given) :
    List.Forall₂ (fun candidate a => ∃ k < limit, candidate k = a) requests given := by
  induction h with
  | nil => exact .nil
  | cons first _ ih =>
    obtain ⟨k, hk, heq, -⟩ := first
    exact .cons ⟨k, hk, heq⟩ ih

theorem exists_candidate (h : Allocates limit taken requests given) (ha : a ∈ given) :
    ∃ candidate ∈ requests, ∃ k < limit, candidate k = a := by
  have hall := h.forall₂
  clear h
  induction hall with
  | nil => cases ha
  | cons hfirst _ ih =>
    rcases List.mem_cons.mp ha with rfl | ha
    · exact ⟨_, List.mem_cons_self, hfirst⟩
    · obtain ⟨candidate, hmem, hk⟩ := ih ha
      exact ⟨candidate, List.mem_cons_of_mem _ hmem, hk⟩

theorem append (h : Allocates limit taken requests given) (h' : Allocates limit (given.reverse ++ taken) more given') :
    Allocates limit taken (requests ++ more) (given ++ given') := by
  induction h with
  | nil => exact h'
  | cons first _ ih =>
    rw [List.reverse_cons, List.append_assoc, List.singleton_append] at h'
    exact .cons first (ih h')

/-- A request that is repeated often enough comes to each of its candidates. -/
theorem exists_replicate (taken : List α) (candidate : ℕ → α) {k : ℕ} (hk : k < limit) :
    ∃ n given, Allocates limit taken (List.replicate n candidate) given ∧
      ∀ j ≤ k, candidate j ∈ given.reverse ++ taken := by
  induction k with
  | zero =>
    by_cases hfree : candidate 0 ∈ taken
    · refine ⟨0, [], .nil taken, fun j hj => ?_⟩
      rw [Nat.le_zero.mp hj]
      exact hfree
    · have hfirst : FirstFree limit taken candidate (candidate 0) :=
        ⟨0, hk, rfl, hfree, fun j hj => absurd hj (Nat.not_lt_zero j)⟩
      refine ⟨1, [candidate 0], .cons hfirst (.nil _), fun j hj => ?_⟩
      rw [Nat.le_zero.mp hj]
      exact List.mem_cons_self
  | succ k ih =>
    obtain ⟨n, given, hgiven, hall⟩ := ih (Nat.lt_of_succ_lt hk)
    by_cases hfree : candidate (k + 1) ∈ given.reverse ++ taken
    · refine ⟨n, given, hgiven, fun j hj => ?_⟩
      rcases Nat.le_succ_iff.mp hj with hj | rfl
      · exact hall j hj
      · exact hfree
    · -- one more turn gives the next candidate
      have hfirst : FirstFree limit (given.reverse ++ taken) candidate (candidate (k + 1)) :=
        ⟨k + 1, hk, rfl, hfree, fun j hj => hall j (Nat.le_of_lt_succ hj)⟩
      refine ⟨n + 1, given ++ [candidate (k + 1)], ?_, fun j hj => ?_⟩
      · rw [List.replicate_succ']
        exact hgiven.append (.cons hfirst (.nil _))
      · rw [List.reverse_concat', List.cons_append]
        rcases Nat.le_succ_iff.mp hj with hj | rfl
        · exact List.mem_cons_of_mem _ (hall j hj)
        · exact List.mem_cons_self

/-- More of the same request than it has candidates cannot all be served. -/
theorem not_replicate : ¬ Allocates limit [] (List.replicate (limit + 1) candidate) given := by
  intro h
  have hsubset : given ⊆ (List.range limit).map candidate := by
    intro a ha
    obtain ⟨other, hother, k, hk, rfl⟩ := h.exists_candidate ha
    rw [List.eq_of_mem_replicate hother]
    exact List.mem_map_of_mem (List.mem_range.mpr hk)
  have hle := (List.subperm_of_subset h.nodup.1 hsubset).length_le
  rw [h.length_eq, List.length_replicate, List.length_map, List.length_range] at hle
  omega

end Allocates

/-- **What is given is related pairwise**, whatever is asked for, if and only if all candidates are. -/
theorem pairwise_iff {R : α → α → Prop} (hsymm : ∀ a b, R a b → R b a) (S : (ℕ → α) → Prop) :
    (∀ requests, (∀ candidate ∈ requests, S candidate) → ∀ given, Allocates limit [] requests given →
      given.Pairwise R) ↔
    ∀ c, S c → ∀ d, S d → ∀ k < limit, ∀ l < limit, c k ≠ d l → R (c k) (d l) := by
  constructor
  · intro hall c hc d hd k hk l hl hne
    obtain ⟨n, given, hgiven, hfirst⟩ := Allocates.exists_replicate [] c hk
    obtain ⟨m, given', hgiven', hsecond⟩ := Allocates.exists_replicate (given.reverse ++ []) d hl
    have hpairwise := hall _ (by
      intro candidate hmem
      rcases List.mem_append.mp hmem with hmem | hmem
      · rwa [List.eq_of_mem_replicate hmem]
      · rwa [List.eq_of_mem_replicate hmem]) _ (hgiven.append hgiven')
    have hleft : c k ∈ given ++ given' := by
      have hmem := hfirst k (le_refl k)
      rw [List.append_nil, List.mem_reverse] at hmem
      exact List.mem_append_left _ hmem
    have hright : d l ∈ given ++ given' := by
      have hmem := hsecond l (le_refl l)
      rw [List.append_nil, List.mem_append, List.mem_reverse, List.mem_reverse] at hmem
      exact List.mem_append.mpr hmem.symm
    have hsymmetric : Std.Symm R := ⟨hsymm⟩
    exact hpairwise.forall hleft hright hne
  · intro hall requests hrequests given hgiven
    refine List.Pairwise.imp_of_mem ?_ hgiven.nodup.1
    intro a b ha hb hne
    obtain ⟨c, hc, k, hk, rfl⟩ := hgiven.exists_candidate ha
    obtain ⟨d, hd, l, hl, rfl⟩ := hgiven.exists_candidate hb
    exact hall c (hrequests c hc) d (hrequests d hd) k hk l hl hne

end Common
