import Mathlib.Algebra.Order.BigOperators.Group.List
import Mathlib.Algebra.Ring.Nat
import Mathlib.Data.List.Sort

/-!
# The largest numbers of a list

`largest k l` are the `k` largest numbers of `l`. They bound what any `k` numbers of `l` add up to
(`sum_le_sum_largest`), so that their sum grows with `k` and with `l` (`sum_largest_mono`).
-/

namespace Common

/-- The `k` largest numbers of a list, the largest first. -/
def largest (k : ℕ) (l : List ℕ) : List ℕ := (l.insertionSort (· ≥ ·)).take k

variable {k k' n : ℕ} {l l' s : List ℕ}

theorem sum_le_sum_take (hl : l.Pairwise (· ≥ ·)) (hs : s.Subperm l) (hk : s.length ≤ k) :
    s.sum ≤ (l.take k).sum := by
  induction l generalizing k s with
  | nil => simp [List.subperm_nil.mp hs]
  | cons a l ih =>
    obtain ⟨hfirst, hrest⟩ := List.pairwise_cons.mp hl
    have herase : (s.erase a).Subperm l := by
      have h := hs.erase a
      rwa [List.erase_cons_head] at h
    cases k with
    | zero => simp [List.length_eq_zero_iff.mp (Nat.le_zero.mp hk)]
    | succ k =>
      rw [List.take_succ_cons, List.sum_cons]
      by_cases ha : a ∈ s
      · have hlength := List.length_erase_add_one ha
        rw [(List.perm_cons_erase ha).sum_eq, List.sum_cons]
        exact Nat.add_le_add_left (ih hrest herase (by omega)) a
      · rw [List.erase_of_not_mem ha] at herase
        cases s with
        | nil => exact Nat.zero_le _
        | cons b s =>
          -- the first of them is no larger than the head, the others are few enough for the tail
          rw [List.sum_cons]
          have hb : b ≤ a := hfirst b (herase.subset List.mem_cons_self)
          have htail : s.Subperm l := (List.sublist_cons_self b s).subperm.trans herase
          exact Nat.add_le_add hb (ih hrest htail (Nat.le_of_succ_le_succ hk))

theorem sum_le_sum_largest (hs : s.Subperm l) (hk : s.length ≤ k) : s.sum ≤ (largest k l).sum := by
  have : Std.Total fun a b : ℕ => a ≥ b := ⟨fun a b => le_total b a⟩
  have : IsTrans ℕ fun a b => a ≥ b := ⟨fun a b c hab hbc => le_trans hbc hab⟩
  exact sum_le_sum_take (List.pairwise_insertionSort _ l)
    (hs.trans (List.perm_insertionSort _ l).symm.subperm) hk

theorem largest_subperm : (largest k l).Subperm l :=
  (List.take_sublist k _).subperm.trans (List.perm_insertionSort _ l).subperm

theorem length_largest_le : (largest k l).length ≤ k := List.length_take_le k _

theorem sum_largest_mono (hl : l.Subperm l') (hk : k ≤ k') : (largest k l).sum ≤ (largest k' l').sum :=
  sum_le_sum_largest (largest_subperm.trans hl) (length_largest_le.trans hk)

theorem le_sum_largest (hn : n ∈ l) (hk : 0 < k) : n ≤ (largest k l).sum := by
  have h : [n].sum ≤ (largest k l).sum := sum_le_sum_largest (List.singleton_subperm_iff.mpr hn) hk
  rwa [List.sum_singleton] at h

end Common
