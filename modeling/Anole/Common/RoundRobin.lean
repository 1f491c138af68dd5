import Mathlib.Algebra.BigOperators.Group.List.Lemmas
import Mathlib.Data.List.Nodup
import Mathlib.Data.List.Perm.Basic
import Mathlib.Data.List.Sort
import Mathlib.Order.Defs.LinearOrder

/-!
# Round-robin listings

Items in lanes, each lane in the order of a key. `rank` is the position of an item in
its lane; a listing is a round robin when it is in order of rank, whatever decides
between items of one rank.

Main results, for a round robin `out` of `items` and a window `w` (a prefix of `out`):

* `IsRoundRobin.filter_eq`: the items of one lane stand in the lane's order.
* `IsRoundRobin.mem_of_turn`: when the window holds the item at position `k + 1` of a lane,
  the item at position `k` of every lane stands before it.
* `IsRoundRobin.count_le`: a lane has at most one item more in the window than a lane that
  still has an item outside it.
* `IsRoundRobin.mem_of_length`: a window with `k + 1` places for every lane holds the item at
  position `k` of each.
-/

namespace Common

variable {α ι κ : Type} [DecidableEq ι] [LinearOrder κ]

/-! ## Positions in a sorted list -/

/-- In a strictly sorted list the element at position `i` has `i` smaller elements. -/
theorem countP_lt_getElem {key : α → κ} {s : List α} (hs : s.Pairwise fun a b => key a < key b)
    {i : ℕ} (hi : i < s.length) : s.countP (fun b => key b < key s[i]) = i := by
  induction s generalizing i with
  | nil => simp at hi
  | cons a s ih =>
    obtain ⟨hfirst, htail⟩ := List.pairwise_cons.mp hs
    cases i with
    | zero =>
      rw [List.countP_eq_zero]
      intro b hb
      rcases List.mem_cons.mp hb with rfl | hb
      · simp
      · simpa using (hfirst b hb).le
    | succ i =>
      have hi' : i < s.length := by simpa using hi
      have ha : key a < key s[i] := hfirst _ (List.getElem_mem hi')
      rw [List.countP_cons, List.getElem_cons_succ, ih htail hi']
      simp [ha]

/-! ## Lanes -/

variable (lane : α → ι) (key : α → κ) (items : List α)

/-- The items of a lane, in the order of their keys. -/
def laneItems (l : ι) : List α :=
  (items.filter fun a => lane a = l).insertionSort fun a b => key a ≤ key b

/-- How many items of its lane stand before an item. -/
def rank (a : α) : ℕ := items.countP fun b => lane b = lane a ∧ key b < key a

/-- No two items of one lane have the same key. -/
def LaneKeyed : Prop := items.Pairwise fun a b => lane a = lane b → key a ≠ key b

/-- `out` lists the items in order of rank. -/
structure IsRoundRobin (out : List α) : Prop where
  perm : out.Perm items
  byRank : out.Pairwise fun a b => rank lane key items a ≤ rank lane key items b

variable {lane key items} {out w : List α} {a b : α} {l l' : ι} {k : ℕ}

theorem laneItems_perm (l : ι) :
    (laneItems lane key items l).Perm (items.filter fun a => lane a = l) :=
  List.perm_insertionSort _ _

theorem mem_laneItems : a ∈ laneItems lane key items l ↔ a ∈ items ∧ lane a = l := by
  rw [(laneItems_perm l).mem_iff, List.mem_filter, decide_eq_true_iff]

theorem LaneKeyed.laneItems_sorted (h : LaneKeyed lane key items) (l : ι) :
    (laneItems lane key items l).Pairwise fun a b => key a < key b := by
  have : Std.Total fun a b : α => key a ≤ key b := ⟨fun a b => le_total (key a) (key b)⟩
  have : IsTrans α fun a b => key a ≤ key b := ⟨fun a b c => le_trans⟩
  have hle := List.pairwise_insertionSort (fun a b => key a ≤ key b)
    (items.filter fun a => lane a = l)
  have hne : (laneItems lane key items l).Pairwise fun a b => key a ≠ key b := by
    refine ((laneItems_perm l).pairwise_iff fun hab hba => hab hba.symm).mpr ?_
    refine (h.filter _).imp_of_mem fun ha hb hab => hab ?_
    rw [of_decide_eq_true (List.mem_filter.mp ha).2, of_decide_eq_true (List.mem_filter.mp hb).2]
  exact (hle.and hne).imp fun hab => lt_of_le_of_ne hab.1 hab.2

theorem LaneKeyed.laneItems_nodup (h : LaneKeyed lane key items) (l : ι) :
    (laneItems lane key items l).Nodup :=
  (h.laneItems_sorted l).imp fun hab he => absurd hab (by rw [he]; exact lt_irrefl _)

/-- Within a lane the key determines the item. -/
theorem LaneKeyed.laneItems_inj (h : LaneKeyed lane key items)
    (ha : a ∈ laneItems lane key items l) (hb : b ∈ laneItems lane key items l)
    (hkey : key a = key b) : a = b := by
  have hnodup : ((laneItems lane key items l).map key).Nodup :=
    List.pairwise_map.mpr ((h.laneItems_sorted l).imp ne_of_lt)
  exact List.inj_on_of_nodup_map hnodup ha hb hkey

/-- The rank of an item is its position in its lane. -/
theorem LaneKeyed.rank_eq (h : LaneKeyed lane key items)
    (hk : (laneItems lane key items l)[k]? = some a) : rank lane key items a = k := by
  obtain ⟨hlt, rfl⟩ := List.getElem?_eq_some_iff.mp hk
  have hl := (mem_laneItems.mp (List.getElem_mem hlt)).2
  refine Eq.trans ?_ (countP_lt_getElem (h.laneItems_sorted l) hlt)
  rw [(laneItems_perm l).countP_eq, List.countP_filter, rank, hl]
  refine List.countP_congr fun b _ => ?_
  simp [and_comm]

/-- Within a lane the ranks decide the keys. -/
theorem key_le_of_rank_le (hb : b ∈ items) (hl : lane a = lane b)
    (hrank : rank lane key items a ≤ rank lane key items b) : key a ≤ key b := by
  by_contra hlt
  rw [not_le] at hlt
  refine absurd hrank (not_le.mpr ?_)
  have hsplit : rank lane key items a = items.countP (fun c => lane c = lane b ∧ key c < key a) := by
    rw [rank, hl]
  have hmono : rank lane key items b + 1 ≤
      items.countP fun c => lane c = lane b ∧ key c < key a := by
    obtain ⟨xs, ys, rfl⟩ := List.append_of_mem hb
    have hle : ∀ zs : List α, zs.countP (fun c => lane c = lane b ∧ key c < key b) ≤
        zs.countP fun c => lane c = lane b ∧ key c < key a := by
      intro zs
      refine List.countP_mono_left fun c _ hc => ?_
      simp only [decide_eq_true_eq] at hc ⊢
      exact ⟨hc.1, hc.2.trans hlt⟩
    have h1 := hle xs
    have h2 := hle ys
    simp only [rank, List.countP_append, List.countP_cons, hlt, lt_irrefl, and_false, and_self,
      decide_false, decide_true, Bool.false_eq_true, if_false, if_true]
    omega
  rw [hsplit]
  omega

/-! ## The listing -/

namespace IsRoundRobin

variable (hkeyed : LaneKeyed lane key items) (h : IsRoundRobin lane key items out)

include hkeyed h

/-- The items of one lane stand in the lane's order. -/
theorem filter_eq (l : ι) : out.filter (fun a => lane a = l) = laneItems lane key items l := by
  have hperm : (out.filter fun a => lane a = l).Perm (laneItems lane key items l) :=
    (h.perm.filter _).trans (laneItems_perm l).symm
  have hsorted := (hkeyed.laneItems_sorted l).imp fun {a b} hab => le_of_lt (a := key a) hab
  refine hperm.eq_of_pairwise ?_ ?_ hsorted
  · intro a b ha hb hab hba
    exact hkeyed.laneItems_inj (hperm.mem_iff.mp ha) hb (le_antisymm hab hba)
  · refine (h.byRank.filter _).imp_of_mem fun {a b} ha hb hab => ?_
    obtain ⟨-, hla⟩ := List.mem_filter.mp ha
    obtain ⟨hb, hlb⟩ := List.mem_filter.mp hb
    refine key_le_of_rank_le (h.perm.mem_iff.mp hb) ?_ hab
    rw [of_decide_eq_true hla, of_decide_eq_true hlb]

/-- In a window the items of a lane are the first ones of the lane. -/
theorem window_filter (hw : w <+: out) (l : ι) :
    w.filter (fun a => lane a = l) <+: laneItems lane key items l := by
  rw [← h.filter_eq hkeyed l]
  exact hw.filter _

/-- When the item at position `k + 1` of a lane is listed, the item at position `k` of
    every lane stands before it. -/
theorem mem_of_turn {xs ys : List α} (hw : xs ++ a :: ys <+: out)
    (ha : (laneItems lane key items l)[k + 1]? = some a)
    (hb : (laneItems lane key items l')[k]? = some b) : b ∈ xs := by
  obtain ⟨zs, hzs⟩ := hw
  have hrank : rank lane key items b < rank lane key items a := by
    rw [hkeyed.rank_eq ha, hkeyed.rank_eq hb]
    omega
  have hbout : b ∈ out := h.perm.mem_iff.mpr (mem_laneItems.mp (List.mem_of_getElem? hb)).1
  have hsorted := h.byRank
  rw [← hzs, List.append_assoc, List.mem_append] at hbout
  rcases hbout with hxs | hrest
  · exact hxs
  · exfalso
    rw [← hzs, List.append_assoc, List.cons_append] at hsorted
    rcases List.mem_cons.mp hrest with rfl | hrest
    · exact lt_irrefl _ hrank
    · have hle := (List.pairwise_cons.mp (List.pairwise_append.mp hsorted).2.1).1 b hrest
      omega

/-- A lane has at most one item more in a window than a lane with an item outside it. -/
theorem count_le (hw : w <+: out) (hb : b ∈ laneItems lane key items l') (hout : b ∉ w) :
    w.countP (fun a => lane a = l) ≤ w.countP (fun a => lane a = l') + 1 := by
  by_contra hlt
  rw [not_le] at hlt
  have hpre := h.window_filter hkeyed hw l
  have hpre' := h.window_filter hkeyed hw l'
  rw [List.countP_eq_length_filter, List.countP_eq_length_filter] at hlt
  -- the first item of `l'` outside the window, at position `k`, and its follower's rank in `l`
  set k := (w.filter fun a => lane a = l').length with hk
  have hne : w.filter (fun a => lane a = l') ≠ laneItems lane key items l' := by
    intro he
    rw [← he] at hb
    exact hout (List.mem_filter.mp hb).1
  have hklt : k < (laneItems lane key items l').length :=
    lt_of_le_of_ne hpre'.length_le fun he => hne (hpre'.eq_of_length he)
  have ha : (laneItems lane key items l)[k + 1]? = some (w.filter fun a => lane a = l)[k + 1] := by
    rw [hpre.getElem hlt, List.getElem?_eq_getElem]
  obtain ⟨xs, ys, hsplit⟩ := List.append_of_mem (List.mem_filter.mp (List.getElem_mem hlt)).1
  have hturn := h.mem_of_turn hkeyed (hsplit ▸ hw) ha (List.getElem?_eq_getElem hklt)
  have hlast : (laneItems lane key items l')[k] ∈ w.filter fun a => lane a = l' := by
    refine List.mem_filter.mpr ⟨?_, ?_⟩
    · rw [hsplit]
      exact List.mem_append_left _ hturn
    · exact decide_eq_true (mem_laneItems.mp (List.getElem_mem hklt)).2
  obtain ⟨i, hi, heq⟩ := List.getElem_of_mem hlast
  rw [hpre'.getElem hi] at heq
  have hik := (hkeyed.laneItems_nodup l').getElem_inj_iff.mp heq
  omega

/-- An item waits for the items at its position and before, in every lane, and for no more. -/
theorem mem_of_length (hw : w <+: out) (hb : (laneItems lane key items l)[k]? = some b)
    (hlong : (items.map lane).dedup.length * (k + 1) ≤ w.length) : b ∈ w := by
  by_contra hout
  have hmem := List.mem_of_getElem? hb
  obtain ⟨hitem, hlane⟩ := mem_laneItems.mp hmem
  have hplace : w.countP (fun a => lane a = l) ≤ k := by
    by_contra hlt
    rw [not_le, List.countP_eq_length_filter] at hlt
    obtain ⟨rest, hrest⟩ := h.window_filter hkeyed hw l
    rw [← hrest, List.getElem?_append_left hlt] at hb
    exact hout (List.mem_filter.mp (List.mem_of_getElem? hb)).1
  obtain ⟨lanes, hlanes⟩ : ∃ lanes, lanes = (b :: w).map lane := ⟨_, rfl⟩
  have hne : (lanes.dedup.map fun l' => lanes.count l') ≠ [] := by simp [hlanes]
  -- with the item itself there are at most `k + 1` items of any lane
  have hcount : ∀ n ∈ lanes.dedup.map fun l' => lanes.count l', n ≤ k + 1 := by
    intro n hn
    obtain ⟨l', -, rfl⟩ := List.mem_map.mp hn
    have hother := h.count_le hkeyed (l := l') hw hmem hout
    rw [hlanes, List.map_cons, List.count_cons, List.count_eq_countP, List.countP_map, hlane]
    simp only [Function.comp_def, beq_eq_decide, decide_eq_true_eq]
    split_ifs with hl
    · subst hl
      omega
    · omega
  have hsum := (List.sum_le_max_mul_length_nat hne).trans (Nat.mul_le_mul_right _ (hcount _ (List.max_mem hne)))
  have hlength : lanes.length = w.length + 1 := by rw [hlanes, List.length_map, List.length_cons]
  rw [List.sum_map_count_dedup_eq_length, hlength, List.length_map, Nat.mul_comm] at hsum
  have hfew : lanes.dedup.length ≤ (items.map lane).dedup.length := by
    refine (List.subperm_of_subset (List.nodup_dedup _) fun l' hl' => ?_).length_le
    rw [List.mem_dedup] at hl' ⊢
    rw [hlanes] at hl'
    refine List.map_subset lane (List.cons_subset.mpr ⟨hitem, ?_⟩) hl'
    exact fun a ha => h.perm.mem_iff.mp (hw.subset ha)
  have hle := Nat.mul_le_mul_right (k + 1) hfew
  omega

end IsRoundRobin

end Common
