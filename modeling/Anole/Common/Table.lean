import Mathlib.Data.List.Nodup
import Mathlib.Data.List.Perm.Basic

/-!
# Relational tables

A table is the list of its rows in insertion order. The statements of a
relational store are list functions: `insert` under a uniqueness constraint,
`upsert` by a key, `update … where`, `delete … where` and a lookup by `List.find?`.
A column (or a pair of columns) is a key of a table when no two rows agree on it
(`Keyed`).

Results: each statement keeps the keys it should keep, and on a keyed table a
lookup or an update by key concerns exactly one row.
-/

namespace Table

variable {ρ κ : Type}

/-- `INSERT INTO t` where `clash` tells which stored rows violate a uniqueness
    constraint together with the new row. -/
def insert (clash : ρ → Bool) (row : ρ) (t : List ρ) : Option (List ρ) :=
  if t.any clash then none else some (t ++ [row])

/-- `UPDATE t SET … WHERE p`. -/
def update (p : ρ → Bool) (f : ρ → ρ) (t : List ρ) : List ρ := t.map fun r => if p r then f r else r

/-- `DELETE FROM t WHERE p`. -/
def delete (p : ρ → Bool) (t : List ρ) : List ρ := t.filter fun r => !p r

/-- The row takes the place of the first row with its key, or comes last. -/
def upsert [DecidableEq κ] (k : ρ → κ) (row : ρ) : List ρ → List ρ
  | [] => [row]
  | r :: t => if k r = k row then row :: t else r :: upsert k row t

/-- No two rows agree on the column `k`. -/
def Keyed (k : ρ → κ) (t : List ρ) : Prop := (t.map k).Nodup

section Statements

variable {p : ρ → Bool} {f : ρ → ρ} {t t' : List ρ} {r row : ρ}

theorem insert_eq_some {clash : ρ → Bool} :
    insert clash row t = some t' ↔ (∀ r ∈ t, clash r = false) ∧ t' = t ++ [row] := by
  unfold insert
  split_ifs with h
  · obtain ⟨r, hr, hc⟩ := List.any_eq_true.mp h
    simp only [false_iff, not_and]
    intro hn
    rw [hn r hr] at hc; cases hc
  · simp only [Option.some.injEq, eq_comm (a := t')]
    constructor
    · intro he
      refine ⟨fun r hr => ?_, he⟩
      by_contra hc
      exact h (List.any_eq_true.mpr ⟨r, hr, by simpa using hc⟩)
    · exact fun he => he.2

theorem insert_of_free {clash : ρ → Bool} (h : ∀ r ∈ t, clash r = false) :
    insert clash row t = some (t ++ [row]) :=
  insert_eq_some.mpr ⟨h, rfl⟩

theorem mem_update {r' : ρ} : r' ∈ update p f t ↔ ∃ r ∈ t, r' = if p r then f r else r := by
  simp only [update, List.mem_map, eq_comm]

theorem mem_update_of_not (hr : r ∈ t) (hp : p r = false) : r ∈ update p f t :=
  mem_update.mpr ⟨r, hr, by simp [hp]⟩

theorem mem_update_of (hr : r ∈ t) (hp : p r = true) : f r ∈ update p f t :=
  mem_update.mpr ⟨r, hr, by simp [hp]⟩

theorem mem_delete : r ∈ delete p t ↔ r ∈ t ∧ p r = false := by
  simp [delete]

/-- Rows of one kind are of two others. -/
theorem countP_le_add {p q s : ρ → Bool} {t : List ρ} (h : ∀ r, p r = true → q r = true ∨ s r = true) :
    t.countP p ≤ t.countP q + t.countP s := by
  induction t with
  | nil => exact Nat.zero_le _
  | cons r t ih =>
    rw [List.countP_cons, List.countP_cons, List.countP_cons]
    by_cases hr : p r = true
    · rcases h r hr with hq | hs
      · rw [if_pos hr, if_pos hq]
        omega
      · rw [if_pos hr, if_pos hs]
        omega
    · rw [if_neg hr]
      omega

/-- Two conditions that select the same rows of the table make one update. -/
theorem update_congr {q : ρ → Bool} (h : ∀ r ∈ t, p r = q r) : update p f t = update q f t :=
  List.map_congr_left fun r hr => by rw [h r hr]

theorem delete_eq_self (h : ∀ r ∈ t, p r = false) : delete p t = t :=
  List.filter_eq_self.mpr fun r hr => by simp [h r hr]

end Statements

namespace Keyed

variable {k : ρ → κ} {t : List ρ} {r s row : ρ} {p : ρ → Bool}

theorem nil : Keyed k ([] : List ρ) := List.nodup_nil

/-- Rows with one key are one row. -/
theorem eq (h : Keyed k t) (hr : r ∈ t) (hs : s ∈ t) (hk : k r = k s) : r = s :=
  List.inj_on_of_nodup_map h hr hs hk

theorem nodup (h : Keyed k t) : t.Nodup := List.Nodup.of_map k h

theorem append (h : Keyed k t) (hrow : ∀ r ∈ t, k r ≠ k row) : Keyed k (t ++ [row]) := by
  unfold Keyed
  rw [List.map_append, List.nodup_append]
  refine ⟨h, by simp, ?_⟩
  intro a ha b hb
  obtain ⟨r, hr, rfl⟩ := List.mem_map.mp ha
  obtain rfl : b = k row := by simpa using hb
  exact hrow r hr

theorem update (h : Keyed k t) {f : ρ → ρ} (hf : ∀ r, k (f r) = k r) :
    Keyed k (update p f t) := by
  have hmap : (Table.update p f t).map k = t.map k := by
    rw [Table.update, List.map_map]
    apply List.map_congr_left
    intro r _
    simp only [Function.comp_apply]
    split_ifs
    · exact hf r
    · rfl
  unfold Keyed
  rw [hmap]; exact h

theorem delete (h : Keyed k t) : Keyed k (delete p t) :=
  h.sublist (List.filter_sublist.map k)

/-- Deleting by key takes out exactly the row with that key. -/
theorem perm_cons_delete (h : Keyed k t) (hr : r ∈ t)
    (hp : ∀ s, p s = true ↔ k s = k r) : t.Perm (r :: Table.delete p t) := by
  have hgone : r ∉ Table.delete p t := by
    intro hmem
    have := (mem_delete.mp hmem).2
    rw [(hp r).mpr rfl] at this
    cases this
  refine (List.perm_ext_iff_of_nodup h.nodup (h.delete.nodup.cons hgone)).mpr fun s => ?_
  rw [List.mem_cons, mem_delete, ← Bool.not_eq_true, hp]
  constructor
  · intro hs
    by_cases hk : k s = k r
    · exact Or.inl (h.eq hs hr hk)
    · exact Or.inr ⟨hs, hk⟩
  · rintro (rfl | ⟨hs, _⟩)
    · exact hr
    · exact hs

/-- A row takes the place of the rows with its key. -/
theorem replace [DecidableEq κ] (h : Keyed k t) (row : ρ) :
    Keyed k (Table.update (fun s => k s = k row) (fun _ => row) t) := by
  have hmap : (Table.update (fun s => k s = k row) (fun _ => row) t).map k = t.map k := by
    rw [Table.update, List.map_map]
    refine List.map_congr_left fun s _ => ?_
    by_cases hs : k s = k row
    · simp [hs]
    · simp [hs]
  unfold Keyed
  rw [hmap]
  exact h

/-- An update by key puts the new row in the place of the row with that key. -/
theorem update_perm [DecidableEq κ] (h : Keyed k t) (hr : r ∈ t) (row : ρ) :
    (Table.update (fun s => k s = k r) (fun _ => row) t).Perm
      (row :: Table.delete (fun s => k s = k r) t) := by
  have hperm := h.perm_cons_delete hr (p := fun s => decide (k s = k r)) fun s => by simp
  have hothers : (Table.delete (fun s => k s = k r) t).map (fun s => if decide (k s = k r) then row else s) =
      Table.delete (fun s => k s = k r) t := by
    conv_rhs => rw [← List.map_id (Table.delete _ t)]
    refine List.map_congr_left fun s hs => ?_
    rw [if_neg (by simpa using (mem_delete.mp hs).2), id]
  have hmap := hperm.map fun s => if decide (k s = k r) then row else s
  rw [List.map_cons, hothers, if_pos (by simp)] at hmap
  exact hmap

/-- What an update by key does to the number of rows of a kind. -/
theorem countP_update [DecidableEq κ] (h : Keyed k t) (hr : r ∈ t) (row : ρ) (p : ρ → Bool) :
    (Table.update (fun s => k s = k r) (fun _ => row) t).countP p + (if p r then 1 else 0) =
      t.countP p + (if p row then 1 else 0) := by
  have hperm := h.perm_cons_delete hr (p := fun s => decide (k s = k r)) fun s => by simp
  rw [(h.update_perm hr row).countP_eq, hperm.countP_eq, List.countP_cons, List.countP_cons]
  omega

/-- What a deletion by key does to it. -/
theorem countP_delete [DecidableEq κ] (h : Keyed k t) (hr : r ∈ t) (p : ρ → Bool) :
    (Table.delete (fun s => k s = k r) t).countP p + (if p r then 1 else 0) = t.countP p := by
  have hperm := h.perm_cons_delete hr (p := fun s => decide (k s = k r)) fun s => by simp
  rw [hperm.countP_eq, List.countP_cons]

/-- A condition that implies a key selects at most the row with that key, so
    an update with it changes one row if that row meets the condition. -/
theorem countP_eq_one (h : Keyed k t) (hr : r ∈ t) (hp : p r = true)
    (hk : ∀ s, p s = true → k s = k r) : t.countP p = 1 := by
  have hfilter : t.filter p = [r] := by
    have hnd : (t.filter p).Nodup := h.nodup.filter p
    have hmem : ∀ s, s ∈ t.filter p ↔ s = r := by
      intro s
      rw [List.mem_filter]
      constructor
      · rintro ⟨hs, hps⟩; exact h.eq hs hr (hk s hps)
      · rintro rfl; exact ⟨hr, hp⟩
    exact List.perm_singleton.mp ((List.perm_ext_iff_of_nodup hnd (List.nodup_singleton r)).mpr
      (by simpa using hmem))
  rw [List.countP_eq_length_filter, hfilter]; rfl

variable [DecidableEq κ]

/-- A lookup by key finds the row with that key. -/
theorem find?_eq_some (h : Keyed k t) {c : κ} :
    t.find? (fun r => k r = c) = some r ↔ r ∈ t ∧ k r = c := by
  constructor
  · intro hf
    exact ⟨List.mem_of_find?_eq_some hf, by simpa using List.find?_some hf⟩
  · rintro ⟨hr, rfl⟩
    cases hf : t.find? (fun s => k s = k r) with
    | none => simpa using List.find?_eq_none.mp hf r hr
    | some s =>
      have hs := List.mem_of_find?_eq_some hf
      have hk : k s = k r := by simpa using List.find?_some hf
      rw [h.eq hs hr hk]

theorem find?_of_mem (h : Keyed k t) (hr : r ∈ t) : t.find? (fun s => k s = k r) = some r :=
  h.find?_eq_some.mpr ⟨hr, rfl⟩

/-- The rows with the key of a row are that row. -/
theorem filter_key (h : Keyed k t) (hr : r ∈ t) : t.filter (fun s => k s = k r) = [r] := by
  have hmem : ∀ s, s ∈ t.filter (fun s => k s = k r) ↔ s ∈ [r] := by
    intro s
    rw [List.mem_filter, List.mem_singleton, decide_eq_true_iff]
    constructor
    · rintro ⟨hs, hk⟩
      exact h.eq hs hr hk
    · rintro rfl
      exact ⟨hr, rfl⟩
  exact List.perm_singleton.mp
    ((List.perm_ext_iff_of_nodup (h.nodup.filter _) (List.nodup_singleton r)).mpr hmem)

/-- On a keyed table an upsert puts the row in the place of the rows with its key. -/
theorem upsert_perm (h : Keyed k t) :
    (upsert k row t).Perm (row :: t.filter fun r => k r ≠ k row) := by
  induction t with
  | nil => exact List.Perm.refl _
  | cons r t ih =>
    have hcons := List.nodup_cons.mp h
    rw [upsert]
    split_ifs with hr
    · have hothers : t.filter (fun r => k r ≠ k row) = t := by
        refine List.filter_eq_self.mpr fun s hs => decide_eq_true ?_
        intro hk
        exact hcons.1 (hr.trans hk.symm ▸ List.mem_map_of_mem hs)
      rw [List.filter_cons_of_neg (by simpa using hr), hothers]
    · rw [List.filter_cons_of_pos (by simpa using hr)]
      exact ((ih hcons.2).cons r).trans (List.Perm.swap _ _ _)

end Keyed

/-- Looking a missing key up fails. -/
theorem find?_eq_none [DecidableEq κ] {k : ρ → κ} {t : List ρ} {c : κ} :
    t.find? (fun r => k r = c) = none ↔ ∀ r ∈ t, k r ≠ c := by
  simp [List.find?_eq_none]

/-- **Groups.** The rows that belong to one of some keys are those of the first key, those of the second, and
    so on, where no row belongs to two. -/
theorem filter_perm_flatMap {t : List ρ} {q : κ → ρ → Bool} {keys : List κ} (hkeys : keys.Nodup)
    (hone : ∀ r ∈ t, ∀ c d, q c r = true → q d r = true → c = d) :
    (t.filter fun r => keys.any fun c => q c r).Perm (keys.flatMap fun c => t.filter (q c)) := by
  induction keys with
  | nil => simp
  | cons c keys ih =>
    obtain ⟨hc, hkeys⟩ := List.nodup_cons.mp hkeys
    have hfirst : (t.filter fun r => (c :: keys).any fun d => q d r).filter (q c) = t.filter (q c) := by
      rw [List.filter_filter]
      refine List.filter_congr fun r _ => ?_
      rw [List.any_cons]
      cases q c r <;> simp
    have hothers : (t.filter fun r => (c :: keys).any fun d => q d r).filter (fun r => !q c r) =
        t.filter fun r => keys.any fun d => q d r := by
      rw [List.filter_filter]
      refine List.filter_congr fun r hr => ?_
      rw [List.any_cons]
      cases hcr : q c r with
      | false => simp
      | true =>
        have hnone : (keys.any fun d => q d r) = false := by
          refine List.any_eq_false.mpr fun d hd hdr => ?_
          rw [hone r hr c d hcr hdr] at hc
          exact hc hd
        rw [hnone]
        rfl
    rw [List.flatMap_cons]
    refine (List.filter_append_perm (q c) _).symm.trans ?_
    rw [hfirst, hothers]
    exact (ih hkeys).append_left _

end Table
