import Mathlib.Data.Option.Basic
import Mathlib.Logic.Function.Basic

/-!
# Files

A file system (or the part of it a protocol uses) is a map from names to contents, with
atomic replacement of a content (`put`), removal and rename.

A file that is replaced through a backup is read as the file, or as its backup while the
file is away (`visible`). The lemmas say what each operation of such a replacement does to
the visible content.
-/

namespace Common

variable {κ β : Type}

/-- Which files there are, with their contents. -/
abbrev Files (κ β : Type) : Type := κ → Option β

namespace Files

variable [DecidableEq κ]

def put (fs : Files κ β) (k : κ) (v : β) : Files κ β := Function.update fs k (some v)

def remove (fs : Files κ β) (k : κ) : Files κ β := Function.update fs k none

/-- `a` becomes `b`, in the place of a former `b`. -/
def rename (fs : Files κ β) (a b : κ) : Files κ β :=
  Function.update (Function.update fs b (fs a)) a none

variable {fs : Files κ β} {a b k : κ} {v : β}

@[simp] theorem put_self : fs.put k v k = some v := Function.update_self ..

@[simp] theorem put_of_ne (h : a ≠ k) : fs.put k v a = fs a := Function.update_of_ne h ..

@[simp] theorem remove_self : fs.remove k k = none := Function.update_self ..

@[simp] theorem remove_of_ne (h : a ≠ k) : fs.remove k a = fs a := Function.update_of_ne h ..

@[simp] theorem rename_source : fs.rename a b a = none := Function.update_self ..

@[simp] theorem rename_target (h : a ≠ b) : fs.rename a b b = fs a := by
  rw [rename, Function.update_of_ne h.symm, Function.update_self]

@[simp] theorem rename_of_ne (ha : k ≠ a) (hb : k ≠ b) : fs.rename a b k = fs k := by
  rw [rename, Function.update_of_ne ha, Function.update_of_ne hb]

/-- Removing a file that is not there changes nothing. -/
theorem remove_eq_self (h : fs k = none) : fs.remove k = fs := by
  rw [remove, ← h, Function.update_eq_self]

/-! ## A sequence of renames -/

/-- Files are renamed one after the other, up to the first rename that fails: its source is not there, or it is
    refused. The answer says whether all were made. -/
def renameAll (refuses : κ → κ → Bool) : Files κ β → List (κ × κ) → Files κ β × Bool
  | fs, [] => (fs, true)
  | fs, (a, b) :: moves =>
    if (fs a).isNone ∨ refuses a b = true then (fs, false) else renameAll refuses (fs.rename a b) moves

/-- No two renames have one source or one target, and no target is a source. -/
structure Apart (moves : List (κ × κ)) : Prop where
  sources : (moves.map Prod.fst).Nodup
  targets : (moves.map Prod.snd).Nodup
  disjoint : ∀ move ∈ moves, ∀ other ∈ moves, move.1 ≠ other.2

theorem Apart.tail {move : κ × κ} {moves : List (κ × κ)} (h : Apart (move :: moves)) : Apart moves where
  sources := (List.nodup_cons.mp h.sources).2
  targets := (List.nodup_cons.mp h.targets).2
  disjoint a ha b hb := h.disjoint a (List.mem_cons_of_mem _ ha) b (List.mem_cons_of_mem _ hb)

/-- The first rename leaves the source of a later one as it is. -/
theorem Apart.rename_later {move other : κ × κ} {moves : List (κ × κ)} (h : Apart (move :: moves))
    (hother : other ∈ moves) : fs.rename move.1 move.2 other.1 = fs other.1 := by
  apply rename_of_ne
  · intro heq
    exact (List.nodup_cons.mp h.sources).1 (heq ▸ List.mem_map_of_mem hother)
  · exact h.disjoint other (List.mem_cons_of_mem _ hother) move List.mem_cons_self

variable {refuses : κ → κ → Bool} {moves : List (κ × κ)}

/-- When all renames are made, every target has the content of its source, the sources are gone, and nothing else
    has changed. -/
theorem renameAll_moved (h : Apart moves) {fs' : Files κ β} (hrun : fs.renameAll refuses moves = (fs', true)) :
    (∀ move ∈ moves, fs' move.2 = fs move.1) ∧ (∀ move ∈ moves, fs' move.1 = none) ∧
      ∀ k, (∀ move ∈ moves, k ≠ move.1 ∧ k ≠ move.2) → fs' k = fs k := by
  induction moves generalizing fs with
  | nil =>
    rw [renameAll, Prod.mk.injEq] at hrun
    refine ⟨fun move hmove => absurd hmove List.not_mem_nil, fun move hmove => absurd hmove List.not_mem_nil, ?_⟩
    intro k _
    rw [hrun.1]
  | cons move moves ih =>
    rw [renameAll] at hrun
    split at hrun
    · exact absurd (congrArg Prod.snd hrun) Bool.false_ne_true
    · obtain ⟨hmoved, hgone, hrest⟩ := ih h.tail hrun
      have hne : move.1 ≠ move.2 := h.disjoint move List.mem_cons_self move List.mem_cons_self
      have hsource : ∀ other ∈ moves, move.1 ≠ other.1 ∧ move.1 ≠ other.2 := fun other hother =>
        ⟨fun heq => (List.nodup_cons.mp h.sources).1 (heq ▸ List.mem_map_of_mem hother),
          h.disjoint move List.mem_cons_self other (List.mem_cons_of_mem _ hother)⟩
      have htarget : ∀ other ∈ moves, move.2 ≠ other.1 ∧ move.2 ≠ other.2 := fun other hother =>
        ⟨(h.disjoint other (List.mem_cons_of_mem _ hother) move List.mem_cons_self).symm,
          fun heq => (List.nodup_cons.mp h.targets).1 (heq ▸ List.mem_map_of_mem hother)⟩
      refine ⟨?_, ?_, ?_⟩
      · intro other hother
        rcases List.mem_cons.mp hother with rfl | hother
        · rw [hrest _ htarget, rename_target hne]
        · rw [hmoved other hother, h.rename_later hother]
      · intro other hother
        rcases List.mem_cons.mp hother with rfl | hother
        · rw [hrest _ hsource, rename_source]
        · exact hgone other hother
      · intro k hk
        obtain ⟨hfirst, hsecond⟩ := hk move List.mem_cons_self
        rw [hrest k fun other hother => hk other (List.mem_cons_of_mem _ hother), rename_of_ne hfirst hsecond]

/-- All renames are made exactly when every source is there and none is refused. -/
theorem renameAll_iff (h : Apart moves) :
    (fs.renameAll refuses moves).2 = true ↔
      ∀ move ∈ moves, (fs move.1).isSome = true ∧ refuses move.1 move.2 = false := by
  induction moves generalizing fs with
  | nil => exact iff_of_true rfl fun move hmove => absurd hmove List.not_mem_nil
  | cons move moves ih =>
    have hlater : (∀ other ∈ moves, (fs.rename move.1 move.2 other.1).isSome = true ∧ refuses other.1 other.2 = false) ↔
        ∀ other ∈ moves, (fs other.1).isSome = true ∧ refuses other.1 other.2 = false :=
      forall₂_congr fun other hother => by rw [h.rename_later hother]
    rw [List.forall_mem_cons, ← hlater, ← ih h.tail, renameAll]
    split
    · next hfails =>
      refine iff_of_false Bool.false_ne_true ?_
      rintro ⟨⟨hsome, haccepted⟩, -⟩
      rcases hfails with hnone | hrefused
      · rw [Option.isNone_iff_eq_none] at hnone
        rw [hnone] at hsome
        cases hsome
      · rw [haccepted] at hrefused
        cases hrefused
    · next hmade =>
      rw [not_or, Bool.not_eq_true, Bool.not_eq_true, Option.isNone_eq_false_iff] at hmade
      exact (and_iff_right hmade).symm

/-! ## A file and its backup -/

/-- What is read under the name `d`, whose backup is `b`. -/
def visible (fs : Files κ β) (d b : κ) : Option β := (fs d).or (fs b)

variable {d : κ}

omit [DecidableEq κ] in
theorem visible_of_some (h : fs d = some v) : fs.visible d b = some v := by
  rw [visible, h, Option.some_or]

omit [DecidableEq κ] in
theorem visible_of_none (h : fs d = none) : fs.visible d b = fs b := by
  rw [visible, h, Option.none_or]

omit [DecidableEq κ] in
theorem visible_congr {fs' : Files κ β} (hd : fs' d = fs d) (hb : fs' b = fs b) :
    fs'.visible d b = fs.visible d b := by
  rw [visible, visible, hd, hb]

/-- The backup comes back. -/
theorem visible_restore (hdb : d ≠ b) (hd : fs d = none) :
    (fs.rename b d).visible d b = fs.visible d b := by
  rw [visible, rename_target hdb.symm, rename_source, Option.or_none, visible_of_none hd]

/-- The backup is dropped while the file is there. -/
theorem visible_remove_backup (hdb : d ≠ b) (hd : (fs d).isSome) :
    (fs.remove b).visible d b = fs.visible d b := by
  obtain ⟨v, hv⟩ := Option.isSome_iff_exists.mp hd
  rw [visible_of_some (v := v) (by rwa [remove_of_ne hdb]), visible_of_some hv]

/-- The file is moved away to its backup. -/
theorem visible_move_away (hdb : d ≠ b) (hd : (fs d).isSome) :
    (fs.rename d b).visible d b = fs.visible d b := by
  obtain ⟨v, hv⟩ := Option.isSome_iff_exists.mp hd
  rw [visible_of_none rename_source, rename_target hdb, visible_of_some hv, hv]

end Files

end Common
