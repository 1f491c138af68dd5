import Mathlib.Data.List.Basic

/-!
# Lines that continue others

`group` puts a line together with the lines behind it that continue it. Nothing is lost
(`flatten_group`), and groups that begin with a line of their own are found again (`group_flatten`).
-/

namespace Common

variable {α : Type} (continues : α → Bool)

/-- Each line, with those that continue it. -/
def group : List α → List (List α)
  | [] => []
  | a :: l =>
    match group l with
    | (b :: g) :: rest => if continues b then (a :: b :: g) :: rest else [a] :: (b :: g) :: rest
    | rest => [a] :: rest

/-- A line that begins a group, and lines that continue it. -/
def IsGroup : List α → Prop
  | [] => False
  | a :: l => continues a = false ∧ ∀ b ∈ l, continues b = true

variable {continues} {a : α} {l : List α} {groups : List (List α)}

/-- Nothing is lost. -/
theorem flatten_group (l : List α) : (group continues l).flatten = l := by
  induction l with
  | nil => rfl
  | cons a l ih =>
    rw [group]
    split
    · next b g rest hgroup =>
      rw [hgroup] at ih
      split_ifs
      · rw [List.flatten_cons, List.cons_append, ← List.flatten_cons, ih]
      · rw [List.flatten_cons, List.singleton_append, ih]
    · rw [List.flatten_cons, List.singleton_append, ih]

/-- The first group begins with the first line. -/
theorem group_cons_eq (continues : α → Bool) (a : α) (l : List α) :
    ∃ g rest, group continues (a :: l) = (a :: g) :: rest := by
  rw [group]
  split
  · split_ifs
    · exact ⟨_, _, rfl⟩
    · exact ⟨_, _, rfl⟩
  · exact ⟨_, _, rfl⟩

/-- A group comes first. -/
theorem group_append (hl : ∀ b ∈ l, continues b = true) {rest : List α} (hrest : ∀ b ∈ rest.head?, continues b = false)
    (a : α) : group continues (a :: l ++ rest) = (a :: l) :: group continues rest := by
  induction l generalizing a with
  | nil =>
    rw [List.singleton_append, group]
    cases rest with
    | nil => rfl
    | cons b rest =>
      obtain ⟨g, others, hgroup⟩ := group_cons_eq continues b rest
      have hb : continues b = false := hrest b rfl
      rw [hgroup]
      show (if continues b = true then _ else _) = _
      rw [if_neg (by simp [hb])]
  | cons b l ih =>
    obtain ⟨hb, hothers⟩ := List.forall_mem_cons.mp hl
    rw [List.cons_append, group, ih hothers b]
    exact if_pos hb

/-- **Groups are found again.** -/
theorem group_flatten (h : ∀ g ∈ groups, IsGroup continues g) : group continues groups.flatten = groups := by
  induction groups with
  | nil => rfl
  | cons g groups ih =>
    obtain ⟨hg, hgroups⟩ := List.forall_mem_cons.mp h
    cases g with
    | nil => exact absurd hg id
    | cons a l =>
      rw [List.flatten_cons, group_append hg.2 _ a, ih hgroups]
      intro b hb
      cases groups with
      | nil => cases hb
      | cons g' groups =>
        have hg' := hgroups g' List.mem_cons_self
        cases g' with
        | nil => exact absurd hg' id
        | cons c l' =>
          obtain rfl : c = b := Option.some.inj hb
          exact hg'.1

end Common
