import Mathlib.Data.List.Basic
import Mathlib.Data.List.Infix
import Mathlib.Data.Nat.Notation

/-!
# Occurrences of a marker

`findAfter` is what follows the first occurrence of a marker in a text. `anyAfter` goes from one
occurrence to the next behind it, until what follows one has a property. A marker whose first
element is not repeated cannot overlap itself, and then no occurrence is missed
(`anyAfter_iff`). `findLastAfter` is what follows the last occurrence (`findLastAfter_eq_some`).
-/

namespace Common

variable {α : Type} {marker tail text rest : List α} {c : α}

/-- Two occurrences of a marker that cannot overlap itself: they are the same, or one of them is
    behind the other. -/
theorem append_eq_append_marker {before rest' : List α} (hc : c ∉ tail)
    (h : c :: tail ++ rest = before ++ c :: tail ++ rest') :
    (before = [] ∧ rest = rest') ∨ ∃ gap, rest = gap ++ c :: tail ++ rest' := by
  match before, h with
  | [], h => exact .inl ⟨rfl, List.append_cancel_left h⟩
  | d :: before, h =>
    rw [List.cons_append, List.cons_append, List.cons_append, List.cons.injEq] at h
    obtain ⟨rfl, h⟩ := h
    rw [List.append_assoc] at h
    rcases List.append_eq_append_iff.mp h with ⟨gap, hbefore, hrest⟩ | ⟨gap, htail, hrest⟩
    · exact .inr ⟨gap, by rw [hrest, List.append_assoc]⟩
    · -- The marker would begin again inside of itself.
      match gap, hrest with
      | [], hrest => exact .inr ⟨[], hrest.symm⟩
      | e :: gap, hrest =>
        rw [List.cons_append, List.cons_append, List.cons.injEq] at hrest
        exact absurd (by rw [htail, hrest.1]; simp) hc

section Search

variable [DecidableEq α]

/-- What follows the first occurrence of the marker. -/
def findAfter (marker : List α) : List α → Option (List α)
  | [] => if marker = [] then some [] else none
  | c :: text =>
    if marker.isPrefixOf (c :: text) then some ((c :: text).drop marker.length)
    else findAfter marker text

/-- Some occurrence of the marker, of those that do not overlap an earlier one, is followed by a
    text with the property. The fuel bounds how many there are. -/
def anyAfter (p : List α → Bool) (marker : List α) : ℕ → List α → Bool
  | 0, _ => false
  | fuel + 1, text =>
    match findAfter marker text with
    | none => false
    | some rest => p rest || anyAfter p marker fuel rest

/-- The first occurrence is one. -/
theorem findAfter_eq_some (h : findAfter marker text = some rest) :
    ∃ before, text = before ++ marker ++ rest := by
  induction text with
  | nil =>
    rw [findAfter] at h
    split_ifs at h with hmarker
    exact ⟨[], by rw [hmarker, ← Option.some.inj h]; rfl⟩
  | cons c text ih =>
    rw [findAfter] at h
    split_ifs at h with hprefix
    · refine ⟨[], ?_⟩
      obtain ⟨more, hmore⟩ := List.isPrefixOf_iff_prefix.mp hprefix
      rw [← Option.some.inj h, ← hmore, List.drop_left, List.nil_append]
    · obtain ⟨before, rfl⟩ := ih h
      exact ⟨c :: before, rfl⟩

/-- Every occurrence is the first one or behind it. -/
theorem findAfter_append (hc : c ∉ tail) (before rest : List α) :
    ∃ first, findAfter (c :: tail) (before ++ c :: tail ++ rest) = some first ∧
      (first = rest ∨ ∃ gap, first = gap ++ c :: tail ++ rest) := by
  induction before with
  | nil =>
    refine ⟨rest, ?_, .inl rfl⟩
    rw [List.nil_append, List.cons_append, findAfter, if_pos (by simp), ← List.cons_append]
    exact congrArg some List.drop_left
  | cons d before ih =>
    rw [List.cons_append, List.cons_append, findAfter]
    split_ifs with hprefix
    · obtain ⟨more, hmore⟩ := List.isPrefixOf_iff_prefix.mp hprefix
      rw [← hmore]
      refine ⟨more, congrArg some List.drop_left, ?_⟩
      have hboth : c :: tail ++ more = d :: before ++ c :: tail ++ rest := hmore
      rcases append_eq_append_marker hc hboth with ⟨hnil, -⟩ | hgap
      · exact absurd hnil (by simp)
      · exact .inr hgap
    · exact ih

/-- The loop finds an occurrence with the property exactly if there is one. -/
theorem anyAfter_iff {p : List α → Bool} (hc : c ∉ tail) {fuel : ℕ} (hfuel : text.length < fuel) :
    anyAfter p (c :: tail) fuel text = true ↔
      ∃ before rest, text = before ++ c :: tail ++ rest ∧ p rest = true := by
  induction fuel generalizing text with
  | zero => exact absurd hfuel (Nat.not_lt_zero _)
  | succ fuel ih =>
    rw [anyAfter]
    match hfind : findAfter (c :: tail) text with
    | none =>
      refine iff_of_false Bool.false_ne_true ?_
      rintro ⟨before, rest, rfl, -⟩
      obtain ⟨first, hfirst, -⟩ := findAfter_append hc before rest
      exact absurd (hfind.symm.trans hfirst) (by simp)
    | some first =>
      obtain ⟨front, rfl⟩ := findAfter_eq_some hfind
      have hshort : first.length < fuel := by
        simp only [List.length_append, List.length_cons] at hfuel
        omega
      rw [Bool.or_eq_true, ih hshort]
      constructor
      · rintro (hp | ⟨gap, rest, rfl, hp⟩)
        · exact ⟨front, first, rfl, hp⟩
        · exact ⟨front ++ c :: tail ++ gap, rest, by simp, hp⟩
      · rintro ⟨before, rest, htext, hp⟩
        obtain ⟨other, hother, hwhere⟩ := findAfter_append hc before rest
        rw [← htext, hfind] at hother
        rw [← Option.some.inj hother] at hwhere
        rcases hwhere with rfl | ⟨gap, hgap⟩
        · exact .inl hp
        · exact .inr ⟨gap, rest, hgap, hp⟩

/-- What follows the last occurrence of the marker. -/
def findLastAfter (marker : List α) : List α → Option (List α)
  | [] => none
  | c :: text =>
    match findLastAfter marker text with
    | some rest => some rest
    | none => if marker.isPrefixOf (c :: text) then some ((c :: text).drop marker.length) else none

theorem not_infix_of_findLastAfter_eq_none (h : findLastAfter (c :: tail) text = none) :
    ¬ c :: tail <:+: text := by
  induction text with
  | nil => simp
  | cons d text ih =>
    rw [findLastAfter] at h
    match hlater : findLastAfter (c :: tail) text with
    | some rest =>
      rw [hlater] at h
      exact absurd h (by simp)
    | none =>
      rw [hlater] at h
      dsimp only at h
      split_ifs at h with hprefix
      intro hoccurs
      rcases List.infix_cons_iff.mp hoccurs with hfirst | hrest
      · exact hprefix (List.isPrefixOf_iff_prefix.mpr hfirst)
      · exact ih hlater hrest

/-- The last occurrence is one, and none is behind it. -/
theorem findLastAfter_eq_some (h : findLastAfter (c :: tail) text = some rest) :
    (∃ before, text = before ++ c :: tail ++ rest) ∧ ¬ c :: tail <:+: rest := by
  induction text with
  | nil => exact absurd h (by simp [findLastAfter])
  | cons d text ih =>
    rw [findLastAfter] at h
    match hlater : findLastAfter (c :: tail) text with
    | some later =>
      rw [hlater] at h
      obtain rfl := Option.some.inj h
      obtain ⟨⟨before, rfl⟩, hnone⟩ := ih hlater
      exact ⟨⟨d :: before, rfl⟩, hnone⟩
    | none =>
      rw [hlater] at h
      dsimp only at h
      split_ifs at h with hprefix
      obtain rfl := Option.some.inj h
      obtain ⟨more, hmore⟩ := List.isPrefixOf_iff_prefix.mp hprefix
      constructor
      · refine ⟨[], ?_⟩
        rw [← hmore, List.drop_left, List.nil_append]
      · -- what follows lies behind the first element
        have hsuffix : (d :: text).drop (c :: tail).length <:+ text := by
          rw [List.length_cons, List.drop_succ_cons]
          exact List.drop_suffix _ _
        exact fun hoccurs =>
          not_infix_of_findLastAfter_eq_none hlater (hoccurs.trans hsuffix.isInfix)

end Search

end Common
