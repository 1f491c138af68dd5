import Mathlib.Algebra.Ring.Nat
import Mathlib.Data.List.Basic
import Mathlib.Data.Nat.Notation

/-!
# Pieces between separators

Facts about `List.splitOn` and `List.splitOnP`: what the pieces hold, how many there are, and that
elements other than the separator can be filtered out before or after the split.
-/

namespace Anole.Common

variable {α : Type} [DecidableEq α] {separator a : α} {text piece : List α} {pieces : List (List α)}

/-- No piece holds the separator. -/
theorem not_mem_of_mem_splitOn (h : piece ∈ text.splitOn separator) : separator ∉ piece := by
  induction text generalizing piece with
  | nil =>
    rw [List.splitOn_nil, List.mem_singleton] at h
    rw [h]
    exact List.not_mem_nil
  | cons b text ih =>
    rw [List.splitOn_cons_eq_if_modifyHead] at h
    obtain ⟨first, rest, hpieces⟩ := List.exists_cons_of_ne_nil (List.splitOn_ne_nil separator text)
    rw [hpieces] at h ih
    by_cases hb : b = separator
    · rw [if_pos (beq_iff_eq.mpr hb)] at h
      rcases List.mem_cons.mp h with rfl | h
      · exact List.not_mem_nil
      · exact ih h
    · rw [if_neg (by simpa using hb), List.modifyHead_cons] at h
      rcases List.mem_cons.mp h with rfl | h
      · rw [List.mem_cons, not_or]
        exact ⟨Ne.symm hb, ih List.mem_cons_self⟩
      · exact ih (List.mem_cons_of_mem _ h)

section Separators

variable {β : Type} {p : β → Bool} {front : List β}

/-- What comes before the first separator belongs to the first piece. -/
theorem splitOnP_append (h : ∀ b ∈ front, p b = false) (rest : List β) :
    (front ++ rest).splitOnP p = (rest.splitOnP p).modifyHead (front ++ ·) := by
  induction front with
  | nil =>
    obtain ⟨first, pieces, hpieces⟩ := List.exists_cons_of_ne_nil (List.splitOnP_ne_nil p rest)
    rw [List.nil_append, hpieces]
    rfl
  | cons b front ih =>
    rw [List.cons_append, List.splitOnP_cons_eq_if_modifyHead, h b List.mem_cons_self, if_neg Bool.false_ne_true,
      ih fun c hc => h c (List.mem_cons_of_mem _ hc), List.modifyHead_modifyHead]
    rfl

/-- No piece holds a separator. -/
theorem not_of_mem_splitOnP {text piece : List β} (h : piece ∈ text.splitOnP p) {b : β} (hb : b ∈ piece) :
    p b = false := by
  induction text generalizing piece with
  | nil =>
    rw [List.splitOnP_nil, List.mem_singleton] at h
    rw [h] at hb
    cases hb
  | cons c text ih =>
    obtain ⟨first, rest, hpieces⟩ := List.exists_cons_of_ne_nil (List.splitOnP_ne_nil p text)
    rw [List.splitOnP_cons_eq_if_modifyHead, hpieces] at h
    rw [hpieces] at ih
    split at h
    · rcases List.mem_cons.mp h with rfl | hrest
      · cases hb
      · exact ih hrest hb
    · rename_i hc
      rw [List.modifyHead_cons] at h
      rcases List.mem_cons.mp h with rfl | hrest
      · rcases List.mem_cons.mp hb with rfl | hfirst
        · exact Bool.eq_false_iff.mpr hc
        · exact ih List.mem_cons_self hfirst
      · exact ih (List.mem_cons_of_mem _ hrest) hb

end Separators

/-- There is one piece more than there are separators. -/
theorem length_splitOn (separator : α) (text : List α) :
    (text.splitOn separator).length = text.count separator + 1 := by
  induction text with
  | nil => rw [List.splitOn_nil]; rfl
  | cons b text ih =>
    rw [List.splitOn_cons_eq_if_modifyHead]
    by_cases hb : b = separator
    · rw [if_pos (beq_iff_eq.mpr hb), List.length_cons, ih, hb, List.count_cons_self]
    · rw [if_neg (by simpa using hb), List.length_modifyHead, ih, List.count_cons_of_ne hb]

/-- A text of two pieces. -/
theorem eq_append_of_splitOn_pair {first last : List α} (h : text.splitOn separator = [first, last]) :
    text = first ++ separator :: last := by
  have hjoin : [separator].intercalate (text.splitOn separator) = text := List.intercalate_splitOn separator
  rw [h] at hjoin
  simpa [List.intercalate] using hjoin.symm

/-- A text of one piece. -/
theorem eq_of_splitOn_singleton (h : text.splitOn separator = [piece]) : text = piece := by
  have hjoin : [separator].intercalate (text.splitOn separator) = text := List.intercalate_splitOn separator
  rw [h] at hjoin
  simpa [List.intercalate] using hjoin.symm

/-- What is not the separator can be filtered out first. -/
theorem splitOn_filter {p : α → Bool} (h : p separator = true) (text : List α) :
    (text.filter p).splitOn separator = (text.splitOn separator).map (List.filter p) := by
  induction text with
  | nil => simp
  | cons b text ih =>
    rw [List.splitOn_cons_eq_if_modifyHead]
    obtain ⟨first, rest, hpieces⟩ := List.exists_cons_of_ne_nil (List.splitOn_ne_nil separator text)
    rw [hpieces] at ih ⊢
    by_cases hb : b = separator
    · rw [if_pos (beq_iff_eq.mpr hb), hb, List.filter_cons_of_pos h, List.splitOn_cons_eq_if_modifyHead,
        if_pos (beq_self_eq_true _), ih]
      rfl
    · rw [if_neg (by simpa using hb), List.modifyHead_cons, List.map_cons]
      by_cases hkeep : p b = true
      · rw [List.filter_cons_of_pos hkeep, List.filter_cons_of_pos hkeep, List.splitOn_cons_eq_if_modifyHead,
          if_neg (by simpa using hb), ih, List.map_cons, List.modifyHead_cons]
      · rw [List.filter_cons_of_neg hkeep, List.filter_cons_of_neg hkeep, ih, List.map_cons]

/-- Joined pieces are split into as many pieces, and one more for each separator inside a piece. -/
theorem length_splitOn_intercalate (hne : pieces ≠ []) :
    (([separator].intercalate pieces).splitOn separator).length =
      pieces.length + (pieces.map (List.count separator)).sum := by
  rw [length_splitOn]
  induction pieces with
  | nil => exact absurd rfl hne
  | cons piece pieces ih =>
    cases pieces with
    | nil => simp [Nat.add_comm]
    | cons next rest =>
      have hrest := ih (List.cons_ne_nil _ _)
      rw [List.intercalate_cons_cons, List.count_append, List.count_append, List.count_singleton_self]
      simp only [List.length_cons, List.map_cons, List.sum_cons] at hrest ⊢
      omega

/-- Joined pieces are the pieces again exactly when no piece holds a separator. -/
theorem splitOn_intercalate_iff (hne : pieces ≠ []) :
    (([separator].intercalate pieces).splitOn separator).length = pieces.length ↔
      ∀ piece ∈ pieces, separator ∉ piece := by
  rw [length_splitOn_intercalate hne]
  have hzero : (pieces.map (List.count separator)).sum = 0 ↔ ∀ piece ∈ pieces, separator ∉ piece := by
    simp only [List.sum_eq_zero_iff_forall_eq_nat, List.forall_mem_map, List.count_eq_zero]
  rw [← hzero]
  omega

omit [DecidableEq α] in
/-- A joined piece that is not the last one begins the text, or stands between two separators. -/
theorem occurs_intercalate (h : piece ∈ pieces.dropLast) :
    piece ++ [separator] <+: [separator].intercalate pieces ∨
      separator :: (piece ++ [separator]) <:+: [separator].intercalate pieces := by
  induction pieces with
  | nil => exact absurd h List.not_mem_nil
  | cons first rest ih =>
    cases rest with
    | nil => exact absurd h List.not_mem_nil
    | cons next rest =>
      rw [List.dropLast_cons_cons, List.mem_cons] at h
      rw [List.intercalate_cons_cons]
      rcases h with rfl | h
      · exact .inl ⟨_, rfl⟩
      · right
        have htail : separator :: [separator].intercalate (next :: rest) <:+:
            first ++ [separator] ++ [separator].intercalate (next :: rest) := by
          rw [List.append_assoc]
          exact (List.suffix_append first _).isInfix
        rcases ih h with hfront | hinside
        · exact (((List.prefix_cons_inj separator).mpr hfront).isInfix).trans htail
        · exact (hinside.trans (List.suffix_cons separator _).isInfix).trans htail

/-- The same, of the pieces of a text. -/
theorem occurs_of_mem_dropLast_splitOn (h : piece ∈ (text.splitOn separator).dropLast) :
    piece ++ [separator] <+: text ∨ separator :: (piece ++ [separator]) <:+: text := by
  have hjoin : [separator].intercalate (text.splitOn separator) = text := List.intercalate_splitOn separator
  rw [← hjoin]
  exact occurs_intercalate h

omit [DecidableEq α] in
/-- The last joined piece ends the text. -/
theorem suffix_intercalate (h : piece ∈ pieces.getLast?) :
    piece <:+ [separator].intercalate pieces := by
  induction pieces with
  | nil => cases h
  | cons first rest ih =>
    cases rest with
    | nil =>
      rw [List.getLast?_singleton, Option.mem_some_iff] at h
      have hlast : [separator].intercalate [first] = piece := by rw [List.intercalate_singleton, h]
      exact hlast ▸ List.suffix_rfl
    | cons next rest =>
      rw [List.getLast?_cons_cons] at h
      rw [List.intercalate_cons_cons]
      exact (ih h).trans (List.suffix_append _ _)

theorem suffix_of_getLast?_splitOn (h : piece ∈ (text.splitOn separator).getLast?) : piece <:+ text := by
  have hjoin : [separator].intercalate (text.splitOn separator) = text := List.intercalate_splitOn separator
  rw [← hjoin]
  exact suffix_intercalate h

end Anole.Common
