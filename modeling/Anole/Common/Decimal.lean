import Mathlib.Data.List.Basic
import Mathlib.Data.Nat.Notation

/-!
# Numbers in decimal notation

The decimal digits of a number can be read back, whatever text stands before them, when the
character in front of the digits is no digit.
-/

namespace Anole.Common

theorem toList_toString (n : ℕ) : (toString n).toList = Nat.toDigits 10 n := by
  rw [Nat.toString_eq_repr, Nat.toList_repr]

theorem isDigit_of_mem_toString {n : ℕ} {c : Char} (h : c ∈ (toString n).toList) : c.isDigit := by
  rw [toList_toString] at h
  exact Nat.isDigit_of_mem_toDigits (by decide) (by decide) h

theorem toString_toList_ne_nil (n : ℕ) : (toString n).toList ≠ [] := by
  rw [toList_toString]
  exact Nat.toDigits_ne_nil

/-- The value of the digits, the first one first. -/
theorem foldl_toString (n : ℕ) :
    (toString n).toList.foldl (fun value c => 10 * value + (c.toNat - '0'.toNat)) 0 = n := by
  rw [toList_toString, ← Nat.ofDigitChars_eq_foldl]
  exact Nat.ofDigitChars_ten_toDigits

/-- Zeros in front of the digits do not change the value. -/
theorem foldl_zeros (count : ℕ) (chars : List Char) :
    (List.replicate count '0' ++ chars).foldl (fun value c => 10 * value + (c.toNat - '0'.toNat)) 0 =
      chars.foldl (fun value c => 10 * value + (c.toNat - '0'.toNat)) 0 := by
  induction count with
  | zero => rw [List.replicate_zero, List.nil_append]
  | succ count ih =>
    rw [List.replicate_succ, List.cons_append, List.foldl_cons]
    exact ih

theorem toString_injective {m n : ℕ} (h : toString m = toString n) : m = n := by
  rw [← foldl_toString m, h, foldl_toString]

/-- The digits that a text ends in. -/
theorem takeWhile_reverse_toString {a : List Char} {c : Char} (hc : ¬ c.isDigit) (n : ℕ) :
    (a ++ c :: (toString n).toList).reverse.takeWhile Char.isDigit = (toString n).toList.reverse := by
  have hdigits : ∀ d ∈ (toString n).toList.reverse, d.isDigit := fun d hd =>
    isDigit_of_mem_toString (List.mem_reverse.mp hd)
  rw [List.reverse_append, List.reverse_cons, List.append_assoc, List.singleton_append,
    List.takeWhile_append_of_pos hdigits, List.takeWhile_cons_of_neg hc, List.append_nil]

/-- A number in front of a character that is no digit, or of the end of the text. -/
theorem takeWhile_toString {rest : List Char} (hrest : ∀ c ∈ rest.head?, ¬ c.isDigit) (n : ℕ) :
    ((toString n).toList ++ rest).takeWhile Char.isDigit = (toString n).toList := by
  rw [List.takeWhile_append_of_pos fun c hc => isDigit_of_mem_toString hc]
  have hnil : rest.takeWhile Char.isDigit = [] := by
    cases rest with
    | nil => rfl
    | cons c rest => exact List.takeWhile_cons_of_neg (hrest c rfl)
  rw [hnil, List.append_nil]

/-- Such a number is read back from the front of the text, and so is what follows it. -/
theorem append_toString_inj {rest rest' : List Char} {m n : ℕ} (hrest : ∀ c ∈ rest.head?, ¬ c.isDigit)
    (hrest' : ∀ c ∈ rest'.head?, ¬ c.isDigit)
    (h : (toString m).toList ++ rest = (toString n).toList ++ rest') : m = n ∧ rest = rest' := by
  have hdigits : (toString m).toList = (toString n).toList := by
    rw [← takeWhile_toString hrest m, h, takeWhile_toString hrest' n]
  refine ⟨toString_injective (String.toList_injective hdigits), ?_⟩
  rw [hdigits] at h
  exact List.append_cancel_left h

/-- A number after a character that is no digit is read back from the end of the text. -/
theorem number_of_append_eq {a b : List Char} {c : Char} {m n : ℕ} (hc : ¬ c.isDigit)
    (h : a ++ c :: (toString m).toList = b ++ c :: (toString n).toList) : m = n := by
  have hreverse : (toString m).toList.reverse = (toString n).toList.reverse := by
    rw [← takeWhile_reverse_toString hc m, h, takeWhile_reverse_toString hc n]
  apply toString_injective
  apply String.toList_injective
  exact List.reverse_injective hreverse

end Anole.Common
