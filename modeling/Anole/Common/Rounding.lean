import Mathlib.Data.Nat.Notation
import Mathlib.Order.Basic
import Mathlib.Tactic.Ring

/-!
# Rounding of a quotient

`roundDiv a b` is the whole number nearest to `a / b`, halves up, and `2 * roundDiv a (2 * b)` is
the even number nearest to it. Rounding first to a whole number and then up to an even one gives a
different result when the quotient lies in the upper quarter before an odd number
(`evenUp_roundDiv_iff`).
-/

namespace Anole.Common

/-- `a / b`, rounded to the nearest whole number, halves up. -/
def roundDiv (a b : ℕ) : ℕ := (2 * a + b) / (2 * b)

/-- The next even number. -/
def evenUp (n : ℕ) : ℕ := if n % 2 = 0 then n else n + 1

theorem evenUp_two_mul (n : ℕ) : evenUp (2 * n) = 2 * n := by
  rw [evenUp, if_pos (by omega)]

theorem evenUp_two_mul_add_one (n : ℕ) : evenUp (2 * n + 1) = 2 * n + 2 := by
  rw [evenUp, if_neg (by omega)]

/-- Rounding by adding half of the divisor. -/
theorem add_half_div (a b : ℕ) : (a + b / 2) / b = roundDiv a b := by
  have hdouble : (2 * a + b) / (2 * b) = (2 * a + b) / 2 / b := (Nat.div_div_eq_div_mul _ _ _).symm
  rw [roundDiv, hdouble]
  congr 1
  omega

/-- A quotient between `q` and the next number but one. -/
theorem two_mul_eq (a b : ℕ) : 2 * a = 4 * b * (2 * a / (4 * b)) + 2 * a % (4 * b) :=
  (Nat.div_add_mod _ _).symm

theorem roundDiv_of_two_mul {a b q r : ℕ} (hb : 1 ≤ b) (ha : 2 * a = 4 * b * q + r) :
    roundDiv a b = 2 * q + (r + b) / (2 * b) := by
  have hsum : 2 * a + b = r + b + 2 * b * (2 * q) := by rw [ha]; ring
  rw [roundDiv, hsum, Nat.add_mul_div_left _ _ (by omega)]
  omega

theorem roundDiv_even_of_two_mul {a b q r : ℕ} (hb : 1 ≤ b) (ha : 2 * a = 4 * b * q + r) :
    roundDiv a (2 * b) = q + (r + 2 * b) / (4 * b) := by
  have hsum : 2 * a + 2 * b = r + 2 * b + 4 * b * q := by rw [ha]; ring
  have htwice : 2 * (2 * b) = 4 * b := by ring
  rw [roundDiv, hsum, htwice, Nat.add_mul_div_left _ _ (by omega)]
  omega

/-- **Two roundings.** The nearest whole number made even is the nearest even number, unless the
remainder lies in the second quarter. -/
theorem evenUp_roundDiv (a b : ℕ) (hb : 1 ≤ b) :
    evenUp (roundDiv a b) = 2 * roundDiv a (2 * b) +
      if b ≤ 2 * a % (4 * b) ∧ 2 * a % (4 * b) < 2 * b then 2 else 0 := by
  have ha := two_mul_eq a b
  have hr : 2 * a % (4 * b) < 4 * b := Nat.mod_lt _ (by omega)
  generalize 2 * a / (4 * b) = q at ha
  generalize 2 * a % (4 * b) = r at ha hr
  rw [roundDiv_of_two_mul hb ha, roundDiv_even_of_two_mul hb ha]
  rcases Nat.lt_or_ge r b with hlow | hlow
  · have h1 : (r + b) / (2 * b) = 0 := Nat.div_eq_of_lt (by omega)
    have h2 : (r + 2 * b) / (4 * b) = 0 := Nat.div_eq_of_lt (by omega)
    rw [h1, h2, if_neg (by omega), Nat.add_zero, evenUp_two_mul]
    omega
  rcases Nat.lt_or_ge r (2 * b) with hmid | hmid
  · have h1 : (r + b) / (2 * b) = 1 := Nat.div_eq_of_lt_le (by omega) (by omega)
    have h2 : (r + 2 * b) / (4 * b) = 0 := Nat.div_eq_of_lt (by omega)
    rw [h1, h2, if_pos ⟨hlow, hmid⟩, evenUp_two_mul_add_one]
    omega
  have h2 : (r + 2 * b) / (4 * b) = 1 := Nat.div_eq_of_lt_le (by omega) (by omega)
  rcases Nat.lt_or_ge r (3 * b) with hhigh | hhigh
  · have h1 : (r + b) / (2 * b) = 1 := Nat.div_eq_of_lt_le (by omega) (by omega)
    rw [h1, h2, if_neg (by omega), evenUp_two_mul_add_one]
    omega
  · have h1 : (r + b) / (2 * b) = 2 := Nat.div_eq_of_lt_le (by omega) (by omega)
    have heven : 2 * q + 2 = 2 * (q + 1) := by ring
    rw [h1, h2, if_neg (by omega), heven, evenUp_two_mul]
    omega

/-- A quotient of at least one whose remainder lies in the second quarter. -/
def SecondQuarter (a b : ℕ) : Prop := b ≤ a ∧ b ≤ 2 * a % (4 * b) ∧ 2 * a % (4 * b) < 2 * b

instance (a b : ℕ) : Decidable (SecondQuarter a b) :=
  inferInstanceAs (Decidable (b ≤ a ∧ b ≤ 2 * a % (4 * b) ∧ 2 * a % (4 * b) < 2 * b))

/-- The same with results of at least two. -/
theorem max_evenUp_roundDiv_iff (a b : ℕ) (hb : 1 ≤ b) :
    max (evenUp (roundDiv a b)) 2 = max (2 * roundDiv a (2 * b)) 2 ↔ ¬ SecondQuarter a b := by
  rw [evenUp_roundDiv a b hb]
  unfold SecondQuarter
  split_ifs with hmid
  · have ha := two_mul_eq a b
    have heven := roundDiv_even_of_two_mul hb ha
    have hzero : (2 * a % (4 * b) + 2 * b) / (4 * b) = 0 := Nat.div_eq_of_lt (by omega)
    rw [hzero, Nat.add_zero] at heven
    have hone : b ≤ a ↔ 1 ≤ 2 * a / (4 * b) := by
      rw [Nat.one_le_div_iff (by omega)]
      refine ⟨fun hle => ?_, fun hle => by omega⟩
      by_contra hlt
      rw [Nat.mod_eq_of_lt (by omega)] at hmid
      omega
    rw [heven, hone]
    omega
  · simp [hmid]

end Anole.Common
