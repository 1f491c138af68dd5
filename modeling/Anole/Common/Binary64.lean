import Mathlib.Algebra.Order.Field.Power
import Mathlib.Data.Int.Log
import Mathlib.Data.Rat.Floor
import Mathlib.Tactic.FieldSimp
import Mathlib.Tactic.Linarith
import Mathlib.Tactic.Positivity
import Mathlib.Tactic.Ring

/-!
# Rounding to 53 binary digits

`round53 q` is the number of 53 binary digits nearest to `q`, ties to even: what `f64` makes of a
number that is neither negative nor outside the range of its exponents.

Results:
* `round53_of_digits`: a number of 53 digits is its own rounding.
* `round53_mono`: rounding is monotone.
* `half_le_ratio_iff`: a ratio computed in `f64` is at least one half exactly when it is, when the
  numerator is at most `2 ^ 51`.
-/

namespace Common

/-- The nearest whole number, halves to the even one. -/
def roundHalfEven (x : ℚ) : ℤ :=
  if x - ⌊x⌋ < 1 / 2 then ⌊x⌋
  else if 1 / 2 < x - ⌊x⌋ then ⌊x⌋ + 1
  else if ⌊x⌋ % 2 = 0 then ⌊x⌋ else ⌊x⌋ + 1

/-- The distance between numbers of 53 digits, at `q`. -/
def ulp (q : ℚ) : ℚ := 2 ^ (Int.log 2 q - 52)

/-- The nearest number of 53 binary digits. -/
def round53 (q : ℚ) : ℚ := ulp q * roundHalfEven (q / ulp q)

/-! ## Whole numbers -/

theorem roundHalfEven_bounds (x : ℚ) : ⌊x⌋ ≤ roundHalfEven x ∧ roundHalfEven x ≤ ⌊x⌋ + 1 := by
  unfold roundHalfEven
  split_ifs <;> omega

@[simp] theorem roundHalfEven_intCast (n : ℤ) : roundHalfEven n = n := by
  unfold roundHalfEven
  rw [Int.floor_intCast, sub_self, if_pos (by norm_num)]

theorem roundHalfEven_mono {x y : ℚ} (h : x ≤ y) : roundHalfEven x ≤ roundHalfEven y := by
  rcases (Int.floor_le_floor h).lt_or_eq with hlt | heq
  · have hx := (roundHalfEven_bounds x).2
    have hy := (roundHalfEven_bounds y).1
    omega
  · unfold roundHalfEven
    rw [heq]
    split_ifs <;> first | omega | linarith

/-! ## 53 digits -/

theorem ulp_pos (q : ℚ) : 0 < ulp q := zpow_pos (by norm_num) _

theorem ulp_mul_two_pow (q : ℚ) (n : ℕ) : ulp q * ((2 ^ n : ℤ) : ℚ) = 2 ^ (Int.log 2 q - 52 + n) := by
  rw [ulp, Int.cast_pow, Int.cast_ofNat, ← zpow_natCast, ← zpow_add₀ (by norm_num)]

@[simp] theorem round53_zero : round53 0 = 0 := by
  have hround := roundHalfEven_intCast 0
  rw [Int.cast_zero] at hround
  rw [round53, zero_div, hround, Int.cast_zero, mul_zero]

/-- A number of 53 digits is its own rounding. -/
theorem round53_of_digits {q : ℚ} (m : ℕ) (k : ℤ) (hm : m < 2 ^ 53) (hq : q = m * 2 ^ k) : round53 q = q := by
  rcases Nat.eq_zero_or_pos m with rfl | hpos
  · rw [hq]
    simp
  have htwo : (0 : ℚ) < 2 ^ k := zpow_pos (by norm_num) _
  have hqpos : 0 < q := by
    rw [hq]
    exact mul_pos (by exact_mod_cast hpos) htwo
  have hlt : q < ((2 : ℕ) : ℚ) ^ (k + 53) := by
    rw [hq, zpow_add₀ (by norm_num), mul_comm]
    have : (m : ℚ) < 2 ^ (53 : ℤ) := by exact_mod_cast hm
    exact mul_lt_mul_of_pos_left this htwo
  have hlog : Int.log 2 q < k + 53 := (Int.lt_zpow_iff_log_lt (by norm_num) hqpos).mp hlt
  -- the quotient by the unit is whole
  obtain ⟨n, hn⟩ : ∃ n : ℕ, k - (Int.log 2 q - 52) = n := Int.eq_ofNat_of_zero_le (by omega)
  have hquotient : q / ulp q = ((m * 2 ^ n : ℤ) : ℚ) := by
    rw [ulp, hq, mul_div_assoc, ← zpow_sub₀ (by norm_num), ← hq, hn]
    push_cast
    rw [zpow_natCast]
  rw [round53, hquotient, roundHalfEven_intCast, ← hquotient, mul_div_cancel₀ _ (ulp_pos q).ne']

theorem round53_natCast {n : ℕ} (h : n ≤ 2 ^ 53) : round53 n = n := by
  rcases h.lt_or_eq with hlt | heq
  · exact round53_of_digits n 0 hlt (by simp)
  · exact round53_of_digits 1 53 (by norm_num) (by rw [heq]; norm_num)

/-- The rounding stays between the powers of two around a number. -/
theorem round53_binade {q : ℚ} (h : 0 < q) :
    (2 : ℚ) ^ Int.log 2 q ≤ round53 q ∧ round53 q ≤ 2 ^ (Int.log 2 q + 1) := by
  have hpos := ulp_pos q
  have hlow : ulp q * ((2 ^ 52 : ℤ) : ℚ) = 2 ^ Int.log 2 q := by
    rw [ulp_mul_two_pow]
    congr 1
    omega
  have hhigh : ulp q * ((2 ^ 53 : ℤ) : ℚ) = 2 ^ (Int.log 2 q + 1) := by
    rw [ulp_mul_two_pow]
    congr 1
    omega
  have hlower : ((2 ^ 52 : ℤ) : ℚ) ≤ q / ulp q := by
    rw [le_div_iff₀ hpos, mul_comm, hlow]
    exact_mod_cast Int.zpow_log_le_self (b := 2) (by norm_num) h
  have hupper : q / ulp q ≤ ((2 ^ 53 : ℤ) : ℚ) := by
    rw [div_le_iff₀ hpos, mul_comm, hhigh]
    exact_mod_cast (Int.lt_zpow_succ_log_self (b := 2) (by norm_num) q).le
  have hlowerRound := roundHalfEven_mono hlower
  have hupperRound := roundHalfEven_mono hupper
  rw [roundHalfEven_intCast] at hlowerRound hupperRound
  rw [← hlow, ← hhigh, round53]
  exact ⟨mul_le_mul_of_nonneg_left (Int.cast_le.mpr hlowerRound) hpos.le,
    mul_le_mul_of_nonneg_left (Int.cast_le.mpr hupperRound) hpos.le⟩

theorem round53_mono {p q : ℚ} (hp : 0 ≤ p) (h : p ≤ q) : round53 p ≤ round53 q := by
  rcases hp.lt_or_eq with hpos | rfl
  · have hqpos := hpos.trans_le h
    rcases (Int.log_mono_right (b := 2) hpos h).lt_or_eq with hlt | heq
    · calc round53 p ≤ 2 ^ (Int.log 2 p + 1) := (round53_binade hpos).2
        _ ≤ 2 ^ Int.log 2 q := zpow_le_zpow_right₀ (by norm_num) hlt
        _ ≤ round53 q := (round53_binade hqpos).1
    · have hulp : ulp p = ulp q := by rw [ulp, ulp, heq]
      rw [round53, round53, hulp]
      apply mul_le_mul_of_nonneg_left _ (ulp_pos q).le
      exact_mod_cast roundHalfEven_mono (div_le_div_of_nonneg_right h (ulp_pos q).le)
  · rw [round53_zero]
    rcases h.lt_or_eq with hqpos | rfl
    · exact (zpow_pos (by norm_num) _).le.trans (round53_binade hqpos).1
    · rw [round53_zero]

/-! ## Ratios -/

/-- A ratio below one half stays below it. -/
theorem round53_lt_half {e i : ℕ} (hi : i ≤ 2 ^ 53) (h : 2 * e < i) : round53 (e / i) < 1 / 2 := by
  have hipos : (0 : ℚ) < i := by
    have : 0 < i := by omega
    exact_mod_cast this
  -- the greatest number of 53 digits below one half
  have hle : (e / i : ℚ) ≤ (2 ^ 53 - 1 : ℕ) * 2 ^ (-54 : ℤ) := by
    rw [div_le_iff₀ hipos]
    have hnat : e * 2 ^ 54 ≤ (2 ^ 53 - 1) * i := by omega
    have hcast : (e : ℚ) * 2 ^ 54 ≤ ((2 ^ 53 - 1 : ℕ) : ℚ) * i := by exact_mod_cast hnat
    norm_num at hcast ⊢
    linarith
  have hround := round53_mono (by positivity) hle
  rw [round53_of_digits (2 ^ 53 - 1) (-54) (by norm_num) rfl] at hround
  refine hround.trans_lt ?_
  norm_num

theorem half_le_ratio_iff {e i : ℕ} (he : e ≤ 2 ^ 51) (hi : 0 < i) :
    1 / 2 ≤ round53 (round53 e / round53 i) ↔ i ≤ 2 * e := by
  rw [round53_natCast (by omega)]
  rcases Nat.lt_or_ge (2 ^ 53) i with hlarge | hsmall
  · -- a ratio of at most a quarter
    refine iff_of_false ?_ (by omega)
    have hround : (2 : ℚ) ^ 53 ≤ round53 i := by
      have hmono : round53 ((2 ^ 53 : ℕ) : ℚ) ≤ round53 i := round53_mono (by positivity) (by exact_mod_cast hlarge.le)
      rw [round53_natCast le_rfl] at hmono
      exact_mod_cast hmono
    have hquarter : (e / round53 i : ℚ) ≤ 1 * 2 ^ (-2 : ℤ) := by
      rw [div_le_iff₀ (by linarith)]
      have he' : (e : ℚ) ≤ 2 ^ 51 := by exact_mod_cast he
      have hpower : (1 : ℚ) * 2 ^ (-2 : ℤ) = 1 / 4 := by norm_num
      rw [hpower]
      linarith
    have hmono := round53_mono (div_nonneg (by positivity) (by linarith)) hquarter
    rw [round53_of_digits (q := 1 * 2 ^ (-2 : ℤ)) 1 (-2) (by norm_num) (by rw [Nat.cast_one])] at hmono
    refine not_le.mpr (hmono.trans_lt ?_)
    norm_num
  · rw [round53_natCast hsmall]
    constructor
    · intro h
      by_contra hlt
      exact absurd h (not_le.mpr (round53_lt_half hsmall (by omega)))
    · intro h
      have hipos : (0 : ℚ) < i := by exact_mod_cast hi
      have hhalf : (1 / 2 : ℚ) ≤ e / i := by
        rw [le_div_iff₀ hipos]
        have : (i : ℚ) ≤ 2 * e := by exact_mod_cast h
        linarith
      have hmono := round53_mono (by norm_num) hhalf
      rwa [round53_of_digits 1 (-1) (by norm_num) (by norm_num)] at hmono

end Common
