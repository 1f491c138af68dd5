import Mathlib.Algebra.Order.Ring.Int
import Mathlib.Order.Nat
import Mathlib.Tactic.Common

/-!
# The Gregorian calendar

The proleptic Gregorian calendar: its dates, their order, the date after a date, and the count of the days.
Day 0 is the 1st of January of the year 1, a Monday.

Results:
* `Date.dayNumber_next`, `Date.weekday_next`: the count and the weekday go on by one from a date to the next.
* `Date.dayNumber_lt_iff`, `Date.dayNumber_injective`: the count orders the dates, and tells them apart.
* `Moment.not_before`: a later second of the universal time is on no earlier date.
-/

namespace Common

/-- Every fourth year, of the centuries every fourth. -/
def IsLeap (year : ℤ) : Prop := year % 4 = 0 ∧ (year % 100 ≠ 0 ∨ year % 400 = 0)

instance (year : ℤ) : Decidable (IsLeap year) := inferInstanceAs (Decidable (_ ∧ _))

def monthLength (year : ℤ) (month : ℕ) : ℕ :=
  if month = 2 then if IsLeap year then 29 else 28
  else if month = 4 ∨ month = 6 ∨ month = 9 ∨ month = 11 then 30 else 31

/-- A date that the calendar has. -/
@[ext] structure Date where
  year : ℤ
  month : ℕ
  day : ℕ
  one_le_month : 1 ≤ month
  month_le : month ≤ 12
  one_le_day : 1 ≤ day
  day_le : day ≤ monthLength year month

/-- The days from the year 1 to the beginning of a year. -/
def daysBeforeYear (year : ℤ) : ℤ := 365 * (year - 1) + (year - 1) / 4 - (year - 1) / 100 + (year - 1) / 400

/-- The days of a year in front of a month. -/
def daysBeforeMonth (year : ℤ) : ℕ → ℕ
  | 0 => 0
  | 1 => 0
  | month + 2 => daysBeforeMonth year (month + 1) + monthLength year (month + 1)

theorem daysBeforeYear_succ (year : ℤ) :
    daysBeforeYear (year + 1) = daysBeforeYear year + if IsLeap year then 366 else 365 := by
  unfold daysBeforeYear IsLeap
  split_ifs <;> omega

theorem one_le_monthLength (year : ℤ) (month : ℕ) : 1 ≤ monthLength year month := by
  unfold monthLength
  split_ifs <;> omega

theorem daysBeforeYear_mono {year later : ℤ} (h : year ≤ later) : daysBeforeYear year ≤ daysBeforeYear later := by
  unfold daysBeforeYear
  omega

/-! ## Months -/

theorem daysBeforeMonth_succ (year : ℤ) {month : ℕ} (h : 1 ≤ month) :
    daysBeforeMonth year (month + 1) = daysBeforeMonth year month + monthLength year month := by
  obtain ⟨k, rfl⟩ := Nat.exists_eq_add_of_le' h
  rfl

/-- Two months of a year do not overlap. -/
theorem daysBeforeMonth_add_le (year : ℤ) {month later : ℕ} (h1 : 1 ≤ month) (h : month < later) :
    daysBeforeMonth year month + monthLength year month ≤ daysBeforeMonth year later := by
  induction later, h using Nat.le_induction with
  | base => rw [daysBeforeMonth_succ year h1]
  | succ later hlater ih =>
    rw [daysBeforeMonth_succ year (by omega)]
    omega

theorem daysBeforeMonth_twelve (year : ℤ) :
    daysBeforeMonth year 12 + monthLength year 12 = if IsLeap year then 366 else 365 := by
  by_cases h : IsLeap year <;> simp [daysBeforeMonth, monthLength, h]

/-! ## Dates -/

theorem one_le_twelve : 1 ≤ 12 := by decide

namespace Date

variable (d e : Date)

/-- The days from day 0 to a date. -/
def dayNumber : ℤ := daysBeforeYear d.year + daysBeforeMonth d.year d.month + d.day - 1

/-- An earlier date. -/
def Before : Prop :=
  d.year < e.year ∨ d.year = e.year ∧ (d.month < e.month ∨ d.month = e.month ∧ d.day < e.day)

/-- The date after a date. -/
def next : Date :=
  if hday : d.day < monthLength d.year d.month then
    ⟨d.year, d.month, d.day + 1, d.one_le_month, d.month_le, Nat.le_add_left 1 _, hday⟩
  else if hmonth : d.month < 12 then
    ⟨d.year, d.month + 1, 1, Nat.le_add_left 1 _, hmonth, le_rfl, one_le_monthLength _ _⟩
  else ⟨d.year + 1, 1, 1, le_rfl, one_le_twelve, le_rfl, one_le_monthLength _ _⟩

theorem daysBeforeMonth_add_day_le :
    daysBeforeMonth d.year d.month + d.day ≤ if IsLeap d.year then 366 else 365 := by
  have hday := d.day_le
  rcases Nat.lt_or_ge d.month 12 with h | h
  · have hlater := daysBeforeMonth_add_le d.year d.one_le_month h
    have htwelve := daysBeforeMonth_twelve d.year
    omega
  · have hmonth : d.month = 12 := le_antisymm d.month_le h
    rw [← daysBeforeMonth_twelve, ← hmonth]
    omega

theorem dayNumber_next : d.next.dayNumber = d.dayNumber + 1 := by
  have hday := d.day_le
  have hmonth := d.month_le
  unfold next
  split_ifs with h h'
  · simp only [dayNumber]
    omega
  · have hlength : d.day = monthLength d.year d.month := by omega
    simp only [dayNumber, daysBeforeMonth_succ d.year d.one_le_month]
    omega
  · have htwelve : d.month = 12 := by omega
    have hlength : d.day = monthLength d.year 12 := by rw [htwelve] at h hday; omega
    have hyear := daysBeforeMonth_twelve d.year
    have hfirst : daysBeforeMonth (d.year + 1) 1 = 0 := rfl
    simp only [dayNumber, daysBeforeYear_succ, hfirst, htwelve, hlength]
    split_ifs at hyear ⊢ <;> omega

theorem dayNumber_lt {d e : Date} (h : d.Before e) : d.dayNumber < e.dayNumber := by
  have hd := d.daysBeforeMonth_add_day_le
  have hone := e.one_le_day
  unfold dayNumber
  rcases h with h | ⟨hyear, h | ⟨hmonth, h⟩⟩
  · have hsucc := daysBeforeYear_succ d.year
    have hmono := daysBeforeYear_mono (show d.year + 1 ≤ e.year from h)
    split_ifs at hd hsucc <;> omega
  · have hmonths := daysBeforeMonth_add_le d.year d.one_le_month h
    have hday := d.day_le
    rw [← hyear]
    omega
  · rw [hyear, hmonth]
    omega

theorem before_trichotomy : d.Before e ∨ d = e ∨ e.Before d := by
  rcases lt_trichotomy d.year e.year with hy | hy | hy
  · exact .inl (.inl hy)
  · rcases lt_trichotomy d.month e.month with hm | hm | hm
    · exact .inl (.inr ⟨hy, .inl hm⟩)
    · rcases lt_trichotomy d.day e.day with hd | hd | hd
      · exact .inl (.inr ⟨hy, .inr ⟨hm, hd⟩⟩)
      · exact .inr (.inl (Date.ext hy hm hd))
      · exact .inr (.inr (.inr ⟨hy.symm, .inr ⟨hm.symm, hd⟩⟩))
    · exact .inr (.inr (.inr ⟨hy.symm, .inl hm⟩))
  · exact .inr (.inr (.inl hy))

variable {d e}

theorem dayNumber_lt_iff : d.dayNumber < e.dayNumber ↔ d.Before e := by
  refine ⟨fun h => ?_, dayNumber_lt⟩
  rcases d.before_trichotomy e with hbefore | rfl | hafter
  · exact hbefore
  · omega
  · have := dayNumber_lt hafter
    omega

theorem dayNumber_injective (h : d.dayNumber = e.dayNumber) : d = e := by
  rcases d.before_trichotomy e with hbefore | heq | hafter
  · have := dayNumber_lt hbefore
    omega
  · exact heq
  · have := dayNumber_lt hafter
    omega

end Date

/-! ## Days of the week -/

inductive Weekday where
  | monday | tuesday | wednesday | thursday | friday | saturday | sunday
  deriving DecidableEq

def Weekday.next : Weekday → Weekday
  | monday => tuesday
  | tuesday => wednesday
  | wednesday => thursday
  | thursday => friday
  | friday => saturday
  | saturday => sunday
  | sunday => monday

/-- The day of the week of a day. -/
def weekdayOf (dayNumber : ℤ) : Weekday :=
  if dayNumber % 7 = 0 then .monday else if dayNumber % 7 = 1 then .tuesday
  else if dayNumber % 7 = 2 then .wednesday else if dayNumber % 7 = 3 then .thursday
  else if dayNumber % 7 = 4 then .friday else if dayNumber % 7 = 5 then .saturday else .sunday

def Date.weekday (d : Date) : Weekday := weekdayOf d.dayNumber

theorem weekdayOf_succ (n : ℤ) : weekdayOf (n + 1) = (weekdayOf n).next := by
  unfold weekdayOf
  have h : n % 7 = 0 ∨ n % 7 = 1 ∨ n % 7 = 2 ∨ n % 7 = 3 ∨ n % 7 = 4 ∨ n % 7 = 5 ∨ n % 7 = 6 := by omega
  rcases h with h | h | h | h | h | h | h <;> simp [h, Int.add_emod, Weekday.next]

theorem Date.weekday_next (d : Date) : d.next.weekday = d.weekday.next := by
  rw [weekday, d.dayNumber_next, weekdayOf_succ, weekday]

/-! ## Moments -/

/-- A second of the universal time. -/
@[ext] structure Moment where
  date : Date
  hour : ℕ
  minute : ℕ
  second : ℕ
  hour_lt : hour < 24
  minute_lt : minute < 60
  second_lt : second < 60

namespace Moment

/-- The seconds from the beginning of day 0. -/
def seconds (t : Moment) : ℤ := 86400 * t.date.dayNumber + 3600 * t.hour + 60 * t.minute + t.second

variable {t u : Moment}

theorem seconds_div (t : Moment) : t.seconds / 86400 = t.date.dayNumber := by
  have h1 := t.hour_lt
  have h2 := t.minute_lt
  have h3 := t.second_lt
  unfold seconds
  omega

theorem not_before (h : t.seconds ≤ u.seconds) : ¬ u.date.Before t.date := by
  rw [← Date.dayNumber_lt_iff, ← seconds_div, ← seconds_div]
  omega

theorem seconds_injective (h : t.seconds = u.seconds) : t = u := by
  have hdate : t.date = u.date := Date.dayNumber_injective (by rw [← seconds_div, h, seconds_div])
  have h1 := t.minute_lt
  have h2 := t.second_lt
  have h3 := u.minute_lt
  have h4 := u.second_lt
  unfold seconds at h
  rw [hdate] at h
  exact Moment.ext hdate (by omega) (by omega) (by omega)

end Moment

end Common
