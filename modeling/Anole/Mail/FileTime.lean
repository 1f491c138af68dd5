import Anole.Common.Calendar
import Anole.Mail.MsgMessage
import Mathlib.Tactic.IntervalCases

/-!
# Dates of synthesized messages

Model of `filetime_to_rfc2822` and `civil_from_days` (`crates/core/src/msg.rs`, lines 458–502), with the range of
each operation on machine integers and of each index.

A `FILETIME` counts the tenths of a microsecond from the 1st of January 1601. The calendar runs in eras of 400
years, and in years that begin in March, so that a leap day is the last day of its year.

Results:
* `yearOfEra_spec`: the year of an era, for each of its days.
* `civilFromDays_eq`: the date of a day, for every day that is far enough from the ends of an `i64`.
* `dates_exact`: a date is written for the instants from 1970 on, and it is the date and the time of the instant.
-/

open Common Anole.Common

namespace Anole.FileTime

/-! ## The calendar -/

/-- The values of an `i64`. -/
def InI64 (x : ℤ) : Prop := -9223372036854775808 ≤ x ∧ x ≤ 9223372036854775807

instance (x : ℤ) : Decidable (InI64 x) := inferInstanceAs (Decidable (_ ∧ _))

def era (z : ℤ) : ℤ := (if 0 ≤ z then z else z - 146096).tdiv 146097

/-- `doe`. -/
def dayOfEra (z : ℤ) : ℤ := z - era z * 146097

/-- The days of an era but for the leap days in front of a day. -/
def plainDays (doe : ℤ) : ℤ := doe - doe.tdiv 1460 + doe.tdiv 36524 - doe.tdiv 146096

/-- `yoe`. -/
def yearOfEra (doe : ℤ) : ℤ := (plainDays doe).tdiv 365

/-- The days of an era in front of a year. -/
def yearStart (yoe : ℤ) : ℤ := 365 * yoe + yoe.tdiv 4 - yoe.tdiv 100

/-- `doy`. -/
def dayOfYear (doe : ℤ) : ℤ := doe - yearStart (yearOfEra doe)

/-- `mp`, a month from March on. -/
def monthFromMarch (doy : ℤ) : ℤ := (5 * doy + 2).tdiv 153

/-- What the additions, the subtractions and the multiplications of `civil_from_days` give. -/
def civilSteps (days : ℤ) : List ℤ :=
  let z := days + 719468
  let doe := dayOfEra z
  let yoe := yearOfEra doe
  let year := yoe + era z * 400
  let doy := dayOfYear doe
  let mp := monthFromMarch doy
  [z, if 0 ≤ z then z else z - 146096, era z * 146097, doe, doe - doe.tdiv 1460,
    doe - doe.tdiv 1460 + doe.tdiv 36524, plainDays doe, era z * 400, year, 365 * yoe, 365 * yoe + yoe.tdiv 4,
    yearStart yoe, doy, 5 * doy, 5 * doy + 2, 153 * mp, 153 * mp + 2, doy - (153 * mp + 2).tdiv 5,
    doy - (153 * mp + 2).tdiv 5 + 1, if mp < 10 then mp + 3 else mp - 9, year + 1]

/-- `u32::try_from(value).unwrap_or(1)`. -/
def u32OrOne (value : ℤ) : ℕ := if 0 ≤ value ∧ value < 4294967296 then value.toNat else 1

/-- `civil_from_days` (lines 487–502); nothing where the arithmetic overflows. -/
def civilFromDays (days : ℤ) : Option (ℤ × ℕ × ℕ) :=
  if ∀ x ∈ civilSteps days, InI64 x then
    let z := days + 719468
    let doe := dayOfEra z
    let year := yearOfEra doe + era z * 400
    let doy := dayOfYear doe
    let mp := monthFromMarch doy
    let day := u32OrOne (doy - (153 * mp + 2).tdiv 5 + 1)
    let month := u32OrOne (if mp < 10 then mp + 3 else mp - 9)
    some (if month ≤ 2 then year + 1 else year, month, day)
  else none

/-- `filetime_to_rfc2822` from the seconds since 1970 on; nothing where an index is out of range. -/
def secondsToRfc2822 (seconds : ℕ) : Option (Option (List Char)) :=
  let days := seconds / 86400
  let time := seconds % 86400
  if ¬ InI64 days then some none
  else do
    let date ← civilFromDays days
    let weekday ← Msg.weekdays[days % 7]?
    let month ← if date.2.1 = 0 then none else Msg.months[date.2.1 - 1]?
    return some (weekday ++ ", " ++ Msg.twoDigits date.2.2 ++ " " ++ month ++ " " ++ toString date.1 ++ " " ++
      Msg.twoDigits (time / 3600) ++ ":" ++ Msg.twoDigits (time % 3600 / 60) ++ ":" ++ Msg.twoDigits (time % 60) ++
      " +0000").toList

/-- `filetime_to_rfc2822` (lines 460–484). -/
def filetimeToRfc2822 (filetime : ℕ) : Option (Option (List Char)) :=
  if filetime / 10000000 < Msg.epochDelta then some none
  else secondsToRfc2822 (filetime / 10000000 - Msg.epochDelta)

/-! ## Years of an era -/

theorem era_eq (z : ℤ) : era z = z / 146097 := by
  unfold era
  split_ifs with h
  · exact Int.tdiv_eq_ediv_of_nonneg h
  · rw [show z - 146096 = -(146096 - z) by omega, Int.neg_tdiv, Int.tdiv_eq_ediv_of_nonneg (by omega)]
    omega

theorem dayOfEra_eq (z : ℤ) : dayOfEra z = z % 146097 := by
  rw [dayOfEra, era_eq]
  omega

theorem yearStart_eq {yoe : ℤ} (h : 0 ≤ yoe) : yearStart yoe = 365 * yoe + yoe / 4 - yoe / 100 := by
  rw [yearStart, Int.tdiv_eq_ediv_of_nonneg h, Int.tdiv_eq_ediv_of_nonneg h]

theorem plainDays_eq {doe : ℤ} (h : 0 ≤ doe) :
    plainDays doe = doe - doe / 1460 + doe / 36524 - doe / 146096 := by
  rw [plainDays, Int.tdiv_eq_ediv_of_nonneg h, Int.tdiv_eq_ediv_of_nonneg h, Int.tdiv_eq_ediv_of_nonneg h]

theorem plainDays_mono {a b : ℤ} (ha : 0 ≤ a) (h : a ≤ b) (hb : b < 146097) : plainDays a ≤ plainDays b := by
  rw [plainDays_eq ha, plainDays_eq (ha.trans h)]
  omega

/-- The last day of a year that begins in March is a leap day in the year before a leap year. -/
def lastDay (yoe : ℤ) : ℤ := if IsLeap (yoe + 1) then 365 else 364

/-- The first and the last day of each year. -/
theorem plainDays_table : ∀ yoe < 400, 365 * (yoe : ℕ) ≤ plainDays (yearStart yoe) ∧
    plainDays (yearStart yoe + lastDay yoe) < 365 * ((yoe : ℤ) + 1) := by
  decide +kernel

theorem yearStart_zero : yearStart 0 = 0 := rfl

theorem lastDay_bounds (yoe : ℤ) : 364 ≤ lastDay yoe ∧ lastDay yoe ≤ 365 := by
  unfold lastDay
  split_ifs <;> omega

/-- The years of an era follow one another. -/
theorem yearStart_succ (yoe : ℤ) (h0 : 0 ≤ yoe) (h1 : yoe < 399) :
    yearStart (yoe + 1) = yearStart yoe + lastDay yoe + 1 := by
  rw [yearStart_eq h0, yearStart_eq (by omega)]
  unfold lastDay IsLeap
  split_ifs <;> omega

theorem yearStart_nonneg (yoe : ℤ) (h : 0 ≤ yoe) : 0 ≤ yearStart yoe := by
  rw [yearStart_eq h]
  omega

theorem yearStart_last : yearStart 399 + lastDay 399 = 146096 := by decide

/-- The estimate of the year grows with the day, and is right on the first and on the last day of each year. -/
theorem yearOfEra_spec (doe : ℤ) (h0 : 0 ≤ doe) (h1 : doe < 146097) :
    0 ≤ yearOfEra doe ∧ yearOfEra doe < 400 ∧ 0 ≤ dayOfYear doe ∧ dayOfYear doe ≤ lastDay (yearOfEra doe) := by
  have hplain := plainDays_eq h0
  have hyear : yearOfEra doe = plainDays doe / 365 := Int.tdiv_eq_ediv_of_nonneg (by omega)
  have hlow : 0 ≤ yearOfEra doe := by omega
  have hhigh : yearOfEra doe < 400 := by omega
  unfold dayOfYear
  generalize yearOfEra doe = yoe at *
  refine ⟨hlow, hhigh, ?_, ?_⟩
  · -- A day before the year is at most the last day of the year before it.
    by_contra hneg
    rcases eq_or_lt_of_le hlow with rfl | hpos
    · rw [yearStart_zero] at hneg
      omega
    · obtain ⟨n, rfl⟩ : ∃ n : ℕ, yoe = n + 1 := ⟨(yoe - 1).toNat, by omega⟩
      have hsucc := yearStart_succ n (by omega) (by omega)
      have hlast := lastDay_bounds n
      have hstart := yearStart_nonneg n (by omega)
      have hmono := plainDays_mono h0 (b := yearStart n + lastDay n) (by omega) (by
        rw [yearStart_eq (by omega)]
        omega)
      have htable := (plainDays_table n (by omega)).2
      omega
  · -- A day behind the year is at least the first day of the year after it.
    by_contra hlate
    obtain ⟨n, rfl⟩ : ∃ n : ℕ, yoe = n := ⟨yoe.toNat, by omega⟩
    rcases Nat.lt_or_ge n 399 with hn | hn
    · have hsucc := yearStart_succ n (by omega) (by omega)
      have hstart := yearStart_nonneg (n + 1) (by omega)
      have hmono := plainDays_mono hstart (b := doe) (by omega) h1
      have htable := (plainDays_table (n + 1) (by omega)).1
      push_cast at htable
      omega
    · have hlast : n = 399 := by omega
      subst hlast
      have hend := yearStart_last
      push_cast at hlate
      omega

/-! ## Months -/

theorem months_from_march (year : ℤ) : ∀ mp < 10,
    (153 * (mp + 1) + 2) / 5 = (153 * mp + 2) / 5 + monthLength year (mp + 3) ∧
    daysBeforeMonth year (mp + 3) = daysBeforeMonth year 3 + (153 * mp + 2) / 5 := by
  intro mp h
  induction mp with
  | zero => exact ⟨rfl, rfl⟩
  | succ mp ih =>
    obtain ⟨hnext, hbefore⟩ := ih (by omega)
    refine ⟨?_, ?_⟩
    · have hmp : mp < 9 := by omega
      interval_cases mp <;> rfl
    · rw [daysBeforeMonth_succ year (by omega), hbefore, hnext]
      omega

theorem daysBeforeMarch (year : ℤ) :
    (daysBeforeMonth year 3 : ℤ) = daysBeforeYear (year + 1) - daysBeforeYear year - 306 := by
  rw [daysBeforeYear_succ]
  show ((0 + monthLength year 1 + monthLength year 2 : ℕ) : ℤ) = _
  unfold monthLength
  split_ifs <;> omega

theorem u32OrOne_eq {value : ℤ} (h : 0 ≤ value) (h' : value < 4294967296) : u32OrOne value = value.toNat :=
  if_pos ⟨h, h'⟩

theorem u32OrOne_natCast {n : ℕ} (h : n < 4294967296) : u32OrOne n = n := by
  rw [u32OrOne_eq (by omega) (by omega), Int.toNat_natCast]

theorem exists_date {year doy : ℤ} (h0 : 0 ≤ doy) (h1 : doy ≤ lastDay year) :
    ∃ date : Date, date.dayNumber = daysBeforeYear (year + 1) + doy - 306 ∧
      date.day = u32OrOne (doy - (153 * monthFromMarch doy + 2).tdiv 5 + 1) ∧
      date.month = u32OrOne (if monthFromMarch doy < 10 then monthFromMarch doy + 3 else monthFromMarch doy - 9) ∧
      date.year = if date.month ≤ 2 then year + 1 else year := by
  have hlast := lastDay_bounds year
  have hmp : monthFromMarch doy = (5 * doy + 2) / 153 := Int.tdiv_eq_ediv_of_nonneg (by omega)
  obtain ⟨mp, hn⟩ : ∃ mp : ℕ, monthFromMarch doy = mp := ⟨(monthFromMarch doy).toNat, by omega⟩
  rw [hn] at hmp ⊢
  rw [Int.tdiv_eq_ediv_of_nonneg (by omega)]
  obtain ⟨day, hday⟩ : ∃ day : ℕ, doy - (153 * mp + 2) / 5 + 1 = day := ⟨(doy - (153 * mp + 2) / 5 + 1).toNat, by omega⟩
  rw [hday, u32OrOne_natCast (by omega)]
  rcases Nat.lt_or_ge mp 10 with h | h
  · obtain ⟨hlength, hbefore⟩ := months_from_march year mp h
    have hmarch := daysBeforeMarch year
    have hend : doy + 1 ≤ ((153 * (mp + 1) + 2) / 5 : ℕ) := by omega
    refine ⟨⟨year, mp + 3, day, by omega, by omega, by omega, by omega⟩, ?_, rfl, ?_, ?_⟩
    · show daysBeforeYear year + daysBeforeMonth year (mp + 3) + day - 1 = _
      omega
    · rw [if_pos (by omega)]
      exact (u32OrOne_natCast (n := mp + 3) (by omega)).symm
    · exact (if_neg (by show ¬ mp + 3 ≤ 2; omega)).symm
  · have hfeb : monthLength (year + 1) 2 = lastDay year - 336 := by
      unfold monthLength lastDay
      split_ifs <;> omega
    have hmonth : mp = 10 ∨ mp = 11 := by omega
    have hjan : daysBeforeMonth (year + 1) 1 = 0 ∧ daysBeforeMonth (year + 1) 2 = 31 ∧ monthLength (year + 1) 1 = 31 :=
      ⟨rfl, rfl, rfl⟩
    refine ⟨⟨year + 1, mp - 9, day, by omega, by omega, by omega, ?_⟩, ?_, rfl, ?_, ?_⟩
    · rcases hmonth with rfl | rfl <;> simp only [Nat.reduceSub] <;> omega
    · unfold Date.dayNumber
      rcases hmonth with rfl | rfl <;> simp only [Nat.reduceSub] <;> omega
    · rw [if_neg (by omega), show (mp : ℤ) - 9 = (mp - 9 : ℕ) by omega]
      exact (u32OrOne_natCast (n := mp - 9) (by omega)).symm
    · exact (if_pos (by show mp - 9 ≤ 2; omega)).symm

/-! ## Days -/

/-- The 1st of January 1970. -/
def unixDate : Date := ⟨1970, 1, 1, Nat.one_pos, one_le_twelve, Nat.one_pos, by decide⟩

/-- The days that `civil_from_days` is right for: the shift to the eras overflows for no others. -/
def Countable (days : ℤ) : Prop := InI64 (days + 719468) ∧ InI64 (days + 719468 - 146096)

theorem civilSteps_inRange {days : ℤ} (h : Countable days) : ∀ x ∈ civilSteps days, InI64 x := by
  obtain ⟨hz, hshift⟩ := h
  have hera := era_eq (days + 719468)
  have hdoe := dayOfEra_eq (days + 719468)
  unfold civilSteps
  generalize days + 719468 = z at *
  have hlow : 0 ≤ dayOfEra z := by omega
  have hhigh : dayOfEra z < 146097 := by omega
  obtain ⟨hy, hy', hd, hd'⟩ := yearOfEra_spec _ hlow hhigh
  have hstart := yearStart_eq hy
  have hplain := plainDays_eq hlow
  have hlast := lastDay_bounds (yearOfEra (dayOfEra z))
  have hmp : monthFromMarch (dayOfYear (dayOfEra z)) = (5 * dayOfYear (dayOfEra z) + 2) / 153 :=
    Int.tdiv_eq_ediv_of_nonneg (by omega)
  simp only [List.forall_mem_cons, Int.tdiv_eq_ediv_of_nonneg hlow, Int.tdiv_eq_ediv_of_nonneg hy]
  rw [Int.tdiv_eq_ediv_of_nonneg (by omega)]
  unfold InI64 at *
  refine ⟨?_, ?_, ?_, ?_, ?_, ?_, ?_, ?_, ?_, ?_, ?_, ?_, ?_, ?_, ?_, ?_, ?_, ?_, ?_, ?_, ?_, by simp⟩ <;> omega

theorem lastDay_period (yoe era : ℤ) : lastDay (yoe + era * 400) = lastDay yoe := by
  unfold lastDay IsLeap
  congr 1
  apply propext
  omega

theorem unixDate_dayNumber : unixDate.dayNumber = 719162 := by decide

theorem civilFromDays_eq {days : ℤ} (h : Countable days) :
    ∃ date : Date, date.dayNumber = unixDate.dayNumber + days ∧
      civilFromDays days = some (date.year, date.month, date.day) := by
  unfold civilFromDays
  rw [if_pos (civilSteps_inRange h), unixDate_dayNumber]
  have hera := era_eq (days + 719468)
  have hdoe := dayOfEra_eq (days + 719468)
  dsimp only
  generalize hz : days + 719468 = z at *
  obtain ⟨hy, hy', hd, hd'⟩ := yearOfEra_spec (dayOfEra z) (by omega) (by omega)
  have hstart := yearStart_eq hy
  obtain ⟨date, hnumber, hday, hmonth, hyear⟩ :=
    exists_date hd (show _ ≤ lastDay (yearOfEra (dayOfEra z) + era z * 400) by rwa [lastDay_period])
  refine ⟨date, ?_, ?_⟩
  · have hdoy : dayOfYear (dayOfEra z) = dayOfEra z - yearStart (yearOfEra (dayOfEra z)) := rfl
    have hbefore : daysBeforeYear (yearOfEra (dayOfEra z) + era z * 400 + 1) =
        146097 * era z + yearStart (yearOfEra (dayOfEra z)) := by
      unfold daysBeforeYear
      omega
    rw [hnumber, hbefore, hdoy]
    omega
  · rw [hyear, hday, hmonth]

theorem civilFromDays_dayNumber (date : Date) (h : Countable (date.dayNumber - unixDate.dayNumber)) :
    civilFromDays (date.dayNumber - unixDate.dayNumber) = some (date.year, date.month, date.day) := by
  obtain ⟨found, hnumber, hfound⟩ := civilFromDays_eq h
  rw [hfound, show found = date from Date.dayNumber_injective (by omega)]

/-! ## Texts -/

def weekdayName : Weekday → String
  | .monday => "Mon"
  | .tuesday => "Tue"
  | .wednesday => "Wed"
  | .thursday => "Thu"
  | .friday => "Fri"
  | .saturday => "Sat"
  | .sunday => "Sun"

def monthName : ℕ → String
  | 1 => "Jan"
  | 2 => "Feb"
  | 3 => "Mar"
  | 4 => "Apr"
  | 5 => "May"
  | 6 => "Jun"
  | 7 => "Jul"
  | 8 => "Aug"
  | 9 => "Sep"
  | 10 => "Oct"
  | 11 => "Nov"
  | _ => "Dec"

/-- A moment as a date field. -/
def dateText (t : Moment) : List Char :=
  (weekdayName t.date.weekday ++ ", " ++ Msg.twoDigits t.date.day ++ " " ++ monthName t.date.month ++ " " ++
    toString t.date.year ++ " " ++ Msg.twoDigits t.hour ++ ":" ++ Msg.twoDigits t.minute ++ ":" ++
    Msg.twoDigits t.second ++ " +0000").toList

/-- The beginning of a date. -/
def midnight (date : Date) : Moment := ⟨date, 0, 0, 0, by decide, by decide, by decide⟩

/-- The 1st of January 1601, where a `FILETIME` begins. -/
def fileTimeDate : Date := ⟨1601, 1, 1, Nat.one_pos, one_le_twelve, Nat.one_pos, by decide⟩

/-- The `FILETIME` of a moment. -/
def fileTime (t : Moment) : ℤ := 10000000 * (t.seconds - (midnight fileTimeDate).seconds)

/-- A `FILETIME` is in the second of a moment. -/
def Shows (filetime : ℕ) (t : Moment) : Prop := fileTime t ≤ filetime ∧ filetime < fileTime t + 10000000

theorem weekday_eq (days : ℕ) {date : Date} (h : date.dayNumber = unixDate.dayNumber + days) :
    Msg.weekdays[days % 7]? = some (weekdayName date.weekday) := by
  unfold Date.weekday weekdayOf
  rw [h, unixDate_dayNumber]
  have hday : days % 7 < 7 := Nat.mod_lt _ (by decide)
  generalize hn : days % 7 = n at *
  interval_cases n <;> split_ifs <;> first | rfl | omega

theorem month_eq (date : Date) : Msg.months[date.month - 1]? = some (monthName date.month) := by
  have h1 := date.one_le_month
  have h12 := date.month_le
  interval_cases date.month <;> rfl

/-! ## Instants -/

theorem fileTime_eq (t : Moment) : fileTime t = 10000000 * (t.seconds - 86400 * 584388) := by
  have h : (midnight fileTimeDate).seconds = 86400 * 584388 := by decide
  rw [fileTime, h]

theorem fileTime_unix : fileTime (midnight unixDate) = 10000000 * Msg.epochDelta := by
  have h : (midnight unixDate).seconds = 86400 * 719162 := by decide
  have hdelta : Msg.epochDelta = 11644473600 := rfl
  rw [fileTime_eq, h, hdelta]
  rfl

theorem countable_of_lt {days : ℕ} (h : days < 9000000000000000000) : Countable days := by
  unfold Countable InI64
  omega

variable {filetime : ℕ}

theorem filetimeToRfc2822_none (h : (filetime : ℤ) < fileTime (midnight unixDate)) :
    filetimeToRfc2822 filetime = some none := by
  rw [fileTime_unix] at h
  exact if_pos (by omega)

theorem secondsToRfc2822_eq {seconds : ℕ} {t : Moment} (hlt : seconds < 9000000000000000000)
    (h : t.seconds = 86400 * unixDate.dayNumber + seconds) : secondsToRfc2822 seconds = some (some (dateText t)) := by
  have hhour := t.hour_lt
  have hminute := t.minute_lt
  have hsecond := t.second_lt
  have hmonth := t.date.one_le_month
  have hnumber : t.date.dayNumber = unixDate.dayNumber + (seconds / 86400 : ℕ) := by
    rw [← t.seconds_div]
    omega
  have htime : seconds % 86400 = 3600 * t.hour + 60 * t.minute + t.second := by
    unfold Moment.seconds at h
    omega
  have hcount : Countable (seconds / 86400 : ℕ) := countable_of_lt (by omega)
  have hdate : civilFromDays (seconds / 86400 : ℕ) = some (t.date.year, t.date.month, t.date.day) := by
    rw [← civilFromDays_dayNumber t.date (by rw [hnumber, add_sub_cancel_left]; exact hcount), hnumber,
      add_sub_cancel_left]
  unfold secondsToRfc2822
  dsimp only
  rw [if_neg (by unfold InI64; omega), hdate]
  simp only [Option.bind_eq_bind, Option.bind_some]
  rw [weekday_eq _ hnumber, Option.bind_some, if_neg (by omega), month_eq, Option.bind_some, htime,
    show (3600 * t.hour + 60 * t.minute + t.second) / 3600 = t.hour by omega,
    show (3600 * t.hour + 60 * t.minute + t.second) % 3600 / 60 = t.minute by omega,
    show (3600 * t.hour + 60 * t.minute + t.second) % 60 = t.second by omega]
  rfl

theorem filetimeToRfc2822_some {t : Moment} (hlt : filetime < 18446744073709551616)
    (hsince : fileTime (midnight unixDate) ≤ filetime) (h : Shows filetime t) :
    filetimeToRfc2822 filetime = some (some (dateText t)) := by
  obtain ⟨hfirst, hlast⟩ := h
  rw [fileTime_unix] at hsince
  rw [fileTime_eq] at hfirst hlast
  have hticks : Msg.epochDelta ≤ filetime / 10000000 := by omega
  have hdelta : (Msg.epochDelta : ℤ) = 11644473600 := rfl
  unfold filetimeToRfc2822
  rw [if_neg (not_lt.mpr hticks)]
  refine secondsToRfc2822_eq (by omega) ?_
  rw [unixDate_dayNumber, Nat.cast_sub hticks, hdelta]
  omega

theorem exists_shows (hlt : filetime < 18446744073709551616)
    (hsince : fileTime (midnight unixDate) ≤ filetime) : ∃ t : Moment, Shows filetime t := by
  rw [fileTime_unix] at hsince
  have hdelta : Msg.epochDelta = 11644473600 := rfl
  let seconds := filetime / 10000000 - Msg.epochDelta
  have hcount : Countable (seconds / 86400 : ℕ) := countable_of_lt (by omega)
  obtain ⟨date, hnumber, -⟩ := civilFromDays_eq hcount
  refine ⟨⟨date, seconds % 86400 / 3600, seconds % 3600 / 60, seconds % 60, by omega, by omega, by omega⟩, ?_⟩
  rw [unixDate_dayNumber] at hnumber
  unfold Shows
  rw [fileTime_eq]
  unfold Moment.seconds
  dsimp only
  omega

theorem shows_unique {t u : Moment} (ht : Shows filetime t) (hu : Shows filetime u) : t = u := by
  unfold Shows at ht hu
  rw [fileTime_eq] at ht hu
  exact Moment.seconds_injective (by omega)

/-! ## Exactness -/

/-- The date of a day is found by going on from date to date. -/
theorem civilFromDays_iterate {days : ℕ} (h : Countable days) :
    civilFromDays days = some ((Date.next^[days] unixDate).year, (Date.next^[days] unixDate).month,
      (Date.next^[days] unixDate).day) := by
  have hnumber : ∀ n : ℕ, (Date.next^[n] unixDate).dayNumber = unixDate.dayNumber + n := by
    intro n
    induction n with
    | zero => rw [Function.iterate_zero, id_eq, Nat.cast_zero, add_zero]
    | succ n ih =>
      rw [Function.iterate_succ_apply', Date.dayNumber_next, ih]
      push_cast
      omega
  have hdate := civilFromDays_dayNumber (Date.next^[days] unixDate)
    (by rw [hnumber, add_sub_cancel_left]; exact h)
  rwa [hnumber, add_sub_cancel_left] at hdate

/-- The 1st of January 1970 was a Thursday. -/
theorem weekday_iterate (days : ℕ) : (Date.next^[days] unixDate).weekday = Weekday.next^[days] .thursday := by
  induction days with
  | zero => decide
  | succ days ih => rw [Function.iterate_succ_apply', Date.weekday_next, ih, Function.iterate_succ_apply']

/-- Every date is found by its count of days, and by going on from the 1st of January 1970, a Thursday; a text is
written for the instants from 1970 on, for each the date and the time of its second; and no later instant gets an
earlier date. -/
theorem dates_exact :
    (∀ date : Date, Countable (date.dayNumber - unixDate.dayNumber) →
      civilFromDays (date.dayNumber - unixDate.dayNumber) = some (date.year, date.month, date.day)) ∧
    (∀ days : ℕ, Countable days → civilFromDays days = some ((Date.next^[days] unixDate).year,
        (Date.next^[days] unixDate).month, (Date.next^[days] unixDate).day) ∧
      (Date.next^[days] unixDate).weekday = Weekday.next^[days] .thursday) ∧
    ∀ filetime < 2 ^ 64,
      (filetimeToRfc2822 filetime = some none ↔ (filetime : ℤ) < fileTime (midnight unixDate)) ∧
      (fileTime (midnight unixDate) ≤ filetime →
        ∃! t : Moment, Shows filetime t ∧ filetimeToRfc2822 filetime = some (some (dateText t))) ∧
      ∀ (later : ℕ) (t u : Moment), filetime ≤ later → Shows filetime t → Shows later u → ¬ u.date.Before t.date := by
  refine ⟨civilFromDays_dayNumber, fun days h => ⟨civilFromDays_iterate h, weekday_iterate days⟩,
    fun filetime hlt => ⟨⟨fun hnone => ?_, filetimeToRfc2822_none⟩, fun hsince => ?_,
      fun later t u hle ht hu => Moment.not_before ?_⟩⟩
  · by_contra hsince
    obtain ⟨t, ht⟩ := exists_shows hlt (not_lt.mp hsince)
    rw [filetimeToRfc2822_some hlt (not_lt.mp hsince) ht] at hnone
    exact Option.some_ne_none _ (Option.some.inj hnone)
  · obtain ⟨t, ht⟩ := exists_shows hlt hsince
    exact ⟨t, ⟨ht, filetimeToRfc2822_some hlt hsince ht⟩, fun u hu => shows_unique hu.1 ht⟩
  · unfold Shows at ht hu
    rw [fileTime_eq] at ht hu
    omega

/-- The last second that a `FILETIME` reaches. -/
theorem dates_exact_last :
    Shows 18446744073709551615
      ⟨⟨60056, 5, 28, by decide, by decide, by decide, by decide⟩, 5, 36, 10, by decide, by decide, by decide⟩ ∧
    ∃! t : Moment, Shows 18446744073709551615 t ∧
      filetimeToRfc2822 18446744073709551615 = some (some (dateText t)) := by
  refine ⟨⟨by decide, by decide⟩, (dates_exact.2.2 18446744073709551615 (by norm_num)).2.1 ?_⟩
  rw [fileTime_unix]
  decide

end Anole.FileTime
