/-
  VersionedStore.Proofs.Instant.Calendar

  The calendar counts the days one by one: the day of a number has that number, and
  it is a day that the calendar has.

  Four hundred years have 146097 days.  Years are taken from March on, in which a
  century has 36524 days but for the last one, and four years have 1461 but for the
  last four of a century.  So a year has a 366th day only if it is a leap year, and
  that day is the last of February.
-/
import VersionedStore.Instant.Basic

namespace VersionedStore.Date

/-- The year of a day within four hundred years. -/
def yearOfEra (d : Int) : Int :=
  (d - d / 1460 + d / 36524 - d / 146096) / 365

/-- The days of four hundred years before one of its years. -/
def daysBefore (y : Int) : Int :=
  365 * y + y / 4 - y / 100

theorem yearOfEra_eq {d b u v w : Int} (hd : d = 36524 * b + 1461 * u + v) (hb : 0 ≤ b ∧ b ≤ 3)
    (hu : 0 ≤ u ∧ u ≤ 24) (hv : 0 ≤ v ∧ v ≤ 1460) (hlast : 36524 * b + 36523 ≥ d)
    (hw : 0 ≤ w ∧ w ≤ 3) (hyear : 365 * w ≤ v) (hyear' : v ≤ 365 * w + 364 ∨ v = 1460 ∧ w = 3) :
    yearOfEra d = 100 * b + 4 * u + w := by
  have hera : d / 146096 = 0 := by omega
  have hcentury : d / 36524 = b := by omega
  -- The division by 1460 is off by one only where the year is not.
  have hquarter : d / 1460 = 25 * b + u ∧ v ≤ 1459 ∨ d / 1460 = 25 * b + u + 1 ∧ 1364 ≤ v := by
    omega
  rw [yearOfEra, hera, hcentury]
  omega

/-- A day belongs to the year that it is counted to, and only a leap year has a 366th day. -/
theorem yearOfEra_spec {d : Int} (hlow : 0 ≤ d) (hhigh : d < 146097) :
    0 ≤ yearOfEra d ∧ yearOfEra d < 400 ∧ daysBefore (yearOfEra d) ≤ d ∧
      d ≤ daysBefore (yearOfEra d) + 365 ∧
      (d = daysBefore (yearOfEra d) + 365 → isLeapYear (yearOfEra d + 1) = true) := by
  by_cases hlast : d = 146096
  · subst hlast
    decide
  · obtain ⟨b, u, v, w, hd, hb, hu, hv, hend, hw, hyear, hyear'⟩ : ∃ b u v w : Int,
        d = 36524 * b + 1461 * u + v ∧ (0 ≤ b ∧ b ≤ 3) ∧ (0 ≤ u ∧ u ≤ 24) ∧ (0 ≤ v ∧ v ≤ 1460) ∧
          36524 * b + 36523 ≥ d ∧ (0 ≤ w ∧ w ≤ 3) ∧ 365 * w ≤ v ∧
            (v ≤ 365 * w + 364 ∨ v = 1460 ∧ w = 3) := by
      refine ⟨d / 36524, d % 36524 / 1461, d % 36524 % 1461, min (d % 36524 % 1461 / 365) 3, ?_⟩
      omega
    have hbefore : daysBefore (100 * b + 4 * u + w) = 36524 * b + 1461 * u + 365 * w := by
      rw [daysBefore]
      omega
    rw [yearOfEra_eq hd hb hu hv hend hw hyear hyear', hbefore]
    refine ⟨by omega, by omega, by omega, by omega, fun hleap => ?_⟩
    have hu' : u ≤ 23 := by omega
    have hquarter : (100 * b + 4 * u + w + 1) % 4 = 0 := by omega
    have hcentury : (100 * b + 4 * u + w + 1) % 100 ≠ 0 := by omega
    simp [isLeapYear, hquarter, hcentury]

theorem isLeapYear_add_era (y era : Int) : isLeapYear (y + era * 400) = isLeapYear y := by
  have hfour : (y + era * 400) % 4 = y % 4 := by omega
  have hhundred : (y + era * 400) % 100 = y % 100 := by omega
  have hcycle : (y + era * 400) % 400 = y % 400 := by omega
  rw [isLeapYear, isLeapYear, hfour, hhundred, hcycle]

/-- The month, counted from March, of a day of the year. -/
def monthOfYear (d : Int) : Int :=
  (5 * d + 2) / 153

/-- The days of a year before one of its months. -/
def daysBeforeMonth (m : Int) : Int :=
  (153 * m + 2) / 5

/-- A day belongs to the month that it is counted to. -/
theorem monthOfYear_spec {d : Int} (hlow : 0 ≤ d) (hhigh : d ≤ 365) :
    0 ≤ monthOfYear d ∧ monthOfYear d ≤ 11 ∧ daysBeforeMonth (monthOfYear d) ≤ d ∧
      d < daysBeforeMonth (monthOfYear d + 1) := by
  rw [daysBeforeMonth, daysBeforeMonth, monthOfYear]
  omega

/-- A date by its parts: four hundred years, the year and the month of it from March on, and the
    day of the month; and the number of days that they add up to. -/
structure Parts (date : Date) (n era year month day : Int) : Prop where
  year_mem : 0 ≤ year ∧ year < 400
  month_mem : 0 ≤ month ∧ month ≤ 11
  one_le_day : 1 ≤ day
  day_le : daysBeforeMonth month + day ≤ daysBeforeMonth (month + 1)
  /-- The 366th day of a year is the last of February. -/
  leap : daysBeforeMonth month + day ≤ 365 ∨
    daysBeforeMonth month + day = 366 ∧ isLeapYear (year + 1) = true
  number : n = era * 146097 + daysBefore year + daysBeforeMonth month + day - 719469
  date_year : date.year = year + era * 400 + (if month < 10 then 0 else 1)
  date_month : (date.month : Int) = if month < 10 then month + 3 else month - 9
  date_day : (date.day : Int) = day

theorem exists_parts (n : Int) :
    ∃ era year month day, Parts (ofDayNumber n) n era year month day := by
  obtain ⟨hyear, hyear', hbefore, hbefore', hleap⟩ :=
    yearOfEra_spec (Int.emod_nonneg (n + 719468) (show (146097 : Int) ≠ 0 by decide))
      (Int.emod_lt_of_pos (n + 719468) (show (0 : Int) < 146097 by decide))
  have hera := Int.mul_ediv_add_emod (n + 719468) 146097
  obtain ⟨d, hd⟩ : ∃ d, d = (n + 719468) % 146097 := ⟨_, rfl⟩
  obtain ⟨era, he⟩ : ∃ era, era = (n + 719468) / 146097 := ⟨_, rfl⟩
  rw [← hd] at hyear hyear' hbefore hbefore' hleap
  obtain ⟨hmonth, hmonth', hday, hday'⟩ :=
    monthOfYear_spec (show 0 ≤ d - daysBefore (yearOfEra d) by omega) (by omega)
  obtain ⟨y, hy⟩ : ∃ y, y = yearOfEra d := ⟨_, rfl⟩
  obtain ⟨m, hm⟩ : ∃ m, m = monthOfYear (d - daysBefore y) := ⟨_, rfl⟩
  rw [← hy] at hyear hyear' hbefore hbefore' hleap hmonth hmonth' hday hday'
  rw [← hm] at hmonth hmonth' hday hday'
  have hdate : ofDayNumber n = ⟨if (if m < 10 then m + 3 else m - 9).toNat ≤ 2
      then y + era * 400 + 1 else y + era * 400,
      (if m < 10 then m + 3 else m - 9).toNat,
      (d - daysBefore y - daysBeforeMonth m + 1).toNat⟩ := by
    simp only [hm, hy, hd, he]
    rfl
  refine ⟨era, y, m, d - daysBefore y - daysBeforeMonth m + 1, ⟨hyear, hyear'⟩, ⟨hmonth, hmonth'⟩,
    by omega, by omega, ?_, ?_, ?_, ?_, ?_⟩
  · by_cases h : d = daysBefore y + 365
    · exact .inr ⟨by omega, hleap h⟩
    · exact .inl (by omega)
  · omega
  · rw [hdate]
    dsimp only
    split <;> split <;> omega
  · rw [hdate]
    dsimp only
    split <;> omega
  · rw [hdate]
    dsimp only
    omega

/-- The days are counted one by one. -/
theorem dayNumber_ofDayNumber (n : Int) : (ofDayNumber n).dayNumber = n := by
  obtain ⟨era, y, m, d, hyear, hmonth, hone, -, -, hnumber, hdateYear, hdateMonth, hdateDay⟩ :=
    exists_parts n
  have hfrom : (if (ofDayNumber n).month ≤ 2 then (ofDayNumber n).year - 1
      else (ofDayNumber n).year) = y + era * 400 := by
    split at hdateYear <;> split at hdateMonth <;> split <;> omega
  have hmonth : (((ofDayNumber n).month + 9) % 12 : Nat) = m := by
    split at hdateMonth <;> omega
  have hera : (y + era * 400) / 400 = era := by omega
  have hyearOfEra : (y + era * 400) % 400 = y := by omega
  rw [dayNumber]
  simp only [hfrom, hera, hyearOfEra]
  rw [daysBefore, daysBeforeMonth] at hnumber
  omega

theorem daysBeforeMonth_succ_le {m : Int} {month : Nat} (year : Int) (hm : 0 ≤ m ∧ m ≤ 10)
    (hmonth : (month : Int) = if m < 10 then m + 3 else m - 9) :
    daysBeforeMonth (m + 1) ≤ daysBeforeMonth m + daysInMonth year month := by
  have hcases : m = 0 ∨ m = 1 ∨ m = 2 ∨ m = 3 ∨ m = 4 ∨ m = 5 ∨ m = 6 ∨ m = 7 ∨ m = 8 ∨ m = 9 ∨
    m = 10 := by omega
  rcases hcases with rfl | rfl | rfl | rfl | rfl | rfl | rfl | rfl | rfl | rfl | rfl <;>
    obtain rfl := Int.ofNat.inj hmonth <;> exact Int.le_refl _

/-- The calendar has every day of its years. -/
theorem isValid_ofDayNumber {n : Int} (hfirst : firstYear ≤ (ofDayNumber n).year)
    (hlast : (ofDayNumber n).year ≤ lastYear) : (ofDayNumber n).isValid = true := by
  obtain ⟨era, y, m, d, hp⟩ := exists_parts n
  have hmonth := hp.date_month
  have hday := hp.date_day
  have hone := hp.one_le_day
  have hmost := hp.day_le
  obtain ⟨hleast, hgreatest⟩ := hp.month_mem
  have hlength : (ofDayNumber n).day ≤
      daysInMonth (ofDayNumber n).year (ofDayNumber n).month := by
    by_cases hfebruary : m = 11
    · subst hfebruary
      have hbefore : daysBeforeMonth 11 = 337 := rfl
      have htwo : (ofDayNumber n).month = 2 := by
        rw [if_neg (by decide)] at hmonth
        omega
      have hyear : isLeapYear (ofDayNumber n).year = isLeapYear (y + 1) := by
        rw [hp.date_year, if_neg (by decide), ← isLeapYear_add_era (y + 1) era]
        congr 1
        omega
      rw [htwo, daysInMonth, hyear]
      rcases hp.leap with hordinary | ⟨hextra, hleap⟩
      · split <;> omega
      · rw [hleap, if_pos rfl]
        omega
    · have hle := daysBeforeMonth_succ_le (ofDayNumber n).year ⟨hleast, by omega⟩ hmonth
      omega
  have hmonth' : 1 ≤ (ofDayNumber n).month ∧ (ofDayNumber n).month ≤ 12 := by
    split at hmonth <;> omega
  have hday' : 1 ≤ (ofDayNumber n).day := by omega
  simp [isValid, hfirst, hlast, hmonth', hday', hlength]

/-- The calendar has the years of the days from 1970 on, for a quarter of a million years. -/
theorem year_mem_of_dayNumber {n : Int} (hlow : 0 ≤ n) (hhigh : n ≤ 95000000) :
    firstYear ≤ (ofDayNumber n).year ∧ (ofDayNumber n).year ≤ lastYear := by
  obtain ⟨era, y, m, d, hp⟩ := exists_parts n
  have hyear := hp.date_year
  have hnumber := hp.number
  have hdays := hp.day_le
  have hone := hp.one_le_day
  have hyears := hp.year_mem
  have hmonths := hp.month_mem
  have hfirst : firstYear = -262143 := rfl
  have hlast : lastYear = 262142 := rfl
  simp only [daysBefore, daysBeforeMonth] at hnumber hdays
  split at hyear <;> omega

theorem daysInMonth_le (year : Int) (month : Nat) : daysInMonth year month ≤ 31 := by
  unfold daysInMonth
  split
  next => cases isLeapYear year <;> decide
  all_goals decide

end VersionedStore.Date
