import DeferredQuery.Calendar

/-!
# Days and dates

Every count of days has a date, and counting the days to that date gives the count back.

An era is four centuries of 36524 days and one day more, a century is made of cycles of 1461 days,
the last one day shorter, and a cycle of years of 365 days, the last one day longer. The quotients
that find the year take the days that are too many out before they divide, so that they hit the year
also on the days that end a cycle or an era. That is shown once, in `yearOfEra_eq`; all else is
about a year and a day of it, both counted from March.
-/

set_option autoImplicit false

namespace DeferredQuery.Date

/-! ## Years that begin in March -/

/-- The days of all years before a year, from the year 0 on. -/
def daysBefore (year : Int) : Int := 365 * year + year / 4 - year / 100 + year / 400

/-- Whether a year that begins in March has a day: the last one, which is a leap day, only if the
calendar year that begins within it is a leap year. -/
structure HasDay (year dayOfYear : Int) : Prop where
  nonneg : 0 ≤ dayOfYear
  le : dayOfYear ≤ 365
  leap : dayOfYear = 365 → isLeapYear (year + 1) = true

/-- The date of a day of a year that begins in March. -/
def ofMarch (year dayOfYear : Int) : Date :=
  let monthFromMarch := (5 * dayOfYear + 2) / 153
  let day := dayOfYear - (153 * monthFromMarch + 2) / 5 + 1
  let month := if monthFromMarch < 10 then monthFromMarch + 3 else monthFromMarch - 9
  ⟨if month ≤ 2 then year + 1 else year, month.toNat, day.toNat⟩

theorem isLeapYear_iff {year : Int} :
    isLeapYear year = true ↔ year % 4 = 0 ∧ (year % 100 ≠ 0 ∨ year % 400 = 0) := by
  simp [isLeapYear]

/-! ## The year of a day -/

/-- The days of an era but the last, by century, cycle of four years and day of the cycle. -/
structure InCycle (dayOfEra century cycle day : Int) : Prop where
  eq : dayOfEra = 36524 * century + 1461 * cycle + day
  century_nonneg : 0 ≤ century
  century_le : century ≤ 3
  cycle_nonneg : 0 ≤ cycle
  cycle_le : cycle ≤ 24
  day_nonneg : 0 ≤ day
  day_le : day ≤ 1460
  short : cycle = 24 → day ≤ 1459

theorem exists_inCycle {dayOfEra : Int} (hnonneg : 0 ≤ dayOfEra) (hlt : dayOfEra < 146096) :
    ∃ century cycle day, InCycle dayOfEra century cycle day :=
  ⟨dayOfEra / 36524, dayOfEra % 36524 / 1461, dayOfEra % 36524 % 1461,
    by omega, by omega, by omega, by omega, by omega, by omega, by omega, by omega⟩

/-- The year of an era that a day of the era belongs to. -/
def yearOfEra (dayOfEra : Int) : Int :=
  (dayOfEra - dayOfEra / 1460 + dayOfEra / 36524 - dayOfEra / 146096) / 365

/-- The years of a cycle are found by dividing, but for the leap day at its end. -/
theorem yearOfEra_eq {dayOfEra century cycle day : Int}
    (h : InCycle dayOfEra century cycle day) :
    yearOfEra dayOfEra = 100 * century + 4 * cycle + min (day / 365) 3 := by
  obtain ⟨heq, hcentury, hcentury', hcycle, hcycle', hday, hday', hshort⟩ := h
  have hdiv : dayOfEra / 36524 = century := by omega
  have hlast : dayOfEra / 146096 = 0 := by omega
  -- 1460 is taken out once for every cycle, or once more near the end of one
  have hcycles : dayOfEra / 1460 = 25 * century + cycle ∨
      dayOfEra / 1460 = 25 * century + cycle + 1 ∧ 1364 ≤ day := by omega
  rw [yearOfEra, hdiv, hlast]
  obtain hcycles | ⟨hcycles, hlate⟩ := hcycles
  · have hbefore : day ≤ 1459 := by omega
    rw [hcycles]
    omega
  · rw [hcycles]
    omega

/-- What is left of a day of an era behind its year is a day of that year. -/
theorem hasDay_yearOfEra {dayOfEra : Int} (era : Int) (hnonneg : 0 ≤ dayOfEra)
    (hlt : dayOfEra < 146097) :
    let year := yearOfEra dayOfEra
    0 ≤ year ∧ year < 400 ∧
      HasDay (year + era * 400) (dayOfEra - (365 * year + year / 4 - year / 100)) := by
  intro year
  by_cases hlast : dayOfEra = 146096
  · have hyear : year = 399 := by rw [show year = yearOfEra dayOfEra from rfl, hlast]; rfl
    rw [hyear, hlast]
    refine ⟨by decide, by decide, by decide, by decide, fun _ => ?_⟩
    rw [isLeapYear_iff]
    omega
  · obtain ⟨century, cycle, day, h⟩ := exists_inCycle hnonneg (by omega : dayOfEra < 146096)
    have hyear : year = 100 * century + 4 * cycle + min (day / 365) 3 := yearOfEra_eq h
    obtain ⟨heq, hcentury, hcentury', hcycle, hcycle', hday, hday', hshort⟩ := h
    have hcycles : year / 4 = 25 * century + cycle := by omega
    have hcenturies : year / 100 = century := by omega
    rw [hcycles, hcenturies]
    refine ⟨by omega, by omega, by omega, by omega, fun hleap => ?_⟩
    rw [isLeapYear_iff]
    omega

/-- Every day has a year that begins in March, and a place in it. -/
theorem exists_march (days : Int) : ∃ year dayOfYear, HasDay year dayOfYear ∧
    ofDays days = ofMarch year dayOfYear ∧ days + 719468 = daysBefore year + dayOfYear := by
  let era := (days + 719468) / 146097
  let dayOfEra := days + 719468 - era * 146097
  let year := yearOfEra dayOfEra
  obtain ⟨hnonneg, hlt, hday⟩ := @hasDay_yearOfEra dayOfEra era (by omega) (by omega)
  refine ⟨year + era * 400, _, hday, rfl, ?_⟩
  rw [daysBefore]
  omega

/-! ## The months -/

/-- The month that a day is in, counted from March. -/
def monthFromMarch (dayOfYear : Int) : Int := (5 * dayOfYear + 2) / 153

def dayOfMonth (dayOfYear : Int) : Int := dayOfYear - (153 * monthFromMarch dayOfYear + 2) / 5 + 1

theorem ofMarch_of_lt {year dayOfYear : Int} (hnonneg : 0 ≤ dayOfYear)
    (h : monthFromMarch dayOfYear < 10) : ofMarch year dayOfYear =
      ⟨year, (monthFromMarch dayOfYear + 3).toNat, (dayOfMonth dayOfYear).toNat⟩ := by
  rw [monthFromMarch] at h
  have hmonth : ¬ (5 * dayOfYear + 2) / 153 + 3 ≤ 2 := by omega
  simp only [ofMarch, if_pos h, if_neg hmonth]
  rfl

/-- January and February belong to the year that began in March before. -/
theorem ofMarch_of_ge {year dayOfYear : Int} (hle : dayOfYear ≤ 365)
    (h : 10 ≤ monthFromMarch dayOfYear) : ofMarch year dayOfYear =
      ⟨year + 1, (monthFromMarch dayOfYear - 9).toNat, (dayOfMonth dayOfYear).toNat⟩ := by
  rw [monthFromMarch] at h
  have hmonth : (5 * dayOfYear + 2) / 153 - 9 ≤ 2 := by omega
  simp only [ofMarch, if_neg (Int.not_lt.mpr h), if_pos hmonth]
  rfl

theorem toDays_ofMarch {year dayOfYear : Int} (h : HasDay year dayOfYear) :
    (ofMarch year dayOfYear).toDays = daysBefore year + dayOfYear - 719468 := by
  have hnonneg := h.nonneg
  have hle := h.le
  by_cases hmonth : monthFromMarch dayOfYear < 10
  · rw [ofMarch_of_lt hnonneg hmonth]
    rw [monthFromMarch] at hmonth
    simp only [toDays, dayOfMonth, monthFromMarch, daysBefore]
    omega
  · have hmonth := Int.not_lt.mp hmonth
    rw [ofMarch_of_ge hle hmonth]
    rw [monthFromMarch] at hmonth
    simp only [toDays, dayOfMonth, monthFromMarch, daysBefore]
    omega

theorem daysInMonth_le (year : Int) (month : Nat) : daysInMonth year month ≤ 31 := by
  unfold daysInMonth
  split
  · split <;> omega
  all_goals omega

theorem isValid_iff {d : Date} : d.isValid = true ↔
    1 ≤ d.month ∧ d.month ≤ 12 ∧ 1 ≤ d.day ∧ d.day ≤ daysInMonth d.year d.month := by
  simp [isValid, and_assoc]

/-- A month has begun when the day comes, and the next one has not. -/
theorem month_bounds (dayOfYear : Int) :
    (153 * monthFromMarch dayOfYear + 2) / 5 ≤ dayOfYear ∧
      dayOfYear < (153 * (monthFromMarch dayOfYear + 1) + 2) / 5 := by
  rw [monthFromMarch]
  omega

/-- The date is in one of twelve months, and no further in it than the month goes. -/
theorem isValid_ofMarch {year dayOfYear : Int} (h : HasDay year dayOfYear) :
    (ofMarch year dayOfYear).isValid = true := by
  obtain ⟨hnonneg, hle, hleap⟩ := h
  obtain ⟨hbegun, hnext⟩ := month_bounds dayOfYear
  have hday : dayOfMonth dayOfYear =
      dayOfYear - (153 * monthFromMarch dayOfYear + 2) / 5 + 1 := rfl
  rw [isValid_iff]
  by_cases hmonth : monthFromMarch dayOfYear < 10
  · rw [ofMarch_of_lt hnonneg hmonth]
    generalize monthFromMarch dayOfYear = month at *
    obtain rfl | rfl | rfl | rfl | rfl | rfl | rfl | rfl | rfl | rfl : month = 0 ∨ month = 1 ∨
        month = 2 ∨ month = 3 ∨ month = 4 ∨ month = 5 ∨ month = 6 ∨ month = 7 ∨ month = 8 ∨
        month = 9 := by omega
    all_goals
      simp only [daysInMonth, Int.reduceAdd, Int.reduceToNat]
      omega
  · have hmonth := Int.not_lt.mp hmonth
    rw [ofMarch_of_ge hle hmonth]
    generalize monthFromMarch dayOfYear = month at *
    obtain rfl | rfl : month = 10 ∨ month = 11 := by omega
    · simp only [daysInMonth, Int.reduceSub, Int.reduceToNat]
      omega
    · -- February, where the length hangs on the year
      simp only [daysInMonth, Int.reduceSub, Int.reduceToNat]
      by_cases hlast : dayOfYear = 365
      · rw [if_pos (hleap hlast)]
        omega
      · split <;> omega

/-! ## Every day has its date -/

theorem toDays_ofDays (days : Int) : (ofDays days).toDays = days := by
  obtain ⟨year, dayOfYear, hday, hdate, hcount⟩ := exists_march days
  rw [hdate, toDays_ofMarch hday]
  omega

theorem isValid_ofDays (days : Int) : (ofDays days).isValid = true := by
  obtain ⟨year, dayOfYear, hday, hdate, -⟩ := exists_march days
  rw [hdate]
  exact isValid_ofMarch hday

theorem toDays_newYear (year : Int) :
    toDays ⟨year, 1, 1⟩ = daysBefore (year - 1) + 306 - 719468 := by
  simp only [toDays, daysBefore]
  omega

theorem toDays_yearEnd (year : Int) : toDays ⟨year, 12, 31⟩ = daysBefore year + 305 - 719468 := by
  simp only [toDays, daysBefore]
  omega

/-- The years follow each other: a day from the first of January of a year on is not of an earlier
year, -/
theorem le_year_ofDays {year days : Int} (h : toDays ⟨year, 1, 1⟩ ≤ days) :
    year ≤ (ofDays days).year := by
  obtain ⟨march, dayOfYear, ⟨hnonneg, hle, hleap⟩, hdate, hcount⟩ := exists_march days
  rw [toDays_newYear] at h
  rw [hdate]
  by_cases hmonth : monthFromMarch dayOfYear < 10
  · rw [ofMarch_of_lt hnonneg hmonth]
    rw [monthFromMarch] at hmonth
    simp only [daysBefore] at *
    omega
  · have hmonth := Int.not_lt.mp hmonth
    rw [ofMarch_of_ge hle hmonth]
    rw [monthFromMarch] at hmonth
    simp only [daysBefore] at *
    show year ≤ march + 1
    by_cases hlast : dayOfYear = 365
    · rw [isLeapYear_iff] at hleap
      omega
    · omega

/-- and one up to the last of December not of a later one. -/
theorem year_ofDays_le {year days : Int} (h : days ≤ toDays ⟨year, 12, 31⟩) :
    (ofDays days).year ≤ year := by
  obtain ⟨march, dayOfYear, ⟨hnonneg, hle, hleap⟩, hdate, hcount⟩ := exists_march days
  rw [toDays_yearEnd] at h
  rw [hdate]
  by_cases hmonth : monthFromMarch dayOfYear < 10
  · rw [ofMarch_of_lt hnonneg hmonth]
    rw [monthFromMarch] at hmonth
    simp only [daysBefore] at *
    show march ≤ year
    omega
  · have hmonth := Int.not_lt.mp hmonth
    rw [ofMarch_of_ge hle hmonth]
    rw [monthFromMarch] at hmonth
    simp only [daysBefore] at *
    show march + 1 ≤ year
    omega

end DeferredQuery.Date
