import Flowline.Time.Date
import Mathlib.Tactic.IntervalCases

/-!
# Dates and day numbers

Every day number has a date, which exists (`month_mem_ofDayNumber`, `day_mem_ofDayNumber`) and has
this day number (`dayNumber_ofDayNumber`). A day of an era of 400 years is counted in centuries, in
cycles of four years, in years that begin in March, and in days (`exists_eraDay`): the leap day ends
the last year of a cycle, but for the last cycle of a century, unless the century is the last one.
-/

namespace Flowline.Time.Date

/-! ## Days of an era -/

/-- A day of an era in centuries, cycles, years and days. -/
structure IsEraDay (day century cycle year dayOfYear : Int) : Prop where
  day_eq : day = 36524 * century + 1461 * cycle + 365 * year + dayOfYear
  century_mem : 0 ≤ century ∧ century ≤ 3
  cycle_mem : 0 ≤ cycle ∧ cycle ≤ 24
  year_mem : 0 ≤ year ∧ year ≤ 3
  dayOfYear_mem : 0 ≤ dayOfYear ∧ dayOfYear ≤ 365
  /-- Only the last year of a cycle has a leap day, and of a century only the last one. -/
  leap : dayOfYear = 365 → year = 3 ∧ (cycle = 24 → century = 3)

theorem exists_eraDay {day : Int} (h : 0 ≤ day ∧ day < 146097) :
    ∃ century cycle year dayOfYear, IsEraDay day century cycle year dayOfYear := by
  obtain ⟨century, hcentury⟩ : ∃ x, x = min 3 (day / 36524) := ⟨_, rfl⟩
  obtain ⟨cycle, hcycle⟩ : ∃ x, x = (day - 36524 * century) / 1461 := ⟨_, rfl⟩
  obtain ⟨year, hyear⟩ : ∃ x, x = min 3 ((day - 36524 * century - 1461 * cycle) / 365) := ⟨_, rfl⟩
  have hmem : 0 ≤ century ∧ century ≤ 3 := by omega
  have hrest : 0 ≤ day - 36524 * century ∧ day - 36524 * century ≤ 36524 ∧
      (day - 36524 * century = 36524 → century = 3) := by omega
  clear hcentury
  exact ⟨century, cycle, year, day - 36524 * century - 1461 * cycle - 365 * year,
    by omega, by omega, by omega, by omega, by omega, by omega⟩

namespace IsEraDay

variable {day century cycle year dayOfYear : Int} (h : IsEraDay day century cycle year dayOfYear)

include h

/-- The year of the era, from the day without what leap days add to it. -/
theorem yearOfEra_eq : (day - day / 1460 + day / 36524 - day / 146096) / 365 =
    100 * century + 4 * cycle + year := by
  obtain ⟨hday, hcentury, hcycle, hyear, hdayOfYear, hleap⟩ := h
  have hcenturies : day / 36524 - day / 146096 = century := by
    by_cases hlast : day = 146096
    · omega
    · have hnone : day / 146096 = 0 := by omega
      have hbounds : 36524 * century ≤ day ∧ day < 36524 * (century + 1) := by omega
      omega
  -- In the last year of a cycle one day too many may have been taken off.
  have hlow : 25 * century + cycle ≤ day / 1460 := by omega
  have hhigh : day / 1460 ≤ 25 * century + cycle + (if year = 3 then 1 else 0) := by
    split <;> omega
  have hfirst : year = 3 → dayOfYear = 0 → day / 1460 = 25 * century + cycle := by omega
  split at hhigh <;> omega

/-- The leap days before a year of the era. -/
theorem leapDays_eq : (100 * century + 4 * cycle + year) / 4 = 25 * century + cycle ∧
    (100 * century + 4 * cycle + year) / 100 = century := by
  obtain ⟨-, hcentury, hcycle, hyear, -, -⟩ := h
  omega

/-- The leap day of a year that begins in March belongs to the next calendar year. -/
theorem isLeap (hlast : dayOfYear = 365) : (100 * century + 4 * cycle + year + 1) % 4 = 0 ∧
    ((100 * century + 4 * cycle + year + 1) % 100 ≠ 0 ∨
      (100 * century + 4 * cycle + year + 1) % 400 = 0) := by
  obtain ⟨-, hcentury, hcycle, -, -, hleap⟩ := h
  obtain ⟨rfl, hcycle24⟩ := hleap hlast
  by_cases h24 : cycle = 24
  · subst h24
    rw [hcycle24 rfl]
    decide
  · omega

end IsEraDay

/-! ## Years that begin in March -/

/-- The date of a day of a year that begins in March. -/
def ofMarch (year dayOfYear : Int) : Date :=
  let month := (5 * dayOfYear + 2) / 153
  ⟨if month < 10 then year else year + 1, (if month < 10 then month + 3 else month - 9).toNat,
    (dayOfYear - (153 * month + 2) / 5 + 1).toNat⟩

theorem ofDayNumber_of_isEraDay {n era day century cycle year dayOfYear : Int}
    (hera : (n + 719468) / 146097 = era) (hday : n + 719468 - 146097 * era = day)
    (h : IsEraDay day century cycle year dayOfYear) :
    ofDayNumber n = ofMarch (100 * century + 4 * cycle + year + 400 * era) dayOfYear := by
  have hfdiv : (n + 719468).fdiv 146097 = era := by
    rw [← hera, Int.fdiv_eq_ediv_of_nonneg _ (by decide)]
  obtain ⟨hfour, hhundred⟩ := h.leapDays_eq
  have hrest : day - (365 * (100 * century + 4 * cycle + year) + (25 * century + cycle) -
      century) = dayOfYear := by
    have := h.day_eq
    omega
  have hmem := h.dayOfYear_mem
  unfold ofDayNumber ofMarch
  dsimp only
  rw [hfdiv, hday, h.yearOfEra_eq, hfour, hhundred, hrest]
  by_cases hmarch : (5 * dayOfYear + 2) / 153 < 10
  · simp only [hmarch, if_true]
    rw [if_neg (by omega)]
  · simp only [hmarch, if_false]
    rw [if_pos (by omega)]

/-- The date of a day number is that of a day of a year that begins in March. -/
theorem exists_ofMarch (n : Int) : ∃ year dayOfYear : Int, ofDayNumber n = ofMarch year dayOfYear ∧
    (0 ≤ dayOfYear ∧ dayOfYear ≤ 365) ∧ (dayOfYear = 365 → isLeapYear (year + 1) = true) ∧
    n + 719468 = 146097 * (year / 400) + 365 * (year % 400) + year % 400 / 4 - year % 400 / 100 +
      dayOfYear := by
  obtain ⟨era, hera⟩ : ∃ era, (n + 719468) / 146097 = era := ⟨_, rfl⟩
  obtain ⟨day, hday⟩ : ∃ day, n + 719468 - 146097 * era = day := ⟨_, rfl⟩
  have hbounds : 0 ≤ day ∧ day < 146097 := by omega
  obtain ⟨century, cycle, year, dayOfYear, h⟩ := exists_eraDay hbounds
  refine ⟨_, dayOfYear, ofDayNumber_of_isEraDay hera hday h, h.dayOfYear_mem, ?_, ?_⟩
  · intro hlast
    obtain ⟨hfour, hhundred⟩ := h.isLeap hlast
    clear h hbounds hday hera
    have h4 : (100 * century + 4 * cycle + year + 400 * era + 1) % 4 =
        (100 * century + 4 * cycle + year + 1) % 4 := by omega
    have h100 : (100 * century + 4 * cycle + year + 400 * era + 1) % 100 =
        (100 * century + 4 * cycle + year + 1) % 100 := by omega
    have h400 : (100 * century + 4 * cycle + year + 400 * era + 1) % 400 =
        (100 * century + 4 * cycle + year + 1) % 400 := by omega
    simp only [isLeapYear, h4, h100, h400, hfour, decide_true, Bool.true_and, Bool.or_eq_true,
      decide_eq_true_eq]
    exact hhundred
  · obtain ⟨hfour, hhundred⟩ := h.leapDays_eq
    obtain ⟨hparts, hcentury, hcycle, hyear, -, -⟩ := h
    clear hbounds hera
    have hera' : (100 * century + 4 * cycle + year + 400 * era) / 400 = era := by omega
    have hyear' : (100 * century + 4 * cycle + year + 400 * era) % 400 =
        100 * century + 4 * cycle + year := by omega
    rw [hera', hyear', hfour, hhundred]
    omega

/-- The day number of a day of a year that begins in March. -/
theorem dayNumber_ofMarch {year dayOfYear : Int} (h : 0 ≤ dayOfYear ∧ dayOfYear ≤ 365) :
    (ofMarch year dayOfYear).dayNumber = 146097 * (year / 400) + 365 * (year % 400) +
      year % 400 / 4 - year % 400 / 100 + dayOfYear - 719468 := by
  obtain ⟨month, hmonth⟩ : ∃ month, (5 * dayOfYear + 2) / 153 = month := ⟨_, rfl⟩
  have hday : ((dayOfYear - (153 * month + 2) / 5 + 1).toNat : Int) =
      dayOfYear - (153 * month + 2) / 5 + 1 := by omega
  have hmem : 0 ≤ month ∧ month ≤ 11 := by omega
  have hfdiv : ∀ y : Int, y.fdiv 400 = y / 400 := fun y =>
    Int.fdiv_eq_ediv_of_nonneg y (by decide)
  have hmod : year - 400 * (year / 400) = year % 400 := by omega
  unfold dayNumber ofMarch
  simp only [hmonth, hday, hfdiv]
  by_cases hmarch : month < 10
  · have hnot : ¬ (month + 3).toNat ≤ 2 := by omega
    have hback : (((month + 3).toNat : Int) + 9) % 12 = month := by omega
    simp only [hmarch, if_true, hnot, if_false, hback, hmod]
    omega
  · have hsmall : (month - 9).toNat ≤ 2 := by omega
    have hback : (((month - 9).toNat : Int) + 9) % 12 = month := by omega
    simp only [hmarch, if_false, hsmall, if_true, hback, Int.add_sub_cancel, hmod]
    omega

/-- The day is one of its month. The months that begin in March have 31 or 30 days, but for the
last one, which ends with the year. -/
theorem day_mem_ofMarch {year dayOfYear : Int} (h : 0 ≤ dayOfYear ∧ dayOfYear ≤ 365)
    (hleap : dayOfYear = 365 → isLeapYear (year + 1) = true) :
    1 ≤ (ofMarch year dayOfYear).day ∧ (ofMarch year dayOfYear).day ≤
      daysInMonth (ofMarch year dayOfYear).year (ofMarch year dayOfYear).month := by
  obtain ⟨month, hmonth⟩ : ∃ month, (5 * dayOfYear + 2) / 153 = month := ⟨_, rfl⟩
  have hlow : 0 ≤ month := by omega
  have hhigh : month ≤ 11 := by omega
  unfold ofMarch
  simp only [hmonth]
  interval_cases month
  case «11» =>
    have hdays : daysInMonth (year + 1) 2 = if isLeapYear (year + 1) then 29 else 28 := rfl
    show 1 ≤ (dayOfYear - 337 + 1).toNat ∧ (dayOfYear - 337 + 1).toNat ≤ daysInMonth (year + 1) 2
    rw [hdays]
    split
    · omega
    · next hnot =>
      have hne : dayOfYear ≠ 365 := fun hlast => hnot (hleap hlast)
      omega
  all_goals
    refine ⟨by omega, ?_⟩
    simp only [daysInMonth, Int.reduceLT, Int.reduceAdd, Int.reduceSub, Int.reduceMul,
      Int.reduceDiv, Int.reduceToNat, if_true, if_false]
    omega

theorem month_mem_ofMarch {year dayOfYear : Int} (h : 0 ≤ dayOfYear ∧ dayOfYear ≤ 365) :
    1 ≤ (ofMarch year dayOfYear).month ∧ (ofMarch year dayOfYear).month ≤ 12 := by
  unfold ofMarch
  dsimp only
  split <;> omega

/-! ## Dates of day numbers -/

theorem dayNumber_ofDayNumber (n : Int) : (ofDayNumber n).dayNumber = n := by
  obtain ⟨year, dayOfYear, hof, hmem, -, hn⟩ := exists_ofMarch n
  rw [hof, dayNumber_ofMarch hmem]
  omega

theorem day_mem_ofDayNumber (n : Int) : 1 ≤ (ofDayNumber n).day ∧
    (ofDayNumber n).day ≤ daysInMonth (ofDayNumber n).year (ofDayNumber n).month := by
  obtain ⟨year, dayOfYear, hof, hmem, hleap, -⟩ := exists_ofMarch n
  rw [hof]
  exact day_mem_ofMarch hmem hleap

theorem month_mem_ofDayNumber (n : Int) :
    1 ≤ (ofDayNumber n).month ∧ (ofDayNumber n).month ≤ 12 := by
  obtain ⟨year, dayOfYear, hof, hmem, -⟩ := exists_ofMarch n
  rw [hof]
  exact month_mem_ofMarch hmem

end Flowline.Time.Date
