import SearchRelay.Timestamp

/-!
Days and dates of the Gregorian calendar. An era of 400 years is taken apart into centuries, spans
of four years and years that begin in March, so that a leap day is the last day of its year.
-/

namespace SearchRelay.Timestamp

/-- A day of an era: its century, the span of four years in that, the year of the span, and the day
of the year. -/
structure DayOfEra (doe century quad year day : Int) : Prop where
  sum : doe = 36524 * century + 1461 * quad + 365 * year + day
  centuries : 0 ≤ century ∧ century ≤ 3
  quads : 0 ≤ quad ∧ quad ≤ 24
  years : 0 ≤ year ∧ year ≤ 3
  days : 0 ≤ day ∧ day ≤ 365
  /-- Every fourth year has a leap day, but the last of a century only every fourth time. -/
  leap : day = 365 → year = 3 ∧ (quad = 24 → century = 3)

theorem dayOfEra_exists {doe : Int} (low : 0 ≤ doe) (high : doe < 146097) :
    ∃ century quad year day, DayOfEra doe century quad year day := by
  have hcentury : ∃ century doc, doe = 36524 * century + doc ∧ (0 ≤ century ∧ century ≤ 3) ∧
      0 ≤ doc ∧ doc ≤ 36524 ∧ (doc = 36524 → century = 3) := by
    -- The last day of an era would begin a fifth century.
    by_cases hlast : doe = 146096
    · exact ⟨3, 36524, by omega⟩
    · exact ⟨doe / 36524, doe % 36524, by omega⟩
  obtain ⟨century, doc, hdoe, hcenturies, hdoc⟩ := hcentury
  have hyear : ∃ year day, doc % 1461 = 365 * year + day ∧ (0 ≤ year ∧ year ≤ 3) ∧
      (0 ≤ day ∧ day ≤ 365) ∧ (day = 365 → year = 3) := by
    -- So would a leap day begin a fifth year.
    by_cases hleap : doc % 1461 = 1460
    · exact ⟨3, 365, by omega⟩
    · exact ⟨doc % 1461 / 365, doc % 1461 % 365, by omega⟩
  obtain ⟨year, day, hdoq, hyears, hdays, hleap⟩ := hyear
  exact ⟨century, doc / 1461, year, day, by omega, hcenturies, by omega, hyears, hdays,
    fun h => ⟨hleap h, by omega⟩⟩

namespace DayOfEra

variable {doe century quad year day : Int} (h : DayOfEra doe century quad year day)

include h

/-- The year is found by leaving out the leap days. -/
theorem year_eq : (doe - doe / 1460 + doe / 36524 - doe / 146096) / 365 =
    100 * century + 4 * quad + year := by
  obtain ⟨sum, centuries, quads, years, days, leap⟩ := h
  by_cases hlast : doe = 146096
  · obtain rfl : century = 3 := by omega
    obtain rfl : quad = 24 := by omega
    obtain rfl : year = 3 := by omega
    subst hlast
    decide
  · have hdoc : 1461 * quad + 365 * year + day < 36524 := by omega
    have hcentury : doe / 36524 = century := by omega
    have hera : doe / 146096 = 0 := by omega
    by_cases hlate : 1460 ≤ 24 * century + quad + (365 * year + day)
    · have hquad : doe / 1460 = 25 * century + quad + 1 := by omega
      omega
    · have hquad : doe / 1460 = 25 * century + quad := by omega
      omega

theorem day_eq : doe - (365 * (100 * century + 4 * quad + year) +
    (100 * century + 4 * quad + year) / 4 - (100 * century + 4 * quad + year) / 100) = day := by
  obtain ⟨sum, centuries, quads, years, days, leap⟩ := h
  have hfour : (100 * century + 4 * quad + year) / 4 = 25 * century + quad := by omega
  have hhundred : (100 * century + 4 * quad + year) / 100 = century := by omega
  omega

end DayOfEra

/-- The month of a day of a year that begins in March. -/
def monthOf (day : Int) : Int := if (5 * day + 2) / 153 < 10 then (5 * day + 2) / 153 + 3
  else (5 * day + 2) / 153 - 9

def dayOfMonth (day : Int) : Int := day - (153 * ((5 * day + 2) / 153) + 2) / 5 + 1

theorem civilFromDays_eq {days era doe century quad year day : Int}
    (hdays : days + 719468 = 146097 * era + doe) (range : 0 ≤ doe ∧ doe < 146097)
    (h : DayOfEra doe century quad year day) : civilFromDays days =
      (100 * century + 4 * quad + year + 400 * era + (if monthOf day ≤ 2 then 1 else 0),
        (monthOf day).toNat, (dayOfMonth day).toNat) := by
  have hera : (days + 719468) / 146097 = era := by omega
  have hdoe : days + 719468 - era * 146097 = doe := by omega
  have hyear := h.year_eq
  have hday := h.day_eq
  simp (disch := decide) only [civilFromDays, Int.fdiv_eq_ediv_of_nonneg, hera, hdoe, hyear, hday]
  rw [Int.mul_comm era 400]
  rfl

theorem month_bounds {day : Int} (low : 0 ≤ day) (high : day ≤ 365) :
    (1 ≤ monthOf day ∧ monthOf day ≤ 12) ∧ 1 ≤ dayOfMonth day ∧
      (dayOfMonth day ≤ if monthOf day = 2 then (if day = 365 then 29 else 28)
        else if monthOf day = 4 ∨ monthOf day = 6 ∨ monthOf day = 9 ∨ monthOf day = 11 then 30
        else 31) := by
  obtain ⟨m, hm⟩ : ∃ m, (5 * day + 2) / 153 = m := ⟨_, rfl⟩
  have hcases : m = 0 ∨ m = 1 ∨ m = 2 ∨ m = 3 ∨ m = 4 ∨ m = 5 ∨ m = 6 ∨ m = 7 ∨ m = 8 ∨ m = 9 ∨
      m = 10 ∨ m = 11 := by omega
  rw [monthOf, dayOfMonth, hm]
  rcases hcases with rfl | rfl | rfl | rfl | rfl | rfl | rfl | rfl | rfl | rfl | rfl | rfl <;>
    simp <;> omega

theorem monthOf_emod {day : Int} (low : 0 ≤ day) (high : day ≤ 365) :
    (monthOf day + 9).emod 12 = (5 * day + 2) / 153 := by
  have hm0 : 0 ≤ (5 * day + 2) / 153 := by omega
  have hm11 : (5 * day + 2) / 153 ≤ 11 := by omega
  have hemod (a : Int) : a.emod 12 = a % 12 := rfl
  rw [hemod, monthOf]
  split <;> omega

theorem daysFromCivil_eq {era doe century quad year day : Int}
    (h : DayOfEra doe century quad year day) {month dayInMonth : Nat}
    (hmonth : (month : Int) = monthOf day) (hday : (dayInMonth : Int) = dayOfMonth day) :
    daysFromCivil (100 * century + 4 * quad + year + 400 * era + (if monthOf day ≤ 2 then 1 else 0))
      month dayInMonth = 146097 * era + doe - 719468 := by
  have hstart := h.day_eq
  obtain ⟨sum, centuries, quads, years, days, leap⟩ := h
  have hmp := monthOf_emod days.1 days.2
  have hdoy : (153 * ((5 * day + 2) / 153) + 2) / 5 + dayOfMonth day - 1 = day := by
    rw [dayOfMonth]
    omega
  generalize hyoe : 100 * century + 4 * quad + year = yoe at *
  have hshift : (if month ≤ 2 then
      yoe + 400 * era + (if monthOf day ≤ 2 then 1 else 0) - 1
      else yoe + 400 * era + (if monthOf day ≤ 2 then 1 else 0)) = yoe + 400 * era := by
    by_cases htwo : monthOf day ≤ 2
    · have hle : month ≤ 2 := by omega
      rw [if_pos hle, if_pos htwo]
      omega
    · have hlt : ¬ month ≤ 2 := by omega
      rw [if_neg hlt, if_neg htwo]
      omega
  have hera : (yoe + 400 * era) / 400 = era := by omega
  have hrest : yoe + 400 * era - era * 400 = yoe := by omega
  simp (disch := decide) only [daysFromCivil, Int.fdiv_eq_ediv_of_nonneg, hshift, hera, hrest,
    hmonth, hday, hmp, hdoy]
  omega

/-- The leap day stands in a leap year, which is the one that begins before it is over. -/
theorem isLeapYear_of_day {doe century quad year day : Int} (h : DayOfEra doe century quad year day)
    (hday : day = 365) (era : Int) :
    isLeapYear (100 * century + 4 * quad + year + 400 * era + 1) := by
  obtain ⟨sum, centuries, quads, years, days, leap⟩ := h
  obtain ⟨hyear, hlast⟩ := leap hday
  have hfour : (100 * century + 4 * quad + year + 400 * era + 1) % 4 = 0 := by omega
  have hhundred : (100 * century + 4 * quad + year + 400 * era + 1) % 100 ≠ 0 ∨
      (100 * century + 4 * quad + year + 400 * era + 1) % 400 = 0 := by omega
  simpa [isLeapYear, hfour] using hhundred

/-- The date of a day exists in the calendar, and leads back to the day. -/
theorem civilFromDays_valid (days : Int) : ∃ y m d, civilFromDays days = (y, m, d) ∧
    daysFromCivil y m d = days ∧ (1 ≤ m ∧ m ≤ 12) ∧ 1 ≤ d ∧ d ≤ daysInMonth y m := by
  have hrange : 0 ≤ (days + 719468) % 146097 ∧ (days + 719468) % 146097 < 146097 := by omega
  have hdays : days + 719468 = 146097 * ((days + 719468) / 146097) + (days + 719468) % 146097 := by
    omega
  generalize (days + 719468) / 146097 = era at hdays
  generalize (days + 719468) % 146097 = doe at hdays hrange
  obtain ⟨century, quad, year, day, h⟩ := dayOfEra_exists hrange.1 hrange.2
  obtain ⟨⟨hm1, hm12⟩, hd1, hd⟩ := month_bounds h.days.1 h.days.2
  have hmonth : ((monthOf day).toNat : Int) = monthOf day := Int.toNat_of_nonneg (by omega)
  have hday : ((dayOfMonth day).toNat : Int) = dayOfMonth day := Int.toNat_of_nonneg (by omega)
  refine ⟨_, _, _, civilFromDays_eq hdays hrange h, ?_, by omega, by omega, ?_⟩
  · rw [daysFromCivil_eq h hmonth hday]
    omega
  · -- Only the length of February depends on the year.
    by_cases htwo : monthOf day = 2
    · have hmonth2 : (monthOf day).toNat = 2 := by omega
      rw [if_pos htwo] at hd
      rw [daysInMonth, if_pos hmonth2, if_pos (by omega : monthOf day ≤ 2)]
      by_cases hlast : day = 365
      · rw [if_pos hlast] at hd
        rw [if_pos (isLeapYear_of_day h hlast era)]
        omega
      · rw [if_neg hlast] at hd
        split <;> omega
    · have hmonth2 : (monthOf day).toNat ≠ 2 := by omega
      rw [if_neg htwo] at hd
      rw [daysInMonth, if_neg hmonth2]
      split at hd <;> split <;> omega

end SearchRelay.Timestamp
