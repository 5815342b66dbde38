import Keyset.Calendar.Date

/-! # Year, month and day of a date

A cycle of 400 years is cut into years that start in March, and a year into
months. Both cuts are exact: a day of the cycle falls into the year that
`civil` finds for it (`yearOf_spec`), on its last day only in a leap year, and a
day of the year into the month (`months`). So `civil` gives a day that the
calendar has (`civil_valid`), and `ofCivil?` finds the date again. -/

namespace Keyset.Date

/-! ## Days of a cycle -/

/-- The year of a day of the cycle, counted from its start. -/
def yearOf (d : Nat) : Nat := (d - d / 1460 + d / 36524 - d / 146096) / 365

/-- The day of the cycle on which a year starts. -/
def yearStart (y : Nat) : Nat := 365 * y + y / 4 - y / 100

/-- A year of 366 days. Its last day is 29 February. -/
def IsLong (y : Nat) : Prop := y % 4 = 3 ∧ (y % 100 ≠ 99 ∨ y = 399)

/-- The year of a day of the century `c`, where `k` counts periods of four years and `r` the years
in one of them, from 1 on. -/
theorem yearOf_century {d c k r : Nat} (hc : d / 36524 = c) (hlast : c < 4)
    (hk : d / 1460 = 25 * c + k) (hr : yearOf d + 1 = 100 * c + 4 * k + r) (hr4 : r ≤ 4) :
    yearStart (yearOf d) ≤ d ∧ d ≤ yearStart (yearOf d) + 365 ∧
      (d = yearStart (yearOf d) + 365 → IsLong (yearOf d)) := by
  have hcycle : d / 146096 = 0 := by omega
  have hy : yearOf d = (d - (25 * c + k) + c - 0) / 365 := by rw [yearOf, hk, hc, hcycle]
  have hk25 : k ≤ 25 := by omega
  generalize yearOf d = y at hy hr ⊢
  have hcentury : y / 100 = c := by omega
  unfold yearStart IsLong
  have hcases : r = 0 ∨ r = 1 ∨ r = 2 ∨ r = 3 ∨ r = 4 := by omega
  rcases hcases with rfl | rfl | rfl | rfl | rfl
  · have hquarter : y / 4 = 25 * c + k - 1 := by omega
    rw [hquarter, hcentury]
    clear hcentury hquarter
    omega
  all_goals
    have hquarter : y / 4 = 25 * c + k := by omega
    rw [hquarter, hcentury]
    clear hcentury hquarter
    omega

theorem yearOf_spec {d : Nat} (h : d < 146097) :
    yearOf d < 400 ∧ yearStart (yearOf d) ≤ d ∧ d ≤ yearStart (yearOf d) + 365 ∧
      (d = yearStart (yearOf d) + 365 → IsLong (yearOf d)) := by
  have hlt : yearOf d < 400 := by unfold yearOf; omega
  refine ⟨hlt, ?_⟩
  by_cases hlast : d = 146096
  · -- the last day of the cycle is one more than four centuries have
    subst hlast
    unfold IsLong
    decide
  · obtain ⟨c, hc⟩ : ∃ c, d / 36524 = c := ⟨_, rfl⟩
    obtain ⟨k, hk⟩ : ∃ k, d / 1460 = 25 * c + k := ⟨d / 1460 - 25 * c, by omega⟩
    obtain ⟨r, hr⟩ : ∃ r, yearOf d + 1 = 100 * c + 4 * k + r := by
      refine ⟨yearOf d + 1 - (100 * c + 4 * k), ?_⟩
      unfold yearOf
      omega
    refine yearOf_century hc (by omega) hk hr ?_
    unfold yearOf at hr
    omega

/-! ## Days of a year -/

/-- The month of a day of the year, counted from March. -/
def monthOf (n : Nat) : Nat := (5 * n + 2) / 153

/-- The day of the year on which a month starts. -/
def monthStart (m : Nat) : Nat := (153 * m + 2) / 5

/-- The month by its number in the calendar. -/
def calendarMonth (m : Nat) : Nat := if m < 10 then m + 3 else m - 9

theorem months : ∀ n < 366, monthStart (monthOf n) ≤ n ∧
    1 ≤ calendarMonth (monthOf n) ∧ calendarMonth (monthOf n) ≤ 12 ∧
    (if 2 < calendarMonth (monthOf n) then calendarMonth (monthOf n) - 3
      else calendarMonth (monthOf n) + 9) = monthOf n ∧
    (n < 365 → n - monthStart (monthOf n) + 1 ≤ daysInMonth 1 (calendarMonth (monthOf n))) := by
  decide +kernel

/-- No month is shorter than in an ordinary year. -/
theorem daysInMonth_one_le (year : Int) (month : Nat) :
    daysInMonth 1 month ≤ daysInMonth year month := by
  unfold daysInMonth
  split
  · rw [if_neg (by decide)]
    split <;> decide
  all_goals exact Nat.le_refl _

/-! ## Dates -/

/-- The day in its cycle. -/
def inCycle (date : Date) : Nat := ((date.day + 719468) % 146097).toNat

/-- The day in its year. -/
def inYear (date : Date) : Nat := date.inCycle - yearStart (yearOf date.inCycle)

/-- The year in which the last March was. -/
def marchYear (date : Date) : Int := yearOf date.inCycle + (date.day + 719468) / 146097 * 400

theorem civil_eq (date : Date) : date.civil =
    (if calendarMonth (monthOf date.inYear) ≤ 2 then date.marchYear + 1 else date.marchYear,
      calendarMonth (monthOf date.inYear), date.inYear - monthStart (monthOf date.inYear) + 1) := by
  rfl

theorem inCycle_lt (date : Date) : date.inCycle < 146097 := by
  unfold inCycle
  omega

theorem inYear_le (date : Date) : date.inYear ≤ 365 := by
  have h := (yearOf_spec date.inCycle_lt).2.2.1
  unfold inYear
  omega

/-- The number of a day of a year that starts in March. -/
theorem dayNumber_eq (marchYear : Int) {month day m : Nat} (hday : 1 ≤ day)
    (hm : (if 2 < month then month - 3 else month + 9) = m) :
    dayNumber (if month ≤ 2 then marchYear + 1 else marchYear) month day =
      marchYear / 400 * 146097 + marchYear % 400 * 365 + marchYear % 400 / 4 -
        marchYear % 400 / 100 + ((monthStart m + (day - 1) : Nat) : Int) - 719468 := by
  have hy : (if month ≤ 2 then (if month ≤ 2 then marchYear + 1 else marchYear) - 1
      else if month ≤ 2 then marchYear + 1 else marchYear) = marchYear := by
    split <;> omega
  have hofYear : (153 * m + 2) / 5 + day - 1 = monthStart m + (day - 1) := by
    unfold monthStart
    omega
  simp only [dayNumber, hy, hm, hofYear]

theorem dayNumber_civil (date : Date) :
    dayNumber date.civil.1 date.civil.2.1 date.civil.2.2 = date.day := by
  obtain ⟨hstart, -, -, hmonth, -⟩ := months date.inYear (by have := date.inYear_le; omega)
  obtain ⟨hyear, hle, -, -⟩ := yearOf_spec date.inCycle_lt
  rw [civil_eq, dayNumber_eq date.marchYear (Nat.le_add_left 1 _) hmonth, Nat.add_sub_cancel,
    Nat.add_sub_cancel' hstart]
  have hcycle : date.marchYear / 400 = (date.day + 719468) / 146097 := by
    unfold marchYear
    omega
  have hrest : date.marchYear % 400 = (yearOf date.inCycle : Int) := by
    unfold marchYear
    omega
  have hsplit : (date.inCycle : Int) = yearStart (yearOf date.inCycle) + date.inYear := by
    unfold inYear
    omega
  have hday : (date.inCycle : Int) = (date.day + 719468) % 146097 := by
    unfold inCycle
    omega
  rw [hcycle, hrest]
  unfold yearStart at hsplit
  omega

/-- The calendar has the day. Only 29 February needs its year to be a leap year. -/
theorem civil_valid (date : Date) : 1 ≤ date.civil.2.1 ∧ date.civil.2.1 ≤ 12 ∧
    1 ≤ date.civil.2.2 ∧ date.civil.2.2 ≤ daysInMonth date.civil.1 date.civil.2.1 := by
  obtain ⟨-, hone, htwelve, -, hdays⟩ := months date.inYear (by have := date.inYear_le; omega)
  refine ⟨hone, htwelve, Nat.le_add_left 1 _, ?_⟩
  by_cases hlast : date.inYear = 365
  · obtain ⟨-, hle, -, hlong⟩ := yearOf_spec date.inCycle_lt
    have hlong : IsLong (yearOf date.inCycle) := hlong (by unfold inYear at hlast; omega)
    have hleap : isLeapYear (date.marchYear + 1) = true := by
      unfold IsLong at hlong
      simp only [isLeapYear, Bool.and_eq_true, Bool.or_eq_true, decide_eq_true_eq]
      unfold marchYear
      omega
    have hdays : daysInMonth (date.marchYear + 1) 2 = 29 := if_pos hleap
    rw [civil_eq, hlast]
    exact Nat.le_of_eq hdays.symm
  · exact Nat.le_trans (hdays (by have := date.inYear_le; omega)) (daysInMonth_one_le _ _)

theorem ofCivil?_civil (date : Date) :
    ofCivil? date.civil.1 date.civil.2.1 date.civil.2.2 = some date := by
  rw [ofCivil?, if_pos date.civil_valid, dayNumber_civil, ofDay?,
    dif_pos ⟨date.first_le, date.le_last⟩]

end Keyset.Date
