/-
# Day numbers and dates

Every day number is that of exactly the date that it is turned into, and that
date exists in the calendar. A year is found by whole cycles of 400 years,
centuries, cycles of four years and years; the leap days of the longer cycles
are their last days, which is why a century and a year are cut off at 3.

Key theorems: `Date.daysBeforeYear_yearAndDay`, `Date.monthAndDay_spec`,
`Date.dayNumber_ofDayNumber`, `Date.isValid_ofDayNumber`.
-/
import CourseBoard.Time.Calendar

namespace CourseBoard

namespace Date

/-- The days of a common or a leap year. -/
def yearLength (leap : Bool) : Nat :=
  if leap then 366 else 365

theorem isLeapYear_iff (y : Int) :
    isLeapYear y = true ↔ (y % 4 = 0 ∧ y % 100 ≠ 0) ∨ y % 400 = 0 := by
  simp [isLeapYear]

/-! ### Years -/

/-- The first day of a year by the parts that `yearAndDay` finds it in. -/
theorem daysBeforeYear_parts {era century quad year : Int} (hc : 0 ≤ century ∧ century ≤ 3)
    (hq : 0 ≤ quad ∧ quad ≤ 24) (hy : 0 ≤ year ∧ year ≤ 3) :
    daysBeforeYear (400 * era + 100 * century + 4 * quad + year + 1) =
      146097 * era + 36524 * century + 1461 * quad + 365 * year := by
  unfold daysBeforeYear
  have h4 : (400 * era + 100 * century + 4 * quad + year + 1 - 1) / 4 =
      100 * era + 25 * century + quad := by omega
  have h100 : (400 * era + 100 * century + 4 * quad + year + 1 - 1) / 100 = 4 * era + century := by
    omega
  have h400 : (400 * era + 100 * century + 4 * quad + year + 1 - 1) / 400 = era := by omega
  rw [h4, h100, h400]
  omega

/-- A fourth year of a cycle is a leap year, unless it ends a century that does
not end a cycle of 400 years. -/
theorem isLeapYear_parts {era century quad year : Int} (hc : 0 ≤ century ∧ century ≤ 3)
    (hq : 0 ≤ quad ∧ quad ≤ 24) (hy : 0 ≤ year ∧ year ≤ 3) :
    isLeapYear (400 * era + 100 * century + 4 * quad + year + 1) = true ↔
      year = 3 ∧ (quad = 24 → century = 3) := by
  rw [isLeapYear_iff]
  omega

/-- A day is the first of its year and as many days as are counted within it. -/
theorem daysBeforeYear_yearAndDay (n : Int) :
    daysBeforeYear (yearAndDay n).1 + (yearAndDay n).2 = n ∧
      (yearAndDay n).2 < yearLength (isLeapYear (yearAndDay n).1) := by
  have hera := Int.emod_nonneg n (show (146097 : Int) ≠ 0 by decide)
  have hera' := Int.emod_lt_of_pos n (show (0 : Int) < 146097 by decide)
  have hn := Int.mul_ediv_add_emod n 146097
  unfold yearAndDay
  simp only
  generalize n % 146097 = inEra at *
  generalize n / 146097 = era at *
  generalize hce : min (inEra / 36524) 3 = century
  have hc : 0 ≤ century ∧ century ≤ 3 := by omega
  -- only the last century of a cycle has the day 36524
  have hin : 0 ≤ inEra - century * 36524 ∧ inEra - century * 36524 ≤ 36524 ∧
      (inEra - century * 36524 = 36524 → century = 3) := by omega
  generalize hic : inEra - century * 36524 = inCentury at *
  have hquad := Int.mul_ediv_add_emod inCentury 1461
  have hq : 0 ≤ inCentury / 1461 ∧ inCentury / 1461 ≤ 24 := by omega
  have hiq : 0 ≤ inCentury % 1461 ∧ inCentury % 1461 < 1461 := by omega
  generalize inCentury / 1461 = quad at *
  generalize inCentury % 1461 = inQuad at *
  generalize hye : min (inQuad / 365) 3 = year
  have hy : 0 ≤ year ∧ year ≤ 3 := by omega
  have hday : 0 ≤ inQuad - year * 365 ∧ inQuad - year * 365 ≤ 365 ∧
      (inQuad - year * 365 = 365 → year = 3) := by omega
  rw [daysBeforeYear_parts hc hq hy]
  refine ⟨by omega, ?_⟩
  unfold yearLength
  split
  · omega
  · next hl =>
    rw [isLeapYear_parts hc hq hy] at hl
    omega

/-! ### Months -/

theorem sum_monthLengths (leap : Bool) : daysBeforeMonth (monthLengths leap) 12 = yearLength leap := by
  cases leap <;> rfl

/-- A day within months of these lengths is found in one of them, as one of its
days. -/
theorem monthAndDay_spec : ∀ (ls : List Nat) (k : Nat), k < daysBeforeMonth ls ls.length →
    1 ≤ (monthAndDay ls k).1 ∧ (monthAndDay ls k).1 ≤ ls.length ∧ 1 ≤ (monthAndDay ls k).2 ∧
      (monthAndDay ls k).2 ≤ ls.getD ((monthAndDay ls k).1 - 1) 0 ∧
      daysBeforeMonth ls ((monthAndDay ls k).1 - 1) + (monthAndDay ls k).2 = k + 1
  | [], k, h => by simp [daysBeforeMonth] at h
  | l :: ls, k, h => by
    unfold monthAndDay
    split
    · next hk => simp [daysBeforeMonth]; omega
    · next hk =>
      simp only [List.length_cons, daysBeforeMonth] at h
      obtain ⟨h1, h2, h3, h4, h5⟩ := monthAndDay_spec ls (k - l) (by omega)
      obtain ⟨m, hm⟩ : ∃ m, (monthAndDay ls (k - l)).1 = m + 1 := ⟨_, (Nat.sub_add_cancel h1).symm⟩
      rw [hm] at h2 h4 h5 ⊢
      simp only [Nat.add_sub_cancel] at h4 h5 ⊢
      refine ⟨by omega, by simpa using h2, h3, by simpa using h4, ?_⟩
      simp only [daysBeforeMonth]
      omega

/-! ### Dates -/

/-- No month has more than 31 days. -/
theorem day_le_of_isValid {d : Date} (h : d.IsValid) : d.day ≤ 31 := by
  obtain ⟨h1, h2, -, h4⟩ := h
  refine Nat.le_trans h4 ?_
  generalize isLeapYear d.year = leap
  have hm : ∀ m, m < 12 → (monthLengths leap).getD m 0 ≤ 31 := by cases leap <;> decide
  exact hm _ (by omega)

/-- The month and the day of a day number, within the months of its year. -/
theorem monthAndDay_yearAndDay (n : Int) :
    let yd := yearAndDay n
    let md := monthAndDay (monthLengths (isLeapYear yd.1)) yd.2
    1 ≤ md.1 ∧ md.1 ≤ 12 ∧ 1 ≤ md.2 ∧ md.2 ≤ (monthLengths (isLeapYear yd.1)).getD (md.1 - 1) 0 ∧
      daysBeforeMonth (monthLengths (isLeapYear yd.1)) (md.1 - 1) + md.2 = yd.2 + 1 := by
  intro yd md
  refine monthAndDay_spec (monthLengths (isLeapYear yd.1)) yd.2 ?_
  show yd.2 < daysBeforeMonth (monthLengths (isLeapYear yd.1)) 12
  rw [sum_monthLengths]
  exact (daysBeforeYear_yearAndDay n).2

/-- The date of a day number exists. -/
theorem isValid_ofDayNumber (n : Int) : (ofDayNumber n).IsValid := by
  obtain ⟨h1, h2, h3, h4, -⟩ := monthAndDay_yearAndDay (n + epochDay)
  exact ⟨h1, h2, h3, h4⟩

/-- **The date of a day number has that number.** -/
theorem dayNumber_ofDayNumber (n : Int) : (ofDayNumber n).dayNumber = n := by
  obtain ⟨h1, -, h3, -, h5⟩ := monthAndDay_yearAndDay (n + epochDay)
  have hy := (daysBeforeYear_yearAndDay (n + epochDay)).1
  unfold dayNumber ofDayNumber
  simp only at h5 ⊢
  omega

end Date

end CourseBoard
