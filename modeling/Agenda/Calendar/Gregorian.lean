/-!
# The Gregorian year

Leap years, the lengths of months and the number of days before a year or a
month, for every year of the proleptic Gregorian calendar, year 0 and the
years before it included.

Days are numbered from 1 on the first of January of year 1.  The main
statements place a day number inside its year (`yearOfDay_eq_iff`) and a day
of the year inside its month (`daysBeforeMonth_add_locateDay`).
-/

namespace Agenda

/-- A leap year is divisible by 4, and if it is a century, by 400. -/
def IsLeapYear (year : Int) : Prop :=
  year % 4 = 0 ∧ (year % 100 ≠ 0 ∨ year % 400 = 0)

instance : DecidablePred IsLeapYear := fun year =>
  inferInstanceAs (Decidable (year % 4 = 0 ∧ (year % 100 ≠ 0 ∨ year % 400 = 0)))

/-- The number of days of a year. -/
def yearLength (year : Int) : Nat :=
  if IsLeapYear year then 366 else 365

/-- The length of a month by its number, 0 for a number outside 1 to 12. -/
def monthLength (year : Int) : Nat → Nat
  | 2 => if IsLeapYear year then 29 else 28
  | 4 | 6 | 9 | 11 => 30
  | 1 | 3 | 5 | 7 | 8 | 10 | 12 => 31
  | _ => 0

/-- The days of a year before the first of a month. -/
def daysBeforeMonth (year : Int) : Nat → Nat
  | 0 => 0
  | month + 1 => daysBeforeMonth year month + monthLength year month

/-- The days from the first of January of year 1 to that of `year`, negative before it. -/
def daysBeforeYear (year : Int) : Int :=
  let elapsed := year - 1
  365 * elapsed + elapsed / 4 - elapsed / 100 + elapsed / 400

/--
The year of a day number: an estimate by the mean length of a year, which the
neighbouring years correct by at most one.
-/
def yearOfDay (dayNumber : Int) : Int :=
  let estimate := (dayNumber - 1) * 400 / 146097 + 1
  if dayNumber ≤ daysBeforeYear estimate then estimate - 1
  else if daysBeforeYear (estimate + 1) < dayNumber then estimate + 1
  else estimate

/-- The month that holds a day counted from the first of `month`, and the day of that month. -/
def locateDay (year : Int) (month : Nat) : (laterMonths day : Nat) → Nat × Nat
  | 0, day => (month, day)
  | laterMonths + 1, day =>
    if day ≤ monthLength year month then (month, day)
    else locateDay year (month + 1) laterMonths (day - monthLength year month)

/-- A month of positive length is one of the twelve. -/
theorem month_mem_of_monthLength_pos {year : Int} {month : Nat}
    (positive : 0 < monthLength year month) : 1 ≤ month ∧ month ≤ 12 := by
  unfold monthLength at positive
  split at positive <;> omega

/-- No day of a year comes before January. -/
@[simp]
theorem daysBeforeMonth_one (year : Int) : daysBeforeMonth year 1 = 0 :=
  rfl

/-- The months of a year make up the year. -/
theorem daysBeforeMonth_thirteen (year : Int) : daysBeforeMonth year 13 = yearLength year := by
  simp only [daysBeforeMonth, monthLength, yearLength]
  split <;> rfl

theorem daysBeforeMonth_le_daysBeforeMonth (year : Int) {earlier later : Nat}
    (before : earlier ≤ later) : daysBeforeMonth year earlier ≤ daysBeforeMonth year later := by
  induction before with
  | refl => exact Nat.le_refl _
  | step _ ih => exact Nat.le_trans ih (Nat.le_add_right _ _)

/-- A year later, the days before it have grown by the length of the year. -/
theorem daysBeforeYear_add_one (year : Int) :
    daysBeforeYear (year + 1) = daysBeforeYear year + yearLength year := by
  unfold daysBeforeYear yearLength
  split <;> rename_i leap <;> simp only [IsLeapYear] at leap <;> simp only <;> omega

theorem daysBeforeYear_le_daysBeforeYear {earlier later : Int} (before : earlier ≤ later) :
    daysBeforeYear earlier ≤ daysBeforeYear later := by
  unfold daysBeforeYear
  simp only
  omega

theorem daysBeforeYear_yearOfDay_lt (dayNumber : Int) :
    daysBeforeYear (yearOfDay dayNumber) < dayNumber := by
  unfold yearOfDay
  simp only
  split
  · unfold daysBeforeYear at *
    simp only at *
    omega
  · split
    · assumption
    · omega

theorem le_daysBeforeYear_yearOfDay_add_one (dayNumber : Int) :
    dayNumber ≤ daysBeforeYear (yearOfDay dayNumber + 1) := by
  unfold yearOfDay
  simp only
  split
  · simpa
  · split
    · unfold daysBeforeYear at *
      simp only at *
      omega
    · omega

/-- The year of a day number is the one year that starts before it and ends no earlier. -/
theorem yearOfDay_eq_iff {dayNumber year : Int} :
    yearOfDay dayNumber = year ↔
      daysBeforeYear year < dayNumber ∧ dayNumber ≤ daysBeforeYear (year + 1) := by
  constructor
  · rintro rfl
    exact ⟨daysBeforeYear_yearOfDay_lt dayNumber, le_daysBeforeYear_yearOfDay_add_one dayNumber⟩
  · rintro ⟨starts, ends⟩
    have lower := daysBeforeYear_yearOfDay_lt dayNumber
    have upper := le_daysBeforeYear_yearOfDay_add_one dayNumber
    rcases Int.lt_trichotomy (yearOfDay dayNumber) year with before | same | after
    · have := daysBeforeYear_le_daysBeforeYear (Int.add_one_le_of_lt before)
      omega
    · exact same
    · have := daysBeforeYear_le_daysBeforeYear (Int.add_one_le_of_lt after)
      omega

/-- A day of a month is found again from its distance to an earlier month. -/
theorem locateDay_of_le {year : Int} {start laterMonths distance month day : Nat}
    (positive : 1 ≤ day) (fits : day ≤ monthLength year month)
    (after : start ≤ month) (within : month ≤ start + laterMonths)
    (place : daysBeforeMonth year start + distance = daysBeforeMonth year month + day) :
    locateDay year start laterMonths distance = (month, day) := by
  induction laterMonths generalizing start distance with
  | zero =>
    obtain rfl : start = month := by omega
    obtain rfl : distance = day := by omega
    rfl
  | succ laterMonths ih =>
    unfold locateDay
    rcases Nat.eq_or_lt_of_le after with rfl | before
    · obtain rfl : distance = day := by omega
      exact if_pos fits
    · have reached := daysBeforeMonth_le_daysBeforeMonth year (Nat.succ_le_of_lt before)
      rw [Nat.succ_eq_add_one, daysBeforeMonth] at reached
      rw [if_neg (by omega)]
      exact ih (by omega) (by omega) (by rw [daysBeforeMonth]; omega)

/-- A day lies in the month where it is located. -/
theorem daysBeforeMonth_add_locateDay {year : Int} {start laterMonths distance : Nat}
    (positive : 1 ≤ distance)
    (fits : daysBeforeMonth year start + distance ≤
      daysBeforeMonth year (start + laterMonths + 1)) :
    daysBeforeMonth year (locateDay year start laterMonths distance).1 +
        (locateDay year start laterMonths distance).2 =
      daysBeforeMonth year start + distance ∧
    1 ≤ (locateDay year start laterMonths distance).2 ∧
    (locateDay year start laterMonths distance).2 ≤
      monthLength year (locateDay year start laterMonths distance).1 := by
  induction laterMonths generalizing start distance with
  | zero =>
    rw [Nat.add_zero, daysBeforeMonth] at fits
    exact ⟨rfl, positive, by simp only [locateDay]; omega⟩
  | succ laterMonths ih =>
    unfold locateDay
    split
    · exact ⟨rfl, positive, by assumption⟩
    · have next : start + 1 + laterMonths + 1 = start + (laterMonths + 1) + 1 := by omega
      have later := @ih (start + 1) (distance - monthLength year start) (by omega)
        (by rw [next, daysBeforeMonth]; omega)
      rw [daysBeforeMonth] at later
      exact ⟨by omega, later.2⟩

end Agenda
