import Agenda.Calendar.Date
import Mathlib.Tactic.IntervalCases

/-!
# The order of dates

Dates are compared by their day numbers.  This module says how that order
follows the years and the months of the calendar, and that the calendar has no
gaps: a number between the day numbers of two dates is the day number of a
date (`Date.exists_of_between`).
-/

namespace Agenda

theorem twentyEight_le_monthLength
    (year : Int) {month : Nat}
    (named : 1 ≤ month ∧ month ≤ 12) :
    28 ≤ monthLength year month := by
  rcases named with ⟨lower, upper⟩
  interval_cases month <;> simp only [monthLength, Nat.reduceLeDiff]
  split <;> omega

theorem monthLength_le (year : Int) (month : Nat) : monthLength year month ≤ 31 := by
  rw [monthLength.eq_def]
  split
  · split <;> omega
  all_goals omega

theorem monthLength_eq_of_ne_two
    {month : Nat} (year other : Int)
    (notFebruary : month ≠ 2) :
    monthLength year month = monthLength other month := by
  rw [monthLength.eq_def, monthLength.eq_def other]
  split
  · exact absurd rfl notFebruary
  all_goals rfl

theorem daysBeforeMonth_add_monthLength_le
    (year : Int) {earlier later : Nat}
    (before : earlier < later) :
    daysBeforeMonth year earlier + monthLength year earlier ≤
      daysBeforeMonth year later :=
  daysBeforeMonth_le_daysBeforeMonth year (Nat.succ_le_of_lt before)

namespace Date

/-- The year of a day number holds the months that make it up. -/
theorem yearLength_eq (year : Int) :
    daysBeforeYear year + daysBeforeMonth year 13 =
      daysBeforeYear (year + 1) := by
  rw [daysBeforeMonth_thirteen, daysBeforeYear_add_one]

instance : Std.LawfulOrderLeftLeaningMin Date where
  min_eq_left _ _ ordered := if_pos ordered
  min_eq_right _ _ unordered := if_neg unordered

@[simp]
theorem dayNumber_max (first second : Date) :
    (max first second).dayNumber = max first.dayNumber second.dayNumber := by
  show (if first ≤ second then second else first).dayNumber = _
  split
  · rename_i ordered
    exact (Int.max_eq_right ordered).symm
  · rename_i unordered
    exact (Int.max_eq_left (Int.le_of_lt (Int.not_le.1 unordered))).symm

instance : Std.LawfulOrderMax Date where
  max_eq_or first second := by
    show (if first ≤ second then second else first) = first ∨ _
    split
    · exact .inr (if_pos ‹_›)
    · exact .inl rfl
  max_le_iff first second bound := by
    simp only [le_iff, dayNumber_max]
    omega

theorem lt_of_year_lt
    {first second : Date}
    (earlier : first.year < second.year) :
    first < second := by
  rw [lt_iff]
  have ends := first.dayNumber_le_daysBeforeYear
  have grows := daysBeforeYear_le_daysBeforeYear (Int.add_one_le_of_lt earlier)
  have starts := second.daysBeforeYear_lt_dayNumber
  omega

theorem lt_of_month_lt
    {first second : Date}
    (sameYear : first.year = second.year)
    (earlier : first.month < second.month) :
    first < second := by
  rw [lt_iff, dayNumber, dayNumber, sameYear]
  have fits := first.isReal.2.2
  have grows := daysBeforeMonth_add_monthLength_le first.year earlier
  have starts := second.isReal.2.1
  rw [sameYear] at fits grows
  omega

theorem year_le_of_le
    {first second : Date}
    (ordered : first ≤ second) :
    first.year ≤ second.year := by
  refine Int.not_lt.1 fun later => ?_
  have reversed := lt_of_year_lt later
  rw [lt_iff] at reversed
  rw [le_iff] at ordered
  omega

theorem exists_dayNumber_eq_iff {number : Int} :
    (∃ date : Date, date.dayNumber = number) ↔
      daysBeforeYear firstYear < number ∧
        number ≤ daysBeforeYear (lastYear + 1) := by
  constructor
  · rintro ⟨date, rfl⟩
    have lower := daysBeforeYear_le_daysBeforeYear date.isReal.1.1
    have upper := daysBeforeYear_le_daysBeforeYear
      (Int.add_le_add_right date.isReal.1.2 1)
    have starts := date.daysBeforeYear_lt_dayNumber
    have ends := date.dayNumber_le_daysBeforeYear
    exact ⟨by omega, by omega⟩
  · rintro ⟨lower, upper⟩
    have starts := daysBeforeYear_yearOfDay_lt number
    have ends := le_daysBeforeYear_yearOfDay_add_one number
    have notBefore : firstYear ≤ yearOfDay number := by
      refine Int.not_lt.1 fun before => ?_
      have := daysBeforeYear_le_daysBeforeYear (Int.add_one_le_of_lt before)
      omega
    have notAfter : yearOfDay number ≤ lastYear := by
      refine Int.not_lt.1 fun after => ?_
      have := daysBeforeYear_le_daysBeforeYear (Int.add_one_le_of_lt after)
      omega
    rw [← yearLength_eq] at ends
    have place := @daysBeforeMonth_add_locateDay (yearOfDay number) 1 11
      (number - daysBeforeYear (yearOfDay number)).toNat (by omega)
      (by simp only [daysBeforeMonth_one, Nat.reduceAdd]; omega)
    rcases found : locateDay (yearOfDay number) 1 11
      (number - daysBeforeYear (yearOfDay number)).toNat with ⟨month, day⟩
    simp only [found, daysBeforeMonth_one] at place
    refine ⟨⟨yearOfDay number, month, day, ⟨notBefore, notAfter⟩, place.2⟩, ?_⟩
    simp only [dayNumber]
    omega

/-- The calendar has no gaps. -/
theorem exists_of_between
    (first last : Date) (number : Int)
    (above : first.dayNumber ≤ number)
    (below : number ≤ last.dayNumber) :
    ∃ date : Date, date.dayNumber = number := by
  have lower := (exists_dayNumber_eq_iff.1 ⟨first, rfl⟩).1
  have upper := (exists_dayNumber_eq_iff.1 ⟨last, rfl⟩).2
  exact exists_dayNumber_eq_iff.2 ⟨by omega, by omega⟩

/-!
## Consecutive dates

The year of a day number is found by arithmetic that no proof here carries out.
-/

section

attribute [local irreducible] yearOfDay

theorem following_zero (date : Date) : date.following 0 = [] :=
  rfl

theorem following_succ (date : Date) (count : Nat) :
    date.following (count + 1) =
      match date.addDays? 1 with
      | none => []
      | some next => next :: next.following count :=
  rfl

end

theorem mem_following_iff
    {date other : Date} {count : Nat} :
    other ∈ date.following count ↔
      date < other ∧ other.dayNumber ≤ date.dayNumber + count := by
  induction count generalizing date with
  | zero =>
      rw [lt_iff]
      simp only [following_zero, List.not_mem_nil, false_iff, not_and]
      omega
  | succ count ih =>
      rw [following_succ]
      cases found : date.addDays? 1 with
      | none =>
          simp only [List.not_mem_nil, false_iff, not_and]
          intro after
          rw [lt_iff] at after
          rcases exists_of_between date other (date.dayNumber + 1)
            (by omega) after with ⟨next, place⟩
          rw [addDays?_eq_some_iff.2 place] at found
          cases found
      | some next =>
          have place := addDays?_eq_some_iff.1 found
          simp only [List.mem_cons, ih, lt_iff]
          constructor
          · rintro (rfl | ⟨after, within⟩) <;> omega
          · rintro ⟨after, within⟩
            by_cases same : other.dayNumber = next.dayNumber
            · exact .inl (dayNumber_injective same)
            · exact .inr (by omega)

theorem pairwise_following (date : Date) (count : Nat) :
    (date.following count).Pairwise (· < ·) := by
  induction count generalizing date with
  | zero => exact .nil
  | succ count ih =>
      rw [following_succ]
      cases date.addDays? 1 with
      | none => exact .nil
      | some next =>
          refine List.pairwise_cons.2 ⟨?_, ih next⟩
          intro other member
          exact (mem_following_iff.1 member).1

theorem le_of_find?_eq_some
    {dates : List Date} {fits : Date → Bool} {date other : Date}
    (increasing : dates.Pairwise (· < ·))
    (found : dates.find? fits = some date)
    (member : other ∈ dates)
    (otherFits : fits other = true) :
    date ≤ other := by
  rcases List.find?_eq_some_iff_append.1 found with ⟨-, before, after, rfl, misfits⟩
  rcases List.mem_append.1 member with early | late
  · have misfit := misfits other early
    rw [otherFits] at misfit
    cases misfit
  · rcases List.mem_cons.1 late with rfl | later
    · exact Std.le_refl _
    · exact Std.le_of_lt
        ((List.pairwise_cons.1 (List.pairwise_append.1 increasing).2.1).1 other later)

theorem weekday_mem (date : Date) : 1 ≤ date.weekday ∧ date.weekday ≤ 7 := by
  rw [weekday]
  omega

/-- Each weekday falls on one of the seven days after a date, if the calendar holds them. -/
theorem exists_weekday
    {start last : Date} {weekday : Int}
    (room : start.dayNumber + 7 ≤ last.dayNumber)
    (named : 1 ≤ weekday ∧ weekday ≤ 7) :
    ∃ date : Date, start < date ∧ date.dayNumber ≤ start.dayNumber + 7 ∧
      date.weekday = weekday := by
  let distance : Int := (weekday - 1 - start.dayNumber) % 7 + 1
  rcases exists_of_between start last (start.dayNumber + distance)
    (by omega) (by omega) with ⟨date, place⟩
  refine ⟨date, ?_, by omega, ?_⟩
  · rw [lt_iff]
    omega
  · rw [Date.weekday]
    omega

end Date

end Agenda
