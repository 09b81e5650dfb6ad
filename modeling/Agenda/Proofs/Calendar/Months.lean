import Agenda.Proofs.Occurrence.FallsOn
import Agenda.Proofs.Rule.Check
import Mathlib.Data.List.Iterate
import Mathlib.Data.Set.Card
import Mathlib.Order.Interval.Finset.Nat

/-!
# Months and their dates

The last day of a month is found by one step back from the first of the next
month, and the length of the month is read off it.  This module compares that
with the calendar itself: with the day after the last one
(`Month.lastDay?_eq_some_iff`), with the number of dates that the month has
(`Month.ncard_dates`) and with the greatest lengths by which rules are checked
(`Rule.monthLength_eq_longestLength_iff`).

Steps from month to month count up the index of the month, so a run of months
is a run of its iterates.  The main statement is `months_follow_calendar`.
-/

namespace Agenda

namespace Month

/-! ## Dates of a month -/

/-- The last day is the one whose following day is the first of the next month. -/
theorem lastDay?_eq_some_iff
    {month : Month} {last : Date} :
    month.lastDay? = some last ↔
      ∃ first, last.addDays? 1 = some first ∧ ofDate first = month.next ∧ first.day = 1 := by
  simp only [lastDay?, Option.bind_eq_bind, Option.bind_eq_some_iff, Date.ofYmd?_eq_some_iff,
    Date.addDays?_eq_some_iff]
  constructor
  · rintro ⟨first, ⟨year, number, day⟩, place⟩
    refine ⟨first, by omega, ?_, day⟩
    rw [ofDate, year, number]
  · rintro ⟨first, place, same, day⟩
    rw [← same]
    exact ⟨first, ⟨rfl, rfl, day⟩, by omega⟩

/-- A date is determined by its month and its day. -/
theorem injOn_day
    (month : Month) :
    Set.InjOn Date.day {date | ofDate date = month} := by
  rintro first rfl second same dayEq
  simp only [Set.mem_ofPred_eq, ofDate, Month.mk.injEq] at same
  have found := Date.ofYmd?_self second
  rw [same.1, same.2, ← dayEq, Date.ofYmd?_self] at found
  exact Option.some.inj found

/-- The days of the dates of a month are those from 1 to its length. -/
theorem image_day
    {month : Month}
    (inCalendar : firstYear ≤ month.year ∧ month.year ≤ lastYear) :
    Date.day '' {date | ofDate date = month} =
      Finset.Icc 1 (monthLength month.year month.number) := by
  ext day
  simp only [Set.mem_image, Set.mem_ofPred_eq, Finset.coe_Icc, Set.mem_Icc]
  constructor
  · rintro ⟨date, rfl, rfl⟩
    exact date.isReal.2
  · intro inMonth
    exact ⟨⟨month.year, month.number, day, inCalendar, inMonth⟩, rfl, rfl⟩

theorem ncard_dates
    {month : Month}
    (inCalendar : firstYear ≤ month.year ∧ month.year ≤ lastYear) :
    {date | ofDate date = month}.ncard = monthLength month.year month.number := by
  rw [← (injOn_day month).ncard_image, image_day inCalendar, Set.ncard_coe_finset, Nat.card_Icc]
  omega

/-! ## Steps from month to month -/

theorem iterate_next
    {month : Month}
    (named : month.IsNamed)
    (count : Nat) :
    next^[count] month = ofIndex (month.index + count) := by
  induction count with
  | zero => rw [Function.iterate_zero_apply, Int.natCast_zero, Int.add_zero, ofIndex_index named]
  | succ count ih =>
      rw [Function.iterate_succ_apply', ih, next_ofIndex, Int.natCast_succ, Int.add_assoc]

theorem run_eq_map_iterate
    (month : Month) (count : Nat) :
    month.run count = (List.range count).map fun steps => next^[steps] month := by
  rw [List.range_map_iterate]
  induction count generalizing month with
  | zero => rfl
  | succ count ih => rw [run, List.iterate, ih]

/-- A run visits months in their order, each of them once. -/
theorem pairwise_run
    {month : Month}
    (named : month.IsNamed)
    (count : Nat) :
    (month.run count).Pairwise fun earlier later => earlier.index < later.index := by
  rw [run_eq_map_iterate, List.pairwise_map]
  refine List.pairwise_lt_range.imp ?_
  intro earlier later before
  rw [iterate_next named, iterate_next named, index_ofIndex, index_ofIndex]
  omega

/-- The year of a month stays in a signed word of 32 bits as long as its index allows. -/
theorem year_ofIndex_lt_iff
    {index : Int} :
    (ofIndex index).year < 2 ^ 31 ↔ index < 12 * 2 ^ 31 := by
  simp only [ofIndex]
  omega

end Month

/-! ## Lengths of months -/

/-- Only a February that is no leap month falls short of the greatest length. -/
theorem Rule.monthLength_eq_longestLength_iff
    (year : Int) {number : Nat}
    (named : 1 ≤ number ∧ number ≤ 12) :
    (monthLength year number : Int) = longestLength number ↔ (number = 2 → IsLeapYear year) := by
  have longYear : IsLeapYear 2000 := by decide
  rw [longestLength_eq_monthLength longYear named]
  by_cases february : number = 2
  · subst february
    by_cases leap : IsLeapYear year <;> simp [monthLength, leap, longYear]
  · rw [monthLength_eq_of_ne_two year 2000 february]
    simp [february]

theorem isLeapYear_iff_dvd
    (year : Int) :
    IsLeapYear year ↔ 4 ∣ year ∧ ¬ 100 ∣ year ∨ 400 ∣ year := by
  simp only [IsLeapYear]
  omega

/--
The month arithmetic is that of the Gregorian calendar, for every month that
starts in a year of the calendar but the last.  The last day of a month is a
date of it, and the day after is the first of the next month.  The length of a
month is the number of its dates; it is the greatest one that its number allows,
except in a February of 28 days.  Leap years are those of the Gregorian rule.
Steps to the next month count up the index, so a run of months visits each of
them once and in order.  The years fit a signed word of 32 bits up to the index
at which the first greater year would start.
-/
theorem months_follow_calendar
    (month : Month)
    (named : month.IsNamed)
    (inCalendar : firstYear ≤ month.year ∧ month.year < lastYear) :
    (∃ last first,
      month.lastDay? = some last ∧ Month.ofDate last = month ∧
      last.addDays? 1 = some first ∧ Month.ofDate first = month.next ∧ first.day = 1) ∧
    (month.length = {date | Month.ofDate date = month}.ncard ∧
      month.length ≤ Rule.longestLength month.number ∧
      (month.length = Rule.longestLength month.number ↔
        ¬ (month.number = 2 ∧ hasLeapDay month.year = false))) ∧
    (hasLeapDay month.year = true ↔
      4 ∣ month.year ∧ ¬ 100 ∣ month.year ∨ 400 ∣ month.year) ∧
    (∀ count : Nat,
      (Month.next^[count] month).IsNamed ∧
      (Month.next^[count] month).index = month.index + count ∧
      ((Month.next^[count] month).year < 2 ^ 31 ↔ month.index + count < 12 * 2 ^ 31)) ∧
    ∀ count : Nat,
      month.run count = (List.range count).map (fun steps => Month.next^[steps] month) ∧
      (month.run count).Pairwise (fun earlier later => earlier.index < later.index) ∧
      ∀ other, other ∈ month.run count ↔
        other.IsNamed ∧ month.index ≤ other.index ∧ other.index < month.index + count := by
  have followed : month.next.year ≤ lastYear := by
    simp only [Month.next]
    split <;> simp only <;> omega
  have upToLast : firstYear ≤ month.year ∧ month.year ≤ lastYear := by omega
  have length := Month.length_eq_monthLength named inCalendar.1 followed
  have leapDay := Rule.hasLeapDay_eq_true_iff upToLast
  refine ⟨?_, ⟨?_, ?_, ?_⟩, ?_, ?_, ?_⟩
  · rcases Month.exists_lastDay?_eq named inCalendar.1 followed with ⟨last, found, inMonth, -⟩
    rcases Month.lastDay?_eq_some_iff.1 found with ⟨first, next, inNext, day⟩
    exact ⟨last, first, found, inMonth, next, inNext, day⟩
  · rw [length, Month.ncard_dates upToLast]
  · rw [length]
    exact Rule.monthLength_le_longestLength month.year named
  · rw [length, Rule.monthLength_eq_longestLength_iff month.year named, ← leapDay, not_and,
      Bool.not_eq_false]
  · rw [leapDay, isLeapYear_iff_dvd]
  · intro count
    rw [Month.iterate_next named]
    exact ⟨Month.isNamed_ofIndex _, Month.index_ofIndex _, Month.year_ofIndex_lt_iff⟩
  · intro count
    exact ⟨Month.run_eq_map_iterate month count, Month.pairwise_run named count,
      fun other => Month.mem_run_iff named⟩

/--
February of the year −100 has 28 dates, as this year of a century is no leap
year.  December of the year −1 is followed by January of year 0, and from there
it takes all months of a leap year to reach January of year 1.
-/
theorem months_follow_calendar_centuries :
    let february : Month := ⟨-100, 2⟩
    let december : Month := ⟨-1, 12⟩
    (february.IsNamed ∧ firstYear ≤ february.year ∧ february.year < lastYear) ∧
      (december.IsNamed ∧ firstYear ≤ december.year ∧ december.year < lastYear) ∧
      {date | Month.ofDate date = february}.ncard = 28 ∧
      february.length ≠ Rule.longestLength 2 ∧
      (∃ last first : Date,
        december.lastDay? = some last ∧ last.day = 31 ∧
        last.addDays? 1 = some first ∧ Month.ofDate first = ⟨0, 1⟩ ∧ first.day = 1) ∧
      Month.next^[13] december = ⟨1, 1⟩ := by
  intro february december
  have februaryNamed : february.IsNamed := ⟨by decide, by decide⟩
  have decemberNamed : december.IsNamed := ⟨by decide, by decide⟩
  have februaryInside : firstYear ≤ february.year ∧ february.year < lastYear := by decide
  have decemberInside : firstYear ≤ december.year ∧ december.year < lastYear := by decide
  rcases months_follow_calendar february februaryNamed februaryInside with
    ⟨-, ⟨counted, -, longest⟩, leap, -⟩
  rcases months_follow_calendar december decemberNamed decemberInside with
    ⟨⟨last, first, found, -, next, inNext, day⟩, -, -, steps, -⟩
  have noLeapDay : hasLeapDay february.year = false :=
    Bool.eq_false_iff.2 (mt leap.1 (by decide))
  have lastDay : last.day = 31 := by
    have length : december.length = 31 := by decide +kernel
    rwa [Month.length, found] at length
  have reached := Month.ofIndex_index (steps 13).1
  rw [(steps 13).2.1] at reached
  refine ⟨⟨februaryNamed, februaryInside⟩, ⟨decemberNamed, decemberInside⟩, ?_, ?_,
    ⟨last, first, found, lastDay, next, inNext, day⟩, reached.symm⟩
  · rw [← counted]
    decide +kernel
  · intro greatest
    exact longest.1 greatest ⟨rfl, noLeapDay⟩

end Agenda
