import Agenda.Calendar.Gregorian
import Agenda.Text.Basic

/-!
# Dates and months of the bounded calendar

A `Date` is a real day of the proleptic Gregorian calendar, from the first of
January of year −262143 to the last of December of year 262142.  Dates are
ordered by their day number, and a step that leaves the calendar gives no date.

The main statement is `ofDayNumber?_eq_some_iff`: a date and its day number
determine each other.
-/

namespace Agenda

/-- The first year of the calendar. -/
def firstYear : Int := -262143

/-- The last year of the calendar. -/
def lastYear : Int := 262142

/-- A year, month and day that name a day of the calendar. -/
def IsRealDate (year : Int) (month day : Nat) : Prop :=
  (firstYear ≤ year ∧ year ≤ lastYear) ∧ 1 ≤ day ∧ day ≤ monthLength year month

instance (year : Int) (month day : Nat) : Decidable (IsRealDate year month day) :=
  inferInstanceAs (Decidable (_ ∧ _))

/-- A day of the calendar. -/
structure Date where
  year : Int
  month : Nat
  day : Nat
  isReal : IsRealDate year month day
  deriving DecidableEq

namespace Date

/-- The date of a year, month and day, if the calendar has it. -/
def ofYmd? (year : Int) (month day : Nat) : Option Date :=
  if isReal : IsRealDate year month day then some ⟨year, month, day, isReal⟩ else none

/-- The place of a date in the calendar; the first of January of year 1 has number 1. -/
def dayNumber (date : Date) : Int :=
  daysBeforeYear date.year + daysBeforeMonth date.year date.month + date.day

/-- The date that has a day number, if the calendar reaches it. -/
def ofDayNumber? (dayNumber : Int) : Option Date :=
  let year := yearOfDay dayNumber
  let (month, day) := locateDay year 1 11 (dayNumber - daysBeforeYear year).toNat
  ofYmd? year month day

instance : LT Date := ⟨fun earlier later => earlier.dayNumber < later.dayNumber⟩

instance : LE Date := ⟨fun earlier later => earlier.dayNumber ≤ later.dayNumber⟩

instance : DecidableLT Date := fun earlier later =>
  inferInstanceAs (Decidable (earlier.dayNumber < later.dayNumber))

instance : DecidableLE Date := fun earlier later =>
  inferInstanceAs (Decidable (earlier.dayNumber ≤ later.dayNumber))

instance : Max Date := maxOfLe

instance : Min Date := minOfLe

/-- The date a number of days later, or earlier if the number is negative. -/
def addDays? (date : Date) (count : Int) : Option Date :=
  ofDayNumber? (date.dayNumber + count)

/-- The day of the week, 1 for Monday to 7 for Sunday. -/
def weekday (date : Date) : Int :=
  (date.dayNumber - 1) % 7 + 1

/-- The next `count` dates in order, fewer at the end of the calendar. -/
def following (date : Date) : Nat → List Date
  | 0 => []
  | count + 1 =>
    match date.addDays? 1 with
    | none => []
    | some next => next :: next.following count

@[simp]
theorem ofYmd?_eq_some_iff {year : Int} {month day : Nat} {date : Date} :
    ofYmd? year month day = some date ↔
      date.year = year ∧ date.month = month ∧ date.day = day := by
  unfold ofYmd?
  split
  · rename_i isReal
    cases date
    simp [eq_comm]
  · rename_i unreal
    simp only [reduceCtorEq, false_iff]
    rintro ⟨rfl, rfl, rfl⟩
    exact unreal date.isReal

theorem ofYmd?_eq_none_iff {year : Int} {month day : Nat} :
    ofYmd? year month day = none ↔ ¬ IsRealDate year month day := by
  unfold ofYmd?
  split <;> simp_all

@[simp]
theorem ofYmd?_self (date : Date) : ofYmd? date.year date.month date.day = some date := by
  simp

/-- The month of a date is one of the twelve. -/
theorem month_mem (date : Date) : 1 ≤ date.month ∧ date.month ≤ 12 :=
  month_mem_of_monthLength_pos (Nat.lt_of_lt_of_le date.isReal.2.1 date.isReal.2.2)

/-- A date lies inside its year. -/
theorem daysBeforeYear_lt_dayNumber (date : Date) :
    daysBeforeYear date.year < date.dayNumber := by
  have positive := date.isReal.2.1
  unfold dayNumber
  omega

theorem dayNumber_le_daysBeforeYear (date : Date) :
    date.dayNumber ≤ daysBeforeYear (date.year + 1) := by
  have length := date.isReal.2.2
  have inside := daysBeforeMonth_le_daysBeforeMonth date.year
    (Nat.succ_le_succ date.month_mem.2)
  rw [Nat.succ_eq_add_one, daysBeforeMonth, daysBeforeMonth_thirteen] at inside
  rw [daysBeforeYear_add_one]
  unfold dayNumber
  omega

/-- A date and its day number determine each other. -/
theorem ofDayNumber?_eq_some_iff {number : Int} {date : Date} :
    ofDayNumber? number = some date ↔ date.dayNumber = number := by
  constructor
  · intro found
    simp only [ofDayNumber?, ofYmd?_eq_some_iff] at found
    obtain ⟨yearEq, monthEq, dayEq⟩ := found
    have starts := daysBeforeYear_yearOfDay_lt number
    have ends := le_daysBeforeYear_yearOfDay_add_one number
    rw [daysBeforeYear_add_one, ← daysBeforeMonth_thirteen] at ends
    have place := @daysBeforeMonth_add_locateDay (yearOfDay number) 1 11
      (number - daysBeforeYear (yearOfDay number)).toNat (by omega)
      (by simp only [daysBeforeMonth_one, Nat.reduceAdd]; omega)
    rw [← monthEq, ← dayEq, ← yearEq] at place
    unfold dayNumber
    rw [daysBeforeMonth_one] at place
    rw [← yearEq] at starts
    omega
  · rintro rfl
    have year : yearOfDay date.dayNumber = date.year :=
      yearOfDay_eq_iff.2 ⟨date.daysBeforeYear_lt_dayNumber, date.dayNumber_le_daysBeforeYear⟩
    have month := date.month_mem
    have found := @locateDay_of_le date.year 1 11
      (date.dayNumber - daysBeforeYear date.year).toNat date.month date.day
      date.isReal.2.1 date.isReal.2.2 month.1 (by omega)
      (by unfold dayNumber; rw [daysBeforeMonth_one]; omega)
    simp only [ofDayNumber?, year, found, ofYmd?_self]

theorem dayNumber_injective {first second : Date}
    (same : first.dayNumber = second.dayNumber) : first = second := by
  have found := ofDayNumber?_eq_some_iff.2 same
  rw [ofDayNumber?_eq_some_iff.2 rfl] at found
  exact (Option.some.inj found).symm

theorem addDays?_eq_some_iff {date later : Date} {count : Int} :
    date.addDays? count = some later ↔ later.dayNumber = date.dayNumber + count :=
  ofDayNumber?_eq_some_iff

theorem lt_iff {first second : Date} : first < second ↔ first.dayNumber < second.dayNumber :=
  Iff.rfl

theorem le_iff {first second : Date} : first ≤ second ↔ first.dayNumber ≤ second.dayNumber :=
  Iff.rfl

instance : Std.IsLinearOrder Date where
  le_refl date := Int.le_refl date.dayNumber
  le_trans _ _ _ := Int.le_trans
  le_antisymm _ _ lower upper := dayNumber_injective (Int.le_antisymm lower upper)
  le_total first second := Int.le_total first.dayNumber second.dayNumber

instance : Std.LawfulOrderLT Date where
  lt_iff first second := by
    simp only [lt_iff, le_iff]
    omega

end Date

/-!
## Months

A `Month` is a year with a month number.  The number may lie outside 1 to 12;
such a month holds no dates.  The last day of a month is the day before the
first of the next one, so a month whose next one starts outside the calendar
has no last day and length 0.
-/

/-- A year and the number of a month. -/
structure Month where
  year : Int
  number : Nat
  deriving DecidableEq

/-- Whether the calendar has a 29th of February in a year. -/
def hasLeapDay (year : Int) : Bool :=
  (Date.ofYmd? year 2 29).isSome

namespace Month

/-- The month of a date. -/
def ofDate (date : Date) : Month :=
  ⟨date.year, date.month⟩

/-- December is followed by January of the next year. -/
def next (month : Month) : Month :=
  if month.number = 12 then ⟨month.year + 1, 1⟩ else ⟨month.year, month.number + 1⟩

/-- A run of `count` months that starts with this one. -/
def run (month : Month) : Nat → List Month
  | 0 => []
  | count + 1 => month :: month.next.run count

/-- The day before the first of the next month. -/
def lastDay? (month : Month) : Option Date := do
  let first ← Date.ofYmd? month.next.year month.next.number 1
  first.addDays? (-1)

/-- The day of the month of the last day. -/
def length (month : Month) : Nat :=
  match month.lastDay? with
  | some last => last.day
  | none => 0

/--
The date of a day selector: a positive selector counts from the first day of
the month, a negative one back from the last, −1.
-/
def select? (month : Month) (selector : Int) : Option Date :=
  let day := if selector < 0 then month.length + selector + 1 else selector
  if 1 ≤ day then Date.ofYmd? month.year month.number day.toNat else none

end Month

/-!
## Dates as text

The wire text of a date is its year, month and day as eight digits, with no
separators.  A year outside 0 to 9999 is written with its sign and at least
four digits; such a text is not read back, and neither is year 0.
-/

/-- Why a text is no date. -/
inductive DateError where
  /-- The text is not eight digits. -/
  | malformed (text : String)
  /-- The digits name no day of year 1 or later. -/
  | notInCalendar (text : String)
  deriving DecidableEq

/-- The wording of a date error. -/
def DateError.message : DateError → String
  | .malformed text => s!"date '{text}' must be 8 digits in YYYYMMDD form"
  | .notInCalendar text => s!"date '{text}' is not a valid calendar date"

namespace Date

/-- Four digits for the years 0 to 9999, a sign and at least four digits for the others. -/
def yearText (year : Int) : String :=
  if 0 ≤ year ∧ year ≤ 9999 then Text.padded 4 year.toNat
  else (if year < 0 then "-" else "+") ++ Text.padded 4 year.natAbs

/-- The date as year, month and day without separators. -/
def wireText (date : Date) : String :=
  yearText date.year ++ Text.padded 2 date.month ++ Text.padded 2 date.day

/-- The date as year, month and day with hyphens between them. -/
def isoText (date : Date) : String :=
  yearText date.year ++ "-" ++ Text.padded 2 date.month ++ "-" ++ Text.padded 2 date.day

/-- Reads the eight digits of a date of year 1 or later. -/
def ofWireText (text : String) : Except DateError Date :=
  let digits := text.toList
  if digits.length = 8 ∧ digits.all Char.isDigit then
    let year := Text.digitsValue (digits.take 4)
    let month := Text.digitsValue ((digits.drop 4).take 2)
    let day := Text.digitsValue (digits.drop 6)
    match ofYmd? year month day with
    | some date => if year = 0 then .error (.notInCalendar text) else .ok date
    | none => .error (.notInCalendar text)
  else .error (.malformed text)

end Date

end Agenda
