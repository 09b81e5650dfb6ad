import Agenda.Proofs.Calendar.Order

/-!
# The sequence of months

Months are counted by an index: a year has twelve of them and each month is one
after the one before.  In these terms a run of months is an interval
(`Month.run_ofIndex_eq_map`) and the order of two dates follows that of their
months (`Date.lt_of_monthIndex_lt`).  The length of a month is that of the Gregorian
calendar for every month but the last of all, after which no month starts
(`Month.length_eq_monthLength`).
-/

namespace Agenda

namespace Month

/-- A month whose number is one of the twelve. -/
def IsNamed (month : Month) : Prop :=
  1 ≤ month.number ∧ month.number ≤ 12

/-- The place of a month in the sequence of all months, 0 for January of year 0. -/
def index (month : Month) : Int :=
  12 * month.year + month.number - 1

/-- The month at a place in the sequence of all months. -/
def ofIndex (index : Int) : Month :=
  ⟨index / 12, (index % 12).toNat + 1⟩

theorem isNamed_ofDate (date : Date) : (ofDate date).IsNamed :=
  date.month_mem

@[simp]
theorem index_ofIndex (index : Int) : (ofIndex index).index = index := by
  simp only [Month.index, ofIndex]
  omega

theorem ofIndex_index
    {month : Month}
    (named : month.IsNamed) :
    ofIndex month.index = month := by
  rcases month with ⟨year, number⟩
  rcases named with ⟨lower, upper⟩
  simp only [ofIndex, index, Month.mk.injEq] at *
  constructor <;> omega

theorem next_ofIndex (index : Int) : (ofIndex index).next = ofIndex (index + 1) := by
  rw [next]
  by_cases december : (ofIndex index).number = 12
  · rw [if_pos december]
    simp only [ofIndex, Month.mk.injEq] at *
    constructor <;> omega
  · rw [if_neg december]
    simp only [ofIndex, Month.mk.injEq] at *
    constructor <;> omega

theorem run_ofIndex_eq_map (index : Int) (count : Nat) :
    (ofIndex index).run count =
      (List.range count).map fun later : Nat => ofIndex (index + later) := by
  induction count generalizing index with
  | zero => rfl
  | succ count ih =>
    rw [run, next_ofIndex, ih, List.range_succ_eq_map, List.map_cons, List.map_map]
    refine congrArg₂ List.cons (by simp) (List.map_congr_left fun later _ => ?_)
    apply congrArg ofIndex
    simp only [Nat.succ_eq_add_one, Int.natCast_add]
    omega

theorem isNamed_ofIndex (index : Int) : (ofIndex index).IsNamed := by
  simp only [IsNamed, ofIndex]
  omega

/-- A run of months is an interval of their sequence. -/
theorem mem_run_iff
    {start month : Month} {count : Nat}
    (named : start.IsNamed) :
    month ∈ start.run count ↔
      month.IsNamed ∧ start.index ≤ month.index ∧ month.index < start.index + count := by
  rw [← ofIndex_index named, run_ofIndex_eq_map, index_ofIndex, List.mem_map]
  constructor
  · rintro ⟨later, within, rfl⟩
    rw [List.mem_range] at within
    rw [index_ofIndex]
    exact ⟨isNamed_ofIndex _, by omega, by omega⟩
  · rintro ⟨monthNamed, lower, upper⟩
    have place : start.index + (month.index - start.index).toNat = month.index := by omega
    refine ⟨(month.index - start.index).toNat, List.mem_range.2 (by omega), ?_⟩
    rw [place, ofIndex_index monthNamed]

end Month

namespace Date

/-- The place of the month of a date among all months. -/
def monthIndex (date : Date) : Int :=
  (Month.ofDate date).index

@[simp]
theorem ofIndex_monthIndex (date : Date) :
    Month.ofIndex date.monthIndex = Month.ofDate date :=
  Month.ofIndex_index (Month.isNamed_ofDate date)

theorem firstIndex_le_monthIndex (date : Date) :
    (Month.mk firstYear 1).index ≤ date.monthIndex := by
  have year := date.isReal.1.1
  have named := date.month_mem
  simp only [monthIndex, Month.index, Month.ofDate]
  omega

theorem monthIndex_le_lastIndex (date : Date) :
    date.monthIndex ≤ (Month.mk lastYear 12).index := by
  have year := date.isReal.1.2
  have named := date.month_mem
  simp only [monthIndex, Month.index, Month.ofDate]
  omega

theorem lt_of_monthIndex_lt
    {first second : Date}
    (earlier : first.monthIndex < second.monthIndex) :
    first < second := by
  have lower := first.month_mem
  have upper := second.month_mem
  simp only [monthIndex, Month.index, Month.ofDate] at earlier
  rcases Int.lt_trichotomy first.year second.year with before | same | after
  · exact lt_of_year_lt before
  · exact lt_of_month_lt same (by omega)
  · omega

theorem monthIndex_le_of_le
    {first second : Date}
    (ordered : first ≤ second) :
    first.monthIndex ≤ second.monthIndex := by
  refine Int.not_lt.1 fun later => ?_
  have reversed := lt_of_monthIndex_lt later
  rw [lt_iff] at reversed
  rw [le_iff] at ordered
  omega

theorem lt_iff_day_lt
    {first second : Date}
    (sameMonth : Month.ofDate first = Month.ofDate second) :
    first < second ↔ first.day < second.day := by
  simp only [Month.ofDate, Month.mk.injEq] at sameMonth
  rw [lt_iff, dayNumber, dayNumber, sameMonth.1, sameMonth.2]
  omega

end Date

namespace Month

/-- The last day of a month that another month of the calendar follows. -/
theorem exists_lastDay?_eq
    {month : Month}
    (named : month.IsNamed)
    (notBefore : firstYear ≤ month.year)
    (followed : month.next.year ≤ lastYear) :
    ∃ last, month.lastDay? = some last ∧ ofDate last = month ∧
      last.day = monthLength month.year month.number := by
  have notAfter : month.year ≤ month.next.year := by
    simp only [next]
    split <;> simp only <;> omega
  have nextNamed : month.next.IsNamed := by
    rcases named with ⟨lower, upper⟩
    simp only [next, IsNamed]
    split <;> simp only <;> omega
  have nextLength := twentyEight_le_monthLength month.next.year nextNamed
  have length := twentyEight_le_monthLength month.year named
  let first : Date := ⟨month.next.year, month.next.number, 1,
    ⟨by omega, followed⟩, by omega, by omega⟩
  let last : Date := ⟨month.year, month.number, monthLength month.year month.number,
    ⟨notBefore, by omega⟩, by omega, Nat.le_refl _⟩
  have starts : Date.ofYmd? month.next.year month.next.number 1 = some first :=
    Date.ofYmd?_eq_some_iff.2 ⟨rfl, rfl, rfl⟩
  have ends : first.addDays? (-1) = some last := by
    refine Date.addDays?_eq_some_iff.2 ?_
    simp only [Date.dayNumber, first, last, next]
    split
    · rename_i december
      have sum := Date.yearLength_eq month.year
      rw [daysBeforeMonth] at sum
      simp only [december, daysBeforeMonth_one] at *
      omega
    · simp only [daysBeforeMonth]
      omega
  exact ⟨last, by simp only [lastDay?, starts, Option.bind_eq_bind, Option.bind_some, ends],
    rfl, rfl⟩

theorem length_eq_monthLength
    {month : Month}
    (named : month.IsNamed)
    (notBefore : firstYear ≤ month.year)
    (followed : month.next.year ≤ lastYear) :
    month.length = monthLength month.year month.number := by
  rcases exists_lastDay?_eq named notBefore followed with ⟨last, found, -, day⟩
  rw [length, found]
  exact day

/-- The day of the month that a selector stands for. -/
def selectedDay (month : Month) (selector : Int) : Int :=
  if selector < 0 then month.length + selector + 1 else selector

/-- A selector finds the date of its month with the day that it stands for. -/
theorem select?_eq_some_iff
    {month : Month} {selector : Int} {date : Date} :
    month.select? selector = some date ↔
      ofDate date = month ∧ (date.day : Int) = month.selectedDay selector := by
  have positive := date.isReal.2.1
  show (if 1 ≤ month.selectedDay selector then
    Date.ofYmd? month.year month.number (month.selectedDay selector).toNat else none) =
      some date ↔ _
  rcases month with ⟨year, number⟩
  split
  · rw [Date.ofYmd?_eq_some_iff]
    simp only [ofDate, Month.mk.injEq, and_assoc]
    omega
  · simp only [reduceCtorEq, false_iff, not_and]
    omega

end Month

end Agenda
