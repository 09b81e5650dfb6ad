import Agenda.Proofs.Occurrence.Succession

/-!
# The weekdays of a weekly rule

The days of the week follow one another without a break from the first date of
the calendar to the last, before year 1 as after it.  So there is only one way
to number the dates by weekdays, once the number of a single date is known, and
`Date.weekday` is this numbering (`Date.NumbersWeekdays.eq_weekday`).

A weekly rule looks at seven dates only.  Each weekday falls on one of them,
unless the calendar ends before, so the rule finds the least later date with a
selected weekday (`nextOccurrence_weekly_least`).
-/

namespace Agenda

namespace Date

/--
What holds of a date and passes between neighbouring dates holds of all dates,
by induction on the number of days from the one to the other.
-/
theorem of_neighbours
    {holds : Date → Prop}
    (passes : ∀ date next : Date, date.addDays? 1 = some next → (holds date ↔ holds next))
    {start : Date}
    (base : holds start)
    (date : Date) :
    holds date := by
  induction distance : (date.dayNumber - start.dayNumber).natAbs generalizing date with
  | zero =>
      have same : start = date := dayNumber_injective (by omega)
      rwa [← same]
  | succ distance ih =>
      rcases Int.lt_or_le start.dayNumber date.dayNumber with before | after
      · rcases exists_of_between start date (date.dayNumber - 1) (by omega) (by omega) with
          ⟨previous, place⟩
        have adjacent : previous.addDays? 1 = some date :=
          addDays?_eq_some_iff.2 (by omega)
        exact (passes previous date adjacent).1 (ih previous (by omega))
      · rcases exists_of_between date start (date.dayNumber + 1) (by omega) (by omega) with
          ⟨next, place⟩
        exact (passes date next (addDays?_eq_some_iff.2 place)).2 (ih next (by omega))

/-- The first Monday of 2024. -/
def knownMonday : Date := ⟨2024, 1, 1, by decide⟩

/-- The numbers 1 to 7, given to the dates in turn, with 1 for a Monday. -/
structure NumbersWeekdays (number : Date → Int) : Prop where
  inWeek : ∀ date, 1 ≤ number date ∧ number date ≤ 7
  next : ∀ date next : Date, date.addDays? 1 = some next → number next = number date % 7 + 1
  monday : number knownMonday = 1

theorem numbersWeekdays_weekday : NumbersWeekdays weekday := by
  refine ⟨weekday_mem, ?_, by decide⟩
  intro date next adjacent
  have place := addDays?_eq_some_iff.1 adjacent
  rw [weekday, weekday]
  omega

/-- Dates are numbered by weekdays in one way only. -/
theorem NumbersWeekdays.eq_weekday
    {number : Date → Int}
    (numbers : NumbersWeekdays number)
    (date : Date) :
    number date = date.weekday := by
  refine @of_neighbours (fun date => number date = date.weekday) ?_ knownMonday ?_ date
  · intro date next adjacent
    have inWeek := numbers.inWeek date
    have named := date.weekday_mem
    rw [numbers.next date next adjacent, numbersWeekdays_weekday.next date next adjacent]
    omega
  · rw [numbers.monday, numbersWeekdays_weekday.monday]

variable {falls : Date → Prop} {anchor now : Date} {answer : Option Date}

theorem max_lt_iff {date : Date} : max anchor now < date ↔ anchor < date ∧ now < date := by
  simp only [lt_iff, dayNumber_max]
  omega

/-- A set of dates after an anchor may be searched from the later of the two days. -/
theorem isLeastAfter_max_iff :
    IsLeastAfter (fun date => anchor < date ∧ falls date) now answer ↔
      IsLeastAfter falls (max anchor now) answer := by
  cases answer with
  | none =>
      simp only [IsLeastAfter, max_lt_iff]
      grind
  | some date =>
      simp only [IsLeastAfter, max_lt_iff]
      grind

end Date

variable {weekdays : IntSet}

/--
A weekly rule that passes the check finds the least date with a selected weekday
after the later of the anchor and the current day, and finds it within seven
days.  It is unreachable exactly if the calendar has no such date, and then the
calendar ends within the seven days.  The weekdays are the numbers 1 to 7 in
turn, with 1 for Monday.
-/
theorem nextOccurrence_weekly_least
    (anchor now : Date)
    (accepted : (Rule.weekly weekdays).check = .ok ()) :
    (Date.NumbersWeekdays Date.weekday ∧
      ∀ number, Date.NumbersWeekdays number → ∀ date, number date = date.weekday) ∧
    (∀ date, nextOccurrence anchor (.weekly weekdays) now = .ok date ↔
      Date.IsLeastAfter (·.weekday ∈ weekdays) (max anchor now) (some date)) ∧
    (∀ date, nextOccurrence anchor (.weekly weekdays) now = .ok date →
      date.dayNumber ≤ (max anchor now).dayNumber + 7) ∧
    (nextOccurrence anchor (.weekly weekdays) now =
        .error (.unreachable (.weekly weekdays) now) ↔
      ∀ date : Date, date.weekday ∈ weekdays → ¬ max anchor now < date) ∧
    (nextOccurrence anchor (.weekly weekdays) now =
        .error (.unreachable (.weekly weekdays) now) →
      (max anchor now).addDays? 7 = none) := by
  have finds : FindsLeast (fun date => anchor < date ∧ date.weekday ∈ weekdays)
      anchor (.weekly weekdays) now :=
    (findsLeast_iff accepted).2 (Rule.next?_isLeastAfter anchor now accepted)
  have unreachable_iff := finds.unreachable_iff.trans
    (@Date.isLeastAfter_max_iff (·.weekday ∈ weekdays) anchor now none)
  refine ⟨⟨Date.numbersWeekdays_weekday, ?_⟩, ?_, ?_, unreachable_iff, ?_⟩
  · intro number numbers date
    exact numbers.eq_weekday date
  · intro date
    exact (finds.ok_iff date).trans
      (@Date.isLeastAfter_max_iff (·.weekday ∈ weekdays) anchor now (some date))
  · intro date found
    have search := (nextOccurrence_eq_ok_iff.1 found).2
    exact (Date.mem_following_iff.1 (List.mem_of_find?_eq_some search)).2
  · intro unreachable
    refine Option.eq_none_iff_forall_ne_some.2 fun last week => ?_
    rcases Rule.check_weekly_eq_ok_iff.1 accepted with ⟨nonempty, allowed⟩
    rcases IntSet.exists_mem nonempty with ⟨weekday, member⟩
    rcases Date.exists_weekday (Int.le_of_eq (Date.addDays?_eq_some_iff.1 week).symm)
      (allowed weekday member) with ⟨date, after, -, rfl⟩
    exact unreachable_iff.1 unreachable date member after

/-- Two days before the calendar ends, its last weekday is still to come, and today's is not. -/
theorem nextOccurrence_weekly_least_lastDays :
    let anchor : Date := ⟨-262143, 1, 1, by decide⟩
    let now : Date := ⟨262142, 12, 29, by decide⟩
    let lastDate : Date := ⟨262142, 12, 31, by decide⟩
    let atEnd : IntSet := .ofList [lastDate.weekday]
    let ofToday : IntSet := .ofList [now.weekday]
    ((Rule.weekly atEnd).check = .ok () ∧ (Rule.weekly ofToday).check = .ok ()) ∧
      nextOccurrence anchor (.weekly atEnd) now = .ok lastDate ∧
      Date.IsLeastAfter (·.weekday ∈ atEnd) (max anchor now) (some lastDate) ∧
      nextOccurrence anchor (.weekly ofToday) now =
        .error (.unreachable (.weekly ofToday) now) ∧
      ∀ date : Date, date.weekday ∈ ofToday → ¬ max anchor now < date := by
  intro anchor now lastDate atEnd ofToday
  have accepted : (Rule.weekly atEnd).check = .ok () := by decide +kernel
  have acceptedOfToday : (Rule.weekly ofToday).check = .ok () := by decide +kernel
  have found : nextOccurrence anchor (.weekly atEnd) now = .ok lastDate := by decide +kernel
  have ends : nextOccurrence anchor (.weekly ofToday) now =
      .error (.unreachable (.weekly ofToday) now) := by decide +kernel
  exact ⟨⟨accepted, acceptedOfToday⟩, found,
    ((nextOccurrence_weekly_least anchor now accepted).2.1 lastDate).1 found, ends,
    (nextOccurrence_weekly_least anchor now acceptedOfToday).2.2.2.1.1 ends⟩

end Agenda
