import Agenda.Calendar.Date
import Agenda.Rule.Text

/-!
# Occurrences of a rule

`nextOccurrence anchor rule now` is the first day on which a rule that starts
from `anchor` falls due strictly after `now`.  A daily rule counts whole
intervals from the anchor and a yearly rule whole years, at least one of each.
A weekly rule looks past the later of the two days.  A monthly rule looks from
the month of the later of the two and asks only for a day after `now`, so an
anchor in the future that fits the rule is its own next occurrence.

No day is found where the calendar ends first.
-/

namespace Agenda

/-- Why a rule has no next occurrence. -/
inductive OccurrenceError where
  /-- The rule cannot be followed. -/
  | invalidRule (cause : RuleError)
  /-- The calendar ends before the rule falls due. -/
  | unreachable (rule : Rule) (now : Date)
  deriving DecidableEq

/-- The wording of an occurrence error. -/
def OccurrenceError.message : OccurrenceError → String
  | .invalidRule cause => s!"cannot compute next date: {cause.message}"
  | .unreachable rule now => s!"rule '{rule.text}' did not advance past {now.isoText}"

namespace Rule

/-- The least number of intervals, at least one, that leads past `now`. -/
def nextDaily? (interval : Nat) (anchor now : Date) : Option Date :=
  let gap := now.dayNumber - anchor.dayNumber
  anchor.addDays? ((max gap 0 / interval + 1) * interval)

/-- A date carried to another year; the 29th of February gives way to the 1st of March. -/
def anniversary? (date : Date) (year : Int) : Option Date :=
  if date.month = 2 ∧ date.day = 29 ∧ ¬ hasLeapDay year then Date.ofYmd? year 3 1
  else Date.ofYmd? year date.month date.day

/-- The anniversary in the year of `now` or, if that is not after `now`, in the year after. -/
def nextYearly? (anchor now : Date) : Option Date := do
  let year := max anchor.year (now.year - 1) + 1
  let candidate ← anniversary? anchor year
  if now < candidate then some candidate else anniversary? anchor (year + 1)

/-- The first of the next seven days that has a selected weekday. -/
def nextWeekly? (weekdays : IntSet) (anchor now : Date) : Option Date :=
  ((max anchor now).following 7).find? fun date => date.weekday ∈ weekdays

/-- How many months are searched: a 29th of February is at most eight years away. -/
def monthsSearched : Nat := 120

/-- The earliest selected day of a month after `now`. -/
def earliestIn? (days months : IntSet) (now : Date) (month : Month) : Option Date :=
  if months.isEmpty ∨ (month.number : Int) ∈ months then
    ((days.elements.filterMap month.select?).filter (now < ·)).min?
  else none

/-- The earliest selected day of the first month that has one after `now`. -/
def nextMonthly? (days months : IntSet) (anchor now : Date) : Option Date :=
  ((Month.ofDate (max anchor now)).run monthsSearched).findSome? (earliestIn? days months now)

/-- The next day on which a rule falls due, unless the calendar ends first. -/
def next? : Rule → Date → Date → Option Date
  | .daily interval => nextDaily? interval
  | .yearly => nextYearly?
  | .weekly weekdays => nextWeekly? weekdays
  | .monthly days months => nextMonthly? days months

end Rule

/-- The first day strictly after `now` on which a rule falls due, counted from `anchor`. -/
def nextOccurrence (anchor : Date) (rule : Rule) (now : Date) : Except OccurrenceError Date :=
  match rule.check with
  | .error cause => .error (.invalidRule cause)
  | .ok () =>
    match rule.next? anchor now with
    | some date => .ok date
    | none => .error (.unreachable rule now)

end Agenda
