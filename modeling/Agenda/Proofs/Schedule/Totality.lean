import Agenda.Proofs.Calendar.TextOrder
import Agenda.Proofs.Occurrence.Totality
import Agenda.Proofs.Schedule.Scripts
import Agenda.Proofs.Schedule.Settle

/-!
# Errors that do not occur

The dates that a text can hold lie far before the end of the calendar.  So on a
day of these years the search for a next occurrence succeeds from every date
that is read from a text.  A valid task can always be settled
(`Task.settle_eq_error_iff`), and an entry that may be stored can be completed
unless its rule cannot be read (`Entry.completed_eq_error`).
-/

namespace Agenda

variable {entry : Entry} {today : Date}

namespace Entry

theorem rule_eq_ok_none_iff :
    entry.rule = .ok none ↔ Text.isBlank entry.repeats = true := by
  rw [Entry.rule, isRecurring]
  cases Text.isBlank entry.repeats <;> cases Rule.ofText entry.repeats <;> simp [Except.map]

/-- From a date that a text holds, on a day that a text can hold, the search succeeds. -/
theorem exists_nextOccurrence
    {date now : Date} {rule : Rule}
    (recurring : entry.rule = .ok (some rule))
    (dated : Date.ofWireText entry.date = .ok date)
    (calendar : now.year ≤ 9999) :
    ∃ next, nextOccurrence date rule now = .ok next := by
  have accepted := Rule.check_of_ofText (rule_eq_ok_some_iff.1 recurring).2
  have year := (Date.year_of_ofWireText dated).2
  exact Agenda.exists_nextOccurrence accepted (by rw [lastYear]; omega) (by rw [lastYear]; omega)

/-! ## Settling -/

/-- The date of a valid entry can be settled. -/
theorem exists_settledDate
    (valid : entry.validate = .ok ())
    (calendar : today.year ≤ 9999) :
    ∃ text, entry.settledDate today = .ok text := by
  rcases validate_eq_ok_iff.1 valid with ⟨-, empty | ⟨date, dated⟩, readable⟩
  · exact ⟨_, (SettlesOn.undated empty).settledDate_eq⟩
  · by_cases notPast : today ≤ date
    · exact ⟨_, (SettlesOn.kept dated notPast).settledDate_eq⟩
    · have past : date < today := Int.not_le.1 notPast
      rcases blank : Text.isBlank entry.repeats with recurring | once
      · rcases readable with once | ⟨rule, read⟩
        · rw [blank] at once
          cases once
        · have ruled := rule_eq_ok_some_iff.2 ⟨blank, read⟩
          rcases exists_nextOccurrence ruled dated calendar with ⟨next, found⟩
          exact ⟨_, (SettlesOn.moved dated past ruled found).settledDate_eq⟩
      · exact ⟨_, (SettlesOn.once dated past (rule_eq_ok_none_iff.2 blank)).settledDate_eq⟩

end Entry

/-- Settling fails only as validation does. -/
theorem Task.settle_eq_error_iff
    {task : Task} {cause : ScheduleError}
    (calendar : today.year ≤ 9999) :
    task.settle today = .error cause ↔
      ∃ refusal, task.validate = .error refusal ∧ cause = .validation refusal := by
  rw [Task.settle, bind_eq_error_iff]
  cases valid : task.validate with
  | error refusal => simp [eq_comm]
  | ok =>
      rcases Entry.exists_settledDate valid calendar with ⟨text, settled⟩
      simp only [mapError_ok, settled, reduceCtorEq, false_and, exists_false, false_or,
        iff_false, not_exists, not_and]
      rintro _ - failed
      cases failed

/-! ## Completing -/

namespace Entry

theorem completed_of_isBlank
    (once : Text.isBlank entry.repeats = true) :
    entry.completed today = .ok none := by
  rw [completed, rule_eq_ok_none_iff.2 once]

/-- A recurring entry moves to the next occurrence, which is the one that is previewed. -/
theorem completed_of_nextOccurrence
    {date next : Date} {rule : Rule}
    (recurring : entry.rule = .ok (some rule))
    (dated : Date.ofWireText entry.date = .ok date)
    (found : nextOccurrence date rule (max date today) = .ok next) :
    entry.completed today = .ok (some { entry with date := next.wireText }) ∧
      previewDate (max date today) entry.date entry.repeats = .ok next.wireText := by
  rcases rule_eq_ok_some_iff.1 recurring with ⟨blank, read⟩
  exact ⟨completed_eq_ok_some_iff.2 ⟨rule, date, next, recurring, dated, found, rfl⟩,
    previewDate_eq_ok_iff.2 ⟨date, rule, next, dated, blank, read, found, rfl⟩⟩

theorem exists_completed
    {date : Date} {rule : Rule}
    (recurring : entry.rule = .ok (some rule))
    (dated : Date.ofWireText entry.date = .ok date)
    (calendar : today.year ≤ 9999) :
    ∃ next, nextOccurrence date rule (max date today) = .ok next := by
  have year := (Date.year_of_ofWireText dated).2
  exact exists_nextOccurrence recurring dated (Date.year_max_le year calendar)

end Entry

end Agenda
