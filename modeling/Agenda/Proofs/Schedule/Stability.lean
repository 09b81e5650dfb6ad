import Agenda.Proofs.Calendar.WireText
import Agenda.Proofs.Occurrence.Succession
import Agenda.Proofs.Schedule.Totality

/-!
# Settled tasks stay settled

Settling fits the date of a valid task to a day and leaves the rest of it alone
(`Task.BecomesOn`).  It reads the date and the rule a second time after
validation has read them, but neither fails any more, and the search for the next
occurrence succeeds.  The date that comes out is never before the day, so a
settled task whose date can be read is settled to itself.  The main statement is
`settle_stable`.
-/

namespace Agenda

variable {today : Date}

/-- What a valid task becomes on a day. -/
structure Task.BecomesOn (task : Task) (today : Date) (settled : Task) : Prop where
  /-- Nothing but the date changes. -/
  others : settled.id = task.id ∧ settled.title = task.title ∧
    settled.comment = task.comment ∧ settled.repeats = task.repeats
  /-- A task without a date is for the day itself. -/
  undated : task.date = "" → settled.date = today.wireText
  /-- A date that has not passed stays as it is written. -/
  kept : ∀ date, Date.ofWireText task.date = .ok date → today ≤ date → settled.date = task.date
  /-- A task that is done once and is past its date is for the day itself. -/
  once : ∀ date, Date.ofWireText task.date = .ok date → date < today →
    Text.isBlank task.repeats = true → settled.date = today.wireText
  /-- A recurring task that is past its date moves to its next occurrence after the day. -/
  moved : ∀ date, Date.ofWireText task.date = .ok date → date < today →
    Text.isBlank task.repeats = false →
      ∃ rule next, Rule.ofText task.repeats = .ok rule ∧
        nextOccurrence date rule today = .ok next ∧ today < next ∧ settled.date = next.wireText

namespace Entry

variable {entry : Entry} {text : String} {date : Date}

/-- Two ways to settle a date lead to the same text. -/
theorem SettlesOn.unique
    {other : String}
    (settles : entry.SettlesOn today text)
    (otherSettles : entry.SettlesOn today other) :
    text = other :=
  Except.ok.inj (settles.settledDate_eq.symm.trans otherSettles.settledDate_eq)

/-- No settled date is before the day. -/
theorem SettlesOn.le_of_ofWireText
    (settles : entry.SettlesOn today text)
    (read : Date.ofWireText text = .ok date) :
    today ≤ date := by
  cases settles with
  | undated | once =>
      rw [(Date.ofWireText_wireText_eq_ok_iff.1 read).2]
      exact Std.le_refl today
  | kept dated notPast =>
      rw [dated] at read
      cases read
      exact notPast
  | moved _ _ _ found =>
      rw [(Date.ofWireText_wireText_eq_ok_iff.1 read).2]
      exact Std.le_of_lt (lt_of_nextOccurrence found)

end Entry

namespace Task

variable {task settled : Task}

theorem becomesOn_of_settle
    (calendar : today.year ≤ 9999)
    (settles : task.settle today = .ok settled) :
    task.BecomesOn today settled := by
  rcases settle_eq_ok_iff.1 settles with ⟨valid, text, dateSettles, rfl⟩
  rw [Entry.settledDate_eq_ok_iff] at dateSettles
  refine ⟨⟨rfl, rfl, rfl, rfl⟩, ?_, ?_, ?_, ?_⟩
  · intro empty
    exact dateSettles.unique (.undated empty)
  · intro date dated notPast
    exact dateSettles.unique (.kept dated notPast)
  · intro date dated past blank
    exact dateSettles.unique (.once dated past (Entry.rule_eq_ok_none_iff.2 blank))
  · intro date dated past recurring
    have readable : ∃ rule, Rule.ofText task.repeats = .ok rule := by
      refine (Entry.validate_eq_ok_iff.1 valid).2.2.resolve_left fun blank => ?_
      rw [recurring] at blank
      cases blank
    rcases readable with ⟨rule, read⟩
    have ruled : task.rule = .ok (some rule) := Entry.rule_eq_ok_some_iff.2 ⟨recurring, read⟩
    rcases Entry.exists_nextOccurrence ruled dated calendar with ⟨next, found⟩
    exact ⟨rule, next, read, found, lt_of_nextOccurrence found,
      dateSettles.unique (.moved dated past ruled found)⟩

/-- A settled task is settled to itself if its date can be read. -/
theorem settle_eq_self_of_ofWireText
    {date : Date}
    (settles : task.settle today = .ok settled)
    (read : Date.ofWireText settled.date = .ok date) :
    settled.settle today = .ok settled := by
  rcases settle_eq_ok_iff.1 settles with ⟨valid, text, dateSettles, rfl⟩
  have notPast := (Entry.settledDate_eq_ok_iff.1 dateSettles).le_of_ofWireText read
  rcases Entry.validate_eq_ok_iff.1 valid with ⟨titled, -, readable⟩
  refine settle_eq_ok_iff.2 ⟨?_, text, ?_, rfl⟩
  · exact Entry.validate_eq_ok_iff.2 ⟨titled, .inr ⟨date, read⟩, readable⟩
  · exact (Entry.SettlesOn.kept read notPast).settledDate_eq

/--
A task that is settled to itself has a date that can be read: without one it
would have got the day's.
-/
theorem exists_ofWireText_of_settle_eq_self
    (calendar : 1 ≤ today.year ∧ today.year ≤ 9999)
    (settles : settled.settle today = .ok settled) :
    ∃ date, Date.ofWireText settled.date = .ok date := by
  have valid := (settle_eq_ok_iff.1 settles).1
  refine (Entry.validate_eq_ok_iff.1 valid).2.1.resolve_left fun empty => ?_
  have becomes := (becomesOn_of_settle calendar.2 settles).undated empty
  have read := Date.ofWireText_wireText_eq_ok_iff.2 ⟨calendar, rfl⟩
  rw [← becomes] at read
  exact Entry.date_ne_empty_of_dated read empty

end Task

/--
On a day of the years 1 to 9999 a task can be settled exactly if it is valid,
and settling fails only as validation does.  A valid task keeps its id, its
title, its comment and its rule.  Without a date it is put on the day; a date
that has not passed stays as it is written; and a past one becomes the day, or
the next occurrence of the rule after the day if there is one.  Settling the
result once more on that day changes nothing exactly if its date can be read.
-/
theorem settle_stable
    (calendar : 1 ≤ today.year ∧ today.year ≤ 9999)
    (task : Task) :
    ((∃ settled, task.settle today = .ok settled) ↔ task.validate = .ok ()) ∧
    (∀ cause, task.settle today = .error cause ↔
      ∃ refusal, task.validate = .error refusal ∧ cause = .validation refusal) ∧
    ∀ settled, task.settle today = .ok settled →
      task.BecomesOn today settled ∧
      (settled.settle today = .ok settled ↔
        ∃ date, Date.ofWireText settled.date = .ok date) := by
  refine ⟨?_, fun cause => Task.settle_eq_error_iff calendar.2, ?_⟩
  · constructor
    · rintro ⟨settled, settles⟩
      exact (Task.settle_eq_ok_iff.1 settles).1
    · intro valid
      rcases Entry.exists_settledDate valid calendar.2 with ⟨text, dateSettles⟩
      exact ⟨_, Task.settle_eq_ok_iff.2 ⟨valid, text, dateSettles, rfl⟩⟩
  · intro settled settles
    refine ⟨Task.becomesOn_of_settle calendar.2 settles, ?_⟩
    constructor
    · exact Task.exists_ofWireText_of_settle_eq_self calendar
    · rintro ⟨date, read⟩
      exact Task.settle_eq_self_of_ofWireText settles read

/-- A task for the last day of the month, past its date in January, is put on the next leap day. -/
theorem settle_stable_leapDay :
    let today : Date := ⟨2024, 2, 10, by decide⟩
    let task : Task := { id := "x", date := "20240131", title := "t", repeats := "m -1" }
    let settled : Task := { task with date := "20240229" }
    (1 ≤ today.year ∧ today.year ≤ 9999) ∧
      task.validate = .ok () ∧ task.settle today = .ok settled ∧
      task.BecomesOn today settled ∧ settled.settle today = .ok settled := by
  intro today task settled
  have calendar : 1 ≤ today.year ∧ today.year ≤ 9999 := by decide
  have settles : task.settle today = .ok settled := by decide +kernel
  have stable := settle_stable calendar task
  have outcome := stable.2.2 settled settles
  refine ⟨calendar, stable.1.1 ⟨settled, settles⟩, settles, outcome.1, ?_⟩
  exact outcome.2.2 ⟨⟨2024, 2, 29, by decide⟩, by decide +kernel⟩

end Agenda
