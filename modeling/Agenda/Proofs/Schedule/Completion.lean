import Agenda.Proofs.Occurrence.Succession
import Agenda.Proofs.Schedule.Integrity
import Agenda.Proofs.Schedule.Totality
import Agenda.Proofs.Store.Consistent

/-!
# How a completion ends

A row that clients have stored has a date and a rule that can be read, so that
completing its task never fails on them, nor does the calendar end before the
next occurrence.  Three ways to end are left: the task is done once and goes,
it moves to its next occurrence, or that occurrence lies beyond the dates that
a text can hold and the store refuses it.  The main statement is
`completion_outcome`.
-/

namespace Agenda

/-- The store takes an entry at a later date up to the end of the year 9999. -/
theorem Entry.checkRecord_of_next
    {entry : Entry} {next : Date}
    (titled : Text.isBlank entry.title = false)
    (positive : 1 ≤ next.year) :
    ({ entry with date := next.wireText } : Entry).checkRecord =
      if next.year ≤ 9999 then .ok ()
      else .error (.invalidData (DateError.malformed next.wireText).message) := by
  split
  · rename_i short
    have read := Date.ofWireText_wireText_eq_ok_iff.2 ⟨⟨positive, short⟩, rfl⟩
    exact checkRecord_eq_ok_iff.2 ⟨titled, next, read⟩
  · rename_i long
    have refused := Date.ofWireText_wireText_of_sign next fun digits => long digits.2
    simp only [checkRecord, titled, refused, Bool.false_eq_true, if_false]

variable {store : Store} {rowId : Int} {row : Row} {today date : Date}

theorem run_completeTask_of_isBlank
    (present : store.find? rowId = some row)
    (once : Text.isBlank row.entry.repeats = true) :
    (completeTask rowId today).run .none store = (.ok .removed, store.erase rowId) := by
  rw [run_completeTask_alone, present]
  simp only [Store.completeWith, Entry.completed_of_isBlank once, Store.writeCompleted,
    Store.contains_of_find? present, if_true]

theorem run_completeTask_of_nextOccurrence
    {next : Date} {rule : Rule}
    (present : store.find? rowId = some row)
    (titled : Text.isBlank row.entry.title = false)
    (recurring : row.entry.rule = .ok (some rule))
    (dated : Date.ofWireText row.entry.date = .ok date)
    (found : nextOccurrence date rule (max date today) = .ok next) :
    (completeTask rowId today).run .none store =
      if next.year ≤ 9999 then
        (.ok (.rescheduled next.wireText),
          store.replace rowId { row.entry with date := next.wireText })
      else
        (.error (.store (.invalidData (DateError.malformed next.wireText).message)), store) := by
  have moved := (Entry.completed_of_nextOccurrence recurring dated found).1
  have later : date < next :=
    Std.lt_of_le_of_lt Std.left_le_max (lt_of_nextOccurrence found)
  have positive : 1 ≤ next.year :=
    Int.le_trans (Date.year_of_ofWireText dated).1 (Date.year_le_of_le (Std.le_of_lt later))
  rw [run_completeTask_alone, present]
  simp only [Store.completeWith, moved, Store.writeCompleted,
    Entry.checkRecord_of_next titled positive, Store.contains_of_find? present, if_true]
  by_cases short : next.year ≤ 9999
  · simp only [if_pos short]
  · simp only [if_neg short]

/--
The ways in which a completion ends on a day, for a row with an entry and its
date: the answer, and the store after it.
-/
inductive Store.Completes
    (store : Store) (rowId : Int) (entry : Entry) (date today : Date) :
    Except ScheduleError Completion × Store → Prop where
  | removed (once : Text.isBlank entry.repeats = true) :
    store.Completes rowId entry date today (.ok .removed, store.erase rowId)
  | rescheduled {text : String} {next : Date}
    (recurring : Text.isBlank entry.repeats = false)
    (previewed : previewDate (max date today) entry.date entry.repeats = .ok text)
    (read : Date.ofWireText text = .ok next)
    (afterDate : date < next) (afterToday : today < next) :
    store.Completes rowId entry date today
      (.ok (.rescheduled text), store.replace rowId { entry with date := text })
  | refused {rule : Rule} {next : Date}
    (recurring : Text.isBlank entry.repeats = false)
    (read : Rule.ofText entry.repeats = .ok rule)
    (found : nextOccurrence date rule (max date today) = .ok next)
    (beyond : 9999 < next.year) :
    store.Completes rowId entry date today
      (.error (.store (.invalidData (DateError.malformed next.wireText).message)), store)

/--
The row that is found under its id after a completion: none if it is removed,
the entry at the new date if it is rescheduled, the row as it was if it failed.
-/
def Row.afterCompletion (row : Row) : Except ScheduleError Completion → Option Row
  | .ok .removed => none
  | .ok (.rescheduled text) => some ⟨row.id, { row.entry with date := text }⟩
  | .error _ => some row

theorem Store.Completes.find?_self
    {outcome : Except ScheduleError Completion × Store}
    (present : store.find? rowId = some row)
    (completes : store.Completes rowId row.entry date today outcome) :
    outcome.2.find? rowId = row.afterCompletion outcome.1 := by
  cases completes with
  | removed => exact Store.find?_erase_self
  | rescheduled =>
      rw [Row.afterCompletion, Store.id_of_find? present]
      exact Store.find?_replace_self present
  | refused => exact present

/-- A completion touches no row but that of its id. -/
theorem Store.Completes.find?_of_ne
    {entry : Entry} {other : Int} {outcome : Except ScheduleError Completion × Store}
    (completes : store.Completes rowId entry date today outcome)
    (different : other ≠ rowId) :
    outcome.2.find? other = store.find? other := by
  cases completes with
  | removed => exact Store.find?_erase_of_ne different
  | rescheduled => exact Store.find?_replace_of_ne different
  | refused => rfl

/--
A row that can be completed is completed in one of the three ways.  The store
takes the new date of a recurring task exactly if four digits hold its year.
-/
theorem run_completeTask_completes
    (present : store.find? rowId = some row)
    (titled : Text.isBlank row.entry.title = false)
    (dated : Date.ofWireText row.entry.date = .ok date)
    (readable : row.entry.HasReadableRule)
    (calendar : today.year ≤ 9999) :
    store.Completes rowId row.entry date today ((completeTask rowId today).run .none store) := by
  rcases blank : Text.isBlank row.entry.repeats with recurring | once
  · rcases readable with once | ⟨rule, read⟩
    · rw [blank] at once
      cases once
    · have ruled := Entry.rule_eq_ok_some_iff.2 ⟨blank, read⟩
      rcases Entry.exists_completed ruled dated calendar with ⟨next, found⟩
      have previewed := (Entry.completed_of_nextOccurrence ruled dated found).2
      have after := lt_of_nextOccurrence found
      have afterDate : date < next := Std.lt_of_le_of_lt Std.left_le_max after
      have afterToday : today < next := Std.lt_of_le_of_lt Std.right_le_max after
      have positive : 1 ≤ next.year := Int.le_trans (Date.year_of_ofWireText dated).1
        (Date.year_le_of_le (Std.le_of_lt afterDate))
      rw [run_completeTask_of_nextOccurrence present titled ruled dated found]
      split
      · rename_i short
        have reread := Date.ofWireText_wireText_eq_ok_iff.2 ⟨⟨positive, short⟩, rfl⟩
        exact .rescheduled blank previewed reread afterDate afterToday
      · rename_i long
        exact .refused blank read found (Int.not_le.1 long)
  · rw [run_completeTask_of_isBlank present blank]
    exact .removed blank

/--
In every state that clients can reach, and on every day up to the year 9999,
completing the task of a row ends in one of three ways.  A task without a rule
is removed with its row.  A task with a rule moves to the previewed date, which
is after both the day and its own date.  If that date lies beyond the year 9999
instead, the completion is refused as invalid, and the store stays as it is.
Accordingly no row is found under the id any more, or the entry at the new date,
or the row as it was; and no other row changes.
-/
theorem completion_outcome
    {moves : List Move} {rowId : Int} {row : Row} {today : Date}
    (calendar : today.year ≤ 9999)
    (present : (System.initial.run moves).store.find? rowId = some row) :
    let store := (System.initial.run moves).store
    let outcome := (completeTask rowId today).run .none store
    (∃ date, Date.ofWireText row.entry.date = .ok date ∧
      store.Completes rowId row.entry date today outcome) ∧
    outcome.2.find? rowId = row.afterCompletion outcome.1 ∧
    ∀ other, other ≠ rowId → outcome.2.find? other = store.find? other := by
  intro store outcome
  have sound := System.sound_run moves
  rcases sound.wellFormed.stored row (Store.mem_of_find? present) with ⟨accepted, readable⟩
  rcases Entry.checkRecord_eq_ok_iff.1 accepted with ⟨titled, date, dated⟩
  have completes : store.Completes rowId row.entry date today outcome :=
    run_completeTask_completes present titled dated readable calendar
  exact ⟨⟨date, dated, completes⟩, completes.find?_self present,
    fun _ different => completes.find?_of_ne different⟩

/--
On the last day but one of the year 9999, a task of every second day has no
further date that the store takes, so its row stays; a task of every day moves
to the last day.  Each is completed without its neighbour.
-/
theorem completion_outcome_of_lastDays :
    let day : Date := ⟨9999, 12, 30, by decide⟩
    let task (repeats : String) : Task := { date := "99991230", title := "t", repeats }
    let moves : List Move := [.start (.add (task "d 2") day), .call 0 .none,
      .start (.add (task "d 1") day), .call 1 .none]
    let store := (System.initial.run moves).store
    let refused : Row := ⟨1, (task "d 2").toEntry⟩
    let moved : Row := ⟨2, (task "d 1").toEntry⟩
    let outcome (rowId : Int) := (completeTask rowId day).run .none store
    (day.year ≤ 9999 ∧ store.find? 1 = some refused ∧ store.find? 2 = some moved) ∧
    ((∃ date, Date.ofWireText "99991230" = .ok date ∧
        store.Completes 1 refused.entry date day (outcome 1)) ∧
      (outcome 1).2.find? 1 = some refused ∧ (outcome 1).2.find? 2 = some moved) ∧
    (outcome 2).1 = .ok (.rescheduled "99991231") ∧
    (outcome 2).2.find? 2 = some ⟨2, { moved.entry with date := "99991231" }⟩ ∧
    (outcome 2).2.find? 1 = some refused := by
  intro day task moves store refused moved outcome
  have calendar : day.year ≤ 9999 := by decide
  have presentRefused : store.find? 1 = some refused := by decide +kernel
  have presentMoved : store.find? 2 = some moved := by decide +kernel
  have first := completion_outcome calendar presentRefused
  have second := completion_outcome calendar presentMoved
  have failed : refused.afterCompletion (outcome 1).1 = some refused := by decide +kernel
  have rescheduled : (outcome 2).1 = .ok (.rescheduled "99991231") := by decide +kernel
  refine ⟨⟨calendar, presentRefused, presentMoved⟩, ⟨first.1, ?_, ?_⟩, rescheduled, ?_, ?_⟩
  · exact first.2.1.trans failed
  · exact (first.2.2 2 (by decide)).trans presentMoved
  · exact second.2.1.trans (congrArg moved.afterCompletion rescheduled)
  · exact (second.2.2 1 (by decide)).trans presentRefused

end Agenda
