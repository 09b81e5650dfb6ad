import Agenda.Proofs.Schedule.Completion

/-!
# The preview and the tasks

A date can be previewed for the texts of a task exactly if the task is valid,
since from a date and a rule that are read the search always succeeds.  Then
the preview is what becomes of the task: a past task is settled on the
previewed date, and a completed one moves to the date that is previewed from
the later of the day and its own date.  The main statement is
`previewDate_agrees`.
-/

namespace Agenda

variable {task : Task} {now anchor : Date} {text : String}

/-- The date and the rule of a task can be read. -/
def Entry.IsReadable (entry : Entry) : Prop :=
  (∃ anchor, Date.ofWireText entry.date = .ok anchor) ∧
    ∃ rule, Rule.ofText entry.repeats = .ok rule

/-- A dated and recurring task with a title is valid if its date and its rule can be read. -/
theorem Entry.validate_eq_ok_iff_isReadable
    {entry : Entry}
    (titled : Text.isBlank entry.title = false)
    (dated : entry.date ≠ "")
    (recurring : Text.isBlank entry.repeats = false) :
    entry.validate = .ok () ↔ entry.IsReadable := by
  rw [validate_eq_ok_iff, HasReadableRule, IsReadable]
  simp only [titled, dated, recurring, true_and, false_or, Bool.false_eq_true]

/-- A date is previewed if the date and the rule can be read. -/
theorem exists_previewDate_iff
    {entry : Entry}
    (recurring : Text.isBlank entry.repeats = false)
    (calendar : now.year ≤ 9999) :
    (∃ text, previewDate now entry.date entry.repeats = .ok text) ↔ entry.IsReadable := by
  constructor
  · rintro ⟨text, previewed⟩
    rcases previewDate_eq_ok_iff.1 previewed with ⟨anchor, rule, next, dated, -, read, -⟩
    exact ⟨⟨anchor, dated⟩, rule, read⟩
  · rintro ⟨⟨anchor, dated⟩, rule, read⟩
    have ruled := Entry.rule_eq_ok_some_iff.2 ⟨recurring, read⟩
    rcases Entry.exists_nextOccurrence ruled dated calendar with ⟨next, found⟩
    exact ⟨_, previewDate_eq_ok_iff.2 ⟨anchor, rule, next, dated, recurring, read, found, rfl⟩⟩

/-- A past task is settled on the previewed date. -/
theorem settle_eq_of_previewDate
    (titled : Text.isBlank task.title = false)
    (dated : Date.ofWireText task.date = .ok anchor)
    (previewed : previewDate now task.date task.repeats = .ok text)
    (past : anchor < now) :
    task.settle now = .ok { task with date := text } := by
  rcases previewDate_eq_ok_iff.1 previewed with
    ⟨other, rule, next, otherDated, recurring, read, found, rfl⟩
  rw [dated] at otherDated
  cases otherDated
  have ruled : task.rule = .ok (some rule) := Entry.rule_eq_ok_some_iff.2 ⟨recurring, read⟩
  have valid : task.validate = .ok () :=
    Entry.validate_eq_ok_iff.2 ⟨titled, .inr ⟨anchor, dated⟩, .inr ⟨rule, read⟩⟩
  have settles := (Entry.SettlesOn.moved dated past ruled found).settledDate_eq
  exact Task.settle_eq_ok_iff.2 ⟨valid, _, settles, rfl⟩

/-- A stored task moves to the previewed date if the store takes it, and stays if not. -/
theorem run_completeTask_of_previewDate
    {store : Store} {rowId : Int} {row : Row}
    (present : store.find? rowId = some row)
    (titled : Text.isBlank row.entry.title = false)
    (dated : Date.ofWireText row.entry.date = .ok anchor)
    (previewed : previewDate (max anchor now) row.entry.date row.entry.repeats = .ok text) :
    ((∃ moved, Date.ofWireText text = .ok moved) ∧
      (completeTask rowId now).run .none store =
        (.ok (.rescheduled text), store.replace rowId { row.entry with date := text })) ∨
    ((¬ ∃ moved, Date.ofWireText text = .ok moved) ∧
      ∃ cause, (completeTask rowId now).run .none store = (.error cause, store)) := by
  rcases previewDate_eq_ok_iff.1 previewed with
    ⟨other, rule, next, otherDated, recurring, read, found, rfl⟩
  rw [dated] at otherDated
  cases otherDated
  have ruled := Entry.rule_eq_ok_some_iff.2 ⟨recurring, read⟩
  have later : anchor < next :=
    Std.lt_of_le_of_lt Std.left_le_max (lt_of_nextOccurrence found)
  have positive : 1 ≤ next.year :=
    Int.le_trans (Date.year_of_ofWireText dated).1 (Date.year_le_of_le (Std.le_of_lt later))
  rw [run_completeTask_of_nextOccurrence present titled ruled dated found]
  by_cases short : next.year ≤ 9999
  · rw [if_pos short]
    exact .inl ⟨⟨next, Date.ofWireText_wireText_eq_ok_iff.2 ⟨⟨positive, short⟩, rfl⟩⟩, rfl⟩
  · rw [if_neg short]
    refine .inr ⟨?_, _, rfl⟩
    rintro ⟨moved, reread⟩
    exact short (Date.ofWireText_wireText_eq_ok_iff.1 reread).1.2

/--
For a task with a title, a date text and a rule text, on a day up to the year
9999: a date is previewed exactly if the task is valid, and that is if its date
and its rule can be read.  If the date is before the day, the task is then
settled on the previewed date.  If the task is stored, its completion moves it
to the date that is previewed from the later of the two days, under which its
row is found from then on, unless that date cannot be read back: then it fails,
and the store stays as it is.
-/
theorem previewDate_agrees
    (calendar : now.year ≤ 9999)
    (titled : Text.isBlank task.title = false)
    (written : task.date ≠ "")
    (recurring : Text.isBlank task.repeats = false) :
    ((∃ text, previewDate now task.date task.repeats = .ok text) ↔ task.validate = .ok ()) ∧
    (task.validate = .ok () ↔
      (∃ anchor, Date.ofWireText task.date = .ok anchor) ∧
        ∃ rule, Rule.ofText task.repeats = .ok rule) ∧
    ∀ text anchor, previewDate now task.date task.repeats = .ok text →
      Date.ofWireText task.date = .ok anchor →
      (anchor < now → task.settle now = .ok { task with date := text }) ∧
      ∃ moved, previewDate (max anchor now) task.date task.repeats = .ok moved ∧
        ∀ store rowId, store.find? rowId = some ⟨rowId, task.toEntry⟩ →
          ((∃ date, Date.ofWireText moved = .ok date) ∧
            (completeTask rowId now).run .none store =
              (.ok (.rescheduled moved),
                store.replace rowId { task.toEntry with date := moved }) ∧
            ((completeTask rowId now).run .none store).2.find? rowId =
              some ⟨rowId, { task.toEntry with date := moved }⟩) ∨
          ((¬ ∃ date, Date.ofWireText moved = .ok date) ∧
            ∃ cause, (completeTask rowId now).run .none store = (.error cause, store)) := by
  have valid := Entry.validate_eq_ok_iff_isReadable titled written recurring
  refine ⟨(exists_previewDate_iff recurring calendar).trans valid.symm, valid, ?_⟩
  intro text anchor previewed dated
  refine ⟨fun past => settle_eq_of_previewDate titled dated previewed past, ?_⟩
  have readable := (exists_previewDate_iff recurring calendar).1 ⟨text, previewed⟩
  have latest : (max anchor now).year ≤ 9999 :=
    Date.year_max_le (Date.year_of_ofWireText dated).2 calendar
  rcases (exists_previewDate_iff recurring latest).2 readable with ⟨moved, movedPreviewed⟩
  refine ⟨moved, movedPreviewed, fun store rowId present => ?_⟩
  rcases run_completeTask_of_previewDate present titled dated movedPreviewed with
    ⟨read, completed⟩ | ⟨unread, failed⟩
  · refine .inl ⟨read, completed, ?_⟩
    rw [completed]
    exact Store.find?_replace_self present
  · exact .inr ⟨unread, failed⟩

/--
On the first of March a yearly task of the last leap day is a year ahead, in
the preview, when it is settled, and when it is completed and stored.
-/
theorem previewDate_agrees_of_leapDay :
    let now : Date := ⟨2024, 3, 1, by decide⟩
    let task : Task := { date := "20240229", title := "t", repeats := " y " }
    let moved : Entry := { task.toEntry with date := "20250301" }
    let store : Store := ⟨[⟨7, task.toEntry⟩], 8⟩
    (now.year ≤ 9999 ∧ Text.isBlank task.title = false ∧ task.date ≠ "" ∧
        Text.isBlank task.repeats = false) ∧
      task.validate = .ok () ∧
      task.settle now = .ok { task with date := "20250301" } ∧
      (completeTask 7 now).run .none store = (.ok (.rescheduled "20250301"), ⟨[⟨7, moved⟩], 8⟩) ∧
      ((completeTask 7 now).run .none store).2.find? 7 = some ⟨7, moved⟩ := by
  intro now task moved store
  have calendar : now.year ≤ 9999 := by decide
  have titled : Text.isBlank task.title = false := by decide
  have written : task.date ≠ "" := by decide
  have recurring : Text.isBlank task.repeats = false := by decide
  have agrees := previewDate_agrees calendar titled written recurring
  have previewed : previewDate now task.date task.repeats = .ok "20250301" := by decide +kernel
  have dated : Date.ofWireText task.date = .ok ⟨2024, 2, 29, by decide⟩ := by decide +kernel
  rcases agrees.2.2 _ _ previewed dated with ⟨settled, text, textPreviewed, stored⟩
  have same : text = "20250301" := Except.ok.inj (textPreviewed.symm.trans (by decide +kernel))
  subst same
  refine ⟨⟨calendar, titled, written, recurring⟩, agrees.1.1 ⟨_, previewed⟩,
    settled (by decide), ?_⟩
  rcases stored store 7 (by decide +kernel) with ⟨-, completed, found⟩ | ⟨unread, -⟩
  · exact ⟨completed, found⟩
  · exact absurd ⟨⟨2025, 3, 1, by decide⟩, by decide +kernel⟩ unread

end Agenda
