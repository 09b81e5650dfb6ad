import Agenda.Result
import Agenda.Schedule.Operation

/-!
# Validated and settled tasks

What validation, settling and the store ask of the texts of a task.  A rule
that is read from a text has passed its check.  `previewDate_eq_ok_iff` and
`Entry.SettlesOn` say when a date is previewed or settled, and to which text.
-/

namespace Agenda

/-- A rule that is read has passed its check. -/
theorem Rule.check_of_ofText
    {text : String} {rule : Rule}
    (read : Rule.ofText text = .ok rule) :
    rule.check = .ok () := by
  rw [Rule.ofText] at read
  split at read
  · cases read
  · rename_i kind arguments words
    rcases exists_of_bind_eq_ok read with ⟨known, -, read⟩
    rcases exists_of_bind_eq_ok read with ⟨_, checked, same⟩
    cases same
    exact checked

namespace Entry

variable {entry : Entry}

theorem rule_eq_ok_some_iff {rule : Rule} :
    entry.rule = .ok (some rule) ↔
      Text.isBlank entry.repeats = false ∧ Rule.ofText entry.repeats = .ok rule := by
  rw [Entry.rule, isRecurring]
  cases Text.isBlank entry.repeats <;> cases Rule.ofText entry.repeats <;>
    simp [Except.map]

theorem checkRecord_eq_ok_iff :
    entry.checkRecord = .ok () ↔
      Text.isBlank entry.title = false ∧ ∃ date, Date.ofWireText entry.date = .ok date := by
  rw [checkRecord]
  cases Text.isBlank entry.title <;> cases Date.ofWireText entry.date <;> simp

/-- A rule text is readable if it is blank or holds a rule. -/
def HasReadableRule (entry : Entry) : Prop :=
  Text.isBlank entry.repeats = true ∨ ∃ rule, Rule.ofText entry.repeats = .ok rule

/-- Validation asks for a title, for a date if there is one, and for a rule if there is one. -/
theorem validate_eq_ok_iff :
    entry.validate = .ok () ↔
      Text.isBlank entry.title = false ∧
        (entry.date = "" ∨ ∃ date, Date.ofWireText entry.date = .ok date) ∧
        entry.HasReadableRule := by
  rw [validate, isRecurring, HasReadableRule]
  cases Text.isBlank entry.title <;> cases Text.isBlank entry.repeats <;>
    by_cases empty : entry.date = "" <;>
    cases Date.ofWireText entry.date <;> cases Rule.ofText entry.repeats <;>
    simp [empty, bind, Except.bind, pure, Except.pure, throw, throwThe,
      MonadExceptOf.throw]

end Entry

/-- A task is settled when it is valid and its date can be settled; nothing else changes. -/
theorem Task.settle_eq_ok_iff
    {task settled : Task} {today : Date} :
    task.settle today = .ok settled ↔
      task.validate = .ok () ∧
        ∃ date, task.settledDate today = .ok date ∧ settled = { task with date } := by
  rw [Task.settle]
  cases task.validate with
  | error cause => simp [bind, Except.bind]
  | ok =>
      cases task.settledDate today <;>
        simp [bind, Except.bind, pure, Except.pure, eq_comm]

/-- A previewed date is the next occurrence of the rule, counted from the date. -/
theorem previewDate_eq_ok_iff
    {now : Date} {date repeats text : String} :
    previewDate now date repeats = .ok text ↔
      ∃ anchor rule next, Date.ofWireText date = .ok anchor ∧ Text.isBlank repeats = false ∧
        Rule.ofText repeats = .ok rule ∧ nextOccurrence anchor rule now = .ok next ∧
        text = next.wireText := by
  rw [previewDate]
  cases Date.ofWireText date with
  | error cause => simp [bind, Except.bind]
  | ok anchor =>
      cases Text.isBlank repeats with
      | true => simp [bind, Except.bind, throw, throwThe, MonadExceptOf.throw]
      | false =>
          cases Rule.ofText repeats with
          | error cause => simp [bind, Except.bind]
          | ok rule =>
              cases found : nextOccurrence anchor rule now <;>
                simp [bind, Except.bind, pure, Except.pure, found, eq_comm]

/-- The texts that the date of an entry becomes on a day. -/
inductive Entry.SettlesOn (entry : Entry) (today : Date) : String → Prop where
  | undated (empty : entry.date = "") : entry.SettlesOn today today.wireText
  | kept {date : Date} (dated : Date.ofWireText entry.date = .ok date)
    (notPast : today ≤ date) : entry.SettlesOn today entry.date
  | once {date : Date} (dated : Date.ofWireText entry.date = .ok date) (past : date < today)
    (noRule : entry.rule = .ok none) : entry.SettlesOn today today.wireText
  | moved {date next : Date} {rule : Rule} (dated : Date.ofWireText entry.date = .ok date)
    (past : date < today) (recurring : entry.rule = .ok (some rule))
    (found : nextOccurrence date rule today = .ok next) : entry.SettlesOn today next.wireText

namespace Entry

variable {entry : Entry} {today : Date} {text : String}

theorem settlesOn_of_settledDate
    (settled : entry.settledDate today = .ok text) :
    entry.SettlesOn today text := by
  rw [settledDate] at settled
  split at settled
  · rename_i empty
    cases settled
    exact .undated empty
  · rcases exists_of_bind_eq_ok settled with ⟨date, dated, settled⟩
    rw [mapError_eq_ok_iff] at dated
    split at settled
    · rename_i notPast
      cases settled
      exact .kept dated notPast
    · rename_i notKept
      have past : date < today := Int.not_le.1 notKept
      rcases exists_of_bind_eq_ok settled with ⟨found, ruled, settled⟩
      rw [mapError_eq_ok_iff] at ruled
      cases found with
      | none =>
          cases settled
          exact .once dated past ruled
      | some rule =>
          rcases exists_of_bind_eq_ok settled with ⟨next, found, settled⟩
          cases settled
          exact .moved dated past ruled (mapError_eq_ok_iff.1 found)

theorem date_ne_empty_of_dated
    {date : Date}
    (dated : Date.ofWireText entry.date = .ok date) :
    entry.date ≠ "" := by
  intro empty
  rw [empty] at dated
  cases dated

theorem SettlesOn.settledDate_eq
    (settles : entry.SettlesOn today text) :
    entry.settledDate today = .ok text := by
  rw [settledDate]
  cases settles with
  | undated empty =>
      rw [if_pos empty]
      rfl
  | kept dated notPast =>
      rw [if_neg (date_ne_empty_of_dated dated), dated]
      exact if_pos notPast
  | once dated past noRule =>
      have notKept : ¬ today ≤ _ := Int.not_le.2 past
      rw [if_neg (date_ne_empty_of_dated dated), dated]
      show (if today ≤ _ then _ else _) = _
      rw [if_neg notKept, noRule]
      rfl
  | moved dated past recurring found =>
      have notKept : ¬ today ≤ _ := Int.not_le.2 past
      rw [if_neg (date_ne_empty_of_dated dated), dated]
      show (if today ≤ _ then _ else _) = _
      rw [if_neg notKept, recurring]
      show ((nextOccurrence _ _ today).mapError _ >>= _) = _
      rw [found]
      rfl

/-- Settling a date succeeds exactly in these four ways. -/
theorem settledDate_eq_ok_iff :
    entry.settledDate today = .ok text ↔ entry.SettlesOn today text :=
  ⟨settlesOn_of_settledDate, SettlesOn.settledDate_eq⟩

end Entry

end Agenda
