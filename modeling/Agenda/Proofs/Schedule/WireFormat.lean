import Agenda.Proofs.Calendar.WireText
import Agenda.Proofs.Occurrence.Succession
import Agenda.Proofs.Schedule.Settle

/-!
# Dates beyond the wire format

The calendar goes on after the year 9999 and the wire format does not.  A date
that the schedule hands out is read back, and stored, exactly if its rule falls
due again on a day that the format holds.  Otherwise the date is written with a
sign, and refused as malformed.  The main statement is
`scheduled_wireFormat_iff`.
-/

namespace Agenda

variable {anchor now today next : Date} {rule : Rule} {task settled : Task}

/-- A rule falls due after `now` on some day of a year of at most four digits. -/
def Rule.FallsInFormat (rule : Rule) (anchor now : Date) : Prop :=
  ∃ date, rule.FallsOn anchor date ∧ now < date ∧ date.year ≤ 9999

/-- A recurring entry is past its date, and its rule does not fall due again within the format. -/
def Entry.RunsOut (entry : Entry) (today : Date) : Prop :=
  ∃ date rule, Date.ofWireText entry.date = .ok date ∧ date < today ∧
    entry.rule = .ok (some rule) ∧ ¬ rule.FallsInFormat date today

/-! ## Next occurrences -/

theorem year_le_iff_fallsInFormat
    (found : nextOccurrence anchor rule now = .ok next) :
    next.year ≤ 9999 ↔ rule.FallsInFormat anchor now := by
  rcases isLeastAfter_of_nextOccurrence found with ⟨falls, after, least⟩
  constructor
  · intro short
    exact ⟨next, falls, after, short⟩
  · rintro ⟨date, otherFalls, otherAfter, short⟩
    exact Int.le_trans (Date.year_le_of_le (least date otherFalls otherAfter)) short

theorem one_le_year_of_nextOccurrence
    (calendar : 1 ≤ now.year)
    (found : nextOccurrence anchor rule now = .ok next) :
    1 ≤ next.year := by
  have after := lt_of_nextOccurrence found
  exact Int.le_trans calendar (Date.year_le_of_le (Int.le_of_lt after))

/-- A next occurrence within the format is read back. -/
theorem ofWireText_of_fallsInFormat
    (calendar : 1 ≤ now.year)
    (found : nextOccurrence anchor rule now = .ok next)
    (inFormat : rule.FallsInFormat anchor now) :
    Date.ofWireText next.wireText = .ok next :=
  Date.ofWireText_wireText_eq_ok_iff.2
    ⟨⟨one_le_year_of_nextOccurrence calendar found, (year_le_iff_fallsInFormat found).2 inFormat⟩,
      rfl⟩

/-- A next occurrence beyond the format is refused. -/
theorem ofWireText_of_not_fallsInFormat
    (found : nextOccurrence anchor rule now = .ok next)
    (beyond : ¬ rule.FallsInFormat anchor now) :
    Date.ofWireText next.wireText = .error (.malformed next.wireText) := by
  refine Date.ofWireText_wireText_of_sign next ?_
  rintro ⟨-, short⟩
  exact beyond ((year_le_iff_fallsInFormat found).1 short)

/-! ## Settled dates -/

namespace Entry

variable {entry : Entry}

theorem RunsOut.beyond
    {date : Date}
    (runsOut : entry.RunsOut today)
    (dated : Date.ofWireText entry.date = .ok date) :
    date < today ∧ ∃ rule, entry.rule = .ok (some rule) ∧ ¬ rule.FallsInFormat date today := by
  rcases runsOut with ⟨other, rule, otherDated, past, recurring, beyond⟩
  rw [dated] at otherDated
  cases otherDated
  exact ⟨past, rule, recurring, beyond⟩

/-- The date of a settled entry is one that the format holds, unless the entry runs out. -/
theorem SettlesOn.ofWireText
    {text : String}
    (settles : entry.SettlesOn today text)
    (calendar : 1 ≤ today.year ∧ today.year ≤ 9999) :
    (¬ entry.RunsOut today ∧ ∃ date, Date.ofWireText text = .ok date) ∨
      (entry.RunsOut today ∧ Date.ofWireText text = .error (.malformed text)) := by
  have todayRead : Date.ofWireText today.wireText = .ok today :=
    Date.ofWireText_wireText_eq_ok_iff.2 ⟨calendar, rfl⟩
  cases settles with
  | undated empty =>
      refine .inl ⟨?_, today, todayRead⟩
      rintro ⟨date, rule, dated, -⟩
      rw [empty] at dated
      cases dated
  | kept dated notPast =>
      refine .inl ⟨?_, _, dated⟩
      intro runsOut
      exact absurd (runsOut.beyond dated).1 (Int.not_lt.2 notPast)
  | once dated past noRule =>
      refine .inl ⟨?_, today, todayRead⟩
      intro runsOut
      rcases (runsOut.beyond dated).2 with ⟨rule, recurring, -⟩
      rw [noRule] at recurring
      cases recurring
  | @moved date next rule dated past recurring found =>
      by_cases inFormat : rule.FallsInFormat date today
      · refine .inl ⟨?_, next, ofWireText_of_fallsInFormat calendar.1 found inFormat⟩
        intro runsOut
        rcases (runsOut.beyond dated).2 with ⟨other, otherRecurring, beyond⟩
        rw [recurring] at otherRecurring
        cases otherRecurring
        exact beyond inFormat
      · exact .inr ⟨⟨date, rule, dated, past, recurring, inFormat⟩,
          ofWireText_of_not_fallsInFormat found inFormat⟩

/-- A settled task may be stored, unless its entry runs out. -/
theorem checkRecord_of_settle
    (calendar : 1 ≤ today.year ∧ today.year ≤ 9999)
    (settles : task.settle today = .ok settled) :
    (¬ task.RunsOut today ∧ settled.checkRecord = .ok ()) ∨
      (task.RunsOut today ∧
        settled.checkRecord =
          .error (.invalidData (DateError.malformed settled.date).message)) := by
  rcases Task.settle_eq_ok_iff.1 settles with ⟨valid, date, dateSettles, rfl⟩
  have titled := (validate_eq_ok_iff.1 valid).1
  rcases (settledDate_eq_ok_iff.1 dateSettles).ofWireText calendar with
    ⟨lasts, read, dated⟩ | ⟨runsOut, refused⟩
  · exact .inl ⟨lasts, checkRecord_eq_ok_iff.2 ⟨titled, read, dated⟩⟩
  · refine .inr ⟨runsOut, ?_⟩
    simp only [checkRecord, titled, refused, Bool.false_eq_true, if_false]

end Entry

/--
On a day of the years 1 to 9999, a previewed date is read back as a later day
if its rule falls due after the day within the format, and refused as malformed
if not.  A settled task may be stored, unless it is past a date after which its
rule does not fall due within the format; then its new date is refused as
malformed.
-/
theorem scheduled_wireFormat_iff
    (calendar : 1 ≤ today.year ∧ today.year ≤ 9999) :
    (∀ date repeats text, previewDate today date repeats = .ok text →
      ∃ anchor rule, Date.ofWireText date = .ok anchor ∧ Rule.ofText repeats = .ok rule ∧
        ((rule.FallsInFormat anchor today ∧
            ∃ next, Date.ofWireText text = .ok next ∧ today < next) ∨
          (¬ rule.FallsInFormat anchor today ∧
            Date.ofWireText text = .error (.malformed text)))) ∧
    (∀ task settled : Task, task.settle today = .ok settled →
      (¬ task.RunsOut today ∧ settled.checkRecord = .ok ()) ∨
        (task.RunsOut today ∧
          settled.checkRecord =
            .error (.invalidData (DateError.malformed settled.date).message))) := by
  constructor
  · intro date repeats text previewed
    rcases previewDate_eq_ok_iff.1 previewed with ⟨anchor, rule, next, dated, -, read, found, rfl⟩
    refine ⟨anchor, rule, dated, read, ?_⟩
    by_cases inFormat : rule.FallsInFormat anchor today
    · exact .inl ⟨inFormat, next, ofWireText_of_fallsInFormat calendar.1 found inFormat,
        lt_of_nextOccurrence found⟩
    · exact .inr ⟨inFormat, ofWireText_of_not_fallsInFormat found inFormat⟩
  · intro task settled settles
    exact Entry.checkRecord_of_settle calendar settles

/-- Two days before the format ends, a daily rule still falls due, and a yearly one does not. -/
theorem scheduled_wireFormat_iff_lastDays :
    let today : Date := ⟨9999, 12, 30, by decide⟩
    let task : Task := { date := "99990101", title := "t", repeats := "y" }
    (1 ≤ today.year ∧ today.year ≤ 9999) ∧
      previewDate today "99991229" "d 1" = .ok "99991231" ∧
      (∃ anchor rule, Date.ofWireText "99991229" = .ok anchor ∧ Rule.ofText "d 1" = .ok rule ∧
        rule.FallsInFormat anchor today) ∧
      task.settle today = .ok { task with date := "+100000101" } ∧
      task.RunsOut today := by
  intro today task
  have calendar : 1 ≤ today.year ∧ today.year ≤ 9999 := by decide
  have previewed : previewDate today "99991229" "d 1" = .ok "99991231" := by decide +kernel
  have settles : task.settle today = .ok { task with date := "+100000101" } := by decide +kernel
  refine ⟨calendar, previewed, ?_, settles, ?_⟩
  · rcases (scheduled_wireFormat_iff calendar).1 _ _ _ previewed with
      ⟨anchor, rule, dated, read, inFormat | beyond⟩
    · exact ⟨anchor, rule, dated, read, inFormat.1⟩
    · have accepted : Date.ofWireText "99991231" = .ok ⟨9999, 12, 31, by decide⟩ := by
        decide +kernel
      rw [accepted] at beyond
      cases beyond.2
  · rcases (scheduled_wireFormat_iff calendar).2 _ _ settles with lasts | runsOut
    · exact absurd lasts.2 (by decide +kernel)
    · exact runsOut.1

/--
A daily rule from the last day of the format is previewed, on any day before
it, as a date that is not read; and a yearly task of that year is settled to a
date that the store does not take.
-/
theorem scheduled_leaves_wireFormat :
    let today : Date := ⟨2024, 1, 26, by decide⟩
    let lastDay : Date := ⟨9999, 12, 31, by decide⟩
    let task : Task := { date := "99990101", title := "t", repeats := "y" }
    previewDate today "99991231" "d 1" = .ok "+100000101" ∧
      Date.ofWireText "+100000101" = .error (.malformed "+100000101") ∧
      task.settle lastDay = .ok { task with date := "+100000101" } ∧
      Entry.checkRecord { task with date := "+100000101" } =
        .error (.invalidData (DateError.malformed "+100000101").message) := by
  intro today lastDay task
  refine ⟨by decide +kernel, by decide +kernel, by decide +kernel, by decide +kernel⟩

end Agenda
