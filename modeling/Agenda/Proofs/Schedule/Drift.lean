import Agenda.Proofs.Calendar.WireText
import Agenda.Proofs.Occurrence.Reanchoring
import Agenda.Proofs.Schedule.Scripts
import Agenda.Proofs.Schedule.Settle

/-!
# Completing a task again and again

The stored date is all that a task knows of its schedule: a completion counts
from it, and stores the next occurrence in its place.  However often a task is
completed, it moves along the dates of its rule as if they were counted from
its first date, until a yearly rule that was carried from a leap day to the
first of March misses the next leap day.  The main statement is
`completion_countsAlike`.
-/

namespace Agenda

namespace Entry

theorem completed_eq
    {entry : Entry} {rule : Rule} {anchor : Date}
    (recurring : entry.rule = .ok (some rule))
    (anchored : Date.ofWireText entry.date = .ok anchor)
    (today : Date) :
    entry.completed today =
      match nextOccurrence anchor rule (max anchor today) with
      | .error cause => .error (.occurrence cause)
      | .ok next => .ok (some { entry with date := next.wireText }) := by
  cases found : nextOccurrence anchor rule (max anchor today) with
  | error cause => simp only [completed, recurring, anchored, found]
  | ok next => simp only [completed, recurring, anchored, found]

/-- An entry that has come from its first date to a date that its rule reaches from there. -/
structure MovedTo
    (first : Entry) (origin : Date) (rule : Rule) (current : Date) (entry : Entry) : Prop where
  kept : entry = { first with date := entry.date }
  dated : Date.ofWireText entry.date = .ok current
  reached : rule.Reaches origin current

variable {first entry : Entry} {origin current reached today : Date} {rule : Rule}

theorem MovedTo.refl
    (dated : Date.ofWireText entry.date = .ok origin) :
    entry.MovedTo origin rule origin entry :=
  ⟨rfl, dated, .inl rfl⟩

theorem MovedTo.rule_eq (moved : first.MovedTo origin rule current entry) :
    entry.rule = first.rule := by
  rw [moved.kept]
  rfl

theorem MovedTo.rescheduled_eq
    (moved : first.MovedTo origin rule current entry)
    (date : String) :
    { entry with date } = { first with date } := by
  rw [moved.kept]

theorem MovedTo.next
    (moved : first.MovedTo origin rule current entry)
    (found : nextOccurrence current rule (max current today) = .ok reached)
    (accepted : ({ first with date := reached.wireText } : Entry).checkRecord = .ok ()) :
    first.MovedTo origin rule reached { first with date := reached.wireText } := by
  refine ⟨rfl, ?_, ?_⟩
  · rcases (checkRecord_eq_ok_iff.1 accepted).2 with ⟨date, read⟩
    rcases Date.ofWireText_wireText_eq_ok_iff.1 read with ⟨-, rfl⟩
    exact read
  · exact moved.reached.next Std.left_le_max found

end Entry

/-- The store after the task of a row was completed on some days. -/
def Store.completeOn (rowId : Int) (days : List Date) (store : Store) : Store :=
  days.foldl (fun before today => ((completeTask rowId today).run .none before).2) store

variable {store : Store} {rowId : Int} {row : Row} {first : Entry}
  {origin current : Date} {rule : Rule}

/--
A completion stores the next occurrence counted from the date of its row, or
it ends with an error and stores nothing.
-/
theorem run_completeTask_of_movedTo
    (today : Date)
    (present : store.find? rowId = some row)
    (recurring : first.rule = .ok (some rule))
    (moved : first.MovedTo origin rule current row.entry) :
    (∃ next,
      nextOccurrence current rule (max current today) = .ok next ∧
      ({ first with date := next.wireText } : Entry).checkRecord = .ok () ∧
      (completeTask rowId today).run .none store =
        (.ok (.rescheduled next.wireText),
          store.replace rowId { first with date := next.wireText })) ∨
    ((∀ next, nextOccurrence current rule (max current today) = .ok next →
      ({ first with date := next.wireText } : Entry).checkRecord ≠ .ok ()) ∧
      ∃ cause, (completeTask rowId today).run .none store = (.error cause, store)) := by
  have completed := Entry.completed_eq (moved.rule_eq.trans recurring) moved.dated today
  rw [run_completeTask_alone, present]
  simp only [Store.completeWith, completed]
  cases found : nextOccurrence current rule (max current today) with
  | error cause =>
      refine .inr ⟨?_, .occurrence cause, rfl⟩
      intro next same
      cases same
  | ok next =>
      simp only [moved.rescheduled_eq, Store.writeCompleted, Store.contains_of_find? present]
      cases accepted : ({ first with date := next.wireText } : Entry).checkRecord with
      | error cause =>
          refine .inr ⟨?_, .store cause, rfl⟩
          intro other same
          cases same
          rw [accepted]
          simp only [reduceCtorEq, not_false_eq_true, ne_eq]
      | ok =>
          exact .inl ⟨next, rfl, accepted, rfl⟩

/--
Completing a task on any days moves its row along the dates of its rule: each
day starts from the date that the day before it has stored.
-/
theorem exists_movedTo_completeOn
    (recurring : first.rule = .ok (some rule))
    (days : List Date)
    (present : store.find? rowId = some row)
    (moved : first.MovedTo origin rule current row.entry) :
    ∃ row current, (store.completeOn rowId days).find? rowId = some row ∧
      first.MovedTo origin rule current row.entry := by
  induction days generalizing store row current with
  | nil => exact ⟨row, current, present, moved⟩
  | cons today later ih =>
      rw [Store.completeOn, List.foldl_cons]
      rcases run_completeTask_of_movedTo today present recurring moved with
        ⟨next, found, accepted, stored⟩ | ⟨-, cause, refused⟩
      · rw [stored]
        exact ih (Store.find?_replace_self present) (moved.next found accepted)
      · rw [refused]
        exact ih present moved

/--
Counted from an occurrence, the next occurrences are those counted from the
first date, unless the rule drifts.  So it is with every date that completions
store: a row keeps its entry but for the date, and the date that a completion
stores is the next occurrence counted from the first date of the task, unless
the rule drifts.
-/
theorem completion_countsAlike :
    (∀ (anchor : Date) (rule : Rule) (now next later : Date),
      nextOccurrence anchor rule now = .ok next → next ≤ later →
        rule.CountsAlike anchor next later) ∧
    ∀ (store : Store) (rowId : Int) (row : Row) (rule : Rule) (origin : Date),
      store.find? rowId = some row →
      row.entry.rule = .ok (some rule) →
      Date.ofWireText row.entry.date = .ok origin →
      ∀ days : List Date, ∃ text current,
        (store.completeOn rowId days).find? rowId =
          some ⟨rowId, { row.entry with date := text }⟩ ∧
        Date.ofWireText text = .ok current ∧
        ∀ today : Date, rule.CountsAlike origin current (max current today) ∧
          ((∃ next,
            nextOccurrence current rule (max current today) = .ok next ∧
            Date.ofWireText next.wireText = .ok next ∧
            (completeTask rowId today).run .none (store.completeOn rowId days) =
              (.ok (.rescheduled next.wireText),
                (store.completeOn rowId days).replace rowId
                  { row.entry with date := next.wireText })) ∨
          ((∀ next, nextOccurrence current rule (max current today) = .ok next →
            ({ row.entry with date := next.wireText } : Entry).checkRecord ≠ .ok ()) ∧
            ∃ cause, (completeTask rowId today).run .none (store.completeOn rowId days) =
              (.error cause, store.completeOn rowId days))) := by
  constructor
  · intro anchor rule now next later found ordered
    have reached : rule.Reaches anchor next := .inr (.inl (isLeastAfter_of_nextOccurrence found).1)
    exact reached.countsAlike (nextOccurrence_eq_ok_iff.1 found).1 ordered
  · intro store rowId row rule origin present recurring dated days
    rcases exists_movedTo_completeOn recurring days present (.refl dated) with
      ⟨moved, current, found, place⟩
    have accepted := Rule.check_of_ofText (Entry.rule_eq_ok_some_iff.1 recurring).2
    refine ⟨moved.entry.date, current, ?_, place.dated, ?_⟩
    · rw [found, ← place.kept, ← Store.id_of_find? found]
    · intro today
      refine ⟨place.reached.countsAlike accepted Std.left_le_max, ?_⟩
      rcases run_completeTask_of_movedTo today found recurring place with
        ⟨next, least, stored, run⟩ | refused
      · exact .inl ⟨next, least, (place.next least stored).dated, run⟩
      · exact .inr refused

/-- A task of every last day of a month stays on the last days, also after the leap day. -/
theorem completion_countsAlike_lastDays :
    let entry : Entry := { date := "20240131", title := "t", repeats := "m -1" }
    let store : Store := ⟨[⟨1, entry⟩], 2⟩
    let rule : Rule := .monthly (.ofList [-1]) (.ofList [])
    let first : Date := ⟨2024, 1, 31, by decide⟩
    let next : Date := ⟨2024, 2, 29, by decide⟩
    let later : Date := ⟨2025, 2, 27, by decide⟩
    (nextOccurrence first rule first = .ok next ∧ next ≤ later ∧
      nextOccurrence next rule later = nextOccurrence first rule later) ∧
    (store.find? 1 = some ⟨1, entry⟩ ∧ entry.rule = .ok (some rule) ∧
      Date.ofWireText entry.date = .ok first ∧
      ∃ text current,
        (store.completeOn 1 [first, later]).find? 1 = some ⟨1, { entry with date := text }⟩ ∧
        Date.ofWireText text = .ok current ∧
        rule.CountsAlike first current (max current later)) := by
  intro entry store rule first next later
  have found : nextOccurrence first rule first = .ok next := by decide +kernel
  have ordered : next ≤ later := by decide
  have present : store.find? 1 = some ⟨1, entry⟩ := by decide +kernel
  have recurring : entry.rule = .ok (some rule) := by decide +kernel
  have dated : Date.ofWireText entry.date = .ok first := by decide +kernel
  constructor
  · refine ⟨found, ordered, ?_⟩
    refine (completion_countsAlike.1 first rule first next later found ordered).same_iff.2 ?_
    intro drifts
    exact absurd drifts.1 (by decide)
  · rcases completion_countsAlike.2 store 1 ⟨1, entry⟩ rule first present recurring dated
      [first, later] with ⟨text, current, place, read, counts⟩
    exact ⟨present, recurring, dated, text, current, place, read, (counts later).1⟩

/--
A yearly task of the leap day of 2020 is carried to March of 2021 when it is
done.  Done again in 2023, it goes to March of 2024; counted from its first
date, it would be due on the leap day.
-/
theorem completion_misses_leapDay :
    let entry : Entry := { date := "20200229", title := "t", repeats := "y" }
    let first : Date := ⟨2020, 2, 29, by decide⟩
    let carried : Date := ⟨2021, 3, 1, by decide⟩
    let day : Date := ⟨2023, 6, 1, by decide⟩
    let leapDay : Date := ⟨2024, 2, 29, by decide⟩
    let march : Date := ⟨2024, 3, 1, by decide⟩
    nextOccurrence first .yearly first = .ok carried ∧ carried ≤ day ∧
      nextOccurrence carried .yearly day = .ok march ∧
      nextOccurrence first .yearly day = .ok leapDay ∧
      (Store.completeOn 1 [first, day] ⟨[⟨1, entry⟩], 2⟩).find? 1 =
        some ⟨1, { entry with date := march.wireText }⟩ ∧
      march ≠ leapDay := by
  intro entry first carried day leapDay march
  refine ⟨by decide +kernel, by decide, by decide +kernel, by decide +kernel, ?_, by decide⟩
  decide +kernel

end Agenda
