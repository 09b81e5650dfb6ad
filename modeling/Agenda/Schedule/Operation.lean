import Agenda.Rule.Occurrence
import Agenda.Store.Script

/-!
# Operations on stored tasks

Adding, editing, deleting, fetching and completing a task, as scripts of store
calls.  Every operation makes at most one call that changes the store, and
makes it last.
-/

namespace Agenda

/-!
## Dates of tasks

`previewDate` answers when a rule next falls due, and `Task.settle` fits the
date of a task to the current day.  Neither touches a store.
-/

/-- Why an operation on tasks fails. -/
inductive ScheduleError where
  | date (cause : DateError)
  | emptyRule
  | rule (cause : RuleError)
  | occurrence (cause : OccurrenceError)
  | validation (cause : ValidationError)
  | store (cause : StoreError)
  | taskNotFound (id : Int)
  deriving DecidableEq

/-- The wording of an operation's error, that of its cause where it has one. -/
def ScheduleError.message : ScheduleError → String
  | .date cause => cause.message
  | .emptyRule => "repeat rule is empty"
  | .rule cause => cause.message
  | .occurrence cause => cause.message
  | .validation cause => cause.message
  | .store cause => cause.message
  | .taskNotFound id => s!"task {id} not found"

/-- The next occurrence after `now` of a rule anchored at a date, all as text. -/
def previewDate (now : Date) (date repeats : String) : Except ScheduleError String := do
  let anchor ← (Date.ofWireText date).mapError .date
  if Text.isBlank repeats then throw .emptyRule
  let rule ← (Rule.ofText repeats).mapError .rule
  let next ← (nextOccurrence anchor rule now).mapError .occurrence
  return next.wireText

/--
The date of an entry on a day: an empty date becomes the day itself, a past
one becomes the next occurrence of the rule, or the day if there is no rule,
and any other date stays.
-/
def Entry.settledDate (entry : Entry) (today : Date) : Except ScheduleError String := do
  if entry.date = "" then return today.wireText
  let date ← (Date.ofWireText entry.date).mapError .date
  if today ≤ date then return entry.date
  match ← entry.rule.mapError .rule with
  | none => return today.wireText
  | some rule =>
    let next ← (nextOccurrence date rule today).mapError .occurrence
    return next.wireText

/-- Validates a task and fits its date to a day. -/
def Task.settle (task : Task) (today : Date) : Except ScheduleError Task := do
  task.validate.mapError .validation
  let date ← task.settledDate today
  return { task with date }

/-! ## Operations -/

/-- A script that may fail with a schedule error. -/
abbrev Operation := ExceptT ScheduleError Script

namespace Operation

/-- Runs an operation alone on a store. -/
def run {α : Type} (faults : Faults) (operation : Operation α) (store : Store) :
    Except ScheduleError α × Store :=
  Script.run faults (ExceptT.run operation) store

/-- One store call, its failure a failure of the operation. -/
def perform (request : Call) : Operation request.Reply :=
  ExceptT.mk (.call request fun reply => .done (reply.mapError .store))

/-- Adds an entry and answers its id. -/
def add (entry : Entry) : Operation Int :=
  perform (.add entry)

/-- Fetches the task with an id, if there is one. -/
def get (id : Int) : Operation (Option Task) :=
  perform (.get id)

/-- Replaces an entry and answers whether there was one. -/
def update (id : Int) (entry : Entry) : Operation Bool :=
  perform (.update id entry)

/-- Deletes an entry and answers whether there was one. -/
def delete (id : Int) : Operation Bool :=
  perform (.delete id)

/-- Lists the first tasks, at most `limit` of them. -/
def list (limit : Nat) : Operation (List Task) :=
  perform (.list limit)

/-- A result that needs no store, with its error seen as a schedule error. -/
def ofResult {ε α : Type} (wrap : ε → ScheduleError) (result : Except ε α) : Operation α :=
  ExceptT.mk (.done (result.mapError wrap))

end Operation

/-- What completing a task did to it. -/
inductive Completion where
  /-- The task was done once and is deleted. -/
  | removed
  /-- The task has moved to the date of this wire text. -/
  | rescheduled (date : String)
  deriving DecidableEq

/-- Stores a new task, fitted to the day, and answers its id. -/
def addTask (task : Task) (today : Date) : Operation Int := do
  let settled ← Operation.ofResult id (task.settle today)
  Operation.add settled.toEntry

/-- Replaces the task that has the id in the id field. -/
def updateTask (task : Task) (today : Date) : Operation Unit := do
  let rowId ← Operation.ofResult .validation (readTaskId task.id)
  let settled ← Operation.ofResult id (task.settle today)
  if ← Operation.update rowId settled.toEntry then return () else throw (.taskNotFound rowId)

/-- Deletes the task with an id. -/
def deleteTask (rowId : Int) : Operation Unit := do
  if ← Operation.delete rowId then return () else throw (.taskNotFound rowId)

/-- Fetches the task with an id. -/
def getTask (rowId : Int) : Operation Task := do
  match ← Operation.get rowId with
  | some task => return task
  | none => throw (.taskNotFound rowId)

/--
Completes a task: one that is done once is deleted, and a recurring one moves
to its next occurrence after both the day and the date that is completed.
-/
def completeTask (rowId : Int) (today : Date) : Operation Completion := do
  let task ← getTask rowId
  match ← Operation.ofResult .rule task.rule with
  | none =>
    deleteTask rowId
    return .removed
  | some rule =>
    let anchor ← Operation.ofResult .date (Date.ofWireText task.date)
    let next ← Operation.ofResult .occurrence (nextOccurrence anchor rule (max anchor today))
    let date := next.wireText
    if ← Operation.update rowId { task.toEntry with date } then return .rescheduled date
    else throw (.taskNotFound rowId)

end Agenda
