import Agenda.Proofs.Store.Rows
import Agenda.Schedule.Operation

/-!
# Operations as calls

Each operation is written out as the calls that it makes: none when it fails on
its arguments, else one, and completing a task makes a second one after it has
fetched the task.  What completing does to an entry is a function of the entry
and the day alone, `Entry.completed`.
-/

namespace Agenda

/--
What completing makes of an entry on a day: nothing if it is done once, else
the entry at its next occurrence after the day and the date that is completed.
-/
def Entry.completed (entry : Entry) (today : Date) : Except ScheduleError (Option Entry) :=
  match entry.rule with
  | .error cause => .error (.rule cause)
  | .ok none => .ok none
  | .ok (some rule) =>
    match Date.ofWireText entry.date with
    | .error cause => .error (.date cause)
    | .ok anchor =>
      match nextOccurrence anchor rule (max anchor today) with
      | .error cause => .error (.occurrence cause)
      | .ok next => .ok (some { entry with date := next.wireText })

namespace Entry

variable {entry written : Entry} {today : Date}

/-- Completing moves an entry to the next occurrence of its rule. -/
theorem completed_eq_ok_some_iff :
    entry.completed today = .ok (some written) ↔
      ∃ rule anchor next, entry.rule = .ok (some rule) ∧
        Date.ofWireText entry.date = .ok anchor ∧
        nextOccurrence anchor rule (max anchor today) = .ok next ∧
        written = { entry with date := next.wireText } := by
  rw [completed]
  split
  · simp_all
  · simp_all
  · rename_i rule recurring
    rw [recurring]
    split
    · rename_i cause unread
      simp [unread]
    · rename_i anchor dated
      rw [dated]
      cases found : nextOccurrence anchor rule (max anchor today) with
      | error cause => simp [found]
      | ok next => simp [found, eq_comm]

end Entry

/-- What a completion answers. -/
def Completion.ofWritten : Option Entry → Completion
  | none => .removed
  | some entry => .rescheduled entry.date

/-- The result of an operation whose last call asks for a row. -/
def confirm {α : Type} (rowId : Int) (result : α) :
    Except StoreError Bool → Except ScheduleError α
  | .ok true => .ok result
  | .ok false => .error (.taskNotFound rowId)
  | .error cause => .error (.store cause)

namespace Script

/-- The end of a completion that has made its decision. -/
def writeCompleted (rowId : Int) :
    Option Entry → Script (Except ScheduleError Completion)
  | none => .call (.delete rowId) fun reply =>
    .done (confirm rowId (.ofWritten none) reply)
  | some entry => .call (.update rowId entry) fun reply =>
    .done (confirm rowId (.ofWritten (some entry)) reply)

/-- The rest of a completion after the fetched task is known. -/
def completeFetched (rowId : Int) (today : Date) :
    Except StoreError (Option Task) → Script (Except ScheduleError Completion)
  | .error cause => .done (.error (.store cause))
  | .ok none => .done (.error (.taskNotFound rowId))
  | .ok (some task) =>
    match task.toEntry.completed today with
    | .error cause => .done (.error cause)
    | .ok written => writeCompleted rowId written

end Script

/-- A result that needs no store is handed on, or ends the operation. -/
theorem run_ofResult_bind {ε α β : Type}
    (wrap : ε → ScheduleError) (result : Except ε α) (next : α → Operation β) :
    ExceptT.run (Operation.ofResult wrap result >>= next) =
      match result with
      | .error cause => .done (.error (wrap cause))
      | .ok value => ExceptT.run (next value) := by
  cases result <;> rfl

theorem run_completeTask (rowId : Int) (today : Date) :
    ExceptT.run (completeTask rowId today) =
      .call (.get rowId) (Script.completeFetched rowId today) := by
  apply congrArg (Script.call (.get rowId))
  funext reply
  rcases reply with cause | found
  · rfl
  · cases found with
    | none => rfl
    | some task =>
        show ExceptT.run (Operation.ofResult .rule task.toEntry.rule >>= _) =
          (match task.toEntry.completed today with
          | .error cause => .done (.error cause)
          | .ok written => Script.writeCompleted rowId written)
        rw [run_ofResult_bind, Entry.completed]
        cases task.toEntry.rule with
        | error cause => rfl
        | ok repeats =>
            cases repeats with
            | none =>
                apply congrArg (Script.call (.delete rowId))
                funext reply
                rcases reply with cause | removed
                · rfl
                · cases removed <;> rfl
            | some rule =>
                show ExceptT.run (Operation.ofResult .date (Date.ofWireText task.date) >>= _) = _
                rw [run_ofResult_bind]
                cases Date.ofWireText task.date with
                | error cause => rfl
                | ok anchor =>
                    show ExceptT.run (Operation.ofResult .occurrence
                      (nextOccurrence anchor rule (max anchor today)) >>= _) = _
                    rw [run_ofResult_bind]
                    simp only
                    cases nextOccurrence anchor rule (max anchor today) with
                    | error cause => rfl
                    | ok next =>
                        apply congrArg (Script.call (.update rowId _))
                        funext reply
                        rcases reply with cause | updated
                        · rfl
                        · cases updated <;> rfl

/-! ## Operations of one call -/

theorem run_addTask (task : Task) (today : Date) :
    ExceptT.run (addTask task today) =
      match task.settle today with
      | .error cause => .done (.error cause)
      | .ok settled => .call (.add settled.toEntry) fun reply => .done (reply.mapError .store) := by
  rw [addTask, run_ofResult_bind]
  cases task.settle today <;> rfl

theorem run_updateTask (task : Task) (today : Date) :
    ExceptT.run (updateTask task today) =
      match readTaskId task.id with
      | .error cause => .done (.error (.validation cause))
      | .ok rowId =>
        match task.settle today with
        | .error cause => .done (.error cause)
        | .ok settled => .call (.update rowId settled.toEntry) fun reply =>
          .done (confirm rowId () reply) := by
  rw [updateTask, run_ofResult_bind]
  cases readTaskId task.id with
  | error cause => rfl
  | ok rowId =>
      simp only [run_ofResult_bind]
      cases task.settle today with
      | error cause => rfl
      | ok settled =>
          apply congrArg (Script.call (.update rowId settled.toEntry))
          funext reply
          rcases reply with cause | updated
          · rfl
          · cases updated <;> rfl

theorem run_deleteTask (rowId : Int) :
    ExceptT.run (deleteTask rowId) =
      .call (.delete rowId) fun reply => .done (confirm rowId () reply) := by
  apply congrArg (Script.call (.delete rowId))
  funext reply
  rcases reply with cause | removed
  · rfl
  · cases removed <;> rfl

/-- The result of fetching a task. -/
def fetched (rowId : Int) : Except StoreError (Option Task) → Except ScheduleError Task
  | .ok (some task) => .ok task
  | .ok none => .error (.taskNotFound rowId)
  | .error cause => .error (.store cause)

theorem run_getTask (rowId : Int) :
    ExceptT.run (getTask rowId) =
      .call (.get rowId) fun reply => .done (fetched rowId reply) := by
  apply congrArg (Script.call (.get rowId))
  funext reply
  rcases reply with cause | found
  · rfl
  · cases found <;> rfl

/-! ## Completing alone -/

/-- Writes what completing makes of an entry to the row of the entry. -/
def Store.writeCompleted (store : Store) (rowId : Int) :
    Option Entry → Except ScheduleError Completion × Store
  | none =>
    if store.contains rowId then (.ok .removed, store.erase rowId)
    else (.error (.taskNotFound rowId), store)
  | some entry =>
    match entry.checkRecord with
    | .error cause => (.error (.store cause), store)
    | .ok () =>
      if store.contains rowId then (.ok (.rescheduled entry.date), store.replace rowId entry)
      else (.error (.taskNotFound rowId), store)

@[simp]
theorem Script.run_writeCompleted (store : Store) (rowId : Int) (written : Option Entry) :
    (Script.writeCompleted rowId written).run .none store = store.writeCompleted rowId written := by
  cases written with
  | none =>
      simp only [Script.writeCompleted, Script.run, Store.performWith_none, Store.perform,
        Store.writeCompleted]
      cases contained : store.contains rowId with
      | false => simp [confirm, contained]
      | true => simp [confirm, Completion.ofWritten]
  | some entry =>
      simp only [Script.writeCompleted, Script.run, Store.performWith_none, Store.perform,
        Store.writeCompleted]
      cases entry.checkRecord with
      | error cause => rfl
      | ok =>
          cases contained : store.contains rowId with
          | false => simp [confirm, contained]
          | true => simp [confirm, Completion.ofWritten]

/-- Completes a task after its row was looked for in this store or in an earlier one. -/
def Store.completeWith
    (found : Option Row) (rowId : Int) (today : Date) (store : Store) :
    Except ScheduleError Completion × Store :=
  match found with
  | none => (.error (.taskNotFound rowId), store)
  | some row =>
    match row.entry.completed today with
    | .error cause => (.error cause, store)
    | .ok written => store.writeCompleted rowId written

@[simp]
theorem Script.run_completeFetched
    (found : Option Row) (rowId : Int) (today : Date) (store : Store) :
    (completeFetched rowId today (.ok (found.map Row.task))).run .none store =
      store.completeWith found rowId today := by
  cases found with
  | none => rfl
  | some row =>
      simp only [Option.map_some, completeFetched, Row.task, Store.completeWith]
      cases row.entry.completed today with
      | error cause => rfl
      | ok written => exact run_writeCompleted store rowId written

/-- Completing a task alone writes what completing makes of its row. -/
theorem run_completeTask_alone (store : Store) (rowId : Int) (today : Date) :
    (completeTask rowId today).run .none store =
      store.completeWith (store.find? rowId) rowId today := by
  rw [Operation.run, run_completeTask]
  simp only [Script.run, Store.performWith_none, Store.perform]
  exact Script.run_completeFetched (store.find? rowId) rowId today store

/-! ## The other operations alone -/

theorem run_updateTask_alone (store : Store) (task : Task) (today : Date) :
    (updateTask task today).run .none store =
      match readTaskId task.id with
      | .error cause => (.error (.validation cause), store)
      | .ok rowId =>
        match task.settle today with
        | .error cause => (.error cause, store)
        | .ok settled =>
          match settled.checkRecord with
          | .error cause => (.error (.store cause), store)
          | .ok () =>
            (if store.contains rowId then .ok () else .error (.taskNotFound rowId),
              store.replace rowId settled.toEntry) := by
  rw [Operation.run, run_updateTask]
  cases readTaskId task.id with
  | error cause => rfl
  | ok rowId =>
      cases task.settle today with
      | error cause => rfl
      | ok settled =>
          simp only [Script.run, Store.performWith_none, Store.perform]
          cases settled.checkRecord with
          | error cause => rfl
          | ok => cases store.contains rowId <;> rfl

theorem run_getTask_alone (store : Store) (rowId : Int) :
    (getTask rowId).run .none store =
      (fetched rowId (.ok ((store.find? rowId).map Row.task)), store) := by
  rw [Operation.run, run_getTask]
  rfl

end Agenda
