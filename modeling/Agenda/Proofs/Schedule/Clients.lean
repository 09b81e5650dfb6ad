import Agenda.Proofs.Schedule.Scripts

/-!
# Clients of one store

Several clients work on one store.  Each of them follows the script of an
operation, and a move of the system lets one client make its next call, or
lets a new client begin.  Calls are made one at a time, in any order, and any
of them may meet a fault.
-/

namespace Agenda

/-- What a client may do. -/
inductive Action where
  | add (task : Task) (today : Date)
  | update (task : Task) (today : Date)
  | delete (rowId : Int)
  | complete (rowId : Int) (today : Date)
  | get (rowId : Int)
  | list (limit : Nat)
  deriving DecidableEq

/-- What a client learns when it does not fail. -/
inductive Answer where
  | added (rowId : Int)
  | updated
  | deleted
  | completed (completion : Completion)
  | task (task : Task)
  | tasks (tasks : List Task)
  deriving DecidableEq

namespace Action

/-- The operation that does an action. -/
def operation : Action → Operation Answer
  | .add task today => .added <$> addTask task today
  | .update task today => (fun _ => .updated) <$> updateTask task today
  | .delete rowId => (fun _ => .deleted) <$> deleteTask rowId
  | .complete rowId today => .completed <$> completeTask rowId today
  | .get rowId => .task <$> getTask rowId
  | .list limit => .tasks <$> Operation.list limit

/-- The calls that a client makes for an action. -/
def script (action : Action) : Script (Except ScheduleError Answer) :=
  ExceptT.run action.operation

/-! ## The scripts of the actions -/

theorem script_add (task : Task) (today : Date) :
    (Action.add task today).script =
      match task.settle today with
      | .error cause => .done (.error cause)
      | .ok settled => .call (.add settled.toEntry) fun reply =>
        .done ((reply.mapError .store).map .added) := by
  rw [script, operation, ExceptT.run_map, run_addTask]
  cases task.settle today <;> rfl

theorem script_update (task : Task) (today : Date) :
    (Action.update task today).script =
      match readTaskId task.id with
      | .error cause => .done (.error (.validation cause))
      | .ok rowId =>
        match task.settle today with
        | .error cause => .done (.error cause)
        | .ok settled => .call (.update rowId settled.toEntry) fun reply =>
          .done (confirm rowId .updated reply) := by
  rw [script, operation, ExceptT.run_map, run_updateTask]
  cases readTaskId task.id with
  | error cause => rfl
  | ok rowId =>
      cases task.settle today with
      | error cause => rfl
      | ok settled =>
          apply congrArg (Script.call (.update rowId settled.toEntry))
          funext reply
          rcases reply with cause | updated
          · rfl
          · cases updated <;> rfl

theorem script_delete (rowId : Int) :
    (Action.delete rowId).script =
      .call (.delete rowId) fun reply => .done (confirm rowId .deleted reply) := by
  rw [script, operation, ExceptT.run_map, run_deleteTask]
  apply congrArg (Script.call (.delete rowId))
  funext reply
  rcases reply with cause | removed
  · rfl
  · cases removed <;> rfl

theorem script_complete (rowId : Int) (today : Date) :
    (Action.complete rowId today).script =
      .call (.get rowId) fun reply =>
        Except.map .completed <$> Script.completeFetched rowId today reply := by
  rw [script, operation, ExceptT.run_map, run_completeTask]
  rfl

theorem script_get (rowId : Int) :
    (Action.get rowId).script =
      .call (.get rowId) fun reply => .done ((fetched rowId reply).map .task) := by
  rw [script, operation, ExceptT.run_map, run_getTask]
  rfl

theorem script_list (limit : Nat) :
    (Action.list limit).script =
      .call (.list limit) fun reply => .done ((reply.mapError .store).map .tasks) := by
  rw [script, operation, ExceptT.run_map]
  rfl

end Action

/-! ## Moves of the system -/

/-- A client, with the part of its script that it has yet to follow. -/
structure Client where
  action : Action
  rest : Script (Except ScheduleError Answer)

/-- The result of a script that has no call to make any more. -/
def Script.result? {α : Type} : Script α → Option α
  | .done result => some result
  | .call _ _ => none

/-- A client that begins. -/
def Client.start (action : Action) : Client :=
  ⟨action, action.script⟩

/-- Lets a client make its next call, if there is one. -/
def Client.step (faults : Faults) (store : Store) (client : Client) : Client × Store :=
  match client.rest with
  | .done _ => (client, store)
  | .call request next =>
    ({ client with rest := next (store.performWith faults request).1 },
      (store.performWith faults request).2)

/-- A store and its clients. -/
structure System where
  store : Store
  clients : List Client

/-- A client begins, or makes its next call. -/
inductive Move where
  | start (action : Action)
  | call (index : Nat) (faults : Faults)

namespace System

/-- An empty store without clients. -/
def initial : System :=
  ⟨∅, []⟩

/-- Makes a move. -/
def move (system : System) : Move → System
  | .start action => { system with clients := system.clients ++ [.start action] }
  | .call index faults =>
    match system.clients[index]? with
    | none => system
    | some client =>
      ⟨(client.step faults system.store).2,
        system.clients.set index (client.step faults system.store).1⟩

/-- Makes moves one after the other. -/
def run (moves : List Move) (system : System) : System :=
  moves.foldl move system

@[simp]
theorem run_cons (next : Move) (later : List Move) (system : System) :
    run (next :: later) system = run later (system.move next) :=
  rfl

/-- What every move preserves is preserved by a run. -/
theorem run_induction
    {holds : System → Prop}
    (preserved : ∀ system next, holds system → holds (system.move next))
    (moves : List Move) {system : System}
    (start : holds system) :
    holds (system.run moves) := by
  induction moves generalizing system with
  | nil => exact start
  | cons next later ih => exact ih (preserved system next start)

end System

end Agenda
