import Agenda.Proofs.Schedule.Clients
import Agenda.Proofs.Store.Ledger
import Agenda.Store.Snapshot

/-!
# Uses of a store

A store is used through the operations on tasks, through its own calls, and by
closing it and opening it again.  For a ledger the operations are written out
(`Ledger.act`), and their scripts do the same (`Ledger.follow_script`).  So a
store that refines a ledger has the same outcomes in every sequence of steps,
whatever fails on the way (`Store.Refines.takeAll`).
-/

namespace Agenda

/-! ## Operations on a ledger -/

/-- Keeps an entry, or nothing, under an id, and asks whether there was an entry. -/
def Ledger.write {α : Type} (faults : Faults) (ledger : Ledger) (rowId : Int) (value : α) :
    Option Entry → Except ScheduleError α × Ledger
  | none =>
    let (reply, changed) := ledger.performWith faults (.delete rowId)
    (confirm rowId value reply, changed)
  | some entry =>
    let (reply, changed) := ledger.performWith faults (.update rowId entry)
    (confirm rowId value reply, changed)

/-- Does an action. -/
def Ledger.act (faults : Faults) (ledger : Ledger) : Action → Except ScheduleError Answer × Ledger
  | .add task today =>
    match task.settle today with
    | .error cause => (.error cause, ledger)
    | .ok settled =>
      let (reply, changed) := ledger.performWith faults (.add settled.toEntry)
      ((reply.mapError .store).map .added, changed)
  | .update task today =>
    match readTaskId task.id with
    | .error cause => (.error (.validation cause), ledger)
    | .ok rowId =>
      match task.settle today with
      | .error cause => (.error cause, ledger)
      | .ok settled => ledger.write faults rowId .updated (some settled.toEntry)
  | .delete rowId => ledger.write faults rowId .deleted none
  | .complete rowId today =>
    match (ledger.performWith faults (.get rowId)).1 with
    | .error cause => (.error (.store cause), ledger)
    | .ok none => (.error (.taskNotFound rowId), ledger)
    | .ok (some task) =>
      match task.toEntry.completed today with
      | .error cause => (.error cause, ledger)
      | .ok written => ledger.write faults rowId (.completed (.ofWritten written)) written
  | .get rowId => ((fetched rowId (ledger.performWith faults (.get rowId)).1).map .task, ledger)
  | .list limit =>
    (((ledger.performWith faults (.list limit)).1.mapError .store).map .tasks, ledger)

/-! ## Scripts on a ledger -/

/-- Runs a script alone on a ledger. -/
def Ledger.follow {α : Type} (faults : Faults) : Script α → Ledger → α × Ledger
  | .done result, ledger => (result, ledger)
  | .call request next, ledger =>
    let (reply, changed) := ledger.performWith faults request
    Ledger.follow faults (next reply) changed

theorem Ledger.follow_call
    {α : Type} (faults : Faults) (request : Call)
    (next : Except StoreError request.Reply → Script α) (ledger : Ledger) :
    Ledger.follow faults (.call request next) ledger =
      Ledger.follow faults (next (ledger.performWith faults request).1)
        (ledger.performWith faults request).2 :=
  rfl

theorem Ledger.follow_map
    {α β : Type} (faults : Faults) (change : α → β) (script : Script α) (ledger : Ledger) :
    Ledger.follow faults (change <$> script) ledger =
      (change (Ledger.follow faults script ledger).1, (Ledger.follow faults script ledger).2) := by
  induction script generalizing ledger with
  | done result => rfl
  | call request next ih => exact ih _ _

theorem Ledger.performWith_get (faults : Faults) (ledger : Ledger) (rowId : Int) :
    (ledger.performWith faults (.get rowId)).2 = ledger := by
  rw [performWith]
  split <;> rfl

theorem Ledger.performWith_list (faults : Faults) (ledger : Ledger) (limit : Nat) :
    (ledger.performWith faults (.list limit)).2 = ledger := by
  rw [performWith]
  split <;> rfl

theorem map_confirm
    {α β : Type} (change : α → β) (rowId : Int) (value : α) (reply : Except StoreError Bool) :
    (confirm rowId value reply).map change = confirm rowId (change value) reply := by
  rcases reply with cause | found
  · rfl
  · cases found <;> rfl

theorem Ledger.follow_writeCompleted
    (faults : Faults) (ledger : Ledger) (rowId : Int) (written : Option Entry) :
    Ledger.follow faults (Except.map .completed <$> Script.writeCompleted rowId written) ledger =
      ledger.write faults rowId (Answer.completed (.ofWritten written)) written := by
  rw [follow_map]
  cases written <;> exact congrArg (·, _) (map_confirm _ rowId _ _)

/-- The script of an action does it. -/
theorem Ledger.follow_script (faults : Faults) (ledger : Ledger) (action : Action) :
    Ledger.follow faults action.script ledger = ledger.act faults action := by
  cases action with
  | add task today =>
      rw [Action.script_add, act]
      cases task.settle today <;> rfl
  | update task today =>
      rw [Action.script_update, act]
      cases readTaskId task.id with
      | error cause => rfl
      | ok rowId => cases task.settle today <;> rfl
  | delete rowId =>
      rw [Action.script_delete]
      rfl
  | complete rowId today =>
      rw [Action.script_complete, follow_call, performWith_get, act]
      rcases (ledger.performWith faults (.get rowId)).1 with cause | found
      · rfl
      · cases found with
        | none => rfl
        | some task =>
            simp only [Script.completeFetched]
            cases task.toEntry.completed today with
            | error cause => rfl
            | ok written => exact follow_writeCompleted faults ledger rowId written
  | get rowId =>
      rw [Action.script_get, follow_call, performWith_get]
      rfl
  | list limit =>
      rw [Action.script_list, follow_call, performWith_list]
      rfl

/-- A script has the same result on a store and on the ledger that it refines. -/
theorem Store.Refines.follow
    {α : Type} {store : Store} {ledger : Ledger}
    (refines : store.Refines ledger)
    (faults : Faults) (script : Script α) :
    (script.run faults store).1 = (Ledger.follow faults script ledger).1 ∧
      (script.run faults store).2.Refines (Ledger.follow faults script ledger).2 := by
  induction script generalizing store ledger with
  | done result => exact ⟨rfl, refines⟩
  | call request next ih =>
      have answered := refines.performWith faults request
      rw [Script.run_call_of_faults, Ledger.follow_call, answered.1]
      exact ih _ answered.2

/-! ## Steps -/

/-- A use of a store: an operation, a call, or closing and opening it again. -/
inductive Step where
  | act (faults : Faults) (action : Action)
  | call (faults : Faults) (request : Call)
  | reopen

/-- What a step answers. -/
inductive Outcome where
  | acted (result : Except ScheduleError Answer)
  | called (request : Call) (reply : Except StoreError request.Reply)
  | reopened (succeeded : Bool)

/-- The id that an addition gives. -/
def Outcome.addedId? : Outcome → Option Int
  | .acted (.ok (.added rowId)) => some rowId
  | .called (.add _) (.ok rowId) => some rowId
  | _ => none

/-- Takes a step on a store. -/
def Store.take (store : Store) : Step → Outcome × Store
  | .act faults action =>
    let (result, changed) := action.operation.run faults store
    (.acted result, changed)
  | .call faults request =>
    let (reply, changed) := store.performWith faults request
    (.called request reply, changed)
  | .reopen =>
    match Snapshot.read? (Snapshot.write store) with
    | some opened => (.reopened true, opened)
    | none => (.reopened false, store)

theorem Store.take_act (store : Store) (faults : Faults) (action : Action) :
    store.take (.act faults action) =
      (.acted (action.script.run faults store).1, (action.script.run faults store).2) :=
  rfl

/-- Takes a step on a ledger, which is not affected by closing it. -/
def Ledger.take (ledger : Ledger) : Step → Outcome × Ledger
  | .act faults action =>
    let (result, changed) := ledger.act faults action
    (.acted result, changed)
  | .call faults request =>
    let (reply, changed) := ledger.performWith faults request
    (.called request reply, changed)
  | .reopen => (.reopened true, ledger)

/-- Takes steps one after the other. -/
def takeAll {σ : Type} (take : σ → Step → Outcome × σ) : List Step → σ → List Outcome × σ
  | [], state => ([], state)
  | step :: later, state =>
    let (outcome, next) := take state step
    let (outcomes, final) := takeAll take later next
    (outcome :: outcomes, final)

namespace Store.Refines

variable {store : Store} {ledger : Ledger}

theorem take
    (refines : store.Refines ledger)
    (step : Step) :
    (store.take step).1 = (ledger.take step).1 ∧
      (store.take step).2.Refines (ledger.take step).2 := by
  cases step with
  | act faults action =>
      have followed := refines.follow faults action.script
      rw [Ledger.follow_script] at followed
      exact ⟨congrArg Outcome.acted followed.1, followed.2⟩
  | call faults request =>
      have answered := refines.performWith faults request
      exact ⟨congrArg (Outcome.called request) answered.1, answered.2⟩
  | reopen =>
      rw [Store.take, Snapshot.read?_write]
      exact ⟨rfl, refines⟩

theorem takeAll
    (refines : store.Refines ledger)
    (steps : List Step) :
    (Agenda.takeAll Store.take steps store).1 = (Agenda.takeAll Ledger.take steps ledger).1 ∧
      (Agenda.takeAll Store.take steps store).2.Refines
        (Agenda.takeAll Ledger.take steps ledger).2 := by
  induction steps generalizing store ledger with
  | nil => exact ⟨rfl, refines⟩
  | cons step later ih =>
      have taken := refines.take step
      have rest := ih taken.2
      exact ⟨congrArg₂ List.cons taken.1 rest.1, rest.2⟩

end Store.Refines

end Agenda
