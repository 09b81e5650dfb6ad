import Agenda.Store.Basic

/-!
# Calls of a store and scripts of calls

A `Call` is one access to a store, done as a whole.  A `Script` is a program of
store calls: it ends with a result, or makes a call and goes on with the reply.
Between two calls of one script other clients may make theirs, so a script says
no more about the store than its replies do.
-/

namespace Agenda

/-!
## Calls

Calls may be made to fail: `Faults` names, for each kind of call, a fault that
answers in its place and leaves the store as it is.
-/

/-- One access to a store. -/
inductive Call where
  | add (entry : Entry)
  | get (id : Int)
  | update (id : Int) (entry : Entry)
  | delete (id : Int)
  | list (limit : Nat)
  deriving DecidableEq

/-- What a call answers when it does not fail. -/
def Call.Reply : Call → Type
  /- The id of the new row. -/
  | .add _ => Int
  | .get _ => Option Task
  /- Whether there was such a row. -/
  | .update _ _ => Bool
  | .delete _ => Bool
  | .list _ => List Task

/-- Answers a call; an entry is checked before its row is looked for. -/
def Store.perform (store : Store) : (call : Call) → Except StoreError call.Reply × Store
  | .add entry =>
    match entry.checkRecord with
    | .ok () => (.ok store.nextId, store.insert entry)
    | .error error => (.error error, store)
  | .get id => (.ok ((store.find? id).map Row.task), store)
  | .update id entry =>
    match entry.checkRecord with
    | .ok () => (.ok (store.contains id), store.replace id entry)
    | .error error => (.error error, store)
  | .delete id => (.ok (store.contains id), store.erase id)
  | .list limit => (.ok (store.list limit), store)

/-- A way for a call to fail. -/
inductive Fault where
  /-- The medium under the store fails. -/
  | backend
  /-- The data is refused. -/
  | invalidData
  /-- Nothing is found; an addition is not affected. -/
  | missing
  deriving DecidableEq

/-- The fault of each kind of call, if any. -/
structure Faults where
  add : Option Fault := none
  get : Option Fault := none
  update : Option Fault := none
  delete : Option Fault := none
  list : Option Fault := none
  deriving DecidableEq

namespace Faults

/-- The faults of a healthy store. -/
def none : Faults := {}

/-- The fault that meets a call. -/
def faultOf (faults : Faults) : Call → Option Fault
  | .add _ => faults.add
  | .get _ => faults.get
  | .update _ _ => faults.update
  | .delete _ => faults.delete
  | .list _ => faults.list

end Faults

/-- The reply that finds nothing; an addition always finds its place. -/
def Call.missingReply? : (call : Call) → Option call.Reply
  | .add _ => none
  | .get _ => some (none : Option Task)
  | .update _ _ => some false
  | .delete _ => some false
  | .list _ => some ([] : List Task)

/-- What a fault answers in the place of a call, nothing if it lets the call pass. -/
def Fault.reply? (fault : Fault) (call : Call) : Option (Except StoreError call.Reply) :=
  match fault with
  | .backend => some (.error (.backend "Query is not read-only"))
  | .invalidData => some (.error (.invalidData "injected"))
  | .missing => call.missingReply?.map .ok

/-- Answers a call unless a fault answers in its place. -/
def Store.performWith (faults : Faults) (store : Store) (call : Call) :
    Except StoreError call.Reply × Store :=
  match (faults.faultOf call).bind (·.reply? call) with
  | some reply => (reply, store)
  | none => store.perform call

/-!
## Scripts

`Script.run` makes the calls of a script one after the other on one store.
-/

/-- A program of store calls. -/
inductive Script (α : Type) where
  | done (result : α)
  | call (request : Call) (next : Except StoreError request.Reply → Script α)

namespace Script

/-- Goes on with a script for the result. -/
def bind {α β : Type} : Script α → (α → Script β) → Script β
  | .done result, continuation => continuation result
  | .call request next, continuation => .call request fun reply => (next reply).bind continuation

instance : Monad Script where
  pure := .done
  bind := bind

/-- The script of a single call. -/
def perform (request : Call) : Script (Except StoreError request.Reply) :=
  .call request .done

/-- Runs a script alone on a store. -/
def run {α : Type} (faults : Faults) : Script α → Store → α × Store
  | .done result, store => (result, store)
  | .call request next, store =>
    let (reply, changed) := store.performWith faults request
    (next reply).run faults changed

@[simp]
theorem run_done {α : Type} (faults : Faults) (result : α) (store : Store) :
    (done result).run faults store = (result, store) :=
  rfl

@[simp]
theorem run_bind {α β : Type} (faults : Faults) (script : Script α)
    (continuation : α → Script β) (store : Store) :
    (script.bind continuation).run faults store =
      (continuation (script.run faults store).1).run faults (script.run faults store).2 := by
  induction script generalizing store with
  | done result => rfl
  | call request next ih => exact ih _ _

theorem bind_done {α : Type} (script : Script α) : script.bind done = script := by
  induction script with
  | done result => rfl
  | call request next ih => simp only [bind, ih]

theorem bind_assoc {α β γ : Type} (script : Script α) (first : α → Script β)
    (second : β → Script γ) :
    (script.bind first).bind second = script.bind fun result => (first result).bind second := by
  induction script with
  | done result => rfl
  | call request next ih => simp only [bind, ih]

instance : LawfulMonad Script :=
  LawfulMonad.mk' Script (fun script => bind_done script) (fun _ _ => rfl) bind_assoc

end Script

end Agenda
