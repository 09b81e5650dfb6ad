import Agenda.Proofs.Schedule.Clients
import Agenda.Proofs.Store.Changes
import Mathlib.Control.Monad.Basic

/-!
# The rows of a shared store

However the calls of its clients follow one another, a store holds rows with
distinct ids, with a title and a date, and with a rule that is blank or can be
read.  A row that is gone never comes back, and whoever works on it fails.  The
main statement is `run_keeps_rows`.
-/

namespace Agenda

/-! ## Scripts that write readable rules -/

namespace Script

/-- Whatever is replied, every call of a script meets a condition. -/
def Always {α : Type} (condition : Call → Prop) : Script α → Prop
  | .done _ => True
  | .call request next => condition request ∧ ∀ reply, (next reply).Always condition

theorem Always.map
    {α β : Type} {condition : Call → Prop} {script : Script α}
    (always : script.Always condition) (wrap : α → β) :
    (wrap <$> script).Always condition := by
  induction script with
  | done result => exact trivial
  | call request next ih => exact ⟨always.1, fun reply => ih reply (always.2 reply)⟩

end Script

theorem Entry.hasReadableRule_of_completed
    {entry written : Entry} {today : Date}
    (completed : entry.completed today = .ok (some written)) :
    written.HasReadableRule := by
  rcases Entry.completed_eq_ok_some_iff.1 completed with ⟨rule, _, _, recurring, -, -, rfl⟩
  exact .inr ⟨rule, (Entry.rule_eq_ok_some_iff.1 recurring).2⟩

theorem Task.hasReadableRule_of_settle
    {task settled : Task} {today : Date}
    (settles : task.settle today = .ok settled) :
    settled.HasReadableRule := by
  rcases Task.settle_eq_ok_iff.1 settles with ⟨valid, date, -, rfl⟩
  exact (Entry.validate_eq_ok_iff.1 valid).2.2

theorem Script.completeFetched_always
    (rowId : Int) (today : Date) (reply : Except StoreError (Option Task)) :
    (completeFetched rowId today reply).Always Call.WritesReadable := by
  rcases reply with cause | found
  · exact trivial
  · cases found with
    | none => exact trivial
    | some task =>
        rw [completeFetched]
        cases completed : task.toEntry.completed today with
        | error cause => exact trivial
        | ok written =>
            cases written with
            | none => exact ⟨trivial, fun _ => trivial⟩
            | some entry =>
                exact ⟨Entry.hasReadableRule_of_completed completed, fun _ => trivial⟩

/-- No action writes a rule that cannot be read. -/
theorem Action.script_always (action : Action) :
    action.script.Always Call.WritesReadable := by
  cases action with
  | add task today =>
      rw [script_add]
      cases settles : task.settle today with
      | error cause => exact trivial
      | ok settled => exact ⟨Task.hasReadableRule_of_settle settles, fun _ => trivial⟩
  | update task today =>
      rw [script_update]
      cases readTaskId task.id with
      | error cause => exact trivial
      | ok rowId =>
          cases settles : task.settle today with
          | error cause => exact trivial
          | ok settled => exact ⟨Task.hasReadableRule_of_settle settles, fun _ => trivial⟩
  | delete rowId =>
      rw [script_delete]
      exact ⟨trivial, fun _ => trivial⟩
  | complete rowId today =>
      rw [script_complete]
      exact ⟨trivial, fun reply => (Script.completeFetched_always rowId today reply).map _⟩
  | get rowId =>
      rw [script_get]
      exact ⟨trivial, fun _ => trivial⟩
  | list limit =>
      rw [script_list]
      exact ⟨trivial, fun _ => trivial⟩

/-! ## Scripts that need a row -/

theorem exists_confirm_update_eq_error
    {α : Type} {store : Store} {rowId : Int}
    (gone : store.contains rowId = false)
    (faults : Faults) (entry : Entry) (result : α) :
    ∃ cause, confirm rowId result (store.performWith faults (.update rowId entry)).1 =
      .error cause := by
  rw [Store.performWith, Faults.faultOf]
  cases faults.update with
  | none =>
      simp only [Option.bind_none, Store.perform, gone]
      cases entry.checkRecord <;> exact ⟨_, rfl⟩
  | some fault =>
      cases fault <;> exact ⟨_, rfl⟩

theorem exists_confirm_delete_eq_error
    {α : Type} {store : Store} {rowId : Int}
    (gone : store.contains rowId = false)
    (faults : Faults) (result : α) :
    ∃ cause, confirm rowId result (store.performWith faults (.delete rowId)).1 =
      .error cause := by
  rw [Store.performWith, Faults.faultOf]
  cases faults.delete with
  | none =>
      simp only [Option.bind_none, Store.perform, gone]
      exact ⟨_, rfl⟩
  | some fault =>
      cases fault <;> exact ⟨_, rfl⟩

theorem performWith_get_of_not_contains
    {store : Store} {rowId : Int}
    (gone : store.contains rowId = false)
    (faults : Faults) :
    (store.performWith faults (.get rowId)).1 = .ok (none : Option Task) ∨
      ∃ cause, (store.performWith faults (.get rowId)).1 = .error cause := by
  rw [Store.performWith, Faults.faultOf]
  cases faults.get with
  | none =>
      rw [Store.contains_eq_isSome_find?, Option.isSome_eq_false_iff, Option.isNone_iff_eq_none]
        at gone
      simp only [Option.bind_none, Store.perform, gone]
      exact .inl rfl
  | some fault =>
      cases fault with
      | missing => exact .inl rfl
      | backend | invalidData => exact .inr ⟨_, rfl⟩

namespace Script

variable {α β : Type} {rowId : Int}

/-- As long as the row is not there, a script ends in an error. -/
def FailsWithout (rowId : Int) : Script (Except ScheduleError α) → Prop
  | .done result => ∃ cause, result = .error cause
  | .call request next => ∀ (faults : Faults) (store : Store), store.contains rowId = false →
    (next (store.performWith faults request).1).FailsWithout rowId

/-- Wherever a script has a call to make, it ends in an error if the row is not there. -/
def NeedsRow (rowId : Int) : Script (Except ScheduleError α) → Prop
  | .done _ => True
  | .call request next =>
    (call request next).FailsWithout rowId ∧ ∀ reply, (next reply).NeedsRow rowId

theorem eq_done_of_result? {script : Script α} {result : α}
    (ended : script.result? = some result) :
    script = .done result := by
  cases script with
  | done last =>
      cases ended
      rfl
  | call request next => cases ended

theorem FailsWithout.map
    {script : Script (Except ScheduleError α)}
    (fails : script.FailsWithout rowId) (wrap : α → β) :
    (Except.map wrap <$> script).FailsWithout rowId := by
  induction script with
  | done result =>
      rcases fails with ⟨cause, rfl⟩
      exact ⟨cause, rfl⟩
  | call request next ih =>
      intro faults store gone
      exact ih _ (fails faults store gone)

theorem NeedsRow.map
    {script : Script (Except ScheduleError α)}
    (needs : script.NeedsRow rowId) (wrap : α → β) :
    (Except.map wrap <$> script).NeedsRow rowId := by
  induction script with
  | done result => exact trivial
  | call request next ih => exact ⟨needs.1.map wrap, fun reply => ih reply (needs.2 reply)⟩

theorem NeedsRow.of_single
    {request : Call} {last : Except StoreError request.Reply → Except ScheduleError α}
    (fails : (call request fun reply => done (last reply)).FailsWithout rowId) :
    (call request fun reply => done (last reply)).NeedsRow rowId :=
  ⟨fails, fun _ => trivial⟩

theorem failsWithout_update (entry : Entry) (result : α) :
    (call (.update rowId entry) fun reply =>
      done (confirm rowId result reply)).FailsWithout rowId := by
  intro faults store gone
  exact exists_confirm_update_eq_error gone faults entry result

theorem failsWithout_delete (result : α) :
    (call (.delete rowId) fun reply => done (confirm rowId result reply)).FailsWithout rowId := by
  intro faults store gone
  exact exists_confirm_delete_eq_error gone faults result

theorem failsWithout_get
    {next : Except StoreError (Option Task) → Script (Except ScheduleError α)}
    (missing : (next (.ok none)).FailsWithout rowId)
    (failed : ∀ cause, (next (.error cause)).FailsWithout rowId) :
    (call (.get rowId) next).FailsWithout rowId := by
  intro faults store gone
  rcases performWith_get_of_not_contains gone faults with absent | ⟨cause, fault⟩
  · rw [absent]
    exact missing
  · rw [fault]
    exact failed cause

/-- What a completion does after it has fetched its task needs the row still. -/
theorem needsRow_completeFetched
    (today : Date) (reply : Except StoreError (Option Task)) :
    (completeFetched rowId today reply).NeedsRow rowId := by
  rcases reply with cause | found
  · exact trivial
  · cases found with
    | none => exact trivial
    | some task =>
        rw [completeFetched]
        cases task.toEntry.completed today with
        | error cause => exact trivial
        | ok written =>
            cases written with
            | none => exact .of_single (failsWithout_delete _)
            | some entry => exact .of_single (failsWithout_update entry _)

end Script

namespace Action

/-- An action on the row with an id. -/
def Targets (rowId : Int) : Action → Prop
  | .update task _ => readTaskId task.id = .ok rowId
  | .delete target | .complete target _ | .get target => target = rowId
  | .add _ _ | .list _ => False

variable {action : Action} {rowId : Int}

theorem script_failsWithout (targets : action.Targets rowId) :
    action.script.FailsWithout rowId := by
  cases action with
  | add | list => cases targets
  | update task today =>
      rw [Targets] at targets
      rw [script_update, targets]
      cases task.settle today with
      | error cause => exact ⟨cause, rfl⟩
      | ok settled => exact Script.failsWithout_update settled.toEntry _
  | delete target =>
      rw [Targets] at targets
      rw [script_delete, targets]
      exact Script.failsWithout_delete _
  | complete target today =>
      rw [Targets] at targets
      rw [script_complete, targets]
      exact Script.failsWithout_get ⟨_, rfl⟩ fun cause => ⟨_, rfl⟩
  | get target =>
      rw [Targets] at targets
      rw [script_get, targets]
      exact Script.failsWithout_get ⟨_, rfl⟩ fun cause => ⟨_, rfl⟩

/-- An action on a row needs the row up to its last call. -/
theorem script_needsRow (targets : action.Targets rowId) :
    action.script.NeedsRow rowId := by
  have fails := script_failsWithout targets
  cases action with
  | add | list => cases targets
  | update task today =>
      rw [Targets] at targets
      rw [script_update, targets]
      cases task.settle today with
      | error cause => exact trivial
      | ok settled => exact .of_single (Script.failsWithout_update settled.toEntry _)
  | delete target =>
      rw [script_delete] at fails ⊢
      exact .of_single fails
  | complete target today =>
      rw [script_complete] at fails ⊢
      refine ⟨fails, ?_⟩
      intro reply
      cases targets
      exact (Script.needsRow_completeFetched today reply).map _
  | get target =>
      rw [script_get] at fails ⊢
      exact .of_single fails

end Action

/-! ## Systems -/

/-- The calls that a client has yet to make write readable rules and need its row. -/
structure Client.Sound (client : Client) : Prop where
  writes : client.rest.Always Call.WritesReadable
  needs : ∀ rowId, client.action.Targets rowId → client.rest.NeedsRow rowId

theorem Client.sound_start (action : Action) : (Client.start action).Sound :=
  ⟨action.script_always, fun _ targets => Action.script_needsRow targets⟩

@[simp]
theorem Client.action_step (faults : Faults) (store : Store) (client : Client) :
    (client.step faults store).1.action = client.action := by
  rw [Client.step]
  split <;> rfl

theorem Client.Sound.step
    {client : Client}
    (sound : client.Sound) (faults : Faults) (store : Store) :
    (client.step faults store).1.Sound := by
  rcases client with ⟨action, rest⟩
  cases rest with
  | done result => exact sound
  | call request next =>
      refine ⟨sound.writes.2 _, ?_⟩
      intro rowId targets
      exact (sound.needs rowId targets).2 _

theorem Client.Sound.wellFormed_step
    {client : Client} {store : Store}
    (sound : client.Sound)
    (wellFormed : store.WellFormed)
    (faults : Faults) :
    (client.step faults store).2.WellFormed := by
  rcases client with ⟨action, rest⟩
  cases rest with
  | done result => exact wellFormed
  | call request next =>
      exact (store.performWith_changes faults request).wellFormed sound.writes.1 wellFormed

theorem Client.lost_step
    {client : Client} {store : Store} {rowId : Int}
    (lost : store.Lost rowId)
    (faults : Faults) :
    (client.step faults store).2.Lost rowId := by
  rcases client with ⟨action, rest⟩
  cases rest with
  | done result => exact lost
  | call request next => exact (store.performWith_changes faults request).lost lost

theorem Client.nextId_le_step
    (client : Client) (store : Store) (faults : Faults) :
    store.nextId ≤ (client.step faults store).2.nextId := by
  rcases client with ⟨action, rest⟩
  cases rest with
  | done result => exact Int.le_refl store.nextId
  | call request next => exact (store.performWith_changes faults request).nextId_le

namespace System

/-- A well-formed store, and clients whose calls keep it so. -/
structure Sound (system : System) : Prop where
  wellFormed : system.store.WellFormed
  clients : ∀ client ∈ system.clients, client.Sound

theorem sound_initial : initial.Sound := by
  refine ⟨Store.wellFormed_empty, ?_⟩
  intro client member
  cases member

theorem Sound.move
    {system : System}
    (sound : system.Sound)
    (next : Move) :
    (system.move next).Sound := by
  cases next with
  | start action =>
      refine ⟨sound.wellFormed, ?_⟩
      intro client member
      rcases List.mem_append.1 member with old | new
      · exact sound.clients client old
      · rw [List.mem_singleton.1 new]
        exact Client.sound_start action
  | call index faults =>
      rw [System.move]
      split
      · exact sound
      · rename_i client found
        have calling := sound.clients client (List.mem_of_getElem? found)
        refine ⟨calling.wellFormed_step sound.wellFormed faults, ?_⟩
        intro other member
        rcases List.mem_or_eq_of_mem_set member with old | rfl
        · exact sound.clients other old
        · exact calling.step faults system.store

theorem sound_run (moves : List Move) : (initial.run moves).Sound :=
  run_induction (fun _ next sound => sound.move next) moves sound_initial

theorem nextId_le_move (system : System) (next : Move) :
    system.store.nextId ≤ (system.move next).store.nextId := by
  cases next with
  | start action => exact Int.le_refl system.store.nextId
  | call index faults =>
      rw [System.move]
      split
      · exact Int.le_refl system.store.nextId
      · rename_i client found
        exact client.nextId_le_step system.store faults

/--
A row is lost, and every client that asks for it was done at a moment before,
or ends in an error.
-/
structure Bereft (rowId : Int) (before system : System) : Prop where
  lost : system.store.Lost rowId
  clients : ∀ (index : Nat) (client : Client), system.clients[index]? = some client →
    client.action.Targets rowId →
      (before.clients[index]? = some client ∧ ∃ result, client.rest = .done result) ∨
      client.rest.FailsWithout rowId

/-- From the moment when a row is lost, clients that are not done end in an error. -/
theorem Sound.bereft
    {system : System} {rowId : Int}
    (sound : system.Sound)
    (lost : system.store.Lost rowId) :
    Bereft rowId system system := by
  refine ⟨lost, ?_⟩
  intro index client found targets
  have needs := (sound.clients client (List.mem_of_getElem? found)).needs rowId targets
  rcases client with ⟨action, rest⟩
  cases rest with
  | done result => exact .inl ⟨found, result, rfl⟩
  | call request next => exact .inr needs.1

/-- A client that makes its call without its row is on its way to an error. -/
theorem Bereft.step
    {before system : System} {rowId : Int} {index : Nat} {client : Client}
    (bereft : Bereft rowId before system)
    (found : system.clients[index]? = some client)
    (targets : client.action.Targets rowId)
    (faults : Faults) :
    (before.clients[index]? = some (client.step faults system.store).1 ∧
      ∃ result, (client.step faults system.store).1.rest = .done result) ∨
    (client.step faults system.store).1.rest.FailsWithout rowId := by
  have place := bereft.clients index client found targets
  rcases client with ⟨action, rest⟩
  cases rest with
  | done result => exact place
  | call request next =>
      rcases place with ⟨-, result, done⟩ | fails
      · cases done
      · exact .inr (fails faults system.store bereft.lost.gone)

/-- What is lost stays lost with every move, which leaves all clients but its caller in place. -/
theorem Bereft.move
    {before system : System} {rowId : Int}
    (bereft : Bereft rowId before system)
    (next : Move) :
    Bereft rowId before (system.move next) := by
  cases next with
  | start action =>
      refine ⟨bereft.lost, ?_⟩
      intro index client found targets
      rw [System.move, List.getElem?_append] at found
      split at found
      · exact bereft.clients index client found targets
      · rw [List.mem_singleton.1 (List.mem_of_getElem? found)] at targets ⊢
        exact .inr (Action.script_failsWithout targets)
  | call index faults =>
      rw [System.move]
      split
      · exact bereft
      · rename_i caller called
        refine ⟨Client.lost_step bereft.lost faults, ?_⟩
        intro place client found targets
        rw [List.getElem?_set] at found
        split at found
        · rename_i same
          subst same
          split at found
          · cases found
            rw [Client.action_step] at targets
            exact bereft.step called targets faults
          · cases found
        · exact bereft.clients place client found targets

theorem Sound.lost
    {system : System} {rowId : Int} {later : List Move}
    (sound : system.Sound)
    (present : system.store.contains rowId = true)
    (gone : (system.run later).store.contains rowId = false) :
    (system.run later).store.Lost rowId := by
  refine ⟨gone, ?_⟩
  rcases Store.contains_eq_true_iff.1 present with ⟨row, member, rfl⟩
  have kept := @run_induction (fun reached => system.store.nextId ≤ reached.store.nextId)
    (fun reached next below => Int.le_trans below (nextId_le_move reached next))
    later system (Int.le_refl system.store.nextId)
  exact Int.lt_of_lt_of_le (sound.wellFormed.given row member).2 kept

end System

/--
In every state that clients can reach from an empty store, whatever they do and
in whatever order their calls are made, the ids of the rows are distinct, and
every row has a title, a date, and a rule that is blank or can be read.  A row
that is gone never comes back: a client that works on it succeeds only if it
had done so before the row was gone.
-/
theorem run_keeps_rows (moves : List Move) :
    let reached := System.initial.run moves
    ((reached.store.rows.map Row.id).Nodup ∧
      ∀ row ∈ reached.store.rows,
        Text.isBlank row.entry.title = false ∧
        (∃ date, Date.ofWireText row.entry.date = .ok date) ∧
        (Text.isBlank row.entry.repeats = true ∨
          ∃ rule, Rule.ofText row.entry.repeats = .ok rule)) ∧
    ∀ (rowId : Int) (later rest : List Move),
      reached.store.contains rowId = true →
      (reached.run later).store.contains rowId = false →
        ((reached.run later).run rest).store.contains rowId = false ∧
        ∀ (index : Nat) (client : Client) (answer : Answer),
          ((reached.run later).run rest).clients[index]? = some client →
          client.action.Targets rowId →
          client.rest.result? = some (.ok answer) →
            (reached.run later).clients[index]? = some client := by
  intro reached
  have sound : reached.Sound := System.sound_run moves
  refine ⟨⟨sound.wellFormed.distinct, ?_⟩, ?_⟩
  · intro row member
    have stored := sound.wellFormed.stored row member
    rcases Entry.checkRecord_eq_ok_iff.1 stored.1 with ⟨titled, dated⟩
    exact ⟨titled, dated, stored.2⟩
  · intro rowId later rest present gone
    have goneSound : (reached.run later).Sound :=
      System.run_induction (fun _ next sound => sound.move next) later sound
    have bereft := System.run_induction (fun _ next bereft => bereft.move next) rest
      (goneSound.bereft (sound.lost present gone))
    refine ⟨bereft.lost.gone, ?_⟩
    intro index client answer found targets succeeded
    rcases bereft.clients index client found targets with ⟨was, -⟩ | fails
    · exact was
    · rw [Script.eq_done_of_result? succeeded] at fails
      rcases fails with ⟨cause, failed⟩
      cases failed

/--
A task is completed and then deleted while a second completion has fetched it:
the first completion had succeeded before, and the second does not bring the
row back.
-/
theorem run_keeps_rows_of_deleted :
    let task : Task := { date := "20240126", title := "t", repeats := "d 7" }
    let day : Date := ⟨2024, 1, 26, by decide⟩
    let moves : List Move := [.start (.add task day), .call 0 .none,
      .start (.complete 1 day), .call 1 .none, .call 1 .none, .start (.complete 1 day),
      .call 2 .none]
    let later : List Move := [.start (.delete 1), .call 3 .none]
    let rest : List Move := [.call 2 .none]
    let answer : Answer := .completed (.rescheduled "20240202")
    let reached := System.initial.run moves
    (reached.store.contains 1 = true ∧
      (reached.run later).store.contains 1 = false) ∧
    ((reached.run later).run rest).store.contains 1 = false ∧
      ∃ client, ((reached.run later).run rest).clients[1]? = some client ∧
        client.action = .complete 1 day ∧ client.rest.result? = some (.ok answer) ∧
        (reached.run later).clients[1]? = some client := by
  intro task day moves later rest answer reached
  have present : reached.store.contains 1 = true := by decide +kernel
  have gone : (reached.run later).store.contains 1 = false := by decide +kernel
  have ended : ((reached.run later).run rest).clients[1]?.map
      (fun client => (client.action, client.rest.result?)) =
        some (.complete 1 day, some (.ok answer)) := by
    decide +kernel
  rcases Option.map_eq_some_iff.1 ended with ⟨client, found, same⟩
  have completes : client.action = .complete 1 day := congrArg Prod.fst same
  have succeeded : client.rest.result? = some (.ok answer) := congrArg Prod.snd same
  have kept := (run_keeps_rows moves).2 1 later rest present gone
  refine ⟨⟨present, gone⟩, kept.1, client, found, completes, succeeded, ?_⟩
  refine kept.2 1 client answer found ?_ succeeded
  rw [completes]
  exact rfl

end Agenda
