import Agenda.Proofs.Schedule.Clients

/-!
# Failed operations leave the store

An operation writes at most once, and last: after the reply that confirms a
write it ends, and not with an error.  A call whose reply confirms no write
leaves the store as it is, so an operation that fails does, at whatever point
and for whatever reason it fails (`Script.IsAtomic.run`).  A script that is
atomic for every result writes nothing at all.  The main statement is
`run_eq_of_error`.
-/

namespace Agenda

/-- A reply says that the call has written: a row is added, or there was one to change. -/
def Call.Confirms : (request : Call) → Except StoreError request.Reply → Prop
  | .add _, reply => ∃ rowId, reply = .ok rowId
  | .update _ _, reply => reply = .ok true
  | .delete _, reply => reply = .ok true
  | .get _, _ => False
  | .list _, _ => False

/-- A call that confirms no write leaves the store as it is. -/
theorem Store.performWith_of_not_confirms
    {faults : Faults} {store : Store} {request : Call}
    (unconfirmed : ¬ request.Confirms (store.performWith faults request).1) :
    (store.performWith faults request).2 = store := by
  rw [performWith] at unconfirmed ⊢
  split
  · rfl
  · rename_i passed
    rw [passed] at unconfirmed
    cases request with
    | add entry =>
        simp only [perform] at unconfirmed ⊢
        split
        · rename_i accepted
          rw [accepted] at unconfirmed
          exact absurd ⟨store.nextId, rfl⟩ unconfirmed
        · rfl
    | update rowId entry =>
        simp only [perform] at unconfirmed ⊢
        split
        · rename_i accepted
          rw [accepted] at unconfirmed
          refine replace_of_not_contains ?_
          rw [← Bool.not_eq_true]
          intro contained
          exact unconfirmed (congrArg Except.ok contained)
        · rfl
    | delete rowId =>
        refine erase_of_not_contains ?_
        rw [← Bool.not_eq_true]
        intro contained
        exact unconfirmed (congrArg Except.ok contained)
    | get | list => rfl

namespace Script

variable {α β : Type} {failed : α → Prop}

/-- After a reply that confirms a write, the script ends with a result that has not failed. -/
inductive IsAtomic (failed : α → Prop) : Script α → Prop where
  | done (result : α) : IsAtomic failed (.done result)
  | call {request : Call} {next : Except StoreError request.Reply → Script α}
    (ends : ∀ reply, request.Confirms reply → ∃ result, next reply = .done result ∧ ¬ failed result)
    (rest : ∀ reply, (next reply).IsAtomic failed) :
    IsAtomic failed (.call request next)

/-- An atomic script that fails leaves the store as it is: none of its writes was confirmed. -/
theorem IsAtomic.run
    {script : Script α}
    (atomic : script.IsAtomic failed)
    (faults : Faults) (store : Store)
    (hasFailed : failed (script.run faults store).1) :
    (script.run faults store).2 = store := by
  induction atomic generalizing store with
  | done result => rfl
  | @call request next ends rest ih =>
      simp only [Script.run] at hasFailed ⊢
      have unconfirmed : ¬ request.Confirms (store.performWith faults request).1 := by
        intro confirms
        rcases ends _ confirms with ⟨result, same, succeeded⟩
        rw [same] at hasFailed
        exact succeeded hasFailed
      rw [Store.performWith_of_not_confirms unconfirmed] at hasFailed ⊢
      exact ih _ store hasFailed

/-- Making something of the result of a script keeps it atomic. -/
theorem IsAtomic.map
    {script : Script α} {outcome : α → β} {failedAfter : β → Prop}
    (atomic : script.IsAtomic failed)
    (reflects : ∀ result, failedAfter (outcome result) → failed result) :
    (outcome <$> script).IsAtomic failedAfter := by
  induction atomic with
  | done result => exact .done (outcome result)
  | @call request next ends rest ih =>
      refine .call ?_ ih
      intro reply confirms
      rcases ends reply confirms with ⟨result, same, succeeded⟩
      refine ⟨outcome result, ?_, mt (reflects result) succeeded⟩
      show outcome <$> next reply = _
      rw [same]
      rfl

theorem IsAtomic.mono
    {script : Script α} {failsMore : α → Prop}
    (atomic : script.IsAtomic failsMore)
    (weaker : ∀ result, failed result → failsMore result) :
    script.IsAtomic failed := by
  rw [← id_map script]
  exact atomic.map weaker

/-- A single call is atomic if what confirms the write is a success. -/
theorem isAtomic_call_done
    {request : Call} {answer : Except StoreError request.Reply → α}
    (succeeds : ∀ reply, request.Confirms reply → ¬ failed (answer reply)) :
    (call request fun reply => done (answer reply)).IsAtomic failed := by
  refine .call ?_ fun reply => .done (answer reply)
  intro reply confirms
  exact ⟨answer reply, rfl, succeeds reply confirms⟩

end Script

/-! ## Operations -/

namespace Operation

variable {α : Type}

/-- An operation whose failure leaves the store as it is. -/
def IsAtomic (operation : Operation α) : Prop :=
  (ExceptT.run operation).IsAtomic fun result => ∃ cause, result = .error cause

/-- An operation that only reads. -/
def OnlyReads (operation : Operation α) : Prop :=
  (ExceptT.run operation).IsAtomic fun _ => True

theorem IsAtomic.map
    {β : Type} {operation : Operation α}
    (atomic : operation.IsAtomic)
    (outcome : α → β) :
    Operation.IsAtomic (outcome <$> operation) := by
  rw [IsAtomic, ExceptT.run_map]
  refine Script.IsAtomic.map atomic ?_
  rintro (cause | value) ⟨_, same⟩
  · exact ⟨cause, rfl⟩
  · cases same

theorem OnlyReads.isAtomic
    {operation : Operation α}
    (onlyReads : operation.OnlyReads) :
    operation.IsAtomic :=
  Script.IsAtomic.mono onlyReads fun _ _ => trivial

end Operation

/-- A row that was there is a success. -/
theorem not_error_confirm {α : Type} {rowId : Int} {result : α} {reply : Except StoreError Bool}
    (confirmed : reply = .ok true) :
    ¬ ∃ cause, confirm rowId result reply = .error cause := by
  rw [confirmed]
  rintro ⟨cause, same⟩
  cases same

theorem isAtomic_addTask (task : Task) (today : Date) : (addTask task today).IsAtomic := by
  rw [Operation.IsAtomic, run_addTask]
  split
  · exact .done _
  · refine Script.isAtomic_call_done ?_
    rintro _ ⟨rowId, rfl⟩ ⟨cause, same⟩
    cases same

theorem isAtomic_updateTask (task : Task) (today : Date) : (updateTask task today).IsAtomic := by
  rw [Operation.IsAtomic, run_updateTask]
  split
  · exact .done _
  · split
    · exact .done _
    · exact Script.isAtomic_call_done fun _ => not_error_confirm

theorem isAtomic_deleteTask (rowId : Int) : (deleteTask rowId).IsAtomic := by
  rw [Operation.IsAtomic, run_deleteTask]
  exact Script.isAtomic_call_done fun _ => not_error_confirm

theorem isAtomic_completeTask (rowId : Int) (today : Date) :
    (completeTask rowId today).IsAtomic := by
  rw [Operation.IsAtomic, run_completeTask]
  refine .call (fun _ => False.elim) ?_
  rintro (cause | _ | task)
  · exact .done _
  · exact .done _
  · simp only [Script.completeFetched]
    rcases task.toEntry.completed today with cause | _ | entry
    · exact .done _
    · exact Script.isAtomic_call_done fun _ => not_error_confirm
    · exact Script.isAtomic_call_done fun _ => not_error_confirm

theorem onlyReads_getTask (rowId : Int) : (getTask rowId).OnlyReads := by
  rw [Operation.OnlyReads, run_getTask]
  exact Script.isAtomic_call_done fun _ => False.elim

theorem onlyReads_list (limit : Nat) : (Operation.list limit).OnlyReads :=
  Script.isAtomic_call_done fun _ => False.elim

theorem Action.isAtomic_operation (action : Action) : action.operation.IsAtomic := by
  cases action with
  | add task today => exact (isAtomic_addTask task today).map _
  | update task today => exact (isAtomic_updateTask task today).map _
  | delete rowId => exact (isAtomic_deleteTask rowId).map _
  | complete rowId today => exact (isAtomic_completeTask rowId today).map _
  | get rowId => exact (onlyReads_getTask rowId).isAtomic.map _
  | list limit => exact (onlyReads_list limit).isAtomic.map _

/-- An operation that fails, on any store and under any faults, leaves the store as it is. -/
theorem run_eq_of_error
    {action : Action} {faults : Faults} {store : Store} {cause : ScheduleError}
    (hasFailed : (action.operation.run faults store).1 = .error cause) :
    (action.operation.run faults store).2 = store :=
  Script.IsAtomic.run action.isAtomic_operation faults store ⟨cause, hasFailed⟩

end Agenda
