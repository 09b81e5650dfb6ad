import Agenda.Proofs.Schedule.Integrity
import Agenda.Proofs.Store.Consistent

/-!
# Actions on different rows

An action that edits, deletes or completes a task makes all its calls on the row
of that task.  Such a call answers from this row and changes nothing else, so it
can be made before or after a call on another row.  What holds of two calls
holds of whole scripts, call by call, and so of actions: on different rows they
have the same results and leave the same store in either order.  The main
statement is `actions_commute`.
-/

namespace Agenda

/-- A call asks for one row, or writes to it. -/
def Call.IsOn (rowId : Int) : Call → Prop
  | .get id | .update id _ | .delete id => id = rowId
  | .add _ | .list _ => False

/-- What a call may make of a row: it is kept, removed, or given an entry. -/
inductive RowChange where
  | kept
  | removed
  | rewritten (entry : Entry)

namespace Store

variable {store other : Store} {rowId otherId : Int} {request : Call}

/-- The store after a change of a row. -/
def change (store : Store) (rowId : Int) : RowChange → Store
  | .kept => store
  | .removed => store.erase rowId
  | .rewritten entry => store.replace rowId entry

/-! ## Changes of different rows -/

theorem find?_change_of_ne
    (different : otherId ≠ rowId)
    (store : Store) (made : RowChange) :
    (store.change rowId made).find? otherId = store.find? otherId := by
  cases made with
  | kept => rfl
  | removed => exact find?_erase_of_ne different
  | rewritten entry => exact find?_replace_of_ne different

theorem erase_erase_comm (store : Store) (rowId otherId : Int) :
    (store.erase rowId).erase otherId = (store.erase otherId).erase rowId := by
  simp only [erase, List.filter_filter, Bool.and_comm]

theorem erase_replace_comm (store : Store) (rowId otherId : Int) (entry : Entry) :
    (store.replace otherId entry).erase rowId = (store.erase rowId).replace otherId entry := by
  have rows : (store.rows.map (replaced otherId entry)).filter (·.id ≠ rowId) =
      (store.rows.filter (·.id ≠ rowId)).map (replaced otherId entry) := by
    simp only [List.filter_map, Function.comp_def, id_replaced]
  exact congrArg (Store.mk · store.nextId) rows

theorem replaced_replaced_comm
    (different : rowId ≠ otherId)
    (first second : Entry) (row : Row) :
    replaced otherId second (replaced rowId first row) =
      replaced rowId first (replaced otherId second row) := by
  by_cases isRow : row.id = rowId
  · have notOther : row.id ≠ otherId := isRow.trans_ne different
    simp only [replaced, if_pos isRow, if_neg notOther, if_neg different]
  · by_cases isOther : row.id = otherId
    · simp only [replaced, if_neg isRow, if_pos isOther, if_neg different.symm]
    · simp only [replaced, if_neg isRow, if_neg isOther]

theorem replace_replace_comm
    (different : rowId ≠ otherId)
    (store : Store) (first second : Entry) :
    (store.replace rowId first).replace otherId second =
      (store.replace otherId second).replace rowId first := by
  have rows : (store.rows.map (replaced rowId first)).map (replaced otherId second) =
      (store.rows.map (replaced otherId second)).map (replaced rowId first) := by
    rw [List.map_map, List.map_map]
    exact List.map_congr_left fun row _ => replaced_replaced_comm different first second row
  exact congrArg (Store.mk · store.nextId) rows

/-- Changes of different rows can be made in either order. -/
theorem change_comm
    (different : rowId ≠ otherId)
    (store : Store) (first second : RowChange) :
    (store.change rowId first).change otherId second =
      (store.change otherId second).change rowId first := by
  cases first with
  | kept => rfl
  | removed =>
      cases second with
      | kept => rfl
      | removed => exact erase_erase_comm store rowId otherId
      | rewritten entry => exact (erase_replace_comm store rowId otherId entry).symm
  | rewritten entry =>
      cases second with
      | kept => rfl
      | removed => exact erase_replace_comm store otherId rowId entry
      | rewritten later => exact replace_replace_comm different store entry later

/-! ## Calls on a row -/

/-- A call on a row makes the same change of it on every store. -/
theorem exists_change_eq_performWith
    (isOn : request.IsOn rowId)
    (faults : Faults) :
    ∃ made, ∀ store : Store, (store.performWith faults request).2 = store.change rowId made := by
  simp only [performWith]
  cases (faults.faultOf request).bind (·.reply? request) with
  | some reply => exact ⟨.kept, fun _ => rfl⟩
  | none =>
      cases request with
      | add entry | list limit => exact isOn.elim
      | get id => exact ⟨.kept, fun _ => rfl⟩
      | update id entry =>
          obtain rfl : id = rowId := isOn
          cases checked : entry.checkRecord with
          | error cause =>
              refine ⟨.kept, fun store => ?_⟩
              simp only [perform, checked]
              rfl
          | ok =>
              refine ⟨.rewritten entry, fun store => ?_⟩
              simp only [perform, checked]
              rfl
      | delete id =>
          obtain rfl : id = rowId := isOn
          exact ⟨.removed, fun _ => rfl⟩

/-- A call on a row is answered from this row alone. -/
theorem performWith_congr
    (isOn : request.IsOn rowId)
    (same : store.find? rowId = other.find? rowId)
    (faults : Faults) :
    (store.performWith faults request).1 = (other.performWith faults request).1 := by
  have contained : store.contains rowId = other.contains rowId := by
    rw [contains_eq_isSome_find?, contains_eq_isSome_find?, same]
  simp only [performWith]
  cases (faults.faultOf request).bind (·.reply? request) with
  | some reply => rfl
  | none =>
      cases request with
      | add entry | list limit => exact isOn.elim
      | get id =>
          obtain rfl : id = rowId := isOn
          simp only [perform, same]
      | update id entry =>
          obtain rfl : id = rowId := isOn
          cases checked : entry.checkRecord with
          | error cause => simp only [perform, checked]
          | ok => simp only [perform, checked, contained]
      | delete id =>
          obtain rfl : id = rowId := isOn
          simp only [perform, contained]

end Store

/-! ## Scripts on a row -/

namespace Script

variable {α β : Type} {rowId other : Int}

/-- A change of another row makes no difference to a script, and stays as it is. -/
theorem run_change
    {script : Script α}
    (stays : script.Always (·.IsOn other))
    (different : rowId ≠ other)
    (faults : Faults) (store : Store) (made : RowChange) :
    script.run faults (store.change rowId made) =
      ((script.run faults store).1, (script.run faults store).2.change rowId made) := by
  induction script generalizing store with
  | done result => rfl
  | call request next ih =>
      rcases Store.exists_change_eq_performWith stays.1 faults with ⟨called, changes⟩
      have found := Store.find?_change_of_ne different.symm store made
      have answered := Store.performWith_congr stays.1 found faults
      rw [run_call_of_faults, run_call_of_faults, answered, changes, changes,
        Store.change_comm different store made called]
      exact ih _ (stays.2 _) (store.change other called)

/-- A script on another row leaves what is found under an id. -/
theorem find?_run
    {script : Script α}
    (stays : script.Always (·.IsOn other))
    (different : rowId ≠ other)
    (faults : Faults) (store : Store) :
    (script.run faults store).2.find? rowId = store.find? rowId := by
  induction script generalizing store with
  | done result => rfl
  | call request next ih =>
      rcases Store.exists_change_eq_performWith stays.1 faults with ⟨called, changes⟩
      rw [run_call_of_faults, ih _ (stays.2 _), changes]
      exact Store.find?_change_of_ne different store called

/--
Scripts on different rows have the same results and the same effect in either
order: one call of the first after another is taken past the whole second one.
-/
theorem run_run_comm
    {first : Script α} {second : Script β}
    (firstStays : first.Always (·.IsOn rowId))
    (secondStays : second.Always (·.IsOn other))
    (different : rowId ≠ other)
    (faults otherFaults : Faults) (store : Store) :
    first.run faults (second.run otherFaults store).2 =
        ((first.run faults store).1,
          (second.run otherFaults (first.run faults store).2).2) ∧
      (second.run otherFaults (first.run faults store).2).1 =
        (second.run otherFaults store).1 := by
  induction first generalizing store with
  | done result => exact ⟨rfl, rfl⟩
  | call request next ih =>
      rcases Store.exists_change_eq_performWith firstStays.1 faults with ⟨called, changes⟩
      have found := find?_run secondStays different otherFaults store
      have answered := Store.performWith_congr firstStays.1 found faults
      have moved := run_change secondStays different otherFaults store called
      rw [run_call_of_faults, run_call_of_faults, answered, changes, changes]
      have rest := ih _ (firstStays.2 (store.performWith faults request).1)
        (store.change rowId called)
      rwa [moved] at rest

end Script

/-! ## Actions on a row -/

/-- An action edits, deletes or completes the task with an id. -/
inductive Action.WorksOn (rowId : Int) : Action → Prop where
  | update {task : Task} {today : Date} (named : readTaskId task.id = .ok rowId) :
    WorksOn rowId (.update task today)
  | delete : WorksOn rowId (.delete rowId)
  | complete {today : Date} : WorksOn rowId (.complete rowId today)

theorem Script.completeFetched_isOn
    (rowId : Int) (today : Date) (reply : Except StoreError (Option Task)) :
    (completeFetched rowId today reply).Always (·.IsOn rowId) := by
  rcases reply with cause | found
  · exact trivial
  · cases found with
    | none => exact trivial
    | some task =>
        rw [completeFetched]
        cases task.toEntry.completed today with
        | error cause => exact trivial
        | ok written => cases written <;> exact ⟨rfl, fun _ => trivial⟩

/-- An action on a row makes all its calls on this row. -/
theorem Action.WorksOn.always
    {action : Action} {rowId : Int}
    (worksOn : action.WorksOn rowId) :
    action.script.Always (·.IsOn rowId) := by
  cases worksOn with
  | @update task today named =>
      rw [script_update, named]
      cases task.settle today with
      | error cause => exact trivial
      | ok settled => exact ⟨rfl, fun _ => trivial⟩
  | delete =>
      rw [script_delete]
      exact ⟨rfl, fun _ => trivial⟩
  | @complete today =>
      rw [script_complete]
      exact ⟨rfl, fun reply => (Script.completeFetched_isOn rowId today reply).map _⟩

/--
On every store and under any faults, two actions that edit, delete or complete
tasks of different ids have the same results, errors included, in either order,
and leave the same store.  What is fetched under the id of one of them is the
same before and after the other.
-/
theorem actions_commute
    {first second : Action} {rowId other : Int}
    (firstOn : first.WorksOn rowId)
    (secondOn : second.WorksOn other)
    (different : rowId ≠ other)
    (faults otherFaults : Faults) (store : Store) :
    let afterFirst := (first.operation.run faults store).2
    let afterSecond := (second.operation.run otherFaults store).2
    (first.operation.run faults afterSecond).1 = (first.operation.run faults store).1 ∧
    (second.operation.run otherFaults afterFirst).1 =
      (second.operation.run otherFaults store).1 ∧
    (first.operation.run faults afterSecond).2 =
      (second.operation.run otherFaults afterFirst).2 ∧
    ((getTask other).run .none afterFirst).1 = ((getTask other).run .none store).1 := by
  intro afterFirst afterSecond
  have commutes := Script.run_run_comm firstOn.always secondOn.always different
    faults otherFaults store
  rcases Prod.ext_iff.1 commutes.1 with ⟨sameResult, sameStore⟩
  refine ⟨sameResult, commutes.2, sameStore, ?_⟩
  have found := Script.find?_run firstOn.always different.symm faults store
  rw [run_getTask_alone, run_getTask_alone]
  exact congrArg (fun row : Option Row => fetched other (.ok (row.map Row.task))) found

/-- An edit under an id that is written with blanks and zeros, and the completion of another row. -/
theorem actions_commute_zeros :
    let today : Date := ⟨2024, 1, 26, by decide⟩
    let chore (title : String) : Entry := { date := "20240126", title, repeats := "d 7" }
    let store : Store := ⟨[⟨1, chore "plants"⟩, ⟨2, chore "bins"⟩], 3⟩
    let edit : Action := .update { chore "all plants" with id := " +01 " } today
    let completion : Action := .complete 2 today
    let afterEdit := (edit.operation.run .none store).2
    let afterCompletion := (completion.operation.run .none store).2
    (edit.WorksOn 1 ∧ completion.WorksOn 2 ∧ (1 : Int) ≠ 2) ∧
      (completion.operation.run .none afterEdit).1 =
        .ok (.completed (.rescheduled "20240202")) ∧
      (edit.operation.run .none afterCompletion).1 = .ok .updated ∧
      (edit.operation.run .none afterCompletion).2 =
        (completion.operation.run .none afterEdit).2 := by
  intro today chore store edit completion afterEdit afterCompletion
  have editOn : edit.WorksOn 1 := .update (by decide +kernel)
  have completionOn : completion.WorksOn 2 := .complete
  have different : (1 : Int) ≠ 2 := by decide
  have completes : (completion.operation.run .none store).1 =
      .ok (.completed (.rescheduled "20240202")) := by decide +kernel
  have edits : (edit.operation.run .none store).1 = .ok .updated := by decide +kernel
  rcases actions_commute editOn completionOn different .none .none store with
    ⟨sameEdit, sameCompletion, sameStore, -⟩
  exact ⟨⟨editOn, completionOn, different⟩, sameCompletion.trans completes,
    sameEdit.trans edits, sameStore⟩

end Agenda
