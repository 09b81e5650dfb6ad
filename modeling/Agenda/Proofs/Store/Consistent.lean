import Agenda.Proofs.Store.Changes
import Agenda.Store.Script
import Mathlib.Data.List.Nodup

/-!
# Consistent stores

Scripts are made of calls, so what every call keeps they keep as well, under
any faults (`Store.Consistent.run`).  In a consistent store a row is found under
its own id and under no other one, and no row has the next id.
-/

namespace Agenda

/-- What every call preserves is preserved by a script. -/
theorem Script.run_induction
    {α : Type} {faults : Faults} {holds : Store → Prop}
    (preserved : ∀ store request, holds store → holds (store.performWith faults request).2)
    (script : Script α) {store : Store}
    (start : holds store) :
    holds (script.run faults store).2 := by
  induction script generalizing store with
  | done result => exact start
  | call request next ih => exact ih _ (preserved store request start)

theorem Script.run_call_of_faults
    {α : Type} (faults : Faults) (request : Call)
    (next : Except StoreError request.Reply → Script α) (store : Store) :
    (Script.call request next).run faults store =
      (next (store.performWith faults request).1).run faults (store.performWith faults request).2 :=
  rfl

theorem Script.run_map
    {α β : Type} (faults : Faults) (change : α → β) (script : Script α) (store : Store) :
    (change <$> script).run faults store =
      (change (script.run faults store).1, (script.run faults store).2) :=
  Script.run_bind faults script (fun result => .done (change result)) store

namespace Store

variable {store : Store} {rowId : Int} {row : Row}

/-- A script keeps a store consistent, whatever faults it meets. -/
theorem Consistent.run
    {α : Type}
    (consistent : store.Consistent)
    (faults : Faults) (script : Script α) :
    (script.run faults store).2.Consistent :=
  script.run_induction
    (fun before request holds => (before.performWith_changes faults request).consistent holds)
    consistent

/-! ## Rows by their ids -/

theorem mem_of_find? (found : store.find? rowId = some row) : row ∈ store.rows :=
  List.mem_of_find?_eq_some found

/-- No row has the next id. -/
theorem Consistent.find?_nextId (consistent : store.Consistent) :
    store.find? store.nextId = none := by
  rw [find?, List.find?_eq_none]
  intro row member
  have given := (consistent.given row member).2
  rw [decide_eq_true_eq]
  exact Int.ne_of_lt given

/-- A row is found under its own id. -/
theorem Consistent.find?_eq_some_iff
    (consistent : store.Consistent) :
    store.find? rowId = some row ↔ row ∈ store.rows ∧ row.id = rowId := by
  constructor
  · intro found
    exact ⟨mem_of_find? found, id_of_find? found⟩
  · rintro ⟨member, rfl⟩
    have present : store.contains row.id = true := contains_eq_true_iff.2 ⟨row, member, rfl⟩
    rw [contains_eq_isSome_find?, Option.isSome_iff_exists] at present
    rcases present with ⟨other, found⟩
    rw [found, List.inj_on_of_nodup_map consistent.nodup (mem_of_find? found) member
      (id_of_find? found)]

/-- Writing to a row what it holds changes nothing. -/
theorem Consistent.replace_eq_self
    (consistent : store.Consistent)
    (found : store.find? rowId = some row) :
    store.replace rowId row.entry = store := by
  have same (other : Row) (member : other ∈ store.rows) :
      replaced rowId row.entry other = other := by
    rw [replaced]
    split
    · rename_i sameId
      have otherFound := consistent.find?_eq_some_iff.2 ⟨member, sameId⟩
      rw [found] at otherFound
      cases otherFound
      rw [← sameId]
    · rfl
  have kept : store.rows.map (replaced rowId row.entry) = store.rows :=
    (List.map_congr_left same).trans (List.map_id' store.rows)
  show (⟨store.rows.map (replaced rowId row.entry), store.nextId⟩ : Store) = store
  rw [kept]

end Store

end Agenda
