import Agenda.Store.Script

/-!
# The rows of a store

How the calls that change a store act on the row that has an id: what is found
after them, and that a call on an id without a row changes nothing.
-/

namespace Agenda

namespace Store

variable {store : Store} {id other : Int} {entry : Entry} {row : Row}

theorem id_of_find? (found : store.find? id = some row) : row.id = id := by
  have same := List.find?_some found
  exact of_decide_eq_true same

theorem contains_eq_true_iff : store.contains id = true ↔ ∃ row ∈ store.rows, row.id = id := by
  simp only [contains, List.any_eq_true, decide_eq_true_eq]

theorem contains_eq_isSome_find? : store.contains id = (store.find? id).isSome := by
  rw [contains, find?, List.isSome_find?]

theorem contains_of_find? (found : store.find? id = some row) : store.contains id = true := by
  rw [contains_eq_isSome_find?, found, Option.isSome_some]

theorem contains_of_find?_eq_none (missing : store.find? id = none) :
    store.contains id = false := by
  rw [contains_eq_isSome_find?, missing, Option.isSome_none]

theorem id_ne_of_not_contains
    (missing : store.contains id = false)
    (member : row ∈ store.rows) :
    row.id ≠ id := by
  intro same
  have contained := contains_eq_true_iff.2 ⟨row, member, same⟩
  rw [missing] at contained
  cases contained

/-! ## Calls without a row -/

@[simp]
theorem replace_of_not_contains (missing : store.contains id = false) :
    store.replace id entry = store := by
  rw [replace, List.map_congr_left (g := fun row => row), List.map_id']
  intro row member
  exact if_neg (id_ne_of_not_contains missing member)

@[simp]
theorem erase_of_not_contains (missing : store.contains id = false) :
    store.erase id = store := by
  rw [erase, List.filter_eq_self.2]
  intro row member
  exact decide_eq_true (id_ne_of_not_contains missing member)

/-! ## What is found after a call -/

/-- The row that replacing an entry makes of a row. -/
def replaced (id : Int) (entry : Entry) (row : Row) : Row :=
  if row.id = id then ⟨id, entry⟩ else row

@[simp]
theorem id_replaced (id : Int) (entry : Entry) (row : Row) :
    (replaced id entry row).id = row.id := by
  rw [replaced]
  split
  · rename_i same
    exact same.symm
  · rfl

theorem rows_replace : (store.replace id entry).rows = store.rows.map (replaced id entry) :=
  rfl

theorem find?_replace :
    (store.replace id entry).find? other = (store.find? other).map (replaced id entry) := by
  rw [find?, find?, rows_replace, List.find?_map]
  simp only [Function.comp_def, id_replaced]

theorem find?_replace_self (present : store.find? id = some row) :
    (store.replace id entry).find? id = some ⟨id, entry⟩ := by
  rw [find?_replace, present, Option.map_some, replaced, if_pos (id_of_find? present)]

theorem find?_replace_of_ne (different : other ≠ id) :
    (store.replace id entry).find? other = store.find? other := by
  rw [find?_replace]
  cases found : store.find? other with
  | none => rfl
  | some row =>
      have same := id_of_find? found
      rw [Option.map_some, replaced, if_neg (by rw [same]; exact different)]

theorem find?_erase_self : (store.erase id).find? id = none := by
  rw [find?, erase, List.find?_eq_none]
  intro row member
  have kept := (List.mem_filter.1 member).2
  simpa using kept

theorem find?_erase_of_ne (different : other ≠ id) :
    (store.erase id).find? other = store.find? other := by
  rw [find?, find?, erase, List.find?_filter]
  congr 1
  funext row
  by_cases same : row.id = other
  · simp [same, different]
  · simp [same]

theorem find?_insert_of_find? (present : store.find? id = some row) :
    (store.insert entry).find? id = some row := by
  rw [find?] at present
  rw [find?, insert, List.find?_append, present, Option.some_or]

theorem replace_replace (first second : Entry) :
    (store.replace id first).replace id second = store.replace id second := by
  rw [replace, replace, replace, List.map_map]
  congr 1
  apply List.map_congr_left
  intro row _
  simp only [Function.comp_apply]
  split <;> simp_all

end Store

/-! ## Faults -/

@[simp]
theorem Store.performWith_none (store : Store) (call : Call) :
    store.performWith .none call = store.perform call := by
  cases call <;> rfl

end Agenda
