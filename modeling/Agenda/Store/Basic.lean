import Agenda.Task.Basic

/-!
# The store

A store keeps entries under integer ids.  Every added entry gets the next id,
so an id is never used again, also after its row is gone.  Rows are kept in
the order of their ids and listed in the order of their dates.
-/

namespace Agenda

/-- Why the store refuses a call. -/
inductive StoreError where
  /-- The medium under the store fails. -/
  | backend (message : String)
  /-- The entry may not be stored. -/
  | invalidData (message : String)
  deriving DecidableEq

/-- The wording of a store error. -/
def StoreError.message : StoreError → String
  | .backend message => s!"sqlite error: {message}"
  | .invalidData message => s!"invalid data: {message}"

/-- A stored entry has a title that is not blank and a date. -/
def Entry.checkRecord (entry : Entry) : Except StoreError Unit :=
  if Text.isBlank entry.title then .error (.invalidData "task title is empty")
  else
    match Date.ofWireText entry.date with
    | .ok _ => .ok ()
    | .error cause => .error (.invalidData cause.message)

/-- An entry under its id. -/
structure Row where
  id : Int
  entry : Entry
  deriving DecidableEq

/-- The task that a row holds. -/
def Row.task (row : Row) : Task :=
  { row.entry with id := toString row.id }

/-- Rows are listed by date text and, for one date, by id. -/
def Row.precedes (first second : Row) : Bool :=
  first.entry.date < second.entry.date ||
    (first.entry.date == second.entry.date && first.id ≤ second.id)

/-- Rows in the order of their ids, and the id of the next one. -/
structure Store where
  rows : List Row
  nextId : Int
  deriving DecidableEq

namespace Store

/-- A store without rows; ids start at 1. -/
def empty : Store := ⟨[], 1⟩

instance : EmptyCollection Store := ⟨empty⟩

instance : Inhabited Store := ⟨∅⟩

/-- The row with an id. -/
def find? (store : Store) (id : Int) : Option Row :=
  store.rows.find? (·.id = id)

/-- Whether some row has an id. -/
def contains (store : Store) (id : Int) : Bool :=
  store.rows.any (·.id = id)

/-- Adds a row under the next id. -/
def insert (store : Store) (entry : Entry) : Store :=
  ⟨store.rows ++ [⟨store.nextId, entry⟩], store.nextId + 1⟩

/-- Replaces the entry of the row with an id. -/
def replace (store : Store) (id : Int) (entry : Entry) : Store :=
  { store with rows := store.rows.map fun row => if row.id = id then ⟨id, entry⟩ else row }

/-- Removes the row with an id. -/
def erase (store : Store) (id : Int) : Store :=
  { store with rows := store.rows.filter (·.id ≠ id) }

/-- All rows in the order of listing. -/
def sorted (store : Store) : List Row :=
  store.rows.mergeSort Row.precedes

/-- The first tasks in the order of listing, at most `limit` of them. -/
def list (store : Store) (limit : Nat) : List Task :=
  (store.sorted.take limit).map Row.task

end Store

end Agenda
