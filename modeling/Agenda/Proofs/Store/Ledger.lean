import Agenda.Proofs.Store.Consistent
import Mathlib.Logic.Function.Basic

/-!
# A store as a map

A `Ledger` is what a store stands for: a map from ids to entries, and the last
id that was given, which no later addition gives again.  A store that refines a
ledger answers every call as the ledger does, under the same faults, and goes
on to refine it (`Store.Refines.performWith`).
-/

namespace Agenda

/-- What is kept under each id. -/
abbrev Contents := Int → Option Entry

/-- A map from ids to entries, and the last id that was given. -/
structure Ledger where
  entryOf : Contents
  lastId : Int

namespace Ledger

/-- Nothing is kept, and no id was given. -/
def empty : Ledger := ⟨fun _ => none, 0⟩

instance : EmptyCollection Ledger := ⟨empty⟩

/-- Keeps an entry, or nothing, under an id. -/
def bind (ledger : Ledger) (rowId : Int) (written : Option Entry) : Ledger :=
  { ledger with entryOf := Function.update ledger.entryOf rowId written }

/-- Keeps an entry under the id after the last one. -/
def insert (ledger : Ledger) (entry : Entry) : Ledger :=
  ⟨Function.update ledger.entryOf (ledger.lastId + 1) (some entry), ledger.lastId + 1⟩

/-- The ids that were given, in their order. -/
def ids (ledger : Ledger) : List Int :=
  (List.range ledger.lastId.toNat).map fun index : Nat => (index : Int) + 1

/-- What is kept, as rows in the order of their ids. -/
def rows (ledger : Ledger) : List Row :=
  ledger.ids.filterMap fun rowId => (ledger.entryOf rowId).map (Row.mk rowId)

/-- Answers a call. -/
def perform (ledger : Ledger) : (call : Call) → Except StoreError call.Reply × Ledger
  | .add entry =>
    match entry.checkRecord with
    | .ok () => (.ok (ledger.lastId + 1), ledger.insert entry)
    | .error cause => (.error cause, ledger)
  | .get rowId =>
    (.ok ((ledger.entryOf rowId).map fun entry => { entry with id := toString rowId }), ledger)
  | .update rowId entry =>
    match entry.checkRecord with
    | .ok () =>
      if (ledger.entryOf rowId).isSome then (.ok true, ledger.bind rowId (some entry))
      else (.ok false, ledger)
    | .error cause => (.error cause, ledger)
  | .delete rowId =>
    if (ledger.entryOf rowId).isSome then (.ok true, ledger.bind rowId none)
    else (.ok false, ledger)
  | .list limit =>
    (.ok (((ledger.rows.mergeSort Row.precedes).take limit).map fun row =>
      { row.entry with id := toString row.id }), ledger)

/-- Answers a call unless a fault answers in its place. -/
def performWith (faults : Faults) (ledger : Ledger) (call : Call) :
    Except StoreError call.Reply × Ledger :=
  match (faults.faultOf call).bind (·.reply? call) with
  | some reply => (reply, ledger)
  | none => ledger.perform call

variable {ledger : Ledger} {rowId : Int} {row : Row}

theorem mem_ids : rowId ∈ ledger.ids ↔ 1 ≤ rowId ∧ rowId ≤ ledger.lastId := by
  rw [ids, List.mem_map]
  constructor
  · rintro ⟨index, below, rfl⟩
    have bound := List.mem_range.1 below
    omega
  · rintro ⟨positive, given⟩
    refine ⟨(rowId - 1).toNat, List.mem_range.2 ?_, ?_⟩ <;> omega

theorem mem_rows :
    row ∈ ledger.rows ↔
      (1 ≤ row.id ∧ row.id ≤ ledger.lastId) ∧ ledger.entryOf row.id = some row.entry := by
  simp only [rows, List.mem_filterMap, Option.map_eq_some_iff]
  constructor
  · rintro ⟨rowId, given, entry, kept, rfl⟩
    exact ⟨mem_ids.1 given, kept⟩
  · rintro ⟨given, kept⟩
    exact ⟨row.id, mem_ids.2 given, row.entry, kept, rfl⟩

theorem pairwise_rows : ledger.rows.Pairwise fun first second => first.id < second.id := by
  rw [rows, List.pairwise_filterMap, ids, List.pairwise_map]
  refine List.pairwise_lt_range.imp ?_
  intro first second below one kept other keptToo
  rcases Option.map_eq_some_iff.1 kept with ⟨_, -, rfl⟩
  rcases Option.map_eq_some_iff.1 keptToo with ⟨_, -, rfl⟩
  simp only
  omega

end Ledger

namespace Store

variable {store : Store} {ledger : Ledger} {rowId : Int} {entry : Entry}

/-! ## The contents of a store -/

/-- What a store keeps under each id. -/
def contents (store : Store) : Contents :=
  fun rowId => (store.find? rowId).map Row.entry

theorem contents_of_find? {row : Row} (found : store.find? rowId = some row) :
    store.contents rowId = some row.entry := by
  rw [contents, found, Option.map_some]

theorem isSome_contents : (store.contents rowId).isSome = store.contains rowId := by
  rw [contents, Option.isSome_map, contains_eq_isSome_find?]

theorem contents_insert (consistent : store.Consistent) :
    (store.insert entry).contents =
      Function.update store.contents store.nextId (some entry) := by
  funext other
  rw [contents, find?, insert, List.find?_append]
  by_cases same : other = store.nextId
  · subst same
    have fresh : store.rows.find? (·.id = store.nextId) = none := consistent.find?_nextId
    rw [fresh, Function.update_self]
    simp
  · have passed : [Row.mk store.nextId entry].find? (·.id = other) = none := by
      simp [Ne.symm same]
    rw [passed, Option.or_none, Function.update_of_ne same]
    rfl

theorem contents_replace (present : store.contains rowId = true) :
    (store.replace rowId entry).contents =
      Function.update store.contents rowId (some entry) := by
  funext other
  by_cases same : other = rowId
  · subst same
    rw [contains_eq_isSome_find?, Option.isSome_iff_exists] at present
    rcases present with ⟨row, found⟩
    rw [Function.update_self, contents_of_find? (find?_replace_self found)]
  · rw [Function.update_of_ne same, contents, contents, find?_replace_of_ne same]

theorem contents_erase :
    (store.erase rowId).contents = Function.update store.contents rowId none := by
  funext other
  by_cases same : other = rowId
  · subst same
    rw [Function.update_self, contents, find?_erase_self, Option.map_none]
  · rw [Function.update_of_ne same, contents, contents, find?_erase_of_ne same]

/-! ## Stores that stand for ledgers -/

/-- A store keeps what a ledger keeps, and gives the same ids. -/
structure Refines (store : Store) (ledger : Ledger) : Prop where
  consistent : store.Consistent
  nextId : store.nextId = ledger.lastId + 1
  contents : store.contents = ledger.entryOf

namespace Refines

theorem empty : (∅ : Store).Refines ∅ :=
  ⟨consistent_empty, rfl, rfl⟩

theorem mem_rows_iff
    (refines : store.Refines ledger) {row : Row} :
    row ∈ store.rows ↔ row ∈ ledger.rows := by
  have nextId := refines.nextId
  rw [Ledger.mem_rows, ← refines.contents, Store.contents, Option.map_eq_some_iff]
  constructor
  · intro member
    have given := refines.consistent.given row member
    exact ⟨⟨given.1, by omega⟩, row, refines.consistent.find?_eq_some_iff.2 ⟨member, rfl⟩, rfl⟩
  · rintro ⟨-, other, found, same⟩
    rcases refines.consistent.find?_eq_some_iff.1 found with ⟨member, sameId⟩
    rcases row with ⟨rowId, entry⟩
    cases sameId
    cases same
    exact member

/-- Nothing is kept under the id after the last one. -/
theorem fresh (refines : store.Refines ledger) :
    ledger.entryOf (ledger.lastId + 1) = none := by
  rw [← refines.contents, ← refines.nextId, Store.contents, refines.consistent.find?_nextId,
    Option.map_none]

/-- The rows are the same, in the same order. -/
theorem rows_eq (refines : store.Refines ledger) : store.rows = ledger.rows := by
  have increasing := List.pairwise_map.1 refines.consistent.increasing
  have distinct {rows : List Row} (ordered : rows.Pairwise fun first second =>
      first.id < second.id) : rows.Nodup :=
    ordered.imp fun below same => Int.ne_of_lt below (congrArg Row.id same)
  have permuted : store.rows.Perm ledger.rows :=
    (List.perm_ext_iff_of_nodup (distinct increasing) (distinct Ledger.pairwise_rows)).2
      fun _ => refines.mem_rows_iff
  refine permuted.eq_of_pairwise ?_ increasing Ledger.pairwise_rows
  intro first second _ _ below above
  exact absurd below (Int.lt_asymm above)

/-- A call of a store is answered as one of the ledger, and the store follows the ledger. -/
theorem perform
    (refines : store.Refines ledger)
    (request : Call) :
    (store.perform request).1 = (ledger.perform request).1 ∧
      (store.perform request).2.Refines (ledger.perform request).2 := by
  have isSome (rowId : Int) : (ledger.entryOf rowId).isSome = store.contains rowId := by
    rw [← refines.contents, isSome_contents]
  cases request with
  | add entry =>
      rw [Store.perform, Ledger.perform]
      cases accepted : entry.checkRecord with
      | error cause => exact ⟨rfl, refines⟩
      | ok =>
          refine ⟨congrArg Except.ok refines.nextId, refines.consistent.insert accepted, ?_, ?_⟩
          · exact congrArg (· + 1) refines.nextId
          · rw [contents_insert refines.consistent, refines.contents, refines.nextId]
            rfl
  | get rowId =>
      refine ⟨?_, refines⟩
      rw [Store.perform, Ledger.perform, ← refines.contents, Store.contents, Option.map_map]
      refine congrArg Except.ok (Option.map_congr ?_)
      intro row found
      rw [← id_of_find? found]
      rfl
  | update rowId entry =>
      rw [Store.perform, Ledger.perform]
      cases accepted : entry.checkRecord with
      | error cause => exact ⟨rfl, refines⟩
      | ok =>
          simp only [isSome]
          cases present : store.contains rowId with
          | false => exact ⟨rfl, by rwa [replace_of_not_contains present]⟩
          | true =>
              refine ⟨rfl, refines.consistent.replace accepted, refines.nextId, ?_⟩
              rw [contents_replace present, refines.contents]
              rfl
  | delete rowId =>
      rw [Store.perform, Ledger.perform]
      simp only [isSome]
      cases present : store.contains rowId with
      | false => exact ⟨rfl, by rwa [erase_of_not_contains present]⟩
      | true =>
          refine ⟨rfl, refines.consistent.erase, refines.nextId, ?_⟩
          rw [contents_erase, refines.contents]
          rfl
  | list limit =>
      refine ⟨?_, refines⟩
      rw [Store.perform, Ledger.perform, Store.list, sorted, refines.rows_eq]
      rfl

theorem performWith
    (refines : store.Refines ledger)
    (faults : Faults) (request : Call) :
    (store.performWith faults request).1 = (ledger.performWith faults request).1 ∧
      (store.performWith faults request).2.Refines (ledger.performWith faults request).2 := by
  rw [Store.performWith, Ledger.performWith]
  cases (faults.faultOf request).bind (·.reply? request) with
  | some reply => exact ⟨rfl, refines⟩
  | none => exact refines.perform request

end Refines

end Store

end Agenda
