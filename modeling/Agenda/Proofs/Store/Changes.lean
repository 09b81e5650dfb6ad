import Agenda.Proofs.Schedule.Settle
import Agenda.Proofs.Store.Rows

/-!
# Calls and the rows of a store

Whatever is asked of a store, its rows stay in the order of their ids, the ids
were all given before, and every entry may be stored.  The rule of an entry is
not among it: entries that are added directly may hold any text for a rule.  A
call that writes a readable rule keeps a store well-formed, in which all rules
are readable.  No call brings a row back that is gone.
-/

namespace Agenda

/-- An entry that a call writes has a readable rule. -/
def Call.WritesReadable : Call → Prop
  | .add entry => entry.HasReadableRule
  | .update _ entry => entry.HasReadableRule
  | .get _ | .delete _ | .list _ => True

namespace Store

variable {store after : Store} {rowId : Int} {entry : Entry} {request : Call}

/-- Rows in the order of ids that were given before, with entries that may be stored. -/
structure Consistent (store : Store) : Prop where
  increasing : (store.rows.map Row.id).Pairwise (· < ·)
  given : ∀ row ∈ store.rows, 1 ≤ row.id ∧ row.id < store.nextId
  started : 1 ≤ store.nextId
  accepted : ∀ row ∈ store.rows, row.entry.checkRecord = .ok ()

theorem consistent_empty : (∅ : Store).Consistent := by
  refine ⟨.nil, ?_, Int.le_refl 1, ?_⟩ <;> intro row member <;> cases member

theorem Consistent.insert
    (consistent : store.Consistent)
    (accepted : entry.checkRecord = .ok ()) :
    (store.insert entry).Consistent := by
  have started := consistent.started
  refine ⟨?_, ?_, ?_, ?_⟩
  · rw [Store.insert, List.map_append, List.map_singleton]
    refine List.pairwise_append.2 ⟨consistent.increasing, List.pairwise_singleton _ _, ?_⟩
    intro id present new last
    rcases List.mem_map.1 present with ⟨row, member, rfl⟩
    rw [List.mem_singleton.1 last]
    exact (consistent.given row member).2
  · intro row member
    rcases List.mem_append.1 member with old | new
    · have given := consistent.given row old
      exact ⟨given.1, Int.lt_trans given.2 (Int.lt_succ store.nextId)⟩
    · rw [List.mem_singleton.1 new]
      exact ⟨started, Int.lt_succ store.nextId⟩
  · exact Int.le_trans started (Int.le_of_lt (Int.lt_succ store.nextId))
  · intro row member
    rcases List.mem_append.1 member with old | new
    · exact consistent.accepted row old
    · rw [List.mem_singleton.1 new]
      exact accepted

theorem map_id_replace : (store.replace rowId entry).rows.map Row.id = store.rows.map Row.id := by
  rw [rows_replace, List.map_map]
  exact List.map_congr_left fun row _ => id_replaced rowId entry row

theorem Consistent.replace
    (consistent : store.Consistent)
    (accepted : entry.checkRecord = .ok ()) :
    (store.replace rowId entry).Consistent := by
  refine ⟨?_, ?_, consistent.started, ?_⟩
  · rw [map_id_replace]
    exact consistent.increasing
  · intro row member
    rcases List.mem_map.1 member with ⟨old, present, rfl⟩
    have given := consistent.given old present
    rwa [← id_replaced rowId entry old] at given
  · intro row member
    rcases List.mem_map.1 member with ⟨old, present, rfl⟩
    split
    · exact accepted
    · exact consistent.accepted old present

theorem Consistent.erase
    (consistent : store.Consistent) :
    (store.erase rowId).Consistent := by
  have kept := @List.filter_sublist Row (·.id ≠ rowId) store.rows
  refine ⟨consistent.increasing.sublist (kept.map Row.id), ?_, consistent.started, ?_⟩
  · intro row member
    exact consistent.given row (kept.subset member)
  · intro row member
    exact consistent.accepted row (kept.subset member)

theorem Consistent.nodup (consistent : store.Consistent) :
    (store.rows.map Row.id).Nodup :=
  consistent.increasing.imp Int.ne_of_lt

/-- A consistent store whose entries have readable rules. -/
structure WellFormed (store : Store) : Prop extends store.Consistent where
  readable : ∀ row ∈ store.rows, row.entry.HasReadableRule

theorem WellFormed.distinct (wellFormed : store.WellFormed) :
    (store.rows.map Row.id).Nodup :=
  wellFormed.nodup

theorem WellFormed.stored (wellFormed : store.WellFormed) :
    ∀ row ∈ store.rows, row.entry.checkRecord = .ok () ∧ row.entry.HasReadableRule :=
  fun row member => ⟨wellFormed.accepted row member, wellFormed.readable row member⟩

theorem wellFormed_empty : (∅ : Store).WellFormed :=
  ⟨consistent_empty, fun _ member => nomatch member⟩

theorem WellFormed.insert
    (wellFormed : store.WellFormed)
    (accepted : entry.checkRecord = .ok ())
    (readable : entry.HasReadableRule) :
    (store.insert entry).WellFormed := by
  refine ⟨wellFormed.toConsistent.insert accepted, ?_⟩
  intro row member
  rcases List.mem_append.1 member with old | new
  · exact wellFormed.readable row old
  · rw [List.mem_singleton.1 new]
    exact readable

theorem WellFormed.replace
    (wellFormed : store.WellFormed)
    (accepted : entry.checkRecord = .ok ())
    (readable : entry.HasReadableRule) :
    (store.replace rowId entry).WellFormed := by
  refine ⟨wellFormed.toConsistent.replace accepted, ?_⟩
  intro row member
  rcases List.mem_map.1 member with ⟨old, present, rfl⟩
  split
  · exact readable
  · exact wellFormed.readable old present

theorem WellFormed.erase
    (wellFormed : store.WellFormed) :
    (store.erase rowId).WellFormed := by
  refine ⟨wellFormed.toConsistent.erase, ?_⟩
  intro row member
  exact wellFormed.readable row (List.mem_filter.1 member).1

/-- What a call may make of a store. -/
inductive Changes (store : Store) : Call → Store → Prop where
  | same {request : Call} : Changes store request store
  | inserted {entry : Entry} (accepted : entry.checkRecord = .ok ()) :
    Changes store (.add entry) (store.insert entry)
  | replaced {rowId : Int} {entry : Entry} (accepted : entry.checkRecord = .ok ()) :
    Changes store (.update rowId entry) (store.replace rowId entry)
  | erased {rowId : Int} : Changes store (.delete rowId) (store.erase rowId)

/-- A call that meets a fault or refuses its entry leaves the store as it is. -/
theorem performWith_changes (faults : Faults) (store : Store) (request : Call) :
    store.Changes request (store.performWith faults request).2 := by
  rw [performWith]
  split
  · exact .same
  · cases request with
    | add entry =>
        rw [perform]
        split
        · rename_i accepted
          exact .inserted accepted
        · exact .same
    | get rowId => exact .same
    | update rowId entry =>
        rw [perform]
        split
        · rename_i accepted
          exact .replaced accepted
        · exact .same
    | delete rowId => exact .erased
    | list limit => exact .same

theorem Changes.consistent
    (changes : store.Changes request after)
    (consistent : store.Consistent) :
    after.Consistent := by
  cases changes with
  | same => exact consistent
  | inserted accepted => exact consistent.insert accepted
  | replaced accepted => exact consistent.replace accepted
  | erased => exact consistent.erase

theorem Changes.wellFormed
    (changes : store.Changes request after)
    (readable : request.WritesReadable)
    (wellFormed : store.WellFormed) :
    after.WellFormed := by
  cases changes with
  | same => exact wellFormed
  | inserted accepted => exact wellFormed.insert accepted readable
  | replaced accepted => exact wellFormed.replace accepted readable
  | erased => exact wellFormed.erase

/-- A call that changes the entry of a row, without erasing it, replaces it. -/
theorem Changes.eq_update
    {row changed : Row}
    (changes : store.Changes request after)
    (present : store.find? rowId = some row)
    (found : after.find? rowId = some changed)
    (different : changed.entry ≠ row.entry) :
    request = .update rowId changed.entry ∧ changed.entry.checkRecord = .ok () := by
  have not_kept (same : after.find? rowId = some row) : False := by
    rw [same] at found
    cases found
    exact different rfl
  cases changes with
  | same => exact (not_kept present).elim
  | inserted => exact (not_kept (find?_insert_of_find? present)).elim
  | @replaced target entry accepted =>
      by_cases same : rowId = target
      · subst same
        rw [find?_replace_self present] at found
        cases found
        exact ⟨rfl, accepted⟩
      · exact (not_kept ((find?_replace_of_ne same).trans present)).elim
  | @erased target =>
      by_cases same : rowId = target
      · subst same
        rw [find?_erase_self] at found
        cases found
      · exact (not_kept ((find?_erase_of_ne same).trans present)).elim

/-- An id was given before and has no row any more. -/
structure Lost (rowId : Int) (store : Store) : Prop where
  gone : store.contains rowId = false
  given : rowId < store.nextId

theorem contains_insert :
    (store.insert entry).contains rowId =
      (store.contains rowId || decide (store.nextId = rowId)) := by
  simp only [contains, insert, List.any_append, List.any_cons, List.any_nil, Bool.or_false]

theorem Lost.insert (lost : store.Lost rowId) : (store.insert entry).Lost rowId := by
  constructor
  · have other := Int.ne_of_gt lost.given
    rw [contains_insert, lost.gone, decide_eq_false other, Bool.false_or]
  · exact Int.lt_trans lost.given (Int.lt_succ store.nextId)

theorem Lost.replace {other : Int} (lost : store.Lost rowId) :
    (store.replace other entry).Lost rowId := by
  refine ⟨?_, lost.given⟩
  rw [contains_eq_isSome_find?, find?_replace, Option.isSome_map, ← contains_eq_isSome_find?]
  exact lost.gone

theorem Lost.erase {other : Int} (lost : store.Lost rowId) :
    (store.erase other).Lost rowId := by
  refine ⟨?_, lost.given⟩
  rw [contains, List.any_eq_false]
  intro row member
  have kept := id_ne_of_not_contains lost.gone (List.mem_filter.1 member).1
  rwa [decide_eq_true_eq]

/-- No call brings a lost row back. -/
theorem Changes.lost
    (changes : store.Changes request after)
    (lost : store.Lost rowId) :
    after.Lost rowId := by
  cases changes with
  | same => exact lost
  | inserted => exact lost.insert
  | replaced => exact lost.replace
  | erased => exact lost.erase

theorem Changes.nextId_le (changes : store.Changes request after) :
    store.nextId ≤ after.nextId := by
  cases changes with
  | inserted => exact Int.le_of_lt (Int.lt_succ store.nextId)
  | same | replaced | erased => exact Int.le_refl store.nextId

theorem Changes.nextId_le_add_one (changes : store.Changes request after) :
    after.nextId ≤ store.nextId + 1 := by
  cases changes with
  | inserted => exact Int.le_refl (store.nextId + 1)
  | same | replaced | erased => exact Int.le_of_lt (Int.lt_succ store.nextId)

end Store

end Agenda
