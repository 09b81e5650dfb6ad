import Agenda.Proofs.Calendar.TextOrder
import Agenda.Proofs.Schedule.Steps

/-!
# Lists of tasks

The store sorts its rows by the texts of their dates.  Whatever it was used
for, the texts are those of dates of four-digit years, so their order is that
of the calendar, and a list is a first part of all rows in this order.  The main
statement is `list_chronological`.
-/

namespace Agenda

/-! ## The order of rows -/

namespace Row

/-- A row has an earlier date than another one, or the same date and a lower id. -/
def ComesBefore (first second : Row) : Prop :=
  ∃ date other, Date.ofWireText first.entry.date = .ok date ∧
    Date.ofWireText second.entry.date = .ok other ∧
    (date < other ∨ (date = other ∧ first.id < second.id))

variable {first second third : Row}

theorem ComesBefore.asymm
    (before : first.ComesBefore second) :
    ¬ second.ComesBefore first := by
  rcases before with ⟨date, other, read, otherRead, ordered⟩
  rintro ⟨otherAgain, dateAgain, otherReadAgain, readAgain, reversed⟩
  rw [read] at readAgain
  rw [otherRead] at otherReadAgain
  cases readAgain
  cases otherReadAgain
  simp only [Date.lt_iff] at ordered reversed
  rcases ordered with earlier | ⟨same, below⟩
  · rcases reversed with later | ⟨same, -⟩
    · exact Int.lt_asymm earlier later
    · exact Int.ne_of_lt earlier (congrArg Date.dayNumber same.symm)
  · rcases reversed with later | ⟨-, above⟩
    · exact Int.ne_of_lt later (congrArg Date.dayNumber same.symm)
    · exact Int.lt_asymm below above

theorem precedes_iff :
    first.precedes second = true ↔
      first.entry.date < second.entry.date ∨
        (first.entry.date = second.entry.date ∧ first.id ≤ second.id) := by
  simp only [precedes, Bool.or_eq_true, Bool.and_eq_true, decide_eq_true_eq, beq_iff_eq]

theorem precedes_trans
    (before : first.precedes second = true)
    (after : second.precedes third = true) :
    first.precedes third = true := by
  rw [precedes_iff] at before after ⊢
  rcases before with earlier | ⟨same, below⟩
  · rcases after with later | ⟨sameToo, -⟩
    · exact .inl (String.lt_trans earlier later)
    · exact .inl (sameToo ▸ earlier)
  · rw [same]
    exact after.imp_right fun after => ⟨after.1, Int.le_trans below after.2⟩

theorem precedes_total (first second : Row) :
    (first.precedes second || second.precedes first) = true := by
  rw [Bool.or_eq_true, precedes_iff, precedes_iff]
  rcases Std.lt_trichotomy first.entry.date second.entry.date with earlier | same | later
  · exact .inl (.inl earlier)
  · rcases Int.le_total first.id second.id with below | above
    · exact .inl (.inr ⟨same, below⟩)
    · exact .inr (.inr ⟨same.symm, above⟩)
  · exact .inr (.inl later)

/-- Rows whose dates can be read are sorted as the calendar has their dates. -/
theorem precedes_iff_of_ofWireText
    {date other : Date}
    (read : Date.ofWireText first.entry.date = .ok date)
    (otherRead : Date.ofWireText second.entry.date = .ok other) :
    first.precedes second = true ↔ date < other ∨ (date = other ∧ first.id ≤ second.id) := by
  have sameDate : first.entry.date = second.entry.date ↔ date = other := by
    constructor
    · intro same
      rw [same, otherRead] at read
      exact (Except.ok.inj read).symm
    · rintro rfl
      exact Date.eq_of_ofWireText_eq read otherRead
  rw [precedes_iff, Date.lt_iff_of_ofWireText read otherRead, sameDate]

theorem comesBefore_of_precedes
    {date other : Date}
    (read : Date.ofWireText first.entry.date = .ok date)
    (otherRead : Date.ofWireText second.entry.date = .ok other)
    (different : first.id ≠ second.id)
    (precedes : first.precedes second = true) :
    first.ComesBefore second := by
  refine ⟨date, other, read, otherRead, ?_⟩
  rcases (precedes_iff_of_ofWireText read otherRead).1 precedes with earlier | ⟨same, below⟩
  · exact .inl earlier
  · exact .inr ⟨same, Int.lt_iff_le_and_ne.2 ⟨below, different⟩⟩

end Row

/-! ## The rows of a store in this order -/

/-- An increasing list of integers is no longer than the interval that it lies in. -/
theorem length_le_of_pairwise_lt
    {values : List Int} {low high : Int}
    (increasing : values.Pairwise (· < ·))
    (inside : ∀ value ∈ values, low < value ∧ value ≤ high)
    (nonempty : low ≤ high) :
    low + values.length ≤ high := by
  induction values generalizing low with
  | nil => simpa using nonempty
  | cons value later ih =>
      rcases List.pairwise_cons.1 increasing with ⟨above, rest⟩
      rcases List.forall_mem_cons.1 inside with ⟨first, others⟩
      have shorter := ih rest (fun other member => ⟨above other member, (others other member).2⟩)
        first.2
      rw [List.length_cons]
      omega

namespace Store

variable {store : Store}

theorem perm_sorted : store.sorted.Perm store.rows :=
  List.mergeSort_perm store.rows Row.precedes

theorem Consistent.exists_date
    (consistent : store.Consistent)
    {row : Row} (member : row ∈ store.rows) :
    ∃ date, Date.ofWireText row.entry.date = .ok date :=
  (Entry.checkRecord_eq_ok_iff.1 (consistent.accepted row member)).2

theorem Consistent.pairwise_sorted (consistent : store.Consistent) :
    store.sorted.Pairwise Row.ComesBefore := by
  have ordered := @List.pairwise_mergeSort Row Row.precedes (fun _ _ _ => Row.precedes_trans)
    Row.precedes_total store.rows
  have distinct := List.pairwise_map.1 ((perm_sorted.map Row.id).nodup_iff.2 consistent.nodup)
  refine (ordered.and distinct).imp_of_mem ?_
  intro first second member otherMember both
  rcases consistent.exists_date (perm_sorted.subset member) with ⟨date, read⟩
  rcases consistent.exists_date (perm_sorted.subset otherMember) with ⟨other, otherRead⟩
  exact Row.comesBefore_of_precedes read otherRead both.2 both.1

theorem list_prefix_list
    {shorter longer : Nat}
    (within : shorter ≤ longer) :
    store.list shorter <+: store.list longer :=
  (List.take_prefix_take_left within).map Row.task

/-- There are no more rows than ids up to the greatest one. -/
theorem Consistent.length_rows_le
    {bound : Nat}
    (consistent : store.Consistent)
    (bounded : ∀ row ∈ store.rows, row.id ≤ bound) :
    store.rows.length ≤ bound := by
  have inside : ∀ rowId ∈ store.rows.map Row.id, 0 < rowId ∧ rowId ≤ bound := by
    intro rowId member
    rcases List.mem_map.1 member with ⟨row, present, rfl⟩
    exact ⟨(consistent.given row present).1, bounded row present⟩
  have short := length_le_of_pairwise_lt consistent.increasing inside (Int.natCast_nonneg bound)
  rw [List.length_map] at short
  omega

/-- A limit above all ids may be lowered to one that is. -/
theorem Consistent.list_min
    {limit bound : Nat}
    (consistent : store.Consistent)
    (bounded : ∀ row ∈ store.rows, row.id ≤ bound) :
    store.list (min limit bound) = store.list limit := by
  have short := consistent.length_rows_le bounded
  rw [← perm_sorted.length_eq] at short
  rw [list, list]
  rcases Nat.le_total limit bound with within | above
  · rw [Nat.min_eq_left within]
  · rw [Nat.min_eq_right above, List.take_of_length_le short,
      List.take_of_length_le (Nat.le_trans short above)]

/-- Every use of a store keeps it consistent. -/
theorem consistent_takeAll (steps : List Step) :
    (takeAll Store.take steps ∅).2.Consistent :=
  (Refines.empty.takeAll steps).2.consistent

end Store

/--
However a store was used, all its rows, each of them once, are in a sequence by
date and, for one date, by id, and a list is the first part of this sequence, as
long as its limit allows.  So a list with a lower limit is a prefix of one with
a higher limit, and a limit may be cut to any number that no id exceeds.
-/
theorem list_chronological (steps : List Step) :
    let store := (takeAll Store.take steps ∅).2
    (∃ rows : List Row,
      (rows.Perm store.rows ∧ (rows.map Row.id).Nodup) ∧
      ((∀ row ∈ rows, ∃ date, Date.ofWireText row.entry.date = .ok date) ∧
        rows.Pairwise Row.ComesBefore) ∧
      ∀ limit, store.perform (.list limit) =
          (.ok ((rows.take limit).map fun row => { row.entry with id := toString row.id }), store) ∧
        (rows.take limit).length = min limit store.rows.length) ∧
    (∀ shorter longer, shorter ≤ longer → store.list shorter <+: store.list longer) ∧
    ∀ limit bound : Nat, (∀ row ∈ store.rows, row.id ≤ bound) →
      store.list (min limit bound) = store.list limit := by
  intro store
  have consistent : store.Consistent := Store.consistent_takeAll steps
  refine ⟨⟨store.sorted, ⟨?_, ?_⟩, ⟨?_, ?_⟩, ?_⟩, ?_, ?_⟩
  · exact Store.perm_sorted
  · exact (Store.perm_sorted.map Row.id).nodup_iff.2 consistent.nodup
  · intro row member
    exact consistent.exists_date (Store.perm_sorted.subset member)
  · exact consistent.pairwise_sorted
  · intro limit
    refine ⟨rfl, ?_⟩
    rw [List.length_take, Store.perm_sorted.length_eq]
  · exact fun _ _ within => Store.list_prefix_list within
  · exact fun _ _ bounded => consistent.list_min bounded

/--
The task that was added later has the earlier date, so it is listed first.  The
limits are the greatest unsigned and the greatest signed integer of 64 bits.
-/
theorem list_chronological_of_greatestLimits :
    let day : Date := ⟨2024, 1, 26, by decide⟩
    let entry (date : String) : Entry := { date, title := "t" }
    let steps : List Step := [.call .none (.add (entry "20240301")),
      .act .none (.add { entry "20240229" with id := "1" } day)]
    let store := (takeAll Store.take steps ∅).2
    let limit : Nat := 2 ^ 64 - 1
    let bound : Nat := 2 ^ 63 - 1
    store.rows = [⟨1, entry "20240301"⟩, ⟨2, entry "20240229"⟩] ∧
      store.perform (.list limit) =
        (.ok [{ entry "20240229" with id := "2" }, { entry "20240301" with id := "1" }], store) ∧
      (1 ≤ limit ∧ store.list 1 <+: store.list limit) ∧
      (∀ row ∈ store.rows, row.id ≤ bound) ∧
      store.list (min limit bound) = store.list limit := by
  intro day entry steps store limit bound
  have stored : store.rows = [⟨1, entry "20240301"⟩, ⟨2, entry "20240229"⟩] := by decide +kernel
  have within : 1 ≤ limit := by decide
  have bounded : ∀ row ∈ store.rows, row.id ≤ bound := by decide +kernel
  rcases list_chronological steps with
    ⟨⟨rows, ⟨permuted, -⟩, ⟨-, ordered⟩, listed⟩, isPrefix, cut⟩
  have earlier : Row.ComesBefore ⟨2, entry "20240229"⟩ ⟨1, entry "20240301"⟩ :=
    ⟨⟨2024, 2, 29, by decide⟩, ⟨2024, 3, 1, by decide⟩, by decide +kernel, by decide +kernel,
      .inl (by decide)⟩
  have sequence : rows = [⟨2, entry "20240229"⟩, ⟨1, entry "20240301"⟩] := by
    rw [stored] at permuted
    refine (permuted.trans (.swap _ _ _)).eq_of_pairwise ?_ ordered (List.pairwise_pair.2 earlier)
    intro first second _ _ before after
    exact absurd after before.asymm
  have answered := (listed limit).1
  rw [sequence] at answered
  exact ⟨stored, answered, ⟨within, isPrefix 1 limit within⟩, bounded, cut limit bound bounded⟩

end Agenda
