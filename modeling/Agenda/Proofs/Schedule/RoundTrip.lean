import Agenda.Proofs.Schedule.Integrity
import Agenda.Proofs.Store.Consistent
import Agenda.Proofs.Text.Tokens

/-!
# Tasks that are read and written back

The id of a fetched task is written in decimal and read back as that of its own
row, and a stored entry is valid, so that a task that is not past its date can
be written back as it was read, and the store stays as it is.  In the other
direction a task that was written is fetched as it was settled, under the
decimal form of whatever integer its id field held.  The main statement is
`task_roundTrip`.

Ids are integers of 64 bits.  They are given one after the other, so that no
store runs out of them before as many moves were made (`System.nextId_run_le`).
-/

namespace Agenda

/-! ## Ids -/

/-- The decimal form of an id is read back. -/
theorem readTaskId_toString
    {rowId : Int}
    (lower : Text.minInt64 ≤ rowId)
    (upper : rowId ≤ Text.maxInt64) :
    readTaskId (toString rowId) = .ok rowId := by
  have isWord := Text.isWord_toString rowId
  have read := Text.readInt?_eq_some_iff.2 (Text.isInteger_toString lower upper)
  simp only [readTaskId, isWord.trim_eq, isWord.nonempty, if_false, read]

theorem Client.nextId_step_le
    (client : Client) (store : Store) (faults : Faults) :
    (client.step faults store).2.nextId ≤ store.nextId + 1 := by
  rcases client with ⟨action, rest⟩
  cases rest with
  | done result => exact Int.le_of_lt (Int.lt_succ store.nextId)
  | call request next => exact (store.performWith_changes faults request).nextId_le_add_one

theorem System.nextId_move_le (system : System) (next : Move) :
    (system.move next).store.nextId ≤ system.store.nextId + 1 := by
  cases next with
  | start action => exact Int.le_of_lt (Int.lt_succ system.store.nextId)
  | call index faults =>
      rw [System.move]
      split
      · exact Int.le_of_lt (Int.lt_succ system.store.nextId)
      · rename_i client found
        exact client.nextId_step_le system.store faults

/-- Each move gives one id at most. -/
theorem System.nextId_run_le (moves : List Move) (system : System) :
    (system.run moves).store.nextId ≤ system.store.nextId + moves.length := by
  induction moves generalizing system with
  | nil => exact Int.le_of_eq (Int.add_zero system.store.nextId).symm
  | cons next later ih =>
      have moved := system.nextId_move_le next
      have rest := ih (system.move next)
      rw [run_cons, List.length_cons]
      omega

/-! ## Fetched tasks -/

variable {store after : Store} {rowId : Int} {task : Task} {today : Date}

theorem run_getTask_eq_ok_iff :
    (getTask rowId).run .none store = (.ok task, after) ↔
      (∃ row, store.find? rowId = some row ∧ row.task = task) ∧ after = store := by
  rw [run_getTask_alone]
  cases store.find? rowId <;> simp [fetched, eq_comm]

/-- A listed task is that of a row. -/
theorem exists_row_of_mem_list
    {limit : Nat}
    (member : task ∈ store.list limit) :
    ∃ row ∈ store.rows, row.task = task := by
  rcases List.mem_map.1 member with ⟨row, taken, same⟩
  exact ⟨row, List.mem_mergeSort.1 (List.mem_of_mem_take taken), same⟩

/-- A stored task that is not past its date is settled already. -/
theorem Store.WellFormed.settle_task
    {row : Row} {date : Date}
    (wellFormed : store.WellFormed)
    (member : row ∈ store.rows)
    (dated : Date.ofWireText row.entry.date = .ok date)
    (notPast : today ≤ date) :
    row.task.settle today = .ok row.task := by
  rcases wellFormed.stored row member with ⟨accepted, readable⟩
  have titled := (Entry.checkRecord_eq_ok_iff.1 accepted).1
  have valid : row.task.validate = .ok () :=
    Entry.validate_eq_ok_iff.2 ⟨titled, .inr ⟨date, dated⟩, readable⟩
  have kept : row.task.SettlesOn today row.entry.date := .kept dated notPast
  exact Task.settle_eq_ok_iff.2 ⟨valid, _, kept.settledDate_eq, rfl⟩

/-! ## Written tasks -/

theorem run_updateTask_eq_ok_iff :
    (updateTask task today).run .none store = (.ok (), after) ↔
      ∃ rowId settled, readTaskId task.id = .ok rowId ∧ task.settle today = .ok settled ∧
        settled.checkRecord = .ok () ∧ store.contains rowId = true ∧
        after = store.replace rowId settled.toEntry := by
  rw [run_updateTask_alone]
  cases readTaskId task.id with
  | error cause => simp
  | ok rowId =>
      cases task.settle today with
      | error cause => simp
      | ok settled =>
          cases accepted : settled.checkRecord with
          | error cause => simp [accepted]
          | ok =>
              cases contained : store.contains rowId with
              | false => simp [accepted, contained]
              | true => simp [accepted, contained, @eq_comm Store after]

/-- A fetched task that is not past its date is written back to its row. -/
theorem Store.WellFormed.run_updateTask_task
    {row : Row} {date : Date}
    (wellFormed : store.WellFormed)
    (found : store.find? rowId = some row)
    (named : readTaskId row.task.id = .ok rowId)
    (dated : Date.ofWireText row.entry.date = .ok date)
    (notPast : today ≤ date) :
    (updateTask row.task today).run .none store = (.ok (), store) := by
  have member := Store.mem_of_find? found
  refine run_updateTask_eq_ok_iff.2 ⟨rowId, row.task, named, ?_, ?_, ?_, ?_⟩
  · exact wellFormed.settle_task member dated notPast
  · exact (wellFormed.stored row member).1
  · exact Store.contains_of_find? found
  · exact (wellFormed.toConsistent.replace_eq_self found).symm

/-- A written task is fetched as it was settled, with the id of its row. -/
theorem run_getTask_replace
    {settled : Task}
    (present : store.contains rowId = true) :
    (getTask rowId).run .none (store.replace rowId settled.toEntry) =
      (.ok { settled with id := toString rowId }, store.replace rowId settled.toEntry) := by
  rw [Store.contains_eq_isSome_find?, Option.isSome_iff_exists] at present
  rcases present with ⟨row, found⟩
  exact run_getTask_eq_ok_iff.2 ⟨⟨_, Store.find?_replace_self found, rfl⟩, rfl⟩

/--
In every state that clients can reach, a task that is fetched under an id of 64
bits has this id in its id field, and if it is not past its date, writing it back
succeeds and leaves the store as it is.  All ids are of 64 bits as long as no
more moves were made than there are such ids.  Every listed task is one that is
fetched.  And a task that was written is fetched as it was settled, under the id
that its id field stands for and with the decimal form of it in that field; no
other row has changed.
-/
theorem task_roundTrip (moves : List Move) (today : Date) :
    let store := (System.initial.run moves).store
    (∀ rowId task after, (getTask rowId).run .none store = (.ok task, after) →
      (moves.length ≤ Text.maxInt64 → rowId ≤ Text.maxInt64) ∧
      (rowId ≤ Text.maxInt64 →
        readTaskId task.id = .ok rowId ∧
        ∀ date, Date.ofWireText task.date = .ok date → today ≤ date →
          (updateTask task today).run .none store = (.ok (), store))) ∧
    (∀ limit tasks after, (Operation.list limit).run .none store = (.ok tasks, after) →
      ∀ task ∈ tasks, ∃ rowId, (getTask rowId).run .none store = (.ok task, store)) ∧
    ∀ task after, (updateTask task today).run .none store = (.ok (), after) →
      ∃ rowId settled, readTaskId task.id = .ok rowId ∧ task.settle today = .ok settled ∧
        (getTask rowId).run .none after = (.ok { settled with id := toString rowId }, after) ∧
        ∀ other, other ≠ rowId → after.find? other = store.find? other := by
  intro store
  have wellFormed : store.WellFormed := (System.sound_run moves).wellFormed
  refine ⟨?_, ?_, ?_⟩
  · intro rowId task after fetched
    rcases run_getTask_eq_ok_iff.1 fetched with ⟨⟨row, found, rfl⟩, -⟩
    have given := wellFormed.given row (Store.mem_of_find? found)
    rw [Store.id_of_find? found] at given
    constructor
    · intro few
      have first : System.initial.store.nextId = 1 := rfl
      have last : store.nextId ≤ System.initial.store.nextId + moves.length :=
        System.nextId_run_le moves .initial
      omega
    · intro upper
      have lower : Text.minInt64 ≤ rowId := by
        rw [Text.minInt64]
        omega
      have named : readTaskId row.task.id = .ok rowId := by
        have written : row.task.id = toString rowId :=
          congrArg toString (Store.id_of_find? found)
        rw [written, readTaskId_toString lower upper]
      exact ⟨named, fun date dated notPast =>
        wellFormed.run_updateTask_task found named dated notPast⟩
  · intro limit tasks after listed task member
    cases listed
    rcases exists_row_of_mem_list member with ⟨row, present, same⟩
    have found := wellFormed.toConsistent.find?_eq_some_iff.2 ⟨present, rfl⟩
    exact ⟨row.id, run_getTask_eq_ok_iff.2 ⟨⟨row, found, same⟩, rfl⟩⟩
  · intro task after written
    rcases run_updateTask_eq_ok_iff.1 written with
      ⟨rowId, settled, named, settles, -, present, rfl⟩
    exact ⟨rowId, settled, named, settles, run_getTask_replace present,
      fun other different => Store.find?_replace_of_ne different⟩

/--
A task of a later day is written back as it was read, and one that is written
under blanks, a sign and zeros is fetched under the plain id.
-/
theorem task_roundTrip_zeros :
    let today : Date := ⟨2024, 1, 26, by decide⟩
    let task : Task := { date := "20240131", title := "t", repeats := "m -1" }
    let moves : List Move := [.start (.add task today), .call 0 .none]
    let store := (System.initial.run moves).store
    let fetched : Task := { task with id := "1" }
    let edited : Task := { task with id := " +001 ", title := "u" }
    let after := ((updateTask edited today).run .none store).2
    ((getTask 1).run .none store = (.ok fetched, store) ∧ 1 ≤ Text.maxInt64 ∧
        Date.ofWireText fetched.date = .ok ⟨2024, 1, 31, by decide⟩ ∧
        (updateTask edited today).run .none store = (.ok (), after)) ∧
      readTaskId fetched.id = .ok 1 ∧
      (updateTask fetched today).run .none store = (.ok (), store) ∧
      (getTask 1).run .none after = (.ok { edited with id := "1" }, after) := by
  intro today task moves store fetched edited after
  have read : (getTask 1).run .none store = (.ok fetched, store) := by decide +kernel
  have fits : 1 ≤ Text.maxInt64 := by decide
  have dated : Date.ofWireText fetched.date = .ok ⟨2024, 1, 31, by decide⟩ := by
    decide +kernel
  have written : (updateTask edited today).run .none store = (.ok (), after) := by
    decide +kernel
  have roundTrip := task_roundTrip moves today
  have back := (roundTrip.1 1 fetched store read).2 fits
  refine ⟨⟨read, fits, dated, written⟩, back.1, back.2 _ dated (by decide), ?_⟩
  rcases roundTrip.2.2 edited after written with ⟨rowId, settled, named, settles, again, -⟩
  have plain : readTaskId edited.id = .ok 1 := by decide +kernel
  have unchanged : edited.settle today = .ok edited := by decide +kernel
  rw [plain] at named
  cases named
  rw [unchanged] at settles
  cases settles
  exact again

end Agenda
