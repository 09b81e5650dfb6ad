import Agenda.Proofs.Calendar.WireText
import Agenda.Proofs.Occurrence.Succession
import Agenda.Proofs.Schedule.Interleaving
import Agenda.Proofs.Store.Changes

/-!
# Completions that are overtaken

A completion fetches its task, and writes later what it makes of it.  An action
that changes the row in between is overwritten: its edit or its completion is
lost.  In all other cases two clients finish as if one of them had begun after
the other.  The main statement is `finish_serial_iff`.
-/

namespace Agenda

/--
Completing never leaves a recurring entry as it was: its date would be read
back as the date before it.
-/
theorem Entry.completed_ne_self (entry : Entry) (today : Date) :
    entry.completed today ≠ .ok (some entry) := by
  intro same
  rcases completed_eq_ok_some_iff.1 same with ⟨rule, anchor, next, -, dated, found, kept⟩
  rw [kept] at dated
  rcases Date.ofWireText_wireText_eq_ok_iff.1 dated with ⟨-, rfl⟩
  exact Std.lt_irrefl (Std.lt_of_le_of_lt Std.left_le_max (lt_of_nextOccurrence found))

namespace Store

variable {store : Store} {rowId : Int} {row : Row}

theorem replace_inj
    {first second : Entry}
    (present : store.find? rowId = some row)
    (same : store.replace rowId first = store.replace rowId second) :
    first = second := by
  have found := congrArg (find? · rowId) same
  simp only [find?_replace_self present, Option.some.injEq, Row.mk.injEq, true_and] at found
  exact found

/-- Whether a store keeps what completing makes of an entry. -/
def Keeps : Option Entry → Prop
  | none => True
  | some entry => entry.checkRecord = .ok ()

/-- A store with what completing made of the entry of a row. -/
def written (store : Store) (rowId : Int) : Option Entry → Store
  | none => store.erase rowId
  | some entry => store.replace rowId entry

theorem writeCompleted_eq_ok_iff
    {made : Option Entry} {completion : Completion} {final : Store} :
    store.writeCompleted rowId made = (.ok completion, final) ↔
      store.contains rowId = true ∧ Keeps made ∧
        completion = .ofWritten made ∧ final = store.written rowId made := by
  constructor
  · intro wrote
    cases made with
    | none =>
        rw [writeCompleted] at wrote
        split at wrote
        · rename_i contained
          cases wrote
          exact ⟨contained, trivial, rfl, rfl⟩
        · cases wrote
    | some entry =>
        rw [writeCompleted] at wrote
        split at wrote
        · cases wrote
        · rename_i accepted
          split at wrote
          · rename_i contained
            cases wrote
            exact ⟨contained, accepted, rfl, rfl⟩
          · cases wrote
  · rintro ⟨contained, keeps, rfl, rfl⟩
    cases made with
    | none =>
        rw [writeCompleted, if_pos contained]
        rfl
    | some entry =>
        rw [Keeps] at keeps
        simp only [writeCompleted, keeps, contained]
        rfl

theorem writeCompleted_of_find?_eq_none
    {made : Option Entry}
    (missing : store.find? rowId = none)
    (keeps : Keeps made) :
    store.writeCompleted rowId made = (.error (.taskNotFound rowId), store) := by
  have gone := contains_of_find?_eq_none missing
  cases made with
  | none =>
      simp only [writeCompleted, gone]
      rfl
  | some entry =>
      rw [Keeps] at keeps
      simp only [writeCompleted, gone, keeps]
      rfl

theorem exists_writeCompleted_eq_error
    {made : Option Entry}
    (refused : ¬ Keeps made)
    (rowId : Int) :
    ∃ cause, ∀ store : Store, store.writeCompleted rowId made = (.error cause, store) := by
  cases made with
  | none => exact absurd trivial refused
  | some entry =>
      rw [Keeps] at refused
      cases checked : entry.checkRecord with
      | ok => exact absurd checked refused
      | error cause =>
          refine ⟨.store cause, ?_⟩
          intro store
          simp only [writeCompleted, checked]

theorem completeWith_eq_ok_iff
    {found : Option Row} {today : Date} {completion : Completion} {final : Store} :
    store.completeWith found rowId today = (.ok completion, final) ↔
      ∃ fetched made, found = some fetched ∧ fetched.entry.completed today = .ok made ∧
        store.contains rowId = true ∧ Keeps made ∧
        completion = .ofWritten made ∧ final = store.written rowId made := by
  constructor
  · intro completes
    cases found with
    | none => cases completes
    | some fetched =>
        rw [completeWith] at completes
        cases completed : fetched.entry.completed today with
        | error cause =>
            simp only [completed] at completes
            cases completes
        | ok made =>
            simp only [completed] at completes
            exact ⟨fetched, made, rfl, completed, writeCompleted_eq_ok_iff.1 completes⟩
  · rintro ⟨fetched, made, rfl, completed, wrote⟩
    simp only [completeWith, completed]
    exact writeCompleted_eq_ok_iff.2 wrote

theorem exists_completeWith_eq_error
    {found : Option Row} {today : Date}
    (idle : ∀ fetched made, found = some fetched →
      fetched.entry.completed today = .ok made → ¬ Keeps made)
    (rowId : Int) :
    ∃ cause, ∀ store : Store, store.completeWith found rowId today = (.error cause, store) := by
  cases found with
  | none => exact ⟨.taskNotFound rowId, fun _ => rfl⟩
  | some fetched =>
      cases completed : fetched.entry.completed today with
      | error cause =>
          refine ⟨cause, ?_⟩
          intro store
          simp only [completeWith, completed]
      | ok made =>
          rcases exists_writeCompleted_eq_error (idle fetched made rfl completed) rowId with
            ⟨cause, refused⟩
          refine ⟨cause, ?_⟩
          intro store
          simp only [completeWith, completed, refused]

/-- Writing what completing makes of an entry is a call like others. -/
theorem writeCompleted_changes (store : Store) (rowId : Int) (made : Option Entry) :
    store.Changes (made.elim (.delete rowId) (.update rowId))
      (store.writeCompleted rowId made).2 := by
  cases made with
  | none =>
      rw [writeCompleted]
      split
      · exact .erased
      · exact .same
  | some entry =>
      rw [writeCompleted]
      split
      · exact .same
      · rename_i accepted
        split
        · exact .replaced accepted
        · exact .same

theorem eq_of_written_eq
    {made other : Option Entry}
    (present : store.find? rowId = some row)
    (sameAnswer : Completion.ofWritten made = Completion.ofWritten other)
    (sameStore : store.written rowId made = store.written rowId other) :
    made = other := by
  cases made with
  | none =>
      cases other with
      | none => rfl
      | some entry => cases sameAnswer
  | some entry =>
      cases other with
      | none => cases sameAnswer
      | some later => rw [replace_inj present sameStore]

end Store

/-! ## Actions alone -/

namespace Action

variable {store : Store} {rowId : Int} {row changed : Row}

theorem run_complete (rowId : Int) (today : Date) (store : Store) :
    (Action.complete rowId today).script.run .none store =
      ((store.completeWith (store.find? rowId) rowId today).1.map .completed,
        (store.completeWith (store.find? rowId) rowId today).2) := by
  rw [← run_completeTask_alone, script, operation, ExceptT.run_map]
  exact Script.run_bind _ _ _ _

theorem run_afterFetch_complete (rowId : Int) (today : Date) (fetched store : Store) :
    ((Action.complete rowId today).script.afterFetch fetched).run .none store =
      ((store.completeWith (fetched.find? rowId) rowId today).1.map .completed,
        (store.completeWith (fetched.find? rowId) rowId today).2) := by
  rw [← Script.run_completeFetched, script_complete]
  exact Script.run_bind _ _ _ _

theorem run_update
    {task settled : Task} {today : Date}
    (asks : readTaskId task.id = .ok rowId)
    (settles : task.settle today = .ok settled)
    (accepted : settled.checkRecord = .ok ())
    (store : Store) :
    (Action.update task today).script.run .none store =
      (confirm rowId .updated (.ok (store.contains rowId)),
        store.replace rowId settled.toEntry) := by
  rw [script_update, asks]
  simp only [settles, Script.run_call, Store.perform, accepted]
  rfl

/-- An action that changes an entry, without removing it, edits it or completes it. -/
inductive Rewrites (rowId : Int) (old new : Entry) : Action → Prop where
  | edits {task settled : Task} {today : Date}
    (asks : readTaskId task.id = .ok rowId)
    (settles : task.settle today = .ok settled)
    (same : settled.toEntry = new) :
    Rewrites rowId old new (.update task today)
  | completes {today : Date} (completed : old.completed today = .ok (some new)) :
    Rewrites rowId old new (.complete rowId today)

theorem eq_update_of_single
    {request : Call} {last : Except StoreError request.Reply → Except ScheduleError Answer}
    (present : store.find? rowId = some row)
    (found : ((Script.call request fun reply => .done (last reply)).run .none store).2.find? rowId =
      some changed)
    (different : changed.entry ≠ row.entry) :
    request = .update rowId changed.entry ∧ changed.entry.checkRecord = .ok () :=
  (store.performWith_changes .none request).eq_update present found different

theorem rewrites_of_completed
    {target : Int} {today : Date}
    (present : store.find? rowId = some row)
    (found : (store.completeWith (store.find? target) target today).2.find? rowId = some changed)
    (different : changed.entry ≠ row.entry) :
    changed.entry.checkRecord = .ok () ∧
      (Action.complete target today).Rewrites rowId row.entry changed.entry := by
  have unchanged (same : some row = some changed) : False := by
    cases same
    exact different rfl
  cases fetched : store.find? target with
  | none =>
      rw [fetched, Store.completeWith, present] at found
      exact (unchanged found).elim
  | some other =>
      rw [fetched, Store.completeWith] at found
      cases completed : other.entry.completed today with
      | error cause =>
          simp only [completed] at found
          rw [present] at found
          exact (unchanged found).elim
      | ok made =>
          simp only [completed] at found
          rcases (store.writeCompleted_changes target made).eq_update present found different with
            ⟨same, accepted⟩
          cases made with
          | none => cases same
          | some entry =>
              injection same with sameId sameEntry
              subst sameId
              rw [present] at fetched
              cases fetched
              rw [sameEntry] at completed
              exact ⟨accepted, .completes completed⟩

/-- A changed entry was edited or completed, and the store keeps it. -/
theorem rewrites_of_changed
    {action : Action}
    (present : store.find? rowId = some row)
    (found : (action.script.run .none store).2.find? rowId = some changed)
    (different : changed.entry ≠ row.entry) :
    changed.entry.checkRecord = .ok () ∧ action.Rewrites rowId row.entry changed.entry := by
  have unchanged (same : some row = some changed) : False := by
    cases same
    exact different rfl
  cases action with
  | add task today =>
      rw [script_add] at found
      cases settles : task.settle today with
      | error cause =>
          rw [settles, Script.run_done, present] at found
          exact (unchanged found).elim
      | ok settled =>
          rw [settles] at found
          cases (eq_update_of_single present found different).1
  | update task today =>
      rw [script_update] at found
      cases asks : readTaskId task.id with
      | error cause =>
          rw [asks, Script.run_done, present] at found
          exact (unchanged found).elim
      | ok target =>
          rw [asks] at found
          cases settles : task.settle today with
          | error cause =>
              simp only [settles, Script.run_done] at found
              rw [present] at found
              exact (unchanged found).elim
          | ok settled =>
              simp only [settles] at found
              rcases eq_update_of_single present found different with ⟨same, accepted⟩
              injection same with sameId sameEntry
              subst sameId
              exact ⟨accepted, .edits asks settles sameEntry⟩
  | delete target =>
      rw [script_delete] at found
      cases (eq_update_of_single present found different).1
  | complete target today =>
      rw [run_complete] at found
      exact rewrites_of_completed present found different
  | get target =>
      rw [script_get] at found
      cases (eq_update_of_single present found different).1
  | list limit =>
      rw [script_list] at found
      cases (eq_update_of_single present found different).1

/-! ## Overwriting -/

variable {first second : Action} {today : Date} {final : Store}
  {firstResult secondResult : Except ScheduleError Answer}

/--
A completion overwrites another action when it has fetched the task before and
writes after it: the action has changed the task, the completion would make
something else of the changed task, and the action is not an edit that had
already made of the task what the completion makes of it.
-/
def Overwrites (second first : Action) (store : Store) : Prop :=
  ∃ (rowId : Int) (today : Date) (fetched changed : Row) (made : Option Entry),
    second = .complete rowId today ∧
    store.find? rowId = some fetched ∧
    fetched.entry.completed today = .ok made ∧
    Store.Keeps made ∧
    (first.script.run .none store).2.find? rowId = some changed ∧
    changed.entry.completed today ≠ .ok made ∧
    (made = some changed.entry → ∀ task day, first ≠ .update task day)

/-- An action that does nothing after its fetch may as well come first. -/
theorem precedes_of_idle
    {result : Except ScheduleError Answer}
    (idle : ∀ other, (second.script.afterFetch store).run .none other = (result, other))
    (overtakes : first.Overtakes second store firstResult secondResult final) :
    second.Precedes first store secondResult firstResult final := by
  rcases overtakes with ⟨middle, firstRun, secondRun⟩
  rw [idle middle] at secondRun
  cases secondRun
  refine ⟨store, ?_, firstRun⟩
  rw [← Script.run_afterFetch second.script store]
  exact idle store

/-- A completion without a row, or with nothing that may be written, may as well come first. -/
theorem precedes_of_not_keeps
    (idle : ∀ fetched made, store.find? rowId = some fetched →
      fetched.entry.completed today = .ok made → ¬ Store.Keeps made)
    (overtakes : first.Overtakes (.complete rowId today) store
      firstResult secondResult final) :
    (Action.complete rowId today).Precedes first store secondResult firstResult final := by
  rcases Store.exists_completeWith_eq_error idle rowId with ⟨cause, refused⟩
  have unchanged (other : Store) :
      ((Action.complete rowId today).script.afterFetch store).run .none other =
        (.error cause, other) := by
    rw [run_afterFetch_complete, refused]
    rfl
  exact precedes_of_idle unchanged overtakes

theorem precedes_of_completed_eq
    {fetched changed : Row} {made : Option Entry}
    (found : store.find? rowId = some fetched)
    (completed : fetched.entry.completed today = .ok made)
    (foundLater : (first.script.run .none store).2.find? rowId = some changed)
    (same : changed.entry.completed today = .ok made)
    (overtakes : first.Overtakes (.complete rowId today) store
      firstResult secondResult final) :
    first.Precedes (.complete rowId today) store firstResult secondResult final := by
  rcases overtakes with ⟨middle, firstRun, secondRun⟩
  refine ⟨middle, firstRun, ?_⟩
  rw [firstRun] at foundLater
  rw [run_afterFetch_complete, found] at secondRun
  rw [run_complete, foundLater, ← secondRun]
  simp only [Store.completeWith, completed, same]

theorem precedes_of_removed
    {fetched : Row} {made : Option Entry}
    (found : store.find? rowId = some fetched)
    (completed : fetched.entry.completed today = .ok made)
    (keeps : Store.Keeps made)
    (removed : (first.script.run .none store).2.find? rowId = none)
    (overtakes : first.Overtakes (.complete rowId today) store
      firstResult secondResult final) :
    first.Precedes (.complete rowId today) store firstResult secondResult final := by
  rcases overtakes with ⟨middle, firstRun, secondRun⟩
  refine ⟨middle, firstRun, ?_⟩
  rw [firstRun] at removed
  rw [run_afterFetch_complete, found] at secondRun
  rw [run_complete, removed, ← secondRun]
  simp only [Store.completeWith, completed, Store.writeCompleted_of_find?_eq_none removed keeps]

/-- A completion may as well come first if the edit makes of the task what it makes. -/
theorem precedes_of_edit
    {fetched changed : Row} {task : Task} {day : Date}
    (found : store.find? rowId = some fetched)
    (completed : fetched.entry.completed today = .ok (some changed.entry))
    (foundLater :
      ((Action.update task day).script.run .none store).2.find? rowId = some changed)
    (different : changed.entry ≠ fetched.entry)
    (overtakes : (Action.update task day).Overtakes (.complete rowId today) store
      firstResult secondResult final) :
    (Action.complete rowId today).Precedes (.update task day) store
      secondResult firstResult final := by
  rcases rewrites_of_changed found foundLater different with ⟨accepted, rewrites⟩
  cases rewrites with
  | edits asks settles same =>
      have edit := run_update asks settles (by rw [same]; exact accepted)
      have contained := Store.contains_of_find? found
      rw [same] at edit
      rcases overtakes with ⟨middle, firstRun, secondRun⟩
      rw [edit, contained] at firstRun
      cases firstRun
      have foundAfter : (store.replace rowId changed.entry).find? rowId =
          some ⟨rowId, changed.entry⟩ :=
        Store.find?_replace_self found
      have containedAfter := Store.contains_of_find? foundAfter
      have wrote : (store.replace rowId changed.entry).completeWith (some fetched) rowId today =
          (.ok (.ofWritten (some changed.entry)), store.replace rowId changed.entry) := by
        refine Store.completeWith_eq_ok_iff.2
          ⟨fetched, some changed.entry, rfl, completed, containedAfter, accepted, rfl, ?_⟩
        exact (Store.replace_replace changed.entry changed.entry).symm
      rw [run_afterFetch_complete, found, wrote] at secondRun
      cases secondRun
      refine ⟨store.replace rowId changed.entry, ?_, ?_⟩
      · have alone : store.completeWith (some fetched) rowId today =
            (.ok (.ofWritten (some changed.entry)), store.replace rowId changed.entry) :=
          Store.completeWith_eq_ok_iff.2
            ⟨fetched, some changed.entry, rfl, completed, contained, accepted, rfl, rfl⟩
        rw [run_complete, found, alone]
      · rw [edit, containedAfter, Store.replace_replace]

/-- An action other than a completion makes its call at once, or has only a fetch. -/
theorem afterFetch_script_eq_or
    (action : Action) (store : Store)
    (single : ∀ rowId today, action ≠ .complete rowId today) :
    action.script.afterFetch store = action.script ∨
      ∃ result, ∀ other, (action.script.afterFetch store).run .none other = (result, other) := by
  cases action with
  | add task today =>
      apply Or.inl
      rw [script_add]
      cases task.settle today <;> rfl
  | update task today =>
      apply Or.inl
      rw [script_update]
      cases readTaskId task.id with
      | error cause => rfl
      | ok rowId => cases task.settle today <;> rfl
  | delete rowId => exact .inl rfl
  | complete rowId today => exact absurd rfl (single rowId today)
  | get rowId =>
      rw [script_get]
      exact .inr ⟨_, fun _ => rfl⟩
  | list limit => exact .inl rfl

/--
A completion that overwrites nothing finishes as if it had begun before or
after the other action.  If that action leaves the row with another outcome, it
is an edit to what the completion would write.
-/
theorem precedes_or_of_overtakes_complete
    (overtakes : first.Overtakes (.complete rowId today) store
      firstResult secondResult final)
    (kept : ¬ (Action.complete rowId today).Overwrites first store) :
    first.Precedes (.complete rowId today) store firstResult secondResult final ∨
      (Action.complete rowId today).Precedes first store secondResult firstResult final := by
  by_cases idle : ∀ fetched made, store.find? rowId = some fetched →
      fetched.entry.completed today = .ok made → ¬ Store.Keeps made
  · exact .inr (precedes_of_not_keeps idle overtakes)
  · push Not at idle
    rcases idle with ⟨fetched, made, found, completed, keeps⟩
    cases foundLater : (first.script.run .none store).2.find? rowId with
    | none => exact .inl (precedes_of_removed found completed keeps foundLater overtakes)
    | some changed =>
        by_cases same : changed.entry.completed today = .ok made
        · exact .inl (precedes_of_completed_eq found completed foundLater same overtakes)
        · by_cases edits : made = some changed.entry ∧ ∃ task day, first = .update task day
          · rcases edits with ⟨rfl, task, day, rfl⟩
            refine .inr (precedes_of_edit found completed foundLater ?_ overtakes)
            intro unchanged
            rw [unchanged] at same
            rw [unchanged] at completed
            exact same completed
          · refine absurd ⟨rowId, today, fetched, changed, made, rfl, found, completed, keeps,
              foundLater, same, ?_⟩ kept
            intro made task day edit
            exact edits ⟨made, task, day, edit⟩

/-- Unless it overwrites, an action that is overtaken may come before or after the other one. -/
theorem precedes_or_of_overtakes
    (overtakes : first.Overtakes second store firstResult secondResult final)
    (kept : ¬ second.Overwrites first store) :
    first.Precedes second store firstResult secondResult final ∨
      second.Precedes first store secondResult firstResult final := by
  by_cases completes : ∃ rowId today, second = .complete rowId today
  · rcases completes with ⟨rowId, today, rfl⟩
    exact precedes_or_of_overtakes_complete overtakes kept
  · push Not at completes
    rcases afterFetch_script_eq_or second store completes with same | ⟨result, idle⟩
    · rw [Overtakes, same] at overtakes
      exact .inl overtakes
    · exact .inr (precedes_of_idle idle overtakes)

/-! ## What is lost -/

theorem run_complete_eq_ok_iff
    {completion : Completion} :
    (Action.complete rowId today).script.run .none store =
        (.ok (.completed completion), final) ↔
      ∃ fetched made, store.find? rowId = some fetched ∧
        fetched.entry.completed today = .ok made ∧ Store.Keeps made ∧
        completion = .ofWritten made ∧ final = store.written rowId made := by
  rw [run_complete]
  constructor
  · intro run
    have completes : store.completeWith (store.find? rowId) rowId today =
        (.ok completion, final) := by
      generalize store.completeWith (store.find? rowId) rowId today = outcome at run
      rcases outcome with ⟨result, after⟩
      cases result <;> cases run
      rfl
    rcases Store.completeWith_eq_ok_iff.1 completes with
      ⟨fetched, made, found, completed, -, keeps, answer, wrote⟩
    exact ⟨fetched, made, found, completed, keeps, answer, wrote⟩
  · rintro ⟨fetched, made, found, completed, keeps, answer, wrote⟩
    have contained := Store.contains_of_find? found
    have completes := Store.completeWith_eq_ok_iff.2
      ⟨fetched, made, found, completed, contained, keeps, answer, wrote⟩
    rw [completes]
    rfl

theorem run_afterFetch_of_overwrites
    {fetched changed : Row} {made : Option Entry} {middle : Store}
    (found : store.find? rowId = some fetched)
    (completed : fetched.entry.completed today = .ok made)
    (keeps : Store.Keeps made)
    (foundLater : middle.find? rowId = some changed) :
    ((Action.complete rowId today).script.afterFetch store).run .none middle =
      (.ok (.completed (.ofWritten made)), middle.written rowId made) := by
  have completes := Store.completeWith_eq_ok_iff.2
    ⟨fetched, made, found, completed, Store.contains_of_find? foundLater, keeps, rfl, rfl⟩
  rw [run_afterFetch_complete, completes]
  rfl

/-- A completion after the other action would have made something else of the changed task. -/
theorem not_precedes_of_completed_ne
    {changed : Row} {made : Option Entry}
    (foundLater : (first.script.run .none store).2.find? rowId = some changed)
    (different : changed.entry.completed today ≠ .ok made) :
    ¬ first.Precedes (.complete rowId today) store firstResult
      (.ok (.completed (.ofWritten made)))
      ((first.script.run .none store).2.written rowId made) := by
  rintro ⟨middle, firstRun, secondRun⟩
  rw [firstRun] at foundLater secondRun
  rcases run_complete_eq_ok_iff.1 secondRun with
    ⟨fetched, other, found, completed, -, sameAnswer, sameStore⟩
  rw [foundLater] at found
  cases found
  rw [Store.eq_of_written_eq foundLater sameAnswer sameStore] at different
  exact different completed

/-- An edit after the completion would have found the completed task, or no task. -/
theorem not_precedes_of_edits
    {fetched : Row} {entry : Entry} {made : Option Entry} {task settled : Task} {day : Date}
    (found : store.find? rowId = some fetched)
    (completed : fetched.entry.completed today = .ok made)
    (asks : readTaskId task.id = .ok rowId)
    (settles : task.settle day = .ok settled)
    (same : settled.toEntry = entry)
    (accepted : entry.checkRecord = .ok ())
    (different : made ≠ some entry) :
    ¬ (Action.complete rowId today).Precedes (.update task day) store
      (.ok (.completed (.ofWritten made))) (.ok .updated)
      ((store.replace rowId entry).written rowId made) := by
  rintro ⟨middle, secondRun, firstRun⟩
  rcases run_complete_eq_ok_iff.1 secondRun with
    ⟨row, other, present, completes, -, sameAnswer, sameStore⟩
  rw [found] at present
  cases present
  rw [completed] at completes
  cases completes
  subst same
  rw [run_update asks settles accepted, sameStore] at firstRun
  cases made with
  | none =>
      rw [Store.written, Store.contains_of_find?_eq_none Store.find?_erase_self] at firstRun
      cases firstRun
  | some later =>
      injection firstRun with _ sameReplacement
      rw [Store.written, Store.written, Store.replace_replace, Store.replace_replace]
        at sameReplacement
      exact different (congrArg some (Store.replace_inj found sameReplacement).symm)

/-- A second completion after the first would have gone on from the first. -/
theorem not_precedes_of_completes
    {fetched : Row} {entry : Entry} {made : Option Entry} {day : Date}
    (found : store.find? rowId = some fetched)
    (completed : fetched.entry.completed today = .ok made) :
    ¬ (Action.complete rowId today).Precedes (.complete rowId day) store
      (.ok (.completed (.ofWritten made))) (.ok (.completed (.ofWritten (some entry))))
      ((store.replace rowId entry).written rowId made) := by
  rintro ⟨middle, secondRun, firstRun⟩
  rcases run_complete_eq_ok_iff.1 secondRun with
    ⟨row, other, present, completes, -, -, sameStore⟩
  rw [found] at present
  cases present
  rw [completed] at completes
  cases completes
  subst sameStore
  rcases run_complete_eq_ok_iff.1 firstRun with
    ⟨row, other, present, completes, -, sameAnswer, sameStore⟩
  cases made with
  | none =>
      rw [Store.written, Store.find?_erase_self] at present
      cases present
  | some later =>
      rw [Store.written, Store.find?_replace_self found] at present
      cases present
      cases other with
      | none => cases sameAnswer
      | some last =>
          rw [Store.written, Store.written, Store.written, Store.replace_replace,
            Store.replace_replace] at sameStore
          rw [← Store.replace_inj found sameStore] at completes
          exact Entry.completed_ne_self later day completes

/--
An action that is overwritten leaves no trace of itself in either order.  How
it changed the entry counts only where the completion goes first.
-/
theorem exists_overtakes_of_overwrites
    (overwrites : second.Overwrites first store) :
    ∃ firstResult secondResult final,
      first.Overtakes second store firstResult secondResult final ∧
      ¬ first.Precedes second store firstResult secondResult final ∧
      ¬ second.Precedes first store secondResult firstResult final := by
  rcases overwrites with ⟨rowId, today, fetched, changed, made, rfl, found, completed, keeps,
    foundLater, different, edits⟩
  have unequal : changed.entry ≠ fetched.entry := by
    intro same
    rw [same] at different
    exact different completed
  rcases rewrites_of_changed found foundLater unequal with ⟨accepted, rewrites⟩
  refine ⟨(first.script.run .none store).1, .ok (.completed (.ofWritten made)),
    (first.script.run .none store).2.written rowId made,
    ⟨(first.script.run .none store).2, rfl,
      run_afterFetch_of_overwrites found completed keeps foundLater⟩,
    not_precedes_of_completed_ne foundLater different, ?_⟩
  cases rewrites with
  | @edits task settled day asks settles same =>
      rw [run_update asks settles (by rw [same]; exact accepted),
        Store.contains_of_find? found, same]
      apply not_precedes_of_edits found completed asks settles same accepted
      intro sameEntry
      exact edits sameEntry task day rfl
  | @completes day completedFirst =>
      rw [run_complete_eq_ok_iff.2
        ⟨fetched, some changed.entry, found, completedFirst, accepted, rfl, rfl⟩]
      exact not_precedes_of_completes found completed

end Action

/--
Two clients of a store finish as if one of them had begun after the other, or
as if one had been at work between the fetch and the last call of the other.
So every finish is that of one of the two orders, unless one of the actions is
a completion that overwrites the other action; then some finish is that of
neither order.
-/
theorem finish_serial_iff (first second : Action) (store : Store) :
    (∀ firstResult secondResult final,
      first.Finish second store firstResult secondResult final ↔
        first.Precedes second store firstResult secondResult final ∨
        second.Precedes first store secondResult firstResult final ∨
        first.Overtakes second store firstResult secondResult final ∨
        second.Overtakes first store secondResult firstResult final) ∧
    ((∀ firstResult secondResult final,
      first.Finish second store firstResult secondResult final →
        first.Precedes second store firstResult secondResult final ∨
        second.Precedes first store secondResult firstResult final) ↔
      ¬ second.Overwrites first store ∧ ¬ first.Overwrites second store) := by
  refine ⟨fun _ _ _ => Action.finish_iff, ?_⟩
  constructor
  · intro serial
    constructor
    · intro overwrites
      rcases Action.exists_overtakes_of_overwrites overwrites with
        ⟨firstResult, secondResult, final, overtakes, notBefore, notAfter⟩
      have finish := Action.finish_iff.2 (.inr (.inr (.inl overtakes)))
      rcases serial firstResult secondResult final finish with before | after
      · exact notBefore before
      · exact notAfter after
    · intro overwrites
      rcases Action.exists_overtakes_of_overwrites overwrites with
        ⟨secondResult, firstResult, final, overtakes, notAfter, notBefore⟩
      have finish := Action.finish_iff.2 (.inr (.inr (.inr overtakes)))
      rcases serial firstResult secondResult final finish with before | after
      · exact notBefore before
      · exact notAfter after
  · rintro ⟨firstKept, secondKept⟩ firstResult secondResult final finish
    rcases Action.finish_iff.1 finish with before | after | overtakes | overtakes
    · exact .inl before
    · exact .inr after
    · exact Action.precedes_or_of_overtakes overtakes firstKept
    · exact (Action.precedes_or_of_overtakes overtakes secondKept).symm

/--
An edit of the title between the fetch and the last call of a completion is
lost: the task moves to its next date with the title that it had before.
-/
theorem completion_overwrites_edit :
    let task : Task := { date := "20240126", title := "water plants", repeats := "d 7" }
    let edited : Task := { task with id := "1", title := "water all plants" }
    let day : Date := ⟨2024, 1, 26, by decide⟩
    let store := (System.initial.run [.start (.add task day), .call 0 .none]).store
    let final : Store := ⟨[⟨1, { task.toEntry with date := "20240202" }⟩], 2⟩
    let moved : Except ScheduleError Answer := .ok (.completed (.rescheduled "20240202"))
    (Action.complete 1 day).Finish (.update edited day) store moved (.ok .updated) final ∧
      ¬ (Action.complete 1 day).Precedes (.update edited day) store
        moved (.ok .updated) final ∧
      ¬ (Action.update edited day).Precedes (.complete 1 day) store
        (.ok .updated) moved final := by
  intro task edited day store final moved
  have overtakes : (Action.update edited day).Overtakes (.complete 1 day) store
      (.ok .updated) moved final := by
    rw [Action.Overtakes]
    decide +kernel
  refine ⟨Action.finish_iff.2 (.inr (.inr (.inr overtakes))), ?_, ?_⟩
  · rw [Action.Precedes]
    decide +kernel
  · rw [Action.Precedes]
    decide +kernel

end Agenda
