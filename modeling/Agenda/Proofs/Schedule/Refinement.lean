import Agenda.Proofs.Schedule.Steps

/-!
# A store as a map whose keys are never used again

However a store is used, it is a ledger, and each step has one of few effects on
the ledger: it keeps an entry under the next id, changes what is kept under the
id that it is given, or changes nothing (`Ledger.Effect`).  The main statement is
`store_refines_ledger`.
-/

namespace Agenda

/-! ## What a step does -/

/-- What a ledger answers to a call, and the ledger after it. -/
inductive Ledger.Answers (ledger : Ledger) :
    (request : Call) → Except StoreError request.Reply → Ledger → Prop where
  | added {entry : Entry} (fresh : ledger.entryOf (ledger.lastId + 1) = none) :
    ledger.Answers (.add entry) (.ok (ledger.lastId + 1)) (ledger.insert entry)
  | updated {rowId : Int} {entry : Entry} (present : ledger.entryOf rowId ≠ none) :
    ledger.Answers (.update rowId entry) (.ok true) (ledger.bind rowId (some entry))
  | deleted {rowId : Int} (present : ledger.entryOf rowId ≠ none) :
    ledger.Answers (.delete rowId) (.ok true) (ledger.bind rowId none)
  | found {rowId : Int} {entry : Entry} (present : ledger.entryOf rowId = some entry) :
    ledger.Answers (.get rowId) (.ok (some { entry with id := toString rowId })) ledger
  | listed {limit : Nat} (tasks : List Task) :
    ledger.Answers (.list limit) (.ok tasks) ledger
  | missed {request : Call} {answer : request.Reply}
    (nothing : request.missingReply? = some answer) :
    ledger.Answers request (.ok answer) ledger
  | failed {request : Call} (cause : StoreError) :
    ledger.Answers request (.error cause) ledger

/--
What a step answers, and the ledger after it.  An addition keeps the settled
entry under a fresh id, an edit and a completion change what is kept under
their id, and every other step leaves the ledger as it is.
-/
inductive Ledger.Effect (ledger : Ledger) : Step → Outcome → Ledger → Prop where
  | added {faults : Faults} {task settled : Task} {today : Date}
    (settles : task.settle today = .ok settled)
    (fresh : ledger.entryOf (ledger.lastId + 1) = none) :
    ledger.Effect (.act faults (.add task today))
      (.acted (.ok (.added (ledger.lastId + 1)))) (ledger.insert settled.toEntry)
  | updated {faults : Faults} {task settled : Task} {today : Date} {rowId : Int}
    (named : readTaskId task.id = .ok rowId) (settles : task.settle today = .ok settled)
    (present : ledger.entryOf rowId ≠ none) :
    ledger.Effect (.act faults (.update task today))
      (.acted (.ok .updated)) (ledger.bind rowId (some settled.toEntry))
  | deleted {faults : Faults} {rowId : Int} (present : ledger.entryOf rowId ≠ none) :
    ledger.Effect (.act faults (.delete rowId)) (.acted (.ok .deleted)) (ledger.bind rowId none)
  | completed {faults : Faults} {rowId : Int} {today : Date} {entry : Entry}
    {written : Option Entry} (present : ledger.entryOf rowId = some entry)
    (completes : entry.completed today = .ok written) :
    ledger.Effect (.act faults (.complete rowId today))
      (.acted (.ok (.completed (.ofWritten written)))) (ledger.bind rowId written)
  | found {faults : Faults} {rowId : Int} {entry : Entry}
    (present : ledger.entryOf rowId = some entry) :
    ledger.Effect (.act faults (.get rowId))
      (.acted (.ok (.task { entry with id := toString rowId }))) ledger
  | listed {faults : Faults} {limit : Nat} (tasks : List Task) :
    ledger.Effect (.act faults (.list limit)) (.acted (.ok (.tasks tasks))) ledger
  | refused {faults : Faults} {action : Action} (cause : ScheduleError) :
    ledger.Effect (.act faults action) (.acted (.error cause)) ledger
  | called {faults : Faults} {request : Call} {reply : Except StoreError request.Reply}
    {after : Ledger} (answers : ledger.Answers request reply after) :
    ledger.Effect (.call faults request) (.called request reply) after
  | reopened : ledger.Effect .reopen (.reopened true) ledger

namespace Ledger

variable {ledger after : Ledger} {rowId : Int} {faults : Faults}

theorem answers_perform
    (fresh : ledger.entryOf (ledger.lastId + 1) = none)
    (request : Call) :
    ledger.Answers request (ledger.perform request).1 (ledger.perform request).2 := by
  cases request with
  | add entry =>
      rw [perform]
      cases entry.checkRecord with
      | error cause => exact .failed cause
      | ok => exact .added fresh
  | get rowId =>
      rw [perform]
      cases present : ledger.entryOf rowId with
      | none => exact .missed rfl
      | some entry => exact .found present
  | update rowId entry =>
      rw [perform]
      cases entry.checkRecord with
      | error cause => exact .failed cause
      | ok =>
          simp only
          split
          · rename_i present
            exact .updated (Option.isSome_iff_ne_none.1 present)
          · exact .missed rfl
  | delete rowId =>
      rw [perform]
      split
      · rename_i present
        exact .deleted (Option.isSome_iff_ne_none.1 present)
      · exact .missed rfl
  | list limit => exact .listed _

theorem answers_performWith
    (fresh : ledger.entryOf (ledger.lastId + 1) = none)
    (faults : Faults) (request : Call) :
    ledger.Answers request (ledger.performWith faults request).1
      (ledger.performWith faults request).2 := by
  rw [performWith]
  cases met : (faults.faultOf request).bind (·.reply? request) with
  | none => exact answers_perform fresh request
  | some reply =>
      rcases Option.bind_eq_some_iff.1 met with ⟨fault, -, replies⟩
      cases fault with
      | backend | invalidData =>
          cases replies
          exact .failed _
      | missing =>
          rcases Option.map_eq_some_iff.1 replies with ⟨answer, nothing, rfl⟩
          exact .missed nothing

/-- A result, and the ledger after it, of a change under an id that may fail. -/
def Writes {α : Type} (ledger : Ledger) (rowId : Int) (written : Option Entry) (value : α)
    (outcome : Except ScheduleError α × Ledger) : Prop :=
  (outcome = (.ok value, ledger.bind rowId written) ∧ ledger.entryOf rowId ≠ none) ∨
    ∃ cause, outcome = (.error cause, ledger)

theorem writes_write
    {α : Type}
    (fresh : ledger.entryOf (ledger.lastId + 1) = none)
    (faults : Faults) (rowId : Int) (value : α) (written : Option Entry) :
    ledger.Writes rowId written value (ledger.write faults rowId value written) := by
  cases written with
  | none =>
      have answers := answers_performWith fresh faults (.delete rowId)
      rw [write]
      generalize ledger.performWith faults (.delete rowId) = answered at answers ⊢
      rcases answered with ⟨reply, after⟩
      cases answers with
      | deleted present => exact .inl ⟨rfl, present⟩
      | missed nothing =>
          cases nothing
          exact .inr ⟨_, rfl⟩
      | failed cause => exact .inr ⟨_, rfl⟩
  | some entry =>
      have answers := answers_performWith fresh faults (.update rowId entry)
      rw [write]
      generalize ledger.performWith faults (.update rowId entry) = answered at answers ⊢
      rcases answered with ⟨reply, after⟩
      cases answers with
      | updated present => exact .inl ⟨rfl, present⟩
      | missed nothing =>
          cases nothing
          exact .inr ⟨_, rfl⟩
      | failed cause => exact .inr ⟨_, rfl⟩

/-- An action that ends with a change has the effect of the change, or none if it fails. -/
theorem Writes.effect
    {action : Action} {written : Option Entry} {answer : Answer}
    {outcome : Except ScheduleError Answer × Ledger}
    (writes : ledger.Writes rowId written answer outcome)
    (effect : ledger.entryOf rowId ≠ none →
      ledger.Effect (.act faults action) (.acted (.ok answer)) (ledger.bind rowId written)) :
    ledger.Effect (.act faults action) (.acted outcome.1) outcome.2 := by
  rcases writes with ⟨wrote, present⟩ | ⟨cause, failed⟩
  · rw [wrote]
    exact effect present
  · rw [failed]
    exact .refused cause

/-- A task that is fetched is what is kept under its id. -/
theorem exists_entryOf_of_get
    {task : Task}
    (fresh : ledger.entryOf (ledger.lastId + 1) = none)
    (replied : (ledger.performWith faults (.get rowId)).1 = .ok (some task)) :
    ∃ entry, ledger.entryOf rowId = some entry ∧ task = { entry with id := toString rowId } := by
  have answers := answers_performWith fresh faults (.get rowId)
  rw [replied] at answers
  generalize (ledger.performWith faults (.get rowId)).2 = after at answers
  cases answers with
  | found present => exact ⟨_, present, rfl⟩
  | missed nothing => cases nothing

/-- An action has its effect, or fails and has none. -/
theorem effect_act
    (fresh : ledger.entryOf (ledger.lastId + 1) = none)
    (faults : Faults) (action : Action) :
    ledger.Effect (.act faults action) (.acted (ledger.act faults action).1)
      (ledger.act faults action).2 := by
  cases action with
  | add task today =>
      rw [act]
      cases settles : task.settle today with
      | error cause => exact .refused cause
      | ok settled =>
          simp only
          have answers := answers_performWith fresh faults (.add settled.toEntry)
          generalize ledger.performWith faults (.add settled.toEntry) = answered at answers ⊢
          rcases answered with ⟨reply, after⟩
          cases answers with
          | added _ => exact .added settles fresh
          | missed nothing => cases nothing
          | failed cause => exact .refused _
  | update task today =>
      rw [act]
      cases named : readTaskId task.id with
      | error cause => exact .refused _
      | ok rowId =>
          cases settles : task.settle today with
          | error cause => exact .refused cause
          | ok settled =>
              have writes := writes_write fresh faults rowId Answer.updated (some settled.toEntry)
              exact writes.effect (.updated named settles)
  | delete rowId =>
      rw [act]
      exact (writes_write fresh faults rowId Answer.deleted none).effect .deleted
  | complete rowId today =>
      rw [act]
      rcases replied : (ledger.performWith faults (.get rowId)).1 with cause | _ | task
      · exact .refused _
      · exact .refused _
      · rcases exists_entryOf_of_get fresh replied with ⟨entry, present, rfl⟩
        simp only
        cases completes : entry.completed today with
        | error cause => exact .refused cause
        | ok written =>
            have writes :=
              writes_write fresh faults rowId (Answer.completed (.ofWritten written)) written
            exact writes.effect fun _ => .completed present completes
  | get rowId =>
      rw [act]
      rcases replied : (ledger.performWith faults (.get rowId)).1 with cause | _ | task
      · exact .refused _
      · exact .refused _
      · rcases exists_entryOf_of_get fresh replied with ⟨entry, present, rfl⟩
        exact .found present
  | list limit =>
      rw [act]
      cases (ledger.performWith faults (.list limit)).1 with
      | error cause => exact .refused _
      | ok tasks => exact .listed tasks

theorem effect_take
    (fresh : ledger.entryOf (ledger.lastId + 1) = none)
    (step : Step) :
    ledger.Effect step (ledger.take step).1 (ledger.take step).2 := by
  cases step with
  | act faults action => exact effect_act fresh faults action
  | call faults request => exact .called (answers_performWith fresh faults request)
  | reopen => exact .reopened

/-! ## Ids that are given -/

/-- A step gives the id after the last one, or none. -/
theorem Effect.addedId
    {step : Step} {outcome : Outcome}
    (effect : ledger.Effect step outcome after) :
    (outcome.addedId? = none ∧ after.lastId = ledger.lastId) ∨
      (outcome.addedId? = some (ledger.lastId + 1) ∧ after.lastId = ledger.lastId + 1) := by
  cases effect with
  | added => exact .inr ⟨rfl, rfl⟩
  | updated | deleted | completed | found | listed | refused | reopened => exact .inl ⟨rfl, rfl⟩
  | @called _ request _ _ answers =>
      cases answers with
      | added => exact .inr ⟨rfl, rfl⟩
      | updated | deleted | found | listed => exact .inl ⟨rfl, rfl⟩
      | missed nothing =>
          cases request with
          | add => cases nothing
          | get | update | delete | list => exact .inl ⟨rfl, rfl⟩
      | failed => cases request <;> exact .inl ⟨rfl, rfl⟩

end Ledger

/--
Every id that is given is greater than all that were given before.  The last
of these bounds the ids of the steps to come from below.
-/
theorem Store.Refines.pairwise_addedIds
    {store : Store} {ledger : Ledger}
    (refines : store.Refines ledger)
    (steps : List Step) :
    let addedIds := (Agenda.takeAll Store.take steps store).1.filterMap Outcome.addedId?
    (∀ rowId ∈ addedIds, ledger.lastId < rowId) ∧ addedIds.Pairwise (· < ·) := by
  induction steps generalizing store ledger with
  | nil => exact ⟨List.forall_mem_nil _, .nil⟩
  | cons step later ih =>
      have taken := refines.take step
      have rest := ih taken.2
      have given := (Ledger.effect_take refines.fresh step).addedId
      rw [← taken.1] at given
      simp only [Agenda.takeAll]
      rcases given with ⟨none, lastId⟩ | ⟨added, lastId⟩
      · rw [List.filterMap_cons_none none, ← lastId]
        exact rest
      · rw [List.filterMap_cons_some added]
        rw [lastId] at rest
        refine ⟨?_, List.pairwise_cons.2 ⟨?_, rest.2⟩⟩
        · refine List.forall_mem_cons.2 ⟨Int.lt_succ ledger.lastId, ?_⟩
          intro rowId member
          exact Int.lt_trans (Int.lt_succ ledger.lastId) (rest.1 rowId member)
        · exact rest.1

/-! ## The id of a task that is added -/

theorem Task.settle_of_id (task : Task) (text : String) (today : Date) :
    ({ task with id := text } : Task).settle today =
      (task.settle today).map fun settled => { settled with id := text } := by
  simp only [Task.settle]
  cases task.validate with
  | error cause => rfl
  | ok => cases task.settledDate today <;> rfl

/-- The id field of a task does not matter when it is added. -/
theorem Action.script_add_of_id (task : Task) (text : String) (today : Date) :
    (Action.add { task with id := text } today).script = (Action.add task today).script := by
  rw [script_add, script_add, Task.settle_of_id]
  cases task.settle today <;> rfl

/--
However a store is used, by operations, by its own calls and by closing it and
opening it again, and whatever fails on the way, it answers as a map from ids
to entries does, and keeps the same.  Every id that it gives is greater than all
that it gave before.  Each step has its effect and no other one, and the id
field of a task that is added does not matter.
-/
theorem store_refines_ledger (steps : List Step) :
    let stored := takeAll Store.take steps ∅
    let kept := takeAll Ledger.take steps ∅
    (stored.1 = kept.1 ∧ stored.2.contents = kept.2.entryOf ∧ stored.2.rows = kept.2.rows) ∧
    (stored.1.filterMap Outcome.addedId?).Pairwise (· < ·) ∧
    (∀ step, kept.2.Effect step (stored.2.take step).1 (kept.2.take step).2 ∧
      (stored.2.take step).2.contents = (kept.2.take step).2.entryOf) ∧
    ∀ (faults : Faults) (task : Task) (today : Date) (text : String),
      stored.2.take (.act faults (.add { task with id := text } today)) =
        stored.2.take (.act faults (.add task today)) := by
  intro stored kept
  have start : (∅ : Store).Refines ∅ := .empty
  have reached := start.takeAll steps
  refine ⟨⟨reached.1, reached.2.contents, reached.2.rows_eq⟩, ?_, ?_, ?_⟩
  · exact (start.pairwise_addedIds steps).2
  · intro step
    have taken := reached.2.take step
    rw [taken.1]
    exact ⟨Ledger.effect_take reached.2.fresh step, taken.2.contents⟩
  · intro faults task today text
    rw [Store.take_act, Store.take_act, Action.script_add_of_id]

end Agenda
