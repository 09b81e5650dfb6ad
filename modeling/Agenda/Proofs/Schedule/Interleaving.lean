import Agenda.Proofs.Schedule.Clients

/-!
# Two clients at once

Two scripts interleave when their calls are made in any order on one store.
Every operation makes one call, or fetches a task and then makes one call.  So
two operations that interleave have the results and the final store of one of
the two orders in which they can follow each other, or those of an operation
that runs between the fetch of the other and its last call.  The main statement
is `Action.finish_iff`.
-/

namespace Agenda

namespace Script

variable {α β : Type} {store final : Store} {firstResult : α} {secondResult : β}

/-- Two scripts make their calls in some order on one store, up to their results. -/
inductive Interleaves : Script α → Script β → Store → α → β → Store → Prop where
  | done {store : Store} {firstResult : α} {secondResult : β} :
    Interleaves (.done firstResult) (.done secondResult) store firstResult secondResult store
  | first {store final : Store} {firstResult : α} {secondResult : β}
    {request : Call} {next : Except StoreError request.Reply → Script α} {second : Script β}
    (rest : Interleaves (next (store.perform request).1) second (store.perform request).2
      firstResult secondResult final) :
    Interleaves (.call request next) second store firstResult secondResult final
  | second {store final : Store} {firstResult : α} {secondResult : β}
    {request : Call} {next : Except StoreError request.Reply → Script β} {first : Script α}
    (rest : Interleaves first (next (store.perform request).1) (store.perform request).2
      firstResult secondResult final) :
    Interleaves first (.call request next) store firstResult secondResult final

/-- A script runs alone, and then another one on the store that it leaves. -/
def Serial
    (first : Script α) (second : Script β) (store : Store)
    (firstResult : α) (secondResult : β) (final : Store) : Prop :=
  ∃ middle, first.run .none store = (firstResult, middle) ∧
    second.run .none middle = (secondResult, final)

theorem serial_iff {first : Script α} {second : Script β} :
    Serial first second store firstResult secondResult final ↔
      (first.run .none store).1 = firstResult ∧
        second.run .none (first.run .none store).2 = (secondResult, final) := by
  constructor
  · rintro ⟨middle, firstRun, secondRun⟩
    rw [firstRun]
    exact ⟨rfl, secondRun⟩
  · rintro ⟨rfl, secondRun⟩
    exact ⟨(first.run .none store).2, rfl, secondRun⟩

instance [DecidableEq α] [DecidableEq β] (first : Script α) (second : Script β) :
    Decidable (Serial first second store firstResult secondResult final) :=
  decidable_of_iff _ serial_iff.symm

theorem run_call
    (request : Call) (next : Except StoreError request.Reply → Script α) (store : Store) :
    (call request next).run .none store =
      (next (store.perform request).1).run .none (store.perform request).2 := by
  simp only [run, Store.performWith_none]

namespace Interleaves

variable {first : Script α} {second : Script β}

theorem symm
    (interleaves : Interleaves first second store firstResult secondResult final) :
    Interleaves second first store secondResult firstResult final := by
  induction interleaves with
  | done => exact .done
  | first _ ih => exact .second ih
  | second _ ih => exact .first ih

theorem of_done
    (run : second.run .none store = (secondResult, final)) :
    Interleaves (.done firstResult) second store firstResult secondResult final := by
  induction second generalizing store with
  | done result =>
      cases run
      exact .done
  | call request next ih =>
      rw [run_call] at run
      exact .second (ih _ run)

/-- Beside a script that is done the other one runs alone. -/
theorem run_of_done
    {result : α}
    (interleaves : Interleaves (.done result) second store firstResult secondResult final) :
    firstResult = result ∧ second.run .none store = (secondResult, final) := by
  generalize same : Script.done result = first at interleaves
  induction interleaves with
  | done =>
      cases same
      exact ⟨rfl, rfl⟩
  | first => cases same
  | second _ ih =>
      rw [run_call]
      exact ih same

theorem of_serial
    (serial : Serial first second store firstResult secondResult final) :
    Interleaves first second store firstResult secondResult final := by
  rcases serial with ⟨middle, firstRun, secondRun⟩
  induction first generalizing store with
  | done result =>
      cases firstRun
      exact of_done secondRun
  | call request next ih =>
      rw [run_call] at firstRun
      exact .first (ih _ firstRun)

end Interleaves

/-! ## Short scripts -/

/-- A script of at most one call. -/
def IsSingle : Script α → Prop
  | .done _ => True
  | .call _ next => ∀ reply, ∃ result, next reply = .done result

/-- What is left of a script that begins with a fetch after it has fetched from a store. -/
def afterFetch (store : Store) : Script α → Script α
  | .call (.get rowId) next => next (.ok ((store.find? rowId).map Row.task))
  | script => script

/-- A script that makes at most one call, not counting a fetch at its beginning. -/
def IsShort (script : Script α) : Prop :=
  ∀ store, (script.afterFetch store).IsSingle

@[simp]
theorem run_afterFetch (script : Script α) (store : Store) :
    (script.afterFetch store).run .none store = script.run .none store := by
  cases script with
  | done result => rfl
  | call request next =>
      cases request with
      | get rowId => exact (run_call (.get rowId) next store).symm
      | add | update | delete | list => rfl

/-- The first call of a script is a fetch, or the script has none. -/
theorem afterFetch_call_eq_or
    (request : Call) (next : Except StoreError request.Reply → Script α) (store : Store) :
    (next (store.perform request).1 = (call request next).afterFetch store ∧
      (store.perform request).2 = store) ∨
    (call request next).afterFetch store = call request next := by
  cases request with
  | get rowId => exact .inl ⟨rfl, rfl⟩
  | add | update | delete | list => exact .inr rfl

theorem Interleaves.of_afterFetch
    {first : Script α} {second : Script β}
    (interleaves : Interleaves first (second.afterFetch store) store
      firstResult secondResult final) :
    Interleaves first second store firstResult secondResult final := by
  cases second with
  | done result => exact interleaves
  | call request next =>
      rcases afterFetch_call_eq_or request next store with ⟨fetched, kept⟩ | same
      · rw [← fetched] at interleaves
        apply Interleaves.second
        rwa [kept]
      · rwa [same] at interleaves

variable {first : Script α} {second : Script β}

theorem Serial.of_afterFetch
    (serial : Serial (first.afterFetch store) second store firstResult secondResult final) :
    Serial first second store firstResult secondResult final := by
  rcases serial with ⟨middle, firstRun, secondRun⟩
  rw [run_afterFetch] at firstRun
  exact ⟨middle, firstRun, secondRun⟩

/-- Once the only call of a script is made, the other one runs alone. -/
theorem IsSingle.serial
    {request : Call} {next : Except StoreError request.Reply → Script α}
    (single : (call request next).IsSingle)
    (rest : Interleaves (next (store.perform request).1) second (store.perform request).2
      firstResult secondResult final) :
    Serial (call request next) second store firstResult secondResult final := by
  rcases single (store.perform request).1 with ⟨result, ended⟩
  rw [ended] at rest
  rcases rest.run_of_done with ⟨rfl, secondRun⟩
  refine ⟨(store.perform request).2, ?_, secondRun⟩
  rw [run_call, ended, run_done]

theorem Interleaves.serial_or
    (interleaves : Interleaves first second store firstResult secondResult final)
    (firstSingle : first.IsSingle)
    (secondSingle : second.IsSingle) :
    Serial first second store firstResult secondResult final ∨
      Serial second first store secondResult firstResult final := by
  cases interleaves with
  | done => exact .inl ⟨store, rfl, rfl⟩
  | first rest => exact .inl (firstSingle.serial rest)
  | second rest => exact .inr (secondSingle.serial rest.symm)

/-- A single call comes before a short script, after it, or after its fetch. -/
theorem Interleaves.serial_or_of_isShort
    (interleaves : Interleaves first second store firstResult secondResult final)
    (single : first.IsSingle)
    (short : second.IsShort) :
    Serial first second store firstResult secondResult final ∨
      Serial second first store secondResult firstResult final ∨
      Serial first (second.afterFetch store) store firstResult secondResult final := by
  cases interleaves with
  | done => exact .inl ⟨store, rfl, rfl⟩
  | first rest => exact .inl (single.serial rest)
  | @second _ _ _ _ request next _ rest =>
      rcases afterFetch_call_eq_or request next store with ⟨fetched, kept⟩ | same
      · rw [fetched, kept] at rest
        rcases rest.serial_or single (short store) with before | after
        · exact .inr (.inr before)
        · exact .inr (.inl after.of_afterFetch)
      · have alone := short store
        rw [same] at alone
        exact .inr (.inl (alone.serial rest.symm))

/-- The first call of a short script is its only one, or it fetches. -/
theorem IsShort.serial_or
    {request : Call} {next : Except StoreError request.Reply → Script α}
    (firstShort : (call request next).IsShort)
    (secondShort : second.IsShort)
    (rest : Interleaves (next (store.perform request).1) second (store.perform request).2
      firstResult secondResult final) :
    Serial (call request next) second store firstResult secondResult final ∨
      Serial second ((call request next).afterFetch store) store
        secondResult firstResult final ∨
      Serial (call request next) (second.afterFetch store) store
        firstResult secondResult final := by
  rcases afterFetch_call_eq_or request next store with ⟨fetched, kept⟩ | same
  · rw [fetched, kept] at rest
    rcases rest.serial_or_of_isShort (firstShort store) secondShort with
      before | after | between
    · exact .inl before.of_afterFetch
    · exact .inr (.inl after)
    · exact .inr (.inr between.of_afterFetch)
  · have alone := firstShort store
    rw [same] at alone
    exact .inl (alone.serial rest)

/-- Short scripts follow each other, or one of them runs between the calls of the other. -/
theorem interleaves_iff
    (firstShort : first.IsShort)
    (secondShort : second.IsShort) :
    Interleaves first second store firstResult secondResult final ↔
      Serial first second store firstResult secondResult final ∨
      Serial second first store secondResult firstResult final ∨
      Serial first (second.afterFetch store) store firstResult secondResult final ∨
      Serial second (first.afterFetch store) store secondResult firstResult final := by
  constructor
  · intro interleaves
    cases interleaves with
    | done => exact .inl ⟨store, rfl, rfl⟩
    | first rest =>
        rcases firstShort.serial_or secondShort rest with before | between | other
        · exact .inl before
        · exact .inr (.inr (.inr between))
        · exact .inr (.inr (.inl other))
    | second rest =>
        rcases secondShort.serial_or firstShort rest.symm with before | between | other
        · exact .inr (.inl before)
        · exact .inr (.inr (.inl between))
        · exact .inr (.inr (.inr other))
  · rintro (serial | serial | between | between)
    · exact .of_serial serial
    · exact (Interleaves.of_serial serial).symm
    · exact .of_afterFetch (.of_serial between)
    · exact (Interleaves.of_afterFetch (.of_serial between)).symm

end Script

/-! ## Actions -/

namespace Action

variable {first second : Action} {store final : Store}
  {firstResult secondResult : Except ScheduleError Answer}

theorem isSingle_completeFetched
    (rowId : Int) (today : Date) (reply : Except StoreError (Option Task)) :
    (Except.map Answer.completed <$>
      Script.completeFetched rowId today reply).IsSingle := by
  rcases reply with cause | found
  · exact trivial
  · cases found with
    | none => exact trivial
    | some task =>
        rw [Script.completeFetched]
        cases task.toEntry.completed today with
        | error cause => exact trivial
        | ok written => cases written <;> exact fun reply => ⟨_, rfl⟩

/-- Every action makes one call, or fetches a task and makes one call. -/
theorem isShort_script (action : Action) : action.script.IsShort := by
  intro store
  cases action with
  | add task today =>
      rw [script_add]
      cases task.settle today with
      | error cause => exact trivial
      | ok settled => exact fun reply => ⟨_, rfl⟩
  | update task today =>
      rw [script_update]
      cases readTaskId task.id with
      | error cause => exact trivial
      | ok rowId =>
          cases task.settle today with
          | error cause => exact trivial
          | ok settled => exact fun reply => ⟨_, rfl⟩
  | delete rowId =>
      rw [script_delete]
      exact fun reply => ⟨_, rfl⟩
  | complete rowId today =>
      rw [script_complete]
      exact isSingle_completeFetched rowId today _
  | get rowId =>
      rw [script_get]
      exact trivial
  | list limit =>
      rw [script_list]
      exact fun reply => ⟨_, rfl⟩

/-- Two clients of a store make their calls in some order, up to the results of their actions. -/
def Finish
    (first second : Action) (store : Store)
    (firstResult secondResult : Except ScheduleError Answer) (final : Store) : Prop :=
  ∃ order : List Nat,
    System.run (order.map fun index => .call index .none)
        ⟨store, [.start first, .start second]⟩ =
      ⟨final, [⟨first, .done firstResult⟩, ⟨second, .done secondResult⟩]⟩

/-- An action is done before another one begins. -/
def Precedes
    (first second : Action) (store : Store)
    (firstResult secondResult : Except ScheduleError Answer) (final : Store) : Prop :=
  Script.Serial first.script second.script store firstResult secondResult final

/-- An action is done between the fetch of another one and its last call. -/
def Overtakes
    (first second : Action) (store : Store)
    (firstResult secondResult : Except ScheduleError Answer) (final : Store) : Prop :=
  Script.Serial first.script (second.script.afterFetch store) store
    firstResult secondResult final

end Action

theorem Client.step_call
    (action : Action) (request : Call)
    (next : Except StoreError request.Reply → Script (Except ScheduleError Answer))
    (store : Store) :
    Client.step .none store ⟨action, .call request next⟩ =
      (⟨action, next (store.perform request).1⟩, (store.perform request).2) := by
  rw [← Store.performWith_none]
  rfl

namespace System

variable {first second : Action} {store final : Store}
  {firstResult secondResult : Except ScheduleError Answer}

/--
A run of two clients to their ends interleaves their scripts.  A call of a
client that is done, or of one that is not there, moves nothing.
-/
theorem interleaves_of_run
    {firstRest secondRest : Script (Except ScheduleError Answer)}
    (order : List Nat)
    (ended : run (order.map fun index => .call index .none)
        ⟨store, [⟨first, firstRest⟩, ⟨second, secondRest⟩]⟩ =
      ⟨final, [⟨first, .done firstResult⟩, ⟨second, .done secondResult⟩]⟩) :
    Script.Interleaves firstRest secondRest store firstResult secondResult final := by
  induction order generalizing store firstRest secondRest with
  | nil =>
      cases ended
      exact .done
  | cons index later ih =>
      rw [List.map_cons, run_cons] at ended
      rcases index with _ | _ | index
      · cases firstRest with
        | done result => exact ih ended
        | call request next =>
            simp only [move, List.getElem?_cons_zero, List.set_cons_zero,
              Client.step_call] at ended
            exact .first (ih ended)
      · cases secondRest with
        | done result => exact ih ended
        | call request next =>
            simp only [move, List.getElem?_cons_succ, List.getElem?_cons_zero,
              List.set_cons_succ, List.set_cons_zero, Client.step_call] at ended
            exact .second (ih ended)
      · exact ih ended

theorem exists_run_of_interleaves
    {firstRest secondRest : Script (Except ScheduleError Answer)}
    (first second : Action)
    (interleaves : Script.Interleaves firstRest secondRest store
      firstResult secondResult final) :
    ∃ order : List Nat, run (order.map fun index => .call index .none)
        ⟨store, [⟨first, firstRest⟩, ⟨second, secondRest⟩]⟩ =
      ⟨final, [⟨first, .done firstResult⟩, ⟨second, .done secondResult⟩]⟩ := by
  induction interleaves with
  | done => exact ⟨[], rfl⟩
  | first _ ih =>
      rcases ih with ⟨order, ended⟩
      refine ⟨0 :: order, ?_⟩
      rw [List.map_cons, run_cons, ← ended]
      simp only [move, List.getElem?_cons_zero, List.set_cons_zero, Client.step_call]
  | second _ ih =>
      rcases ih with ⟨order, ended⟩
      refine ⟨1 :: order, ?_⟩
      rw [List.map_cons, run_cons, ← ended]
      simp only [move, List.getElem?_cons_succ, List.getElem?_cons_zero,
        List.set_cons_succ, List.set_cons_zero, Client.step_call]

end System

/--
Two clients finish as if one of them had begun after the other, or as if one
of them had been at work between the fetch and the last call of the other.
-/
theorem Action.finish_iff
    {first second : Action} {store final : Store}
    {firstResult secondResult : Except ScheduleError Answer} :
    first.Finish second store firstResult secondResult final ↔
      first.Precedes second store firstResult secondResult final ∨
      second.Precedes first store secondResult firstResult final ∨
      first.Overtakes second store firstResult secondResult final ∨
      second.Overtakes first store secondResult firstResult final := by
  refine Iff.trans ?_ (Script.interleaves_iff first.isShort_script second.isShort_script)
  constructor
  · rintro ⟨order, ended⟩
    exact System.interleaves_of_run order ended
  · intro interleaves
    exact System.exists_run_of_interleaves first second interleaves

end Agenda
