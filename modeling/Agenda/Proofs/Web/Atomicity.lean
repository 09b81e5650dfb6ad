import Agenda.Proofs.Schedule.Atomicity
import Agenda.Web.Router
import Mathlib.Control.Monad.Basic

/-!
# Requests that leave the store

Every endpoint answers with the outcome of at most one operation, and a status
other than 200 means that the operation failed, or that there was none.  The
endpoints of `GET`, which are those of `HEAD`, only read.  So a request that is
refused leaves the store as it is, and so does a request of these two methods.
The main statement, for operations and for requests, is `failure_leaves_store`.
-/

namespace Agenda

namespace Web

variable {taskLimit : Nat} {today : Date} {request : Request} {failed : Response → Prop}

/-! ## Endpoints -/

/-- Whether an endpoint only reads. -/
def Endpoint.onlyReads : Endpoint → Bool
  | .health | .nextDate | .getTask | .listTasks => true
  | .createTask | .updateTask | .deleteTask | .completeTask => false

/-- The response to the result of an operation. -/
def responseTo {α : Type} (document : α → Json.Value) : Except ScheduleError α → Response
  | .ok result => .success (document result)
  | .error error => .ofError error

theorem respond_eq {α : Type} (operation : Operation α) (document : α → Json.Value) :
    respond operation document = responseTo document <$> ExceptT.run operation := by
  apply congrArg (Script.bind (ExceptT.run operation))
  funext result
  cases result <;> rfl

theorem isAtomic_respond
    {α : Type} {operation : Operation α} {document : α → Json.Value}
    (atomic : operation.IsAtomic) :
    (respond operation document).IsAtomic fun response => response.status ≠ 200 := by
  rw [respond_eq]
  refine Script.IsAtomic.map atomic ?_
  rintro (cause | result) hasFailed
  · exact ⟨cause, rfl⟩
  · exact absurd rfl hasFailed

theorem onlyReads_respond
    {α : Type} {operation : Operation α} {document : α → Json.Value}
    (onlyReads : operation.OnlyReads) :
    (respond operation document).IsAtomic fun _ => True := by
  rw [respond_eq]
  exact Script.IsAtomic.map onlyReads fun _ _ => trivial

theorem isAtomic_withParameters
    {keys : List String} {answer : (String → Option String) → Script Response}
    (atomic : ∀ parameter, (answer parameter).IsAtomic failed) :
    (withParameters request keys answer).IsAtomic failed := by
  rw [withParameters]
  split
  · exact atomic _
  · exact .done _

theorem isAtomic_withTaskId
    {answer : Int → Script Response}
    (atomic : ∀ rowId, (answer rowId).IsAtomic failed) :
    (withTaskId request answer).IsAtomic failed := by
  rw [withTaskId]
  refine isAtomic_withParameters fun parameter => ?_
  split
  · exact atomic _
  · exact .done _

theorem isAtomic_withTask
    {answer : Task → Script Response}
    (atomic : ∀ task, (answer task).IsAtomic failed) :
    (withTask request answer).IsAtomic failed := by
  rw [withTask]
  split
  · split
    · exact atomic _
    · exact .done _
  · exact .done _

/-- An endpoint that only reads writes nothing, whatever it answers. -/
theorem isAtomic_answer_of_onlyReads
    {endpoint : Endpoint}
    (onlyReads : endpoint.onlyReads = true) :
    (answer taskLimit today request endpoint).IsAtomic fun _ => True := by
  cases endpoint with
  | health => exact .done _
  | nextDate =>
      rw [answer]
      exact isAtomic_withParameters fun _ => .done _
  | getTask =>
      rw [answer]
      exact isAtomic_withTaskId fun rowId => onlyReads_respond (onlyReads_getTask rowId)
  | listTasks =>
      rw [answer]
      refine isAtomic_withParameters fun parameter => ?_
      split
      · exact onlyReads_respond (onlyReads_list _)
      · exact .done _
  | createTask | updateTask | deleteTask | completeTask => cases onlyReads

/-- An endpoint that answers with another status than 200 writes nothing. -/
theorem isAtomic_answer (endpoint : Endpoint) :
    (answer taskLimit today request endpoint).IsAtomic fun response => response.status ≠ 200 := by
  cases endpoint with
  | health | nextDate | getTask | listTasks =>
      exact (isAtomic_answer_of_onlyReads rfl).mono fun _ _ => trivial
  | createTask =>
      rw [answer]
      exact isAtomic_withTask fun task => isAtomic_respond (isAtomic_addTask task today)
  | updateTask =>
      rw [answer]
      exact isAtomic_withTask fun task => isAtomic_respond (isAtomic_updateTask task today)
  | deleteTask =>
      rw [answer]
      exact isAtomic_withTaskId fun rowId => isAtomic_respond (isAtomic_deleteTask rowId)
  | completeTask =>
      rw [answer]
      exact isAtomic_withTaskId fun rowId => isAtomic_respond (isAtomic_completeTask rowId today)

/-! ## Requests -/

/-- The methods that ask for no change. -/
def Request.IsSafe (request : Request) : Prop :=
  request.method = "GET" ∨ request.method = "HEAD"

theorem onlyReads_of_mem_routes :
    ∀ methods ∈ routes, ∀ endpoint ∈ methods.2.lookup "GET", endpoint.onlyReads = true := by
  decide

theorem onlyReads_of_route
    {path : String} {endpoint : Endpoint}
    (safe : request.IsSafe)
    (routed : route request.method path = .ok endpoint) :
    endpoint.onlyReads = true := by
  have asGet : (if request.method = "HEAD" then "GET" else request.method) = "GET" := by
    rcases safe with get | head
    · rw [get]
      rfl
    · exact if_pos head
  rw [route, asGet] at routed
  split at routed
  · cases routed
  · rename_i methods listed
    rcases List.lookup_eq_some_iff.1 listed with ⟨before, after, split, -⟩
    have member : (path, methods) ∈ routes := by
      rw [split]
      exact List.mem_append_right before List.mem_cons_self
    split at routed
    · cases routed
    · rename_i found offered
      cases routed
      exact onlyReads_of_mem_routes _ member endpoint offered

theorem handle_eq_of_route
    {endpoint : Endpoint}
    (routed : route request.method request.path = .ok endpoint) :
    handle taskLimit today request =
      (fun response => if request.method = "HEAD" then response.withoutBody else response) <$>
        answer taskLimit today request endpoint := by
  rw [handle, routed]
  rfl

theorem isAtomic_handle
    (atomic : ∀ endpoint, route request.method request.path = .ok endpoint →
      (answer taskLimit today request endpoint).IsAtomic failed)
    (bodiless : ∀ response : Response, failed response.withoutBody → failed response) :
    (handle taskLimit today request).IsAtomic failed := by
  cases routed : route request.method request.path with
  | error status =>
      rw [handle, routed]
      exact .done _
  | ok endpoint =>
      rw [handle_eq_of_route routed]
      refine (atomic endpoint routed).map fun response hasFailed => ?_
      split at hasFailed
      · exact bodiless response hasFailed
      · exact hasFailed

/-- A request that is refused, or whose method asks for no change, leaves the store as it is. -/
theorem run_handle_eq
    {faults : Faults} {store : Store}
    (noChange : ((handle taskLimit today request).run faults store).1.status ≠ 200 ∨
      request.IsSafe) :
    ((handle taskLimit today request).run faults store).2 = store := by
  rcases noChange with refused | safe
  · have atomic : (handle taskLimit today request).IsAtomic fun response =>
        response.status ≠ 200 :=
      isAtomic_handle (fun endpoint _ => isAtomic_answer endpoint) fun _ => id
    exact atomic.run faults store refused
  · have atomic : (handle taskLimit today request).IsAtomic fun _ => True := by
      refine isAtomic_handle ?_ fun _ _ => trivial
      intro endpoint routed
      exact isAtomic_answer_of_onlyReads (onlyReads_of_route safe routed)
    exact atomic.run faults store trivial

end Web

/--
On every store and under any faults, an operation that ends with an error
leaves all rows and the next id as they are.  So does a request whose response
has a status other than 200, and any `GET` or `HEAD` request.
-/
theorem failure_leaves_store :
    (∀ (action : Action) (faults : Faults) (store : Store) (cause : ScheduleError),
      (action.operation.run faults store).1 = .error cause →
        (action.operation.run faults store).2 = store) ∧
    (∀ (taskLimit : Nat) (today : Date) (request : Web.Request) (faults : Faults) (store : Store),
      ((Web.handle taskLimit today request).run faults store).1.status ≠ 200 ∨
          request.method = "GET" ∨ request.method = "HEAD" →
        ((Web.handle taskLimit today request).run faults store).2 = store) := by
  constructor
  · intro action faults store cause hasFailed
    exact run_eq_of_error hasFailed
  · intro taskLimit today request faults store noChange
    exact Web.run_handle_eq noChange

/-- A completion that finds no row for its update any more, and the request for it. -/
theorem failure_leaves_store_completion :
    let store : Store := ⟨[⟨1, { date := "20240126", title := "t", repeats := "d 7" }⟩], 2⟩
    let day : Date := ⟨2024, 1, 26, by decide⟩
    let faults : Faults := { update := some .missing }
    let request : Web.Request := { method := "POST", target := "/api/task/done?id=1" }
    let page : Web.Request := { method := "HEAD", target := "/api/tasks" }
    (((Action.complete 1 day).operation.run faults store).1 = .error (.taskNotFound 1) ∧
        ((Action.complete 1 day).operation.run faults store).2 = store) ∧
      (((Web.handle 50 day request).run faults store).1.status ≠ 200 ∧
        ((Web.handle 50 day request).run faults store).2 = store) ∧
      ((Web.handle 50 day page).run faults store).2 = store := by
  intro store day faults request page
  have hasFailed : ((Action.complete 1 day).operation.run faults store).1 =
      .error (.taskNotFound 1) := by
    decide +kernel
  have refused : ((Web.handle 50 day request).run faults store).1.status ≠ 200 := by
    decide +kernel
  refine ⟨⟨hasFailed, ?_⟩, ⟨refused, ?_⟩, ?_⟩
  · exact failure_leaves_store.1 _ _ _ _ hasFailed
  · exact failure_leaves_store.2 _ _ _ _ _ (.inl refused)
  · exact failure_leaves_store.2 _ _ _ _ _ (.inr (.inr rfl))

end Agenda
