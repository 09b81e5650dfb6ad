import Agenda.Proofs.Schedule.Failures
import Agenda.Proofs.Web.Atomicity

/-!
# Statuses of a healthy server

A server without faults, whose clock shows a year that a text can hold, never
answers 500, whatever it is asked and whatever is added to its store directly.
It answers 404 to a request that it has a route for exactly when the row that
the request asks for is missing.  The main statement is `serve_status`.
-/

namespace Agenda.Web

variable {taskLimit : Nat} {today : Date} {request : Request} {store : Store}

/-! ## What a request asks for -/

/-- The `id` parameter of a request is the text of an id. -/
def Request.NamesRow (request : Request) (rowId : Int) : Prop :=
  givenOnce request.parameters ["id"] = true ∧
    readTaskId ((valuesOf request.parameters "id").head?.getD "") = .ok rowId

/-- The body of a request is the document of a task. -/
def Request.Carries (request : Request) (task : Task) : Prop :=
  request.contentType.any isJsonMediaType = true ∧ Task.ofJsonFront request.body = .ok task

/--
The row that a request asks an endpoint for: the row of the `id` parameter, or
the row of the id field of a task that can be settled and stored.
-/
def Request.AsksFor (request : Request) (today : Date) (rowId : Int) : Endpoint → Prop
  | .getTask | .deleteTask | .completeTask => request.NamesRow rowId
  | .updateTask => ∃ task, request.Carries task ∧ readTaskId task.id = .ok rowId ∧
      ∃ settled, task.settle today = .ok settled ∧ settled.checkRecord = .ok ()
  | .health | .nextDate | .createTask | .listTasks => False

/-- A request asks an endpoint for one row at most. -/
theorem Request.AsksFor.unique
    {rowId other : Int} {endpoint : Endpoint}
    (first : request.AsksFor today rowId endpoint)
    (second : request.AsksFor today other endpoint) :
    rowId = other := by
  cases endpoint with
  | getTask | deleteTask | completeTask => exact Except.ok.inj (first.2.symm.trans second.2)
  | updateTask =>
      rcases first with ⟨task, carried, named, -⟩
      rcases second with ⟨same, carriedToo, namedToo, -⟩
      cases carried.2.symm.trans carriedToo.2
      exact Except.ok.inj (named.symm.trans namedToo)
  | health | nextDate | createTask | listTasks => exact first.elim

/-! ## Responses to requests that miss rows -/

/-- A response says that rows are missed, by 404 and the name of the row, and is never 500. -/
structure Response.Reports (missed : Int → Prop) (response : Response) : Prop where
  healthy : response.status ≠ 500
  missing : response.status = 404 → ∃ rowId, missed rowId
  names : ∀ rowId, missed rowId →
    response = .failure 404 (ScheduleError.taskNotFound rowId).message

namespace Response.Reports

variable {missed : Int → Prop} {response : Response}

/-- A response to a request that misses nothing. -/
theorem plain
    (nothing : ∀ rowId, ¬ missed rowId)
    (status : response.status = 200 ∨ response.status = 400) :
    response.Reports missed := by
  refine ⟨?_, ?_, fun rowId misses => (nothing rowId misses).elim⟩
  · rcases status with success | refused <;> omega
  · intro notFound
    rcases status with success | refused <;> omega

theorem congr
    {other : Int → Prop}
    (reports : response.Reports missed)
    (same : ∀ rowId, missed rowId ↔ other rowId) :
    response.Reports other := by
  rwa [← funext fun rowId => propext (same rowId)]

end Response.Reports

end Agenda.Web
