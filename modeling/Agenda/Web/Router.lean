import Agenda.Schedule.Operation
import Agenda.Settings
import Agenda.Task.Document
import Agenda.Web.Message

/-!
# Routes

Every route is a script of store calls that ends with a response.  Paths are
matched as they are written.  A `HEAD` request runs the route of `GET` and
drops the body; a path without the method is answered with 405 and an unknown
path with 404, both without a body.

The answer to a query string that is refused (`withParameters`) leaves out the
detail that follows its general wording and names the parameter.
-/

namespace Agenda.Web

/-- What can be asked for. -/
inductive Endpoint where
  | health
  | nextDate
  | getTask
  | createTask
  | updateTask
  | deleteTask
  | listTasks
  | completeTask
  deriving DecidableEq

/-- The methods of each path. -/
def routes : List (String × List (String × Endpoint)) :=
  [("/health", [("GET", .health)]),
   ("/api/nextdate", [("GET", .nextDate)]),
   ("/api/task",
    [("GET", .getTask), ("POST", .createTask), ("PUT", .updateTask), ("DELETE", .deleteTask)]),
   ("/api/tasks", [("GET", .listTasks)]),
   ("/api/task/done", [("POST", .completeTask)])]

/-- What a request asks for, or the status that refuses it. -/
def route (method path : String) : Except Nat Endpoint :=
  match routes.lookup path with
  | none => .error 404
  | some methods =>
    match methods.lookup (if method = "HEAD" then "GET" else method) with
    | none => .error 405
    | some endpoint => .ok endpoint

/-- The values of parameters that may each be given once. -/
def withParameters (request : Request) (keys : List String)
    (answer : (String → Option String) → Script Response) : Script Response :=
  if givenOnce request.parameters keys then
    answer fun key => (valuesOf request.parameters key).head?
  else .done ⟨400, .text "Failed to deserialize query string"⟩

/-- The task in the body of a request. -/
def withTask (request : Request) (answer : Task → Script Response) : Script Response :=
  if request.contentType.any isJsonMediaType then
    match Task.ofJsonFront request.body with
    | .ok task => answer task
    | .error error => .done (.failure 400 (payloadMessage error))
  else .done (.failure 400 missingMediaTypeMessage)

/-- The id in the parameter `id`. -/
def withTaskId (request : Request) (answer : Int → Script Response) : Script Response :=
  withParameters request ["id"] fun parameter =>
    match readTaskId ((parameter "id").getD "") with
    | .ok id => answer id
    | .error error => .done (.failure 400 error.message)

/-- Answers with the result of an operation, or with its error. -/
def respond {α : Type} (operation : Operation α) (document : α → Json.Value) :
    Script Response := do
  match ← ExceptT.run operation with
  | .ok result => return .success (document result)
  | .error error => return .ofError error

/-- Answers with a date as plain text. -/
def nextDateResponse (parameter : String → Option String) : Response :=
  let value (key : String) := (parameter key).getD ""
  match Date.ofWireText (value "now") with
  | .error error => ⟨400, .text ("invalid now: " ++ error.message)⟩
  | .ok now =>
    match previewDate now (value "date") (value "repeat") with
    | .ok date => ⟨200, .text date⟩
    | .error error => ⟨400, .text error.message⟩

/-- The size of the page that is asked for; a blank one leaves the default. -/
def pageSize (taskLimit : Nat) (limit : Option String) : Except Response Nat :=
  let text := Text.trim (limit.getD "")
  if text = "" then .ok taskLimit
  else
    match readTaskLimit? text with
    | some limit => .ok limit
    | none => .error (.failure 400 ("invalid limit '" ++ text ++ "'"))

/-- The document of a page of tasks. -/
def tasksJson (tasks : List Task) : Json.Value :=
  .object [("tasks", .list (tasks.map Task.toJson))]

/-- The script of an endpoint. -/
def answer (taskLimit : Nat) (today : Date) (request : Request) : Endpoint → Script Response
  | .health => .done (.success (.object [("status", .string "ok")]))
  | .nextDate =>
    withParameters request ["now", "date", "repeat"] fun parameter =>
      .done (nextDateResponse parameter)
  | .getTask => withTaskId request fun id => respond (getTask id) Task.toJson
  | .createTask =>
    withTask request fun task =>
      respond (addTask task today) fun id => .object [("id", .string (toString id))]
  | .updateTask =>
    withTask request fun task => respond (updateTask task today) fun () => .object []
  | .deleteTask => withTaskId request fun id => respond (deleteTask id) fun () => .object []
  | .listTasks =>
    withParameters request ["limit"] fun parameter =>
      match pageSize taskLimit (parameter "limit") with
      | .ok limit => respond (Operation.list limit) tasksJson
      | .error response => .done response
  | .completeTask =>
    withTaskId request fun id => respond (completeTask id today) fun _ => .object []

/-- The script that answers a request on a day, with a default for the size of a page. -/
def handle (taskLimit : Nat) (today : Date) (request : Request) : Script Response := do
  match route request.method request.path with
  | .error status => return ⟨status, .text ""⟩
  | .ok endpoint =>
    let response ← answer taskLimit today request endpoint
    return if request.method = "HEAD" then response.withoutBody else response

end Agenda.Web
