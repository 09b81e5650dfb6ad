import Agenda.Json.Quoted
import Agenda.Schedule.Operation
import Agenda.Text.Basic

/-!
# Requests and responses

A request gives the parameters of its query string and a body with a media
type.  A response carries a status and a body, JSON or plain text.  Errors of
the schedule become responses by their kind: a missing task is 404, a failing
store or a rule that leaves the calendar is 500, and all else is 400.

Three things are left out.  A body is a text, so there is no refusal of octets
that are no UTF-8; it may have any length, without the limit of 2 MiB that a
server sets for JSON; and what refuses a body ends with its general wording
(`payloadMessage`), without the detail that names the place of the fault.
-/

namespace Agenda.Web

/-!
## Query strings

A query string is a list of parameters with `&` between them, each a key and,
after the first `=`, a value.  In both, `+` is a space and `%` with two
hexadecimal digits an octet; the octets are read as UTF-8.  A query gives the
parameters that are asked for, each at most once, and ignores the others.
-/

/-- The octets of a text, with each percent escape replaced by its octet. -/
def percentOctets : List Char → List UInt8
  | [] => []
  | '%' :: high :: low :: rest =>
    match Json.hexValue? high, Json.hexValue? low with
    | some highValue, some lowValue =>
      UInt8.ofNat (highValue * 16 + lowValue) :: percentOctets rest
    | _, _ => String.utf8EncodeChar '%' ++ percentOctets (high :: low :: rest)
  | '+' :: rest => String.utf8EncodeChar ' ' ++ percentOctets rest
  | char :: rest => String.utf8EncodeChar char ++ percentOctets rest

/-- The text of a key or a value. -/
def decodeComponent (component : List Char) : String :=
  Text.decodeUtf8 (percentOctets component)

/-- The key and value of a parameter; without `=` the value is empty. -/
def decodeParameter (parameter : List Char) : String × String :=
  let key := parameter.takeWhile (· ≠ '=')
  let value := (parameter.dropWhile (· ≠ '=')).drop 1
  (decodeComponent key, decodeComponent value)

/-- The parameters of a query string; nothing between two `&` is no parameter. -/
def decodeQuery (query : String) : List (String × String) :=
  ((query.toList.splitOn '&').filter (· ≠ [])).map decodeParameter

/-- The values of a parameter. -/
def valuesOf (parameters : List (String × String)) (key : String) : List String :=
  (parameters.filter (·.1 = key)).map (·.2)

/-- Whether each of some keys is given at most once. -/
def givenOnce (parameters : List (String × String)) (keys : List String) : Bool :=
  keys.all fun key => (valuesOf parameters key).length ≤ 1

/-!
## Media types

A media type is a type and a subtype with `/` between them, and parameters
after `;`.  What follows the last `+` of a subtype is its suffix.  A body is
taken as JSON if its type is `application` and its subtype, without the
suffix, or its suffix is `json`, in any case of letters.
-/

/-- The characters of a token. -/
def isTokenChar (char : Char) : Bool :=
  char.isAlphanum || "!#$&-^_.+%*'|~\x60".toList.contains char

/-- The characters of a value between quotes. -/
def isQuotedChar (char : Char) : Bool :=
  ' ' ≤ char && char ≤ '~'

/-- A place in the parameters of a media type. -/
inductive ParameterPlace where
  /-- Before the name of a parameter, where there may be spaces, or none may follow. -/
  | beforeName
  | inName
  /-- After the `=`. -/
  | beforeValue
  | inValue
  /-- After an opening quote; the next character is part of the value whatever it is. -/
  | afterOpeningQuote
  | inQuotes
  /-- After a closing quote, where there may be spaces. -/
  | afterClosingQuote
  deriving DecidableEq

namespace ParameterPlace

/-- The place after one more character. -/
def next? : ParameterPlace → Char → Option ParameterPlace
  | .beforeName, char =>
    if char = ' ' then some .beforeName else if isTokenChar char then some .inName else none
  | .inName, char =>
    if char = '=' then some .beforeValue else if isTokenChar char then some .inName else none
  | .beforeValue, char =>
    if char = '"' then some .afterOpeningQuote
    else if isTokenChar char then some .inValue else none
  | .inValue, char =>
    if char = ';' then some .beforeName else if isTokenChar char then some .inValue else none
  | .afterOpeningQuote, char => if isQuotedChar char then some .inQuotes else none
  | .inQuotes, char =>
    if char = '"' then some .afterClosingQuote
    else if isQuotedChar char then some .inQuotes else none
  | .afterClosingQuote, char =>
    if char = ';' then some .beforeName
    else if char = ' ' then some .afterClosingQuote else none

/-- The places where parameters may end. -/
def mayEnd : ParameterPlace → Bool
  | .beforeName | .beforeValue | .inValue | .afterClosingQuote => true
  | .inName | .afterOpeningQuote | .inQuotes => false

end ParameterPlace

/-- Whether a text after a subtype is empty or a list of parameters. -/
def areParameters : List Char → Bool
  | [] => true
  | ';' :: text => (text.foldlM ParameterPlace.next? .beforeName).any ParameterPlace.mayEnd
  | _ => false

/-- A subtype without its suffix, and the suffix; a `+` at the start begins no suffix. -/
def splitSuffix (subtype : List Char) : List Char × Option (List Char) :=
  let suffix := (subtype.reverse.takeWhile (· ≠ '+')).reverse
  let front := subtype.take (subtype.length - suffix.length - 1)
  if front.isEmpty then (subtype, none) else (front, some suffix)

/-- Whether a text is a word, in any case of letters. -/
def isWord (word : String) (text : List Char) : Bool :=
  text.map Char.toLower = word.toList

/-- Whether a media type says that a body is JSON. -/
def isJsonMediaType (mediaType : String) : Bool :=
  let text := mediaType.toList
  match text.dropWhile isTokenChar with
  | '/' :: rest =>
    let (subtype, suffix) := splitSuffix (rest.takeWhile isTokenChar)
    isWord "application" (text.takeWhile isTokenChar) &&
      (isWord "json" subtype || suffix.any (isWord "json")) &&
      areParameters (rest.dropWhile isTokenChar)
  | _ => false

/-! ## Messages -/

/-- A request: its target is a path with an optional query string and fragment. -/
structure Request where
  method : String
  target : String
  contentType : Option String := none
  body : String := ""

namespace Request

/-- The target without its fragment. -/
def resource (request : Request) : List Char :=
  request.target.toList.takeWhile (· ≠ '#')

/-- The path of the target. -/
def path (request : Request) : String :=
  String.ofList (request.resource.takeWhile (· ≠ '?'))

/-- The parameters of the query string. -/
def parameters (request : Request) : List (String × String) :=
  decodeQuery (String.ofList ((request.resource.dropWhile (· ≠ '?')).drop 1))

end Request

/-- The body of a response. -/
inductive Body where
  | json (value : Json.Value)
  | text (content : String)

/-- The answer to a request. -/
structure Response where
  status : Nat
  body : Body

namespace Response

/-- A success with a JSON body. -/
def success (value : Json.Value) : Response :=
  ⟨200, .json value⟩

/-- A failure with a JSON body that holds its wording. -/
def failure (status : Nat) (message : String) : Response :=
  ⟨status, .json (.object [("error", .string message)])⟩

/-- The response to an error of the schedule. -/
def ofError : ScheduleError → Response
  | .taskNotFound id => failure 404 (ScheduleError.taskNotFound id).message
  | .store (.invalidData message) => failure 400 message
  | .store (.backend _) => failure 500 "task storage failed"
  | .occurrence (.unreachable rule now) =>
    failure 500 (OccurrenceError.unreachable rule now).message
  | error => failure 400 error.message

/-- The response without its body. -/
def withoutBody (response : Response) : Response :=
  { response with body := .text "" }

end Response

/-- The wording of a fault in the body of a request. -/
def payloadMessage : Json.Error → String
  | .endOfText | .malformed =>
    "invalid JSON payload: Failed to parse the request body as JSON"
  | .mismatch =>
    "invalid JSON payload: Failed to deserialize the JSON body into the target type"

/-- The wording for a body that is not marked as JSON. -/
def missingMediaTypeMessage : String :=
  "invalid JSON payload: Expected request with \x60Content-Type: application/json\x60"

end Agenda.Web
