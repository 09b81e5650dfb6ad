import Agenda.Json.Quoted
import Agenda.Json.Skip
import Agenda.Task.Basic

/-!
# Tasks as JSON documents

A task is written as an object with five string members.  It is read from an
object, whose members may come in any order and be missing, or from a list of
strings in the order of the written members.  Members with other keys are
passed over; a member that is given twice is refused.
-/

namespace Agenda

/-- The fields of a task. -/
inductive TaskField where
  | id
  | date
  | title
  | comment
  | repeats
  deriving DecidableEq

namespace TaskField

/-- The fields in the order in which they are written. -/
def all : List TaskField :=
  [.id, .date, .title, .comment, .repeats]

/-- The key of a field in a document. -/
def key : TaskField → String
  | .id => "id"
  | .date => "date"
  | .title => "title"
  | .comment => "comment"
  | .repeats => "repeat"

/-- The field with a key. -/
def ofKey? (key : String) : Option TaskField :=
  all.find? (·.key = key)

/-- The text of a field. -/
def get (task : Task) : TaskField → String
  | .id => task.id
  | .date => task.date
  | .title => task.title
  | .comment => task.comment
  | .repeats => task.repeats

end TaskField

namespace Task

/-- The document of a task. -/
def toJson (task : Task) : Json.Value :=
  .object (TaskField.all.map fun field => (field.key, .string (field.get task)))

end Task

/-- The fields of a task that have been read, each with its text. -/
abbrev TaskDraft := List (TaskField × String)

namespace TaskDraft

/-- The text of a field, empty if it has not been read. -/
def text (draft : TaskDraft) (field : TaskField) : String :=
  (draft.lookup field).getD ""

/-- The task of the fields that have been read. -/
def task (draft : TaskDraft) : Task where
  id := draft.text .id
  date := draft.text .date
  title := draft.text .title
  comment := draft.text .comment
  repeats := draft.text .repeats

end TaskDraft

namespace TaskDocument

open Json (Token Error)

/-- Reads the value of a field, which must be a string. -/
def readText : List Token → Except Error (String × List Token)
  | [] => .error .endOfText
  | .quoted text _ :: rest => return (← text, rest)
  | .scalar read _ :: _ => read.bind fun () => .error .mismatch
  | .openList :: _ => .error .mismatch
  | .openObject :: _ => .error .mismatch
  | _ => .error .malformed

/-- Passes over a colon. -/
def readColon : List Token → Except Error (List Token)
  | [] => .error .endOfText
  | .colon :: rest => .ok rest
  | _ => .error .malformed

/-- Reads a member after its key onto the fields before it. -/
def readMember (draft : TaskDraft) (key : String) (tokens : List Token) :
    Except Error (TaskDraft × List Token) :=
  match TaskField.ofKey? key with
  | some field =>
    if (draft.lookup field).isSome then .error .mismatch
    else do
      let (text, rest) ← readText (← readColon tokens)
      return ((field, text) :: draft, rest)
  | none => do
    let rest ← Json.skipValue (← readColon tokens)
    return (draft, rest)

theorem length_lt_of_readText {tokens rest : List Token} {text : String}
    (found : readText tokens = .ok (text, rest)) : rest.length < tokens.length := by
  unfold readText at found
  split at found
  case h_2 text _ _ =>
    cases text <;> simp_all [bind, Except.bind, pure, Except.pure]
  case h_3 read _ _ =>
    cases read <;> simp [Except.bind] at found
  all_goals simp at found

theorem length_lt_of_readColon {tokens rest : List Token}
    (found : readColon tokens = .ok rest) : rest.length < tokens.length := by
  unfold readColon at found
  split at found <;> simp_all

theorem length_le_of_readMember {draft longer : TaskDraft} {key : String}
    {tokens rest : List Token} (found : readMember draft key tokens = .ok (longer, rest)) :
    rest.length ≤ tokens.length := by
  unfold readMember at found
  split at found
  · split at found
    · cases found
    · obtain ⟨afterColon, colon, found⟩ := exists_of_bind_eq_ok found
      obtain ⟨result, text, found⟩ := exists_of_bind_eq_ok found
      have first := length_lt_of_readColon colon
      have second := length_lt_of_readText text
      cases found
      omega
  · obtain ⟨afterColon, colon, found⟩ := exists_of_bind_eq_ok found
    obtain ⟨result, skipped, found⟩ := exists_of_bind_eq_ok found
    have first := length_lt_of_readColon colon
    have second := Json.length_le_of_skipValue skipped
    cases found
    omega

/-- Reads the rest of an object after a member. -/
def readMembers (draft : TaskDraft) (tokens : List Token) :
    Except Error (TaskDraft × List Token) :=
  match tokens with
  | [] => .error .endOfText
  | .closeObject :: rest => .ok (draft, rest)
  | [.comma] => .error .endOfText
  | .comma :: .quoted key _ :: rest =>
    match key with
    | .error error => .error error
    | .ok key =>
      match found : readMember draft key rest with
      | .error error => .error error
      | .ok (longer, rest) =>
        have := length_le_of_readMember found
        readMembers longer rest
  | _ => .error .malformed
termination_by tokens.length

/-- Reads an object after its opening bracket. -/
def readObject : List Token → Except Error (TaskDraft × List Token)
  | [] => .error .endOfText
  | .closeObject :: rest => .ok ([], rest)
  | .quoted key _ :: rest => do
    let (draft, rest) ← readMember [] (← key) rest
    readMembers draft rest
  | _ => .error .malformed

/-- Reads the rest of a list whose next items belong to the given fields. -/
def readItems (draft : TaskDraft) : List TaskField → List Token →
    Except Error (TaskDraft × List Token)
  | _, [] => .error .endOfText
  | _, .closeList :: rest => .ok (draft, rest)
  | field :: later, .comma :: tokens => do
    let (text, rest) ← readText tokens
    readItems ((field, text) :: draft) later rest
  | _, _ => .error .malformed

/-- Reads a list after its opening bracket. -/
def readList : List Token → Except Error (TaskDraft × List Token)
  | .closeList :: rest => .ok ([], rest)
  | tokens => do
    let (text, rest) ← readText tokens
    readItems [(.id, text)] [.date, .title, .comment, .repeats] rest

/-- Reads the document at the front of the tokens. -/
def readDraft : List Token → Except Error (TaskDraft × List Token)
  | .openObject :: rest => readObject rest
  | .openList :: rest => readList rest
  | tokens => (readText tokens).bind fun _ => .error .mismatch

end TaskDocument

namespace Task

/-- Reads the task at the front of a text and passes no judgement on what follows. -/
def ofJsonFront (text : String) : Except Json.Error Task :=
  (TaskDocument.readDraft (Json.tokens text)).map fun (draft, _) => draft.task

/-- Reads the task that is the whole of a text. -/
def ofJson (text : String) : Except Json.Error Task := do
  let (draft, rest) ← TaskDocument.readDraft (Json.tokens text)
  if rest.isEmpty then return draft.task else .error .malformed

end Task

end Agenda
