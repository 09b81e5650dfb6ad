import Agenda.Calendar.Date
import Agenda.Rule.Text

/-!
# Tasks

All fields of a task are texts, as they are exchanged and stored: the date is
wire text, the repeat field is rule text, blank for a task that is done once,
and the id is empty until a store assigns one.  An `Entry` is a task without
its id.
-/

namespace Agenda

/-- What a task says. -/
structure Entry where
  date : String := ""
  title : String := ""
  comment : String := ""
  repeats : String := ""
  deriving DecidableEq, Inhabited

/-- An entry with the text of its id. -/
structure Task extends Entry where
  id : String := ""
  deriving DecidableEq, Inhabited

namespace Entry

/-- Whether the entry has a repeat rule. -/
def isRecurring (entry : Entry) : Bool :=
  !Text.isBlank entry.repeats

/-- The repeat rule, none for a task that is done once. -/
def rule (entry : Entry) : Except RuleError (Option Rule) :=
  if entry.isRecurring then (Rule.ofText entry.repeats).map some else .ok none

end Entry

/-!
## Validation

The checks of a task that do not depend on the current day, in the order
title, date, repeat rule.  The date may be empty, since scheduling fills it in.
-/

/-- Why a task or the text of an id is refused. -/
inductive ValidationError where
  | missingTitle
  | missingId
  /-- The trimmed text of an id that is no integer. -/
  | invalidId (text : String)
  | date (cause : DateError)
  | rule (text : String) (cause : RuleError)
  deriving DecidableEq

/-- The wording of a validation error. -/
def ValidationError.message : ValidationError → String
  | .missingTitle => "task title is required"
  | .missingId => "task id is required"
  | .invalidId text => s!"task id '{text}' must be a number"
  | .date cause => cause.message
  | .rule text cause => s!"invalid repeat rule '{text}': {cause.message}"

/-- Checks the title, then the date if there is one, then the rule if there is one. -/
def Entry.validate (entry : Entry) : Except ValidationError Unit := do
  if Text.isBlank entry.title then throw .missingTitle
  if entry.date ≠ "" then
    let _ ← (Date.ofWireText entry.date).mapError .date
  if entry.isRecurring then
    let _ ← (Rule.ofText entry.repeats).mapError (.rule entry.repeats)

/-- Reads the id of a task, with blanks around it allowed. -/
def readTaskId (text : String) : Except ValidationError Int :=
  let trimmed := Text.trim text
  if trimmed = "" then .error .missingId
  else
    match Text.readInt? trimmed with
    | some id => .ok id
    | none => .error (.invalidId trimmed)

end Agenda
