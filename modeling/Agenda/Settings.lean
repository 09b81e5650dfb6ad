import Agenda.Text.Basic

/-!
# Settings

The port, the store file and the size of a page, read from named variables.
A variable that is unset or blank leaves its default.
-/

namespace Agenda

/-- The settings of a process. -/
structure Settings where
  port : Nat := 7540
  storeFile : String := "scheduler.db"
  taskLimit : Nat := 50
  deriving DecidableEq

/-- Why a variable is refused. -/
inductive SettingsError where
  | invalidPort (value : String)
  | invalidTaskLimit (value : String)
  deriving DecidableEq

/-- The wording of a settings error. -/
def SettingsError.message : SettingsError → String
  | .invalidPort value => s!"TODO_PORT must be a port number, got '{value}'"
  | .invalidTaskLimit value => s!"TODO_TASK_LIMIT must be a positive integer, got '{value}'"

/-- The size of a page: a positive integer of 64 bits, with blanks around it allowed. -/
def readTaskLimit? (text : String) : Option Nat :=
  (Text.readNat? Text.maxNat64 (Text.trim text)).filter (0 < ·)

namespace Settings

/-- The settings without any variable. -/
def default : Settings := {}

/-- Reads the settings from a lookup of variables. -/
def read (lookup : String → Option String) : Except SettingsError Settings := do
  let value? (name : String) := (lookup name).filter fun value => !Text.isBlank value
  let port ←
    match value? "TODO_PORT" with
    | none => pure default.port
    | some value =>
      match Text.readNat? 65535 (Text.trim value) with
      | some port => pure port
      | none => throw (.invalidPort value)
  let storeFile := (value? "TODO_DBFILE").getD default.storeFile
  let taskLimit ←
    match value? "TODO_TASK_LIMIT" with
    | none => pure default.taskLimit
    | some value =>
      match readTaskLimit? value with
      | some limit => pure limit
      | none => throw (.invalidTaskLimit value)
  return { port, storeFile, taskLimit }

/-- The address that a server listens on: every interface, at the port. -/
def listenAddress (settings : Settings) : String :=
  "0.0.0.0:" ++ toString settings.port

end Settings

end Agenda
