import Agenda.Schedule.Operation
import Agenda.Settings

/-!
# Console sessions

A session prints a banner and then, for every line of its input, a prompt and
the answer to the line.  It ends at a line that asks for it, or with a last
prompt at the end of the input.  All it keeps from line to line is the store.
-/

namespace Agenda.Console

/-!
## Tables of tasks

A table has a column for each field of a task.  A column is as wide as its
longest cell, counted in characters, and cells are filled up with spaces.
-/

/-- The headings of the columns. -/
def headings : List String :=
  ["id", "date", "title", "comment", "repeat"]

/-- The cells of a task, in the order of the headings. -/
def cells (task : Task) : List String :=
  [task.id, task.date, task.title, task.comment, task.repeats]

/-- The widths that hold every cell of some rows. -/
def columnWidths (rows : List (List String)) : List Nat :=
  rows.foldl (fun widths row => widths.zipWith max (row.map String.length))
    (headings.map String.length)

/-- A number of equal characters. -/
def repeated (char : Char) (count : Nat) : String :=
  String.ofList (List.replicate count char)

/-- The line between the headings and the rows, and at the two ends. -/
def ruler (widths : List Nat) : String :=
  "+" ++ String.join (widths.map fun width => repeated '-' (width + 2) ++ "+")

/-- A cell, filled up to the width of its column, with its border. -/
def cellText (width : Nat) (cell : String) : String :=
  " " ++ cell ++ repeated ' ' (width - cell.length) ++ " |"

/-- A row of cells. -/
def rowText (widths : List Nat) (row : List String) : String :=
  "|" ++ String.join (widths.zipWith cellText row)

/-- The lines of a table. -/
def tableLines (tasks : List Task) : List String :=
  let rows := tasks.map cells
  let widths := columnWidths rows
  [ruler widths, rowText widths headings, ruler widths] ++ rows.map (rowText widths) ++
    [ruler widths]

/-- A table, with a line break after each line. -/
def tableText (tasks : List Task) : String :=
  String.join ((tableLines tasks).map (· ++ "\n"))

/-!
## Commands

A line of words is a command.  Every command but the two that end a session is
a script of store calls that ends with the text to print.
-/

/-- A text as a line of output. -/
def printed (text : String) : String :=
  text ++ "\n"

/-- The answer to `help`. -/
def helpText : String :=
  "Commands:\n" ++
  "  help                               Show this help\n" ++
  "  next <now> <date> <rule...>        Next occurrence of <rule> anchored at <date> after <now> (YYYYMMDD, - for today)\n" ++
  "  check <rule...>                    Validate a repeat rule\n" ++
  "  add <date|-> <title> [rule...]     Add a task ('-' for today)\n" ++
  "  list                               Show upcoming tasks\n" ++
  "  done <id>                          Complete a task (one-shot tasks are removed)\n" ++
  "  delete <id>                        Delete a task\n" ++
  "  quit|exit                          Exit\n\n" ++
  "Rules: d <1-400> | y | w <1-7,...> | m <days> [<months>]"

/-- The day of a word, where `-` is today. -/
def readDay (today : Date) (word : String) : Except DateError Date :=
  if word = "-" then .ok today else Date.ofWireText word

/-- The answer to `next`. -/
def nextText (today : Date) : List String → String
  | now :: date :: rule =>
    match readDay today now with
    | .error error => "Error: " ++ error.message
    | .ok now =>
      match previewDate now date (" ".intercalate rule) with
      | .ok next => "Next date: " ++ next
      | .error error => "Error: " ++ error.message
  | _ => "Usage: next <now> <date> <rule...>"

/-- The answer to `check`. -/
def checkText (words : List String) : String :=
  match Rule.ofText (" ".intercalate words) with
  | .ok rule => "Rule OK: " ++ rule.text
  | .error error => "Invalid rule: " ++ error.message

/-- Adds a task and fetches it to print its date. -/
def runAdd (today : Date) : List String → Script String
  | date :: title :: rule => do
    let date := if date = "-" then "" else date
    match ← ExceptT.run (addTask { title, date, repeats := " ".intercalate rule } today) with
    | .error error => return "Error adding task: " ++ error.message
    | .ok id =>
      match ← ExceptT.run (Operation.get id) with
      | .ok (some task) => return s!"Added task {id} on {task.date}."
      | .ok none => return s!"Added task {id}."
      | .error error => return "Error reading task: " ++ error.message
  | _ => return "Usage: add <date|-> <title> [rule...]"

/-- Prints the first tasks as a table. -/
def runList (taskLimit : Nat) : Script String := do
  match ← ExceptT.run (Operation.list taskLimit) with
  | .ok tasks => return tableText tasks
  | .error error => return "Error listing tasks: " ++ error.message

/-- Runs a command on the id in its first word. -/
def withId (usage : String) (words : List String) (run : Int → Script String) :
    Script String :=
  match words with
  | [] => return "Usage: " ++ usage
  | word :: _ =>
    match Text.readInt? word with
    | some id => run id
    | none => return "Invalid id"

/-- Completes a task. -/
def runDone (today : Date) (id : Int) : Script String := do
  match ← ExceptT.run (completeTask id today) with
  | .ok .removed => return s!"Task {id} done and removed."
  | .ok (.rescheduled date) => return s!"Task {id} moved to {date}."
  | .error error => return "Error completing task: " ++ error.message

/-- Deletes a task. -/
def runDelete (id : Int) : Script String := do
  match ← ExceptT.run (deleteTask id) with
  | .ok () => return s!"Deleted task {id}."
  | .error error => return "Error deleting task: " ++ error.message

/-- Whether a word ends the session. -/
def isQuit (command : String) : Bool :=
  command = "quit" || command = "exit"

/-- Runs a command that does not end the session. -/
def runCommand (taskLimit : Nat) (today : Date) (command : String) (words : List String) :
    Script String :=
  match command with
  | "help" => return helpText
  | "next" => return nextText today words
  | "check" => return checkText words
  | "add" => runAdd today words
  | "list" => runList taskLimit
  | "done" => withId "done <id>" words (runDone today)
  | "delete" => withId "delete <id>" words runDelete
  | _ => return "Unknown command. Type 'help'."

/-! ## Sessions -/

/-- What a session prints first. -/
def banner : String :=
  "Task Scheduler (CLI) - type 'help' for commands\n\n"

/-- What stands before every answer. -/
def prompt : String := "> "

/-- What a line does to a session. -/
inductive Step where
  /-- The session ends. -/
  | quit
  /-- The session prints an output and goes on with a store. -/
  | next (output : String) (store : Store)

/-- Takes one line; a blank line prints nothing. -/
def takeLine (taskLimit : Nat) (today : Date) (store : Store) (line : String) : Step :=
  match Text.words line with
  | [] => .next "" store
  | command :: words =>
    if isQuit command then .quit
    else
      let (text, changed) := (runCommand taskLimit today command words).run {} store
      .next (printed text) changed

/-- The lines of an input; text after the last line break is a line too. -/
def lines (input : String) : List String :=
  let pieces := input.toList.splitOn '\n'
  (if pieces.getLast? = some [] then pieces.dropLast else pieces).map String.ofList

/-- Prints a prompt and an answer for each line. -/
def takeLines (taskLimit : Nat) (today : Date) (store : Store) : List String → String × Store
  | [] => (prompt, store)
  | line :: later =>
    match takeLine taskLimit today store line with
    | .quit => (prompt, store)
    | .next output changed =>
      let (rest, final) := takeLines taskLimit today changed later
      (prompt ++ output ++ rest, final)

/-- The outcome of a session. -/
structure Outcome where
  exitCode : Nat
  output : String
  store : Store

/-- Runs a session; settings that cannot be read end it before it prints anything. -/
def run (lookup : String → Option String) (today : Date) (store : Store) (input : String) :
    Outcome :=
  match Settings.read lookup with
  | .error _ => ⟨1, "", store⟩
  | .ok settings =>
    let (output, final) := takeLines settings.taskLimit today store (lines input)
    ⟨0, banner ++ output, final⟩

end Agenda.Console
