import Agenda.Console.Session
import Agenda.Store.Snapshot
import Std.Time

/-!
# The console program

Runs a session on standard input and output, on the current day of the clock,
with the store in a file.  The file is written anew whenever a line has
changed the store.
-/

open Agenda

namespace Agenda.Console

/-- The current day. -/
def currentDay : IO Date := do
  let now ← Std.Time.PlainDate.now
  match Date.ofYmd? now.year.toInt now.month.val.toNat now.day.val.toNat with
  | some date => return date
  | none => throw (IO.userError "the clock is outside the calendar")

/-- The text of a file, empty if there is no such file. -/
def readFileOrEmpty (path : String) : IO String := do
  try IO.FS.readFile path
  catch
    | .noFileOrDirectory .. => return ""
    | error => throw error

/-- Takes lines until one ends the session or the input ends. -/
partial def runSession (settings : Settings) (store : Store) : IO Unit := do
  let output ← IO.getStdout
  output.putStr prompt
  output.flush
  let line ← (← IO.getStdin).getLine
  if line = "" then return
  match takeLine settings.taskLimit (← currentDay) store line with
  | .quit => return
  | .next text changed =>
    output.putStr text
    if changed ≠ store then IO.FS.writeFile settings.storeFile (Snapshot.write changed)
    runSession settings changed

end Agenda.Console

/-- Reads the settings and the store, and runs a session. -/
def main : IO UInt32 := do
  let names := ["TODO_PORT", "TODO_DBFILE", "TODO_TASK_LIMIT"]
  let values ← names.mapM fun name => do return (name, ← IO.getEnv name)
  match Settings.read fun name => (values.lookup name).join with
  | .error error =>
    IO.eprintln ("Error: " ++ error.message)
    return 1
  | .ok settings =>
    match Snapshot.read? (← Console.readFileOrEmpty settings.storeFile) with
    | none =>
      IO.eprintln ("Error: " ++ settings.storeFile ++ " is no store")
      return 1
    | some store =>
      IO.print Console.banner
      Console.runSession settings store
      return 0
