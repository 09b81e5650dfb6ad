import Agenda.Console.Session
import Agenda.Store.Snapshot

/-!
# Sessions that are cut

A session keeps nothing but its store, so a script of complete lines that does
not end the session may be run on its own, and what follows it in a session on
the store that is opened again.  The rows, the next id and the output are those
of one session, but for a prompt and a banner where it is cut.  A line that
ends the session hides all lines after it.  The main statement is
`session_cut_anywhere`.
-/

namespace Agenda.Console

/-! ## Lines of a text -/

/-- A text of complete lines is empty or ends with a line break. -/
def IsTerminated (text : String) : Prop :=
  text = "" ∨ text.toList.getLast? = some '\n'

/-- A line break ends one line, and the lines after it are those of the rest. -/
theorem lines_break
    (chars rest : List Char) :
    lines (String.ofList (chars ++ '\n' :: rest)) =
      (chars.splitOn '\n').map String.ofList ++ lines (String.ofList rest) := by
  have split : (chars ++ '\n' :: rest).splitOn '\n' =
      chars.splitOn '\n' ++ rest.splitOn '\n' := by
    simp only [List.splitOn_eq_splitOnP]
    exact List.splitOnP_append_cons chars rest (by decide)
  have nonempty : rest.splitOn '\n' ≠ [] := List.splitOn_ne_nil _ _
  simp only [lines, String.toList_ofList, split]
  rw [List.getLast?_append, List.getLast?_eq_some_getLast nonempty, Option.some_or,
    List.dropLast_append_of_ne_nil nonempty, ← List.map_append]
  split <;> rfl

theorem lines_append
    {first : String}
    (complete : IsTerminated first)
    (second : String) :
    lines (first ++ second) = lines first ++ lines second := by
  rcases complete with rfl | broken
  · rw [String.empty_append]
    rfl
  · rcases List.getLast?_eq_some_iff.1 broken with ⟨chars, ends⟩
    have alone := lines_break chars []
    have followed := lines_break chars second.toList
    rw [← ends, String.ofList_toList] at alone
    rw [← List.singleton_append, ← List.append_assoc, ← ends, ← String.toList_append,
      String.ofList_toList, String.ofList_toList] at followed
    rw [followed, alone, show lines (String.ofList []) = [] from rfl, List.append_nil]

/-- A text without a line break is one line. -/
theorem lines_singleton
    {line : String}
    (unbroken : '\n' ∉ line.toList)
    (nonempty : line ≠ "") :
    lines line = [line] := by
  have one : line.toList.splitOn '\n' = [line.toList] := List.splitOn_eq_singleton unbroken
  have written : line.toList ≠ [] := fun empty => nonempty (String.toList_eq_nil_iff.1 empty)
  rw [lines, one]
  simp [written]

/-- A line with a line break and the lines of a further text. -/
theorem lines_cons
    {line : String}
    (unbroken : '\n' ∉ line.toList)
    (rest : String) :
    lines (line ++ "\n" ++ rest) = line :: lines rest := by
  have broken := lines_break line.toList rest.toList
  rw [List.splitOn_eq_singleton unbroken, String.ofList_toList] at broken
  rw [← @String.ofList_toList (line ++ "\n" ++ rest), String.toList_append,
    String.toList_append, List.append_assoc]
  simpa using broken

/-! ## Runs of lines -/

variable {taskLimit : Nat} {today : Date} {store : Store}

/-- Whether a line ends the session: its first word says so. -/
def endsSession (line : String) : Bool :=
  (Text.words line).head?.any isQuit

theorem takeLine_eq_quit_iff
    {line : String} :
    takeLine taskLimit today store line = .quit ↔ endsSession line = true := by
  rw [takeLine, endsSession]
  cases Text.words line with
  | nil => simp
  | cons command words =>
      rw [List.head?_cons, Option.any_some]
      cases quits : isQuit command <;> simp [quits]

/-- What follows lines that go on is run on the store that they leave. -/
theorem takeLines_append
    {first : List String}
    (goOn : ∀ line ∈ first, endsSession line = false)
    (taskLimit : Nat) (today : Date) (store : Store) :
    ∃ front left,
      takeLines taskLimit today store first = (front ++ prompt, left) ∧
      ∀ second, takeLines taskLimit today store (first ++ second) =
        (front ++ (takeLines taskLimit today left second).1,
          (takeLines taskLimit today left second).2) := by
  induction first generalizing store with
  | nil =>
      refine ⟨"", store, ?_, ?_⟩
      · rw [takeLines, String.empty_append]
      · intro second
        rw [List.nil_append, String.empty_append]
  | cons line later ih =>
      cases taken : takeLine taskLimit today store line with
      | quit =>
          have ends := takeLine_eq_quit_iff.1 taken
          rw [goOn line List.mem_cons_self] at ends
          contradiction
      | next output changed =>
          rcases ih (fun line member => goOn line (List.mem_cons_of_mem _ member)) changed with
            ⟨front, left, alone, joined⟩
          refine ⟨prompt ++ output ++ front, left, ?_, ?_⟩
          · simp only [takeLines, taken, alone, String.append_assoc]
          · intro second
            simp only [List.cons_append, takeLines, taken, joined, String.append_assoc]

/-- A line that ends the session hides the lines after it. -/
theorem takeLines_endsSession
    {line : String}
    (ends : endsSession line = true)
    (first rest : List String) :
    takeLines taskLimit today store (first ++ line :: rest) =
      takeLines taskLimit today store (first ++ [line]) := by
  induction first generalizing store with
  | nil =>
      have quits : takeLine taskLimit today store line = .quit := takeLine_eq_quit_iff.2 ends
      rw [List.nil_append, List.nil_append, takeLines, takeLines, quits]
  | cons earlier later ih =>
      rw [List.cons_append, List.cons_append, takeLines, takeLines]
      cases takeLine taskLimit today store earlier with
      | quit => rfl
      | next output changed => simp only [ih]

/-! ## Sessions -/

variable {lookup : String → Option String}

theorem run_of_read
    {settings : Settings}
    (configured : Settings.read lookup = .ok settings)
    (today : Date) (store : Store) (input : String) :
    run lookup today store input =
      ⟨0, banner ++ (takeLines settings.taskLimit today store (lines input)).1,
        (takeLines settings.taskLimit today store (lines input)).2⟩ := by
  simp only [run, configured]

/-- A session depends on the lines that are run only. -/
theorem run_congr
    {input other : String}
    (same : ∀ taskLimit, takeLines taskLimit today store (lines input) =
      takeLines taskLimit today store (lines other)) :
    run lookup today store input = run lookup today store other := by
  cases configured : Settings.read lookup with
  | error cause => simp only [run, configured]
  | ok settings => rw [run_of_read configured, run_of_read configured, same]

/-- A session on lines that go on leaves a store, on which a session runs what follows them. -/
theorem run_append
    {settings : Settings} {first : String}
    (configured : Settings.read lookup = .ok settings)
    (complete : IsTerminated first)
    (goOn : ∀ line ∈ lines first, endsSession line = false)
    (today : Date) (store : Store) :
    ∃ front left,
      run lookup today store first = ⟨0, front ++ prompt, left⟩ ∧
      ∀ second, ∃ back,
        (run lookup today left second).output = banner ++ back ∧
        run lookup today store (first ++ second) =
          { run lookup today left second with output := front ++ back } := by
  rcases takeLines_append goOn settings.taskLimit today store with ⟨front, left, alone, joined⟩
  refine ⟨banner ++ front, left, ?_, ?_⟩
  · rw [run_of_read configured, alone, String.append_assoc]
  · intro second
    refine ⟨(takeLines settings.taskLimit today left (lines second)).1, ?_, ?_⟩
    · rw [run_of_read configured]
    · rw [run_of_read configured, run_of_read configured, lines_append complete, joined,
        String.append_assoc]

/-- What stands after a line that ends the session has no effect. -/
theorem run_endsSession
    {before line : String}
    (complete : IsTerminated before)
    (unbroken : '\n' ∉ line.toList)
    (ends : endsSession line = true)
    (today : Date) (store : Store) (rest : String) :
    run lookup today store (before ++ line ++ "\n" ++ rest) =
      run lookup today store (before ++ line) := by
  have nonempty : line ≠ "" := by
    rintro rfl
    exact absurd ends (by decide)
  apply run_congr
  intro taskLimit
  rw [String.append_assoc, String.append_assoc, ← @String.append_assoc line,
    lines_append complete, lines_append complete, lines_cons unbroken,
    lines_singleton unbroken nonempty]
  exact takeLines_endsSession ends (lines before) (lines rest)

/--
A session can be cut after any complete lines that do not end it: a session on
these lines and, on the store that is opened again, a session on the rest of
the input end with the store of one session on both, and with its output, but
for the last prompt of the former and the banner of the latter.  After a line
that ends the session, nothing has an effect.
-/
theorem session_cut_anywhere
    (lookup : String → Option String)
    (today : Date) (store : Store) :
    (∀ settings first second,
      Settings.read lookup = .ok settings →
      IsTerminated first →
      (∀ line ∈ lines first, endsSession line = false) →
      let before := run lookup today store first
      let whole := run lookup today store (first ++ second)
      ∃ reopened, Snapshot.read? (Snapshot.write before.store) = some reopened ∧
        let after := run lookup today reopened second
        whole.store = after.store ∧
        ∃ front back,
          before.output = front ++ prompt ∧
          after.output = banner ++ back ∧
          whole.output = front ++ back) ∧
    (∀ before line rest,
      IsTerminated before →
      '\n' ∉ line.toList →
      endsSession line = true →
      run lookup today store (before ++ line ++ "\n" ++ rest) =
        run lookup today store (before ++ line)) := by
  constructor
  · intro settings first second configured complete goOn before whole
    rcases run_append configured complete goOn today store with ⟨front, left, ranFirst, ranBoth⟩
    rcases ranBoth second with ⟨back, ranSecond, ranWhole⟩
    refine ⟨left, ?_, ?_, front, back, ?_, ranSecond, ?_⟩
    · rw [show before = _ from ranFirst, Snapshot.read?_write]
    · rw [show whole = _ from ranWhole]
    · exact congrArg Outcome.output ranFirst
    · exact congrArg Outcome.output ranWhole
  · intro before line rest complete unbroken ends
    exact run_endsSession complete unbroken ends today store rest

/--
A session that adds a task, reads a blank line and refuses an id is cut before
the lines that delete the task and add another one, and what stands after its
end is not run.
-/
theorem session_cut_anywhere_addTasks :
    let lookup : String → Option String := fun _ => none
    let today : Date := ⟨2024, 1, 26, by decide⟩
    let first := "add - walk d 7\n \ndone x\n"
    let second := "delete 1\nadd - read"
    let whole := run lookup today ∅ (first ++ second)
    (Settings.read lookup = .ok Settings.default ∧ IsTerminated first ∧
      ∀ line ∈ lines first, endsSession line = false) ∧
    whole.store = ⟨[⟨2, { date := "20240126", title := "read" }⟩], 3⟩ ∧
    whole.output = banner ++
      "> Added task 1 on 20240126.\n> > Invalid id\n" ++
      "> Deleted task 1.\n> Added task 2 on 20240126.\n> " ∧
    (IsTerminated (first ++ second ++ "\n") ∧ endsSession " exit now" = true) ∧
    run lookup today ∅ (first ++ second ++ "\n" ++ " exit now" ++ "\n" ++ "delete 2\n") =
      run lookup today ∅ (first ++ second ++ "\n" ++ " exit now") := by
  intro lookup today first second whole
  have configured : Settings.read lookup = .ok Settings.default := rfl
  have complete : IsTerminated first := .inr (by decide)
  have goOn : ∀ line ∈ lines first, endsSession line = false := by decide +kernel
  have completeWhole : IsTerminated (first ++ second ++ "\n") := .inr (by decide)
  have ends : endsSession " exit now" = true := by decide +kernel
  have cut := session_cut_anywhere lookup today ∅
  rcases cut.1 _ first second configured complete goOn with
    ⟨reopened, opened, stored, front, back, ranFirst, ranSecond, ranWhole⟩
  have left : reopened =
      ⟨[⟨1, { date := "20240126", title := "walk", repeats := "d 7" }⟩], 2⟩ := by
    rw [Snapshot.read?_write] at opened
    rw [← Option.some.inj opened]
    decide +kernel
  subst left
  have frontText : front = banner ++ "> Added task 1 on 20240126.\n> > Invalid id\n" := by
    rw [← String.append_left_inj prompt, ← ranFirst]
    decide +kernel
  have backText : back = "> Deleted task 1.\n> Added task 2 on 20240126.\n> " := by
    rw [← String.append_right_inj banner, ← ranSecond]
    decide +kernel
  refine ⟨⟨configured, complete, goOn⟩, ?_, ?_, ⟨completeWhole, ends⟩,
    cut.2 _ _ _ completeWhole (by decide) ends⟩
  · rw [show whole.store = _ from stored]
    decide +kernel
  · rw [show whole.output = _ from ranWhole, frontText, backText]

end Agenda.Console
