import Agenda.Console.Session
import Agenda.Proofs.Task.Members
import Mathlib.Algebra.Ring.Nat
import Mathlib.Data.List.Forall2

/-!
# The columns of a table

The columns of a table are the fields of a task.  A column is as wide as its
longest text, its heading included.  Its width is the same in every line, and so
are the places of its borders.

`HasColumns` says character by character what a line has from the left border of
each column to its right border.  The right border of a column is the left one
of the next, so together with the length of a line it leaves no character open.
The main statement is `tableText_aligned`.  A line break inside a text is one
character of the line as any other.
-/

namespace Agenda.Console

theorem headings_eq : headings = TaskField.all.map TaskField.key :=
  rfl

theorem cells_eq (task : Task) : cells task = TaskField.all.map (TaskField.get task) :=
  rfl

/-! ## Widths -/

/-- The length of the longest text of a field, 0 if there are no tasks. -/
def longestCell (tasks : List Task) (field : TaskField) : Nat :=
  (tasks.map fun task => (field.get task).length).foldr max 0

/-- The larger of the length of the heading and that of the longest text. -/
def columnWidth (tasks : List Task) (field : TaskField) : Nat :=
  max field.key.length (longestCell tasks field)

theorem length_key_le_columnWidth
    (tasks : List Task) (field : TaskField) :
    field.key.length ≤ columnWidth tasks field :=
  Nat.le_max_left _ _

theorem length_get_le_longestCell
    {tasks : List Task} {task : Task}
    (listed : task ∈ tasks)
    (field : TaskField) :
    (field.get task).length ≤ longestCell tasks field := by
  induction tasks with
  | nil => cases listed
  | cons first later ih =>
      rcases List.mem_cons.1 listed with rfl | listedLater
      · exact Nat.le_max_left _ _
      · exact Nat.le_trans (ih listedLater) (Nat.le_max_right _ _)

theorem length_get_le_columnWidth
    {tasks : List Task} {task : Task}
    (listed : task ∈ tasks)
    (field : TaskField) :
    (field.get task).length ≤ columnWidth tasks field :=
  Nat.le_trans (length_get_le_longestCell listed field) (Nat.le_max_right _ _)

/-- Widening all columns by one row after another, from any widths, reaches the longest texts. -/
theorem foldl_zipWith_max
    (tasks : List Task) (fields : List TaskField) (start : TaskField → Nat) :
    (tasks.map fun task => fields.map (TaskField.get task)).foldl
        (fun widths row => widths.zipWith max (row.map String.length)) (fields.map start) =
      fields.map fun field => max (start field) (longestCell tasks field) := by
  induction tasks generalizing start with
  | nil => simp [longestCell]
  | cons task later ih =>
      rw [List.map_cons, List.foldl_cons, List.map_map, List.zipWith_map, List.zipWith_self, ih]
      simp only [Function.comp_apply, longestCell, List.map_cons, List.foldr_cons, Nat.max_assoc]

theorem columnWidths_eq
    (tasks : List Task) :
    columnWidths (tasks.map cells) = TaskField.all.map (columnWidth tasks) :=
  foldl_zipWith_max tasks TaskField.all fun field => field.key.length

/-! ## Lines between borders -/

/-- The length of a line: the widths of the columns and 16 characters for borders and blanks. -/
def lineLength (tasks : List Task) : Nat :=
  16 + (TaskField.all.map (columnWidth tasks)).sum

/-- The place of the left border of a column; its texts start two characters after it. -/
def leftBorder (tasks : List Task) (field : TaskField) : Nat :=
  ((TaskField.all.takeWhile (· ≠ field)).map fun earlier => columnWidth tasks earlier + 3).sum

/-- From the left border of each column to its right one, a line has the body of the column. -/
def HasColumns (tasks : List Task) (border : Char) (body : TaskField → List Char)
    (line : String) : Prop :=
  ∀ field, (line.toList.drop (leftBorder tasks field)).take (columnWidth tasks field + 4) =
    border :: body field ++ [border]

/-- Between two borders, a ruler has dashes. -/
def rulerBody (tasks : List Task) (field : TaskField) : List Char :=
  List.replicate (columnWidth tasks field + 2) '-'

/-- Between two borders, a row has a blank, the whole text of the column and blanks after it. -/
def rowBody (tasks : List Task) (text : TaskField → String) (field : TaskField) : List Char :=
  ' ' :: (text field).toList ++
    List.replicate (columnWidth tasks field - (text field).length + 1) ' '

/-- The bodies of all columns with the borders around them. -/
def framed (border : Char) (body : TaskField → List Char) : List Char :=
  border :: TaskField.all.flatMap fun field => body field ++ [border]

theorem cons_flatMap_border
    (border : Char) (body : TaskField → List Char) (fields : List TaskField) :
    border :: fields.flatMap (fun field => body field ++ [border]) =
      fields.flatMap (fun field => border :: body field) ++ [border] := by
  induction fields with
  | nil => rfl
  | cons field later ih => simp [← ih]

/-- The columns before one, each with its left border, then that one between both borders. -/
theorem framed_eq
    {before later : List TaskField} {field : TaskField}
    (split : TaskField.all = before ++ field :: later)
    (border : Char) (body : TaskField → List Char) :
    framed border body =
      before.flatMap (fun earlier => border :: body earlier) ++
        (border :: body field ++ [border] ++
          later.flatMap fun other => body other ++ [border]) := by
  rw [framed, split, List.flatMap_append, ← List.cons_append, cons_flatMap_border,
    List.flatMap_cons]
  simp only [List.append_assoc, List.cons_append, List.nil_append]

theorem exists_all_eq
    (field : TaskField) :
    ∃ later, TaskField.all = TaskField.all.takeWhile (· ≠ field) ++ field :: later := by
  cases field <;> exact ⟨_, rfl⟩

section

variable {tasks : List Task} {border : Char} {body : TaskField → List Char} {line : String}

theorem hasColumns_of_framed
    (sized : ∀ field, (body field).length = columnWidth tasks field + 2)
    (written : line.toList = framed border body) :
    HasColumns tasks border body line := by
  intro field
  rcases exists_all_eq field with ⟨later, split⟩
  have before : ((TaskField.all.takeWhile (· ≠ field)).flatMap
      fun earlier => border :: body earlier).length = leftBorder tasks field := by
    simp only [List.length_flatMap, List.length_cons, sized, leftBorder]
  have column : (border :: body field ++ [border]).length = columnWidth tasks field + 4 := by
    simp [sized]
  rw [written, framed_eq split, List.drop_left' before, List.take_left' column]

theorem length_of_framed
    (sized : ∀ field, (body field).length = columnWidth tasks field + 2)
    (written : line.toList = framed border body) :
    line.length = lineLength tasks := by
  rw [← String.length_toList, written]
  simp only [lineLength, framed, TaskField.all, List.flatMap_cons, List.flatMap_nil,
    List.length_cons, List.length_append, List.length_nil, sized, List.map_cons, List.map_nil,
    List.sum_cons, List.sum_nil]
  omega

end

/-! ## Rulers and rows -/

theorem length_rulerBody
    (tasks : List Task) (field : TaskField) :
    (rulerBody tasks field).length = columnWidth tasks field + 2 :=
  List.length_replicate

theorem length_rowBody
    {tasks : List Task} {text : TaskField → String} {field : TaskField}
    (fits : (text field).length ≤ columnWidth tasks field) :
    (rowBody tasks text field).length = columnWidth tasks field + 2 := by
  simp only [rowBody, List.cons_append, List.length_cons, List.length_append,
    String.length_toList, List.length_replicate]
  omega

theorem toList_ruler
    (tasks : List Task) :
    (ruler (TaskField.all.map (columnWidth tasks))).toList = framed '+' (rulerBody tasks) := by
  simp [ruler, framed, rulerBody, repeated, String.toList_join, List.flatMap_map]

theorem toList_rowText
    (tasks : List Task) (text : TaskField → String) :
    (rowText (TaskField.all.map (columnWidth tasks)) (TaskField.all.map text)).toList =
      framed '|' (rowBody tasks text) := by
  simp [rowText, framed, rowBody, cellText, repeated, String.toList_join, List.flatMap_map,
    List.zipWith_map, List.zipWith_self, List.replicate_succ']

theorem length_ruler
    (tasks : List Task) :
    (ruler (TaskField.all.map (columnWidth tasks))).length = lineLength tasks :=
  length_of_framed (length_rulerBody tasks) (toList_ruler tasks)

theorem length_rowText
    {tasks : List Task} {text : TaskField → String}
    (fits : ∀ field, (text field).length ≤ columnWidth tasks field) :
    (rowText (TaskField.all.map (columnWidth tasks)) (TaskField.all.map text)).length =
      lineLength tasks :=
  length_of_framed (fun field => length_rowBody (fits field)) (toList_rowText tasks text)

theorem hasColumns_rowText
    {tasks : List Task} {text : TaskField → String}
    (fits : ∀ field, (text field).length ≤ columnWidth tasks field) :
    HasColumns tasks '|' (rowBody tasks text)
      (rowText (TaskField.all.map (columnWidth tasks)) (TaskField.all.map text)) :=
  hasColumns_of_framed (fun field => length_rowBody (fits field)) (toList_rowText tasks text)

/-- The lines of a table, in terms of its columns. -/
theorem tableLines_eq
    (tasks : List Task) :
    let widths := TaskField.all.map (columnWidth tasks)
    tableLines tasks =
      [ruler widths, rowText widths (TaskField.all.map TaskField.key), ruler widths] ++
        tasks.map (fun task => rowText widths (TaskField.all.map (TaskField.get task))) ++
        [ruler widths] := by
  intro widths
  simp only [tableLines, columnWidths_eq, headings_eq, List.map_map, Function.comp_def, cells_eq,
    widths]

theorem map_length_tableLines
    (tasks : List Task) :
    (tableLines tasks).map String.length =
      List.replicate (tasks.length + 4) (lineLength tasks) := by
  have rulerLength := length_ruler tasks
  have headingLength := length_rowText (length_key_le_columnWidth tasks)
  refine List.eq_replicate_iff.2 ⟨by simp [tableLines_eq], ?_⟩
  intro length listed
  simp only [tableLines_eq, List.mem_map, List.mem_append, List.mem_cons, List.not_mem_nil,
    or_false] at listed
  rcases listed with ⟨line, ((rfl | rfl | rfl) | ⟨task, listed, rfl⟩) | rfl, rfl⟩
  · exact rulerLength
  · exact headingLength
  · exact rulerLength
  · exact length_rowText (length_get_le_columnWidth listed)
  · exact rulerLength

/--
A table is a ruler, the headings, a ruler, one row for each task in the order of
the tasks and a last ruler, with a line break after each.  All these lines have
the same length: the widths of the columns and 16 characters besides.  In each
row, two characters after the left border of a column stands the text of the
task in full, followed by blanks up to the border; and so do the headings, whose
length in characters is that in octets.
-/
theorem tableText_aligned (tasks : List Task) :
    (∃ ruler heading rows,
      tableText tasks =
        String.join (([ruler, heading, ruler] ++ rows ++ [ruler]).map (· ++ "\n")) ∧
      ([ruler, heading, ruler] ++ rows ++ [ruler]).map String.length =
        List.replicate (tasks.length + 4) (lineLength tasks) ∧
      HasColumns tasks '+' (rulerBody tasks) ruler ∧
      HasColumns tasks '|' (rowBody tasks TaskField.key) heading ∧
      List.Forall₂ (fun task row => HasColumns tasks '|' (rowBody tasks (TaskField.get task)) row)
        tasks rows) ∧
    ∀ field : TaskField, field.key.utf8ByteSize = field.key.length := by
  let widths := TaskField.all.map (columnWidth tasks)
  have lines := tableLines_eq tasks
  have lengths := map_length_tableLines tasks
  constructor
  · refine ⟨ruler widths, rowText widths (TaskField.all.map TaskField.key),
      tasks.map fun task => rowText widths (TaskField.all.map (TaskField.get task)),
      ?_, ?_, ?_, ?_, ?_⟩
    · rw [tableText, lines]
    · rw [← lines, lengths]
    · exact hasColumns_of_framed (length_rulerBody tasks) (toList_ruler tasks)
    · exact hasColumns_rowText (length_key_le_columnWidth tasks)
    · rw [List.forall₂_map_right_iff, List.forall₂_same]
      intro task listed
      exact hasColumns_rowText (length_get_le_columnWidth listed)
  · intro field
    cases field <;> rfl

/-- A line break inside a text counts as one character, and so does one of several octets. -/
example :
    tableText
        [{ id := "9", date := "20240126", title := "water\nthe plants", repeats := "d 7" },
          { id := "10", date := "20240229", title := "naïveté", comment := "…" }] =
      "+----+----------+------------------+---------+--------+\n" ++
      "| id | date     | title            | comment | repeat |\n" ++
      "+----+----------+------------------+---------+--------+\n" ++
      "| 9  | 20240126 | water\nthe plants |         | d 7    |\n" ++
      "| 10 | 20240229 | naïveté          | …       |        |\n" ++
      "+----+----------+------------------+---------+--------+\n" := by
  decide +kernel

end Agenda.Console
