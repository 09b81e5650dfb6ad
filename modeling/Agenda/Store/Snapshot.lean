import Agenda.Store.Basic

/-!
# Stores as text

A snapshot is the text from which a store is opened again: the next id and the
fields of all rows, each field with its length in front, so that no character
of a field needs an escape.  Reading accepts what writing produces
(`read?_write`) and refuses a text that is cut short.
-/

namespace Agenda.Snapshot

/-- A field: the number of its characters, a colon, and the characters. -/
def writeField (field : String) : List Char :=
  Nat.toDigits 10 field.length ++ ':' :: field.toList

/-- Reads one field and returns the text after it. -/
def readField? (text : List Char) : Option (String × List Char) := do
  let length ← Text.readDigits? (text.takeWhile Char.isDigit)
  match text.dropWhile Char.isDigit with
  | ':' :: rest =>
    if length ≤ rest.length then some (String.ofList (rest.take length), rest.drop length)
    else none
  | _ => none

theorem length_lt_of_readField? {text rest : List Char} {field : String}
    (found : readField? text = some (field, rest)) : rest.length < text.length := by
  simp only [readField?, Option.bind_eq_bind, Option.bind_eq_some_iff] at found
  obtain ⟨length, -, found⟩ := found
  split at found
  · rename_i tail colon
    split at found
    · simp only [Option.some.injEq, Prod.mk.injEq] at found
      have shorter := (List.dropWhile_sublist Char.isDigit (l := text)).length_le
      rw [colon, List.length_cons] at shorter
      rw [← found.2, List.length_drop]
      omega
    · simp at found
  · simp at found

/-- Reads fields to the end of the text. -/
def readFields? (text : List Char) : Option (List String) :=
  if text = [] then some []
  else
    match found : readField? text with
    | none => none
    | some (field, rest) =>
      have := length_lt_of_readField? found
      (readFields? rest).map (field :: ·)
termination_by text.length

/-- The fields of a row. -/
def rowFields (row : Row) : List String :=
  [toString row.id, row.entry.date, row.entry.title, row.entry.comment, row.entry.repeats]

/-- Reads rows, five fields each. -/
def readRows? : List String → Option (List Row)
  | [] => some []
  | id :: date :: title :: comment :: repeats :: rest => do
    let id ← Text.readSigned? id.toList
    let rows ← readRows? rest
    return ⟨id, { date, title, comment, repeats }⟩ :: rows
  | _ => none

/-- The snapshot of a store. -/
def write (store : Store) : String :=
  let fields := toString store.nextId :: store.rows.flatMap rowFields
  String.ofList (fields.flatMap writeField)

/-- Opens the store of a snapshot; an empty text is that of a new store. -/
def read? (text : String) : Option Store := do
  match ← readFields? text.toList with
  | [] => return ∅
  | nextId :: fields =>
    let nextId ← Text.readSigned? nextId.toList
    let rows ← readRows? fields
    return ⟨rows, nextId⟩

@[simp]
theorem readField?_writeField_append (field : String) (rest : List Char) :
    readField? (writeField field ++ rest) = some (field, rest) := by
  have digits (char : Char) (member : char ∈ Nat.toDigits 10 field.length) :
      char.isDigit = true :=
    Nat.isDigit_of_mem_toDigits (by omega) (by omega) member
  have colon : Char.isDigit ':' = false := by decide
  have before : (writeField field ++ rest).takeWhile Char.isDigit =
      Nat.toDigits 10 field.length := by
    simp [writeField, List.takeWhile_append_of_pos digits, colon]
  have after : (writeField field ++ rest).dropWhile Char.isDigit =
      ':' :: (field.toList ++ rest) := by
    simp [writeField, List.dropWhile_append_of_pos digits, colon]
  have length : field.length = field.toList.length := String.length_toList.symm
  simp [readField?, before, after, length]

theorem readFields?_flatMap_writeField (fields : List String) :
    readFields? (fields.flatMap writeField) = some fields := by
  induction fields with
  | nil => rw [readFields?]; rfl
  | cons field later ih =>
    have nonempty : writeField field ++ later.flatMap writeField ≠ [] := by simp [writeField]
    rw [readFields?, List.flatMap_cons, if_neg nonempty]
    split
    · simp_all
    · rename_i found
      simp only [readField?_writeField_append, Option.some.injEq, Prod.mk.injEq] at found
      obtain ⟨rfl, rfl⟩ := found
      simp [ih]

theorem readRows?_flatMap_rowFields (rows : List Row) :
    readRows? (rows.flatMap rowFields) = some rows := by
  induction rows with
  | nil => rfl
  | cons row later ih => simp [rowFields, readRows?, ih]

/-- A store is opened again as it was. -/
@[simp]
theorem read?_write (store : Store) : read? (write store) = some store := by
  simp only [read?, write, String.toList_ofList, readFields?_flatMap_writeField]
  simp [readRows?_flatMap_rowFields]

end Agenda.Snapshot
