import Agenda.Result

/-!
# JSON strings and written documents

A document that cannot be read has one of three faults, and the first one in
reading order counts.  Strings are what both readers and writers of documents
share; the documents that are written hold strings, lists and objects only.
-/

namespace Agenda.Json

/-- Why a document is refused. -/
inductive Error where
  /-- The text ends inside the document. -/
  | endOfText
  /-- The text is no JSON at this place. -/
  | malformed
  /-- The value is of another type than the one asked for. -/
  | mismatch
  deriving DecidableEq

/-!
## Strings

Reading a string after its opening quote, in two ways.  `readQuoted` decodes
it and refuses escapes that are half of a surrogate pair; `skipQuoted` only
looks for its end, and lets every escape of four hexadecimal digits pass.
`quote` writes a string with the shortest escapes.
-/

/-- The value of a hexadecimal digit. -/
def hexValue? (char : Char) : Option Nat :=
  if '0' ≤ char ∧ char ≤ '9' then some (char.toNat - '0'.toNat)
  else if 'a' ≤ char ∧ char ≤ 'f' then some (char.toNat - 'a'.toNat + 10)
  else if 'A' ≤ char ∧ char ≤ 'F' then some (char.toNat - 'A'.toNat + 10)
  else none

/-- The value of four hexadecimal digits. -/
def hexUnit? (first second third fourth : Char) : Option Nat := do
  return (((← hexValue? first) * 16 + (← hexValue? second)) * 16 + (← hexValue? third)) * 16 +
    (← hexValue? fourth)

/-- Reads four hexadecimal digits; a text of fewer than four octets ends too early. -/
def readUnit : List Char → Except Error (Nat × List Char)
  | first :: second :: third :: fourth :: rest =>
    match hexUnit? first second third fourth with
    | some unit => .ok (unit, rest)
    | none => .error .malformed
  | text =>
    if (String.ofList text).utf8ByteSize < 4 then .error .endOfText else .error .malformed

/-- The code units that come first in a surrogate pair. -/
def isLeadUnit (unit : Nat) : Bool := 0xD800 ≤ unit && unit ≤ 0xDBFF

/-- The code units that come second in a surrogate pair. -/
def isTrailUnit (unit : Nat) : Bool := 0xDC00 ≤ unit && unit ≤ 0xDFFF

/-- The code point of a surrogate pair. -/
def pairedCodePoint (lead trail : Nat) : Nat :=
  0x10000 + (lead - 0xD800) * 0x400 + (trail - 0xDC00)

/-- The character of an escape of one letter. -/
def simpleEscape? : Char → Option Char
  | '"' => some '"'
  | '\\' => some '\\'
  | '/' => some '/'
  | 'b' => some '\x08'
  | 'f' => some '\x0c'
  | 'n' => some '\n'
  | 'r' => some '\r'
  | 't' => some '\t'
  | _ => none

/-- Reads the second half of a surrogate pair. -/
def readTrail (lead : Nat) : List Char → Except Error (Char × List Char)
  | [] | ['\\'] => .error .endOfText
  | '\\' :: 'u' :: text => do
    let (trail, rest) ← readUnit text
    if isTrailUnit trail then .ok (Char.ofNat (pairedCodePoint lead trail), rest)
    else .error .malformed
  | _ => .error .malformed

/-- Reads an escape after its backslash. -/
def readEscape : List Char → Except Error (Char × List Char)
  | [] => .error .endOfText
  | 'u' :: text => do
    let (unit, rest) ← readUnit text
    if isTrailUnit unit then .error .malformed
    else if isLeadUnit unit then readTrail unit rest
    else .ok (Char.ofNat unit, rest)
  | letter :: rest =>
    match simpleEscape? letter with
    | some char => .ok (char, rest)
    | none => .error .malformed

/-- Passes over an escape after its backslash. -/
def skipEscape : List Char → Except Error (List Char)
  | [] => .error .endOfText
  | 'u' :: text => return (← readUnit text).2
  | letter :: rest => if (simpleEscape? letter).isSome then .ok rest else .error .malformed

theorem length_lt_of_readUnit {text rest : List Char} {unit : Nat}
    (found : readUnit text = .ok (unit, rest)) : rest.length < text.length := by
  unfold readUnit at found
  split at found
  · split at found
    · simp only [Except.ok.injEq, Prod.mk.injEq] at found
      simp [← found.2]
      omega
    · simp at found
  · split at found <;> simp at found

theorem length_lt_of_readTrail {lead : Nat} {text rest : List Char} {char : Char}
    (found : readTrail lead text = .ok (char, rest)) : rest.length < text.length := by
  unfold readTrail at found
  split at found
  case h_3 text =>
    obtain ⟨result, unit, found⟩ := exists_of_bind_eq_ok found
    have shorter := length_lt_of_readUnit unit
    dsimp only at found
    split at found
    · simp only [Except.ok.injEq, Prod.mk.injEq] at found
      simp only [← found.2, List.length_cons]
      omega
    · cases found
  all_goals cases found

theorem length_lt_of_readEscape {text rest : List Char} {char : Char}
    (found : readEscape text = .ok (char, rest)) : rest.length < text.length := by
  unfold readEscape at found
  split at found
  · cases found
  · rename_i text
    obtain ⟨result, unit, found⟩ := exists_of_bind_eq_ok found
    have shorter := length_lt_of_readUnit unit
    simp only [List.length_cons]
    dsimp only at found
    split at found
    · cases found
    · split at found
      · have := length_lt_of_readTrail found
        omega
      · simp only [Except.ok.injEq, Prod.mk.injEq] at found
        rw [← found.2]
        omega
  · split at found
    · cases found
      simp
    · cases found

theorem length_lt_of_skipEscape {text rest : List Char}
    (found : skipEscape text = .ok rest) : rest.length < text.length := by
  unfold skipEscape at found
  split at found
  · cases found
  · obtain ⟨result, unit, found⟩ := exists_of_bind_eq_ok found
    have shorter := length_lt_of_readUnit unit
    cases found
    simp only [List.length_cons]
    omega
  · split at found
    · cases found
      simp
    · cases found

/-- Reads a string after its opening quote onto the characters read before, the last one first. -/
def readQuotedOnto (before : List Char) (text : List Char) :
    Except Error (List Char × List Char) :=
  match text with
  | [] => .error .endOfText
  | '"' :: rest => .ok (before.reverse, rest)
  | '\\' :: text =>
    match found : readEscape text with
    | .error error => .error error
    | .ok (char, rest) =>
      have := length_lt_of_readEscape found
      readQuotedOnto (char :: before) rest
  | char :: rest => if char < ' ' then .error .malformed else readQuotedOnto (char :: before) rest
termination_by text.length

/-- Reads a string after its opening quote. -/
def readQuoted (text : List Char) : Except Error (List Char × List Char) :=
  readQuotedOnto [] text

/-- Passes over a string after its opening quote. -/
def skipQuoted (text : List Char) : Except Error (List Char) :=
  match text with
  | [] => .error .endOfText
  | '"' :: rest => .ok rest
  | '\\' :: text =>
    match found : skipEscape text with
    | .error error => .error error
    | .ok rest =>
      have := length_lt_of_skipEscape found
      skipQuoted rest
  | char :: rest => if char < ' ' then .error .malformed else skipQuoted rest
termination_by text.length

/-- The hexadecimal digits of a character below 256. -/
def hexPair (char : Char) : List Char :=
  [Nat.digitChar (char.toNat / 16), Nat.digitChar (char.toNat % 16)]

/-- A character inside a string: quotes, backslashes and control characters are escaped. -/
def escapeChar (char : Char) : List Char :=
  match char with
  | '"' => ['\\', '"']
  | '\\' => ['\\', '\\']
  | '\x08' => ['\\', 'b']
  | '\x0c' => ['\\', 'f']
  | '\n' => ['\\', 'n']
  | '\r' => ['\\', 'r']
  | '\t' => ['\\', 't']
  | char => if char < ' ' then ['\\', 'u', '0', '0'] ++ hexPair char else [char]

/-- A string with its quotes. -/
def quote (text : String) : List Char :=
  '"' :: text.toList.flatMap escapeChar ++ ['"']

theorem length_lt_of_skipQuoted {text rest : List Char}
    (found : skipQuoted text = .ok rest) : rest.length < text.length := by
  fun_induction skipQuoted text with
  | case1 => simp at found
  | case2 rest => simp_all
  | case3 => simp at found
  | case4 text next passed shorter ih =>
    have := ih found
    simp
    omega
  | case5 => simp at found
  | case6 char text _ _ _ ih =>
    have := ih found
    simp
    omega

/-!
## Written documents

Documents are written without spaces, members in the given order.
-/

/-- A document made of strings, lists and objects. -/
inductive Value where
  | string (text : String)
  | list (items : List Value)
  | object (members : List (String × Value))

mutual

/-- The characters of a document. -/
def Value.write : Value → List Char
  | .string text => quote text
  | .list items => '[' :: writeItems items ++ [']']
  | .object members => '{' :: writeMembers members ++ ['}']

/-- The items of a list with commas between them. -/
def writeItems : List Value → List Char
  | [] => []
  | [item] => item.write
  | item :: later => item.write ++ ',' :: writeItems later

/-- The members of an object with commas between them. -/
def writeMembers : List (String × Value) → List Char
  | [] => []
  | [(key, value)] => quote key ++ ':' :: value.write
  | (key, value) :: later => quote key ++ ':' :: value.write ++ ',' :: writeMembers later

end

/-- The text of a document. -/
def Value.render (value : Value) : String :=
  String.ofList value.write

end Agenda.Json
