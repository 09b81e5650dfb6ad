import Agenda.Json.Numeral
import Agenda.Json.Quoted

/-!
# JSON tokens

A document is first cut into tokens.  A string, number or literal carries what
reading it gives and what passing over it gives, because the two differ: a
value that is passed over may hold half a surrogate pair or a number of any
size, and a number that is cut short there is malformed.  Which of the two
counts is up to the reader of the tokens, so a fault shows only where a reader
comes to it.
-/

namespace Agenda.Json

/-- A piece of a document. -/
inductive Token where
  | openList
  | closeList
  | openObject
  | closeObject
  | colon
  | comma
  /-- A string, decoded and passed over. -/
  | quoted (read : Except Error String) (skipped : Except Error Unit)
  /-- A number or literal, read and passed over. -/
  | scalar (read skipped : Except Error Unit)
  /-- A character that starts no piece. -/
  | stray

/-- The characters between tokens. -/
def isSpace (char : Char) : Bool :=
  char = ' ' || char = '\n' || char = '\t' || char = '\x0d'

/-- Passes over the rest of a literal. -/
def skipLiteral : List Char → List Char → Except Error (List Char)
  | [], text => .ok text
  | _ :: _, [] => .error .endOfText
  | expected :: letters, char :: text =>
    if char = expected then skipLiteral letters text else .error .malformed

/-- The token of a literal, and the text after it. -/
def literalToken (letters text : List Char) : Token × List Char :=
  match skipLiteral letters text with
  | .ok rest => (.scalar (.ok ()) (.ok ()), rest)
  | .error error => (.scalar (.error error) (.error error), [])

/-- The token of a string after its opening quote, and the text after it. -/
def quotedToken (text : List Char) : Token × List Char :=
  let read := (readQuoted text).map fun (chars, _) => String.ofList chars
  match skipQuoted text with
  | .ok rest => (.quoted read (.ok ()), rest)
  | .error error => (.quoted read (.error error), [])

/-- The token of a number, and the text after it. -/
def numeralToken (text : List Char) : Token × List Char :=
  match Numeral.read text with
  | .ok (numeral, rest) =>
    let read := if numeral.isTooLarge then .error .malformed else .ok ()
    (.scalar read (.ok ()), rest)
  | .error error => (.scalar (.error error) (.error .malformed), [])

/-- The token that starts with a character, and the text after it; nothing follows a fault. -/
def firstToken (char : Char) (text : List Char) : Token × List Char :=
  match char with
  | '[' => (.openList, text)
  | ']' => (.closeList, text)
  | '{' => (.openObject, text)
  | '}' => (.closeObject, text)
  | ':' => (.colon, text)
  | ',' => (.comma, text)
  | '"' => quotedToken text
  | 't' => literalToken ['r', 'u', 'e'] text
  | 'f' => literalToken ['a', 'l', 's', 'e'] text
  | 'n' => literalToken ['u', 'l', 'l'] text
  | char => if char = '-' ∨ char.isDigit then numeralToken (char :: text) else (.stray, [])

theorem length_le_of_skipLiteral {letters text rest : List Char}
    (found : skipLiteral letters text = .ok rest) : rest.length ≤ text.length := by
  fun_induction skipLiteral letters text with
  | case1 text => simp_all
  | case2 => simp at found
  | case3 letters char text ih =>
    have := ih found
    simp
    omega
  | case4 => simp at found

theorem length_firstToken_le (char : Char) (text : List Char) :
    (firstToken char text).2.length ≤ text.length := by
  have literal (letters : List Char) : (literalToken letters text).2.length ≤ text.length := by
    unfold literalToken
    split
    · exact length_le_of_skipLiteral ‹_›
    · simp
  have quoted : (quotedToken text).2.length ≤ text.length := by
    unfold quotedToken
    dsimp only
    split
    · exact Nat.le_of_lt (length_lt_of_skipQuoted ‹_›)
    · simp
  have numeral : (numeralToken (char :: text)).2.length ≤ text.length := by
    unfold numeralToken
    split
    · exact Nat.le_of_lt_succ (Numeral.length_lt_of_read ‹_›)
    · simp
  unfold firstToken
  split
  case h_7 => exact quoted
  case h_8 | h_9 | h_10 => exact literal _
  case h_11 =>
    split
    · exact numeral
    · simp
  all_goals simp

/-- Cuts a text into tokens onto those before it, the last one first. -/
def tokensOnto (before : List Token) (text : List Char) : List Token :=
  match text with
  | [] => before.reverse
  | char :: text =>
    if isSpace char then tokensOnto before text
    else
      have := length_firstToken_le char text
      tokensOnto ((firstToken char text).1 :: before) (firstToken char text).2
termination_by text.length
decreasing_by all_goals simp <;> omega

/-- The tokens of a document. -/
def tokens (text : String) : List Token :=
  tokensOnto [] text.toList

end Agenda.Json
