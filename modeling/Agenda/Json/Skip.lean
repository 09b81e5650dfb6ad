import Agenda.Json.Token

/-!
# Passing over JSON values

A value of any depth is passed over with a list of the brackets that are open,
the innermost first, and a note of what may come next.  Every step takes one
token, so no depth of nesting is too much.
-/

namespace Agenda.Json

/-- A bracket that is open. -/
inductive Bracket where
  | list
  | object
  deriving DecidableEq

/-- What may come next inside a value. -/
inductive Awaited where
  | value
  /-- The first value of a list, or its end. -/
  | valueOrEnd
  | key
  /-- The first key of an object, or its end. -/
  | keyOrEnd
  | colon
  /-- A comma or the end of the innermost bracket. -/
  | separator
  deriving DecidableEq

/-- Takes the token of a value, or the first one of a list or an object. -/
def stepValue (brackets : List Bracket) : Token → Except Error (Awaited × List Bracket)
  | .openList => .ok (.valueOrEnd, .list :: brackets)
  | .openObject => .ok (.keyOrEnd, .object :: brackets)
  | .quoted _ skipped => skipped.map fun () => (.separator, brackets)
  | .scalar _ skipped => skipped.map fun () => (.separator, brackets)
  | _ => .error .malformed

/-- Takes one token. -/
def step (awaited : Awaited) (brackets : List Bracket) (token : Token) :
    Except Error (Awaited × List Bracket) :=
  match awaited, brackets, token with
  | .valueOrEnd, .list :: outer, .closeList => .ok (.separator, outer)
  | .value, brackets, token => stepValue brackets token
  | .valueOrEnd, brackets, token => stepValue brackets token
  | .keyOrEnd, .object :: outer, .closeObject => .ok (.separator, outer)
  | .key, brackets, .quoted _ skipped => skipped.map fun () => (.colon, brackets)
  | .keyOrEnd, brackets, .quoted _ skipped => skipped.map fun () => (.colon, brackets)
  | .colon, brackets, .colon => .ok (.value, brackets)
  | .separator, .list :: outer, .comma => .ok (.value, .list :: outer)
  | .separator, .object :: outer, .comma => .ok (.key, .object :: outer)
  | .separator, .list :: outer, .closeList => .ok (.separator, outer)
  | .separator, .object :: outer, .closeObject => .ok (.separator, outer)
  | _, _, _ => .error .malformed

/-- Passes over the rest of a value; it has ended where no bracket is open and none may open. -/
def skipFrom (awaited : Awaited) (brackets : List Bracket) (tokens : List Token) :
    Except Error (List Token) :=
  if awaited = .separator ∧ brackets = [] then .ok tokens
  else
    match tokens with
    | [] => .error .endOfText
    | token :: rest =>
      match step awaited brackets token with
      | .ok (awaited, brackets) => skipFrom awaited brackets rest
      | .error error => .error error
termination_by structural tokens

/-- Passes over one value. -/
def skipValue (tokens : List Token) : Except Error (List Token) :=
  skipFrom .value [] tokens

theorem length_le_of_skipFrom {awaited : Awaited} {brackets : List Bracket}
    {tokens rest : List Token} (passed : skipFrom awaited brackets tokens = .ok rest) :
    rest.length ≤ tokens.length := by
  induction tokens generalizing awaited brackets with
  | nil =>
    unfold skipFrom at passed
    split at passed <;> simp_all
  | cons token later ih =>
    unfold skipFrom at passed
    split at passed
    · simp_all
    · dsimp only at passed
      split at passed
      · have := ih passed
        simp
        omega
      · simp at passed

theorem length_le_of_skipValue {tokens rest : List Token}
    (passed : skipValue tokens = .ok rest) : rest.length ≤ tokens.length :=
  length_le_of_skipFrom passed

end Agenda.Json
