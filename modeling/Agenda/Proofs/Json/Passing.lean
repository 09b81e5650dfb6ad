import Agenda.Json.Skip
import Agenda.Proofs.Json.Tokens

/-!
# Passing over values

`Derives.skipFrom_append` is the exactness of passing over: each part of a
document is passed over up to its last character and no further, however deep
its values nest.  It goes by induction on the grammar, with the bracket that is
open around a part among those of the list.
-/

namespace Agenda.Json

/-- Passing over goes on after a token that is taken. -/
theorem skipFrom_of_step
    {awaited next : Awaited}
    {brackets inner : List Bracket}
    {token : Token}
    (stepped : step awaited brackets token = .ok (next, inner))
    (rest : List Token) :
    skipFrom awaited brackets (token :: rest) = skipFrom next inner rest := by
  have going : ¬ (awaited = .separator ∧ brackets = []) := by
    rintro ⟨rfl, rfl⟩
    cases stepped
  rw [skipFrom, if_neg going]
  simp only [stepped]

namespace Part

/-- What may be awaited where a part of a document starts. -/
def StartsAt : Part → Awaited → Prop
  | .value, awaited => awaited = .value ∨ awaited = .valueOrEnd
  | .element _, awaited => awaited = .value ∨ awaited = .valueOrEnd
  | .elements values, awaited => awaited = .valueOrEnd ∨ awaited = .value ∧ values ≠ []
  | .member _, awaited => awaited = .key ∨ awaited = .keyOrEnd
  | .members named, awaited => awaited = .keyOrEnd ∨ awaited = .key ∧ named ≠ []

/-- The bracket that is open around a part. -/
def around : Part → List Bracket
  | .elements _ => [.list]
  | .members _ => [.object]
  | _ => []

/-- The bracket that closes after a part. -/
def closing : Part → List Char
  | .elements _ => [']']
  | .members _ => ['}']
  | _ => []

end Part

/-- Where a value may start, a token that starts one is taken as such. -/
theorem step_of_stepValue
    {awaited : Awaited}
    {brackets : List Bracket}
    {token : Token}
    {result : Awaited × List Bracket}
    (starts : awaited = .value ∨ awaited = .valueOrEnd)
    (stepped : stepValue brackets token = .ok result) :
    step awaited brackets token = .ok result := by
  rcases starts with rfl | rfl
  · cases token <;> exact stepped
  · rcases brackets with _ | ⟨_ | _, outer⟩
    · cases token <;> exact stepped
    · cases token with
      | closeList =>
          cases stepped
      | _ =>
          exact stepped
    · cases token <;> exact stepped

theorem skipFrom_of_stepValue
    {awaited next : Awaited}
    {brackets inner : List Bracket}
    {token : Token}
    (starts : awaited = .value ∨ awaited = .valueOrEnd)
    (stepped : stepValue brackets token = .ok (next, inner))
    (rest : List Token) :
    skipFrom awaited brackets (token :: rest) = skipFrom next inner rest :=
  skipFrom_of_step (step_of_stepValue starts stepped) rest

theorem step_key
    {awaited : Awaited}
    (starts : awaited = .key ∨ awaited = .keyOrEnd)
    (brackets : List Bracket)
    (read : Except Error String) :
    step awaited brackets (.quoted read (.ok ())) = .ok (.colon, brackets) := by
  rcases starts with rfl | rfl
  · rfl
  · rcases brackets with _ | ⟨_ | _, outer⟩ <;> rfl

/--
A part of a document is passed over with the bracket that closes after it, and
nothing else is.  Each case takes the tokens that its production adds; after the
comma of a list a value must follow, so what is left of the list is not empty.
-/
theorem Derives.skipFrom_append
    {part : Part}
    {text : List Char}
    (derived : Derives part text)
    {awaited : Awaited}
    (starts : part.StartsAt awaited)
    (brackets : List Bracket)
    (rest : List Char)
    (ends : EndsNumber (part.closing ++ rest)) :
    skipFrom awaited (part.around ++ brackets) (tokensOf (text ++ (part.closing ++ rest))) =
      skipFrom .separator brackets (tokensOf rest) := by
  induction derived generalizing awaited brackets rest with
  | string isString =>
      rcases isString.tokensOf_append rest with ⟨read, -, cut⟩
      exact (congrArg _ cut).trans (skipFrom_of_stepValue starts rfl _)
  | number isNumber =>
      rcases isNumber.tokensOf_append ends with ⟨read, cut⟩
      exact (congrArg _ cut).trans (skipFrom_of_stepValue starts rfl _)
  | literal listed =>
      have cut := tokensOf_literal_append listed rest
      exact (congrArg _ cut).trans (skipFrom_of_stepValue starts rfl _)
  | list _ ih =>
      have inside := ih (.inl rfl) brackets rest (endsNumber_mark ']' (by decide) rest)
      simp only [List.cons_append, List.append_assoc, tokensOf_mark]
      exact (skipFrom_of_stepValue starts rfl _).trans inside
  | object _ ih =>
      have inside := ih (.inl rfl) brackets rest (endsNumber_mark '}' (by decide) rest)
      simp only [List.cons_append, List.append_assoc, tokensOf_mark]
      exact (skipFrom_of_stepValue starts rfl _).trans inside
  | @element _ _ after spacesBefore _ spacesAfter ih =>
      have passed := ih starts brackets (after ++ rest) (ends.spaces_append spacesAfter)
      rw [List.append_assoc, List.append_assoc, tokensOf_spaces_append spacesBefore]
      exact passed.trans (congrArg _ (tokensOf_spaces_append spacesAfter rest))
  | noElements areSpaces =>
      rcases starts with rfl | ⟨rfl, nonempty⟩
      · rw [tokensOf_spaces_append areSpaces]
        simp only [Part.closing, List.cons_append, tokensOf_mark]
        exact skipFrom_of_step rfl _
      · exact absurd rfl nonempty
  | lastElement _ ih =>
      refine (ih (starts.symm.imp_left And.left) (.list :: brackets) _ ends).trans ?_
      simp only [tokensOf_mark]
      exact skipFrom_of_step rfl _
  | @moreElements _ _ _ later _ _ _ first more =>
      have passed := first (starts.symm.imp_left And.left) (.list :: brackets)
        (',' :: later ++ ']' :: rest) (endsNumber_mark ',' (by decide) _)
      rw [List.append_assoc]
      refine passed.trans ?_
      simp only [List.cons_append, tokensOf_mark]
      exact (skipFrom_of_step rfl _).trans (more (.inr ⟨rfl, by simp⟩) brackets rest ends)
  | member spacesBefore isKey spacesAfter _ ih =>
      simp only [List.append_assoc]
      rw [tokensOf_spaces_append spacesBefore]
      rcases isKey.tokensOf_append _ with ⟨read, -, cut⟩
      rw [cut, tokensOf_spaces_append spacesAfter, skipFrom_of_step (step_key starts _ read)]
      simp only [List.cons_append, tokensOf_mark]
      exact (skipFrom_of_step rfl _).trans (ih (.inl rfl) brackets rest ends)
  | noMembers areSpaces =>
      rcases starts with rfl | ⟨rfl, nonempty⟩
      · rw [tokensOf_spaces_append areSpaces]
        simp only [Part.closing, List.cons_append, tokensOf_mark]
        exact skipFrom_of_step rfl _
      · exact absurd rfl nonempty
  | lastMember _ ih =>
      refine (ih (starts.symm.imp_left And.left) (.object :: brackets) _ ends).trans ?_
      simp only [tokensOf_mark]
      exact skipFrom_of_step rfl _
  | @moreMembers _ _ _ _ later _ _ first more =>
      have passed := first (starts.symm.imp_left And.left) (.object :: brackets)
        (',' :: later ++ '}' :: rest) (endsNumber_mark ',' (by decide) _)
      rw [List.append_assoc]
      refine passed.trans ?_
      simp only [List.cons_append, tokensOf_mark]
      exact (skipFrom_of_step rfl _).trans (more (.inr ⟨rfl, by simp⟩) brackets rest ends)

/-- A value with the spaces around it is passed over where no number goes on after it. -/
theorem Derives.skipValue_append
    {value text rest : List Char}
    (derived : Derives (.element value) text)
    (ends : EndsNumber rest) :
    skipValue (tokensOf (text ++ rest)) = .ok (tokensOf rest) := by
  refine (derived.skipFrom_append (.inl rfl) [] rest ends).trans ?_
  rw [skipFrom.eq_def, if_pos ⟨rfl, rfl⟩]

end Agenda.Json
