import Agenda.Proofs.Json.Passing
import Agenda.Task.Document

/-!
# Reading the members of a task document

`Takes` says what a member does to the fields that have been read: it gives a
new field its text, or it has another key and does nothing.  The reader of an
object follows this relation member by member, and `readDraft_eq_ok_iff` puts
its steps together: an object is read up to its last bracket, as what its
members give in the order in which they are written.
-/

namespace Agenda

open Json

namespace TaskField

theorem key_injective
    {first second : TaskField}
    (equal : first.key = second.key) :
    first = second := by
  cases first <;> cases second <;> first | rfl | exact absurd equal (by decide)

theorem mem_all
    (field : TaskField) :
    field ∈ all := by
  cases field <;> decide

theorem ofKey?_key
    (field : TaskField) :
    ofKey? field.key = some field := by
  cases field <;> decide

theorem ofKey?_eq_some_iff
    {key : String}
    {field : TaskField} :
    ofKey? key = some field ↔ field.key = key := by
  constructor
  · intro found
    simpa using List.find?_some found
  · rintro rfl
    exact ofKey?_key field

theorem ofKey?_eq_none_iff
    {key : String} :
    ofKey? key = none ↔ ∀ field : TaskField, field.key ≠ key := by
  simp [ofKey?, mem_all]

end TaskField

namespace TaskDocument

/-! ## Reading a member -/

/-- What reading a member does to the fields that have been read. -/
inductive Takes (draft : TaskDraft) (member : Member) : TaskDraft → Prop
  | field
      {field : TaskField}
      {text : String}
      (named : Spells member.key field.key)
      (fresh : draft.lookup field = none)
      (given : Spells member.value text) :
      Takes draft member ((field, text) :: draft)
  | other
      {key : String}
      (spelled : Spells member.key key)
      (unknown : ∀ field : TaskField, field.key ≠ key) :
      Takes draft member draft

theorem Takes.readable
    {draft longer : TaskDraft}
    {member : Member}
    (takes : Takes draft member longer) :
    ∃ key, Spells member.key key := by
  cases takes with
  | field named _ _ =>
      exact ⟨_, named⟩
  | other spelled _ =>
      exact ⟨_, spelled⟩

/-- The value of a field is read if it is a string that spells a text. -/
theorem readText_append
    {value text rest : List Char}
    {result : String}
    {later : List Token}
    (derived : Derives (.element value) text)
    (ends : EndsNumber rest) :
    readText (tokensOf (text ++ rest)) = .ok (result, later) ↔
      Spells value result ∧ later = tokensOf rest := by
  cases derived with
  | @element before _ after spacesBefore isValue spacesAfter =>
      have cut : tokensOf (before ++ value ++ after ++ rest) =
          tokensOf (value ++ (after ++ rest)) := by
        rw [List.append_assoc, List.append_assoc, tokensOf_spaces_append spacesBefore]
      have ends := ends.spaces_append spacesAfter
      rw [cut, ← tokensOf_spaces_append spacesAfter rest]
      constructor
      · intro read
        cases isValue with
        | string isString =>
            rcases isString.tokensOf_append (after ++ rest) with ⟨decoded, reads, cut⟩
            rw [cut] at read
            rcases exists_of_bind_eq_ok read with ⟨text, isDecoded, returned⟩
            cases returned
            exact ⟨(reads result).1 isDecoded, rfl⟩
        | number isNumber =>
            rcases isNumber.tokensOf_append ends with ⟨decoded, cut⟩
            rw [cut] at read
            cases decoded <;> cases read
        | literal listed =>
            rw [tokensOf_literal_append listed] at read
            cases read
        | list _ =>
            simp only [List.cons_append, tokensOf_mark] at read
            cases read
        | object _ =>
            simp only [List.cons_append, tokensOf_mark] at read
            cases read
      · rintro ⟨spelled, rfl⟩
        rcases spelled.isString.tokensOf_append (after ++ rest) with ⟨decoded, reads, cut⟩
        rw [cut, (reads result).2 spelled]
        rfl

/-- Reading a member after its key, which spells the given text. -/
theorem readMember_append
    {draft longer : TaskDraft}
    {member : Member}
    {key : String}
    {text rest : List Char}
    {later : List Token}
    (spelled : Spells member.key key)
    (derived : Derives (.element member.value) text)
    (ends : EndsNumber rest) :
    readMember draft key (.colon :: tokensOf (text ++ rest)) = .ok (longer, later) ↔
      Takes draft member longer ∧ later = tokensOf rest := by
  constructor
  · intro read
    unfold readMember at read
    split at read
    case h_1 field named =>
      rw [TaskField.ofKey?_eq_some_iff] at named
      subst named
      split at read
      case isTrue =>
        cases read
      case isFalse fresh =>
        rcases exists_of_bind_eq_ok read with ⟨_, colon, read⟩
        cases colon
        rcases exists_of_bind_eq_ok read with ⟨⟨result, _⟩, textRead, returned⟩
        cases returned
        rcases (readText_append derived ends).1 textRead with ⟨given, rfl⟩
        rw [Bool.not_eq_true, Option.isSome_eq_false_iff, Option.isNone_iff_eq_none] at fresh
        exact ⟨.field spelled fresh given, rfl⟩
    case h_2 unknown =>
      rw [TaskField.ofKey?_eq_none_iff] at unknown
      rcases exists_of_bind_eq_ok read with ⟨_, colon, read⟩
      cases colon
      rcases exists_of_bind_eq_ok read with ⟨_, passed, returned⟩
      rw [derived.skipValue_append ends] at passed
      cases passed
      cases returned
      exact ⟨.other spelled unknown, rfl⟩
  · rintro ⟨takes, rfl⟩
    cases takes with
    | @field field result named fresh given =>
        rw [spelled.unique named, readMember, TaskField.ofKey?_key]
        simp only [fresh, Option.isSome_none, Bool.false_eq_true, if_false, readColon, bind,
          Except.bind, (readText_append derived ends).2 ⟨given, rfl⟩]
        rfl
    | other otherSpelled unknown =>
        rw [← spelled.unique otherSpelled] at unknown
        rw [readMember, TaskField.ofKey?_eq_none_iff.2 unknown]
        simp only [readColon, bind, Except.bind, derived.skipValue_append ends]
        rfl

/-- The tokens of a member are its key, a colon and its value. -/
theorem exists_tokensOf_member
    {member : Member}
    {text : List Char}
    (derived : Derives (.member member) text)
    (rest : List Char) :
    ∃ read element, (∀ key, read = .ok key ↔ Spells member.key key) ∧
      Derives (.element member.value) element ∧
      tokensOf (text ++ rest) = .quoted read (.ok ()) :: .colon :: tokensOf (element ++ rest) := by
  cases derived with
  | @member before key after value element spacesBefore isKey spacesAfter isElement =>
      rcases isKey.tokensOf_append (after ++ (':' :: element ++ rest)) with ⟨read, reads, cut⟩
      refine ⟨read, element, reads, isElement, ?_⟩
      simp only [List.append_assoc]
      rw [tokensOf_spaces_append spacesBefore, cut, tokensOf_spaces_append spacesAfter]
      simp only [List.cons_append, tokensOf_mark]

/-! ## Reading an object -/

/-- What reading all members does, in the order in which they are written. -/
inductive TakesAll : TaskDraft → List Member → TaskDraft → Prop
  | nil
      {draft : TaskDraft} :
      TakesAll draft [] draft
  | cons
      {draft longer final : TaskDraft}
      {member : Member}
      {members : List Member}
      (first : Takes draft member longer)
      (later : TakesAll longer members final) :
      TakesAll draft (member :: members) final

theorem takesAll_nil_iff
    {draft final : TaskDraft} :
    TakesAll draft [] final ↔ draft = final := by
  constructor
  · intro takes
    cases takes
    rfl
  · rintro rfl
    exact .nil

theorem takesAll_cons_iff
    {draft final : TaskDraft}
    {member : Member}
    {members : List Member} :
    TakesAll draft (member :: members) final ↔
      ∃ longer, Takes draft member longer ∧ TakesAll longer members final := by
  constructor
  · intro takes
    cases takes with
    | cons first later =>
        exact ⟨_, first, later⟩
  · rintro ⟨longer, first, later⟩
    exact .cons first later

/-- After a comma a key is read, then the member, then what is left. -/
theorem readMembers_quoted_eq_ok_iff
    {draft : TaskDraft}
    {read : Except Error String}
    {skipped : Except Error Unit}
    {rest : List Token}
    {result : TaskDraft × List Token} :
    readMembers draft (.comma :: .quoted read skipped :: rest) = .ok result ↔
      ∃ key longer later, read = .ok key ∧ readMember draft key rest = .ok (longer, later) ∧
        readMembers longer later = .ok result := by
  cases read with
  | error cause =>
      rw [readMembers.eq_def]
      simp
  | ok key =>
      rw [readMembers.eq_def]
      dsimp only
      split
      case h_1 refused =>
        simp [refused]
      case h_2 longer later memberRead =>
        constructor
        · exact fun succeeded => ⟨key, longer, later, rfl, memberRead, succeeded⟩
        · rintro ⟨_, _, _, isKey, otherRead, succeeded⟩
          cases isKey
          rw [memberRead] at otherRead
          cases otherRead
          exact succeeded

/-- Reading goes on after a comma with the member that is written there. -/
theorem readMembers_comma_eq_ok_iff
    {draft : TaskDraft}
    {member : Member}
    {text rest : List Char}
    {result : TaskDraft × List Token}
    (derived : Derives (.member member) text)
    (ends : EndsNumber rest) :
    readMembers draft (.comma :: tokensOf (text ++ rest)) = .ok result ↔
      ∃ longer, Takes draft member longer ∧ readMembers longer (tokensOf rest) = .ok result := by
  rcases exists_tokensOf_member derived rest with ⟨read, element, reads, isElement, cut⟩
  rw [cut, readMembers_quoted_eq_ok_iff]
  constructor
  · rintro ⟨key, longer, later, isKey, memberRead, succeeded⟩
    rcases (readMember_append ((reads key).1 isKey) isElement ends).1 memberRead with
      ⟨takes, rfl⟩
    exact ⟨longer, takes, succeeded⟩
  · rintro ⟨longer, takes, succeeded⟩
    rcases takes.readable with ⟨key, spelled⟩
    have memberRead := (readMember_append spelled isElement ends).2 ⟨takes, rfl⟩
    exact ⟨key, longer, _, (reads key).2 spelled, memberRead, succeeded⟩

/--
All members are read up to the bracket that closes the object: after each of
them stands a comma with more members, or that bracket.
-/
theorem readMembers_eq_ok_iff
    {draft final : TaskDraft}
    {member : Member}
    {members : List Member}
    {text rest : List Char}
    {later : List Token}
    (derived : Derives (.members (member :: members)) text) :
    readMembers draft (.comma :: tokensOf (text ++ '}' :: rest)) = .ok (final, later) ↔
      TakesAll draft (member :: members) final ∧ later = tokensOf rest := by
  induction members generalizing member draft text with
  | nil =>
      cases derived with
      | lastMember last =>
          rw [readMembers_comma_eq_ok_iff last (endsNumber_mark '}' (by decide) rest)]
          have closes (longer : TaskDraft) :
              readMembers longer (tokensOf ('}' :: rest)) = .ok (longer, tokensOf rest) := by
            simp only [tokensOf_mark]
            rw [readMembers]
          simp only [closes, takesAll_cons_iff, takesAll_nil_iff]
          constructor
          · rintro ⟨longer, takes, returned⟩
            cases returned
            exact ⟨⟨final, takes, rfl⟩, rfl⟩
          · rintro ⟨⟨longer, takes, rfl⟩, rfl⟩
            exact ⟨longer, takes, rfl⟩
  | cons next members ih =>
      cases derived with
      | moreMembers first more =>
          rw [List.append_assoc, List.cons_append,
            readMembers_comma_eq_ok_iff first (endsNumber_mark ',' (by decide) _)]
          simp only [tokensOf_mark, ih more]
          constructor
          · rintro ⟨longer, takes, takesLater, rfl⟩
            exact ⟨.cons takes takesLater, rfl⟩
          · rintro ⟨takes, rfl⟩
            rcases takesAll_cons_iff.1 takes with ⟨longer, takes, takesLater⟩
            exact ⟨longer, takes, takesLater, rfl⟩

/-- The first member of an object is read as if it stood after a comma. -/
theorem readObject_quoted
    (read : Except Error String)
    (skipped : Except Error Unit)
    (rest : List Token) :
    readObject (.quoted read skipped :: rest) =
      readMembers [] (.comma :: .quoted read skipped :: rest) := by
  rw [readMembers.eq_def]
  cases read with
  | error cause =>
      rfl
  | ok key =>
      dsimp only [readObject, bind, Except.bind]
      cases readMember [] key rest <;> rfl

theorem exists_tokensOf_members
    {member : Member}
    {members : List Member}
    {text : List Char}
    (derived : Derives (.members (member :: members)) text)
    (rest : List Char) :
    ∃ read skipped tail, tokensOf (text ++ rest) = .quoted read skipped :: tail := by
  cases derived with
  | lastMember last =>
      rcases exists_tokensOf_member last rest with ⟨_, _, _, _, cut⟩
      exact ⟨_, _, _, cut⟩
  | @moreMembers _ _ _ text later first _ =>
      rcases exists_tokensOf_member first (',' :: later ++ rest) with ⟨_, _, _, _, cut⟩
      rw [List.append_assoc]
      exact ⟨_, _, _, cut⟩

/-- An object at the front of a text is read as what its members give, and no further. -/
theorem readDraft_eq_ok_iff
    {text : List Char}
    {members : List Member}
    {draft : TaskDraft}
    {later : List Token}
    (isObject : IsObject text members)
    (rest : List Char) :
    readDraft (tokensOf (text ++ rest)) = .ok (draft, later) ↔
      TakesAll [] members draft ∧ later = tokensOf rest := by
  rcases isObject with ⟨before, inside, after, rfl, spacesBefore, derived, spacesAfter⟩
  have cut : tokensOf (before ++ '{' :: inside ++ '}' :: after ++ rest) =
      .openObject :: tokensOf (inside ++ '}' :: (after ++ rest)) := by
    simp only [List.append_assoc, List.cons_append, tokensOf_spaces_append spacesBefore,
      tokensOf_mark]
  rw [cut, ← tokensOf_spaces_append spacesAfter rest]
  cases members with
  | nil =>
      cases derived with
      | noMembers areSpaces =>
          rw [tokensOf_spaces_append areSpaces]
          simp only [tokensOf_mark, readDraft, readObject, takesAll_nil_iff, Except.ok.injEq,
            Prod.mk.injEq, eq_comm]
  | cons member members =>
      rcases exists_tokensOf_members derived ('}' :: (after ++ rest)) with
        ⟨read, skipped, tail, starts⟩
      rw [← readMembers_eq_ok_iff derived, starts, ← readObject_quoted]
      rfl

end TaskDocument

end Agenda
