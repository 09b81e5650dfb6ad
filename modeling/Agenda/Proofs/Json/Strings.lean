import Agenda.Json.Quoted
import Agenda.Proofs.Json.Grammar
import Mathlib.Tactic.ByContra

/-!
# Reading, passing over and writing strings

`readQuoted_eq_ok_iff` says which texts a string is read as, and
`skipQuoted_eq_ok_iff` where a string that is passed over ends.  The first one
decodes, so a string spells one text at most; the second one knows only the
grammar, so it also passes over the strings that spell none.
-/

namespace Agenda.Json

/-! ## Code units -/

/--
A hexadecimal digit is read as its value.  Beyond the letter `f` nothing is
read, which leaves finitely many characters to check.
-/
theorem hexValue?_eq_some_iff
    {char : Char}
    {value : Nat} :
    hexValue? char = some value ↔ IsHexDigit char value := by
  constructor
  · intro read
    have digits : ∀ code < 103, ∀ value ∈ hexValue? (Char.ofNat code), value < 16 ∧
        (Char.ofNat code = Nat.digitChar value ∨
          Char.ofNat code = (Nat.digitChar value).toUpper) := by
      decide
    have bound : char.toNat < 103 := by
      by_contra large
      have beyond (last : Char) (small : last.toNat < 103) : ¬ char ≤ last := by
        intro le
        have le : char.toNat ≤ last.toNat := le
        omega
      have none : hexValue? char = none := by
        simp only [hexValue?, beyond '9' (by decide), beyond 'f' (by decide),
          beyond 'F' (by decide), and_false, if_false]
      rw [none] at read
      cases read
    have found := digits char.toNat bound value
    rw [Char.ofNat_toNat] at found
    exact found read
  · rintro ⟨bound, written⟩
    have read : ∀ value < 16, hexValue? (Nat.digitChar value) = some value ∧
        hexValue? (Nat.digitChar value).toUpper = some value := by
      decide
    rcases written with rfl | rfl
    · exact (read value bound).1
    · exact (read value bound).2

theorem hexUnit?_eq_some_iff
    {first second third fourth : Char}
    {unit : Nat} :
    hexUnit? first second third fourth = some unit ↔
      SpellsUnit [first, second, third, fourth] unit := by
  simp only [hexUnit?, Option.bind_eq_bind, Option.bind_eq_some_iff, Option.pure_def,
    Option.some.injEq, hexValue?_eq_some_iff]
  constructor
  · rintro ⟨w, isFirst, x, isSecond, y, isThird, z, isFourth, rfl⟩
    exact .digits isFirst isSecond isThird isFourth
  · rintro ⟨isFirst, isSecond, isThird, isFourth⟩
    exact ⟨_, isFirst, _, isSecond, _, isThird, _, isFourth, rfl⟩

/-- Four hexadecimal digits are read where they stand. -/
theorem readUnit_eq_ok_iff
    {text rest : List Char}
    {unit : Nat} :
    readUnit text = .ok (unit, rest) ↔
      ∃ digits, text = digits ++ rest ∧ SpellsUnit digits unit := by
  constructor
  · intro read
    unfold readUnit at read
    split at read
    case h_1 first second third fourth later =>
      split at read
      case h_1 spelled =>
        cases read
        exact ⟨_, rfl, hexUnit?_eq_some_iff.1 spelled⟩
      case h_2 =>
        cases read
    case h_2 =>
      split at read <;> cases read
  · rintro ⟨digits, rfl, spelled⟩
    cases spelled with
    | digits isFirst isSecond isThird isFourth =>
        have value := hexUnit?_eq_some_iff.2 (.digits isFirst isSecond isThird isFourth)
        simp only [List.cons_append, List.nil_append, readUnit, value]

theorem SpellsUnit.readUnit_append
    {digits : List Char}
    {unit : Nat}
    (spelled : SpellsUnit digits unit)
    (rest : List Char) :
    readUnit (digits ++ rest) = .ok (unit, rest) :=
  readUnit_eq_ok_iff.2 ⟨digits, rfl, spelled⟩

theorem SpellsUnit.lt
    {digits : List Char}
    {unit : Nat}
    (spelled : SpellsUnit digits unit) :
    unit < 0x10000 := by
  cases spelled with
  | digits isFirst isSecond isThird isFourth =>
      have first := isFirst.1
      have second := isSecond.1
      have third := isThird.1
      have fourth := isFourth.1
      omega

/-! ## Escapes -/

theorem simpleEscape?_eq_some_iff
    {letter char : Char} :
    simpleEscape? letter = some char ↔ (letter, char) ∈ shortEscapes := by
  constructor
  · intro escaped
    unfold simpleEscape? at escaped
    split at escaped <;> cases escaped <;> decide
  · intro listed
    simp only [shortEscapes, List.mem_cons, Prod.mk.injEq, List.not_mem_nil, or_false] at listed
    rcases listed with
      ⟨rfl, rfl⟩ | ⟨rfl, rfl⟩ | ⟨rfl, rfl⟩ | ⟨rfl, rfl⟩ | ⟨rfl, rfl⟩ | ⟨rfl, rfl⟩ | ⟨rfl, rfl⟩ |
      ⟨rfl, rfl⟩ <;> rfl

/-- A code point that is no half of a surrogate pair is the number of its character. -/
theorem toNat_ofNat
    {code : Nat}
    (isValid : code.isValidChar) :
    (Char.ofNat code).toNat = code := by
  rw [Char.ofNat, dif_pos isValid]
  rfl

theorem isLeadUnit_eq_true_iff
    {unit : Nat} :
    isLeadUnit unit = true ↔ 0xD800 ≤ unit ∧ unit ≤ 0xDBFF := by
  simp [isLeadUnit]

theorem isTrailUnit_eq_true_iff
    {unit : Nat} :
    isTrailUnit unit = true ↔ 0xDC00 ≤ unit ∧ unit ≤ 0xDFFF := by
  simp [isTrailUnit]

/-- The second half of a surrogate pair is read where it stands. -/
theorem readTrail_eq_ok_iff
    {lead : Nat}
    {text rest : List Char}
    {char : Char} :
    readTrail lead text = .ok (char, rest) ↔
      ∃ second trail, text = '\\' :: 'u' :: second ++ rest ∧ SpellsUnit second trail ∧
        isTrailUnit trail = true ∧ Char.ofNat (pairedCodePoint lead trail) = char := by
  constructor
  · intro read
    unfold readTrail at read
    split at read
    case h_3 after =>
      rcases exists_of_bind_eq_ok read with ⟨⟨trail, later⟩, unitRead, accepted⟩
      rcases readUnit_eq_ok_iff.1 unitRead with ⟨second, rfl, spelled⟩
      dsimp only at accepted
      split at accepted
      case isTrue isTrail =>
        simp only [Except.ok.injEq, Prod.mk.injEq] at accepted
        rcases accepted with ⟨value, rfl⟩
        exact ⟨second, trail, rfl, spelled, isTrail, value⟩
      case isFalse =>
        cases accepted
    all_goals cases read
  · rintro ⟨second, trail, rfl, spelled, isTrail, value⟩
    simp only [List.cons_append, readTrail, spelled.readUnit_append, bind, Except.bind, isTrail,
      if_true, value]

/-- An escape is read where it stands, and as the character that it spells. -/
theorem readEscape_eq_ok_iff
    {text rest : List Char}
    {char : Char} :
    readEscape text = .ok (char, rest) ↔
      ∃ piece, text = piece ++ rest ∧ SpellsChar ('\\' :: piece) char := by
  constructor
  · intro read
    unfold readEscape at read
    split at read
    case h_1 =>
      cases read
    case h_2 after =>
      rcases exists_of_bind_eq_ok read with ⟨⟨unit, later⟩, unitRead, accepted⟩
      rcases readUnit_eq_ok_iff.1 unitRead with ⟨digits, rfl, spelled⟩
      dsimp only at accepted
      split at accepted
      case isTrue =>
        cases accepted
      case isFalse notTrail =>
        rw [isTrailUnit_eq_true_iff] at notTrail
        split at accepted
        case isTrue isLead =>
          rw [isLeadUnit_eq_true_iff] at isLead
          rcases readTrail_eq_ok_iff.1 accepted with
            ⟨second, trail, rfl, trailSpelled, isTrail, value⟩
          rw [isTrailUnit_eq_true_iff] at isTrail
          have isValid : (pairedCodePoint unit trail).isValidChar := by
            unfold pairedCodePoint Nat.isValidChar
            omega
          have number := toNat_ofNat isValid
          rw [value] at number
          exact ⟨'u' :: digits ++ '\\' :: 'u' :: second, by simp,
            .pair spelled trailSpelled isLead isTrail number⟩
        case isFalse notLead =>
          rw [isLeadUnit_eq_true_iff] at notLead
          cases accepted
          have bound := spelled.lt
          have isValid : unit.isValidChar := by
            simp only [Nat.isValidChar]
            omega
          refine ⟨'u' :: digits, rfl, .unit ?_⟩
          rw [toNat_ofNat isValid]
          exact spelled
    case h_3 letter later _ =>
      split at read
      case h_1 escaped =>
        cases read
        exact ⟨[letter], rfl, .short (simpleEscape?_eq_some_iff.1 escaped)⟩
      case h_2 =>
        cases read
  · rintro ⟨piece, rfl, spelled⟩
    cases spelled with
    | plain isPlain =>
        exact absurd rfl isPlain.2.2
    | @short letter _ listed =>
        have escaped := simpleEscape?_eq_some_iff.2 listed
        have notUnit : letter ≠ 'u' := by
          rintro rfl
          cases escaped
        simp [readEscape, escaped]
    | unit spelled =>
        have isValid : char.toNat.isValidChar := char.valid
        unfold Nat.isValidChar at isValid
        have notTrail : ¬ isTrailUnit char.toNat = true := by
          rw [isTrailUnit_eq_true_iff]
          omega
        have notLead : ¬ isLeadUnit char.toNat = true := by
          rw [isLeadUnit_eq_true_iff]
          omega
        simp only [List.cons_append, readEscape, spelled.readUnit_append, bind, Except.bind,
          notTrail, notLead, Bool.false_eq_true, if_false, Char.ofNat_toNat]
    | @pair first second lead trail _ leadSpelled trailSpelled isLead isTrail value =>
        have notTrail : ¬ isTrailUnit lead = true := by
          rw [isTrailUnit_eq_true_iff]
          omega
        have leads : isLeadUnit lead = true := isLeadUnit_eq_true_iff.2 isLead
        have decoded : Char.ofNat (pairedCodePoint lead trail) = char := by
          unfold pairedCodePoint
          rw [← value]
          exact Char.ofNat_toNat char
        have trailRead : readTrail lead ('\\' :: 'u' :: second ++ rest) = .ok (char, rest) :=
          readTrail_eq_ok_iff.2
            ⟨second, trail, rfl, trailSpelled, isTrailUnit_eq_true_iff.2 isTrail, decoded⟩
        change readEscape ('u' :: (first ++ '\\' :: 'u' :: second) ++ rest) = _
        simp only [List.cons_append, List.append_assoc] at trailRead ⊢
        simp only [readEscape, leadSpelled.readUnit_append,
          bind, Except.bind, notTrail, leads, Bool.false_eq_true, if_true, if_false, trailRead]

/-- An escape is passed over where it stands. -/
theorem skipEscape_eq_ok_iff
    {text rest : List Char} :
    skipEscape text = .ok rest ↔ ∃ piece, text = piece ++ rest ∧ IsPiece ('\\' :: piece) := by
  constructor
  · intro passed
    unfold skipEscape at passed
    split at passed
    case h_1 =>
      cases passed
    case h_2 after =>
      rcases exists_of_bind_eq_ok passed with ⟨⟨unit, later⟩, unitRead, ended⟩
      rcases readUnit_eq_ok_iff.1 unitRead with ⟨digits, rfl, spelled⟩
      cases ended
      exact ⟨'u' :: digits, rfl, .unit spelled⟩
    case h_3 letter later _ =>
      split at passed
      case isTrue escaped =>
        rcases Option.isSome_iff_exists.1 escaped with ⟨char, escaped⟩
        cases passed
        exact ⟨[letter], rfl, .short (simpleEscape?_eq_some_iff.1 escaped)⟩
      case isFalse =>
        cases passed
  · rintro ⟨piece, rfl, isPiece⟩
    cases isPiece with
    | plain isPlain =>
        exact absurd rfl isPlain.2.2
    | @short letter _ listed =>
        have escaped := simpleEscape?_eq_some_iff.2 listed
        have notUnit : letter ≠ 'u' := by
          rintro rfl
          cases escaped
        simp [skipEscape, escaped]
    | unit spelled =>
        simp only [List.cons_append, skipEscape, spelled.readUnit_append]
        rfl

/-! ## Strings -/

theorem IsPlain.not_lt
    {char : Char}
    (isPlain : IsPlain char) :
    ¬ char < ' ' := by
  simpa using isPlain.1

theorem isPlain_of_not_lt
    {char : Char}
    (notQuote : char ≠ '"')
    (notBackslash : char ≠ '\\')
    (printable : ¬ char < ' ') :
    IsPlain char :=
  ⟨by simpa using printable, notQuote, notBackslash⟩

theorem readQuotedOnto_plain
    {char : Char}
    (isPlain : IsPlain char)
    (before text : List Char) :
    readQuotedOnto before (char :: text) = readQuotedOnto (char :: before) text := by
  rw [readQuotedOnto]
  · rw [if_neg isPlain.not_lt]
  · exact isPlain.2.1
  · exact isPlain.2.2

theorem readQuotedOnto_escape
    {escape rest : List Char}
    {char : Char}
    (escapeRead : readEscape escape = .ok (char, rest))
    (before : List Char) :
    readQuotedOnto before ('\\' :: escape) = readQuotedOnto (char :: before) rest := by
  rw [readQuotedOnto]
  split
  case h_1 refused =>
    rw [escapeRead] at refused
    cases refused
  case h_2 read =>
    rw [escapeRead] at read
    cases read
    rfl

theorem skipQuoted_plain
    {char : Char}
    (isPlain : IsPlain char)
    (text : List Char) :
    skipQuoted (char :: text) = skipQuoted text := by
  rw [skipQuoted]
  · rw [if_neg isPlain.not_lt]
  · exact isPlain.2.1
  · exact isPlain.2.2

theorem skipQuoted_escape
    {escape rest : List Char}
    (escapePassed : skipEscape escape = .ok rest) :
    skipQuoted ('\\' :: escape) = skipQuoted rest := by
  rw [skipQuoted]
  split
  case h_1 refused =>
    rw [escapePassed] at refused
    cases refused
  case h_2 passed =>
    rw [escapePassed] at passed
    cases passed
    rfl

/-- One character of a string is read, in whichever way it is spelled. -/
theorem SpellsChar.readQuotedOnto_append
    {piece : List Char}
    {char : Char}
    (spelled : SpellsChar piece char)
    (before text : List Char) :
    readQuotedOnto before (piece ++ text) = readQuotedOnto (char :: before) text := by
  have escaped {escape : List Char} (escapeSpelled : SpellsChar ('\\' :: escape) char) :
      readQuotedOnto before ('\\' :: escape ++ text) = readQuotedOnto (char :: before) text :=
    readQuotedOnto_escape (readEscape_eq_ok_iff.2 ⟨escape, rfl, escapeSpelled⟩) before
  cases spelled with
  | plain isPlain =>
      exact readQuotedOnto_plain isPlain before text
  | short listed =>
      exact escaped (.short listed)
  | unit spelled =>
      exact escaped (.unit spelled)
  | pair leadSpelled trailSpelled isLead isTrail value =>
      exact escaped (.pair leadSpelled trailSpelled isLead isTrail value)

/-- One part of a string is passed over. -/
theorem IsPiece.skipQuoted_append
    {piece : List Char}
    (isPiece : IsPiece piece)
    (text : List Char) :
    skipQuoted (piece ++ text) = skipQuoted text := by
  have escaped {escape : List Char} (isEscape : IsPiece ('\\' :: escape)) :
      skipQuoted ('\\' :: escape ++ text) = skipQuoted text :=
    skipQuoted_escape (skipEscape_eq_ok_iff.2 ⟨escape, rfl, isEscape⟩)
  cases isPiece with
  | plain isPlain =>
      exact skipQuoted_plain isPlain text
  | short listed =>
      exact escaped (.short listed)
  | unit spelled =>
      exact escaped (.unit spelled)

theorem SpellsText.readQuotedOnto_append
    {body chars : List Char}
    (spelled : SpellsText body chars)
    (before rest : List Char) :
    readQuotedOnto before (body ++ '"' :: rest) = .ok (before.reverse ++ chars, rest) := by
  induction spelled generalizing before with
  | nil =>
      simp [readQuotedOnto]
  | cons first _ ih =>
      rw [List.append_assoc, first.readQuotedOnto_append, ih]
      simp

theorem exists_of_readQuotedOnto
    {before text chars rest : List Char}
    (read : readQuotedOnto before text = .ok (chars, rest)) :
    ∃ body after, text = body ++ '"' :: rest ∧ SpellsText body after ∧
      chars = before.reverse ++ after := by
  fun_induction readQuotedOnto before text with
  | case1 =>
      cases read
  | case2 before later =>
      cases read
      exact ⟨[], [], rfl, .nil, by simp⟩
  | case3 =>
      cases read
  | case4 before text char later escapeRead _ ih =>
      rcases readEscape_eq_ok_iff.1 escapeRead with ⟨escape, rfl, spelled⟩
      rcases ih read with ⟨body, after, rfl, later, rfl⟩
      exact ⟨'\\' :: escape ++ body, char :: after, by simp, .cons spelled later, by simp⟩
  | case5 =>
      cases read
  | case6 before char text notQuote notBackslash printable ih =>
      rcases ih read with ⟨body, after, rfl, later, rfl⟩
      have isPlain := isPlain_of_not_lt notQuote notBackslash printable
      exact ⟨char :: body, char :: after, rfl, .cons (.plain isPlain) later, by simp⟩

theorem SpellsText.readQuoted_append
    {body chars : List Char}
    (spelled : SpellsText body chars)
    (rest : List Char) :
    readQuoted (body ++ '"' :: rest) = .ok (chars, rest) :=
  spelled.readQuotedOnto_append [] rest

/-- A string is read as the text that it spells, and only then. -/
theorem readQuoted_eq_ok_iff
    {text chars rest : List Char} :
    readQuoted text = .ok (chars, rest) ↔
      ∃ body, text = body ++ '"' :: rest ∧ SpellsText body chars := by
  constructor
  · intro read
    rcases exists_of_readQuotedOnto read with ⟨body, after, whole, spelled, rfl⟩
    exact ⟨body, whole, spelled⟩
  · rintro ⟨body, rfl, spelled⟩
    exact spelled.readQuoted_append rest

/-- A string is passed over up to its closing quote. -/
theorem IsStringBody.skipQuoted_append
    {body : List Char}
    (isBody : IsStringBody body)
    (rest : List Char) :
    skipQuoted (body ++ '"' :: rest) = .ok rest := by
  induction isBody with
  | nil =>
      simp [skipQuoted]
  | cons first _ ih =>
      rw [List.append_assoc, first.skipQuoted_append, ih]

theorem exists_of_skipQuoted
    {text rest : List Char}
    (passed : skipQuoted text = .ok rest) :
    ∃ body, text = body ++ '"' :: rest ∧ IsStringBody body := by
  fun_induction skipQuoted text with
  | case1 =>
      cases passed
  | case2 later =>
      cases passed
      exact ⟨[], rfl, .nil⟩
  | case3 =>
      cases passed
  | case4 text later escapePassed _ ih =>
      rcases skipEscape_eq_ok_iff.1 escapePassed with ⟨escape, rfl, isPiece⟩
      rcases ih passed with ⟨body, rfl, later⟩
      exact ⟨'\\' :: escape ++ body, by simp, .cons isPiece later⟩
  | case5 =>
      cases passed
  | case6 char text notQuote notBackslash printable ih =>
      rcases ih passed with ⟨body, rfl, later⟩
      have isPlain := isPlain_of_not_lt notQuote notBackslash printable
      exact ⟨char :: body, rfl, .cons (.plain isPlain) later⟩

/-- Where the string ends that is passed over. -/
theorem skipQuoted_eq_ok_iff
    {text rest : List Char} :
    skipQuoted text = .ok rest ↔ ∃ body, text = body ++ '"' :: rest ∧ IsStringBody body := by
  constructor
  · exact exists_of_skipQuoted
  · rintro ⟨body, rfl, isBody⟩
    exact isBody.skipQuoted_append rest

/-- A whole string is recognized by passing over it. -/
theorem isString_of_skipQuoted
    (text : List Char)
    (passed : skipQuoted text = .ok []) :
    IsString ('"' :: text) := by
  rcases skipQuoted_eq_ok_iff.1 passed with ⟨body, rfl, isBody⟩
  exact ⟨body, rfl, isBody⟩

/-- A string has one end, whatever follows it. -/
theorem IsStringBody.eq_of_append_eq
    {body other rest later : List Char}
    (isBody : IsStringBody body)
    (otherIsBody : IsStringBody other)
    (equal : body ++ '"' :: rest = other ++ '"' :: later) :
    body = other ∧ rest = later := by
  have passed := isBody.skipQuoted_append rest
  rw [equal, otherIsBody.skipQuoted_append later] at passed
  cases passed
  exact ⟨List.append_cancel_right equal, rfl⟩

/-- Reading the string at the front of a text gives the text that this string spells. -/
theorem IsStringBody.readQuoted_append
    {body : List Char}
    (isBody : IsStringBody body)
    (chars rest : List Char) :
    (∃ later, readQuoted (body ++ '"' :: rest) = .ok (chars, later)) ↔ SpellsText body chars := by
  constructor
  · rintro ⟨later, read⟩
    rcases readQuoted_eq_ok_iff.1 read with ⟨other, equal, spelled⟩
    rw [(isBody.eq_of_append_eq spelled.isStringBody equal).1]
    exact spelled
  · intro spelled
    exact ⟨rest, spelled.readQuoted_append rest⟩

/-- A string spells one text at most. -/
theorem Spells.unique
    {raw : List Char}
    {first second : String}
    (firstSpelled : Spells raw first)
    (secondSpelled : Spells raw second) :
    first = second := by
  rcases firstSpelled with ⟨body, rfl, firstSpelled⟩
  have read := firstSpelled.readQuoted_append []
  rw [(spells_iff.1 secondSpelled).readQuoted_append []] at read
  simp only [Except.ok.injEq, Prod.mk.injEq, and_true] at read
  exact (String.toList_inj.1 read).symm

/-! ## Written strings -/

theorem spellsUnit_hexPair
    {char : Char}
    (bound : char.toNat < 256) :
    SpellsUnit ('0' :: '0' :: hexPair char) char.toNat := by
  have zero : IsHexDigit '0' 0 := ⟨by decide, .inl rfl⟩
  have high : IsHexDigit (Nat.digitChar (char.toNat / 16)) (char.toNat / 16) :=
    ⟨by omega, .inl rfl⟩
  have low : IsHexDigit (Nat.digitChar (char.toNat % 16)) (char.toNat % 16) :=
    ⟨by omega, .inl rfl⟩
  have value : ((0 * 16 + 0) * 16 + char.toNat / 16) * 16 + char.toNat % 16 = char.toNat := by
    omega
  have spelled := SpellsUnit.digits zero zero high low
  rw [value] at spelled
  exact spelled

/-- A character is written in one of the ways that spell it. -/
theorem spellsChar_escapeChar
    (char : Char) :
    SpellsChar (escapeChar char) char := by
  unfold escapeChar
  split
  case h_8 notQuote notBackslash _ _ _ _ _ =>
    split
    case isTrue control =>
      have bound : char.toNat < 32 := control
      exact .unit (spellsUnit_hexPair (by omega))
    case isFalse printable =>
      exact .plain (isPlain_of_not_lt notQuote notBackslash printable)
  all_goals exact .short (by decide)

theorem spellsText_flatMap_escapeChar
    (chars : List Char) :
    SpellsText (chars.flatMap escapeChar) chars := by
  induction chars with
  | nil =>
      exact .nil
  | cons char chars ih =>
      exact .cons (spellsChar_escapeChar char) ih

/-- A written string spells its text. -/
theorem spells_quote
    (text : String) :
    Spells (quote text) text :=
  ⟨_, rfl, spellsText_flatMap_escapeChar text.toList⟩

end Agenda.Json
