import Agenda.Json.Token
import Agenda.Proofs.Json.Strings

/-!
# Tokens of documents

The tokens of each part of a document are those that the grammar names, whatever
follows the part.  Only a number needs to know what follows, since it takes in
all that may belong to it; `EndsNumber` says that nothing does.
-/

namespace Agenda.Json

/-- No number goes on at the front of a text. -/
def EndsNumber (text : List Char) : Prop :=
  ∀ char ∈ text.head?, char.isDigit = false ∧ char ∉ ['.', 'e', 'E']

theorem EndsNumber.spaces_append
    {spaces text : List Char}
    (ends : EndsNumber text)
    (areSpaces : AreSpaces spaces) :
    EndsNumber (spaces ++ text) := by
  cases spaces with
  | nil =>
      exact ends
  | cons char later =>
      intro first isFirst
      cases isFirst
      have space := areSpaces char List.mem_cons_self
      simp only [List.mem_cons, List.not_mem_nil, or_false] at space
      rcases space with rfl | rfl | rfl | rfl <;> decide

/-- No number goes on at a mark between values. -/
theorem endsNumber_mark
    (char : Char)
    (listed : char ∈ [',', ']', '}'])
    (text : List Char) :
    EndsNumber (char :: text) := by
  intro first isFirst
  cases isFirst
  simp only [List.mem_cons, List.not_mem_nil, or_false] at listed
  rcases listed with rfl | rfl | rfl <;> decide

/-! ## Numbers -/

/-- A run of digits starts with a digit. -/
theorem AreDigits.isDigit_of_append_eq
    {digits rest later : List Char}
    {char : Char}
    (areDigits : AreDigits digits)
    (equal : digits ++ rest = char :: later) :
    char.isDigit = true := by
  cases digits with
  | nil =>
      exact absurd rfl areDigits.1
  | cons digit digits =>
      cases equal
      exact areDigits.2 char List.mem_cons_self

theorem IsExponent.head_append
    {exponent rest : List Char}
    (isExponent : IsExponent exponent)
    (ends : EndsNumber rest) :
    ∀ char ∈ (exponent ++ rest).head?, char.isDigit = false ∧ char ≠ '.' := by
  intro char isFirst
  rcases isExponent with rfl | ⟨mark, listed, sign, _, digits, rfl, _⟩
  · rcases ends char isFirst with ⟨notDigit, noMark⟩
    exact ⟨notDigit, fun point => noMark (by rw [point]; decide)⟩
  · cases isFirst
    simp only [List.mem_cons, List.not_mem_nil, or_false] at listed
    rcases listed with rfl | rfl <;> decide

theorem IsFraction.head_append
    {fraction rest : List Char}
    (isFraction : IsFraction fraction)
    (ends : ∀ char ∈ rest.head?, char.isDigit = false) :
    ∀ char ∈ (fraction ++ rest).head?, char.isDigit = false := by
  intro char isFirst
  rcases isFraction with rfl | ⟨digits, rfl, _⟩
  · exact ends char isFirst
  · cases isFirst
    rfl

namespace Numeral

theorem readDigits_append
    {digits rest : List Char}
    (areDigits : AreDigits digits)
    (ends : ∀ char ∈ rest.head?, char.isDigit = false) :
    readDigits (digits ++ rest) = .ok (digits, rest) := by
  have stops : rest.takeWhile Char.isDigit = [] ∧ rest.dropWhile Char.isDigit = rest := by
    cases rest with
    | nil =>
        exact ⟨rfl, rfl⟩
    | cons char later =>
        have notDigit := ends char rfl
        simp [notDigit]
  unfold readDigits
  rw [List.takeWhile_append_of_pos areDigits.2, List.dropWhile_append_of_pos areDigits.2,
    stops.1, stops.2, List.append_nil]
  cases digits with
  | nil =>
      exact absurd rfl areDigits.1
  | cons =>
      rfl

theorem readWhole_append
    {whole rest : List Char}
    (isWhole : IsWhole whole)
    (ends : ∀ char ∈ rest.head?, char.isDigit = false) :
    readWhole (whole ++ rest) = .ok (whole, rest) := by
  simp only [readWhole, readDigits_append isWhole.1 ends, bind, Except.bind]
  split
  case h_1 equal =>
    cases equal
    cases isWhole.2 rfl
  case h_2 =>
    rfl

theorem readFraction_append
    {fraction rest : List Char}
    (isFraction : IsFraction fraction)
    (ends : ∀ char ∈ rest.head?, char.isDigit = false ∧ char ≠ '.') :
    ∃ digits, readFraction (fraction ++ rest) = .ok (digits, rest) := by
  rcases isFraction with rfl | ⟨digits, rfl, areDigits⟩
  · refine ⟨[], ?_⟩
    rw [List.nil_append]
    unfold readFraction
    split
    case h_1 =>
      exact absurd rfl (ends '.' rfl).2
    case h_2 =>
      rfl
  · exact ⟨digits, readDigits_append areDigits fun char isFirst => (ends char isFirst).1⟩

theorem readExponentDigits_append
    {digits rest : List Char}
    (areDigits : AreDigits digits)
    (ends : EndsNumber rest)
    (sign : Int) :
    readExponentDigits sign (digits ++ rest) = .ok (sign * Text.digitsValue digits, rest) := by
  simp only [readExponentDigits, bind, Except.bind,
    readDigits_append areDigits fun char isFirst => (ends char isFirst).1]
  rfl

theorem readExponent_append
    {exponent rest : List Char}
    (isExponent : IsExponent exponent)
    (ends : EndsNumber rest) :
    ∃ value, readExponent (exponent ++ rest) = .ok (value, rest) := by
  rcases isExponent with rfl | ⟨mark, listed, sign, signListed, digits, rfl, areDigits⟩
  · refine ⟨0, ?_⟩
    rw [List.nil_append]
    unfold readExponent
    split
    case h_1 =>
      rfl
    case h_2 mark later =>
      have noMark : ¬ (mark = 'e' ∨ mark = 'E') := by
        rintro (rfl | rfl)
        · exact (ends 'e' rfl).2 (by decide)
        · exact (ends 'E' rfl).2 (by decide)
      rw [if_neg noMark]
  · have isMark : mark = 'e' ∨ mark = 'E' := by simpa using listed
    simp only [List.mem_cons, List.not_mem_nil, or_false] at signListed
    rw [List.append_assoc, List.cons_append]
    unfold readExponent
    dsimp only
    rw [if_pos isMark]
    rcases signListed with rfl | rfl | rfl
    · rw [List.nil_append]
      split
      case h_1 equal =>
        exact absurd (areDigits.isDigit_of_append_eq equal) (by decide)
      case h_2 equal =>
        exact absurd (areDigits.isDigit_of_append_eq equal) (by decide)
      case h_3 =>
        exact ⟨_, readExponentDigits_append areDigits ends 1⟩
    · exact ⟨_, readExponentDigits_append areDigits ends 1⟩
    · exact ⟨_, readExponentDigits_append areDigits ends (-1)⟩

/-- A number is read up to where it ends. -/
theorem read_append
    {text rest : List Char}
    (isNumber : IsNumber text)
    (ends : EndsNumber rest) :
    ∃ numeral, read (text ++ rest) = .ok (numeral, rest) := by
  rcases isNumber with
    ⟨sign, listed, whole, fraction, exponent, rfl, isWhole, isFraction, isExponent⟩
  have afterFraction := isExponent.head_append ends
  have afterWhole :=
    isFraction.head_append fun char isFirst => (afterFraction char isFirst).1
  have wholeRead := readWhole_append isWhole afterWhole
  rcases readFraction_append isFraction afterFraction with ⟨digits, fractionRead⟩
  rcases readExponent_append isExponent ends with ⟨value, exponentRead⟩
  refine ⟨⟨whole, digits, value⟩, ?_⟩
  simp only [List.mem_cons, List.not_mem_nil, or_false] at listed
  simp only [List.append_assoc, read]
  split
  case h_1 equal =>
    rcases listed with rfl | rfl
    · exact absurd (isWhole.1.isDigit_of_append_eq equal) (by decide)
    · rw [List.singleton_append, List.cons.injEq] at equal
      rw [← equal.2]
      simp only [wholeRead, fractionRead, exponentRead, bind, Except.bind, pure, Except.pure]
  case h_2 unsigned =>
    rcases listed with rfl | rfl
    · simp only [List.nil_append, wholeRead, fractionRead, exponentRead, bind, Except.bind, pure,
        Except.pure]
    · exact absurd rfl (unsigned _)

end Numeral

/-! ## Tokens -/

/-- The tokens of a text. -/
def tokensOf (text : List Char) : List Token :=
  tokensOnto [] text

theorem tokensOnto_append
    (later before : List Token)
    (text : List Char) :
    tokensOnto (later ++ before) text = before.reverse ++ tokensOnto later text := by
  fun_induction tokensOnto later text with
  | case1 later =>
      simp [tokensOnto]
  | case2 later char text isSpace ih =>
      rw [tokensOnto, if_pos isSpace, ih]
  | case3 later char text isSpace _ ih =>
      rw [tokensOnto, if_neg isSpace]
      exact ih

theorem tokensOf_space
    {char : Char}
    (space : isSpace char = true)
    (text : List Char) :
    tokensOf (char :: text) = tokensOf text := by
  rw [tokensOf, tokensOnto, if_pos space]
  rfl

theorem tokensOf_cons
    {char : Char}
    (noSpace : isSpace char = false)
    (text : List Char) :
    tokensOf (char :: text) =
      (firstToken char text).1 :: tokensOf (firstToken char text).2 := by
  rw [tokensOf, tokensOnto, if_neg (by simp [noSpace])]
  exact tokensOnto_append [] [_] _

theorem tokensOf_spaces_append
    {spaces : List Char}
    (areSpaces : AreSpaces spaces)
    (text : List Char) :
    tokensOf (spaces ++ text) = tokensOf text := by
  induction spaces with
  | nil =>
      rfl
  | cons char spaces ih =>
      have space : isSpace char = true := by
        simpa [isSpace, or_assoc] using areSpaces char List.mem_cons_self
      rw [List.cons_append, tokensOf_space space,
        ih fun char member => areSpaces char (List.mem_cons_of_mem _ member)]

/-- The marks between the strings, numbers and literals of a document. -/
theorem tokensOf_mark
    (text : List Char) :
    tokensOf ('[' :: text) = .openList :: tokensOf text ∧
      tokensOf (']' :: text) = .closeList :: tokensOf text ∧
      tokensOf ('{' :: text) = .openObject :: tokensOf text ∧
      tokensOf ('}' :: text) = .closeObject :: tokensOf text ∧
      tokensOf (':' :: text) = .colon :: tokensOf text ∧
      tokensOf (',' :: text) = .comma :: tokensOf text := by
  refine ⟨?_, ?_, ?_, ?_, ?_, ?_⟩ <;> exact tokensOf_cons (by decide) text

/-- A string is one token, which reads as the text that the string spells. -/
theorem IsString.tokensOf_append
    {raw : List Char}
    (isString : IsString raw)
    (rest : List Char) :
    ∃ read, (∀ text, read = .ok text ↔ Spells raw text) ∧
      tokensOf (raw ++ rest) = .quoted read (.ok ()) :: tokensOf rest := by
  rcases isString with ⟨body, rfl, isBody⟩
  have cut := tokensOf_cons (by decide : isSpace '"' = false) (body ++ '"' :: rest)
  simp only [firstToken, quotedToken, isBody.skipQuoted_append] at cut
  rw [List.append_assoc]
  refine ⟨_, fun text => ?_, cut⟩
  rw [spells_iff, ← isBody.readQuoted_append text.toList rest]
  cases readQuoted (body ++ '"' :: rest) with
  | error cause =>
      simp [Except.map]
  | ok result =>
      simp [Except.map, Prod.ext_iff, ← String.toList_inj]

theorem tokensOf_literal_append
    {text : List Char}
    (listed : text ∈ literals)
    (rest : List Char) :
    tokensOf (text ++ rest) = .scalar (.ok ()) (.ok ()) :: tokensOf rest := by
  simp only [literals, List.mem_cons, List.not_mem_nil, or_false] at listed
  rcases listed with rfl | rfl | rfl
  all_goals exact tokensOf_cons (by decide) _

theorem IsNumber.exists_eq_cons
    {text : List Char}
    (isNumber : IsNumber text) :
    ∃ char later, text = char :: later ∧ (char = '-' ∨ char.isDigit = true) := by
  rcases isNumber with ⟨sign, listed, whole, fraction, exponent, rfl, isWhole, -, -⟩
  simp only [List.mem_cons, List.not_mem_nil, or_false] at listed
  rcases listed with rfl | rfl
  · cases whole with
    | nil =>
        exact absurd rfl isWhole.1.1
    | cons digit digits =>
        exact ⟨digit, _, rfl, .inr (isWhole.1.2 digit List.mem_cons_self)⟩
  · exact ⟨'-', _, rfl, .inl rfl⟩

theorem firstToken_of_number
    {char : Char}
    (starts : char = '-' ∨ char.isDigit = true)
    (text : List Char) :
    isSpace char = false ∧ firstToken char text = numeralToken (char :: text) := by
  constructor
  · rw [← Bool.not_eq_true]
    intro space
    simp only [isSpace, Bool.or_eq_true, decide_eq_true_eq] at space
    rcases space with ((rfl | rfl) | rfl) | rfl
    all_goals exact absurd starts (by decide)
  · unfold firstToken
    split
    case h_11 =>
      rw [if_pos starts]
    all_goals exact absurd starts (by decide)

/-- A number is one token, and it is passed over, be it too large to be read or not. -/
theorem IsNumber.tokensOf_append
    {text rest : List Char}
    (isNumber : IsNumber text)
    (ends : EndsNumber rest) :
    ∃ read, tokensOf (text ++ rest) = .scalar read (.ok ()) :: tokensOf rest := by
  rcases Numeral.read_append isNumber ends with ⟨numeral, read⟩
  rcases isNumber.exists_eq_cons with ⟨char, later, rfl, starts⟩
  rcases firstToken_of_number starts (later ++ rest) with ⟨noSpace, token⟩
  rw [List.cons_append] at read ⊢
  rw [tokensOf_cons noSpace, token]
  simp only [numeralToken, read]
  exact ⟨_, rfl⟩

end Agenda.Json
