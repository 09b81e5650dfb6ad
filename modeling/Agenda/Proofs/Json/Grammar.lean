/-!
# The grammar of JSON

The texts of JSON, described without a reader: what spells a string, what a
number looks like, and how values nest.  The same string has many spellings,
since a character may stand for itself, be escaped by a letter or by its code
unit, or be escaped as a surrogate pair.

A string of the grammar may hold half of a surrogate pair.  Such a string spells
no text, which is why `IsStringBody` and `SpellsText` are two relations.
-/

namespace Agenda.Json

/-- The characters that may stand between the parts of a document. -/
def AreSpaces (text : List Char) : Prop :=
  ∀ char ∈ text, char ∈ [' ', '\n', '\t', '\x0d']

/-! ## Strings -/

/-- The letters of the short escapes with the characters that they stand for. -/
def shortEscapes : List (Char × Char) :=
  [('"', '"'), ('\\', '\\'), ('/', '/'), ('b', '\x08'), ('f', '\x0c'), ('n', '\n'), ('r', '\x0d'),
    ('t', '\t')]

/-- A character is the hexadecimal digit of a value, in either case. -/
def IsHexDigit (char : Char) (value : Nat) : Prop :=
  value < 16 ∧ (char = Nat.digitChar value ∨ char = (Nat.digitChar value).toUpper)

/-- Four hexadecimal digits spell a code unit, the most significant digit first. -/
inductive SpellsUnit : List Char → Nat → Prop
  | digits
      {first second third fourth : Char}
      {w x y z : Nat}
      (isFirst : IsHexDigit first w)
      (isSecond : IsHexDigit second x)
      (isThird : IsHexDigit third y)
      (isFourth : IsHexDigit fourth z) :
      SpellsUnit [first, second, third, fourth] (((w * 16 + x) * 16 + y) * 16 + z)

/-- A character may stand for itself in a string. -/
def IsPlain (char : Char) : Prop :=
  ' ' ≤ char ∧ char ≠ '"' ∧ char ≠ '\\'

/-- The ways in which a string spells a character. -/
inductive SpellsChar : List Char → Char → Prop
  | plain
      {char : Char}
      (isPlain : IsPlain char) :
      SpellsChar [char] char
  | short
      {letter char : Char}
      (listed : (letter, char) ∈ shortEscapes) :
      SpellsChar ['\\', letter] char
  | unit
      {digits : List Char}
      {char : Char}
      (spelled : SpellsUnit digits char.toNat) :
      SpellsChar ('\\' :: 'u' :: digits) char
  /-- A character beyond `U+FFFF` is spelled by two code units that hold ten bits each. -/
  | pair
      {first second : List Char}
      {lead trail : Nat}
      {char : Char}
      (leadSpelled : SpellsUnit first lead)
      (trailSpelled : SpellsUnit second trail)
      (isLead : 0xD800 ≤ lead ∧ lead ≤ 0xDBFF)
      (isTrail : 0xDC00 ≤ trail ∧ trail ≤ 0xDFFF)
      (value : char.toNat = 0x10000 + (lead - 0xD800) * 0x400 + (trail - 0xDC00)) :
      SpellsChar ('\\' :: 'u' :: first ++ '\\' :: 'u' :: second) char

/-- What stands between quotes spells the characters of a text, one after the other. -/
inductive SpellsText : List Char → List Char → Prop
  | nil : SpellsText [] []
  | cons
      {piece body : List Char}
      {char : Char}
      {chars : List Char}
      (first : SpellsChar piece char)
      (later : SpellsText body chars) :
      SpellsText (piece ++ body) (char :: chars)

/-- A string with its quotes spells a text. -/
def Spells (raw : List Char) (text : String) : Prop :=
  ∃ body, raw = '"' :: body ++ ['"'] ∧ SpellsText body text.toList

theorem spells_iff
    {body : List Char}
    {text : String} :
    Spells ('"' :: body ++ ['"']) text ↔ SpellsText body text.toList := by
  constructor
  · rintro ⟨other, equal, spelled⟩
    have same : body = other := by simpa using equal
    rw [same]
    exact spelled
  · exact fun spelled => ⟨body, rfl, spelled⟩

/-- The smallest parts of a string. -/
inductive IsPiece : List Char → Prop
  | plain
      {char : Char}
      (isPlain : IsPlain char) :
      IsPiece [char]
  | short
      {letter char : Char}
      (listed : (letter, char) ∈ shortEscapes) :
      IsPiece ['\\', letter]
  | unit
      {digits : List Char}
      {unit : Nat}
      (spelled : SpellsUnit digits unit) :
      IsPiece ('\\' :: 'u' :: digits)

/-- What stands between the quotes of a string. -/
inductive IsStringBody : List Char → Prop
  | nil : IsStringBody []
  | cons
      {piece body : List Char}
      (first : IsPiece piece)
      (later : IsStringBody body) :
      IsStringBody (piece ++ body)

/-- A string with its quotes, whether it spells a text or not. -/
def IsString (raw : List Char) : Prop :=
  ∃ body, raw = '"' :: body ++ ['"'] ∧ IsStringBody body

theorem SpellsChar.isStringBody_append
    {piece body : List Char}
    {char : Char}
    (spelled : SpellsChar piece char)
    (later : IsStringBody body) :
    IsStringBody (piece ++ body) := by
  cases spelled with
  | plain isPlain =>
      exact .cons (.plain isPlain) later
  | short listed =>
      exact .cons (.short listed) later
  | unit spelled =>
      exact .cons (.unit spelled) later
  | pair leadSpelled trailSpelled _ _ _ =>
      rw [List.append_assoc]
      exact .cons (.unit leadSpelled) (.cons (.unit trailSpelled) later)

/-- What spells a text is a string. -/
theorem SpellsText.isStringBody
    {body chars : List Char}
    (spelled : SpellsText body chars) :
    IsStringBody body := by
  induction spelled with
  | nil =>
      exact .nil
  | cons first _ ih =>
      exact first.isStringBody_append ih

theorem Spells.isString
    {raw : List Char}
    {text : String}
    (spelled : Spells raw text) :
    IsString raw := by
  rcases spelled with ⟨body, rfl, spelled⟩
  exact ⟨body, rfl, spelled.isStringBody⟩

/-! ## Numbers -/

/-- A text is a run of decimal digits, at least one. -/
def AreDigits (text : List Char) : Prop :=
  text ≠ [] ∧ ∀ char ∈ text, char.isDigit = true

/-- The digits before the point: a zero stands alone. -/
def IsWhole (text : List Char) : Prop :=
  AreDigits text ∧ (text.head? = some '0' → text = ['0'])

/-- The digits after the point, with the point, or nothing. -/
def IsFraction (text : List Char) : Prop :=
  text = [] ∨ ∃ digits, text = '.' :: digits ∧ AreDigits digits

/-- An exponent with its mark, with a sign or none, or nothing. -/
def IsExponent (text : List Char) : Prop :=
  text = [] ∨ ∃ mark ∈ ['e', 'E'], ∃ sign ∈ [[], ['+'], ['-']], ∃ digits,
    text = mark :: sign ++ digits ∧ AreDigits digits

/-- A number of any size. -/
def IsNumber (text : List Char) : Prop :=
  ∃ sign ∈ [[], ['-']], ∃ whole fraction exponent,
    text = sign ++ whole ++ fraction ++ exponent ∧
      IsWhole whole ∧ IsFraction fraction ∧ IsExponent exponent

/-! ## Values -/

/-- The literals. -/
def literals : List (List Char) :=
  ["true".toList, "false".toList, "null".toList]

/-- A member of an object, its key and its value as they are written, without spaces around them. -/
structure Member where
  key : List Char
  value : List Char

/-- The parts of a document, with what each is made of as it is written. -/
inductive Part where
  | value
  /-- A value with spaces around it. -/
  | element (value : List Char)
  /-- What stands between the brackets of a list. -/
  | elements (values : List (List Char))
  | member (member : Member)
  /-- What stands between the brackets of an object. -/
  | members (members : List Member)

/-- The texts of each part of a document. -/
inductive Derives : Part → List Char → Prop
  | string
      {text : List Char}
      (isString : IsString text) :
      Derives .value text
  | number
      {text : List Char}
      (isNumber : IsNumber text) :
      Derives .value text
  | literal
      {text : List Char}
      (listed : text ∈ literals) :
      Derives .value text
  | list
      {values : List (List Char)}
      {inside : List Char}
      (elements : Derives (.elements values) inside) :
      Derives .value ('[' :: inside ++ [']'])
  | object
      {members : List Member}
      {inside : List Char}
      (listed : Derives (.members members) inside) :
      Derives .value ('{' :: inside ++ ['}'])
  | element
      {before value after : List Char}
      (spacesBefore : AreSpaces before)
      (isValue : Derives .value value)
      (spacesAfter : AreSpaces after) :
      Derives (.element value) (before ++ value ++ after)
  | noElements
      {spaces : List Char}
      (areSpaces : AreSpaces spaces) :
      Derives (.elements []) spaces
  | lastElement
      {value text : List Char}
      (last : Derives (.element value) text) :
      Derives (.elements [value]) text
  | moreElements
      {value next text later : List Char}
      {values : List (List Char)}
      (first : Derives (.element value) text)
      (more : Derives (.elements (next :: values)) later) :
      Derives (.elements (value :: next :: values)) (text ++ ',' :: later)
  | member
      {before key after value text : List Char}
      (spacesBefore : AreSpaces before)
      (isKey : IsString key)
      (spacesAfter : AreSpaces after)
      (isElement : Derives (.element value) text) :
      Derives (.member ⟨key, value⟩) (before ++ key ++ after ++ ':' :: text)
  | noMembers
      {spaces : List Char}
      (areSpaces : AreSpaces spaces) :
      Derives (.members []) spaces
  | lastMember
      {member : Member}
      {text : List Char}
      (last : Derives (.member member) text) :
      Derives (.members [member]) text
  | moreMembers
      {member next : Member}
      {members : List Member}
      {text later : List Char}
      (first : Derives (.member member) text)
      (more : Derives (.members (next :: members)) later) :
      Derives (.members (member :: next :: members)) (text ++ ',' :: later)

/-- A whole text is an object with the given members, in the order in which they are written. -/
def IsObject (text : List Char) (members : List Member) : Prop :=
  ∃ before inside after, text = before ++ '{' :: inside ++ '}' :: after ∧
    AreSpaces before ∧ Derives (.members members) inside ∧ AreSpaces after

end Agenda.Json
