/-!
# Texts

What is done with the characters of a text wherever it comes from: blank
characters are trimmed or split at, integers are read and written, and octets
are read as characters.
-/

namespace Agenda.Text

/-!
## Blank characters

The characters with the Unicode property `White_Space`, and the two things
done with them: trimming a text and splitting it into words.
-/

/-- The code points with the property `White_Space`, as inclusive ranges. -/
def blankRanges : List (Nat × Nat) :=
  [(0x0009, 0x000D), (0x0020, 0x0020), (0x0085, 0x0085), (0x00A0, 0x00A0),
   (0x1680, 0x1680), (0x2000, 0x200A), (0x2028, 0x2029), (0x202F, 0x202F),
   (0x205F, 0x205F), (0x3000, 0x3000)]

/-- A character with the property `White_Space`. -/
def isBlankChar (char : Char) : Bool :=
  blankRanges.any fun (first, last) => first ≤ char.toNat && char.toNat ≤ last

/-- A text of blank characters only; the empty text is one. -/
def isBlank (text : String) : Bool :=
  text.toList.all isBlankChar

/-- A text without the blank characters at its two ends. -/
def trim (text : String) : String :=
  let front := text.toList.dropWhile isBlankChar
  String.ofList (front.reverse.dropWhile isBlankChar).reverse

/-- The longest pieces of a text that hold no blank character, in order. -/
def words (text : String) : List String :=
  ((text.toList.splitOnP isBlankChar).filter (· ≠ [])).map String.ofList

/-!
## Decimal integers

Integers in text are written with the digits 0 to 9, leading zeros allowed,
and may carry a sign: `+` always, `-` where negative values exist.  A value
outside the given bounds does not read.
-/

/-- The largest integer of 64 bits with a sign. -/
def maxInt64 : Int := 9223372036854775807

/-- The smallest integer of 64 bits with a sign. -/
def minInt64 : Int := -9223372036854775808

/-- The largest integer of 64 bits without a sign. -/
def maxNat64 : Nat := 18446744073709551615

/-- The value of a run of digits, the most significant first. -/
def digitsValue (digits : List Char) : Nat :=
  Nat.ofDigitChars 10 digits 0

/-- Reads a run of digits that is not empty. -/
def readDigits? (text : List Char) : Option Nat :=
  if text ≠ [] ∧ text.all Char.isDigit then some (digitsValue text) else none

/-- Reads a natural number, with or without a plus sign. -/
def readUnsigned? : List Char → Option Nat
  | '+' :: digits => readDigits? digits
  | digits => readDigits? digits

/-- Reads an integer, with or without a sign. -/
def readSigned? : List Char → Option Int
  | '-' :: digits => (readDigits? digits).map fun value => -(value : Int)
  | text => (readUnsigned? text).map Int.ofNat

/-- Reads a natural number up to a limit. -/
def readNat? (limit : Nat) (text : String) : Option Nat :=
  (readUnsigned? text.toList).filter (· ≤ limit)

/-- Reads an integer of 64 bits. -/
def readInt? (text : String) : Option Int :=
  (readSigned? text.toList).filter fun value => minInt64 ≤ value ∧ value ≤ maxInt64

/-- The digits of a number, with zeros in front up to a width. -/
def padded (width number : Nat) : String :=
  let digits := Nat.toDigits 10 number
  String.ofList (List.replicate (width - digits.length) '0' ++ digits)

/-- A written number begins with a digit, so with no sign. -/
theorem exists_toDigits_eq_cons (number : Nat) :
    ∃ first later, Nat.toDigits 10 number = first :: later ∧ first ≠ '+' ∧ first ≠ '-' := by
  cases written : Nat.toDigits 10 number with
  | nil =>
      have positive := @Nat.length_toDigits_pos 10 number
      rw [written] at positive
      contradiction
  | cons first later =>
      have member : first ∈ Nat.toDigits 10 number := by
        rw [written]
        exact List.mem_cons_self
      have digit := Nat.isDigit_of_mem_toDigits (by decide) (by decide) member
      exact ⟨first, later, rfl, ne_of_apply_ne Char.isDigit (by rw [digit]; decide),
        ne_of_apply_ne Char.isDigit (by rw [digit]; decide)⟩

/-- The digits of a number read back. -/
@[simp]
theorem readDigits?_toDigits (number : Nat) :
    readDigits? (Nat.toDigits 10 number) = some number := by
  have digits : (Nat.toDigits 10 number).all Char.isDigit = true := by
    simp only [List.all_eq_true]
    intro char member
    exact Nat.isDigit_of_mem_toDigits (by decide) (by decide) member
  rcases exists_toDigits_eq_cons number with ⟨first, later, written, -⟩
  have nonempty : Nat.toDigits 10 number ≠ [] := by
    rw [written]
    exact List.cons_ne_nil first later
  rw [readDigits?, if_pos ⟨nonempty, digits⟩]
  exact congrArg some (Nat.ofDigitChars_toDigits (by decide) (by decide))

@[simp]
theorem readUnsigned?_toDigits (number : Nat) :
    readUnsigned? (Nat.toDigits 10 number) = some number := by
  rcases exists_toDigits_eq_cons number with ⟨first, later, written, notPlus, -⟩
  rw [← readDigits?_toDigits number, written]
  unfold readUnsigned?
  split
  · rename_i same
    exact absurd (List.cons.inj same).1 notPlus
  · rfl

@[simp]
theorem readSigned?_toDigits (number : Nat) :
    readSigned? (Nat.toDigits 10 number) = some (number : Int) := by
  rcases exists_toDigits_eq_cons number with ⟨first, later, written, -, notMinus⟩
  have unsigned := readUnsigned?_toDigits number
  rw [written] at unsigned ⊢
  unfold readSigned?
  split
  · rename_i same
    exact absurd (List.cons.inj same).1 notMinus
  · rw [unsigned]
    rfl

/-- A written integer reads back. -/
@[simp]
theorem readSigned?_repr (value : Int) :
    readSigned? value.repr.toList = some value := by
  cases value with
  | ofNat number =>
      change readSigned? (Nat.repr number).toList = _
      rw [Nat.toList_repr]
      exact readSigned?_toDigits number
  | negSucc number =>
      change readSigned? ("-" ++ Nat.repr (number + 1)).toList = _
      rw [String.toList_append, Nat.toList_repr, show "-".toList = ['-'] by decide]
      simp only [List.cons_append, List.nil_append, readSigned?, readDigits?_toDigits]
      rfl

/-!
## Octets as text

Octets are read as UTF-8.  Where they are no UTF-8, each longest piece that
could have begun a character becomes the replacement character, and reading
goes on with the octet that ruled the piece out.
-/

/-- The character that stands for octets that are no UTF-8. -/
def replacementChar : Char := '\ufffd'

/-- The octets that continue a character, as an inclusive range. -/
abbrev OctetRange := Nat × Nat

/-- Any octet that continues a character. -/
def tailRange : OctetRange := (0x80, 0xBF)

/-- The bits that a first octet gives, and the ranges of the octets that must follow it. -/
def leadOctet? (octet : Nat) : Option (Nat × List OctetRange) :=
  if octet ≤ 0x7F then some (octet, [])
  else if 0xC2 ≤ octet ∧ octet ≤ 0xDF then some (octet - 0xC0, [tailRange])
  else if octet = 0xE0 then some (0, [(0xA0, 0xBF), tailRange])
  else if octet = 0xED then some (0xD, [(0x80, 0x9F), tailRange])
  else if 0xE1 ≤ octet ∧ octet ≤ 0xEF then some (octet - 0xE0, [tailRange, tailRange])
  else if octet = 0xF0 then some (0, [(0x90, 0xBF), tailRange, tailRange])
  else if 0xF1 ≤ octet ∧ octet ≤ 0xF3 then
    some (octet - 0xF0, [tailRange, tailRange, tailRange])
  else if octet = 0xF4 then some (4, [(0x80, 0x8F), tailRange, tailRange])
  else none

/-- A character that has begun: its bits so far and the ranges of the octets still missing. -/
abbrev BegunChar := Nat × List OctetRange

/-- Takes one octet: the characters that are complete with it, and the one begun by it. -/
def takeOctet (begun : Option BegunChar) (octet : Nat) : List Char × Option BegunChar :=
  let start : List Char × Option BegunChar :=
    match leadOctet? octet with
    | some (code, []) => ([Char.ofNat code], none)
    | some begun => ([], some begun)
    | none => ([replacementChar], none)
  match begun with
  | some (bits, (low, high) :: missing) =>
    if low ≤ octet ∧ octet ≤ high then
      let code := bits * 64 + (octet - 0x80)
      if missing = [] then ([Char.ofNat code], none) else ([], some (code, missing))
    else (replacementChar :: start.1, start.2)
  | _ => start

/-- Reads octets after those of a character that has begun. -/
def decodeAfter (begun : Option BegunChar) : List UInt8 → List Char
  | [] => if begun.isSome then [replacementChar] else []
  | octet :: octets =>
    let (chars, begun) := takeOctet begun octet.toNat
    chars ++ decodeAfter begun octets

/-- Reads octets as text. -/
def decodeUtf8 (octets : List UInt8) : String :=
  String.ofList (decodeAfter none octets)

end Agenda.Text
