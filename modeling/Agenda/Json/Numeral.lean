import Agenda.Json.Quoted
import Agenda.Result
import Agenda.Text.Basic

/-!
# JSON numbers

The parts of a number as it is written, and the test whether its value lies
beyond the largest double.  The test keeps the leading digits that fit 64 bits
and multiplies them, rounded to a double, by a rounded power of ten; digits
that do not fit count only by their place.
-/

namespace Agenda.Json

/-- A number as it is written, without its sign. -/
structure Numeral where
  whole : List Char
  fraction : List Char
  exponent : Int
  deriving DecidableEq

namespace Numeral

/-- What is missing in the place of a digit. -/
def digitExpected (text : List Char) : Error :=
  if text.isEmpty then .endOfText else .malformed

/-- Reads digits, at least one. -/
def readDigits (text : List Char) : Except Error (List Char × List Char) :=
  match text.takeWhile Char.isDigit with
  | [] => .error (digitExpected text)
  | digits => .ok (digits, text.dropWhile Char.isDigit)

/-- Reads the digits before the point; a zero stands alone. -/
def readWhole (text : List Char) : Except Error (List Char × List Char) := do
  match ← readDigits text with
  | ('0' :: _ :: _, _) => .error .malformed
  | whole => .ok whole

/-- Reads the digits after the point, if there is a point. -/
def readFraction : List Char → Except Error (List Char × List Char)
  | '.' :: text => readDigits text
  | text => .ok ([], text)

/-- Reads the digits of an exponent and gives it a sign. -/
def readExponentDigits (sign : Int) (text : List Char) : Except Error (Int × List Char) := do
  let (digits, rest) ← readDigits text
  return (sign * Text.digitsValue digits, rest)

/-- Reads an exponent, 0 where none is written. -/
def readExponent : List Char → Except Error (Int × List Char)
  | [] => .ok (0, [])
  | mark :: text =>
    if mark = 'e' ∨ mark = 'E' then
      match text with
      | '-' :: text => readExponentDigits (-1) text
      | '+' :: text => readExponentDigits 1 text
      | text => readExponentDigits 1 text
    else .ok (0, mark :: text)

/-- Reads a number. -/
def read (text : List Char) : Except Error (Numeral × List Char) := do
  let unsigned := match text with | '-' :: rest => rest | text => text
  let (whole, text) ← readWhole unsigned
  let (fraction, text) ← readFraction text
  let (exponent, text) ← readExponent text
  return ({ whole, fraction, exponent }, text)

theorem length_lt_of_readDigits {text digits rest : List Char}
    (found : readDigits text = .ok (digits, rest)) : rest.length < text.length := by
  unfold readDigits at found
  split at found
  · simp at found
  · rename_i nonempty
    simp only [Except.ok.injEq, Prod.mk.injEq] at found
    have whole := congrArg List.length (@List.takeWhile_append_dropWhile _ Char.isDigit text)
    have := List.length_pos_iff.2 nonempty
    rw [List.length_append] at whole
    rw [← found.2]
    omega

theorem length_lt_of_readWhole {text digits rest : List Char}
    (found : readWhole text = .ok (digits, rest)) : rest.length < text.length := by
  obtain ⟨result, read, found⟩ := exists_of_bind_eq_ok found
  have shorter := length_lt_of_readDigits read
  split at found <;> simp_all

theorem length_le_of_readFraction {text digits rest : List Char}
    (found : readFraction text = .ok (digits, rest)) : rest.length ≤ text.length := by
  unfold readFraction at found
  split at found
  · have := length_lt_of_readDigits found
    simp
    omega
  · simp_all

theorem length_lt_of_readExponentDigits {text rest : List Char} {sign value : Int}
    (found : readExponentDigits sign text = .ok (value, rest)) : rest.length < text.length := by
  obtain ⟨result, read, found⟩ := exists_of_bind_eq_ok found
  have shorter := length_lt_of_readDigits read
  cases found
  exact shorter

theorem length_le_of_readExponent {text rest : List Char} {value : Int}
    (found : readExponent text = .ok (value, rest)) : rest.length ≤ text.length := by
  unfold readExponent at found
  split at found
  · simp_all
  · split at found
    · split at found
      all_goals
        have := length_lt_of_readExponentDigits found
        simp only [List.length_cons]
        omega
    · simp_all

theorem length_lt_of_read {text rest : List Char} {numeral : Numeral}
    (found : read text = .ok (numeral, rest)) : rest.length < text.length := by
  obtain ⟨afterWhole, whole, found⟩ := exists_of_bind_eq_ok found
  obtain ⟨afterFraction, fraction, found⟩ := exists_of_bind_eq_ok found
  obtain ⟨afterExponent, exponent, found⟩ := exists_of_bind_eq_ok found
  have unsigned : (match text with | '-' :: rest => rest | text => text).length ≤ text.length := by
    split <;> simp
  have first := length_lt_of_readWhole whole
  have second := length_le_of_readFraction fraction
  have third := length_le_of_readExponent exponent
  cases found
  omega

/-- Appends digits to a number of 64 bits until one does not fit, and returns those left. -/
def absorb (value : Nat) : List Char → Nat × List Char
  | [] => (value, [])
  | digit :: digits =>
    let longer := Nat.ofDigitChars 10 [digit] value
    if longer ≤ Text.maxNat64 then absorb longer digits else (value, digit :: digits)

/-- The nearest double of a natural number, a half going to the even neighbour. -/
def roundToDouble (value : Nat) : Nat :=
  let unit := 1 <<< (value.log2 - 52)
  let floor := value / unit
  let twice := 2 * (value % unit)
  if unit < twice ∨ unit = twice ∧ floor % 2 = 1 then (floor + 1) * unit else floor * unit

/-- The least product of two doubles that rounds beyond the largest double. -/
def doubleBound : Nat := (1 <<< 1024) - (1 <<< 970)

/-- Whether the value lies beyond the largest double. -/
def isTooLarge (numeral : Numeral) : Bool :=
  let (leading, dropped) := absorb 0 numeral.whole
  let (significand, ignored) := absorb leading numeral.fraction
  let exponent :=
    numeral.exponent + dropped.length - (numeral.fraction.length - ignored.length : Nat)
  significand ≠ 0 &&
    (308 < exponent ||
      (0 ≤ exponent &&
        doubleBound ≤ roundToDouble significand * roundToDouble (Nat.pow 10 exponent.toNat)))

end Numeral

end Agenda.Json
