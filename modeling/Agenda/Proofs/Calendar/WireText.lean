import Agenda.Calendar.Date
import Agenda.Proofs.Calendar.Order

/-!
# The wire text of dates

A number padded to a width has that many digits and reads back as itself.
Hence the wire text of a date reads back as that date when its year is 1 to
9999, and as no date otherwise (`Date.ofWireText_wireText_eq_ok_iff`).
-/

namespace Agenda

namespace Text

theorem toList_padded (width number : Nat) :
    (padded width number).toList =
      List.replicate (width - (Nat.toDigits 10 number).length) '0' ++
        Nat.toDigits 10 number :=
  String.toList_ofList

theorem length_padded
    {width number : Nat}
    (positive : 0 < width)
    (fits : number < 10 ^ width) :
    (padded width number).toList.length = width := by
  have short := (Nat.length_toDigits_le_iff (by omega) positive).2 fits
  rw [toList_padded, List.length_append, List.length_replicate]
  omega

theorem isDigit_of_mem_padded
    {width number : Nat} {char : Char}
    (member : char ∈ (padded width number).toList) :
    char.isDigit = true := by
  rw [toList_padded] at member
  rcases List.mem_append.1 member with zero | digit
  · rw [List.eq_of_mem_replicate zero]
    decide
  · exact Nat.isDigit_of_mem_toDigits (by omega) (by omega) digit

theorem digitsValue_padded (width number : Nat) :
    digitsValue (padded width number).toList = number := by
  rw [digitsValue, toList_padded, Nat.ofDigitChars_append, Nat.ofDigitChars_replicate_zero,
    Nat.mul_zero, Nat.ofDigitChars_ten_toDigits]

end Text

namespace Date

/-- Eight digits in three groups are the year, the month and the day. -/
theorem ofWireText_of_groups
    {year month day : List Char}
    (four : year.length = 4)
    (two : month.length = 2)
    (lastTwo : day.length = 2)
    (digits : ∀ char ∈ year ++ month ++ day, char.isDigit = true) :
    ofWireText (String.ofList (year ++ month ++ day)) =
      match ofYmd? (Text.digitsValue year) (Text.digitsValue month) (Text.digitsValue day) with
      | some date =>
        if Text.digitsValue year = 0 then
          .error (.notInCalendar (String.ofList (year ++ month ++ day)))
        else .ok date
      | none => .error (.notInCalendar (String.ofList (year ++ month ++ day))) := by
  have takeYear : (year ++ month ++ day).take 4 = year := by
    rw [List.append_assoc, ← four, List.take_left]
  have takeMonth : ((year ++ month ++ day).drop 4).take 2 = month := by
    rw [List.append_assoc, ← four, List.drop_left, ← two, List.take_left]
  have takeDay : (year ++ month ++ day).drop 6 = day := by
    have before : (year ++ month).length = 6 := by
      rw [List.length_append, four, two]
    rw [← before, List.drop_left]
  have length : (year ++ month ++ day).length = 8 := by
    rw [List.length_append, List.length_append, four, two, lastTwo]
  rw [ofWireText]
  cases found : ofYmd? (Text.digitsValue year) (Text.digitsValue month)
      (Text.digitsValue day) with
  | none =>
      simp only [String.toList_ofList, length, List.all_eq_true.2 digits, and_self, if_true,
        takeYear, takeMonth, takeDay, found]
  | some date =>
      simp only [String.toList_ofList, length, List.all_eq_true.2 digits, and_self, if_true,
        takeYear, takeMonth, takeDay, found]

theorem wireText_groups (date : Date) :
    date.month < 10 ^ 2 ∧ date.day < 10 ^ 2 := by
  have named := date.month_mem
  have fits := date.isReal.2.2
  have short := monthLength_le date.year date.month
  omega

theorem ofWireText_wireText_of_four_digits
    (date : Date)
    (fourDigits : 0 ≤ date.year ∧ date.year ≤ 9999) :
    ofWireText date.wireText =
      if date.year = 0 then .error (.notInCalendar date.wireText) else .ok date := by
  have short := date.wireText_groups
  have yearValue : (date.year.toNat : Int) = date.year := Int.toNat_of_nonneg fourDigits.1
  have written : date.wireText = String.ofList
      ((Text.padded 4 date.year.toNat).toList ++ (Text.padded 2 date.month).toList ++
        (Text.padded 2 date.day).toList) := by
    rw [wireText, yearText, if_pos fourDigits]
    simp only [String.ofList_append, String.ofList_toList]
  rw [written, ofWireText_of_groups
    (Text.length_padded (by omega) (by omega))
    (Text.length_padded (by omega) short.1)
    (Text.length_padded (by omega) short.2)
    (by
      intro char member
      simp only [List.mem_append] at member
      rcases member with (member | member) | member <;>
        exact Text.isDigit_of_mem_padded member)]
  simp only [Text.digitsValue_padded, yearValue, ofYmd?_self]
  by_cases zero : date.year = 0
  · rw [if_pos (by omega), if_pos zero]
  · rw [if_neg (by omega), if_neg zero]

theorem ofWireText_wireText_of_sign
    (date : Date)
    (signed : ¬ (0 ≤ date.year ∧ date.year ≤ 9999)) :
    ofWireText date.wireText = .error (.malformed date.wireText) := by
  have notDigits : ¬ date.wireText.toList.all Char.isDigit = true := by
    rw [wireText, yearText, if_neg signed]
    split <;> simp [String.toList_append]
  rw [ofWireText]
  exact if_neg fun digits => notDigits digits.2

/-- The wire texts that read back are those of the years 1 to 9999. -/
theorem ofWireText_wireText_eq_ok_iff
    {date other : Date} :
    ofWireText date.wireText = .ok other ↔
      (1 ≤ date.year ∧ date.year ≤ 9999) ∧ other = date := by
  by_cases fourDigits : 0 ≤ date.year ∧ date.year ≤ 9999
  · rw [ofWireText_wireText_of_four_digits date fourDigits]
    split
    · rename_i zero
      simp only [reduceCtorEq, false_iff, not_and]
      omega
    · rename_i nonzero
      simp only [Except.ok.injEq, eq_comm, iff_and_self]
      omega
  · rw [ofWireText_wireText_of_sign date fourDigits]
    simp only [reduceCtorEq, false_iff, not_and]
    omega

end Date

end Agenda
