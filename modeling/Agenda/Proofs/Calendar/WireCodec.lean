import Agenda.Proofs.Calendar.TextOrder
import Mathlib.Data.List.Basic

/-!
# Date texts and their dates

A text is stored and compared as its octets in UTF-8.  `Date.Spells` says which
octets are a date text, and for which year, month and day, without reading
them.  Reading finds exactly the days of year 1 and later that are spelled, and
writing gives their texts back.

The main statement is `wireText_isCodec`: reading and writing are inverse
between the texts that spell a day and the dates of the years 1 to 9999, the
octets of these texts are ordered as the dates are, and any other text is
refused for one of two reasons.
-/

namespace Agenda

/-! ## The octets of a text -/

namespace Text

/-- The octets of a text in UTF-8. -/
def octets (text : String) : List Nat :=
  text.toByteArray.data.toList.map UInt8.toNat

/-- An octet that stands for one of the digits 0 to 9. -/
def IsDigitOctet (octet : Nat) : Prop :=
  48 ≤ octet ∧ octet ≤ 57

theorem octets_eq_flatMap (text : String) :
    octets text = text.toList.flatMap fun char => (String.utf8EncodeChar char).map UInt8.toNat := by
  rw [octets, ← String.utf8Encode_toList, List.utf8Encode, List.data_toByteArray,
    List.toList_toArray, List.map_flatMap]

theorem utf8EncodeChar_of_isDigit
    {char : Char}
    (digit : char.isDigit = true) :
    (String.utf8EncodeChar char).map UInt8.toNat = [char.toNat] := by
  have bounds := toNat_of_isDigit digit
  have short : char.val.toNat ≤ 0x7f := by
    change char.toNat ≤ 127
    omega
  rw [show String.utf8EncodeChar char = [UInt8.ofNat char.toNat] from if_pos short,
    List.map_singleton, UInt8.toNat_ofNat', Nat.mod_eq_of_lt (by omega)]

/-- Digits are their own octets. -/
theorem octets_of_digits
    {text : String}
    (decimal : ∀ char ∈ text.toList, char.isDigit = true) :
    octets text = text.toList.map Char.toNat := by
  rw [octets_eq_flatMap, List.map_eq_flatMap]
  exact List.flatMap_congr fun char member => utf8EncodeChar_of_isDigit (decimal char member)

/-- A character of digit octets is a digit: beyond ASCII, the first octet is 192 or greater. -/
theorem isDigit_of_octets
    {char : Char}
    (decimal : ∀ octet ∈ String.utf8EncodeChar char, IsDigitOctet octet.toNat) :
    char.isDigit = true := by
  unfold String.utf8EncodeChar at decimal
  simp only at decimal
  split at decimal
  · rename_i short
    have bounds := decimal _ List.mem_cons_self
    rw [UInt8.toNat_ofNat', Nat.mod_eq_of_lt (by omega)] at bounds
    simp only [Char.isDigit, Bool.and_eq_true, decide_eq_true_eq]
    exact bounds
  · exfalso
    split at decimal
    · have bounds := decimal _ List.mem_cons_self
      rw [IsDigitOctet, UInt8.toNat_ofNat'] at bounds
      omega
    · split at decimal
      · have bounds := decimal _ List.mem_cons_self
        rw [IsDigitOctet, UInt8.toNat_ofNat'] at bounds
        omega
      · have bounds := decimal _ List.mem_cons_self
        rw [IsDigitOctet, UInt8.toNat_ofNat'] at bounds
        omega

/-- A text consists of digits as octets if it does as characters. -/
theorem octets_digits_iff
    {text : String} :
    (∀ octet ∈ octets text, IsDigitOctet octet) ↔
      ∀ char ∈ text.toList, char.isDigit = true := by
  constructor
  · intro decimal char member
    refine isDigit_of_octets fun octet encoded => decimal _ ?_
    rw [octets_eq_flatMap]
    exact List.mem_flatMap.2 ⟨char, member, List.mem_map_of_mem encoded⟩
  · intro digits octet member
    rw [octets_of_digits digits] at member
    rcases List.mem_map.1 member with ⟨char, written, rfl⟩
    exact toNat_of_isDigit (digits char written)

theorem map_toNat_lt_iff
    {first second : List Char} :
    first.map Char.toNat < second.map Char.toNat ↔ first < second := by
  induction first generalizing second with
  | nil =>
      cases second with
      | nil => exact iff_of_false (List.lt_irrefl []) (List.lt_irrefl [])
      | cons other otherLater => exact iff_of_true (List.nil_lt_cons _ _) (List.nil_lt_cons _ _)
  | cons char later ih =>
      cases second with
      | nil => exact iff_of_false (List.not_lt_nil _) (List.not_lt_nil _)
      | cons other otherLater =>
          rw [List.map_cons, List.map_cons, List.cons_lt_cons_iff, List.cons_lt_cons_iff, ih,
            Char.toNat_inj]
          exact Iff.rfl

/-- Digits compare as octets as they do as characters. -/
theorem octets_lt_iff
    {first second : String}
    (decimal : ∀ char ∈ first.toList, char.isDigit = true)
    (otherDecimal : ∀ char ∈ second.toList, char.isDigit = true) :
    octets first < octets second ↔ first < second := by
  rw [octets_of_digits decimal, octets_of_digits otherDecimal, map_toNat_lt_iff]
  exact Iff.rfl

end Text

/-! ## Spelled dates -/

namespace Date

variable {text : String} {year : Int} {month day : Nat} {date : Date}

/-- The octets of a text are eight digits. -/
def IsEightDigits (text : String) : Prop :=
  (Text.octets text).length = 8 ∧ ∀ octet ∈ Text.octets text, Text.IsDigitOctet octet

/--
Eight digits spell a year, a month and a day if the last two are the day and
the two before them the month.
-/
structure Spells (text : String) (year : Int) (month day : Nat) : Prop where
  isEightDigits : IsEightDigits text
  number : (Text.digitsValue text.toList : Int) = 10000 * year + 100 * month + day
  shortMonth : month < 100
  shortDay : day < 100

/-- A text spells a day of year 1 or later. -/
def SpellsDay (text : String) : Prop :=
  ∃ year month day, Spells text year month day ∧ 1 ≤ year ∧ IsRealDate year month day

theorem isEightDigits_iff :
    IsEightDigits text ↔
      text.toList.length = 8 ∧ ∀ char ∈ text.toList, char.isDigit = true := by
  rw [IsEightDigits, Text.octets_digits_iff, and_congr_left_iff]
  intro digits
  rw [Text.octets_of_digits digits, List.length_map]

/-- Reading finds the date of year 1 or later that is spelled. -/
theorem ofWireText_eq_ok_iff_spells :
    ofWireText text = .ok date ↔ Spells text date.year date.month date.day ∧ 1 ≤ date.year := by
  constructor
  · intro read
    have short := date.wireText_groups
    have digits := isEightDigits_iff.2 (ofWireText_eq_ok_iff.1 read).1
    exact ⟨⟨digits, digitsValue_of_ofWireText read, short.1, short.2⟩, (year_of_ofWireText read).1⟩
  · rintro ⟨⟨digits, number, shortMonth, shortDay⟩, positive⟩
    have written := isEightDigits_iff.1 digits
    have monthBelow : Text.digitsValue ((text.toList.drop 4).take 2) < 10 ^ 2 := by
      have bound := @Text.digitsValue_lt ((text.toList.drop 4).take 2)
        fun char member => written.2 char (List.mem_of_mem_drop (List.mem_of_mem_take member))
      rwa [List.length_take, List.length_drop, written.1] at bound
    have dayBelow : Text.digitsValue (text.toList.drop 6) < 10 ^ 2 := by
      have bound := @Text.digitsValue_lt (text.toList.drop 6)
        fun char member => written.2 char (List.mem_of_mem_drop member)
      rwa [List.length_drop, written.1] at bound
    rw [Text.digitsValue_groups written.1] at number
    push_cast at number
    exact ofWireText_eq_ok_iff.2 ⟨written, positive, by omega, by omega, by omega⟩

theorem spellsDay_iff :
    SpellsDay text ↔ ∃ date, ofWireText text = .ok date := by
  constructor
  · rintro ⟨year, month, day, spells, positive, isReal⟩
    exact ⟨⟨year, month, day, isReal⟩, ofWireText_eq_ok_iff_spells.2 ⟨spells, positive⟩⟩
  · rintro ⟨date, read⟩
    have spelled := ofWireText_eq_ok_iff_spells.1 read
    exact ⟨date.year, date.month, date.day, spelled.1, spelled.2, date.isReal⟩

/-- What is not read is refused as malformed, or as no day of the calendar if it is eight digits. -/
theorem ofWireText_cases (text : String) :
    (∃ date, ofWireText text = .ok date) ∨
      (IsEightDigits text ∧ ofWireText text = .error (.notInCalendar text)) ∨
      (¬ IsEightDigits text ∧ ofWireText text = .error (.malformed text)) := by
  rw [isEightDigits_iff, ofWireText]
  simp only [List.all_eq_true]
  split
  · rename_i digits
    split
    · rename_i date named
      split
      · exact .inr (.inl ⟨digits, rfl⟩)
      · exact .inl ⟨date, rfl⟩
    · exact .inr (.inl ⟨digits, rfl⟩)
  · rename_i malformed
    exact .inr (.inr ⟨malformed, rfl⟩)

theorem isEightDigits_of_spellsDay (spells : SpellsDay text) : IsEightDigits text := by
  rcases spells with ⟨year, month, day, spelled, -⟩
  exact spelled.isEightDigits

/-- A text is malformed if it is not eight digits. -/
theorem ofWireText_eq_malformed_iff :
    ofWireText text = .error (.malformed text) ↔ ¬ IsEightDigits text := by
  rcases ofWireText_cases text with ⟨date, read⟩ | ⟨digits, refused⟩ | ⟨malformed, refused⟩
  · have digits := isEightDigits_of_spellsDay (spellsDay_iff.2 ⟨date, read⟩)
    simp [read, digits]
  · simp [refused, digits]
  · simp [refused, malformed]

/-- Eight digits that spell no day of year 1 or later are not in the calendar. -/
theorem ofWireText_eq_notInCalendar_iff :
    ofWireText text = .error (.notInCalendar text) ↔
      IsEightDigits text ∧ ¬ SpellsDay text := by
  rw [spellsDay_iff]
  rcases ofWireText_cases text with ⟨date, read⟩ | ⟨digits, refused⟩ | ⟨malformed, refused⟩
  · simp [read]
  · simp [refused, digits]
  · simp [refused, malformed]

/-! ## Reading and writing -/

/-- A date that is read is written as it was. -/
theorem wireText_of_ofWireText
    (read : ofWireText text = .ok date) :
    date.wireText = text := by
  have again : ofWireText date.wireText = .ok date :=
    ofWireText_wireText_eq_ok_iff.2 ⟨year_of_ofWireText read, rfl⟩
  exact eq_of_ofWireText_eq again read

/-- The years 1 to 9999 are read back; year 0 has four digits, and any other year a sign. -/
theorem ofWireText_wireText (date : Date) :
    ofWireText date.wireText =
      if 1 ≤ date.year ∧ date.year ≤ 9999 then .ok date
      else if date.year = 0 then .error (.notInCalendar date.wireText)
      else .error (.malformed date.wireText) := by
  by_cases fourDigits : 0 ≤ date.year ∧ date.year ≤ 9999
  · rw [ofWireText_wireText_of_four_digits date fourDigits]
    by_cases zero : date.year = 0
    · rw [if_pos zero, if_neg (by omega), if_pos zero]
    · rw [if_neg zero, if_pos (by omega)]
  · rw [ofWireText_wireText_of_sign date fourDigits, if_neg (by omega), if_neg (by omega)]

/-- The octets of date texts are ordered as their dates are. -/
theorem octets_lt_iff_of_ofWireText
    {other : String} {otherDate : Date}
    (read : ofWireText text = .ok date)
    (otherRead : ofWireText other = .ok otherDate) :
    Text.octets text < Text.octets other ↔ date < otherDate := by
  have decimal := (ofWireText_eq_ok_iff.1 read).1.2
  have otherDecimal := (ofWireText_eq_ok_iff.1 otherRead).1.2
  rw [Text.octets_lt_iff decimal otherDecimal, lt_iff_of_ofWireText read otherRead]

end Date

/--
A text is read as a date if its octets are eight digits that spell a real day
of year 1 or later, and then as that day.  It is malformed if its octets are
not eight digits, and otherwise not in the calendar.  A date that is read is
written as the text from which it was read, and every date of the years 1 to
9999 is read from the text as which it is written; the text of any other date
is refused.  The octets of the texts that are read are ordered as their dates
are.
-/
theorem wireText_isCodec :
    (∀ text, (∃ date, Date.ofWireText text = .ok date) ↔ Date.SpellsDay text) ∧
    (∀ text, Date.ofWireText text = .error (.malformed text) ↔ ¬ Date.IsEightDigits text) ∧
    (∀ text, Date.ofWireText text = .error (.notInCalendar text) ↔
      Date.IsEightDigits text ∧ ¬ Date.SpellsDay text) ∧
    (∀ text date, Date.ofWireText text = .ok date →
      Date.Spells text date.year date.month date.day ∧ date.wireText = text) ∧
    (∀ date : Date, Date.ofWireText date.wireText =
      if 1 ≤ date.year ∧ date.year ≤ 9999 then .ok date
      else if date.year = 0 then .error (.notInCalendar date.wireText)
      else .error (.malformed date.wireText)) ∧
    (∀ text other date otherDate, Date.ofWireText text = .ok date →
      Date.ofWireText other = .ok otherDate →
      (Text.octets text < Text.octets other ↔ date < otherDate)) := by
  refine ⟨?_, ?_, ?_, ?_, ?_, ?_⟩
  · intro text
    exact Date.spellsDay_iff.symm
  · intro text
    exact Date.ofWireText_eq_malformed_iff
  · intro text
    exact Date.ofWireText_eq_notInCalendar_iff
  · intro text date read
    exact ⟨(Date.ofWireText_eq_ok_iff_spells.1 read).1, Date.wireText_of_ofWireText read⟩
  · intro date
    exact date.ofWireText_wireText
  · intro text other date otherDate read otherRead
    exact Date.octets_lt_iff_of_ofWireText read otherRead

/--
The last day of a leap February and the day after it; the day before the first
of year 1, whose text has eight digits; and eight octets that are not all digits.
-/
theorem wireText_isCodec_leapDay :
    let leapDay : Date := ⟨2000, 2, 29, by decide⟩
    let nextDay : Date := ⟨2000, 3, 1, by decide⟩
    let yearZero : Date := ⟨0, 12, 31, by decide⟩
    (Date.ofWireText "20000229" = .ok leapDay ∧ leapDay.wireText = "20000229") ∧
      (Date.ofWireText "20000301" = .ok nextDay ∧
        (Text.octets "20000229" < Text.octets "20000301" ↔ leapDay < nextDay)) ∧
      Date.ofWireText yearZero.wireText = .error (.notInCalendar yearZero.wireText) ∧
      (Text.octets "20240é1").length = 8 ∧
      Date.ofWireText "20240é1" = .error (.malformed "20240é1") := by
  intro leapDay nextDay yearZero
  have read : Date.ofWireText "20000229" = .ok leapDay := by decide +kernel
  have otherRead : Date.ofWireText "20000301" = .ok nextDay := by decide +kernel
  refine ⟨⟨read, ?_⟩, ⟨otherRead, ?_⟩, ?_, ?_, ?_⟩
  · exact (wireText_isCodec.2.2.2.1 _ _ read).2
  · exact wireText_isCodec.2.2.2.2.2 _ _ _ _ read otherRead
  · exact wireText_isCodec.2.2.2.2.1 yearZero
  · decide +kernel
  · decide +kernel

end Agenda
