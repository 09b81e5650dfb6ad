import Agenda.Proofs.Calendar.MonthIndex
import Agenda.Proofs.Calendar.WireText

/-!
# The order of date texts

Runs of digits of one length compare as texts just as their values do, and a
date text writes the year before the month and the month before the day.  So
two date texts compare as the dates that are read from them
(`Date.lt_iff_of_ofWireText`), and a date is read from one text only.
-/

namespace Agenda

/-! ## Runs of digits -/

namespace Text

theorem toNat_of_isDigit
    {char : Char}
    (digit : char.isDigit = true) :
    48 ≤ char.toNat ∧ char.toNat ≤ 57 := by
  simp only [Char.isDigit, Bool.and_eq_true, decide_eq_true_eq] at digit
  exact digit

theorem digitsValue_append (front back : List Char) :
    digitsValue (front ++ back) = 10 ^ back.length * digitsValue front + digitsValue back := by
  rw [digitsValue, Nat.ofDigitChars_append, Nat.ofDigitChars_eq_ofDigitChars_zero]
  rfl

theorem digitsValue_cons (first : Char) (later : List Char) :
    digitsValue (first :: later) =
      10 ^ later.length * (first.toNat - 48) + digitsValue later := by
  rw [← List.singleton_append, digitsValue_append]
  congr 2
  rw [digitsValue, Nat.ofDigitChars_cons, Nat.ofDigitChars_nil, Nat.mul_zero, Nat.zero_add]
  rfl

/-- Eight digits are the number of the first four, of the two after them and of the last two. -/
theorem digitsValue_groups
    {digits : List Char}
    (eight : digits.length = 8) :
    digitsValue digits =
      10000 * digitsValue (digits.take 4) + 100 * digitsValue ((digits.drop 4).take 2) +
        digitsValue (digits.drop 6) := by
  have parts : digits = digits.take 4 ++ ((digits.drop 4).take 2 ++ digits.drop 6) := by
    rw [← List.drop_drop (i := 2) (j := 4), List.take_append_drop, List.take_append_drop]
  have middleLength : ((digits.drop 4).take 2).length = 2 := by
    rw [List.length_take, List.length_drop, eight]
    rfl
  have lastLength : (digits.drop 6).length = 2 := by
    rw [List.length_drop, eight]
  conv => lhs; rw [parts]
  rw [digitsValue_append, digitsValue_append, List.length_append, middleLength, lastLength]
  omega

theorem digitsValue_lt
    {digits : List Char}
    (decimal : ∀ char ∈ digits, char.isDigit = true) :
    digitsValue digits < 10 ^ digits.length := by
  induction digits with
  | nil => exact Nat.one_pos
  | cons first later ih =>
      have rest := ih fun char member => decimal char (List.mem_cons_of_mem first member)
      have digit := toNat_of_isDigit (decimal first List.mem_cons_self)
      have leading : 10 ^ later.length * (first.toNat - 48) ≤ 10 ^ later.length * 9 :=
        Nat.mul_le_mul_left _ (by omega)
      rw [digitsValue_cons, List.length_cons, Nat.pow_succ]
      omega

/-- The first digit decides, and the digits after it only if it is the same. -/
theorem lt_iff_digitsValue_lt
    {first second : List Char}
    (sameLength : first.length = second.length)
    (decimal : ∀ char ∈ first, char.isDigit = true)
    (otherDecimal : ∀ char ∈ second, char.isDigit = true) :
    first < second ↔ digitsValue first < digitsValue second := by
  induction first generalizing second with
  | nil =>
      rw [List.eq_nil_of_length_eq_zero sameLength.symm]
      exact iff_of_false (List.lt_irrefl []) (Nat.lt_irrefl _)
  | cons char later ih =>
      cases second with
      | nil => cases sameLength
      | cons other otherLater =>
          have laterLength : later.length = otherLater.length := Nat.succ.inj sameLength
          have laterDecimal (char : Char) (member : char ∈ later) :=
            decimal char (List.mem_cons_of_mem _ member)
          have otherLaterDecimal (char : Char) (member : char ∈ otherLater) :=
            otherDecimal char (List.mem_cons_of_mem _ member)
          have below := digitsValue_lt laterDecimal
          have otherBelow := digitsValue_lt otherLaterDecimal
          have digit := toNat_of_isDigit (decimal char List.mem_cons_self)
          have otherDigit := toNat_of_isDigit (otherDecimal other List.mem_cons_self)
          rw [List.cons_lt_cons_iff, ih laterLength laterDecimal otherLaterDecimal,
            digitsValue_cons, digitsValue_cons, laterLength]
          rw [laterLength] at below
          have order : char < other ↔ char.toNat < other.toNat := Iff.rfl
          rw [order, ← Char.toNat_inj]
          rcases Nat.lt_trichotomy char.toNat other.toNat with smaller | same | greater
          · have leading : 10 ^ otherLater.length * (char.toNat - 48 + 1) ≤
                10 ^ otherLater.length * (other.toNat - 48) :=
              Nat.mul_le_mul_left _ (by omega)
            rw [Nat.mul_succ] at leading
            exact iff_of_true (.inl smaller) (by omega)
          · rw [same]
            omega
          · have leading : 10 ^ otherLater.length * (other.toNat - 48 + 1) ≤
                10 ^ otherLater.length * (char.toNat - 48) :=
              Nat.mul_le_mul_left _ (by omega)
            rw [Nat.mul_succ] at leading
            refine iff_of_false ?_ (by omega)
            rintro (smaller | ⟨same, -⟩) <;> omega

end Text

/-! ## Date texts -/

namespace Date

/-- The number with the digits of the year, then the month, then the day. -/
def wireNumber (date : Date) : Int :=
  10000 * date.year + 100 * date.month + date.day

theorem lt_of_wireNumber_lt
    {first second : Date}
    (smaller : first.wireNumber < second.wireNumber) :
    first < second := by
  have month := first.month_mem
  have otherMonth := second.month_mem
  have day := first.wireText_groups.2
  have otherDay := second.wireText_groups.2
  simp only [wireNumber] at smaller
  rcases Int.lt_trichotomy first.year second.year with before | sameYear | after
  · exact lt_of_year_lt before
  · rcases Nat.lt_trichotomy first.month second.month with before | sameMonth | after
    · exact lt_of_month_lt sameYear before
    · have same : Month.ofDate first = Month.ofDate second := by
        rw [Month.ofDate, Month.ofDate, sameYear, sameMonth]
      exact (lt_iff_day_lt same).2 (by omega)
    · omega
  · omega

theorem eq_of_wireNumber_eq
    {first second : Date}
    (same : first.wireNumber = second.wireNumber) :
    first = second := by
  have month := first.month_mem
  have otherMonth := second.month_mem
  have groups := first.wireText_groups
  have otherGroups := second.wireText_groups
  simp only [wireNumber] at same
  have sameYear : first.year = second.year := by omega
  have sameMonth : first.month = second.month := by omega
  have sameDay : first.day = second.day := by omega
  cases first
  cases second
  cases sameYear
  cases sameMonth
  cases sameDay
  rfl

theorem lt_iff_wireNumber_lt
    {first second : Date} :
    first < second ↔ first.wireNumber < second.wireNumber := by
  refine ⟨fun before => ?_, lt_of_wireNumber_lt⟩
  rcases Int.lt_trichotomy first.wireNumber second.wireNumber with smaller | same | greater
  · exact smaller
  · rw [eq_of_wireNumber_eq same] at before
    exact absurd before Std.lt_irrefl
  · exact absurd (Std.lt_trans before (lt_of_wireNumber_lt greater)) Std.lt_irrefl

/-- A date is read from eight digits: four of its year, two of its month and two of its day. -/
theorem ofWireText_eq_ok_iff
    {text : String} {date : Date} :
    ofWireText text = .ok date ↔
      (text.toList.length = 8 ∧ ∀ char ∈ text.toList, char.isDigit = true) ∧
        1 ≤ date.year ∧ date.year = Text.digitsValue (text.toList.take 4) ∧
        date.month = Text.digitsValue ((text.toList.drop 4).take 2) ∧
        date.day = Text.digitsValue (text.toList.drop 6) := by
  rw [ofWireText]
  simp only [List.all_eq_true]
  split
  · rename_i written
    split
    · rename_i found named
      have fields := ofYmd?_eq_some_iff.1 named
      split
      · rename_i zero
        simp only [reduceCtorEq, false_iff]
        rintro ⟨-, positive, year, -⟩
        omega
      · rename_i nonzero
        rw [Except.ok.injEq]
        constructor
        · rintro rfl
          exact ⟨written, by omega, fields⟩
        · rintro ⟨-, -, same⟩
          rw [ofYmd?_eq_some_iff.2 same] at named
          exact (Option.some.inj named).symm
    · rename_i unreal
      simp only [reduceCtorEq, false_iff]
      rintro ⟨-, -, fields⟩
      rw [ofYmd?_eq_some_iff.2 fields] at unreal
      cases unreal
  · rename_i malformed
    simp only [reduceCtorEq, false_iff]
    rintro ⟨written, -⟩
    exact malformed written

theorem year_of_ofWireText
    {text : String} {date : Date}
    (read : ofWireText text = .ok date) :
    1 ≤ date.year ∧ date.year ≤ 9999 := by
  rcases ofWireText_eq_ok_iff.1 read with ⟨⟨length, decimal⟩, positive, year, -⟩
  have decimalYear (char : Char) (member : char ∈ text.toList.take 4) : char.isDigit = true :=
    decimal char (List.mem_of_mem_take member)
  have below := Text.digitsValue_lt decimalYear
  rw [List.length_take, length, Nat.min_eq_left (by omega)] at below
  omega

/-- The digits of a date text write the number of the date that is read from it. -/
theorem digitsValue_of_ofWireText
    {text : String} {date : Date}
    (read : ofWireText text = .ok date) :
    (Text.digitsValue text.toList : Int) = date.wireNumber := by
  rcases ofWireText_eq_ok_iff.1 read with ⟨⟨length, -⟩, -, year, month, day⟩
  rw [Text.digitsValue_groups length, wireNumber, year, month, day]
  push_cast
  omega

/-- Date texts compare as their dates do. -/
theorem lt_iff_of_ofWireText
    {text other : String} {date otherDate : Date}
    (read : ofWireText text = .ok date)
    (otherRead : ofWireText other = .ok otherDate) :
    text < other ↔ date < otherDate := by
  have written := (ofWireText_eq_ok_iff.1 read).1
  have otherWritten := (ofWireText_eq_ok_iff.1 otherRead).1
  have order : text < other ↔ text.toList < other.toList := Iff.rfl
  rw [order,
    Text.lt_iff_digitsValue_lt (written.1.trans otherWritten.1.symm) written.2 otherWritten.2,
    lt_iff_wireNumber_lt, ← digitsValue_of_ofWireText read, ← digitsValue_of_ofWireText otherRead,
    Int.ofNat_lt]

/-- A date is read from one text only. -/
theorem eq_of_ofWireText_eq
    {text other : String} {date : Date}
    (read : ofWireText text = .ok date)
    (otherRead : ofWireText other = .ok date) :
    text = other := by
  have notBelow : ¬ text < other := by
    rw [lt_iff_of_ofWireText read otherRead]
    exact Std.lt_irrefl
  have notAbove : ¬ other < text := by
    rw [lt_iff_of_ofWireText otherRead read]
    exact Std.lt_irrefl
  exact String.le_antisymm notAbove notBelow

end Date

end Agenda
