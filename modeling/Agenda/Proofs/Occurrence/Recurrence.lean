import Agenda.Proofs.Occurrence.Selection

/-!
# Monthly rules that recur

The Gregorian calendar repeats after 400 years, so a day that a monthly rule
selects in any year at all is found in the bounded calendar as well
(`Rule.SelectsDay.exists_date`).  The check compares the selected days with the
greatest lengths of the selected months, and this decides whether there is such
a day.  A leap day is the rarest that can be selected, and never more than
eight years away.  So a rule that passes the check has a date in any 96 months
in a row, and one that does not has none at all (`check_monthly_iff_selectsDay`).
-/

namespace Agenda

theorem isLeapYear_emod_iff (year : Int) : IsLeapYear (year % 400) ↔ IsLeapYear year := by
  simp only [IsLeapYear]
  omega

/-- After 400 years the months have the same lengths again. -/
theorem monthLength_emod (year : Int) (month : Nat) :
    monthLength (year % 400) month = monthLength year month := by
  rw [monthLength.eq_def, monthLength.eq_def year]
  simp only [isLeapYear_emod_iff]

namespace Rule

variable {days months : IntSet}

/--
A day of a month of any year is selected: its month is, and the day itself by
its number, as the last of the month or as the one before the last.
-/
structure SelectsDay (days months : IntSet) (year : Int) (month day : Nat) : Prop where
  inMonth : 1 ≤ day ∧ day ≤ monthLength year month
  ofMonths : months.isEmpty ∨ (month : Int) ∈ months
  ofDays : (day : Int) ∈ days ∨ (-1 ∈ days ∧ day = monthLength year month) ∨
    (-2 ∈ days ∧ day + 1 = monthLength year month)

/-- A date is named by valid selectors exactly if it is a selected day. -/
theorem isNamedBy_iff_selectsDay
    {date : Date}
    (daysAllowed : ∀ day ∈ days, RuleField.dayOfMonth.Allows day) :
    date.IsNamedBy days months ↔ SelectsDay days months date.year date.month date.day := by
  have positive := date.isReal.2.1
  constructor
  · rintro ⟨ofMonths, day, member, hasDay⟩
    refine ⟨date.isReal.2, ofMonths, ?_⟩
    have allowed := daysAllowed day member
    simp only [RuleField.Allows] at allowed
    rw [Date.HasDay] at hasDay
    rcases allowed with counted | rfl | rfl
    · rw [if_neg (by omega)] at hasDay
      exact .inl (hasDay ▸ member)
    · rw [if_pos (by decide)] at hasDay
      exact .inr (.inl ⟨member, by omega⟩)
    · rw [if_pos (by decide)] at hasDay
      exact .inr (.inr ⟨member, by omega⟩)
  · rintro ⟨-, ofMonths, counted | ⟨member, last⟩ | ⟨member, beforeLast⟩⟩
    · refine ⟨ofMonths, date.day, counted, ?_⟩
      rw [Date.HasDay, if_neg (by omega)]
    · refine ⟨ofMonths, -1, member, ?_⟩
      rw [Date.HasDay, if_pos (by decide)]
      omega
    · refine ⟨ofMonths, -2, member, ?_⟩
      rw [Date.HasDay, if_pos (by decide)]
      omega

/-- The same day is selected in a year from 0 to 399, which the bounded calendar has. -/
theorem SelectsDay.exists_date
    {year : Int} {month day : Nat}
    (selects : SelectsDay days months year month day) :
    ∃ date : Date, SelectsDay days months date.year date.month date.day := by
  rcases selects with ⟨inMonth, ofMonths, ofDays⟩
  rw [← monthLength_emod] at inMonth ofDays
  have inCalendar : firstYear ≤ year % 400 ∧ year % 400 ≤ lastYear := by
    rw [firstYear, lastYear]
    omega
  exact ⟨⟨year % 400, month, day, inCalendar, inMonth⟩, inMonth, ofMonths, ofDays⟩

theorem canOccur_iff_selectsDay
    (daysAllowed : ∀ day ∈ days, RuleField.dayOfMonth.Allows day)
    (monthsAllowed : ∀ month ∈ months, RuleField.month.Allows month) :
    canOccur days months = true ↔ ∃ year month day, SelectsDay days months year month day := by
  rw [canOccur_eq_true_iff daysAllowed monthsAllowed]
  constructor
  · rintro ⟨date, named⟩
    exact ⟨date.year, date.month, date.day, (isNamedBy_iff_selectsDay daysAllowed).1 named⟩
  · rintro ⟨year, month, day, selects⟩
    rcases selects.exists_date with ⟨date, dateSelects⟩
    exact ⟨date, (isNamedBy_iff_selectsDay daysAllowed).2 dateSelects⟩

/-- A rule that passes the check has a date, found by a selector, in any run of 96 months. -/
theorem exists_selectsDay_of_run
    (accepted : (monthly days months).check = .ok ())
    {start : Month}
    (named : start.IsNamed)
    (inCalendar : ∀ month ∈ start.run 96, firstYear ≤ month.year ∧ month.year < lastYear) :
    ∃ date : Date, Month.ofDate date ∈ start.run 96 ∧
      SelectsDay days months date.year date.month date.day ∧
      ∃ selector ∈ days, (Month.ofDate date).select? selector = some date := by
  have first := inCalendar start ((Month.mem_run_iff named).2 ⟨named, by omega, by omega⟩)
  have last := inCalendar (.ofIndex (start.index + 95)) ((Month.mem_run_iff named).2
    ⟨Month.isNamed_ofIndex _, by rw [Month.index_ofIndex]; omega,
      by rw [Month.index_ofIndex]; omega⟩)
  have number := named.1
  rcases exists_offers accepted start.index
    (by simp only [Month.index]; omega)
    (by simp only [Month.index, Month.ofIndex] at last ⊢; omega) with
    ⟨date, offered, lower, upper⟩
  have allowed := (check_monthly_eq_ok_iff.1 accepted).2.1
  exact ⟨date, (Month.mem_run_iff named).2 ⟨Month.isNamed_ofDate date, lower, upper⟩,
    (isNamedBy_iff_selectsDay allowed).1 (Month.offers_ofDate_iff.1 offered).1, offered.2⟩

end Rule

variable {days months : IntSet}

/--
A monthly rule of valid selectors and months passes the check exactly if some
day of the Gregorian calendar is selected, in whatever year.  Then any 96 months
in a row, up to the last year but one, hold a selected date, and it is the date
that one of the selectors finds in its month.
-/
theorem check_monthly_iff_selectsDay
    (nonempty : ¬ days.isEmpty)
    (daysAllowed : ∀ day ∈ days, RuleField.dayOfMonth.Allows day)
    (monthsAllowed : ∀ month ∈ months, RuleField.month.Allows month) :
    ((Rule.monthly days months).check = .ok () ↔
      ∃ year month day, Rule.SelectsDay days months year month day) ∧
    ((Rule.monthly days months).check = .ok () →
      ∀ start : Month, start.IsNamed →
        (∀ month ∈ start.run 96, firstYear ≤ month.year ∧ month.year < lastYear) →
        ∃ date : Date, Month.ofDate date ∈ start.run 96 ∧
          Rule.SelectsDay days months date.year date.month date.day ∧
          ∃ selector ∈ days, (Month.ofDate date).select? selector = some date) := by
  constructor
  · rw [Rule.check_monthly_eq_ok_iff, Rule.canOccur_iff_selectsDay daysAllowed monthsAllowed]
    exact ⟨fun accepted => accepted.2.2.2,
      fun selects => ⟨nonempty, daysAllowed, monthsAllowed, selects⟩⟩
  · intro accepted start named inCalendar
    exact Rule.exists_selectsDay_of_run accepted named inCalendar

/--
No leap day comes between March of 1896 and February of 1904, so these 96 months
hold only one, in the last of them.  No month has a 30th of February.
-/
theorem check_monthly_iff_selectsDay_leapDay :
    let days (day : Int) : IntSet := .ofList [day]
    let months : IntSet := .ofList [2]
    let start : Month := ⟨1896, 3⟩
    (∀ day, day = 29 ∨ day = 30 → ¬ (days day).isEmpty ∧
        (∀ selector ∈ days day, RuleField.dayOfMonth.Allows selector) ∧
        ∀ month ∈ months, RuleField.month.Allows month) ∧
      (start.IsNamed ∧
        ∀ month ∈ start.run 96, firstYear ≤ month.year ∧ month.year < lastYear) ∧
      (∃ date : Date, Month.ofDate date ∈ start.run 96 ∧
        Rule.SelectsDay (days 29) months date.year date.month date.day) ∧
      ¬ ∃ year month day, Rule.SelectsDay (days 30) months year month day := by
  intro days months start
  have valid (day : Int) (named : day = 29 ∨ day = 30) : ¬ (days day).isEmpty ∧
      (∀ selector ∈ days day, RuleField.dayOfMonth.Allows selector) ∧
      ∀ month ∈ months, RuleField.month.Allows month := by
    refine ⟨by rcases named with rfl | rfl <;> decide, ?_, ?_⟩
    · intro selector member
      rw [IntSet.mem_ofList, List.mem_singleton] at member
      simp only [RuleField.Allows]
      omega
    · intro month member
      rw [IntSet.mem_ofList, List.mem_singleton] at member
      simp only [RuleField.Allows]
      omega
  have inCalendar : start.IsNamed ∧
      ∀ month ∈ start.run 96, firstYear ≤ month.year ∧ month.year < lastYear :=
    ⟨⟨by decide, by decide⟩, by decide +kernel⟩
  have leapDay := valid 29 (.inl rfl)
  have neverDay := valid 30 (.inr rfl)
  have accepted : (Rule.monthly (days 29) months).check = .ok () := by decide +kernel
  have refused : (Rule.monthly (days 30) months).check ≠ .ok () := by decide +kernel
  rcases (check_monthly_iff_selectsDay leapDay.1 leapDay.2.1 leapDay.2.2).2 accepted start
    inCalendar.1 inCalendar.2 with ⟨date, inRun, selects, -⟩
  refine ⟨valid, inCalendar, ⟨date, inRun, selects⟩, ?_⟩
  rwa [← (check_monthly_iff_selectsDay neverDay.1 neverDay.2.1 neverDay.2.2).1]

end Agenda
