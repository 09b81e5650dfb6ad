import Agenda.Proofs.Calendar.Order
import Agenda.Rule.Basic

/-!
# What a checked rule says

A rule passes `Rule.check` when its numbers lie in their fields and, for a
monthly rule, when some selected day exists in some selected month.  That month
can be taken in any leap year (`Rule.exists_selectable`), because then no month
is longer in another year.  So a monthly rule can occur exactly if the calendar
has a date that it selects (`Rule.canOccur_eq_true_iff`).
-/

namespace Agenda

namespace IntSet

theorem mem_elements
    {value : Int} {set : IntSet} :
    value ∈ set.elements ↔ value ∈ set :=
  Iff.rfl

theorem isEmpty_iff {set : IntSet} : set.isEmpty = true ↔ set.elements = [] :=
  List.isEmpty_iff

theorem exists_mem
    {set : IntSet}
    (nonempty : ¬ set.isEmpty) :
    ∃ value, value ∈ set :=
  List.exists_mem_of_ne_nil set.elements (mt isEmpty_iff.2 nonempty)

/-- The greatest member of a set comes last. -/
theorem getLast?_elements_eq_some_iff
    {set : IntSet} {last : Int} :
    set.elements.getLast? = some last ↔ last ∈ set ∧ ∀ value ∈ set, value ≤ last := by
  constructor
  · intro found
    refine ⟨List.mem_of_getLast? found, ?_⟩
    intro value member
    rcases List.getLast?_eq_some_iff.1 found with ⟨earlier, listed⟩
    have increasing := set.increasing
    rw [listed, List.pairwise_append] at increasing
    rw [← mem_elements, listed] at member
    rcases List.mem_append.1 member with before | same
    · exact Int.le_of_lt (increasing.2.2 value before last List.mem_cons_self)
    · exact Int.le_of_eq (List.mem_singleton.1 same)
  · rintro ⟨member, greatest⟩
    cases found : set.elements.getLast? with
    | none =>
        rw [← mem_elements, List.getLast?_eq_none_iff.1 found] at member
        cases member
    | some other =>
        rcases List.getLast?_eq_some_iff.1 found with ⟨earlier, listed⟩
        have increasing := set.increasing
        have otherBelow := greatest other (List.mem_of_getLast? found)
        rw [listed, List.pairwise_append] at increasing
        rw [← mem_elements, listed] at member
        rcases List.mem_append.1 member with before | same
        · have above := increasing.2.2 last before other List.mem_cons_self
          omega
        · rw [List.mem_singleton.1 same]

end IntSet

namespace Rule

theorem checkMembers_eq_ok_iff
    {field : RuleField} {values : IntSet} :
    checkMembers field values = .ok () ↔ ∀ value ∈ values, field.Allows value := by
  rw [checkMembers]
  split
  · rename_i value found
    have refused := List.find?_some found
    simp only [decide_not, Bool.not_eq_true', decide_eq_false_iff_not] at refused
    simp only [reduceCtorEq, false_iff]
    intro allowed
    exact refused (allowed value (List.mem_of_find?_eq_some found))
  · rename_i notFound
    simp only [true_iff]
    intro value member
    have misfit := List.find?_eq_none.1 notFound value member
    simpa using misfit

theorem check_daily_eq_ok_iff {interval : Nat} :
    (daily interval).check = .ok () ↔ 1 ≤ interval ∧ interval ≤ 400 := by
  rw [check]
  split <;> rename_i allowed <;> simp only [RuleField.Allows] at allowed <;>
    simp only [reduceCtorEq, true_iff, false_iff] <;> omega

theorem check_weekly_eq_ok_iff {weekdays : IntSet} :
    (weekly weekdays).check = .ok () ↔
      ¬ weekdays.isEmpty ∧ ∀ weekday ∈ weekdays, RuleField.weekday.Allows weekday := by
  rw [← checkMembers_eq_ok_iff, check]
  split <;> simp_all

theorem check_monthly_eq_ok_iff {days months : IntSet} :
    (monthly days months).check = .ok () ↔
      ¬ days.isEmpty ∧ (∀ day ∈ days, RuleField.dayOfMonth.Allows day) ∧
        (∀ month ∈ months, RuleField.month.Allows month) ∧ canOccur days months := by
  rw [← checkMembers_eq_ok_iff, ← checkMembers_eq_ok_iff, check]
  split
  · simp_all
  · cases checkMembers .dayOfMonth days with
    | error cause => simp [bind, Except.bind]
    | ok =>
        cases checkMembers .month months with
        | error cause => simp [bind, Except.bind]
        | ok =>
            simp only [bind, Except.bind]
            split <;> simp_all

/-- A bound that the greatest number of a list reaches is reached by a number of the list. -/
theorem exists_le_of_le_foldl_max
    {bound start : Int} {values : List Int}
    (reached : bound ≤ values.foldl max start)
    (above : start < bound) :
    ∃ value ∈ values, bound ≤ value := by
  induction values generalizing start with
  | nil => exact absurd reached (Int.not_le.2 above)
  | cons first rest ih =>
      by_cases high : bound ≤ first
      · exact ⟨first, List.mem_cons_self, high⟩
      · rcases ih reached (by omega) with ⟨value, member, high⟩
        exact ⟨value, List.mem_cons_of_mem first member, high⟩

theorem longestLength_eq_monthLength
    {year : Int} {number : Nat}
    (leap : IsLeapYear year)
    (named : 1 ≤ number ∧ number ≤ 12) :
    longestLength number = monthLength year number := by
  rcases named with ⟨lower, upper⟩
  interval_cases number <;> simp [longestLength, monthLength, leap]

/--
A monthly rule that can occur selects a day of a selected month in each leap
year: some selected month is long enough when it is longest.
-/
theorem exists_selectable
    {days months : IntSet}
    (accepted : (monthly days months).check = .ok ()) :
    ∃ day ∈ days, ∃ number : Nat, (1 ≤ number ∧ number ≤ 12) ∧
      (months.isEmpty ∨ (number : Int) ∈ months) ∧
      ∀ year, IsLeapYear year → day < 0 ∨ day ≤ monthLength year number := by
  rcases check_monthly_eq_ok_iff.1 accepted with ⟨-, daysAllowed, monthsAllowed, occurs⟩
  rcases List.any_eq_true.1 occurs with ⟨day, member, fits⟩
  simp only [Bool.or_eq_true, decide_eq_true_eq] at fits
  refine ⟨day, member, ?_⟩
  suffices long : ∃ month : Int, RuleField.month.Allows month ∧
      (months.isEmpty ∨ month ∈ months) ∧ (day < 0 ∨ day ≤ longestLength month) by
    rcases long with ⟨month, allowed, selected, reaches⟩
    simp only [RuleField.Allows] at allowed
    have number : (month.toNat : Int) = month := Int.toNat_of_nonneg (by omega)
    refine ⟨month.toNat, by omega, by rw [number]; exact selected, ?_⟩
    intro year leap
    rw [← longestLength_eq_monthLength leap (by omega), number]
    exact reaches
  rw [lastSelectableDay] at fits
  split at fits
  · rename_i every
    exact ⟨1, by simp only [RuleField.Allows]; omega, .inl every, fits⟩
  · rename_i restricted
    by_cases negative : day < 0
    · rcases IntSet.exists_mem restricted with ⟨month, selected⟩
      exact ⟨month, monthsAllowed month selected, .inr selected, .inl negative⟩
    · have allowed := daysAllowed day member
      simp only [RuleField.Allows] at allowed
      rcases exists_le_of_le_foldl_max (fits.resolve_left negative) (by omega) with
        ⟨length, lengthMember, reaches⟩
      rcases List.mem_map.1 lengthMember with ⟨month, selected, rfl⟩
      exact ⟨month, monthsAllowed month selected, .inr selected, .inr reaches⟩

end Rule

/-! ## Dates of selected days -/

/-- A date has the day that is counted from the first of its month, or back from the last, −1. -/
def Date.HasDay (date : Date) (day : Int) : Prop :=
  if day < 0 then (date.day : Int) = monthLength date.year date.month + day + 1
  else (date.day : Int) = day

namespace Rule

theorem le_foldl_max
    {value start : Int} {values : List Int}
    (below : value ≤ start ∨ value ∈ values) :
    value ≤ values.foldl max start := by
  induction values generalizing start with
  | nil => exact below.resolve_right List.not_mem_nil
  | cons first rest ih =>
      apply ih
      rcases below with low | member
      · exact .inl (Int.le_trans low (Int.le_max_left start first))
      · rcases List.mem_cons.1 member with rfl | later
        · exact .inl (Int.le_max_right start value)
        · exact .inr later

theorem monthLength_le_longestLength
    (year : Int) {number : Nat}
    (named : 1 ≤ number ∧ number ≤ 12) :
    monthLength year number ≤ longestLength number := by
  rcases named with ⟨lower, upper⟩
  interval_cases number <;> simp [longestLength, monthLength]
  split <;> omega

/-- Some date of the calendar has a selected day in a selected month. -/
def SelectsDate (days months : IntSet) : Prop :=
  ∃ date : Date, (months.isEmpty ∨ (date.month : Int) ∈ months) ∧ ∃ day ∈ days, date.HasDay day

/-- A rule can occur if some date is selected; the longest months decide. -/
theorem canOccur_eq_true_iff
    {days months : IntSet}
    (daysAllowed : ∀ day ∈ days, RuleField.dayOfMonth.Allows day)
    (monthsAllowed : ∀ month ∈ months, RuleField.month.Allows month) :
    canOccur days months = true ↔ SelectsDate days months := by
  constructor
  · intro occurs
    have nonempty : ¬ days.isEmpty := by
      rw [IntSet.isEmpty_iff]
      intro empty
      rw [canOccur, empty] at occurs
      cases occurs
    rcases exists_selectable (check_monthly_eq_ok_iff.2
      ⟨nonempty, daysAllowed, monthsAllowed, occurs⟩) with
      ⟨day, member, number, named, selected, fits⟩
    have reaches := fits 2000 (by decide)
    have long := twentyEight_le_monthLength 2000 named
    have allowed := daysAllowed day member
    simp only [RuleField.Allows] at allowed
    let place : Int := if day < 0 then monthLength 2000 number + day + 1 else day
    have placed : 1 ≤ place ∧ place ≤ monthLength 2000 number := by
      simp only [place]
      split <;> omega
    let date : Date := ⟨2000, number, place.toNat, by decide, by omega, by omega⟩
    refine ⟨date, selected, day, member, ?_⟩
    have same : (date.day : Int) = place := Int.toNat_of_nonneg (by omega)
    rw [Date.HasDay, same]
    simp only [place, date]
    split <;> simp_all
  · rintro ⟨date, selected, day, member, hasDay⟩
    refine List.any_eq_true.2 ⟨day, member, ?_⟩
    simp only [Bool.or_eq_true, decide_eq_true_eq]
    rcases Int.lt_or_le day 0 with negative | counted
    · exact .inl negative
    · refine .inr ?_
      rw [Date.HasDay, if_neg (Int.not_lt.2 counted)] at hasDay
      have fits := date.isReal.2.2
      have longest := monthLength_le_longestLength date.year date.month_mem
      have short := monthLength_le date.year date.month
      rw [lastSelectableDay]
      split
      · omega
      · rename_i restricted
        have listed := List.mem_map_of_mem (f := longestLength) (selected.resolve_left restricted)
        have reached := @le_foldl_max _ 0 _ (.inr listed)
        omega

end Rule

end Agenda
