import Agenda.Proofs.Occurrence.FallsOn
import Agenda.Proofs.Rule.Check

/-!
# The search of monthly rules

A monthly rule is searched month by month, and the search gives up after
`Rule.monthsSearched` months.  Among eight years in a row one is a leap year, so
a rule that passes the check has a date in any 96 months in a row
(`Rule.exists_offers`) and the search never gives up too early.

With the other three kinds this yields the main statement of the search,
`Rule.next?_isLeastAfter`: what is found is the least date of the rule after the
current day.
-/

namespace Agenda

/-- Among eight years in a row one is a leap year, also around a century. -/
theorem exists_isLeapYear (year : Int) :
    ∃ later : Nat, later < 8 ∧ IsLeapYear (year + later) := by
  simp only [IsLeapYear]
  by_cases century : (year + (-year) % 4) % 100 = 0
  · exact ⟨((-year) % 4).toNat + 4, by omega, by omega⟩
  · exact ⟨((-year) % 4).toNat, by omega, by omega⟩

namespace Rule

variable {days months : IntSet}

theorem earliestIn?_isLeastAfter (now : Date) (month : Month) :
    Date.IsLeastAfter (month.Offers days months) now (earliestIn? days months now month) := by
  rw [earliestIn?]
  split
  · rename_i selected
    have mem_candidates (date : Date) :
        date ∈ (days.elements.filterMap month.select?).filter (now < ·) ↔
          month.Offers days months date ∧ now < date := by
      simp only [List.mem_filter, List.mem_filterMap, decide_eq_true_eq, Month.Offers,
        selected, true_and, IntSet.mem_elements]
    cases found : ((days.elements.filterMap month.select?).filter (now < ·)).min? with
    | none =>
        intro other offered after
        have member := (mem_candidates other).2 ⟨offered, after⟩
        rw [List.min?_eq_none_iff.1 found] at member
        cases member
    | some date =>
        rcases List.min?_eq_some_iff.1 found with ⟨member, below⟩
        rcases (mem_candidates date).1 member with ⟨offered, after⟩
        refine ⟨offered, after, ?_⟩
        intro other otherOffered otherAfter
        exact below other ((mem_candidates other).2 ⟨otherOffered, otherAfter⟩)
  · rename_i unselected
    intro other offered
    exact absurd offered.1 unselected

theorem ofDate_of_offers
    {month : Month} {date : Date}
    (offered : month.Offers days months date) :
    Month.ofDate date = month := by
  rcases offered.2 with ⟨selector, -, found⟩
  exact (Month.select?_eq_some_iff.1 found).1

/-! ## No long gaps -/

theorem exists_leapYear_month
    (start : Int) {number : Nat}
    (named : 1 ≤ number ∧ number ≤ 12) :
    ∃ year, IsLeapYear year ∧ start ≤ (Month.mk year number).index ∧
      (Month.mk year number).index < start + 96 := by
  rcases named with ⟨lower, upper⟩
  rcases exists_isLeapYear ((start - number + 12) / 12) with ⟨later, soon, leap⟩
  refine ⟨_, leap, ?_, ?_⟩ <;> simp only [Month.index] <;> omega

/--
A monthly rule that passes the check has a date in any 96 months in a row that
the calendar holds and goes on after.
-/
theorem exists_offers
    (accepted : (monthly days months).check = .ok ())
    (start : Int)
    (notBefore : (Month.mk firstYear 1).index ≤ start)
    (followed : start + 96 ≤ (Month.mk lastYear 12).index) :
    ∃ date : Date, (Month.ofDate date).Offers days months date ∧
      start ≤ date.monthIndex ∧ date.monthIndex < start + 96 := by
  rcases exists_selectable accepted with ⟨day, member, number, named, selected, fits⟩
  rcases exists_leapYear_month start named with ⟨year, leap, lower, upper⟩
  have allowed := (check_monthly_eq_ok_iff.1 accepted).2.1 day member
  have long := twentyEight_le_monthLength year named
  simp only [Month.index] at notBefore followed lower upper
  have inCalendar : firstYear ≤ year ∧ year ≤ lastYear := by omega
  have length : (Month.mk year number).length = monthLength year number := by
    refine Month.length_eq_monthLength named inCalendar.1 ?_
    simp only [Month.next]
    split <;> simp only <;> omega
  let dayOfMonth : Int := (Month.mk year number).selectedDay day
  have inMonth : 1 ≤ dayOfMonth ∧ dayOfMonth ≤ monthLength year number := by
    have reaches := fits year leap
    simp only [dayOfMonth, Month.selectedDay, length, RuleField.Allows] at *
    split <;> omega
  let date : Date := ⟨year, number, dayOfMonth.toNat, inCalendar, by omega, by omega⟩
  refine ⟨date, ⟨selected, day, member, ?_⟩, lower, upper⟩
  refine Month.select?_eq_some_iff.2 ⟨rfl, ?_⟩
  exact Int.toNat_of_nonneg (by omega)

/-! ## The search -/

/-- The search of a run of months finds the least date that they offer. -/
theorem findSome?_run_isLeastAfter (now : Date) (start : Int) (count : Nat) :
    Date.IsLeastAfter
      (fun date => (Month.ofDate date).Offers days months date ∧
        start ≤ date.monthIndex ∧ date.monthIndex < start + count) now
      (((Month.ofIndex start).run count).findSome? (earliestIn? days months now)) := by
  induction count generalizing start with
  | zero =>
      intro other member
      omega
  | succ count ih =>
      have first := @earliestIn?_isLeastAfter days months now
        (Month.ofIndex start)
      have inFirst (date : Date) (same : date.monthIndex = start) :
          Month.ofDate date = Month.ofIndex start := by
        rw [← same, Date.ofIndex_monthIndex]
      rw [Month.run, Month.next_ofIndex, List.findSome?_cons]
      split
      · rename_i date found
        rw [found] at first
        rcases first with ⟨offered, after, below⟩
        have place := ofDate_of_offers offered
        have index : date.monthIndex = start := by
          rw [Date.monthIndex, place, Month.index_ofIndex]
        refine ⟨⟨by rw [place]; exact offered, by omega, by omega⟩, after, ?_⟩
        rintro other ⟨otherOffered, lower, upper⟩ otherAfter
        rcases Int.le_iff_lt_or_eq.1 lower with later | same
        · exact Std.le_of_lt (Date.lt_of_monthIndex_lt (by omega))
        · rw [inFirst other same.symm] at otherOffered
          exact below other otherOffered otherAfter
      · rename_i missing
        rw [missing] at first
        refine (ih (start + 1)).congr ?_
        intro date after
        constructor
        · rintro ⟨offered, lower, upper⟩
          exact ⟨offered, by omega, by omega⟩
        · rintro ⟨offered, lower, upper⟩
          rcases Int.le_iff_lt_or_eq.1 lower with later | same
          · exact ⟨offered, by omega, by omega⟩
          · rw [inFirst date same.symm] at offered
            exact absurd after (first date offered)

theorem le_monthIndex_of_fallsOn_monthly
    {anchor now other : Date}
    (falls : FallsOn anchor (.monthly days months) other)
    (after : now < other) :
    (max anchor now).monthIndex ≤ other.monthIndex := by
  have fromNow := Date.monthIndex_le_of_le (Std.le_of_lt after)
  have fromAnchor := falls.1
  rcases Std.MaxEqOr.max_eq_or anchor now with same | same <;> rw [same] <;> assumption

/--
The search of the months finds the least date of a monthly rule: a date after
the months searched has one of the rule before it, in those months.
-/
theorem nextMonthly?_isLeastAfter
    (anchor now : Date)
    (accepted : (monthly days months).check = .ok ()) :
    Date.IsLeastAfter (FallsOn anchor (.monthly days months)) now
      (nextMonthly? days months anchor now) := by
  have afterAnchor : anchor.monthIndex ≤ (max anchor now).monthIndex :=
    Date.monthIndex_le_of_le Std.left_le_max
  have afterNow : now.monthIndex ≤ (max anchor now).monthIndex :=
    Date.monthIndex_le_of_le Std.right_le_max
  have searched := @findSome?_run_isLeastAfter days months now
    (max anchor now).monthIndex monthsSearched
  rw [Date.ofIndex_monthIndex] at searched
  show Date.IsLeastAfter _ now
    (((Month.ofDate (max anchor now)).run monthsSearched).findSome? (earliestIn? days months now))
  cases found : ((Month.ofDate (max anchor now)).run monthsSearched).findSome?
      (earliestIn? days months now) with
  | some date =>
      rw [found] at searched
      rcases searched with ⟨⟨offered, lower, upper⟩, after, below⟩
      refine ⟨⟨by omega, offered⟩, after, ?_⟩
      intro other falls otherAfter
      have otherLower := le_monthIndex_of_fallsOn_monthly falls otherAfter
      by_cases near : other.monthIndex < (max anchor now).monthIndex + monthsSearched
      · exact below other ⟨falls.2, otherLower, near⟩ otherAfter
      · exact Std.le_of_lt (Date.lt_of_monthIndex_lt (by omega))
  | none =>
      rw [found] at searched
      intro other falls after
      have otherLower := le_monthIndex_of_fallsOn_monthly falls after
      by_cases near : other.monthIndex < (max anchor now).monthIndex + monthsSearched
      · exact searched other ⟨falls.2, otherLower, near⟩ after
      · have far : (max anchor now).monthIndex + 120 ≤ other.monthIndex := by
          simp only [monthsSearched] at near
          omega
        have begins := Date.firstIndex_le_monthIndex (max anchor now)
        have ends := Date.monthIndex_le_lastIndex other
        rcases exists_offers accepted ((max anchor now).monthIndex + 1) (by omega) (by omega)
          with ⟨date, offered, lower, upper⟩
        refine searched date ⟨offered, by omega, ?_⟩ (Date.lt_of_monthIndex_lt (by omega))
        simp only [monthsSearched]
        omega

end Rule

/-! ## The next occurrence -/

/-- The search of every kind of rule finds the least date of the rule after the current day. -/
theorem Rule.next?_isLeastAfter
    (anchor now : Date) {rule : Rule}
    (accepted : rule.check = .ok ()) :
    Date.IsLeastAfter (rule.FallsOn anchor) now (rule.next? anchor now) := by
  cases rule with
  | daily interval =>
      exact nextDaily?_isLeastAfter anchor now (check_daily_eq_ok_iff.1 accepted).1
  | yearly => exact nextYearly?_isLeastAfter anchor now
  | weekly weekdays => exact nextWeekly?_isLeastAfter weekdays anchor now
  | monthly days months => exact nextMonthly?_isLeastAfter anchor now accepted

/-- A next occurrence is found for accepted rules, and it is what the search finds. -/
theorem nextOccurrence_eq_ok_iff
    {anchor now date : Date} {rule : Rule} :
    nextOccurrence anchor rule now = .ok date ↔
      rule.check = .ok () ∧ rule.next? anchor now = some date := by
  rw [nextOccurrence]
  cases rule.check with
  | error cause => simp
  | ok => cases rule.next? anchor now <;> simp

end Agenda
