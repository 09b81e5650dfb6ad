import Agenda.Proofs.Calendar.MonthIndex
import Agenda.Rule.Occurrence

/-!
# The dates of a rule

`Rule.FallsOn anchor` is the set of all dates of a rule that starts from an
anchor.  It does not depend on the current day: the search for the next
occurrence answers with the least member of this one set after whatever day it
is asked on.

`Date.IsLeastAfter` states that of an answer.  This module proves it for the
daily, the yearly and the weekly search; the monthly search is longer and has
a module of its own.
-/

namespace Agenda

namespace Date

/-- The answer is the least date of a set after `now`, or none if the set has none. -/
def IsLeastAfter (falls : Date → Prop) (now : Date) : Option Date → Prop
  | some date => falls date ∧ now < date ∧ ∀ other, falls other → now < other → date ≤ other
  | none => ∀ other, falls other → ¬ now < other

namespace IsLeastAfter

variable {falls : Date → Prop} {now later : Date} {answer : Option Date}

theorem unique
    {other : Option Date}
    (first : IsLeastAfter falls now answer)
    (second : IsLeastAfter falls now other) :
    answer = other := by
  cases answer with
  | none =>
      cases other with
      | none => rfl
      | some date => exact absurd second.2.1 (first date second.1)
  | some date =>
      cases other with
      | none => exact absurd first.2.1 (second date first.1)
      | some otherDate =>
          have below := first.2.2 otherDate second.1 second.2.1
          have above := second.2.2 date first.1 first.2.1
          exact congrArg some (dayNumber_injective (Int.le_antisymm below above))

theorem congr
    {alsoFalls : Date → Prop}
    (same : ∀ date, now < date → (falls date ↔ alsoFalls date))
    (least : IsLeastAfter falls now answer) :
    IsLeastAfter alsoFalls now answer := by
  cases answer with
  | none =>
      intro other member after
      exact least other ((same other after).2 member) after
  | some date =>
      rcases least with ⟨member, after, below⟩
      refine ⟨(same date after).1 member, after, ?_⟩
      intro other otherMember otherAfter
      exact below other ((same other otherAfter).2 otherMember) otherAfter

/-- The answer stays until the day that it names. -/
theorem of_le_of_lt
    {date : Date}
    (least : IsLeastAfter falls now (some date))
    (ordered : now ≤ later)
    (before : later < date) :
    IsLeastAfter falls later (some date) := by
  rcases least with ⟨member, -, below⟩
  refine ⟨member, before, ?_⟩
  intro other otherMember otherAfter
  apply below other otherMember
  rw [lt_iff] at *
  rw [le_iff] at ordered
  omega

/-- An earlier day has an answer if a later one has, and no later one. -/
theorem exists_le
    {date : Date}
    (sooner : IsLeastAfter falls now answer)
    (least : IsLeastAfter falls later (some date))
    (ordered : now ≤ later) :
    ∃ first, answer = some first ∧ first ≤ date := by
  rcases least with ⟨member, after, -⟩
  have afterNow : now < date := by
    rw [lt_iff] at *
    rw [le_iff] at ordered
    omega
  cases answer with
  | none => exact absurd afterNow (sooner date member)
  | some first => exact ⟨first, rfl, sooner.2.2 date member afterNow⟩

end IsLeastAfter

end Date

/-- The dates that a monthly rule selects in a month. -/
def Month.Offers (month : Month) (days months : IntSet) (date : Date) : Prop :=
  (months.isEmpty ∨ (month.number : Int) ∈ months) ∧
    ∃ selector ∈ days, month.select? selector = some date

namespace Rule

/-- The dates on which a rule falls due, counted from an anchor. -/
def FallsOn (anchor : Date) : Rule → Date → Prop
  | .daily interval, date =>
    ∃ earlier : Nat, date.dayNumber = anchor.dayNumber + (earlier + 1) * interval
  | .yearly, date =>
    anchor.year < date.year ∧ anniversary? anchor date.year = some date
  | .weekly weekdays, date =>
    anchor < date ∧ date.weekday ∈ weekdays
  | .monthly days months, date =>
    anchor.monthIndex ≤ date.monthIndex ∧ (Month.ofDate date).Offers days months date

/-! ## Daily rules -/

/-- No whole number of intervals below the one that is counted leads past `now`. -/
theorem le_dayNumber_of_fallsOn_daily
    {anchor now other : Date} {interval : Nat}
    (positive : 1 ≤ interval)
    (falls : FallsOn anchor (.daily interval) other)
    (after : now < other) :
    anchor.dayNumber + (max (now.dayNumber - anchor.dayNumber) 0 / interval + 1) * interval ≤
      other.dayNumber := by
  generalize passedEq : max (now.dayNumber - anchor.dayNumber) 0 / (interval : Int) = passed
  have intervalPositive : (0 : Int) < interval := by omega
  have fits : passed * interval ≤ max (now.dayNumber - anchor.dayNumber) 0 := by
    rw [← passedEq]
    exact Int.ediv_mul_le _ (Int.ne_of_gt intervalPositive)
  rcases falls with ⟨earlier, place⟩
  rw [Date.lt_iff] at after
  have positiveStep : (0 : Int) < (earlier + 1) * interval :=
    Int.mul_pos (by omega) intervalPositive
  have enough : passed * interval < (earlier + 1) * interval := by omega
  have more : passed < earlier + 1 :=
    Int.lt_of_mul_lt_mul_right enough (Int.le_of_lt intervalPositive)
  have steps : (passed + 1) * interval ≤ (earlier + 1) * interval :=
    Int.mul_le_mul_of_nonneg_right (by omega) (Int.le_of_lt intervalPositive)
  omega

theorem nextDaily?_isLeastAfter
    (anchor now : Date) {interval : Nat}
    (positive : 1 ≤ interval) :
    Date.IsLeastAfter (FallsOn anchor (.daily interval)) now
      (nextDaily? interval anchor now) := by
  let passed : Int := max (now.dayNumber - anchor.dayNumber) 0 / interval
  have intervalPositive : (0 : Int) < interval := by omega
  have passedNonneg : 0 ≤ passed := Int.ediv_nonneg (Int.le_max_right _ _) (by omega)
  have reaches : max (now.dayNumber - anchor.dayNumber) 0 < (passed + 1) * interval :=
    Int.lt_ediv_add_one_mul_self _ intervalPositive
  show Date.IsLeastAfter _ now (anchor.addDays? ((passed + 1) * interval))
  cases found : anchor.addDays? ((passed + 1) * interval) with
  | none =>
      intro other falls after
      have reached : anchor.dayNumber + (passed + 1) * interval ≤ other.dayNumber :=
        le_dayNumber_of_fallsOn_daily positive falls after
      rcases Date.exists_of_between anchor other _ (by omega) reached with ⟨date, place⟩
      rw [Date.addDays?_eq_some_iff.2 place] at found
      cases found
  | some date =>
      have place := Date.addDays?_eq_some_iff.1 found
      refine ⟨⟨passed.toNat, ?_⟩, ?_, ?_⟩
      · rw [place, Int.toNat_of_nonneg passedNonneg]
      · rw [Date.lt_iff]
        omega
      · intro other falls after
        rw [Date.le_iff, place]
        exact le_dayNumber_of_fallsOn_daily positive falls after

/-! ## Yearly rules -/

theorem hasLeapDay_eq_true_iff
    {year : Int}
    (inCalendar : firstYear ≤ year ∧ year ≤ lastYear) :
    hasLeapDay year = true ↔ IsLeapYear year := by
  rw [hasLeapDay, Option.isSome_iff_ne_none, ne_eq, Date.ofYmd?_eq_none_iff, not_not]
  simp only [IsRealDate, inCalendar, true_and, monthLength]
  split <;> rename_i leap <;> simp [leap]

theorem year_of_anniversary?
    {anchor date : Date} {year : Int}
    (found : anniversary? anchor year = some date) :
    date.year = year := by
  rw [anniversary?] at found
  split at found <;> exact (Date.ofYmd?_eq_some_iff.1 found).1

theorem exists_anniversary?_eq
    (anchor : Date) {year : Int}
    (inCalendar : firstYear ≤ year ∧ year ≤ lastYear) :
    ∃ date, anniversary? anchor year = some date := by
  refine Option.ne_none_iff_exists'.1 fun missing => ?_
  rw [anniversary?] at missing
  split at missing
  · exact Date.ofYmd?_eq_none_iff.1 missing
      ⟨inCalendar, Nat.le_refl 1, by simp only [monthLength, Nat.one_le_ofNat]⟩
  · rename_i notCarried
    refine Date.ofYmd?_eq_none_iff.1 missing ⟨inCalendar, anchor.isReal.2.1, ?_⟩
    have fits := anchor.isReal.2.2
    by_cases february : anchor.month = 2
    · rw [hasLeapDay_eq_true_iff inCalendar] at notCarried
      simp only [february, monthLength, true_and, not_and, not_not] at *
      split
      · split at fits <;> omega
      · rename_i common
        have notLeapDay : anchor.day ≠ 29 := fun leapDay => common (notCarried leapDay)
        split at fits <;> omega
    · rw [monthLength_eq_of_ne_two year anchor.year february]
      exact fits

/-- The anniversary of the first year that can have a date after `now` is the least one. -/
theorem anniversary?_isLeastAfter
    {anchor now : Date} {year : Int}
    (counted : anchor.year < year)
    (notBefore : ∀ other, FallsOn anchor .yearly other → now < other → year ≤ other.year)
    (after : ∀ date, anniversary? anchor year = some date → now < date) :
    Date.IsLeastAfter (FallsOn anchor .yearly) now (anniversary? anchor year) := by
  cases found : anniversary? anchor year with
  | none =>
      intro other falls otherAfter
      have reached := notBefore other falls otherAfter
      have begins := anchor.isReal.1.1
      have ends := other.isReal.1.2
      have inCalendar : firstYear ≤ year ∧ year ≤ lastYear := by omega
      rcases exists_anniversary?_eq anchor inCalendar with ⟨date, present⟩
      rw [found] at present
      cases present
  | some date =>
      have dateYear := year_of_anniversary? found
      refine ⟨⟨by omega, by rw [dateYear]; exact found⟩, after date found, ?_⟩
      intro other falls otherAfter
      rcases Int.le_iff_lt_or_eq.1 (notBefore other falls otherAfter) with earlier | same
      · exact Std.le_of_lt (Date.lt_of_year_lt (by omega))
      · have otherFound := falls.2
        rw [← same, found] at otherFound
        exact Std.le_of_eq (Option.some.inj otherFound)

/--
A yearly search finds the least anniversary after `now`: the one of the first
year it looks at, or the next one if that is not after `now`.
-/
theorem nextYearly?_isLeastAfter (anchor now : Date) :
    Date.IsLeastAfter (FallsOn anchor .yearly) now (nextYearly? anchor now) := by
  rw [nextYearly?]
  generalize yearEq : max anchor.year (now.year - 1) + 1 = year
  have counted : anchor.year < year := by omega
  have notBefore (other : Date) (falls : FallsOn anchor .yearly other) (after : now < other) :
      year ≤ other.year := by
    have later := Date.year_le_of_le (Std.le_of_lt after)
    have otherCounted := falls.1
    omega
  cases first : anniversary? anchor year with
  | none =>
      have least := anniversary?_isLeastAfter counted notBefore (by
        intro date found
        rw [first] at found
        cases found)
      rwa [first] at least
  | some candidate =>
      simp only [Option.bind_eq_bind, Option.bind_some]
      split
      · rename_i after
        have least := anniversary?_isLeastAfter counted notBefore (by
          intro date found
          rw [first] at found
          cases found
          exact after)
        rwa [first] at least
      · rename_i notAfter
        refine anniversary?_isLeastAfter (by omega) ?_ ?_
        · intro other falls after
          rcases Int.le_iff_lt_or_eq.1 (notBefore other falls after) with earlier | same
          · exact earlier
          · have found := falls.2
            rw [← same, first] at found
            cases found
            exact absurd after notAfter
        · intro date found
          have dateYear := year_of_anniversary? found
          exact Date.lt_of_year_lt (by omega)

/-! ## Weekly rules -/

theorem nextWeekly?_isLeastAfter (weekdays : IntSet) (anchor now : Date) :
    Date.IsLeastAfter (FallsOn anchor (.weekly weekdays)) now
      (nextWeekly? weekdays anchor now) := by
  have afterBoth (date : Date) :
      max anchor now < date ↔ anchor < date ∧ now < date := by
    simp only [Date.lt_iff, Date.dayNumber_max]
    omega
  rw [nextWeekly?]
  cases found : ((max anchor now).following 7).find? fun date => date.weekday ∈ weekdays with
  | none =>
      intro other falls after
      have misfits := List.find?_eq_none.1 found
      have start := (afterBoth other).2 ⟨falls.1, after⟩
      by_cases near : other.dayNumber ≤ (max anchor now).dayNumber + 7
      · exact misfits other (Date.mem_following_iff.2 ⟨start, near⟩) (decide_eq_true falls.2)
      · rcases Date.exists_weekday (Int.le_of_lt (Int.not_le.1 near)) other.weekday_mem with
          ⟨date, dateAfter, within, weekday⟩
        refine misfits date (Date.mem_following_iff.2 ⟨dateAfter, within⟩) (decide_eq_true ?_)
        rw [weekday]
        exact falls.2
  | some date =>
      have member := Date.mem_following_iff.1 (List.mem_of_find?_eq_some found)
      have after := (afterBoth date).1 member.1
      have fits := List.find?_some found
      refine ⟨⟨after.1, of_decide_eq_true fits⟩, after.2, ?_⟩
      intro other falls otherAfter
      have start := (afterBoth other).2 ⟨falls.1, otherAfter⟩
      by_cases near : other.dayNumber ≤ (max anchor now).dayNumber + 7
      · exact Date.le_of_find?_eq_some (Date.pairwise_following _ 7) found
          (Date.mem_following_iff.2 ⟨start, near⟩) (decide_eq_true falls.2)
      · rw [Date.le_iff]
        omega

end Rule

end Agenda
