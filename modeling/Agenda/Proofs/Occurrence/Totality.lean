import Agenda.Proofs.Occurrence.Monthly

/-!
# Rules always fall due again

The calendar goes on for a long time after the dates that a text can hold.  As
long as it has nine more years, every rule that passes the check falls due on a
later day: a daily rule within its interval, a weekly one within the week, a
yearly one in the year after, and a monthly one within eight years.  So the
search for the next occurrence succeeds (`exists_nextOccurrence`).
-/

namespace Agenda

namespace Date

/-- Two years before the end of the calendar, every day of the next 400 is a date. -/
theorem exists_dayNumber_eq_add
    (date : Date) (distance : Int)
    (forward : 0 ≤ distance)
    (near : distance ≤ 400)
    (room : date.year + 2 ≤ lastYear) :
    ∃ later : Date, later.dayNumber = date.dayNumber + distance := by
  have begins := (exists_dayNumber_eq_iff.1 ⟨date, rfl⟩).1
  have inside := date.dayNumber_le_daysBeforeYear
  have nextYear := daysBeforeYear_add_one (date.year + 1)
  have yearAfter := daysBeforeYear_add_one (date.year + 1 + 1)
  have ends := daysBeforeYear_le_daysBeforeYear (Int.add_le_add_right room 1)
  have long (year : Int) : 365 ≤ yearLength year := by
    rw [yearLength]
    split <;> omega
  have nextLong := long (date.year + 1)
  have afterLong := long (date.year + 1 + 1)
  have sum : date.year + 2 + 1 = date.year + 1 + 1 + 1 := by omega
  rw [sum] at ends
  exact exists_dayNumber_eq_iff.2 ⟨by omega, by omega⟩

theorem year_max_le
    {first second : Date} {bound : Int}
    (firstBelow : first.year ≤ bound)
    (secondBelow : second.year ≤ bound) :
    (max first second).year ≤ bound := by
  rcases Std.MaxEqOr.max_eq_or first second with same | same <;> rw [same] <;> assumption

end Date

namespace Rule

variable {anchor now : Date}

/-- A daily rule comes round when the interval that has begun on the later day has passed. -/
theorem exists_fallsOn_daily
    {interval : Nat}
    (allowed : 1 ≤ interval ∧ interval ≤ 400)
    (room : (max anchor now).year + 2 ≤ lastYear) :
    ∃ date, FallsOn anchor (.daily interval) date ∧ now < date := by
  let gap : Int := max (now.dayNumber - anchor.dayNumber) 0
  have positive : (0 : Int) < interval := by omega
  have latest : (max anchor now).dayNumber = anchor.dayNumber + gap := by
    rw [Date.dayNumber_max]
    omega
  have passed := Int.mul_ediv_add_emod gap interval
  have started := Int.emod_nonneg gap (Int.ne_of_gt positive)
  have unfinished := Int.emod_lt_of_pos gap positive
  rcases (max anchor now).exists_dayNumber_eq_add (interval - gap % interval)
    (by omega) (by omega) room with ⟨date, place⟩
  have counted : 0 ≤ gap / interval := Int.ediv_nonneg (Int.le_max_right _ _) (by omega)
  refine ⟨date, ⟨(gap / interval).toNat, ?_⟩, ?_⟩
  · rw [place, latest, Int.toNat_of_nonneg counted, Int.add_mul, Int.mul_comm (gap / interval)]
    omega
  · rw [Date.lt_iff, place, Date.dayNumber_max]
    omega

theorem exists_fallsOn_weekly
    {weekdays : IntSet}
    (accepted : (weekly weekdays).check = .ok ())
    (room : (max anchor now).year + 2 ≤ lastYear) :
    ∃ date, FallsOn anchor (.weekly weekdays) date ∧ now < date := by
  rcases check_weekly_eq_ok_iff.1 accepted with ⟨nonempty, allowed⟩
  rcases IntSet.exists_mem nonempty with ⟨weekday, member⟩
  have latest := Date.dayNumber_max anchor now
  rcases (max anchor now).exists_dayNumber_eq_add 7 (by omega) (by omega) room with
    ⟨last, week⟩
  rcases Date.exists_weekday (Int.le_of_eq week.symm) (allowed weekday member) with
    ⟨date, after, -, selected⟩
  rw [Date.lt_iff] at after
  refine ⟨date, ⟨?_, ?_⟩, ?_⟩
  · rw [Date.lt_iff]
    omega
  · rw [selected]
    exact member
  · rw [Date.lt_iff]
    omega

theorem exists_fallsOn_yearly
    (room : (max anchor now).year + 1 ≤ lastYear) :
    ∃ date, FallsOn anchor .yearly date ∧ now < date := by
  have anchorYear : anchor.year ≤ (max anchor now).year := Date.year_le_of_le Std.left_le_max
  have nowYear : now.year ≤ (max anchor now).year := Date.year_le_of_le Std.right_le_max
  have begins := (max anchor now).isReal.1.1
  have inCalendar : firstYear ≤ (max anchor now).year + 1 := by omega
  rcases exists_anniversary?_eq anchor ⟨inCalendar, room⟩ with ⟨date, found⟩
  have year := year_of_anniversary? found
  refine ⟨date, ⟨by omega, by rwa [year]⟩, Date.lt_of_year_lt (by omega)⟩

/-- Nine years before the end of the calendar, a later month offers a date within 96 months. -/
theorem exists_offers_soon
    {days months : IntSet}
    (accepted : (monthly days months).check = .ok ())
    (start : Date)
    (room : start.year + 9 ≤ lastYear) :
    ∃ date : Date, (Month.ofDate date).Offers days months date ∧
      start.monthIndex < date.monthIndex ∧ date.monthIndex ≤ start.monthIndex + 96 := by
  have begins := start.firstIndex_le_monthIndex
  have named := start.month_mem
  have ends : start.monthIndex + 1 + 96 ≤ (Month.mk lastYear 12).index := by
    simp only [Date.monthIndex, Month.index, Month.ofDate]
    omega
  rcases exists_offers accepted (start.monthIndex + 1) (by omega) ends
    with ⟨date, offered, lower, upper⟩
  exact ⟨date, offered, by omega, by omega⟩

theorem exists_fallsOn_monthly
    {days months : IntSet}
    (accepted : (monthly days months).check = .ok ())
    (room : (max anchor now).year + 9 ≤ lastYear) :
    ∃ date, FallsOn anchor (.monthly days months) date ∧ now < date := by
  have anchorMonth : anchor.monthIndex ≤ (max anchor now).monthIndex :=
    Date.monthIndex_le_of_le Std.left_le_max
  have nowMonth : now.monthIndex ≤ (max anchor now).monthIndex :=
    Date.monthIndex_le_of_le Std.right_le_max
  rcases exists_offers_soon accepted (max anchor now) room with ⟨date, offered, later, -⟩
  exact ⟨date, ⟨by omega, offered⟩, Date.lt_of_monthIndex_lt (by omega)⟩

/-- Nine years before the end of the calendar, every checked rule has a later date. -/
theorem exists_fallsOn
    {rule : Rule}
    (accepted : rule.check = .ok ())
    (room : (max anchor now).year + 9 ≤ lastYear) :
    ∃ date, rule.FallsOn anchor date ∧ now < date := by
  cases rule with
  | daily interval =>
      exact exists_fallsOn_daily (check_daily_eq_ok_iff.1 accepted) (by omega)
  | yearly => exact exists_fallsOn_yearly (by omega)
  | weekly weekdays => exact exists_fallsOn_weekly accepted (by omega)
  | monthly days months => exact exists_fallsOn_monthly accepted room

end Rule

/-- Nine years before the end of the calendar, a checked rule has a next occurrence. -/
theorem exists_nextOccurrence
    {anchor now : Date} {rule : Rule}
    (accepted : rule.check = .ok ())
    (anchorRoom : anchor.year + 9 ≤ lastYear)
    (nowRoom : now.year + 9 ≤ lastYear) :
    ∃ next, nextOccurrence anchor rule now = .ok next := by
  have latest : (max anchor now).year ≤ lastYear - 9 :=
    Date.year_max_le (by omega) (by omega)
  rcases Rule.exists_fallsOn accepted (by omega : (max anchor now).year + 9 ≤ lastYear)
    with ⟨date, falls, after⟩
  have least := Rule.next?_isLeastAfter anchor now accepted
  cases search : rule.next? anchor now with
  | none =>
      rw [search] at least
      exact absurd after (least date falls)
  | some next => exact ⟨next, nextOccurrence_eq_ok_iff.2 ⟨accepted, search⟩⟩

end Agenda
