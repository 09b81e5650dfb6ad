import Agenda.Proofs.Occurrence.Succession
import Mathlib.Tactic.Ring

/-!
# Counting from an occurrence

A rule may be counted from one of its occurrences in the place of the date
where it started.  Nothing changes, with one exception: a yearly rule that
started on a leap day and has been carried to the first of March goes on from
the first of March, and so misses the leap days (`Rule.DriftsFrom`).  The main
statement is `Rule.Reaches.countsAlike`.
-/

namespace Agenda

namespace Date

/-- The 29th of February. -/
def IsLeapDay (date : Date) : Prop :=
  date.month = 2 ∧ date.day = 29

instance : DecidablePred IsLeapDay := fun date =>
  inferInstanceAs (Decidable (date.month = 2 ∧ date.day = 29))

/-- The year of the next first of March after a date. -/
def marchYear (date : Date) : Int :=
  if date.month < 3 then date.year else date.year + 1

/-- A date in March after the first is not before the first of March of its year. -/
theorem marchYear_le_of_lt
    {now date : Date}
    (after : now < date)
    (early : date.month < 3 ∨ date.month = 3 ∧ date.day = 1) :
    now.marchYear ≤ date.year := by
  have ordered := year_le_of_le (Std.le_of_lt after)
  rw [marchYear]
  split
  · exact ordered
  · rename_i late
    refine Int.lt_iff_le_and_ne.2 ⟨ordered, ?_⟩
    intro same
    rcases Nat.lt_or_ge date.month now.month with before | notBefore
    · exact absurd after (Std.not_gt_of_lt (lt_of_month_lt same.symm before))
    · have sameMonth : Month.ofDate now = Month.ofDate date := by
        simp only [Month.ofDate, Month.mk.injEq]
        exact ⟨same, by omega⟩
      have days := (lt_iff_day_lt sameMonth).1 after
      have positive := now.isReal.2.1
      omega

theorem lt_of_year_eq_marchYear
    {now date : Date}
    (year : date.year = now.marchYear)
    (march : date.month = 3) :
    now < date := by
  rw [marchYear] at year
  split at year
  · exact lt_of_month_lt year.symm (by omega)
  · exact lt_of_year_lt (by omega)

theorem year_lt_marchYear_of_le
    {now date : Date}
    (ordered : date ≤ now)
    (march : date.month = 3) :
    date.year < now.marchYear := by
  have years := year_le_of_le ordered
  rw [marchYear]
  split
  · rename_i early
    refine Int.lt_iff_le_and_ne.2 ⟨years, ?_⟩
    intro same
    exact absurd ordered (Std.not_le_of_gt (lt_of_month_lt same.symm (by omega)))
  · exact Int.lt_add_one_of_le years

/-- A leap year is not the year after the last of the calendar. -/
theorem marchYear_le_lastYear_of_isLeapYear
    {now : Date}
    (leap : IsLeapYear now.marchYear) :
    now.marchYear ≤ lastYear := by
  have inCalendar := now.isReal.1.2
  rw [IsLeapYear] at leap
  simp only [marchYear, lastYear] at *
  split at leap <;> split <;> omega

theorem exists_firstOfMarch
    {now : Date}
    (leap : IsLeapYear now.marchYear) :
    ∃ date, ofYmd? now.marchYear 3 1 = some date ∧
      date.year = now.marchYear ∧ date.month = 3 ∧ date.day = 1 := by
  have notAfter := marchYear_le_lastYear_of_isLeapYear leap
  have notBefore : firstYear ≤ now.marchYear := by
    have inCalendar := now.isReal.1.1
    rw [marchYear]
    split
    · exact inCalendar
    · omega
  let date : Date := ⟨now.marchYear, 3, 1, ⟨notBefore, notAfter⟩, by decide, by
    simp only [monthLength, Nat.one_le_ofNat]⟩
  exact ⟨date, ofYmd?_eq_some_iff.2 ⟨rfl, rfl, rfl⟩, rfl, rfl, rfl⟩

end Date

namespace Rule

theorem fallsOn_yearly_iff {anchor date : Date} :
    FallsOn anchor .yearly date ↔ anchor.year < date.year ∧
      if anchor.IsLeapDay ∧ ¬ IsLeapYear date.year then date.month = 3 ∧ date.day = 1
      else date.month = anchor.month ∧ date.day = anchor.day := by
  have leapDay := hasLeapDay_eq_true_iff date.isReal.1
  rw [FallsOn, anniversary?]
  by_cases carried : anchor.IsLeapDay ∧ ¬ IsLeapYear date.year
  · rw [if_pos carried, if_pos ⟨carried.1.1, carried.1.2, mt leapDay.1 carried.2⟩,
      Date.ofYmd?_eq_some_iff]
    simp only [true_and]
  · have notCarried : ¬ (anchor.month = 2 ∧ anchor.day = 29 ∧ ¬ hasLeapDay date.year) :=
      fun was => carried ⟨⟨was.1, was.2.1⟩, mt leapDay.2 was.2.2⟩
    rw [if_neg carried, if_neg notCarried, Date.ofYmd?_eq_some_iff]
    simp only [true_and]

/-- The one case in which a rule, counted from an occurrence, leaves its own dates. -/
def DriftsFrom (origin : Date) (rule : Rule) (current now : Date) : Prop :=
  rule = .yearly ∧ origin.IsLeapDay ∧ ¬ current.IsLeapDay ∧ IsLeapYear now.marchYear

/-- The dates that are reached from a first date by counting from each date to the next. -/
def Reaches (origin : Date) (rule : Rule) (current : Date) : Prop :=
  current = origin ∨ rule.FallsOn origin current ∨
    rule = .yearly ∧ origin.IsLeapDay ∧ origin.year < current.year ∧
      current.month = 3 ∧ current.day = 1

variable {origin current now date : Date} {rule : Rule}

/-! ## Rules that keep their dates -/

/-- A yearly rule that was not carried keeps the month and the day of its start. -/
theorem month_and_day_of_fallsOn_yearly
    (falls : FallsOn origin .yearly current)
    (notCarried : origin.IsLeapDay → current.IsLeapDay) :
    current.month = origin.month ∧ current.day = origin.day := by
  have placed := (fallsOn_yearly_iff.1 falls).2
  by_cases leapDay : origin.IsLeapDay
  · have stays := notCarried leapDay
    exact ⟨stays.1.trans leapDay.1.symm, stays.2.trans leapDay.2.symm⟩
  · rw [if_neg fun carried => leapDay carried.1] at placed
    exact placed

theorem eq_of_fallsOn_yearly
    (first : FallsOn origin .yearly current)
    (second : FallsOn origin .yearly date)
    (same : current.year = date.year) :
    current = date := by
  have found := first.2
  rw [same, second.2] at found
  exact (Option.some.inj found).symm

theorem fallsOn_yearly_iff_of_fallsOn
    (falls : FallsOn origin .yearly current)
    (notCarried : origin.IsLeapDay → current.IsLeapDay)
    (after : current < date) :
    FallsOn current .yearly date ↔ FallsOn origin .yearly date := by
  have kept := month_and_day_of_fallsOn_yearly falls notCarried
  have later := falls.1
  have sameDays :
      FallsOn current .yearly date ↔ current.year < date.year ∧
        anniversary? origin date.year = some date := by
    rw [FallsOn, anniversary?, anniversary?, kept.1, kept.2]
  rw [sameDays]
  constructor
  · rintro ⟨ordered, found⟩
    exact ⟨Int.lt_trans later ordered, found⟩
  · rintro ⟨ordered, found⟩
    refine ⟨?_, found⟩
    refine Int.lt_iff_le_and_ne.2 ⟨Date.year_le_of_le (Std.le_of_lt after), ?_⟩
    intro same
    rw [eq_of_fallsOn_yearly falls ⟨ordered, found⟩ same] at after
    exact Std.lt_irrefl after

/-- Counted from one of its dates, a rule has the same later dates, unless it was carried. -/
theorem fallsOn_iff_of_fallsOn
    (falls : rule.FallsOn origin current)
    (notCarried : rule = .yearly → origin.IsLeapDay → current.IsLeapDay)
    (after : current < date) :
    rule.FallsOn current date ↔ rule.FallsOn origin date := by
  cases rule with
  | daily interval =>
      rcases falls with ⟨earlier, place⟩
      rw [Date.lt_iff] at after
      constructor
      · rintro ⟨more, datePlace⟩
        refine ⟨earlier + more + 1, ?_⟩
        rw [datePlace, place]
        push_cast
        ring
      · rintro ⟨count, datePlace⟩
        have steps : ((earlier : Int) + 1) * interval < (count + 1) * interval := by omega
        have fewer : (earlier : Int) + 1 < count + 1 :=
          Int.lt_of_mul_lt_mul_right steps (Int.natCast_nonneg interval)
        refine ⟨count - earlier - 1, ?_⟩
        rw [datePlace, place, Int.natCast_sub (by omega), Int.natCast_sub (by omega)]
        push_cast
        ring
  | yearly => exact fallsOn_yearly_iff_of_fallsOn falls (notCarried rfl) after
  | weekly weekdays =>
      constructor
      · rintro ⟨-, member⟩
        exact ⟨Std.lt_trans falls.1 after, member⟩
      · rintro ⟨-, member⟩
        exact ⟨after, member⟩
  | monthly days months =>
      have later := Date.monthIndex_le_of_le (Std.le_of_lt after)
      constructor
      · rintro ⟨-, offered⟩
        exact ⟨Int.le_trans falls.1 later, offered⟩
      · rintro ⟨-, offered⟩
        exact ⟨later, offered⟩

/-! ## Leap days that were carried -/

/-- A yearly rule whose next date would be a first of March goes there. -/
theorem isLeastAfter_marchYear
    {anchor : Date}
    (counted : anchor.year < now.marchYear)
    (march : ∀ date, date.year = now.marchYear →
      (FallsOn anchor .yearly date ↔ date.month = 3 ∧ date.day = 1))
    (early : ∀ date, FallsOn anchor .yearly date →
      date.month < 3 ∨ date.month = 3 ∧ date.day = 1) :
    Date.IsLeastAfter (FallsOn anchor .yearly) now (Date.ofYmd? now.marchYear 3 1) := by
  cases found : Date.ofYmd? now.marchYear 3 1 with
  | none =>
      intro other falls after
      have notBefore := Date.marchYear_le_of_lt after (early other falls)
      have otherYear := other.isReal.1
      have anchorYear := anchor.isReal.1
      refine Date.ofYmd?_eq_none_iff.1 found ⟨by omega, Nat.le_refl 1, ?_⟩
      simp only [monthLength, Nat.one_le_ofNat]
  | some date =>
      rcases Date.ofYmd?_eq_some_iff.1 found with ⟨year, month, day⟩
      have falls := (march date year).2 ⟨month, day⟩
      refine ⟨falls, Date.lt_of_year_eq_marchYear year month, ?_⟩
      intro other otherFalls after
      have notBefore := Date.marchYear_le_of_lt after (early other otherFalls)
      rw [← year] at notBefore
      rcases Int.le_iff_lt_or_eq.1 notBefore with later | same
      · exact Std.le_of_lt (Date.lt_of_year_lt later)
      · exact Std.le_of_eq (eq_of_fallsOn_yearly falls otherFalls same)

theorem isLeastAfter_of_firstOfMarch
    (march : current.month = 3 ∧ current.day = 1)
    (ordered : current ≤ now) :
    Date.IsLeastAfter (FallsOn current .yearly) now (Date.ofYmd? now.marchYear 3 1) := by
  have counted := Date.year_lt_marchYear_of_le ordered march.1
  have notLeapDay : ¬ current.IsLeapDay := by
    rw [Date.IsLeapDay]
    omega
  have firsts (date : Date) : FallsOn current .yearly date ↔
      current.year < date.year ∧ date.month = 3 ∧ date.day = 1 := by
    rw [fallsOn_yearly_iff, if_neg fun carried => notLeapDay carried.1, march.1, march.2]
  refine isLeastAfter_marchYear counted ?_ ?_
  · intro date year
    rw [firsts, year]
    exact and_iff_right counted
  · intro date falls
    exact .inr ((firsts date).1 falls).2

theorem isLeastAfter_of_isLeapDay
    (leapDay : origin.IsLeapDay)
    (counted : origin.year < now.marchYear)
    (common : ¬ IsLeapYear now.marchYear) :
    Date.IsLeastAfter (FallsOn origin .yearly) now (Date.ofYmd? now.marchYear 3 1) := by
  refine isLeastAfter_marchYear counted ?_ ?_
  · intro date year
    rw [fallsOn_yearly_iff, year, if_pos ⟨leapDay, common⟩]
    exact and_iff_right counted
  · intro date falls
    have placed := (fallsOn_yearly_iff.1 falls).2
    split at placed
    · exact .inr placed
    · rw [placed.1, leapDay.1]
      exact .inl (by decide)

/-- In a leap year the rule of a leap day has no date in March. -/
theorem isLeapDay_of_fallsOn
    (leapDay : origin.IsLeapDay)
    (falls : FallsOn origin .yearly date)
    (leap : IsLeapYear date.year) :
    date.IsLeapDay := by
  have placed := (fallsOn_yearly_iff.1 falls).2
  rw [if_neg fun carried => carried.2 leap] at placed
  exact ⟨placed.1.trans leapDay.1, placed.2.trans leapDay.2⟩

theorem isLeapDay_or_march_of_fallsOn
    (leapDay : origin.IsLeapDay)
    (falls : FallsOn origin .yearly date) :
    date.IsLeapDay ∨ date.month = 3 ∧ date.day = 1 := by
  by_cases leap : IsLeapYear date.year
  · exact .inl (isLeapDay_of_fallsOn leapDay falls leap)
  · have placed := (fallsOn_yearly_iff.1 falls).2
    rw [if_pos ⟨leapDay, leap⟩] at placed
    exact .inr placed

/-- A carried date and its leap day agree on the next date unless that would be a leap day. -/
theorem nextYearly?_eq_iff
    (leapDay : origin.IsLeapDay)
    (counted : origin.year < current.year)
    (march : current.month = 3 ∧ current.day = 1)
    (ordered : current ≤ now) :
    nextYearly? current now = nextYearly? origin now ↔ ¬ IsLeapYear now.marchYear := by
  have fromMarch : nextYearly? current now = Date.ofYmd? now.marchYear 3 1 :=
    (nextYearly?_isLeastAfter current now).unique (isLeastAfter_of_firstOfMarch march ordered)
  rw [fromMarch]
  constructor
  · intro same leap
    rcases Date.exists_firstOfMarch leap with ⟨first, found, year, month, -⟩
    have least := nextYearly?_isLeastAfter origin now
    rw [← same, found] at least
    have isLeapDay := isLeapDay_of_fallsOn leapDay least.1 (by rwa [year])
    rw [Date.IsLeapDay, month] at isLeapDay
    exact absurd isLeapDay.1 (by decide)
  · intro common
    have later := Date.year_lt_marchYear_of_le ordered march.1
    exact (isLeastAfter_of_isLeapDay leapDay (by omega) common).unique
      (nextYearly?_isLeastAfter origin now)

/-! ## Dates that are reached -/

/-- A reached date was carried, or it is a date of the rule that keeps its dates. -/
theorem Reaches.carried_or
    (reached : rule.Reaches origin current) :
    (rule = .yearly ∧ origin.IsLeapDay ∧ origin.year < current.year ∧
      current.month = 3 ∧ current.day = 1) ∨
    current = origin ∨
    rule.FallsOn origin current ∧
      (rule = .yearly → origin.IsLeapDay → current.IsLeapDay) := by
  rcases reached with same | falls | carried
  · exact .inr (.inl same)
  · by_cases leapDay : rule = .yearly ∧ origin.IsLeapDay ∧ ¬ current.IsLeapDay
    · rcases leapDay with ⟨rfl, leapDay, notLeapDay⟩
      have march := (isLeapDay_or_march_of_fallsOn leapDay falls).resolve_left notLeapDay
      exact .inl ⟨rfl, leapDay, falls.1, march⟩
    · refine .inr (.inr ⟨falls, ?_⟩)
      intro yearly isLeapDay
      by_contra notLeapDay
      exact leapDay ⟨yearly, isLeapDay, notLeapDay⟩
  · exact .inl carried

/-- A rule counts from a reached date as from the first one, unless it drifts. -/
theorem Reaches.next?_eq_iff
    (reached : rule.Reaches origin current)
    (accepted : rule.check = .ok ())
    (ordered : current ≤ now) :
    rule.next? current now = rule.next? origin now ↔ ¬ rule.DriftsFrom origin current now := by
  rcases reached.carried_or with ⟨rfl, leapDay, counted, march⟩ | rfl | ⟨falls, kept⟩
  · have notLeapDay : ¬ current.IsLeapDay := by
      rw [Date.IsLeapDay]
      omega
    rw [DriftsFrom]
    simp only [leapDay, notLeapDay, not_false_eq_true, true_and]
    exact nextYearly?_eq_iff leapDay counted march ordered
  · refine iff_of_true rfl ?_
    rintro ⟨-, leapDay, notLeapDay, -⟩
    exact notLeapDay leapDay
  · refine iff_of_true ?_ ?_
    · refine ((next?_isLeastAfter current now accepted).congr ?_).unique
        (next?_isLeastAfter origin now accepted)
      intro date after
      exact fallsOn_iff_of_fallsOn falls kept (Std.lt_of_le_of_lt ordered after)
    · rintro ⟨yearly, leapDay, notLeapDay, -⟩
      exact notLeapDay (kept yearly leapDay)

theorem Reaches.next?_of_driftsFrom
    (reached : rule.Reaches origin current)
    (ordered : current ≤ now)
    (drifts : rule.DriftsFrom origin current now) :
    ∃ date, rule.next? current now = some date ∧
      date.year = now.marchYear ∧ date.month = 3 ∧ date.day = 1 := by
  rcases drifts with ⟨rfl, leapDay, notLeapDay, leap⟩
  rcases Date.exists_firstOfMarch leap with ⟨date, first, place⟩
  rcases reached.carried_or with ⟨-, -, -, march⟩ | rfl | ⟨-, kept⟩
  · have least := isLeastAfter_of_firstOfMarch march ordered
    exact ⟨date, ((nextYearly?_isLeastAfter current now).unique least).trans first, place⟩
  · exact absurd leapDay notLeapDay
  · exact absurd (kept rfl leapDay) notLeapDay

theorem Reaches.next
    (reached : rule.Reaches origin current)
    (ordered : current ≤ now)
    (found : nextOccurrence current rule now = .ok date) :
    rule.Reaches origin date := by
  have least := isLeastAfter_of_nextOccurrence found
  rcases reached.carried_or with ⟨rfl, leapDay, counted, march⟩ | rfl | ⟨falls, kept⟩
  · have place := (isLeastAfter_of_firstOfMarch march ordered).unique least
    have later := Date.year_lt_marchYear_of_le ordered march.1
    rcases Date.ofYmd?_eq_some_iff.1 place with ⟨year, month, day⟩
    exact .inr (.inr ⟨rfl, leapDay, by omega, month, day⟩)
  · exact .inr (.inl least.1)
  · have after := Std.lt_of_le_of_lt ordered least.2.1
    exact .inr (.inl ((fallsOn_iff_of_fallsOn falls kept after).1 least.1))

end Rule

theorem nextOccurrence_eq_iff
    {first second now : Date} {rule : Rule}
    (accepted : rule.check = .ok ()) :
    nextOccurrence first rule now = nextOccurrence second rule now ↔
      rule.next? first now = rule.next? second now := by
  rw [nextOccurrence, nextOccurrence, accepted]
  cases rule.next? first now <;> cases rule.next? second now <;> simp

/--
The next occurrence counted from the current date is the one counted from the
first date, unless the rule drifts: then it is the first of March of a leap
year.
-/
structure Rule.CountsAlike (origin : Date) (rule : Rule) (current now : Date) : Prop where
  same_iff : nextOccurrence current rule now = nextOccurrence origin rule now ↔
    ¬ rule.DriftsFrom origin current now
  drifted : rule.DriftsFrom origin current now →
    ∃ date, nextOccurrence current rule now = .ok date ∧
      date.year = now.marchYear ∧ date.month = 3 ∧ date.day = 1

/-- A rule counts from a date that it reached as from its first date, unless it drifts. -/
theorem Rule.Reaches.countsAlike
    {origin current now : Date} {rule : Rule}
    (reached : rule.Reaches origin current)
    (accepted : rule.check = .ok ())
    (ordered : current ≤ now) :
    rule.CountsAlike origin current now := by
  constructor
  · rw [nextOccurrence_eq_iff accepted]
    exact reached.next?_eq_iff accepted ordered
  · intro drifts
    rcases reached.next?_of_driftsFrom ordered drifts with ⟨date, found, place⟩
    exact ⟨date, nextOccurrence_eq_ok_iff.2 ⟨accepted, found⟩, place⟩

end Agenda
