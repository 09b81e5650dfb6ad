import Agenda.Proofs.Occurrence.Reanchoring

/-!
# Stepping from the anchor

A daily rule is followed by adding its interval to the anchor, and a yearly one
by going from year to year, at least once and until a date after the current
day is reached.  The search does not take all of these steps: it jumps over the
intervals and the years that end before the current day.

The main statements say that nothing is lost by that.  A daily rule has the
outcome of plain stepping, and its jump stays within words of 64 bits and is
followed by one step (`nextOccurrence_daily_stepping`).  A yearly rule finds
the least anniversary after the current day, and the year in which it begins to
look does not matter (`nextOccurrence_yearly_least`).
-/

namespace Agenda

namespace Rule

variable {anchor now date : Date} {interval : Nat} {positive : 0 < interval}

/-!
## Daily rules

The year of a day number is found by arithmetic that no proof here carries out.
-/

attribute [local irreducible] yearOfDay

/--
Adds an interval to a date, at least once and until the date is after `now`.
No date is found if a step leaves the calendar.
-/
def stepPast? (interval : Nat) (positive : 0 < interval) (now date : Date) : Option Date :=
  match _ : date.addDays? interval with
  | none => none
  | some next => if now < next then some next else stepPast? interval positive now next
termination_by (now.dayNumber - date.dayNumber).toNat
decreasing_by
  rename_i place notAfter
  have moved := Date.addDays?_eq_some_iff.1 place
  rw [Date.lt_iff] at notAfter
  omega

theorem stepPast?_eq
    (interval : Nat) (positive : 0 < interval) (now date : Date) :
    stepPast? interval positive now date =
      (date.addDays? interval).bind fun next =>
        if now < next then some next else stepPast? interval positive now next := by
  rw [stepPast?]
  split
  · rename_i left
    rw [left, Option.bind_none]
  · rename_i next place
    rw [place, Option.bind_some]

/-- One step from a date leads to its first date by a daily rule. -/
theorem fallsOn_of_addDays?
    {next : Date}
    (place : date.addDays? interval = some next) :
    FallsOn date (.daily interval) next := by
  refine ⟨0, ?_⟩
  rw [Date.addDays?_eq_some_iff.1 place]
  ring

theorem add_le_dayNumber_of_fallsOn
    {other : Date}
    (falls : FallsOn date (.daily interval) other) :
    date.dayNumber + interval ≤ other.dayNumber := by
  rcases falls with ⟨earlier, counted⟩
  have further : (0 : Int) ≤ earlier * interval := by positivity
  rw [counted, Int.add_mul, Int.one_mul]
  omega

/--
Plain stepping finds the least date of a daily rule after `now`, by induction
on the steps that are left before a date after `now` is reached.
-/
theorem stepPast?_isLeastAfter
    (date now : Date) (positive : 0 < interval) :
    Date.IsLeastAfter (FallsOn date (.daily interval)) now
      (stepPast? interval positive now date) := by
  induction date using stepPast?.induct interval positive now with
  | case1 date left =>
      rw [stepPast?_eq, left, Option.bind_none]
      intro other falls _
      rcases Date.exists_of_between date other (date.dayNumber + interval)
        (by omega) (add_le_dayNumber_of_fallsOn falls) with ⟨next, place⟩
      rw [Date.addDays?_eq_some_iff.2 place] at left
      cases left
  | case2 date next place after =>
      rw [stepPast?_eq, place, Option.bind_some, if_pos after]
      refine ⟨fallsOn_of_addDays? place, after, ?_⟩
      intro other falls _
      rw [Date.le_iff, Date.addDays?_eq_some_iff.1 place]
      exact add_le_dayNumber_of_fallsOn falls
  | case3 date next place notAfter ih =>
      rw [stepPast?_eq, place, Option.bind_some, if_neg notAfter]
      refine ih.congr ?_
      intro other after
      exact fallsOn_iff_of_fallsOn (fallsOn_of_addDays? place) (fun yearly => nomatch yearly)
        (Std.lt_of_le_of_lt (Std.not_lt.1 notAfter) after)

theorem stepPast?_eq_nextDaily?
    (anchor now : Date) (positive : 0 < interval) :
    stepPast? interval positive now anchor = nextDaily? interval anchor now :=
  (stepPast?_isLeastAfter anchor now positive).unique (nextDaily?_isLeastAfter anchor now positive)

/-! ## The number of intervals -/

/-- The days from the anchor to `now`, none if the anchor comes later. -/
def elapsedDays (anchor now : Date) : Nat :=
  (now.dayNumber - anchor.dayNumber).toNat

/-- The least number of intervals, at least one, that lead from the anchor past `now`. -/
structure IsLeastCount (interval : Nat) (anchor now : Date) (count : Nat) : Prop where
  atLeastOne : 1 ≤ count
  leadsPast : now.dayNumber < anchor.dayNumber + count * interval
  least (other : Nat) :
    1 ≤ other → now.dayNumber < anchor.dayNumber + other * interval → count ≤ other

theorem leadsPast_iff
    {count : Nat}
    (positive : 0 < interval)
    (atLeastOne : 1 ≤ count) :
    now.dayNumber < anchor.dayNumber + count * interval ↔
      elapsedDays anchor now / interval < count := by
  have forward : 0 < count * interval := Nat.mul_pos atLeastOne positive
  rw [Nat.div_lt_iff_lt_mul positive, elapsedDays, ← Int.natCast_mul]
  omega

theorem isLeastCount_elapsedDays
    (anchor now : Date)
    (positive : 0 < interval) :
    IsLeastCount interval anchor now (elapsedDays anchor now / interval + 1) where
  atLeastOne := Nat.le_add_left 1 _
  leadsPast := (leadsPast_iff positive (Nat.le_add_left 1 _)).2 (Nat.lt_add_one _)
  least _ atLeastOne leadsPast := (leadsPast_iff positive atLeastOne).1 leadsPast

theorem nextDaily?_eq (interval : Nat) (anchor now : Date) :
    nextDaily? interval anchor now =
      anchor.addDays? ((elapsedDays anchor now / interval + 1 : Nat) * interval) := by
  rw [nextDaily?, elapsedDays]
  push_cast
  rw [Int.ofNat_toNat]

/-! ## The jump over whole intervals -/

/-- The days from the anchor to `now`, in a signed word of 64 bits. -/
def gapWord (anchor now : Date) : Int64 :=
  .ofInt (now.dayNumber - anchor.dayNumber)

/-- The whole intervals of a gap, counted in unsigned words of 64 bits. -/
def skippedWord (interval : Nat) (gap : Int64) : UInt64 :=
  gap.toUInt64 / .ofNat interval

/-- The days of these intervals, in an unsigned word of 64 bits. -/
def skippedDays (interval : Nat) (gap : Int64) : UInt64 :=
  skippedWord interval gap * .ofNat interval

/-- Jumps from the anchor over the whole intervals that end no later than `now`. -/
def jump? (interval : Nat) (anchor now : Date) : Option Date :=
  if 0 < gapWord anchor now then
    anchor.addDays? (skippedDays interval (gapWord anchor now)).toNat
  else some anchor

/-- Jumps over whole intervals and then steps until a date after `now`. -/
def jumpThenStep?
    (interval : Nat) (positive : 0 < interval) (anchor now : Date) : Option Date :=
  (jump? interval anchor now).bind (stepPast? interval positive now)

/-- Each word that a jump computes is the number that it stands for. -/
structure JumpsWithinWords (interval : Nat) (anchor now : Date) : Prop where
  gap_eq : (gapWord anchor now).toInt = now.dayNumber - anchor.dayNumber
  skipped_eq : 0 < gapWord anchor now →
    (skippedWord interval (gapWord anchor now)).toNat = elapsedDays anchor now / interval
  days_eq : 0 < gapWord anchor now →
    (skippedDays interval (gapWord anchor now)).toNat =
      elapsedDays anchor now / interval * interval
  /-- No count of days goes beyond a signed word of 32 bits. -/
  gap_small : -2 ^ 31 < now.dayNumber - anchor.dayNumber ∧
    now.dayNumber - anchor.dayNumber < 2 ^ 31
  days_small : elapsedDays anchor now / interval * interval < 2 ^ 31

theorem sub_dayNumber_lt (earlier later : Date) :
    later.dayNumber - earlier.dayNumber < 2 ^ 31 := by
  have lower := (Date.exists_dayNumber_eq_iff.1 ⟨earlier, rfl⟩).1
  have upper := (Date.exists_dayNumber_eq_iff.1 ⟨later, rfl⟩).2
  have span : daysBeforeYear (lastYear + 1) - daysBeforeYear firstYear < 2 ^ 31 := by decide
  omega

theorem toInt_gapWord (anchor now : Date) :
    (gapWord anchor now).toInt = now.dayNumber - anchor.dayNumber := by
  have below := sub_dayNumber_lt anchor now
  have above := sub_dayNumber_lt now anchor
  exact Int64.toInt_ofInt_of_le (by omega) (by omega)

theorem gapWord_pos_iff {anchor now : Date} :
    0 < gapWord anchor now ↔ 0 < elapsedDays anchor now := by
  rw [Int64.lt_iff_toInt_lt, toInt_gapWord, Int64.toInt_zero, elapsedDays]
  omega

theorem toNat_gapWord
    (ahead : 0 < gapWord anchor now) :
    (gapWord anchor now).toUInt64.toNat = elapsedDays anchor now := by
  rw [Int64.toNat_toUInt64_of_le (Int64.le_of_lt ahead)]
  exact congrArg Int.toNat (toInt_gapWord anchor now)

theorem elapsedDays_lt (anchor now : Date) : elapsedDays anchor now < 2 ^ 31 := by
  have below := sub_dayNumber_lt anchor now
  rw [elapsedDays]
  omega

theorem jumpsWithinWords
    (anchor now : Date)
    (small : interval < 2 ^ 64) :
    JumpsWithinWords interval anchor now := by
  have step : (UInt64.ofNat interval).toNat = interval :=
    UInt64.toNat_ofNat_of_lt' small
  have skipped (ahead : 0 < gapWord anchor now) :
      (skippedWord interval (gapWord anchor now)).toNat = elapsedDays anchor now / interval := by
    rw [skippedWord, UInt64.toNat_div, toNat_gapWord ahead, step]
  have product_le := Nat.div_mul_le_self (elapsedDays anchor now) interval
  have short := elapsedDays_lt anchor now
  have above := sub_dayNumber_lt now anchor
  refine ⟨toInt_gapWord anchor now, skipped, ?_, ⟨by omega, sub_dayNumber_lt anchor now⟩,
    Nat.lt_of_le_of_lt product_le short⟩
  intro ahead
  rw [skippedDays, UInt64.toNat_mul, skipped ahead, step]
  exact Nat.mod_eq_of_lt (by omega)

/-- The jump ends in the calendar, after the whole intervals that have elapsed. -/
theorem exists_jump?_eq
    (anchor now : Date)
    (small : interval < 2 ^ 64) :
    ∃ start, jump? interval anchor now = some start ∧
      start.dayNumber =
        anchor.dayNumber + (elapsedDays anchor now / interval * interval : Nat) := by
  have fits := Nat.div_mul_le_self (elapsedDays anchor now) interval
  rw [jump?]
  split
  · rename_i ahead
    rw [(jumpsWithinWords anchor now small).days_eq ahead]
    have inside : elapsedDays anchor now = now.dayNumber - anchor.dayNumber := by
      rw [gapWord_pos_iff, elapsedDays] at ahead
      rw [elapsedDays]
      omega
    rcases Date.exists_of_between anchor now
      (anchor.dayNumber + (elapsedDays anchor now / interval * interval : Nat))
      (by omega) (by omega) with ⟨start, place⟩
    exact ⟨start, Date.addDays?_eq_some_iff.2 place, place⟩
  · rename_i notAhead
    rw [gapWord_pos_iff] at notAhead
    exact ⟨anchor, rfl, by omega⟩

/-- After the jump, one step leads past `now`. -/
theorem lt_of_addDays?_of_jump?
    {start next : Date}
    (positive : 0 < interval)
    (landed : start.dayNumber =
      anchor.dayNumber + (elapsedDays anchor now / interval * interval : Nat))
    (place : start.addDays? interval = some next) :
    now < next := by
  have leadsPast := (isLeastCount_elapsedDays anchor now positive).leadsPast
  rw [Date.lt_iff, Date.addDays?_eq_some_iff.1 place, landed]
  push_cast at leadsPast ⊢
  rwa [Int.add_mul, Int.one_mul, ← Int.add_assoc] at leadsPast

theorem jumpThenStep?_eq_nextDaily?
    (anchor now : Date)
    (positive : 0 < interval)
    (small : interval < 2 ^ 64) :
    jumpThenStep? interval positive anchor now = nextDaily? interval anchor now := by
  rcases exists_jump?_eq anchor now small with ⟨start, jumped, landed⟩
  have oneStep : start.addDays? interval = nextDaily? interval anchor now := by
    rw [nextDaily?_eq, Date.addDays?, Date.addDays?, landed]
    push_cast
    rw [Int.add_mul, Int.one_mul, ← Int.add_assoc]
  rw [jumpThenStep?, jumped, Option.bind_some, stepPast?_eq, ← oneStep]
  cases place : start.addDays? interval with
  | none => rfl
  | some next =>
      rw [Option.bind_some, if_pos (lt_of_addDays?_of_jump? positive landed place)]

/-! ## Yearly rules -/

/--
Goes from year to year after a first one until the anniversary is after `now`.
No date is found if an anniversary lies outside the calendar.
-/
def anniversaryPast? (anchor now : Date) (year : Int) : Option Date :=
  match _ : anniversary? anchor (year + 1) with
  | none => none
  | some candidate =>
    if now < candidate then some candidate else anniversaryPast? anchor now (year + 1)
termination_by (now.year - year).toNat
decreasing_by
  rename_i found notAfter
  have candidateYear := year_of_anniversary? found
  have ordered := Date.year_le_of_le (Std.not_lt.1 notAfter)
  omega

theorem anniversaryPast?_eq (anchor now : Date) (year : Int) :
    anniversaryPast? anchor now year =
      (anniversary? anchor (year + 1)).bind fun candidate =>
        if now < candidate then some candidate else anniversaryPast? anchor now (year + 1) := by
  rw [anniversaryPast?]
  split
  · rename_i missing
    rw [missing, Option.bind_none]
  · rename_i candidate found
    rw [found, Option.bind_some]

/--
If no anniversary up to a year is after `now`, the search may begin after that
year, by induction on the years that are left until that of `now` has passed.
-/
theorem anniversaryPast?_isLeastAfter
    {year : Int}
    (counted : anchor.year ≤ year)
    (notBefore : ∀ other, FallsOn anchor .yearly other → now < other → year < other.year) :
    Date.IsLeastAfter (FallsOn anchor .yearly) now (anniversaryPast? anchor now year) := by
  induction year using anniversaryPast?.induct anchor now with
  | case1 year missing =>
      have least := anniversary?_isLeastAfter (Int.lt_add_one_of_le counted) notBefore (by
        intro date found
        rw [missing] at found
        cases found)
      rwa [anniversaryPast?_eq, missing, Option.bind_none, ← missing]
  | case2 year candidate found after =>
      have least := anniversary?_isLeastAfter (Int.lt_add_one_of_le counted) notBefore (by
        intro date otherFound
        rw [found] at otherFound
        cases otherFound
        exact after)
      rwa [anniversaryPast?_eq, found, Option.bind_some, if_pos after, ← found]
  | case3 year candidate found notAfter ih =>
      rw [anniversaryPast?_eq, found, Option.bind_some, if_neg notAfter]
      refine ih (by omega) ?_
      intro other falls after
      refine Int.lt_iff_le_and_ne.2 ⟨notBefore other falls after, ?_⟩
      intro same
      have otherFound := falls.2
      rw [← same, found] at otherFound
      cases otherFound
      exact notAfter after

/-- Where the search begins does not matter, as long as no later anniversary is passed over. -/
theorem anniversaryPast?_eq_nextYearly?
    {year : Int}
    (counted : anchor.year ≤ year)
    (early : year ≤ max anchor.year (now.year - 1)) :
    anniversaryPast? anchor now year = nextYearly? anchor now := by
  refine (anniversaryPast?_isLeastAfter counted ?_).unique (nextYearly?_isLeastAfter anchor now)
  intro other falls after
  have later := Date.year_le_of_le (Std.le_of_lt after)
  have otherCounted := falls.1
  omega

end Rule

/--
A date of a later year with the month and the day of the anchor.  In a common
year the 1st of March stands for the 29th of February.
-/
def Date.IsAnniversaryOf (date anchor : Date) : Prop :=
  anchor.year < date.year ∧
    if anchor.IsLeapDay ∧ ¬ IsLeapYear date.year then date.month = 3 ∧ date.day = 1
    else date.month = anchor.month ∧ date.day = anchor.day

/-! ## The next occurrence -/

/--
A daily rule has the outcome of plain stepping from its anchor, which is the
date of the least number of intervals that lead past `now`, or unreachable if
the calendar has no such date.  The jump over whole intervals has that outcome
as well: its words are the numbers that they stand for, it ends in the
calendar, and the first step after it leads past `now`.
-/
theorem nextOccurrence_daily_stepping
    (anchor now : Date) {interval : Nat}
    (allowed : 1 ≤ interval ∧ interval ≤ 400) :
    nextOccurrence anchor (.daily interval) now =
      (Rule.daily interval).outcome now (Rule.stepPast? interval allowed.1 now anchor) ∧
    (∃ count, Rule.IsLeastCount interval anchor now count ∧
      nextOccurrence anchor (.daily interval) now =
        (Rule.daily interval).outcome now (anchor.addDays? (count * interval))) ∧
    nextOccurrence anchor (.daily interval) now =
      (Rule.daily interval).outcome now (Rule.jumpThenStep? interval allowed.1 anchor now) ∧
    Rule.JumpsWithinWords interval anchor now ∧
    ∃ start, Rule.jump? interval anchor now = some start ∧
      ∀ next, start.addDays? interval = some next → now < next := by
  have small : interval < 2 ^ 64 := by omega
  have outcome := @nextOccurrence_eq_outcome anchor now _ (Rule.check_daily_eq_ok_iff.2 allowed)
  rw [Rule.next?] at outcome
  rcases Rule.exists_jump?_eq anchor now small with ⟨start, jumped, landed⟩
  refine ⟨?_, ⟨_, Rule.isLeastCount_elapsedDays anchor now allowed.1, ?_⟩, ?_,
    Rule.jumpsWithinWords anchor now small, start, jumped, ?_⟩
  · rw [Rule.stepPast?_eq_nextDaily?, outcome]
  · rw [← Rule.nextDaily?_eq, outcome]
  · rw [Rule.jumpThenStep?_eq_nextDaily? anchor now allowed.1 small, outcome]
  · intro next place
    exact Rule.lt_of_addDays?_of_jump? allowed.1 landed place

/-- Three days before the end, a gap of one whole interval leads to the last date of all. -/
theorem nextOccurrence_daily_stepping_lastDays :
    let anchor : Date := ⟨262142, 12, 25, by decide⟩
    let now : Date := ⟨262142, 12, 28, by decide⟩
    let lastDate : Date := ⟨262142, 12, 31, by decide⟩
    ∃ allowed : 1 ≤ 3 ∧ 3 ≤ 400,
      nextOccurrence anchor (.daily 3) now = .ok lastDate ∧
      (Rule.daily 3).outcome now (Rule.stepPast? 3 allowed.1 now anchor) = .ok lastDate ∧
      (Rule.daily 3).outcome lastDate (Rule.stepPast? 3 allowed.1 lastDate anchor) =
        .error (.unreachable (.daily 3) lastDate) := by
  intro anchor now lastDate
  have allowed : 1 ≤ 3 ∧ 3 ≤ 400 := by decide
  have found : nextOccurrence anchor (.daily 3) now = .ok lastDate := by decide +kernel
  have ends : nextOccurrence anchor (.daily 3) lastDate =
      .error (.unreachable (.daily 3) lastDate) := by decide +kernel
  refine ⟨allowed, found, ?_, ?_⟩
  · rw [← (nextOccurrence_daily_stepping anchor now allowed).1, found]
  · rw [← (nextOccurrence_daily_stepping anchor lastDate allowed).1, ends]

/--
A yearly rule finds the least anniversary of its anchor after `now`.  The
search from year to year has the same outcome from the year of the anchor and
from any later one up to the year before `now`.
-/
theorem nextOccurrence_yearly_least (anchor now : Date) :
    FindsLeast (fun date => date.IsAnniversaryOf anchor) anchor .yearly now ∧
    ∀ year, anchor.year ≤ year → year ≤ max anchor.year (now.year - 1) →
      nextOccurrence anchor .yearly now =
        Rule.yearly.outcome now (Rule.anniversaryPast? anchor now year) := by
  have accepted : Rule.yearly.check = .ok () := rfl
  constructor
  · refine (findsLeast_iff accepted).2 ?_
    refine (Rule.next?_isLeastAfter anchor now accepted).congr ?_
    intro date _
    exact Rule.fallsOn_yearly_iff
  · intro year counted early
    rw [nextOccurrence_eq_outcome accepted, Rule.anniversaryPast?_eq_nextYearly? counted early,
      Rule.next?]

/-- From the leap day of 2096, over the common year 2100, stepping leads to March of 2101. -/
theorem nextOccurrence_yearly_least_leapDay :
    let anchor : Date := ⟨2096, 2, 29, by decide⟩
    let now : Date := ⟨2100, 3, 1, by decide⟩
    let date : Date := ⟨2101, 3, 1, by decide⟩
    (anchor.year ≤ 2096 ∧ 2096 ≤ max anchor.year (now.year - 1)) ∧
      Rule.yearly.outcome now (Rule.anniversaryPast? anchor now 2096) = .ok date ∧
      date.IsAnniversaryOf anchor ∧ now < date := by
  intro anchor now date
  have started : anchor.year ≤ 2096 ∧ 2096 ≤ max anchor.year (now.year - 1) := by decide
  have found : nextOccurrence anchor .yearly now = .ok date := by decide +kernel
  have finds := nextOccurrence_yearly_least anchor now
  have least := (finds.1.ok_iff date).1 found
  refine ⟨started, ?_, least.1, least.2.1⟩
  rw [← finds.2 2096 started.1 started.2, found]

end Agenda
