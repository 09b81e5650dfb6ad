import Agenda.Proofs.Occurrence.Succession
import Agenda.Proofs.Occurrence.Totality

/-!
# The dates that a monthly rule names

A monthly rule names a date by its month and by its day, counted from the first
of the month or back from the last (`Date.HasDay`).  The search reads the same
dates off the months, with one exception.  December of the last year is the
only month that no other month starts after, so its last day is not known, and
the days that are counted back from it are passed over
(`Month.offers_ofDate_iff`).

So a monthly rule finds the least date that it names from the month of the
later of its anchor and the current day, unless that date lies in the last
month of all and is named from its end only (`nextOccurrence_monthly_least_iff`).
On the dates of the years 1 to 9999 it always finds it, and far within the
months that are searched (`nextOccurrence_monthly_least`).
-/

namespace Agenda

namespace Date

/-! ## Least dates of a smaller set -/

/-- A set with a date after `now` has a least one, by induction on the days up to that date. -/
theorem exists_isLeastAfter
    {falls : Date → Prop} {now date : Date}
    (member : falls date)
    (after : now < date) :
    ∃ least, IsLeastAfter falls now (some least) := by
  induction distance : (date.dayNumber - now.dayNumber).toNat
    using Nat.strongRecOn generalizing date with
  | ind distance ih =>
      by_cases sooner : ∃ other, falls other ∧ now < other ∧ other < date
      · rcases sooner with ⟨other, otherMember, otherAfter, before⟩
        rw [lt_iff] at *
        exact ih _ (by omega) otherMember otherAfter rfl
      · refine ⟨date, member, after, ?_⟩
        intro other otherMember otherAfter
        refine Std.not_lt.1 fun before => ?_
        exact sooner ⟨other, otherMember, otherAfter, before⟩

/-- The least date of a smaller set is that of the whole set, if the latter is kept. -/
theorem IsLeastAfter.whole_iff
    {falls kept : Date → Prop} {now : Date} {answer : Option Date}
    (least : IsLeastAfter (fun date => falls date ∧ kept date) now answer) :
    IsLeastAfter falls now answer ↔
      ∀ date, IsLeastAfter falls now (some date) → kept date := by
  constructor
  · intro whole date first
    rw [whole.unique first] at least
    exact least.1.2
  · intro keeps
    cases answer with
    | none =>
        intro other member after
        rcases exists_isLeastAfter member after with ⟨first, firstLeast⟩
        exact least first ⟨firstLeast.1, keeps first firstLeast⟩ firstLeast.2.1
    | some date =>
        refine ⟨least.1.1, least.2.1, ?_⟩
        intro other member after
        rcases exists_isLeastAfter member after with ⟨first, firstLeast⟩
        exact Std.le_trans
          (least.2.2 first ⟨firstLeast.1, keeps first firstLeast⟩ firstLeast.2.1)
          (firstLeast.2.2 other member after)

/-! ## Named dates -/

/-- A date whose month and day are selected; no months selected means all. -/
def IsNamedBy (date : Date) (days months : IntSet) : Prop :=
  (months.isEmpty ∨ (date.month : Int) ∈ months) ∧ ∃ day ∈ days, date.HasDay day

instance (date : Date) (day : Int) : Decidable (date.HasDay day) :=
  inferInstanceAs (Decidable (if day < 0 then _ else _))

/-- A date of December of the last year, the month after which no other starts. -/
def IsInLastMonth (date : Date) : Prop :=
  date.year = lastYear ∧ date.month = 12

instance : DecidablePred IsInLastMonth := fun date =>
  inferInstanceAs (Decidable (date.year = lastYear ∧ date.month = 12))

/-- A date within 96 months after a start is within eight years of it. -/
theorem year_le_of_monthIndex_le
    {start date : Date}
    (soon : date.monthIndex ≤ start.monthIndex + 96) :
    date.year ≤ start.year + 8 := by
  have named := date.month_mem
  have startNamed := start.month_mem
  simp only [monthIndex, Month.index, Month.ofDate] at soon
  omega

end Date

namespace Month

/-- The last month of all has no length, since no month starts after it. -/
theorem length_ofDate (date : Date) :
    (ofDate date).length =
      if date.IsInLastMonth then 0 else monthLength date.year date.month := by
  split
  · rename_i last
    rw [show ofDate date = ⟨lastYear, 12⟩ by rw [ofDate, last.1, last.2]]
    decide
  · rename_i notLast
    refine length_eq_monthLength (isNamed_ofDate date) date.isReal.1.1 ?_
    have year := date.isReal.1.2
    simp only [Date.IsInLastMonth] at notLast
    rw [next, ofDate]
    by_cases december : date.month = 12
    · rw [if_pos december]
      simp only
      omega
    · rw [if_neg december]
      exact year

/-- A month offers the dates that are named, in the last month of all from its first day only. -/
theorem offers_ofDate_iff
    {days months : IntSet} {date : Date} :
    (ofDate date).Offers days months date ↔
      date.IsNamedBy days months ∧ (date.IsInLastMonth → (date.day : Int) ∈ days) := by
  have positive := date.isReal.2.1
  rw [Offers, Date.IsNamedBy, and_assoc]
  refine and_congr_right fun _ => ?_
  simp only [select?_eq_some_iff, true_and, selectedDay, length_ofDate]
  by_cases last : date.IsInLastMonth
  · simp only [last, if_true, true_implies]
    constructor
    · rintro ⟨day, member, place⟩
      split at place
      · omega
      · rename_i counted
        have hasDay : date.HasDay day := by rw [Date.HasDay, if_neg counted, place]
        exact ⟨⟨day, member, hasDay⟩, by rwa [place]⟩
    · rintro ⟨-, member⟩
      exact ⟨date.day, member, by rw [if_neg (by omega)]⟩
  · simp only [last, if_false, false_implies, and_true]
    refine exists_congr fun day => and_congr_right fun _ => ?_
    rw [Date.HasDay]
    split <;> rfl

end Month

namespace Rule

variable {days months : IntSet}

/-- The dates that a monthly rule names, from the month of a start. -/
def NamesFrom (days months : IntSet) (start date : Date) : Prop :=
  start.monthIndex ≤ date.monthIndex ∧ date.IsNamedBy days months

/-! ## What the search finds -/

/-- The search passes over the dates of the last month of all that are named from its end only. -/
theorem next?_monthly_isLeastAfter
    (anchor now : Date)
    (accepted : (monthly days months).check = .ok ()) :
    Date.IsLeastAfter
      (fun date => NamesFrom days months (max anchor now) date ∧
        (date.IsInLastMonth → (date.day : Int) ∈ days)) now
      ((monthly days months).next? anchor now) := by
  refine (next?_isLeastAfter anchor now accepted).congr ?_
  intro date after
  constructor
  · intro falls
    rcases Month.offers_ofDate_iff.1 falls.2 with ⟨named, counted⟩
    exact ⟨⟨le_monthIndex_of_fallsOn_monthly falls after, named⟩, counted⟩
  · rintro ⟨⟨reached, named⟩, counted⟩
    have fromAnchor : anchor.monthIndex ≤ (max anchor now).monthIndex :=
      Date.monthIndex_le_of_le Std.left_le_max
    exact ⟨Int.le_trans fromAnchor reached, Month.offers_ofDate_iff.2 ⟨named, counted⟩⟩

end Rule

/-! ## The next occurrence -/

variable {days months : IntSet}

/--
On dates up to the year 9999 a monthly rule that passes the check has a next
occurrence.  It is the least date after `now`, from the month of the later of
`now` and the anchor, that the rule names, and it comes within 96 of the 120
months that are searched.
-/
theorem nextOccurrence_monthly_least
    (anchor now : Date)
    (accepted : (Rule.monthly days months).check = .ok ())
    (anchorYear : anchor.year ≤ 9999)
    (nowYear : now.year ≤ 9999) :
    ∃ date, nextOccurrence anchor (.monthly days months) now = .ok date ∧
      Date.IsLeastAfter (Rule.NamesFrom days months (max anchor now)) now (some date) ∧
      date.monthIndex ≤ (max anchor now).monthIndex + 96 := by
  have year : (max anchor now).year ≤ 9999 := Date.year_max_le anchorYear nowYear
  rcases Rule.exists_offers_soon accepted (max anchor now)
    (Int.le_trans (Int.add_le_add_right year 9) (by decide)) with ⟨near, offered, later, soon⟩
  have names : Rule.NamesFrom days months (max anchor now) near :=
    ⟨Int.le_of_lt later, (Month.offers_ofDate_iff.1 offered).1⟩
  have after : now < near :=
    Std.lt_of_le_of_lt Std.right_le_max (Date.lt_of_monthIndex_lt later)
  have soon_of_least {date : Date}
      (least : Date.IsLeastAfter (Rule.NamesFrom days months (max anchor now)) now (some date)) :
      date.monthIndex ≤ (max anchor now).monthIndex + 96 :=
    Int.le_trans (Date.monthIndex_le_of_le (least.2.2 near names after)) soon
  have not_isInLastMonth {date : Date}
      (least : Date.IsLeastAfter (Rule.NamesFrom days months (max anchor now)) now (some date)) :
      ¬ date.IsInLastMonth := by
    have soonYear := Date.year_le_of_monthIndex_le (soon_of_least least)
    rw [Date.IsInLastMonth, lastYear]
    omega
  have least := (Rule.next?_monthly_isLeastAfter anchor now accepted).whole_iff.2
    fun _ first last => absurd last (not_isInLastMonth first)
  cases search : (Rule.monthly days months).next? anchor now with
  | none =>
      rw [search] at least
      exact absurd after (least near names)
  | some date =>
      rw [search] at least
      exact ⟨date, nextOccurrence_eq_ok_iff.2 ⟨accepted, search⟩, least, soon_of_least least⟩

/-- The leap day after that of 2096 comes eight years later, since 2100 is a common year. -/
theorem nextOccurrence_monthly_least_leapDay :
    let days : IntSet := .ofList [29]
    let months : IntSet := .ofList [2]
    let anchor : Date := ⟨2096, 2, 29, by decide⟩
    let date : Date := ⟨2104, 2, 29, by decide⟩
    ((Rule.monthly days months).check = .ok () ∧ anchor.year ≤ 9999) ∧
      nextOccurrence anchor (.monthly days months) anchor = .ok date ∧
      Date.IsLeastAfter (Rule.NamesFrom days months (max anchor anchor)) anchor (some date) := by
  intro days months anchor date
  have accepted : (Rule.monthly days months).check = .ok () := by decide +kernel
  have inFormat : anchor.year ≤ 9999 := by decide
  have found : nextOccurrence anchor (.monthly days months) anchor = .ok date := by
    decide +kernel
  rcases nextOccurrence_monthly_least anchor anchor accepted inFormat inFormat with
    ⟨other, otherFound, least, -⟩
  rw [found] at otherFound
  cases otherFound
  exact ⟨⟨accepted, inFormat⟩, found, least⟩

/--
Up to the end of the calendar, a monthly rule finds the least date that it
names and that, in the last month of all, is counted from the first of the
month.  So it finds the least date that it names exactly if that date does not
lie in the last month of all or is named there from the first of the month.
-/
theorem nextOccurrence_monthly_least_iff
    (anchor now : Date)
    (accepted : (Rule.monthly days months).check = .ok ()) :
    FindsLeast
      (fun date => Rule.NamesFrom days months (max anchor now) date ∧
        (date.IsInLastMonth → (date.day : Int) ∈ days))
      anchor (.monthly days months) now ∧
    (FindsLeast (Rule.NamesFrom days months (max anchor now))
        anchor (.monthly days months) now ↔
      ∀ date, Date.IsLeastAfter (Rule.NamesFrom days months (max anchor now)) now (some date) →
        date.IsInLastMonth → (date.day : Int) ∈ days) := by
  have least := Rule.next?_monthly_isLeastAfter anchor now accepted
  constructor
  · exact (findsLeast_iff accepted).2 least
  · rw [findsLeast_iff accepted]
    exact least.whole_iff

/-- On the eve of the last day, the 31st of the month is still found. -/
theorem nextOccurrence_monthly_least_iff_eve :
    let eve : Date := ⟨262142, 12, 30, by decide⟩
    let lastDay : Date := ⟨262142, 12, 31, by decide⟩
    let days : IntSet := .ofList [31]
    (Rule.monthly days ∅).check = .ok () ∧
      nextOccurrence eve (.monthly days ∅) eve = .ok lastDay ∧
      FindsLeast (Rule.NamesFrom days ∅ (max eve eve)) eve (.monthly days ∅) eve := by
  intro eve lastDay days
  have accepted : (Rule.monthly days ∅).check = .ok () := by decide +kernel
  refine ⟨accepted, by decide +kernel, ?_⟩
  refine (nextOccurrence_monthly_least_iff eve eve accepted).2.2 ?_
  rintro date ⟨⟨-, -, day, member, hasDay⟩, -⟩ -
  have only : day = 31 := by simpa [days] using member
  rw [only, Date.HasDay, if_neg (by decide)] at hasDay
  rwa [hasDay, ← only]

/--
The day before the last one of the calendar, a rule for the last day of the
month finds nothing, and with a rule for the 31st and the last day but one,
the last day but one is passed over.
-/
theorem monthly_misses_lastDays :
    let today : Date := ⟨262142, 12, 29, by decide⟩
    let eve : Date := ⟨262142, 12, 30, by decide⟩
    let lastDay : Date := ⟨262142, 12, 31, by decide⟩
    let atEnd : IntSet := .ofList [-1]
    let before : IntSet := .ofList [-2, 31]
    ((Rule.monthly atEnd ∅).check = .ok () ∧
      nextOccurrence eve (.monthly atEnd ∅) eve =
        .error (.unreachable (.monthly atEnd ∅) eve) ∧
      Rule.NamesFrom atEnd ∅ (max eve eve) lastDay ∧ eve < lastDay ∧
      ¬ FindsLeast (Rule.NamesFrom atEnd ∅ (max eve eve)) eve (.monthly atEnd ∅) eve) ∧
    ((Rule.monthly before ∅).check = .ok () ∧
      nextOccurrence today (.monthly before ∅) today = .ok lastDay ∧
      Rule.NamesFrom before ∅ (max today today) eve ∧ today < eve ∧ eve < lastDay ∧
      ¬ FindsLeast (Rule.NamesFrom before ∅ (max today today)) today
        (.monthly before ∅) today) := by
  intro today eve lastDay atEnd before
  have ends : nextOccurrence eve (.monthly atEnd ∅) eve =
      .error (.unreachable (.monthly atEnd ∅) eve) := by decide +kernel
  have found : nextOccurrence today (.monthly before ∅) today = .ok lastDay := by
    decide +kernel
  have lastNamed : Rule.NamesFrom atEnd ∅ (max eve eve) lastDay :=
    ⟨by decide +kernel, .inl rfl, -1, by decide +kernel, by decide +kernel⟩
  have eveNamed : Rule.NamesFrom before ∅ (max today today) eve :=
    ⟨by decide +kernel, .inl rfl, -2, by decide +kernel, by decide +kernel⟩
  have ordered : today < eve ∧ eve < lastDay := by decide +kernel
  refine ⟨⟨by decide +kernel, ends, lastNamed, ordered.2, ?_⟩,
    ⟨by decide +kernel, found, eveNamed, ordered.1, ordered.2, ?_⟩⟩
  · intro finds
    exact finds.unreachable_iff.1 ends lastDay lastNamed ordered.2
  · intro finds
    exact Std.not_le.2 ordered.2 (((finds.ok_iff lastDay).1 found).2.2 eve eveNamed ordered.1)

end Agenda
