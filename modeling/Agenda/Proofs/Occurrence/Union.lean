import Agenda.Proofs.Occurrence.Succession

/-!
# Rules of joined lists

A list in a rule stands for the union of its items.  A rule whose weekdays,
days or months are joined from two lists falls due exactly on the dates on which
a rule with one of the two lists does, so it is next due on the earlier of
their two dates, even where the calendar ends before one of them.  No months at
all stand for all twelve.  The main statement is `nextOccurrence_union`.
-/

namespace Agenda

namespace IntSet

/-- The members of two sets. -/
instance : Union IntSet :=
  ⟨fun first second => .ofList (first.elements ++ second.elements)⟩

variable {first second : IntSet}

@[simp]
theorem mem_union {value : Int} : value ∈ first ∪ second ↔ value ∈ first ∨ value ∈ second := by
  show value ∈ ofList (first.elements ++ second.elements) ↔ _
  rw [mem_ofList, List.mem_append, mem_elements, mem_elements]

theorem not_isEmpty_iff {set : IntSet} : ¬ set.isEmpty ↔ ∃ value, value ∈ set := by
  constructor
  · exact exists_mem
  · rintro ⟨value, member⟩ empty
    rw [← mem_elements, isEmpty_iff.1 empty] at member
    cases member

theorem not_isEmpty_union (nonempty : ¬ first.isEmpty) : ¬ (first ∪ second).isEmpty := by
  rcases exists_mem nonempty with ⟨value, member⟩
  exact not_isEmpty_iff.2 ⟨value, mem_union.2 (.inl member)⟩

/-- What holds of the members of two sets holds of those of the union. -/
theorem forall_mem_union
    {holds : Int → Prop}
    (ofFirst : ∀ value ∈ first, holds value)
    (ofSecond : ∀ value ∈ second, holds value) :
    ∀ value ∈ first ∪ second, holds value := by
  intro value member
  rcases mem_union.1 member with inFirst | inSecond
  · exact ofFirst value inFirst
  · exact ofSecond value inSecond

end IntSet

namespace Date

/-- The earlier of two dates, where a missing one counts as later than every date. -/
def earlier? (first second : Option Date) : Option Date :=
  first.merge min second

namespace IsLeastAfter

variable {falls alsoFalls : Date → Prop} {now date : Date} {answer other : Option Date}

/-- The least date of a set stays the least when no earlier dates are added. -/
theorem or_of_le
    (least : IsLeastAfter falls now (some date))
    (notBefore : ∀ later, alsoFalls later → now < later → date ≤ later) :
    IsLeastAfter (fun date => falls date ∨ alsoFalls date) now (some date) := by
  rcases least with ⟨member, after, below⟩
  refine ⟨.inl member, after, ?_⟩
  rintro later (inFirst | inSecond) laterAfter
  · exact below later inFirst laterAfter
  · exact notBefore later inSecond laterAfter

/-- The least date of two sets is the earlier of their least dates. -/
theorem or
    (least : IsLeastAfter falls now answer)
    (otherLeast : IsLeastAfter alsoFalls now other) :
    IsLeastAfter (fun date => falls date ∨ alsoFalls date) now (earlier? answer other) := by
  cases answer with
  | none =>
      cases other with
      | none =>
          rintro date (inFirst | inSecond)
          · exact least date inFirst
          · exact otherLeast date inSecond
      | some second =>
          refine (otherLeast.or_of_le ?_).congr fun _ _ => or_comm
          intro later member after
          exact absurd after (least later member)
  | some first =>
      cases other with
      | none =>
          refine least.or_of_le ?_
          intro later member after
          exact absurd after (otherLeast later member)
      | some second =>
          show IsLeastAfter _ now (some (min first second))
          by_cases ordered : first ≤ second
          · rw [Std.LawfulOrderLeftLeaningMin.min_eq_left first second ordered]
            refine least.or_of_le ?_
            intro later member after
            exact Std.le_trans ordered (otherLeast.2.2 later member after)
          · rw [Std.LawfulOrderLeftLeaningMin.min_eq_right first second ordered]
            refine (otherLeast.or_of_le ?_).congr fun _ _ => or_comm
            intro later member after
            have reversed := Std.le_of_lt (Std.not_le.1 ordered)
            exact Std.le_trans reversed (least.2.2 later member after)

end IsLeastAfter

end Date

/-! ## When a rule is next due -/

/--
The date on which a rule is next due, none if the calendar ends before it, or
why the rule cannot be followed.
-/
def dueDate? (anchor : Date) (rule : Rule) (now : Date) : Except RuleError (Option Date) :=
  match nextOccurrence anchor rule now with
  | .ok date => .ok (some date)
  | .error (.unreachable _ _) => .ok none
  | .error (.invalidRule cause) => .error cause

namespace Rule

variable {anchor now : Date} {rule first second joined : Rule}

theorem dueDate?_eq
    (anchor : Date) (rule : Rule) (now : Date) :
    dueDate? anchor rule now = rule.check.map fun _ => rule.next? anchor now := by
  rw [dueDate?, nextOccurrence]
  cases rule.check with
  | error cause => rfl
  | ok => cases rule.next? anchor now <;> rfl

theorem dueDate?_eq_ok_of_isLeastAfter
    {answer : Option Date}
    (accepted : rule.check = .ok ())
    (least : Date.IsLeastAfter (rule.FallsOn anchor) now answer) :
    dueDate? anchor rule now = .ok answer := by
  rw [dueDate?_eq, accepted, (next?_isLeastAfter anchor now accepted).unique least]
  rfl

/-- Two rules and a joined one are followed, and the joined one is due on the earlier date. -/
def DueOnEarlier (anchor now : Date) (first second joined : Rule) : Prop :=
  ∃ date other, dueDate? anchor first now = .ok date ∧ dueDate? anchor second now = .ok other ∧
    dueDate? anchor joined now = .ok (Date.earlier? date other)

theorem DueOnEarlier.dueDate?_eq
    {date other : Option Date}
    (due : DueOnEarlier anchor now first second joined)
    (firstDue : dueDate? anchor first now = .ok date)
    (secondDue : dueDate? anchor second now = .ok other) :
    dueDate? anchor joined now = .ok (Date.earlier? date other) := by
  rcases due with ⟨_, _, ofFirst, ofSecond, ofJoined⟩
  cases ofFirst.symm.trans firstDue
  cases ofSecond.symm.trans secondDue
  exact ofJoined

/-- A rule that falls on the dates of two rules is due on the earlier of their two dates. -/
theorem dueOnEarlier_of_fallsOn
    (firstAccepted : first.check = .ok ())
    (secondAccepted : second.check = .ok ())
    (joinedAccepted : joined.check = .ok ())
    (joins : ∀ date,
      joined.FallsOn anchor date ↔ first.FallsOn anchor date ∨ second.FallsOn anchor date) :
    DueOnEarlier anchor now first second joined := by
  have firstLeast := next?_isLeastAfter anchor now firstAccepted
  have secondLeast := next?_isLeastAfter anchor now secondAccepted
  refine ⟨first.next? anchor now, second.next? anchor now, ?_, ?_, ?_⟩
  · exact dueDate?_eq_ok_of_isLeastAfter firstAccepted firstLeast
  · exact dueDate?_eq_ok_of_isLeastAfter secondAccepted secondLeast
  · refine dueDate?_eq_ok_of_isLeastAfter joinedAccepted ?_
    exact (firstLeast.or secondLeast).congr fun date _ => (joins date).symm

/-! ## Joined weekdays -/

theorem dueOnEarlier_weekly
    {weekdays otherWeekdays : IntSet}
    (accepted : (weekly weekdays).check = .ok ())
    (otherAccepted : (weekly otherWeekdays).check = .ok ()) :
    DueOnEarlier anchor now (weekly weekdays) (weekly otherWeekdays)
      (weekly (weekdays ∪ otherWeekdays)) := by
  refine dueOnEarlier_of_fallsOn accepted otherAccepted ?_ ?_
  · rcases check_weekly_eq_ok_iff.1 accepted with ⟨nonempty, allowed⟩
    rcases check_weekly_eq_ok_iff.1 otherAccepted with ⟨-, otherAllowed⟩
    exact check_weekly_eq_ok_iff.2
      ⟨IntSet.not_isEmpty_union nonempty, IntSet.forall_mem_union allowed otherAllowed⟩
  · intro date
    simp only [FallsOn, IntSet.mem_union]
    exact and_or_left

/-! ## Joined days and months -/

section Monthly

variable {days otherDays months otherMonths : IntSet}

/-- A rule that selects more dates than one that can occur can occur as well. -/
theorem check_monthly_of_selectsDate
    (accepted : (monthly days months).check = .ok ())
    (nonempty : ¬ otherDays.isEmpty)
    (daysAllowed : ∀ day ∈ otherDays, RuleField.dayOfMonth.Allows day)
    (monthsAllowed : ∀ month ∈ otherMonths, RuleField.month.Allows month)
    (more : SelectsDate days months → SelectsDate otherDays otherMonths) :
    (monthly otherDays otherMonths).check = .ok () := by
  rcases check_monthly_eq_ok_iff.1 accepted with ⟨-, allowed, allowedMonths, occurs⟩
  refine check_monthly_eq_ok_iff.2 ⟨nonempty, daysAllowed, monthsAllowed, ?_⟩
  rw [canOccur_eq_true_iff allowed allowedMonths] at occurs
  exact (canOccur_eq_true_iff daysAllowed monthsAllowed).2 (more occurs)

theorem dueOnEarlier_days
    (accepted : (monthly days months).check = .ok ())
    (otherAccepted : (monthly otherDays months).check = .ok ()) :
    DueOnEarlier anchor now (monthly days months) (monthly otherDays months)
      (monthly (days ∪ otherDays) months) := by
  refine dueOnEarlier_of_fallsOn accepted otherAccepted ?_ ?_
  · rcases check_monthly_eq_ok_iff.1 accepted with ⟨nonempty, allowed, monthsAllowed, -⟩
    rcases check_monthly_eq_ok_iff.1 otherAccepted with ⟨-, otherAllowed, -, -⟩
    refine check_monthly_of_selectsDate accepted (IntSet.not_isEmpty_union nonempty)
      (IntSet.forall_mem_union allowed otherAllowed) monthsAllowed ?_
    rintro ⟨date, selected, day, member, hasDay⟩
    exact ⟨date, selected, day, IntSet.mem_union.2 (.inl member), hasDay⟩
  · intro date
    simp only [FallsOn, Month.Offers, IntSet.mem_union, or_and_right, exists_or, and_or_left]

theorem dueOnEarlier_months
    (nonempty : ¬ months.isEmpty)
    (otherNonempty : ¬ otherMonths.isEmpty)
    (accepted : (monthly days months).check = .ok ())
    (otherAccepted : (monthly days otherMonths).check = .ok ()) :
    DueOnEarlier anchor now (monthly days months) (monthly days otherMonths)
      (monthly days (months ∪ otherMonths)) := by
  have joinedNonempty := @IntSet.not_isEmpty_union months otherMonths nonempty
  refine dueOnEarlier_of_fallsOn accepted otherAccepted ?_ ?_
  · rcases check_monthly_eq_ok_iff.1 accepted with ⟨someDay, daysAllowed, allowed, -⟩
    rcases check_monthly_eq_ok_iff.1 otherAccepted with ⟨-, -, otherAllowed, -⟩
    refine check_monthly_of_selectsDate accepted someDay daysAllowed
      (IntSet.forall_mem_union allowed otherAllowed) ?_
    rintro ⟨date, selected, day, member, hasDay⟩
    have joined : (date.month : Int) ∈ months ∪ otherMonths :=
      IntSet.mem_union.2 (.inl (selected.resolve_left nonempty))
    exact ⟨date, .inr joined, day, member, hasDay⟩
  · intro date
    simp only [FallsOn, Month.Offers, nonempty, otherNonempty, joinedNonempty,
      Bool.false_eq_true, false_or, IntSet.mem_union, or_and_right, and_or_left]

end Monthly

/-! ## All months -/

/-- The numbers of the twelve months. -/
def everyMonth : IntSet :=
  .ofList [1, 2, 3, 4, 5, 6, 7, 8, 9, 10, 11, 12]

theorem mem_everyMonth (date : Date) : (date.month : Int) ∈ everyMonth := by
  have named := date.month_mem
  simp only [everyMonth, IntSet.mem_ofList, List.mem_cons, List.not_mem_nil, or_false]
  omega

/-- A rule of no months and one of all months pass the check alike. -/
theorem check_monthly_everyMonth (days : IntSet) :
    (monthly days everyMonth).check = (monthly days ∅).check := by
  have allowed : checkMembers .month everyMonth = checkMembers .month ∅ := by decide +kernel
  have longest : lastSelectableDay everyMonth = lastSelectableDay ∅ := by decide +kernel
  rw [check, check, allowed, canOccur, canOccur, longest]

theorem fallsOn_everyMonth_iff
    {days : IntSet} {date : Date} :
    FallsOn anchor (monthly days everyMonth) date ↔ FallsOn anchor (monthly days ∅) date := by
  have inYear : (((Month.ofDate date).number : Nat) : Int) ∈ everyMonth := mem_everyMonth date
  have none : (∅ : IntSet).isEmpty = true := rfl
  simp only [FallsOn, Month.Offers, inYear, none, or_true, true_or]

theorem dueDate?_everyMonth (anchor : Date) (days : IntSet) (now : Date) :
    dueDate? anchor (monthly days everyMonth) now = dueDate? anchor (monthly days ∅) now := by
  rw [dueDate?_eq, dueDate?_eq, check_monthly_everyMonth]
  cases accepted : (monthly days ∅).check with
  | error cause => rfl
  | ok =>
      have every := next?_isLeastAfter anchor now ((check_monthly_everyMonth days).trans accepted)
      have least := next?_isLeastAfter anchor now accepted
      rw [(every.congr fun date _ => fallsOn_everyMonth_iff).unique least]

end Rule

/--
From any anchor and on any day of the calendar, a weekly rule is next due on the
earlier of the dates of two weekly rules whose weekdays it joins, where the end
of the calendar counts as later than every date.  The same holds of monthly
rules that join days for the same months, or months for the same days.  And
whatever the days, a monthly rule without months is due when the rule of all
twelve months is.
-/
theorem nextOccurrence_union (anchor now : Date) :
    (∀ weekdays others,
      (Rule.weekly weekdays).check = .ok () → (Rule.weekly others).check = .ok () →
        Rule.DueOnEarlier anchor now (.weekly weekdays) (.weekly others)
          (.weekly (weekdays ∪ others))) ∧
    (∀ days others months,
      (Rule.monthly days months).check = .ok () → (Rule.monthly others months).check = .ok () →
        Rule.DueOnEarlier anchor now (.monthly days months) (.monthly others months)
          (.monthly (days ∪ others) months)) ∧
    (∀ days months others, ¬ months.isEmpty → ¬ others.isEmpty →
      (Rule.monthly days months).check = .ok () → (Rule.monthly days others).check = .ok () →
        Rule.DueOnEarlier anchor now (.monthly days months) (.monthly days others)
          (.monthly days (months ∪ others))) ∧
    ∀ days, dueDate? anchor (.monthly days ∅) now =
      dueDate? anchor (.monthly days Rule.everyMonth) now := by
  refine ⟨?_, ?_, ?_, ?_⟩
  · intro weekdays others accepted otherAccepted
    exact Rule.dueOnEarlier_weekly accepted otherAccepted
  · intro days others months accepted otherAccepted
    exact Rule.dueOnEarlier_days accepted otherAccepted
  · intro days months others nonempty otherNonempty accepted otherAccepted
    exact Rule.dueOnEarlier_months nonempty otherNonempty accepted otherAccepted
  · intro days
    exact (Rule.dueDate?_everyMonth anchor days now).symm

/--
Two days before the calendar ends, one of two weekdays comes no more and the
other one does.  After the leap day of 2096 the next one is eight years away, so
that with another day or another month the rule is due before it.
-/
theorem nextOccurrence_union_leapDay :
    let late : Date := ⟨262142, 12, 29, by decide⟩
    let lastDate : Date := ⟨262142, 12, 31, by decide⟩
    let ofToday : IntSet := .ofList [late.weekday]
    let atEnd : IntSet := .ofList [lastDate.weekday]
    let leapDay : Date := ⟨2096, 2, 29, by decide⟩
    let nextLeapDay : Date := ⟨2104, 2, 29, by decide⟩
    let lastButOne : Date := ⟨2097, 2, 27, by decide⟩
    let ofJanuary : Date := ⟨2097, 1, 29, by decide⟩
    let day : IntSet := .ofList [29]
    let otherDay : IntSet := .ofList [-2]
    let month : IntSet := .ofList [2]
    let otherMonth : IntSet := .ofList [1]
    (((Rule.weekly ofToday).check = .ok () ∧ (Rule.weekly atEnd).check = .ok ()) ∧
      dueDate? late (.weekly ofToday) late = .ok none ∧
      dueDate? late (.weekly (ofToday ∪ atEnd)) late = .ok (some lastDate)) ∧
    (((Rule.monthly day month).check = .ok () ∧ (Rule.monthly otherDay month).check = .ok ()) ∧
      dueDate? leapDay (.monthly day month) leapDay = .ok (some nextLeapDay) ∧
      dueDate? leapDay (.monthly (day ∪ otherDay) month) leapDay = .ok (some lastButOne)) ∧
    (((¬ month.isEmpty ∧ ¬ otherMonth.isEmpty) ∧ (Rule.monthly day otherMonth).check = .ok ()) ∧
      dueDate? leapDay (.monthly day (month ∪ otherMonth)) leapDay = .ok (some ofJanuary)) := by
  intro late lastDate ofToday atEnd leapDay nextLeapDay lastButOne ofJanuary
    day otherDay month otherMonth
  have weekly : (Rule.weekly ofToday).check = .ok () ∧ (Rule.weekly atEnd).check = .ok () := by
    decide +kernel
  have monthly : (Rule.monthly day month).check = .ok () ∧
      (Rule.monthly otherDay month).check = .ok () := by
    decide +kernel
  have nonempty : ¬ month.isEmpty ∧ ¬ otherMonth.isEmpty := by decide +kernel
  have inJanuary : (Rule.monthly day otherMonth).check = .ok () := by decide +kernel
  have ends : dueDate? late (.weekly ofToday) late = .ok none := by decide +kernel
  have lastWeek : dueDate? late (.weekly atEnd) late = .ok (some lastDate) := by decide +kernel
  have leap : dueDate? leapDay (.monthly day month) leapDay = .ok (some nextLeapDay) := by
    decide +kernel
  have sooner : dueDate? leapDay (.monthly otherDay month) leapDay = .ok (some lastButOne) := by
    decide +kernel
  have first : dueDate? leapDay (.monthly day otherMonth) leapDay = .ok (some ofJanuary) := by
    decide +kernel
  have joinedWeekly := (nextOccurrence_union late late).1 ofToday atEnd weekly.1 weekly.2
  have joinedDays := (nextOccurrence_union leapDay leapDay).2.1 day otherDay month
    monthly.1 monthly.2
  have joinedMonths := (nextOccurrence_union leapDay leapDay).2.2.1 day month otherMonth
    nonempty.1 nonempty.2 monthly.1 inJanuary
  have atLastButOne : Date.earlier? (some nextLeapDay) (some lastButOne) = some lastButOne := by
    decide +kernel
  have atJanuary : Date.earlier? (some nextLeapDay) (some ofJanuary) = some ofJanuary := by
    decide +kernel
  refine ⟨⟨weekly, ends, joinedWeekly.dueDate?_eq ends lastWeek⟩,
    ⟨monthly, leap, ?_⟩, ⟨nonempty, inJanuary⟩, ?_⟩
  · rw [joinedDays.dueDate?_eq leap sooner, atLastButOne]
  · rw [joinedMonths.dueDate?_eq leap first, atJanuary]

end Agenda
