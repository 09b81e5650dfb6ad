import Agenda.Proofs.Occurrence.Monthly

/-!
# From one occurrence to the next

Going from each occurrence to the next one skips no date, repeats none and
keeps their order (`nextOccurrence_succession`), for every kind of rule and to
the end of the calendar.  All of it follows from the search finding the least
date of one set of dates.  `FindsLeast` says the same of any set, so that the
dates of a rule can be described without the search.
-/

namespace Agenda

/-- The dates of `count` steps, each from the date before it; fewer if a step finds none. -/
def occurrencesAfter (anchor : Date) (rule : Rule) : Nat → Date → List Date
  | 0, _ => []
  | count + 1, now =>
    match nextOccurrence anchor rule now with
    | .ok date => date :: occurrencesAfter anchor rule count date
    | .error _ => []

variable {anchor now later date : Date} {rule : Rule}

theorem isLeastAfter_of_nextOccurrence
    (found : nextOccurrence anchor rule now = .ok date) :
    Date.IsLeastAfter (rule.FallsOn anchor) now (some date) := by
  rcases nextOccurrence_eq_ok_iff.1 found with ⟨accepted, search⟩
  rw [← search]
  exact Rule.next?_isLeastAfter anchor now accepted

theorem nextOccurrence_eq_ok_of_isLeastAfter
    (accepted : rule.check = .ok ())
    (least : Date.IsLeastAfter (rule.FallsOn anchor) now (some date)) :
    nextOccurrence anchor rule now = .ok date :=
  nextOccurrence_eq_ok_iff.2
    ⟨accepted, (Rule.next?_isLeastAfter anchor now accepted).unique least⟩

/-- The outcome of a search: the date that it finds, or else that the rule is unreachable. -/
def Rule.outcome (rule : Rule) (now : Date) : Option Date → Except OccurrenceError Date
  | some date => .ok date
  | none => .error (.unreachable rule now)

theorem nextOccurrence_eq_outcome
    (accepted : rule.check = .ok ()) :
    nextOccurrence anchor rule now = rule.outcome now (rule.next? anchor now) := by
  rw [nextOccurrence, accepted]
  cases rule.next? anchor now <;> rfl

/--
The next occurrence is the least date of a set after `now`, and it is
unreachable exactly if the set has no date after `now`.
-/
structure FindsLeast
    (falls : Date → Prop) (anchor : Date) (rule : Rule) (now : Date) : Prop where
  ok_iff (date : Date) :
    nextOccurrence anchor rule now = .ok date ↔
      falls date ∧ now < date ∧ ∀ other, falls other → now < other → date ≤ other
  unreachable_iff :
    nextOccurrence anchor rule now = .error (.unreachable rule now) ↔
      ∀ date, falls date → ¬ now < date

theorem findsLeast_iff
    {falls : Date → Prop}
    (accepted : rule.check = .ok ()) :
    FindsLeast falls anchor rule now ↔
      Date.IsLeastAfter falls now (rule.next? anchor now) := by
  have outcome := @nextOccurrence_eq_outcome anchor now rule accepted
  constructor
  · intro finds
    cases search : rule.next? anchor now with
    | none =>
        rw [search] at outcome
        exact finds.unreachable_iff.1 outcome
    | some date =>
        rw [search] at outcome
        exact (finds.ok_iff date).1 outcome
  · intro least
    constructor
    · intro date
      rw [nextOccurrence_eq_ok_iff, and_iff_right accepted]
      constructor
      · intro search
        rw [search] at least
        exact least
      · intro found
        have other : Date.IsLeastAfter falls now (some date) := found
        exact least.unique other
    · rw [outcome]
      cases search : rule.next? anchor now with
      | none =>
          rw [search] at least
          exact iff_of_true rfl least
      | some date =>
          rw [search] at least
          refine iff_of_false (fun same => nomatch same) ?_
          intro missing
          exact missing date least.1 least.2.1

theorem lt_of_nextOccurrence
    (found : nextOccurrence anchor rule now = .ok date) :
    now < date :=
  (isLeastAfter_of_nextOccurrence found).2.1

/-- The next occurrence stays the same on every day before it. -/
theorem nextOccurrence_eq_ok_of_lt
    (found : nextOccurrence anchor rule now = .ok date)
    (ordered : now ≤ later)
    (before : later < date) :
    nextOccurrence anchor rule later = .ok date :=
  nextOccurrence_eq_ok_of_isLeastAfter (nextOccurrence_eq_ok_iff.1 found).1
    ((isLeastAfter_of_nextOccurrence found).of_le_of_lt ordered before)

theorem exists_nextOccurrence_le
    (found : nextOccurrence anchor rule later = .ok date)
    (ordered : now ≤ later) :
    ∃ first, nextOccurrence anchor rule now = .ok first ∧ first ≤ date := by
  have accepted := (nextOccurrence_eq_ok_iff.1 found).1
  rcases (Rule.next?_isLeastAfter anchor now accepted).exists_le
    (isLeastAfter_of_nextOccurrence found) ordered with ⟨first, search, below⟩
  exact ⟨first, nextOccurrence_eq_ok_iff.2 ⟨accepted, search⟩, below⟩

theorem pairwise_occurrencesAfter
    (anchor : Date) (rule : Rule) (count : Nat) (now : Date) :
    (now :: occurrencesAfter anchor rule count now).Pairwise (· < ·) := by
  induction count generalizing now with
  | zero => exact List.pairwise_singleton _ now
  | succ count ih =>
      rw [occurrencesAfter]
      split
      · rename_i date found
        have after := lt_of_nextOccurrence found
        have increasing := ih date
        refine List.pairwise_cons.2 ⟨?_, increasing⟩
        intro other member
        rcases List.mem_cons.1 member with rfl | member
        · exact after
        · exact Std.lt_trans after ((List.pairwise_cons.1 increasing).1 other member)
      · exact List.pairwise_singleton _ now

/-- The steps pass every next occurrence of the days that they pass. -/
theorem exists_mem_occurrencesAfter
    {count : Nat} {day : Date}
    (notBefore : now ≤ day)
    (before : day < (occurrencesAfter anchor rule count now).getLastD now) :
    ∃ date ∈ occurrencesAfter anchor rule count now,
      nextOccurrence anchor rule day = .ok date := by
  induction count generalizing now with
  | zero => exact absurd before (Std.not_lt_of_ge notBefore)
  | succ count ih =>
      rw [occurrencesAfter] at *
      split at before
      · rename_i date found
        by_cases reached : day < date
        · exact ⟨date, List.mem_cons_self, nextOccurrence_eq_ok_of_lt found notBefore reached⟩
        · rw [List.getLastD_cons] at before
          rcases ih (Std.not_lt.1 reached) before with ⟨other, member, next⟩
          exact ⟨other, List.mem_cons_of_mem date member, next⟩
      · exact absurd before (Std.not_lt_of_ge notBefore)

/--
The next occurrence comes after the current day, stays the same until it is
reached, and is never later on an earlier day.  Hence the dates reached by
steps from occurrence to occurrence increase, and among them is the next
occurrence of every day from the first up to the last of them.
-/
theorem nextOccurrence_succession (anchor : Date) (rule : Rule) :
    (∀ now date, nextOccurrence anchor rule now = .ok date → now < date) ∧
    (∀ now later date, now ≤ later → later < date →
      nextOccurrence anchor rule now = .ok date →
        nextOccurrence anchor rule later = .ok date) ∧
    (∀ now later date, now ≤ later →
      nextOccurrence anchor rule later = .ok date →
        ∃ first, nextOccurrence anchor rule now = .ok first ∧ first ≤ date) ∧
    ∀ now count,
      (now :: occurrencesAfter anchor rule count now).Pairwise (· < ·) ∧
      ∀ day, now ≤ day → day < (occurrencesAfter anchor rule count now).getLastD now →
        ∃ date ∈ occurrencesAfter anchor rule count now,
          nextOccurrence anchor rule day = .ok date := by
  refine ⟨?_, ?_, ?_, ?_⟩
  · intro now date found
    exact lt_of_nextOccurrence found
  · intro now later date ordered before found
    exact nextOccurrence_eq_ok_of_lt found ordered before
  · intro now later date ordered found
    exact exists_nextOccurrence_le found ordered
  · intro now count
    refine ⟨pairwise_occurrencesAfter anchor rule count now, ?_⟩
    intro day notBefore before
    exact exists_mem_occurrencesAfter notBefore before

/--
On the leap day of 2096, and still in March of 2100, the next leap day is that
of 2104.  Two steps from the former reach 2104 and 2108, and a day in between
has the latter as its next occurrence.
-/
theorem nextOccurrence_succession_leapDay :
    let rule : Rule := .monthly (.ofList [29]) (.ofList [2])
    let leapDay (year : Int) (real : IsRealDate year 2 29) : Date := ⟨year, 2, 29, real⟩
    let anchor : Date := leapDay 2096 (by decide)
    let first : Date := leapDay 2104 (by decide)
    let second : Date := leapDay 2108 (by decide)
    let day : Date := ⟨2100, 3, 1, by decide⟩
    let later : Date := ⟨2105, 7, 31, by decide⟩
    let dates := occurrencesAfter anchor rule 2 anchor
    nextOccurrence anchor rule anchor = .ok first ∧ anchor < first ∧
      (anchor ≤ day ∧ day < first ∧ nextOccurrence anchor rule day = .ok first) ∧
      (∃ date, nextOccurrence anchor rule anchor = .ok date ∧ date ≤ second) ∧
      dates = [first, second] ∧ (anchor :: dates).Pairwise (· < ·) ∧
      ∃ date ∈ dates, nextOccurrence anchor rule later = .ok date := by
  intro rule leapDay anchor first second day later dates
  have found : nextOccurrence anchor rule anchor = .ok first := by decide +kernel
  have foundLater : nextOccurrence anchor rule later = .ok second := by decide +kernel
  have reached : dates = [first, second] := by decide +kernel
  have between : anchor ≤ day ∧ day < first := by decide
  have passed : anchor ≤ later ∧ later < dates.getLastD anchor := by
    rw [reached]
    decide
  rcases nextOccurrence_succession anchor rule with ⟨after, constant, monotone, steps⟩
  have stepped := steps anchor 2
  exact ⟨found, after anchor first found,
    ⟨between.1, between.2, constant anchor day first between.1 between.2 found⟩,
    monotone anchor later second passed.1 foundLater, reached, stepped.1,
    stepped.2 later passed.1 passed.2⟩

end Agenda
