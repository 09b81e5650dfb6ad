import Agenda.Proofs.Rule.Grammar

/-!
# The canonical text of a rule

A rule is written as its letter and its lists, and reading what is written
gives the rule back if it passes its check, and the error of the check if it
does not (`Rule.ofText_text`).  So reading and checking agree on the ranges of
all numbers and on which of several faults comes first, and a rule that was
read has one canonical text.  The main statement is `ofText_text_agrees`.
-/

namespace Agenda

namespace Rule

/-- The lists that a rule must have are not empty. -/
def IsListed : Rule → Prop
  | .weekly weekdays => weekdays.isEmpty = false
  | .monthly days _ => days.isEmpty = false
  | .daily _ | .yearly => True

/-- The numbers of a rule. -/
def numbers : Rule → List Int
  | .daily interval => [(interval : Int)]
  | .yearly => []
  | .weekly weekdays => weekdays.elements
  | .monthly days months => days.elements ++ months.elements

/-- An integer of 64 bits, as every integer of 32 bits is, with a sign or without. -/
def Fits64 (value : Int) : Prop :=
  Text.minInt64 ≤ value ∧ value ≤ Text.maxInt64

instance (value : Int) : Decidable (Fits64 value) :=
  inferInstanceAs (Decidable (_ ∧ _))

variable {field : RuleField} {set : IntSet} {strings : List String}

/-! ## Written lists -/

theorem mem_intercalate_comma
    {char : Char}
    (member : char ∈ (",".intercalate strings).toList) :
    char = ',' ∨ ∃ string ∈ strings, char ∈ string.toList := by
  induction strings with
  | nil => simp at member
  | cons first rest ih =>
      cases rest with
      | nil =>
          rw [String.intercalate_singleton] at member
          exact .inr ⟨first, List.mem_cons_self, member⟩
      | cons second later =>
          rw [String.intercalate_cons_cons, String.toList_append, String.toList_append] at member
          rcases List.mem_append.1 member with front | back
          · rcases List.mem_append.1 front with inFirst | comma
            · exact .inr ⟨first, List.mem_cons_self, inFirst⟩
            · exact .inl (List.mem_singleton.1 comma)
          · rcases ih back with comma | ⟨string, listed, inString⟩
            · exact .inl comma
            · exact .inr ⟨string, List.mem_cons_of_mem first listed, inString⟩

theorem elements_ne_nil
    (nonempty : set.isEmpty = false) :
    set.elements ≠ [] := by
  intro empty
  rw [IntSet.isEmpty_iff.2 empty] at nonempty
  cases nonempty

/-- The items of a written list are its values. -/
theorem items_listText
    (nonempty : set.isEmpty = false) :
    items (listText set) = set.elements.map fun value => toString value := by
  have noComma : ∀ piece ∈ set.elements.map (fun value => (toString value).toList),
      ',' ∉ piece := by
    intro piece written comma
    rcases List.mem_map.1 written with ⟨value, -, rfl⟩
    rcases Text.eq_or_isDigit_of_mem_toString comma with sign | digit
    · contradiction
    · contradiction
  have pieces : (set.elements.map fun value => toString value).map String.toList =
      set.elements.map fun value => (toString value).toList := by
    rw [List.map_map]
    rfl
  rw [items, listText, String.toList_intercalate, pieces]
  show (List.splitOn ',' ([','].intercalate _)).map String.ofList = _
  rw [List.splitOn_intercalate ',' noComma (by simpa using elements_ne_nil nonempty), List.map_map]
  refine List.map_congr_left fun value _ => ?_
  exact String.ofList_toList

theorem isWord_listText
    (nonempty : set.isEmpty = false) :
    Text.IsWord (listText set) := by
  constructor
  · intro empty
    have written := items_listText nonempty
    rw [empty] at written
    cases listed : set.elements with
    | nil => exact elements_ne_nil nonempty listed
    | cons first rest =>
        rw [listed, List.map_cons] at written
        exact Text.toString_ne_empty first (List.cons.inj written).1.symm
  · intro char member
    rcases mem_intercalate_comma member with rfl | ⟨string, listed, inString⟩
    · decide
    · rcases List.mem_map.1 listed with ⟨value, -, rfl⟩
      exact Text.isBlankChar_of_mem_toString inString

/-- Values in increasing order are the values of their written items. -/
theorem areValues_map_toString
    {values : List Int}
    (fits : ∀ value ∈ values, Fits64 value)
    (allowed : ∀ value ∈ values, field.Allows value)
    (increasing : values.Pairwise (· < ·)) :
    AreValues field (values.map fun value => toString value) values := by
  refine ⟨?_, allowed, increasing.imp Int.ne_of_lt⟩
  rw [List.forall₂_map_left_iff, List.forall₂_same]
  intro value member
  exact Text.isInteger_toString (fits value member).1 (fits value member).2

theorem ofList_elements (set : IntSet) : IntSet.ofList set.elements = set := by
  ext value
  exact IntSet.mem_ofList

/--
Reading a written list is checking its values.  The first item that offends is
the least value that the field does not take.
-/
theorem readList_listText
    (nonempty : set.isEmpty = false)
    (fits : ∀ value ∈ set, Fits64 value) :
    readList field (listText set) = (checkMembers field set).map fun _ => set := by
  rw [checkMembers]
  cases found : set.elements.find? fun value => ¬ field.Allows value with
  | none =>
      have allowed (value : Int) (member : value ∈ set.elements) : field.Allows value := by
        simpa using List.find?_eq_none.1 found value member
      refine readList_eq_ok_iff.2 ⟨set.elements, ?_, (ofList_elements set).symm⟩
      rw [items_listText nonempty]
      exact areValues_map_toString fits allowed set.increasing
  | some value =>
      rcases List.find?_eq_some_iff_append.1 found with ⟨refused, before, after, listed, fitting⟩
      have member : value ∈ set.elements := List.mem_of_find?_eq_some found
      have increasing := set.increasing
      rw [listed, List.pairwise_append] at increasing
      refine readList_eq_error_iff.2 ⟨before.map fun value => toString value, toString value,
        after.map fun value => toString value, before, ?_, ?_, ?_⟩
      · rw [items_listText nonempty, listed, List.map_append, List.map_cons]
      · refine areValues_map_toString ?_ ?_ increasing.1
        · intro other earlier
          refine fits other ?_
          rw [← IntSet.mem_elements, listed]
          exact List.mem_append_left _ earlier
        · intro other earlier
          simpa using fitting other earlier
      · refine .outOfRange ?_ (by simpa using refused)
        exact Text.isInteger_toString (fits value member).1 (fits value member).2

/-! ## Written rules -/

variable {rule : Rule} {text : String}

/-- The first word of a rule, which names its kind. -/
def kind : Rule → String
  | .daily _ => "d"
  | .yearly => "y"
  | .weekly _ => "w"
  | .monthly _ _ => "m"

/-- The words of a rule after the first, in its canonical text. -/
def arguments : Rule → List String
  | .daily interval => [toString interval]
  | .yearly => []
  | .weekly weekdays => [listText weekdays]
  | .monthly days months => listText days :: if months.isEmpty then [] else [listText months]

theorem isWord_kind (rule : Rule) : Text.IsWord rule.kind := by
  have unbroken : rule.kind.toList.any Text.isBlankChar = false := by
    cases rule <;> rw [kind] <;> decide
  refine ⟨by cases rule <;> rw [kind] <;> decide, ?_⟩
  intro char member
  exact Bool.eq_false_iff.2 (List.any_eq_false.1 unbroken char member)

theorem words_pair
    {front kind list : String}
    (parted : front = kind ++ " ")
    (isKind : Text.IsWord kind)
    (isList : Text.IsWord list) :
    Text.words (front ++ list) = [kind, list] := by
  rw [parted, isKind.words_append, isList.words_eq]

theorem words_text
    (listed : rule.IsListed) :
    Text.words rule.text = rule.kind :: rule.arguments := by
  cases rule with
  | daily interval =>
      have parted : "d " = "d" ++ " " := by decide
      exact words_pair parted (isWord_kind _) (Text.isWord_toString interval)
  | yearly => decide +kernel
  | weekly weekdays =>
      have parted : "w " = "w" ++ " " := by decide
      exact words_pair parted (isWord_kind _) (isWord_listText listed)
  | monthly days months =>
      have isKind : Text.IsWord "m" := isWord_kind (.monthly days months)
      rw [Rule.text, kind, arguments]
      split
      · exact words_pair (by decide) isKind (isWord_listText listed)
      · rename_i restricted
        rw [Bool.not_eq_true] at restricted
        have parted : "m " ++ listText days ++ " " ++ listText months =
            "m" ++ " " ++ (listText days ++ " " ++ listText months) := by
          simp only [show "m" ++ " " = "m " by decide, String.append_assoc]
        rw [parted, isKind.words_append, (isWord_listText listed).words_append,
          (isWord_listText restricted).words_eq]

theorem readMonthly_arguments
    {days months : IntSet}
    (nonempty : days.isEmpty = false)
    (daysFit : ∀ day ∈ days, Fits64 day)
    (monthsFit : ∀ month ∈ months, Fits64 month) :
    readMonthly (monthly days months).arguments = do
      checkMembers .dayOfMonth days
      checkMembers .month months
      return .monthly days months := by
  have daysRead : readList .dayOfMonth (listText days) = _ := readList_listText nonempty daysFit
  by_cases every : months.isEmpty = true
  · have same : months = ∅ := by
      ext month
      rw [← IntSet.mem_elements, IntSet.isEmpty_iff.1 every, ← IntSet.mem_elements]
      rfl
    subst same
    show (readList .dayOfMonth (listText days) >>= _) = _
    rw [daysRead]
    cases checkMembers .dayOfMonth days <;> rfl
  · rw [Bool.not_eq_true] at every
    have monthsRead : readList .month (listText months) = _ := readList_listText every monthsFit
    rw [arguments, every]
    show (readList .dayOfMonth (listText days) >>= fun _ =>
      readList .month (listText months) >>= _) = _
    rw [daysRead, monthsRead]
    cases checkMembers .dayOfMonth days <;> cases checkMembers .month months <;> rfl

theorem ofText_text_eq
    (listed : rule.IsListed) :
    ofText rule.text =
      ofWords rule.kind rule.arguments >>= fun read => read.check.map fun _ => read := by
  rw [ofText, words_text listed]
  refine bind_congr fun read => ?_
  cases read.check <;> rfl

/-- Reading the canonical text of a rule is checking the rule. -/
theorem ofText_text
    (listed : rule.IsListed)
    (fits : ∀ number ∈ rule.numbers, Fits64 number) :
    ofText rule.text = rule.check.map fun _ => rule := by
  rw [ofText_text_eq listed]
  cases rule with
  | daily interval =>
      have fitting : Fits64 interval := fits interval List.mem_cons_self
      have read : readInteger (toString interval) = .ok (interval : Int) :=
        readInteger_eq_ok_iff.2 (Text.isInteger_toString fitting.1 fitting.2)
      show (readInteger (toString interval) >>= _) >>= _ = _
      rw [read, check]
      by_cases allowed : RuleField.interval.Allows interval
      · simp [check, allowed, bind, Except.bind, Except.map]
      · simp [allowed, bind, Except.bind, Except.map]
  | yearly => rfl
  | weekly weekdays =>
      have read : readList .weekday (listText weekdays) = _ := readList_listText listed fits
      have nonempty : weekdays.isEmpty = false := listed
      show (readList .weekday (listText weekdays) >>= _) >>= _ = _
      rw [read, check, nonempty]
      cases checked : checkMembers .weekday weekdays with
      | error cause => rfl
      | ok => simp [check, nonempty, checked, bind, Except.bind, Except.map, pure, Except.pure]
  | monthly days months =>
      have nonempty : days.isEmpty = false := listed
      have read := readMonthly_arguments nonempty
        (fun day member => fits day (List.mem_append_left _ member))
        (fun month member => fits month (List.mem_append_right _ member))
      show readMonthly (monthly days months).arguments >>= _ = _
      rw [read, check, nonempty]
      cases daysChecked : checkMembers .dayOfMonth days with
      | error cause => rfl
      | ok =>
          cases monthsChecked : checkMembers .month months with
          | error cause => rfl
          | ok => simp [check, nonempty, daysChecked, monthsChecked, bind, Except.bind, pure,
              Except.pure]

/-! ## Checked rules -/

theorem isListed_of_check (checked : rule.check = .ok ()) : rule.IsListed := by
  cases rule with
  | daily | yearly => trivial
  | weekly weekdays =>
      rw [check] at checked
      split at checked
      · cases checked
      · rename_i listed
        exact Bool.eq_false_iff.2 listed
  | monthly days months => exact Bool.eq_false_iff.2 (check_monthly_eq_ok_iff.1 checked).1

theorem fits64_of_allows
    {value : Int}
    (allowed : field.Allows value) :
    Fits64 value := by
  have bounds : -2 ≤ value ∧ value ≤ 400 := by
    cases field <;> simp only [RuleField.Allows] at allowed <;> omega
  exact ⟨Int.le_trans (by decide) bounds.1, Int.le_trans bounds.2 (by decide)⟩

theorem fits64_of_check
    (checked : rule.check = .ok ()) :
    ∀ number ∈ rule.numbers, Fits64 number := by
  intro number member
  cases rule with
  | daily interval =>
      have allowed : RuleField.interval.Allows interval := by
        have bounds := check_daily_eq_ok_iff.1 checked
        simp only [RuleField.Allows]
        omega
      rw [List.mem_singleton.1 member]
      exact fits64_of_allows allowed
  | yearly => cases member
  | weekly weekdays =>
      rw [check] at checked
      split at checked
      · cases checked
      · exact fits64_of_allows (checkMembers_eq_ok_iff.1 checked number member)
  | monthly days months =>
      rcases check_monthly_eq_ok_iff.1 checked with ⟨-, daysAllowed, monthsAllowed, -⟩
      rcases List.mem_append.1 member with day | month
      · exact fits64_of_allows (daysAllowed number day)
      · exact fits64_of_allows (monthsAllowed number month)

/-- A rule that was read is checked, and reading its canonical text gives it again. -/
theorem ofText_text_of_ofText
    (read : ofText text = .ok rule) :
    rule.check = .ok () ∧ ofText rule.text = .ok rule := by
  rcases ofText_eq_ok_iff.1 read with ⟨written, occurs⟩
  have checked := written.check_eq_ok_iff.2 occurs
  refine ⟨checked, ?_⟩
  rw [ofText_text (isListed_of_check checked) (fits64_of_check checked), checked]
  rfl

end Rule

/--
Reading the canonical text of a rule gives what its check gives: the rule, or
the same error.  This asks only that the lists that the rule must have are not
empty and that its numbers fit in 64 bits.  Every rule that is read from any
text passes its check and is read again from its canonical text, and two rules
that are read are the same exactly if their canonical texts are.
-/
theorem ofText_text_agrees :
    (∀ rule : Rule, rule.IsListed → (∀ number ∈ rule.numbers, Rule.Fits64 number) →
      Rule.ofText rule.text = rule.check.map fun _ => rule) ∧
    (∀ text rule, Rule.ofText text = .ok rule →
      rule.check = .ok () ∧ Rule.ofText rule.text = .ok rule) ∧
    (∀ text other rule otherRule, Rule.ofText text = .ok rule →
      Rule.ofText other = .ok otherRule → (rule = otherRule ↔ rule.text = otherRule.text)) := by
  refine ⟨?_, ?_, ?_⟩
  · intro rule listed fits
    exact Rule.ofText_text listed fits
  · intro text rule read
    exact Rule.ofText_text_of_ofText read
  · intro text other rule otherRule read otherRead
    constructor
    · rintro rfl
      rfl
    · intro same
      have again := (Rule.ofText_text_of_ofText read).2
      rw [same, (Rule.ofText_text_of_ofText otherRead).2] at again
      exact (Except.ok.inj again).symm

/-- A month out of range, and rules in forms that are not canonical. -/
theorem ofText_text_agrees_forms :
    Rule.ofText (Rule.monthly (.ofList [7, 19]) (.ofList [13, 1])).text =
      .error (.outOfRange .month 13) ∧
    Rule.ofText "m 19,07 05,+1" = .ok (.monthly (.ofList [7, 19]) (.ofList [1, 5])) ∧
    (Rule.monthly (.ofList [7, 19]) (.ofList [1, 5])).check = .ok () ∧
    Rule.ofText "m 7,19 1,5" = .ok (.monthly (.ofList [7, 19]) (.ofList [1, 5])) ∧
    (Rule.daily 7 = Rule.daily 8 ↔ (Rule.daily 7).text = (Rule.daily 8).text) := by
  have read : Rule.ofText "m 19,07 05,+1" = .ok (.monthly (.ofList [7, 19]) (.ofList [1, 5])) := by
    decide +kernel
  have again := ofText_text_agrees.2.1 _ _ read
  have refused := ofText_text_agrees.1 (.monthly (.ofList [7, 19]) (.ofList [13, 1])) rfl
    (by decide)
  refine ⟨refused.trans (by decide), read, again.1, ?_, ?_⟩
  · have canonical : (Rule.monthly (.ofList [7, 19]) (.ofList [1, 5])).text = "m 7,19 1,5" := by
      decide +kernel
    rw [← canonical]
    exact again.2
  · exact ofText_text_agrees.2.2 " d  07" "d +8" _ _ (by decide +kernel) (by decide +kernel)

end Agenda
