import Agenda.Proofs.Rule.Check
import Agenda.Proofs.Text.Tokens
import Agenda.Result
import Agenda.Rule.Text
import Mathlib.Data.List.Forall2
import Mathlib.Data.List.Induction

/-!
# The grammar of rule text

`Rule.IsWritten` says which words are a rule, and which rule, and
`Rule.IsRefused` which words are none, and with which error.  Neither mentions
a reader.  A list of integers is refused for its first item that is no integer
of its field or repeats an earlier one (`Rule.Offends`); the days of a monthly
rule come before its months, and both before the question whether the rule can
occur.

The main statement is `ofText_grammar`: reading a rule follows this grammar on
every text.
-/

namespace Agenda

namespace Rule

/-! ## Lists of integers -/

/-- The pieces of a text between its commas. -/
def items (list : String) : List String :=
  (list.toList.splitOn ',').map String.ofList

/-- Items that are integers of a field, each value once. -/
structure AreValues (field : RuleField) (items : List String) (values : List Int) : Prop where
  integers : List.Forall₂ Text.IsInteger items values
  allowed : ∀ value ∈ values, field.Allows value
  distinct : values.Nodup

/-- An item that cannot follow the values of a list, with the error that it gives. -/
inductive Offends (field : RuleField) (list : String) (values : List Int) :
    String → RuleError → Prop where
  | empty : Offends field list values "" (.malformed (.emptyItem field list))
  | notAnInteger {item : String} (nonempty : item ≠ "")
    (unread : ∀ value, ¬ Text.IsInteger item value) :
    Offends field list values item (.malformed (.notAnInteger item))
  | outOfRange {item : String} {value : Int} (read : Text.IsInteger item value)
    (refused : ¬ field.Allows value) :
    Offends field list values item (.outOfRange field value)
  | duplicate {item : String} {value : Int} (read : Text.IsInteger item value)
    (allowed : field.Allows value) (present : value ∈ values) :
    Offends field list values item (.malformed (.duplicate field value list))

/-- The first item of a list that offends gives its error. -/
def IsRefusedList (field : RuleField) (list : String) (error : RuleError) : Prop :=
  ∃ (before : List String) (item : String) (after : List String) (values : List Int),
    items list = before ++ item :: after ∧ AreValues field before values ∧
      Offends field list values item error

variable {field : RuleField} {list item : String} {values : List Int} {error : RuleError}

theorem readInteger_eq_ok_iff
    {value : Int} :
    readInteger item = .ok value ↔ Text.IsInteger item value := by
  rw [← Text.readInt?_eq_some_iff, readInteger]
  cases Text.readInt? item <;> simp

theorem readInteger_eq_error_iff :
    readInteger item = .error error ↔
      error = .malformed (.notAnInteger item) ∧ ∀ value, ¬ Text.IsInteger item value := by
  rw [← Text.readInt?_eq_none_iff, readInteger]
  cases Text.readInt? item <;> simp [eq_comm]

theorem ofList_append_singleton (values : List Int) (value : Int) :
    IntSet.ofList (values ++ [value]) = (IntSet.ofList values).insert value := by
  ext other
  simp [or_comm]

theorem not_isInteger_empty (value : Int) : ¬ Text.IsInteger "" value := by
  intro read
  have found := Text.readInt?_eq_some_iff.2 read
  cases found

theorem readItem_eq_ok_iff
    {set : IntSet} :
    readItem field list (.ofList values) item = .ok set ↔
      ∃ value, Text.IsInteger item value ∧ field.Allows value ∧ value ∉ values ∧
        set = .ofList (values ++ [value]) := by
  rw [readItem]
  split
  · rename_i empty
    subst empty
    simp [not_isInteger_empty]
  · simp only [bind_eq_ok_iff, readInteger_eq_ok_iff, ofList_append_singleton,
      IntSet.mem_ofList]
    refine exists_congr fun value => and_congr_right fun _ => ?_
    split
    · simp_all
    · split <;> simp_all [eq_comm]

theorem readItem_eq_error_iff :
    readItem field list (.ofList values) item = .error error ↔
      Offends field list values item error := by
  rw [readItem]
  constructor
  · split
    · rename_i empty
      rintro ⟨⟩
      rw [empty]
      exact .empty
    · rename_i nonempty
      intro failed
      rcases bind_eq_error_iff.1 failed with unread | ⟨value, read, failed⟩
      · rcases readInteger_eq_error_iff.1 unread with ⟨rfl, noInteger⟩
        exact .notAnInteger nonempty noInteger
      · have integer := readInteger_eq_ok_iff.1 read
        split at failed
        · rename_i refused
          cases failed
          exact .outOfRange integer refused
        · rename_i allowed
          split at failed
          · rename_i present
            cases failed
            exact .duplicate integer (Decidable.not_not.1 allowed) (IntSet.mem_ofList.1 present)
          · cases failed
  · intro offends
    have nonempty {value : Int} (read : Text.IsInteger item value) : item ≠ "" := by
      rintro rfl
      exact not_isInteger_empty value read
    cases offends with
    | empty => exact if_pos rfl
    | notAnInteger nonempty unread =>
        rw [if_neg nonempty]
        exact bind_eq_error_iff.2 (.inl (readInteger_eq_error_iff.2 ⟨rfl, unread⟩))
    | outOfRange read refused =>
        rw [if_neg (nonempty read)]
        refine bind_eq_error_iff.2 (.inr ⟨_, readInteger_eq_ok_iff.2 read, ?_⟩)
        exact if_pos refused
    | duplicate read allowed present =>
        rw [if_neg (nonempty read)]
        refine bind_eq_error_iff.2 (.inr ⟨_, readInteger_eq_ok_iff.2 read, ?_⟩)
        rw [if_neg (not_not_intro allowed), if_pos (IntSet.mem_ofList.2 present)]

theorem forall₂_append_singleton_iff
    {α β : Type} {relation : α → β → Prop} {front : List α} {last : α} {images : List β} :
    List.Forall₂ relation (front ++ [last]) images ↔
      ∃ earlier image, images = earlier ++ [image] ∧ List.Forall₂ relation front earlier ∧
        relation last image := by
  constructor
  · intro related
    rw [← List.forall₂_reverse_iff, List.reverse_append, List.reverse_singleton,
      List.singleton_append, List.forall₂_cons_left_iff] at related
    rcases related with ⟨image, earlier, lastRelated, frontRelated, reversed⟩
    refine ⟨earlier.reverse, image, ?_, ?_, lastRelated⟩
    · rw [← List.reverse_cons, ← reversed, List.reverse_reverse]
    · rw [← List.forall₂_reverse_iff, List.reverse_reverse]
      exact frontRelated
  · rintro ⟨earlier, image, rfl, frontRelated, lastRelated⟩
    exact List.rel_append frontRelated (.cons lastRelated .nil)

/-- The values of a list are the values before its last item, and one new value. -/
theorem areValues_append_singleton_iff
    {before : List String} :
    AreValues field (before ++ [item]) values ↔
      ∃ earlier value, values = earlier ++ [value] ∧ AreValues field before earlier ∧
        Text.IsInteger item value ∧ field.Allows value ∧ value ∉ earlier := by
  constructor
  · rintro ⟨integers, allowed, distinct⟩
    rcases forall₂_append_singleton_iff.1 integers with ⟨earlier, value, rfl, front, read⟩
    rw [List.nodup_append] at distinct
    refine ⟨earlier, value, rfl, ⟨front, ?_, distinct.1⟩, read, ?_, ?_⟩
    · intro other member
      exact allowed other (List.mem_append_left [value] member)
    · exact allowed value (List.mem_append_right earlier List.mem_cons_self)
    · intro member
      exact distinct.2.2 value member value List.mem_cons_self rfl
  · rintro ⟨earlier, value, rfl, ⟨front, allowed, distinct⟩, read, valueAllowed, fresh⟩
    refine ⟨forall₂_append_singleton_iff.2 ⟨earlier, value, rfl, front, read⟩, ?_, ?_⟩
    · intro other member
      rcases List.mem_append.1 member with old | new
      · exact allowed other old
      · rwa [List.mem_singleton.1 new]
    · refine List.nodup_append.2 ⟨distinct, List.pairwise_singleton _ value, ?_⟩
      rintro other member _ new rfl
      rw [List.mem_singleton.1 new] at member
      exact fresh member

/-- Items read without an error are values, and the set holds exactly these. -/
theorem foldlM_readItem_eq_ok_iff
    {items : List String} {set : IntSet} :
    items.foldlM (readItem field list) ∅ = .ok set ↔
      ∃ values, AreValues field items values ∧ set = .ofList values := by
  induction items using List.reverseRecOn generalizing set with
  | nil =>
      constructor
      · rintro ⟨⟩
        exact ⟨[], ⟨.nil, by simp, .nil⟩, rfl⟩
      · rintro ⟨values, ⟨integers, -, -⟩, rfl⟩
        rw [List.forall₂_nil_left_iff.1 integers]
        rfl
  | append_singleton before item ih =>
      rw [List.foldlM_append]
      simp only [List.foldlM_cons, List.foldlM_nil, bind_pure, bind_eq_ok_iff, ih,
        areValues_append_singleton_iff]
      constructor
      · rintro ⟨_, ⟨earlier, front, rfl⟩, read⟩
        rcases readItem_eq_ok_iff.1 read with ⟨value, integer, allowed, fresh, rfl⟩
        exact ⟨_, ⟨earlier, value, rfl, front, integer, allowed, fresh⟩, rfl⟩
      · rintro ⟨_, ⟨earlier, value, rfl, front, integer, allowed, fresh⟩, rfl⟩
        exact ⟨_, ⟨earlier, front, rfl⟩,
          readItem_eq_ok_iff.2 ⟨value, integer, allowed, fresh, rfl⟩⟩

/-- Reading ends at the first item that offends. -/
theorem foldlM_readItem_eq_error_iff
    {items : List String} :
    items.foldlM (readItem field list) ∅ = .error error ↔
      ∃ before item after values, items = before ++ item :: after ∧
        AreValues field before values ∧ Offends field list values item error := by
  induction items using List.reverseRecOn with
  | nil =>
      constructor
      · rintro ⟨⟩
      · rintro ⟨before, item, after, -, split, -⟩
        simp at split
  | append_singleton front last ih =>
      rw [List.foldlM_append]
      simp only [List.foldlM_cons, List.foldlM_nil, bind_pure, bind_eq_error_iff, ih,
        foldlM_readItem_eq_ok_iff]
      constructor
      · rintro (⟨before, item, after, values, rfl, read, offends⟩ |
          ⟨_, ⟨values, read, rfl⟩, failed⟩)
        · exact ⟨before, item, after ++ [last], values, by simp, read, offends⟩
        · exact ⟨front, last, [], values, rfl, read, readItem_eq_error_iff.1 failed⟩
      · rintro ⟨before, item, after, values, split, read, offends⟩
        rcases List.eq_nil_or_concat after with rfl | ⟨middle, final, rfl⟩
        · rcases List.append_singleton_inj.1 split with ⟨rfl, rfl⟩
          exact .inr ⟨_, ⟨values, read, rfl⟩, readItem_eq_error_iff.2 offends⟩
        · rw [List.concat_eq_append, ← List.cons_append, ← List.append_assoc] at split
          rcases List.append_singleton_inj.1 split with ⟨rfl, rfl⟩
          exact .inl ⟨before, item, middle, values, rfl, read, offends⟩

/-! ## The lists of a rule -/

theorem readList_eq_ok_iff
    {set : IntSet} :
    readList field list = .ok set ↔
      ∃ values, AreValues field (items list) values ∧ set = .ofList values :=
  foldlM_readItem_eq_ok_iff

theorem readList_eq_error_iff :
    readList field list = .error error ↔ IsRefusedList field list error :=
  foldlM_readItem_eq_error_iff

theorem items_ne_nil (list : String) : items list ≠ [] := by
  rw [items, ne_eq, List.map_eq_nil_iff]
  exact List.splitOn_ne_nil ',' list.toList

/-- A list of a rule has a value. -/
theorem AreValues.isEmpty_ofList
    (read : AreValues field (items list) values) :
    (IntSet.ofList values).isEmpty = false := by
  rw [Bool.eq_false_iff, ne_eq, IntSet.isEmpty_iff]
  intro empty
  cases values with
  | nil => exact items_ne_nil list (List.forall₂_nil_right_iff.1 read.integers)
  | cons value rest =>
      have member : value ∈ IntSet.ofList (value :: rest) := IntSet.mem_ofList.2 List.mem_cons_self
      rw [← IntSet.mem_elements, empty] at member
      cases member

theorem AreValues.checkMembers_ofList
    (read : AreValues field (items list) values) :
    checkMembers field (.ofList values) = .ok () := by
  rw [checkMembers_eq_ok_iff]
  intro value member
  exact read.allowed value (IntSet.mem_ofList.1 member)

/-! ## Words -/

/-- The months of a monthly rule; without a list, every month is meant. -/
inductive AreMonths : List String → List Int → Prop where
  | every : AreMonths [] []
  | listed {list : String} {months : List Int} (read : AreValues .month (items list) months) :
    AreMonths [list] months

/-- The words of a rule. -/
inductive IsWritten : List String → Rule → Prop where
  | daily {item : String} {interval : Nat} (read : Text.IsInteger item interval)
    (allowed : RuleField.interval.Allows interval) :
    IsWritten ["d", item] (.daily interval)
  | yearly : IsWritten ["y"] .yearly
  | weekly {list : String} {weekdays : List Int}
    (read : AreValues .weekday (items list) weekdays) :
    IsWritten ["w", list] (.weekly (.ofList weekdays))
  | monthly {list : String} {rest : List String} {days months : List Int}
    (read : AreValues .dayOfMonth (items list) days) (restRead : AreMonths rest months) :
    IsWritten ("m" :: list :: rest) (.monthly (.ofList days) (.ofList months))

/-- A monthly rule occurs if it selects some date; the other rules always do. -/
def Occurs : Rule → Prop
  | .monthly days months => SelectsDate days months
  | .daily _ | .yearly | .weekly _ => True

/-- Words that do not spell a rule, with the error that they give. -/
inductive IsMisspelled : List String → RuleError → Prop where
  | unknownKind {kind : String} {arguments : List String}
    (unknown : kind ∉ ["d", "y", "w", "m"]) :
    IsMisspelled (kind :: arguments) (.unknownRule kind)
  | dailyArguments {arguments : List String} (count : arguments.length ≠ 1) :
    IsMisspelled ("d" :: arguments) (.malformed (.dailyArguments arguments.length))
  | yearlyArguments {arguments : List String} (count : arguments.length ≠ 0) :
    IsMisspelled ("y" :: arguments) (.malformed (.yearlyArguments arguments))
  | weeklyArguments {arguments : List String} (count : arguments.length ≠ 1) :
    IsMisspelled ("w" :: arguments) (.malformed (.weeklyArguments arguments.length))
  | monthlyArguments {arguments : List String}
    (count : arguments.length ≠ 1 ∧ arguments.length ≠ 2) :
    IsMisspelled ("m" :: arguments) (.malformed (.monthlyArguments arguments.length))
  | intervalUnread {item : String} (unread : ∀ value, ¬ Text.IsInteger item value) :
    IsMisspelled ["d", item] (.malformed (.notAnInteger item))
  | intervalOutOfRange {item : String} {value : Int} (read : Text.IsInteger item value)
    (refused : ¬ RuleField.interval.Allows value) :
    IsMisspelled ["d", item] (.outOfRange .interval value)
  | weekdays {list : String} {error : RuleError} (refused : IsRefusedList .weekday list error) :
    IsMisspelled ["w", list] error
  | days {list : String} {rest : List String} {error : RuleError} (count : rest.length ≤ 1)
    (refused : IsRefusedList .dayOfMonth list error) :
    IsMisspelled ("m" :: list :: rest) error
  | months {list monthList : String} {days : List Int} {error : RuleError}
    (read : AreValues .dayOfMonth (items list) days)
    (refused : IsRefusedList .month monthList error) :
    IsMisspelled ["m", list, monthList] error

/-- The words of a text that is no rule, with the error that the text gives. -/
inductive IsRefused (text : String) : List String → RuleError → Prop where
  | noWords : IsRefused text [] (.unknownRule text)
  | misspelled {words : List String} {error : RuleError} (misspelled : IsMisspelled words error) :
    IsRefused text words error
  | neverOccurs {words : List String} {days months : IntSet} {last : Int}
    (written : IsWritten words (.monthly days months)) (never : ¬ SelectsDate days months)
    (greatest : last ∈ days ∧ ∀ day ∈ days, day ≤ last) :
    IsRefused text words (.outOfRange .dayOfMonth last)

variable {kind text : String} {arguments words rest : List String} {rule : Rule} {months : List Int}

theorem AreMonths.allowed
    (read : AreMonths rest months) :
    ∀ month ∈ months, RuleField.month.Allows month := by
  cases read with
  | every => intro month member; cases member
  | listed read => exact read.allowed

theorem check_monthly_of_areValues
    {days : List Int}
    (read : AreValues .dayOfMonth (items list) days)
    (restRead : AreMonths rest months) :
    (monthly (.ofList days) (.ofList months)).check =
      if canOccur (.ofList days) (.ofList months) then .ok ()
      else .error (.outOfRange .dayOfMonth ((IntSet.ofList days).elements.getLast?.getD 0)) := by
  have monthsFit : checkMembers .month (.ofList months) = .ok () := by
    rw [checkMembers_eq_ok_iff]
    intro month member
    exact restRead.allowed month (IntSet.mem_ofList.1 member)
  rw [check, if_neg (by rw [read.isEmpty_ofList]; decide), read.checkMembers_ofList, monthsFit]
  rfl

theorem canOccur_ofList_iff
    {days : List Int}
    (read : AreValues .dayOfMonth (items list) days)
    (restRead : AreMonths rest months) :
    canOccur (.ofList days) (.ofList months) = true ↔
      SelectsDate (.ofList days) (.ofList months) := by
  apply canOccur_eq_true_iff
  · intro day member
    exact read.allowed day (IntSet.mem_ofList.1 member)
  · intro month member
    exact restRead.allowed month (IntSet.mem_ofList.1 member)

/-- What the check adds to the grammar is the question whether a monthly rule can occur. -/
theorem IsWritten.check_eq_ok_iff
    (written : IsWritten words rule) :
    rule.check = .ok () ↔ rule.Occurs := by
  cases written with
  | daily read allowed => simp [check, Occurs, allowed]
  | yearly => simp [check, Occurs]
  | weekly read => simp [check, Occurs, read.isEmpty_ofList, read.checkMembers_ofList]
  | monthly read restRead =>
      rw [check_monthly_of_areValues read restRead, Occurs, ← canOccur_ofList_iff read restRead]
      split <;> simp_all

theorem IsWritten.check_eq_error_iff
    (written : IsWritten words rule) :
    rule.check = .error error ↔
      ∃ days months last, rule = .monthly days months ∧ ¬ SelectsDate days months ∧
        (last ∈ days ∧ ∀ day ∈ days, day ≤ last) ∧ error = .outOfRange .dayOfMonth last := by
  cases written with
  | daily read allowed => simp [check, allowed]
  | yearly => simp [check]
  | weekly read => simp [check, read.isEmpty_ofList, read.checkMembers_ofList]
  | @monthly list rest days months read restRead =>
      rw [check_monthly_of_areValues read restRead]
      have occurs := canOccur_ofList_iff read restRead
      constructor
      · intro refused
        split at refused
        · cases refused
        · rename_i never
          cases refused
          cases found : (IntSet.ofList days).elements.getLast? with
          | none =>
              have empty := IntSet.isEmpty_iff.2 (List.getLast?_eq_none_iff.1 found)
              rw [read.isEmpty_ofList] at empty
              cases empty
          | some last =>
              exact ⟨_, _, last, rfl, mt occurs.2 never,
                IntSet.getLast?_elements_eq_some_iff.1 found, rfl⟩
      · rintro ⟨_, _, last, same, never, greatest, rfl⟩
        cases same
        rw [if_neg (mt occurs.1 never), IntSet.getLast?_elements_eq_some_iff.2 greatest,
          Option.getD_some]

/-! ## Reading words -/

theorem readDaily_eq_ok_iff :
    readDaily arguments = .ok rule ↔ IsWritten ("d" :: arguments) rule := by
  constructor
  · intro read
    unfold readDaily at read
    split at read
    · rcases exists_of_bind_eq_ok read with ⟨value, integer, read⟩
      split at read
      · rename_i allowed
        cases read
        simp only [RuleField.Allows] at allowed
        have counted : (value.toNat : Int) = value := Int.toNat_of_nonneg (by omega)
        refine .daily ?_ ?_
        · rw [counted]
          exact readInteger_eq_ok_iff.1 integer
        · rw [counted]
          exact allowed
      · cases read
    · cases read
  · intro written
    generalize same : "d" :: arguments = words at written
    cases written with
    | daily read allowed =>
        cases same
        rw [readDaily]
        refine bind_eq_ok_iff.2 ⟨_, readInteger_eq_ok_iff.2 read, ?_⟩
        rw [if_pos allowed, Int.toNat_natCast]
    | yearly | weekly | monthly => simp at same

theorem readYearly_eq_ok_iff :
    readYearly arguments = .ok rule ↔ IsWritten ("y" :: arguments) rule := by
  constructor
  · intro read
    unfold readYearly at read
    split at read
    · cases read
      exact .yearly
    · cases read
  · intro written
    generalize same : "y" :: arguments = words at written
    cases written with
    | yearly =>
        cases same
        rfl
    | daily | weekly | monthly => simp at same

theorem readWeekly_eq_ok_iff :
    readWeekly arguments = .ok rule ↔ IsWritten ("w" :: arguments) rule := by
  constructor
  · intro read
    unfold readWeekly at read
    split at read
    · rcases exists_of_bind_eq_ok read with ⟨set, listRead, same⟩
      rcases readList_eq_ok_iff.1 listRead with ⟨weekdays, values, rfl⟩
      cases same
      exact .weekly values
    · cases read
  · intro written
    generalize same : "w" :: arguments = words at written
    cases written with
    | weekly read =>
        cases same
        rw [readWeekly]
        exact bind_eq_ok_iff.2 ⟨_, readList_eq_ok_iff.2 ⟨_, read, rfl⟩, rfl⟩
    | daily | yearly | monthly => simp at same

theorem readMonthly_eq_ok_iff :
    readMonthly arguments = .ok rule ↔ IsWritten ("m" :: arguments) rule := by
  constructor
  · intro read
    unfold readMonthly at read
    split at read
    · rcases exists_of_bind_eq_ok read with ⟨set, listRead, same⟩
      rcases readList_eq_ok_iff.1 listRead with ⟨days, values, rfl⟩
      cases same
      exact .monthly values .every
    · rcases exists_of_bind_eq_ok read with ⟨set, listRead, read⟩
      rcases exists_of_bind_eq_ok read with ⟨monthSet, monthsRead, same⟩
      rcases readList_eq_ok_iff.1 listRead with ⟨days, values, rfl⟩
      rcases readList_eq_ok_iff.1 monthsRead with ⟨months, monthValues, rfl⟩
      cases same
      exact .monthly values (.listed monthValues)
    · cases read
  · intro written
    generalize same : "m" :: arguments = words at written
    cases written with
    | daily | yearly | weekly => simp at same
    | monthly read restRead =>
        cases same
        have daysRead := readList_eq_ok_iff.2 ⟨_, read, rfl⟩
        cases restRead with
        | every => exact bind_eq_ok_iff.2 ⟨_, daysRead, rfl⟩
        | listed monthsRead =>
            refine bind_eq_ok_iff.2 ⟨_, daysRead, ?_⟩
            exact bind_eq_ok_iff.2 ⟨_, readList_eq_ok_iff.2 ⟨_, monthsRead, rfl⟩, rfl⟩

theorem ofWords_eq_ok_iff :
    ofWords kind arguments = .ok rule ↔ IsWritten (kind :: arguments) rule := by
  unfold ofWords
  split
  · exact readDaily_eq_ok_iff
  · exact readYearly_eq_ok_iff
  · exact readWeekly_eq_ok_iff
  · exact readMonthly_eq_ok_iff
  · rename_i notDaily notYearly notWeekly notMonthly
    simp only [reduceCtorEq, false_iff]
    intro written
    cases written <;> contradiction

theorem readDaily_eq_error_iff :
    readDaily arguments = .error error ↔ IsMisspelled ("d" :: arguments) error := by
  constructor
  · intro failed
    unfold readDaily at failed
    split at failed
    · rcases bind_eq_error_iff.1 failed with unread | ⟨value, integer, failed⟩
      · rcases readInteger_eq_error_iff.1 unread with ⟨rfl, noInteger⟩
        exact .intervalUnread noInteger
      · split at failed
        · cases failed
        · rename_i refused
          cases failed
          exact .intervalOutOfRange (readInteger_eq_ok_iff.1 integer) refused
    · rename_i several
      cases failed
      refine .dailyArguments ?_
      intro single
      rcases List.length_eq_one_iff.1 single with ⟨item, rfl⟩
      exact several item rfl
  · intro misspelled
    generalize same : "d" :: arguments = words at misspelled
    cases misspelled with
    | yearlyArguments | weeklyArguments | monthlyArguments | weekdays | days | months =>
        simp at same
    | unknownKind unknown =>
        cases same
        simp at unknown
    | dailyArguments count =>
        cases same
        unfold readDaily
        split
        · exact absurd rfl count
        · rfl
    | intervalUnread unread =>
        cases same
        exact bind_eq_error_iff.2 (.inl (readInteger_eq_error_iff.2 ⟨rfl, unread⟩))
    | intervalOutOfRange read refused =>
        cases same
        refine bind_eq_error_iff.2 (.inr ⟨_, readInteger_eq_ok_iff.2 read, ?_⟩)
        exact if_neg refused

theorem readYearly_eq_error_iff :
    readYearly arguments = .error error ↔ IsMisspelled ("y" :: arguments) error := by
  constructor
  · intro failed
    unfold readYearly at failed
    split at failed
    · cases failed
    · rename_i several
      cases failed
      refine .yearlyArguments ?_
      intro none
      exact several (List.length_eq_zero_iff.1 none)
  · intro misspelled
    generalize same : "y" :: arguments = words at misspelled
    cases misspelled with
    | dailyArguments | weeklyArguments | monthlyArguments | intervalUnread | intervalOutOfRange
    | weekdays | days | months => simp at same
    | unknownKind unknown =>
        cases same
        simp at unknown
    | yearlyArguments count =>
        cases same
        unfold readYearly
        split
        · exact absurd rfl count
        · rfl

theorem readWeekly_eq_error_iff :
    readWeekly arguments = .error error ↔ IsMisspelled ("w" :: arguments) error := by
  constructor
  · intro failed
    unfold readWeekly at failed
    split at failed
    · rcases bind_eq_error_iff.1 failed with refused | ⟨set, read, failed⟩
      · exact .weekdays (readList_eq_error_iff.1 refused)
      · cases failed
    · rename_i several
      cases failed
      refine .weeklyArguments ?_
      intro single
      rcases List.length_eq_one_iff.1 single with ⟨item, rfl⟩
      exact several item rfl
  · intro misspelled
    generalize same : "w" :: arguments = words at misspelled
    cases misspelled with
    | dailyArguments | yearlyArguments | monthlyArguments | intervalUnread | intervalOutOfRange
    | days | months => simp at same
    | unknownKind unknown =>
        cases same
        simp at unknown
    | weeklyArguments count =>
        cases same
        unfold readWeekly
        split
        · exact absurd rfl count
        · rfl
    | weekdays refused =>
        cases same
        exact bind_eq_error_iff.2 (.inl (readList_eq_error_iff.2 refused))

theorem readMonthly_eq_error_iff :
    readMonthly arguments = .error error ↔ IsMisspelled ("m" :: arguments) error := by
  constructor
  · intro failed
    unfold readMonthly at failed
    split at failed
    · rcases bind_eq_error_iff.1 failed with refused | ⟨set, read, failed⟩
      · exact .days (Nat.zero_le 1) (readList_eq_error_iff.1 refused)
      · cases failed
    · rcases bind_eq_error_iff.1 failed with refused | ⟨set, read, failed⟩
      · exact .days (Nat.le_refl 1) (readList_eq_error_iff.1 refused)
      · rcases readList_eq_ok_iff.1 read with ⟨days, values, rfl⟩
        rcases bind_eq_error_iff.1 failed with refused | ⟨monthSet, monthsRead, failed⟩
        · exact .months values (readList_eq_error_iff.1 refused)
        · cases failed
    · rename_i notOne notTwo
      cases failed
      refine .monthlyArguments ⟨?_, ?_⟩
      · intro single
        rcases List.length_eq_one_iff.1 single with ⟨item, rfl⟩
        exact notOne item rfl
      · intro pair
        rcases List.length_eq_two.1 pair with ⟨first, second, rfl⟩
        exact notTwo first second rfl
  · intro misspelled
    generalize same : "m" :: arguments = words at misspelled
    cases misspelled with
    | dailyArguments | yearlyArguments | weeklyArguments | intervalUnread | intervalOutOfRange
    | weekdays => simp at same
    | unknownKind unknown =>
        cases same
        simp at unknown
    | monthlyArguments count =>
        cases same
        unfold readMonthly
        split
        · exact absurd rfl count.1
        · exact absurd rfl count.2
        · rfl
    | @days list rest _ count refused =>
        cases same
        have failed := readList_eq_error_iff.2 refused
        match rest, count with
        | [], _ => exact bind_eq_error_iff.2 (.inl failed)
        | [_], _ => exact bind_eq_error_iff.2 (.inl failed)
    | months read refused =>
        cases same
        refine bind_eq_error_iff.2 (.inr ⟨_, readList_eq_ok_iff.2 ⟨_, read, rfl⟩, ?_⟩)
        exact bind_eq_error_iff.2 (.inl (readList_eq_error_iff.2 refused))

theorem ofWords_eq_error_iff :
    ofWords kind arguments = .error error ↔ IsMisspelled (kind :: arguments) error := by
  unfold ofWords
  split
  · exact readDaily_eq_error_iff
  · exact readYearly_eq_error_iff
  · exact readWeekly_eq_error_iff
  · exact readMonthly_eq_error_iff
  · rename_i notDaily notYearly notWeekly notMonthly
    constructor
    · rintro ⟨⟩
      refine .unknownKind ?_
      simp only [List.mem_cons, List.not_mem_nil, or_false, not_or]
      exact ⟨notDaily, notYearly, notWeekly, notMonthly⟩
    · intro misspelled
      cases misspelled with
      | unknownKind => rfl
      | dailyArguments | yearlyArguments | weeklyArguments | monthlyArguments | intervalUnread
      | intervalOutOfRange | weekdays | days | months => contradiction

/-! ## Reading texts -/

/-- A text is read as the rule that its words are, if the rule can occur. -/
theorem ofText_eq_ok_iff :
    ofText text = .ok rule ↔ IsWritten (Text.words text) rule ∧ rule.Occurs := by
  rw [ofText]
  cases Text.words text with
  | nil =>
      simp only [reduceCtorEq, false_iff]
      rintro ⟨written, -⟩
      cases written
  | cons kind arguments =>
      simp only [bind_eq_ok_iff, ofWords_eq_ok_iff]
      constructor
      · rintro ⟨read, written, _, checked, same⟩
        cases same
        exact ⟨written, written.check_eq_ok_iff.1 checked⟩
      · rintro ⟨written, occurs⟩
        exact ⟨rule, written, (), written.check_eq_ok_iff.2 occurs, rfl⟩

/-- A text is refused for its words, or because its rule never occurs. -/
theorem ofText_eq_error_iff :
    ofText text = .error error ↔ IsRefused text (Text.words text) error := by
  rw [ofText]
  cases Text.words text with
  | nil =>
      constructor
      · rintro ⟨⟩
        exact .noWords
      · intro refused
        cases refused with
        | noWords => rfl
        | misspelled misspelled => cases misspelled
        | neverOccurs written => cases written
  | cons kind arguments =>
      simp only [bind_eq_error_iff, ofWords_eq_error_iff, ofWords_eq_ok_iff]
      constructor
      · rintro (misspelled | ⟨read, written, refused | ⟨_, -, same⟩⟩)
        · exact .misspelled misspelled
        · rcases written.check_eq_error_iff.1 refused with
            ⟨days, months, last, rfl, never, greatest, rfl⟩
          exact .neverOccurs written never greatest
        · cases same
      · intro refused
        cases refused with
        | misspelled misspelled => exact .inl misspelled
        | neverOccurs written never greatest =>
            refine .inr ⟨_, written, .inl ?_⟩
            exact written.check_eq_error_iff.2 ⟨_, _, _, rfl, never, greatest, rfl⟩

/-- No known kind of rule starts with the words. -/
theorem exists_unknownRule_iff :
    (∃ word, ofText text = .error (.unknownRule word)) ↔
      ∀ kind ∈ (Text.words text).head?, kind ∉ ["d", "y", "w", "m"] := by
  simp only [ofText_eq_error_iff]
  constructor
  · rintro ⟨word, refused⟩ kind first
    generalize Text.words text = words at refused first
    cases refused with
    | noWords => cases first
    | misspelled misspelled =>
        cases misspelled with
        | unknownKind unknown =>
            cases first
            exact unknown
        | weekdays refused | days _ refused | months _ refused =>
            rcases refused with ⟨_, _, _, _, -, -, offends⟩
            cases offends
  · intro unknown
    generalize Text.words text = words at unknown ⊢
    cases words with
    | nil => exact ⟨text, .noWords⟩
    | cons kind arguments => exact ⟨kind, .misspelled (.unknownKind (unknown kind rfl))⟩

end Rule

/--
Reading a rule follows its grammar on every text: exactly the texts whose words
are a rule that can occur are read, as that rule, and every other text gives
the error of its first fault.  The kind of the rule is at fault exactly if
there are no words or the first one names none of the four kinds.
-/
theorem ofText_grammar (text : String) :
    (∀ rule, Rule.ofText text = .ok rule ↔
      Rule.IsWritten (Text.words text) rule ∧ rule.Occurs) ∧
    (∀ error, Rule.ofText text = .error error ↔
      Rule.IsRefused text (Text.words text) error) ∧
    ((∃ word, Rule.ofText text = .error (.unknownRule word)) ↔
      ∀ kind ∈ (Text.words text).head?, kind ∉ ["d", "y", "w", "m"]) := by
  refine ⟨?_, ?_, Rule.exists_unknownRule_iff⟩
  · intro rule
    exact Rule.ofText_eq_ok_iff
  · intro error
    exact Rule.ofText_eq_error_iff

/-- A value is repeated in another form, and the days come before the months. -/
example : Rule.ofText "m 1,+01 13" =
    .error (.malformed (.duplicate .dayOfMonth 1 "1,+01")) := by
  decide +kernel

end Agenda
