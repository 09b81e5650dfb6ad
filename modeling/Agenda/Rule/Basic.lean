import Agenda.IntSet

/-!
# Repeat rules

A rule says on which days a task falls due again.  `Rule.check` accepts the
rules that can be followed; its errors are the same causes that a reader of
rule text reports, so they share one type.
-/

namespace Agenda

/-- How a task repeats. -/
inductive Rule where
  /-- Every `interval` days. -/
  | daily (interval : Nat)
  /-- Every year on the month and day of the anchor. -/
  | yearly
  /-- On the given weekdays, 1 for Monday to 7 for Sunday. -/
  | weekly (weekdays : IntSet)
  /--
  On the given days of the month, where −1 is the last day and −2 the one
  before it, in the given months, or in every month if none is given.
  -/
  | monthly (days months : IntSet)
  deriving DecidableEq

/-- The kinds of number in a rule. -/
inductive RuleField where
  | interval
  | weekday
  | dayOfMonth
  | month
  deriving DecidableEq

/-- The name of a field in error texts. -/
def RuleField.name : RuleField → String
  | .interval => "interval"
  | .weekday => "weekday"
  | .dayOfMonth => "day of month"
  | .month => "month"

/-- The values that a field takes. -/
def RuleField.Allows : RuleField → Int → Prop
  | .interval, value => 1 ≤ value ∧ value ≤ 400
  | .weekday, value => 1 ≤ value ∧ value ≤ 7
  | .dayOfMonth, value => 1 ≤ value ∧ value ≤ 31 ∨ value = -1 ∨ value = -2
  | .month, value => 1 ≤ value ∧ value ≤ 12

instance (field : RuleField) (value : Int) : Decidable (field.Allows value) := by
  cases field <;> unfold RuleField.Allows <;> infer_instance

/-- What makes a rule malformed. -/
inductive RuleFlaw where
  /-- A yearly rule with arguments. -/
  | yearlyArguments (arguments : List String)
  /-- A daily rule without exactly one argument. -/
  | dailyArguments (count : Nat)
  /-- A weekly rule without exactly one argument. -/
  | weeklyArguments (count : Nat)
  /-- A monthly rule without one or two arguments. -/
  | monthlyArguments (count : Nat)
  /-- A list with nothing between two commas, or at an end. -/
  | emptyItem (field : RuleField) (list : String)
  /-- A text in the place of an integer. -/
  | notAnInteger (text : String)
  /-- A list that holds a value twice. -/
  | duplicate (field : RuleField) (value : Int) (list : String)
  /-- A weekly rule without weekdays. -/
  | noWeekdays
  /-- A monthly rule without days. -/
  | noDays
  deriving DecidableEq

/-- The wording of a flaw. -/
def RuleFlaw.message : RuleFlaw → String
  | .yearlyArguments arguments =>
    "yearly rule takes no arguments, got '" ++ " ".intercalate arguments ++ "'"
  | .dailyArguments count => s!"daily rule expects exactly one interval, got {count} arguments"
  | .weeklyArguments count => s!"weekly rule expects one weekday list, got {count} arguments"
  | .monthlyArguments count =>
    s!"monthly rule expects a day list and an optional month list, got {count} arguments"
  | .emptyItem field list => s!"empty {field.name} in '{list}'"
  | .notAnInteger text => s!"'{text}' is not an integer"
  | .duplicate field value list => s!"duplicate {field.name} {value} in '{list}'"
  | .noWeekdays => "weekday list is empty"
  | .noDays => "day-of-month list is empty"

/-- Why a rule, or a text in the place of one, is refused. -/
inductive RuleError where
  /-- The rule is of a known kind and has a flaw. -/
  | malformed (flaw : RuleFlaw)
  /-- No kind of rule starts with this word. -/
  | unknownRule (word : String)
  /-- A number lies outside its field. -/
  | outOfRange (field : RuleField) (value : Int)
  deriving DecidableEq

/-- The wording of a rule error. -/
def RuleError.message : RuleError → String
  | .malformed flaw => s!"malformed repeat rule: {flaw.message}"
  | .unknownRule word => s!"unknown repeat rule '{word}'"
  | .outOfRange field value => s!"{field.name} value {value} is out of range"

namespace Rule

/-- The length of a month in the years when it is longest. -/
def longestLength (month : Int) : Int :=
  if month = 2 then 29
  else if month = 4 ∨ month = 6 ∨ month = 9 ∨ month = 11 then 30
  else 31

/-- The last day that some selected month has; no months selected means all. -/
def lastSelectableDay (months : IntSet) : Int :=
  if months.isEmpty then 31
  else (months.elements.map longestLength).foldl max 0

/-- Whether some selected day exists in some selected month of some year. -/
def canOccur (days months : IntSet) : Bool :=
  days.elements.any fun day => day < 0 || day ≤ lastSelectableDay months

/-- Refuses the least member of a set that its field does not take. -/
def checkMembers (field : RuleField) (values : IntSet) : Except RuleError Unit :=
  match values.elements.find? (fun value => ¬ field.Allows value) with
  | some value => .error (.outOfRange field value)
  | none => .ok ()

/-- Accepts a rule that can be followed; a monthly rule must be able to occur. -/
def check : Rule → Except RuleError Unit
  | .daily interval =>
    if RuleField.interval.Allows interval then .ok ()
    else .error (.outOfRange .interval interval)
  | .yearly => .ok ()
  | .weekly weekdays =>
    if weekdays.isEmpty then .error (.malformed .noWeekdays)
    else checkMembers .weekday weekdays
  | .monthly days months =>
    if days.isEmpty then .error (.malformed .noDays)
    else do
      checkMembers .dayOfMonth days
      checkMembers .month months
      if canOccur days months then .ok ()
      else .error (.outOfRange .dayOfMonth (days.elements.getLast?.getD 0))

end Rule

end Agenda
