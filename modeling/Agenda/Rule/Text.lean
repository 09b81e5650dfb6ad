import Agenda.Rule.Basic
import Agenda.Text.Basic

/-!
# Rules as text

A rule is written as a letter and its lists: `d 7`, `y`, `w 1,3`, `m -1 1,6`.
`Rule.text` writes the canonical form, with the lists in increasing order;
`Rule.ofText` reads any spacing, order and form of the integers, and accepts
only rules that pass `Rule.check`.
-/

namespace Agenda

namespace Rule

/-- Integers with commas between them. -/
def listText (values : IntSet) : String :=
  ",".intercalate (values.elements.map fun value => toString value)

/-- The canonical text of a rule. -/
def text : Rule → String
  | .daily interval => "d " ++ toString interval
  | .yearly => "y"
  | .weekly weekdays => "w " ++ listText weekdays
  | .monthly days months =>
    if months.isEmpty then "m " ++ listText days
    else "m " ++ listText days ++ " " ++ listText months

/-- Reads one integer of a rule. -/
def readInteger (item : String) : Except RuleError Int :=
  match Text.readInt? item with
  | some value => .ok value
  | none => .error (.malformed (.notAnInteger item))

/-- Reads one item of a list into the set of the values before it. -/
def readItem (field : RuleField) (list : String) (values : IntSet) (item : String) :
    Except RuleError IntSet :=
  if item = "" then .error (.malformed (.emptyItem field list))
  else do
    let value ← readInteger item
    if ¬ field.Allows value then .error (.outOfRange field value)
    else if value ∈ values then .error (.malformed (.duplicate field value list))
    else .ok (values.insert value)

/-- Reads integers with commas between them, from left to right. -/
def readList (field : RuleField) (list : String) : Except RuleError IntSet :=
  ((list.toList.splitOn ',').map String.ofList).foldlM (readItem field list) ∅

/-- Reads the words after the `d` of a daily rule. -/
def readDaily : List String → Except RuleError Rule
  | [item] => do
    let value ← readInteger item
    if RuleField.interval.Allows value then .ok (.daily value.toNat)
    else .error (.outOfRange .interval value)
  | arguments => .error (.malformed (.dailyArguments arguments.length))

/-- Reads the words after the `y` of a yearly rule. -/
def readYearly : List String → Except RuleError Rule
  | [] => .ok .yearly
  | arguments => .error (.malformed (.yearlyArguments arguments))

/-- Reads the words after the `w` of a weekly rule. -/
def readWeekly : List String → Except RuleError Rule
  | [list] => return .weekly (← readList .weekday list)
  | arguments => .error (.malformed (.weeklyArguments arguments.length))

/-- Reads the words after the `m` of a monthly rule. -/
def readMonthly : List String → Except RuleError Rule
  | [days] => return .monthly (← readList .dayOfMonth days) ∅
  | [days, months] => return .monthly (← readList .dayOfMonth days) (← readList .month months)
  | arguments => .error (.malformed (.monthlyArguments arguments.length))

/-- Reads a rule from its words, the first of which names its kind. -/
def ofWords (kind : String) (arguments : List String) : Except RuleError Rule :=
  match kind with
  | "d" => readDaily arguments
  | "y" => readYearly arguments
  | "w" => readWeekly arguments
  | "m" => readMonthly arguments
  | word => .error (.unknownRule word)

/-- Reads a rule and checks it; a blank text is no known kind of rule. -/
def ofText (text : String) : Except RuleError Rule :=
  match Text.words text with
  | [] => .error (.unknownRule text)
  | kind :: arguments => do
    let rule ← ofWords kind arguments
    rule.check
    return rule

end Rule

end Agenda
