import Agenda.Console.Session
import Agenda.Proofs.Store.Consistent
import Agenda.Proofs.Text.Tokens
import Agenda.Proofs.Web.Atomicity

/-!
# The console and the web preview alike

The console reads a rule from the words of a line, which it writes with single
spaces between them, and a request carries the text of a rule as it was given.
Both come to the same, since a text with a word in it is read by its words
alone, its errors included (`Rule.ofText_eq_of_words`).  So the same words give
the same preview, or the same error, on a line and in a request, and the same
rule when they are only checked.  The main statement is
`console_agrees_with_web`.
-/

namespace Agenda

/-! ## Texts with the same words -/

/-- A rule is read from the words of a text. -/
theorem Rule.ofText_eq_of_words
    {text other : String}
    (same : Text.words text = Text.words other)
    (nonempty : Text.words text ≠ []) :
    Rule.ofText text = Rule.ofText other := by
  rw [ofText, ofText, ← same]
  split
  · contradiction
  · rfl

/-- A preview depends on the words of the rule only, and a rule without words is empty. -/
theorem previewDate_eq_of_words
    {text other : String}
    (now : Date) (date : String)
    (same : Text.words text = Text.words other) :
    previewDate now date text = previewDate now date other := by
  have blank : Text.isBlank text = Text.isBlank other := by
    rw [Bool.eq_iff_iff, Text.isBlank_iff, Text.isBlank_iff, same]
  simp only [previewDate, blank]
  cases empty : Text.isBlank other with
  | true => rfl
  | false =>
      have nonempty : Text.words text ≠ [] := by
        rw [same, ne_eq, ← Text.isBlank_iff, empty]
        decide
      rw [Rule.ofText_eq_of_words same nonempty]

/-! ## Lines of the console -/

namespace Console

variable {taskLimit : Nat} {today : Date} {store : Store}

/-- A line of words is run as its command. -/
theorem takeLine_of_words
    {line command : String} {arguments : List String}
    (spoken : Text.words line = command :: arguments)
    (goesOn : isQuit command = false) :
    takeLine taskLimit today store line =
      .next (printed ((runCommand taskLimit today command arguments).run {} store).1)
        ((runCommand taskLimit today command arguments).run {} store).2 := by
  rw [takeLine, spoken]
  simp only [goesOn, Bool.false_eq_true, if_false]

theorem takeLine_next
    {line : String} {arguments : List String}
    (spoken : Text.words line = "next" :: arguments) :
    takeLine taskLimit today store line = .next (printed (nextText today arguments)) store := by
  rw [takeLine_of_words spoken (by decide)]
  rfl

theorem takeLine_check
    {line : String} {arguments : List String}
    (spoken : Text.words line = "check" :: arguments) :
    takeLine taskLimit today store line = .next (printed (checkText arguments)) store := by
  rw [takeLine_of_words spoken (by decide)]
  rfl

theorem printed_inj {text other : String} : printed text = printed other ↔ text = other := by
  rw [printed, printed, String.append_left_inj]

/-- What a line with `next` prints is the answer to its arguments. -/
theorem takeLine_next_eq_iff
    {line text : String} {arguments : List String}
    (spoken : Text.words line = "next" :: arguments) :
    takeLine taskLimit today store line = .next (printed text) store ↔
      nextText today arguments = text := by
  rw [takeLine_next spoken, Step.next.injEq, printed_inj]
  exact and_iff_left rfl

/-- A printed date is no printed error. -/
theorem nextDate_ne_error (date message : String) :
    "Next date: " ++ date ≠ "Error: " ++ message := by
  intro same
  have chars := congrArg String.toList same
  rw [String.toList_append, String.toList_append] at chars
  cases chars

/-- What `next` prints for a preview. -/
def previewText : Except ScheduleError String → String
  | .ok next => "Next date: " ++ next
  | .error cause => "Error: " ++ cause.message

theorem previewText_eq_iff
    {result : Except ScheduleError String} {next : String} :
    previewText result = "Next date: " ++ next ↔ result = .ok next := by
  cases result with
  | error cause => exact iff_of_false (Ne.symm (nextDate_ne_error _ _)) (nomatch ·)
  | ok found => rw [previewText, String.append_right_inj, Except.ok.injEq]

/-- The words of a rule are previewed as any text with these words. -/
theorem nextText_of_words
    {now date repeats : String} {rule : List String} {day : Date}
    (named : now ≠ "-")
    (dated : Date.ofWireText now = .ok day)
    (areWords : ∀ word ∈ rule, Text.IsWord word)
    (sameRule : Text.words repeats = rule) :
    nextText today (now :: date :: rule) = previewText (previewDate day date repeats) := by
  have same : Text.words (" ".intercalate rule) = Text.words repeats := by
    rw [Text.words_intercalate areWords, sameRule]
  simp only [nextText, readDay, if_neg named, dated, previewDate_eq_of_words day date same]
  cases previewDate day date repeats <;> rfl

theorem nextText_of_error
    {now date : String} {rule : List String} {cause : DateError}
    (named : now ≠ "-")
    (undated : Date.ofWireText now = .error cause) :
    nextText today (now :: date :: rule) = "Error: " ++ cause.message := by
  simp only [nextText, readDay, if_neg named, undated]

/-- A line prints a next date if its day is read and the date is previewed. -/
theorem takeLine_eq_next_date_iff
    {line now date repeats next : String} {rule : List String}
    (spoken : Text.words line = "next" :: now :: date :: rule)
    (named : now ≠ "-")
    (areWords : ∀ word ∈ rule, Text.IsWord word)
    (sameRule : Text.words repeats = rule) :
    takeLine taskLimit today store line = .next (printed ("Next date: " ++ next)) store ↔
      ∃ day, Date.ofWireText now = .ok day ∧ previewDate day date repeats = .ok next := by
  rw [takeLine_next_eq_iff spoken]
  cases dated : Date.ofWireText now with
  | error cause =>
      rw [nextText_of_error named dated]
      exact iff_of_false (Ne.symm (nextDate_ne_error _ _)) (by simp)
  | ok day =>
      rw [nextText_of_words named dated areWords sameRule, previewText_eq_iff]
      simp

/-- The words of a rule are checked as any text with these words. -/
theorem checkText_of_words
    {repeats : String} {rule : List String}
    (nonempty : rule ≠ [])
    (areWords : ∀ word ∈ rule, Text.IsWord word)
    (sameRule : Text.words repeats = rule) :
    checkText rule =
      match Rule.ofText repeats with
      | .ok read => "Rule OK: " ++ read.text
      | .error cause => "Invalid rule: " ++ cause.message := by
  have spoken := Text.words_intercalate areWords
  have same := Rule.ofText_eq_of_words (spoken.trans sameRule.symm) (by rwa [spoken])
  cases read : Rule.ofText repeats <;> simp only [checkText, same, read]

end Console

/-! ## Requests for a preview -/

namespace Web

variable {request : Request} {now date repeats : String}

/-- A request gives a value to a parameter; one that is left out is empty. -/
def Request.Gives (request : Request) (key value : String) : Prop :=
  valuesOf request.parameters key = [value] ∨
    (valuesOf request.parameters key = [] ∧ value = "")

/-- A request asks for the next date after `now` of a rule from a date. -/
structure Request.AsksForDate (request : Request) (now date repeats : String) : Prop where
  method : request.method = "GET"
  path : request.path = "/api/nextdate"
  givesNow : request.Gives "now" now
  givesDate : request.Gives "date" date
  givesRule : request.Gives "repeat" repeats

theorem Request.Gives.once
    {key value : String}
    (gives : request.Gives key value) :
    (valuesOf request.parameters key).length ≤ 1 := by
  rcases gives with given | ⟨missing, -⟩
  · rw [given]
    exact Nat.le_refl 1
  · rw [missing]
    exact Nat.zero_le 1

theorem Request.Gives.value_eq
    {key value : String}
    (gives : request.Gives key value) :
    (valuesOf request.parameters key).head?.getD "" = value := by
  rcases gives with given | ⟨missing, rfl⟩
  · rw [given]
    rfl
  · rw [missing]
    rfl

/-- The response to a preview. -/
def previewResponse : Except ScheduleError String → Response
  | .ok next => ⟨200, .text next⟩
  | .error cause => ⟨400, .text cause.message⟩

theorem previewResponse_eq_iff
    {result : Except ScheduleError String} {next : String} :
    previewResponse result = ⟨200, .text next⟩ ↔ result = .ok next := by
  cases result <;> simp [previewResponse]

/-- A request for a date is answered from its parameters, and touches no store. -/
theorem run_handle_of_asksForDate
    (asks : request.AsksForDate now date repeats)
    (taskLimit : Nat) (today : Date) (faults : Faults) (store : Store) :
    (handle taskLimit today request).run faults store =
      (match Date.ofWireText now with
        | .error cause => ⟨400, .text ("invalid now: " ++ cause.message)⟩
        | .ok day => previewResponse (previewDate day date repeats), store) := by
  have routed : route request.method request.path = .ok .nextDate := by
    rw [asks.method, asks.path]
    decide
  have once : givenOnce request.parameters ["now", "date", "repeat"] = true := by
    simp [givenOnce, asks.givesNow.once, asks.givesDate.once, asks.givesRule.once]
  rw [handle_eq_of_route routed, answer, withParameters, if_pos once, Script.run_map,
    Script.run_done, asks.method, if_neg (by decide), nextDateResponse]
  simp only [asks.givesNow.value_eq, asks.givesDate.value_eq, asks.givesRule.value_eq]
  cases Date.ofWireText now with
  | error cause => rfl
  | ok day => cases previewDate day date repeats <;> rfl

/-- A request is answered with a date if its day is read and the date is previewed. -/
theorem run_handle_eq_date_iff
    {next : String}
    (asks : request.AsksForDate now date repeats)
    (taskLimit : Nat) (today : Date) (faults : Faults) (store : Store) :
    (handle taskLimit today request).run faults store = (⟨200, .text next⟩, store) ↔
      ∃ day, Date.ofWireText now = .ok day ∧ previewDate day date repeats = .ok next := by
  rw [run_handle_of_asksForDate asks, Prod.mk.injEq, and_iff_left rfl]
  cases Date.ofWireText now with
  | error cause => simp
  | ok day =>
      rw [previewResponse_eq_iff]
      simp

end Web

/-! ## Lines and requests -/

/--
A line with the words `next`, a day, a date and a rule, where the day is not
`-`, prints a next date exactly if the request with this day and date, and with
any text that has the words of the rule, is answered with that date.  If the
day can be read, and either fails, both do, with the same wording.  If the rule
has words, a line that checks it reports the rule, or the error, that is read
from the text.
-/
theorem console_agrees_with_web
    {line now date repeats : String} {rule : List String} {request : Web.Request}
    (spoken : Text.words line = "next" :: now :: date :: rule)
    (named : now ≠ "-")
    (sameRule : Text.words repeats = rule)
    (asks : request.AsksForDate now date repeats)
    (taskLimit : Nat) (today otherDay : Date) (faults : Faults) (store other : Store) :
    let prints (text : String) :=
      Console.takeLine taskLimit today store line = .next (Console.printed text) store
    let answers (status : Nat) (text : String) :=
      (Web.handle taskLimit otherDay request).run faults other = (⟨status, .text text⟩, other)
    (∀ next, prints ("Next date: " ++ next) ↔ answers 200 next) ∧
    (∀ day, Date.ofWireText now = .ok day →
      (∃ next, prints ("Next date: " ++ next) ∧ answers 200 next) ∨
      (∃ message, prints ("Error: " ++ message) ∧ answers 400 message)) ∧
    (rule ≠ [] → ∀ checkLine, Text.words checkLine = "check" :: rule →
      Console.takeLine taskLimit today store checkLine =
        .next (Console.printed
          (match Rule.ofText repeats with
            | .ok read => "Rule OK: " ++ read.text
            | .error cause => "Invalid rule: " ++ cause.message)) store) := by
  have areWords : ∀ word ∈ rule, Text.IsWord word := by
    intro word member
    refine Text.isWord_of_mem_words (spoken ▸ ?_ : word ∈ Text.words line)
    exact List.mem_cons_of_mem _ (List.mem_cons_of_mem _ (List.mem_cons_of_mem _ member))
  intro prints answers
  refine ⟨?_, ?_, ?_⟩
  · intro next
    exact (Console.takeLine_eq_next_date_iff spoken named areWords sameRule).trans
      (Web.run_handle_eq_date_iff asks taskLimit otherDay faults other).symm
  · intro day dated
    have printed (text : String) : prints text ↔ _ := Console.takeLine_next_eq_iff spoken
    have answered := Web.run_handle_of_asksForDate asks taskLimit otherDay faults other
    simp only [dated] at answered
    simp only [printed, Console.nextText_of_words named dated areWords sameRule, answers, answered]
    cases previewDate day date repeats with
    | error cause => exact .inr ⟨cause.message, rfl, rfl⟩
    | ok next => exact .inl ⟨next, rfl, rfl⟩
  · intro nonempty checkLine checked
    rw [Console.takeLine_check checked, Console.checkText_of_words nonempty areWords sameRule]

/--
A line with a tab in it and a request whose rule is set in other blanks come to
the same date, and the rule is checked as the text of the request.
-/
theorem console_agrees_with_web_blanks :
    let line := " next\t20240126  20240113 d 07\n"
    let request : Web.Request :=
      { method := "GET",
        target := "/api/nextdate?now=20240126&date=20240113&repeat=%E3%80%80d+07+" }
    let today : Date := ⟨2024, 1, 26, by decide⟩
    Text.words line = ["next", "20240126", "20240113", "d", "07"] ∧
    "20240126" ≠ "-" ∧
    Text.words "\u3000d 07 " = ["d", "07"] ∧
    request.AsksForDate "20240126" "20240113" "\u3000d 07 " ∧
    Console.takeLine 50 today ∅ line =
      .next (Console.printed ("Next date: " ++ "20240127")) ∅ ∧
    (Web.handle 50 today request).run {} ∅ = (⟨200, .text "20240127"⟩, ∅) ∧
    Console.takeLine 50 today ∅ "check d 07" = .next (Console.printed "Rule OK: d 7") ∅ := by
  intro line request today
  have spoken : Text.words line = ["next", "20240126", "20240113", "d", "07"] := by
    decide +kernel
  have named : "20240126" ≠ "-" := by decide
  have sameRule : Text.words "\u3000d 07 " = ["d", "07"] := by decide +kernel
  have asks : request.AsksForDate "20240126" "20240113" "\u3000d 07 " :=
    { method := rfl
      path := by decide +kernel
      givesNow := .inl (by decide +kernel)
      givesDate := .inl (by decide +kernel)
      givesRule := .inl (by decide +kernel) }
  have agree := console_agrees_with_web spoken named sameRule asks 50 today today {} ∅ ∅
  have printed : Console.takeLine 50 today ∅ line =
      .next (Console.printed ("Next date: " ++ "20240127")) ∅ := by
    have next : Console.nextText today ["20240126", "20240113", "d", "07"] =
        "Next date: " ++ "20240127" := by decide +kernel
    rw [Console.takeLine_next spoken, next]
  have checked := agree.2.2 (by decide) "check d 07" (by decide +kernel)
  have read : Rule.ofText "\u3000d 07 " = .ok (.daily 7) := by decide +kernel
  rw [read] at checked
  exact ⟨spoken, named, sameRule, asks, printed, (agree.1 _).1 printed, checked⟩

end Agenda
