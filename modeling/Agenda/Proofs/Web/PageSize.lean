import Agenda.Proofs.Schedule.Listing
import Agenda.Proofs.Text.Tokens
import Agenda.Proofs.Web.Atomicity

/-!
# The size of a page

The size of a page of tasks is set by a variable when a process starts, and by a
parameter in a request.  Both are read by the same rule: a blank text leaves the
default, a positive integer of 64 bits is the size, and any other text is
refused.  `IsPageSize` says which texts are sizes, without reading.  The main
statement is `pageSize_inputs_agree`.
-/

namespace Agenda

/-! ## Texts of sizes -/

/-- A text is a positive integer of 64 bits in decimal, with blanks around it or none. -/
structure IsPageSize (text : String) (size : Nat) : Prop where
  written : ∃ front number back, text.toList = front ++ number ++ back ∧
    (∀ char ∈ front, Text.isBlankChar char = true) ∧
    (∀ char ∈ back, Text.isBlankChar char = true) ∧ Text.Denotes number size
  positive : 0 < size
  fits : size ≤ Text.maxNat64

namespace Text

/-- The positive numbers are read with a plus sign or none. -/
theorem readUnsigned?_eq_some_iff_denotes
    {text : List Char} {value : Nat}
    (positive : 0 < value) :
    readUnsigned? text = some value ↔ Denotes text value := by
  constructor
  · intro read
    rcases readUnsigned?_eq_some_iff.1 read with digits | ⟨digits, rfl, digitsRead⟩
    · rcases readDigits?_eq_some_iff.1 digits with ⟨nonempty, decimal, rfl⟩
      exact .unsigned nonempty decimal
    · rcases readDigits?_eq_some_iff.1 digitsRead with ⟨nonempty, decimal, rfl⟩
      exact .plus nonempty decimal
  · intro denotes
    generalize same : (value : Int) = number at denotes
    cases denotes with
    | unsigned nonempty decimal =>
        have value := Int.ofNat_inj.1 same
        exact readUnsigned?_eq_some_iff.2
          (.inl (readDigits?_eq_some_iff.2 ⟨nonempty, decimal, value.symm⟩))
    | @plus digits nonempty decimal =>
        have value := Int.ofNat_inj.1 same
        exact readUnsigned?_eq_some_iff.2
          (.inr ⟨digits, rfl, readDigits?_eq_some_iff.2 ⟨nonempty, decimal, value.symm⟩⟩)
    | minus => omega

/-- A number is written without blanks. -/
theorem isBlankChar_of_mem_denotes
    {text : List Char} {value : Int} {char : Char}
    (denotes : Denotes text value)
    (member : char ∈ text) :
    isBlankChar char = false := by
  cases denotes with
  | unsigned _ decimal => exact isBlankChar_of_isDigit (decimal char member)
  | plus _ decimal | minus _ decimal =>
      rcases List.mem_cons.1 member with rfl | digit
      · decide
      · exact isBlankChar_of_isDigit (decimal char digit)

theorem ne_nil_of_denotes
    {text : List Char} {value : Int}
    (denotes : Denotes text value) :
    text ≠ [] := by
  cases denotes with
  | unsigned nonempty => exact nonempty
  | plus | minus => exact List.cons_ne_nil _ _

end Text

variable {text : String} {size : Nat}

/-- The size of a page is read from the texts of sizes. -/
theorem readTaskLimit?_eq_some_iff :
    readTaskLimit? text = some size ↔ IsPageSize text size := by
  rw [readTaskLimit?, Option.filter_eq_some_iff, Text.readNat?, Option.filter_eq_some_iff]
  simp only [decide_eq_true_eq]
  constructor
  · rintro ⟨⟨read, fits⟩, positive⟩
    rcases Text.exists_toList_eq_trim text with ⟨front, back, split, frontBlank, backBlank⟩
    have denotes := (Text.readUnsigned?_eq_some_iff_denotes positive).1 read
    exact ⟨⟨front, _, back, split, frontBlank, backBlank, denotes⟩, positive, fits⟩
  · rintro ⟨⟨front, number, back, split, frontBlank, backBlank, denotes⟩, positive, fits⟩
    have trimmed := Text.trim_eq_of_toList_eq split frontBlank backBlank
      fun char member => Text.isBlankChar_of_mem_denotes denotes member
    rw [trimmed, String.toList_ofList]
    exact ⟨⟨(Text.readUnsigned?_eq_some_iff_denotes positive).2 denotes, fits⟩, positive⟩

theorem IsPageSize.not_isBlank
    (isPageSize : IsPageSize text size) :
    Text.isBlank text = false := by
  rcases isPageSize.written with ⟨front, number, back, split, -, -, denotes⟩
  rcases List.exists_mem_of_ne_nil number (Text.ne_nil_of_denotes denotes) with ⟨char, member⟩
  have inText : char ∈ text.toList := by
    rw [split]
    exact List.mem_append_left back (List.mem_append_right front member)
  have letter := Text.isBlankChar_of_mem_denotes denotes member
  exact List.all_eq_false.2 ⟨char, inText, by rw [letter]; exact Bool.false_ne_true⟩

/-- Trimming keeps the size of a text. -/
theorem readTaskLimit?_trim (text : String) :
    readTaskLimit? (Text.trim text) = readTaskLimit? text := by
  refine Option.ext fun size => ?_
  rw [readTaskLimit?_eq_some_iff, readTaskLimit?_eq_some_iff]
  constructor
  · rintro ⟨⟨front, number, back, split, frontBlank, backBlank, denotes⟩, positive, fits⟩
    rcases Text.exists_toList_eq_trim text with ⟨before, after, whole, beforeBlank, afterBlank⟩
    refine ⟨⟨before ++ front, number, back ++ after, ?_, ?_, ?_, denotes⟩, positive, fits⟩
    · rw [whole, split]
      simp only [List.append_assoc]
    · exact List.forall_mem_append.2 ⟨beforeBlank, frontBlank⟩
    · exact List.forall_mem_append.2 ⟨backBlank, afterBlank⟩
  · rintro ⟨⟨front, number, back, split, frontBlank, backBlank, denotes⟩, positive, fits⟩
    have trimmed := Text.trim_eq_of_toList_eq split frontBlank backBlank
      fun char member => Text.isBlankChar_of_mem_denotes denotes member
    refine ⟨⟨[], number, [], ?_, List.forall_mem_nil _, List.forall_mem_nil _, denotes⟩,
      positive, fits⟩
    rw [trimmed, String.toList_ofList, List.nil_append, List.append_nil]

/-! ## The default of a size -/

/-- The size that a text sets: a blank one leaves the default, any other must be a size. -/
def sizeSetBy? (taskLimit : Nat) (text : String) : Option Nat :=
  if Text.isBlank text then some taskLimit else readTaskLimit? text

theorem sizeSetBy?_eq_some_iff
    {taskLimit : Nat} :
    sizeSetBy? taskLimit text = some size ↔
      (Text.isBlank text = true ∧ size = taskLimit) ∨ IsPageSize text size := by
  rw [sizeSetBy?]
  split
  · rename_i blank
    have noSize : ¬ IsPageSize text size := by
      intro isPageSize
      rw [isPageSize.not_isBlank] at blank
      cases blank
    simp only [Option.some.injEq, blank, true_and, noSize, or_false, eq_comm]
  · rename_i letters
    simp only [readTaskLimit?_eq_some_iff, letters, Bool.false_eq_true, false_and, false_or]

/-- The lookup of variables in which the size of a page is set, and nothing else. -/
def onlyTaskLimit (text : String) (name : String) : Option String :=
  if name = "TODO_TASK_LIMIT" then some text else none

theorem read_onlyTaskLimit (text : String) :
    Settings.read (onlyTaskLimit text) =
      match sizeSetBy? Settings.default.taskLimit text with
      | some size => .ok { Settings.default with taskLimit := size }
      | none => .error (.invalidTaskLimit text) := by
  have port : onlyTaskLimit text "TODO_PORT" = none := rfl
  have storeFile : onlyTaskLimit text "TODO_DBFILE" = none := rfl
  have taskLimit : onlyTaskLimit text "TODO_TASK_LIMIT" = some text := rfl
  rw [Settings.read, sizeSetBy?]
  simp only [port, storeFile, taskLimit, Option.filter_none, Option.filter_some]
  cases Text.isBlank text with
  | true => rfl
  | false =>
      simp only [Bool.not_false, if_true, Bool.false_eq_true, if_false]
      cases readTaskLimit? text <;> rfl

namespace Web

theorem pageSize_some (taskLimit : Nat) (text : String) :
    pageSize taskLimit (some text) =
      match sizeSetBy? taskLimit text with
      | some size => .ok size
      | none => .error (.failure 400 ("invalid limit '" ++ Text.trim text ++ "'")) := by
  simp only [pageSize, Option.getD_some, Text.trim_eq_empty_iff, readTaskLimit?_trim, sizeSetBy?]
  cases Text.isBlank text with
  | true => rfl
  | false => cases readTaskLimit? text <;> rfl

/-! ## Requests for a page -/

/-- A request asks for a page of tasks, with a text for its size. -/
structure Request.AsksForPage (request : Request) (limit : String) : Prop where
  method : request.method = "GET"
  path : request.path = "/api/tasks"
  given : valuesOf request.parameters "limit" = [limit]

/-- The response with a page of tasks. -/
def pageResponse (tasks : List Task) : Response :=
  .success (tasksJson tasks)

variable {request : Request}

/-- A request for a page is answered with a page of the size that its text sets, or with 400. -/
theorem run_handle_of_asksForPage
    (asks : request.AsksForPage text)
    (taskLimit : Nat) (today : Date) (store : Store) :
    (handle taskLimit today request).run .none store =
      (match sizeSetBy? taskLimit text with
        | some size => pageResponse (store.list size)
        | none => .failure 400 ("invalid limit '" ++ Text.trim text ++ "'"), store) := by
  have routed : route request.method request.path = .ok .listTasks := by
    rw [asks.method, asks.path]
    decide
  have once : givenOnce request.parameters ["limit"] = true := by
    simp [givenOnce, asks.given]
  rw [handle_eq_of_route routed, answer, withParameters, if_pos once, Script.run_map, asks.method,
    if_neg (by decide)]
  simp only [asks.given, List.head?_cons, pageSize_some]
  cases sizeSetBy? taskLimit text with
  | none => rfl
  | some size =>
      simp only [respond_eq]
      rw [Script.run_map]
      rfl

/-- A page shows how many tasks it holds. -/
theorem length_eq_of_pageResponse_eq
    {tasks others : List Task}
    (same : pageResponse tasks = pageResponse others) :
    tasks.length = others.length := by
  simp only [pageResponse, Response.success, tasksJson, Response.mk.injEq, true_and,
    Body.json.injEq, Json.Value.object.injEq, List.cons.injEq, and_true, Prod.mk.injEq,
    Json.Value.list.injEq] at same
  simpa using congrArg List.length same

end Web

/-! ## Stores of any length -/

namespace Store

theorem length_list (store : Store) (limit : Nat) :
    (store.list limit).length = min limit store.rows.length := by
  rw [list, List.length_map, List.length_take, perm_sorted.length_eq]

/-- Uses of a store that add an entry a number of times. -/
def additions (entry : Entry) (count : Nat) : List Step :=
  List.replicate count (.call .none (.add entry))

theorem length_rows_takeAll_additions
    {entry : Entry}
    (accepted : entry.checkRecord = .ok ())
    (count : Nat) (store : Store) :
    (takeAll take (additions entry count) store).2.rows.length = store.rows.length + count := by
  induction count generalizing store with
  | zero => rfl
  | succ count ih =>
      have added : (store.take (.call .none (.add entry))).2 = store.insert entry := by
        simp only [take, performWith_none, perform, accepted]
      show (takeAll take (additions entry count)
        (store.take (.call .none (.add entry))).2).2.rows.length = _
      rw [added, ih, insert, List.length_append, List.length_singleton]
      omega

end Store

/-- There is a store with any number of rows. -/
theorem exists_takeAll_length_rows (count : Nat) :
    ∃ steps, (takeAll Store.take steps ∅).2.rows.length = count := by
  let entry : Entry := { date := "20240126", title := "t" }
  have accepted : entry.checkRecord = .ok () := by decide +kernel
  refine ⟨Store.additions entry count, ?_⟩
  rw [Store.length_rows_takeAll_additions accepted]
  exact Nat.zero_add count

/-- Two sizes with the same pages on all stores are the same. -/
theorem eq_of_pageResponse_eq
    {other : Nat}
    (same : ∀ steps,
      let store := (takeAll Store.take steps ∅).2
      Web.pageResponse (store.list size) = Web.pageResponse (store.list other)) :
    size = other := by
  rcases exists_takeAll_length_rows (max size other) with ⟨steps, rows⟩
  have lengths := Web.length_eq_of_pageResponse_eq (same steps)
  rw [Store.length_list, Store.length_list, rows] at lengths
  omega

/-! ## Both inputs -/

section Inputs

variable {request : Web.Request} {taskLimit : Nat}

theorem taskLimit_read_eq_ok_iff :
    (Settings.read (onlyTaskLimit text)).map Settings.taskLimit = .ok size ↔
      sizeSetBy? Settings.default.taskLimit text = some size := by
  rw [read_onlyTaskLimit]
  cases sizeSetBy? Settings.default.taskLimit text <;> simp [Except.map]

theorem exists_read_eq_error_iff :
    (∃ cause, Settings.read (onlyTaskLimit text) = .error cause) ↔
      sizeSetBy? Settings.default.taskLimit text = none := by
  rw [read_onlyTaskLimit]
  cases sizeSetBy? Settings.default.taskLimit text <;> simp

/-- A request is answered with pages of a size on all stores exactly if its text sets this size. -/
theorem Web.run_handle_eq_page_iff
    (asks : request.AsksForPage text)
    (today : Date) :
    (∀ steps,
      let store := (takeAll Store.take steps ∅).2
      (handle taskLimit today request).run .none store =
        (pageResponse (store.list size), store)) ↔
      sizeSetBy? taskLimit text = some size := by
  simp only [run_handle_of_asksForPage asks, Prod.mk.injEq, and_true]
  cases sizeSetBy? taskLimit text with
  | none =>
      refine iff_of_false (fun answered => ?_) (nomatch ·)
      have status := congrArg Response.status (answered [])
      exact absurd status (by decide : (400 : Nat) ≠ 200)
  | some other =>
      rw [Option.some.injEq]
      constructor
      · exact eq_of_pageResponse_eq
      · rintro rfl steps
        rfl

theorem Web.status_run_handle_eq_iff
    (asks : request.AsksForPage text)
    (today : Date) (store : Store) :
    ((handle taskLimit today request).run .none store).1.status = 400 ↔
      sizeSetBy? taskLimit text = none := by
  rw [run_handle_of_asksForPage asks]
  cases sizeSetBy? taskLimit text with
  | none => exact iff_of_true rfl rfl
  | some size =>
      exact iff_of_false (by decide : (200 : Nat) ≠ 400) (nomatch ·)

end Inputs

/--
A text sets the size of a page as a variable exactly if a request with the same
text is answered on every store with a page of this size, and it is refused as a
variable exactly if the request is answered with 400.  It leaves the default,
though it is no size, exactly if it is blank, and then a request leaves any
default.  What else is taken are the positive integers of 64 bits in decimal,
with a plus sign or none and with blanks around them or none.  A page of such a
size holds as many tasks, or all there are, and it is the page of the size cut to
any number that no id exceeds.
-/
theorem pageSize_inputs_agree
    {request : Web.Request}
    (asks : request.AsksForPage text)
    (today : Date) :
    let settings := Settings.read (onlyTaskLimit text)
    let reached (steps : List Step) := (takeAll Store.take steps ∅).2
    let answer (taskLimit : Nat) (store : Store) :=
      (Web.handle taskLimit today request).run .none store
    let sets (size : Nat) := settings.map Settings.taskLimit = .ok size
    let shows (taskLimit size : Nat) := ∀ steps,
      answer taskLimit (reached steps) =
        (Web.pageResponse ((reached steps).list size), reached steps)
    (∀ size, sets size ↔ shows Settings.default.taskLimit size) ∧
    (∀ store, (∃ cause, settings = .error cause) ↔
      (answer Settings.default.taskLimit store).1.status = 400) ∧
    (Text.isBlank text = true ↔
      sets Settings.default.taskLimit ∧ ∀ size, ¬ IsPageSize text size) ∧
    (Text.isBlank text = true ↔ ∀ taskLimit, shows taskLimit taskLimit) ∧
    (∀ size, IsPageSize text size ↔ Text.isBlank text = false ∧ sets size) ∧
    ∀ size, IsPageSize text size → ∀ steps, ∃ tasks,
      answer Settings.default.taskLimit (reached steps) =
          (Web.pageResponse tasks, reached steps) ∧
        tasks.length = min size (reached steps).rows.length ∧
        ∀ bound : Nat, (∀ row ∈ (reached steps).rows, row.id ≤ bound) →
          (reached steps).list (min size bound) = tasks := by
  intro settings reached answer sets shows
  have sets_iff (size : Nat) : sets size ↔ _ := taskLimit_read_eq_ok_iff
  have shows_iff (taskLimit size : Nat) : shows taskLimit size ↔ _ :=
    Web.run_handle_eq_page_iff asks today
  refine ⟨?_, ?_, ?_, ?_, ?_, ?_⟩
  · intro size
    rw [sets_iff, shows_iff]
  · intro store
    exact exists_read_eq_error_iff.trans (Web.status_run_handle_eq_iff asks today store).symm
  · simp only [sets_iff, sizeSetBy?_eq_some_iff]
    constructor
    · intro blank
      refine ⟨.inl ⟨blank, trivial⟩, fun size isPageSize => ?_⟩
      rw [isPageSize.not_isBlank] at blank
      cases blank
    · rintro ⟨⟨blank, -⟩ | isPageSize, noSize⟩
      · exact blank
      · exact absurd isPageSize (noSize _)
  · simp only [shows_iff, sizeSetBy?_eq_some_iff]
    constructor
    · exact fun blank taskLimit => .inl ⟨blank, trivial⟩
    · intro leaves
      rcases leaves 0 with ⟨blank, -⟩ | isPageSize
      · exact blank
      · exact absurd isPageSize.positive (Nat.lt_irrefl 0)
  · intro size
    simp only [sets_iff, sizeSetBy?_eq_some_iff]
    constructor
    · exact fun isPageSize => ⟨isPageSize.not_isBlank, .inr isPageSize⟩
    · rintro ⟨letters, ⟨blank, -⟩ | isPageSize⟩
      · rw [letters] at blank
        cases blank
      · exact isPageSize
  · intro size isPageSize steps
    have shown := (shows_iff Settings.default.taskLimit size).2
      (sizeSetBy?_eq_some_iff.2 (.inr isPageSize)) steps
    have consistent : (reached steps).Consistent := Store.consistent_takeAll steps
    exact ⟨_, shown, Store.length_list (reached steps) size,
      fun _ bounded => consistent.list_min bounded⟩

/-- The greatest size, with blanks around it, a sign and a zero. -/
theorem pageSize_inputs_agree_greatest :
    let text := "\u3000+018446744073709551615 "
    let request : Web.Request :=
      { method := "GET", target := "/api/tasks?limit=%E3%80%80%2B018446744073709551615+" }
    let today : Date := ⟨2024, 1, 26, by decide⟩
    let steps : List Step := [.call .none (.add { date := "20240301", title := "t" })]
    let store := (takeAll Store.take steps ∅).2
    request.AsksForPage text ∧ IsPageSize text 18446744073709551615 ∧
      (Settings.read (onlyTaskLimit text)).map Settings.taskLimit = .ok 18446744073709551615 ∧
      (Web.handle Settings.default.taskLimit today request).run .none store =
        (Web.pageResponse (store.list 18446744073709551615), store) ∧
      (∀ row ∈ store.rows, row.id ≤ 9223372036854775807) ∧
      ∃ tasks, (Web.handle Settings.default.taskLimit today request).run .none store =
          (Web.pageResponse tasks, store) ∧
        tasks.length = min 18446744073709551615 store.rows.length ∧
        store.list (min 18446744073709551615 9223372036854775807) = tasks := by
  intro text request today steps store
  have asks : request.AsksForPage text :=
    { method := rfl
      path := by decide +kernel
      given := by decide +kernel }
  have isPageSize : IsPageSize text 18446744073709551615 :=
    readTaskLimit?_eq_some_iff.1 (by decide +kernel)
  rcases pageSize_inputs_agree asks today with ⟨agree, -, -, -, sizes, holds⟩
  have isSet := ((sizes _).1 isPageSize).2
  have bounded : ∀ row ∈ store.rows, row.id ≤ 9223372036854775807 := by decide +kernel
  rcases holds _ isPageSize steps with ⟨tasks, shown, length, cut⟩
  exact ⟨asks, isPageSize, isSet, (agree _).1 isSet steps, bounded, tasks, shown, length,
    cut 9223372036854775807 bounded⟩

end Agenda
