import Agenda.Proofs.Task.Members
import Mathlib.Control.Monad.Basic

/-!
# The layout of task documents

Which task an object is read as does not depend on how the object is laid out:
on the order of its members, on the spaces between them, on the way in which its
strings are escaped, or on members with other keys, whatever their values are.
`Describes` says what of an object counts, and `ofJson_ignores_layout` is the
exact law, for the reader of a whole text and for the one that stops after the
object.
-/

namespace Agenda

open Json

/--
The members of an object describe a task: every key spells a text, no two of
them name the same field, each one that names a field gives the text that the
task has there, and a field that none of them names is empty.
-/
structure Describes (members : List Member) (task : Task) : Prop where
  readable : ∀ member ∈ members, ∃ key, Spells member.key key
  once : members.Pairwise fun first later =>
    ∀ field : TaskField, Spells first.key field.key → ¬ Spells later.key field.key
  given : ∀ member ∈ members, ∀ field : TaskField,
    Spells member.key field.key → Spells member.value (field.get task)
  complete : ∀ field : TaskField, field.get task ≠ "" →
    ∃ member ∈ members, Spells member.key field.key

namespace TaskField

theorem ext_get
    {first second : Task}
    (equal : ∀ field : TaskField, field.get first = field.get second) :
    first = second := by
  rcases first with ⟨⟨_, _, _, _⟩, _⟩
  rcases second with ⟨⟨_, _, _, _⟩, _⟩
  cases equal .id
  cases equal .date
  cases equal .title
  cases equal .comment
  cases equal .repeats
  rfl

end TaskField

namespace TaskDocument

/-! ## The fields that have been read -/

section Lookup

variable {draft longer final : TaskDraft} {member : Member} {members : List Member}
  {field : TaskField} {text : String}

theorem Takes.lookup_of_lookup
    (takes : Takes draft member longer)
    (found : draft.lookup field = some text) :
    longer.lookup field = some text := by
  cases takes with
  | @field taken _ _ fresh _ =>
      have other : field ≠ taken := by
        rintro rfl
        rw [fresh] at found
        cases found
      rw [List.lookup_cons, beq_false_of_ne other]
      exact found
  | other _ _ =>
      exact found

theorem Takes.lookup_of_names
    (takes : Takes draft member longer)
    (names : Spells member.key field.key) :
    draft.lookup field = none ∧ ∃ text, Spells member.value text ∧
      longer.lookup field = some text := by
  cases takes with
  | @field taken text named fresh given =>
      have same := TaskField.key_injective (names.unique named)
      subst same
      exact ⟨fresh, text, given, List.lookup_cons_self⟩
  | other spelled unknown =>
      exact absurd (names.unique spelled) (unknown field)

theorem Takes.names_of_lookup
    (takes : Takes draft member longer)
    (found : longer.lookup field = some text) :
    draft.lookup field = some text ∨ Spells member.key field.key := by
  cases takes with
  | @field taken _ named _ _ =>
      by_cases same : field = taken
      · subst same
        exact .inr named
      · rw [List.lookup_cons, beq_false_of_ne same] at found
        exact .inl found
  | other _ _ =>
      exact .inl found

theorem TakesAll.lookup_of_lookup
    (takes : TakesAll draft members final)
    (found : draft.lookup field = some text) :
    final.lookup field = some text := by
  induction takes with
  | nil =>
      exact found
  | cons first _ ih =>
      exact ih (first.lookup_of_lookup found)

/-- A member that names a field is the first one that gives it, and it is given what stays. -/
theorem TakesAll.lookup_of_names
    (takes : TakesAll draft members final)
    (listed : member ∈ members)
    (names : Spells member.key field.key) :
    draft.lookup field = none ∧ ∃ text, Spells member.value text ∧
      final.lookup field = some text := by
  induction takes with
  | nil =>
      cases listed
  | @cons draft longer final first members takes later ih =>
      rcases List.mem_cons.1 listed with rfl | listed
      · rcases takes.lookup_of_names names with ⟨fresh, text, given, found⟩
        exact ⟨fresh, text, given, later.lookup_of_lookup found⟩
      · rcases ih listed with ⟨fresh, given⟩
        refine ⟨?_, given⟩
        cases found : draft.lookup field with
        | none =>
            rfl
        | some text =>
            rw [takes.lookup_of_lookup found] at fresh
            cases fresh

theorem TakesAll.names_of_lookup
    (takes : TakesAll draft members final)
    (found : final.lookup field = some text) :
    draft.lookup field = some text ∨ ∃ member ∈ members, Spells member.key field.key := by
  induction takes with
  | nil =>
      exact .inl found
  | cons first _ ih =>
      rcases ih found with found | ⟨member, listed, names⟩
      · rcases first.names_of_lookup found with found | names
        · exact .inl found
        · exact .inr ⟨_, List.mem_cons_self, names⟩
      · exact .inr ⟨member, List.mem_cons_of_mem _ listed, names⟩

theorem TakesAll.names_of_text_ne
    (takes : TakesAll [] members final)
    (nonempty : final.text field ≠ "") :
    ∃ member ∈ members, Spells member.key field.key := by
  cases found : final.lookup field with
  | none =>
      have empty : final.text field = "" := by rw [TaskDraft.text, found, Option.getD_none]
      exact absurd empty nonempty
  | some text =>
      rcases takes.names_of_lookup found with found | named
      · cases found
      · exact named

theorem TakesAll.readable
    (takes : TakesAll draft members final)
    (listed : member ∈ members) :
    ∃ key, Spells member.key key := by
  induction takes with
  | nil =>
      cases listed
  | cons first _ ih =>
      rcases List.mem_cons.1 listed with rfl | listed
      · exact first.readable
      · exact ih listed

/-- Two members that are read do not name the same field. -/
theorem TakesAll.pairwise
    (takes : TakesAll draft members final) :
    members.Pairwise fun first later =>
      ∀ field : TaskField, Spells first.key field.key → ¬ Spells later.key field.key := by
  induction takes with
  | nil =>
      exact .nil
  | cons first later ih =>
      refine .cons (fun member listed field names again => ?_) ih
      rcases first.lookup_of_names names with ⟨_, text, _, found⟩
      rw [(later.lookup_of_names listed again).1] at found
      cases found

/-- Members with readable keys are read if each field they name is new and gets a text. -/
theorem exists_takesAll
    (readable : ∀ member ∈ members, ∃ key, Spells member.key key)
    (once : members.Pairwise fun first later =>
      ∀ field : TaskField, Spells first.key field.key → ¬ Spells later.key field.key)
    (given : ∀ member ∈ members, ∀ field : TaskField, Spells member.key field.key →
      draft.lookup field = none ∧ ∃ text, Spells member.value text) :
    ∃ final, TakesAll draft members final := by
  induction members generalizing draft with
  | nil =>
      exact ⟨draft, .nil⟩
  | cons member members ih =>
      rw [List.pairwise_cons] at once
      rw [List.forall_mem_cons] at readable given
      rcases readable.1 with ⟨key, spelled⟩
      cases known : TaskField.ofKey? key with
      | none =>
          have takes : Takes draft member draft :=
            .other spelled (TaskField.ofKey?_eq_none_iff.1 known)
          rcases ih readable.2 once.2 given.2 with ⟨final, later⟩
          exact ⟨final, .cons takes later⟩
      | some field =>
          rw [TaskField.ofKey?_eq_some_iff] at known
          rw [← known] at spelled
          rcases given.1 field spelled with ⟨fresh, text, isText⟩
          have takes : Takes draft member ((field, text) :: draft) := .field spelled fresh isText
          have givenLater : ∀ later ∈ members, ∀ named : TaskField, Spells later.key named.key →
              List.lookup named ((field, text) :: draft) = none ∧
                ∃ text, Spells later.value text := by
            intro later listed named names
            have other : named ≠ field := by
              rintro rfl
              exact once.1 later listed named spelled names
            rw [List.lookup_cons, beq_false_of_ne other]
            exact given.2 later listed named names
          rcases ih readable.2 once.2 givenLater with ⟨final, later⟩
          exact ⟨final, .cons takes later⟩

end Lookup

theorem get_task
    (draft : TaskDraft)
    (field : TaskField) :
    field.get draft.task = draft.text field := by
  cases field <;> rfl

/-- The members that are read as a task are those that describe it. -/
theorem exists_takesAll_iff
    {members : List Member}
    {task : Task} :
    (∃ final, TakesAll [] members final ∧ final.task = task) ↔ Describes members task := by
  constructor
  · rintro ⟨final, takes, rfl⟩
    refine
      { readable := fun member listed => takes.readable listed
        once := takes.pairwise
        given := fun member listed field names => ?_
        complete := fun field nonempty => ?_ }
    · rcases takes.lookup_of_names listed names with ⟨-, text, given, found⟩
      rw [get_task, TaskDraft.text, found]
      exact given
    · rw [get_task] at nonempty
      exact takes.names_of_text_ne nonempty
  · intro describes
    have given : ∀ member ∈ members, ∀ field : TaskField, Spells member.key field.key →
        List.lookup field ([] : TaskDraft) = none ∧ ∃ text, Spells member.value text :=
      fun member listed field names => ⟨rfl, _, describes.given member listed field names⟩
    rcases exists_takesAll describes.readable describes.once given with ⟨final, takes⟩
    refine ⟨final, takes, TaskField.ext_get fun field => ?_⟩
    rw [get_task]
    by_cases named : ∃ member ∈ members, Spells member.key field.key
    · rcases named with ⟨member, listed, names⟩
      rcases takes.lookup_of_names listed names with ⟨-, text, isText, found⟩
      rw [TaskDraft.text, found]
      exact isText.unique (describes.given member listed field names)
    · have unread : final.text field = "" := by
        by_contra nonempty
        exact named (takes.names_of_text_ne nonempty)
      have empty : field.get task = "" := by
        by_contra nonempty
        exact named (describes.complete field nonempty)
      rw [unread, empty]

end TaskDocument

/-! ## Whole documents -/

/-- The whole of a text is read as the task that its members describe. -/
theorem ofJson_eq_ok_iff
    {text : String}
    {members : List Member}
    {task : Task}
    (isObject : IsObject text.toList members) :
    Task.ofJson text = .ok task ↔ Describes members task := by
  have read (draft : TaskDraft) (later : List Token) :
      TaskDocument.readDraft (tokens text) = .ok (draft, later) ↔
        TaskDocument.TakesAll [] members draft ∧ later = [] := by
    have nothing : tokensOf [] = [] := by
      rw [tokensOf, tokensOnto, List.reverse_nil]
    rw [← nothing, ← TaskDocument.readDraft_eq_ok_iff isObject [], List.append_nil]
    rfl
  rw [← TaskDocument.exists_takesAll_iff]
  constructor
  · intro decoded
    rcases exists_of_bind_eq_ok decoded with ⟨⟨draft, later⟩, draftRead, decoded⟩
    rcases (read draft later).1 draftRead with ⟨takes, rfl⟩
    cases decoded
    exact ⟨draft, takes, rfl⟩
  · rintro ⟨draft, takes, rfl⟩
    rw [Task.ofJson, (read draft []).2 ⟨takes, rfl⟩]
    rfl

/-- An object at the front of a text is read as the task that its members describe. -/
theorem ofJsonFront_append_eq_ok_iff
    {text : String}
    {members : List Member}
    {task : Task}
    (isObject : IsObject text.toList members)
    (rest : String) :
    Task.ofJsonFront (text ++ rest) = .ok task ↔ Describes members task := by
  rw [← TaskDocument.exists_takesAll_iff]
  have cut : tokens (text ++ rest) = tokensOf (text.toList ++ rest.toList) := by
    rw [tokens, String.toList_append]
    rfl
  rw [Task.ofJsonFront, cut]
  constructor
  · intro decoded
    cases read : TaskDocument.readDraft (tokensOf (text.toList ++ rest.toList)) with
    | error cause =>
        rw [read] at decoded
        cases decoded
    | ok result =>
        rw [read] at decoded
        cases decoded
        exact ⟨result.1, ((TaskDocument.readDraft_eq_ok_iff isObject rest.toList).1 read).1, rfl⟩
  · rintro ⟨draft, takes, rfl⟩
    rw [(TaskDocument.readDraft_eq_ok_iff isObject rest.toList).2 ⟨takes, rfl⟩]
    rfl

/-- The members of the object that is written for a task. -/
def writtenMembers (task : Task) : List Member :=
  TaskField.all.map fun field => ⟨quote field.key, quote (field.get task)⟩

theorem derives_quote
    (key text : String) :
    Derives (.member ⟨quote key, quote text⟩) (quote key ++ ':' :: quote text) := by
  have none : AreSpaces [] := by simp [AreSpaces]
  have isValue : Derives (.element (quote text)) (quote text) := by
    simpa using Derives.element none (.string (spells_quote text).isString) none
  simpa using Derives.member none (spells_quote key).isString none isValue

theorem derives_writeMembers
    (task : Task)
    (fields : List TaskField) :
    Derives (.members (fields.map fun field => ⟨quote field.key, quote (field.get task)⟩))
      (writeMembers (fields.map fun field => (field.key, .string (field.get task)))) := by
  induction fields with
  | nil =>
      exact .noMembers (by simp [AreSpaces, writeMembers])
  | cons field fields ih =>
      have first := derives_quote field.key (field.get task)
      cases fields with
      | nil =>
          simpa [writeMembers, Value.write] using Derives.lastMember first
      | cons next fields =>
          simpa [writeMembers, Value.write] using Derives.moreMembers first ih

theorem isObject_toJson
    (task : Task) :
    IsObject task.toJson.render.toList (writtenMembers task) := by
  refine ⟨[], _, [], ?_, ?_, derives_writeMembers task TaskField.all, ?_⟩
  · simp [Task.toJson, Value.render, Value.write]
  · simp [AreSpaces]
  · simp [AreSpaces]

theorem describes_writtenMembers
    (task : Task) :
    Describes (writtenMembers task) task := by
  have names {field named : TaskField} (spelled : Spells (quote field.key) named.key) :
      field = named :=
    TaskField.key_injective ((spells_quote field.key).unique spelled)
  refine
    { readable := ?_
      once := ?_
      given := ?_
      complete := fun field _ => ?_ }
  · intro member listed
    rcases List.mem_map.1 listed with ⟨field, -, rfl⟩
    exact ⟨field.key, spells_quote field.key⟩
  · have distinct : TaskField.all.Pairwise (· ≠ ·) := by decide
    refine List.pairwise_map.2 (distinct.imp ?_)
    intro first later other field firstNamed laterNamed
    exact other ((names firstNamed).trans (names laterNamed).symm)
  · intro member listed named spelled
    rcases List.mem_map.1 listed with ⟨field, -, rfl⟩
    rw [← names spelled]
    exact spells_quote (field.get task)
  · exact ⟨_, List.mem_map_of_mem (TaskField.mem_all field), spells_quote field.key⟩

/-- Two members of an object name the same field. -/
def NamesTwice (members : List Member) : Prop :=
  ∃ first later, [first, later].Sublist members ∧
    ∃ field : TaskField, Spells first.key field.key ∧ Spells later.key field.key

/-- A member of an object gives a field no string, or a string that spells no text. -/
def GivesNoText (members : List Member) : Prop :=
  ∃ member ∈ members, ∃ field : TaskField,
    Spells member.key field.key ∧ ∀ text, ¬ Spells member.value text

theorem not_describes
    {members : List Member}
    (faulty : NamesTwice members ∨ GivesNoText members)
    (task : Task) :
    ¬ Describes members task := by
  intro describes
  rcases faulty with ⟨first, later, listed, field, named, again⟩ |
    ⟨member, listed, field, named, noText⟩
  · exact List.pairwise_iff_forall_sublist.1 describes.once listed field named again
  · exact noText _ (describes.given member listed field named)

/--
A text that is an object is read as a task exactly if its members describe this
task, whether nothing else may follow or anything may.  An object that names a
field twice or gives it no text is refused, and the object that is written for a
task describes it.
-/
theorem ofJson_ignores_layout
    {text : String}
    {members : List Member}
    (isObject : IsObject text.toList members) :
    (∀ task, Task.ofJson text = .ok task ↔ Describes members task) ∧
    (∀ task rest, Task.ofJsonFront (text ++ rest) = .ok task ↔ Describes members task) ∧
    (NamesTwice members ∨ GivesNoText members →
      (∃ error, Task.ofJson text = .error error) ∧
      ∀ rest, ∃ error, Task.ofJsonFront (text ++ rest) = .error error) ∧
    ∀ task : Task, Task.ofJson task.toJson.render = .ok task ∧
      ∃ own, IsObject task.toJson.render.toList own ∧ Describes own task := by
  refine ⟨fun task => ofJson_eq_ok_iff isObject,
    fun task rest => ofJsonFront_append_eq_ok_iff isObject rest, ?_, ?_⟩
  · intro faulty
    constructor
    · cases read : Task.ofJson text with
      | error error =>
          exact ⟨error, rfl⟩
      | ok task =>
          exact absurd ((ofJson_eq_ok_iff isObject).1 read) (not_describes faulty task)
    · intro rest
      cases read : Task.ofJsonFront (text ++ rest) with
      | error error =>
          exact ⟨error, rfl⟩
      | ok task =>
          exact absurd ((ofJsonFront_append_eq_ok_iff isObject rest).1 read)
            (not_describes faulty task)
  · intro task
    have written := isObject_toJson task
    have describes := describes_writtenMembers task
    exact ⟨(ofJson_eq_ok_iff written).2 describes, _, written, describes⟩

/--
A key that is escaped, a surrogate pair and a number of any size to pass over;
and a field that is named twice.
-/
theorem ofJson_ignores_layout_escapes :
    let text := " \x7b\"x\":[-1e400],\n\"\\u0069d\" : \"\\ud83d\\uDE00\"\x7d"
    let members : List Member := [⟨"\"x\"".toList, "[-1e400]".toList⟩,
      ⟨"\"\\u0069d\"".toList, "\"\\ud83d\\uDE00\"".toList⟩]
    let task : Task := { id := "😀" }
    let twice := "\x7b\"id\":\"\",\"id\":\"\"\x7d"
    let doubled : List Member := [⟨quote "id", quote ""⟩, ⟨quote "id", quote ""⟩]
    (IsObject text.toList members ∧ Task.ofJson text = .ok task ∧ Describes members task) ∧
      IsObject twice.toList doubled ∧ NamesTwice doubled ∧
        ∃ error, Task.ofJson twice = .error error := by
  intro text members task twice doubled
  have none : AreSpaces [] := by simp [AreSpaces]
  have space : AreSpaces [' '] := by simp [AreSpaces]
  have line : AreSpaces ['\n'] := by simp [AreSpaces]
  have number : IsNumber "-1e400".toList := by
    refine ⟨['-'], by decide, ['1'], [], "e400".toList, by decide, ?_, .inl rfl, .inr ?_⟩
    · exact ⟨⟨by decide, List.all_eq_true.1 (by decide)⟩, by decide⟩
    · exact ⟨'e', by decide, [], by decide, "400".toList, by decide, by decide,
        List.all_eq_true.1 (by decide)⟩
  have list : Derives .value "[-1e400]".toList :=
    .list (.lastElement (.element none (.number number) none))
  have unknownKey : IsString "\"x\"".toList :=
    isString_of_skipQuoted "x\"".toList (by decide +kernel)
  have unknown : Derives (.member ⟨"\"x\"".toList, "[-1e400]".toList⟩) "\"x\":[-1e400]".toList :=
    .member none unknownKey none (.element none list none)
  have knownKey : IsString "\"\\u0069d\"".toList :=
    isString_of_skipQuoted "\\u0069d\"".toList (by decide +kernel)
  have smile : IsString "\"\\ud83d\\uDE00\"".toList :=
    isString_of_skipQuoted "\\ud83d\\uDE00\"".toList (by decide +kernel)
  have known : Derives (.member ⟨"\"\\u0069d\"".toList, "\"\\ud83d\\uDE00\"".toList⟩)
      "\n\"\\u0069d\" : \"\\ud83d\\uDE00\"".toList :=
    .member line knownKey space (.element space (.string smile) none)
  have isObject : IsObject text.toList members :=
    ⟨[' '], _, [], by decide, space, .moreMembers unknown (.lastMember known), none⟩
  have read : Task.ofJson text = .ok task := by decide +kernel
  have member := derives_quote "id" ""
  have isDouble : IsObject twice.toList doubled :=
    ⟨[], _, [], by decide, none, .moreMembers member (.lastMember member), none⟩
  have namesTwice : NamesTwice doubled :=
    ⟨_, _, .refl _, .id, spells_quote "id", spells_quote "id"⟩
  exact ⟨⟨isObject, read, ((ofJson_ignores_layout isObject).1 task).1 read⟩,
    isDouble, namesTwice, ((ofJson_ignores_layout isDouble).2.2.1 (.inl namesTwice)).1⟩

end Agenda
