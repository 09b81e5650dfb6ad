import Agenda.Text.Basic
import Mathlib.Data.List.TakeWhile

/-!
# Integers and words in a text

A decimal integer is a run of digits, after a sign or none.  `IsInteger` says
so without reading, and `readInt?_eq_some_iff` that reading finds exactly these
integers.  Words without blanks that are written with spaces between them are
found again by `words` (`words_intercalate`), and a text without words is blank.
A text is what `trim` leaves of it, with blanks around (`exists_toList_eq_trim`).
-/

namespace Agenda.Text

/-! ## Integers -/

/-- Digits, after a sign or none, stand for an integer. -/
inductive Denotes : List Char → Int → Prop where
  | unsigned {digits : List Char} (nonempty : digits ≠ [])
    (decimal : ∀ char ∈ digits, char.isDigit = true) :
    Denotes digits (digitsValue digits)
  | plus {digits : List Char} (nonempty : digits ≠ [])
    (decimal : ∀ char ∈ digits, char.isDigit = true) :
    Denotes ('+' :: digits) (digitsValue digits)
  | minus {digits : List Char} (nonempty : digits ≠ [])
    (decimal : ∀ char ∈ digits, char.isDigit = true) :
    Denotes ('-' :: digits) (-(digitsValue digits : Int))

/-- A text is an integer of 64 bits in decimal. -/
structure IsInteger (text : String) (value : Int) : Prop where
  denotes : Denotes text.toList value
  lower : minInt64 ≤ value
  upper : value ≤ maxInt64

theorem readDigits?_eq_some_iff
    {text : List Char} {value : Nat} :
    readDigits? text = some value ↔
      text ≠ [] ∧ (∀ char ∈ text, char.isDigit = true) ∧ digitsValue text = value := by
  rw [readDigits?]
  split
  · rename_i read
    simp only [Option.some.injEq]
    exact ⟨fun same => ⟨read.1, List.all_eq_true.1 read.2, same⟩, fun all => all.2.2⟩
  · rename_i unread
    simp only [reduceCtorEq, false_iff]
    rintro ⟨nonempty, decimal, -⟩
    exact unread ⟨nonempty, List.all_eq_true.2 decimal⟩

theorem readUnsigned?_eq_some_iff
    {text : List Char} {value : Nat} :
    readUnsigned? text = some value ↔
      readDigits? text = some value ∨
        ∃ digits, text = '+' :: digits ∧ readDigits? digits = some value := by
  unfold readUnsigned?
  split
  · rename_i digits
    have sign_unread : readDigits? ('+' :: digits) ≠ some value := by
      intro read
      have sign := (readDigits?_eq_some_iff.1 read).2.1 '+' List.mem_cons_self
      contradiction
    simp only [sign_unread, List.cons.injEq, true_and, exists_eq_left', false_or]
  · rename_i unsigned
    simp only [iff_self_or]
    rintro ⟨digits, same, -⟩
    exact absurd same (unsigned digits)

theorem readSigned?_eq_some_iff
    {text : List Char} {value : Int} :
    readSigned? text = some value ↔ Denotes text value := by
  constructor
  · intro read
    unfold readSigned? at read
    split at read
    · simp only [Option.map_eq_some_iff, Option.bind_eq_bind, Option.bind_eq_some_iff] at read
      rcases read with ⟨_, ⟨number, digits, same⟩, rfl⟩
      cases same
      rcases readDigits?_eq_some_iff.1 digits with ⟨nonempty, decimal, rfl⟩
      exact .minus nonempty decimal
    · rcases Option.map_eq_some_iff.1 read with ⟨number, unsigned, rfl⟩
      rcases readUnsigned?_eq_some_iff.1 unsigned with digits | ⟨_, rfl, digits⟩
      · rcases readDigits?_eq_some_iff.1 digits with ⟨nonempty, decimal, rfl⟩
        exact .unsigned nonempty decimal
      · rcases readDigits?_eq_some_iff.1 digits with ⟨nonempty, decimal, rfl⟩
        exact .plus nonempty decimal
  · intro denotes
    cases denotes with
    | minus nonempty decimal =>
        have read := readDigits?_eq_some_iff.2 ⟨nonempty, decimal, rfl⟩
        simp only [readSigned?, read]
        rfl
    | plus nonempty decimal =>
        have read := readDigits?_eq_some_iff.2 ⟨nonempty, decimal, rfl⟩
        have unsigned := readUnsigned?_eq_some_iff.2 (.inr ⟨_, rfl, read⟩)
        show (readUnsigned? _).map Int.ofNat = _
        rw [unsigned]
        rfl
    | unsigned nonempty decimal =>
        have read := readDigits?_eq_some_iff.2 ⟨nonempty, decimal, rfl⟩
        unfold readSigned?
        split
        · have sign := decimal '-' List.mem_cons_self
          contradiction
        · rw [readUnsigned?_eq_some_iff.2 (.inl read)]
          rfl

/-- Reading finds the integers of 64 bits. -/
theorem readInt?_eq_some_iff
    {text : String} {value : Int} :
    readInt? text = some value ↔ IsInteger text value := by
  rw [readInt?, Option.filter_eq_some_iff, readSigned?_eq_some_iff, decide_eq_true_eq]
  constructor
  · rintro ⟨denotes, lower, upper⟩
    exact ⟨denotes, lower, upper⟩
  · rintro ⟨denotes, lower, upper⟩
    exact ⟨denotes, lower, upper⟩

theorem readInt?_eq_none_iff {text : String} :
    readInt? text = none ↔ ∀ value, ¬ IsInteger text value := by
  simp only [Option.eq_none_iff_forall_ne_some, ne_eq, readInt?_eq_some_iff]

/-- An integer is written in decimal. -/
theorem isInteger_toString
    {value : Int}
    (lower : minInt64 ≤ value)
    (upper : value ≤ maxInt64) :
    IsInteger (toString value) value :=
  ⟨readSigned?_eq_some_iff.1 (readSigned?_repr value), lower, upper⟩

/-- An integer is written with digits and a hyphen. -/
theorem eq_or_isDigit_of_mem_toString
    {value : Int} {char : Char}
    (member : char ∈ (toString value).toList) :
    char = '-' ∨ char.isDigit = true := by
  have digits {number : Nat} (written : char ∈ (Nat.repr number).toList) :
      char.isDigit = true := by
    rw [Nat.toList_repr] at written
    exact Nat.isDigit_of_mem_toDigits (by omega) (by omega) written
  cases value with
  | ofNat number => exact .inr (digits member)
  | negSucc number =>
      change char ∈ ("-" ++ Nat.repr (number + 1)).toList at member
      rw [String.toList_append] at member
      rcases List.mem_append.1 member with sign | written
      · exact .inl (List.mem_singleton.1 sign)
      · exact .inr (digits written)

theorem isBlankChar_of_isDigit
    {char : Char}
    (digit : char.isDigit = true) :
    isBlankChar char = false := by
  simp only [Char.isDigit, Bool.and_eq_true, decide_eq_true_eq, UInt32.le_iff_toNat_le] at digit
  have bounds : 48 ≤ char.toNat ∧ char.toNat ≤ 57 := digit
  simp only [isBlankChar, blankRanges, List.any_cons, List.any_nil, Bool.or_eq_false_iff,
    Bool.and_eq_false_iff, decide_eq_false_iff_not, Bool.or_false]
  omega

/-! ## Words -/

/-- A text that is not empty and holds no blanks. -/
structure IsWord (word : String) : Prop where
  nonempty : word ≠ ""
  unbroken : ∀ char ∈ word.toList, isBlankChar char = false

theorem toList_ne_nil {text : String} (nonempty : text ≠ "") : text.toList ≠ [] :=
  mt String.toList_eq_nil_iff.1 nonempty

theorem isBlankChar_of_mem_toString
    {value : Int} {char : Char}
    (member : char ∈ (toString value).toList) :
    isBlankChar char = false := by
  rcases eq_or_isDigit_of_mem_toString member with rfl | digit
  · decide
  · exact isBlankChar_of_isDigit digit

theorem toString_ne_empty (value : Int) : toString value ≠ "" := by
  intro empty
  have read := readSigned?_repr value
  change value.repr = "" at empty
  rw [empty] at read
  cases read

theorem isWord_toString (value : Int) : IsWord (toString value) :=
  ⟨toString_ne_empty value, fun _ => isBlankChar_of_mem_toString⟩

theorem dropWhile_isBlankChar_eq_self
    {chars : List Char}
    (unbroken : ∀ char ∈ chars, isBlankChar char = false) :
    chars.dropWhile isBlankChar = chars := by
  cases chars with
  | nil => rfl
  | cons first later =>
      rw [List.dropWhile_cons, unbroken first List.mem_cons_self, if_neg Bool.false_ne_true]

/-- There is nothing to trim off a word. -/
theorem IsWord.trim_eq {word : String} (isWord : IsWord word) : trim word = word := by
  have front := dropWhile_isBlankChar_eq_self isWord.unbroken
  have back := @dropWhile_isBlankChar_eq_self word.toList.reverse
    fun char member => isWord.unbroken char (List.mem_reverse.1 member)
  simp only [trim, front, back, List.reverse_reverse, String.ofList_toList]

/-! ## Blanks around a text -/

/-- A text is its trimmed text with blanks around it. -/
theorem exists_toList_eq_trim (text : String) :
    ∃ front back, text.toList = front ++ (trim text).toList ++ back ∧
      (∀ char ∈ front, isBlankChar char = true) ∧ ∀ char ∈ back, isBlankChar char = true := by
  let rest := text.toList.dropWhile isBlankChar
  refine ⟨text.toList.takeWhile isBlankChar, (rest.reverse.takeWhile isBlankChar).reverse,
    ?_, ?_, ?_⟩
  · rw [trim, String.toList_ofList, List.append_assoc, ← List.reverse_append,
      List.takeWhile_append_dropWhile, List.reverse_reverse, List.takeWhile_append_dropWhile]
  · exact fun char member => List.mem_takeWhile_imp member
  · exact fun char member => List.mem_takeWhile_imp (List.mem_reverse.1 member)

/-- Trimming takes the blanks off a text whose core holds none. -/
theorem trim_eq_of_toList_eq
    {text : String} {front core back : List Char}
    (split : text.toList = front ++ core ++ back)
    (frontBlank : ∀ char ∈ front, isBlankChar char = true)
    (backBlank : ∀ char ∈ back, isBlankChar char = true)
    (unbroken : ∀ char ∈ core, isBlankChar char = false) :
    trim text = String.ofList core := by
  have trimmed : ((core ++ back).dropWhile isBlankChar).reverse.dropWhile isBlankChar =
      core.reverse := by
    cases core with
    | nil =>
        rw [List.nil_append, List.dropWhile_eq_nil_iff.2 backBlank]
        rfl
    | cons first later =>
        have letter := unbroken first List.mem_cons_self
        rw [List.cons_append, List.dropWhile_cons_of_neg (by simp [letter]), ← List.cons_append,
          List.reverse_append, List.dropWhile_append_of_pos]
        · exact dropWhile_isBlankChar_eq_self fun char member =>
            unbroken char (List.mem_reverse.1 member)
        · exact fun char member => backBlank char (List.mem_reverse.1 member)
  simp only [trim, split, List.append_assoc, List.dropWhile_append_of_pos frontBlank, trimmed,
    List.reverse_reverse]

/-- Nothing is left of a blank text. -/
theorem trim_eq_empty_iff {text : String} : trim text = "" ↔ isBlank text = true := by
  rw [isBlank, List.all_eq_true]
  constructor
  · intro empty
    rcases exists_toList_eq_trim text with ⟨front, back, split, frontBlank, backBlank⟩
    rw [empty] at split
    intro char member
    rw [split] at member
    rcases List.mem_append.1 member with inFront | inBack
    · exact frontBlank char (by simpa using inFront)
    · exact backBlank char inBack
  · intro blank
    exact @trim_eq_of_toList_eq text text.toList [] [] (by simp) blank
      (List.forall_mem_nil _) (List.forall_mem_nil _)

/-! ## Words of a text -/

theorem IsWord.words_eq {word : String} (isWord : IsWord word) : words word = [word] := by
  rw [words, List.splitOnP_eq_singleton isWord.unbroken]
  simp [toList_ne_nil isWord.nonempty]

/-- A word and a space in front of a text give the words of the text one more. -/
theorem IsWord.words_append
    {word : String} (isWord : IsWord word) (rest : String) :
    words (word ++ " " ++ rest) = word :: words rest := by
  have parted : (word ++ " " ++ rest).toList = word.toList ++ ' ' :: rest.toList := by
    simp [String.toList_append]
  rw [words, parted, List.splitOnP_append_cons_of_forall_mem isWord.unbroken ' ' (by decide)]
  simp [words, toList_ne_nil isWord.nonempty]

theorem words_intercalate
    {list : List String}
    (areWords : ∀ word ∈ list, IsWord word) :
    words (" ".intercalate list) = list := by
  induction list with
  | nil => rfl
  | cons word later ih =>
      have isWord := areWords word List.mem_cons_self
      cases later with
      | nil => rw [String.intercalate_singleton, isWord.words_eq]
      | cons next rest =>
          rw [String.intercalate_cons_cons, isWord.words_append,
            ih fun other member => areWords other (List.mem_cons_of_mem word member)]

theorem isBlankChar_of_mem_splitOnP
    {chars piece : List Char}
    (member : piece ∈ chars.splitOnP isBlankChar) :
    ∀ char ∈ piece, isBlankChar char = false := by
  induction chars generalizing piece with
  | nil =>
      rw [List.splitOnP_nil] at member
      rw [List.mem_singleton.1 member]
      exact List.forall_mem_nil _
  | cons first later ih =>
      rw [List.splitOnP_cons_eq_if_modifyHead] at member
      split at member
      · rcases List.mem_cons.1 member with rfl | member
        · exact List.forall_mem_nil _
        · exact ih member
      · rename_i letter
        rw [Bool.not_eq_true] at letter
        cases pieces : later.splitOnP isBlankChar with
        | nil => exact absurd pieces (List.splitOnP_ne_nil _ _)
        | cons head tail =>
            rw [pieces, List.modifyHead_cons] at member
            rcases List.mem_cons.1 member with rfl | member
            · intro char inPiece
              rcases List.mem_cons.1 inPiece with rfl | inHead
              · exact letter
              · exact ih (pieces ▸ List.mem_cons_self) char inHead
            · exact ih (pieces ▸ List.mem_cons_of_mem head member)

/-- The words of a text are words. -/
theorem isWord_of_mem_words
    {text word : String}
    (member : word ∈ words text) :
    IsWord word := by
  rcases List.mem_map.1 member with ⟨piece, kept, rfl⟩
  rcases List.mem_filter.1 kept with ⟨split, nonempty⟩
  refine ⟨?_, ?_⟩
  · intro empty
    rw [String.ofList_eq_empty_iff] at empty
    simp [empty] at nonempty
  · rw [String.toList_ofList]
    exact isBlankChar_of_mem_splitOnP split

/-- A text is blank exactly if it has no words. -/
theorem isBlank_iff
    {text : String} :
    isBlank text = true ↔ words text = [] := by
  rw [isBlank, List.all_eq_true, words, List.map_eq_nil_iff]
  induction text.toList with
  | nil => simp
  | cons first later ih =>
      rw [List.splitOnP_cons_eq_if_modifyHead]
      split
      · rename_i blank
        simpa [blank] using ih
      · rename_i letter
        cases pieces : later.splitOnP isBlankChar with
        | nil => exact absurd pieces (List.splitOnP_ne_nil _ _)
        | cons head tail => simp [letter]

end Agenda.Text
