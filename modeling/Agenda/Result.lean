/-!
# Results of steps that may fail

What a sequence of steps that ends well says about each of them, and what
becomes of a result whose error is seen as another one.
-/

namespace Agenda

/-- If two steps end well, the first one does, and the second one from its value. -/
theorem exists_of_bind_eq_ok {ε α β : Type} {first : Except ε α} {next : α → Except ε β}
    {result : β} (succeeded : first >>= next = .ok result) :
    ∃ value, first = .ok value ∧ next value = .ok result := by
  cases first with
  | error error => cases succeeded
  | ok value => exact ⟨value, rfl, succeeded⟩

theorem bind_eq_ok_iff {ε α β : Type} {first : Except ε α} {next : α → Except ε β} {result : β} :
    first >>= next = .ok result ↔ ∃ value, first = .ok value ∧ next value = .ok result := by
  constructor
  · exact exists_of_bind_eq_ok
  · rintro ⟨value, rfl, succeeded⟩
    exact succeeded

/-- Two steps fail if the first one does, or if the second one does from its value. -/
theorem bind_eq_error_iff {ε α β : Type} {first : Except ε α} {next : α → Except ε β} {error : ε} :
    first >>= next = .error error ↔
      first = .error error ∨ ∃ value, first = .ok value ∧ next value = .error error := by
  cases first with
  | error cause => simp [bind, Except.bind]
  | ok value => simp [bind, Except.bind]

variable {ε ε' α : Type} (wrap : ε → ε')

@[simp]
theorem mapError_ok (value : α) : (Except.ok value : Except ε α).mapError wrap = .ok value :=
  rfl

@[simp]
theorem mapError_error (error : ε) :
    (Except.error error : Except ε α).mapError wrap = .error (wrap error) :=
  rfl

theorem mapError_eq_ok_iff {ε ε' α : Type} {wrap : ε → ε'} {result : Except ε α} {value : α} :
    result.mapError wrap = .ok value ↔ result = .ok value := by
  cases result <;> simp

end Agenda
