/-! Code that returns or raises: what follows from how it ended. -/
namespace Pazuzu.Python

variable {ε α β : Type} {code : Except ε α} {next : α → Except ε β} {result : β} {error : ε}

theorem of_bind (h : code >>= next = .ok result) : ∃ value, code = .ok value ∧ next value = .ok result := by
  cases code with
  | ok value => exact ⟨value, rfl, h⟩
  | error error => cases h

theorem of_bind_error (h : code >>= next = .error error) :
    code = .error error ∨ ∃ value, code = .ok value ∧ next value = .error error := by
  cases code with
  | ok value => exact Or.inr ⟨value, rfl, h⟩
  | error first =>
      cases h
      exact Or.inl rfl

/-- A `raise` under `if`, with the rest after it. -/
theorem of_guard {p : Prop} [Decidable p] {next : Unit → Except ε β}
    (h : (if p then Except.error error >>= next else next ()) = .ok result) : ¬p ∧ next () = .ok result := by
  split at h
  · cases h
  · next hFails => exact ⟨hFails, h⟩

/-- A `raise` under `if` at the end. -/
theorem of_unless {p : Prop} [Decidable p] (h : (if p then .error error else .ok ()) = Except.ok ()) : ¬p := by
  intro hFails
  rw [if_pos hFails] at h
  cases h

end Pazuzu.Python
