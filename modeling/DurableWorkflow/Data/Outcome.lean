namespace DurableWorkflow

universe u v

-- What a computation comes to that may be broken off by a panic: a fault for which its caller has
-- no answer. A panic passes through everything up to the boundary of the call.
inductive Outcome (α : Type u)
  | returned (value : α)
  | panicked
  deriving DecidableEq

namespace Outcome

variable {α : Type u} {β : Type v}

instance [Inhabited α] : Inhabited (Outcome α) := ⟨.returned default⟩

def map (f : α → β) : Outcome α → Outcome β
  | .returned value => .returned (f value)
  | .panicked => .panicked

def bind : Outcome α → (α → Outcome β) → Outcome β
  | .returned value, next => next value
  | .panicked, _ => .panicked

instance : Monad Outcome where
  pure := .returned
  bind := bind

@[simp]
theorem returned_bind {α β : Type u} (value : α) (next : α → Outcome β) :
    (Outcome.returned value >>= next) = next value := rfl

@[simp]
theorem panicked_bind {α β : Type u} (next : α → Outcome β) :
    (Outcome.panicked >>= next) = .panicked := rfl

theorem bind_eq_returned_iff {α β : Type u} {first : Outcome α} {next : α → Outcome β} {b : β} :
    first >>= next = .returned b ↔ ∃ a, first = .returned a ∧ next a = .returned b := by
  cases first <;> simp

theorem map_eq_returned_iff {first : Outcome α} {f : α → β} {b : β} :
    first.map f = .returned b ↔ ∃ a, first = .returned a ∧ f a = b := by
  cases first <;> simp [map]

end Outcome

end DurableWorkflow
