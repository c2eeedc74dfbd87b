import Mathlib.Tactic.Common

/-! Computations that may end with an error, taken apart step by step. -/

namespace Fallible

universe u v

variable {ε : Type u} {α β : Type v}

theorem bind_ok {first : Except ε α} {next : α → Except ε β} {result : β} (done : (first >>= next) = .ok result) :
    ∃ value, first = .ok value ∧ next value = .ok result := by
  cases first with
  | error fault => cases done
  | ok value => exact ⟨value, rfl, done⟩

end Fallible
