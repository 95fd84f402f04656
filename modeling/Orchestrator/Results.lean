import Mathlib.Logic.Basic

/-!
Peeling apart the runs of a computation that may refuse.
-/

namespace Orchestrator

variable {E A B : Type} {x : Except E A} {f : A → Except E B}

theorem bind_ok {b : B} (h : (x >>= f) = .ok b) : ∃ a, x = .ok a ∧ f a = .ok b := by
  cases x with
  | error e => cases h
  | ok a => exact ⟨a, rfl, h⟩

end Orchestrator
