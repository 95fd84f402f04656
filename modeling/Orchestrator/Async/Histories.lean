import Mathlib.Data.List.Basic

/-!
Histories: lists of events, the latest first, in which every event finds in what came before
it what it needs.
-/

namespace Orchestrator.Async

variable {E : Type} {due : E → List E → Prop} {event : E} {older newer : List E}

def Clean (due : E → List E → Prop) : List E → Prop
  | [] => True
  | event :: older => due event older ∧ Clean due older

theorem Clean.split (h : Clean due (newer ++ event :: older)) : due event older ∧ Clean due older := by
  induction newer with
  | nil => exact h
  | cons _ _ ih => exact ih h.2

theorem Clean.append (h : Clean due older) (hnew : ∀ event ∈ newer, ∀ log, due event log) : Clean due (newer ++ older) := by
  induction newer with
  | nil => exact h
  | cons event newer ih =>
    exact ⟨hnew event List.mem_cons_self _, ih fun e he => hnew e (List.mem_cons_of_mem _ he)⟩

def Grows (P : List E → Prop) : Prop := ∀ event log, P log → P (event :: log)

theorem Grows.append {P : List E → Prop} (hP : Grows P) (events : List E) (h : P older) : P (events ++ older) := by
  induction events with
  | nil => exact h
  | cons event events ih => exact hP event _ ih

theorem true_grows : Grows fun _ : List E => True := fun _ _ _ => trivial

theorem mem_grows (event : E) : Grows (event ∈ ·) := fun _ _ h => List.mem_cons_of_mem _ h

theorem Grows.and {P Q : List E → Prop} (hP : Grows P) (hQ : Grows Q) : Grows fun log => P log ∧ Q log :=
  fun event log h => ⟨hP event log h.1, hQ event log h.2⟩

end Orchestrator.Async
