import Mathlib.Logic.Function.Basic

/-!
Streams with consumer groups. A group hands out each entry once, in order, and
keeps those that are not acknowledged.
-/

namespace Orchestrator.Redis

structure Group where
  lastDelivered : Nat
  pending : List Nat

structure Stream (α : Type) where
  entries : List (Nat × α)
  lastId : Nat
  groups : String → Option Group

namespace Stream

variable {α : Type} {s : Stream α} {name other : String} {g : Group} {id : Nat} {a : α}

def empty : Stream α := ⟨[], 0, fun _ => none⟩

def add (s : Stream α) (id : Nat) (a : α) (trimmed : Nat) : Stream α :=
  { s with entries := (s.entries ++ [(id, a)]).drop trimmed, lastId := id }

def setGroup (s : Stream α) (name : String) (g : Option Group) : Stream α :=
  { s with groups := Function.update s.groups name g }

def unread (s : Stream α) (g : Group) : List (Nat × α) := s.entries.filter fun entry => g.lastDelivered < entry.1

def deliver (s : Stream α) (name : String) (g : Group) (id : Nat) : Stream α :=
  s.setGroup name (some ⟨id, g.pending ++ [id]⟩)

def acknowledge (s : Stream α) (name : String) (id : Nat) : Stream α :=
  s.setGroup name ((s.groups name).map fun g => ⟨g.lastDelivered, g.pending.filter (· ≠ id)⟩)

@[simp] theorem setGroup_self (g : Option Group) : (s.setGroup name g).groups name = g :=
  Function.update_self ..

theorem setGroup_of_ne (g : Option Group) (h : other ≠ name) : (s.setGroup name g).groups other = s.groups other :=
  Function.update_of_ne h ..

theorem mem_add {trimmed : Nat} {entry : Nat × α} (h : entry ∈ (s.add id a trimmed).entries) :
    entry ∈ s.entries ∨ entry = (id, a) := by
  rcases List.mem_append.mp (List.mem_of_mem_drop h) with hold | hnew
  · exact .inl hold
  · exact .inr (List.mem_singleton.mp hnew)

theorem mem_unread {entry : Nat × α} : entry ∈ s.unread g ↔ entry ∈ s.entries ∧ g.lastDelivered < entry.1 := by
  simp [unread]

end Stream

end Orchestrator.Redis
