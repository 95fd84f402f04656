import Orchestrator.Pydantic.Reports

/-!
Places of a payload, the fields removed at them, and the places that reported
locations lead to when the names of union members on the way are stepped over.
-/

namespace Orchestrator.Pydantic

open Python

variable {v child child' : Value} {step other : Step} {loc place removed : List Step}

/-- `container[step] = child`, of a step that is there -/
def replaceAt : Value → Step → Value → Value
  | .mapping entries, .key name, child => .mapping (setKey entries name child)
  | .list items, .index n, child => .list (items.set n child)
  | v, _, _ => v

/-- `del container[step]`, of a mapping that has the key -/
def removeKey : Value → Step → Option Value
  | .mapping entries, .key name => if hasKey entries name then some (.mapping (popKey entries name)) else none
  | _, _ => none

def removeAt : Value → List Step → Value
  | v, [] => v
  | v, [last] => (removeKey v last).getD v
  | v, step :: next :: rest => match child? v step with
    | some child => replaceAt v step (removeAt child (next :: rest))
    | none => v

def removeAll (v : Value) (places : List (List Step)) : Value := places.foldl removeAt v

def present : Value → List Step → Bool
  | _, [] => false
  | v, [last] => (removeKey v last).isSome
  | v, step :: next :: rest => match child? v step with
    | some child => present child (next :: rest)
    | none => false

def target : Value → List Step → Option (List Step)
  | _, [] => none
  | _, [last] => some [last]
  | v, step :: next :: rest => match child? v step with
    | some child => (target child (next :: rest)).map fun place => step :: place
    | none => target v (next :: rest)

theorem child?_replaceAt_self (h : child? v step = some child) : child? (replaceAt v step child') step = some child' := by
  cases v with
  | mapping entries =>
    cases step with
    | key name => exact lookup_setKey_self entries name child'
    | index n => cases h
  | list items =>
    cases step with
    | key name => cases h
    | index n =>
      have hn : n < items.length := (List.getElem?_eq_some_iff.mp h).1
      simp [child?, replaceAt, hn]
  | _ => cases h

theorem child?_replaceAt_of_ne (h : other ≠ step) : child? (replaceAt v step child') other = child? v other := by
  cases v with
  | mapping entries =>
    cases step with
    | index n => rfl
    | key name =>
      cases other with
      | index n => rfl
      | key name' => exact lookup_setKey_of_ne entries child' fun hname => h (by rw [hname])
  | list items =>
    cases step with
    | key name => rfl
    | index n =>
      cases other with
      | key name' => rfl
      | index m =>
        have hm : n ≠ m := fun hnm => h (by rw [hnm])
        simp [child?, replaceAt, hm]
  | _ => rfl

theorem child?_removeKey {v' : Value} (h : removeKey v step = some v') :
    child? v' step = none ∧ ∀ other, other ≠ step → child? v' other = child? v other := by
  cases v with
  | mapping entries =>
    cases step with
    | index n => cases h
    | key name =>
      simp only [removeKey, Option.ite_none_right_eq_some, Option.some.injEq] at h
      obtain ⟨-, rfl⟩ := h
      refine ⟨lookup_popKey_self entries name, fun other hother => ?_⟩
      cases other with
      | index n => rfl
      | key name' => exact lookup_popKey_of_ne entries fun hname => hother (by rw [hname])
  | _ => cases h

theorem child?_removeAt_none (h : child? v step = none) : child? (removeAt v removed) step = none := by
  match removed with
  | [] => exact h
  | [last] =>
    unfold removeAt
    cases hremove : removeKey v last with
    | none => exact h
    | some v' =>
      by_cases hlast : step = last
      · rw [hlast]
        exact (child?_removeKey hremove).1
      · exact ((child?_removeKey hremove).2 step hlast).trans h
  | first :: next :: rest =>
    unfold removeAt
    cases hchild : child? v first with
    | none => exact h
    | some child =>
      have hne : step ≠ first := by
        rintro rfl
        rw [hchild] at h
        cases h
      exact (child?_replaceAt_of_ne hne).trans h

theorem child?_removeAt_of_head_ne (h : removed.head? ≠ some step) : child? (removeAt v removed) step = child? v step := by
  match removed with
  | [] => rfl
  | [last] =>
    have hne : step ≠ last := fun heq => h (by rw [heq]; rfl)
    unfold removeAt
    cases hremove : removeKey v last with
    | none => rfl
    | some v' => exact (child?_removeKey hremove).2 step hne
  | first :: next :: rest =>
    have hne : step ≠ first := fun heq => h (by rw [heq]; rfl)
    unfold removeAt
    cases hchild : child? v first with
    | none => rfl
    | some child => exact child?_replaceAt_of_ne hne

theorem child?_removeAt_beneath (h : child? v step = some child) (hremoved : removed ≠ []) :
    child? (removeAt v (step :: removed)) step = some (removeAt child removed) := by
  obtain ⟨next, rest, rfl⟩ := List.exists_cons_of_ne_nil hremoved
  simp only [removeAt, h]
  exact child?_replaceAt_self h

theorem target_ne_nil (h : target v loc = some place) : place ≠ [] := by
  fun_induction target v loc generalizing place with
  | case1 => cases h
  | case2 v last =>
    cases h
    simp
  | case3 v step next rest child hchild ih =>
    obtain ⟨q, -, rfl⟩ := Option.map_eq_some_iff.mp h
    simp
  | case4 v step next rest hchild ih => exact ih h

theorem target_removeAt (h : target v loc = some place) (hapart : removed <+: place → removed = place) :
    target (removeAt v removed) loc = some place := by
  fun_induction target v loc generalizing place removed with
  | case1 => cases h
  | case2 v last => exact h
  | case3 v step next rest child hchild ih =>
    obtain ⟨q, hq, rfl⟩ := Option.map_eq_some_iff.mp h
    unfold target
    by_cases hhead : removed.head? = some step
    · obtain ⟨more, rfl⟩ : ∃ more, removed = step :: more := List.head?_eq_some_iff.mp hhead
      have hmore : more ≠ [] := by
        rintro rfl
        have heq := hapart (by simp)
        exact target_ne_nil hq (by simpa using heq.symm)
      have hbelow : more <+: q → more = q := by
        intro hlead
        have heq := hapart (List.cons_prefix_cons.mpr ⟨rfl, hlead⟩)
        exact (List.cons.inj heq).2
      rw [child?_removeAt_beneath hchild hmore]
      simp only [ih hq hbelow, Option.map_some]
    · rw [child?_removeAt_of_head_ne hhead, hchild]
      simp only [hq, Option.map_some]
  | case4 v step next rest hchild ih =>
    unfold target
    rw [child?_removeAt_none hchild]
    exact ih h hapart

end Orchestrator.Pydantic
