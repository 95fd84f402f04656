import Mathlib.Data.List.Infix

/-!
Backtracking patterns as `re` tries them: a piece of a pattern lists the rests it may
leave of a text, in the order they are tried.
-/

namespace Orchestrator.Regex

variable {C A : Type}

abbrev Piece (C : Type) := List C → List (List C)

def literal [DecidableEq C] (word : List C) : Piece C := fun text => if word.isPrefixOf text then [text.drop word.length] else []

def optional (piece : Piece C) : Piece C := fun text => piece text ++ [text]

/-- `c*`, the longest run first -/
def greedy (c : C → Bool) : Piece C
  | [] => [[]]
  | x :: rest => if c x then greedy c rest ++ [x :: rest] else [x :: rest]

/-- `(.*?)` where a dot is any character: what the group takes and what it leaves, the shortest first -/
def lazily : List C → List (List C × List C)
  | [] => [([], [])]
  | x :: rest => ([], x :: rest) :: (lazily rest).map fun split => (x :: split.1, split.2)

/-- `re.search`: the first way to match at the first place where there is one. -/
def search (pattern : List C → List A) (text : List C) : Option A := text.tails.findSome? fun rest => (pattern rest).head?

theorem mem_literal [DecidableEq C] {word text rest : List C} : rest ∈ literal word text ↔ text = word ++ rest := by
  unfold literal
  constructor
  · intro h
    split at h
    · rename_i hbegins
      rw [List.mem_singleton.mp h]
      exact (List.prefix_iff_eq_append.mp (List.isPrefixOf_iff_prefix.mp hbegins)).symm
    · cases h
  · rintro rfl
    rw [if_pos (List.isPrefixOf_iff_prefix.mpr (List.prefix_append word rest)), List.drop_left]
    exact List.mem_singleton.mpr rfl

theorem mem_optional {piece : Piece C} {text rest : List C} : rest ∈ optional piece text ↔ rest ∈ piece text ∨ rest = text := by
  unfold optional
  rw [List.mem_append, List.mem_singleton]

theorem greedy_taken {c : C → Bool} {text rest : List C} (h : rest ∈ greedy c text) :
    ∃ taken, text = taken ++ rest ∧ ∀ x ∈ taken, c x = true := by
  induction text with
  | nil =>
    rw [List.mem_singleton.mp h]
    exact ⟨[], rfl, by simp⟩
  | cons x more ih =>
    unfold greedy at h
    split at h
    · rename_i hx
      rcases List.mem_append.mp h with hlater | hhere
      · obtain ⟨taken, rfl, hall⟩ := ih hlater
        exact ⟨x :: taken, rfl, List.forall_mem_cons.mpr ⟨hx, hall⟩⟩
      · rw [List.mem_singleton.mp hhere]
        exact ⟨[], rfl, by simp⟩
    · rw [List.mem_singleton.mp h]
      exact ⟨[], rfl, by simp⟩

theorem self_mem_greedy (c : C → Bool) (text : List C) : text ∈ greedy c text := by
  cases text with
  | nil => exact List.mem_singleton.mpr rfl
  | cons x rest =>
    unfold greedy
    split
    · exact List.mem_append_right _ (List.mem_singleton.mpr rfl)
    · exact List.mem_singleton.mpr rfl

theorem mem_lazily {text group rest : List C} : (group, rest) ∈ lazily text ↔ text = group ++ rest := by
  induction text generalizing group with
  | nil => simp [lazily]
  | cons x more ih =>
    unfold lazily
    rw [List.mem_cons, List.mem_map]
    constructor
    · rintro (h | ⟨split, hmem, heq⟩)
      · cases h
        rfl
      · cases heq
        rw [ih.mp hmem, List.cons_append]
    · intro h
      cases group with
      | nil => exact Or.inl (by rw [h]; rfl)
      | cons y group =>
        cases h
        exact Or.inr ⟨(group, rest), ih.mpr rfl, rfl⟩

theorem search_some {pattern : List C → List A} {text : List C} {a : A} (h : search pattern text = some a) :
    ∃ before rest, text = before ++ rest ∧ a ∈ pattern rest := by
  obtain ⟨rest, hrest, hhead⟩ := List.exists_of_findSome?_eq_some h
  obtain ⟨before, hbefore⟩ := (List.mem_tails _ _).mp hrest
  exact ⟨before, rest, hbefore.symm, List.mem_of_head? hhead⟩

theorem search_none {pattern : List C → List A} {before rest : List C} (h : search pattern (before ++ rest) = none) :
    pattern rest = [] := by
  have hall := List.findSome?_eq_none_iff.mp h rest ((List.mem_tails _ _).mpr (List.suffix_append before rest))
  exact List.head?_eq_none_iff.mp hall

end Orchestrator.Regex
