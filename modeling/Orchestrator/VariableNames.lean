import Mathlib.Data.List.TakeWhile

/-! The names of environment variables. -/

namespace Orchestrator

def isNameStart (c : Char) : Bool := c.isAlpha || c == '_'

def isNameChar (c : Char) : Bool := isNameStart c || c.isDigit

def isName : List Char → Bool
  | [] => false
  | c :: rest => isNameStart c && rest.all isNameChar

def leadingName : List Char → List Char
  | [] => []
  | c :: rest => if isNameStart c then c :: rest.takeWhile isNameChar else []

theorem isNameChar_of_isName {name : List Char} (h : isName name = true) : ∀ c ∈ name, isNameChar c = true := by
  cases name with
  | nil => cases h
  | cons first rest =>
    obtain ⟨hfirst, hrest⟩ := Bool.and_eq_true_iff.mp h
    intro c hc
    rcases List.mem_cons.mp hc with rfl | hmem
    · exact Bool.or_eq_true_iff.mpr (.inl hfirst)
    · exact List.all_eq_true.mp hrest c hmem

theorem leadingName_append {name after : List Char} (h : isName name = true) (hafter : ∀ c ∈ after.head?, isNameChar c = false) :
    leadingName (name ++ after) = name := by
  cases name with
  | nil => cases h
  | cons first rest =>
    obtain ⟨hfirst, hrest⟩ := Bool.and_eq_true_iff.mp h
    have hstop : after.takeWhile isNameChar = [] := by
      cases after with
      | nil => rfl
      | cons c tail => rw [List.takeWhile_cons, hafter c rfl, if_neg (by simp)]
    rw [List.cons_append, leadingName, if_pos hfirst, List.takeWhile_append_of_pos (List.all_eq_true.mp hrest), hstop, List.append_nil]

theorem isName_leadingName {text : List Char} (h : leadingName text ≠ []) : isName (leadingName text) = true := by
  cases text with
  | nil => exact absurd rfl h
  | cons c rest =>
    by_cases hc : isNameStart c = true
    · rw [leadingName, if_pos hc, isName, hc]
      simp
    · rw [leadingName, if_neg hc] at h
      exact absurd rfl h

end Orchestrator
