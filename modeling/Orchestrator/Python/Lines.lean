import Mathlib.Data.List.Basic

/-!
The lines of a text as `str.splitlines` finds them, and a text with its line breaks normalised.
-/

namespace Orchestrator.Python

def isBoundary (c : Char) : Bool := [0xa, 0xb, 0xc, 0xd, 0x1c, 0x1d, 0x1e, 0x85, 0x2028, 0x2029].contains c.toNat

def splitFrom : List Char → List Char → List (List Char)
  | line, [] => if line.isEmpty then [] else [line]
  | line, '\r' :: '\n' :: rest => line :: splitFrom [] rest
  | line, c :: rest => if isBoundary c then line :: splitFrom [] rest else splitFrom (line ++ [c]) rest

def splitlines (text : List Char) : List (List Char) := splitFrom [] text

def unlines (lines : List (List Char)) : List Char := lines.flatMap fun line => line ++ ['\n']

def normalise (newline : Char → Bool) : List Char → List Char
  | [] => []
  | '\r' :: '\n' :: rest => '\n' :: normalise newline rest
  | c :: rest => (if newline c then '\n' else c) :: normalise newline rest

theorem unlines_cons (line : List Char) (lines : List (List Char)) : unlines (line :: lines) = line ++ '\n' :: unlines lines := by
  rw [unlines, List.flatMap_cons, List.append_assoc]
  rfl

theorem flatten_splitFrom (line text : List Char) : (splitFrom line text).flatten = line ++ text.filter fun c => !isBoundary c := by
  induction line, text using splitFrom.induct with
  | case1 line h =>
    obtain rfl := List.isEmpty_iff.mp h
    rfl
  | case2 line h => simp [splitFrom, h]
  | case3 line rest ih =>
    rw [splitFrom, List.flatten_cons, ih]
    rfl
  | case4 line c rest hcr hboundary ih =>
    rw [splitFrom, if_pos hboundary, List.flatten_cons, ih, List.filter_cons_of_neg (by simpa using hboundary), List.nil_append]
    exact hcr
  | case5 line c rest hcr hboundary ih =>
    rw [splitFrom, if_neg hboundary, ih, List.filter_cons_of_pos (by simpa using hboundary), List.append_assoc, List.singleton_append]
    exact hcr

theorem flatten_splitlines (text : List Char) : (splitlines text).flatten = text.filter fun c => !isBoundary c := flatten_splitFrom [] text

theorem splitFrom_ne_nil {line text : List Char} (h : line ++ text ≠ []) : splitFrom line text ≠ [] := by
  induction line, text using splitFrom.induct with
  | case1 line hline =>
    obtain rfl := List.isEmpty_iff.mp hline
    exact absurd rfl h
  | case2 line hline => simp [splitFrom, hline]
  | case3 line rest ih => simp [splitFrom]
  | case4 line c rest hcr hboundary ih =>
    rw [splitFrom, if_pos hboundary]
    · exact List.cons_ne_nil _ _
    · exact hcr
  | case5 line c rest hcr hboundary ih =>
    rw [splitFrom, if_neg hboundary]
    · exact ih (by simp)
    · exact hcr

section Normalising

variable {newline : Char → Bool}

theorem normalise_cons {c : Char} {rest : List Char} (h : ∀ more, c = '\r' → rest = '\n' :: more → False) :
    normalise newline (c :: rest) = (if newline c then '\n' else c) :: normalise newline rest := by
  rw [normalise]
  exact h

def Closed (lines : List (List Char)) (tail : List Char) : Prop := tail = [] ∨ tail = ['\n'] ∧ ¬ [[]] <:+ lines

theorem Closed.cons {lines : List (List Char)} {tail rest : List Char} (h : Closed lines tail) (hlines : unlines lines = rest ++ tail)
    (line : List Char) : Closed (line :: lines) tail := by
  rcases h with h | ⟨rfl, hlast⟩
  · exact Or.inl h
  · refine Or.inr ⟨rfl, fun hsuffix => ?_⟩
    rcases List.suffix_cons_iff.mp hsuffix with heq | hsuffix
    · rw [← (List.cons.inj heq).2] at hlines
      exact absurd hlines.symm (List.append_ne_nil_of_right_ne_nil _ (List.cons_ne_nil _ _))
    · exact hlast hsuffix

theorem unlines_splitFrom (hnewline : ∀ c, newline c = true → isBoundary c = true) {line text : List Char}
    (h : ∀ c ∈ text, isBoundary c = true → newline c = true) :
    ∃ tail, unlines (splitFrom line text) = line ++ normalise newline text ++ tail ∧ Closed (splitFrom line text) tail := by
  induction line, text using splitFrom.induct with
  | case1 line hline =>
    obtain rfl := List.isEmpty_iff.mp hline
    exact ⟨[], rfl, Or.inl rfl⟩
  | case2 line hline =>
    have hsplit : splitFrom line [] = [line] := by simp [splitFrom, hline]
    rw [hsplit]
    refine ⟨['\n'], by simp [unlines, normalise], Or.inr ⟨rfl, fun hsuffix => hline ?_⟩⟩
    rw [← List.singleton_inj.mp (hsuffix.eq_of_length rfl)]
    rfl
  | case3 line rest ih =>
    obtain ⟨tail, hlines, hclosed⟩ := ih fun c hc => h c (List.mem_cons_of_mem _ (List.mem_cons_of_mem _ hc))
    rw [splitFrom, normalise]
    refine ⟨tail, ?_, hclosed.cons hlines line⟩
    rw [unlines_cons, hlines]
    simp
  | case4 line c rest hcr hboundary ih =>
    obtain ⟨tail, hlines, hclosed⟩ := ih fun c hc => h c (List.mem_cons_of_mem _ hc)
    have hsplit : splitFrom line (c :: rest) = line :: splitFrom [] rest := by
      rw [splitFrom, if_pos hboundary]
      exact hcr
    rw [hsplit, normalise_cons hcr, if_pos (h c List.mem_cons_self hboundary)]
    refine ⟨tail, ?_, hclosed.cons hlines line⟩
    rw [unlines_cons, hlines]
    simp
  | case5 line c rest hcr hboundary ih =>
    obtain ⟨tail, hlines, hclosed⟩ := ih fun c hc => h c (List.mem_cons_of_mem _ hc)
    have hsplit : splitFrom line (c :: rest) = splitFrom (line ++ [c]) rest := by
      rw [splitFrom, if_neg hboundary]
      exact hcr
    rw [hsplit, normalise_cons hcr, if_neg fun hc => hboundary (hnewline c hc)]
    refine ⟨tail, ?_, hclosed⟩
    rw [hlines]
    simp

theorem mem_normalise {c : Char} {text : List Char} (hmem : c ∈ text) (hc : newline c = false) (hfeed : newline '\n' = true)
    (hreturn : newline '\r' = true) : c ∈ normalise newline text := by
  induction text using normalise.induct with
  | case1 => cases hmem
  | case2 rest ih =>
    rcases List.mem_cons.mp hmem with rfl | hmem
    · rw [hreturn] at hc
      cases hc
    · rcases List.mem_cons.mp hmem with rfl | hmem
      · rw [hfeed] at hc
        cases hc
      · exact List.mem_cons_of_mem _ (ih hmem)
  | case3 c' rest hcr ih =>
    rw [normalise_cons hcr]
    rcases List.mem_cons.mp hmem with rfl | hmem
    · rw [hc]
      exact List.mem_cons_self
    · exact List.mem_cons_of_mem _ (ih hmem)

end Normalising

end Orchestrator.Python
