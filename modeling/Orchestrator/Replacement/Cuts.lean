import Orchestrator.Replacement.Places

/-!
A text some parts of which have become marks. A word that is apart from the mark stands in it
only where it stood in the text before.
-/

namespace Orchestrator.Replacement

variable {C : Type} {mark word text out : List C}

inductive Cut (mark : List C) : List C → List C → Prop where
  | done : Cut mark [] []
  | keep (c : C) {text out : List C} : Cut mark text out → Cut mark (c :: text) (c :: out)
  | mark (block : List C) {text out : List C} : Cut mark text out → Cut mark (block ++ text) (mark ++ out)

theorem Cut.append (h : Cut mark text out) (part : List C) : Cut mark (part ++ text) (part ++ out) := by
  induction part with
  | nil => exact h
  | cons c part ih => exact .keep c ih

theorem infix_of_mark_append (hword : Apart mark word) (hne : word ≠ []) (h : word <:+: mark ++ out) : word <:+: out := by
  obtain ⟨before, after, heq⟩ := h
  have hat : word <+: (mark ++ out).drop before.length := by
    rw [← heq, List.append_assoc, List.drop_left]
    exact List.prefix_append word after
  have hlength : 0 < word.length := List.length_pos_iff.mpr hne
  have hpast : mark.length ≤ before.length := by
    rcases hword (mark ++ out) 0 before.length (List.prefix_append mark out) hat with hle | hle <;> omega
  refine ⟨before.drop mark.length, after, ?_⟩
  have hdrop := congrArg (List.drop mark.length) heq
  rw [List.drop_left, List.append_assoc, List.drop_append_of_le_length hpast, ← List.append_assoc] at hdrop
  exact hdrop

/-- At the start of the result a word stands as in the text, unless a mark begins within it. -/
theorem Cut.prefix_or_meets (h : Cut mark text out) (hbegins : word <+: out) :
    word <+: text ∨ ∃ k, k < word.length ∧ mark <+: out.drop k := by
  induction h generalizing word with
  | done => exact .inl hbegins
  | keep c h ih =>
    cases word with
    | nil => exact .inl List.nil_prefix
    | cons d rest =>
      obtain ⟨rfl, hrest⟩ := List.cons_prefix_cons.mp hbegins
      rcases ih hrest with hstands | ⟨k, hk, hmeets⟩
      · exact .inl (List.cons_prefix_cons.mpr ⟨rfl, hstands⟩)
      · exact .inr ⟨k + 1, by simpa using hk, hmeets⟩
  | mark block h ih =>
    cases word with
    | nil => exact .inl List.nil_prefix
    | cons d rest => exact .inr ⟨0, by simp, List.prefix_append _ _⟩

theorem Cut.prefix_of_apart (h : Cut mark text out) (hmark : mark ≠ []) (hword : Apart mark word) (hbegins : word <+: out) :
    word <+: text := by
  rcases h.prefix_or_meets hbegins with hstands | ⟨k, hk, hmeets⟩
  · exact hstands
  · have hlength : 0 < mark.length := List.length_pos_iff.mpr hmark
    rcases hword out k 0 hmeets hbegins with hle | hle <;> omega

theorem Cut.infix_of_apart (h : Cut mark text out) (hmark : mark ≠ []) (hword : Apart mark word) (hne : word ≠ [])
    (hstands : word <:+: out) : word <:+: text := by
  induction h with
  | done => exact hstands
  | keep c h ih =>
    rcases List.infix_cons_iff.mp hstands with hbegins | hlater
    · exact (Cut.prefix_of_apart (.keep c h) hmark hword hbegins).isInfix
    · exact List.infix_cons (ih hlater)
  | mark block h ih =>
    have hrest := ih (infix_of_mark_append hword hne hstands)
    exact hrest.trans (List.suffix_append _ _).isInfix

section Words

variable [DecidableEq C]

theorem replaceFrom_cut (word : List C) (n : Nat) (text : List C) :
    Cut mark (text.drop n) (replaceFrom id mark word n text) := by
  induction text generalizing n with
  | nil => cases n <;> exact .done
  | cons a rest ih =>
    cases n with
    | succ n => exact ih n
    | zero =>
      rw [List.drop_zero, replaceFrom]
      split
      · have hsplit : a :: rest = (a :: rest.take (word.length - 1)) ++ rest.drop (word.length - 1) := by simp
        rw [hsplit]
        exact .mark _ (ih _)
      · exact .keep a (ih 0)

theorem replaceFrom_gone (hmark : mark ≠ []) (hword : Apart mark word) (hne : word ≠ []) (n : Nat) (text : List C) :
    ¬ word <:+: replaceFrom id mark word n text := by
  induction text generalizing n with
  | nil =>
    intro h
    cases n <;> exact hne (List.infix_nil.mp h)
  | cons a rest ih =>
    cases n with
    | succ n => exact ih n
    | zero =>
      intro h
      rw [replaceFrom] at h
      split at h
      · exact ih _ (infix_of_mark_append hword hne h)
      · next hother =>
        rcases List.infix_cons_iff.mp h with hbegins | hlater
        · have hstands := Cut.prefix_of_apart (.keep a (replaceFrom_cut word 0 rest)) hmark hword hbegins
          rw [List.map_id, List.isPrefixOf_iff_prefix] at hother
          exact hother hstands
        · exact ih 0 hlater

theorem replaceEach_cons (first : List C) (words : List (List C)) (text : List C) :
    replaceEach id mark (first :: words) text =
      replaceEach id mark words (if first.isEmpty then text else replaceFrom id mark first 0 text) := rfl

theorem infix_of_replaceEach (hmark : mark ≠ []) (hword : Apart mark word) (hne : word ≠ []) {words : List (List C)} {text : List C}
    (h : word <:+: replaceEach id mark words text) : word <:+: text := by
  induction words generalizing text with
  | nil => exact h
  | cons first words ih =>
    rw [replaceEach_cons] at h
    split at h
    · exact ih h
    · exact Cut.infix_of_apart (replaceFrom_cut first 0 text) hmark hword hne (ih h)

/-- Replaced one after another, none of the words is left, also where they overlap or hold one another. -/
theorem replaceEach_gone (hmark : mark ≠ []) {words : List (List C)} (hwords : ∀ word ∈ words, word ≠ [] → Apart mark word)
    (text : List C) : ∀ word ∈ words, word ≠ [] → ¬ word <:+: replaceEach id mark words text := by
  induction words generalizing text with
  | nil => exact fun word hword => absurd hword List.not_mem_nil
  | cons first words ih =>
    intro word hword hne
    rw [replaceEach_cons]
    rcases List.mem_cons.mp hword with rfl | hlater
    · have hapart := hwords word List.mem_cons_self hne
      rw [if_neg (by simpa using hne)]
      exact fun h => replaceFrom_gone hmark hapart hne 0 text (infix_of_replaceEach hmark hapart hne h)
    · exact ih (fun other hother => hwords other (List.mem_cons_of_mem _ hother)) _ word hlater hne

end Words

end Orchestrator.Replacement
