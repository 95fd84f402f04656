import Mathlib.Data.List.Infix

/-!
Replacing words of a text by a mark, one word after another. A character may carry more
than what it is compared by, such as the place it comes from.
-/

namespace Orchestrator.Replacement

variable {A B C : Type} [DecidableEq C]

/-- `text.replace(word, mark)` of a word that is not empty; the number says how many characters
belong to an occurrence that is already replaced. -/
def replaceFrom (view : A → C) (mark : List A) (word : List C) : Nat → List A → List A
  | _, [] => []
  | n + 1, _ :: rest => replaceFrom view mark word n rest
  | 0, a :: rest =>
    if word.isPrefixOf ((a :: rest).map view) then mark ++ replaceFrom view mark word (word.length - 1) rest
    else a :: replaceFrom view mark word 0 rest

def replaceEach (view : A → C) (mark : List A) (words : List (List C)) (text : List A) : List A :=
  words.foldl (fun text word => if word.isEmpty then text else replaceFrom view mark word 0 text) text

section Renaming

variable {view : A → C} {view' : B → C} {f : A → B} (h : ∀ a, view' (f a) = view a) {mark : List A}

include h in
theorem map_replaceFrom (word : List C) (n : Nat) (text : List A) :
    (replaceFrom view mark word n text).map f = replaceFrom view' (mark.map f) word n (text.map f) := by
  have hview : view' ∘ f = view := funext h
  induction text generalizing n with
  | nil => rfl
  | cons a rest ih =>
    cases n with
    | succ n => exact ih n
    | zero =>
      have hsame : ((a :: rest).map f).map view' = (a :: rest).map view := by rw [List.map_map, hview]
      rw [List.map_cons, replaceFrom, replaceFrom, ← List.map_cons, hsame]
      split
      · rw [List.map_append, ih]
      · rw [List.map_cons, ih]

include h in
theorem map_replaceEach (words : List (List C)) (text : List A) :
    (replaceEach view mark words text).map f = replaceEach view' (mark.map f) words (text.map f) := by
  induction words generalizing text with
  | nil => rfl
  | cons word rest ih =>
    unfold replaceEach at ih ⊢
    rw [List.foldl_cons, List.foldl_cons, ih]
    split
    · rfl
    · rw [map_replaceFrom h]

end Renaming

inductive Piece (C : Type) where
  | kept (c : C)
  | block (first : C) (others : List C)

namespace Piece

def view : Piece C → Option C
  | .kept c => some c
  | .block .. => none

def chars : Piece C → List C
  | .kept c => [c]
  | .block first others => first :: others

end Piece

def source (pieces : List (Piece C)) : List C := pieces.flatMap Piece.chars

def render (place : Nat → C → A) (mark : List A) : Nat → List (Piece C) → List A
  | _, [] => []
  | i, .kept c :: rest => place i c :: render place mark (i + 1) rest
  | i, .block _ others :: rest => mark ++ render place mark (i + (others.length + 1)) rest

def takeFrom (first : C) (others : List C) : Nat → List (Piece C) → List (Piece C)
  | _, [] => []
  | n + 1, _ :: rest => takeFrom first others n rest
  | 0, p :: rest =>
    if ((first :: others).map some).isPrefixOf ((p :: rest).map Piece.view) then .block first others :: takeFrom first others others.length rest
    else p :: takeFrom first others 0 rest

def Apart (mark word : List C) : Prop :=
  ∀ (text : List C) (i j : Nat), mark <+: text.drop i → word <+: text.drop j → i + mark.length ≤ j ∨ j + word.length ≤ i

omit [DecidableEq C] in
theorem apart_of_disjoint {mark word : List C} (hmark : mark ≠ []) (hword : word ≠ []) (h : ∀ c ∈ word, c ∉ mark) : Apart mark word := by
  intro text i j hi hj
  by_contra hmeet
  push Not at hmeet
  -- The place where the later of the two begins belongs to both.
  have hmarkLength := List.length_pos_iff.mpr hmark
  have hwordLength := List.length_pos_iff.mpr hword
  have hin : ∀ {part : List C} {k p : Nat}, part <+: text.drop k → k ≤ p → p < k + part.length → ∃ c ∈ part, text[p]? = some c := by
    rintro part k p ⟨rest, hrest⟩ hle hlt
    obtain ⟨m, rfl⟩ := Nat.exists_eq_add_of_le hle
    have hm : m < part.length := by omega
    refine ⟨part[m], List.getElem_mem hm, ?_⟩
    rw [← List.getElem?_drop, ← hrest, List.getElem?_append_left hm, List.getElem?_eq_getElem hm]
  obtain ⟨c, hc, hat⟩ := hin hi (le_max_left i j) (by omega)
  obtain ⟨c', hc', hat'⟩ := hin hj (le_max_right i j) (by omega)
  obtain rfl := Option.some.inj (hat.symm.trans hat')
  exact h c hc' hc

section Rendering

variable {view : A → C} {place : Nat → C → A} {mark : List A} (hplace : ∀ i c, view (place i c) = c) (hmark : mark ≠ [])

omit [DecidableEq C] in
include hplace in
theorem render_prefix {word : List C} {i : Nat} {pieces : List (Piece C)} (h : word.map some <+: pieces.map Piece.view) :
    word <+: (render place mark i pieces).map view := by
  induction word generalizing i pieces with
  | nil => exact List.nil_prefix
  | cons c rest ih =>
    cases pieces with
    | nil => simp at h
    | cons p pieces =>
      obtain ⟨hview, hrest⟩ := List.cons_prefix_cons.mp h
      cases p with
      | kept c' =>
        obtain rfl := Option.some.inj hview
        rw [render, List.map_cons, hplace]
        exact List.cons_prefix_cons.mpr ⟨rfl, ih hrest⟩
      | block => cases hview

omit [DecidableEq C] in
include hplace in
theorem prefix_or_meets {word : List C} {i : Nat} {pieces : List (Piece C)} (h : word <+: (render place mark i pieces).map view) :
    word.map some <+: pieces.map Piece.view ∨
      ∃ k, k < word.length ∧ mark.map view <+: ((render place mark i pieces).map view).drop k := by
  induction word generalizing i pieces with
  | nil => exact Or.inl List.nil_prefix
  | cons c rest ih =>
    cases pieces with
    | nil => simp [render] at h
    | cons p pieces =>
      cases p with
      | kept c' =>
        rw [render, List.map_cons, hplace] at h
        rw [render, List.map_cons]
        obtain ⟨rfl, hrest⟩ := List.cons_prefix_cons.mp h
        rcases ih hrest with hbegins | ⟨k, hk, hmeets⟩
        · exact Or.inl (List.cons_prefix_cons.mpr ⟨rfl, hbegins⟩)
        · exact Or.inr ⟨k + 1, Nat.succ_lt_succ hk, hmeets⟩
      | block first others =>
        refine Or.inr ⟨0, Nat.succ_pos _, ?_⟩
        rw [render, List.map_append]
        exact List.prefix_append _ _

omit [DecidableEq C] in
include hplace hmark in
theorem prefix_render_iff {word : List C} (hword : Apart (mark.map view) word) (i : Nat) (pieces : List (Piece C)) :
    word <+: (render place mark i pieces).map view ↔ word.map some <+: pieces.map Piece.view := by
  constructor
  · intro h
    rcases prefix_or_meets hplace h with hbegins | ⟨k, hk, hmeets⟩
    · exact hbegins
    · have hlength := List.length_pos_iff.mpr hmark
      rcases hword _ k 0 hmeets h with hle | hle
      · rw [List.length_map] at hle
        omega
      · omega
  · exact render_prefix hplace

theorem replaceFrom_append {word : List C} {part text : List A} (h : ∀ k, k < part.length → ¬ word <+: ((part ++ text).map view).drop k) :
    replaceFrom view mark word 0 (part ++ text) = part ++ replaceFrom view mark word 0 text := by
  induction part with
  | nil => rfl
  | cons a part ih =>
    have hfirst : ¬ word.isPrefixOf ((a :: (part ++ text)).map view) = true := fun hbegins =>
      h 0 (Nat.succ_pos _) (List.isPrefixOf_iff_prefix.mp hbegins)
    rw [List.cons_append, replaceFrom, if_neg hfirst, ih fun k hk => h (k + 1) (Nat.succ_lt_succ hk)]
    rfl

theorem replaceFrom_mark {word : List C} (hword : Apart (mark.map view) word) (hne : word ≠ []) (text : List A) :
    replaceFrom view mark word 0 (mark ++ text) = mark ++ replaceFrom view mark word 0 text := by
  apply replaceFrom_append
  intro k hk hbegins
  have hat : mark.map view <+: ((mark ++ text).map view).drop 0 := by
    rw [List.map_append]
    exact List.prefix_append _ _
  have hlength := List.length_pos_iff.mpr hne
  rcases hword _ 0 k hat hbegins with hle | hle
  · rw [List.length_map] at hle
    omega
  · omega

def Piece.isKept : Piece C → Prop
  | .kept _ => True
  | .block .. => False

omit [DecidableEq C] in
theorem kept_of_prefix {word : List C} {pieces : List (Piece C)} (h : word.map some <+: pieces.map Piece.view) :
    word.length ≤ pieces.length ∧ ∀ p ∈ pieces.take word.length, p.isKept := by
  induction word generalizing pieces with
  | nil => simp
  | cons c rest ih =>
    cases pieces with
    | nil => simp at h
    | cons p pieces =>
      obtain ⟨hview, hrest⟩ := List.cons_prefix_cons.mp h
      obtain ⟨hlength, hkept⟩ := ih hrest
      have hp : p.isKept := by
        cases p with
        | kept => trivial
        | block => cases hview
      exact ⟨Nat.succ_le_succ hlength, List.forall_mem_cons.mpr ⟨hp, hkept⟩⟩

include hplace hmark in
theorem replaceFrom_render {first : C} {others : List C} (hword : Apart (mark.map view) (first :: others)) (n i : Nat)
    {pieces : List (Piece C)} (hn : n ≤ pieces.length) (hkept : ∀ p ∈ pieces.take n, p.isKept) :
    replaceFrom view mark (first :: others) n (render place mark i pieces) =
      render place mark (i + n) (takeFrom first others n pieces) := by
  induction pieces generalizing n i with
  | nil => rfl
  | cons p rest ih =>
    cases n with
    | succ n =>
      obtain ⟨hp, hrest⟩ := List.forall_mem_cons.mp hkept
      cases p with
      | block => exact hp.elim
      | kept c =>
        have := ih n (i + 1) (Nat.le_of_succ_le_succ hn) hrest
        rw [render, replaceFrom, this, takeFrom]
        congr 1
        omega
    | zero =>
      have hnone := ih 0 (i + p.chars.length) (Nat.zero_le _) (by simp)
      by_cases hbegins : (first :: others).map some <+: (p :: rest).map Piece.view
      · obtain ⟨hlength, htaken⟩ := kept_of_prefix (List.cons_prefix_cons.mp hbegins).2
        cases p with
        | block => simp [Piece.view, List.cons_prefix_cons] at hbegins
        | kept c =>
          have htext := (prefix_render_iff hplace hmark hword i (.kept c :: rest)).mpr hbegins
          have := ih others.length (i + 1) hlength htaken
          rw [takeFrom, if_pos (List.isPrefixOf_iff_prefix.mpr hbegins), render, render, replaceFrom]
          rw [render] at htext
          rw [if_pos (List.isPrefixOf_iff_prefix.mpr htext), List.length_cons, Nat.add_sub_cancel, this]
          congr 2
          omega
      · rw [takeFrom, if_neg fun h => hbegins (List.isPrefixOf_iff_prefix.mp h)]
        cases p with
        | kept c =>
          have htext := fun h => hbegins ((prefix_render_iff hplace hmark hword i (.kept c :: rest)).mp h)
          rw [render] at htext
          rw [render, replaceFrom, if_neg fun h => htext (List.isPrefixOf_iff_prefix.mp h)]
          exact congrArg _ hnone
        | block c cs =>
          rw [render, replaceFrom_mark hword (List.cons_ne_nil _ _)]
          exact congrArg _ hnone

end Rendering

section Places

def masked : Nat → List (Piece C) → Nat → Prop
  | _, [], _ => False
  | i, .kept _ :: rest, p => masked (i + 1) rest p
  | i, .block _ others :: rest, p => (i ≤ p ∧ p < i + (others.length + 1)) ∨ masked (i + (others.length + 1)) rest p

def starts : Nat → List (Piece C) → Nat → Prop
  | _, [], _ => False
  | i, .kept _ :: rest, p => starts (i + 1) rest p
  | i, .block _ others :: rest, p => p = i ∨ starts (i + (others.length + 1)) rest p

variable (text : List C)

/-- The word stands at the place `i`, and no part of it is masked. -/
def Free (hidden : Nat → Prop) (word : List C) (i : Nat) : Prop :=
  word <+: text.drop i ∧ ∀ p, i ≤ p → p < i + word.length → ¬ hidden p

/-- The word is replaced where it stands at `i`: it is free there, and meets no place further
left where it is replaced. -/
def Taken (hidden : Nat → Prop) (word : List C) (i : Nat) : Prop :=
  Free text hidden word i ∧ ∀ j, (_ : j < i) → Taken hidden word j → j + word.length ≤ i
termination_by i

def maskedBy (hidden : Nat → Prop) : List (List C) → Nat → Prop
  | [] => hidden
  | word :: rest => maskedBy (fun p => hidden p ∨ ∃ i, Taken text hidden word i ∧ i ≤ p ∧ p < i + word.length) rest

def takenBy (hidden : Nat → Prop) : List (List C) → Nat → Prop
  | [] => fun _ => False
  | word :: rest => fun i => (word ≠ [] ∧ Taken text hidden word i) ∨
      takenBy (fun p => hidden p ∨ ∃ i, Taken text hidden word i ∧ i ≤ p ∧ p < i + word.length) rest i

variable {text} {hidden : Nat → Prop} {word : List C}

omit [DecidableEq C]

variable {pieces : List (Piece C)}

theorem le_of_masked {i p : Nat} (h : masked i pieces p) : i ≤ p := by
  induction pieces generalizing i with
  | nil => exact h.elim
  | cons piece rest ih =>
    cases piece with
    | kept c =>
      have := ih h
      omega
    | block first others =>
      rcases h with h | h
      · exact h.1
      · have := ih h
        omega

theorem le_of_starts {i p : Nat} (h : starts i pieces p) : i ≤ p := by
  induction pieces generalizing i with
  | nil => exact h.elim
  | cons piece rest ih =>
    cases piece with
    | kept c =>
      have := ih h
      omega
    | block first others =>
      rcases h with h | h
      · omega
      · have := ih h
        omega

theorem prefix_view_iff (i : Nat) :
    word.map some <+: pieces.map Piece.view ↔
      word <+: source pieces ∧ ∀ p, i ≤ p → p < i + word.length → ¬ masked i pieces p := by
  induction word generalizing i pieces with
  | nil =>
    constructor
    · exact fun _ => ⟨List.nil_prefix, fun p hle hlt => by simp only [List.length_nil] at hlt; omega⟩
    · exact fun _ => List.nil_prefix
  | cons c rest ih =>
    cases pieces with
    | nil => simp [source]
    | cons piece pieces =>
      cases piece with
      | kept c' =>
        rw [List.map_cons, List.map_cons, List.cons_prefix_cons, ih (i + 1)]
        show some c = some c' ∧ _ ↔ c :: rest <+: c' :: source pieces ∧ _
        rw [List.cons_prefix_cons, Option.some.injEq, and_assoc]
        apply and_congr_right
        intro _
        apply and_congr_right
        intro _
        constructor
        · intro h p hle hlt hmasked
          have hrest : masked (i + 1) pieces p := hmasked
          exact h p (le_of_masked hrest) (by simp only [List.length_cons] at hlt; omega) hrest
        · intro h p hle hlt
          exact h p (by omega) (by simp only [List.length_cons]; omega)
      | block first others =>
        constructor
        · intro h
          cases (List.cons_prefix_cons.mp h).1
        · rintro ⟨-, h⟩
          exact absurd (Or.inl ⟨le_refl i, by omega⟩) (h i (le_refl i) (by simp only [List.length_cons]; omega))

theorem Taken.free {i : Nat} (h : Taken text hidden word i) : Free text hidden word i := by
  rw [Taken] at h
  exact h.1

theorem Taken.after {i j : Nat} (h : Taken text hidden word i) (hj : Taken text hidden word j) (hlt : j < i) :
    j + word.length ≤ i := by
  rw [Taken] at h
  exact h.2 j hlt hj

theorem Taken.ne_of_nil {i : Nat} (h : Taken text hidden word i) (hword : word ≠ []) : i < text.length := by
  obtain ⟨rest, hrest⟩ := h.free.1
  by_contra hge
  rw [List.drop_eq_nil_of_le (by omega)] at hrest
  exact hword (List.append_eq_nil_iff.mp hrest).1

theorem not_taken_of_hidden {i : Nat} (hword : word ≠ []) (h : hidden i) : ¬ Taken text hidden word i :=
  fun htaken => htaken.free.2 i (le_refl i) (by have := List.length_pos_iff.mpr hword; omega) h

theorem exists_skip {T : Nat → Prop} {i i' m p : Nat} (hle : i ≤ i') (hnone : ∀ j, i ≤ j → j < i' → ¬ T j) :
    (∃ j, i ≤ j ∧ T j ∧ j ≤ p ∧ p < j + m) ↔ ∃ j, i' ≤ j ∧ T j ∧ j ≤ p ∧ p < j + m := by
  constructor
  · rintro ⟨j, hj, hT, hp⟩
    exact ⟨j, not_lt.mp fun hlt => hnone j hj hlt hT, hT, hp⟩
  · rintro ⟨j, hj, hT, hp⟩
    exact ⟨j, by omega, hT, hp⟩

theorem and_skip {T : Nat → Prop} {i i' p : Nat} (hle : i ≤ i') (hnone : ∀ j, i ≤ j → j < i' → ¬ T j) :
    (i ≤ p ∧ T p) ↔ (i' ≤ p ∧ T p) := by
  constructor
  · rintro ⟨hp, hT⟩
    exact ⟨not_lt.mp fun hlt => hnone p hp hlt hT, hT⟩
  · rintro ⟨hp, hT⟩
    exact ⟨by omega, hT⟩

theorem source_tail {piece : Piece C} {rest : List (Piece C)} {i : Nat} (h : source (piece :: rest) = text.drop i) :
    source rest = text.drop (i + piece.chars.length) := by
  have hsplit : piece.chars ++ source rest = text.drop i := h
  rw [← List.drop_drop, ← hsplit, List.drop_left]

variable [DecidableEq C]

theorem takeFrom_places {first : C} {others : List C} {n i : Nat}
    (hsource : source pieces = text.drop i) (hhidden : ∀ p, i ≤ p → (hidden p ↔ masked i pieces p))
    (hn : n ≤ pieces.length) (hkept : ∀ p ∈ pieces.take n, p.isKept)
    (hleft : ∀ j, j < i → Taken text hidden (first :: others) j → j + (others.length + 1) ≤ i + n)
    (hopen : n ≠ 0 → ∃ j, j < i ∧ Taken text hidden (first :: others) j ∧ j + (others.length + 1) = i + n) :
    source (takeFrom first others n pieces) = text.drop (i + n) ∧
      (∀ p, masked (i + n) (takeFrom first others n pieces) p ↔
        masked i pieces p ∨ ∃ j, i ≤ j ∧ Taken text hidden (first :: others) j ∧ j ≤ p ∧ p < j + (others.length + 1)) ∧
      ∀ p, starts (i + n) (takeFrom first others n pieces) p ↔
        starts i pieces p ∨ (i ≤ p ∧ Taken text hidden (first :: others) p) := by
  have hlength : (first :: others).length = others.length + 1 := List.length_cons
  induction pieces generalizing n i with
  | nil =>
    obtain rfl : n = 0 := by simpa using hn
    have hend : text.length ≤ i := List.drop_eq_nil_iff.mp hsource.symm
    have hnone : ∀ j, i ≤ j → ¬ Taken text hidden (first :: others) j := by
      intro j hj htaken
      have := htaken.ne_of_nil (List.cons_ne_nil _ _)
      omega
    refine ⟨hsource, fun p => ?_, fun p => ?_⟩
    · exact iff_of_false (fun h => h) (fun h => h.elim (fun h => h) fun ⟨j, hj, htaken, _⟩ => hnone j hj htaken)
    · exact iff_of_false (fun h => h) (fun h => h.elim (fun h => h) fun ⟨hp, htaken⟩ => hnone p hp htaken)
  | cons piece rest ih =>
    have hnext := source_tail hsource
    cases n with
    | succ n =>
      obtain ⟨hp, hrest⟩ := List.forall_mem_cons.mp hkept
      cases piece with
      | block => exact hp.elim
      | kept c =>
        obtain ⟨j, hj, htaken, hend⟩ := hopen (Nat.succ_ne_zero n)
        have hnone : ∀ j', i ≤ j' → j' < i + 1 → ¬ Taken text hidden (first :: others) j' := by
          intro j' hle hlt htaken'
          have := htaken'.after htaken (by omega)
          omega
        have hlater := ih (n := n) (i := i + 1) hnext (fun p hp => hhidden p (by omega)) (Nat.le_of_succ_le_succ hn) hrest
          (fun j' hj' htaken' => by
            have := hleft j' (not_le.mp fun hle => hnone j' hle hj' htaken') htaken'
            omega)
          (fun _ => ⟨j, by omega, htaken, by omega⟩)
        rw [takeFrom, show i + (n + 1) = i + 1 + n by omega]
        refine ⟨hlater.1, fun p => ?_, fun p => ?_⟩
        · rw [hlater.2.1 p, exists_skip (Nat.le_succ i) hnone]
          rfl
        · rw [hlater.2.2 p, and_skip (Nat.le_succ i) hnone]
          rfl
    | zero =>
      have hfree : (first :: others).map some <+: (piece :: rest).map Piece.view ↔ Taken text hidden (first :: others) i := by
        rw [prefix_view_iff i, hsource, Taken]
        constructor
        · rintro ⟨hbegins, hkept⟩
          refine ⟨⟨hbegins, fun p hle hlt hp => hkept p hle hlt ((hhidden p hle).mp hp)⟩, fun j hj htaken => ?_⟩
          exact hlength ▸ hleft j hj htaken
        · rintro ⟨⟨hbegins, hfree⟩, -⟩
          exact ⟨hbegins, fun p hle hlt hp => hfree p hle hlt ((hhidden p hle).mpr hp)⟩
      by_cases htaken : Taken text hidden (first :: others) i
      · have hbegins := hfree.mpr htaken
        obtain ⟨hroom, hrest⟩ := kept_of_prefix (List.cons_prefix_cons.mp hbegins).2
        cases piece with
        | block => cases (List.cons_prefix_cons.mp hbegins).1
        | kept c =>
          have hlater := ih (n := others.length) (i := i + 1) hnext (fun p hp => hhidden p (by omega)) hroom hrest
            (fun j hj htaken' => by
              rcases Nat.lt_succ_iff_lt_or_eq.mp hj with hlt | rfl
              · have := hleft j hlt htaken'
                omega
              · omega)
            (fun _ => ⟨i, by omega, htaken, by omega⟩)
          rw [takeFrom, if_pos (List.isPrefixOf_iff_prefix.mpr hbegins)]
          rw [show i + 1 + others.length = i + (others.length + 1) by omega] at hlater
          obtain ⟨hsrc, hmasked, hstarts⟩ := hlater
          refine ⟨?_, fun p => ?_, fun p => ?_⟩
          · show (first :: others) ++ source _ = _
            rw [hsrc, ← hlength, ← List.drop_drop]
            exact (List.prefix_iff_eq_append.mp htaken.free.1)
          · show (i ≤ p ∧ p < i + (others.length + 1)) ∨ masked (i + (others.length + 1)) _ p ↔ masked (i + 1) rest p ∨ _
            rw [hmasked p]
            constructor
            · rintro (hp | hp | ⟨j, hj, h⟩)
              · exact Or.inr ⟨i, le_refl i, htaken, hp⟩
              · exact Or.inl hp
              · exact Or.inr ⟨j, by omega, h⟩
            · rintro (hp | ⟨j, hj, h⟩)
              · exact Or.inr (Or.inl hp)
              · rcases Nat.lt_or_eq_of_le hj with hlt | rfl
                · exact Or.inr (Or.inr ⟨j, hlt, h⟩)
                · exact Or.inl h.2
          · show p = i ∨ starts (i + (others.length + 1)) _ p ↔ starts (i + 1) rest p ∨ _
            rw [hstarts p]
            constructor
            · rintro (rfl | hp | ⟨hp, h⟩)
              · exact Or.inr ⟨le_refl _, htaken⟩
              · exact Or.inl hp
              · exact Or.inr ⟨by omega, h⟩
            · rintro (hp | ⟨hp, h⟩)
              · exact Or.inr (Or.inl hp)
              · rcases Nat.lt_or_eq_of_le hp with hlt | rfl
                · exact Or.inr (Or.inr ⟨hlt, h⟩)
                · exact Or.inl rfl
      · have hnone : ∀ j, i ≤ j → j < i + piece.chars.length → ¬ Taken text hidden (first :: others) j := by
          intro j hle hlt
          cases piece with
          | kept c =>
            obtain rfl : j = i := by simp only [Piece.chars, List.length_singleton] at hlt; omega
            exact htaken
          | block c cs =>
            apply not_taken_of_hidden (List.cons_ne_nil _ _)
            exact (hhidden j hle).mpr (Or.inl ⟨hle, hlt⟩)
        have hlater := ih (n := 0) (i := i + piece.chars.length) hnext
          (fun p hp => by
            rw [hhidden p (by omega)]
            cases piece with
            | kept c => rfl
            | block c cs => exact or_iff_right fun h => absurd h.2 (not_lt.mpr hp))
          (Nat.zero_le _) (by simp)
          (fun j hj htaken' => by
            rcases Nat.lt_or_ge j i with hlt | hge
            · have := hleft j hlt htaken'
              omega
            · exact absurd htaken' (hnone j hge hj))
          (fun h => absurd rfl h)
        obtain ⟨hsrc, hmasked, hstarts⟩ := hlater
        have hle : i ≤ i + piece.chars.length := Nat.le_add_right _ _
        rw [takeFrom, if_neg fun h => htaken (hfree.mp (List.isPrefixOf_iff_prefix.mp h))]
        refine ⟨?_, fun p => ?_, fun p => ?_⟩
        · show piece.chars ++ source _ = _
          rw [hsrc, Nat.add_zero, ← hnext]
          exact hsource
        · have := hmasked p
          rw [← exists_skip hle hnone] at this
          cases piece with
          | kept c => exact this
          | block c cs =>
            show _ ∨ _ ↔ (_ ∨ _) ∨ _
            rw [or_assoc]
            exact or_congr_right this
        · have := hstarts p
          rw [← and_skip hle hnone] at this
          cases piece with
          | kept c => exact this
          | block c cs =>
            show _ ∨ _ ↔ (_ ∨ _) ∨ _
            rw [or_assoc]
            exact or_congr_right this

end Places

def takeEach (words : List (List C)) (pieces : List (Piece C)) : List (Piece C) :=
  words.foldl (fun pieces word => match word with
    | [] => pieces
    | first :: others => takeFrom first others 0 pieces) pieces

theorem replaceEach_render {view : A → C} {place : Nat → C → A} {mark : List A} (hplace : ∀ i c, view (place i c) = c) (hmark : mark ≠ [])
    {words : List (List C)} (hwords : ∀ word ∈ words, word ≠ [] → Apart (mark.map view) word) (pieces : List (Piece C)) :
    replaceEach view mark words (render place mark 0 pieces) = render place mark 0 (takeEach words pieces) := by
  induction words generalizing pieces with
  | nil => rfl
  | cons word rest ih =>
    obtain ⟨hword, hrest⟩ := List.forall_mem_cons.mp hwords
    unfold replaceEach takeEach at ih ⊢
    rw [List.foldl_cons, List.foldl_cons, ← ih hrest]
    cases word with
    | nil => rfl
    | cons first others =>
      rw [List.isEmpty_cons, replaceFrom_render hplace hmark (hword (List.cons_ne_nil _ _)) 0 0 (Nat.zero_le _) (by simp)]
      rfl

theorem takeEach_places {text : List C} (words : List (List C)) {hidden : Nat → Prop} {pieces : List (Piece C)}
    (hsource : source pieces = text) (hhidden : ∀ p, hidden p ↔ masked 0 pieces p) :
    source (takeEach words pieces) = text ∧ (∀ p, masked 0 (takeEach words pieces) p ↔ maskedBy text hidden words p) ∧
      ∀ p, starts 0 (takeEach words pieces) p ↔ starts 0 pieces p ∨ takenBy text hidden words p := by
  induction words generalizing hidden pieces with
  | nil => exact ⟨hsource, fun p => (hhidden p).symm, fun p => (or_iff_left (fun h => h)).symm⟩
  | cons word rest ih =>
    unfold takeEach at ih ⊢
    rw [List.foldl_cons]
    cases word with
    | nil =>
      have hsame : (fun p => hidden p ∨ ∃ i, Taken text hidden [] i ∧ i ≤ p ∧ p < i + ([] : List C).length) = hidden := by
        funext p
        apply propext
        apply or_iff_left
        rintro ⟨i, -, hle, hlt⟩
        exact absurd hlt (not_lt.mpr hle)
      rw [maskedBy, takenBy, hsame]
      obtain ⟨hsrc, hmasked, hstarts⟩ := ih hsource hhidden
      refine ⟨hsrc, hmasked, fun p => (hstarts p).trans (or_congr_right (or_iff_right ?_).symm)⟩
      exact fun h => h.1 rfl
    | cons first others =>
      have hleft : ∀ j, j < 0 → Taken text hidden (first :: others) j → j + (others.length + 1) ≤ 0 + 0 := by
        intro j hj
        exact absurd hj (Nat.not_lt_zero j)
      obtain ⟨hsrc, hmasked, hstarts⟩ := takeFrom_places (n := 0) (i := 0) hsource (fun p _ => hhidden p) (Nat.zero_le _) (by simp)
        hleft (fun h => absurd rfl h)
      have hhidden' : ∀ p, (hidden p ∨ ∃ i, Taken text hidden (first :: others) i ∧ i ≤ p ∧ p < i + (first :: others).length) ↔
          masked 0 (takeFrom first others 0 pieces) p := by
        intro p
        rw [hmasked p, hhidden p]
        simp only [Nat.zero_le, true_and, List.length_cons]
      obtain ⟨hsrc', hmasked', hstarts'⟩ := ih hsrc hhidden'
      refine ⟨hsrc', hmasked', fun p => ?_⟩
      rw [hstarts' p, hstarts p, takenBy, or_assoc]
      simp only [Nat.zero_le, true_and, ne_eq, reduceCtorEq, not_false_eq_true]

def untouched (text : List C) : List (Piece C) := text.map .kept

omit [DecidableEq C] in
theorem source_untouched (text : List C) : source (untouched text) = text := by
  induction text with
  | nil => rfl
  | cons c rest ih => exact congrArg (c :: ·) ih

omit [DecidableEq C] in
theorem not_masked_untouched (text : List C) (i p : Nat) : ¬ masked i (untouched text) p := by
  induction text generalizing i with
  | nil => exact fun h => h
  | cons c rest ih => exact ih (i + 1)

omit [DecidableEq C] in
theorem not_starts_untouched (text : List C) (i p : Nat) : ¬ starts i (untouched text) p := by
  induction text generalizing i with
  | nil => exact fun h => h
  | cons c rest ih => exact ih (i + 1)

end Orchestrator.Replacement
