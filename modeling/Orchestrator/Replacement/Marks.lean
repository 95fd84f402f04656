import Mathlib.Data.Nat.Count
import Orchestrator.Replacement.Places

/-!
What stands where once words have been replaced: places of the text, and marks between them.
-/

namespace Orchestrator.Replacement

variable {A C : Type}

def marks : Nat → List (Piece C) → List (Option Nat)
  | _, [] => []
  | i, .kept _ :: rest => some i :: marks (i + 1) rest
  | i, .block _ others :: rest => none :: marks (i + (others.length + 1)) rest

def shown (place : Nat → C → A) (mark : List A) (text : List C) : Option Nat → List A
  | none => mark
  | some p => (text[p]?.map (place p)).toList

theorem render_eq_shown {text : List C} {place : Nat → C → A} {mark : List A} {i : Nat} {pieces : List (Piece C)}
    (h : source pieces = text.drop i) : render place mark i pieces = (marks i pieces).flatMap (shown place mark text) := by
  induction pieces generalizing i with
  | nil => rfl
  | cons piece rest ih =>
    have hnext := source_tail h
    cases piece with
    | kept c =>
      have hc : text[i]? = some c := by
        have hcons : c :: source rest = text.drop i := h
        rw [← Nat.add_zero i, ← List.getElem?_drop, ← hcons]
        rfl
      rw [render, marks, List.flatMap_cons, shown, hc, ih (i := i + 1) hnext]
      rfl
    | block first others =>
      rw [render, marks, List.flatMap_cons, shown, ih (i := i + (others.length + 1)) hnext]

def spread (m : Nat) : Option Nat → List (Option Nat)
  | none => List.replicate (m + 1) none
  | some p => [some p]

theorem map_render {place : Nat → C → A} {mark : List A} {origin : A → Option Nat} {m : Nat} (hplace : ∀ i c, origin (place i c) = some i)
    (hmark : mark.map origin = List.replicate (m + 1) none) (i : Nat) (pieces : List (Piece C)) :
    (render place mark i pieces).map origin = (marks i pieces).flatMap (spread m) := by
  induction pieces generalizing i with
  | nil => rfl
  | cons piece rest ih =>
    cases piece with
    | kept c =>
      rw [render, marks, List.map_cons, hplace, ih, List.flatMap_cons]
      rfl
    | block first others => rw [render, marks, List.map_append, hmark, ih, List.flatMap_cons, spread]

theorem spread_injective {m : Nat} {l l' : List (Option Nat)} (h : l.flatMap (spread m) = l'.flatMap (spread m)) : l = l' := by
  induction l generalizing l' with
  | nil =>
    cases l' with
    | nil => rfl
    | cons o rest => cases o <;> simp [spread, List.replicate_succ] at h
  | cons o rest ih =>
    cases l' with
    | nil => cases o <;> simp [spread, List.replicate_succ] at h
    | cons o' rest' =>
      rw [List.flatMap_cons, List.flatMap_cons] at h
      cases o with
      | none =>
        cases o' with
        | none => rw [ih (List.append_cancel_left h)]
        | some p => simp [spread, List.replicate_succ] at h
      | some p =>
        cases o' with
        | none => simp [spread, List.replicate_succ] at h
        | some p' =>
          obtain ⟨hp, hrest⟩ := List.cons.inj h
          rw [ih hrest, hp]

def tally (final : Nat) : Nat → List (Option Nat) → List (Nat × Nat)
  | n, [] => [(final, n)]
  | n, none :: rest => tally final (n + 1) rest
  | n, some p :: rest => (p, n) :: tally final n rest

theorem le_of_mem_tally {final n : Nat} {l : List (Option Nat)} {entry : Nat × Nat} (h : entry ∈ tally final n l) : n ≤ entry.2 := by
  induction l generalizing n with
  | nil =>
    rw [List.mem_singleton.mp h]
  | cons o rest ih =>
    cases o with
    | none =>
      have := ih h
      omega
    | some p =>
      rcases List.mem_cons.mp h with rfl | h
      · exact le_refl _
      · exact ih h

theorem tally_ne_nil (final n : Nat) (l : List (Option Nat)) : tally final n l ≠ [] := by
  induction l generalizing n with
  | nil => exact List.cons_ne_nil _ _
  | cons o rest ih =>
    cases o with
    | none => exact ih (n + 1)
    | some p => exact List.cons_ne_nil _ _

theorem tally_ne_succ {final n p : Nat} {l : List (Option Nat)} {more : List (Nat × Nat)} : (p, n) :: more ≠ tally final (n + 1) l := by
  intro h
  have hmem : (p, n) ∈ tally final (n + 1) l := h ▸ List.mem_cons_self
  have hle : n + 1 ≤ n := le_of_mem_tally hmem
  omega

theorem tally_injective {final n : Nat} {l l' : List (Option Nat)} (h : tally final n l = tally final n l') : l = l' := by
  induction l generalizing n l' with
  | nil =>
    cases l' with
    | nil => rfl
    | cons o rest =>
      cases o with
      | none => exact absurd h tally_ne_succ
      | some p => exact absurd (List.cons.inj h).2.symm (tally_ne_nil _ _ _)
  | cons o rest ih =>
    cases o with
    | none =>
      cases l' with
      | nil => exact absurd h.symm tally_ne_succ
      | cons o' rest' =>
        cases o' with
        | none => rw [ih h]
        | some p => exact absurd h.symm tally_ne_succ
    | some p =>
      cases l' with
      | nil => exact absurd (List.cons.inj h).2 (tally_ne_nil _ _ _)
      | cons o' rest' =>
        cases o' with
        | none => exact absurd h tally_ne_succ
        | some p' =>
          obtain ⟨hp, hrest⟩ := List.cons.inj h
          rw [ih hrest, (Prod.mk.inj hp).1]

open Classical in
theorem tally_marks {M S : Nat → Prop} {i : Nat} {pieces : List (Piece C)} (hM : ∀ p, i ≤ p → (M p ↔ masked i pieces p))
    (hS : ∀ p, i ≤ p → (S p ↔ starts i pieces p)) :
    tally (i + (source pieces).length) (Nat.count S i) (marks i pieces) =
      ((List.range' i ((source pieces).length + 1)).filter fun p => ¬ M p).map fun p => (p, Nat.count S p) := by
  induction pieces generalizing i with
  | nil =>
    have hfree : ¬ M i := fun h => (hM i (le_refl i)).mp h
    simp [marks, tally, source, hfree]
  | cons piece rest ih =>
    cases piece with
    | kept c =>
      have hfree : ¬ M i := fun h => by
        have hrest : masked (i + 1) rest i := (hM i (le_refl i)).mp h
        have := le_of_masked hrest
        omega
      have hnone : ¬ S i := fun h => by
        have hrest : starts (i + 1) rest i := (hS i (le_refl i)).mp h
        have := le_of_starts hrest
        omega
      have hcount : Nat.count S (i + 1) = Nat.count S i := by rw [Nat.count_succ, if_neg hnone, Nat.add_zero]
      have hlater := ih (i := i + 1) (fun p hp => hM p (by omega)) (fun p hp => hS p (by omega))
      have hlength : (source (Piece.kept c :: rest)).length = (source rest).length + 1 := rfl
      have hrange : List.range' i ((source rest).length + 1 + 1) = i :: List.range' (i + 1) ((source rest).length + 1) := List.range'_succ
      rw [hcount] at hlater
      rw [marks, tally, hlength, hrange, List.filter_cons_of_pos (by simpa using hfree), List.map_cons, ← hlater]
      congr 2
      omega
    | block first others =>
      have hstart : S i := (hS i (le_refl i)).mpr (Or.inl rfl)
      have hnone : ∀ k, k < others.length → ¬ S (i + (k + 1)) := fun k hk h => by
        rcases (hS _ (by omega)).mp h with h | h
        · omega
        · have := le_of_starts h
          omega
      have hcount : Nat.count S (i + (others.length + 1)) = Nat.count S i + 1 := by
        rw [Nat.count_add, Nat.count_succ', Nat.count_of_forall_not fun {k} hk => hnone k hk, Nat.add_zero, if_pos hstart]
      have hlater := ih (i := i + (others.length + 1))
        (fun p hp => (hM p (by omega)).trans (or_iff_right fun h => by omega))
        (fun p hp => (hS p (by omega)).trans (or_iff_right fun h => by omega))
      have hhidden : (List.range' i (others.length + 1)).filter (fun p => ¬ M p) = [] := by
        rw [List.filter_eq_nil_iff]
        intro p hp
        obtain ⟨hle, hlt⟩ := List.mem_range'_1.mp hp
        simpa using (hM p hle).mpr (Or.inl ⟨hle, hlt⟩)
      have hlength : (source (Piece.block first others :: rest)).length = others.length + 1 + (source rest).length := by
        show ((first :: others) ++ source rest).length = _
        rw [List.length_append, List.length_cons]
      have hrange : List.range' i (others.length + 1 + ((source rest).length + 1)) =
          List.range' i (others.length + 1) ++ List.range' (i + (others.length + 1)) ((source rest).length + 1) :=
        List.range'_append_1.symm
      rw [marks, tally, hlength, ← hcount, ← Nat.add_assoc, hlater, Nat.add_assoc (others.length + 1), hrange, List.filter_append,
        hhidden, List.nil_append]

open Classical in
theorem marks_eq_iff {pieces pieces' : List (Piece C)} (hsource : source pieces = source pieces')
    (hmasked : ∀ p, masked 0 pieces p ↔ masked 0 pieces' p) :
    marks 0 pieces = marks 0 pieces' ↔
      ∀ p, p ≤ (source pieces).length → ¬ masked 0 pieces p → Nat.count (starts 0 pieces) p = Nat.count (starts 0 pieces') p := by
  have htally := tally_marks (M := masked 0 pieces) (S := starts 0 pieces) (i := 0) (fun _ _ => Iff.rfl)
    (fun _ _ => Iff.rfl)
  have htally' := tally_marks (M := masked 0 pieces) (S := starts 0 pieces') (i := 0)
    (fun p _ => hmasked p) (fun _ _ => Iff.rfl)
  rw [← hsource] at htally'
  rw [Nat.count_zero] at htally htally'
  have hsame : marks 0 pieces = marks 0 pieces' ↔
      tally (0 + (source pieces).length) 0 (marks 0 pieces) = tally (0 + (source pieces).length) 0 (marks 0 pieces') :=
    ⟨fun h => by rw [h], tally_injective⟩
  rw [hsame, htally, htally', List.map_inj_left]
  constructor
  · intro h p hp hfree
    have hmem : p ∈ (List.range' 0 ((source pieces).length + 1)).filter fun p => ¬ masked 0 pieces p := by
      rw [List.mem_filter, List.mem_range'_1]
      exact ⟨⟨Nat.zero_le p, by omega⟩, by simpa using hfree⟩
    exact (Prod.mk.inj (h p hmem)).2
  · intro h p hmem
    rw [List.mem_filter, List.mem_range'_1] at hmem
    rw [h p (by omega) (by simpa using hmem.2)]

end Orchestrator.Replacement
