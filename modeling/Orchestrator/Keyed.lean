import Mathlib.Algebra.BigOperators.Group.List.Basic
import Mathlib.Algebra.Ring.Nat
import Mathlib.Data.List.Nodup

/-!
Lists of keyed values, as mappings of distinct keys.
-/

namespace Orchestrator

variable {K V : Type} [DecidableEq K] {entries : List (K × V)} {key : K} {value : V}

theorem mem_of_lookup (h : entries.lookup key = some value) : (key, value) ∈ entries := by
  obtain ⟨before, after, rfl, _⟩ := List.lookup_eq_some_iff.mp h
  simp

theorem lookup_of_mem (hnodup : (entries.map (·.1)).Nodup) (h : (key, value) ∈ entries) : entries.lookup key = some value := by
  cases hlookup : entries.lookup key with
  | none => exact absurd (List.lookup_eq_none_iff.mp hlookup _ h) (by simp)
  | some other =>
    have hsame := List.inj_on_of_nodup_map hnodup (mem_of_lookup hlookup) h rfl
    rw [(Prod.mk.inj hsame).2]

theorem lookup_iff_mem (hnodup : (entries.map (·.1)).Nodup) : entries.lookup key = some value ↔ (key, value) ∈ entries :=
  ⟨mem_of_lookup, lookup_of_mem hnodup⟩

theorem lookup_isSome_iff_mem : (entries.lookup key).isSome = true ↔ key ∈ entries.map (·.1) := by
  rw [List.lookup_isSome_iff]
  constructor
  · rintro ⟨entry, hmem, heq⟩
    rw [eq_of_beq heq]
    exact List.mem_map_of_mem hmem
  · intro hmem
    obtain ⟨entry, hentry, rfl⟩ := List.mem_map.mp hmem
    exact ⟨entry, hentry, beq_self_eq_true _⟩

theorem lookup_cons_ite (entry : K × V) (rest : List (K × V)) (key : K) :
    (entry :: rest).lookup key = if key = entry.1 then some entry.2 else rest.lookup key := by
  by_cases h : key = entry.1
  · subst h
    rw [if_pos rfl]
    exact List.lookup_cons_self
  · rw [if_neg h, List.lookup_cons, beq_false_of_ne h]

def put : List (K × V) → K → V → List (K × V)
  | [], key, value => [(key, value)]
  | entry :: rest, key, value => if entry.1 = key then (key, value) :: rest else entry :: put rest key value

theorem lookup_put (entries : List (K × V)) (key other : K) (value : V) :
    (put entries key value).lookup other = if other = key then some value else entries.lookup other := by
  induction entries with
  | nil => rw [put, lookup_cons_ite]
  | cons entry rest ih =>
    by_cases hkey : entry.1 = key
    · rw [put, if_pos hkey, lookup_cons_ite, lookup_cons_ite, hkey]
      by_cases h : other = key <;> simp [h]
    · rw [put, if_neg hkey, lookup_cons_ite, lookup_cons_ite, ih]
      by_cases h : other = entry.1
      · have hne : ¬ other = key := h ▸ hkey
        rw [if_pos h, if_neg hne, if_pos h]
      · rw [if_neg h, if_neg h]

theorem keys_put_nodup (h : (entries.map (·.1)).Nodup) (key : K) (value : V) : ((put entries key value).map (·.1)).Nodup := by
  induction entries with
  | nil => simp [put]
  | cons entry rest ih =>
    obtain ⟨hnotMem, hrest⟩ := List.nodup_cons.mp h
    by_cases hkey : entry.1 = key
    · rw [put, if_pos hkey]
      exact List.nodup_cons.mpr ⟨hkey ▸ hnotMem, hrest⟩
    · rw [put, if_neg hkey]
      apply List.nodup_cons.mpr
      refine ⟨fun hmem => ?_, ih hrest⟩
      have hsome := lookup_isSome_iff_mem.mpr hmem
      rw [lookup_put, if_neg hkey] at hsome
      exact hnotMem (lookup_isSome_iff_mem.mp hsome)

section Folding

variable {fresh held result : List (K × V)} {read : List (K × V) → K × V → Option V}

theorem lookup_foldlM_put_of_notMem (h : key ∉ fresh.map (·.1))
    (hfold : fresh.foldlM (fun held entry => (read held entry).map (put held entry.1)) held = some result) :
    result.lookup key = held.lookup key := by
  induction fresh generalizing held with
  | nil =>
    cases hfold
    rfl
  | cons entry rest ih =>
    obtain ⟨hne, hrest⟩ := not_or.mp (List.mem_cons.not.mp h)
    rw [List.foldlM_cons] at hfold
    obtain ⟨next, hnext, hfold⟩ := Option.bind_eq_some_iff.mp hfold
    obtain ⟨value, -, rfl⟩ := Option.map_eq_some_iff.mp hnext
    rw [ih hrest hfold, lookup_put, if_neg hne]

theorem lookup_foldlM_put_of_mem (hnodup : (fresh.map (·.1)).Nodup) {entry : K × V} (h : entry ∈ fresh)
    (hfold : fresh.foldlM (fun held entry => (read held entry).map (put held entry.1)) held = some result) :
    ∃ before value, read before entry = some value ∧ result.lookup entry.1 = some value := by
  induction fresh generalizing held with
  | nil => cases h
  | cons first rest ih =>
    obtain ⟨hfirst, hrest⟩ := List.nodup_cons.mp hnodup
    rw [List.foldlM_cons] at hfold
    obtain ⟨next, hnext, hfold⟩ := Option.bind_eq_some_iff.mp hfold
    obtain ⟨value, hvalue, rfl⟩ := Option.map_eq_some_iff.mp hnext
    rcases List.mem_cons.mp h with rfl | hmem
    · exact ⟨held, value, hvalue, by rw [lookup_foldlM_put_of_notMem hfirst hfold, lookup_put, if_pos rfl]⟩
    · exact ih hrest hmem hfold

variable (held) in
theorem foldlM_put_of_read (h : ∀ held, ∀ entry ∈ fresh, ∃ value, read held entry = some value) :
    ∃ result, fresh.foldlM (fun held entry => (read held entry).map (put held entry.1)) held = some result := by
  induction fresh generalizing held with
  | nil => exact ⟨held, rfl⟩
  | cons entry rest ih =>
    obtain ⟨value, hvalue⟩ := h held entry List.mem_cons_self
    obtain ⟨result, hresult⟩ := ih (put held entry.1 value) fun held entry hmem => h held entry (List.mem_cons_of_mem _ hmem)
    exact ⟨result, by rw [List.foldlM_cons, hvalue]; exact hresult⟩

end Folding

def mergeAll (agrees : V → V → Bool) : List (K × V) → List (K × V) → Except K (List (K × V))
  | [], merged => .ok merged
  | entry :: rest, merged => match merged.lookup entry.1 with
    | none => mergeAll agrees rest (put merged entry.1 entry.2)
    | some current => if agrees current entry.2 then mergeAll agrees rest (put merged entry.1 entry.2) else .error entry.1

def Compatible (agrees : V → V → Bool) (entry entry' : K × V) : Prop := entry.1 = entry'.1 → agrees entry.2 entry'.2 = true

section Merging

variable {agrees : V → V → Bool} (symm : ∀ v v', agrees v v' = true → agrees v' v = true)
  (trans : ∀ v v' v'', agrees v v' = true → agrees v' v'' = true → agrees v v'' = true)

theorem mergeAll_nodup {merged result : List (K × V)} (h : (merged.map (·.1)).Nodup)
    (hmerge : mergeAll agrees entries merged = .ok result) : (result.map (·.1)).Nodup := by
  induction entries generalizing merged with
  | nil =>
    cases hmerge
    exact h
  | cons entry rest ih =>
    unfold mergeAll at hmerge
    split at hmerge
    · exact ih (keys_put_nodup h _ _) hmerge
    · split at hmerge
      · exact ih (keys_put_nodup h _ _) hmerge
      · cases hmerge

def Holds (merged earlier : List (K × V)) : Prop := ∀ key, merged.lookup key = earlier.reverse.lookup key

theorem Holds.put {merged earlier : List (K × V)} (h : Holds merged earlier) (entry : K × V) :
    Holds (put merged entry.1 entry.2) (earlier ++ [entry]) := by
  intro key
  rw [lookup_put, List.reverse_append, List.reverse_singleton, List.singleton_append, lookup_cons_ite, h key]

include symm trans in
theorem Holds.agrees_iff {merged earlier : List (K × V)} (h : Holds merged earlier) (hpair : earlier.Pairwise (Compatible agrees))
    (entry : K × V) :
    (∀ current, merged.lookup entry.1 = some current → agrees current entry.2 = true) ↔
      ∀ other ∈ earlier, Compatible agrees other entry := by
  rw [h entry.1]
  constructor
  · intro hcurrent other hmem hkey
    cases hlast : earlier.reverse.lookup entry.1 with
    | none => exact absurd (List.lookup_eq_none_iff.mp hlast other (List.mem_reverse.mpr hmem)) (by simp [hkey])
    | some current =>
      obtain ⟨after, before, hsplit, _⟩ := List.lookup_eq_some_iff.mp hlast
      have hagrees := hcurrent current hlast
      have hrev : earlier = before.reverse ++ (entry.1, current) :: after.reverse := by
        rw [← List.reverse_reverse earlier, hsplit]
        simp
      have hpair' := hpair
      rw [hrev] at hmem hpair'
      obtain ⟨-, htail, hcross⟩ := List.pairwise_append.mp hpair'
      rcases List.mem_append.mp hmem with hbefore | hafter
      · exact trans _ _ _ (hcross other hbefore _ List.mem_cons_self hkey) hagrees
      · rcases List.mem_cons.mp hafter with rfl | hafter
        · exact hagrees
        · have hlater := (List.pairwise_cons.mp htail).1 other hafter hkey.symm
          exact trans _ _ _ (symm _ _ hlater) hagrees
  · intro hall current hlast
    exact hall (entry.1, current) (List.mem_reverse.mp (mem_of_lookup hlast)) rfl

include symm trans in
theorem mergeAll_ok {merged earlier result : List (K × V)} (h : Holds merged earlier) (hpair : earlier.Pairwise (Compatible agrees))
    (hmerge : mergeAll agrees entries merged = .ok result) :
    (earlier ++ entries).Pairwise (Compatible agrees) ∧ Holds result (earlier ++ entries) := by
  induction entries generalizing merged earlier with
  | nil =>
    cases hmerge
    rw [List.append_nil]
    exact ⟨hpair, h⟩
  | cons entry rest ih =>
    have step : ∀ {m}, m = put merged entry.1 entry.2 → mergeAll agrees rest m = .ok result →
        (∀ current, merged.lookup entry.1 = some current → agrees current entry.2 = true) →
        (earlier ++ entry :: rest).Pairwise (Compatible agrees) ∧ Holds result (earlier ++ entry :: rest) := by
      rintro _ rfl hrest hcurrent
      have hnew := (h.agrees_iff symm trans hpair entry).mp hcurrent
      have hpair' : (earlier ++ [entry]).Pairwise (Compatible agrees) :=
        List.pairwise_append.mpr ⟨hpair, List.pairwise_singleton _ _, fun other hmem e he => List.mem_singleton.mp he ▸ hnew other hmem⟩
      have := ih (h.put entry) hpair' hrest
      rwa [List.append_assoc, List.singleton_append] at this
    unfold mergeAll at hmerge
    split at hmerge
    · rename_i hnone
      exact step rfl hmerge fun current hsome => by simp [hnone] at hsome
    · rename_i current hsome
      split at hmerge
      · rename_i hagrees
        refine step rfl hmerge fun other hother => ?_
        rw [Option.some.inj (hother.symm.trans hsome)]
        exact hagrees
      · cases hmerge

include symm trans in
theorem mergeAll_isOk {merged earlier : List (K × V)} (h : Holds merged earlier)
    (hpair : (earlier ++ entries).Pairwise (Compatible agrees)) : ∃ result, mergeAll agrees entries merged = .ok result := by
  induction entries generalizing merged earlier with
  | nil => exact ⟨merged, rfl⟩
  | cons entry rest ih =>
    have hpair' : ((earlier ++ [entry]) ++ rest).Pairwise (Compatible agrees) := by
      rwa [List.append_assoc, List.singleton_append]
    obtain ⟨result, hrest⟩ := ih (h.put entry) hpair'
    refine ⟨result, ?_⟩
    obtain ⟨hearlier, -, hcross⟩ := List.pairwise_append.mp hpair
    have hcurrent := (h.agrees_iff symm trans hearlier entry).mpr fun other hmem => hcross other hmem entry List.mem_cons_self
    unfold mergeAll
    cases hlookup : merged.lookup entry.1 with
    | none => exact hrest
    | some current =>
      dsimp only
      rw [if_pos (hcurrent current hlookup)]
      exact hrest

include symm trans in
theorem mergeAll_iff {result : List (K × V)} :
    mergeAll agrees entries [] = .ok result → entries.Pairwise (Compatible agrees) ∧ Holds result entries := by
  intro hmerge
  have hnil : Holds ([] : List (K × V)) [] := fun _ => rfl
  exact mergeAll_ok symm trans hnil List.Pairwise.nil hmerge

end Merging

end Orchestrator

/-!
Tables with a unique key, and what the rows of one add up to.
-/

namespace Orchestrator

structure Table (K V : Type) where
  entries : List (K × V)
  keys_nodup : (entries.map (·.1)).Nodup

namespace Table

variable {K V : Type} [DecidableEq K]

def empty : Table K V := ⟨[], List.nodup_nil⟩

def get (t : Table K V) (key : K) : Option V := t.entries.lookup key

def upsert (t : Table K V) (key : K) (value : V) : Table K V := ⟨put t.entries key value, keys_put_nodup t.keys_nodup key value⟩

theorem get_upsert (t : Table K V) (key other : K) (value : V) :
    (t.upsert key value).get other = if other = key then some value else t.get other :=
  lookup_put t.entries key other value

variable (weight : K → V → Nat)

def total (t : Table K V) : Nat := (t.entries.map fun entry => weight entry.1 entry.2).sum

def weightAt (t : Table K V) (key : K) : Nat := ((t.get key).map (weight key)).getD 0

theorem weightAt_of_get {t : Table K V} {key : K} {value : V} (h : t.get key = some value) :
    t.weightAt weight key = weight key value := by
  simp only [weightAt, h, Option.map_some, Option.getD_some]

theorem weightAt_of_get_none {t : Table K V} {key : K} (h : t.get key = none) : t.weightAt weight key = 0 := by
  simp only [weightAt, h, Option.map_none, Option.getD_none]

theorem sum_put (entries : List (K × V)) (key : K) (value : V) :
    ((put entries key value).map fun entry => weight entry.1 entry.2).sum + ((entries.lookup key).map (weight key)).getD 0 =
      (entries.map fun entry => weight entry.1 entry.2).sum + weight key value := by
  induction entries with
  | nil => simp [put]
  | cons entry rest ih =>
    rw [lookup_cons_ite]
    by_cases hkey : entry.1 = key
    · simp only [put, if_pos hkey, if_pos hkey.symm, List.map_cons, List.sum_cons, Option.map_some, Option.getD_some]
      rw [hkey]
      omega
    · simp only [put, if_neg hkey, if_neg (Ne.symm hkey), List.map_cons, List.sum_cons]
      omega

theorem total_upsert (t : Table K V) (key : K) (value : V) :
    (t.upsert key value).total weight + t.weightAt weight key = t.total weight + weight key value :=
  sum_put weight t.entries key value

end Table

end Orchestrator
