import Mathlib.Order.Lattice
import Mathlib.Data.List.Pairwise
import Mathlib.Tactic.Set

/-!
A selection that is walked in pages, by a cursor over the key of its order, while what is
handled leaves it.
-/

namespace Orchestrator.Keyset

variable {A K S E : Type} [LinearOrder K]

def ahead (key : A → K) (cursor : Option K) (rows : List A) : List A :=
  rows.filter fun row => cursor.all fun c => decide (c < key row)

def advance (key : A → K) (page : List A) (cursor : Option K) : Option K := (page.getLast?.map key).or cursor

def each (handle : A → S → Except E Unit × S) : List A → S → Except E Unit × S
  | [], s => (.ok (), s)
  | row :: rest, s => match handle row s with
    | (.ok (), s') => each handle rest s'
    | (.error e, s') => (.error e, s')

/-- Page after page, until one comes back short; `none` where the pages do not suffice. A page that cannot be asked
for ends the walk. -/
def walk (key : A → K) (select : S → List A) (handle : A → S → Except E Unit × S) (ask : Nat → Option E) (page : Nat) :
    Nat → Nat → Option K → S → Option (Except E Unit) × S
  | 0, _, _, s => (none, s)
  | pages + 1, asked, cursor, s =>
    match ask asked with
    | some e => (some (.error e), s)
    | none =>
      let rows := (ahead key cursor (select s)).take page
      match each handle rows s with
      | (.error e, s') => (some (.error e), s')
      | (.ok (), s') =>
        if rows.length < page then (some (.ok ()), s')
        else walk key select handle ask page pages (asked + 1) (advance key rows cursor) s'

/-- The walk over rows that stay as they are. -/
def paged (handle : A → S → Except E Unit × S) (ask : Nat → Option E) (page : Nat) :
    Nat → Nat → List A → S → Option (Except E Unit) × S
  | 0, _, _, s => (none, s)
  | pages + 1, asked, rows, s =>
    match ask asked with
    | some e => (some (.error e), s)
    | none =>
      match each handle (rows.take page) s with
      | (.error e, s') => (some (.error e), s')
      | (.ok (), s') =>
        if (rows.take page).length < page then (some (.ok ()), s')
        else paged handle ask page pages (asked + 1) (rows.drop page) s'

def Ordered (key : A → K) (rows : List A) : Prop := rows.Pairwise fun row other => key row < key other

structure Shrinking (key : A → K) (select : S → List A) (handle : A → S → Except E Unit × S) (inv : S → Prop)
    (valid : A → Prop) : Prop where
  ordered : ∀ s, inv s → Ordered key (select s)
  selected : ∀ s, inv s → ∀ row ∈ select s, valid row
  keeps : ∀ row s, inv s → valid row → inv (handle row s).2
  behind : ∀ row s c, inv s → valid row → key row ≤ c → ahead key (some c) (select (handle row s).2) = ahead key (some c) (select s)

section Order

variable {key : A → K} {rows rest : List A} {cursor : Option K} {c : K} {row : A}

theorem mem_ahead : row ∈ ahead key cursor rows ↔ row ∈ rows ∧ ∀ c ∈ cursor, c < key row := by
  cases cursor with
  | none | some c => simp [ahead]

theorem Ordered.ahead (h : Ordered key rows) : Ordered key (ahead key cursor rows) := List.Pairwise.filter _ h

theorem ahead_ahead (h : ∀ c' ∈ cursor, c' ≤ c) : ahead key (some c) (ahead key cursor rows) = ahead key (some c) rows := by
  unfold Keyset.ahead
  rw [List.filter_filter]
  apply List.filter_congr
  intro row _
  cases cursor with
  | none => simp
  | some c' =>
    have hle : c' ≤ c := h c' rfl
    by_cases hrow : c < key row
    · simp [hrow, hle.trans_lt hrow]
    · simp [hrow]

theorem ahead_of_append (last : A) (h : Ordered key (rows ++ last :: rest)) :
    Keyset.ahead key (some (key last)) (rows ++ last :: rest) = rest := by
  obtain ⟨-, hlast, hcross⟩ := List.pairwise_append.mp h
  have hafter := (List.pairwise_cons.mp hlast).1
  have hbefore : rows.filter (fun row => decide (key last < key row)) = [] := by
    apply List.filter_eq_nil_iff.mpr
    intro row hrow
    simpa using (hcross row hrow last List.mem_cons_self).le
  have hkept : rest.filter (fun row => decide (key last < key row)) = rest := by
    apply List.filter_eq_self.mpr
    intro row hrow
    simpa using hafter row hrow
  simp only [Keyset.ahead, Option.all_some, List.filter_append, List.filter_cons, lt_irrefl, decide_false, Bool.false_eq_true,
    if_false, hbefore, hkept, List.nil_append]

theorem ahead_advance (h : Ordered key rows) {page : Nat} (hpage : 0 < page)
    (hfull : page ≤ (Keyset.ahead key cursor rows).length) :
    ∃ c, advance key ((Keyset.ahead key cursor rows).take page) cursor = some c ∧
      (∀ row ∈ (Keyset.ahead key cursor rows).take page, key row ≤ c) ∧
      Keyset.ahead key (some c) rows = (Keyset.ahead key cursor rows).drop page := by
  set l := Keyset.ahead key cursor rows with hl
  have hordered : Ordered key l := h.ahead
  have hlength : (l.take page).length = page := List.length_take_of_le hfull
  have hne : l.take page ≠ [] := by
    intro hnil
    rw [hnil] at hlength
    simp at hlength
    omega
  have hsplit : l = (l.take page).dropLast ++ (l.take page).getLast hne :: l.drop page := by
    have hpages := List.dropLast_concat_getLast hne
    calc l = l.take page ++ l.drop page := (List.take_append_drop page l).symm
      _ = ((l.take page).dropLast ++ [(l.take page).getLast hne]) ++ l.drop page := by rw [hpages]
      _ = _ := by rw [List.append_assoc, List.singleton_append]
  refine ⟨key ((l.take page).getLast hne), ?_, ?_, ?_⟩
  · simp [advance, List.getLast?_eq_some_getLast hne]
  · intro row hrow
    have hpagesOrdered : Ordered key (l.take page) := List.Pairwise.sublist (List.take_sublist page l) hordered
    rw [← List.dropLast_concat_getLast hne] at hpagesOrdered hrow
    rcases List.mem_append.mp hrow with hrow | hrow
    · exact ((List.pairwise_append.mp hpagesOrdered).2.2 row hrow _ List.mem_cons_self).le
    · rw [List.mem_singleton.mp hrow]
  · have hmem : (l.take page).getLast hne ∈ l := List.mem_of_mem_take (List.getLast_mem hne)
    have hafter : ∀ c' ∈ cursor, c' ≤ key ((l.take page).getLast hne) := fun c' hc' =>
      ((mem_ahead.mp hmem).2 c' hc').le
    rw [← ahead_ahead hafter, ← hl]
    have hordered' := hordered
    rw [hsplit] at hordered'
    have hahead := ahead_of_append _ hordered'
    rw [← hsplit] at hahead
    exact hahead

end Order

section Walk

variable {key : A → K} {select : S → List A} {handle : A → S → Except E Unit × S} {inv : S → Prop} {valid : A → Prop}
  {rows rest : List A} {s s' : S}

theorem Shrinking.each_keeps (h : Shrinking key select handle inv valid) (hs : inv s) (hrows : ∀ row ∈ rows, valid row) :
    inv (each handle rows s).2 := by
  induction rows generalizing s with
  | nil => exact hs
  | cons row rest ih =>
    have hkept := h.keeps row s hs (hrows row List.mem_cons_self)
    unfold each
    cases hrow : handle row s with
    | mk r s' =>
      rw [hrow] at hkept
      cases r with
      | error e => exact hkept
      | ok u => exact ih hkept fun row hrow => hrows row (List.mem_cons_of_mem _ hrow)

theorem Shrinking.each_ahead (h : Shrinking key select handle inv valid) {c : K} (hs : inv s)
    (hrows : ∀ row ∈ rows, valid row ∧ key row ≤ c) :
    ahead key (some c) (select (each handle rows s).2) = ahead key (some c) (select s) := by
  induction rows generalizing s with
  | nil => rfl
  | cons row rest ih =>
    obtain ⟨hvalid, hkey⟩ := hrows row List.mem_cons_self
    have hkept := h.keeps row s hs hvalid
    have hbehind := h.behind row s c hs hvalid hkey
    unfold each
    cases hrow : handle row s with
    | mk r s' =>
      rw [hrow] at hkept hbehind
      cases r with
      | error e => exact hbehind
      | ok u => exact (ih hkept fun row hrow => hrows row (List.mem_cons_of_mem _ hrow)).trans hbehind

theorem Shrinking.walk_eq (h : Shrinking key select handle inv valid) {ask : Nat → Option E} {page pages asked : Nat} {cursor : Option K}
    (hs : inv s) (hpage : 0 < page) :
    walk key select handle ask page pages asked cursor s = paged handle ask page pages asked (ahead key cursor (select s)) s := by
  induction pages generalizing asked cursor s with
  | zero => rfl
  | succ pages ih =>
    simp only [walk, paged]
    cases ask asked with
    | some e => rfl
    | none =>
      cases heach : each handle ((ahead key cursor (select s)).take page) s with
      | mk r s' =>
        cases r with
        | error e => rfl
        | ok u =>
          by_cases hshort : ((ahead key cursor (select s)).take page).length < page
          · simp only [if_pos hshort]
          · rw [List.length_take] at hshort
            have hfull : page ≤ (ahead key cursor (select s)).length := by omega
            obtain ⟨c, hcursor, hle, hahead⟩ := ahead_advance (h.ordered s hs) hpage hfull
            have hrows : ∀ row ∈ (ahead key cursor (select s)).take page, valid row ∧ key row ≤ c := by
              intro row hrow
              have hmem := (mem_ahead.mp (List.mem_of_mem_take hrow)).1
              exact ⟨h.selected s hs row hmem, hle row hrow⟩
            have hinv := h.each_keeps hs fun row hrow => (hrows row hrow).1
            have hsame := h.each_ahead hs hrows
            rw [heach] at hinv hsame
            have hrest : ahead key (some c) (select s') = (ahead key cursor (select s)).drop page := hsame.trans hahead
            simp only [List.length_take, if_neg hshort, hcursor]
            rw [ih hinv, hrest]

theorem paged_ends {ask : Nat → Option E} {page pages asked : Nat} (hpage : 0 < page) (hpages : rows.length < pages) :
    (paged handle ask page pages asked rows s).1.isSome = true := by
  induction pages generalizing asked rows s with
  | zero => omega
  | succ pages ih =>
    unfold paged
    split
    · rfl
    · split
      · rfl
      · split
        · rfl
        · rename_i hfull
          rw [List.length_take] at hfull
          apply ih
          rw [List.length_drop]
          omega

end Walk

end Orchestrator.Keyset
