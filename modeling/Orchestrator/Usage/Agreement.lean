import Orchestrator.Usage.Expansion

/-!
In which lines the scanner finds the names that the shell expands.
-/

namespace Orchestrator.Usage

open Python

theorem namesOf_seen (c : Char) (reading : Option (List Char)) (later : List (Option (List Char))) :
    namesOf (seen c reading later) = (if c = '$' then reading.toList else []) ++ namesOf later := by
  unfold seen
  split
  · cases reading <;> rfl
  · rfl

theorem namesOf_seen_none (c : Char) (later : List (Option (List Char))) : namesOf (seen c none later) = namesOf later := by
  rw [namesOf_seen]
  simp

theorem namesOf_silent (text : List Char) : namesOf (silent text) = [] := by
  simp [silent, namesOf]

theorem namesOf_seemsAt (quote : Quote) (previous : Option Char) (text : List Char) :
    namesOf (seemsAt quote previous text) = shellReferencesOf (expandableFrom quote previous text) := by
  fun_induction seemsAt quote previous text with
  | case1 => simp [expandableFrom, shellReferencesOf, namesOf]
  | case2 _ c rest ih => rw [namesOf_seen_none, ih, expandableFrom]
  | case3 => simp [expandableFrom, shellReferencesOf, namesOf]
  | case4 previous escaped rest ih => simp [namesOf_seen_none, ih, expandableFrom]
  | case5 previous rest hescape ih => rw [ih, expandableFrom_double hescape, if_pos rfl]
  | case6 previous c rest hescape hquote ih =>
    rw [namesOf_seen, ih, expandableFrom_double hescape, if_neg hquote, shellReferencesOf,
      shellReference_expandableFrom (by decide)]
  | case7 => simp [expandableFrom, shellReferencesOf, namesOf]
  | case8 previous escaped rest ih => simp [namesOf_seen_none, ih, expandableFrom]
  | case9 previous rest hescape ih => rw [ih, expandableFrom_none hescape, if_pos rfl]
  | case10 previous rest hescape hsingle ih => rw [ih, expandableFrom_none hescape, if_neg hsingle, if_pos rfl]
  | case11 previous c rest hescape hsingle hdouble hhash =>
    rw [namesOf_silent, expandableFrom_none hescape, if_neg hsingle, if_neg hdouble, if_pos hhash, shellReferencesOf]
  | case12 previous c rest hescape hsingle hdouble hhash ih =>
    rw [namesOf_seen, ih, expandableFrom_none hescape, if_neg hsingle, if_neg hdouble, if_neg hhash, shellReferencesOf,
      shellReference_expandableFrom (by decide)]

theorem length_seen (c : Char) (reading : Option (List Char)) {later : List (Option (List Char))} {rest : List Char}
    (h : later.length = rest.count '$') : (seen c reading later).length = (c :: rest).count '$' := by
  rw [List.count_cons, ← h, seen]
  by_cases hc : c = '$' <;> simp [hc]

theorem count_cons_of_ne {c : Char} (h : c ≠ '$') (rest : List Char) : (c :: rest).count '$' = rest.count '$' :=
  List.count_cons_of_ne h

theorem length_seemsAt (quote : Quote) (previous : Option Char) (text : List Char) :
    (seemsAt quote previous text).length = text.count '$' := by
  fun_induction seemsAt quote previous text with
  | case1 => rfl
  | case2 _ c rest ih => exact length_seen c none ih
  | case3 => rfl
  | case4 previous escaped rest ih => exact length_seen escaped none ih
  | case5 previous rest hescape ih => exact ih
  | case6 previous c rest hescape hquote ih => exact length_seen c _ ih
  | case7 => rfl
  | case8 previous escaped rest ih => exact length_seen escaped none ih
  | case9 previous rest hescape ih => exact ih
  | case10 previous rest hescape hsingle ih => exact ih
  | case11 previous c rest hescape hsingle hdouble hhash =>
    rw [hhash.1]
    exact List.length_replicate
  | case12 previous c rest hescape hsingle hdouble hhash ih => exact length_seen c _ ih

theorem length_expandsAt {context : Context} {start : Bool} {text : List Char} {readings : List (Option (List Char))}
    (h : expandsAt context start text = some readings) : readings.length = text.count '$' := by
  fun_induction expandsAt context start text generalizing readings with
  | case1 =>
    cases h
    rfl
  | case2 | case3 | case4 | case6 | case11 | case14 | case18 | case19 => cases h
  | case5 _ _ c rest ih | case7 _ _ c rest ih | case15 _ _ _ c rest ih =>
    obtain ⟨later, hlater, rfl⟩ := Option.map_eq_some_iff.mp h
    exact length_seen c none (ih hlater)
  | case8 _ _ rest _ ih | case16 _ _ _ rest _ ih =>
    obtain ⟨name, -, hmap⟩ := Option.bind_eq_some_iff.mp h
    obtain ⟨later, hlater, rfl⟩ := Option.map_eq_some_iff.mp hmap
    rw [List.length_cons, ih hlater, List.count_cons_self]
  | case9 _ _ rest _ _ ih | case10 _ _ rest _ _ _ ih | case17 _ _ rest _ _ ih => exact ih h
  | case12 _ _ c rest _ hdollar =>
    cases h
    rw [count_cons_of_ne hdollar]
    exact List.length_replicate
  | case13 _ _ c rest _ hdollar _ _ _ _ ih | case20 _ _ _ c rest _ hdollar _ _ ih => rw [count_cons_of_ne hdollar, ih h]

/-- A `$` that seems to expand something else does no harm where each of the two names is exempt or comes up at
another `$` of the line on the other side. -/
def Mended (exempt : List Char → Bool) (expanded seeming : List (Option (List Char))) (site : Option (List Char) × Option (List Char)) :
    Prop :=
  (∀ name, site.1 = some name → exempt name = true ∨ some name ∈ seeming) ∧
    (∀ name, site.2 = some name → exempt name = true ∨ some name ∈ expanded)

theorem exists_zip_left {α β : Type} {xs : List α} {ys : List β} (h : xs.length = ys.length) {x : α} (hx : x ∈ xs) :
    ∃ y, (x, y) ∈ xs.zip ys := by
  rw [← List.map_fst_zip (Nat.le_of_eq h)] at hx
  obtain ⟨⟨x', y⟩, hmem, rfl⟩ := List.mem_map.mp hx
  exact ⟨y, hmem⟩

theorem exists_zip_right {α β : Type} {xs : List α} {ys : List β} (h : xs.length = ys.length) {y : β} (hy : y ∈ ys) :
    ∃ x, (x, y) ∈ xs.zip ys := by
  rw [← List.map_snd_zip (Nat.le_of_eq h.symm)] at hy
  obtain ⟨⟨x, y'⟩, hmem, rfl⟩ := List.mem_map.mp hy
  exact ⟨x, hmem⟩

theorem names_agree_iff (exempt : List Char → Bool) {expanded seeming : List (Option (List Char))}
    (hlength : expanded.length = seeming.length) :
    (∀ name, exempt name = false → (some name ∈ seeming ↔ some name ∈ expanded)) ↔
      ∀ site ∈ expanded.zip seeming, site.1 = site.2 ∨ Mended exempt expanded seeming site := by
  constructor
  · rintro hnames ⟨reading, shown⟩ hsite
    obtain ⟨hreading, hshown⟩ := List.of_mem_zip hsite
    refine .inr ⟨?_, ?_⟩
    · rintro name rfl
      rcases hexempt : exempt name with _ | _
      · exact .inr ((hnames name hexempt).mpr hreading)
      · exact .inl rfl
    · rintro name rfl
      rcases hexempt : exempt name with _ | _
      · exact .inr ((hnames name hexempt).mp hshown)
      · exact .inl rfl
  · intro hsites name hexempt
    have hlive : ¬exempt name = true := by simp [hexempt]
    constructor
    · intro hmem
      obtain ⟨reading, hsite⟩ := exists_zip_right hlength hmem
      rcases hsites _ hsite with heq | hmended
      · have hsame : reading = some name := heq
        exact hsame ▸ (List.of_mem_zip hsite).1
      · exact (hmended.2 name rfl).resolve_left hlive
    · intro hmem
      obtain ⟨shown, hsite⟩ := exists_zip_left hlength hmem
      rcases hsites _ hsite with heq | hmended
      · have hsame : some name = shown := heq
        exact hsame ▸ (List.of_mem_zip hsite).2
      · exact (hmended.1 name rfl).resolve_left hlive

def exemptIn (classes : CharacterClasses) (text : List Char) (name : List Char) : Bool :=
  ((splitlines text).flatMap (localNames classes)).contains name || shellBuiltins.contains name

section Numbering

variable {α β : Type} (number : β → Nat) (f : α × Nat → List β)

section

variable (h : ∀ entry, ∀ b ∈ f entry, number b = entry.2)

include h

theorem filter_numbered (n : Nat) (entry : α × Nat) :
    (f entry).filter (fun b => number b = n) = if entry.2 = n then f entry else [] := by
  split
  · rename_i heq
    exact List.filter_eq_self.mpr fun b hb => decide_eq_true ((h entry b hb).trans heq)
  · rename_i hne
    exact List.filter_eq_nil_iff.mpr fun b hb heq => hne ((h entry b hb).symm.trans (of_decide_eq_true heq))

theorem filter_zipIdx_below (l : List α) {first n : Nat} (hn : n < first) :
    ((l.zipIdx first).flatMap f).filter (fun b => number b = n) = [] := by
  induction l generalizing first with
  | nil => rfl
  | cons x rest ih =>
    rw [List.zipIdx_cons, List.flatMap_cons, List.filter_append, filter_numbered number f h, if_neg (Nat.ne_of_gt hn), ih (by omega)]
    rfl

theorem filter_zipIdx (l : List α) (first i : Nat) {x : α} (hx : l[i]? = some x) :
    ((l.zipIdx first).flatMap f).filter (fun b => number b = first + i) = f (x, first + i) := by
  induction l generalizing first i with
  | nil => cases hx
  | cons y rest ih =>
    rw [List.zipIdx_cons, List.flatMap_cons, List.filter_append, filter_numbered number f h]
    cases i with
    | zero =>
      cases hx
      rw [Nat.add_zero, if_pos rfl, filter_zipIdx_below number f h rest (Nat.lt_succ_self first), List.append_nil]
    | succ i =>
      have hrest := ih (first + 1) i hx
      rw [Nat.add_right_comm] at hrest
      rw [if_neg (by simp only; omega), List.nil_append]
      exact hrest

end

end Numbering

theorem keys_of_line (classes : CharacterClasses) (path : String) {text line : List Char} {i : Nat}
    (hline : (splitlines text)[i]? = some line) :
    ((shellReferences classes path (some text)).filter (·.line = 1 + i)).map (·.key) =
      (shellReferencesOf (shellExpandableText line)).filter fun name => !exemptIn classes text name := by
  have hlines := filter_zipIdx EnvReference.line
    (fun entry : List Char × Nat => (shellReferencesOf (shellExpandableText entry.1)).map fun key =>
      (⟨key, path, entry.2, "shell"⟩ : EnvReference)) (by simp) (splitlines text) 1 i hline
  have hexempt : ∀ reference : EnvReference,
      (!((splitlines text).flatMap (localNames classes)).contains reference.key && !shellBuiltins.contains reference.key) =
        !exemptIn classes text reference.key := fun reference => (Bool.not_or _ _).symm
  simp only [shellReferences, hexempt]
  rw [List.filter_comm, hlines, List.filter_map, List.map_map]
  exact List.map_id _

def asciiClasses : CharacterClasses where
  isAlpha := Char.isAlpha
  isAlnum := Char.isAlphanum
  alnum_of_alpha c h := by rw [Char.isAlphanum, h, Bool.true_or]
  ascii_alpha _ _ := rfl
  ascii_alnum _ _ := rfl

def quotedLine : List Char := "echo \"$\"FOO $BAR-'$BAZ'\\$Q ${FOO%x} # $QUX".toList

end Orchestrator.Usage
