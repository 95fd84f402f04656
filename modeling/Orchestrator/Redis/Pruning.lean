import Orchestrator.Redis.Tolerance

/-!
Which fields of a payload are removed for the locations that were reported.
-/

namespace Orchestrator.Redis

open Python Pydantic

variable {v v' child : Value} {step other : Step} {loc place : List Step} {locs : List (List Step)}

theorem deleteAt_of_target (h : target v loc = some place) :
    deleteAt v loc = if present v place then some (removeAt v place) else none := by
  fun_induction target v loc generalizing place with
  | case1 => cases h
  | case2 v last =>
    cases h
    unfold deleteAt present removeAt
    cases removeKey v last <;> rfl
  | case3 v step next rest child hchild ih =>
    obtain ⟨q, hq, rfl⟩ := Option.map_eq_some_iff.mp h
    obtain ⟨first, more, rfl⟩ := List.exists_cons_of_ne_nil (target_ne_nil hq)
    unfold deleteAt present removeAt
    simp only [hchild, ih hq]
    split <;> rfl
  | case4 v step next rest hchild ih =>
    unfold deleteAt
    rw [hchild]
    exact ih h

theorem deleteAll_exact {errors : List Problem} (htarget : ∀ p ∈ errors, target v p.loc = some p.place)
    (hapart : ∀ p ∈ errors, ∀ q ∈ errors, p.place <+: q.place → p.place = q.place) :
    ∃ removed : List Problem, removed.Sublist errors ∧ (deleteAll v (errors.map Problem.loc)).2 = removed.map (fun p => fieldName p.loc) ∧
      (deleteAll v (errors.map Problem.loc)).1 = removeAll v (removed.map Problem.place) := by
  induction errors generalizing v with
  | nil => exact ⟨[], List.Sublist.refl _, rfl, rfl⟩
  | cons p rest ih =>
    have hapart' : ∀ p ∈ rest, ∀ q ∈ rest, p.place <+: q.place → p.place = q.place := by
      intro p hp q hq
      exact hapart p (List.mem_cons_of_mem _ hp) q (List.mem_cons_of_mem _ hq)
    rw [List.map_cons, deleteAll, deleteAt_of_target (htarget p List.mem_cons_self)]
    by_cases hpresent : present v p.place = true
    · rw [if_pos hpresent]
      have hlater : ∀ q ∈ rest, target (removeAt v p.place) q.loc = some q.place := by
        intro q hq
        exact target_removeAt (htarget q (List.mem_cons_of_mem _ hq))
          (hapart p List.mem_cons_self q (List.mem_cons_of_mem _ hq))
      obtain ⟨removed, hsub, hnames, hvalue⟩ := ih hlater hapart'
      refine ⟨p :: removed, hsub.cons_cons p, ?_, ?_⟩
      · simp only [hnames, List.map_cons]
      · rw [hvalue]
        rfl
    · rw [if_neg hpresent]
      obtain ⟨removed, hsub, hnames, hvalue⟩ := ih (fun q hq => htarget q (List.mem_cons_of_mem _ hq)) hapart'
      exact ⟨removed, hsub.cons p, hnames, hvalue⟩

def below (step : Step) (locs : List (List Step)) : List (List Step) :=
  locs.filterMap fun loc => if loc.head? = some step then some loc.tail else none

theorem mem_below : loc ∈ below step locs ↔ step :: loc ∈ locs := by
  unfold below
  rw [List.mem_filterMap]
  constructor
  · rintro ⟨found, hfound, h⟩
    simp only [Option.ite_none_right_eq_some, Option.some.injEq] at h
    obtain ⟨hhead, rfl⟩ := h
    obtain ⟨more, rfl⟩ := List.head?_eq_some_iff.mp hhead
    exact hfound
  · intro h
    exact ⟨step :: loc, h, by simp⟩

theorem deleteAt_child (h : child? v step = some child) (hloc : loc ≠ []) :
    deleteAt v (step :: loc) = (deleteAt child loc).map fun child => replaceAt v step child := by
  obtain ⟨next, rest, rfl⟩ := List.exists_cons_of_ne_nil hloc
  rw [deleteAt, h]

theorem deleteAt_skip (h : child? v step = none) (hloc : loc ≠ []) : deleteAt v (step :: loc) = deleteAt v loc := by
  obtain ⟨next, rest, rfl⟩ := List.exists_cons_of_ne_nil hloc
  rw [deleteAt, h]

theorem child?_deleteAt_of_head_ne (h : deleteAt v loc = some v') (hhead : loc.head? ≠ some step)
    (hfirst : ∀ first, loc.head? = some first → loc.tail ≠ [] → (child? v first).isSome = true) :
    child? v' step = child? v step := by
  match loc with
  | [] => cases h
  | [last] => exact (child?_removeKey h).2 step fun heq => hhead (by rw [heq]; rfl)
  | first :: next :: rest =>
    obtain ⟨child, hchild⟩ := Option.isSome_iff_exists.mp (hfirst first rfl (by simp))
    rw [deleteAt_child hchild (by simp)] at h
    obtain ⟨child', -, rfl⟩ := Option.map_eq_some_iff.mp h
    exact child?_replaceAt_of_ne fun heq => hhead (by rw [heq]; rfl)

def Rooted (v : Value) (locs : List (List Step)) : Prop :=
  ∀ first rest, first :: rest ∈ locs → rest ≠ [] → (child? v first).isSome = true ∧ [first] ∉ locs

theorem Rooted.tail (h : Rooted v (loc :: locs)) : Rooted v locs := by
  intro first rest hmem hrest
  obtain ⟨hchild, hkept⟩ := h first rest (List.mem_cons_of_mem _ hmem) hrest
  exact ⟨hchild, fun hin => hkept (List.mem_cons_of_mem _ hin)⟩

theorem Rooted.deleteAt (h : Rooted v (loc :: locs)) (hdelete : deleteAt v loc = some v') : Rooted v' locs := by
  intro first rest hmem hrest
  obtain ⟨hchild, hkept⟩ := h first rest (List.mem_cons_of_mem _ hmem) hrest
  refine ⟨?_, fun hin => hkept (List.mem_cons_of_mem _ hin)⟩
  by_cases hhead : loc.head? = some first
  · obtain ⟨more, rfl⟩ := List.head?_eq_some_iff.mp hhead
    have hmore : more ≠ [] := by
      rintro rfl
      exact hkept List.mem_cons_self
    obtain ⟨child, hfound⟩ := Option.isSome_iff_exists.mp hchild
    rw [deleteAt_child hfound hmore] at hdelete
    obtain ⟨child', -, rfl⟩ := Option.map_eq_some_iff.mp hdelete
    rw [child?_replaceAt_self hfound]
    rfl
  · rw [child?_deleteAt_of_head_ne hdelete hhead]
    · exact hchild
    · intro other hother htail
      obtain ⟨more, rfl⟩ := List.head?_eq_some_iff.mp hother
      exact (h other more List.mem_cons_self htail).1

theorem child?_deleteAll (hrooted : Rooted v locs) (hchild : child? v step = some child) (hkept : [step] ∉ locs) :
    child? (deleteAll v locs).1 step = some (deleteAll child (below step locs)).1 := by
  induction locs generalizing v child with
  | nil => exact hchild
  | cons loc more ih =>
    have hkept' : [step] ∉ more := fun hin => hkept (List.mem_cons_of_mem _ hin)
    by_cases hhead : loc.head? = some step
    · obtain ⟨rest, rfl⟩ := List.head?_eq_some_iff.mp hhead
      have hrest : rest ≠ [] := by
        rintro rfl
        exact hkept List.mem_cons_self
      have hbelow : below step ((step :: rest) :: more) = rest :: below step more := by simp [below]
      rw [hbelow, deleteAll, deleteAll]
      cases hdelete : deleteAt child rest with
      | none =>
        rw [deleteAt_child hchild hrest, hdelete]
        exact ih hrooted.tail hchild hkept'
      | some child' =>
        have hdeleted : deleteAt v (step :: rest) = some (replaceAt v step child') := by
          rw [deleteAt_child hchild hrest, hdelete]
          rfl
        rw [hdeleted]
        exact ih (hrooted.deleteAt hdeleted) (child?_replaceAt_self hchild) hkept'
    · have hbelow : below step (loc :: more) = below step more := by simp [below, hhead]
      rw [hbelow, deleteAll]
      cases hdelete : deleteAt v loc with
      | none => exact ih hrooted.tail hchild hkept'
      | some v' =>
        have hsame : child? v' step = some child := by
          rw [child?_deleteAt_of_head_ne hdelete hhead, hchild]
          intro first hfirst htail
          obtain ⟨rest, rfl⟩ := List.head?_eq_some_iff.mp hfirst
          exact (hrooted first rest List.mem_cons_self htail).1
        exact ih (hrooted.deleteAt hdelete) hsame hkept'

theorem child?_deleteAll_of_heads_ne (hrooted : Rooted v locs) (h : ∀ loc ∈ locs, loc.head? ≠ some step) :
    child? (deleteAll v locs).1 step = child? v step := by
  induction locs generalizing v with
  | nil => rfl
  | cons loc more ih =>
    have hmore : ∀ loc ∈ more, loc.head? ≠ some step := fun loc hloc => h loc (List.mem_cons_of_mem _ hloc)
    rw [deleteAll]
    cases hdelete : deleteAt v loc with
    | none => exact ih hrooted.tail hmore
    | some v' =>
      have hsame : child? v' step = child? v step := by
        apply child?_deleteAt_of_head_ne hdelete (h loc List.mem_cons_self)
        intro first hfirst htail
        obtain ⟨rest, rfl⟩ := List.head?_eq_some_iff.mp hfirst
        exact (hrooted first rest List.mem_cons_self htail).1
      exact (ih (hrooted.deleteAt hdelete) hmore).trans hsame

theorem child?_of_deleteAt (h : deleteAt v loc = some v') {found : Value} (hfound : child? v' step = some found) :
    ∃ child, child? v step = some child ∧ (found = child ∨ ∃ more, deleteAt child more = some found) := by
  fun_induction deleteAt v loc generalizing v' found with
  | case1 => cases h
  | case2 v last =>
    by_cases hlast : step = last
    · rw [hlast, (child?_removeKey h).1] at hfound
      cases hfound
    · rw [(child?_removeKey h).2 step hlast] at hfound
      exact ⟨found, hfound, Or.inl rfl⟩
  | case3 v first next rest child hchild ih =>
    obtain ⟨child', hdelete, rfl⟩ := Option.map_eq_some_iff.mp h
    by_cases hfirst : step = first
    · subst hfirst
      rw [child?_replaceAt_self hchild] at hfound
      cases hfound
      exact ⟨child, hchild, Or.inr ⟨_, hdelete⟩⟩
    · rw [child?_replaceAt_of_ne hfirst] at hfound
      exact ⟨found, hfound, Or.inl rfl⟩
  | case4 v first next rest hchild ih => exact ih h hfound

theorem child?_of_deleteAll {found : Value} (h : child? (deleteAll v locs).1 step = some found) :
    ∃ child more, child? v step = some child ∧ found = (deleteAll child more).1 := by
  induction locs generalizing v found with
  | nil => exact ⟨found, [], h, rfl⟩
  | cons loc rest ih =>
    rw [deleteAll] at h
    cases hdelete : deleteAt v loc with
    | none =>
      rw [hdelete] at h
      exact ih h
    | some v' =>
      rw [hdelete] at h
      obtain ⟨child', more, hchild', rfl⟩ := ih h
      obtain ⟨child, hchild, rfl | ⟨first, hfirst⟩⟩ := child?_of_deleteAt hdelete hchild'
      · exact ⟨child', more, hchild, rfl⟩
      · exact ⟨child, first :: more, hchild, by rw [deleteAll, hfirst]⟩

theorem child?_deleteAll_none (h : child? v step = none) : child? (deleteAll v locs).1 step = none := by
  cases hfound : child? (deleteAll v locs).1 step with
  | none => rfl
  | some found =>
    obtain ⟨child, more, hchild, -⟩ := child?_of_deleteAll hfound
    rw [h] at hchild
    cases hchild

theorem deleteAll_skip (h : child? v step = none) (hall : ∀ loc ∈ locs, ∃ rest, rest ≠ [] ∧ loc = step :: rest) :
    (deleteAll v locs).1 = (deleteAll v (below step locs)).1 := by
  induction locs generalizing v with
  | nil => rfl
  | cons loc more ih =>
    have hmore : ∀ loc ∈ more, ∃ rest, rest ≠ [] ∧ loc = step :: rest := fun loc hloc => hall loc (List.mem_cons_of_mem _ hloc)
    obtain ⟨rest, hrest, rfl⟩ := hall loc List.mem_cons_self
    have hbelow : below step ((step :: rest) :: more) = rest :: below step more := by simp [below]
    rw [hbelow, deleteAll, deleteAll, deleteAt_skip h hrest]
    cases hdelete : deleteAt v rest with
    | none => exact ih h hmore
    | some v' =>
      apply ih _ hmore
      cases hfound : child? v' step with
      | none => rfl
      | some found =>
        obtain ⟨child, hchild, -⟩ := child?_of_deleteAt hdelete hfound
        rw [h] at hchild
        cases hchild

theorem deleteAt_container (h : deleteAt v loc = some v') : isContainer v = true ∧ isContainer v' = true := by
  fun_induction deleteAt v loc generalizing v' with
  | case1 => cases h
  | case2 v last =>
    cases v with
    | mapping entries =>
      cases last with
      | index n => cases h
      | key name =>
        simp only [removeKey, Option.ite_none_right_eq_some, Option.some.injEq] at h
        obtain ⟨-, rfl⟩ := h
        exact ⟨rfl, rfl⟩
    | _ => cases h
  | case3 v first next rest child hchild ih =>
    obtain ⟨child', -, rfl⟩ := Option.map_eq_some_iff.mp h
    cases v with
    | mapping entries | list items => cases first <;> exact ⟨rfl, rfl⟩
    | _ => cases hchild
  | case4 v first next rest hchild ih => exact ih h

theorem deleteAll_scalar (h : isContainer v = false) : (deleteAll v locs).1 = v := by
  induction locs with
  | nil => rfl
  | cons loc rest ih =>
    rw [deleteAll]
    cases hdelete : deleteAt v loc with
    | none => exact ih
    | some v' =>
      rw [(deleteAt_container hdelete).1] at h
      cases h

theorem deleteAll_isNone (h : v.isNone = false) : (deleteAll v locs).1.isNone = false := by
  induction locs generalizing v with
  | nil => exact h
  | cons loc rest ih =>
    rw [deleteAll]
    cases hdelete : deleteAt v loc with
    | none => exact ih h
    | some v' =>
      have hcontainer := (deleteAt_container hdelete).2
      apply ih
      cases v' with
      | mapping entries | list items => rfl
      | _ => cases hcontainer

theorem child?_of_selectedTag {discriminator tag : String} {tags : List String} (h : selectedTag discriminator tags v = some tag) :
    child? v (.key discriminator) = some (.text tag) := by
  cases v with
  | mapping entries =>
    simp only [selectedTag] at h
    split at h
    · rename_i found hfound
      simp only [Option.ite_none_right_eq_some, Option.some.injEq] at h
      rw [← h.2]
      exact hfound
    · cases h
  | _ => cases h

theorem selectedTag_deleteAll {discriminator tag tag' : String} {tags : List String}
    (h : selectedTag discriminator tags v = some tag) (h' : selectedTag discriminator tags (deleteAll v locs).1 = some tag') :
    tag' = tag := by
  obtain ⟨child, more, hchild, hsame⟩ := child?_of_deleteAll (child?_of_selectedTag h')
  rw [child?_of_selectedTag h] at hchild
  cases hchild
  rw [deleteAll_scalar rfl] at hsame
  cases hsame
  rfl

end Orchestrator.Redis
