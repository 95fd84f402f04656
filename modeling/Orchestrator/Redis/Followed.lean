import Orchestrator.Redis.Pruning

/-!
Types without plain unions: where a pruned payload is accepted, each location led to
the field it was reported for, whatever keys the payload has.
-/

namespace Orchestrator.Redis

open Python Pydantic

variable {O : Type} {v child : Value} {step : Step} {p q : Problem} {locs : List (List Step)} {schema part : Schema O}

def UnionFree : Schema O → Prop
  | .leaf _ => True
  | .before _ inner => UnionFree inner
  | .after _ inner => UnionFree inner
  | .nullable _ inner => UnionFree inner
  | .list _ item => UnionFree item
  | .dict _ value => UnionFree value
  | .model _ fields type _ => ∀ name, isField fields name = true → UnionFree (type name)
  | .tagged _ tags member => ∀ tag ∈ tags, UnionFree (member tag)
  | .union _ _ _ => False

def AllExtra (errors : List Problem) : Prop := ∀ p ∈ errors, p.kind = .extraForbidden

def Behind (front : List Step) (locs : List (List Step)) (errors : List Problem) : Prop :=
  ∀ loc, loc ∈ locs ↔ ∃ p ∈ errors, front ++ p.loc = loc

def Followed (schema : Schema O) : Prop :=
  ∀ v front locs, Behind front locs (reported schema v) → AllExtra (reported schema v) →
    Accepts schema (deleteAll v locs).1 → ∀ p ∈ reported schema v, target v (front ++ p.loc) = some p.place

theorem part_not_refused {name : String} (h : schema.part (.key name) = some part) : schema.refuses name = false := by
  cases schema with
  | model forbids fields type build =>
    simp only [Schema.part, Option.ite_none_right_eq_some] at h
    simp [Schema.refuses, h.1]
  | _ => rfl

theorem target_child (h : child? v step = some child) {loc : List Step} (hloc : loc ≠ []) :
    target v (step :: loc) = (target child loc).map fun place => step :: place := by
  obtain ⟨next, rest, rfl⟩ := List.exists_cons_of_ne_nil hloc
  rw [target, h]

theorem target_skip (h : child? v step = none) {loc : List Step} (hloc : loc ≠ []) : target v (step :: loc) = target v loc := by
  obtain ⟨next, rest, rfl⟩ := List.exists_cons_of_ne_nil hloc
  rw [target, h]

theorem allExtra_part (hS : Parted schema) (hextra : AllExtra (reported schema v)) (hchild : child? v step = some child)
    (hpart : schema.part step = some part) : AllExtra (reported part child) :=
  fun q hq => hextra (q.beneath step) (hS.beneath hchild hpart hq)

theorem reported_below (hS : Parted schema) (hextra : AllExtra (reported schema v)) (hp : p ∈ reported schema v)
    {rest : List Step} (hloc : p.loc = step :: rest) (hrest : rest ≠ []) :
    ∃ child part q, child? v step = some child ∧ schema.part step = some part ∧ q ∈ reported part child ∧
      p = q.beneath step := by
  rcases hS.cases hp (hextra p hp) with ⟨step', child, part, q, hchild, hpart, hq, rfl⟩ | ⟨name, -, -, rfl⟩
  · cases hloc
    exact ⟨child, part, q, hchild, hpart, hq, rfl⟩
  · cases hloc
    exact absurd rfl hrest

theorem not_reported_of_part (hS : Parted schema) (hextra : AllExtra (reported schema v)) (hpart : schema.part step = some part)
    (hp : p ∈ reported schema v) : p.loc ≠ [step] := by
  intro hloc
  rcases hS.cases hp (hextra p hp) with ⟨step', child, part', q, hchild, hpart', hq, rfl⟩ | ⟨name, -, hrefused, rfl⟩
  · have hbelow := (extra_below hq (hextra (q.beneath step') hp)).1
    exact hbelow (List.cons.inj hloc).2
  · cases hloc
    rw [part_not_refused hpart] at hrefused
    cases hrefused

variable (hS : Parted schema) (hextra : AllExtra (reported schema v))
include hS hextra

theorem rooted_of_reported (hlocs : Behind [] locs (reported schema v)) : Rooted v locs := by
  intro first rest hmem hrest
  obtain ⟨p, hp, hloc⟩ := (hlocs _).mp hmem
  obtain ⟨child, part, q, hchild, hpart, -, -⟩ := reported_below hS hextra hp hloc hrest
  refine ⟨by rw [hchild]; rfl, fun hin => ?_⟩
  obtain ⟨p', hp', hloc'⟩ := (hlocs _).mp hin
  exact not_reported_of_part hS hextra hpart hp' hloc'

theorem behind_below (hlocs : Behind [] locs (reported schema v)) (hchild : child? v step = some child)
    (hpart : schema.part step = some part) : Behind [] (below step locs) (reported part child) := by
  intro loc
  rw [mem_below, hlocs]
  constructor
  · rintro ⟨p, hp, hloc⟩
    rcases hS.cases hp (hextra p hp) with ⟨step', child', part', q, hchild', hpart', hq, rfl⟩ | ⟨name, -, hrefused, rfl⟩
    · obtain ⟨rfl, hrest⟩ := List.cons.inj hloc
      rw [hchild] at hchild'
      cases hchild'
      rw [hpart] at hpart'
      cases hpart'
      exact ⟨q, hq, hrest⟩
    · obtain ⟨rfl, -⟩ := List.cons.inj hloc
      rw [part_not_refused hpart] at hrefused
      cases hrefused
  · rintro ⟨q, hq, rfl⟩
    exact ⟨q.beneath step, hS.beneath hchild hpart hq, rfl⟩

theorem followed_at (hparts : ∀ step part, schema.part step = some part → Followed part)
    (hlocs : Behind [] locs (reported schema v)) (haccepts : Accepts schema (deleteAll v locs).1) (hp : p ∈ reported schema v) :
    target v p.loc = some p.place := by
  rcases hS.cases hp (hextra p hp) with ⟨step, child, part, q, hchild, hpart, hq, rfl⟩ | ⟨name, -, -, rfl⟩
  · have hkept : [step] ∉ locs := by
      intro hin
      obtain ⟨p', hp', hloc'⟩ := (hlocs _).mp hin
      exact not_reported_of_part hS hextra hpart hp' hloc'
    have hpruned := child?_deleteAll (rooted_of_reported hS hextra hlocs) hchild hkept
    have hbelow := hparts step part hpart child [] (below step locs) (behind_below hS hextra hlocs hchild hpart)
      (allExtra_part hS hextra hchild hpart) (hS.accepts haccepts hpruned hpart) q hq
    have hloc : q.loc ≠ [] := (extra_below hq (hextra (q.beneath step) hp)).1
    change target v (step :: q.loc) = some (step :: q.place)
    rw [target_child hchild hloc]
    simp only [List.nil_append] at hbelow
    rw [hbelow]
    rfl
  · rfl

omit hS hextra

theorem rooted_of_heads {first : Step} {child : Value} (hchild : child? v first = some child)
    (hall : ∀ loc ∈ locs, ∃ rest, rest ≠ [] ∧ loc = first :: rest) : Rooted v locs := by
  intro step rest hmem hrest
  obtain ⟨more, -, heq⟩ := hall _ hmem
  obtain ⟨rfl, rfl⟩ := List.cons.inj heq
  refine ⟨by rw [hchild]; rfl, fun hin => ?_⟩
  obtain ⟨more', hmore', heq'⟩ := hall _ hin
  exact hmore' (List.cons.inj heq').2.symm

theorem reported_beneath_key (hS : Parted schema) (hextra : AllExtra (reported schema v)) {first : Step} {child : Value}
    (hchild : child? v first = some child) (hall : ∀ loc ∈ locs, ∃ rest, rest ≠ [] ∧ loc = first :: rest)
    (haccepts : Accepts schema (deleteAll v locs).1) (hp : p ∈ reported schema v) :
    ∃ part q, schema.part first = some part ∧ q ∈ reported part child ∧ p = q.beneath first := by
  have hrooted := rooted_of_heads hchild hall
  have hkept : [first] ∉ locs := by
    intro hin
    obtain ⟨rest, hrest, heq⟩ := hall _ hin
    exact hrest (List.cons.inj heq).2.symm
  have hsame : ∀ step, step ≠ first → child? (deleteAll v locs).1 step = child? v step := by
    intro step hne
    apply child?_deleteAll_of_heads_ne hrooted
    intro loc hloc hhead
    obtain ⟨rest, -, rfl⟩ := hall loc hloc
    exact hne (Option.some.inj hhead).symm
  rcases hS.cases hp (hextra p hp) with ⟨step, found, part, q, hfound, hpart, hq, rfl⟩ | ⟨name, hname, hrefused, rfl⟩
  · by_cases hstep : step = first
    · subst hstep
      rw [hchild] at hfound
      cases hfound
      exact ⟨part, q, hpart, hq, rfl⟩
    · rw [← hsame step hstep] at hfound
      rw [reported_of_accepts (hS.accepts haccepts hfound hpart)] at hq
      cases hq
  · have hthere : (child? (deleteAll v locs).1 (.key name)).isSome = true := by
      by_cases hfirst : .key name = first
      · rw [hfirst, child?_deleteAll hrooted hchild hkept]
        rfl
      · rw [hsame _ hfirst]
        exact hname
    rw [hS.knows haccepts hthere] at hrefused
    cases hrefused

theorem followed_of_parts (hS : Parted schema) (hparts : ∀ step part, schema.part step = some part → Followed part) :
    Followed schema := by
  intro v front
  induction front with
  | nil =>
    intro locs hlocs hextra haccepts p hp
    exact followed_at hS hextra hparts hlocs haccepts hp
  | cons first front ih =>
    intro locs hlocs hextra haccepts p hp
    have hrest : ∀ p ∈ reported schema v, front ++ p.loc ≠ [] := by
      intro p hp h
      exact (extra_below hp (hextra p hp)).1 (List.append_eq_nil_iff.mp h).2
    have hall : ∀ loc ∈ locs, ∃ rest, rest ≠ [] ∧ loc = first :: rest := by
      intro loc hloc
      obtain ⟨p, hp, rfl⟩ := (hlocs loc).mp hloc
      exact ⟨front ++ p.loc, hrest p hp, rfl⟩
    have hbelow : ∀ loc, loc ∈ below first locs ↔ ∃ p ∈ reported schema v, front ++ p.loc = loc := by
      intro loc
      rw [mem_below, hlocs]
      simp only [List.cons_append, List.cons.injEq, true_and]
    rw [List.cons_append]
    cases hchild : child? v first with
    | none =>
      rw [deleteAll_skip hchild hall] at haccepts
      rw [target_skip hchild (hrest p hp)]
      exact ih (below first locs) hbelow hextra haccepts p hp
    | some child =>
      have hbeneath := fun p hp => reported_beneath_key (p := p) hS hextra hchild hall haccepts hp
      obtain ⟨part, q, hpart, hq, rfl⟩ := hbeneath p hp
      have hkept : [first] ∉ locs := by
        intro hin
        obtain ⟨rest, hrest, heq⟩ := hall _ hin
        exact hrest (List.cons.inj heq).2.symm
      have hpruned := child?_deleteAll (rooted_of_heads hchild hall) hchild hkept
      have hmem : Behind (front ++ [first]) (below first locs) (reported part child) := by
        intro loc
        rw [hbelow]
        constructor
        · rintro ⟨p', hp', rfl⟩
          obtain ⟨part', q', hpart', hq', rfl⟩ := hbeneath p' hp'
          rw [hpart] at hpart'
          cases hpart'
          exact ⟨q', hq', by simp [Problem.beneath]⟩
        · rintro ⟨q', hq', rfl⟩
          exact ⟨q'.beneath first, hS.beneath hchild hpart hq', by simp [Problem.beneath]⟩
      have htarget := hparts first part hpart child (front ++ [first]) (below first locs) hmem
        (allExtra_part hS hextra hchild hpart) (hS.accepts haccepts hpruned hpart) q hq
      rw [target_child hchild (hrest _ hp)]
      change Option.map _ (target child (front ++ (first :: q.loc))) = some (first :: q.place)
      rw [List.append_assoc, List.singleton_append] at htarget
      rw [htarget]
      rfl

theorem followed_of_unionFree (hfree : UnionFree schema) : Followed schema := by
  induction schema with
  | leaf accept =>
    intro v front locs hlocs hextra haccepts p hp
    have hkind := hextra p hp
    obtain ⟨type, rfl⟩ := leaf_reported hp
    cases hkind
  | before refuses inner ih =>
    intro v front locs hlocs hextra haccepts p hp
    have hsame := before_extra hp (hextra p hp)
    rw [hsame] at hlocs hextra hp
    exact ih hfree v front locs hlocs hextra (before_accepts haccepts) p hp
  | after check inner ih =>
    intro v front locs hlocs hextra haccepts p hp
    have hsame := after_extra hp (hextra p hp)
    rw [hsame] at hlocs hextra hp
    exact ih hfree v front locs hlocs hextra (after_accepts haccepts) p hp
  | nullable absent inner ih =>
    intro v front locs hlocs hextra haccepts p hp
    obtain ⟨hv, hsame⟩ := nullable_problem hp
    rw [hsame] at hlocs hextra hp
    exact ih hfree v front locs hlocs hextra (nullable_accepts haccepts (deleteAll_isNone hv)) p hp
  | list build item ih =>
    apply followed_of_parts (list_parted build item)
    intro step part hpart
    cases step with
    | key name => cases hpart
    | index n =>
      cases hpart
      exact ih hfree
  | dict build value ih =>
    apply followed_of_parts (dict_parted build value)
    intro step part hpart
    cases step with
    | index n => cases hpart
    | key name =>
      cases hpart
      exact ih hfree
  | model forbids fields type build ih =>
    apply followed_of_parts (model_parted forbids fields type build)
    intro step part hpart
    cases step with
    | index n => cases hpart
    | key name =>
      simp only [Schema.part, Option.ite_none_right_eq_some, Option.some.injEq] at hpart
      obtain ⟨hfield, rfl⟩ := hpart
      exact ih name (hfree name hfield)
  | tagged discriminator tags member ih =>
    intro v front locs hlocs hextra haccepts p hp
    obtain ⟨tag, hselected, hsame⟩ := tagged_extra hp (hextra p hp)
    obtain ⟨tag', hselected', haccepted⟩ := tagged_accepts haccepts
    cases selectedTag_deleteAll hselected hselected'
    rw [hsame] at hlocs hextra hp
    obtain ⟨q, hq, rfl⟩ := List.mem_map.mp hp
    have hmem : Behind (front ++ [.key tag]) locs (reported (member tag) v) := by
      intro loc
      rw [hlocs]
      simp [Problem.labelled]
    have hall : AllExtra (reported (member tag) v) := fun q hq => hextra (q.labelled tag) (List.mem_map_of_mem hq)
    have htarget := ih tag (hfree tag (mem_of_selectedTag hselected)) v (front ++ [.key tag]) locs hmem hall haccepted q hq
    rw [List.append_assoc, List.singleton_append] at htarget
    exact htarget
  | union pick labels member ih => exact hfree.elim

end Orchestrator.Redis
