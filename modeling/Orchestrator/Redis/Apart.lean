import Orchestrator.Redis.Followed

/-!
Reported fields that lie apart, and payloads whose keys are no names of union members.
-/

namespace Orchestrator.Redis

open Python Pydantic

variable {O : Type} {v child : Value} {step : Step} {p q : Problem} {schema part : Schema O}

def PlacesApart (schema : Schema O) (v : Value) : Prop :=
  ∀ p ∈ reported schema v, ∀ q ∈ reported schema v, p.kind = .extraForbidden → q.kind = .extraForbidden →
    p.place <+: q.place → p.place = q.place

theorem placesApart_of_parts (hS : Parted schema)
    (hparts : ∀ step part child, schema.part step = some part → PlacesApart part child) : PlacesApart schema v := by
  intro p hp q hq hpe hqe h
  rcases hS.cases hp hpe with ⟨step, child, part, p', hchild, hpart, hp', rfl⟩ | ⟨name, -, hrefused, rfl⟩
  · rcases hS.cases hq hqe with ⟨step', child', part', q', hchild', hpart', hq', rfl⟩ | ⟨name, -, -, rfl⟩
    · obtain ⟨rfl, hbelow⟩ := List.cons_prefix_cons.mp h
      rw [hchild] at hchild'
      cases hchild'
      rw [hpart] at hpart'
      cases hpart'
      exact congrArg (step :: ·) (hparts step part child hpart p' hp' q' hq' hpe hqe hbelow)
    · obtain ⟨-, hbelow⟩ := List.cons_prefix_cons.mp h
      exact absurd (List.prefix_nil.mp hbelow) (extra_below hp' hpe).2
  · rcases hS.cases hq hqe with ⟨step', child', part', q', -, hpart', -, rfl⟩ | ⟨name', -, -, rfl⟩
    · obtain ⟨rfl, -⟩ := List.cons_prefix_cons.mp h
      rw [part_not_refused hpart'] at hrefused
      cases hrefused
    · obtain ⟨hname, -⟩ := List.cons_prefix_cons.mp h
      exact congrArg (fun step => [step]) hname

theorem placesApart_of_unionFree (hfree : UnionFree schema) : PlacesApart schema v := by
  induction schema generalizing v with
  | leaf accept =>
    intro p hp q hq hpe
    obtain ⟨type, rfl⟩ := leaf_reported hp
    cases hpe
  | before refuses inner ih =>
    intro p hp q hq hpe
    have hsame := before_extra hp hpe
    rw [hsame] at hp hq
    exact ih hfree p hp q hq hpe
  | after check inner ih =>
    intro p hp q hq hpe
    have hsame := after_extra hp hpe
    rw [hsame] at hp hq
    exact ih hfree p hp q hq hpe
  | nullable absent inner ih =>
    intro p hp q hq hpe
    have hsame := (nullable_problem hp).2
    rw [hsame] at hp hq
    exact ih hfree p hp q hq hpe
  | list build item ih =>
    apply placesApart_of_parts (list_parted build item)
    intro step part child hpart
    cases step with
    | key name => cases hpart
    | index n =>
      cases hpart
      exact ih hfree
  | dict build value ih =>
    apply placesApart_of_parts (dict_parted build value)
    intro step part child hpart
    cases step with
    | index n => cases hpart
    | key name =>
      cases hpart
      exact ih hfree
  | model forbids fields type build ih =>
    apply placesApart_of_parts (model_parted forbids fields type build)
    intro step part child hpart
    cases step with
    | index n => cases hpart
    | key name =>
      simp only [Schema.part, Option.ite_none_right_eq_some, Option.some.injEq] at hpart
      obtain ⟨hfield, rfl⟩ := hpart
      exact ih name (hfree name hfield)
  | tagged discriminator tags member ih =>
    intro p hp q hq hpe hqe h
    obtain ⟨tag, hselected, hsame⟩ := tagged_extra hp hpe
    rw [hsame] at hp hq
    obtain ⟨p', hp', rfl⟩ := List.mem_map.mp hp
    obtain ⟨q', hq', rfl⟩ := List.mem_map.mp hq
    exact ih tag (hfree tag (mem_of_selectedTag hselected)) p' hp' q' hq' hpe hqe h
  | union pick labels member ih => exact hfree.elim

def MemberName : Schema O → String → Prop
  | .leaf _, _ => False
  | .before _ inner, name => MemberName inner name
  | .after _ inner, name => MemberName inner name
  | .nullable _ inner, name => MemberName inner name
  | .list _ item, name => MemberName item name
  | .dict _ value, name => MemberName value name
  | .model _ fields type _, name => ∃ field, isField fields field = true ∧ MemberName (type field) name
  | .tagged _ tags member, name => name ∈ tags ∨ ∃ tag ∈ tags, MemberName (member tag) name
  | .union _ labels member, name => name ∈ labels ∨ ∃ label ∈ labels, MemberName (member label) name

def valueAt? : Value → List Step → Option Value
  | v, [] => some v
  | v, step :: rest => (child? v step).bind fun child => valueAt? child rest

def TagsApart (schema : Schema O) (v : Value) : Prop :=
  ∀ path found name, valueAt? v path = some found → MemberName schema name → child? found (.key name) = none

theorem TagsApart.below (h : TagsApart schema v) (hchild : child? v step = some child)
    (hnames : ∀ name, MemberName part name → MemberName schema name) : TagsApart part child := by
  intro path found name hfound hname
  apply h (step :: path) found name _ (hnames name hname)
  rw [valueAt?, hchild]
  exact hfound

theorem TagsApart.weaken (h : TagsApart schema v) (hnames : ∀ name, MemberName part name → MemberName schema name) :
    TagsApart part v :=
  fun path found name hfound hname => h path found name hfound (hnames name hname)

theorem target_of_parts (hS : Parted schema) (hp : p ∈ reported schema v) (hpe : p.kind = .extraForbidden)
    (hparts : ∀ step child part q, child? v step = some child → schema.part step = some part → q ∈ reported part child →
      q.kind = .extraForbidden → target child q.loc = some q.place) : target v p.loc = some p.place := by
  rcases hS.cases hp hpe with ⟨step, child, part, q, hchild, hpart, hq, rfl⟩ | ⟨name, -, -, rfl⟩
  · change target v (step :: q.loc) = some (step :: q.place)
    rw [target_child hchild (extra_below hq hpe).1, hparts step child part q hchild hpart hq hpe]
    rfl
  · rfl

theorem target_labelled {name : String} (hname : child? v (.key name) = none) (hloc : q.loc ≠ [])
    (h : target v q.loc = some q.place) : target v (q.labelled name).loc = some (q.labelled name).place := by
  change target v (.key name :: q.loc) = some q.place
  rw [target_skip hname hloc]
  exact h

theorem target_of_tagsApart (htags : TagsApart schema v) (hp : p ∈ reported schema v) (hpe : p.kind = .extraForbidden) :
    target v p.loc = some p.place := by
  induction schema generalizing v p with
  | leaf accept =>
    obtain ⟨type, rfl⟩ := leaf_reported hp
    cases hpe
  | before refuses inner ih =>
    rw [before_extra hp hpe] at hp
    exact ih htags hp hpe
  | after check inner ih =>
    rw [after_extra hp hpe] at hp
    exact ih htags hp hpe
  | nullable absent inner ih =>
    rw [(nullable_problem hp).2] at hp
    exact ih htags hp hpe
  | list build item ih =>
    apply target_of_parts (list_parted build item) hp hpe
    intro step child part q hchild hpart hq hqe
    cases step with
    | key name => cases hpart
    | index n =>
      cases hpart
      exact ih (htags.below hchild fun _ hname => hname) hq hqe
  | dict build value ih =>
    apply target_of_parts (dict_parted build value) hp hpe
    intro step child part q hchild hpart hq hqe
    cases step with
    | index n => cases hpart
    | key name =>
      cases hpart
      exact ih (htags.below hchild fun _ hname => hname) hq hqe
  | model forbids fields type build ih =>
    apply target_of_parts (model_parted forbids fields type build) hp hpe
    intro step child part q hchild hpart hq hqe
    cases step with
    | index n => cases hpart
    | key name =>
      simp only [Schema.part, Option.ite_none_right_eq_some, Option.some.injEq] at hpart
      obtain ⟨hfield, rfl⟩ := hpart
      exact ih name (htags.below hchild fun _ hname => ⟨name, hfield, hname⟩) hq hqe
  | tagged discriminator tags member ih =>
    obtain ⟨tag, hselected, hsame⟩ := tagged_extra hp hpe
    have htag := mem_of_selectedTag hselected
    rw [hsame] at hp
    obtain ⟨q, hq, rfl⟩ := List.mem_map.mp hp
    apply target_labelled (htags [] v tag rfl (Or.inl htag)) (extra_below hq hpe).1
    exact ih tag (htags.weaken fun _ hname => Or.inr ⟨tag, htag, hname⟩) hq hpe
  | union pick labels member ih =>
    rw [mem_union_reported hp, List.mem_flatMap] at hp
    obtain ⟨label, hlabel, hp⟩ := hp
    obtain ⟨q, hq, rfl⟩ := List.mem_map.mp hp
    apply target_labelled (htags [] v label rfl (Or.inl hlabel)) (extra_below hq hpe).1
    exact ih label (htags.weaken fun _ hname => Or.inr ⟨label, hlabel, hname⟩) hq hpe

end Orchestrator.Redis
