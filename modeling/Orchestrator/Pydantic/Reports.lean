import Orchestrator.Pydantic.Schema

/-!
What a validation reports, by what it reports of the parts of a payload.
-/

namespace Orchestrator.Pydantic

open Python

variable {O A B : Type} {p q : Problem}

def child? : Value → Step → Option Value
  | .mapping entries, .key name => entries.lookup name
  | .list items, .index n => items[n]?
  | _, _ => none

def Schema.part : Schema O → Step → Option (Schema O)
  | .list _ item, .index _ => some item
  | .dict _ value, .key _ => some value
  | .model _ fields type _, .key name => if isField fields name then some (type name) else none
  | _, _ => none

def Schema.refuses : Schema O → String → Bool
  | .model forbids fields _ _, name => forbids && !isField fields name
  | _, _ => false

@[simp] theorem problems_ok (a : A) : problems (.ok a : Result A) = [] := rfl

@[simp] theorem problems_error (ps : List Problem) : problems (.error ps : Result A) = ps := rfl

@[simp] theorem problems_map (f : A → B) (r : Result A) : problems (r.map f) = problems r := by
  cases r <;> rfl

@[simp] theorem problems_located (change : Problem → Problem) (r : Result A) :
    problems (located change r) = (problems r).map change := by
  cases r <;> rfl

@[simp] theorem problems_named (name : String) (r : Result A) :
    problems (named name r) = (problems r).map (·.beneath (.key name)) := by
  simp [named]

theorem problems_whole {r : Except String A} (h : p ∈ problems (whole r)) : ∃ type, p = wrong type := by
  cases r with
  | ok a => cases h
  | error type => exact ⟨type, by simpa [whole, Except.mapError] using h⟩

theorem mem_problems_gather (results : List (Result A)) : p ∈ problems (gather results) ↔ ∃ r ∈ results, p ∈ problems r := by
  induction results with
  | nil => simp [gather]
  | cons r rest ih =>
    cases r with
    | ok a | error ps => simp [gather, ih]

variable {r : Result A}

theorem accepted_of_gather {results : List (Result A)} {as : List A} (h : gather results = .ok as)
    (hr : r ∈ results) : ∃ a, r = .ok a := by
  induction results generalizing as with
  | nil => cases hr
  | cons first rest ih =>
    cases first with
    | error ps => cases h
    | ok a =>
      unfold gather at h
      cases hrest : gather rest with
      | error ps =>
        rw [hrest] at h
        cases h
      | ok as' =>
        rcases List.mem_cons.mp hr with rfl | hlater
        · exact ⟨a, rfl⟩
        · exact ih hrest hlater

theorem map_ok {f : A → B} {b : B} (h : r.map f = .ok b) : ∃ a, r = .ok a := by
  cases r with
  | ok a => exact ⟨a, rfl⟩
  | error ps => cases h

theorem located_ok {change : Problem → Problem} {a : A} (h : located change r = .ok a) : r = .ok a := by
  cases r with
  | ok a => exact h
  | error ps => cases h

theorem named_ok {name : String} {a : String × A} (h : named name r = .ok a) : ∃ a, r = .ok a := by
  obtain ⟨a, ha⟩ := map_ok h
  exact ⟨a, located_ok ha⟩

theorem reported_of_accepts {schema : Schema O} {v : Value} (h : Accepts schema v) : reported schema v = [] := by
  obtain ⟨o, ho⟩ := h
  unfold reported
  rw [ho]
  rfl

structure Parted (schema : Schema O) : Prop where
  cases : ∀ {v p}, p ∈ reported schema v → p.kind = .extraForbidden →
    (∃ step child part q, child? v step = some child ∧ schema.part step = some part ∧ q ∈ reported part child ∧
      p = q.beneath step) ∨
    ∃ name, (child? v (.key name)).isSome = true ∧ schema.refuses name = true ∧ p = unexpected name
  beneath : ∀ {v step child part q}, child? v step = some child → schema.part step = some part → q ∈ reported part child →
    q.beneath step ∈ reported schema v
  accepts : ∀ {v step child part}, Accepts schema v → child? v step = some child → schema.part step = some part →
    Accepts part child
  knows : ∀ {v name}, Accepts schema v → (child? v (.key name)).isSome = true → schema.refuses name = false

theorem list_parted (build : List O → O) (item : Schema O) : Parted (.list build item) := by
  constructor
  · intro v p hp hextra
    cases v with
    | list items =>
      unfold reported at hp
      rw [validate_list, problems_map, mem_problems_gather] at hp
      obtain ⟨r, hr, hp⟩ := hp
      obtain ⟨entry, hentry, rfl⟩ := List.mem_map.mp hr
      rw [problems_located] at hp
      obtain ⟨q, hq, rfl⟩ := List.mem_map.mp hp
      exact Or.inl ⟨.index entry.2, entry.1, item, q, List.mem_zipIdx_iff_getElem?.mp hentry, rfl, hq, rfl⟩
    | _ =>
      rw [List.mem_singleton.mp hp] at hextra
      cases hextra
  · intro v step child part q hchild hpart hq
    cases step with
    | key name => cases hpart
    | index n =>
      cases v with
      | list items =>
        cases hpart
        have hmem : (child, n) ∈ items.zipIdx := List.mem_zipIdx_iff_getElem?.mpr hchild
        unfold reported
        rw [validate_list, problems_map, mem_problems_gather]
        refine ⟨_, List.mem_map_of_mem hmem, ?_⟩
        rw [problems_located]
        exact List.mem_map_of_mem hq
      | _ => cases hchild
  · rintro v step child part ⟨o, ho⟩ hchild hpart
    cases step with
    | key name => cases hpart
    | index n =>
      cases v with
      | list items =>
        cases hpart
        have hmem : (child, n) ∈ items.zipIdx := List.mem_zipIdx_iff_getElem?.mpr hchild
        obtain ⟨as, has⟩ := map_ok ho
        obtain ⟨a, ha⟩ := accepted_of_gather has (List.mem_map_of_mem hmem)
        exact ⟨a, located_ok ha⟩
      | _ => cases hchild
  · intro v name h hchild
    rfl

variable {entries : Mapping}

theorem lookup_of_entry {entry : String × Value} (h : entry ∈ entries) :
    entries.lookup entry.1 = some (valueAt entries entry.1) := by
  have hsome : (entries.lookup entry.1).isSome = true := lookup_isSome_iff_mem.mpr (List.mem_map_of_mem h)
  obtain ⟨value, hvalue⟩ := Option.isSome_iff_exists.mp hsome
  rw [valueAt_of_lookup hvalue, hvalue]

theorem dict_parted (build : List (String × O) → O) (value : Schema O) : Parted (.dict build value) := by
  constructor
  · intro v p hp hextra
    cases v with
    | mapping entries =>
      unfold reported at hp
      rw [validate_dict, problems_map, mem_problems_gather] at hp
      obtain ⟨r, hr, hp⟩ := hp
      obtain ⟨entry, hentry, rfl⟩ := List.mem_map.mp hr
      rw [problems_named] at hp
      obtain ⟨q, hq, rfl⟩ := List.mem_map.mp hp
      exact Or.inl ⟨.key entry.1, valueAt entries entry.1, value, q, lookup_of_entry hentry, rfl, hq, rfl⟩
    | _ =>
      rw [List.mem_singleton.mp hp] at hextra
      cases hextra
  · intro v step child part q hchild hpart hq
    cases step with
    | index n => cases hpart
    | key name =>
      cases v with
      | mapping entries =>
        cases hpart
        have hmem : (name, child) ∈ entries := mem_of_lookup hchild
        have hvalue : valueAt entries name = child := valueAt_of_lookup hchild
        unfold reported
        rw [validate_dict, problems_map, mem_problems_gather]
        refine ⟨_, List.mem_map_of_mem hmem, ?_⟩
        rw [problems_named, hvalue]
        exact List.mem_map_of_mem hq
      | _ => cases hchild
  · rintro v step child part ⟨o, ho⟩ hchild hpart
    cases step with
    | index n => cases hpart
    | key name =>
      cases v with
      | mapping entries =>
        cases hpart
        have hmem : (name, child) ∈ entries := mem_of_lookup hchild
        have hvalue : valueAt entries name = child := valueAt_of_lookup hchild
        obtain ⟨as, has⟩ := map_ok ho
        obtain ⟨a, ha⟩ := accepted_of_gather has (List.mem_map_of_mem hmem)
        rw [hvalue] at ha
        exact named_ok ha
      | _ => cases hchild
  · intro v name h hchild
    rfl

theorem mem_problems_buildModel {build : List (String × O) → Mapping → O} {given : Result (List (String × O))}
    {extra : List Problem} {unknown : Mapping} :
    p ∈ problems (buildModel build given extra unknown) ↔ p ∈ problems given ∨ p ∈ extra := by
  cases given with
  | error ps => simp [buildModel]
  | ok values => cases extra <;> simp [buildModel]

theorem buildModel_ok {build : List (String × O) → Mapping → O} {given : Result (List (String × O))}
    {extra : List Problem} {unknown : Mapping} {o : O} (h : buildModel build given extra unknown = .ok o) :
    extra = [] ∧ ∃ values, given = .ok values := by
  cases given with
  | error ps => cases h
  | ok values =>
    cases extra with
    | nil => exact ⟨rfl, values, rfl⟩
    | cons first rest => cases h

theorem isField_iff {fields : List (Field O)} {name : String} : isField fields name = true ↔ ∃ field ∈ fields, field.name = name := by
  simp [isField]

theorem mem_refused {forbids : Bool} {fields : List (Field O)} :
    p ∈ refused forbids (unknownEntries fields entries) ↔
      ∃ name, (entries.lookup name).isSome = true ∧ (forbids && !isField fields name) = true ∧ p = unexpected name := by
  unfold refused unknownEntries
  cases forbids with
  | false => simp
  | true =>
    simp only [if_true, List.mem_map, List.mem_filter, Bool.true_and]
    constructor
    · rintro ⟨entry, ⟨hentry, hunknown⟩, rfl⟩
      exact ⟨entry.1, lookup_isSome_iff_mem.mpr (List.mem_map_of_mem hentry), hunknown, rfl⟩
    · rintro ⟨name, hname, hunknown, rfl⟩
      obtain ⟨entry, hentry, rfl⟩ := List.mem_map.mp (lookup_isSome_iff_mem.mp hname)
      exact ⟨entry, ⟨hentry, hunknown⟩, rfl⟩

theorem readField_present {field : Field O} {value : Value} {validate : Value → Result O}
    (h : entries.lookup field.name = some value) : readField entries field validate = named field.name (validate value) := by
  unfold readField
  rw [h]

theorem readField_absent {field : Field O} {validate : Value → Result O}
    (h : entries.lookup field.name = none) : problems (readField entries field validate) ⊆ [missing field.name] := by
  unfold readField
  rw [h]
  cases field.default <;> simp

theorem model_parted (forbids : Bool) (fields : List (Field O)) (type : String → Schema O)
    (build : List (String × O) → Mapping → O) : Parted (.model forbids fields type build) := by
  constructor
  · intro v p hp hextra
    cases v with
    | mapping entries =>
      unfold reported at hp
      rw [validate_model, mem_problems_buildModel, mem_problems_gather] at hp
      rcases hp with ⟨r, hr, hp⟩ | hp
      · obtain ⟨field, hfield, rfl⟩ := List.mem_map.mp hr
        cases hlookup : entries.lookup field.name with
        | none =>
          rw [List.mem_singleton.mp (readField_absent hlookup hp)] at hextra
          cases hextra
        | some child =>
          rw [readField_present hlookup, problems_named] at hp
          obtain ⟨q, hq, rfl⟩ := List.mem_map.mp hp
          have hknown : isField fields field.name = true := isField_iff.mpr ⟨field, hfield, rfl⟩
          exact Or.inl ⟨.key field.name, child, type field.name, q, hlookup, by simp [Schema.part, hknown], hq, rfl⟩
      · exact Or.inr (mem_refused.mp hp)
    | _ =>
      rw [List.mem_singleton.mp hp] at hextra
      cases hextra
  · intro v step child part q hchild hpart hq
    cases step with
    | index n => cases hpart
    | key name =>
      cases v with
      | mapping entries =>
        simp only [Schema.part, Option.ite_none_right_eq_some, Option.some.injEq] at hpart
        obtain ⟨hknown, rfl⟩ := hpart
        obtain ⟨field, hfield, rfl⟩ := isField_iff.mp hknown
        unfold reported
        rw [validate_model, mem_problems_buildModel, mem_problems_gather]
        refine Or.inl ⟨_, List.mem_map_of_mem hfield, ?_⟩
        rw [readField_present hchild, problems_named]
        exact List.mem_map_of_mem hq
      | _ => cases hchild
  · rintro v step child part ⟨o, ho⟩ hchild hpart
    cases step with
    | index n => cases hpart
    | key name =>
      cases v with
      | mapping entries =>
        simp only [Schema.part, Option.ite_none_right_eq_some, Option.some.injEq] at hpart
        obtain ⟨hknown, rfl⟩ := hpart
        obtain ⟨field, hfield, rfl⟩ := isField_iff.mp hknown
        obtain ⟨-, values, hvalues⟩ := buildModel_ok ho
        obtain ⟨a, ha⟩ := accepted_of_gather hvalues (List.mem_map_of_mem hfield)
        rw [readField_present hchild] at ha
        exact named_ok ha
      | _ => cases hchild
  · rintro v name ⟨o, ho⟩ hchild
    cases v with
    | mapping entries =>
      obtain ⟨hnone, -⟩ := buildModel_ok ho
      by_contra hrefused
      have hmem : unexpected name ∈ refused forbids (unknownEntries fields entries) :=
        mem_refused.mpr ⟨name, hchild, by simpa [Schema.refuses] using hrefused, rfl⟩
      rw [hnone] at hmem
      cases hmem
    | _ => cases hchild

variable {v : Value}

theorem leaf_reported {accept : Value → Except String O} (h : p ∈ reported (.leaf accept) v) : ∃ type, p = wrong type :=
  problems_whole h

variable {inner : Schema O}

variable {refuses : Value → Option String}

theorem before_reported :
    reported (.before refuses inner) v = reported inner v ∨ ∃ type, reported (.before refuses inner) v = [wrong type] := by
  unfold reported
  rw [validate_before]
  cases refuses v with
  | none => exact Or.inl rfl
  | some type => exact Or.inr ⟨type, rfl⟩

theorem before_accepts (h : Accepts (.before refuses inner) v) :
    Accepts inner v := by
  obtain ⟨o, ho⟩ := h
  rw [validate_before] at ho
  cases hrefuses : refuses v with
  | none =>
    rw [hrefuses] at ho
    exact ⟨o, ho⟩
  | some type =>
    rw [hrefuses] at ho
    cases ho

variable {check : O → Except String O}

theorem after_reported :
    reported (.after check inner) v = reported inner v ∨ ∃ type, reported (.after check inner) v = [wrong type] := by
  unfold reported
  rw [validate_after]
  cases validate inner v with
  | error ps => exact Or.inl rfl
  | ok o =>
    change problems (whole (check o)) = [] ∨ ∃ type, problems (whole (check o)) = [wrong type]
    cases check o with
    | ok o => exact Or.inl rfl
    | error type => exact Or.inr ⟨type, rfl⟩

theorem after_accepts (h : Accepts (.after check inner) v) :
    Accepts inner v := by
  obtain ⟨o, ho⟩ := h
  rw [validate_after] at ho
  cases hinner : validate inner v with
  | ok found => exact ⟨found, hinner⟩
  | error ps =>
    rw [hinner] at ho
    cases ho

theorem nullable_reported {absent : O} :
    reported (.nullable absent inner) v = if v.isNone then [] else reported inner v := by
  unfold reported
  rw [validate_nullable]
  split <;> rfl

theorem nullable_accepts {absent : O} (h : Accepts (.nullable absent inner) v) (hv : v.isNone = false) :
    Accepts inner v := by
  obtain ⟨o, ho⟩ := h
  rw [validate_nullable, hv, if_neg (by simp)] at ho
  exact ⟨o, ho⟩

def selectedTag (discriminator : String) (tags : List String) : Value → Option String
  | .mapping entries => match entries.lookup discriminator with
    | some (.text tag) => if tag ∈ tags then some tag else none
    | _ => none
  | _ => none

variable {tags : List String}

theorem mem_of_selectedTag {discriminator tag : String}
    (h : selectedTag discriminator tags v = some tag) : tag ∈ tags := by
  cases v with
  | mapping entries =>
    simp only [selectedTag] at h
    split at h
    · simp only [Option.ite_none_right_eq_some, Option.some.injEq] at h
      obtain ⟨htag, rfl⟩ := h
      exact htag
    · cases h
  | _ => cases h

theorem tagged_selected {discriminator tag : String} (member : String → Schema O)
    (h : selectedTag discriminator tags v = some tag) :
    validate (.tagged discriminator tags member) v = located (·.labelled tag) (validate (member tag) v) := by
  cases v with
  | mapping entries =>
    simp only [selectedTag] at h
    rw [validate_tagged]
    split at h
    · rename_i found hfound
      simp only [Option.ite_none_right_eq_some, Option.some.injEq] at h
      obtain ⟨htag, rfl⟩ := h
      simp only [hfound, if_pos htag]
    · cases h
  | _ => cases h

variable {discriminator : String}

theorem tagged_unselected (member : String → Schema O)
    (h : selectedTag discriminator tags v = none) :
    ∃ type, validate (.tagged discriminator tags member) v = .error [wrong type] := by
  cases v with
  | mapping entries =>
    simp only [selectedTag] at h
    rw [validate_tagged]
    split at h
    · rename_i found hfound
      simp only [ite_eq_right_iff, reduceCtorEq, imp_false] at h
      simp only [hfound, if_neg h]
      exact ⟨_, rfl⟩
    · rename_i hother
      cases hlookup : entries.lookup discriminator with
      | none => exact ⟨_, rfl⟩
      | some found =>
        cases found with
        | text tag => exact absurd hlookup (hother tag)
        | _ => exact ⟨_, rfl⟩
  | _ => exact ⟨_, rfl⟩

variable {member : String → Schema O}

theorem tagged_reported :
    (∃ tag, selectedTag discriminator tags v = some tag ∧
      reported (.tagged discriminator tags member) v = (reported (member tag) v).map (·.labelled tag)) ∨
    ∃ type, reported (.tagged discriminator tags member) v = [wrong type] := by
  unfold reported
  cases h : selectedTag discriminator tags v with
  | some tag =>
    rw [tagged_selected member h, problems_located]
    exact Or.inl ⟨tag, rfl, rfl⟩
  | none =>
    obtain ⟨type, htype⟩ := tagged_unselected member h
    rw [htype]
    exact Or.inr ⟨type, rfl⟩

theorem tagged_accepts
    (h : Accepts (.tagged discriminator tags member) v) :
    ∃ tag, selectedTag discriminator tags v = some tag ∧ Accepts (member tag) v := by
  obtain ⟨o, ho⟩ := h
  cases hselected : selectedTag discriminator tags v with
  | some tag =>
    rw [tagged_selected member hselected] at ho
    exact ⟨tag, rfl, o, located_ok ho⟩
  | none =>
    obtain ⟨type, htype⟩ := tagged_unselected member hselected
    rw [htype] at ho
    cases ho

theorem mem_union_reported {pick : List O → O} {labels : List String}
    (h : p ∈ reported (.union pick labels member) v) :
    reported (.union pick labels member) v = labels.flatMap fun label => (reported (member label) v).map (·.labelled label) := by
  unfold reported at h ⊢
  rw [validate_union, firstAccepted] at h ⊢
  split
  · rw [problems_error, List.flatMap_map]
    simp only [problems_located]
  · rename_i haccepted
    split at h
    · rename_i hnone
      exact absurd hnone haccepted
    · cases h

theorem wrong_not_extra {ps : List Problem} (hp : p ∈ ps) (hextra : p.kind = .extraForbidden) : ¬ ∃ type, ps = [wrong type] := by
  rintro ⟨type, rfl⟩
  rw [List.mem_singleton.mp hp] at hextra
  cases hextra

theorem before_extra (hp : p ∈ reported (.before refuses inner) v)
    (hextra : p.kind = .extraForbidden) : reported (.before refuses inner) v = reported inner v :=
  before_reported.resolve_right (wrong_not_extra hp hextra)

theorem after_extra (hp : p ∈ reported (.after check inner) v)
    (hextra : p.kind = .extraForbidden) : reported (.after check inner) v = reported inner v :=
  after_reported.resolve_right (wrong_not_extra hp hextra)

theorem nullable_problem {absent : O} (hp : p ∈ reported (.nullable absent inner) v) :
    v.isNone = false ∧ reported (.nullable absent inner) v = reported inner v := by
  rw [nullable_reported] at hp ⊢
  split at hp
  · cases hp
  · rename_i hv
    rw [if_neg hv]
    exact ⟨by simpa using hv, rfl⟩

theorem tagged_extra
    (hp : p ∈ reported (.tagged discriminator tags member) v) (hextra : p.kind = .extraForbidden) :
    ∃ tag, selectedTag discriminator tags v = some tag ∧
      reported (.tagged discriminator tags member) v = (reported (member tag) v).map (·.labelled tag) :=
  tagged_reported.resolve_right (wrong_not_extra hp hextra)

theorem extra_below {schema : Schema O} (hp : p ∈ reported schema v) (hextra : p.kind = .extraForbidden) :
    p.loc ≠ [] ∧ p.place ≠ [] := by
  induction schema generalizing v p with
  | leaf accept =>
    obtain ⟨type, rfl⟩ := leaf_reported hp
    cases hextra
  | before refuses inner ih =>
    rw [before_extra hp hextra] at hp
    exact ih hp hextra
  | after check inner ih =>
    rw [after_extra hp hextra] at hp
    exact ih hp hextra
  | nullable absent inner ih =>
    rw [(nullable_problem hp).2] at hp
    exact ih hp hextra
  | list build item ih =>
    rcases (list_parted build item).cases hp hextra with ⟨step, child, part, q, -, -, -, rfl⟩ | ⟨name, -, -, rfl⟩ <;>
      simp [Problem.beneath, unexpected]
  | dict build value ih =>
    rcases (dict_parted build value).cases hp hextra with ⟨step, child, part, q, -, -, -, rfl⟩ | ⟨name, -, -, rfl⟩ <;>
      simp [Problem.beneath, unexpected]
  | model forbids fields type build ih =>
    rcases (model_parted forbids fields type build).cases hp hextra with ⟨step, child, part, q, -, -, -, rfl⟩ |
      ⟨name, -, -, rfl⟩ <;> simp [Problem.beneath, unexpected]
  | tagged discriminator tags member ih =>
    obtain ⟨tag, -, hall⟩ := tagged_extra hp hextra
    rw [hall] at hp
    obtain ⟨q, hq, rfl⟩ := List.mem_map.mp hp
    exact ⟨by simp [Problem.labelled], (ih tag hq hextra).2⟩
  | union pick labels member ih =>
    rw [mem_union_reported hp, List.mem_flatMap] at hp
    obtain ⟨label, -, hp⟩ := hp
    obtain ⟨q, hq, rfl⟩ := List.mem_map.mp hp
    exact ⟨by simp [Problem.labelled], (ih label hq hextra).2⟩

end Orchestrator.Pydantic
