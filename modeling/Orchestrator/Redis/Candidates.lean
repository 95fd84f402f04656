import Orchestrator.Redis.Apart

/-!
The candidates that reported errors belong to, and the alternatives a type gives a payload.
-/

namespace Orchestrator.Redis

open Python Pydantic

variable {O : Type} {v data : Value} {p q : Problem} {schema : Schema O} {errors members : List Problem} {candidate : Option Step}

structure Grouped (data : Value) (seen : List Problem) (groups : List (Option Step × List Problem)) : Prop where
  members : ∀ group ∈ groups, group.2 = seen.filter (fun p => candidateOf p.loc data = group.1) ∧ group.2 ≠ []
  distinct : (groups.map Prod.fst).Nodup
  complete : ∀ p ∈ seen, candidateOf p.loc data ∈ groups.map Prod.fst

variable {groups : List (Option Step × List Problem)}

theorem mem_addTo {group : Option Step × List Problem} (hdistinct : (groups.map Prod.fst).Nodup)
    (h : group ∈ addTo candidate p groups) :
    (group.1 ≠ candidate ∧ group ∈ groups) ∨
    (∃ members, (candidate, members) ∈ groups ∧ group = (candidate, members ++ [p])) ∨
    (candidate ∉ groups.map Prod.fst ∧ group = (candidate, [p])) := by
  induction groups with
  | nil => exact Or.inr (Or.inr ⟨by simp, List.mem_singleton.mp h⟩)
  | cons first rest ih =>
    obtain ⟨hfirst, hrest⟩ := List.nodup_cons.mp hdistinct
    unfold addTo at h
    split at h
    · rename_i hcandidate
      rcases List.mem_cons.mp h with rfl | hlater
      · refine Or.inr (Or.inl ⟨first.2, ?_, by rw [hcandidate]⟩)
        rw [← hcandidate]
        exact List.mem_cons_self
      · refine Or.inl ⟨fun heq => ?_, List.mem_cons_of_mem _ hlater⟩
        apply hfirst
        rw [hcandidate, ← heq]
        exact List.mem_map_of_mem hlater
    · rename_i hcandidate
      rcases List.mem_cons.mp h with rfl | hlater
      · exact Or.inl ⟨hcandidate, List.mem_cons_self⟩
      · rcases ih hrest hlater with ⟨hne, hmem⟩ | ⟨members, hmem, heq⟩ | ⟨hnew, heq⟩
        · exact Or.inl ⟨hne, List.mem_cons_of_mem _ hmem⟩
        · exact Or.inr (Or.inl ⟨members, List.mem_cons_of_mem _ hmem, heq⟩)
        · refine Or.inr (Or.inr ⟨?_, heq⟩)
          rw [List.map_cons, List.mem_cons, not_or]
          exact ⟨fun hsame => hcandidate hsame.symm, hnew⟩

theorem addTo_candidates (candidate : Option Step) (p : Problem) (groups : List (Option Step × List Problem)) :
    (addTo candidate p groups).map Prod.fst =
      if candidate ∈ groups.map Prod.fst then groups.map Prod.fst else groups.map Prod.fst ++ [candidate] := by
  induction groups with
  | nil => rfl
  | cons first rest ih =>
    unfold addTo
    by_cases hcandidate : first.1 = candidate
    · simp [hcandidate]
    · rw [if_neg hcandidate, List.map_cons, ih, List.map_cons]
      have hne : candidate ≠ first.1 := fun heq => hcandidate heq.symm
      by_cases hmem : candidate ∈ rest.map Prod.fst
      · rw [if_pos hmem, if_pos (List.mem_cons_of_mem _ hmem)]
      · rw [if_neg hmem, if_neg (by rw [List.mem_cons, not_or]; exact ⟨hne, hmem⟩), List.cons_append]

theorem Grouped.add {seen : List Problem} (h : Grouped data seen groups) (p : Problem) :
    Grouped data (seen ++ [p]) (addTo (candidateOf p.loc data) p groups) := by
  constructor
  · intro group hgroup
    rw [List.filter_append]
    rcases mem_addTo h.distinct hgroup with ⟨hne, hmem⟩ | ⟨members, hmem, rfl⟩ | ⟨hnew, rfl⟩
    · have hskip : candidateOf p.loc data ≠ group.1 := fun heq => hne heq.symm
      obtain ⟨heq, hnonempty⟩ := h.members group hmem
      exact ⟨by simpa [hskip] using heq, hnonempty⟩
    · obtain ⟨heq, -⟩ := h.members _ hmem
      simp only at heq
      exact ⟨by simp [heq], by simp⟩
    · have hnone : seen.filter (fun q => candidateOf q.loc data = candidateOf p.loc data) = [] := by
        apply List.filter_eq_nil_iff.mpr
        intro q hq hsame
        apply hnew
        rw [← of_decide_eq_true hsame]
        exact h.complete q hq
      exact ⟨by simp [hnone], by simp⟩
  · rw [addTo_candidates]
    split
    · exact h.distinct
    · rename_i hnew
      refine List.nodup_append.mpr ⟨h.distinct, List.nodup_singleton _, fun a ha b hb hab => ?_⟩
      rw [hab, List.mem_singleton.mp hb] at ha
      exact hnew ha
  · intro q hq
    rw [addTo_candidates]
    rcases List.mem_append.mp hq with hseen | hnew
    · have hmem := h.complete q hseen
      split
      · exact hmem
      · exact List.mem_append_left _ hmem
    · rw [List.mem_singleton.mp hnew]
      split
      · assumption
      · exact List.mem_append_right _ (List.mem_singleton.mpr rfl)

theorem grouped_foldl {seen : List Problem} (h : Grouped data seen groups) :
    Grouped data (seen ++ errors) (errors.foldl (fun groups p => addTo (candidateOf p.loc data) p groups) groups) := by
  induction errors generalizing seen groups with
  | nil => simpa using h
  | cons p rest ih =>
    have hrest := ih (h.add p)
    rw [List.append_assoc, List.singleton_append] at hrest
    exact hrest

theorem byCandidate_grouped (data : Value) (errors : List Problem) : Grouped data errors (byCandidate data errors) := by
  have hempty : Grouped data [] [] := ⟨by simp, by simp, by simp⟩
  exact grouped_foldl hempty

theorem pruning_of_candidate {candidate : Value × List String} (h : candidate ∈ unexpectedFieldPrunings data errors) :
    ∃ group members, members = errors.filter (fun p => candidateOf p.loc data = group) ∧ members ≠ [] ∧ AllExtra members ∧
      candidate = deleteAll data (members.map Problem.loc) := by
  unfold unexpectedFieldPrunings at h
  split at h
  · cases h
  · split at h
    · cases h
    · obtain ⟨group, hgroup, hpruning⟩ := List.mem_filterMap.mp h
      obtain ⟨hmembers, hnonempty⟩ := (byCandidate_grouped data errors).members group hgroup
      unfold pruning at hpruning
      split at hpruning
      · cases hpruning
      · rename_i hextra
        have hall : AllExtra group.2 := by
          intro p hp
          by_contra hother
          exact hextra (List.any_eq_true.mpr ⟨p, hp, by simpa using hother⟩)
        simp only [Option.ite_none_left_eq_some, Option.some.injEq] at hpruning
        exact ⟨group.1, group.2, hmembers, hnonempty, hall, hpruning.2.symm⟩

theorem validated {value : O} {names : List String} (h : validateToleratingAdditions schema data = .ok (value, names)) :
    (validate schema data = .ok value ∧ names = []) ∨
    ∃ errors group members, validate schema data = .error errors ∧
      members = errors.filter (fun p => candidateOf p.loc data = group) ∧ members ≠ [] ∧ AllExtra members ∧
      names = (deleteAll data (members.map Problem.loc)).2 ∧
      validate schema (deleteAll data (members.map Problem.loc)).1 = .ok value := by
  unfold validateToleratingAdditions at h
  split at h
  · rename_i found hfound
    cases h
    exact Or.inl ⟨hfound, rfl⟩
  · rename_i errors herrors
    split at h
    · rename_i found hfound
      cases h
      obtain ⟨candidate, hcandidate, haccepted⟩ := List.exists_of_findSome?_eq_some hfound
      obtain ⟨group, members, hmembers, hnonempty, hextra, rfl⟩ := pruning_of_candidate hcandidate
      obtain ⟨value', hvalue', heq⟩ := Option.map_eq_some_iff.mp haccepted
      cases heq
      refine Or.inr ⟨errors, group, members, herrors, hmembers, hnonempty, hextra, rfl, ?_⟩
      cases hvalidate : validate schema (deleteAll data (members.map Problem.loc)).1 with
      | ok o =>
        rw [hvalidate] at hvalue'
        cases hvalue'
        rfl
      | error ps =>
        rw [hvalidate] at hvalue'
        cases hvalue'
    · cases h

/-- The alternatives that a type gives a payload that it refuses, with what each reports: the members of
a plain union, otherwise the type itself. -/
def alternatives : Schema O → Value → List (List Problem)
  | .before refuses inner, v => match refuses v with
    | some type => [[wrong type]]
    | none => alternatives inner v
  | .after check inner, v => match validate inner v with
    | .ok o => [problems (whole (check o))]
    | .error _ => alternatives inner v
  | .nullable _ inner, v => if v.isNone then [] else alternatives inner v
  | .union _ labels member, v => labels.map fun label => (reported (member label) v).map (·.labelled label)
  | schema, v => [reported schema v]

def Lasting (schema : Schema O) (v : Value) (p : Problem) : Prop :=
  p.kind ≠ .extraForbidden ∧ ∀ locs, ¬ Accepts schema (deleteAll v locs).1

def Together (schema : Schema O) (v : Value) (p : Problem) (errors : List Problem) : Prop :=
  p ∈ errors ∧ (∀ q ∈ errors, q ∈ reported schema v) ∧
    ((∀ q ∈ errors, candidateOf q.loc v = candidateOf p.loc v) ∨
      ∀ q ∈ errors, candidateOf q.loc v ≠ none → Lasting schema v q)

theorem together_self (hp : p ∈ reported schema v)
    (h : (∀ q ∈ reported schema v, candidateOf q.loc v = candidateOf p.loc v) ∨
      ∀ q ∈ reported schema v, candidateOf q.loc v ≠ none → Lasting schema v q) :
    Together schema v p (reported schema v) :=
  ⟨hp, fun _ hq => hq, h⟩

theorem candidateOf_there {step : Step} {rest : List Step} (h : (child? v step).isSome = true) : candidateOf (step :: rest) v = none := by
  unfold candidateOf
  cases v with
  | mapping entries => simp only [h, if_true]
  | _ => rfl

theorem candidateOf_wrong (type : String) : candidateOf (wrong type).loc v = none := by
  cases v <;> rfl

theorem together_wrong {type : String} (hp : p ∈ reported schema v) (h : reported schema v = [wrong type]) :
    Together schema v p (reported schema v) := by
  apply together_self hp
  rw [h] at hp ⊢
  refine Or.inl fun q hq => ?_
  rw [List.mem_singleton.mp hp, List.mem_singleton.mp hq]

theorem together_there (hp : p ∈ reported schema v) (h : ∀ q ∈ reported schema v, candidateOf q.loc v = none) :
    Together schema v p (reported schema v) := by
  apply together_self hp
  exact Or.inl fun q hq => (h q hq).trans (h p hp).symm

theorem Together.weaken {inner : Schema O} {errors : List Problem} (h : Together inner v p errors)
    (hreported : reported schema v = reported inner v)
    (haccepts : ∀ locs, Accepts schema (deleteAll v locs).1 → Accepts inner (deleteAll v locs).1) : Together schema v p errors := by
  obtain ⟨hp, hsub, hsame⟩ := h
  refine ⟨hp, fun q hq => by rw [hreported]; exact hsub q hq, hsame.imp_right fun hlasting q hq hne => ?_⟩
  obtain ⟨hkind, hnever⟩ := hlasting q hq hne
  exact ⟨hkind, fun locs hlocs => hnever locs (haccepts locs hlocs)⟩

theorem model_missing {forbids : Bool} {fields : List (Pydantic.Field O)} {type : String → Schema O}
    {build : List (String × O) → Mapping → O} {field : Pydantic.Field O} (hfield : field ∈ fields) (hdefault : field.default = none)
    (habsent : child? v (.key field.name) = none) : ¬ Accepts (.model forbids fields type build) v := by
  rintro ⟨o, ho⟩
  cases v with
  | mapping entries =>
    obtain ⟨-, values, hvalues⟩ := buildModel_ok ho
    obtain ⟨a, ha⟩ := accepted_of_gather hvalues (List.mem_map_of_mem hfield)
    have hlookup : entries.lookup field.name = none := habsent
    unfold readField at ha
    simp only [hlookup, hdefault] at ha
    cases ha
  | _ => cases ho

theorem dict_together {build : List (String × O) → O} {value : Schema O} (hp : p ∈ reported (.dict build value) v) :
    Together (.dict build value) v p (reported (.dict build value) v) := by
  cases v with
  | mapping entries =>
    apply together_there hp
    intro q hq
    unfold reported at hq
    rw [validate_dict, problems_map, mem_problems_gather] at hq
    obtain ⟨r, hr, hq⟩ := hq
    obtain ⟨entry, hentry, rfl⟩ := List.mem_map.mp hr
    rw [problems_named] at hq
    obtain ⟨q', -, rfl⟩ := List.mem_map.mp hq
    apply candidateOf_there
    exact lookup_isSome_iff_mem.mpr (List.mem_map_of_mem hentry)
  | _ => exact together_wrong hp rfl

theorem list_together {build : List O → O} {item : Schema O} (hp : p ∈ reported (.list build item) v) :
    Together (.list build item) v p (reported (.list build item) v) := by
  cases v with
  | list items =>
    apply together_there hp
    intro q hq
    unfold candidateOf
    split
    · rename_i heq
      cases heq
    · rfl
  | _ => exact together_wrong hp rfl

theorem model_together {forbids : Bool} {fields : List (Pydantic.Field O)} {type : String → Schema O}
    {build : List (String × O) → Mapping → O} (hp : p ∈ reported (.model forbids fields type build) v) :
    Together (.model forbids fields type build) v p (reported (.model forbids fields type build) v) := by
  cases v with
  | mapping entries =>
    apply together_self hp
    refine Or.inr fun q hq hne => ?_
    unfold reported at hq
    rw [validate_model, mem_problems_buildModel, mem_problems_gather] at hq
    rcases hq with ⟨r, hr, hq⟩ | hq
    · obtain ⟨field, hfield, rfl⟩ := List.mem_map.mp hr
      cases hlookup : entries.lookup field.name with
      | some child =>
        rw [readField_present hlookup, problems_named] at hq
        obtain ⟨q', -, rfl⟩ := List.mem_map.mp hq
        have hthere : (child? (.mapping entries) (.key field.name)).isSome = true := by
          rw [show child? (.mapping entries) (.key field.name) = some child from hlookup]
          rfl
        exact absurd (candidateOf_there hthere) hne
      | none =>
        have hmissing : q = missing field.name := List.mem_singleton.mp (readField_absent hlookup hq)
        have hdefault : field.default = none := by
          cases hd : field.default with
          | none => rfl
          | some value =>
            unfold readField at hq
            rw [hlookup, hd] at hq
            cases hq
        refine ⟨by rw [hmissing]; nofun, fun locs => ?_⟩
        exact model_missing hfield hdefault (child?_deleteAll_none hlookup)
    · obtain ⟨name, hname, -, rfl⟩ := mem_refused.mp hq
      have hthere : (child? (.mapping entries) (.key name)).isSome = true := hname
      exact absurd (candidateOf_there hthere) hne
  | _ => exact together_wrong hp rfl

theorem alternative_of_reported (hp : p ∈ reported schema v) : ∃ errors ∈ alternatives schema v, Together schema v p errors := by
  induction schema generalizing p with
  | leaf accept =>
    refine ⟨_, List.mem_singleton.mpr rfl, together_there hp fun q hq => ?_⟩
    obtain ⟨type, rfl⟩ := leaf_reported hq
    exact candidateOf_wrong type
  | before refuses inner ih =>
    unfold alternatives
    cases hrefuses : refuses v with
    | some type =>
      have hall : reported (.before refuses inner) v = [wrong type] := by
        unfold reported
        rw [validate_before, hrefuses]
        rfl
      refine ⟨_, List.mem_singleton.mpr rfl, ?_⟩
      rw [← hall]
      exact together_wrong hp hall
    | none =>
      have hall : reported (.before refuses inner) v = reported inner v := by
        unfold reported
        rw [validate_before, hrefuses]
      rw [hall] at hp
      obtain ⟨errors, herrors, htogether⟩ := ih hp
      exact ⟨errors, herrors, htogether.weaken hall fun _ h => before_accepts h⟩
  | after check inner ih =>
    unfold alternatives
    cases hinner : validate inner v with
    | ok o =>
      have hall : reported (.after check inner) v = problems (whole (check o)) := by
        unfold reported
        rw [validate_after, hinner]
      refine ⟨_, List.mem_singleton.mpr rfl, ?_⟩
      rw [← hall]
      apply together_there hp
      intro q hq
      rw [hall] at hq
      obtain ⟨type, rfl⟩ := problems_whole hq
      exact candidateOf_wrong type
    | error ps =>
      have hall : reported (.after check inner) v = reported inner v := by
        unfold reported
        rw [validate_after, hinner]
      rw [hall] at hp
      obtain ⟨errors, herrors, htogether⟩ := ih hp
      exact ⟨errors, herrors, htogether.weaken hall fun _ h => after_accepts h⟩
  | nullable absent inner ih =>
    obtain ⟨hv, hall⟩ := nullable_problem hp
    unfold alternatives
    rw [hall] at hp
    rw [if_neg (by simp [hv])]
    obtain ⟨errors, herrors, htogether⟩ := ih hp
    exact ⟨errors, herrors, htogether.weaken hall fun _ h => nullable_accepts h (deleteAll_isNone hv)⟩
  | list build item ih => exact ⟨_, List.mem_singleton.mpr rfl, list_together hp⟩
  | dict build value ih => exact ⟨_, List.mem_singleton.mpr rfl, dict_together hp⟩
  | model forbids fields type build ih => exact ⟨_, List.mem_singleton.mpr rfl, model_together hp⟩
  | tagged discriminator tags member ih =>
    refine ⟨_, List.mem_singleton.mpr rfl, ?_⟩
    have hreported := @tagged_reported O v tags discriminator member
    rcases hreported with ⟨tag, -, hall⟩ | ⟨type, hall⟩
    · apply together_self hp
      refine Or.inl fun q hq => ?_
      rw [hall] at hp hq
      obtain ⟨p', -, rfl⟩ := List.mem_map.mp hp
      obtain ⟨q', -, rfl⟩ := List.mem_map.mp hq
      cases v <;> rfl
    · exact together_wrong hp hall
  | union pick labels member ih =>
    have hall := mem_union_reported hp
    have hin := hp
    rw [hall, List.mem_flatMap] at hin
    obtain ⟨label, hlabel, hin⟩ := hin
    refine ⟨_, List.mem_map_of_mem hlabel, hin, fun q hq => ?_, Or.inl fun q hq => ?_⟩
    · rw [hall]
      exact List.mem_flatMap.mpr ⟨label, hlabel, hq⟩
    · obtain ⟨p', -, rfl⟩ := List.mem_map.mp hin
      obtain ⟨q', -, rfl⟩ := List.mem_map.mp hq
      cases v <;> rfl

end Orchestrator.Redis
