import Orchestrator.Redis.Candidates

/-!
Tolerant validation drops only unknown fields.
-/

namespace Orchestrator.Redis

open Python Pydantic

variable {O : Type} {data : Value} {p q : Problem} {schema : Schema O} {errors : List Problem}

/-- What is returned is what strict validation gives of the payload without exactly the reported fields,
and each was reported as unexpected. -/
def RemovesReported (schema : Schema O) (data : Value) : Prop :=
  ∀ value names, validateToleratingAdditions schema data = .ok (value, names) →
    ∃ removed : List Problem, (∀ p ∈ removed, p ∈ reported schema data ∧ p.kind = .extraForbidden) ∧
      names = removed.map (fun p => fieldName p.loc) ∧
      validate schema (removeAll data (removed.map Problem.place)) = .ok value

structure DropsOnlyUnknown (schema : Schema O) (data : Value) : Prop where
  accepted : ∀ value, validate schema data = .ok value → validateToleratingAdditions schema data = .ok (value, [])
  removed : RemovesReported schema data
  refused : ∀ errors, validate schema data = .error errors → (∃ p ∈ errors, p.kind ≠ .extraForbidden) →
    validateToleratingAdditions schema data = .error errors

theorem tolerating_of_ok {value : O} (h : validate schema data = .ok value) :
    validateToleratingAdditions schema data = .ok (value, []) := by
  unfold validateToleratingAdditions
  rw [h]

theorem tolerating_of_error (h : validate schema data = .error errors) :
    validateToleratingAdditions schema data = .error errors ∨
      ∃ value names, validateToleratingAdditions schema data = .ok (value, names) := by
  unfold validateToleratingAdditions
  simp only [h]
  split
  · rename_i found hfound
    exact Or.inr ⟨found.1, found.2, rfl⟩
  · exact Or.inl rfl

theorem reported_of_error (h : validate schema data = .error errors) : reported schema data = errors := by
  unfold reported
  rw [h]
  rfl

theorem mem_members {group : Option Step} :
    p ∈ errors.filter (fun p => candidateOf p.loc data = group) ↔ p ∈ errors ∧ candidateOf p.loc data = group := by
  simp

theorem refused_of_alternatives (h : validate schema data = .error errors)
    (hother : ∀ alternative ∈ alternatives schema data, ∃ p ∈ alternative, p.kind ≠ .extraForbidden) :
    validateToleratingAdditions schema data = .error errors := by
  rcases tolerating_of_error h with herror | ⟨value, names, hok⟩
  · exact herror
  · exfalso
    rcases validated hok with ⟨hvalid, -⟩ | ⟨errors', group, members, herrors, hmembers, hnonempty, hextra, -, haccepted⟩
    · rw [h] at hvalid
      cases hvalid
    · rw [h] at herrors
      cases herrors
      obtain ⟨p, hp⟩ := List.exists_mem_of_ne_nil members hnonempty
      have hpm := mem_members.mp (hmembers ▸ hp)
      have hreported : p ∈ reported schema data := by
        rw [reported_of_error h]
        exact hpm.1
      obtain ⟨alternative, halternative, hin, hsub, hsame⟩ := alternative_of_reported hreported
      obtain ⟨q, hq, hkind⟩ := hother alternative halternative
      have hqe : q ∈ errors := by
        rw [← reported_of_error h]
        exact hsub q hq
      have hapart : candidateOf q.loc data ≠ group := by
        intro heq
        have hqm : q ∈ members := by
          rw [hmembers]
          exact mem_members.mpr ⟨hqe, heq⟩
        exact hkind (hextra q hqm)
      rcases hsame with hall | hlasting
      · exact hapart ((hall q hq).trans hpm.2)
      · have hgroup : group = none := by
          by_contra hne
          rw [← hpm.2] at hne
          exact (hlasting p hin hne).1 (hextra p hp)
        rw [hgroup] at hapart
        exact (hlasting q hq hapart).2 _ ⟨value, haccepted⟩

theorem alternatives_of_unionFree (hfree : UnionFree schema) (h : validate schema data = .error errors) :
    ∀ alternative ∈ alternatives schema data, alternative = errors := by
  induction schema with
  | before refuses inner ih =>
    rw [validate_before] at h
    unfold alternatives
    cases hrefuses : refuses data with
    | some type =>
      rw [hrefuses] at h
      cases h
      simp
    | none =>
      rw [hrefuses] at h
      exact ih hfree h
  | after check inner ih =>
    rw [validate_after] at h
    unfold alternatives
    cases hinner : validate inner data with
    | ok o =>
      rw [hinner] at h
      change whole (check o) = .error errors at h
      simp [h]
    | error ps =>
      rw [hinner] at h
      cases h
      exact ih hfree hinner
  | nullable absent inner ih =>
    rw [validate_nullable] at h
    unfold alternatives
    split at h
    · cases h
    · rename_i hv
      rw [if_neg hv]
      exact ih hfree h
  | union pick labels member ih => exact hfree.elim
  | _ =>
    intro alternative halternative
    rw [List.mem_singleton.mp halternative]
    exact reported_of_error h

theorem refused_of_unionFree (hfree : UnionFree schema) (h : validate schema data = .error errors)
    (hother : ∃ p ∈ errors, p.kind ≠ .extraForbidden) : validateToleratingAdditions schema data = .error errors := by
  apply refused_of_alternatives h
  intro alternative halternative
  rw [alternatives_of_unionFree hfree h alternative halternative]
  exact hother

theorem removed_of_targets {members : List Problem} {value : O} (hsub : ∀ p ∈ members, p ∈ reported schema data)
    (hextra : AllExtra members) (htarget : ∀ p ∈ members, target data p.loc = some p.place) (hplaces : PlacesApart schema data)
    (haccepted : validate schema (deleteAll data (members.map Problem.loc)).1 = .ok value) :
    ∃ removed : List Problem, (∀ p ∈ removed, p ∈ reported schema data ∧ p.kind = .extraForbidden) ∧
      (deleteAll data (members.map Problem.loc)).2 = removed.map (fun p => fieldName p.loc) ∧
      validate schema (removeAll data (removed.map Problem.place)) = .ok value := by
  obtain ⟨removed, hsublist, hnames, hvalue⟩ := deleteAll_exact htarget fun p hp q hq hbelow =>
    hplaces p (hsub p hp) q (hsub q hq) (hextra p hp) (hextra q hq) hbelow
  refine ⟨removed, fun p hp => ?_, hnames, by rw [← hvalue]; exact haccepted⟩
  have hmem := hsublist.subset hp
  exact ⟨hsub p hmem, hextra p hmem⟩

theorem removed_of_ok {value : O} (h : validate schema data = .ok value) :
    ∃ removed : List Problem, (∀ p ∈ removed, p ∈ reported schema data ∧ p.kind = .extraForbidden) ∧
      ([] : List String) = removed.map (fun p => fieldName p.loc) ∧
      validate schema (removeAll data (removed.map Problem.place)) = .ok value :=
  ⟨[], by simp, rfl, h⟩

theorem removesReported_of_apart (htags : TagsApart schema data) (hplaces : PlacesApart schema data) :
    RemovesReported schema data := by
  intro value names hok
  rcases validated hok with ⟨hvalid, rfl⟩ | ⟨errors, group, members, herrors, hmembers, -, hextra, rfl, haccepted⟩
  · exact removed_of_ok hvalid
  · have hsub : ∀ p ∈ members, p ∈ reported schema data := by
      intro p hp
      rw [reported_of_error herrors]
      exact (mem_members.mp (hmembers ▸ hp)).1
    apply removed_of_targets hsub hextra _ hplaces haccepted
    intro p hp
    exact target_of_tagsApart htags (hsub p hp) (hextra p hp)

theorem removesReported_of_unionFree (hfree : UnionFree schema) : RemovesReported schema data := by
  intro value names hok
  rcases validated hok with ⟨hvalid, rfl⟩ | ⟨errors, group, members, herrors, hmembers, hnonempty, hextra, rfl, haccepted⟩
  · exact removed_of_ok hvalid
  · have hreported := reported_of_error herrors
    have hall : AllExtra errors := by
      intro p hp
      by_contra hother
      rw [refused_of_unionFree hfree herrors ⟨p, hp, hother⟩] at hok
      cases hok
    obtain ⟨p, hp⟩ := List.exists_mem_of_ne_nil members hnonempty
    have hpm := mem_members.mp (hmembers ▸ hp)
    have hpr : p ∈ reported schema data := by
      rw [hreported]
      exact hpm.1
    obtain ⟨alternative, halternative, hin, -, hsame⟩ := alternative_of_reported hpr
    rw [alternatives_of_unionFree hfree herrors alternative halternative] at hin hsame
    have hone : ∀ q ∈ errors, candidateOf q.loc data = group := by
      intro q hq
      rcases hsame with hsame | hlasting
      · exact (hsame q hq).trans hpm.2
      · have hnone : ∀ r ∈ errors, candidateOf r.loc data = none := by
          intro r hr
          by_contra hne
          exact (hlasting r hr hne).1 (hall r hr)
        rw [hnone q hq, ← hpm.2, hnone p hin]
    have hmem : ∀ q, q ∈ members ↔ q ∈ reported schema data := by
      intro q
      rw [hmembers, hreported, mem_members]
      exact ⟨And.left, fun hq => ⟨hq, hone q hq⟩⟩
    have hbehind : Behind [] (members.map Problem.loc) (reported schema data) := by
      intro loc
      rw [List.mem_map]
      simp only [hmem, List.nil_append]
    have htarget := followed_of_unionFree hfree data [] (members.map Problem.loc) hbehind (by rw [hreported]; exact hall)
      ⟨value, haccepted⟩
    apply removed_of_targets (fun q hq => (hmem q).mp hq) hextra _ (placesApart_of_unionFree hfree) haccepted
    intro q hq
    exact htarget q ((hmem q).mp hq)

/-- A type without plain unions drops only unknown fields; any type does so one alternative at a time, where
no key of the payload is a union member's name and no unexpected field lies inside another. -/
theorem tolerance_drops_only_unknown (schema : Schema O) (data : Value) :
    (∀ value, validate schema data = .ok value → validateToleratingAdditions schema data = .ok (value, [])) ∧
    (UnionFree schema → DropsOnlyUnknown schema data) ∧
    (TagsApart schema data → PlacesApart schema data → RemovesReported schema data) ∧
    ∀ errors, validate schema data = .error errors →
      (∀ alternative ∈ alternatives schema data, ∃ p ∈ alternative, p.kind ≠ .extraForbidden) →
      validateToleratingAdditions schema data = .error errors := by
  refine ⟨fun value => tolerating_of_ok, fun hfree => ?_, removesReported_of_apart, fun errors => refused_of_alternatives⟩
  constructor
  · exact fun value => tolerating_of_ok
  · exact removesReported_of_unionFree hfree
  · exact fun errors => refused_of_unionFree hfree

/-! A plain union of two strict commands, and a command of a newer publisher. -/

def acceptText : Value → Except String Value
  | .text s => .ok (.text s)
  | _ => .error "string_type"

def acceptLiteral (word : String) : Value → Except String Value
  | .text s => if s = word then .ok (.text s) else .error "literal_error"
  | _ => .error "literal_error"

def strictModel (command field : String) : Schema Value :=
  .model true [⟨"command", some (.text command)⟩, ⟨field, none⟩]
    (fun name => .leaf (if name = "command" then acceptLiteral command else acceptText)) fun values _ => .mapping values

def strictCommand : Schema Value :=
  .union (fun accepted => accepted.headD .none) ["StrictCreate", "StrictDelete"] fun label =>
    if label = "StrictCreate" then strictModel "create" "payload" else strictModel "delete" "worker_id"

def newerCreate : Value := .mapping [("command", .text "create"), ("payload", .text "x"), ("cost_usd", .text "0.42")]

theorem strictModel_unionFree (command field : String) : UnionFree (strictModel command field) := fun _ _ => trivial

theorem strictCommand_names {name : String} (h : MemberName strictCommand name) : name = "StrictCreate" ∨ name = "StrictDelete" := by
  rcases h with hname | ⟨label, -, hname⟩
  · simpa using hname
  · dsimp only at hname
    split at hname <;> exact (hname.choose_spec.2).elim

theorem newerCreate_apart : TagsApart strictCommand newerCreate := by
  intro path found name hfound hname
  cases path with
  | nil =>
    cases hfound
    rcases strictCommand_names hname with rfl | rfl <;> rfl
  | cons step rest =>
    obtain ⟨child, hchild, hbelow⟩ := Option.bind_eq_some_iff.mp hfound
    have htext : ∃ s, child = .text s := by
      cases step with
      | index n => cases hchild
      | key field =>
        have hmem := mem_of_lookup hchild
        simp only [List.mem_cons, List.not_mem_nil, or_false, Prod.mk.injEq] at hmem
        rcases hmem with ⟨-, rfl⟩ | ⟨-, rfl⟩ | ⟨-, rfl⟩ <;> exact ⟨_, rfl⟩
    obtain ⟨s, rfl⟩ := htext
    cases rest with
    | nil =>
      cases hbelow
      rfl
    | cons next rest => cases hbelow

/-- A plain union forgives the member that only reports the new field, though the other reports more. -/
theorem newer_create_forgiven : ¬ DropsOnlyUnknown strictCommand newerCreate := by
  intro h
  have hrefused := h.refused (reported strictCommand newerCreate) rfl
    ⟨(missing "worker_id").labelled "StrictDelete", by decide +kernel, nofun⟩
  have hforgiven : validateToleratingAdditions strictCommand newerCreate =
      .ok (.mapping [("command", .text "create"), ("payload", .text "x")], ["StrictCreate.cost_usd"]) := by rfl
  rw [hforgiven] at hrefused
  cases hrefused

theorem newer_create_exact : DropsOnlyUnknown (strictModel "create" "payload") newerCreate ∧
    RemovesReported strictCommand newerCreate ∧
    validateToleratingAdditions strictCommand (.mapping [("cost_usd", .text "0.42")]) =
      .error (reported strictCommand (.mapping [("cost_usd", .text "0.42")])) := by
  refine ⟨?_, ?_, ?_⟩
  · exact (tolerance_drops_only_unknown (strictModel "create" "payload") newerCreate).2.1 (strictModel_unionFree _ _)
  · exact (tolerance_drops_only_unknown strictCommand newerCreate).2.2.1 newerCreate_apart (by unfold PlacesApart; decide +kernel)
  · exact (tolerance_drops_only_unknown strictCommand _).2.2.2 _ rfl (by decide +kernel)

end Orchestrator.Redis
