import Orchestrator.Consumers.Client

/-!
What becomes of each entry: none is lost without anybody being told.
-/

namespace Orchestrator.Consumers

open Async Async.Rules

def State.Accounts (s : State) (id : Nat) : Prop :=
  .delivered id ∉ s.trace ∨ id ∈ s.pending ∨ .acked id false ∈ s.trace ∨ .quarantined id ∈ s.trace ∨ .dropped id ∈ s.trace

def Fleet.reading (fleet : Fleet) (t : Party) (fields : Fields) : Option Python.Value :=
  match t with
  | .consumer n => (fleet.consumers n).reading fields
  | _ => none

structure Accounted (fleet : Fleet) (s : State) : Prop where
  entries : ∀ id fields, .added id fields ∈ s.trace → s.Accounts id
  acked : ∀ id poison, .acked id poison ∈ s.trace → (if poison then .quarantined id else .asked id) ∈ s.trace
  dropped : ∀ id, .dropped id ∈ s.trace → .counted id ∈ s.trace ∨ (∃ t, (t, id) ∈ s.told) ∨ .missed id ∈ s.trace
  remembered : ∀ id, .forgotten id ∉ s.trace
  yielded : ∀ t id value, .yielded t id value ∈ s.trace →
    ∃ fields, .added id fields ∈ s.trace ∧ fleet.reading t fields = some value

structure Kept (fleet : Fleet) (s : State) : Prop extends Accounted fleet s where
  numbered : ∀ id fields, .added id fields ∈ s.trace → id ≤ s.lastId
  handedOut : ∀ id, .delivered id ∈ s.trace → id ≤ s.lastId
  stored : ∀ entry ∈ s.entries, .added entry.1 entry.2 ∈ s.trace

structure Spares (t : Party) (s s' : State) : Prop where
  trace : s.trace ⊆ s'.trace
  told : s'.toldTo t = s.toldTo t

theorem Spares.refl (t : Party) (s : State) : Spares t s s := ⟨fun _ h => h, rfl⟩

theorem Spares.trans {t : Party} {s s' s'' : State} (h : Spares t s s') (h' : Spares t s' s'') : Spares t s s'' :=
  ⟨fun _ hmem => h'.trace (h.trace hmem), h'.told.trans h.told⟩

abbrev accountRules (fleet : Fleet) : Rules consumerWorld where
  admits := anyMove
  inv := Kept fleet
  rely := Spares
  rely_refl := Spares.refl
  rely_trans := Spares.trans
  rest t s := s.toldTo t = []
  rest_stable _ hr h := hr.told.trans h

section Steps

variable {fleet : Fleet} {t : Party} {s s' : State}

def Event.isNote : Event → Bool
  | .yielded _ _ _ | .asked _ | .quarantined _ | .counted _ | .missed _ => true
  | _ => false

variable {events : List Event}

theorem not_mem_of_notes (hnotes : ∀ event ∈ events, event.isNote = true) {event : Event}
    (h : event.isNote = false) : event ∉ events := fun hmem => by
  rw [hnotes event hmem] at h
  cases h

theorem accounts_mono {id : Nat} (htrace : s.trace ⊆ s'.trace) (hdelivered : .delivered id ∈ s'.trace → .delivered id ∈ s.trace)
    (hpending : id ∈ s.pending → id ∈ s'.pending) (h : s.Accounts id) : s'.Accounts id := by
  rcases h with h | h | h | h | h
  · exact .inl fun hmem => h (hdelivered hmem)
  · exact .inr (.inl (hpending h))
  · exact .inr (.inr (.inl (htrace h)))
  · exact .inr (.inr (.inr (.inl (htrace h))))
  · exact .inr (.inr (.inr (.inr (htrace h))))

theorem notes_kept (hi : Kept fleet s) (hentries : s'.entries = s.entries) (hlastId : s'.lastId = s.lastId)
    (hgroup : s'.group = s.group) (htrace : s'.trace = events ++ s.trace) (hnotes : ∀ event ∈ events, event.isNote = true)
    (htold : ∀ u id, (u, id) ∈ s.told → (u, id) ∈ s'.told ∨ .counted id ∈ events ∨ .missed id ∈ events)
    (hyielded : ∀ u id value, .yielded u id value ∈ events →
      ∃ fields, .added id fields ∈ s.trace ∧ fleet.reading u fields = some value) : Kept fleet s' := by
  have hsub : s.trace ⊆ s'.trace := by
    rw [htrace]
    exact List.subset_append_right _ _
  have hold {event : Event} (hnote : event.isNote = false) (h : event ∈ s'.trace) : event ∈ s.trace := by
    rw [htrace] at h
    exact (List.mem_append.mp h).resolve_left (not_mem_of_notes hnotes hnote)
  have hpending : s'.pending = s.pending := by simp only [State.pending, hgroup]
  refine ⟨⟨?_, ?_, ?_, ?_, ?_⟩, ?_, ?_, ?_⟩
  · intro id fields h
    exact accounts_mono hsub (hold rfl) (fun h => hpending ▸ h) (hi.entries id fields (hold rfl h))
  · intro id poison h
    exact hsub (hi.acked id poison (hold rfl h))
  · intro id h
    rw [htrace]
    rcases hi.dropped id (hold rfl h) with hcounted | ⟨u, htold'⟩ | hmissed
    · exact .inl (List.mem_append_right _ hcounted)
    · rcases htold u id htold' with hstill | hcounted | hmissed
      · exact .inr (.inl ⟨u, hstill⟩)
      · exact .inl (List.mem_append_left _ hcounted)
      · exact .inr (.inr (List.mem_append_left _ hmissed))
    · exact .inr (.inr (List.mem_append_right _ hmissed))
  · intro id h
    exact hi.remembered id (hold rfl h)
  · intro u id value h
    rw [htrace] at h
    rcases List.mem_append.mp h with hnew | h
    · obtain ⟨fields, hadded, hreading⟩ := hyielded u id value hnew
      exact ⟨fields, hsub hadded, hreading⟩
    · obtain ⟨fields, hadded, hreading⟩ := hi.yielded u id value h
      exact ⟨fields, hsub hadded, hreading⟩
  · intro id fields h
    rw [hlastId]
    exact hi.numbered id fields (hold rfl h)
  · intro id h
    rw [hlastId]
    exact hi.handedOut id (hold rfl h)
  · intro entry h
    rw [hentries] at h
    exact hsub (hi.stored entry h)

theorem events_kept (hi : Kept fleet s) (htrace : s'.trace = events ++ s.trace)
    (hplain : ∀ event ∈ events, event.isNote = false) (hremembered : ∀ id, .forgotten id ∉ events)
    (haccounts : ∀ id fields, .added id fields ∈ s'.trace → s'.Accounts id)
    (hacked : ∀ id poison, .acked id poison ∈ events → (if poison then .quarantined id else .asked id) ∈ s.trace)
    (hdropped : ∀ id, .dropped id ∈ events → ∃ u, (u, id) ∈ s'.told) (htold : s.told ⊆ s'.told)
    (hnumbered : ∀ id fields, .added id fields ∈ s'.trace → id ≤ s'.lastId)
    (hhandedOut : ∀ id, .delivered id ∈ s'.trace → id ≤ s'.lastId)
    (hstored : ∀ entry ∈ s'.entries, .added entry.1 entry.2 ∈ s'.trace) : Kept fleet s' := by
  have hsub : s.trace ⊆ s'.trace := by
    rw [htrace]
    exact List.subset_append_right _ _
  have hold {event : Event} (hnote : event.isNote = true) (h : event ∈ s'.trace) : event ∈ s.trace := by
    rw [htrace] at h
    refine (List.mem_append.mp h).resolve_left fun hmem => ?_
    rw [hplain event hmem] at hnote
    cases hnote
  refine ⟨⟨haccounts, ?_, ?_, ?_, ?_⟩, hnumbered, hhandedOut, hstored⟩
  · intro id poison h
    rw [htrace] at h
    rcases List.mem_append.mp h with hnew | h
    · exact hsub (hacked id poison hnew)
    · exact hsub (hi.acked id poison h)
  · intro id h
    rw [htrace] at h
    rcases List.mem_append.mp h with hnew | h
    · exact .inr (.inl (hdropped id hnew))
    · rcases hi.dropped id h with hcounted | ⟨u, htold'⟩ | hmissed
      · exact .inl (hsub hcounted)
      · exact .inr (.inl ⟨u, htold htold'⟩)
      · exact .inr (.inr (hsub hmissed))
  · intro id h
    rw [htrace] at h
    exact (List.mem_append.mp h).elim (hremembered id) (hi.remembered id)
  · intro u id value h
    obtain ⟨fields, hadded, hreading⟩ := hi.yielded u id value (hold rfl h)
    exact ⟨fields, hsub hadded, hreading⟩

theorem createGroup_kept (hi : Kept fleet s) : Kept fleet s.createGroup.2 := by
  unfold State.createGroup
  split
  · next hnone =>
    refine @events_kept _ s _ [] hi rfl nofun nofun (fun id fields h => ?_) nofun nofun (fun _ h => h) hi.numbered hi.handedOut hi.stored
    refine accounts_mono (s := s) (fun _ h => h) (fun h => h) (fun hmem => ?_) (hi.entries id fields h)
    simp [State.pending, hnone] at hmem
  · exact hi

variable {g : Redis.Group}

theorem deliver_kept {number : Nat} (hi : Kept fleet s) (hg : s.group = some g) :
    Kept fleet (s.deliver g (s.fresh g number)) := by
  have hstored (row : Nat × Fields) (h : row ∈ s.fresh g number) : .added row.1 row.2 ∈ s.trace :=
    hi.stored row (List.mem_filter.mp (List.mem_of_mem_take h)).1
  have hnew {id : Nat} (h : .delivered id ∈ (s.deliver g (s.fresh g number)).trace) :
      (∃ row ∈ s.fresh g number, row.1 = id) ∨ .delivered id ∈ s.trace := by
    refine (List.mem_append.mp h).imp_left fun h => ?_
    obtain ⟨row, hrow, heq⟩ := List.mem_map.mp h
    exact ⟨row, hrow, by cases heq; rfl⟩
  have hadded {id : Nat} {fields : Fields} (h : .added id fields ∈ (s.deliver g (s.fresh g number)).trace) : .added id fields ∈ s.trace := by
    refine (List.mem_append.mp h).resolve_left fun h => ?_
    obtain ⟨row, _, heq⟩ := List.mem_map.mp h
    cases heq
  have hpending : s.pending = g.pending := by simp [State.pending, hg]
  refine @events_kept _ s _ ((s.fresh g number).map fun row => .delivered row.1) hi rfl ?_ ?_ (fun id fields h => ?_) ?_ ?_
    (fun _ h => h) (fun id fields h => hi.numbered id fields (hadded h)) (fun id h => ?_)
    fun entry h => List.mem_append_right _ (hi.stored entry h)
  · intro event h
    obtain ⟨row, _, rfl⟩ := List.mem_map.mp h
    rfl
  · intro id h
    obtain ⟨row, _, heq⟩ := List.mem_map.mp h
    cases heq
  · by_cases hrow : ∃ row ∈ s.fresh g number, row.1 = id
    · right
      left
      obtain ⟨row, hrow, rfl⟩ := hrow
      exact List.mem_append_right _ (List.mem_map_of_mem hrow)
    · refine accounts_mono (List.subset_append_right _ _) (fun h => (hnew h).resolve_left hrow) (fun hmem => ?_)
        (hi.entries id fields (hadded h))
      rw [hpending] at hmem
      exact List.mem_append_left _ hmem
  · intro id poison h
    obtain ⟨row, _, heq⟩ := List.mem_map.mp h
    cases heq
  · intro id h
    obtain ⟨row, _, heq⟩ := List.mem_map.mp h
    cases heq
  · rcases hnew h with ⟨row, hrow, rfl⟩ | hold
    · exact hi.numbered row.1 row.2 (hstored row hrow)
    · exact hi.handedOut id hold

theorem drop_kept {ids : List Nat} (hi : Kept fleet s) (hg : s.group = some g) : Kept fleet (s.drop t g ids) := by
  have hold {event : Event} (hne : ∀ id, event ≠ .dropped id) (h : event ∈ (s.drop t g ids).trace) : event ∈ s.trace := by
    refine (List.mem_append.mp h).resolve_left fun h => ?_
    obtain ⟨id, _, heq⟩ := List.mem_map.mp h
    exact hne id heq.symm
  have hpending : s.pending = g.pending := by simp [State.pending, hg]
  refine @events_kept _ s _ (ids.map .dropped) hi rfl ?_ ?_ (fun id fields h => ?_) ?_ ?_ (List.subset_append_right _ _)
    (fun id fields h => hi.numbered id fields (hold nofun h)) (fun id h => hi.handedOut id (hold nofun h))
    fun entry h => List.mem_append_right _ (hi.stored entry h)
  · intro event h
    obtain ⟨id, _, rfl⟩ := List.mem_map.mp h
    rfl
  · intro id h
    obtain ⟨other, _, heq⟩ := List.mem_map.mp h
    cases heq
  · by_cases hgone : id ∈ ids
    · exact .inr (.inr (.inr (.inr (List.mem_append_left _ (List.mem_map_of_mem hgone)))))
    · refine accounts_mono (List.subset_append_right _ _) (hold nofun) (fun hmem => ?_) (hi.entries id fields (hold nofun h))
      rw [hpending] at hmem
      exact List.mem_filter.mpr ⟨hmem, by simpa using hgone⟩
  · intro id poison h
    obtain ⟨other, _, heq⟩ := List.mem_map.mp h
    cases heq
  · intro id h
    obtain ⟨other, hother, heq⟩ := List.mem_map.mp h
    cases heq
    exact ⟨t, List.mem_append_left _ (List.mem_map_of_mem hother)⟩

theorem ack_kept {id : Nat} {poison : Bool} (hi : Kept fleet s)
    (hmay : (if poison then Event.quarantined id else .asked id) ∈ s.trace) : Kept fleet (s.ack id poison).2 := by
  have hold {event : Event} (hne : ∀ id poison, event ≠ .acked id poison) (h : event ∈ (s.ack id poison).2.trace) : event ∈ s.trace :=
    (List.mem_cons.mp h).resolve_left (hne id poison)
  refine @events_kept _ s _ [.acked id poison] hi rfl ?_ ?_ (fun other fields h => ?_) ?_ ?_ (fun _ h => h)
    (fun id fields h => hi.numbered id fields (hold nofun h)) (fun id h => hi.handedOut id (hold nofun h))
    fun entry h => List.mem_cons_of_mem _ (hi.stored entry h)
  · intro event h
    rw [List.mem_singleton.mp h]
    rfl
  · simp
  · by_cases hsame : other = id
    · subst hsame
      cases poison with
      | true => exact .inr (.inr (.inr (.inl (List.mem_cons_of_mem _ hmay))))
      | false => exact .inr (.inr (.inl List.mem_cons_self))
    · refine accounts_mono (s := s) (List.subset_cons_self _ _) (hold nofun) (fun hmem => ?_) (hi.entries other fields (hold nofun h))
      cases hg : s.group with
      | none => simp [State.pending, hg] at hmem
      | some g =>
        have hmem : other ∈ g.pending := by simpa [State.pending, hg] using hmem
        simp [State.ack, State.record, State.pending, hg, hmem, hsame]
  · intro other poison' h
    cases List.mem_singleton.mp h
    exact hmay
  · simp

theorem change_kept (change : Change) (hi : Kept fleet s) : Kept fleet (change.apply s) := by
  cases change with
  | add fields trimmed =>
    have hold {event : Event} (hne : ∀ id fields, event ≠ .added id fields) (h : event ∈ ((Change.add fields trimmed).apply s).trace) :
        event ∈ s.trace := (List.mem_cons.mp h).resolve_left (hne _ _)
    refine @events_kept _ s _ [.added (s.lastId + 1) fields] hi rfl ?_ ?_ (fun id other h => ?_) ?_ ?_ (fun _ h => h)
      (fun id other h => ?_) (fun id h => ?_) fun entry h => ?_
    · intro event h
      rw [List.mem_singleton.mp h]
      rfl
    · simp
    · rcases List.mem_cons.mp h with hnew | h
      · cases hnew
        left
        intro hdelivered
        have hle := hi.handedOut _ (hold nofun hdelivered)
        omega
      · exact accounts_mono (List.subset_cons_self _ _) (hold nofun) (fun hmem => hmem) (hi.entries id other h)
    · simp
    · simp
    · rcases List.mem_cons.mp h with hnew | h
      · cases hnew
        exact Nat.le_refl _
      · exact (hi.numbered id other h).trans (Nat.le_succ _)
    · exact (hi.handedOut id (hold nofun h)).trans (Nat.le_succ _)
    · rcases List.mem_append.mp (List.mem_of_mem_drop h) with h | h
      · exact List.mem_cons_of_mem _ (hi.stored entry h)
      · rw [List.mem_singleton.mp h]
        exact List.mem_cons_self
  | trim trimmed =>
    exact @events_kept _ s _ [] hi rfl nofun nofun hi.entries nofun nofun (fun _ h => h) hi.numbered hi.handedOut
      fun entry h => hi.stored entry (List.mem_of_mem_drop h)

theorem mem_toldTo {id : Nat} : id ∈ s.toldTo t ↔ (t, id) ∈ s.told := by
  simp [State.toldTo]

theorem abandon_kept (hi : Kept fleet s) : Kept fleet (s.abandon t) := by
  refine @notes_kept _ s _ ((s.toldTo t).map .missed) hi rfl rfl rfl rfl ?_ (fun u id h => ?_) fun u id value h => ?_
  · intro event h
    obtain ⟨id, _, rfl⟩ := List.mem_map.mp h
    rfl
  · by_cases hu : u = t
    · subst hu
      exact .inr (.inr (List.mem_map_of_mem (mem_toldTo.mpr h)))
    · exact .inl (List.mem_filter.mpr ⟨h, decide_eq_true hu⟩)
  · obtain ⟨other, _, heq⟩ := List.mem_map.mp h
    cases heq

theorem recordLost_kept (id : Option Nat) (hi : Kept fleet s) : Kept fleet (s.recordLost t id) := by
  refine @notes_kept _ s _ (id.toList.map .counted) hi rfl rfl rfl rfl ?_ (fun u other h => ?_) fun u other value h => ?_
  · intro event h
    obtain ⟨id, _, rfl⟩ := List.mem_map.mp h
    rfl
  · by_cases hsame : u = t ∧ some other = id
    · obtain ⟨rfl, rfl⟩ := hsame
      exact .inr (.inl (by simp))
    · exact .inl (List.mem_filter.mpr ⟨h, by simpa [imp_iff_not_or] using hsame⟩)
  · obtain ⟨other, _, heq⟩ := List.mem_map.mp h
    cases heq

theorem kept_keeps (h : Kept fleet s') (htrace : s.trace ⊆ s'.trace) (htold : ∀ u, u ≠ t → s'.toldTo u = s.toldTo u) :
    (accountRules fleet).Keeps t s s' :=
  ⟨h, fun u hu => ⟨htrace, htold u hu⟩⟩

theorem goOn_eq (h : s.toldTo t = []) : s.goOn t = s := by
  simp [State.goOn, State.record, h]

theorem abandon_toldTo : (s.abandon t).toldTo t = [] := by
  simp [State.abandon, State.toldTo]

theorem abandon_toldTo_ne {u : Party} (hu : u ≠ t) : (s.abandon t).toldTo u = s.toldTo u := by
  simp only [State.abandon, State.toldTo, List.filter_filter]
  congr 1
  refine List.filter_congr fun told _ => ?_
  by_cases h : told.1 = u
  · simp [h, hu]
  · simp [h]

theorem abandon_keeps (hi : Kept fleet s) : (accountRules fleet).Keeps t s (s.abandon t) :=
  kept_keeps (abandon_kept hi) (List.subset_append_right _ _) fun _ hu => abandon_toldTo_ne hu

theorem recordLost_keeps (id : Option Nat) (hi : Kept fleet s) : (accountRules fleet).Keeps t s (s.recordLost t id) := by
  refine kept_keeps (recordLost_kept id hi) (List.subset_append_right _ _) fun u hu => ?_
  simp only [State.recordLost, State.toldTo, List.filter_filter]
  congr 1
  refine List.filter_congr fun told _ => ?_
  by_cases h : told.1 = u
  · simp [h, hu]
  · simp [h]

theorem drop_keeps {ids : List Nat} (hi : Kept fleet s) (hg : s.group = some g) :
    (accountRules fleet).Keeps t s (s.drop t g ids) := by
  refine kept_keeps (drop_kept hi hg) (List.subset_append_right _ _) fun u hu => ?_
  simp only [State.drop, State.toldTo, List.filter_append]
  have hnone : (ids.map (t, ·)).filter (fun told => told.1 = u) = [] := by
    refine List.filter_eq_nil_iff.mpr fun told htold => ?_
    obtain ⟨id, _, rfl⟩ := List.mem_map.mp htold
    simpa using Ne.symm hu
  rw [hnone, List.nil_append]

end Steps

section Programs

variable {fleet : Fleet} {t : Party} {s s' : State} {ids : List Nat} {facts : List Event}

def Held (t : Party) (ids : List Nat) (facts : List Event) (s : State) : Prop :=
  s.toldTo t ⊆ ids ∧ facts ⊆ s.trace

theorem Held.spared (h : Held t ids facts s) (hr : Spares t s s') : Held t ids facts s' :=
  ⟨hr.told ▸ h.1, fun _ hmem => hr.trace (h.2 hmem)⟩

theorem Held.only {facts' : List Event} (h : Held t ids facts s) (hsub : facts' ⊆ facts) : Held t ids facts' s :=
  ⟨h.1, fun _ hmem => h.2 (hsub hmem)⟩

theorem held_step {events : List Event} (hk : Kept fleet s') (htrace : s'.trace = events ++ s.trace) (htold : s'.told = s.told)
    (h : Held t ids facts s) : (accountRules fleet).Keeps t s s' ∧ Held t ids (events ++ facts) s' := by
  have htoldTo (u : Party) : s'.toldTo u = s.toldTo u := by simp only [State.toldTo, htold]
  refine ⟨kept_keeps hk (htrace ▸ List.subset_append_right _ _) fun u _ => htoldTo u, htoldTo t ▸ h.1, fun event hmem => ?_⟩
  rw [htrace]
  rcases List.mem_append.mp hmem with hnew | hold
  · exact List.mem_append_left _ hnew
  · exact List.mem_append_right _ (h.2 hold)

def Op.isPlain : Op → Bool
  | .createGroup | .monotonic | .cede | .alertLegacyRecipient _ | .sleep => true
  | _ => false

theorem createGroup_same (s : State) : s.createGroup.2.trace = s.trace ∧ s.createGroup.2.told = s.told := by
  unfold State.createGroup
  split <;> exact ⟨rfl, rfl⟩

theorem serve_held {A : Type} {exec : State → Except Exn A × State} (fate : Fate Exn) (hi : Kept fleet s)
    (hexec : Kept fleet (exec s).2 ∧ (exec s).2.trace = s.trace ∧ (exec s).2.told = s.told) :
    Kept fleet (fate.serve exec s).2 ∧ (fate.serve exec s).2.trace = s.trace ∧ (fate.serve exec s).2.told = s.told := by
  cases fate with
  | unsent e => exact ⟨hi, rfl, rfl⟩
  | _ => exact hexec

theorem run_plain {op : Op} (hop : op.isPlain = true) (hi : Kept fleet s) (reply : Reply) :
    Kept fleet (run t op reply s).2 ∧ (run t op reply s).2.trace = s.trace ∧ (run t op reply s).2.told = s.told := by
  cases op with
  | createGroup => exact serve_held _ hi ⟨createGroup_kept hi, createGroup_same s⟩
  | monotonic | cede => exact ⟨hi, rfl, rfl⟩
  | alertLegacyRecipient | sleep => exact serve_held _ hi ⟨hi, rfl, rfl⟩
  | _ => cases hop

theorem plain_maintains {op : Op} (hop : op.isPlain = true) :
    (accountRules fleet).Maintains t (Held t ids facts) (perform op) :=
  .perform (fun _ _ _ hr h => h.spared hr) fun s hi h reply _ => by
    obtain ⟨hk, htrace, htold⟩ := run_plain (t := t) hop hi reply
    obtain ⟨hkeeps, hheld⟩ := @held_step _ _ _ _ _ _ [] hk htrace htold h
    exact ⟨hkeeps, hheld⟩

theorem ack_maintains {id : Nat} {poison : Bool} (hmay : (if poison then Event.quarantined id else .asked id) ∈ facts) :
    (accountRules fleet).Maintains t (Held t ids facts) (ackEntry id poison) := by
  refine .perform (fun _ _ _ hr h => h.spared hr) (.serve (fun _ _ => rfl) fun s reply hi h _ _ => ?_)
  obtain ⟨hkeeps, hheld⟩ := @held_step _ _ s _ _ _ [.acked id poison] (ack_kept hi (h.2 hmay)) rfl rfl h
  exact ⟨hkeeps, hheld.only (List.subset_cons_self _ _)⟩

theorem resume_yields {Q : State → Prop} {advances : Bool} (h : advances = true → Q s) :
    (accountRules fleet).Yields t (fun _ => Q) (resume advances) s := by
  cases advances with
  | true => exact Yields.ret (h rfl)
  | false => exact Yields.raise

variable {fields : Fields}

theorem handOver_yields {id : Nat} {value : Python.Value} {autoAck : Bool} (hi : Kept fleet s)
    (hadded : .added id fields ∈ facts) (hreading : fleet.reading t fields = some value) (h : Held t ids facts s) :
    (accountRules fleet).Yields t (fun _ => Held t ids (if autoAck then .asked id :: facts else facts)) (handOver id value autoAck) s := by
  refine Yields.bind hi (M := fun advances => Held t ids ((if autoAck && advances then [.asked id] else []) ++ [.yielded t id value] ++ facts))
    ?_ fun advances s hi h => resume_yields fun hadvances => h.only ?_
  · refine Safe.perform fun s' hi hr reply _ => ?_
    have h := h.spared hr
    have hk : Kept fleet (s'.handOver t id value autoAck reply.advances).2 := by
      refine notes_kept hi rfl rfl rfl rfl (fun event hmem => ?_) (fun _ _ h => .inl h) fun u other value' hmem => ?_
      · split at hmem <;> simp at hmem <;> rcases hmem with rfl | rfl <;> rfl
      · have heq : Event.yielded u other value' = .yielded t id value := by
          split at hmem <;> simpa using hmem
        cases heq
        exact ⟨fields, h.2 hadded, hreading⟩
    obtain ⟨hkeeps, hheld⟩ := held_step hk rfl rfl h
    refine ⟨hkeeps, fun advances heq => ?_⟩
    cases heq
    exact hheld
  · subst hadvances
    cases autoAck with
    | true | false => simp

theorem quarantine_yields {letter : DeadLetter} (hi : Kept fleet s) (h : Held t ids facts s) :
    (accountRules fleet).Yields t (fun landed => Held t ids (if landed then .quarantined letter.entryId :: facts else facts))
      (quarantineEntry letter) s := by
  refine Safe.handle (M := fun r s => Held t ids facts s ∧ ∀ landed, r = .ok landed → landed = true ∧
      Held t ids (.quarantined letter.entryId :: facts) s) hi ?_ (fun landed s _ hM landed' heq => ?_) fun e s hi hM => ?_
  · refine Safe.bind (M := fun r s => Held t ids facts s ∧ (r = .ok () → Held t ids (.quarantined letter.entryId :: facts) s)) hi
      (Safe.perform fun s' hi hr reply _ => ?_) (fun _ s _ hM => ?_) fun e s _ hM => ⟨hM.1, nofun⟩
    · have h := h.spared hr
      have hk : Kept fleet (s'.deadLetter letter reply.trimmed).2 := by
        refine @notes_kept _ s' _ [.quarantined letter.entryId] hi rfl rfl rfl rfl (fun event hmem => ?_) (fun _ _ h => .inl h) ?_
        · rw [List.mem_singleton.mp hmem]
          rfl
        · simp
      obtain ⟨hkeeps, hheld⟩ := @held_step _ t s' _ _ _ [.quarantined letter.entryId] hk rfl rfl h
      have hold := hheld.only (List.subset_cons_self _ facts)
      have hrun : consumerWorld.run t (.deadLetter letter) reply s' = reply.fate.serve (State.deadLetter letter reply.trimmed) s' := rfl
      rw [hrun]
      generalize reply.fate = fate
      cases fate with
      | served => exact ⟨hkeeps, hold, fun _ => hheld⟩
      | unheard e => exact ⟨hkeeps, hold, nofun⟩
      | unsent e => exact ⟨.refl _ hi, h, nofun⟩
    · exact ⟨hM.1, fun landed heq => by cases heq; exact ⟨rfl, hM.2 rfl⟩⟩
  · cases heq
    obtain ⟨rfl, hheld⟩ := hM.2 landed rfl
    exact hheld
  · split
    · exact Yields.ret hM.1
    · exact Yields.raise

theorem rejectEntry_yields {id : Nat} {failure : Failure} {reason : String} (hi : Kept fleet s)
    (h : Held t ids facts s) : (accountRules fleet).Yields t (fun _ => Held t ids facts) (rejectEntry id fields failure reason) s := by
  refine Yields.bind hi (quarantine_yields hi h) fun landed s hi h => ?_
  cases landed with
  | false => exact Yields.ret h
  | true =>
    have hack : (accountRules fleet).Maintains t (Held t ids (.quarantined id :: facts)) (terminalAck id) := by
      refine .handle (ack_maintains List.mem_cons_self) fun e => ?_
      split
      · exact .ret ()
      · exact .raise _
    exact (hack s hi h).conseq hi fun r s _ h _ _ => h.only (List.subset_cons_self _ _)

theorem alert_maintains {schema : Schema} {id : Nat} {data : Python.Value} :
    (accountRules fleet).Maintains t (Held t ids facts) (alertIfLegacy schema id data) := by
  unfold alertIfLegacy
  split
  · exact plain_maintains rfl
  · exact .ret ()

theorem consumeEntry_yields {n id : Nat} (hi : Kept fleet s) (hadded : .added id fields ∈ facts)
    (h : Held (.consumer n) ids facts s) :
    (accountRules fleet).Yields (.consumer n) (fun _ => Held (.consumer n) ids facts) (consumeEntry (fleet.consumers n) id fields) s := by
  have hreading : fleet.reading (.consumer n) fields = (fleet.consumers n).reading fields := rfl
  unfold Consumer.reading at hreading
  unfold consumeEntry
  cases hmode : (fleet.consumers n).mode with
  | consume autoAck =>
    simp only [hmode] at hreading ⊢
    refine Yields.bind hi (handOver_yields hi hadded hreading h) fun _ s hi h => ?_
    cases autoAck with
    | false => exact Yields.ret h
    | true =>
      have hack := @ack_maintains fleet (.consumer n) ids (.asked id :: facts) id false List.mem_cons_self
      exact (hack s hi h).conseq hi fun r s _ h _ _ => h.only (List.subset_cons_self _ _)
  | consumeTyped =>
    simp only [hmode] at hreading ⊢
    unfold consumeTyped
    cases hdecode : decodeEntry (fleet.consumers n).schema fields with
    | error reason => exact rejectEntry_yields hi h
    | ok data =>
      simp only [hdecode] at hreading ⊢
      unfold validateEntry
      cases hvalid : (fleet.consumers n).schema.validateToleratingAdditions data with
      | error reason =>
        exact Yields.bind hi (.of_maintains alert_maintains hi h) fun _ s hi h => rejectEntry_yields hi h
      | ok value =>
        rw [hvalid] at hreading
        exact handOver_yields hi hadded hreading h

theorem attempt_yields {A : Type} {p : Job A} {Q : Except Exn A → State → Prop} (h : (accountRules fleet).Safe t Q p s)
    (hi : Kept fleet s) : (accountRules fleet).Yields t Q p.attempt s :=
  Safe.attempt (h.conseq hi fun r s _ hQ r' heq => by cases heq; exact hQ)

def After (t : Party) (ids : List Nat) (facts : List Event) : Caught → State → Prop
  | .ok () => Held t ids facts
  | .error _ => Held t [] facts

theorem abandon_held (hi : Kept fleet s) (h : Held t ids facts s) :
    (accountRules fleet).Keeps t s (s.abandon t) ∧ Held t [] facts (s.abandon t) := by
  refine ⟨abandon_keeps hi, ?_, fun _ hmem => List.mem_append_right _ (h.2 hmem)⟩
  rw [abandon_toldTo]
  exact List.nil_subset _

theorem recordLost_held (id : Option Nat) (h : Held t ids facts s) :
    Held t (ids.filter (some · ≠ id)) facts (s.recordLost t id) := by
  refine ⟨fun other hmem => ?_, fun _ hmem => List.mem_append_right _ (h.2 hmem)⟩
  rw [mem_toldTo] at hmem
  obtain ⟨hmem, hne⟩ := List.mem_filter.mp hmem
  refine List.mem_filter.mpr ⟨h.1 (mem_toldTo.mpr hmem), ?_⟩
  simpa using hne

def Struck (t : Party) (ids : List Nat) (facts : List Event) (id : Option Nat) : Except Exn Nat → State → Prop
  | .ok _ => Held t (ids.filter (some · ≠ id)) facts
  | .error _ => Held t [] facts

theorem recordLostEntry_yields {id : Option Nat} {next : Job Caught} {done : List Nat} (hi : Kept fleet s) (h : Held t ids facts s)
    (hnext : ∀ s, Kept fleet s → Held t (ids.filter (some · ≠ id)) facts s →
      (accountRules fleet).Yields t (After t done facts) next s) :
    (accountRules fleet).Yields t (After t done facts) (recordLostEntry id next) s := by
  refine Yields.bind hi (attempt_yields (Q := Struck t ids facts id) (Safe.perform fun s' hi hr reply _ => ?_) hi) fun r s hi hr => ?_
  · have h := h.spared hr
    obtain ⟨hkeeps, hheld⟩ := And.intro (recordLost_keeps (t := t) id hi) (recordLost_held id h)
    obtain ⟨fate, ready, scan, trimmed, clock, advances, chosen, change⟩ := reply
    cases fate with
    | served => exact ⟨hkeeps, hheld⟩
    | unheard e =>
      obtain ⟨hkeeps', hheld'⟩ := abandon_held hkeeps.inv hheld
      exact ⟨hkeeps.trans hkeeps', hheld'⟩
    | unsent e => exact abandon_held hi h
  · cases r with
    | error e => exact Yields.ret hr
    | ok total => exact hnext s hi hr

def Claimed.added : Claimed → List Event
  | .entry id fields => [.added id fields]
  | .bodiless _ => []

variable {n : Nat}

theorem iterClaimed_yields (claimed : List Claimed) (hsub : claimed.flatMap Claimed.added ⊆ facts) (hi : Kept fleet s)
    (h : Held (.consumer n) ids facts s) :
    (accountRules fleet).Yields (.consumer n) (After (.consumer n) ids facts) (iterClaimed (fleet.consumers n) claimed) s := by
  induction claimed generalizing s with
  | nil => exact Yields.ret h
  | cons first rest ih =>
    rw [List.flatMap_cons] at hsub
    have hrest := List.Subset.trans (List.subset_append_right _ _) hsub
    cases first with
    | entry id fields =>
      have hadded : .added id fields ∈ facts := hsub (List.mem_append_left _ (List.mem_singleton_self _))
      exact Yields.bind hi (consumeEntry_yields hi hadded h) fun _ s hi h => ih hrest hi h
    | bodiless id =>
      refine recordLostEntry_yields hi h fun s hi h => ih hrest hi ⟨?_, h.2⟩
      exact fun _ hmem => (List.mem_filter.mp (h.1 hmem)).1

theorem recordDeleted_yields (deleted : List Nat) (hi : Kept fleet s) (h : Held t deleted facts s) :
    (accountRules fleet).Yields t (After t [] facts) (recordDeleted deleted) s := by
  induction deleted generalizing s with
  | nil => exact Yields.ret h
  | cons id rest ih =>
    refine recordLostEntry_yields hi h fun s hi h => ih hi ⟨fun other hmem => ?_, h.2⟩
    obtain ⟨hmem, hne⟩ := List.mem_filter.mp (h.1 hmem)
    refine (List.mem_cons.mp hmem).resolve_left fun hsame => ?_
    simp [hsame] at hne

theorem andThen_yields {first next : Job Caught} {done : List Nat} (hi : Kept fleet s)
    (hfirst : (accountRules fleet).Yields t (After t ids facts) first s)
    (hnext : ∀ s, Kept fleet s → Held t ids facts s → (accountRules fleet).Yields t (After t done []) next s) :
    (accountRules fleet).Yields t (After t done []) (andThen first next) s := by
  refine Yields.bind hi hfirst fun r s hi h => ?_
  cases r with
  | error e => exact Yields.ret (Held.only h (List.nil_subset _))
  | ok _ => exact hnext s hi h

def Paged (t : Party) (facts : List Event) : Except Exn ClaimPage → State → Prop
  | .ok page => Held t page.deleted (page.claimed.flatMap Claimed.added ++ facts)
  | .error _ => Held t [] facts

theorem claimed_added (hi : Kept fleet s) (g : Redis.Group) (scan : ClaimScan) :
    (s.claimed g scan).flatMap Claimed.added ⊆ s.trace := by
  intro event hmem
  obtain ⟨claimed, hclaimed, hevent⟩ := List.mem_flatMap.mp hmem
  rcases List.mem_append.mp hclaimed with hentry | hbodiless
  · obtain ⟨entry, hstored, rfl⟩ := List.mem_map.mp hentry
    rw [List.mem_singleton.mp hevent]
    exact hi.stored entry (List.mem_filter.mp hstored).1
  · obtain ⟨id, _, rfl⟩ := List.mem_map.mp hbodiless
    cases hevent

theorem autoClaim_held (scan : ClaimScan) (hi : Kept fleet s) (h : Held t [] facts s) :
    (accountRules fleet).Keeps t s (s.autoClaim t scan).2 ∧ Paged t facts (s.autoClaim t scan).1 (s.autoClaim t scan).2 := by
  have hnone : s.toldTo t = [] := List.subset_nil.mp h.1
  unfold State.autoClaim
  rw [goOn_eq hnone]
  cases hg : s.group with
  | none => exact ⟨.refl _ hi, h⟩
  | some g =>
    refine ⟨drop_keeps hi hg, fun id hmem => ?_, fun event hmem => List.mem_append_right _ ?_⟩
    · rcases List.mem_append.mp (mem_toldTo.mp hmem) with hnew | hold
      · obtain ⟨other, hother, heq⟩ := List.mem_map.mp hnew
        cases heq
        exact hother
      · rw [← mem_toldTo, hnone] at hold
        cases hold
    · rcases List.mem_append.mp hmem with hclaimed | hold
      · exact claimed_added hi g scan hclaimed
      · exact h.2 hold

theorem autoClaim_yields {cursor count : Nat} (hi : Kept fleet s) (h : Held t [] facts s) :
    (accountRules fleet).Yields t (Paged t facts) (Prog.attempt (perform (.autoClaim cursor count))) s := by
  refine attempt_yields (Safe.perform fun s' hi hr reply _ => ?_) hi
  have h := h.spared hr
  obtain ⟨hkeeps, hpaged⟩ := autoClaim_held reply.scan hi h
  have hgo := goOn_eq (List.subset_nil.mp h.1)
  obtain ⟨fate, ready, scan, trimmed, clock, advances, chosen, change⟩ := reply
  cases fate with
  | served => exact ⟨hkeeps, hpaged⟩
  | unheard e =>
    have hheld : ∃ left, Held t left facts (s'.autoClaim t scan).2 := by
      cases hpage : (s'.autoClaim t scan).1 with
      | ok page =>
        rw [hpage] at hpaged
        exact ⟨page.deleted, hpaged.only (List.subset_append_right _ _)⟩
      | error e =>
        rw [hpage] at hpaged
        exact ⟨[], hpaged⟩
    obtain ⟨left, hheld⟩ := hheld
    obtain ⟨hkeeps', hheld'⟩ := abandon_held hkeeps.inv hheld
    exact ⟨hkeeps.trans hkeeps', hheld'⟩
  | unsent e =>
    have hkept : (accountRules fleet).Keeps t s' (s'.goOn t) ∧ Held t [] facts (s'.goOn t) := by
      rw [hgo]
      exact ⟨.refl _ hi, h⟩
    exact hkept

theorem reclaimPending_yields (pages cursor : Nat) (hi : Kept fleet s) (h : Held (.consumer n) [] [] s) :
    (accountRules fleet).Yields (.consumer n) (After (.consumer n) [] []) (reclaimPending (fleet.consumers n) pages cursor) s := by
  induction pages generalizing cursor s with
  | zero => exact Yields.raise
  | succ pages ih =>
    refine Yields.bind hi (autoClaim_yields hi h) fun r s hi h => ?_
    cases r with
    | error e => exact Yields.ret h
    | ok page =>
      have h : Held (.consumer n) page.deleted (page.claimed.flatMap Claimed.added ++ []) s := h
      refine andThen_yields hi (iterClaimed_yields page.claimed (List.subset_append_left _ _) hi h) fun s hi h => ?_
      refine andThen_yields hi (recordDeleted_yields page.deleted hi h) fun s hi h => ?_
      split
      · exact Yields.ret (h.only (List.nil_subset _))
      · exact ih _ hi (h.only (List.nil_subset _))

def Read (t : Party) : Except Exn (List (Nat × Fields)) → State → Prop
  | .ok rows => Held t [] (rows.map fun row => .added row.1 row.2)
  | .error _ => Held t [] []

theorem readGroup_held (number : Nat) (hi : Kept fleet s) (h : Held t [] [] s) :
    (accountRules fleet).Keeps t s (s.readGroup t number).2 ∧ Read t (s.readGroup t number).1 (s.readGroup t number).2 ∧
      Held t [] [] (s.readGroup t number).2 := by
  unfold State.readGroup
  rw [goOn_eq (List.subset_nil.mp h.1)]
  cases hg : s.group with
  | none => exact ⟨.refl _ hi, h, h⟩
  | some g =>
    have hheld : Held t [] [] (s.deliver g (s.fresh g number)) := ⟨h.1, List.nil_subset _⟩
    refine ⟨kept_keeps (deliver_kept hi hg) (List.subset_append_right _ _) fun _ _ => rfl, ⟨h.1, fun event hmem => ?_⟩, hheld⟩
    obtain ⟨row, hrow, rfl⟩ := List.mem_map.mp hmem
    exact List.mem_append_right _ (hi.stored row (List.mem_filter.mp (List.mem_of_mem_take hrow)).1)

theorem readGroup_yields {count : Nat} (hi : Kept fleet s) (h : Held t [] [] s) :
    (accountRules fleet).Yields t (Read t) (Prog.attempt (perform (.readGroup count))) s := by
  refine attempt_yields (Safe.perform fun s' hi hr reply _ => ?_) hi
  have h := h.spared hr
  obtain ⟨hkeeps, hread, hheld⟩ := readGroup_held (min count reply.ready) hi h
  have hgo := goOn_eq (List.subset_nil.mp h.1)
  obtain ⟨fate, ready, scan, trimmed, clock, advances, chosen, change⟩ := reply
  cases fate with
  | served => exact ⟨hkeeps, hread⟩
  | unheard e => exact ⟨hkeeps, hheld⟩
  | unsent e =>
    have hkept : (accountRules fleet).Keeps t s' (s'.goOn t) ∧ Held t [] [] (s'.goOn t) := by
      rw [hgo]
      exact ⟨.refl _ hi, h⟩
    exact hkept

theorem iterMessages_yields (messages : List (Nat × Fields)) (hsub : messages.map (fun row => Event.added row.1 row.2) ⊆ facts)
    (hi : Kept fleet s) (h : Held (.consumer n) [] facts s) :
    (accountRules fleet).Yields (.consumer n) (After (.consumer n) [] []) (iterMessages (fleet.consumers n) messages) s := by
  induction messages generalizing s with
  | nil => exact Yields.ret (h.only (List.nil_subset _))
  | cons first rest ih =>
    rw [List.map_cons] at hsub
    refine Yields.bind hi (consumeEntry_yields hi (hsub List.mem_cons_self) h) fun _ s hi h => ?_
    exact ih (List.Subset.trans (List.subset_cons_self _ _) hsub) hi h

theorem cede_maintains : (accountRules fleet).Maintains t (Held t ids facts) cede := by
  refine .bind (plain_maintains rfl) fun advances => ?_
  cases advances with
  | true => exact .ret ()
  | false => exact .raise _

theorem idle_yields (hi : Kept fleet s) (h : Held t [] [] s) : (accountRules fleet).Yields t (After t [] []) idle s := by
  have hsleep : (accountRules fleet).Maintains t (Held t [] []) (Prog.attempt (perform .sleep)) := .attempt (plain_maintains rfl)
  refine Yields.bind hi (.of_maintains hsleep hi h) fun r s hi h => ?_
  cases r with
  | error e => exact Yields.ret h
  | ok _ => exact Yields.bind hi (.of_maintains cede_maintains hi h) fun _ s _ h => Yields.ret h

theorem readNew_yields (hi : Kept fleet s) (h : Held (.consumer n) [] [] s) :
    (accountRules fleet).Yields (.consumer n) (After (.consumer n) [] []) (readNew (fleet.consumers n)) s := by
  refine Yields.bind hi (readGroup_yields hi h) fun r s hi h => ?_
  match r with
  | .error e => exact Yields.ret h
  | .ok [] => exact idle_yields hi h
  | .ok (row :: rest) => exact iterMessages_yields _ (fun _ h => h) hi h

theorem After.held {caught : Caught} (h : After t [] [] caught s) : Held t [] [] s := by
  cases caught with
  | error e | ok _ => exact h

theorem sweepIfDue_yields (nextReclaimAt : Int) (hi : Kept fleet s) (h : Held (.consumer n) [] [] s) :
    (accountRules fleet).Yields (.consumer n) (fun _ => Held (.consumer n) [] [])
      (sweepIfDue (fleet.consumers n) fleet.pages nextReclaimAt) s := by
  refine Yields.bind hi (.of_maintains (plain_maintains rfl) hi h) fun clock s hi h => ?_
  split
  · refine Yields.bind hi (.of_maintains (plain_maintains rfl) hi h) fun clock s hi h => ?_
    exact Yields.bind hi (reclaimPending_yields _ _ hi h) fun swept s _ h => Yields.ret h.held
  · exact Yields.ret h

theorem ensureConsumerGroup_maintains : (accountRules fleet).Maintains t (Held t ids facts) ensureConsumerGroup := by
  refine .handle (plain_maintains rfl) fun e => ?_
  split
  · exact .ret ()
  · exact .raise _

theorem recover_maintains (caught : Caught) : (accountRules fleet).Maintains t (Held t ids facts) (recover caught) := by
  unfold recover
  split
  · exact .ret true
  · exact .ret false
  · exact .bind (plain_maintains rfl) fun _ => .bind cede_maintains fun _ => .ret true
  · exact .bind ensureConsumerGroup_maintains fun _ => .bind (plain_maintains rfl) fun _ => .ret true
  · exact .bind (plain_maintains rfl) fun _ => .ret true

theorem readLoop_yields (turns : Nat) (nextReclaimAt : Int) (hi : Kept fleet s) (h : Held (.consumer n) [] [] s) :
    (accountRules fleet).Yields (.consumer n) (fun _ _ => True) (readLoop (fleet.consumers n) fleet.pages turns nextReclaimAt) s := by
  induction turns generalizing nextReclaimAt s with
  | zero => exact Yields.ret trivial
  | succ turns ih =>
    refine Yields.bind hi (sweepIfDue_yields nextReclaimAt hi h) fun swept s hi h => ?_
    obtain ⟨swept, nextReclaimAt⟩ := swept
    refine Yields.bind hi (M := fun _ => Held (.consumer n) [] []) ?_ fun read s hi h => ?_
    · cases swept with
      | error e => exact Yields.ret h
      | ok _ => exact (readNew_yields hi h).conseq hi fun r s _ h a ha => (h a ha).held
    · refine Yields.bind hi (.of_maintains (recover_maintains read) hi h) fun goesOn s hi h => ?_
      cases goesOn with
      | true => exact ih _ hi h
      | false => exact Yields.ret trivial

theorem caller_yields (hi : Kept fleet s) : (accountRules fleet).Yields t (fun _ _ => True) caller s := by
  refine Yields.bind hi (M := fun id => Held t (s.toldTo t) [.asked id]) ?_ fun id s hi h => ?_
  · refine Safe.perform fun s' hi hr reply _ => ?_
    have hrun : consumerWorld.run t .choose reply s' = (State.choose reply.chosen s' : Except Exn Nat × State) := rfl
    rw [hrun]
    unfold State.choose
    split
    · have hk : Kept fleet (s'.record [.asked reply.chosen]) := by
        refine notes_kept hi rfl rfl rfl rfl (fun event hmem => ?_) (fun _ _ h => .inl h) ?_
        · rw [List.mem_singleton.mp hmem]
          rfl
        · simp
      obtain ⟨hkeeps, hheld⟩ := @held_step _ t _ _ (s.toldTo t) [] _ hk rfl rfl ⟨hr.told ▸ fun _ h => h, List.nil_subset _⟩
      refine ⟨hkeeps, fun id heq => ?_⟩
      cases heq
      exact hheld
    · exact ⟨.refl _ hi, nofun⟩
  · exact (ack_maintains (List.mem_singleton_self _) s hi h).conseq hi fun _ _ _ _ _ _ => trivial

theorem account_ends (t : Party) (r : Option (Except Exn Unit)) (hi : Kept fleet s) : (accountRules fleet).Ends t r s :=
  ⟨abandon_keeps hi, abandon_toldTo⟩

theorem body_accounts (t : Party) (hi : Kept fleet s) (hrest : s.toldTo t = []) :
    (accountRules fleet).Safe t ((accountRules fleet).Finishes t) (body fleet t) s := by
  cases t with
  | consumer n =>
    have hheld : Held (.consumer n) [] [] s := ⟨by rw [hrest]; exact List.nil_subset _, List.nil_subset _⟩
    refine (Yields.bind hi (.of_maintains ensureConsumerGroup_maintains hi hheld) fun _ s hi h => readLoop_yields _ 0 hi h).conseq hi ?_
    exact fun r s hi _ => account_ends _ (some r) hi
  | caller n => exact (caller_yields hi).conseq hi fun r s hi _ => account_ends _ (some r) hi
  | outside n =>
    refine Safe.perform fun s' hi hr reply _ => ?_
    have hk := change_kept reply.change hi
    have hkeeps : (accountRules fleet).Keeps (.outside n) s' (reply.change.apply s') := by
      refine kept_keeps hk ?_ ?_
      · cases reply.change with
        | add fields trimmed => exact List.subset_cons_self _ _
        | trim trimmed => exact fun _ h => h
      · cases reply.change <;> exact fun _ _ => rfl
    exact ⟨hkeeps, account_ends _ _ hk⟩

end Programs

/-- From the empty stream on, whatever fails and whoever crashes, every entry has its account. -/
theorem entries_accounted (fleet : Fleet) (c : Config consumerWorld)
    (h : Reaches (body fleet) anyMove (Config.idle State.empty) c) : Accounted fleet c.state := by
  have hempty : Kept fleet State.empty := ⟨⟨nofun, nofun, nofun, nofun, nofun⟩, nofun, nofun, nofun⟩
  exact (reaches_sound (Sound.idle hempty fun _ => rfl) (fun t s hi hrest _ => body_accounts t hi hrest)
    (fun t s hi _ => account_ends t none hi) h).inv.toAccounted

def sampleSchema : Schema where
  jsonLoads text := if text = "\x7b" then .error "Expecting property name: line 1 column 2" else .ok (.text text)
  validateToleratingAdditions data := .ok data
  hasLegacyRecipientField _ := false

def malformed : Fields := [("data", "\x7b")]

def typedFleet : Fleet := ⟨fun _ => ⟨sampleSchema, .consumeTyped, 1, true, 60⟩, 5, 5⟩

def answered (change : Change) (scan : ClaimScan) : Reply := ⟨.served, 1, scan, 0, 0, true, 0, change⟩

def nothingDue : ClaimScan := ⟨0, [], [], []⟩

def publishes (execution : Nat) (change : Change) : List (Turn consumerWorld) :=
  [.start (.outside execution), .call (.outside execution) fun _ => answered change nothingDue]

def works (n calls : Nat) (scan : ClaimScan) : List (Turn consumerWorld) :=
  List.replicate calls (.call (.consumer n) fun _ => answered (.trim 0) scan)

def poisoned : List (Turn consumerWorld) := publishes 0 (.add malformed 0) ++ .start (.consumer 0) :: works 0 7 nothingDue

theorem sample_entries_accounted :
    Accounted typedFleet ((Config.idle State.empty).play (body typedFleet) poisoned).state ∧
      ((Config.idle State.empty).play (body typedFleet) poisoned).state.deadLetters =
        [⟨1, .decodeError, "Expecting property name: line 1 column 2", malformed⟩] ∧
      ((Config.idle State.empty).play (body typedFleet) poisoned).state.pending = [] :=
  ⟨entries_accounted typedFleet _ (play_reaches_anyMove _ _ poisoned), by decide +kernel, by decide +kernel⟩

/-- The entry is undelivered, pending, acknowledged as its handler asked, in the dead-letter
stream, or counted as lost. -/
def State.Conserves (s : State) (id : Nat) : Prop :=
  .delivered id ∉ s.trace ∨ id ∈ s.pending ∨ .acked id false ∈ s.trace ∨ (∃ letter ∈ s.deadLetters, letter.entryId = id) ∨
    .counted id ∈ s.trace

/-- One consumer crashes with the entry in hand, the stream is trimmed, and the next consumer
crashes once Redis has told it so. -/
def lostSilently : List (Turn consumerWorld) :=
  publishes 0 (.add [("data", "1")] 0) ++ .start (.consumer 0) :: works 0 5 nothingDue ++ [.stop (.consumer 0)] ++
    publishes 1 (.trim 1) ++ .start (.consumer 1) :: works 1 4 ⟨0, [], [], [1]⟩ ++ [.stop (.consumer 1)]

theorem entry_lost_silently : ¬ (∀ (fleet : Fleet) (c : Config consumerWorld), Reaches (body fleet) anyMove (Config.idle State.empty) c →
    ∀ id fields, .added id fields ∈ c.state.trace → c.state.Conserves id) ∧
      decodeEntry sampleSchema malformed = .error "Expecting property name: line 1 column 2" ∧
      Consumer.reading ⟨sampleSchema, .consume true, 1, false, 60⟩ malformed = some (flat malformed) := by
  have htrace : ((Config.idle State.empty).play (body typedFleet) lostSilently).state.trace =
      [.missed 1, .dropped 1, .delivered 1, .added 1 [("data", "1")]] := by rfl
  have hpending : ((Config.idle State.empty).play (body typedFleet) lostSilently).state.pending = [] := by decide +kernel
  have hletters : ((Config.idle State.empty).play (body typedFleet) lostSilently).state.deadLetters = [] := by decide +kernel
  refine ⟨fun h => ?_, by rfl, by rfl⟩
  have hconserves := h typedFleet _ (play_reaches_anyMove _ _ lostSilently) 1 [("data", "1")] (by rw [htrace]; simp)
  unfold State.Conserves at hconserves
  rw [htrace, hpending, hletters] at hconserves
  simp at hconserves

end Orchestrator.Consumers
