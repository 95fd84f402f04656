import Orchestrator.Servers.Sync

/-!
Who is provisioned: every trigger follows a reading of the server that passes
the policy, what a completed cycle finds unauthorized it has reserved, and a
promotion alone triggers nothing.
-/

namespace Orchestrator.ServerSync

open Async
open Placement (ServerStatus)
open Servers (Server)

def acts (trace : List Event) : List Event := trace.filter fun
  | .administered _ => false
  | _ => true

def eligible (handle : String) : List Event → Bool
  | [] => true
  | .administered other :: older => other == handle || eligible handle older
  | .discovered other :: older => other == handle || eligible handle older
  | .promoted other :: older => other != handle && eligible handle older
  | _ :: older => eligible handle older

def owes (handle : String) : List Event → Bool
  | [] => false
  | .ended _ :: _ => false
  | .reserved other :: older => other != handle && owes handle older
  | .vetted server ids :: older => (server.handle == handle && !allowed ids server) || owes handle older
  | _ :: older => owes handle older

def Due : Event → List Event → Prop
  | .published handle, older => eligible handle older = true ∧ ∃ server ids rest,
      acts older = .vetted server ids :: .fetched server :: rest ∧ server.handle = handle ∧ allowed ids server = true
  | .ended true, older => ∀ handle, owes handle older = false
  | _, _ => True

def OutsideChange.settled (s : State) : OutsideChange → Prop
  | .service row => scheduled row = true → eligible row.handle s.trace = true
  | _ => True

/-- A promotion that leaves the status alone finds no scheduled one, and a service schedules no server
that was promoted since an administrator scheduled it. -/
def settled (s : State) : Move syncWorld → Prop
  | .call .scheduler (.updateServer handle update) _ => update.isManaged = some true → update.status = none →
      ∀ row ∈ s.rows, row.handle = handle → scheduled row = false
  | .call (.outside _) .outside reply => OutsideChange.settled s reply.change
  | _ => True

structure Consistent (s : State) : Prop where
  clean : Clean Due s.trace
  rows : ∀ row ∈ s.rows, scheduled row = true → eligible row.handle s.trace = true

structure Tolerates (s s' : State) : Prop where
  acts : acts s'.trace = acts s.trace
  eligible : ∀ handle, eligible handle s.trace = true → eligible handle s'.trace = true
  owes : ∀ handle, owes handle s'.trace = owes handle s.trace

def Settled (s : State) : Prop := ∀ handle, owes handle s.trace = false

abbrev triggers : Rules syncWorld where
  admits := settled
  inv := Consistent
  rely t s s' := t = .scheduler → Tolerates s s'
  rely_refl _ _ _ := ⟨rfl, fun _ h => h, fun _ => rfl⟩
  rely_trans h h' ht := ⟨(h' ht).acts.trans (h ht).acts, fun handle hs => (h' ht).eligible handle ((h ht).eligible handle hs),
    fun handle => ((h' ht).owes handle).trans ((h ht).owes handle)⟩
  rest t s := t = .scheduler → Settled s
  rest_stable _ h hrest ht handle := ((h ht).owes handle).trans (hrest ht handle)

structure Fine (owed : String → Prop) (rows : List Server) (s : State) : Prop where
  settled : ∀ handle, owes handle s.trace = true → owed handle
  eligible : ∀ row ∈ rows, scheduled row = true → eligible row.handle s.trace = true

abbrev FineBut (handle : String) (owed : String → Prop) : List Server → State → Prop :=
  Fine fun other => owed other ∨ other = handle

section Calls

variable {s : State} {owed : String → Prop} {rows : List Server} {handle : String} {update : ServerUpdate}

theorem Fine.tolerates {s' : State} (h : Fine owed rows s) (hr : Tolerates s s') : Fine owed rows s' :=
  ⟨fun handle howes => h.settled handle ((hr.owes handle).symm.trans howes),
    fun row hrow hscheduled => hr.eligible _ (h.eligible row hrow hscheduled)⟩

theorem fine_stable : triggers.Stable .scheduler (Fine owed rows) := fun _ _ _ hr h => h.tolerates (hr rfl)

theorem keeps {s s' : State} (hi : Consistent s') : triggers.Keeps .scheduler s s' :=
  ⟨hi, fun _ hu ht => absurd ht hu⟩

variable {older : List Event}

variable {other : String}

theorem eligible_marks : eligible other (State.marks handle update ++ older) =
    ((update.isManaged != some true || handle != other) && eligible other older) := by
  unfold State.marks
  by_cases hmanaged : update.isManaged = some true <;> by_cases hstatus : update.status = some .reserved <;>
    simp [hmanaged, hstatus, eligible, bne]

theorem owes_marks : owes other (State.marks handle update ++ older) =
    ((update.status != some .reserved || handle != other) && owes other older) := by
  unfold State.marks
  by_cases hmanaged : update.isManaged = some true <;> by_cases hstatus : update.status = some .reserved <;>
    simp [hmanaged, hstatus, owes, bne]

def Sparing (handle : String) (update : ServerUpdate) (s : State) : Prop :=
  ∀ status, update.status = some status → scheduledStatuses.contains status = true →
    update.isManaged ≠ some true ∧ eligible handle s.trace = true

theorem updateServer_consistent (hi : Consistent s) (hsparing : Sparing handle update s)
    (hpromote : update.isManaged = some true → update.status = none →
      ∀ row ∈ s.rows, row.handle = handle → scheduled row = false) :
    Consistent (State.updateServer handle update s).2 := by
  unfold State.updateServer
  split
  · refine ⟨hi.clean.append fun event hmem log => ?_, fun written hwritten hscheduled => ?_⟩
    · unfold State.marks at hmem
      rcases List.mem_append.mp hmem with hmem | hmem <;> split at hmem <;>
        simp only [List.mem_singleton, List.not_mem_nil] at hmem <;> subst hmem <;> trivial
    · obtain ⟨row, hrow, rfl⟩ := List.mem_map.mp hwritten
      dsimp only at hscheduled ⊢
      rw [eligible_marks]
      by_cases heq : row.handle = handle
      · rw [if_pos heq] at hscheduled ⊢
        have hhandle : (update.apply row).handle = row.handle := rfl
        cases hstatus : update.status with
        | none =>
          have hbefore : scheduled row = true := by
            simpa only [scheduled, ServerUpdate.apply, hstatus, Option.getD_none] using hscheduled
          have hmanaged : update.isManaged ≠ some true := fun hmanaged => by
            have := hpromote hmanaged hstatus row hrow heq
            rw [hbefore] at this
            cases this
          rw [hhandle, bne_iff_ne.mpr hmanaged, Bool.true_or, Bool.true_and]
          exact hi.rows row hrow hbefore
        | some status =>
          have hnew : scheduledStatuses.contains status = true := by
            simpa only [scheduled, ServerUpdate.apply, hstatus, Option.getD_some] using hscheduled
          obtain ⟨hmanaged, heligible⟩ := hsparing status hstatus hnew
          rw [hhandle, heq, bne_iff_ne.mpr hmanaged, Bool.true_or, Bool.true_and]
          exact heligible
      · rw [if_neg heq] at hscheduled ⊢
        rw [bne_iff_ne.mpr (Ne.symm heq), Bool.or_true, Bool.true_and]
        exact hi.rows row hrow hscheduled
  · exact hi

theorem Fine.marked (h : Fine owed rows s) (hrows : update.isManaged = some true → rows = []) :
    Fine owed rows (State.updateServer handle update s).2 := by
  unfold State.updateServer
  split
  · refine ⟨fun other howes => ?_, fun row hrow hscheduled => ?_⟩
    · rw [owes_marks, Bool.and_eq_true] at howes
      exact h.settled other howes.2
    · rw [eligible_marks, Bool.and_eq_true]
      refine ⟨?_, h.eligible row hrow hscheduled⟩
      rw [Bool.or_eq_true]
      left
      refine bne_iff_ne.mpr fun hmanaged => ?_
      rw [hrows hmanaged] at hrow
      cases hrow
  · exact h

theorem updateServer_maintains (hrows : update.isManaged = some true → rows = [])
    (hsparing : ∀ s, Fine owed rows s → Sparing handle update s) :
    triggers.Maintains .scheduler (Fine owed rows) (updateServer handle update) := by
  refine .perform fine_stable (.serve (fun _ _ => rfl) fun s _ hi hfine hok _ => ?_)
  exact ⟨keeps (updateServer_consistent hi (hsparing s hfine) hok), hfine.marked hrows⟩

theorem ask_maintains (call : ServiceCall) : triggers.Maintains .scheduler (Fine owed rows) (ask call) :=
  .perform fine_stable fun _ hi hfine _ _ => ⟨keeps hi, hfine⟩

theorem managedIds_maintains : triggers.Maintains .scheduler (Fine owed rows) managedIds :=
  .perform fine_stable fun _ hi hfine _ _ => ⟨keeps hi, hfine⟩

theorem getServers_maintains (status : Option ServerStatus) :
    triggers.Maintains .scheduler (Fine owed rows) (getServers status) :=
  .perform fine_stable (.serve (fun _ _ => rfl) fun _ _ hi hfine _ _ => ⟨keeps hi, hfine⟩)

theorem createServer_maintains (server : Server) :
    triggers.Maintains .scheduler (Fine owed rows) (perform (.createServer server)) := by
  refine .perform fine_stable (.serve (fun _ _ => rfl) fun s _ hi hfine _ _ => ?_)
  unfold State.createServer
  split
  · exact ⟨keeps hi, hfine⟩
  · refine ⟨keeps ⟨⟨trivial, hi.clean⟩, fun row hrow hscheduled => ?_⟩, hfine.settled, fun row hrow hscheduled => ?_⟩
    · change (server.handle == row.handle || eligible row.handle s.trace) = true
      rcases List.mem_cons.mp hrow with rfl | hrow
      · rw [beq_self_eq_true, Bool.true_or]
      · rw [hi.rows row hrow hscheduled, Bool.or_true]
    · change (server.handle == row.handle || eligible row.handle s.trace) = true
      rw [hfine.eligible row hrow hscheduled, Bool.or_true]

theorem fetched_yields (hfine : Fine owed rows s) :
    triggers.Yields .scheduler (fun server s => Fine owed rows s ∧ server.handle = handle ∧
      ∃ rest, acts s.trace = .fetched server :: rest) (getServer handle) s := by
  refine .perform (fun _ _ => rfl) fun s' reply hi' hr _ _ => ?_
  have hfine' := hfine.tolerates (hr rfl)
  unfold State.getServer
  cases hfind : s'.rows.find? (·.handle = handle) with
  | none => exact ⟨keeps hi', nofun⟩
  | some server =>
    refine ⟨keeps ⟨⟨trivial, hi'.clean⟩, hi'.rows⟩, ?_⟩
    rintro found ⟨⟩
    exact ⟨⟨hfine'.settled, hfine'.eligible⟩, by simpa using List.find?_some hfind, acts s'.trace, rfl⟩

variable {server : Server}

theorem owes_vetted {ids : List Int} :
    owes other (.vetted server ids :: older) = ((server.handle == other && !allowed ids server) || owes other older) := rfl

theorem State.vet_cases (s : State) (server : Server) : (∃ e, s.vet server = (.error e, s)) ∨
    ∃ ids, s.vet server = (.ok (allowed ids server), s.record (.vetted server ids)) := by
  unfold State.vet
  by_cases hmanaged : server.isManaged = true
  · rw [if_pos hmanaged]
    cases managedServerIds s.allowlist with
    | error e => exact .inl ⟨e, rfl⟩
    | ok ids => exact .inr ⟨ids, rfl⟩
  · have hdenied : allowed [] server = false := by rw [allowed, Bool.eq_false_iff.mpr hmanaged, Bool.false_and]
    rw [if_neg hmanaged]
    exact .inr ⟨[], by rw [hdenied]⟩

theorem vetted_yields (hfine : Fine owed rows s) :
    triggers.Yields .scheduler (fun ok s' => (ok = true → Fine owed rows s') ∧ (ok = false → FineBut server.handle owed rows s') ∧
      ∃ ids, acts s'.trace = .vetted server ids :: acts s.trace ∧ ok = allowed ids server) (isProvisioningAllowed server) s := by
  refine Rules.Safe.perform fun s' hi' hr reply _ => ?_
  have hfine' := hfine.tolerates (hr rfl)
  rcases s'.vet_cases server with ⟨e, hvet⟩ | ⟨ids, hvet⟩
  · have hrun : syncWorld.run .scheduler (.vet server) reply s' = (.error e, s') := hvet
    rw [hrun]
    exact ⟨keeps hi', nofun⟩
  · have hrun : syncWorld.run .scheduler (.vet server) reply s' = (.ok (allowed ids server), s'.record (.vetted server ids)) := hvet
    rw [hrun]
    refine ⟨keeps ⟨⟨trivial, hi'.clean⟩, hi'.rows⟩, ?_⟩
    rintro ok ⟨⟩
    refine ⟨fun hok => ⟨fun other howes => ?_, hfine'.eligible⟩, fun hok => ⟨fun other howes => ?_, hfine'.eligible⟩, ids, ?_, rfl⟩
    · change owes other (.vetted server ids :: s'.trace) = true at howes
      rw [owes_vetted, hok, Bool.not_true, Bool.and_false, Bool.false_or] at howes
      exact hfine'.settled other howes
    · change owes other (.vetted server ids :: s'.trace) = true at howes
      rw [owes_vetted, Bool.or_eq_true, Bool.and_eq_true, beq_iff_eq] at howes
      rcases howes with ⟨heq, -⟩ | howes
      · exact .inr heq.symm
      · exact .inl (hfine'.settled other howes)
    · change Event.vetted server ids :: acts s'.trace = _
      rw [(hr rfl).acts]

theorem publishProvisionerTrigger_yields {row : Server} (hi : Consistent s) (hfine : Fine owed rows s) (hrow : row ∈ rows)
    (hscheduled : scheduled row = true) :
    triggers.Yields .scheduler (fun published s => (published = true → Fine owed rows s) ∧
      (published = false → FineBut row.handle owed rows s)) (publishProvisionerTrigger row.handle) s := by
  refine Rules.Yields.bind hi (fetched_yields hfine) fun server s₁ hi₁ ⟨hfine₁, hhandle, rest, hacts⟩ => ?_
  refine Rules.Yields.bind hi₁ (vetted_yields hfine₁) fun ok s₂ hi₂ ⟨hok, hdenied, ids, hacts₂, hallowed⟩ => ?_
  cases ok with
  | false => exact Rules.Yields.ret ⟨nofun, fun _ => hhandle ▸ hdenied rfl⟩
  | true =>
    have hfine₂ := hok rfl
    refine Rules.Yields.bind (M := fun _ s => Fine owed rows s) hi₂ ?_ fun _ s₃ _ hfine₃ => Rules.Yields.ret ⟨fun _ => hfine₃, nofun⟩
    refine .perform (fun _ _ => rfl) fun s' reply hi' hr _ _ => ?_
    have hfine' := hfine₂.tolerates (hr rfl)
    have hdue : Due (.published row.handle) s'.trace := by
      refine ⟨hfine'.eligible row hrow hscheduled, server, ids, rest, ?_, hhandle, hallowed.symm⟩
      rw [(hr rfl).acts, hacts₂, hacts]
    exact ⟨keeps ⟨⟨hdue, hi'.clean⟩, hi'.rows⟩, fun _ _ => ⟨hfine'.settled, hfine'.eligible⟩⟩

theorem reserve_yields (hfine : FineBut handle owed rows s) :
    triggers.Yields .scheduler (fun _ s => Fine owed rows s) (updateServer handle reserve) s := by
  refine .perform (fun _ _ => rfl) fun s' reply hi' hr hok _ => ?_
  have hfine' := hfine.tolerates (hr rfl)
  have hsparing : Sparing handle reserve s' := by
    rintro status ⟨⟩ hcontains
    exact absurd hcontains (by decide)
  refine ⟨keeps (updateServer_consistent hi' hsparing hok), ?_⟩
  unfold State.updateServer
  split
  · refine fun _ _ => ⟨fun other howes => ?_, fun row hrow hscheduled => ?_⟩
    · rw [owes_marks, Bool.and_eq_true] at howes
      obtain ⟨hother, howes⟩ := howes
      refine (hfine'.settled other howes).resolve_right fun heq => ?_
      subst heq
      simp [reserve] at hother
    · rw [eligible_marks, Bool.and_eq_true]
      exact ⟨rfl, hfine'.eligible row hrow hscheduled⟩
  · exact nofun

theorem neutralize_yields (hi : Consistent s) (hfine : FineBut server.handle owed rows s) :
    triggers.Yields .scheduler (fun _ s => Fine owed rows s) (neutralizeUnauthorizedTrigger server) s :=
  Rules.Yields.bind hi (reserve_yields hfine) fun _ _ hi' hfine' => .of_maintains (ask_maintains _) hi' hfine'

end Calls

section Triggers

variable {s : State} {owed : String → Prop} {rows : List Server}

abbrev Fair (owed : String → Prop) (rows : List Server) {A : Type} (p : Job A) (s : State) : Prop :=
  triggers.Yields .scheduler (fun _ s => Fine owed rows s) p s

theorem fair_forEach {xs : List Server} {p : Server → Job Unit} (hp : ∀ x ∈ xs, ∀ s, Consistent s → Fine owed rows s →
    Fair owed rows (p x) s) (hi : Consistent s) (hfine : Fine owed rows s) : Fair owed rows (Prog.forEach xs p) s := by
  induction xs generalizing s with
  | nil => exact Rules.Yields.ret hfine
  | cons x xs ih =>
    refine Rules.Yields.bind hi (hp x List.mem_cons_self s hi hfine) fun _ s' hi' hfine' => ?_
    exact ih (fun y hy => hp y (List.mem_cons_of_mem _ hy)) hi' hfine'

variable {server : Server}

theorem transitionAndPublish_yields {transition : ServerUpdate} (hserver : server ∈ rows)
    (hscheduled : scheduled server = true) (hmanaged : transition.isManaged = none) (hi : Consistent s) (hfine : Fine owed rows s) :
    Fair owed rows (transitionAndPublish server transition) s := by
  have hwrite : triggers.Maintains .scheduler (Fine owed rows) (updateServer server.handle transition) := by
    refine updateServer_maintains (fun h => ?_) fun s hfine _ _ _ => ⟨?_, hfine.eligible server hserver hscheduled⟩
    · rw [hmanaged] at h
      cases h
    · rw [hmanaged]
      exact nofun
  refine Rules.Yields.bind hi (.of_maintains hwrite hi hfine) fun _ s₁ hi₁ hfine₁ => ?_
  refine Rules.Yields.bind hi₁ (publishProvisionerTrigger_yields hi₁ hfine₁ hserver hscheduled) fun published s₂ hi₂ hpublished => ?_
  cases published with
  | true => exact Rules.Yields.ret (hpublished.1 rfl)
  | false =>
    refine Rules.Yields.bind hi₂ (reserve_yields (hpublished.2 rfl)) fun _ s₃ hi₃ hfine₃ => ?_
    exact Rules.Yields.bind hi₃ (.of_maintains (ask_maintains _) hi₃ hfine₃) fun _ _ _ h => Rules.Yields.ret h

theorem trigger_yields {rule : TriggerRule} (hserver : server ∈ rows) (hscheduled : scheduled server = true)
    (hmanaged : rule.transition.isManaged = none) (hi : Consistent s) (hfine : Fine owed rows s) :
    Fair owed rows (trigger server rule) s := by
  refine Rules.Yields.bind hi (transitionAndPublish_yields hserver hscheduled hmanaged hi hfine) fun published s₁ hi₁ hfine₁ => ?_
  by_cases hnotify : (published && server.status = .forceRebuild) = true
  · rw [if_pos hnotify]
    exact .of_maintains (ask_maintains _) hi₁ hfine₁
  · rw [if_neg hnotify]
    exact Rules.Yields.ret hfine₁

theorem considerTrigger_yields {stuckTimeout cooldown now : Int} (hserver : server ∈ rows)
    (hscheduled : scheduled server = true) (hi : Consistent s) (hfine : Fine owed rows s) :
    Fair owed rows (considerTrigger stuckTimeout cooldown now server) s := by
  have hrule : (triggerRule stuckTimeout cooldown now server.status).transition.isManaged = none := by
    unfold triggerRule
    split <;> rfl
  have hmark : triggers.Maintains .scheduler (Fine owed rows)
      (updateServer server.handle { provisioningStartedAt := some (some now) }) :=
    updateServer_maintains nofun fun _ _ _ h => nomatch h
  unfold considerTrigger
  dsimp only
  split
  · split
    · exact .of_maintains hmark hi hfine
    · exact trigger_yields hserver hscheduled hrule hi hfine
  · split
    · exact Rules.Yields.ret hfine
    · exact trigger_yields hserver hscheduled hrule hi hfine

theorem actionable_yields {servers : List Server} (hi : Consistent s) (hfine : Fine owed rows s) :
    triggers.Yields .scheduler (fun found s => Fine owed rows s ∧ ∀ server ∈ found, server ∈ servers ∧ scheduled server = true)
      (actionable servers) s := by
  induction servers generalizing s with
  | nil => exact Rules.Yields.ret ⟨hfine, (List.forall_mem_nil _)⟩
  | cons server rest ih =>
    have hrest {s : State} (hi : Consistent s) (hfine : Fine owed rows s) :
        triggers.Yields .scheduler (fun found s => Fine owed rows s ∧
          ∀ other ∈ found, other ∈ server :: rest ∧ scheduled other = true) (actionable rest) s :=
      Rules.Safe.conseq hi (ih hi hfine) fun _ _ _ hpost found heq =>
        ⟨(hpost found heq).1, fun other hother => ⟨List.mem_cons_of_mem _ ((hpost found heq).2 other hother).1,
          ((hpost found heq).2 other hother).2⟩⟩
    unfold actionable
    by_cases hscheduled : scheduled server = true
    · rw [if_pos hscheduled]
      refine Rules.Yields.bind hi (vetted_yields hfine) fun ok s₁ hi₁ hok => ?_
      cases ok with
      | true =>
        refine Rules.Yields.bind hi₁ (hrest hi₁ (hok.1 rfl)) fun found s₂ _ hfound => Rules.Yields.ret ⟨hfound.1, ?_⟩
        intro other hother
        rcases List.mem_cons.mp hother with rfl | hother
        · exact ⟨List.mem_cons_self, hscheduled⟩
        · exact hfound.2 other hother
      | false => exact Rules.Yields.bind hi₁ (neutralize_yields hi₁ (hok.2.1 rfl)) fun _ _ hi₂ hfine₂ => hrest hi₂ hfine₂
    · rw [if_neg hscheduled]
      exact hrest hi hfine

theorem getServers_yields {status : Option ServerStatus} (hfine : Fine owed [] s) :
    triggers.Yields .scheduler (fun rows s => Fine owed rows s ∧ ∀ row ∈ rows, status.all (row.status = ·) = true)
      (getServers status) s := by
  refine .perform (fun _ _ => rfl) fun s' reply hi' hr _ _ => ⟨keeps hi', ?_⟩
  rintro rows ⟨⟩
  have hfine' := hfine.tolerates (hr rfl)
  exact ⟨⟨hfine'.settled, fun row hrow => hi'.rows row (List.mem_of_mem_filter hrow)⟩,
    fun row hrow => (List.mem_filter.mp hrow).2⟩

theorem Fine.forget (h : Fine owed rows s) : Fine owed [] s := ⟨h.settled, (List.forall_mem_nil _)⟩

theorem checkProvisioningTriggers_yields {stuckTimeout cooldown : Int} (hi : Consistent s) (hfine : Fine owed [] s) :
    Fair owed [] (checkProvisioningTriggers stuckTimeout cooldown) s := by
  refine Rules.Yields.bind (M := fun _ s => Fine owed [] s) hi (.of_maintains (ask_maintains _) hi hfine) fun now s₁ hi₁ hfine₁ => ?_
  refine Rules.Yields.bind hi₁ (getServers_yields hfine₁) fun rows s₂ hi₂ ⟨hfine₂, _⟩ => ?_
  refine Rules.Yields.bind hi₂ (actionable_yields hi₂ hfine₂) fun found s₃ hi₃ ⟨hfine₃, hfound⟩ => ?_
  refine Rules.Safe.conseq hi₃ (fair_forEach ?_ hi₃ hfine₃) fun _ _ _ hpost a heq => (hpost a heq).forget
  exact fun server hserver s hi hfine => considerTrigger_yields (hfound server hserver).1 (hfound server hserver).2 hi hfine

theorem retryPendingServers_yields (hi : Consistent s) : Fair (fun _ => True) [] retryPendingServers s := by
  refine Rules.Yields.bind hi (getServers_yields ⟨fun _ _ => trivial, (List.forall_mem_nil _)⟩) fun rows s₁ hi₁ ⟨hfine₁, hpending⟩ => ?_
  refine Rules.Safe.conseq hi₁ (fair_forEach ?_ hi₁ hfine₁) fun _ _ _ hpost a heq => (hpost a heq).forget
  intro server hserver s hi hfine
  have hscheduled : scheduled server = true := by
    have hstatus : server.status = .pendingSetup := by simpa using hpending server hserver
    rw [scheduled, hstatus]
    rfl
  refine Rules.Yields.bind hi (publishProvisionerTrigger_yields hi hfine hserver hscheduled) fun published s' _ hpublished => ?_
  refine Rules.Yields.ret ⟨fun _ _ => trivial, ?_⟩
  cases published with
  | true => exact (hpublished.1 rfl).eligible
  | false => exact (hpublished.2 rfl).eligible

end Triggers

section Sync

variable {owed : String → Prop} {ids : List Int} {rows : List Server}

theorem reconciledStatus_unscheduled {existing : Server} {shouldManage : Bool} {status : ServerStatus}
    (h : reconciledStatus existing shouldManage = some status) : scheduledStatuses.contains status = false := by
  unfold reconciledStatus at h
  split at h
  · cases h
    rfl
  · split at h
    · cases h
      cases shouldManage <;> rfl
    · cases h

theorem unscheduled_maintains {handle : String} {update : ServerUpdate}
    (h : ∀ status, update.status = some status → scheduledStatuses.contains status = false) :
    triggers.Maintains .scheduler (Fine owed []) (updateServer handle update) :=
  updateServer_maintains (fun _ => rfl) fun _ _ status heq hcontains => nomatch (h status heq).symm.trans hcontains

theorem reconcileExistingServer_maintains (existing : Server) (serverId : Int) (ip hostname : String) (shouldManage : Bool) :
    triggers.Maintains .scheduler (Fine owed []) (reconcileExistingServer existing serverId ip hostname shouldManage) := by
  unfold reconcileExistingServer
  dsimp only
  split
  · exact .ret _
  · exact (unscheduled_maintains fun _ => reconciledStatus_unscheduled).bind fun _ => .ret _

theorem syncServer_maintains (srv : ProviderServer) :
    triggers.Maintains .scheduler (Fine owed []) (syncServer ids rows srv) := by
  unfold syncServer
  by_cases hskip : srv.ip = "" ∨ srv.id = 0
  · rw [if_pos hskip]
    exact .ret _
  · rw [if_neg hskip]
    split
    · exact reconcileExistingServer_maintains _ _ _ _ _
    · exact (createServer_maintains _).bind fun _ => .ret _

theorem syncEach_maintains (servers : List ProviderServer) :
    triggers.Maintains .scheduler (Fine owed []) (syncEach ids rows servers) := by
  induction servers with
  | nil => exact .ret _
  | cons srv rest ih => exact (syncServer_maintains srv).bind fun _ => ih.bind fun _ => .ret _

theorem markMissing_maintains (servers : List ProviderServer) (row : Server) :
    triggers.Maintains .scheduler (Fine owed []) (markMissing servers row) := by
  unfold markMissing
  split
  · refine unscheduled_maintains fun _ heq => ?_
    cases heq
    rfl
  · exact .ret _

theorem reportManagementChange_maintains (change : ManagementChange) :
    triggers.Maintains .scheduler (Fine owed []) (reportManagementChange rows change) := by
  unfold reportManagementChange
  split
  · exact .raise _
  · refine .bind ?_ fun _ => ask_maintains _
    split
    · refine (unscheduled_maintains fun _ heq => ?_).bind fun _ => ask_maintains _
      cases heq
      rfl
    · exact .ret _

theorem syncServerList_maintains : triggers.Maintains .scheduler (Fine owed []) syncServerList := by
  refine .bind ?_ fun servers => (ask_maintains _).bind fun _ => managedIds_maintains.bind fun ids =>
    (getServers_maintains _).bind fun rows => (syncEach_maintains servers).bind fun changes => .bind ?_ fun _ => .bind ?_ fun _ =>
      ask_maintains _
  · exact (ask_maintains _).handle fun e => (ask_maintains _).bind fun _ => .raise e
  · exact .forEach fun row _ => markMissing_maintains servers row
  · refine .bind (.forEach fun change _ => reportManagementChange_maintains change) fun _ => ?_
    split
    · exact ask_maintains _
    · exact .ret _

theorem syncDetails_maintains (row : Server) : triggers.Maintains .scheduler (Fine owed []) (syncDetails row) := by
  unfold syncDetails
  split
  · exact .ret _
  · refine .handle ((ask_maintains _).bind fun (active : Bool) => unscheduled_maintains fun status heq => ?_) fun _ => .ret _
    dsimp only at heq
    split at heq
    · cases heq
      rfl
    · cases heq

theorem maybeSyncDetails_maintains : triggers.Maintains .scheduler (Fine owed []) maybeSyncDetails := by
  refine .bind (ask_maintains _) fun (due : Bool) => ?_
  split
  · exact (getServers_maintains _).bind fun rows => .forEach fun row _ => syncDetails_maintains row
  · exact .ret _

end Sync

section Runs

variable {stuckTimeout cooldown : Int} {c : Config syncWorld}

variable {s : State}

theorem settled_iff : Settled s ↔ Fine (fun _ => False) [] s := by
  refine ⟨fun h => ⟨fun handle howes => ?_, (List.forall_mem_nil _)⟩, fun h handle => ?_⟩
  · rw [h handle] at howes
    cases howes
  · exact Bool.eq_false_iff.mpr (h.settled handle)

theorem syncServers_yields (hi : Consistent s) (h : Settled s) :
    triggers.Yields .scheduler (fun done s => done = true → Settled s) (syncServers stuckTimeout cooldown) s := by
  refine Rules.Yields.handle hi ?_ fun e s' _ => Rules.Yields.ret nofun
  refine Rules.Yields.bind (M := fun _ s => Fine (fun _ => False) [] s) hi (.of_maintains (ask_maintains _) hi (settled_iff.mp h))
    fun client s₁ hi₁ h₁ => ?_
  split
  · refine Rules.Yields.bind hi₁ (.of_maintains syncServerList_maintains hi₁ h₁) fun _ s₂ hi₂ h₂ => ?_
    refine Rules.Yields.bind hi₂ (.of_maintains maybeSyncDetails_maintains hi₂ h₂) fun _ s₃ hi₃ h₃ => ?_
    refine Rules.Yields.bind hi₃ (checkProvisioningTriggers_yields hi₃ h₃) fun _ s₄ hi₄ h₄ => ?_
    refine Rules.Yields.bind hi₄ (.of_maintains (ask_maintains _) hi₄ h₄) fun _ _ _ h₅ => Rules.Yields.ret fun _ => settled_iff.mpr h₅
  · exact Rules.Yields.ret nofun

theorem schedule_yields (phase : Phase) (hi : Consistent s) (h : Settled s) :
    triggers.Yields .scheduler (fun done s => done = true → Settled s) (schedule stuckTimeout cooldown phase) s := by
  cases phase with
  | startup => exact Rules.Yields.bind hi (retryPendingServers_yields hi) fun _ _ _ _ => Rules.Yields.ret nofun
  | cycle => exact syncServers_yields hi h

def opening (rows : List Server) (allowlist : Option String) : State := ⟨rows, allowlist, []⟩

theorem administrator_tolerated (row : Server) (hi : Consistent s) :
    Consistent ((OutsideChange.administrator row).apply s) ∧ Tolerates s ((OutsideChange.administrator row).apply s) := by
  have hother : ∀ existing ∈ s.rows.filter (·.handle ≠ row.handle), scheduled existing = true →
      eligible existing.handle s.trace = true := fun existing hmem => hi.rows existing (List.mem_of_mem_filter hmem)
  by_cases hrow : scheduled row = true
  · simp only [OutsideChange.apply, if_pos hrow]
    refine ⟨⟨⟨trivial, hi.clean⟩, fun existing hmem hscheduled => ?_⟩, rfl, fun handle h => ?_, fun _ => rfl⟩
    · change (row.handle == existing.handle || eligible existing.handle s.trace) = true
      rcases List.mem_cons.mp hmem with rfl | hmem
      · rw [beq_self_eq_true, Bool.true_or]
      · rw [hother existing hmem hscheduled, Bool.or_true]
    · change (row.handle == handle || eligible handle s.trace) = true
      rw [h, Bool.or_true]
  · simp only [OutsideChange.apply, if_neg hrow]
    refine ⟨⟨hi.clean, fun existing hmem hscheduled => ?_⟩, rfl, fun _ h => h, fun _ => rfl⟩
    rcases List.mem_cons.mp hmem with rfl | hmem
    · exact absurd hscheduled hrow
    · exact hother existing hmem hscheduled

theorem service_tolerated {row : Server} (hsettled : OutsideChange.settled s (.service row)) (hi : Consistent s) :
    Consistent ((OutsideChange.service row).apply s) ∧ Tolerates s ((OutsideChange.service row).apply s) := by
  refine ⟨⟨hi.clean, fun written hwritten hscheduled => ?_⟩, rfl, fun _ h => h, fun _ => rfl⟩
  obtain ⟨existing, hmem, rfl⟩ := List.mem_map.mp hwritten
  by_cases heq : existing.handle = row.handle
  · rw [if_pos heq] at hscheduled ⊢
    exact hsettled hscheduled
  · rw [if_neg heq] at hscheduled ⊢
    exact hi.rows existing hmem hscheduled

theorem reaches_clean {rows : List Server} {allowlist : Option String}
    (h : Reaches (body stuckTimeout cooldown) settled (.idle (opening rows allowlist)) c) : Clean Due c.state.trace := by
  have hends {t : Party} {outcome : Option (Except Exn Bool)} {s : State} (hi : Consistent s)
      (hdone : t = .scheduler → completed outcome = true → Settled s) : triggers.Ends t outcome s := by
    cases t with
    | scheduler =>
      refine ⟨keeps ⟨⟨?_, hi.clean⟩, hi.rows⟩, fun _ _ => rfl⟩
      cases hcompleted : completed outcome with
      | true => exact hdone rfl hcompleted
      | false => trivial
    | outside execution => exact ⟨.refl _ hi, nofun⟩
  have hopening : Consistent (opening rows allowlist) := ⟨trivial, fun _ _ _ => rfl⟩
  refine (Rules.reaches_sound (G := triggers) (.idle hopening fun _ _ _ => rfl) ?_ ?_ h).inv.clean
  · intro t s hi hrest _
    cases t with
    | scheduler =>
      have hbody : triggers.Yields .scheduler (fun done s => done = true → Settled s) (body stuckTimeout cooldown .scheduler) s := by
        refine Rules.Yields.bind (M := fun _ s => Fine (fun _ => False) [] s) hi
          (.of_maintains (ask_maintains _) hi (settled_iff.mp (hrest rfl))) fun phase s₁ hi₁ h₁ => ?_
        exact schedule_yields phase hi₁ (settled_iff.mpr h₁)
      refine hbody.conseq hi fun r s' hi' hpost => hends hi' fun _ hcompleted => ?_
      cases r with
      | ok done => exact hpost done rfl hcompleted
      | error e => cases hcompleted
    | outside execution =>
      refine Rules.Safe.bind (M := fun _ _ => True) hi (Rules.Safe.perform fun s' hi' _ reply hok => ⟨?_, trivial⟩)
        (fun _ s' hi' _ => hends hi' nofun) fun _ s' hi' _ => hends hi' nofun
      have hchange : OutsideChange.settled s' reply.change := hok
      have htolerated : Consistent (reply.change.apply s') ∧ Tolerates s' (reply.change.apply s') := by
        cases hkind : reply.change with
        | administrator row => exact administrator_tolerated row hi'
        | service row => exact service_tolerated (hkind ▸ hchange) hi'
        | setAllowlist raw => exact ⟨⟨hi'.clean, hi'.rows⟩, rfl, fun _ h => h, fun _ => rfl⟩
      exact ⟨htolerated.1, fun _ _ _ => htolerated.2⟩
  · intro t s hi _
    exact hends hi fun _ => nofun

/-- A trigger is published for a server that was read as authorized and that no promotion alone
scheduled, and a completed cycle leaves nobody it found unauthorized unreserved. -/
theorem triggers_authorized {rows : List Server} {allowlist : Option String}
    (h : Reaches (body stuckTimeout cooldown) settled (.idle (opening rows allowlist)) c) {newer older : List Event}
    {event : Event} (htrace : c.state.trace = newer ++ event :: older) : Due event older := by
  have hclean := reaches_clean h
  rw [htrace] at hclean
  exact hclean.split.1

end Runs

instance (s : State) : (change : OutsideChange) → Decidable (OutsideChange.settled s change)
  | .administrator _ | .setAllowlist _ => .isTrue trivial
  | .service row => inferInstanceAs (Decidable (scheduled row = true → eligible row.handle s.trace = true))

instance (s : State) (m : Move syncWorld) : Decidable (settled s m) := by
  unfold settled
  split <;> infer_instance

def sampleRow : Server := ⟨"vps-1", "host", "10.0.0.1", .reserved, false, [("provider_id", .text "1")], none, 0, none⟩

def sampleOpening : State := opening [sampleRow] (some "1")

def sampleService : (call : ServiceCall) → Except Exn call.Res
  | .next => .ok .cycle
  | .getTime4vpsClient => .ok true
  | .getProviderServers => .ok [⟨1, "10.0.0.1", "host"⟩]
  | .detailsDue => .ok false
  | .getServerDetails _ => .ok false
  | .now => .ok (0 : Int)
  | .recordProviderOutage | .resolveProviderOutage | .notifyAdmins _ | .reconcileProvisioningIncidents => .ok ()

def sampleReply (isManaged : Bool) : Reply :=
  ⟨.served, sampleService, .administrator { sampleRow with status := .forceRebuild, isManaged := isManaged }⟩

def cycleTurn : Turn syncWorld := .call .scheduler fun _ => sampleReply false

def scheduledAfter (before : Nat) (isManaged : Bool) : List (Turn syncWorld) :=
  [.start .scheduler] ++ List.replicate before cycleTurn ++
    [.start (.outside 0), .call (.outside 0) fun _ => sampleReply isManaged] ++ List.replicate (19 - before) cycleTurn

def played (before : Nat) (isManaged : Bool) : Config syncWorld :=
  (Config.idle sampleOpening).play (body 600 60) (scheduledAfter before isManaged)

/-- The administrator has seen the promotion: the server is triggered in the same cycle. -/
theorem promoted_then_scheduled : Due (.published "vps-1") ((played 7 true).state.trace.drop 2) := by
  have hreaches : Reaches (body 600 60) settled (.idle sampleOpening) (played 7 true) := play_reaches (by decide +kernel)
  have htrace : (played 7 true).state.trace =
      (played 7 true).state.trace.take 1 ++ .published "vps-1" :: (played 7 true).state.trace.drop 2 := rfl
  exact triggers_authorized hreaches htrace

/-- The status of an unmanaged server is written after the rows are read; the promotion keeps it scheduled. -/
theorem promotion_triggers : ∃ (c : Config syncWorld) (newer older : List Event),
    Reaches (body 600 60) anyMove (.idle sampleOpening) c ∧ c.state.trace = newer ++ .published "vps-1" :: older ∧
      eligible "vps-1" older = false :=
  ⟨played 6 false, (played 6 false).state.trace.take 1, (played 6 false).state.trace.drop 2, play_reaches_anyMove _ _ _, rfl,
    by decide +kernel⟩

end Orchestrator.ServerSync
