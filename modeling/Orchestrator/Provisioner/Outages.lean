import Orchestrator.Provisioner.World

/-!
What a delivery finds of the deliveries before it: the state kept for an outage
is whole, provisioning is not repeated once there is such state, and a result
is published once.
-/

namespace Orchestrator.Provisioner

open Async

def diedPublishing : List Event → Bool
  | [] => false
  | .died :: .published :: _ => true
  | _ :: older => diedPublishing older

def Due : Event → List Event → Prop
  | .ran, older => .stored ∉ older
  | .read found, older => .stored ∈ older → found.saved.isSome = true
  | .acked, older => .published ∈ older
  | .published, older => .published ∈ older → diedPublishing older = true
  | _, _ => True

def delivered (s : State) : Move provisionerWorld → Prop
  | .start _ => s.acked = false
  | _ => True

def justPublished (s : State) : Bool := s.trace.head? == some .published

def heard (s : State) : Op → Fate Unit → Bool
  | .hincrby, .unheard _ => s.outage.saved.isSome
  | .publish _, .unheard _ => false
  | _, _ => true

def kept (s : State) : Move provisionerWorld → Prop
  | .start _ => s.acked = false
  | .stop _ => s.outage.half = false
  | .call _ op reply => ((s.outage.half || justPublished s) = true → reply.fate.carriedOut = true) ∧ heard s op reply.fate = true

structure Consistent (s : State) : Prop where
  clean : Clean Due s.trace
  terminal : s.outage.terminalPublished = true → .published ∈ s.trace
  fresh : s.acked = false → .stored ∉ s.trace → s.outage.stored = false
  whole : s.acked = false → .stored ∈ s.trace → s.outage.half = false → s.outage.saved.isSome = true
  once : s.acked = false → .published ∈ s.trace → justPublished s = false →
    s.outage.terminalPublished = true ∨ diedPublishing s.trace = true

structure Quiet (s : State) : Prop where
  half : s.acked = false → s.outage.half = false
  published : s.acked = false → justPublished s = false

abbrev outages : Rules provisionerWorld where
  admits := kept
  inv := Consistent
  rely _ s s' := s' = s
  rely_refl _ _ := rfl
  rely_trans h h' := h'.trans h
  rest _ := Quiet
  rest_stable _ h hq := h ▸ hq

theorem diedPublishing_cons {event : Event} {older : List Event} (h : diedPublishing older = true) :
    diedPublishing (event :: older) = true := by
  unfold diedPublishing
  split <;> simp_all

/-- However a part of a delivery ends, nothing is outstanding; where it could not write the journal,
the entry is still pending. -/
def Ended {A : Type} (r : Except Exn A) (s : State) : Prop :=
  Quiet s ∧ ∀ serverHandle details, r = .error (.incidentPersistence serverHandle details) → s.acked = false

def Leads {A : Type} (Q : A → State → Prop) (p : Handling A) (s : State) : Prop :=
  outages.Safe () (fun r s => (∀ a, r = .ok a → Q a s) ∧ ∀ e, r = .error e → Ended r s) p s

structure Same (s s' : State) : Prop where
  quiet : Quiet s'
  outage : s'.outage = s.outage
  acked : s'.acked = s.acked

section Calls

variable {s : State} {A B : Type}

theorem call_safe {op : Op} {post : Except Exn op.Res → State → Prop}
    (h : ∀ reply, kept s (.call () op reply) → Consistent (run () op reply s).2 ∧
      post (run () op reply s).1 (run () op reply s).2) : outages.Safe () post (perform op) s := by
  refine Rules.Safe.perform fun s' _ hr reply hok => ?_
  cases hr
  exact ⟨⟨(h reply hok).1, fun u hu => absurd rfl hu⟩, (h reply hok).2⟩

theorem Leads.ret {Q : A → State → Prop} {a : A} (h : Q a s) : Leads Q (.ret a) s :=
  ⟨fun _ heq => by cases heq; exact h, nofun⟩

theorem Leads.bind {Q : A → State → Prop} {R : B → State → Prop} {p : Handling A} {f : A → Handling B}
    (hi : Consistent s) (h : Leads Q p s) (hf : ∀ a s', Consistent s' → Q a s' → Leads R (f a) s') :
    Leads R (p.bind f) s := by
  refine Rules.Safe.bind hi h (fun a s' hi' hpost => hf a s' hi' (hpost.1 a rfl)) fun e s' _ hpost => ?_
  obtain ⟨hquiet, hpending⟩ := hpost.2 e rfl
  exact ⟨nofun, fun _ heq => ⟨hquiet, fun serverHandle details heq' => hpending serverHandle details (by cases heq'; rfl)⟩⟩

theorem Leads.mono {Q R : A → State → Prop} {p : Handling A} (hi : Consistent s) (h : Leads Q p s)
    (hq : ∀ a s', Q a s' → R a s') : Leads R p s :=
  Rules.Safe.conseq hi h fun _ _ _ hpost => ⟨fun a heq => hq a _ (hpost.1 a heq), hpost.2⟩

theorem Consistent.record (hi : Consistent s) (hq : Quiet s) (event : Event) (hdue : Due event s.trace)
    (hstored : event ≠ .stored) (hpublished : event ≠ .published) : Consistent (s.record event) ∧ Same s (s.record event) := by
  refine ⟨⟨⟨hdue, hi.clean⟩, fun h => List.mem_cons_of_mem _ (hi.terminal h), fun ha hnot => ?_, fun ha hmem => ?_,
    fun ha hmem _ => ?_⟩, ⟨hq.half, fun _ => ?_⟩, rfl, rfl⟩
  · exact hi.fresh ha fun hmem => hnot (List.mem_cons_of_mem _ hmem)
  · exact hi.whole ha ((List.mem_cons.mp hmem).resolve_left (Ne.symm hstored))
  · have hbefore := (List.mem_cons.mp hmem).resolve_left (Ne.symm hpublished)
    exact (hi.once ha hbefore (hq.published ha)).imp id diedPublishing_cons
  · simpa [justPublished, State.record] using hpublished

theorem Consistent.called (hi : Consistent s) (hq : Quiet s) : Consistent (s.record .called) ∧ Same s (s.record .called) :=
  hi.record hq .called trivial nofun nofun

theorem Same.ended {s' : State} {r : Except Exn A} (h : Same s s') (hr : ∀ a b, r ≠ .error (.incidentPersistence a b)) :
    Ended r s' :=
  ⟨h.quiet, fun a b heq => absurd heq (hr a b)⟩

theorem command_leads {op : Op} {Q : op.Res → State → Prop} (event : Event) (answer : op.Res) (write : State → State)
    (hi : Consistent s) (hrun : ∀ reply, run () op reply s = command reply.fate event answer write s)
    (hwritten : Consistent ((write s).record event)) (hserved : Q answer ((write s).record event))
    (hunheard : ∀ reply u, kept s (.call () op reply) → reply.fate = .unheard u → Quiet ((write s).record event))
    (hunsent : ∀ reply u, kept s (.call () op reply) → reply.fate = .unsent u → Quiet s) : Leads Q (perform op) s := by
  refine call_safe fun reply hok => ?_
  rw [hrun reply]
  cases hfate : reply.fate with
  | served =>
    refine ⟨hwritten, ?_, nofun⟩
    rintro a ⟨⟩
    exact hserved
  | unheard u => exact ⟨hwritten, nofun, fun _ _ => ⟨hunheard reply u hok hfate, nofun⟩⟩
  | unsent u =>
    have hcalled := hi.called (hunsent reply u hok hfate)
    exact ⟨hcalled.1, nofun, fun _ _ => hcalled.2.ended nofun⟩

theorem kept_carried {op : Op} {reply : Reply} {u : Unit} {P : Prop} (hok : kept s (.call () op reply))
    (howed : (s.outage.half || justPublished s) = true) (hfate : reply.fate = .unsent u) : P := by
  have hcarried := hok.1 howed
  rw [hfate] at hcarried
  cases hcarried

theorem set_leads (result : ProvisionerResult) (hi : Consistent s) (hq : Quiet s) :
    Leads (fun _ s' => Same s s') (perform (.set result)) s :=
  command_leads .called () id hi (fun _ => rfl) (hi.called hq).1 (hi.called hq).2 (fun _ _ _ _ => (hi.called hq).2.quiet)
    fun _ _ _ _ => hq

theorem readOutage_leads (hi : Consistent s) (hq : Quiet s) (ha : s.acked = false) :
    Leads (fun found s' => found = s.outage ∧ Same s s') readOutage s := by
  refine call_safe fun reply _ => ?_
  change Consistent (hgetall reply.fate s).2 ∧ (∀ a, (hgetall reply.fate s).1 = .ok a → a = s.outage ∧ Same s (hgetall reply.fate s).2) ∧
    ∀ e, (hgetall reply.fate s).1 = .error e → Ended (hgetall reply.fate s).1 (hgetall reply.fate s).2
  have hread := hi.record hq (.read s.outage) (fun hmem => hi.whole ha hmem (hq.half ha)) nofun nofun
  have hcalled := hi.called hq
  unfold hgetall
  cases reply.fate with
  | served =>
    refine ⟨hread.1, ?_, nofun⟩
    rintro found ⟨⟩
    exact ⟨rfl, hread.2⟩
  | _ => exact ⟨hcalled.1, nofun, fun _ _ => hcalled.2.ended nofun⟩

theorem Consistent.publish (hi : Consistent s) (hq : Quiet s) (ha : s.acked = false)
    (hterminal : s.outage.terminalPublished = false) : Consistent (s.record .published) := by
  have hdue : Due .published s.trace := fun hmem => by
    refine (hi.once ha hmem (hq.published ha)).resolve_left ?_
    rw [hterminal]
    exact nofun
  refine ⟨⟨hdue, hi.clean⟩, fun _ => List.mem_cons_self, fun ha hnot => ?_, fun ha hmem => ?_, fun ha hmem hjust => ?_⟩
  · exact hi.fresh ha fun hmem => hnot (List.mem_cons_of_mem _ hmem)
  · exact hi.whole ha ((List.mem_cons.mp hmem).resolve_left nofun)
  · simp [justPublished, State.record] at hjust

theorem publish_leads (result : ProvisionerResult) (hi : Consistent s) (hq : Quiet s) (ha : s.acked = false)
    (hterminal : s.outage.terminalPublished = false) :
    Leads (fun _ s' => s' = s.record .published) (perform (.publish result)) s := by
  refine command_leads .published () id hi (fun _ => rfl) (hi.publish hq ha hterminal) rfl (fun reply u hok hfate => ?_)
    fun _ _ _ _ => hq
  have hheard := hok.2
  rw [hfate] at hheard
  cases hheard

theorem quiet_of_acked (h : s.acked = true) : Quiet s := by
  refine ⟨fun hnot => ?_, fun hnot => ?_⟩
  · rw [h] at hnot
    cases hnot
  · rw [h] at hnot
    cases hnot

theorem ack_leads (hi : Consistent s) (hpublished : .published ∈ s.trace) (hq : justPublished s = true ∨ Quiet s) :
    Leads (fun _ s' => s'.acked = true) acknowledge s := by
  have hacked : Consistent ({ s with acked := true }.record .acked) :=
    ⟨⟨hpublished, hi.clean⟩, fun _ => List.mem_cons_of_mem _ hpublished, nofun, nofun, nofun⟩
  refine command_leads .acked () (fun s => { s with acked := true }) hi (fun _ => rfl) hacked rfl
    (fun _ _ _ _ => quiet_of_acked rfl) fun reply u hok hfate => ?_
  rcases hq with hjust | hq
  · exact kept_carried hok (by rw [hjust, Bool.or_true]) hfate
  · exact hq

theorem publishAndAck_leads (result : ProvisionerResult) (hi : Consistent s) (hq : Quiet s) (ha : s.acked = false)
    (hterminal : s.outage.terminalPublished = false) : Leads (fun _ s' => s'.acked = true) (publishAndAck result) s := by
  refine (set_leads result hi hq).bind hi fun _ s₁ hi₁ hsame => ?_
  have hterminal₁ : s₁.outage.terminalPublished = false := hsame.outage ▸ hterminal
  refine (publish_leads result hi₁ hsame.quiet (hsame.acked ▸ ha) hterminal₁).bind hi₁ fun _ s₂ hi₂ heq => ?_
  subst heq
  exact ack_leads hi₂ List.mem_cons_self (.inl rfl)

theorem half_of_saved {outage : Outage} (h : outage.saved.isSome = true) : outage.half = false := by
  unfold Outage.half
  rw [Option.isNone_eq_false_iff.mpr h, Bool.and_false]

theorem hsetTerminal_leads (hi : Consistent s) (hsaved : s.outage.saved.isSome = true) (hjust : justPublished s = true)
    (hpublished : .published ∈ s.trace) :
    Leads (fun _ s' => Quiet s' ∧ .published ∈ s'.trace) (perform .hsetTerminal) s := by
  have hmarked : Consistent ({ s with outage := { s.outage with terminalPublished := true } }.record .stored) :=
    ⟨⟨trivial, hi.clean⟩, fun _ => List.mem_cons_of_mem _ hpublished, fun _ hnot => absurd List.mem_cons_self hnot,
      fun _ _ _ => hsaved, fun _ _ _ => .inl rfl⟩
  have hq : Quiet ({ s with outage := { s.outage with terminalPublished := true } }.record .stored) :=
    ⟨fun _ => half_of_saved hsaved, fun _ => rfl⟩
  exact command_leads .stored () (fun s => { s with outage := { s.outage with terminalPublished := true } }) hi (fun _ => rfl)
    hmarked ⟨hq, List.mem_cons_of_mem _ hpublished⟩ (fun _ _ _ _ => hq)
    fun reply u hok hfate => kept_carried hok (by rw [hjust, Bool.or_true]) hfate

theorem publishTerminal_leads (result : ProvisionerResult) (hi : Consistent s) (hq : Quiet s) (ha : s.acked = false)
    (hterminal : s.outage.terminalPublished = false) (hsaved : s.outage.saved.isSome = true) :
    Leads (fun _ s' => Quiet s') (publishTerminal result) s := by
  refine (set_leads result hi hq).bind hi fun _ s₁ hi₁ hsame => ?_
  have hterminal₁ : s₁.outage.terminalPublished = false := hsame.outage ▸ hterminal
  refine (publish_leads result hi₁ hsame.quiet (hsame.acked ▸ ha) hterminal₁).bind hi₁ fun _ s₂ hi₂ heq => ?_
  subst heq
  have hsaved₁ : s₁.outage.saved.isSome = true := hsame.outage ▸ hsaved
  refine (hsetTerminal_leads hi₂ hsaved₁ rfl List.mem_cons_self).bind hi₂ fun _ s₃ hi₃ hmarked => ?_
  exact (ack_leads hi₃ hmarked.2 (.inr hmarked.1)).mono hi₃ fun _ _ => quiet_of_acked

theorem escalate_leads (job : ProvisionerMessage) (serverHandle : String) (hi : Consistent s) (hq : Quiet s)
    (ha : s.acked = false) (hsaved : s.outage.saved.isSome = true) :
    Leads (fun _ s' => Quiet s') (escalate job serverHandle) s := by
  refine (readOutage_leads hi hq ha).bind hi fun found s₁ hi₁ ⟨hfound, hsame⟩ => ?_
  by_cases hterminal : found.terminalPublished = true
  · rw [if_pos hterminal]
    have hpublished := hi₁.terminal (by rw [hsame.outage, ← hfound, hterminal])
    exact (ack_leads hi₁ hpublished (.inr hsame.quiet)).mono hi₁ fun _ _ => quiet_of_acked
  · rw [if_neg hterminal]
    refine publishTerminal_leads _ hi₁ hsame.quiet (hsame.acked ▸ ha) ?_ (hsame.outage ▸ hsaved)
    rw [hsame.outage, ← hfound]
    exact Bool.eq_false_iff.mpr hterminal

structure Counted (s : State) : Prop where
  acked : s.acked = false
  attempts : s.outage.attempts.isSome = true
  published : justPublished s = false

theorem countAttempt_leads (hi : Consistent s) (hq : Quiet s) (ha : s.acked = false) :
    Leads (fun _ s' => Counted s') countAttempt s := by
  have hcounted : Consistent ({ s with outage := { s.outage with attempts := some (attemptsOf s) } }.record .stored) := by
    refine ⟨⟨trivial, hi.clean⟩, fun h => List.mem_cons_of_mem _ (hi.terminal h), fun _ hnot => absurd List.mem_cons_self hnot,
      fun _ _ hhalf => ?_, fun _ hmem _ => ?_⟩
    · change s.outage.saved.isNone = false at hhalf
      exact Option.isNone_eq_false_iff.mp hhalf
    · have hbefore := (List.mem_cons.mp hmem).resolve_left nofun
      exact (hi.once ha hbefore (hq.published ha)).imp id diedPublishing_cons
  refine command_leads .stored (attemptsOf s) (fun s => { s with outage := { s.outage with attempts := some (attemptsOf s) } })
    hi (fun _ => rfl) hcounted ⟨ha, rfl, rfl⟩ (fun reply u hok hfate => ⟨fun _ => ?_, fun _ => rfl⟩) fun _ _ _ _ => hq
  have hheard := hok.2
  rw [hfate] at hheard
  exact half_of_saved hheard

theorem hset_leads (saved : Saved) (hi : Consistent s) (hcounted : Counted s) :
    Leads (fun _ s' => Quiet s' ∧ s'.acked = false ∧ s'.outage.saved.isSome = true) (perform (.hset saved)) s := by
  have hwritten : Consistent ({ s with outage := { s.outage with saved := some saved } }.record .stored) := by
    refine ⟨⟨trivial, hi.clean⟩, fun h => List.mem_cons_of_mem _ (hi.terminal h), fun _ hnot => absurd List.mem_cons_self hnot,
      fun _ _ _ => rfl, fun _ hmem _ => ?_⟩
    have hbefore := (List.mem_cons.mp hmem).resolve_left nofun
    exact (hi.once hcounted.acked hbefore hcounted.published).imp id diedPublishing_cons
  have hq : Quiet ({ s with outage := { s.outage with saved := some saved } }.record .stored) :=
    ⟨fun _ => half_of_saved rfl, fun _ => rfl⟩
  refine command_leads .stored () (fun s => { s with outage := { s.outage with saved := some saved } }) hi (fun _ => rfl)
    hwritten ⟨hq, hcounted.acked, rfl⟩ (fun _ _ _ _ => hq) fun reply u hok hfate => ⟨fun _ => ?_, fun _ => hcounted.published⟩
  by_contra hhalf
  exact kept_carried hok (by rw [Bool.not_eq_false _ |>.mp hhalf, Bool.true_or]) hfate

theorem handleIncidentOutage_leads (job : ProvisionerMessage) (serverHandle details : String) (hi : Consistent s)
    (hq : Quiet s) (ha : s.acked = false) :
    Leads (fun _ s' => Quiet s') (handleIncidentOutage job serverHandle details) s := by
  refine (countAttempt_leads hi hq ha).bind hi fun attempts s₁ hi₁ hcounted => ?_
  refine (hset_leads _ hi₁ hcounted).bind hi₁ fun _ s₂ hi₂ ⟨hq₂, ha₂, hsaved⟩ => ?_
  by_cases hbudget : attempts < incidentOutageRetryBudget
  · rw [if_pos hbudget]
    exact .ret hq₂
  · rw [if_neg hbudget]
    exact escalate_leads job serverHandle hi₂ hq₂ ha₂ hsaved

theorem settleIncident_leads (job : ProvisionerMessage) (saved : Saved) (recorded : Except Exn Unit) (hi : Consistent s)
    (hq : Quiet s) (ha : s.acked = false) (hterminal : s.outage.terminalPublished = false) :
    Leads (fun _ s' => Quiet s') (settleIncident job saved recorded) s := by
  cases recorded with
  | ok _ =>
    refine (publishAndAck_leads _ hi hq ha hterminal).bind hi fun _ s₁ hi₁ hacked => ?_
    have hq₁ := quiet_of_acked hacked
    have hdeleted : Consistent ({ s₁ with outage := .absent }.record .called) := by
      refine ⟨⟨trivial, hi₁.clean⟩, nofun, fun h => ?_, fun h => ?_, fun h => ?_⟩ <;>
        exact absurd (hacked.symm.trans h) nofun
    have hq₂ : Quiet ({ s₁ with outage := .absent }.record .called) := quiet_of_acked hacked
    exact command_leads .called () (fun s => { s with outage := .absent }) hi₁ (fun _ => rfl) hdeleted hq₂
      (fun _ _ _ _ => hq₂) fun _ _ _ _ => hq₁
  | error e => cases e with
    | incidentPersistence serverHandle details => exact handleIncidentOutage_leads job serverHandle details hi hq ha
    | keyError | exception => exact ⟨nofun, fun _ _ => ⟨hq, nofun⟩⟩

theorem writeIncident_safe (saved : Saved) (hi : Consistent s) (hq : Quiet s) :
    outages.Safe () (fun _ s' => Same s s') (writeIncident saved) s := by
  have hcalled := hi.called hq
  refine call_safe fun reply _ => ?_
  change Consistent (createIncident saved.serverHandle saved.details reply.journal s).2 ∧
    Same s (createIncident saved.serverHandle saved.details reply.journal s).2
  cases reply.journal <;> exact hcalled

theorem retrySavedIncident_leads (job : ProvisionerMessage) (found : Outage) (hi : Consistent s) (hq : Quiet s)
    (ha : s.acked = false) (hfound : found = s.outage) :
    Leads (fun _ s' => Quiet s') (retrySavedIncident job found) s := by
  unfold retrySavedIncident
  by_cases hterminal : found.terminalPublished = true
  · rw [if_pos hterminal]
    exact (ack_leads hi (hi.terminal (hfound ▸ hterminal)) (.inr hq)).mono hi fun _ _ => quiet_of_acked
  · rw [if_neg hterminal]
    split
    · exact ⟨nofun, fun _ _ => ⟨hq, nofun⟩⟩
    · next saved hsaved =>
      refine Leads.bind (Q := fun _ s' => Same s s') hi ?_ fun recorded s₁ hi₁ hsame => ?_
      · refine Rules.Safe.attempt ((writeIncident_safe saved hi hq).conseq hi fun r s' _ hsame => ⟨?_, nofun⟩)
        rintro recorded ⟨⟩
        exact hsame
      · refine settleIncident_leads job saved recorded hi₁ hsame.quiet (hsame.acked ▸ ha) ?_
        rw [hsame.outage, ← hfound]
        exact Bool.eq_false_iff.mpr hterminal

theorem provision_leads (job : ProvisionerMessage) (hi : Consistent s) (hq : Quiet s) (ha : s.acked = false)
    (habsent : s.outage.stored = false) : Leads (fun _ s' => Quiet s') (provision job) s := by
  have hunstored : .stored ∉ s.trace := fun hmem => by
    have hsaved := hi.whole ha hmem (hq.half ha)
    simp [Outage.stored, hsaved] at habsent
  have hran := hi.record hq .ran hunstored nofun nofun
  refine Leads.bind (Q := fun _ s' => Same s s') hi ?_ fun result s₁ hi₁ hsame => ?_
  · refine call_safe fun reply _ => ⟨hran.1, fun _ _ => hran.2, fun _ _ => ⟨hran.2.quiet, fun _ _ _ => ha⟩⟩
  · have hterminal : s₁.outage.terminalPublished = false := by
      rw [hsame.outage]
      simp only [Outage.stored, Bool.or_eq_false_iff] at habsent
      exact habsent.2
    exact (publishAndAck_leads result hi₁ hsame.quiet (hsame.acked ▸ ha) hterminal).mono hi₁ fun _ _ => quiet_of_acked

theorem serveEntry_leads (job : ProvisionerMessage) (hi : Consistent s) (hq : Quiet s) (ha : s.acked = false) :
    Leads (fun _ s' => Quiet s') (serveEntry job) s := by
  refine (readOutage_leads hi hq ha).bind hi fun found s₁ hi₁ ⟨hfound, hsame⟩ => ?_
  have hfound₁ : found = s₁.outage := hfound.trans hsame.outage.symm
  by_cases hstored : found.stored = true
  · rw [if_pos hstored]
    exact retrySavedIncident_leads job found hi₁ hsame.quiet (hsame.acked ▸ ha) hfound₁
  · rw [if_neg hstored]
    exact provision_leads job hi₁ hsame.quiet (hsame.acked ▸ ha) (hfound₁ ▸ Bool.eq_false_iff.mpr hstored)

theorem deliver_safe (job : ProvisionerMessage) (hi : Consistent s) (hq : Quiet s) (ha : s.acked = false) :
    outages.Safe () (fun _ s' => Quiet s') (deliver job) s := by
  refine Rules.Safe.handle hi (serveEntry_leads job hi hq ha) (fun a s' _ hpost => hpost.1 a rfl) fun e s' hi' hpost => ?_
  obtain ⟨hquiet, hpending⟩ := hpost.2 e rfl
  cases e with
  | incidentPersistence serverHandle details =>
    refine (handleIncidentOutage_leads job serverHandle details hi' hquiet (hpending _ _ rfl)).conseq hi' fun r s'' _ hpost' => ?_
    cases r with
    | ok a => exact hpost'.1 a rfl
    | error e => exact (hpost'.2 e rfl).1
  | _ => exact hquiet

end Calls

section Runs

variable {job : ProvisionerMessage} {c : Config provisionerWorld}

def opening : State := ⟨.absent, false, []⟩

theorem Consistent.died {s : State} (hi : Consistent s) (hhalf : s.outage.half = false) :
    Consistent (s.record .died) ∧ Quiet (s.record .died) := by
  refine ⟨⟨⟨trivial, hi.clean⟩, fun h => List.mem_cons_of_mem _ (hi.terminal h), fun ha hnot => ?_, fun ha hmem => ?_,
    fun ha hmem _ => ?_⟩, fun _ => hhalf, fun _ => rfl⟩
  · exact hi.fresh ha fun hmem => hnot (List.mem_cons_of_mem _ hmem)
  · exact hi.whole ha ((List.mem_cons.mp hmem).resolve_left nofun)
  · have hbefore := (List.mem_cons.mp hmem).resolve_left nofun
    cases hjust : justPublished s with
    | false => exact (hi.once ha hbefore hjust).imp id diedPublishing_cons
    | true =>
      right
      obtain ⟨older, hhead⟩ := List.head?_eq_some_iff.mp (beq_iff_eq.mp hjust)
      change diedPublishing (.died :: s.trace) = true
      rw [hhead]
      rfl

theorem reaches_consistent (h : Reaches (fun _ => deliver job) kept (.idle opening) c) : Consistent c.state := by
  have hopening : Consistent opening := ⟨trivial, nofun, fun _ _ => rfl, fun _ hmem => absurd hmem List.not_mem_nil,
    fun _ hmem => absurd hmem List.not_mem_nil⟩
  have hquiet : Quiet opening := ⟨fun _ => rfl, fun _ => rfl⟩
  have hkeeps {s s' : State} (hi : Consistent s') : outages.Keeps () s s' := ⟨hi, fun u hu => absurd rfl hu⟩
  refine (Rules.reaches_sound (G := outages) (.idle hopening fun _ => hquiet) ?_ ?_ h).inv
  · intro _ s hi hq hstart
    refine (deliver_safe job hi hq hstart).conseq hi fun r s' hi' hq' => ?_
    exact ⟨hkeeps hi', hq'⟩
  · intro _ s hi hstop
    exact ⟨hkeeps (hi.died hstop).1, (hi.died hstop).2⟩

/-- While the fields of an outage are written with its counter, and nothing fails between a publish
and the command after it, each event of an entry finds what it has to. -/
theorem outage_protocol (h : Reaches (fun _ => deliver job) kept (.idle opening) c) {newer older : List Event} {event : Event}
    (htrace : c.state.trace = newer ++ event :: older) : Due event older := by
  have hclean := (reaches_consistent h).clean
  rw [htrace] at hclean
  exact hclean.split.1

end Runs

instance (s : State) (m : Move provisionerWorld) : Decidable (kept s m) := by
  unfold kept
  split <;> infer_instance

instance (s : State) (m : Move provisionerWorld) : Decidable (delivered s m) := by
  unfold delivered
  split <;> infer_instance

def sampleJob : ProvisionerMessage := ⟨"r", "vps-1", false⟩

def sampleReply : Reply := ⟨.served, .error ("vps-1", "{}"), .recorded⟩

def sampleCall (reply : Reply) : Turn provisionerWorld := .call () fun _ => reply

def recoveredJournal : List (Turn provisionerWorld) :=
  [.start ()] ++ List.replicate 4 (sampleCall sampleReply) ++
    [.start ()] ++ List.replicate 4 (sampleCall sampleReply) ++ [.stop ()] ++
    [.start ()] ++ List.replicate 4 (sampleCall sampleReply)

def recovered : Config provisionerWorld := (Config.idle opening).play (fun _ => deliver sampleJob) recoveredJournal

theorem recovered_publishes : Due .published recovered.state.trace.tail ∧ .published ∈ recovered.state.trace.tail := by
  have hreaches : Reaches (fun _ => deliver sampleJob) kept (.idle opening) recovered := play_reaches (by decide +kernel)
  have htrace : recovered.state.trace = [] ++ .published :: recovered.state.trace.tail := by decide +kernel
  exact ⟨outage_protocol hreaches htrace, by decide +kernel⟩

def halfStored : Config provisionerWorld := (Config.idle opening).play (fun _ => deliver sampleJob)
  ([.start ()] ++ List.replicate 3 (sampleCall sampleReply) ++ [sampleCall { sampleReply with fate := .unsent () }] ++
    [.start (), sampleCall sampleReply])

def unacknowledged : Config provisionerWorld := (Config.idle opening).play (fun _ => deliver sampleJob)
  ([.start ()] ++ List.replicate 4 (sampleCall { sampleReply with provisioned := .ok ⟨"r", .success, "vps-1", []⟩ }) ++
    [sampleCall { sampleReply with fate := .unsent () }] ++
    [.start ()] ++ List.replicate 4 (sampleCall { sampleReply with provisioned := .ok ⟨"r", .success, "vps-1", []⟩ }))

theorem outage_unread_and_result_repeated :
    (∃ (c : Config provisionerWorld) (found : Outage) (older : List Event),
        Reaches (fun _ => deliver sampleJob) delivered (.idle opening) c ∧ c.state.trace = .read found :: older ∧
        .stored ∈ older ∧ found.saved = none) ∧
      ∃ (c : Config provisionerWorld) (older : List Event),
        Reaches (fun _ => deliver sampleJob) delivered (.idle opening) c ∧ c.state.trace = .published :: older ∧
        .published ∈ older ∧ .died ∉ older := by
  refine ⟨⟨halfStored, ⟨some 1, none, false⟩, halfStored.state.trace.tail, play_reaches (by decide +kernel), ?_, ?_, rfl⟩,
    ⟨unacknowledged, unacknowledged.state.trace.tail, play_reaches (by decide +kernel), ?_, ?_, ?_⟩⟩ <;> decide +kernel

end Orchestrator.Provisioner
