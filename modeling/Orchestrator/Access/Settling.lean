import Orchestrator.Access.Orderly

/-!
The sweep beside the handoffs. The sweep works from a snapshot, and what it
takes from a row of the snapshot still holds of the stored row when it acts on
it: the handoffs only add rows, and the sweep settles one grant after the other.
-/

namespace Orchestrator.Access

open Async Async.Rules Contracts
open Api (TemporaryAccessStatus TemporaryAccessEscalation)

/-- No reading of a grant is recorded after one that left its count as it was,
before the grant has been moved, and no suffix comes twice. -/
def readingsMoved (s : State) : Move accessWorld → Prop
  | .call _ .newSuffix suffix => suffix ∉ minted s.trace
  | .call _ (.recordObservation grantId _) reply =>
      reply.fate.carriedOut = true → disputed grantId s.trace = false
  | _ => True

def reopeningsUnmarked (s : State) : Move accessWorld → Prop
  | .call _ (.recordObservation grantId observation) reply =>
      reply.fate.carriedOut = true → ∀ row ∈ s.db.grants.find grantId, row.status = .revoked →
        observation.present = true → s.db.grants.owned row = false → row.escalatedAt = none
  | _ => True

structure Grown (s s' : State) : Prop where
  rows : ∀ grantId row, s.db.grants.find grantId = some row → s'.db.grants.find grantId = some row
  minted : ∀ suffix ∈ minted s.trace, suffix ∈ minted s'.trace

theorem Grown.refl (s : State) : Grown s s := ⟨fun _ _ h => h, fun _ h => h⟩

theorem Grown.trans {s s' s'' : State} (h : Grown s s') (h' : Grown s' s'') : Grown s s'' :=
  ⟨fun grantId row hrow => h'.rows grantId row (h.rows grantId row hrow),
    fun suffix hmem => h'.minted suffix (h.minted suffix hmem)⟩

def settlingRules (readings calls : Prop) : Rules accessWorld where
  admits s m := (readings → readingsMoved s m) ∧ (calls → reopeningsUnmarked s m)
  inv := Orderly readings calls
  rely t s s' := t = .sweep → Grown s s'
  rely_refl _ s := fun _ => .refl s
  rely_trans h h' := fun ht => (h ht).trans (h' ht)
  rest _ _ := True
  rest_stable _ _ h := h

section Calls

variable {readings calls : Prop} {t : Party} {P : State → Prop} {A B : Type}

def Idle (p : Sweep A) : Prop := p.Uses fun op : Op => ∃ call, op = .service call

theorem Idle.ask (call : ServiceCall) : Idle (ask call) := Prog.Uses.perform ⟨call, rfl⟩

variable {p : Sweep A}

theorem Idle.bind {f : A → Sweep B} (hp : Idle p) (hf : ∀ a, Idle (f a)) : Idle (p.bind f) :=
  Prog.Uses.bind hp hf

theorem Idle.maintains (hp : Idle p) (hst : (settlingRules readings calls).Stable t P) :
    (settlingRules readings calls).Maintains t P p := by
  refine Safe.leaves hst (Prog.Uses.mono hp ?_)
  rintro _ ⟨call, rfl⟩ s hi hP answer _
  exact ⟨.refl _ hi, hP⟩

def ServiceCall.calm : ServiceCall → Bool
  | publishDeploy _ => false
  | publishQA _ => false
  | _ => true

def Calm (p : Sweep A) : Prop := p.Uses fun op : Op => ∃ call, op = .service call ∧ call.calm = true

theorem Calm.ask (call : ServiceCall) (h : call.calm = true) : Calm (ask call) := Prog.Uses.perform ⟨call, rfl, h⟩

theorem Calm.ret (a : A) : Calm (.ret a) := trivial

theorem Calm.raise (e : Exn) : Calm (.raise e : Sweep A) := trivial

theorem Calm.bind {f : A → Sweep B} (hp : Calm p) (hf : ∀ a, Calm (f a)) : Calm (p.bind f) :=
  Prog.Uses.bind hp hf

theorem Calm.idle (h : Calm p) : Idle p := Prog.Uses.mono h fun _ ⟨call, heq, _⟩ => ⟨call, heq⟩

theorem notifyAdmins_calm (message : String) : Calm (notifyAdmins message) :=
  .bind (Prog.Uses.attempt (Calm.ask _ rfl)) fun _ => .ret ()

theorem olderThan_calm (moment : Time) (minutes : Nat) : Calm (olderThan moment minutes) :=
  .bind (.ask .clock rfl) fun _ => .ret _

theorem retriesAreSpent_calm (config : SupervisorConfig) (grant : TemporaryAccessGrant) :
    Calm (retriesAreSpent config grant) := by
  unfold retriesAreSpent
  split
  · exact .ret true
  · exact olderThan_calm ..

theorem failQaRun_calm (grant : TemporaryAccessGrant) (category : QABlockerCategory)
    (attempted sent received summary errorMessage : String) :
    Calm (failQaRun grant category attempted sent received summary errorMessage) := by
  unfold failQaRun
  split
  · exact .ret ()
  · exact .bind (.ask _ rfl) fun _ => .ret ()

theorem revocationReason_calm (config : SupervisorConfig) (grant : TemporaryAccessGrant) :
    Calm (revocationReason config grant) := by
  refine .bind (.ask (.getRun grant.qaRunId) rfl) fun run => ?_
  cases run with
  | none => exact .ret _
  | some run =>
    dsimp only
    split
    · exact .ret _
    · refine .bind (.ask .clock rfl) fun now => ?_
      split
      · exact .bind (notifyAdmins_calm _) fun _ => .bind (failQaRun_calm ..) fun _ => .ret _
      · exact .ret none

theorem observationTarget_calm (grant : TemporaryAccessGrant) : Calm (observationTarget grant) := by
  refine .bind (.ask (.getApplication _) rfl) fun application => ?_
  cases application with
  | none => exact .ret none
  | some application =>
    refine .bind (.ask (.getRepositories _) rfl) fun repositories => ?_
    split
    · exact .raise _
    · split
      · exact .ret none
      · refine .bind (.ask (.getProject _) rfl) fun project => ?_
        cases project with
        | none => exact .ret none
        | some slug => exact .ret _

theorem askForObservation_calm (config : SupervisorConfig) (grant : TemporaryAccessGrant) (requestId : String)
    (slowAudit : Bool) : Calm (askForObservation config grant requestId slowAudit) := by
  have paced : Calm (observationPaced config grant) := by
    unfold observationPaced
    split
    · exact .ret true
    · exact olderThan_calm ..
  have due : Calm (slotAuditDue grant requestId slowAudit) := by
    cases slowAudit with
    | true => exact .ask (.setSlotAudit ..) rfl
    | false => exact .ret true
  refine .bind paced fun paced => ?_
  split
  · exact .ret ()
  · refine .bind due fun due => ?_
    split
    · exact .ret ()
    · refine .bind (observationTarget_calm grant) fun target => ?_
      cases target with
      | none => exact .ret ()
      | some target =>
        refine .bind (.ask (.setPending _) rfl) fun asked => ?_
        cases asked with
        | true => exact .ask (.publishObservation ..) rfl
        | false => exact .ret ()

theorem pastTheWatchWindow_calm (config : SupervisorConfig) (grant : TemporaryAccessGrant) :
    Calm (pastTheWatchWindow config grant) := by
  unfold pastTheWatchWindow
  split
  · exact .ret false
  · exact olderThan_calm ..

theorem publishDeploy_idle (grant : TemporaryAccessGrant) (runId value triggeredBy : String)
    (revokeReason : Option TemporaryAccessRevokeReason) (fenceActiveDeploys : Bool) :
    Idle (publishDeploy grant runId value triggeredBy revokeReason fenceActiveDeploys) :=
  .bind (.ask (.createRun _)) fun _ => .ask (.publishDeploy _)

end Calls

def Held (rest : Grants) (s : State) : Prop := ∀ grant ∈ rest, s.db.grants.find grant.id = some grant

def At (Q : TemporaryAccessGrant → Prop) (grantId : String) (rest : Grants) (s : State) : Prop :=
  Held rest s ∧ ∃ row, s.db.grants.find grantId = some row ∧ Q row

section Assertions

variable {readings calls : Prop} {s s' : State} {rest : Grants} {grantId : String} {Q Q' : TemporaryAccessGrant → Prop}

theorem Held.grown (h : Held rest s) (hs : Grown s s') : Held rest s' := fun grant hmem =>
  hs.rows grant.id grant (h grant hmem)

theorem At.grown (h : At Q grantId rest s) (hs : Grown s s') : At Q grantId rest s' := by
  obtain ⟨hheld, row, hrow, hQ⟩ := h
  exact ⟨hheld.grown hs, row, hs.rows grantId row hrow, hQ⟩

theorem At.weaken (h : At Q grantId rest s) (hQ : ∀ row, Q row → Q' row) : At Q' grantId rest s := by
  obtain ⟨hheld, row, hrow, hrest⟩ := h
  exact ⟨hheld, row, hrow, hQ row hrest⟩

theorem At.there (h : At Q grantId rest s) : At (fun _ => True) grantId rest s := h.weaken fun _ _ => trivial

theorem at_stable : (settlingRules readings calls).Stable .sweep (At Q grantId rest) :=
  fun _ _ _ hr h => h.grown (hr rfl)

theorem Rewritten.keeps (h : Rewritten readings calls grantId s s') : (settlingRules readings calls).Keeps .sweep s s' :=
  ⟨h.orderly, fun _ hne ht => absurd ht hne⟩

theorem Rewritten.held (h : Rewritten readings calls grantId s s') (hnot : grantId ∉ rest.map (·.id))
    (hheld : Held rest s) : Held rest s' := by
  intro grant hmem
  have hne : grant.id ≠ grantId := by
    rintro rfl
    exact hnot (List.mem_map_of_mem hmem)
  rw [h.other grant.id hne]
  exact hheld grant hmem

theorem keeps_at (hnot : grantId ∉ rest.map (·.id)) (hheld : Held rest s)
    (h : Rewritten readings calls grantId s s' ∧ ∃ row, s'.db.grants.find grantId = some row ∧ Q row) :
    (settlingRules readings calls).Keeps .sweep s s' ∧ At (fun _ => True) grantId rest s' := by
  obtain ⟨hrewritten, row, hrow, _⟩ := h
  exact ⟨hrewritten.keeps, hrewritten.held hnot hheld, row, hrow, trivial⟩

theorem Orderly.noted {event : Event} (h : Orderly readings calls s)
    (hnoted : ∀ grantId, disputed grantId (event :: s.trace) = disputed grantId s.trace)
    (hescalations : ∀ grantId, escalations grantId (event :: s.trace) = escalations grantId s.trace)
    (hminted : ∀ suffix ∈ minted s.trace, suffix ∈ minted (event :: s.trace))
    (hread : ∀ observation before after owned, event ≠ .read observation before after owned)
    (hspent : calls → ∀ grantId calls, event = .failed grantId true calls →
      escalations grantId s.trace = if calls then 0 else 1) : Orderly readings calls (s.record event) := by
  refine ⟨h.rows, fun hr grant hmem => ?_, fun hr observation before after owned hin => ?_, fun hc grant hmem => ?_,
    fun hc => ?_⟩
  · exact (h.counted hr grant hmem).mono hminted (hnoted grant.id)
  · exact h.taken hr observation before after owned
      ((List.mem_cons.mp hin).resolve_left fun hsame => hread _ _ _ _ hsame.symm)
  · exact (h.marked hc grant hmem).same rfl rfl (hescalations grant.id)
  · exact (h.calledOnce hc).cons (fun grantId => (hescalations grantId).trans_le ((h.calledOnce hc).le_one grantId))
      (hspent hc)

theorem newSuffix_keeps {t : Party} {suffix : String} (h : Orderly readings calls s) :
    (settlingRules readings calls).Keeps t s (run t .newSuffix suffix s).2 := by
  refine ⟨h.noted (fun _ => rfl) (fun _ => rfl) (fun _ hmem => List.mem_cons_of_mem _ hmem) (fun _ _ _ _ hsame => ?_)
    fun _ _ _ hsame => ?_, fun _ _ _ => ⟨fun _ _ h => h, fun _ hmem => List.mem_cons_of_mem _ hmem⟩⟩
  · cases hsame
  · cases hsame

end Assertions

section Writes

variable {readings calls : Prop} {s : State} {rest : Grants} {grant : TemporaryAccessGrant} {config : SupervisorConfig}
  {A : Type}

variable {update : TemporaryAccessGrantUpdate}

theorem updateGrant_maintains {grantId : String}
    (hnot : grantId ∉ rest.map (·.id)) (hquiet : Quiet update) (hunmarked : update.escalated = false) :
    (settlingRules readings calls).Maintains .sweep (At (fun _ => True) grantId rest)
      (updateTemporaryAccessGrant grantId update) := by
  refine .perform at_stable fun s hi hat reply _ => ?_
  obtain ⟨hheld, old, hold, _⟩ := hat
  exact keeps_at hnot hheld (updateGrant_rewritten hi hold hunmarked fun _ => .inl hquiet)

def Suffixed (readings : Prop) (suffix grantId : String) (rest : Grants) (s : State) : Prop :=
  At (fun row => readings → Unread row suffix) grantId rest s ∧ suffix ∈ minted s.trace

theorem newDeployRunId_safe {kind : String} (hat : At (fun _ => True) grant.id rest s)
    (hi : Orderly readings calls s) :
    (settlingRules readings calls).Safe .sweep (fun answer s => At (fun _ => True) grant.id rest s ∧
      ∀ runId, answer = .ok runId → ∃ suffix, runId = "deploy-" ++ kind ++ "-" ++ suffix ∧
        Suffixed readings suffix grant.id rest s) (newDeployRunId kind) s := by
  refine Safe.bind (M := fun answer s => At (fun _ => True) grant.id rest s ∧
    ∀ suffix, answer = .ok suffix → Suffixed readings suffix grant.id rest s) hi ?_ ?_ ?_
  · refine Safe.perform fun s' hi' hr suffix hok => ?_
    have hat' := hat.grown (hr rfl)
    obtain ⟨hheld, row, hrow, _⟩ := hat'
    refine ⟨newSuffix_keeps hi', ⟨hheld, row, hrow, trivial⟩, fun suffix' hsame => ?_⟩
    cases hsame
    refine ⟨⟨hheld, row, hrow, fun hr => ?_⟩, List.mem_cons_self⟩
    exact counted_unread (hi'.counted hr row (Grants.find_mem hrow)) (hok.1 hr)
  · rintro suffix s _ ⟨hat, hsuffixed⟩
    refine ⟨hat, fun runId hsame => ⟨suffix, ?_, hsuffixed suffix rfl⟩⟩
    exact (Except.ok.inj hsame).symm
  · rintro e s _ ⟨hat, _⟩
    exact ⟨hat, fun _ h => by cases h⟩

theorem dispatchRevoke_maintains (reason : TemporaryAccessRevokeReason) (hnot : grant.id ∉ rest.map (·.id)) :
    (settlingRules readings calls).Maintains .sweep (At (fun _ => True) grant.id rest) (dispatchRevoke grant reason) := by
  intro s hi hat
  refine Safe.bind hi (newDeployRunId_safe hat hi) (fun runId s hi h => ?_) fun _ _ _ h => h.1
  obtain ⟨suffix, rfl, hsuffixed⟩ := h.2 runId rfl
  refine Safe.bind (M := fun _ => At (fun _ => True) grant.id rest) hi (Safe.perform fun s' hi' hr reply _ => ?_)
    (fun _ s hi hat => ?_) fun _ _ _ h => h
  · obtain ⟨hheld, old, hold, hunread⟩ := hsuffixed.1.grown (hr rfl)
    have hknown := (hr rfl).minted suffix hsuffixed.2
    exact keeps_at hnot hheld
      (updateGrant_rewritten hi' hold rfl fun hr => .inr ⟨suffix, rfl, hknown, hunread hr⟩)
  · exact (publishDeploy_idle ..).maintains at_stable s hi hat

abbrev Lets (readings calls : Prop) (grantId : String) (rest : Grants) (p : Sweep A) : Prop :=
  (settlingRules readings calls).Maintains .sweep (At (fun _ => True) grantId rest) p

theorem Idle.lets {p : Sweep A} {grantId : String} (hp : Idle p) : Lets readings calls grantId rest p :=
  hp.maintains at_stable

theorem quiet_fields (hrun : update.revokeRunId = none)
    (hstatus : update.status = none) : Quiet update :=
  ⟨hrun, fun status hmem => by rw [hstatus] at hmem; cases hmem⟩

theorem quiet_status {status : {status // status ≠ TemporaryAccessStatus.revoked}}
    (hrun : update.revokeRunId = none) (hset : update.status = some status) (hne : status.val ≠ .revoking) : Quiet update := by
  refine ⟨hrun, fun other hmem => ?_⟩
  cases hset.symm.trans hmem
  exact hne

theorem reportUnsettledDispatch_lets (claimedAt : Time) (hnot : grant.id ∉ rest.map (·.id)) :
    Lets readings calls grant.id rest (reportUnsettledDispatch config grant claimedAt) := by
  refine .bind (Idle.ask .clock).lets fun now => ?_
  split
  · exact .ret ()
  · split
    · exact .ret ()
    · refine .bind (notifyAdmins_calm _).idle.lets fun _ => ?_
      exact .bind (updateGrant_maintains hnot (quiet_fields rfl rfl) rfl) fun _ => .ret ()

theorem stopGrantDeploy_lets (detail : String) (hnot : grant.id ∉ rest.map (·.id)) :
    Lets readings calls grant.id rest (stopGrantDeploy config grant detail) := by
  refine .bind (Idle.ask (.getRun grant.grantRunId)).lets fun run => ?_
  split
  · exact .ret true
  · refine .bind (Idle.ask (.withdrawDispatch ..)).lets fun claimedAt => ?_
    cases claimedAt with
    | none => exact .ret true
    | some claimedAt =>
      refine .bind (Idle.ask (.getRun grant.grantRunId)).lets fun run => ?_
      split
      · exact .ret true
      · refine .bind (Idle.ask (.supersedeDispatch ..)).lets fun settled => ?_
        cases settled with
        | true => exact .ret true
        | false => exact .bind (reportUnsettledDispatch_lets claimedAt hnot) fun _ => .ret false

theorem abandonGrant_lets (detail : String) (hnot : grant.id ∉ rest.map (·.id)) :
    Lets readings calls grant.id rest (abandonGrant config grant detail) := by
  refine .bind (failQaRun_calm ..).idle.lets fun _ => .bind (stopGrantDeploy_lets detail hnot) fun stopped => ?_
  split
  · exact dispatchRevoke_maintains _ hnot
  · exact .ret ()

theorem newDeployRunId_lets (kind : String) : Lets readings calls grant.id rest (newDeployRunId kind) :=
  fun _ hi hat => (newDeployRunId_safe hat hi).conseq hi fun _ _ _ h => h.1

theorem redispatchGrant_lets (hnot : grant.id ∉ rest.map (·.id)) :
    Lets readings calls grant.id rest (redispatchGrant grant) :=
  .bind (newDeployRunId_lets "grant") fun _ =>
    .bind (updateGrant_maintains hnot (quiet_fields rfl rfl) rfl) fun _ => (publishDeploy_idle ..).lets

theorem releaseQa_lets (hnot : grant.id ∉ rest.map (·.id)) : Lets readings calls grant.id rest (releaseQa grant) := by
  unfold releaseQa
  split
  · exact .ret ()
  · exact .bind (Idle.ask (.publishQA _)).lets fun _ =>
      .bind (updateGrant_maintains hnot (quiet_fields rfl rfl) rfl) fun _ => .ret ()

theorem settleGranted_lets (grant : TemporaryAccessGrant) (hnot : grant.id ∉ rest.map (·.id)) :
    Lets readings calls grant.id rest (settleGranted config grant) := by
  unfold settleGranted
  split
  · cases grant.revokeReason with
    | none => exact .raise _
    | some reason => exact dispatchRevoke_maintains reason hnot
  · refine .bind (revocationReason_calm config grant).idle.lets fun reason => ?_
    cases reason with
    | none => exact releaseQa_lets hnot
    | some reason => exact dispatchRevoke_maintains reason hnot

theorem settleGrantInFlight_lets (hnot : grant.id ∉ rest.map (·.id)) :
    Lets readings calls grant.id rest (settleGrantInFlight config grant) := by
  refine .bind (olderThan_calm ..).idle.lets fun expired => ?_
  split
  · exact abandonGrant_lets _ hnot
  · refine .bind (Idle.ask (.getRun grant.grantRunId)).lets fun run => ?_
    cases run with
    | none => exact redispatchGrant_lets hnot
    | some run =>
      dsimp only
      split
      · refine .bind (olderThan_calm ..).idle.lets fun stale => ?_
        split
        · exact abandonGrant_lets _ hnot
        · exact .ret ()
      · split
        · exact redispatchGrant_lets hnot
        · split
          · exact abandonGrant_lets _ hnot
          · have granted : Lets readings calls grant.id rest (settleGranted config { grant with status := .granted }) :=
              settleGranted_lets { grant with status := .granted } hnot
            exact .bind (updateGrant_maintains hnot (quiet_status rfl rfl nofun) rfl) fun _ => granted

theorem logRevokeFailed_safe {spent : Bool} (hat : At (fun row => row.escalatedAt = grant.escalatedAt) grant.id rest s) :
    (settlingRules readings calls).Safe .sweep (fun _ => At (fun row => row.escalatedAt = grant.escalatedAt) grant.id rest)
      (perform (.logRevokeFailed grant.id spent (spent && grant.escalatedAt.isNone))) s := by
  refine Safe.perform fun s' hi' hr _ _ => ?_
  have hat' := hat.grown (hr rfl)
  refine ⟨⟨hi'.noted (fun _ => rfl) (fun _ => rfl) (fun _ h => h) (fun _ _ _ _ hsame => by cases hsame) ?_,
    fun _ hne ht => absurd ht hne⟩, hat'⟩
  intro hc grantId calls' hsame
  obtain ⟨_, row, hrow, hmark⟩ := hat'
  cases hsame
  have hmarked := hi'.marked hc row (Grants.find_mem hrow)
  unfold Marked at hmarked
  rw [Grants.find_id hrow, hmark] at hmarked
  rw [hmarked]
  cases grant.escalatedAt <;> rfl

theorem recordRevokeFailure_safe (error : String) (hnot : grant.id ∉ rest.map (·.id)) (hi : Orderly readings calls s)
    (hat : At (fun row => row.escalatedAt = grant.escalatedAt) grant.id rest s) :
    (settlingRules readings calls).Safe .sweep (fun _ => At (fun _ => True) grant.id rest)
      (recordRevokeFailure config grant error) s := by
  have spent := (retriesAreSpent_calm config grant).idle.maintains at_stable s hi hat
  refine Safe.bind hi spent (fun spent s hi hat => ?_) fun _ _ _ h => h.there
  refine Safe.bind hi (logRevokeFailed_safe hat) (fun _ s hi hat => ?_) fun _ _ _ h => h.there
  cases hexhausted : spent && grant.escalatedAt.isNone with
  | false =>
    refine Safe.bind (M := fun _ => At (fun _ => True) grant.id rest) hi ?_ (fun _ _ _ h => h) fun _ _ _ h => h
    exact updateGrant_maintains hnot (quiet_status rfl rfl (by decide)) rfl s hi hat.there
  | true =>
    have hnone : grant.escalatedAt = none := by
      rw [Bool.and_eq_true, Option.isNone_iff_eq_none] at hexhausted
      exact hexhausted.2
    refine Safe.bind hi ((notifyAdmins_calm _).idle.maintains at_stable s hi hat) (fun _ s hi hat => ?_) fun _ _ _ h => h.there
    refine Safe.bind (M := fun _ => At (fun _ => True) grant.id rest) hi ?_ (fun _ _ _ h => h) fun _ _ _ h => h
    refine Safe.perform fun s' hi' hr reply _ => ?_
    obtain ⟨hheld, old, hold, hmark⟩ := hat.grown (hr rfl)
    exact keeps_at hnot hheld (escalateGrant_rewritten hi' hold fun _ => hmark.trans hnone)

theorem reportUnobservableGrant_lets (detail : String) (hnot : grant.id ∉ rest.map (·.id)) :
    Lets readings calls grant.id rest (reportUnobservableGrant config grant detail) := by
  unfold reportUnobservableGrant
  split
  · exact .ret ()
  · refine .bind (olderThan_calm ..).idle.lets fun old => ?_
    split
    · exact .ret ()
    · split
      · exact .ret ()
      · refine .bind (notifyAdmins_calm _).idle.lets fun _ => ?_
        exact .bind (updateGrant_maintains hnot (quiet_fields rfl rfl) rfl) fun _ => .ret ()

def Observed (grant : TemporaryAccessGrant) (rest : Grants)
    (answer : Except Exn (Option (Bool × TemporaryAccessGrant))) (s : State) : Prop :=
  At (fun _ => True) grant.id rest s ∧ ∀ present settled, answer = .ok (some (present, settled)) →
    At (fun row => row = settled ∧ row.escalatedAt = grant.escalatedAt) grant.id rest s

theorem observeRunningService_safe (slowAudit : Bool) (hnot : grant.id ∉ rest.map (·.id))
    (hi : Orderly readings calls s) (hat : At (· = grant) grant.id rest s) :
    (settlingRules readings calls).Safe .sweep (Observed grant rest) (observeRunningService config grant slowAudit) s := by
  have unread : ∀ {A : Type} {p : Sweep A} {s : State}, Idle p → Orderly readings calls s → At (· = grant) grant.id rest s →
      (settlingRules readings calls).Safe .sweep (fun _ => At (· = grant) grant.id rest) p s := fun hp hi hat =>
    hp.maintains at_stable _ hi hat
  have quit : ∀ {e : Exn} {s : State}, At (· = grant) grant.id rest s → Observed grant rest (.error e) s :=
    fun hat => ⟨hat.there, fun _ _ h => by cases h⟩
  have nothing : ∀ {s : State}, At (fun _ => True) grant.id rest s → Observed grant rest (.ok none) s :=
    fun hat => ⟨hat, fun _ _ h => by cases h⟩
  refine Safe.bind hi (unread (.ask (.getResult _)) hi hat) (fun observation s hi hat => ?_) fun _ _ _ h => quit h
  cases observation with
  | none =>
    exact Safe.bind hi (unread (askForObservation_calm ..).idle hi hat) (fun _ _ _ h => nothing h.there) fun _ _ _ h => quit h
  | some observation =>
    refine Safe.bind hi (unread (.ask (.deleteResult _)) hi hat) (fun _ s hi hat => ?_) fun _ _ _ h => quit h
    cases observation.outcome with
    | unreachable detail =>
      refine Safe.bind hi (reportUnobservableGrant_lets detail hnot s hi hat.there) (fun _ _ _ h => nothing h) ?_
      exact fun _ _ _ h => ⟨h, fun _ _ hsome => by cases hsome⟩
    | observed present =>
      refine Safe.bind hi (unread (observationTarget_calm grant).idle hi hat) (fun target s hi hat => ?_) fun _ _ _ h => quit h
      cases target with
      | none => exact nothing hat.there
      | some target =>
        dsimp only
        split
        · exact quit hat
        · refine Safe.bind (M := fun answer s => At (fun _ => True) grant.id rest s ∧ ∀ settled, answer = .ok settled →
            At (fun row => row = settled ∧ row.escalatedAt = grant.escalatedAt) grant.id rest s) hi
            (Safe.perform fun s' hi' hr reply hok => ?_) (fun settled s _ h => ⟨h.1, fun _ _ hsome => ?_⟩)
            fun _ _ _ h => ⟨h.1, fun _ _ hsome => by cases hsome⟩
          · obtain ⟨hheld, old, hold, rfl⟩ := hat.grown (hr rfl)
            have hrewritten := recordObservation_rewritten hi' hold (fun _ => rfl) (fun hr => hok.1 hr)
              fun hc hcarried hclosed => hok.2 hc hcarried _ hold hclosed
            obtain ⟨hrewritten, row, hrow, hmark, hanswer⟩ := hrewritten
            refine ⟨hrewritten.keeps, ⟨hrewritten.held hnot hheld, row, hrow, trivial⟩, fun settled hsettled => ?_⟩
            exact ⟨hrewritten.held hnot hheld, row, hrow, (hanswer settled hsettled).symm, hmark⟩
          · cases hsome
            exact h.2 _ rfl

section

variable (hnot : grant.id ∉ rest.map (·.id))

include hnot

section

variable (hi : Orderly readings calls s)

include hi

theorem settleRevokeInFlight_safe
    (hat : At (· = grant) grant.id rest s) :
    (settlingRules readings calls).Safe .sweep (fun _ => At (fun _ => True) grant.id rest)
      (settleRevokeInFlight config grant) s := by
  unfold settleRevokeInFlight
  cases grant.revokeRunId with
  | none => exact hat.there
  | some revokeRunId =>
    cases grant.revokeReason with
    | none => exact hat.there
    | some reason =>
      dsimp only
      have getRun := (Idle.ask (.getRun revokeRunId)).maintains at_stable s hi hat
      refine Safe.bind hi getRun (fun run s hi hat => ?_) fun _ _ _ h => h.there
      have again : Lets readings calls grant.id rest (dispatchRevoke grant reason) := dispatchRevoke_maintains reason hnot
      cases run with
      | none => exact again s hi hat.there
      | some run =>
        dsimp only
        split
        · refine Safe.bind hi ((olderThan_calm ..).idle.maintains at_stable s hi hat) (fun stale s hi hat => ?_)
            fun _ _ _ h => h.there
          split
          · exact again s hi hat.there
          · exact hat.there
        · split
          · exact again s hi hat.there
          · split
            · exact recordRevokeFailure_safe _ hnot hi (hat.weaken fun row hrow => by rw [hrow])
            · refine Safe.bind hi (observeRunningService_safe false hnot hi hat) (fun read s hi h => ?_)
                fun _ _ _ h => h.1
              split
              · next settled => exact recordRevokeFailure_safe _ hnot hi ((h.2 true settled rfl).weaken fun _ hrow => hrow.2)
              · exact h.1

theorem watchClosedGrant_safe
    (hat : At (· = grant) grant.id rest s) :
    (settlingRules readings calls).Safe .sweep (fun _ => At (fun _ => True) grant.id rest)
      (watchClosedGrant config grant) s := by
  refine Safe.bind hi ((pastTheWatchWindow_calm config grant).idle.maintains at_stable s hi hat) (fun slowAudit s hi hat => ?_)
    fun _ _ _ h => h.there
  refine Safe.bind hi (observeRunningService_safe slowAudit hnot hi hat) (fun read s hi h => ?_) fun _ _ _ h => h.1
  split
  · next settled =>
    split
    · exact h.1
    · obtain ⟨_, row, hrow, rfl, _⟩ := h.2 true settled rfl
      have hid : row.id = grant.id := Grants.find_id hrow
      refine Safe.bind hi ((notifyAdmins_calm _).idle.maintains at_stable s hi h.1) (fun _ s hi hat => ?_) fun _ _ _ h => h
      rw [← hid] at hnot hat ⊢
      exact dispatchRevoke_maintains _ hnot s hi hat
  · exact h.1

theorem settle_safe (hheld : Held (grant :: rest) s) :
    (settlingRules readings calls).Safe .sweep (fun _ => At (fun _ => True) grant.id rest) (settle config grant) s := by
  have hat : At (· = grant) grant.id rest s :=
    ⟨fun other hmem => hheld other (List.mem_cons_of_mem _ hmem), grant, hheld grant List.mem_cons_self, rfl⟩
  unfold settle
  split
  · exact settleGrantInFlight_lets hnot s hi hat.there
  · exact settleRevokeInFlight_safe hnot hi hat
  · exact watchClosedGrant_safe hnot hi hat
  · exact settleGranted_lets grant hnot s hi hat.there

theorem settleApart_safe
    (hheld : Held (grant :: rest) s) :
    (settlingRules readings calls).Safe .sweep (fun _ => Held rest) (settleApart config grant) s := by
  refine Safe.handle hi (settle_safe hnot hi hheld) (fun _ _ _ h => h.1) fun e s hi h => ?_
  split
  · exact h.1
  · exact h.1

end

end

theorem settleEach_safe {grants : Grants} (hids : (grants.map (·.id)).Nodup) (hi : Orderly readings calls s)
    (hheld : Held grants s) :
    (settlingRules readings calls).Safe .sweep (fun _ _ => True) (Prog.forEach grants (settleApart config)) s := by
  induction grants generalizing s with
  | nil => trivial
  | cons grant rest ih =>
    rw [List.map_cons, List.nodup_cons] at hids
    exact Safe.bind hi (settleApart_safe hids.1 hi hheld) (fun _ s hi hrest => ih hids.2 hi hrest) fun _ _ _ _ => trivial

end Writes

section Runs

variable {readings calls : Prop} {s : State} {config : SupervisorConfig} {handoffs : Nat → Handoff}

theorem listUnderWatch_held (grants : Grants) (hrows : grants.Consistent) (revokedAfter slotAuditBefore : Time) :
    ((listUnderWatch grants revokedAfter slotAuditBefore).map (·.id)).Nodup ∧
      ∀ grant ∈ listUnderWatch grants revokedAfter slotAuditBefore, grants.find grant.id = some grant := by
  refine ⟨?_, fun grant hmem => hrows.find (List.mem_filter.mp (List.mem_mergeSort.mp hmem)).1⟩
  have hsorted : (listUnderWatch grants revokedAfter slotAuditBefore).Perm
      (grants.filter (underWatch grants revokedAfter slotAuditBefore)) := List.mergeSort_perm ..
  exact (hsorted.map _).nodup_iff.mpr (hrows.ids.sublist (List.filter_sublist.map _))

theorem listUnderWatch_cases (revokedAfter slotAuditBefore : Time) (reply : Reply) (s : State) :
    (accessWorld.run .sweep (.listUnderWatch revokedAfter slotAuditBefore) reply s).2 = s ∧
      ∀ grants, (accessWorld.run .sweep (.listUnderWatch revokedAfter slotAuditBefore) reply s).1 = .ok grants →
        grants = listUnderWatch s.db.grants revokedAfter slotAuditBefore := by
  obtain ⟨fate, now, referenced⟩ := reply
  cases fate with
  | served => exact ⟨rfl, fun _ h => (Except.ok.inj h).symm⟩
  | _ => exact ⟨rfl, fun _ h => by cases h⟩

theorem sweep_safe (hi : Orderly readings calls s) :
    (settlingRules readings calls).Safe .sweep (fun _ _ => True) (superviseTemporaryAccess config) s := by
  refine Safe.bind (M := fun _ _ => True) hi ((Idle.ask .clock).maintains (fun _ _ _ _ _ => trivial) s hi trivial)
    (fun now s hi _ => ?_) fun _ _ _ _ => trivial
  refine Safe.bind (M := fun answer s => ∀ grants, answer = .ok grants → (List.map (·.id) grants).Nodup ∧ Held grants s) hi
    (Safe.perform fun s' hi' _ reply _ => ?_) (fun grants s hi h => settleEach_safe (h grants rfl).1 hi (h grants rfl).2)
    fun _ _ _ _ => trivial
  obtain ⟨hsame, hanswer⟩ := listUnderWatch_cases (now - 60 * config.revokedWatchMinutes)
    (now - 3600 * config.contractAuditHours) reply s'
  refine ⟨?_, fun grants hgrants => ?_⟩
  · rw [hsame]
    exact .refl _ hi'
  · rw [hsame, hanswer grants hgrants]
    exact listUnderWatch_held _ hi'.rows _ _

theorem createGrant_keeps {n : Nat} {grantIn : TemporaryAccessGrantCreate} {reply : Reply} (hi : Orderly readings calls s) :
    (settlingRules readings calls).Keeps (.handoff n) s (run (.handoff n) (.createGrant grantIn) reply s).2 := by
  change (settlingRules readings calls).Keeps (.handoff n) s (reply.fate.serve (fun s => s.createGrant grantIn reply) s).2
  have hcases := serve_cases (fun s => s.createGrant grantIn reply) s rfl reply.fate
  generalize reply.fate.serve (fun s => s.createGrant grantIn reply) s = result at hcases ⊢
  rcases hcases with ⟨hsame, _⟩ | ⟨row, db, hok, _, hstate, _⟩
  · rw [hsame]
    exact .refl _ hi
  rw [hstate]
  rcases Database.createGrant_ok hok with ⟨hfound, rfl⟩ | ⟨hnew, rfl, hgrants, hfree⟩
  · rw [hfound]
    exact .refl _ hi
  · rw [hnew]
    refine ⟨hi.created hnew hgrants rfl hfree (fun _ => counted_created grantIn) rfl, fun _ _ _ => ⟨?_, fun _ h => h⟩⟩
    intro grantId row hrow
    have hne : grantId ≠ (grantIn.row reply.now).id := by
      rintro rfl
      cases hnew.symm.trans hrow
    rw [hgrants, Grants.find_append_of_ne hne]
    exact hrow

theorem handoff_safe {n : Nat} (hi : Orderly readings calls s) :
    (settlingRules readings calls).Safe (.handoff n) (fun _ _ => True) (party config handoffs (.handoff n)) s := by
  have anywhere : (settlingRules readings calls).Stable (.handoff n) fun _ => True := fun _ _ _ _ _ => trivial
  have suffixed : (settlingRules readings calls).Maintains (.handoff n) (fun _ => True) (newDeployRunId "grant") :=
    .bind (.perform anywhere fun _ hi _ suffix _ => ⟨newSuffix_keeps hi, trivial⟩) fun _ => .ret _
  refine Maintains.bind suffixed (fun grantRunId => ?_) s hi trivial
  refine .bind (.perform anywhere fun _ hi _ reply _ => ⟨createGrant_keeps hi, trivial⟩) fun grant => ?_
  split
  · exact .ret ()
  · refine .bind ((Idle.ask (.getRun grant.grantRunId)).maintains anywhere) fun run => ?_
    split
    · exact .ret ()
    · exact (publishDeploy_idle ..).maintains anywhere

theorem reaches_orderly {runs : String → Option (Api.Run QARunResult)} {c : Config accessWorld}
    (h : Reaches (party config handoffs) (settlingRules readings calls).admits (.idle ⟨⟨runs, []⟩, []⟩) c) :
    Orderly readings calls c.state := by
  have opening : Orderly readings calls ⟨⟨runs, []⟩, []⟩ := by
    refine ⟨⟨List.nodup_nil, fun _ hmem => ?_⟩, fun _ _ hmem => ?_, fun _ _ _ _ _ hmem => ?_, fun _ _ hmem => ?_,
      fun _ => .nil⟩
    all_goals cases hmem
  have done : ∀ t s (r : Option (Except Exn Unit)), Orderly readings calls s → (settlingRules readings calls).Ends t r s :=
    fun _ _ _ hi => ⟨.refl _ hi, trivial⟩
  refine (reaches_sound (.idle opening fun _ => trivial) (fun t s hi _ _ => ?_) (fun t s hi _ => done t s none hi) h).inv
  cases t with
  | sweep => exact (sweep_safe hi).conseq hi fun r s hi _ => done _ _ (some r) hi
  | handoff n => exact (handoff_safe hi).conseq hi fun r s hi _ => done _ _ (some r) hi

end Runs

end Orchestrator.Access
