import Orchestrator.Qa.Journal

/-!
A key that is on a target has a record that the sweep selects, in every run of
deliveries and sweeps whose moves keep the journal.
-/

namespace Orchestrator.Qa

open Async Async.Rules

def Upward (P : State → Prop) : Prop := ∀ s s' : State, s.trace ⊆ s'.trace → P s → P s'

section Programs

variable {t : Party} {s : State} {P Q : State → Prop} {A : Type} {runId : String} {grant : QASshGrant}

theorem Upward.stable (h : Upward P) : journalRules.Stable t P := fun s s' _ hr hP => h s s' hr.trace hP

theorem ask_maintains {op : Op} (hop : ∀ answer s, (run t op answer s).2 = s) (hst : journalRules.Stable t P) :
    journalRules.Maintains t P (Prog.perform op) :=
  .perform hst fun s hi hP answer _ => by
    rw [hop]
    exact ⟨.refl _ hi, hP⟩

theorem writeGrant_safe (hst : journalRules.Stable t P) (hP : P s) (hQ : Upward Q) (hPQ : ∀ s, P s → Q s)
    (hw : ∀ s, P s → Writable t runId grant s)
    (hreleased : ∀ s fate, Sound s → P s → journalKept s (.call t (.patchGrant runId grant) fate) →
      fate.carriedOut = true → grant.held = false → s.present grant.serverIp grant.qaSshUser grant.marker = false) :
    journalRules.Safe t (fun r s => Q s ∧ (r = .ok () → .wrote runId grant ∈ s.trace)) (writeGrant runId grant) s :=
  Safe.perform fun s' hi' hr fate hadm => by
    have hP' := hst s s' hi' hr hP
    obtain ⟨hkeeps, hwrote⟩ := patch_keeps hi' hadm (hw s' hP') (hreleased s' fate hi' hP' hadm)
    exact ⟨hkeeps, hQ _ _ (run_trace _ _) (hPQ s' hP'), hwrote⟩

theorem writeGrant_maintains (hP : Upward P) {old : QASshGrant} (hold : ∀ s, P s → .wrote runId old ∈ s.trace)
    (hkey : old.key = grant.key) (hheld : grant.held = true) : journalRules.Maintains t P (writeGrant runId grant) := by
  intro s hi hPs
  refine (writeGrant_safe hP.stable hPs hP (fun _ h => h) (fun s h => .inl ⟨old, hold s h, hkey⟩) ?_).conseq hi
    fun _ _ _ h => h.1
  intro _ _ _ _ _ _ hfalse
  rw [hheld] at hfalse
  cases hfalse

theorem orLeave_safe {outcome : QAGrantOutcome} {p : Job A} {f : A → Job Left} {M : Except Exn A → State → Prop}
    (hi : Sound s) (hp : journalRules.Safe t M p s)
    (hok : ∀ a s, Sound s → M (.ok a) s → journalRules.Safe t (fun _ _ => True) (f a) s) :
    journalRules.Safe t (fun _ _ => True) (orLeave outcome p f) s := by
  refine Safe.bind (M := fun r s => ∃ r', r = .ok r' ∧ M r' s) hi
    (Safe.attempt (hp.conseq hi fun r s _ h => ⟨r, rfl, h⟩)) ?_ fun _ _ _ _ => trivial
  rintro r s hi ⟨_, ⟨⟩, h⟩
  cases r with
  | ok a => exact hok a s hi h
  | error e => trivial

theorem revokeGrant_safe {admin : Admin} {user marker : String} (hi : Sound s) (hP : Upward P) (hPs : P s) :
    journalRules.Safe t (fun r s => P s ∧ (r = .ok none →
        .readGone t admin.serverIp user marker ∈ s.trace ∧ s.present admin.serverIp user marker = false))
      (revokeGrant admin user marker) s := by
  refine Safe.bind (M := fun r s => P s ∧ ∀ completed : Completed, r = .ok completed → completed.exitStatus = 0 →
      completed.count = some 0 → .readGone t admin.serverIp user marker ∈ s.trace ∧
        s.present admin.serverIp user marker = false) hi
    (Safe.perform fun s' hi' hr script _ => ?_) (fun completed s _ h => ?_) fun _ _ _ h => ⟨h.1, fun he => by cases he⟩
  · obtain ⟨hkeeps, hgone⟩ := revoke_keeps admin user marker script hi'
    exact ⟨hkeeps, hP _ _ (run_trace _ _) (hP.stable s s' hi' hr hPs), hgone⟩
  · dsimp only
    split
    · exact ⟨h.1, fun he => by cases he⟩
    · next count hcount =>
      split
      · exact ⟨h.1, fun he => by cases he⟩
      · next hexit =>
        split
        · exact ⟨h.1, fun he => by cases he⟩
        · next hzero =>
          refine ⟨h.1, fun _ => h.2 completed rfl (not_not.mp hexit) ?_⟩
          rw [hcount, not_not.mp hzero]

end Programs

section Deliveries

variable {delivery : Delivery} {marker : String} {s : State} {outcome : QAGrantOutcome}

def Fresh (delivery : Delivery) (marker : String) (s : State) : Prop :=
  .minted (.qa delivery) marker ∈ s.trace ∧ ∀ runId grant, .wrote runId grant ∈ s.trace → grant.marker ≠ marker

def Journalled (delivery : Delivery) (marker : String) (s : State) : Prop :=
  .minted (.qa delivery) marker ∈ s.trace ∧
    .wrote delivery.runId (newGrant delivery.target marker delivery.issuedAt) ∈ s.trace

theorem fresh_stable : journalRules.Stable (.qa delivery) (Fresh delivery marker) := fun _ _ _ hr h =>
  ⟨hr.trace h.1, hr.unwritten marker h.1 h.2⟩

theorem journalled_upward : Upward (Journalled delivery marker) := fun _ _ hsub h => ⟨hsub h.1, hsub h.2⟩

theorem newGrantMarker_safe :
    journalRules.Safe (.qa delivery) (fun r s => ∀ marker, r = .ok marker → Fresh delivery marker s) newGrantMarker s := by
  intro s' hi' _ hex hfresh
  refine ⟨mint_keeps hi' hfresh, ?_⟩
  rintro marker ⟨⟩
  refine ⟨List.mem_cons_self, fun runId grant h hmarker => ?_⟩
  rcases List.mem_cons.mp h with he | h
  · cases he
  · exact hfresh (hmarker ▸ hi'.known h)

theorem installGrant_maintains : journalRules.Maintains (.qa delivery) (Journalled delivery marker)
    (installGrant delivery.target delivery.fleetKey (grantEntry delivery.publicKey marker delivery.expiry)) := by
  refine .bind (.handle (.perform journalled_upward.stable fun s hi h script hadm => ?_) fun e => ?_) fun result => ?_
  · exact ⟨install_keeps hi hadm h.1 h.2 rfl, journalled_upward s _ (run_trace _ _) h⟩
  · split
    · exact .raise _
    · exact .raise _
  · split
    · exact .raise _
    · split
      · exact .raise _
      · exact .ret ()

theorem useTarget_maintains : journalRules.Maintains (.qa delivery) (Journalled delivery marker)
    (useTarget delivery.target) := by
  refine .bind (.handle (ask_maintains (fun _ _ => rfl) journalled_upward.stable) fun e => ?_) fun _ =>
    ask_maintains (fun _ _ => rfl) journalled_upward.stable
  split
  · exact .raise _
  · exact .raise _

def ReadBack (delivery : Delivery) (marker : String) (residual : Option String) (s : State) : Prop :=
  Journalled delivery marker s ∧
    (residual = none → s.present delivery.target.serverIp delivery.target.qaSshUser marker = false)

theorem readBack_stable {residual : Option String} :
    journalRules.Stable (.qa delivery) (ReadBack delivery marker residual) := fun s s' hi hr h =>
  ⟨journalled_upward.stable s s' hi hr h.1, fun hnone => hr.absent marker h.1.1 _ _ (h.2 hnone)⟩

theorem readBack_safe (hi : Sound s) (h : Journalled delivery marker s) :
    journalRules.Safe (.qa delivery) (fun r s => Journalled delivery marker s ∧
        ∀ residual, r = .ok residual → ReadBack delivery marker residual s) (readBack delivery marker) s := by
  refine Safe.handle hi (revokeGrant_safe hi journalled_upward h) (fun residual s _ h => ?_) fun e s _ h => ?_
  · refine ⟨h.1, ?_⟩
    rintro _ ⟨⟩
    exact ⟨h.1, fun hnone => (h.2 (by rw [hnone])).2⟩
  · split
    · refine ⟨h.1, ?_⟩
      rintro _ ⟨⟩
      exact ⟨h.1, fun hnone => by cases hnone⟩
    · exact ⟨h.1, fun _ hr => by cases hr⟩

theorem takeBack_safe {grant : QASshGrant} (hi : Sound s) (h : Journalled delivery outcome.marker s)
    (hkey : (newGrant delivery.target outcome.marker delivery.issuedAt).key = grant.key) :
    journalRules.Safe (.qa delivery) (fun _ _ => True) (takeBack delivery grant outcome) s := by
  refine orLeave_safe hi (readBack_safe hi h) fun residual s hi h => ?_
  refine orLeave_safe hi (writeGrant_safe (Q := fun _ => True) readBack_stable (h.2 residual rfl) (fun _ _ _ h => h)
    (fun _ _ => trivial) (fun s h => .inl ⟨_, h.1.2, hkey⟩) ?_) fun _ _ _ _ => trivial
  intro s _ _ h _ _ hreleased
  have hnone : residual = none := by
    cases residual with
    | none => rfl
    | some text => cases hreleased
  have hat : (outcome.marker, delivery.target.serverIp, delivery.target.qaSshUser) =
      (grant.marker, grant.serverIp, grant.qaSshUser) := hkey
  simp only [Prod.mk.injEq] at hat
  dsimp only
  rw [← hat.1, ← hat.2.1, ← hat.2.2]
  exact h.2 hnone

theorem qaTargetGrant_safe (hi : Sound s) (h : Fresh delivery outcome.marker s) :
    journalRules.Safe (.qa delivery) (fun _ _ => True) (qaTargetGrant delivery outcome) s := by
  have opened : journalRules.Maintains (.qa delivery) (Journalled delivery outcome.marker) (writeGrant delivery.runId
      { newGrant delivery.target outcome.marker delivery.issuedAt with state := .opened }) :=
    writeGrant_maintains journalled_upward (fun _ h => h.2) rfl rfl
  refine orLeave_safe hi (writeGrant_safe (Q := fun s => .minted (.qa delivery) outcome.marker ∈ s.trace) fresh_stable h
    (fun _ _ hsub h => hsub h) (fun _ h => h.1) (fun _ h => .inr h) fun _ _ _ _ _ _ hreleased => by cases hreleased)
    fun _ s hi h => ?_
  have hjournalled : Journalled delivery outcome.marker s := ⟨h.1, h.2 rfl⟩
  refine Safe.bind hi (installGrant_maintains.attempt s hi hjournalled) (fun installed s hi h => ?_) fun _ _ _ _ => trivial
  cases installed with
  | error e => trivial
  | ok _ =>
    refine orLeave_safe hi (opened s hi h) fun _ s hi h => ?_
    refine Safe.bind hi (useTarget_maintains.attempt s hi h) (fun used s hi h => ?_) fun _ _ _ _ => trivial
    exact Safe.bind hi (takeBack_safe hi h rfl) (fun _ _ _ _ => trivial) fun _ _ _ _ => trivial

end Deliveries

section Sweeps

variable {worker pages : Nat} {s : State} {P : State → Prop} {runId : String} {grant : QASshGrant}

theorem settleRevoke_maintains (hP : Upward P) (hwrote : ∀ s, P s → .wrote runId grant ∈ s.trace)
    (hheld : grant.held = true) {residual : Option String}
    (hgone : residual = none → ∀ s, P s →
      .readGone (.sweep worker pages) grant.serverIp grant.qaSshUser grant.marker ∈ s.trace) :
    journalRules.Maintains (.sweep worker pages) P (settleRevoke runId grant residual) := by
  have failed (detail : String) : journalRules.Maintains (.sweep worker pages) P (writeGrant runId (grant.failed detail)) :=
    writeGrant_maintains hP hwrote rfl hheld
  cases residual with
  | none =>
    refine .bind (fun s hi h => ?_) fun _ => .ret _
    refine Safe.conseq hi (writeGrant_safe hP.stable h hP (fun _ h => h) (fun s h => .inl ⟨grant, hwrote s h, rfl⟩) ?_)
      fun _ _ _ h => h.1
    -- the sweep goes by its own revocation, and the key has not come since
    intro s fate hi h hadm hcarried hreleased
    have hread := hgone rfl s h
    exact hi.gone hread ((hadm hcarried).2 hreleased)
  | some residual =>
    refine .bind (failed residual) fun _ => ?_
    split
    · refine .bind (.handle (.bind (ask_maintains (fun _ _ => rfl) hP.stable) fun _ => .ret true) fun e => ?_) fun _ => .ret _
      split
      · exact .ret false
      · exact .raise e
    · exact .ret _

theorem sweepRevoke_safe {sshKey : String} (hi : Sound s) (hP : Upward P) (h : P s) :
    journalRules.Safe (.sweep worker pages) (fun r s => P s ∧ (r = .ok none →
        .readGone (.sweep worker pages) grant.serverIp grant.qaSshUser grant.marker ∈ s.trace))
      (sweepRevoke grant sshKey) s := by
  refine Safe.handle hi (revokeGrant_safe hi hP h) (fun residual s _ h => ⟨h.1, fun hr => (h.2 hr).1⟩) fun e s _ h => ?_
  split
  · exact ⟨h.1, fun hr => by cases hr⟩
  · exact ⟨h.1, fun hr => by cases hr⟩

theorem reconcile_maintains (hP : Upward P) (hwrote : ∀ s, P s → .wrote runId grant ∈ s.trace)
    (hheld : grant.held = true) : journalRules.Maintains (.sweep worker pages) P (reconcile runId grant) := by
  refine .bind (ask_maintains (fun _ _ => rfl) hP.stable) fun sshKey => ?_
  split
  · exact .bind (writeGrant_maintains hP hwrote rfl hheld) fun _ => .ret _
  · intro s hi h
    refine Safe.bind hi (sweepRevoke_safe hi hP h) (fun residual s hi h => ?_) fun _ _ _ h => h.1
    have hsettle := settleRevoke_maintains (P := fun s => P s ∧ (residual = none →
        .readGone (.sweep worker pages) grant.serverIp grant.qaSshUser grant.marker ∈ s.trace))
      (fun s s' hsub h => ⟨hP s s' hsub h.1, fun hr => hsub (h.2 hr)⟩) (fun s h => hwrote s h.1) hheld
      fun hnone s h => h.2 hnone
    refine (hsettle s hi ⟨h.1, fun hnone => h.2 (by rw [hnone])⟩).conseq hi fun _ _ _ h => h.1

def Listed (holdings : List Holding) (s : State) : Prop :=
  ∀ run grant, ⟨run, .grant grant⟩ ∈ holdings → .wrote run.id grant ∈ s.trace

theorem listed_upward {holdings : List Holding} : Upward (Listed holdings) :=
  fun _ _ hsub h run grant hmem => hsub (h run grant hmem)

theorem reconcileEach_maintains {holdings : List Holding} {counts : Counts} (hP : Upward P)
    (hlisted : ∀ s, P s → Listed holdings s) :
    journalRules.Maintains (.sweep worker pages) P (reconcileEach holdings counts) := by
  induction holdings generalizing counts with
  | nil => exact .ret counts
  | cons holding holdings ih =>
    have rest (counts : Counts) : journalRules.Maintains (.sweep worker pages) P (reconcileEach holdings counts) :=
      ih fun s h run grant hmem => hlisted s h run grant (List.mem_cons_of_mem _ hmem)
    obtain ⟨run, record⟩ := holding
    cases record with
    | unreadable text => exact rest _
    | grant grant =>
      unfold reconcileEach
      split
      · next hheld =>
        exact .bind (reconcile_maintains hP (fun s h => hlisted s h run grant List.mem_cons_self) hheld) fun _ => rest _
      · exact rest _

theorem selected_listed (hi : Sound s) : Listed s.selected s := by
  intro run grant hmem
  obtain ⟨found, _, hfound⟩ := List.mem_filterMap.mp hmem
  have hgrant : s.grantOf run.id = some grant := by
    unfold State.holding at hfound
    unfold State.grantOf
    split at hfound
    · cases hfound
    · cases hfound
    · next held hrecord =>
      split at hfound
      · cases hfound
        rw [hrecord]
      · cases hfound
  exact (hi.recorded hgrant).1

theorem listHolding_listed {limit : Nat} {after : Option RunRow} (hi : Sound s) : Listed (s.listHolding limit after) s :=
  fun run grant hmem => selected_listed hi run grant
    (List.mem_of_mem_filter (List.mem_mergeSort.mp (List.mem_of_mem_take hmem)))

theorem sweepQaSshGrants_maintains {left : Nat} {after : Option RunRow} {counts : Counts} :
    journalRules.Maintains (.sweep worker pages) (fun _ => True) (sweepQaSshGrants left after counts) := by
  induction left generalizing after counts with
  | zero => exact .ret counts
  | succ left ih =>
    intro s hi _
    refine Safe.bind (M := fun r s => ∀ holdings, r = .ok holdings → Listed holdings s) hi
      (Safe.perform fun s' hi' _ fate _ => ?_) (fun holdings s hi h => ?_) fun _ _ _ _ => trivial
    · cases fate with
      | served =>
        refine ⟨.refl _ hi', ?_⟩
        rintro _ ⟨⟩
        exact listHolding_listed hi'
      | _ => exact ⟨.refl _ hi', fun _ hr => by cases hr⟩
    · refine Safe.bind hi (reconcileEach_maintains listed_upward (fun _ h => h) s hi (h holdings rfl))
        (fun counts s hi _ => ?_) fun _ _ _ _ => trivial
      split
      · trivial
      · exact ih s hi trivial

end Sweeps

structure Opening (s : State) : Prop where
  trace : s.trace = []
  unrecorded : ∀ runId, s.grantOf runId = none
  absent : ∀ serverIp qaSshUser marker, s.present serverIp qaSshUser marker = false

theorem Opening.sound {s : State} (h : Opening s) : Sound s := by
  have never {event : Event} (hmem : event ∈ s.trace) : False := by
    rw [h.trace] at hmem
    cases hmem
  refine ⟨fun hmem => (never hmem).elim, fun hmem => (never hmem).elim, fun hmem => (never hmem).elim, fun hrecord => ?_,
    fun hpresent => ?_, fun hmem => (never hmem).elim⟩
  · rw [h.unrecorded] at hrecord
    cases hrecord
  · rw [h.absent] at hpresent
    cases hpresent

theorem body_safe {t : Party} {s : State} (hi : Sound s) : journalRules.Safe t (fun _ _ => True) (body t) s := by
  cases t with
  | qa delivery =>
    refine Safe.bind hi (M := fun _ _ => True) (Safe.bind hi newGrantMarker_safe (fun marker s hi h => ?_)
      fun _ _ _ _ => trivial) (fun _ _ _ _ => trivial) fun _ _ _ _ => trivial
    exact qaTargetGrant_safe hi (h marker rfl)
  | sweep worker pages =>
    exact Safe.bind hi (sweepQaSshGrants_maintains s hi trivial) (fun _ _ _ _ => trivial) fun _ _ _ _ => trivial

theorem reaches_sound {s : State} (h : Opening s) {c : Config qaWorld} (hreach : Reaches body journalKept (.idle s) c) :
    Sound c.state := by
  refine (Rules.reaches_sound (G := journalRules) (.idle h.sound fun _ => trivial) (fun t s hi _ _ => ?_)
    (fun t s hi _ => ⟨.refl _ hi, trivial⟩) hreach).inv
  exact (body_safe hi).conseq hi fun _ _ hi _ => ⟨.refl _ hi, trivial⟩

/-- The key of a run that is on a target is the key of a record that the sweep
selects, and the record says where it is. -/
theorem installed_key_selected {s : State} (h : Opening s) {c : Config qaWorld}
    (hreach : Reaches body journalKept (.idle s) c) (delivery : Delivery) (marker serverIp qaSshUser : String)
    (hminted : .minted (.qa delivery) marker ∈ c.state.trace)
    (hpresent : c.state.present serverIp qaSshUser marker = true) :
    ∃ holding ∈ c.state.selected, holding.run.id = delivery.runId ∧
      ∃ grant, holding.record = .grant grant ∧ grant.key = (marker, serverIp, qaSshUser) := by
  have hsound := reaches_sound h hreach
  obtain ⟨owner, grant, howner, hgrant, hheld, hkey⟩ := hsound.keys hpresent
  cases hsound.once hminted howner
  obtain ⟨run, hrun, hid⟩ := (hsound.recorded hgrant).2
  refine ⟨⟨run, .grant grant⟩, List.mem_filterMap.mpr ⟨run, hrun, ?_⟩, hid, grant, rfl, hkey⟩
  unfold State.grantOf at hgrant
  unfold State.holding
  rw [hid]
  split at hgrant
  · next hrecord =>
    cases hgrant
    rw [hrecord]
    exact if_pos hheld
  · cases hgrant

instance (s : State) (m : Move qaWorld) : Decidable (journalKept s m) := by
  unfold journalKept
  (repeat' split) <;> infer_instance

def sampleDelivery : Delivery where
  runId := "qa-7"
  attempt := 0
  target := ⟨"vps-1", "10.0.0.5", "root", "codegen-qa"⟩
  fleetKey := "fleet"
  publicKey := "ssh-ed25519 AAAA"
  expiry := "202601011200"
  issuedAt := 10

def sampleAccounts (serverIp qaSshUser : String) : Account :=
  if serverIp = "10.0.0.5" ∧ qaSshUser = "codegen-qa" then .keys [.other "# keys of QA runs"] else .absent

def sampleState : State := ⟨[⟨"qa-7", 1⟩], fun _ => none, sampleAccounts, []⟩

theorem sampleState_opening : Opening sampleState := by
  refine ⟨rfl, fun _ => rfl, fun serverIp qaSshUser marker => ?_⟩
  change (sampleAccounts serverIp qaSshUser).present marker = false
  unfold sampleAccounts
  split
  · rfl
  · rfl

def sampleAnswers : (op : Op) → op.Answer
  | .newHex => "5f1c"
  | .patchGrant .. => .served
  | .installGrant .. => ⟨.served, none⟩
  | .revokeGrant .. => ⟨.served, none⟩
  | .connect .. => .ok ()
  | .useSession => .ok ()
  | .listHolding .. => .served
  | .getServerSshKey _ => .ok (some "fleet")
  | .patchOutcome .. => .ok ()

def served (t : Party) : Turn qaWorld := .call t sampleAnswers

def sampleInstall : List (Turn qaWorld) :=
  [.start (.qa sampleDelivery), served (.qa sampleDelivery), served (.qa sampleDelivery), served (.qa sampleDelivery)]

theorem sampleInstall_selected : ∃ holding ∈ ((Config.idle sampleState).play body sampleInstall).state.selected,
    holding.run.id = "qa-7" ∧
      ∃ grant, holding.record = .grant grant ∧ grant.key = ("codegen-qa-run-5f1c", "10.0.0.5", "codegen-qa") :=
  installed_key_selected sampleState_opening (play_reaches (by decide +kernel)) sampleDelivery "codegen-qa-run-5f1c"
    "10.0.0.5" "codegen-qa" (by decide +kernel) (by decide +kernel)

def markersFresh (s : State) : Move qaWorld → Prop
  | .call _ .newHex hex => markerOf hex ∉ minted s.trace
  | _ => True

instance (s : State) (m : Move qaWorld) : Decidable (markersFresh s m) := by
  unfold markersFresh
  split <;> infer_instance

def sampleRace : List (Turn qaWorld) :=
  [.start (.qa sampleDelivery), served (.qa sampleDelivery), served (.qa sampleDelivery),
    .start (.sweep 0 1), served (.sweep 0 1), served (.sweep 0 1), served (.sweep 0 1), served (.sweep 0 1),
    served (.qa sampleDelivery), .stop (.qa sampleDelivery)]

theorem sweep_before_install_orphans : ¬ ∀ (s : State) (c : Config qaWorld), Opening s →
    Reaches body markersFresh (.idle s) c → ∀ (delivery : Delivery) (marker serverIp qaSshUser : String),
    .minted (.qa delivery) marker ∈ c.state.trace → c.state.present serverIp qaSshUser marker = true →
    ∃ holding ∈ c.state.selected, holding.run.id = delivery.runId ∧
      ∃ grant, holding.record = .grant grant ∧ grant.key = (marker, serverIp, qaSshUser) := by
  intro h
  obtain ⟨holding, hmem, _⟩ := h sampleState ((Config.idle sampleState).play body sampleRace) sampleState_opening
    (play_reaches (by decide +kernel)) sampleDelivery "codegen-qa-run-5f1c" "10.0.0.5" "codegen-qa" (by decide +kernel)
    (by decide +kernel)
  have hnone : ((Config.idle sampleState).play body sampleRace).state.selected = [] := by decide +kernel
  rw [hnone] at hmem
  cases hmem

end Orchestrator.Qa
