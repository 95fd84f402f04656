import Orchestrator.Access.Episodes
import Orchestrator.Access.Ledger

/-!
QA starts when its access is in place: what the record of a grant says of what was read and
published for it.
-/

namespace Orchestrator.Access

open Async Async.Rules Contracts
open Api (TemporaryAccessStatus TemporaryAccessEscalation)

structure Vouched (acts : List Act) (row : TemporaryAccessGrant) : Prop where
  named : row.id = temporaryAccessGrantId row.qaMessage.runId
  deployed : row.status = .granted → Deployed row.grantRunId acts
  unrevoked : row.status = .granting ∨ row.status = .granted → Unrevoked row.id acts
  unstamped : row.qaDispatchedAt = none → .stamped row.id ∉ acts
  released : ∀ message before, .published message before ∈ acts →
    temporaryAccessGrantId message.runId = row.id → message = row.qaMessage

def Act.grant : Act → Option String
  | read .. => none
  | published message _ => some (temporaryAccessGrantId message.runId)
  | dispatched request => request.revokeReason.map fun _ => request.grantId
  | stamped grantId => some grantId

structure Books (s : Ledger) : Prop where
  rows : s.base.db.grants.Consistent
  vouched : ∀ row ∈ s.base.db.grants, Vouched s.acts row
  known : ∀ act ∈ s.acts, ∀ grantId, act.grant = some grantId → s.base.db.grants.find grantId ≠ none
  clean : Clean ReleaseDue s.acts

structure Extended (s s' : Ledger) : Prop where
  rows : ∀ grantId row, s.base.db.grants.find grantId = some row → s'.base.db.grants.find grantId = some row
  acts : s.acts ⊆ s'.acts

theorem Extended.refl (s : Ledger) : Extended s s := ⟨fun _ _ h => h, fun _ h => h⟩

theorem Extended.trans {s s' s'' : Ledger} (h : Extended s s') (h' : Extended s' s'') : Extended s s'' :=
  ⟨fun grantId row hrow => h'.rows grantId row (h.rows grantId row hrow), fun _ hmem => h'.acts (h.acts hmem)⟩

def releasing : Rules ledgerWorld where
  admits := anyMove
  inv := Books
  rely t s s' := t = .sweep → Extended s s'
  rely_refl _ s := fun _ => .refl s
  rely_trans h h' := fun ht => (h ht).trans (h' ht)
  rest _ _ := True
  rest_stable _ _ h := h

section Rows

variable {acts : List Act} {row old : TemporaryAccessGrant} {grantId : String} {update : TemporaryAccessGrantUpdate} {now : Time}

theorem Deployed.mono {runId : String} {acts' : List Act} (h : Deployed runId acts) (hsub : acts ⊆ acts') : Deployed runId acts' := by
  obtain ⟨run, hread, hrun⟩ := h
  exact ⟨run, hsub hread, hrun⟩

theorem Vouched.cons {act : Act} (h : Vouched acts row) (hother : act.grant ≠ some row.id) : Vouched (act :: acts) row := by
  refine ⟨h.named, fun hstatus => (h.deployed hstatus).mono (List.subset_cons_self ..), fun hstatus => ?_, fun hnone => ?_, ?_⟩
  · intro request hmem hid
    rcases List.mem_cons.mp hmem with rfl | hmem
    · cases hreason : request.revokeReason with
      | none => rfl
      | some reason =>
        refine absurd ?_ hother
        simp only [Act.grant, hreason, Option.map_some, hid]
    · exact h.unrevoked hstatus request hmem hid
  · intro hmem
    rcases List.mem_cons.mp hmem with rfl | hmem
    · exact hother rfl
    · exact h.unstamped hnone hmem
  · intro message before hmem hid
    rcases List.mem_cons.mp hmem with rfl | hmem
    · exact absurd (congrArg some hid) hother
    · exact h.released message before hmem hid

theorem Vouched.closing (h : Vouched acts old) (hid : row.id = old.id) (hmessage : row.qaMessage = old.qaMessage)
    (hstatus : row.status ≠ .granting ∧ row.status ≠ .granted) (hstamp : row.qaDispatchedAt = old.qaDispatchedAt) :
    Vouched acts row := by
  refine ⟨?_, fun hgranted => absurd hgranted hstatus.2, fun hopen => ?_, fun hnone => ?_, ?_⟩
  · rw [hid, hmessage]
    exact h.named
  · rcases hopen with hopen | hopen
    · exact absurd hopen hstatus.1
    · exact absurd hopen hstatus.2
  · rw [hid]
    exact h.unstamped (hstamp ▸ hnone)
  · rw [hid, hmessage]
    exact h.released

theorem Vouched.publish {before : Option TemporaryAccessGrant} (h : Vouched acts row) : Vouched (.published row.qaMessage before :: acts) row := by
  refine ⟨h.named, fun hgranted => (h.deployed hgranted).mono (List.subset_cons_self ..), fun hopen request hmem => ?_,
    fun hnone hmem => ?_, fun message other hmem hid => ?_⟩
  · rcases List.mem_cons.mp hmem with heq | hmem
    · cases heq
    · exact h.unrevoked hopen request hmem
  · rcases List.mem_cons.mp hmem with heq | hmem
    · cases heq
    · exact h.unstamped hnone hmem
  · rcases List.mem_cons.mp hmem with heq | hmem
    · cases heq
      rfl
    · exact h.released message other hmem hid

theorem Vouched.dispatch {request : DeployRequest} (h : Vouched acts row) (hstatus : row.status ≠ .granting ∧ row.status ≠ .granted) :
    Vouched (.dispatched request :: acts) row := by
  refine ⟨h.named, fun hgranted => absurd hgranted hstatus.2, fun hopen => ?_, fun hnone hmem => ?_, fun message before hmem => ?_⟩
  · rcases hopen with hopen | hopen
    · exact absurd hopen hstatus.1
    · exact absurd hopen hstatus.2
  · rcases List.mem_cons.mp hmem with heq | hmem
    · cases heq
    · exact h.unstamped hnone hmem
  · rcases List.mem_cons.mp hmem with heq | hmem
    · cases heq
    · exact h.released message before hmem

theorem updateRow_fields (h : updateRow grantId update now old = .ok row) :
    row.id = old.id ∧ row.qaMessage = old.qaMessage ∧ (update.grantRunId = none → row.grantRunId = old.grantRunId) ∧
      row.qaDispatchedAt = if update.qaDispatched then old.qaDispatchedAt.or (some now) else old.qaDispatchedAt := by
  unfold updateRow at h
  split at h
  · cases h
  obtain ⟨grantRunId, hrun, h⟩ := bind_ok h
  obtain ⟨_, _, h⟩ := bind_ok h
  cases h
  refine ⟨rfl, rfl, fun hnone => ?_, rfl⟩
  rw [hnone] at hrun
  exact (Except.ok.inj hrun).symm

/-- An update says that a grant is granted only where its deploy has succeeded, and names another
deploy only for a grant that is not granted yet. -/
structure Allows (update : TemporaryAccessGrantUpdate) (acts : List Act) (old : TemporaryAccessGrant) : Prop where
  granting : ∀ status ∈ update.status, status.val ≠ .granting
  granted : ∀ status ∈ update.status, status.val = .granted →
    Deployed old.grantRunId acts ∧ update.grantRunId = none ∧ old.status = .granting
  renamed : update.grantRunId ≠ none → update.status = none ∧ old.status = .granting

theorem allows_closing (hrun : update.grantRunId = none)
    (hstatus : ∀ status ∈ update.status, status.val ≠ .granting ∧ status.val ≠ .granted) : Allows update acts old :=
  ⟨fun status hmem => (hstatus status hmem).1, fun status hmem hgranted => absurd hgranted (hstatus status hmem).2,
    fun hsome => absurd hrun hsome⟩

theorem Vouched.updated (h : Vouched acts old) (hallows : Allows update acts old) (hrow : updateRow grantId update now old = .ok row) :
    Vouched ((if update.qaDispatched then [.stamped row.id] else []) ++ acts) row := by
  obtain ⟨hid, hmessage, hrun, hstamp⟩ := updateRow_fields hrow
  have hstatus := (updateRow_run hrow).2.1
  have hopen : row.status = .granting ∨ row.status = .granted → old.status = .granting ∨ old.status = .granted := by
    rw [hstatus]
    cases hset : update.status with
    | none => exact fun h => h
    | some status =>
      rintro (hgranting | hgranted)
      · exact absurd hgranting (hallows.granting status hset)
      · exact .inl (hallows.granted status hset hgranted).2.2
  have hdeployed : row.status = .granted → Deployed row.grantRunId acts := by
    intro hgranted
    rw [hstatus] at hgranted
    cases hset : update.status with
    | none =>
      rw [hset] at hgranted
      have hsame : update.grantRunId = none := by
        cases hnamed : update.grantRunId with
        | none => rfl
        | some runId =>
          have hgranting := (hallows.renamed (by rw [hnamed]; nofun)).2
          cases hgranted.symm.trans hgranting
      rw [hrun hsame]
      exact h.deployed hgranted
    | some status =>
      rw [hset] at hgranted
      obtain ⟨hdeployed, hsame, _⟩ := hallows.granted status hset hgranted
      rw [hrun hsame]
      exact hdeployed
  have hbase : ∀ acts', acts' = acts ∨ acts' = .stamped row.id :: acts → (row.qaDispatchedAt = none → acts' = acts ∧ old.qaDispatchedAt = none) →
      Vouched acts' row := by
    intro acts' hacts hunstamped
    have hold : ∀ act ∈ acts', act = .stamped row.id ∨ act ∈ acts := by
      rcases hacts with rfl | rfl
      · exact fun _ hmem => .inr hmem
      · exact fun _ hmem => List.mem_cons.mp hmem
    have hsub : acts ⊆ acts' := by
      rcases hacts with rfl | rfl
      · exact fun _ hmem => hmem
      · exact List.subset_cons_self ..
    refine ⟨by rw [hid, hmessage]; exact h.named, fun hgranted => (hdeployed hgranted).mono hsub, fun hstatus request hmem hgrant => ?_,
      fun hnone => ?_, fun message before hmem hgrant => ?_⟩
    · rcases hold _ hmem with heq | hmem
      · cases heq
      · exact h.unrevoked (hopen hstatus) request hmem (hgrant.trans hid)
    · obtain ⟨rfl, hnone⟩ := hunstamped hnone
      rw [hid]
      exact h.unstamped hnone
    · rcases hold _ hmem with heq | hmem
      · cases heq
      · rw [hmessage]
        exact h.released message before hmem (hgrant.trans hid)
  cases hset : update.qaDispatched with
  | false =>
    rw [hset] at hstamp
    exact hbase acts (.inl rfl) fun hnone => ⟨rfl, hstamp.symm.trans hnone⟩
  | true =>
    rw [hset] at hstamp
    refine hbase _ (.inr rfl) fun hnone => ?_
    rw [hnone] at hstamp
    cases hold : old.qaDispatchedAt with
    | none =>
      rw [hold] at hstamp
      cases hstamp
    | some moment =>
      rw [hold] at hstamp
      cases hstamp

end Rows

section Steps

variable {s : Ledger} {row old : TemporaryAccessGrant} {grantId : String} {rest : Grants} {Q : TemporaryAccessGrant → Prop}

theorem At.extended {s' : Ledger} (h : At Q grantId rest s.base) (hs : Extended s s') : At Q grantId rest s'.base := by
  obtain ⟨hheld, row, hrow, hQ⟩ := h
  exact ⟨fun grant hmem => hs.rows grant.id grant (hheld grant hmem), row, hs.rows grantId row hrow, hQ⟩

theorem Books.act {act : Act} (h : Books s) (hdue : ReleaseDue act s.acts)
    (hvouched : ∀ row ∈ s.base.db.grants, act.grant = some row.id → Vouched (act :: s.acts) row)
    (hknown : ∀ grantId, act.grant = some grantId → s.base.db.grants.find grantId ≠ none) : Books (s.note [act]) := by
  refine ⟨h.rows, fun row hmem => ?_, fun other hmem => ?_, ⟨hdue, h.clean⟩⟩
  · by_cases hgrant : act.grant = some row.id
    · exact hvouched row hmem hgrant
    · exact (h.vouched row hmem).cons hgrant
  · rcases List.mem_cons.mp hmem with rfl | hmem
    · exact hknown
    · exact h.known other hmem

theorem Books.base {base : State} (h : Books s) (hgrants : base.db.grants = s.base.db.grants) : Books ⟨base, s.acts⟩ := by
  refine ⟨?_, ?_, ?_, h.clean⟩
  · change base.db.grants.Consistent
    rw [hgrants]
    exact h.rows
  · change ∀ row ∈ base.db.grants, Vouched s.acts row
    rw [hgrants]
    exact h.vouched
  · change ∀ act ∈ s.acts, ∀ grantId, act.grant = some grantId → base.db.grants.find grantId ≠ none
    rw [hgrants]
    exact h.known

theorem Books.rewrite {base : State} (h : Books s) (stamped : Bool) (hold : s.base.db.grants.find grantId = some old)
    (hid : row.id = old.id) (hgrants : base.db.grants = s.base.db.grants.replace row)
    (hfree : row.live = true → s.base.db.grants.slotFree row = true)
    (hrow : Vouched ((if stamped then [.stamped row.id] else []) ++ s.acts) row) :
    Books ⟨base, (if stamped then [.stamped row.id] else []) ++ s.acts⟩ := by
  have hrows : ∀ other ∈ base.db.grants, Vouched ((if stamped then [.stamped row.id] else []) ++ s.acts) other := by
    intro other hmem
    rw [hgrants] at hmem
    rcases Grants.Consistent.mem_replace hmem with rfl | ⟨hmem, hne⟩
    · exact hrow
    · cases stamped with
      | false => exact h.vouched other hmem
      | true => exact (h.vouched other hmem).cons fun heq => hne (Option.some.inj heq).symm
  have hself : grantId = row.id := (Grants.find_id hold).symm.trans hid.symm
  have hfind : ∀ otherId, s.base.db.grants.find otherId ≠ none → base.db.grants.find otherId ≠ none := by
    intro otherId hsome
    rw [hgrants]
    by_cases hother : otherId = row.id
    · rw [hother, Grants.find_replace_self (hself ▸ hold)]
      nofun
    · rw [Grants.find_replace_of_ne hother]
      exact hsome
  refine ⟨?_, hrows, ?_, ?_⟩
  · change base.db.grants.Consistent
    rw [hgrants]
    exact h.rows.replace hfree
  · intro act hmem other hgrant
    cases stamped with
    | false => exact hfind other (h.known act hmem other hgrant)
    | true =>
      rcases List.mem_cons.mp hmem with rfl | hmem
      · cases hgrant
        refine hfind row.id ?_
        rw [← hself, hold]
        nofun
      · exact hfind other (h.known act hmem other hgrant)
  · cases stamped with
    | false => exact h.clean
    | true => exact ⟨trivial, h.clean⟩

theorem Books.created {base : State} {grantIn : TemporaryAccessGrantCreate} {now : Time} (h : Books s)
    (hnew : s.base.db.grants.find grantIn.id = none) (hgrants : base.db.grants = s.base.db.grants ++ [grantIn.row now])
    (hfree : s.base.db.grants.slotFree (grantIn.row now) = true)
    (hid : grantIn.id = temporaryAccessGrantId grantIn.qaMessage.runId) : Books ⟨base, s.acts⟩ := by
  have hunknown : ∀ act ∈ s.acts, act.grant ≠ some grantIn.id := fun act hmem hgrant => h.known act hmem _ hgrant hnew
  have hrow : Vouched s.acts (grantIn.row now) := by
    refine ⟨hid, nofun, fun _ request hmem hgrant => ?_, fun _ hmem => ?_, fun message before hmem hgrant => ?_⟩
    · cases hreason : request.revokeReason with
      | none => rfl
      | some reason =>
        refine absurd ?_ (hunknown _ hmem)
        simp only [Act.grant, hreason, Option.map_some]
        exact congrArg some hgrant
    · exact hunknown _ hmem rfl
    · exact absurd (congrArg some hgrant) (hunknown _ hmem)
  refine ⟨?_, ?_, ?_, h.clean⟩
  · change base.db.grants.Consistent
    rw [hgrants]
    exact h.rows.append hnew fun _ => hfree
  · change ∀ row ∈ base.db.grants, Vouched s.acts row
    rw [hgrants]
    intro other hmem
    rcases List.mem_append.mp hmem with hmem | hmem
    · exact h.vouched other hmem
    · rw [List.mem_singleton.mp hmem]
      exact hrow
  · intro act hmem grantId hgrant
    change base.db.grants.find grantId ≠ none
    have hne : grantId ≠ (grantIn.row now).id := by
      rintro rfl
      exact hunknown act hmem hgrant
    rw [hgrants, Grants.find_append_of_ne hne]
    exact h.known act hmem grantId hgrant

theorem rewritten_at {base : State} (hnot : grantId ∉ rest.map (·.id)) (hheld : Held rest s.base)
    (hold : s.base.db.grants.find grantId = some old) (hid : row.id = old.id)
    (hgrants : base.db.grants = s.base.db.grants.replace row) (hQ : Q row) : At Q grantId rest base := by
  have hself : row.id = grantId := hid.trans (Grants.find_id hold)
  refine ⟨fun grant hmem => ?_, row, ?_, hQ⟩
  · have hne : grant.id ≠ row.id := by
      intro heq
      exact hnot (hself ▸ heq ▸ List.mem_map_of_mem hmem)
    rw [hgrants, Grants.find_replace_of_ne hne]
    exact hheld grant hmem
  · rw [hgrants, ← hself]
    exact Grants.find_replace_self (hself.symm ▸ hold)

theorem Books.notes {acts : List Act} (h : Books s) (hacts : ∀ act ∈ acts, act.grant = none ∧ ∀ older, ReleaseDue act older) :
    Books (s.note acts) := by
  induction acts with
  | nil => exact h
  | cons act acts ih =>
    obtain ⟨hgrant, hdue⟩ := hacts act List.mem_cons_self
    have hrest := ih fun other hmem => hacts other (List.mem_cons_of_mem act hmem)
    refine Books.act (s := s.note acts) hrest (hdue _) (fun row _ hsome => ?_) fun grantId hsome => ?_
    · cases hgrant.symm.trans hsome
    · cases hgrant.symm.trans hsome

theorem calm_acts {call : ServiceCall} (hcalm : call.calm = true) (grants : Grants) (heard : Heard call) :
    ∀ act ∈ call.acts grants heard, act.grant = none ∧ ∀ older, ReleaseDue act older := by
  intro act hmem
  cases call with
  | publishDeploy | publishQA => cases hcalm
  | getRun runId =>
    obtain ⟨told, carriedOut⟩ := heard
    cases told with
    | error e => cases hmem
    | ok run =>
      rw [List.mem_singleton.mp hmem]
      exact ⟨rfl, fun _ => trivial⟩
  | _ => cases hmem

theorem update_cases (s : Ledger) (grantId : String) (update : TemporaryAccessGrantUpdate) (reply : Reply) :
    ((Ledger.run .sweep (.updateGrant grantId update) reply s).2 = s ∧
        ∀ a, (Ledger.run .sweep (.updateGrant grantId update) reply s).1 ≠ .ok a) ∨
      ∃ row base, s.base.db.updateGrant grantId update reply.now = .ok (row, base.db) ∧
        (Ledger.run .sweep (.updateGrant grantId update) reply s).2 =
          ⟨base, (if update.qaDispatched then [.stamped grantId] else []) ++ s.acts⟩ := by
  change ((s.lift (s.stamps grantId update reply) (reply.fate.serve (fun s => s.updateGrant grantId update reply) s.base)).2 = s ∧
      ∀ a, (s.lift (s.stamps grantId update reply) (reply.fate.serve (fun s => s.updateGrant grantId update reply) s.base)).1 ≠ .ok a) ∨
    ∃ row base, s.base.db.updateGrant grantId update reply.now = .ok (row, base.db) ∧
      (s.lift (s.stamps grantId update reply) (reply.fate.serve (fun s => s.updateGrant grantId update reply) s.base)).2 =
        ⟨base, (if update.qaDispatched then [.stamped grantId] else []) ++ s.acts⟩
  unfold Ledger.stamps
  cases hanswer : s.base.db.updateGrant grantId update reply.now with
  | error e =>
    have hrefused : s.base.updateGrant grantId update reply = (.error (.http e), s.base) := by
      simp only [State.updateGrant, State.serve, hanswer]
    left
    cases reply.fate <;> simp [Ledger.lift, Fate.serve, hrefused, Except.isOk, Except.toBool]
  | ok answer =>
    have hserved : s.base.updateGrant grantId update reply =
        (.ok answer.1, ⟨answer.2, (update.status.map fun _ => Event.moved grantId).toList ++ s.base.trace⟩) := by
      simp only [State.updateGrant, State.serve, hanswer]
    cases reply.fate with
    | unsent e => simp [Ledger.lift, Fate.serve, Fate.carriedOut]
    | served | unheard _ =>
      refine .inr ⟨answer.1, ⟨answer.2, (update.status.map fun _ => Event.moved grantId).toList ++ s.base.trace⟩, rfl, ?_⟩
      simp only [Ledger.lift, Fate.serve, hserved, Fate.carriedOut, Except.isOk, Except.toBool, Bool.and_true]

theorem observation_closing {observation : TemporaryAccessObservation} {reply : Reply} {db : Database QARunResult}
    (h : s.base.db.recordObservation grantId observation reply.now = .ok (row, db)) : ∃ old, s.base.db.grants.find grantId = some old ∧
      ((row.id = old.id ∧ db.grants = s.base.db.grants) ∨ (row.id = old.id ∧ db.grants = s.base.db.grants.replace row ∧
        (row.live = true → s.base.db.grants.slotFree row = true) ∧
        row.qaMessage = old.qaMessage ∧ (row.status ≠ .granting ∧ row.status ≠ .granted) ∧ row.qaDispatchedAt = old.qaDispatchedAt)) := by
  have hcount : ∀ grant : TemporaryAccessGrant, (countClear reply.now grant).qaMessage = grant.qaMessage ∧
      (countClear reply.now grant).qaDispatchedAt = grant.qaDispatchedAt := by
    intro grant
    unfold countClear
    split <;> exact ⟨rfl, rfl⟩
  obtain ⟨old, hold, hreadable, ⟨_, rfl, rfl⟩ | ⟨_, hgrants, hfree, hread⟩⟩ := Database.recordObservation_ok h
  · exact ⟨row, hold, .inl ⟨rfl, rfl⟩⟩
  refine ⟨old, hold, .inr ?_⟩
  rcases hread with ⟨hopen, hrow⟩ | ⟨hclosed, owner, _, rfl⟩
  · have hrevoking := requireReadable_revoking hreadable hopen
    rcases readOpenGrant_cases hrow with ⟨_, rfl⟩ | ⟨_, rfl⟩ | ⟨_, _, rfl⟩
    · refine ⟨rfl, hgrants, hfree, rfl, ?_, rfl⟩
      change old.status ≠ .granting ∧ old.status ≠ .granted
      rw [hrevoking]
      exact ⟨nofun, nofun⟩
    · refine ⟨countClear_id .., hgrants, hfree, (hcount _).1, ?_, (hcount _).2⟩
      rw [countClear_status]
      change old.status ≠ .granting ∧ old.status ≠ .granted
      rw [hrevoking]
      exact ⟨nofun, nofun⟩
    · exact ⟨countClear_id reply.now (stampReading observation reply.now old), hgrants, hfree,
        (hcount (stampReading observation reply.now old)).1, ⟨nofun, nofun⟩, (hcount (stampReading observation reply.now old)).2⟩
  · have hstays : old.status ≠ .granting ∧ old.status ≠ .granted := by
      rw [hclosed]
      exact ⟨nofun, nofun⟩
    rcases readClosedGrant_cases observation reply.now owner.isSome old with ⟨_, heq⟩ | ⟨_, _, heq⟩ | ⟨_, _, heq⟩
    all_goals rw [heq] at hgrants hfree ⊢
    · exact ⟨rfl, hgrants, hfree, rfl, hstays, rfl⟩
    · exact ⟨rfl, hgrants, hfree, rfl, hstays, rfl⟩
    · exact ⟨rfl, hgrants, hfree, rfl, ⟨nofun, nofun⟩, rfl⟩

end Steps

section Sweeps

variable {s : Ledger} {grant : TemporaryAccessGrant} {rest : Grants} {config : SupervisorConfig} {A : Type}
  {Q P : TemporaryAccessGrant → Prop} {grantId : String}

theorem sweep_keeps {s s' : Ledger} (h : Books s') : releasing.Keeps .sweep s s' := ⟨h, fun _ hne ht => absurd ht hne⟩

theorem at_settled : releasing.Stable .sweep fun s => At Q grantId rest s.base := fun _ _ _ hr h => h.extended (hr rfl)

theorem Calm.settled {p : Sweep A} (hp : Calm p) : releasing.Maintains .sweep (fun s => At Q grantId rest s.base) p := by
  refine Safe.leaves at_settled (Prog.Uses.mono hp ?_)
  rintro _ ⟨call, rfl, hcalm⟩ s hi hat heard _
  exact ⟨sweep_keeps (hi.notes (calm_acts hcalm s.base.db.grants heard)), hat⟩

abbrev Settles (grantId : String) (rest : Grants) (p : Sweep A) : Prop :=
  releasing.Maintains .sweep (fun s => At (fun _ => True) grantId rest s.base) p

theorem update_safe {update : TemporaryAccessGrantUpdate} (hnot : grantId ∉ rest.map (·.id)) (hat : At Q grantId rest s.base)
    (hallows : ∀ old acts, Q old → s.acts ⊆ acts → Allows update acts old)
    (hQ : ∀ old row now, Q old → updateRow grantId update now old = .ok row → P row) :
    releasing.Safe .sweep (fun r s => At (fun _ => True) grantId rest s.base ∧ ∀ answer, r = .ok answer → At P grantId rest s.base)
      (updateTemporaryAccessGrant grantId update) s := by
  refine Safe.perform fun s' hi hr reply _ => ?_
  obtain ⟨hheld, old, hold, hrow⟩ := hat.extended (hr rfl)
  rcases update_cases s' grantId update reply with ⟨hsame, hnone⟩ | ⟨row, base, hok, hstate⟩
  · refine ⟨sweep_keeps (hsame.symm ▸ hi), ?_, fun answer hanswer => absurd hanswer (hnone answer)⟩
    change At (fun _ => True) grantId rest (Ledger.run .sweep (.updateGrant grantId update) reply s').2.base
    rw [hsame]
    exact ⟨hheld, old, hold, trivial⟩
  · obtain ⟨found, hfound, hupdate, hgrants, hfree⟩ := Database.updateGrant_ok hok
    cases hold.symm.trans hfound
    have hid := (updateRow_fields hupdate).1
    have hself : row.id = grantId := hid.trans (Grants.find_id hold)
    have hvouched := (hi.vouched old (Grants.find_mem hold)).updated (hallows old s'.acts hrow (hr rfl).acts) hupdate
    have hbooks := hi.rewrite update.qaDispatched hold hid hgrants hfree hvouched
    rw [hself] at hbooks
    have hafter : At P grantId rest base := rewritten_at hnot hheld hold hid hgrants (hQ old row _ hrow hupdate)
    change releasing.Keeps .sweep s' (Ledger.run .sweep (.updateGrant grantId update) reply s').2 ∧
      At (fun _ => True) grantId rest (Ledger.run .sweep (.updateGrant grantId update) reply s').2.base ∧
      ∀ answer, _ → At P grantId rest (Ledger.run .sweep (.updateGrant grantId update) reply s').2.base
    rw [hstate]
    exact ⟨sweep_keeps hbooks, hafter.there, fun _ _ => hafter⟩

theorem update_settles {update : TemporaryAccessGrantUpdate} (hnot : grantId ∉ rest.map (·.id)) (hrun : update.grantRunId = none)
    (hstatus : ∀ status ∈ update.status, status.val ≠ .granting ∧ status.val ≠ .granted) :
    Settles grantId rest (updateTemporaryAccessGrant grantId update) := fun _ hi hat =>
  (update_safe (P := fun _ => True) hnot hat (fun _ _ _ _ => allows_closing hrun hstatus) fun _ _ _ _ _ => trivial).conseq hi
    fun _ _ _ h => h.1

theorem newDeployRunId_settled (kind : String) : releasing.Maintains .sweep (fun s => At Q grantId rest s.base) (newDeployRunId kind) := by
  refine .bind (.perform at_settled fun s hi hat suffix _ => ?_) fun _ => .ret _
  exact ⟨sweep_keeps (hi.base rfl), hat⟩

theorem publishDeploy_settles {runId value triggeredBy : String} {reason : Option TemporaryAccessRevokeReason} {fence : Bool}
    (hQ : reason = none ∨ ∀ row, Q row → row.status ≠ .granting ∧ row.status ≠ .granted) :
    releasing.Maintains .sweep (fun s => At Q grant.id rest s.base) (publishDeploy grant runId value triggeredBy reason fence) := by
  refine .bind (Calm.ask (.createRun _) rfl).settled fun _ => ?_
  refine .perform at_settled fun s hi hat heard _ => ?_
  refine ⟨sweep_keeps ?_, hat⟩
  change Books (s.note (if heard.happened then [.dispatched _] else []))
  cases heard.happened with
  | false => exact hi
  | true =>
    rcases hQ with rfl | hclosing
    · refine hi.notes fun act hmem => ?_
      rw [List.mem_singleton.mp hmem]
      exact ⟨rfl, fun _ => trivial⟩
    · obtain ⟨_, stored, hstored, hrow⟩ := hat
      have hself : ∀ grantId, reason.map (fun _ => grant.id) = some grantId → grantId = grant.id := by
        intro grantId hgrant
        obtain ⟨_, _, heq⟩ := Option.map_eq_some_iff.mp hgrant
        exact heq.symm
      refine hi.act trivial (fun row hmem hgrant => ?_) fun grantId hgrant => ?_
      · have hfound := hi.rows.find hmem
        rw [hself _ hgrant, hstored] at hfound
        cases hfound
        exact (hi.vouched stored hmem).dispatch (hclosing stored hrow)
      · rw [hself _ hgrant, hstored]
        nofun

theorem dispatchRevoke_settles (reason : TemporaryAccessRevokeReason) (hnot : grant.id ∉ rest.map (·.id)) :
    Settles grant.id rest (dispatchRevoke grant reason) := by
  intro s hi hat
  refine Safe.bind hi (newDeployRunId_settled "revoke" s hi hat) (fun revokeRunId s hi hat => ?_) fun _ _ _ h => h
  refine Safe.bind hi (update_safe (P := fun row => row.status = .revoking) hnot hat (fun _ _ _ _ => allows_closing rfl ?_) ?_)
    (fun answer s hi h => ?_) fun _ _ _ h => h.1
  · rintro _ ⟨⟩
    exact ⟨by decide, by decide⟩
  · intro old row now _ hrow
    rw [(updateRow_run hrow).2.1]
    rfl
  · have hclosing : ∀ row : TemporaryAccessGrant, row.status = .revoking → row.status ≠ .granting ∧ row.status ≠ .granted := by
      intro row hrevoking
      rw [hrevoking]
      exact ⟨by decide, by decide⟩
    exact (publishDeploy_settles (.inr hclosing) s hi (h.2 answer rfl)).conseq hi fun _ _ _ h => h.there

theorem reportUnsettledDispatch_settles (claimedAt : Time) (hnot : grant.id ∉ rest.map (·.id)) :
    Settles grant.id rest (reportUnsettledDispatch config grant claimedAt) := by
  refine .bind (Calm.ask .clock rfl).settled fun now => ?_
  split
  · exact .ret ()
  · split
    · exact .ret ()
    · refine .bind (notifyAdmins_calm _).settled fun _ => ?_
      exact .bind (update_settles hnot rfl nofun) fun _ => .ret ()

theorem stopGrantDeploy_settles (detail : String) (hnot : grant.id ∉ rest.map (·.id)) :
    Settles grant.id rest (stopGrantDeploy config grant detail) := by
  refine .bind (Calm.ask (.getRun grant.grantRunId) rfl).settled fun run => ?_
  split
  · exact .ret true
  · refine .bind (Calm.ask (.withdrawDispatch ..) rfl).settled fun claimedAt => ?_
    cases claimedAt with
    | none => exact .ret true
    | some claimedAt =>
      refine .bind (Calm.ask (.getRun grant.grantRunId) rfl).settled fun run => ?_
      split
      · exact .ret true
      · refine .bind (Calm.ask (.supersedeDispatch ..) rfl).settled fun settled => ?_
        cases settled with
        | true => exact .ret true
        | false => exact .bind (reportUnsettledDispatch_settles claimedAt hnot) fun _ => .ret false

theorem abandonGrant_settles (detail : String) (hnot : grant.id ∉ rest.map (·.id)) :
    Settles grant.id rest (abandonGrant config grant detail) := by
  refine .bind (failQaRun_calm ..).settled fun _ => .bind (stopGrantDeploy_settles detail hnot) fun stopped => ?_
  split
  · exact dispatchRevoke_settles _ hnot
  · exact .ret ()

theorem redispatchGrant_settles (hgranting : grant.status = .granting) (hnot : grant.id ∉ rest.map (·.id)) (hi : Books s)
    (hat : At (· = grant) grant.id rest s.base) :
    releasing.Safe .sweep (fun _ s => At (fun _ => True) grant.id rest s.base) (redispatchGrant grant) s := by
  refine Safe.bind hi (newDeployRunId_settled "grant" s hi hat) (fun grantRunId s hi hat => ?_) fun _ _ _ h => h.there
  refine Safe.bind hi (update_safe (P := fun _ => True) hnot hat ?_ fun _ _ _ _ _ => trivial) (fun answer s hi h => ?_) fun _ _ _ h => h.1
  · rintro old acts rfl _
    exact ⟨nofun, nofun, fun _ => ⟨rfl, hgranting⟩⟩
  · exact publishDeploy_settles (.inl rfl) s hi h.1

theorem releaseQa_settles (hgranted : grant.status = .granted) (hnot : grant.id ∉ rest.map (·.id)) (hi : Books s)
    (hat : At (· = grant) grant.id rest s.base) :
    releasing.Safe .sweep (fun _ s => At (fun _ => True) grant.id rest s.base) (releaseQa grant) s := by
  unfold releaseQa
  split
  · exact hat.there
  next hstamped =>
  have hpublish : releasing.Safe .sweep (fun _ s => At (fun _ => True) grant.id rest s.base) (ask (.publishQA grant.qaMessage)) s := by
    refine Safe.perform fun s' hi hr heard _ => ?_
    have hat' := hat.extended (hr rfl)
    refine ⟨sweep_keeps ?_, hat'.there⟩
    obtain ⟨_, row, hrow, rfl⟩ := hat'
    change Books (s'.note (if heard.happened then [.published row.qaMessage
      (s'.base.db.grants.find (temporaryAccessGrantId row.qaMessage.runId))] else []))
    cases heard.happened with
    | false => exact hi
    | true =>
      have hvouched := hi.vouched row (Grants.find_mem hrow)
      have hown : s'.base.db.grants.find (temporaryAccessGrantId row.qaMessage.runId) = some row := by
        rw [← hvouched.named]
        exact hrow
      refine hi.act ⟨row, hown, rfl, hgranted, hvouched.deployed hgranted, hvouched.unrevoked (.inr hgranted), ?_, ?_⟩ ?_ ?_
      · exact hvouched.unstamped (by simpa using hstamped)
      · exact hvouched.released
      · intro other hmem hgrant
        have hid : other.id = row.id := by
          rw [hvouched.named]
          exact (Option.some.inj hgrant).symm
        cases hi.rows.unique other hmem row (Grants.find_mem hrow) hid
        exact hvouched.publish
      · intro grantId hgrant
        cases hgrant
        rw [hown]
        nofun
  refine Safe.bind hi hpublish (fun _ s hi hat => ?_) fun _ _ _ h => h
  have hstamp : Settles grant.id rest
      (updateTemporaryAccessGrant grant.id { TemporaryAccessGrantUpdate.empty with qaDispatched := true }) := update_settles hnot rfl nofun
  exact Maintains.bind hstamp (fun _ => .ret ()) s hi hat

theorem settleGranted_settles (grant : TemporaryAccessGrant) (hstatus : grant.status = .granted ∨ grant.status = .revokeFailed) (hnot : grant.id ∉ rest.map (·.id))
    (hi : Books s) (hat : At (· = grant) grant.id rest s.base) :
    releasing.Safe .sweep (fun _ s => At (fun _ => True) grant.id rest s.base) (settleGranted config grant) s := by
  unfold settleGranted
  split
  · cases grant.revokeReason with
    | none => exact hat.there
    | some reason => exact dispatchRevoke_settles reason hnot s hi hat.there
  next hopen =>
  refine Safe.bind hi ((revocationReason_calm config grant).settled s hi hat) (fun reason s hi hat => ?_) fun _ _ _ h => h.there
  cases reason with
  | none => exact releaseQa_settles (hstatus.resolve_right hopen) hnot hi hat
  | some reason => exact dispatchRevoke_settles reason hnot s hi hat.there

theorem getRun_read (runId : String) (hat : At Q grantId rest s.base) :
    releasing.Safe .sweep (fun r s => At Q grantId rest s.base ∧ ∀ run, r = .ok run → .read runId run ∈ s.acts) (ask (.getRun runId)) s := by
  refine Safe.perform fun s' hi hr heard _ => ?_
  have hat' : At Q grantId rest s'.base := hat.extended (hr rfl)
  refine ⟨sweep_keeps (hi.notes (calm_acts rfl s'.base.db.grants heard)), hat', fun run hrun => ?_⟩
  obtain ⟨told, carriedOut⟩ := heard
  change told = .ok run at hrun
  subst hrun
  exact List.mem_cons_self

theorem settleGrantInFlight_settles (hgranting : grant.status = .granting) (hnot : grant.id ∉ rest.map (·.id)) (hi : Books s)
    (hat : At (· = grant) grant.id rest s.base) :
    releasing.Safe .sweep (fun _ s => At (fun _ => True) grant.id rest s.base) (settleGrantInFlight config grant) s := by
  refine Safe.bind hi ((olderThan_calm ..).settled s hi hat) (fun expired s hi hat => ?_) fun _ _ _ h => h.there
  split
  · exact abandonGrant_settles _ hnot s hi hat.there
  refine Safe.bind hi (getRun_read grant.grantRunId hat) (fun run s hi h => ?_) fun _ _ _ h => h.1.there
  obtain ⟨hat, hread⟩ := h
  cases run with
  | none => exact redispatchGrant_settles hgranting hnot hi hat
  | some run =>
    dsimp only
    split
    · refine Safe.bind hi ((olderThan_calm ..).settled s hi hat) (fun stale s hi hat => ?_) fun _ _ _ h => h.there
      split
      · exact abandonGrant_settles _ hnot s hi hat.there
      · exact hat.there
    · split
      · exact redispatchGrant_settles hgranting hnot hi hat
      · split
        · exact abandonGrant_settles _ hnot s hi hat.there
        next hsucceeded =>
        have hdeployed : Deployed grant.grantRunId s.acts := ⟨run, hread _ rfl, by simpa using hsucceeded⟩
        refine Safe.bind hi (update_safe (P := (· = { grant with status := .granted })) hnot hat ?_ ?_) (fun answer s hi h => ?_)
          fun _ _ _ h => h.1
        · rintro old acts rfl hsub
          refine ⟨?_, fun _ _ _ => ⟨hdeployed.mono hsub, rfl, hgranting⟩, fun hsome => absurd rfl hsome⟩
          rintro _ ⟨⟩
          nofun
        · rintro old row now rfl hrow
          unfold updateRow at hrow
          split at hrow
          · cases hrow
          · cases hrow
            rfl
        · exact settleGranted_settles { grant with status := .granted } (.inl rfl) hnot hi (h.2 answer rfl)

theorem escalate_settles {escalation : TemporaryAccessEscalation QARunResult} (hnot : grantId ∉ rest.map (·.id)) :
    Settles grantId rest (perform (.escalateGrant grantId escalation)) := by
  refine .perform at_settled fun s hi hat reply _ => ?_
  obtain ⟨hheld, old, hold, _⟩ := hat
  change releasing.Keeps .sweep s
      (s.lift [] (reply.fate.serve (fun s => s.escalateGrant grantId escalation reply) s.base)).2 ∧
    At (fun _ => True) grantId rest (s.lift [] (reply.fate.serve (fun s => s.escalateGrant grantId escalation reply) s.base)).2.base
  rcases serve_cases (fun s => s.escalateGrant grantId escalation reply) s.base rfl reply.fate with
    ⟨hsame, _⟩ | ⟨row, db, hok, _, hstate, _⟩
  · simp only [Ledger.lift, hsame]
    exact ⟨sweep_keeps hi, hheld, old, hold, trivial⟩
  obtain ⟨found, hfound, hrow, hgrants, hfree⟩ := Database.escalateGrant_ok hok
  cases hold.symm.trans hfound
  have hclosing : row.id = old.id ∧ row.qaMessage = old.qaMessage ∧ (row.status ≠ .granting ∧ row.status ≠ .granted) ∧
      row.qaDispatchedAt = old.qaDispatchedAt := by
    unfold escalateRow at hrow
    split at hrow
    · cases hrow
    · cases hrow
      exact ⟨rfl, rfl, ⟨nofun, nofun⟩, rfl⟩
  obtain ⟨hid, hmessage, hstatus, hstamp⟩ := hclosing
  have hvouched := (hi.vouched old (Grants.find_mem hold)).closing hid hmessage hstatus hstamp
  simp only [Ledger.lift, hstate]
  exact ⟨sweep_keeps (hi.rewrite false hold hid hgrants hfree hvouched), rewritten_at hnot hheld hold hid hgrants trivial⟩

theorem recordRevokeFailure_settles (error : String) (hnot : grant.id ∉ rest.map (·.id)) :
    Settles grant.id rest (recordRevokeFailure config grant error) := by
  refine .bind (retriesAreSpent_calm config grant).settled fun spent => ?_
  refine .bind (.perform at_settled fun s hi hat _ _ => ⟨sweep_keeps (hi.base rfl), hat⟩) fun _ => ?_
  split
  · refine .bind (update_settles hnot rfl ?_) fun _ => .ret ()
    rintro _ ⟨⟩
    exact ⟨nofun, nofun⟩
  · exact .bind (notifyAdmins_calm _).settled fun _ => .bind (escalate_settles hnot) fun _ => .ret ()

theorem reportUnobservableGrant_settles (detail : String) (hnot : grant.id ∉ rest.map (·.id)) :
    Settles grant.id rest (reportUnobservableGrant config grant detail) := by
  unfold reportUnobservableGrant
  split
  · exact .ret ()
  · refine .bind (olderThan_calm ..).settled fun old => ?_
    split
    · exact .ret ()
    · split
      · exact .ret ()
      · refine .bind (notifyAdmins_calm _).settled fun _ => ?_
        exact .bind (update_settles hnot rfl nofun) fun _ => .ret ()

theorem recordObservation_safe {observation : TemporaryAccessObservation} (hnot : grantId ∉ rest.map (·.id))
    (hat : At (fun _ => True) grantId rest s.base) :
    releasing.Safe .sweep (fun r s => At (fun _ => True) grantId rest s.base ∧ ∀ settled, r = .ok settled → settled.id = grantId)
      (perform (.recordObservation grantId observation)) s := by
  refine Safe.perform fun s' hi hr reply _ => ?_
  obtain ⟨hheld, old, hold, _⟩ := hat.extended (hr rfl)
  change releasing.Keeps .sweep s'
      (s'.lift [] (reply.fate.serve (fun s => s.recordObservation grantId observation reply) s'.base)).2 ∧
    At (fun _ => True) grantId rest (s'.lift [] (reply.fate.serve (fun s => s.recordObservation grantId observation reply) s'.base)).2.base ∧
    ∀ settled, (reply.fate.serve (fun s => s.recordObservation grantId observation reply) s'.base).1 = .ok settled → settled.id = grantId
  rcases serve_cases (fun s => s.recordObservation grantId observation reply) s'.base rfl reply.fate with
    ⟨hsame, hnone⟩ | ⟨row, db, hok, _, hstate, hanswer⟩
  · simp only [Ledger.lift, hsame]
    exact ⟨sweep_keeps hi, ⟨hheld, old, hold, trivial⟩, fun settled hsettled => absurd hsettled (hnone settled)⟩
  obtain ⟨found, hfound, hread⟩ := observation_closing hok
  cases hold.symm.trans hfound
  have hself : row.id = grantId := by
    rcases hread with ⟨hid, _⟩ | ⟨hid, _⟩
    all_goals exact hid.trans (Grants.find_id hold)
  have hsettled : ∀ settled, (reply.fate.serve (fun s => s.recordObservation grantId observation reply) s'.base).1 = .ok settled →
      settled.id = grantId := by
    intro settled hsettled
    rw [hanswer settled hsettled]
    exact hself
  simp only [Ledger.lift, hstate]
  rcases hread with ⟨_, hgrants⟩ | ⟨hid, hgrants, hfree, hmessage, hstatus, hstamp⟩
  · refine ⟨sweep_keeps (hi.base hgrants), ⟨fun other hmem => ?_, old, ?_, trivial⟩, hsettled⟩
    · change db.grants.find other.id = some other
      rw [hgrants]
      exact hheld other hmem
    · change db.grants.find grantId = some old
      rw [hgrants]
      exact hold
  · have hvouched := (hi.vouched old (Grants.find_mem hold)).closing hid hmessage hstatus hstamp
    exact ⟨sweep_keeps (hi.rewrite false hold hid hgrants hfree hvouched), rewritten_at hnot hheld hold hid hgrants trivial, hsettled⟩

def Answered (grantId : String) (rest : Grants) (r : Except Exn (Option (Bool × TemporaryAccessGrant))) (s : Ledger) : Prop :=
  At (fun _ => True) grantId rest s.base ∧ ∀ present settled, r = .ok (some (present, settled)) → settled.id = grantId

theorem observeRunningService_answered (slowAudit : Bool) (hnot : grant.id ∉ rest.map (·.id)) (hi : Books s)
    (hat : At (fun _ => True) grant.id rest s.base) :
    releasing.Safe .sweep (Answered grant.id rest) (observeRunningService config grant slowAudit) s := by
  have quit : ∀ {e : Exn} {s : Ledger}, At (fun _ => True) grant.id rest s.base → Answered grant.id rest (.error e) s :=
    fun hat => ⟨hat, fun _ _ h => nomatch h⟩
  have nothing : ∀ {s : Ledger}, At (fun _ => True) grant.id rest s.base → Answered grant.id rest (.ok none) s :=
    fun hat => ⟨hat, fun _ _ h => nomatch h⟩
  refine Safe.bind hi ((Calm.ask (.getResult _) rfl).settled s hi hat) (fun observation s hi hat => ?_) fun _ _ _ h => quit h
  cases observation with
  | none => exact Safe.bind hi ((askForObservation_calm ..).settled s hi hat) (fun _ _ _ h => nothing h) fun _ _ _ h => quit h
  | some observation =>
    refine Safe.bind hi ((Calm.ask (.deleteResult _) rfl).settled s hi hat) (fun _ s hi hat => ?_) fun _ _ _ h => quit h
    cases observation.outcome with
    | unreachable detail =>
      exact Safe.bind hi (reportUnobservableGrant_settles detail hnot s hi hat) (fun _ _ _ h => nothing h) fun _ _ _ h => quit h
    | observed present =>
      refine Safe.bind hi ((observationTarget_calm grant).settled s hi hat) (fun target s hi hat => ?_) fun _ _ _ h => quit h
      cases target with
      | none => exact nothing hat
      | some target =>
        dsimp only
        split
        · exact quit hat
        · refine Safe.bind hi (recordObservation_safe hnot hat) (fun settled s _ h => ⟨h.1, fun _ _ hsome => ?_⟩)
            fun _ _ _ h => quit h.1
          cases hsome
          exact h.2 _ rfl

theorem settleRevokeInFlight_settles (hnot : grant.id ∉ rest.map (·.id)) : Settles grant.id rest (settleRevokeInFlight config grant) := by
  unfold settleRevokeInFlight
  cases grant.revokeRunId with
  | none => exact .raise _
  | some revokeRunId =>
    cases grant.revokeReason with
    | none => exact .raise _
    | some reason =>
      refine .bind (Calm.ask (.getRun revokeRunId) rfl).settled fun run => ?_
      cases run with
      | none => exact dispatchRevoke_settles reason hnot
      | some run =>
        dsimp only
        split
        · refine .bind (olderThan_calm ..).settled fun stale => ?_
          split
          · exact dispatchRevoke_settles reason hnot
          · exact .ret ()
        · split
          · exact dispatchRevoke_settles reason hnot
          · split
            · exact recordRevokeFailure_settles _ hnot
            · refine .bind (fun s hi hat => (observeRunningService_answered false hnot hi hat).conseq hi fun _ _ _ h => h.1) fun read => ?_
              split
              · exact recordRevokeFailure_settles _ hnot
              · exact .ret ()

theorem watchClosedGrant_settles (hnot : grant.id ∉ rest.map (·.id)) : Settles grant.id rest (watchClosedGrant config grant) := by
  refine .bind (pastTheWatchWindow_calm config grant).settled fun slowAudit => ?_
  intro s hi hat
  refine Safe.bind hi (observeRunningService_answered slowAudit hnot hi hat) (fun read s hi h => ?_) fun _ _ _ h => h.1
  split
  · next settled =>
    split
    · exact h.1
    · have hid : settled.id = grant.id := h.2 true settled rfl
      refine Safe.bind hi ((notifyAdmins_calm _).settled s hi h.1) (fun _ s hi hat => ?_) fun _ _ _ h => h
      rw [← hid] at hnot hat ⊢
      exact dispatchRevoke_settles _ hnot s hi hat
  · exact h.1

theorem settle_settles (hnot : grant.id ∉ rest.map (·.id)) (hi : Books s) (hheld : Held (grant :: rest) s.base) :
    releasing.Safe .sweep (fun _ s => At (fun _ => True) grant.id rest s.base) (settle config grant) s := by
  have hat : At (· = grant) grant.id rest s.base :=
    ⟨fun other hmem => hheld other (List.mem_cons_of_mem _ hmem), grant, hheld grant List.mem_cons_self, rfl⟩
  unfold settle
  cases hstatus : grant.status with
  | granting => exact settleGrantInFlight_settles hstatus hnot hi hat
  | granted => exact settleGranted_settles grant (.inl hstatus) hnot hi hat
  | revoking => exact settleRevokeInFlight_settles hnot s hi hat.there
  | revoked => exact watchClosedGrant_settles hnot s hi hat.there
  | revokeFailed => exact settleGranted_settles grant (.inr hstatus) hnot hi hat

theorem settleEach_settles {grants : Grants} (hids : (grants.map (·.id)).Nodup) (hi : Books s) (hheld : Held grants s.base) :
    releasing.Safe .sweep (fun _ _ => True) (Prog.forEach grants (settleApart config)) s := by
  induction grants generalizing s with
  | nil => trivial
  | cons grant rest ih =>
    rw [List.map_cons, List.nodup_cons] at hids
    have happart : releasing.Safe .sweep (fun _ s => Held rest s.base) (settleApart config grant) s := by
      refine Safe.handle hi (settle_settles hids.1 hi hheld) (fun _ _ _ h => h.1) fun e s hi h => ?_
      split
      · exact h.1
      · exact h.1
    exact Safe.bind hi happart (fun _ s hi hrest => ih hids.2 hi hrest) fun _ _ _ _ => trivial

theorem superviseTemporaryAccess_settles (hi : Books s) :
    releasing.Safe .sweep (fun _ _ => True) (superviseTemporaryAccess config) s := by
  have hclock : releasing.Safe .sweep (fun _ _ => True) (ask .clock) s :=
    Safe.perform fun s' hi _ heard _ => ⟨sweep_keeps (hi.notes (calm_acts rfl s'.base.db.grants heard)), trivial⟩
  refine Safe.bind hi hclock (fun now s hi _ => ?_) fun _ _ _ _ => trivial
  refine Safe.bind (M := fun answer s => ∀ grants, answer = .ok grants → (List.map (·.id) grants).Nodup ∧ Held grants s.base) hi
    (Safe.perform fun s' hi' _ reply _ => ?_) (fun grants s hi h => settleEach_settles (h grants rfl).1 hi (h grants rfl).2)
    fun _ _ _ _ => trivial
  obtain ⟨hsame, hanswer⟩ := listUnderWatch_cases (now - 60 * config.revokedWatchMinutes)
    (now - 3600 * config.contractAuditHours) reply s'.base
  refine ⟨sweep_keeps (hi'.base (congrArg (fun base : State => base.db.grants) hsame)), fun grants hgrants => ?_⟩
  change (grants.map (·.id)).Nodup ∧ Held grants (accessWorld.run .sweep (.listUnderWatch (now - 60 * config.revokedWatchMinutes)
    (now - 3600 * config.contractAuditHours)) reply s'.base).2
  rw [hsame, hanswer grants hgrants]
  exact listUnderWatch_held _ hi'.rows _ _

end Sweeps

section Runs

variable {s : Ledger} {config : SupervisorConfig} {handoffs : Nat → Handoff} {c : Config ledgerWorld} {newer older : List Act} {act : Act}

theorem handoff_keeps {s s' : Ledger} {n : Nat} (h : Books s') (hs : Extended s s') : releasing.Keeps (.handoff n) s s' := ⟨h, fun _ _ _ => hs⟩

theorem createGrant_handoff {n : Nat} {grantIn : TemporaryAccessGrantCreate} {reply : Reply} (hi : Books s)
    (hid : grantIn.id = temporaryAccessGrantId grantIn.qaMessage.runId) :
    releasing.Keeps (.handoff n) s (Ledger.run (.handoff n) (.createGrant grantIn) reply s).2 := by
  change releasing.Keeps (.handoff n) s (s.lift [] (reply.fate.serve (fun s => s.createGrant grantIn reply) s.base)).2
  rcases serve_cases (fun s => s.createGrant grantIn reply) s.base rfl reply.fate with ⟨hsame, _⟩ | ⟨row, db, hok, _, hstate, _⟩
  · simp only [Ledger.lift, hsame]
    exact .refl _ hi
  simp only [Ledger.lift, hstate]
  rcases Database.createGrant_ok hok with ⟨_, rfl⟩ | ⟨hnew, rfl, hgrants, hfree⟩
  · exact handoff_keeps (hi.base rfl) ⟨fun _ _ h => h, fun _ h => h⟩
  · refine handoff_keeps (hi.created hnew hgrants hfree hid) ⟨fun grantId row hrow => ?_, fun _ h => h⟩
    have hne : grantId ≠ (grantIn.row reply.now).id := by
      rintro rfl
      cases hnew.symm.trans hrow
    change db.grants.find grantId = some row
    rw [hgrants, Grants.find_append_of_ne hne]
    exact hrow

theorem handoff_settles {n : Nat} : releasing.Maintains (.handoff n) (fun _ => True) (party config handoffs (.handoff n)) := by
  have anywhere : releasing.Stable (.handoff n) fun _ => True := fun _ _ _ _ _ => trivial
  have hcalm : ∀ {call : ServiceCall}, (∀ grants heard, ∀ act ∈ call.acts grants heard, act.grant = none ∧ ∀ older, ReleaseDue act older) →
      releasing.Maintains (.handoff n) (fun _ => True) (ask call) := fun hacts => .perform anywhere fun s hi _ heard _ =>
    ⟨handoff_keeps (hi.notes (hacts s.base.db.grants heard)) ⟨fun _ _ h => h, List.subset_append_right ..⟩, trivial⟩
  have suffixed : releasing.Maintains (.handoff n) (fun _ => True) (newDeployRunId "grant") :=
    .bind (.perform anywhere fun _ hi _ _ _ => ⟨handoff_keeps (hi.base rfl) ⟨fun _ _ h => h, fun _ h => h⟩, trivial⟩) fun _ => .ret _
  refine .bind suffixed fun grantRunId => ?_
  refine .bind (.perform anywhere fun _ hi _ reply _ => ⟨createGrant_handoff hi rfl, trivial⟩) fun grant => ?_
  split
  · exact .ret ()
  · refine .bind (hcalm (calm_acts rfl)) fun run => ?_
    split
    · exact .ret ()
    · refine .bind (hcalm (calm_acts rfl)) fun _ => hcalm fun grants heard act hmem => ?_
      change act ∈ (if heard.happened then [.dispatched _] else []) at hmem
      cases hhappened : heard.happened with
      | false =>
        rw [hhappened] at hmem
        cases hmem
      | true =>
        rw [hhappened] at hmem
        rw [List.mem_singleton.mp hmem]
        exact ⟨rfl, fun _ => trivial⟩

def noBooks (runs : String → Option (Api.Run QARunResult)) : Ledger := ⟨⟨⟨runs, []⟩, []⟩, []⟩

theorem reaches_books {runs : String → Option (Api.Run QARunResult)}
    (h : Reaches (party config handoffs) anyMove (.idle (noBooks runs)) c) : Books c.state := by
  have opening : Books (noBooks runs) := by
    refine ⟨⟨List.nodup_nil, fun _ hmem => ?_⟩, fun _ hmem => ?_, fun _ hmem => ?_, trivial⟩
    all_goals cases hmem
  have done : ∀ t s (r : Option (Except Exn Unit)), Books s → releasing.Ends t r s := fun _ _ _ hi => ⟨.refl _ hi, trivial⟩
  refine (reaches_sound (G := releasing) (.idle opening fun _ => trivial) (fun t s hi _ _ => ?_) (fun t s hi _ => done t s none hi) h).inv
  cases t with
  | sweep => exact (superviseTemporaryAccess_settles hi).conseq hi fun r s hi _ => done _ _ (some r) hi
  | handoff n => exact (handoff_settles s hi trivial).conseq hi fun r s hi _ => done _ _ (some r) hi

end Runs

def notedSheet (now : Time) (suffix : String) (run : Option RunDTO) : (op : Op) → op.Noted
  | .service (.getRun runId) => ⟨.ok (if runId = "qa-1" then some ⟨"qa-1", .queued, 0, none, false⟩ else run), false⟩
  | .service call => ⟨sampleServices now run none call, false⟩
  | .newSuffix => suffix
  | .logRevokeFailed .. => ()
  | .listUnderWatch .. => ⟨.served, now, true⟩
  | .createGrant _ => ⟨.served, now, true⟩
  | .updateGrant .. => ⟨.served, now, true⟩
  | .escalateGrant .. => ⟨.served, now, true⟩
  | .recordObservation .. => ⟨.served, now, true⟩

def sampleRelease : List (Turn ledgerWorld) :=
  .start (.handoff 0) :: List.replicate 6 (.call (.handoff 0) (notedSheet 0 "0" none)) ++
    .start .sweep :: List.replicate 12 (.call .sweep (notedSheet 60 "1" deployed))

def sampleGranted : TemporaryAccessGrant :=
  { TemporaryAccessGrantCreate.row ⟨"tempaccess-qa-1", "project", "TEST_USER_ID", "7", "sha", "qa-1", "deploy-grant-0", ⟨"story", 7, "qa-1"⟩⟩ 0 with
    status := .granted }

def sampleReleased : Config ledgerWorld := Config.play (party sampleConfig sampleHandoffs) (.idle (noBooks fun _ => none)) sampleRelease

end Orchestrator.Access
