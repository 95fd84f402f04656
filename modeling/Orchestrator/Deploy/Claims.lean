import Orchestrator.Api.RunOutcome
import Orchestrator.Deploy.Frame

/-!
Dispatch claims as the trace knows them, and what it takes for a run to be
closed: it is over, and nobody holds a claim on it that a worker's own lease
check would still accept.
-/

namespace Orchestrator.Deploy

open Async Api Contracts Rules

/-- The claim that `t` was granted on a run and has neither checked, nor answered
with a result, nor dropped by ending. -/
def pending (t : Party) (runId : String) : List Event → Option DeployDispatchClaim
  | [] => none
  | .granted u claim :: older => if u = t ∧ claim.runId = runId then some claim else pending t runId older
  | .checked u r :: older => if u = t ∧ r = runId then none else pending t runId older
  | .recorded u r :: older => if u = t ∧ r = runId then none else pending t runId older
  | .ended u :: older => if u = t then none else pending t runId older
  | _ :: older => pending t runId older

def claimLive (claim : DeployDispatchClaim) (now : Time) : Prop :=
  ∀ lease aware, claim.leaseExpiresAt = some (lease, aware) → now < lease

variable {claim : DeployDispatchClaim}

theorem claimLive_mono {now later : Time} (h : claimLive claim later)
    (hle : now ≤ later) : claimLive claim now :=
  fun lease aware heq => Nat.lt_of_le_of_lt hle (h lease aware heq)

def Event.mover : Event → Option Party
  | .granted t _ => some t
  | .checked t _ => some t
  | .recorded t _ => some t
  | .ended t => some t
  | _ => none

variable {t : Party}

variable {e : Event}

theorem pending_cons_of_mover_ne (he : e.mover ≠ some t) (runId : String)
    (trace : List Event) : pending t runId (e :: trace) = pending t runId trace := by
  cases e with
  | granted u claim | checked u r | recorded u r => exact if_neg fun h => he (congrArg some h.1)
  | ended u => exact if_neg fun h => he (congrArg some h)
  | _ => rfl

theorem pending_cons_le {runId : String} {trace : List Event}
    (h : pending t runId (e :: trace) = some claim) :
    (e = .granted t claim ∧ claim.runId = runId) ∨ pending t runId trace = some claim := by
  cases e with
  | granted u c =>
    unfold pending at h
    split at h
    · rename_i hu
      cases h
      exact .inl ⟨by rw [hu.1], hu.2⟩
    · exact .inr h
  | checked _ _ | recorded _ _ | ended _ =>
    unfold pending at h
    split at h
    · cases h
    · exact .inr h
  | _ => exact .inr h

structure OnRow (row : DeployRun) (claim : DeployDispatchClaim) (now : Time) : Prop where
  claimed : ∃ moment aware, row.metadata dispatchClaimedAtKey = some (.stamp moment aware)
  lease : ∃ lease bound, claim.leaseExpiresAt = some (lease, true) ∧
    row.metadata dispatchLeaseExpiresAtKey = some (.stamp bound true) ∧ lease ≤ bound ∧
    lease ≤ now + dispatchLease

def Over (s : State) (runId : String) : Prop := ∀ row, s.store.runs runId = some row → row.terminal = true

variable (strict : Prop)

structure Closed (s : State) (runId : String) : Prop where
  finished : Over s runId
  dead : strict → ∀ t claim, pending t runId s.trace = some claim → ¬ claimLive claim s.now

structure Settles (trace : List Event) : Prop where
  granted : ∀ newer older r t claim, trace = newer ++ .settled r :: older → .granted t claim ∈ newer →
    claim.runId ≠ r
  checked : strict → ∀ newer older r t, trace = newer ++ .settled r :: older → .checked t r ∉ newer
  dispatched : ∀ newer older t r, trace = newer ++ .dispatched t r :: older → .checked t r ∈ older

structure SettleInv (s : State) : Prop where
  deploy : ∀ r row, s.store.runs r = some row → row.type = .member .deploy
  claims : ∀ t r claim, pending t r s.trace = some claim →
    claim.runId = r ∧ ∃ row, s.store.runs r = some row ∧ OnRow row claim s.now
  closed : ∀ r row, s.store.runs r = some row →
    row.stamped dispatchSupersededAtKey = true ∨ row.result.isSome = true → Closed strict s r
  settled : ∀ r, .settled r ∈ s.trace → Closed strict s r
  settles : Settles strict s.trace

structure Progress (t : Party) (s s' : State) : Prop where
  finished : ∀ r, Over s r → Over s' r
  closed : ∀ r, Closed strict s r → Closed strict s' r
  trace : ∀ e ∈ s.trace, e ∈ s'.trace
  pending : ∀ u, u ≠ t → ∀ r, pending u r s'.trace = pending u r s.trace

variable {strict}

theorem Settles.cons {trace : List Event} (h : Settles strict trace)
    (hgranted : ∀ t claim, e = .granted t claim → .settled claim.runId ∉ trace)
    (hchecked : strict → ∀ t r, e = .checked t r → .settled r ∉ trace)
    (hdispatched : ∀ t r, e = .dispatched t r → .checked t r ∈ trace) : Settles strict (e :: trace) := by
  have shift : ∀ {e' : Event} {newer older : List Event}, e :: trace = newer ++ e' :: older →
      (newer = [] ∧ e = e' ∧ trace = older) ∨ ∃ newer', newer = e :: newer' ∧ trace = newer' ++ e' :: older := by
    intro e' newer older heq
    cases newer with
    | nil => exact .inl ⟨rfl, (List.cons.inj heq).1, (List.cons.inj heq).2⟩
    | cons e'' newer' =>
      obtain ⟨rfl, heq'⟩ := List.cons.inj heq
      exact .inr ⟨newer', rfl, heq'⟩
  refine ⟨fun newer older r t claim heq hmem hr => ?_, fun hs newer older r t heq hmem => ?_,
    fun newer older t r heq => ?_⟩
  · rcases shift heq with ⟨rfl, _, _⟩ | ⟨newer', rfl, heq'⟩
    · cases hmem
    · rcases List.mem_cons.mp hmem with rfl | hmem
      · refine hgranted t claim rfl ?_
        rw [heq', hr]
        exact List.mem_append_right _ List.mem_cons_self
      · exact h.granted newer' older r t claim heq' hmem hr
  · rcases shift heq with ⟨rfl, _, _⟩ | ⟨newer', rfl, heq'⟩
    · cases hmem
    · rcases List.mem_cons.mp hmem with rfl | hmem
      · refine hchecked hs t r rfl ?_
        rw [heq']
        exact List.mem_append_right _ List.mem_cons_self
      · exact h.checked hs newer' older r t heq' hmem
  · rcases shift heq with ⟨_, rfl, rfl⟩ | ⟨newer', _, heq'⟩
    · exact hdispatched t r rfl
    · exact h.dispatched newer' older t r heq'

structure Advances (strict : Prop) (t : Party) (s s' : State) : Prop where
  inv : SettleInv strict s'
  progress : Progress strict t s s'

theorem Progress.refl (t : Party) (s : State) : Progress strict t s s :=
  ⟨fun _ h => h, fun _ h => h, fun _ h => h, fun _ _ _ => rfl⟩

theorem Progress.trans {s s' s'' : State} (h : Progress strict t s s') (h' : Progress strict t s' s'') :
    Progress strict t s s'' :=
  ⟨fun r hc => h'.finished r (h.finished r hc), fun r hc => h'.closed r (h.closed r hc),
    fun e he => h'.trace e (h.trace e he), fun u hu r => (h'.pending u hu r).trans (h.pending u hu r)⟩

variable {s : State}

theorem Advances.refl (hi : SettleInv strict s) : Advances strict t s s := ⟨hi, .refl t s⟩

theorem Advances.trans {s s' s'' : State} (h : Advances strict t s s') (h' : Advances strict t s' s'') :
    Advances strict t s s'' := ⟨h'.inv, h.progress.trans h'.progress⟩

theorem OnRow.later {row : DeployRun} {now later : Time} (h : OnRow row claim now)
    (hle : now ≤ later) : OnRow row claim later := by
  obtain ⟨lease, bound, hl, hb, hlb, hln⟩ := h.lease
  exact ⟨h.claimed, lease, bound, hl, hb, hlb, Nat.le_trans hln (Nat.add_le_add_right hle _)⟩

theorem wait_advances (hi : SettleInv strict s) (elapsed : Time) :
    Advances strict t s (s.wait elapsed) := by
  have hle : s.now ≤ (s.wait elapsed).now := Nat.le_add_right _ _
  have hclosed : ∀ r, Closed strict s r → Closed strict (s.wait elapsed) r := fun r h =>
    ⟨h.finished, fun hs u claim hp hlive => h.dead hs u claim hp (claimLive_mono hlive hle)⟩
  refine ⟨⟨hi.deploy, fun u r claim hp => ?_, fun r row hrow hst => hclosed r (hi.closed r row hrow hst),
    fun r hr => hclosed r (hi.settled r hr), hi.settles⟩, fun _ h => h, hclosed, fun _ h => h, fun _ _ _ => rfl⟩
  obtain ⟨hid, row, hrow, hon⟩ := hi.claims u r claim hp
  exact ⟨hid, row, hrow, hon.later hle⟩

def State.writeRun (s : State) (r : String) (row' : DeployRun) : State := { s with store := s.store.writeRun r row' }

theorem writeRun_advances (hi : SettleInv strict s) {r : String} {row row' : DeployRun}
    (hrow : s.store.runs r = some row) (hk : row.Evolves row')
    (hon : ∀ claim, OnRow row claim s.now → OnRow row' claim s.now)
    (hclose : row'.stamped dispatchSupersededAtKey = true ∨ row'.result.isSome = true →
      (row.stamped dispatchSupersededAtKey = true ∨ row.result.isSome = true) ∨ (row'.terminal = true ∧
        (strict → ∀ u claim, pending u r s.trace = some claim → ¬ claimLive claim s.now))) :
    Advances strict t s (s.writeRun r row') := by
  have hself : (s.writeRun r row').store.runs r = some row' := writeRun_runs_self ..
  have hother : ∀ id, id ≠ r → (s.writeRun r row').store.runs id = s.store.runs id :=
    fun id hid => writeRun_runs_of_ne _ _ hid
  have hread : ∀ id found, (s.writeRun r row').store.runs id = some found →
      (id = r ∧ found = row') ∨ (id ≠ r ∧ s.store.runs id = some found) := by
    intro id found hfound
    by_cases hid : id = r
    · subst hid
      rw [hself] at hfound
      exact .inl ⟨rfl, (Option.some.inj hfound).symm⟩
    · rw [hother id hid] at hfound
      exact .inr ⟨hid, hfound⟩
  have hover : ∀ id, Over s id → Over (s.writeRun r row') id := by
    intro id h found hfound
    rcases hread id found hfound with ⟨rfl, rfl⟩ | ⟨_, hold⟩
    · exact hk.terminal (h row hrow)
    · exact h found hold
  have hclosed : ∀ id, Closed strict s id → Closed strict (s.writeRun r row') id :=
    fun id h => ⟨hover id h.finished, h.dead⟩
  refine ⟨⟨fun id found hfound => ?_, fun u id claim hp => ?_, fun id found hfound hst => ?_,
    fun id hid => hclosed id (hi.settled id hid), hi.settles⟩, hover, hclosed, fun _ h => h, fun _ _ _ => rfl⟩
  · rcases hread id found hfound with ⟨rfl, rfl⟩ | ⟨_, hold⟩
    · exact hk.type.trans (hi.deploy id row hrow)
    · exact hi.deploy id found hold
  · obtain ⟨heq, found, hfound, hfon⟩ := hi.claims u id claim hp
    by_cases hid : id = r
    · subst hid
      rw [hrow] at hfound
      cases hfound
      exact ⟨heq, row', hself, hon claim hfon⟩
    · exact ⟨heq, found, (hother id hid).trans hfound, hfon⟩
  · rcases hread id found hfound with ⟨rfl, rfl⟩ | ⟨_, hold⟩
    · rcases hclose hst with hst' | ⟨hterm, hdead⟩
      · exact hclosed id (hi.closed id row hrow hst')
      · refine ⟨fun found' hfound' => ?_, hdead⟩
        rw [hself] at hfound'
        cases hfound'
        exact hterm
    · exact hclosed id (hi.closed id found hold hst)

theorem record_advances (hi : SettleInv strict s)
    (hmover : ∀ u, e.mover = some u → u = t) (hgrant : ∀ u claim, e ≠ .granted u claim)
    (hsettled : ∀ r, e = .settled r → Closed strict s r)
    (hchecked : strict → ∀ u r, e = .checked u r → .settled r ∉ s.trace)
    (hdispatched : ∀ u r, e = .dispatched u r → .checked u r ∈ s.trace) :
    Advances strict t s (s.record e) := by
  have hless : ∀ u r claim, pending u r (e :: s.trace) = some claim → pending u r s.trace = some claim := by
    intro u r claim hp
    rcases pending_cons_le hp with ⟨he, _⟩ | h
    · exact absurd he (hgrant u claim)
    · exact h
  have hclosed : ∀ r, Closed strict s r → Closed strict (s.record e) r :=
    fun r h => ⟨h.finished, fun hs u claim hp => h.dead hs u claim (hless u r claim hp)⟩
  refine ⟨⟨hi.deploy, fun u r claim hp => hi.claims u r claim (hless u r claim hp),
    fun r row hrow hst => hclosed r (hi.closed r row hrow hst), fun r hr => ?_,
    hi.settles.cons (fun u claim he => absurd he (hgrant u claim)) hchecked hdispatched⟩,
    fun _ h => h, hclosed, fun _ h => List.mem_cons_of_mem _ h, fun u hu r => ?_⟩
  · rcases List.mem_cons.mp hr with rfl | hr
    · exact hclosed r (hsettled r rfl)
    · exact hclosed r (hi.settled r hr)
  · exact pending_cons_of_mover_ne (fun h => hu (hmover u h)) r s.trace

theorem grant_advances (hi : SettleInv strict s) {row : DeployRun}
    (hrow : s.store.runs claim.runId = some row) (hlive : row.terminal = false)
    (hon : OnRow row claim s.now) : Advances strict t s (s.record (.granted t claim)) := by
  have hopen : ¬ Over s claim.runId := by
    intro h
    have hterm := h row hrow
    rw [hlive] at hterm
    cases hterm
  have hclosed : ∀ r, Closed strict s r → Closed strict (s.record (.granted t claim)) r := by
    intro r h
    refine ⟨h.finished, fun hs u c hp => ?_⟩
    rcases pending_cons_le hp with ⟨he, hr⟩ | hp
    · cases he
      exact absurd (hr ▸ h.finished) hopen
    · exact h.dead hs u c hp
  refine ⟨⟨hi.deploy, fun u r c hp => ?_, fun r found hfound hst => hclosed r (hi.closed r found hfound hst),
    fun r hr => ?_, hi.settles.cons ?_ (fun _ _ _ he => by cases he) (fun _ _ he => by cases he)⟩,
    fun _ h => h, hclosed, fun _ h => List.mem_cons_of_mem _ h, fun u hu r => ?_⟩
  · rcases pending_cons_le hp with ⟨he, hr⟩ | hp
    · cases he
      exact ⟨hr, row, hr ▸ hrow, hon⟩
    · exact hi.claims u r c hp
  · rcases List.mem_cons.mp hr with he | hr
    · cases he
    · exact hclosed r (hi.settled r hr)
  · intro u c he hmem
    cases he
    exact hopen (hi.settled _ hmem).finished
  · have hmover : (Event.granted t claim).mover ≠ some u := fun h => hu (Option.some.inj h).symm
    exact pending_cons_of_mover_ne hmover r s.trace

theorem quietRow_advances (hi : SettleInv strict s) {r : String} {row row' : DeployRun}
    (hrow : s.store.runs r = some row) (hk : row.Evolves row') (hmeta : row'.runMetadata = row.runMetadata)
    (hres : row'.result = row.result) : Advances strict t s (s.writeRun r row') := by
  have hsame : row'.metadata = row.metadata := by rw [Run.metadata, Run.metadata, hmeta]
  have hst : row'.stamped dispatchSupersededAtKey = row.stamped dispatchSupersededAtKey := by
    rw [Run.stamped, Run.stamped, hsame]
  refine writeRun_advances hi hrow hk (fun claim hon => ?_) fun h => .inl ?_
  · refine ⟨?_, ?_⟩
    · rw [hsame]
      exact hon.claimed
    · rw [hsame]
      exact hon.lease
  · rw [hst, hres] at h
    exact h

theorem cancelRow_metadata (reason : String) (now : Time) (row : DeployRun) :
    (cancelRow reason now row).runMetadata = row.runMetadata := by
  unfold cancelRow
  split <;> rfl

theorem cancelRow_result (reason : String) (now : Time) (row : DeployRun) :
    (cancelRow reason now row).result = row.result := by
  unfold cancelRow
  split <;> rfl

theorem cancelRow_terminal (reason : String) (now : Time) (row : DeployRun) :
    (cancelRow reason now row).terminal = true := by
  unfold cancelRow
  split <;> rfl

theorem startRun_advances (hi : SettleInv strict s) {r : String} {answer : DeployRunStart}
    {store : Store DeployRunResult} (h : Api.startRun s.store r = .ok (answer, store)) :
    Advances strict t s { s with store := store } := by
  obtain ⟨row, hrow, h⟩ := bind_ok h
  cases h
  have hsame : (startRow r row).2.runMetadata = row.runMetadata ∧ (startRow r row).2.result = row.result := by
    unfold startRow
    split <;> exact ⟨rfl, rfl⟩
  exact quietRow_advances hi (lockRun_ok hrow) (startRow_keeps r row).evolves hsame.1 hsame.2

end Orchestrator.Deploy
