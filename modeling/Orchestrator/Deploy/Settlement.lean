import Orchestrator.Deploy.Claims
import Orchestrator.Deploy.Lock

/-!
What the sweep's answer settles. Once it has said that the revoke may proceed,
no claim on the run is granted any more, and, unless a worker answers for the
run while another one still holds a live claim on it, no worker's lease check
passes any more.
-/

namespace Orchestrator.Deploy

open Async Api Contracts Rules

variable {strict : Prop} {t : Party} {s : State} {r : String}

variable {store : Store DeployRunResult}

variable {reason : String}

theorem withdraw_advances (hi : SettleInv strict s) {answer : DeployDispatchWithdrawal}
    (h : withdrawRunDispatch s.store r reason s.now = .ok (answer, store)) :
    Advances strict t s { s with store := store } ∧ Over { s with store := store } r ∧
      (answer.claimedAt = none → Closed strict { s with store := store } r) := by
  obtain ⟨row, hrow, h⟩ := bind_ok h
  obtain ⟨⟨_, row'⟩, hrow', h⟩ := bind_ok h
  cases h
  have hfound := lockRun_ok hrow
  obtain ⟨hclaimed, hcases⟩ := withdrawRow_ok hrow'
  have hsame : row'.runMetadata = row.runMetadata ∧ row'.result = row.result ∧ row'.terminal = true := by
    rcases hcases with ⟨ht, rfl⟩ | ⟨_, rfl⟩
    · exact ⟨rfl, rfl, ht⟩
    · exact ⟨cancelRow_metadata .., cancelRow_result .., cancelRow_terminal ..⟩
  have hadv : Advances strict t s (s.writeRun r row') :=
    quietRow_advances hi hfound (withdrawRow_keeps hrow').evolves hsame.1 hsame.2.1
  have hover : Over (s.writeRun r row') r := by
    intro found hf
    have hself : (s.writeRun r row').store.runs r = some row' := writeRun_runs_self ..
    cases hself.symm.trans hf
    exact hsame.2.2
  refine ⟨hadv, hover, fun hnone => ⟨hover, fun _ u claim hp _ => ?_⟩⟩
  obtain ⟨_, found, hf, hon⟩ := hi.claims u r claim hp
  rw [hfound] at hf
  cases hf
  obtain ⟨moment, aware, hstamp⟩ := hon.claimed
  rw [hnone, Run.claimedAt, Run.readStamp, hstamp] at hclaimed
  cases hclaimed

variable {claim : DeployDispatchClaim}

theorem OnRow.dead {row : DeployRun} {now : Time} {lease : Option (Time × Bool)}
    (hon : OnRow row claim now) (hlease : row.leaseExpiresAt = .ok lease) (hdead : leaseLive lease now = .ok false) :
    ¬ claimLive claim now := by
  obtain ⟨own, bound, hown, hbound, hle, _⟩ := hon.lease
  rw [Run.leaseExpiresAt, Run.readStamp, hbound] at hlease
  cases hlease
  have hpast : ¬ now < bound := by
    intro hlt
    rw [leaseLive, decide_eq_true hlt] at hdead
    cases hdead
  exact fun hlive => hpast (Nat.lt_of_lt_of_le (hlive own true hown) hle)

theorem supersede_advances (hi : SettleInv strict s) {answer : DeployDispatchSupersede}
    (h : supersedeRunDispatch s.store r reason s.now = .ok (answer, store)) :
    Advances strict t s { s with store := store } ∧
      (Over s r → answer.outcome.settled = true → Closed strict { s with store := store } r) := by
  obtain ⟨row, hrow, h⟩ := bind_ok h
  obtain ⟨⟨_, row'⟩, hrow', h⟩ := bind_ok h
  cases h
  have hfound := lockRun_ok hrow
  have hself : (s.writeRun r row').store.runs r = some row' := writeRun_runs_self ..
  rcases supersedeRow_ok hrow' with ⟨rfl, hreason⟩ | ⟨lease, hlease, hdead, hout, rfl⟩
  · have hadv : Advances strict t s (s.writeRun r row') := quietRow_advances hi hfound (.refl _) rfl rfl
    refine ⟨hadv, fun hover hset => hadv.progress.closed r ?_⟩
    rcases hreason hset with ⟨_, hrec⟩ | hnone | hst
    · have hres : row'.result.isSome = true := by
        simpa [Run.hasRecordedOutcome, hi.deploy r row' hfound] using hrec
      exact hi.closed r row' hfound (.inr hres)
    · refine ⟨hover, fun _ u claim hp _ => ?_⟩
      obtain ⟨_, found, hf, hon⟩ := hi.claims u r claim hp
      rw [hfound] at hf
      cases hf
      obtain ⟨moment, aware, hstamp⟩ := hon.claimed
      rw [Run.claimedAt, Run.readStamp, hstamp] at hnone
      cases hnone
    · exact hi.closed r row' hfound (.inl hst)
  · have hclaims : strict → ∀ u claim, pending u r s.trace = some claim → ¬ claimLive claim s.now := by
      intro _ u claim hp
      obtain ⟨_, found, hf, hon⟩ := hi.claims u r claim hp
      rw [hfound] at hf
      cases hf
      exact hon.dead hlease hdead
    have hmeta : ∀ key, key ≠ dispatchSupersededAtKey →
        ((cancelRow reason s.now row).stamp dispatchSupersededAtKey (.stamp s.now true)).metadata key =
          row.metadata key := by
      intro key hkey
      have hcancel : (cancelRow reason s.now row).metadata = row.metadata := by
        rw [Run.metadata, Run.metadata, cancelRow_metadata]
      simp only [Run.stamp, Run.metadata, Option.getD_some] at hcancel ⊢
      rw [Function.update_of_ne hkey, hcancel]
    have hadv : Advances strict t s (s.writeRun r
        ((cancelRow reason s.now row).stamp dispatchSupersededAtKey (.stamp s.now true))) := by
      refine writeRun_advances hi hfound (supersedeRow_keeps hrow').evolves (fun claim hon => ?_) fun _ =>
        .inr ⟨cancelRow_terminal .., hclaims⟩
      refine ⟨?_, ?_⟩
      · rw [hmeta _ (by decide)]
        exact hon.claimed
      · rw [hmeta _ (by decide)]
        exact hon.lease
    refine ⟨hadv, fun _ _ => ⟨fun found hf => ?_, hclaims⟩⟩
    cases hself.symm.trans hf
    exact cancelRow_terminal ..

theorem claim_advances (hi : SettleInv strict s)
    (h : claimRunDispatch s.store r s.now = .ok (claim, store)) :
    (claim.granted = false ∧ Advances strict t s { s with store := store }) ∨
    (claim.granted = true ∧ claim.runId = r ∧ claim.leaseExpiresAt = some (s.now + dispatchLease, true) ∧
      Advances strict t s ({ s with store := store }.record (.granted t claim))) := by
  obtain ⟨row, hrow, h⟩ := bind_ok h
  obtain ⟨⟨_, row'⟩, hrow', h⟩ := bind_ok h
  cases h
  have hfound := lockRun_ok hrow
  rcases claimRow_ok hrow' with ⟨_, hg, rfl⟩ | ⟨hlive, hg, rfl, hlease, first, rfl⟩
  · exact .inl ⟨hg, quietRow_advances hi hfound (.refl _) rfl rfl⟩
  · refine .inr ⟨hg, rfl, hlease, ?_⟩
    let row' := (row.stamp dispatchClaimedAtKey (.stamp first.1 first.2)).stamp dispatchLeaseExpiresAtKey
      (.stamp (s.now + dispatchLease) true)
    have hclaimed : row'.metadata dispatchClaimedAtKey = some (.stamp first.1 first.2) := by
      simp [row', Run.stamp, Run.metadata, dispatchClaimedAtKey, dispatchLeaseExpiresAtKey]
    have hbound : row'.metadata dispatchLeaseExpiresAtKey = some (.stamp (s.now + dispatchLease) true) := by
      simp [row', Run.stamp, Run.metadata]
    have hst : row'.stamped dispatchSupersededAtKey = row.stamped dispatchSupersededAtKey := by
      simp [row', Run.stamped, Run.stamp, Run.metadata, dispatchClaimedAtKey, dispatchLeaseExpiresAtKey,
        dispatchSupersededAtKey]
    have hadv : Advances strict t s (s.writeRun claim.runId row') := by
      refine writeRun_advances hi hfound (claimRow_keeps hrow').evolves (fun c hon => ?_) fun h => .inl ?_
      · obtain ⟨lease, _, hl, _, _, hle⟩ := hon.lease
        exact ⟨⟨_, _, hclaimed⟩, lease, _, hl, hbound, hle, hle⟩
      · rw [hst] at h
        exact h
    refine hadv.trans (grant_advances hadv.inv (writeRun_runs_self ..) hlive ?_)
    exact ⟨⟨_, _, hclaimed⟩, _, _, hlease, hbound, Nat.le_refl _, Nat.le_refl _⟩

def soleClaimant (t : Party) (r : String) (s : State) (now : Time) : Prop :=
  ∀ u, u ≠ t → ∀ claim, pending u r s.trace = some claim → ¬ claimLive claim now

variable {result : DeployRunResult}

variable {error : Option String}

variable {status : RunStatus}

theorem outcomePatch_ok (hterm : status.terminal = true)
    {now : Time} {row row' : DeployRun}
    (h : updateRow r (outcomePatch status error result) now row = .ok row') :
    row'.metadata = row.metadata ∧ row'.terminal = true := by
  obtain ⟨st, row₁, rfl, hmeta, hst⟩ := updateRow_ok h
  constructor
  · exact congrArg (fun values : Option Metadata => values.getD fun _ => none) hmeta
  · rcases hst with ⟨hn, _⟩ | hs
    · cases hn
    · cases hs
      exact hterm

theorem patch_advances (hi : SettleInv strict s) (hterm : status.terminal = true)
    (hsole : strict → soleClaimant t r s s.now) {row' : DeployRun}
    (h : updateRun s.store r (outcomePatch status error result) (.ok none) s.now = .ok (row', store)) :
    Advances strict t s ({ s with store := store }.record (.recorded t r)) := by
  obtain ⟨row, hrow, h⟩ := bind_ok h
  obtain ⟨actor, hactor, h⟩ := bind_ok h
  cases hactor
  rw [if_neg (by decide)] at h
  obtain ⟨found, hrow', h⟩ := bind_ok h
  cases h
  have hfound := lockRun_ok hrow
  have hkeeps := (updateRow_keeps hrow').evolves
  obtain ⟨hmeta, hover⟩ := outcomePatch_ok hterm hrow'
  have hrec : Advances strict t s (s.record (.recorded t r)) :=
    record_advances hi (fun u hu => (Option.some.inj hu).symm) (fun _ _ h => by cases h) (fun _ h => by cases h)
      (fun _ _ _ h => by cases h) (fun _ _ h => by cases h)
  have hwrite : Advances strict t (s.record (.recorded t r)) ((s.record (.recorded t r)).writeRun r row') := by
    refine writeRun_advances hrec.inv hfound hkeeps (fun claim hon => ?_) fun _ => .inr ⟨hover, fun hs u claim hp => ?_⟩
    · refine ⟨?_, ?_⟩
      · rw [hmeta]
        exact hon.claimed
      · rw [hmeta]
        exact hon.lease
    · by_cases hu : u = t
      · have hnone : pending t r (.recorded t r :: s.trace) = none := if_pos ⟨rfl, rfl⟩
        rw [hu] at hp
        cases hp.symm.trans hnone
      · refine hsole hs u hu claim ?_
        rwa [← hrec.progress.pending u hu r]
  exact hrec.trans hwrite

def noForeignRecord (strict : Prop) (s : State) : Move deployWorld → Prop
  | .call t (.patchRun r _) reply => strict → soleClaimant t r s (s.now + reply.elapsed)
  | _ => True

def settleRules (strict : Prop) : Rules deployWorld where
  admits := noForeignRecord strict
  inv := SettleInv strict
  rely t s s' := (∀ r, pending t r s'.trace = pending t r s.trace) ∧ (∀ r, Over s r → Over s' r) ∧
    (∀ r, Closed strict s r → Closed strict s' r) ∧ ∀ e ∈ s.trace, e ∈ s'.trace
  rely_refl _ _ := ⟨fun _ => rfl, fun _ h => h, fun _ h => h, fun _ h => h⟩
  rely_trans h h' := ⟨fun r => (h'.1 r).trans (h.1 r), fun r ho => h'.2.1 r (h.2.1 r ho),
    fun r hc => h'.2.2.1 r (h.2.2.1 r hc), fun e he => h'.2.2.2 e (h.2.2.2 e he)⟩
  rest _ _ := True
  rest_stable _ _ h := h

theorem Advances.keeps {s' : State} (h : Advances strict t s s') : (settleRules strict).Keeps t s s' :=
  ⟨h.inv, fun u hu => ⟨h.progress.pending u hu, h.progress.finished, h.progress.closed, h.progress.trace⟩⟩

theorem locks_advances (hi : SettleInv strict s) (locks : String → Option String) :
    Advances strict t s { s with locks := locks } := by
  have hclosed : ∀ r, Closed strict s r → Closed strict { s with locks := locks } r := fun _ h => ⟨h.finished, h.dead⟩
  exact ⟨⟨hi.deploy, hi.claims, fun r row hrow hst => hclosed r (hi.closed r row hrow hst),
    fun r hr => hclosed r (hi.settled r hr), hi.settles⟩, fun _ h => h, hclosed, fun _ h => h, fun _ _ _ => rfl⟩

def Event.mark : Event → Bool
  | .acquired _ _ => true
  | .released _ _ => true
  | .ended _ => true
  | _ => false

theorem mark_advances (hi : SettleInv strict s) {e : Event} (he : e.mark = true)
    (hmover : ∀ u, e.mover = some u → u = t) : Advances strict t s (s.record e) := by
  refine record_advances hi hmover (fun u claim h => ?_) (fun r h => ?_) (fun _ u r h => ?_) fun u r h => ?_
  all_goals
    subst h
    cases he

theorem serve_advances {A : Type} {exec : State → Except Exn A × State} (fate : Fate Exn) (hi : SettleInv strict s)
    (h : Advances strict t s (exec s).2) : Advances strict t s (fate.serve exec s).2 := by
  cases fate with
  | unsent e => exact .refl hi
  | _ => exact h

theorem api_advances {A : Type} (hi : SettleInv strict s) {answer : Except HTTPException (A × Store DeployRunResult)}
    (h : ∀ a store, answer = .ok (a, store) → Advances strict t s { s with store := store }) :
    Advances strict t s (s.api answer).2 := by
  cases answer with
  | error e => exact .refl hi
  | ok r => exact h r.1 r.2 rfl

def Op.plain : Op → Bool
  | .service _ => true
  | .setLock _ _ => true
  | .deleteLock _ => true
  | .getRun _ => true
  | .startRun _ => true
  | _ => false

theorem run_plain_advances (hi : SettleInv strict s) {op : Op} (hop : op.plain = true) (reply : Reply) :
    Advances strict t s (run t op reply s).2 := by
  have hwait := wait_advances (t := t) hi reply.elapsed
  refine hwait.trans ?_
  cases op with
  | service call => exact .refl hwait.inv
  | setLock projectId taskId =>
    refine serve_advances reply.fate hwait.inv ?_
    unfold State.setLock
    split
    · exact .refl hwait.inv
    · have hlocks := locks_advances (t := t) hwait.inv (Function.update (s.wait reply.elapsed).locks projectId (some taskId))
      exact hlocks.trans (mark_advances hlocks.inv rfl fun _ h => by cases h)
  | deleteLock projectId =>
    refine serve_advances reply.fate hwait.inv ?_
    have hlocks := locks_advances (t := t) hwait.inv (Function.update (s.wait reply.elapsed).locks projectId none)
    exact hlocks.trans (mark_advances hlocks.inv rfl fun _ h => by cases h)
  | getRun runId =>
    refine serve_advances reply.fate hwait.inv ?_
    unfold State.getRun
    split <;> exact .refl hwait.inv
  | startRun runId =>
    exact serve_advances reply.fate hwait.inv (api_advances hwait.inv fun _ _ h => startRun_advances hwait.inv h)
  | _ => cases hop

theorem plain_maintains {op : Op} (hop : op.plain = true) :
    (settleRules strict).Maintains t (fun _ => True) (perform op) :=
  .perform (fun _ _ _ _ _ => trivial) fun _ hi _ reply _ => ⟨(run_plain_advances hi hop reply).keeps, trivial⟩

theorem patchRun_maintains (hterm : status.terminal = true)
    :
    (settleRules strict).Maintains t (fun _ => True) (patchRun r (outcomePatch status error result)) := by
  refine .perform (fun _ _ _ _ _ => trivial) fun s hi _ reply hok => ⟨?_, trivial⟩
  have hwait := wait_advances (t := t) hi reply.elapsed
  refine (hwait.trans (serve_advances reply.fate hwait.inv ?_)).keeps
  unfold State.patchRun
  split
  · exact .refl hwait.inv
  · rename_i hupdate
    exact patch_advances hwait.inv hterm hok hupdate

theorem served_safe (op : Op) (exec : State → Except Exn (Op.Res op) × State)
    (hrun : ∀ reply s, run t op reply s = reply.fate.serve exec (s.wait reply.elapsed))
    {Q : Op.Res op → State → Prop}
    (h : ∀ s', SettleInv strict s' → (settleRules strict).rely t s s' →
      Advances strict t s' (exec s').2 ∧ ∀ a, (exec s').1 = .ok a → Q a (exec s').2) :
    (settleRules strict).Safe t (fun answer s => ∀ a, answer = .ok a → Q a s)
      (perform op) s := by
  refine Safe.perform fun s' hi hr reply _ => ?_
  have hwait := wait_advances (t := t) hi reply.elapsed
  have hrely : (settleRules strict).rely t s (s'.wait reply.elapsed) :=
    ⟨hr.1, hr.2.1, fun r hc => hwait.progress.closed r (hr.2.2.1 r hc), hr.2.2.2⟩
  obtain ⟨hadv, hok⟩ := h _ hwait.inv hrely
  change (settleRules strict).Keeps t s' (run t op reply s').2 ∧
    ∀ a, (run t op reply s').1 = .ok a → Q a (run t op reply s').2
  rw [hrun]
  refine ⟨(hwait.trans (serve_advances reply.fate hwait.inv hadv)).keeps, fun a ha => ?_⟩
  cases hf : reply.fate with
  | served =>
    rw [hf] at ha
    exact hok a ha
  | unheard e =>
    rw [hf] at ha
    cases ha
  | unsent e =>
    rw [hf] at ha
    cases ha

theorem claimDispatch_safe (hne : r.isEmpty = false) (hi : (settleRules strict).inv s) :
    (settleRules strict).Safe t (fun answer s => ∀ found, answer = .ok found → ∃ claim, found = some claim ∧
      claim.runId = r ∧ pending t r s.trace = some claim) (claimDispatch r) s := by
  have claim : (settleRules strict).Safe t (fun answer s => ∀ claim : DeployDispatchClaim, answer = .ok claim →
      claim.granted = true → claim.runId = r ∧ pending t r s.trace = some claim)
      (perform (.claimDispatch r)) s := by
    refine served_safe (.claimDispatch r) (State.claimDispatch t r) (fun _ _ => rfl) fun s' hi' _ => ?_
    unfold State.claimDispatch
    split
    · exact ⟨.refl hi', fun _ h => by cases h⟩
    · rename_i claim store hanswer
      rcases claim_advances (t := t) hi' hanswer with ⟨hg, hadv⟩ | ⟨hg, hid, _, hadv⟩
      · rw [if_neg (by simp [hg])]
        refine ⟨hadv, fun c hc hgc => ?_⟩
        cases hc
        rw [hg] at hgc
        cases hgc
      · rw [if_pos hg]
        refine ⟨hadv, fun c hc _ => ?_⟩
        cases hc
        exact ⟨hid, if_pos ⟨rfl, hid⟩⟩
  unfold claimDispatch
  rw [if_neg (by simp [hne])]
  refine Safe.bind hi claim (fun claim s _ h => ?_) (fun e s _ _ c hc => by cases hc)
  by_cases hg : claim.granted = true
  · rw [if_pos hg]
    intro found hc
    cases hc
    exact ⟨claim, rfl, h claim rfl hg⟩
  · rw [if_neg hg]
    exact fun c hc => by cases hc

theorem requireLiveLease_safe (hi : (settleRules strict).inv s) (hid : claim.runId = r)
    (hheld : pending t r s.trace = some claim) :
    (settleRules strict).Safe t (fun answer s => answer = .ok () → .checked t r ∈ s.trace)
      (requireLiveLease (some claim)) s := by
  have check : (settleRules strict).Safe t (fun answer s => (∃ moment, answer = .ok moment) → .checked t r ∈ s.trace)
      (perform (.requireLiveLease claim)) s := by
    refine Safe.perform fun s' hi hr reply _ => ?_
    have hwait := wait_advances (t := t) hi reply.elapsed
    have hp : pending t r (s'.wait reply.elapsed).trace = some claim := (hr.1 r).trans hheld
    obtain ⟨_, row, _, hon⟩ := hwait.inv.claims t r claim hp
    obtain ⟨lease, _, hlease, _⟩ := hon.lease
    change (settleRules strict).Keeps t s' ((s'.wait reply.elapsed).requireLiveLease t claim).2 ∧
      ((∃ moment, ((s'.wait reply.elapsed).requireLiveLease t claim).1 = .ok moment) →
        .checked t r ∈ ((s'.wait reply.elapsed).requireLiveLease t claim).2.trace)
    unfold State.requireLiveLease
    rw [hlease]
    dsimp only
    by_cases hlt : (s'.wait reply.elapsed).now < lease
    · have hcheck : Advances strict t (s'.wait reply.elapsed)
          ((s'.wait reply.elapsed).record (.checked t claim.runId)) := by
        refine record_advances hwait.inv (fun u hu => (Option.some.inj hu).symm) (fun _ _ h => by cases h)
          (fun _ h => by cases h) (fun hs u r' h hsettled => ?_) (fun _ _ h => by cases h)
        cases h
        rw [hid] at hsettled
        refine (hwait.inv.settled r hsettled).dead hs t claim hp fun lease' aware heq => ?_
        rw [hlease] at heq
        cases heq
        exact hlt
      rw [if_pos hlt]
      refine ⟨(hwait.trans hcheck).keeps, fun _ => ?_⟩
      rw [← hid]
      exact List.mem_cons_self
    · rw [if_neg hlt]
      refine ⟨hwait.keeps, fun ⟨_, h⟩ => ?_⟩
      cases h
  exact Safe.bind hi check (fun moment s _ h _ => h ⟨moment, rfl⟩) (fun e s _ _ h => by cases h)

theorem crossBoundary_maintains (hne : r.isEmpty = false) {effect : Job Unit}
    (heffect : ∀ s, SettleInv strict s → .checked t r ∈ s.trace →
      (settleRules strict).Safe t (fun _ _ => True) effect s) :
    (settleRules strict).Maintains t (fun _ => True) (crossBoundary r effect) := by
  intro s hi _
  refine Safe.bind hi (claimDispatch_safe hne hi) (fun found s hi h => ?_) fun _ _ _ _ => trivial
  obtain ⟨claim, rfl, hid, hheld⟩ := h found rfl
  refine Safe.bind hi (requireLiveLease_safe hi hid hheld) (fun _ s hi h => ?_) fun _ _ _ _ => trivial
  exact heffect s hi (h rfl)

theorem effect_safe {op : Op} (hop : ∀ reply s, (run t op reply s).2 = s.wait reply.elapsed ∨
      (run t op reply s).2 = (s.wait reply.elapsed).record (.dispatched t r)) (hchecked : .checked t r ∈ s.trace) :
    (settleRules strict).Safe t (fun _ _ => True) (perform op) s := by
  refine Safe.perform fun s' hi hr reply _ => ⟨?_, trivial⟩
  have hwait := wait_advances (t := t) hi reply.elapsed
  have hmem : .checked t r ∈ (s'.wait reply.elapsed).trace := hr.2.2.2 _ hchecked
  refine (hwait.trans ?_).keeps
  rcases hop reply s' with heq | heq
  · rw [heq]
    exact .refl hwait.inv
  · rw [heq]
    refine record_advances hwait.inv (fun u h => ?_) (fun u claim h => ?_) (fun r' h => ?_) (fun _ u r' h => ?_)
      fun u r' h => ?_
    · cases h
    · cases h
    · cases h
    · cases h
    · cases h
      exact hmem

theorem callsMaintain_settle (hne : r.isEmpty = false) :
    CallsMaintain (settleRules strict) t (fun _ => True) r where
  service call := plain_maintains rfl
  fetchRun := plain_maintains rfl
  startRun := plain_maintains rfl
  patchRun hterm := patchRun_maintains hterm
  trigger owner := by
    refine crossBoundary_maintains hne fun s _ hc => effect_safe (fun reply s => ?_) hc
    cases hf : reply.fate <;> simp [run, hf, Fate.serve]
  rerun owner workflowRunId := by
    refine crossBoundary_maintains hne fun s _ hc => effect_safe (fun reply s => ?_) hc
    cases hf : reply.fate <;> simp [run, hf, Fate.serve]

theorem fetchRun_safe : (settleRules strict).Safe t (fun answer s' => ∀ found, answer = .ok found →
    r.isEmpty = false ∧ s'.store.runs r = found ∧ (Over s r → Over s' r)) (fetchRun r) s := by
  refine served_safe (.getRun r) (State.getRun r) (fun _ _ => rfl) fun s' hi' hr => ?_
  unfold State.getRun
  by_cases hne : r.isEmpty = true
  · rw [if_pos hne]
    exact ⟨.refl hi', fun _ h => by cases h⟩
  · rw [if_neg hne]
    exact ⟨.refl hi', fun _ h => ⟨Bool.eq_false_iff.mpr hne, Except.ok.inj h, hr.2.1 r⟩⟩

theorem runDTO_ok {row found : DeployRun} (h : runDTO row = .ok found) : found = row := by
  unfold runDTO at h
  split at h
  · split at h
    · cases h
    · split at h
      · cases h
      · cases h
        rfl
  · cases h

theorem getRun_safe (hi : (settleRules strict).inv s) : (settleRules strict).Safe t (fun answer _ =>
    ∀ found, answer = .ok found → r.isEmpty = false) (getRun r) s := by
  refine Safe.bind hi fetchRun_safe (fun found s hi h => ?_) (fun e s _ _ found h => by cases h)
  obtain ⟨hne, _⟩ := h found rfl
  split
  · exact fun _ h => by cases h
  · exact Safe.ofExcept fun _ _ => hne

theorem getRunIfMissingReturnsNone_safe (hi : (settleRules strict).inv s) :
    (settleRules strict).Safe t (fun answer s' => ∀ found, answer = .ok found →
      s'.store.runs r = found ∧ (Over s r → Over s' r)) (getRunIfMissingReturnsNone r) s := by
  refine Safe.bind hi fetchRun_safe (fun found s' hi' h => ?_) (fun e s _ _ found h => by cases h)
  obtain ⟨_, hfound, hover⟩ := h found rfl
  cases found with
  | none =>
    intro found h
    cases h
    exact ⟨hfound, hover⟩
  | some row =>
    change (settleRules strict).Safe t _ ((liftExcept (runDTO row)).bind fun run => .ret (some run)) s'
    cases hrow : runDTO row with
    | error e => exact fun _ h => by cases h
    | ok run =>
      obtain rfl := runDTO_ok hrow
      intro found h
      cases h
      exact ⟨hfound, hover⟩

theorem processDeployJob_settles {msg : DeployMessage} (hi : (settleRules strict).inv s) :
    (settleRules strict).Safe t (fun _ _ => True) (processDeployJob msg) s := by
  refine Safe.bind hi (getRun_safe hi) (fun run s hi h => ?_) fun _ _ _ _ => trivial
  have hne := h run rfl
  have hcalls : CallsMaintain (settleRules strict) t (fun _ => True) msg.taskId := callsMaintain_settle hne
  split
  · trivial
  · have job : (settleRules strict).Maintains t (fun _ => True)
        (Prog.ensuring (Prog.handle (lockAndDeploy msg) (onDeployException msg)) (releaseLock msg.projectId)) :=
      .ensuring (.handle (lockAndDeploy_built hcalls.calls.toCalls (plain_maintains rfl) (deployProject_maintains hcalls))
        fun e => onDeployException_built hcalls.calls.toCalls e) (plain_maintains rfl)
    exact job s hi trivial

theorem dispatchSettled_closed (hi : SettleInv strict s) {row : DeployRun} (hrow : s.store.runs r = some row)
    (h : dispatchSettled row = true) : Closed strict s r := by
  refine hi.closed r row hrow ?_
  unfold dispatchSettled at h
  rcases (Bool.or_eq_true ..).mp h with hst | hres
  · exact .inl hst
  · exact .inr ((Bool.and_eq_true ..).mp hres).2

theorem withdrawDeployDispatch_safe :
    (settleRules strict).Safe t (fun answer s => ∀ withdrawal, answer = .ok withdrawal →
      Over s r ∧ (withdrawal.claimedAt = none → Closed strict s r)) (withdrawDeployDispatch r reason) s := by
  refine served_safe (.withdrawDispatch r reason) (fun s => s.api (withdrawRunDispatch s.store r reason s.now)) (fun _ _ => rfl)
    fun s' hi' _ => ?_
  cases hanswer : withdrawRunDispatch s'.store r reason s'.now with
  | error e => exact ⟨.refl hi', fun _ h => by cases h⟩
  | ok result =>
    obtain ⟨hadv, hover, hclosed⟩ := withdraw_advances (t := t) hi' hanswer
    refine ⟨hadv, fun withdrawal h => ?_⟩
    cases h
    exact ⟨hover, hclosed⟩

theorem supersedeDeployDispatch_safe (hover : Over s r) :
    (settleRules strict).Safe t (fun answer s => ∀ supersede, answer = .ok supersede →
      supersede.outcome.settled = true → Closed strict s r) (supersedeDeployDispatch r reason) s := by
  refine served_safe (.supersedeDispatch r reason) (fun s => s.api (supersedeRunDispatch s.store r reason s.now)) (fun _ _ => rfl)
    fun s' hi' hr => ?_
  cases hanswer : supersedeRunDispatch s'.store r reason s'.now with
  | error e => exact ⟨.refl hi', fun _ h => by cases h⟩
  | ok result =>
    obtain ⟨hadv, hclosed⟩ := supersede_advances (t := t) hi' hanswer
    refine ⟨hadv, fun supersede h hset => ?_⟩
    cases h
    exact hclosed (hr.2.1 r hover) hset

theorem stopGrantDeploy_settles {grant : TemporaryAccessGrantDTO} {detail : String}
    (hi : (settleRules strict).inv s) :
    (settleRules strict).Safe t (fun answer s => answer = .ok true → Closed strict s grant.grantRunId)
      (stopGrantDeploy grant detail) s := by
  refine Safe.bind hi (getRunIfMissingReturnsNone_safe hi) (fun found s hi h => ?_) (fun e s _ _ h => by cases h)
  obtain ⟨hfound, _⟩ := h found rfl
  cases found with
  | none =>
    refine fun _ => ⟨fun row hrow => ?_, fun _ u claim hp => ?_⟩
    · rw [hfound] at hrow
      cases hrow
    · obtain ⟨_, row, hrow, _⟩ := hi.claims u _ claim hp
      rw [hfound] at hrow
      cases hrow
  | some row =>
    by_cases hset : dispatchSettled row = true
    · simp only [hset, if_true]
      exact fun _ => dispatchSettled_closed hi hfound hset
    simp only [hset]
    refine Safe.bind hi withdrawDeployDispatch_safe (fun withdrawal s hi h => ?_) (fun e s _ _ h => by cases h)
    obtain ⟨hover, hclosed⟩ := h withdrawal rfl
    by_cases hnone : withdrawal.claimedAt.isNone = true
    · simp only [hnone, if_true]
      exact fun _ => hclosed (Option.isNone_iff_eq_none.mp hnone)
    simp only [hnone]
    refine Safe.bind hi (getRunIfMissingReturnsNone_safe hi) (fun again s' hi h => ?_) (fun e s _ _ h => by cases h)
    obtain ⟨hagain, hover'⟩ := h again rfl
    by_cases hset' : again.any dispatchSettled = true
    · simp only [hset', if_true]
      obtain ⟨row', rfl, hrow'⟩ := (Option.any_eq_true ..).mp hset'
      exact fun _ => dispatchSettled_closed hi hagain hrow'
    simp only [hset']
    refine Safe.bind hi (supersedeDeployDispatch_safe (hover' hover)) (fun supersede s hi h => ?_)
      (fun e s _ _ h => by cases h)
    by_cases hsup : supersede.outcome.settled = true
    · simp only [hsup, if_true]
      exact fun _ => h supersede rfl hsup
    simp only [hsup]
    have report : (settleRules strict).Maintains t (fun _ => True) (ask (.reportUnsettledDispatch grant.id)) :=
      plain_maintains rfl
    exact Safe.bind hi (report s hi trivial) (fun _ _ _ _ h => by cases h) (fun _ _ _ _ h => by cases h)

theorem ended_advances (hi : SettleInv strict s) {result : Option (Except Exn Result)}
    (h : ∀ n grant detail, t = .sweep n grant detail → result = some (.ok (.sweep true)) →
      Closed strict s grant.grantRunId) : Advances strict t s (ended t result s) := by
  have done : ∀ s : State, SettleInv strict s → Advances strict t s (s.record (.ended t)) :=
    fun s hi => mark_advances hi rfl fun u hu => (Option.some.inj hu).symm
  unfold ended
  split
  · rename_i n grant detail
    have hsettle : Advances strict (.sweep n grant detail) s (s.record (.settled grant.grantRunId)) := by
      refine record_advances hi (fun u hu => ?_) (fun u claim he => ?_) (fun r he => ?_) (fun _ u r he => ?_)
        fun u r he => ?_
      · cases hu
      · cases he
      · cases he
        exact h _ _ _ rfl rfl
      · cases he
      · cases he
    exact hsettle.trans (done _ hsettle.inv)
  · exact done s hi

theorem body_settles (hi : (settleRules strict).inv s) :
    (settleRules strict).Safe t ((settleRules strict).Finishes t) (body t) s := by
  cases t with
  | worker n msg =>
    refine (processDeployJob_settles hi).conseq hi fun r s' hi' _ => ?_
    have hadv : Advances strict (.worker n msg) s' (ended (.worker n msg) (some r) s') :=
      ended_advances hi' fun _ _ _ ht => by cases ht
    exact ⟨hadv.keeps, trivial⟩
  | sweep n grant detail =>
    have sweep : (settleRules strict).Safe (.sweep n grant detail) (fun answer s => answer = .ok (.sweep true) →
        Closed strict s grant.grantRunId) (body (.sweep n grant detail)) s := by
      refine Safe.bind hi (stopGrantDeploy_settles hi) (fun proceed s _ h => ?_) (fun e s _ _ h => by cases h)
      intro heq
      cases heq
      exact h rfl
    refine sweep.conseq hi fun r s' hi' h => ?_
    have hadv : Advances strict (.sweep n grant detail) s' (ended (.sweep n grant detail) (some r) s') := by
      refine ended_advances hi' fun n' grant' detail' ht hr => ?_
      cases ht
      exact h (Option.some.inj hr)
    exact ⟨hadv.keeps, trivial⟩

def Ready (store : Store DeployRunResult) : Prop := ∀ r row, store.runs r = some row →
  row.type = .member .deploy ∧
    (row.stamped dispatchSupersededAtKey = true ∨ row.result.isSome = true → row.terminal = true)

theorem initial_settleInv (h : Ready store) (now : Time) :
    SettleInv strict (State.initial store now) := by
  refine ⟨fun r row hrow => (h r row hrow).1, fun u r claim hp => (by cases hp), fun r row hrow hst => ?_,
    fun r hr => (by cases hr), ?_⟩
  · refine ⟨fun found hfound => ?_, fun _ u claim hp => by cases hp⟩
    cases hrow.symm.trans hfound
    exact (h r row hrow).2 hst
  · refine ⟨fun newer older r t claim heq => ?_, fun _ newer older r t heq => ?_, fun newer older t r heq => ?_⟩
    all_goals cases newer <;> cases heq

theorem reaches_settles {now : Time} {c : Config deployWorld} (hready : Ready store)
    (h : Reaches body (noForeignRecord strict) (idlePool store now) c) : Settles strict c.state.trace := by
  refine (reaches_sound (G := settleRules strict) (.idle (initial_settleInv hready now) fun _ => trivial) (fun t s hi _ _ => ?_)
    (fun t s hi _ => ?_) h).inv.settles
  · exact body_settles hi
  · exact ⟨(ended_advances hi fun _ _ _ _ hr => by cases hr).keeps, trivial⟩

def healthy : (call : ServiceCall) → Except Exn call.Res
  | .deployLockTtl => .ok (3600 : Nat)
  | .getProject _ => .ok (some ⟨"shop", ⟨["backend"], some [], none, false⟩⟩ : Option Project)
  | .getPrimaryRepository _ => .ok (some ⟨"repo", "owner/shop"⟩ : Option Repository)
  | .ensureProjectAllocations _ _ _ _ =>
      .ok ([⟨none, true, some "10.0.0.1", some "srv", some 8080⟩] : List Allocation)
  | .getServer _ => .ok ()
  | .getServerSshKey _ => .ok (some "key" : Option String)
  | .testServiceDir _ _ => .ok true
  | .loadEnvironmentContract _ _ => .ok (⟨[], none, [], false⟩ : NodeUpdate)
  | .resolveSecrets _ => .ok (⟨[], none, [], false⟩ : NodeUpdate)
  | .setRepositorySecrets _ => .ok true
  | .createOrResetTag _ _ => .ok ()
  | _ => .error (.exception "unavailable")

def healthyCall (t : Party) (elapsed : Time) : Turn deployWorld := .call t fun _ => ⟨elapsed, .served, healthy⟩

def pausedWorker : Party := .worker 0 (exampleMessage "a")

def redelivered : Party := .worker 1 (exampleMessage "a")

def abandoningSweep : Party := .sweep 2 ⟨"grant", "a"⟩ "no deploy"

/-- The worker claims the dispatch, passes its lease check and stands still; once
the lease has run out the sweep takes the run back; then the worker goes on. -/
def pausedPastLease : List (Turn deployWorld) :=
  (.start pausedWorker :: List.replicate 21 (healthyCall pausedWorker 0)) ++
    (.start abandoningSweep :: List.replicate 4 (healthyCall abandoningSweep 301)) ++ [healthyCall pausedWorker 0]

/-- The worker claims the dispatch; a second delivery of its job finds the lock
taken and answers for the run, which the sweep takes for the worker's answer. -/
def answeredByAnother : List (Turn deployWorld) :=
  (.start pausedWorker :: List.replicate 20 (healthyCall pausedWorker 0)) ++
    (.start redelivered :: List.replicate 4 (healthyCall redelivered 0)) ++
    [.start abandoningSweep, healthyCall abandoningSweep 0, healthyCall pausedWorker 0]

def noRecord (_ : State) : Move deployWorld → Prop
  | .call _ (.patchRun _ _) _ => False
  | _ => True

instance (s : State) : (m : Move deployWorld) → Decidable (noRecord s m)
  | .start _ => .isTrue trivial
  | .stop _ => .isTrue trivial
  | .call _ op _ => by
    unfold noRecord
    cases op <;> infer_instance

theorem exampleStore_ready : Ready exampleStore := by
  intro r row hrow
  change (if ["a", "b", "c"].contains r then some (queuedDeploy r).row else none) = some row at hrow
  split at hrow
  · cases hrow
    refine ⟨rfl, ?_⟩
    rintro (h | h)
    · cases h
    · cases h
  · cases hrow

/-- Once a sweep has let a revoke proceed, no claim on its run is granted any
more. Where no worker answers for a run while another one holds a live claim on
it, no lease check passes any more either, and whatever is dispatched for the
run is dispatched by a worker whose lease check had passed before. -/
theorem settled_deploy (store : Store DeployRunResult) (now : Time) (hready : Ready store) :
    (∀ c : Config deployWorld, Reaches body anyMove (idlePool store now) c → ∀ newer older r,
      c.state.trace = newer ++ .settled r :: older → ∀ t claim, .granted t claim ∈ newer → claim.runId ≠ r) ∧
    (∀ c : Config deployWorld, Reaches body (noForeignRecord True) (idlePool store now) c → ∀ newer older r,
      c.state.trace = newer ++ .settled r :: older → ∀ t, .checked t r ∉ newer ∧
        (.dispatched t r ∈ newer → .checked t r ∈ older)) := by
  constructor
  · intro c hc newer older r heq t claim
    have hall : Reaches body (noForeignRecord False) (idlePool store now) c :=
      hc.mono fun s m _ => by
        unfold noForeignRecord
        split
        · exact False.elim
        · trivial
    exact (reaches_settles hready hall).granted newer older r t claim heq
  · intro c hc newer older r heq t
    have hs := reaches_settles hready hc
    refine ⟨hs.checked trivial newer older r t heq, fun hmem => ?_⟩
    obtain ⟨newer', mid, rfl⟩ := List.append_of_mem hmem
    have hcheck := hs.dispatched newer' (mid ++ .settled r :: older) t r (by simpa using heq)
    rcases List.mem_append.mp hcheck with h | h
    · exact absurd (List.mem_append_right _ (List.mem_cons_of_mem _ h)) (hs.checked trivial _ older r t heq)
    · rcases List.mem_cons.mp h with h | h
      · cases h
      · exact h

theorem settled_deploy_paused :
    .checked pausedWorker "a" ∈ ((idlePool exampleStore 0).play body pausedPastLease).state.trace.drop 3 := by
  have hrun : Reaches body (noForeignRecord True) (idlePool exampleStore 0)
      ((idlePool exampleStore 0).play body pausedPastLease) := by
    have hquiet : Config.Admitted body noRecord (idlePool exampleStore 0) pausedPastLease := by decide
    refine (play_reaches hquiet).mono fun s m hok => ?_
    unfold noForeignRecord
    split
    · exact False.elim hok
    · trivial
  refine (((settled_deploy exampleStore 0 exampleStore_ready).2 _ hrun
    [.dispatched pausedWorker "a", .ended abandoningSweep] _ "a" (by rfl)) pausedWorker).2 ?_
  exact List.mem_cons_self

/-- A settled run is dispatched nevertheless: past its lease check a worker is
not held up any more, and the check itself passes where another delivery of the
job has answered for the run. -/
theorem settled_deploy_dispatched :
    (∃ c : Config deployWorld, Reaches body runsOnce (idlePool exampleStore 0) c ∧
      ∃ newer older, c.state.trace = newer ++ .settled "a" :: older ∧ .dispatched pausedWorker "a" ∈ newer) ∧
    (∃ c : Config deployWorld, Reaches body runsOnce (idlePool exampleStore 0) c ∧
      ∃ newer older, c.state.trace = newer ++ .settled "a" :: older ∧ .checked pausedWorker "a" ∈ newer) := by
  constructor
  · exact ⟨(idlePool exampleStore 0).play body pausedPastLease, play_reaches (by decide),
      [.dispatched pausedWorker "a", .ended abandoningSweep], _, by rfl, List.mem_cons_self⟩
  · exact ⟨(idlePool exampleStore 0).play body answeredByAnother, play_reaches (by decide),
      [.checked pausedWorker "a", .ended abandoningSweep], _, by rfl, List.mem_cons_self⟩

end Orchestrator.Deploy
