import Orchestrator.Api.RunStore
import Orchestrator.Results

/-!
What no operation does to a run: take it out of its terminal statuses, replace
an outcome it has recorded, or move the moment it was completed.
-/

namespace Orchestrator.Api

open Contracts

variable {J : Type}

def Run.Consistent (run : Run J) : Prop := run.completedAt.isSome = run.terminal

structure Run.Evolves (run run' : Run J) : Prop where
  type : run'.type = run.type
  terminal : run.terminal = true → run'.terminal = true
  completed : ∀ t, run.completedAt = some t → run'.completedAt = some t
  outcome : run.terminal = true → run.hasRecordedOutcome = true →
    run'.status = run.status ∧ run'.result = run.result ∧ run'.errorMessage = run.errorMessage

theorem Run.Evolves.refl (run : Run J) : run.Evolves run :=
  ⟨rfl, id, fun _ h => h, fun _ _ => ⟨rfl, rfl, rfl⟩⟩

variable {run run' : Run J}

theorem Run.Evolves.recorded (h : run.Evolves run') (ht : run.terminal = true)
    (ho : run.hasRecordedOutcome = true) : run'.hasRecordedOutcome = true := by
  obtain ⟨hs, hr, _⟩ := h.outcome ht ho
  have hterm : run'.terminal = run.terminal := by rw [Run.terminal, Run.terminal, hs]
  rw [Run.hasRecordedOutcome, hr, h.type, hterm]
  exact ho

theorem Run.Evolves.trans {run run' run'' : Run J} (h : run.Evolves run') (h' : run'.Evolves run'') :
    run.Evolves run'' := by
  refine ⟨h'.type.trans h.type, fun ht => h'.terminal (h.terminal ht),
    fun t hc => h'.completed t (h.completed t hc), fun ht ho => ?_⟩
  obtain ⟨hs, hr, he⟩ := h.outcome ht ho
  obtain ⟨hs', hr', he'⟩ := h'.outcome (h.terminal ht) (h.recorded ht ho)
  exact ⟨hs'.trans hs, hr'.trans hr, he'.trans he⟩

structure Run.Keeps (run run' : Run J) : Prop where
  evolves : run.Evolves run'
  consistent : run.Consistent → run'.Consistent

theorem Run.Keeps.refl (run : Run J) : run.Keeps run := ⟨.refl run, id⟩

theorem Run.Keeps.trans {run run' run'' : Run J} (h : run.Keeps run') (h' : run'.Keeps run'') :
    run.Keeps run'' := ⟨h.evolves.trans h'.evolves, fun hc => h'.consistent (h.consistent hc)⟩

theorem stamp_keeps (key : String) (value : MetadataValue) (run : Run J) : run.Keeps (run.stamp key value) :=
  ⟨⟨rfl, id, fun _ h => h, fun _ _ => ⟨rfl, rfl, rfl⟩⟩, id⟩

theorem completion_keeps (now : Time) (htype : run'.type = run.type)
    (hterm : run'.terminal = true) (hcomp : run'.completedAt = run.completedAt.or (some now))
    (hout : ¬ (run.terminal = true ∧ run.hasRecordedOutcome = true)) : run.Keeps run' := by
  refine ⟨⟨htype, fun _ => hterm, fun t ht => ?_, fun ht ho => absurd ⟨ht, ho⟩ hout⟩, fun _ => ?_⟩
  · rw [hcomp, ht, Option.some_or]
  · rw [Run.Consistent, hterm, hcomp]
    cases run.completedAt <;> rfl

theorem cancelRow_keeps (reason : String) (now : Time) {run : Run J}
    (hout : ¬ (run.terminal = true ∧ run.hasRecordedOutcome = true)) :
    run.Keeps (cancelRow reason now run) := by
  unfold cancelRow
  by_cases hr : reason.isEmpty = true
  · simp only [hr, if_true]
    exact completion_keeps now rfl rfl rfl hout
  · simp only [hr]
    exact completion_keeps now rfl rfl rfl hout

theorem startRow_keeps (runId : String) (run : Run J) : run.Keeps (startRow runId run).2 := by
  unfold startRow
  by_cases ht : run.terminal = true
  · simp only [ht, if_true]
    exact .refl run
  · simp only [ht]
    refine ⟨⟨rfl, fun h => absurd h ht, fun _ h => h, fun h _ => absurd h ht⟩, fun hc => ?_⟩
    exact hc.trans (Bool.eq_false_iff.mpr ht)

variable {now : Time}

variable {runId : String}

theorem claimRow_ok {answer : DeployDispatchClaim}
    (h : claimRow runId now run = .ok (answer, run')) :
    (run.terminal = true ∧ answer.granted = false ∧ run' = run) ∨
    (run.terminal = false ∧ answer.granted = true ∧ answer.runId = runId ∧
      answer.leaseExpiresAt = some (now + dispatchLease, true) ∧ ∃ first : Time × Bool,
      run' = (run.stamp dispatchClaimedAtKey (.stamp first.1 first.2)).stamp dispatchLeaseExpiresAtKey
        (.stamp (now + dispatchLease) true)) := by
  unfold claimRow at h
  by_cases ht : run.terminal = true
  · rw [if_pos ht] at h
    obtain ⟨_, _, h⟩ := bind_ok h
    obtain ⟨_, _, h⟩ := bind_ok h
    cases h
    exact .inl ⟨ht, rfl, rfl⟩
  · rw [if_neg ht] at h
    obtain ⟨first, _, h⟩ := bind_ok h
    cases h
    exact .inr ⟨Bool.eq_false_iff.mpr ht, rfl, rfl, rfl, first.getD (now, true), rfl⟩

theorem claimRow_keeps {answer : DeployDispatchClaim}
    (h : claimRow runId now run = .ok (answer, run')) : run.Keeps run' := by
  rcases claimRow_ok h with ⟨_, _, rfl⟩ | ⟨_, _, _, _, _, rfl⟩
  · exact .refl _
  · exact (stamp_keeps _ _ run).trans (stamp_keeps _ _ _)

variable {runId reason : String}

theorem supersedeRow_ok
    {answer : DeployDispatchSupersede} (h : supersedeRow runId reason now run = .ok (answer, run')) :
    (run' = run ∧ (answer.outcome.settled = true → (run.terminal = true ∧ run.hasRecordedOutcome = true) ∨
      run.claimedAt = .ok none ∨ run.stamped dispatchSupersededAtKey = true)) ∨
    ∃ lease, run.leaseExpiresAt = .ok lease ∧ leaseLive lease now = .ok false ∧
      ¬ (run.terminal = true ∧ run.hasRecordedOutcome = true) ∧
      run' = (cancelRow reason now run).stamp dispatchSupersededAtKey (.stamp now true) := by
  unfold supersedeRow at h
  obtain ⟨claimedAt, hclaimed, h⟩ := bind_ok h
  obtain ⟨lease, hlease, h⟩ := bind_ok h
  by_cases hout : (run.terminal && run.hasRecordedOutcome) = true
  · have hrec : run.terminal = true ∧ run.hasRecordedOutcome = true := by simpa using hout
    rw [if_pos hout] at h
    by_cases hs : run.stamped dispatchSupersededAtKey = true
    · rw [if_pos hs] at h
      cases h
      exact .inl ⟨rfl, fun _ => .inl hrec⟩
    · rw [if_neg hs] at h
      cases h
      exact .inl ⟨rfl, fun _ => .inl hrec⟩
  · rw [if_neg hout] at h
    by_cases hc : claimedAt.isNone = true
    · rw [if_pos hc] at h
      cases h
      rw [Option.isNone_iff_eq_none.mp hc] at hclaimed
      exact .inl ⟨rfl, fun _ => .inr (.inl hclaimed)⟩
    · rw [if_neg hc] at h
      by_cases hs : run.stamped dispatchSupersededAtKey = true
      · rw [if_pos hs] at h
        cases h
        exact .inl ⟨rfl, fun _ => .inr (.inr hs)⟩
      · rw [if_neg hs] at h
        obtain ⟨live, hlive, h⟩ := bind_ok h
        cases live with
        | true =>
          cases h
          refine .inl ⟨rfl, fun hset => ?_⟩
          cases hset
        | false =>
          cases h
          exact .inr ⟨lease, hlease, hlive, by simpa using hout, rfl⟩

theorem supersedeRow_keeps
    {answer : DeployDispatchSupersede} (h : supersedeRow runId reason now run = .ok (answer, run')) :
    run.Keeps run' := by
  rcases supersedeRow_ok h with ⟨rfl, _⟩ | ⟨_, _, _, hout, rfl⟩
  · exact .refl _
  · exact (cancelRow_keeps reason now hout).trans (stamp_keeps _ _ _)

theorem withdrawRow_ok
    {answer : DeployDispatchWithdrawal} (h : withdrawRow runId reason now run = .ok (answer, run')) :
    run.claimedAt = .ok answer.claimedAt ∧
      ((run.terminal = true ∧ run' = run) ∨ (run.terminal = false ∧ run' = cancelRow reason now run)) := by
  unfold withdrawRow at h
  obtain ⟨claimedAt, hclaimed, h⟩ := bind_ok h
  by_cases ht : run.terminal = true
  · rw [if_pos ht] at h
    cases h
    exact ⟨hclaimed, .inl ⟨ht, rfl⟩⟩
  · rw [if_neg ht] at h
    cases h
    exact ⟨hclaimed, .inr ⟨Bool.eq_false_iff.mpr ht, rfl⟩⟩

theorem withdrawRow_keeps
    {answer : DeployDispatchWithdrawal} (h : withdrawRow runId reason now run = .ok (answer, run')) :
    run.Keeps run' := by
  rcases (withdrawRow_ok h).2 with ⟨_, rfl⟩ | ⟨ht, rfl⟩
  · exact .refl _
  · refine cancelRow_keeps reason now fun hout => ?_
    rw [ht] at hout
    cases hout.1

theorem escalateRow_keeps (error : String) (result : J) (now : Time) (run : Run J) :
    run.Keeps (escalateRow error result now run) := by
  unfold escalateRow
  by_cases ht : run.terminal = true
  · simp only [ht, if_true]
    exact .refl run
  · simp only [ht]
    exact completion_keeps now rfl rfl rfl (fun h => ht h.1)

section Update

variable [DecidableEq J]

variable {update : RunUpdate J}

theorem rewritten_nil {run : Run J} (h : (update.rewritten run).isEmpty = true) :
    (∀ s, update.status = some s → s = some run.status) ∧ (∀ r, update.result = some r → r = run.result) ∧
      ∀ e, update.errorMessage = some e → e = run.errorMessage := by
  simp only [RunUpdate.rewritten, List.isEmpty_iff, List.append_eq_nil_iff, ite_eq_right_iff,
    List.cons_ne_self, imp_false, Bool.not_eq_true, Option.any_eq_false, bne_eq_false_iff_eq] at h
  exact ⟨h.1.1, h.1.2, h.2⟩

variable {runId : String}

variable {run run' : Run J}

theorem recordRow_ok
    (h : recordRow runId update run = .ok run') : ∃ status, run' = update.assign status run ∧
      (update.status = none ∧ status = run.status ∨ update.status = some (some status)) ∧
      (run.terminal = true → run.hasRecordedOutcome = true → status = run.status ∧
        update.result.getD run.result = run.result ∧
        update.errorMessage.getD run.errorMessage = run.errorMessage) := by
  unfold recordRow at h
  split at h
  · cases h
  rename_i hfree
  have hout : ∀ ht : run.terminal = true, run.hasRecordedOutcome = true →
      (update.rewritten run).isEmpty = true := by
    intro ht ho
    simpa [ht, ho] using hfree
  have hres : run.terminal = true → run.hasRecordedOutcome = true →
      update.result.getD run.result = run.result ∧
        update.errorMessage.getD run.errorMessage = run.errorMessage := by
    intro ht ho
    obtain ⟨_, hr, he⟩ := rewritten_nil (hout ht ho)
    constructor
    · cases hu : update.result with
      | none => rfl
      | some r => exact hr r hu
    · cases hu : update.errorMessage with
      | none => rfl
      | some e => exact he e hu
  cases hu : update.status with
  | none =>
    rw [hu] at h
    cases h
    exact ⟨run.status, rfl, .inl ⟨rfl, rfl⟩, fun ht ho => ⟨rfl, hres ht ho⟩⟩
  | some requested =>
    rw [hu] at h
    cases requested with
    | none => cases h
    | some status =>
      cases h
      refine ⟨status, rfl, .inr rfl, fun ht ho => ⟨?_, hres ht ho⟩⟩
      exact Option.some.inj ((rewritten_nil (hout ht ho)).1 _ hu)

theorem updateRow_ok {now : Time}
    (h : updateRow runId update now run = .ok run') : ∃ status run₁, run' = update.assign status run₁ ∧
      run₁.runMetadata = run.runMetadata ∧
      (update.status = none ∧ status = run.status ∨ update.status = some (some status)) := by
  unfold updateRow at h
  split at h
  · obtain ⟨status, rfl, hs, _⟩ := recordRow_ok h
    exact ⟨status, run, rfl, rfl, hs⟩
  · split at h
    · cases h
    · split at h
      · obtain ⟨status, rfl, hs, _⟩ := recordRow_ok h
        exact ⟨status, run.recordFirstTerminalCompletion now, rfl, rfl, hs⟩
      · obtain ⟨status, rfl, hs, _⟩ := recordRow_ok h
        exact ⟨status, run, rfl, rfl, hs⟩

theorem updateRow_keeps {now : Time}
    (h : updateRow runId update now run = .ok run') : run.Keeps run' := by
  unfold updateRow at h
  cases hj : update.status.join with
  | none =>
    rw [hj] at h
    obtain ⟨status, rfl, hs | hs, hout⟩ := recordRow_ok h
    · obtain ⟨_, rfl⟩ := hs
      exact ⟨⟨rfl, id, fun _ h => h, hout⟩, id⟩
    · rw [hs] at hj
      cases hj
  | some requested =>
    rw [hj] at h
    simp only [Bool.and_eq_true, Bool.not_eq_true'] at h
    split at h
    · cases h
    rename_i hback
    have hreq : ∀ status, update.status = some (some status) → status = requested := by
      intro status hs
      rw [hs] at hj
      exact Option.some.inj hj
    have hset : update.status ≠ none := by
      intro hn
      rw [hn] at hj
      cases hj
    split at h
    · rename_i hterm
      obtain ⟨status, rfl, hs | hs, hout⟩ := recordRow_ok h
      · exact absurd hs.1 hset
      · obtain rfl := hreq status hs
        refine ⟨⟨rfl, fun _ => hterm, fun t ht => ?_, hout⟩, fun _ => ?_⟩
        · simp only [RunUpdate.assign, Run.recordFirstTerminalCompletion, ht, Option.some_or]
        · have hc : (run.recordFirstTerminalCompletion now).completedAt.isSome = true := by
            simp [Run.recordFirstTerminalCompletion]
          exact hc.trans hterm.symm
    · rename_i hterm
      obtain ⟨status, rfl, hs | hs, hout⟩ := recordRow_ok h
      · exact absurd hs.1 hset
      · obtain rfl := hreq status hs
        have hlive : run.terminal = false := by
          cases ht : run.terminal with
          | false => rfl
          | true => exact absurd ⟨ht, Bool.eq_false_iff.mpr hterm⟩ hback
        refine ⟨⟨rfl, fun ht => ?_, fun _ h => h, hout⟩, fun hc => ?_⟩
        · rw [hlive] at ht
          cases ht
        · exact (hc.trans hlive).trans (Bool.eq_false_iff.mpr hterm).symm

theorem updateRow_closes {now : Time} {run : Run J} {status : StatusColumn}
    (hopen : run.terminal = false) (hstatus : update.status = some (some status)) (hterm : status.terminal = true) :
    ∃ run', updateRow runId update now run = .ok run' ∧ run'.terminal = true := by
  have hfree : ((run.recordFirstTerminalCompletion now).terminal &&
      (run.recordFirstTerminalCompletion now).hasRecordedOutcome &&
      !(update.rewritten (run.recordFirstTerminalCompletion now)).isEmpty) = false := by
    have hopen' : (run.recordFirstTerminalCompletion now).terminal = false := hopen
    simp [hopen']
  refine ⟨update.assign status (run.recordFirstTerminalCompletion now), ?_, hterm⟩
  unfold updateRow
  simp only [hstatus, Option.join_some, hopen, hterm, Bool.false_and, if_true]
  unfold recordRow
  simp only [hfree, hstatus]
  rfl

end Update

structure Store.Keeps (s s' : Store J) : Prop where
  rows : ∀ runId run, s.runs runId = some run → ∃ run', s'.runs runId = some run' ∧ run.Keeps run'
  fresh : ∀ runId run', s'.runs runId = some run' → s.runs runId = none → run'.Consistent

theorem Store.Keeps.refl (s : Store J) : s.Keeps s :=
  ⟨fun _ run h => ⟨run, h, .refl run⟩, fun _ _ h hn => by rw [h] at hn; cases hn⟩

theorem Store.Keeps.trans {s s' s'' : Store J} (h : s.Keeps s') (h' : s'.Keeps s'') : s.Keeps s'' := by
  constructor
  · intro runId run hrun
    obtain ⟨run', hrun', hk⟩ := h.rows runId run hrun
    obtain ⟨run'', hrun'', hk'⟩ := h'.rows runId run' hrun'
    exact ⟨run'', hrun'', hk.trans hk'⟩
  · intro runId run'' hrun'' hn
    cases hrun' : s'.runs runId with
    | none => exact h'.fresh runId run'' hrun'' hrun'
    | some run' =>
      obtain ⟨_, hsome, hk⟩ := h'.rows runId run' hrun'
      rw [hrun''] at hsome
      cases hsome
      exact hk.consistent (h.fresh runId run' hrun' hn)

theorem writeRun_keeps {s : Store J} (h : s.runs runId = some run)
    (hk : run.Keeps run') : s.Keeps (s.writeRun runId run') := by
  constructor
  · intro id r hr
    by_cases hid : id = runId
    · subst hid
      rw [h] at hr
      cases hr
      exact ⟨run', writeRun_runs_self .., hk⟩
    · exact ⟨r, (writeRun_runs_of_ne s _ hid).trans hr, .refl r⟩
  · intro id r hr hn
    by_cases hid : id = runId
    · rw [hid, h] at hn
      cases hn
    · rw [writeRun_runs_of_ne s _ hid, hn] at hr
      cases hr

theorem lockRun_ok {s : Store J} {run : Run J} (h : lockRun s runId = .ok run) :
    s.runs runId = some run := by
  unfold lockRun at h
  split at h
  · cases h
  · cases h
    assumption

theorem createRun_keeps {s s' : Store J} {run : RunCreate} {userExists : Nat → Bool} {referenced : Bool}
    {row : Run J} (h : createRun s run userExists referenced = .ok (row, s')) : s.Keeps s' := by
  unfold createRun at h
  split at h
  · cases h
  · split at h
    · rename_i hfree
      simp only [Bool.and_eq_true, Option.isNone_iff_eq_none] at hfree
      cases h
      constructor
      · intro id r hr
        have hid : id ≠ run.id := by
          rintro rfl
          rw [hfree.2] at hr
          cases hr
        exact ⟨r, (writeRun_runs_of_ne s _ hid).trans hr, .refl r⟩
      · intro id r hr hn
        by_cases hid : id = run.id
        · rw [hid, writeRun_runs_self] at hr
          cases hr
          rfl
        · rw [writeRun_runs_of_ne s _ hid, hn] at hr
          cases hr
    · cases h

theorem escalateGrant_keeps {s s' : Store J} {grantId : String} {escalation : TemporaryAccessEscalation J}
    {grant : TemporaryAccessGrant} (h : escalateGrant s grantId escalation now = .ok (grant, s')) :
    s.Keeps s' := by
  unfold escalateGrant at h
  cases hg : s.grants grantId with
  | none =>
    rw [hg] at h
    cases h
  | some found =>
    rw [hg] at h
    dsimp only at h
    split at h
    · cases h
    · cases hr : s.runs found.qaRunId with
      | none =>
        rw [hr] at h
        cases h
        exact ⟨(Store.Keeps.refl s).rows, (Store.Keeps.refl s).fresh⟩
      | some run =>
        rw [hr] at h
        cases h
        have hk := writeRun_keeps hr (escalateRow_keeps escalation.runErrorMessage escalation.runResult now run)
        exact ⟨hk.rows, hk.fresh⟩

theorem committed_keeps {A : Type} {s : Store J} {answer : Except HTTPException (A × Store J)}
    (h : ∀ a s', answer = .ok (a, s') → s.Keeps s') : s.Keeps (committed s answer) := by
  cases answer with
  | error e => exact .refl s
  | ok r => exact h r.1 r.2 rfl

variable [DecidableEq J]

theorem serve_keeps (s : Store J) (request : Request J) : s.Keeps (s.serve request) := by
  cases request with
  | create run userExists referenced => exact committed_keeps fun _ _ h => createRun_keeps h
  | update runId update resolved now =>
    refine committed_keeps fun row s' h => ?_
    obtain ⟨run, hrun, h⟩ := bind_ok h
    obtain ⟨actor, _, h⟩ := bind_ok h
    split at h
    · cases h
    · obtain ⟨run', hrun', h⟩ := bind_ok h
      cases h
      exact writeRun_keeps (lockRun_ok hrun) (updateRow_keeps hrun')
  | start runId =>
    refine committed_keeps fun answer s' h => ?_
    obtain ⟨run, hrun, h⟩ := bind_ok h
    cases h
    exact writeRun_keeps (lockRun_ok hrun) (startRow_keeps runId run)
  | claim runId now =>
    refine committed_keeps fun answer s' h => ?_
    obtain ⟨run, hrun, h⟩ := bind_ok h
    obtain ⟨_, hrun', h⟩ := bind_ok h
    cases h
    exact writeRun_keeps (lockRun_ok hrun) (claimRow_keeps hrun')
  | supersede runId reason now =>
    refine committed_keeps fun answer s' h => ?_
    obtain ⟨run, hrun, h⟩ := bind_ok h
    obtain ⟨_, hrun', h⟩ := bind_ok h
    cases h
    exact writeRun_keeps (lockRun_ok hrun) (supersedeRow_keeps hrun')
  | withdraw runId reason now =>
    refine committed_keeps fun answer s' h => ?_
    obtain ⟨run, hrun, h⟩ := bind_ok h
    obtain ⟨_, hrun', h⟩ := bind_ok h
    cases h
    exact writeRun_keeps (lockRun_ok hrun) (withdrawRow_keeps hrun')
  | escalate grantId escalation now => exact committed_keeps fun _ _ h => escalateGrant_keeps h

theorem serveAll_keeps (s : Store J) (requests : List (Request J)) : s.Keeps (s.serveAll requests) := by
  induction requests generalizing s with
  | nil => exact .refl s
  | cons request requests ih => exact (serve_keeps s request).trans (ih (s.serve request))

def Store.initial (grants : String → Option TemporaryAccessGrant) : Store J := ⟨fun _ => none, grants⟩

theorem initial_consistent {grants : String → Option TemporaryAccessGrant} {requests : List (Request J)}
    {run : Run J} (h : ((Store.initial grants).serveAll requests).runs runId = some run) :
    run.Consistent :=
  (serveAll_keeps (.initial grants) requests).fresh runId run h rfl

/-- A run that is there after some requests is still there after any others:
terminal if it was, with its first completion time, and with the status, result
and error message of an outcome it had recorded. -/
theorem recorded_outcome_kept (grants : String → Option TemporaryAccessGrant) (requests later : List (Request J))
    (runId : String) (run : Run J) (h : ((Store.initial grants).serveAll requests).runs runId = some run) :
    (run.completedAt.isSome = true ↔ run.terminal = true) ∧
    ∃ run', (((Store.initial grants).serveAll requests).serveAll later).runs runId = some run' ∧
      (run.terminal = true → run'.terminal = true) ∧
      (∀ t, run.completedAt = some t → run'.completedAt = some t) ∧
      (run.terminal = true → run.hasRecordedOutcome = true →
        run'.status = run.status ∧ run'.result = run.result ∧ run'.errorMessage = run.errorMessage) := by
  have hcons := initial_consistent h
  obtain ⟨run', hrun', hk⟩ := (serveAll_keeps _ later).rows runId run h
  refine ⟨?_, run', hrun', hk.evolves.terminal, hk.evolves.completed, hk.evolves.outcome⟩
  rw [hcons]

omit [DecidableEq J] in
def exampleDeploy : RunCreate where
  id := "deploy-1"
  type := .member .deploy
  projectId := none
  userId := none
  storyId := none
  taskId := none
  runMetadata := fun _ => none
  callbackStream := none

omit [DecidableEq J] in
def outcomeUpdate (status : RunStatus) (result : Option J) (error : Option String) : RunUpdate J :=
  { RunUpdate.empty with
    status := some (some (.member status))
    result := result.map some
    errorMessage := error.map some }

def deployFinished : List (Request String) :=
  [.create exampleDeploy (fun _ => true) true, .start "deploy-1",
    .update "deploy-1" (outcomeUpdate .completed (some "success") none) (.ok none) 10]

theorem recorded_outcome_kept_success : ∃ run run' : Run String,
    ((Store.initial (fun _ => none)).serveAll deployFinished).runs "deploy-1" = some run ∧
    (((Store.initial (fun _ => none)).serveAll deployFinished).serveAll
      [.update "deploy-1" (outcomeUpdate .failed (some "retry") (some "late")) (.ok none) 20]).runs "deploy-1" =
        some run' ∧
    run.terminal = true ∧ run.hasRecordedOutcome = true ∧
    run'.status = run.status ∧ run'.result = run.result ∧ run'.errorMessage = run.errorMessage := by
  obtain ⟨_, run', hrun', _, _, hout⟩ := recorded_outcome_kept (fun _ => none) deployFinished
    [.update "deploy-1" (outcomeUpdate .failed (some "retry") (some "late")) (.ok none) 20] "deploy-1" _ rfl
  exact ⟨_, run', rfl, hrun', by decide, by decide, hout (by decide) (by decide)⟩

/-- A withdrawn deploy run says why in its error message and has no result; its
worker's own account still replaces both. -/
theorem withdrawn_outcome_replaced : ¬ ∀ (grants : String → Option TemporaryAccessGrant)
    (requests later : List (Request String)) (runId : String) (run run' : Run String),
    ((Store.initial grants).serveAll requests).runs runId = some run →
    (((Store.initial grants).serveAll requests).serveAll later).runs runId = some run' →
    run.terminal = true → run.result.isSome = true ∨ run.errorMessage.isSome = true →
    run'.status = run.status ∧ run'.result = run.result ∧ run'.errorMessage = run.errorMessage := by
  intro h
  have hout := h (fun _ => none) [.create exampleDeploy (fun _ => true) true, .withdraw "deploy-1" "abandoned" 10]
    [.update "deploy-1" (outcomeUpdate .failed (some "retry") (some "workflow failed")) (.ok none) 20] "deploy-1"
    _ _ rfl rfl (by decide) (by decide)
  exact absurd hout.1 (by decide)


end Orchestrator.Api
