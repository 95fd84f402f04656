import Orchestrator.LiveWork.Teardown

/-!
Deploy jobs that are interrupted: what every part of the job leaves to the one around it, and
what the whole job leaves to teardown.
-/

namespace Orchestrator.LiveWork

open Async Rules
open Contracts (DeployMessage MissingUserSecret DeployOutcome DeployAction)
open Deploy (Exn)

section Parts

variable {t : Party} {s : State} {polls : Nat} {strict : Bool} {bound : Option (List Nat)} {A B : Type}

def Steady (bound : Option (List Nat)) (log : Log) : Prop := Calm log ∧ ∀ runs, bound = some runs → liveRuns log ⊆ runs

def Orderly (t : Party) (polls : Nat) (strict : Bool) (bound : Option (List Nat)) (p : Deploy.Job A) : Prop :=
  ∀ s, fenceRules.inv s → Has t (Steady bound) s →
    fenceRules.Runs (liveAttempt polls) t (fun r s => Has t (Came strict (fun _ => Steady bound) r) s) p s

theorem runs_call (op : Deploy.Op) {post : Except Exn op.Res → State → Prop} (hi : fenceRules.inv s)
    (h : fenceRules.Safe t post (liveCall polls op) s) :
    fenceRules.Runs (liveAttempt polls) t post (Prog.perform (I := Deploy.deployInterface) op) s :=
  Runs.perform hi (Safe.attempt (h.conseq hi fun r _ _ h => ⟨r, rfl, h⟩))

variable {log : Log}

theorem Steady.left {e : Exn} (h : Steady bound log) (he : ordinary strict e = true) : Left strict e log := by
  refine h.1.left strict fun heq => ?_
  subst heq
  cases he

variable {r : Except Exn A}

theorem Passed.came {log log' : Log} (h : Passed false r log log') (hsteady : Steady bound log) :
    Came strict (fun _ => Steady bound) r log' := by
  have hacked : .acked ∉ log' := fun hmem => hsteady.1.2 (h.acked hmem)
  cases r with
  | ok a => exact ⟨⟨(h.cut rfl).trans hsteady.1.1, hacked⟩, fun runs hbound _ hid => hsteady.2 runs hbound (h.live hid)⟩
  | error e =>
    refine ⟨hacked, fun he => ?_, fun hordinary => ?_⟩
    · subst he
      exact (h.stopped rfl).resolve_left nofun
    · exact (h.cut (by cases e <;> first | rfl | cases hordinary)).trans hsteady.1.1

variable {op : Deploy.Op}

theorem orderly_op (hlive : liveCall polls op = perform (.deploy op)) (hstart : (Op.deploy op).starts = false) :
    Orderly t polls strict bound (Prog.perform (I := Deploy.deployInterface) op) := by
  intro s hi h
  refine runs_call op hi ?_
  rw [hlive]
  have hcall : fenceRules.Safe t (fun r s' => Has t (Passed (Op.deploy op).guarded r (s.logs t)) s') (perform (.deploy op)) s :=
    body_call (by nofun) (by nofun) hstart rfl h.1
  exact hcall.conseq hi fun r s' _ h' => ⟨h'.1, h'.2.came h.2⟩

def Admissible (bound : Option (List Nat)) (op : Deploy.Op) : Prop :=
  ∀ reply, ∀ runs, bound = some runs → ∀ event ∈ startedBy op reply, ∀ runId, event = .dispatched runId → runId ∈ runs

theorem startedBy_live {reply : Reply} {runs : List Nat}
    (hnew : ∀ event ∈ startedBy op reply, ∀ runId, event = .dispatched runId → runId ∈ runs) (hlive : liveRuns log ⊆ runs) :
    liveRuns (startedBy op reply ++ log) ⊆ runs := by
  cases op with
  | triggerWorkflowDispatch owner runId =>
    exact List.cons_subset.mpr ⟨hnew _ List.mem_cons_self _ rfl, hlive⟩
  | rerunFailedJobs owner workflowRunId runId =>
    exact List.cons_subset.mpr ⟨hnew _ List.mem_cons_self _ rfl, hlive⟩
  | _ => exact hlive

theorem startedBy_steady {reply : Reply} (hbound : Admissible bound op) (h : Steady bound log) :
    Steady bound (startedBy op reply ++ log) := by
  have hcut : cutOff (startedBy op reply) = false := by cases op <;> rfl
  refine ⟨⟨?_, fun hmem => ?_⟩, fun runs hruns => startedBy_live (hbound reply runs hruns) (h.2 runs hruns)⟩
  · rw [cutOff_append, hcut, h.1.1]
    rfl
  · rcases List.mem_append.mp hmem with hnew | hold
    · have hfree := startedBy_free op reply _ hnew
      cases hfree
    · exact h.1.2 hold

theorem raised_came {op : Op} {reasons : List Reason} (h : Steady bound log)
    (hstop : isCancelled r = true → liveRuns (raisedBy op reasons r ++ log) = []) :
    Came strict (fun _ => Steady bound) r (raisedBy op reasons r ++ log) := by
  have hacked : .acked ∉ raisedBy op reasons r ++ log := fun hmem => h.1.2 (raisedBy_acked _ _ _ hmem)
  cases r with
  | ok a => exact h
  | error e =>
    refine ⟨hacked, fun he => ?_, fun hordinary => ?_⟩
    · subst he
      exact hstop rfl
    · rw [raisedBy_cut _ _ (by cases e <;> first | rfl | cases hordinary)]
      exact h.1.1

theorem start_orderly (hlive : liveCall polls op = perform (.deploy op)) (hbound : Admissible bound op) :
    Orderly t polls strict bound (Prog.perform (I := Deploy.deployInterface) op) := by
  intro s hi h
  refine runs_call op hi ?_
  rw [hlive]
  refine call_fenced (by rintro ⟨⟩) (by rintro _ ⟨⟩) fun s' reply hi hr hok => ?_
  have h' : Has t (Steady bound) s' := has_spared _ s s' hi hr h
  refine ⟨run_over (by nofun) h'.1, ?_⟩
  have hstop := hok.2.1
  rw [run_logs] at hstop ⊢
  have hserved : Steady bound ((serve t (.deploy op) reply s').2.logs t) := by
    simp only [serve]
    cases (reply : Reply).fate with
    | unsent e => exact h'.2
    | _ =>
      change Steady bound ((s'.record t (startedBy op reply)).logs t)
      rw [State.record_logs]
      exact startedBy_steady hbound h'.2
  exact raised_came hserved fun hcancelled => (hstop hcancelled rfl).resolve_left (by rintro ⟨⟩)

theorem ask_orderly {call : Deploy.ServiceCall} (hlive : liveCall polls (.service call) = perform (.deploy (.service call))) :
    Orderly t polls strict bound (Deploy.ask call) := orderly_op hlive rfl

theorem Orderly.ret (a : A) : Orderly t polls strict bound (.ret a : Deploy.Job A) := fun _ _ h => Runs.ret h

theorem Orderly.raise {e : Exn} (he : ordinary strict e = true) : Orderly t polls strict bound (.raise e : Deploy.Job A) :=
  fun _ _ h => Runs.raise ⟨h.1, h.2.left he⟩

theorem Orderly.bind {p : Deploy.Job B} {f : B → Deploy.Job A} (hp : Orderly t polls strict bound p)
    (hf : ∀ b, Orderly t polls strict bound (f b)) : Orderly t polls strict bound (p.bind f) :=
  fun s hi h => Runs.bind hi (hp s hi h) (fun b s hi h => hf b s hi h) fun _ _ _ h => h

theorem Orderly.attempt_bind {p : Deploy.Job B} {f : Except Exn B → Deploy.Job A} (hp : Orderly t polls strict bound p)
    (hok : ∀ b, Orderly t polls strict bound (f (.ok b))) (hcaught : ∀ e, ordinary strict e = true → Orderly t polls strict bound (f (.error e)))
    (hpass : ∀ e, ordinary strict e = false → f (.error e) = .raise e)
    (hbound : bound = none) : Orderly t polls strict bound (p.attempt.bind f) := by
  subst hbound
  intro s hi h
  refine Runs.bind (M := fun r s => ∃ r', r = .ok r' ∧ Has t (Came strict (fun _ => Steady none) r') s) hi
    (Runs.attempt hi ((hp s hi h).conseq hi fun r s _ h => ⟨r, rfl, h⟩)) ?_ ?_
  · rintro r s hi ⟨_, ⟨⟩, h⟩
    cases r with
    | ok b => exact hok b s hi h
    | error e =>
      cases he : ordinary strict e with
      | true => exact hcaught e he s hi ⟨h.1, ⟨h.2.2.2 he, h.2.1⟩, nofun⟩
      | false =>
        rw [hpass e he]
        exact Runs.raise h
  · rintro e s _ ⟨_, heq, _⟩
    cases heq

variable {p : Deploy.Job A}

theorem Orderly.handle {handler : Exn → Deploy.Job A} (hp : Orderly t polls strict none p)
    (hcaught : ∀ e, ordinary strict e = true → Orderly t polls strict none (handler e))
    (hpass : ∀ e, ordinary strict e = false → handler e = .raise e) : Orderly t polls strict none (p.handle handler) :=
  .attempt_bind hp .ret hcaught hpass rfl

theorem Orderly.lax (hp : Orderly t polls true bound p) : Orderly t polls false bound p := by
  refine fun s hi h => (hp s hi h).conseq hi fun r s _ h => ?_
  cases r with
  | ok a => exact h
  | error e =>
    refine ⟨h.1, h.2.1, h.2.2.1, fun hordinary => h.2.2.2 ?_⟩
    cases e <;> first | rfl | cases hordinary

theorem waitForWorkflow_orderly (owner : String) : Orderly t polls false none (Deploy.ask (.waitForWorkflow owner)) := by
  intro s hi h
  refine runs_call (.service (.waitForWorkflow owner)) hi (Safe.bind hi (waitForWorkflowCompletion_safe hi ⟨h.1, h.2.1⟩) (fun info s _ h => ?_) fun e s _ h => h)
  exact ⟨h.1, h.2, nofun⟩

theorem waitForRun_runs {runId : Nat} (owner : String) (hi : fenceRules.inv s) (h : Has t (Steady (some [runId])) s) :
    fenceRules.Runs (liveAttempt polls) t (fun r s => Has t (Came false (fun _ => Steady none) r) s)
      (Deploy.ask (.waitForRunCompletion owner runId)) s := by
  have hplain : ∀ {s} (call : GithubCall), fenceRules.inv s → Has t (Steady (some [runId])) s →
      fenceRules.Safe t (fun r s => Has t (Came false (fun _ => Steady (some [runId])) r) s) (askGithub call .plain) s := by
    intro s call hi h
    have hcall : fenceRules.Safe t (fun r s' => Has t (Passed (Op.github call .plain).guarded r (s.logs t)) s') (perform (.github call .plain)) s :=
      body_call (by nofun) (by nofun) rfl rfl h.1
    exact hcall.conseq hi fun r s' _ h' => ⟨h'.1, h'.2.came h.2⟩
  refine runs_call (.service (.waitForRunCompletion owner runId)) hi (Safe.bind hi (hplain _ hi h) (fun _ s hi h => ?_) fun e s _ h => h)
  refine Safe.bind (M := fun r s => Has t (Came false (fun _ => Calm) r) s) hi ?_ (fun info s _ h => ⟨h.1, h.2, nofun⟩) fun e s _ h => h
  refine Safe.bind hi (hplain _ hi h) (fun _ s hi h => ?_) fun e s _ h => h
  refine Safe.bind hi (utcnow_safe h) (fun start s hi h => ?_) fun e s _ h => ?_
  · exact pollRun_safe start false hi ⟨h.2.1, h.2.2.1.2, h.2.2.2 [runId] rfl, h.2.2.1.1⟩
  · obtain ⟨clock, hclock⟩ := h.1
    cases hclock

theorem latestRun_runs (owner : String) (hi : fenceRules.inv s) (h : Has t (Steady none) s) :
    fenceRules.Runs (liveAttempt polls) t (fun r s => Has t (Came false (fun found => Steady (found.map fun runId => [runId])) r) s)
      (Deploy.ask (.getLatestWorkflowRun owner)) s := by
  refine runs_call (.service (.getLatestWorkflowRun owner)) hi ?_
  refine call_fenced (by nofun) (by nofun) fun s' reply hi hr hok => ?_
  have h' : Has t (Steady none) s' := has_spared _ s s' hi hr h
  have hpassed := run_passed (by nofun) (by nofun) rfl rfl hok
  have hcame : Came false (fun _ => Steady none) (run t (.deploy (.service (.getLatestWorkflowRun owner))) reply s').1
      ((run t (.deploy (.service (.getLatestWorkflowRun owner))) reply s').2.logs t) := hpassed.came h'.2
  have howned : ∀ runId ∈ shown (.deploy (.service (.getLatestWorkflowRun owner))) reply, ∀ id ∈ liveRuns (s'.logs t), id = runId :=
    hok.2.2.2.1
  refine ⟨run_over (by nofun) h'.1, ?_⟩
  cases hres : (run t (.deploy (.service (.getLatestWorkflowRun owner))) reply s').1 with
  | error e =>
    rw [hres] at hcame
    exact hcame
  | ok found =>
    rw [hres] at hcame
    refine ⟨hcame.1, fun runs hruns id hid => ?_⟩
    obtain ⟨runId, hfound, rfl⟩ := Option.map_eq_some_iff.mp hruns
    have hanswer : (serve t (.deploy (.service (.getLatestWorkflowRun owner))) reply s').1 = .ok found := hres
    have hshown : shown (.deploy (.service (.getLatestWorkflowRun owner))) reply = some runId := by
      simp only [serve] at hanswer
      cases hfate : (reply : Reply).fate with
      | served =>
        rw [hfate] at hanswer
        exact (Except.ok.inj hanswer).trans hfound
      | unheard e =>
        rw [hfate] at hanswer
        cases hanswer
      | unsent e =>
        rw [hfate] at hanswer
        cases hanswer
    exact List.mem_singleton.mpr (howned runId hshown id (hpassed.live hid))

theorem claimDispatch_orderly (runId : String) : Orderly t polls strict bound (Deploy.claimDispatch runId) := by
  unfold Deploy.claimDispatch
  split
  · exact .ret none
  · refine .bind (orderly_op rfl rfl) fun claim => ?_
    split
    · exact .ret _
    · exact .raise rfl

theorem requireLiveLease_orderly (claim : Option Api.DeployDispatchClaim) : Orderly t polls strict bound (Deploy.requireLiveLease claim) := by
  cases claim with
  | none => exact .ret ()
  | some claim => exact .bind (orderly_op rfl rfl) fun _ => .ret ()

theorem crossBoundary_orderly {effect : Deploy.Job Unit} (runId : String) (h : Orderly t polls strict bound effect) :
    Orderly t polls strict bound (Deploy.crossBoundary runId effect) :=
  .bind (claimDispatch_orderly runId) fun claim => .bind (requireLiveLease_orderly claim) fun _ => h

theorem rerun_runs (owner runId : String) (hi : fenceRules.inv s) (h : Has t (Steady none) s) :
    fenceRules.Runs (liveAttempt polls) t (fun r s => Has t (Came false (fun _ => Steady none) r) s)
      (do
        match ← Deploy.ask (.getLatestWorkflowRun owner) with
        | none => return none
        | some workflowRunId =>
          Deploy.crossBoundary runId (Deploy.rerunFailedJobs owner workflowRunId runId)
          return some (← Deploy.ask (.waitForRunCompletion owner workflowRunId)) : Deploy.Job (Option Deploy.WorkflowRun)) s := by
  refine Runs.bind hi (latestRun_runs owner hi h) (fun found s hi h => ?_) fun e s _ h => h
  cases found with
  | none => exact Runs.ret h
  | some workflowRunId =>
    have hadmissible : Admissible (some [workflowRunId]) (.rerunFailedJobs owner workflowRunId runId) := by
      rintro reply runs ⟨⟩ event hmem id rfl
      cases List.mem_singleton.mp hmem
      exact List.mem_singleton_self _
    have hcross : Orderly t polls false (some [workflowRunId])
        (Deploy.crossBoundary runId (Deploy.rerunFailedJobs owner workflowRunId runId)) :=
      crossBoundary_orderly runId (start_orderly rfl hadmissible)
    refine Runs.bind hi (hcross s hi h) (fun _ s hi h => ?_) fun e s _ h => h
    exact Runs.bind hi (waitForRun_runs owner hi h) (fun info s _ h => Runs.ret h) fun e s _ h => h

theorem tryDeployRerun_orderly (owner runId : String) : Orderly t polls false none (Deploy.tryDeployRerun owner runId) := by
  refine .handle (fun s hi h => rerun_runs owner runId hi h) (fun e he => ?_) fun e he => ?_
  · split
    · exact .raise he
    · split
      · exact .raise he
      · exact .ret none
  · cases e <;> first | rfl | cases he

theorem dispatchAndRerun_orderly (owner runId : String) : Orderly t polls false none (Deploy.dispatchAndRerun owner runId) := by
  have htrigger : Orderly t polls false none (Deploy.triggerWorkflowDispatch owner runId) := start_orderly rfl fun _ _ hruns => nomatch hruns
  refine .bind (crossBoundary_orderly runId htrigger) fun _ => ?_
  refine .handle (.bind (waitForWorkflow_orderly owner) fun _ => .ret _) (fun e he => ?_) fun e he => ?_
  · split
    · refine .bind (tryDeployRerun_orderly owner runId) fun info => ?_
      split
      · exact .raise he
      · exact .ret _
    · exact .raise he
  · cases e <;> first | rfl | cases he

theorem dispatchPinned_orderly (owner headSha runId : String) : Orderly t polls false none (Deploy.dispatchPinned owner headSha runId) := by
  unfold Deploy.dispatchPinned
  split
  · exact .bind (ask_orderly rfl) fun _ => dispatchAndRerun_orderly owner runId
  · exact dispatchAndRerun_orderly owner runId

theorem Came.unacked (h : Came strict (fun _ => Steady bound) r log) : .acked ∉ log := by
  cases r with
  | ok a => exact h.1.2
  | error e => exact h.1

def Tidied (strict : Bool) (r : Except Exn A) (d : Except Exn B) (log : Log) : Prop :=
  (isCancelled d = false → Came strict (fun _ => Steady none) r log) ∧ .acked ∉ log ∧ (isCancelled d = true → liveRuns log = [])

theorem Passed.tidied {d : Except Exn B} {log log' : Log} (h : Passed false d log log')
    (hr : Came strict (fun _ => Steady none) r log) : Tidied strict r d log' := by
  have hacked : .acked ∉ log' := fun hmem => hr.unacked (h.acked hmem)
  refine ⟨fun hd => ?_, hacked, fun hd => (h.stopped hd).resolve_left nofun⟩
  cases r with
  | ok a => exact ⟨⟨(h.cut hd).trans hr.1.1, hacked⟩, nofun⟩
  | error e =>
    refine ⟨hacked, fun he => ?_, fun hordinary => (h.cut hd).trans (hr.2.2 hordinary)⟩
    exact List.subset_nil.mp (hr.2.1 he ▸ h.live)

theorem tidy_runs (op : Deploy.Op) (hlive : liveCall polls op = perform (.deploy op)) (hstart : (Op.deploy op).starts = false)
    (hi : fenceRules.inv s) (h : Has t (Came strict (fun _ => Steady none) r) s) :
    fenceRules.Runs (liveAttempt polls) t (fun d s => Has t (Tidied strict r d) s) (Prog.perform (I := Deploy.deployInterface) op) s := by
  refine runs_call op hi ?_
  rw [hlive]
  have hcall : fenceRules.Safe t (fun d s' => Has t (Passed (Op.deploy op).guarded d (s.logs t)) s') (perform (.deploy op)) s :=
    body_call (by nofun) (by nofun) hstart rfl h.1
  exact hcall.conseq hi fun d s' _ h' => ⟨h'.1, h'.2.tidied h.2⟩

theorem removePinTag_runs (owner headSha : String) (hi : fenceRules.inv s)
    (h : Has t (Came false (fun _ => Steady none) r) s) :
    fenceRules.Runs (liveAttempt polls) t (fun (d : Except Exn (Option Exn)) s => Has t (Tidied false r d) s ∧
      ∀ e, d = .error e → e = .cancelledError) (Deploy.removePinTag owner headSha) s := by
  have hret : ∀ {s} (kept : Option Exn), Has t (Came false (fun _ => Steady none) r) s →
      Has t (Tidied false r (.ok kept : Except Exn (Option Exn))) s ∧ ∀ e, (.ok kept : Except Exn (Option Exn)) = .error e → e = .cancelledError :=
    fun kept h => ⟨⟨h.1, fun _ => h.2, h.2.unacked, nofun⟩, nofun⟩
  unfold Deploy.removePinTag
  split
  · exact Runs.ret (hret none h)
  · have hdelete : fenceRules.Runs (liveAttempt polls) t (fun d s => Has t (Tidied false r d) s) (Deploy.ask (.deleteTag owner headSha)) s :=
      tidy_runs (.service (.deleteTag owner headSha)) rfl rfl hi h
    refine Runs.handle (M := fun d s => Has t (Tidied false r d) s) hi ?_ (fun _ _ _ h => ⟨h, nofun⟩) fun e s hi h => ?_
    · exact Runs.bind hi hdelete (fun _ s _ h => Runs.ret ⟨h.1, fun _ => h.2.1 rfl, h.2.2.1, nofun⟩) fun e s _ h => by
        cases e <;> exact h
    · split
      · next hcaught => exact Runs.ret (hret _ ⟨h.1, h.2.1 (by cases e <;> first | rfl | cases hcaught)⟩)
      · next hpassed =>
        refine Runs.raise ⟨h, fun e' he => ?_⟩
        cases he
        simpa [Exn.isException] using hpassed

theorem dispatchAndWait_orderly (owner headSha runId : String) : Orderly t polls false none (Deploy.dispatchAndWait owner headSha runId) := by
  intro s hi h
  refine Runs.bind (M := fun r s => ∃ r', r = .ok r' ∧ Has t (Came false (fun _ => Steady none) r') s) hi
    (Runs.attempt hi ((dispatchPinned_orderly owner headSha runId s hi h).conseq hi fun r s _ h => ⟨r, rfl, h⟩)) ?_ ?_
  · rintro r s hi ⟨_, ⟨⟩, h⟩
    refine Runs.bind hi (removePinTag_runs owner headSha hi h) (fun kept s hi hkept => ?_) fun e s _ h => ?_
    · obtain ⟨⟨hover, htidied⟩, _⟩ := hkept
      have hcame := htidied.1 rfl
      refine Runs.bind (M := fun d s => Has t (Came false (fun _ => Steady none) d) s) hi (Runs.ofExcept ⟨hover, hcame⟩)
        (fun result s hi h => ?_) fun e s _ h => h
      cases kept with
      | some e => exact Runs.raise ⟨h.1, h.2.left rfl⟩
      | none =>
        have hverify : Orderly t polls false none (do
            Deploy.liftExcept (Deploy.verifyDeployedSha result.1 headSha)
            return result : Deploy.Job (Deploy.WorkflowRun × Bool)) := by
          refine .bind ?_ fun _ => .ret result
          unfold Deploy.verifyDeployedSha
          split
          · exact .ret ()
          · dsimp only
            split
            · exact .ret ()
            · exact .raise rfl
        exact hverify s hi h
    · have he := h.2 e rfl
      subst he
      exact ⟨h.1.1, h.1.2.2.1, fun _ => h.1.2.2.2 rfl, nofun⟩
  · rintro e s _ ⟨_, heq, _⟩
    cases heq

theorem dispatchOrStop_orderly (input : Deploy.SubgraphInput) : Orderly t polls false none (Deploy.dispatchOrStop input) := by
  refine .handle (.bind (dispatchAndWait_orderly _ _ _) fun _ => .ret _) (fun e he => ?_) fun e he => ?_
  · split
    · exact .ret _
    · exact .ret _
    · exact .raise he
  · cases e <;> first | rfl | cases he

theorem getRun_orderly (runId : String) : Orderly t polls strict bound (Deploy.getRun runId) := by
  refine .bind (orderly_op rfl rfl) fun run => ?_
  split
  · exact .raise rfl
  · unfold Deploy.runDTO
    split
    · split
      · exact .raise rfl
      · split
        · exact .raise rfl
        · exact .ret _
    · exact .raise rfl

theorem runCancelled_orderly (runId : String) : Orderly t polls strict bound (Deploy.runCancelled runId) := by
  unfold Deploy.runCancelled
  split
  · exact .ret false
  · refine .bind (orderly_op rfl rfl) fun run => ?_
    split
    · exact .raise rfl
    · exact .ret _

theorem caught_orderly {f : Exn → A} (hp : Orderly t polls true none p) :
    Orderly t polls true none (Prog.handle p fun e => if e.isException then .ret (f e) else .raise e) := by
  refine .handle hp (fun e he => ?_) fun e he => ?_
  · split
    · exact .ret _
    · exact .raise he
  · cases e <;> first | rfl | cases he

theorem fenceOrRefuse_orderly (input : Deploy.SubgraphInput) : Orderly t polls true none (Deploy.fenceOrRefuse input) := by
  have hfence : Orderly t polls true none (Deploy.fenceActiveDeploys input.gitUrl) := by
    refine .handle (.bind (ask_orderly rfl) fun _ => .ret ()) (fun e he => ?_) fun e he => ?_
    · split
      · exact .raise rfl
      · exact .raise he
    · cases e <;> first | rfl | cases he
  unfold Deploy.fenceOrRefuse
  split
  · refine .handle (.bind hfence fun _ => .ret none) (fun e he => ?_) fun e he => ?_
    · split
      · exact .ret _
      · exact .raise he
    · cases e <;> first | rfl | cases he
  · exact .ret none

theorem dispatchAndRecord_orderly (input : Deploy.SubgraphInput) (serverIp : String) (port : Nat) :
    Orderly t polls false none (Deploy.dispatchAndRecord input serverIp port) := by
  refine .bind (dispatchOrStop_orderly input) fun dispatched => ?_
  cases dispatched with
  | error update => exact .ret update
  | ok info =>
    have hrecord : Orderly t polls true none (Deploy.createDeploymentRecord input.projectId info.headSha) :=
      caught_orderly (f := fun _ => none) (ask_orderly rfl)
    exact .bind hrecord.lax fun _ => .ret _

theorem deployTo_orderly (input : Deploy.SubgraphInput) (serverIp : String) (port : Nat) (serverHandle : Option String) :
    Orderly t polls false none (Deploy.deployTo input serverIp port serverHandle) := by
  have hkey : Orderly t polls false none (Deploy.sshKeyOf serverHandle) := by
    cases serverHandle with
    | none => exact .ret none
    | some handle => exact .bind (ask_orderly rfl) fun _ => ask_orderly rfl
  have hsecrets : Orderly t polls true none (Deploy.writeDeploySecrets input.gitUrl) :=
    caught_orderly (f := fun _ => false) (ask_orderly rfl)
  refine .bind (runCancelled_orderly _) fun cancelled => ?_
  split
  · exact .ret _
  · refine .bind hkey fun key => ?_
    cases key with
    | none => exact .ret _
    | some _ =>
      refine .bind hsecrets.lax fun _ => .bind (fenceOrRefuse_orderly input).lax fun refused => ?_
      cases refused with
      | some message => exact .ret _
      | none =>
        refine .bind (runCancelled_orderly _) fun cancelled => ?_
        split
        · exact .ret _
        · exact dispatchAndRecord_orderly input serverIp port

theorem deployerRun_orderly (input : Deploy.SubgraphInput) : Orderly t polls false none (Deploy.deployerRun input) := by
  unfold Deploy.deployerRun
  split
  · exact .ret _
  · split
    · exact .ret _
    · dsimp only
      split
      · refine .handle (deployTo_orderly _ _ _ _) (fun e he => ?_) fun e he => ?_
        · split
          · exact .raise he
          · exact .ret _
          · exact .raise he
          · exact .ret _
          · split
            · exact .ret _
            · exact .ret _
        · cases e <;> first | rfl | cases he
      · exact .ret _

theorem devopsSubgraph_orderly (input : Deploy.SubgraphInput) : Orderly t polls false none (Deploy.devopsSubgraph input) := by
  have hsmoke : ∀ slot, Orderly t polls false none (Deploy.deployAndSmoke input slot) := by
    intro slot
    refine .bind (deployerRun_orderly input) fun update => ?_
    dsimp only
    split
    · split
      · exact .bind (ask_orderly rfl) fun _ => .ret _
      · exact .ret _
    · exact .ret _
  have hresolve : Orderly t polls false none (Deploy.resolveAndDeploy input) := by
    refine .bind (ask_orderly rfl) fun contract => ?_
    split
    · exact .ret _
    · refine .bind (ask_orderly rfl) fun secrets => ?_
      split
      · exact .ret _
      · exact hsmoke _
  unfold Deploy.devopsSubgraph
  split
  · exact .bind (ask_orderly rfl) fun _ => hresolve
  · exact hresolve

variable {msg : DeployMessage}

theorem patchRun_orderly (runId : String) (update : Api.RunUpdate Contracts.DeployRunResult) :
    Orderly t polls strict bound (Deploy.patchRun runId update) := orderly_op rfl rfl

theorem publishCallbackEvent_orderly (event text : String) : Orderly t polls strict bound (Deploy.publishCallbackEvent msg event text) := by
  unfold Deploy.publishCallbackEvent
  split
  · exact .ret ()
  · exact .bind (ask_orderly rfl) fun _ => .ret ()

theorem handleDeployFailure_orderly (error : String) (outcome : DeployOutcome) (missing : List MissingUserSecret) :
    Orderly t polls strict bound (Deploy.handleDeployFailure msg error outcome missing) :=
  .bind (patchRun_orderly _ _) fun _ => .bind (publishCallbackEvent_orderly _ _) fun _ => .ret _

theorem giveUp_orderly (error : String) : Orderly t polls strict bound (Deploy.giveUp msg error) :=
  .bind (patchRun_orderly _ _) fun _ => .ret _

theorem alreadyDeployed_orderly (headSha : String) (overrides : List (String × String)) (applicationIds : List Nat) :
    Orderly t polls strict bound (Deploy.alreadyDeployedApplication headSha overrides applicationIds) := by
  induction applicationIds with
  | nil => exact .ret none
  | cons applicationId rest ih =>
    refine .bind (ask_orderly rfl) fun deployment => ?_
    split
    · exact ih
    · split
      · refine .bind (ask_orderly rfl) fun application => ?_
        split
        · exact .ret _
        · exact ih
      · exact ih

theorem precheckWithFallback_orderly (allocated : List Deploy.Allocation) (project : Deploy.Project) (action : DeployAction) :
    Orderly t polls true none (Deploy.precheckWithFallback allocated project action) := by
  have hcheck : ∀ action, Orderly t polls true none (Deploy.runDeployPrecheck allocated project action) := by
    intro action
    unfold Deploy.runDeployPrecheck
    split
    · refine .bind (ask_orderly rfl) fun _ => .bind (ask_orderly rfl) fun key => ?_
      split
      · exact .ret none
      · exact caught_orderly (.bind (ask_orderly rfl) fun _ => .ret _)
    · exact .ret none
  refine .bind (hcheck action) fun error => ?_
  split
  · exact .ret none
  · split
    · exact hcheck _
    · exact .ret _

theorem handleLifecycleAction_orderly (project : Deploy.Project) : Orderly t polls true none (Deploy.handleLifecycleAction msg project) := by
  have hcommand : ∀ handle, Orderly t polls true none (Deploy.runLifecycleCommand handle project.slug msg.action) := fun handle =>
    caught_orderly (.bind (ask_orderly rfl) fun _ => .ret _)
  have haction : ∀ handle, Orderly t polls true none (Deploy.processLifecycleAction msg project handle) := by
    intro handle
    refine .bind (ask_orderly rfl) fun _ => .bind (ask_orderly rfl) fun key => ?_
    split
    · exact .ret _
    · exact hcommand handle
  unfold Deploy.handleLifecycleAction
  split
  · exact .raise rfl
  · refine .bind (ask_orderly rfl) fun application => .bind (haction _) fun error => ?_
    split
    · exact .bind (patchRun_orderly _ _) fun _ => .ret _
    · exact .bind (patchRun_orderly _ _) fun _ => .bind (ask_orderly rfl) fun _ => .ret _

theorem routeSubgraphResult_orderly (result : Deploy.SubgraphResult) : Orderly t polls strict bound (Deploy.routeSubgraphResult msg result) := by
  unfold Deploy.routeSubgraphResult
  split
  · exact .bind (patchRun_orderly _ _) fun _ => .ret _
  · split
    · exact .bind (patchRun_orderly _ _) fun _ => .bind (publishCallbackEvent_orderly _ _) fun _ => .ret _
    · refine .bind (patchRun_orderly _ _) fun _ => ?_
      split
      · exact .bind (publishCallbackEvent_orderly _ _) fun _ => .ret _
      · exact .ret _
    · split
      · unfold Deploy.handleMissingSecrets
        split
        · exact .raise rfl
        · exact handleDeployFailure_orderly _ _ _
      · exact handleDeployFailure_orderly _ _ _

theorem deployAllocated_orderly (project : Deploy.Project) (allocated : List Deploy.Allocation) (overrides : List (String × String)) :
    Orderly t polls false none (Deploy.deployAllocated msg project allocated overrides) := by
  have hredundant : Orderly t polls false none (Deploy.redundantWith msg project allocated overrides) := by
    unfold Deploy.redundantWith
    split
    · exact alreadyDeployed_orderly _ _ _
    · exact .ret none
  refine .bind hredundant fun applicationId => ?_
  split
  · exact .bind (patchRun_orderly _ _) fun _ => .bind (publishCallbackEvent_orderly _ _) fun _ => .ret _
  · refine .bind (precheckWithFallback_orderly _ _ _).lax fun error => ?_
    split
    · exact handleDeployFailure_orderly _ _ _
    · exact .bind (ask_orderly rfl) fun _ => .bind (devopsSubgraph_orderly _) fun result => routeSubgraphResult_orderly result

theorem deployCommit_orderly (project : Deploy.Project) : Orderly t polls false none (Deploy.deployCommit msg project) := by
  have hallocate : Orderly t polls false none (Deploy.allocateResources msg.projectId project) := by
    refine .bind (ask_orderly rfl) fun repository => ?_
    split
    · exact .ret _
    · exact .bind (ask_orderly rfl) fun _ => .ret _
  refine .attempt_bind hallocate (fun allocated => ?_) (fun e he => ?_) (fun e he => ?_) rfl
  · cases allocated with
    | error error => exact giveUp_orderly _
    | ok allocated =>
      dsimp only
      split
      · exact handleDeployFailure_orderly _ _ _
      · exact deployAllocated_orderly _ _ _
  · cases e with
    | allocationError error => exact .bind (patchRun_orderly _ _) fun _ => .ret _
    | _ => exact .raise he
  · cases e <;> first | rfl | cases he

theorem lockAndDeploy_orderly : Orderly t polls false none (Deploy.lockAndDeploy msg) := by
  have hdeploy : Orderly t polls false none (Deploy.deployProject msg) := by
    refine .bind (publishCallbackEvent_orderly _ _) fun _ => ?_
    split
    · exact handleDeployFailure_orderly _ _ _
    · refine .bind (ask_orderly rfl) fun project => ?_
      split
      · exact giveUp_orderly _
      · split
        · exact (handleLifecycleAction_orderly _).lax
        · exact deployCommit_orderly _
  refine .bind (ask_orderly rfl) fun _ => .bind (orderly_op rfl rfl) fun acquired => ?_
  split
  · refine .bind (orderly_op rfl rfl) fun start => ?_
    split
    · exact hdeploy
    · exact .ret _
  · exact .bind (patchRun_orderly _ _) fun _ => .ret _

theorem onDeployException_orderly {e : Exn} (he : ordinary false e = true) : Orderly t polls false none (Deploy.onDeployException msg e) := by
  have hfailed : ∀ fenced : Bool, Orderly t polls false none
      (if fenced then .raise e else Deploy.handleDeployFailure msg e.message .retry [] : Deploy.Job Deploy.Result) := by
    intro fenced
    split
    · exact .raise he
    · exact handleDeployFailure_orderly _ _ _
  unfold Deploy.onDeployException
  split
  · cases he
  · cases he
  · split
    · exact hfailed false
    · exact .bind (ask_orderly rfl) hfailed

def Fell (r : Except Exn A) (log : Log) : Prop := match r with
  | .ok _ => Calm log
  | .error e => .acked ∉ log ∧ (e = .cancelledError → liveRuns log = [])

theorem Came.fell (h : Came strict (fun _ => Steady bound) r log) : Fell r log := by
  cases r with
  | ok a => exact h.1
  | error e => exact ⟨h.1, h.2.1⟩

theorem processDeployJob_runs (hi : fenceRules.inv s) (h : Has t (Steady none) s) :
    fenceRules.Runs (liveAttempt polls) t (fun r s => Has t (Fell r) s) (Deploy.processDeployJob msg) s := by
  have hrun : Orderly t polls false none (Deploy.getRun msg.taskId) := getRun_orderly msg.taskId
  refine Runs.bind hi (hrun s hi h) (fun run s hi h => ?_) fun e s _ h => ⟨h.1, h.2.fell⟩
  split
  · exact Runs.ret ⟨h.1, h.2.1⟩
  · have hbody : Orderly t polls false none (Prog.handle (Deploy.lockAndDeploy msg) (Deploy.onDeployException msg)) :=
      .handle lockAndDeploy_orderly (fun e he => onDeployException_orderly he) fun e he => by cases e <;> first | rfl | cases he
    refine Runs.ensuring hi (hbody s hi h) fun r s hi h => ?_
    have hrelease : fenceRules.Runs (liveAttempt polls) t (fun d s => Has t (Tidied false r d) s) (Deploy.releaseLock msg.projectId) s :=
      tidy_runs (.deleteLock msg.projectId) rfl rfl hi h
    refine hrelease.conseq hi fun d s _ h => ?_
    cases d with
    | ok _ => exact ⟨h.1, (h.2.1 rfl).fell⟩
    | error e => exact ⟨h.1, h.2.2.1, fun he => h.2.2.2 (by rw [he]; rfl)⟩

theorem deployJob_safe (hi : fenceRules.inv s) (h : Has t (Steady none) s) :
    fenceRules.Safe t (fun r s => Has t (Fell r) s) (deployJob polls msg) s := by
  refine Safe.bind hi (processDeployJob_runs hi h) ?_ ?_
  · rintro outcome s hi ⟨r, ⟨⟩, h⟩
    have hraised : fenceRules.Safe t (fun r s => Has t (Fell r) s) (Prog.ofExcept outcome) s := Safe.ofExcept h
    exact Safe.bind hi hraised (fun result s _ h => ⟨h.1, h.2⟩) fun e s _ h => h
  · rintro e s _ ⟨r, heq, _⟩
    cases heq

end Parts

section Executions

variable {t : Party} {s s' : State} {project : String} {op : Op} {reply : Reply} {e : Exn}

def Kept (t : Party) (s : State) : Prop := s.ceased t = false ∧ .acked ∉ s.logs t ∧ t ∈ s.marked ∧ s.fenceSet t = true

def Sealed (t : Party) (s : State) : Prop := Has t Quit s ∨ Kept t s

theorem kept_spared (howner : t.owner = t) : fenceRules.Stable t (Kept t) := by
  intro s s' _ hr h
  refine ⟨hr.ceased.trans h.1, by rw [hr.logs]; exact h.2.1, hr.marked.mpr h.2.2.1, hr.fence h.1 howner h.2.2.1 h.2.2.2⟩

theorem quit_append {events log : Log} (hmild : ∀ event ∈ events, event.mild = true) (h : Quit log) : Quit (events ++ log) := by
  intro hcut
  rw [mild_cutOff hmild] at hcut
  exact List.subset_nil.mp (h hcut ▸ mild_live hmild)

theorem run_quit (hop : op ≠ .outside) (hstart : op.starts = false) (hguarded : op.guarded = false) (hok : stops s (.call t op reply))
    (h : Quit (s.logs t)) : Quit ((run t op reply s).2.logs t) := by
  have hserved : ∃ events, (serve t op reply s).2.logs t = events ++ s.logs t ∧
      ((∀ event ∈ events, event.mild = true) ∨ events = [.acked]) := by
    by_cases hack : ∀ site, op ≠ .ack site
    · obtain ⟨events, hlogs, hmild⟩ : ∃ events, (serve t op reply s).2.logs t = events ++ s.logs t ∧ ∀ event ∈ events, event.mild = true :=
        serve_events hop hack hstart
      exact ⟨events, hlogs, .inl hmild⟩
    · simp only [not_forall, not_not] at hack
      obtain ⟨site, rfl⟩ := hack
      simp only [serve]
      cases reply.fate with
      | unsent e => exact ⟨[], rfl, .inl (by rintro _ ⟨⟩)⟩
      | _ => exact ⟨[.acked], State.record_logs .., .inr rfl⟩
  obtain ⟨events, hlogs, hevents⟩ := hserved
  have hquit : Quit ((serve t op reply s).2.logs t) := by
    rw [hlogs]
    rcases hevents with hmild | rfl
    · exact quit_append hmild h
    · exact h
  intro hcut
  by_cases hcancelled : isCancelled (run t op reply s).1 = true ∧ op.inBody = true
  · exact (hok.2.1 hcancelled.1 hcancelled.2).resolve_left (by rw [hguarded]; rintro ⟨⟩)
  · rw [run_logs, raisedBy_live]
    refine hquit ?_
    rw [run_logs] at hcut
    have hsame : cutOff (raisedBy op (s.requested t) (serve t op reply s).1 ++ (serve t op reply s).2.logs t) =
        cutOff ((serve t op reply s).2.logs t) := by
      cases hbody : op.inBody with
      | false =>
        rw [raisedBy_quiet hbody]
        rfl
      | true =>
        refine raisedBy_cut _ _ ?_ _
        rw [Bool.eq_false_iff]
        exact fun hresult => hcancelled ⟨hresult, hbody⟩
    rwa [hsame] at hcut

theorem run_clean_quit (hop : op ≠ .outside) (h : Quit (s.logs t)) {project : Option String} (hclean : Clean (owed project) (s.logs t)) :
    Clean (owed project) ((run t op reply s).2.logs t) := by
  by_cases hack : ∀ site, op ≠ .ack site
  · exact run_fenceClean hop hack hclean
  · simp only [not_forall, not_not] at hack
    obtain ⟨site, rfl⟩ := hack
    rw [run_logs]
    refine Clean.append ?_ fun event hmem log => owed_free (raisedBy_free _ _ _ event hmem) log
    simp only [serve]
    cases reply.fate with
    | unsent e => exact hclean
    | _ =>
      change Clean (owed project) ((s.record t [.acked]).logs t)
      rw [State.record_logs]
      exact ⟨fun _ => h, hclean⟩

theorem quit_call (hop : op ≠ .outside) (hstart : op.starts = false) (hguarded : op.guarded = false) :
    fenceRules.Maintains t (Has t Quit) (perform op) :=
  .perform (has_spared Quit) fun _ hi h _ hok =>
    ⟨⟨frame_fenceInv (run_frame hop) hi (run_clean_quit hop h.2 (hi t)), fun _ hu => (run_frame hop).spares hu⟩,
      run_over hop h.1, run_quit hop hstart hguarded hok h.2⟩

theorem catching_quit {A : Type} {P : State → Prop} {p : Job A} {handler : Exn → Job A} (hp : fenceRules.Maintains t P p)
    (hh : ∀ e, fenceRules.Maintains t P (handler e)) : fenceRules.Maintains t P (catching p handler) := by
  refine .handle hp fun e => ?_
  split
  · exact hh e
  · exact .raise e

theorem settle_quit (result : JobResult) : fenceRules.Maintains t (Has t Quit) (settle project result) := by
  refine .bind (quit_call nofun rfl rfl) fun cancelled => ?_
  split
  · exact .bind (quit_call nofun rfl rfl) fun _ => .ret _
  · exact .bind (quit_call nofun rfl rfl) fun _ => .ret _

theorem onRaised_quit (e : Exn) : fenceRules.Maintains t (Has t Quit) (onRaised project e) := by
  have hmark : fenceRules.Maintains t (Has t Quit) (markIfCancelled project) := by
    refine .bind (quit_call nofun rfl rfl) fun seen => ?_
    split
    · exact quit_call nofun rfl rfl
    · exact .ret ()
  have hexception : fenceRules.Maintains t (Has t Quit) (onException project e) := by
    refine .bind hmark fun _ => ?_
    exact .raise e
  cases e with
  | cancelledError =>
    refine .bind (.bind (quit_call nofun rfl rfl) fun seen => ?_) fun torn => ?_
    · split
      · exact .ret true
      · exact quit_call nofun rfl rfl
    · split
      · refine .bind (catching_quit (quit_call nofun rfl rfl) fun e => .bind (quit_call nofun rfl rfl) fun _ => ?_) fun _ => .ret _
        exact .raise e
      · exact .raise _
  | workflowCancellationUnproven message => exact .bind (quit_call nofun rfl rfl) fun _ => .raise _
  | _ => exact hexception

theorem Frame.kept (h : Frame t s s') (hlogs : .acked ∉ s'.logs t) (hs : Kept t s) : Kept t s' :=
  ⟨(congrFun h.ceased t).trans hs.1, hlogs, h.marks hs.2.2.1, fenceSet_mono h.failureKeys hs.2.2.2⟩

theorem mark_sealed (hproject : t.project = some project) (reason : String) (hover : s.ceased t = false)
    (hacked : .acked ∉ s.logs t) : fenceRules.Safe t (fun _ => Sealed t) (markLiveWorkFailure project reason .handler) s := by
  refine call_fenced (by nofun) (by nofun) fun s' reply _ hr hok => ?_
  have hover' : s'.ceased t = false := hr.ceased.trans hover
  have hlogs : (run t (.setFailure project reason .handler) reply s').2.logs t = s'.logs t := by
    rw [run_quiet rfl]
    simp only [serve]
    cases (reply : Reply).fate <;> rfl
  rcases serve_setFailure (t := t) (s := s') reply project reason .handler with hserve | ⟨e, hres, _⟩
  · refine .inr ((run_after (.setFailure project reason .handler) reply).kept ?_ ?_)
    · rw [hlogs, hr.logs]
      exact hacked
    · rw [hserve]
      refine ⟨hover', ?_, List.mem_cons_self, by simp [State.fenceSet, State.setFailure, hproject]⟩
      change .acked ∉ s'.logs t
      rw [hr.logs]
      exact hacked
  · have hmissed : (Op.setFailure project reason .handler).missed (run t (.setFailure project reason .handler) reply s').1 = true := by
      have hrun : (run t (.setFailure project reason .handler) reply s').1 = .error e := hres
      rw [hrun]
      rfl
    refine .inl ⟨run_over (by nofun) hover', ?_⟩
    rw [hlogs]
    exact hok.2.2.1 hmissed

def Looked (t : Party) : Except Exn Bool → State → Prop
  | .ok true, s => s.ceased t = false ∧ .acked ∉ s.logs t
  | _, s => Sealed t s

theorem markIfCancelled_sealed (hproject : t.project = some project) (hi : fenceRules.inv s) (hover : s.ceased t = false)
    (hacked : .acked ∉ s.logs t) : fenceRules.Safe t (fun _ => Sealed t) (markIfCancelled project) s := by
  have hlook : fenceRules.Safe t (Looked t) (keyExists (.cancelled project) .handler) s := by
    refine call_fenced (by rintro ⟨⟩) (by rintro _ ⟨⟩) fun s' reply _ hr hok => ?_
    have hover' : (run t (.keyExists (.cancelled project) .handler) reply s').2.ceased t = false := run_over (by rintro ⟨⟩) (hr.ceased.trans hover)
    have hlogs : (run t (.keyExists (.cancelled project) .handler) reply s').2.logs t = s'.logs t := look_logs reply _
    have hmissing : (Op.keyExists (.cancelled project) .handler).missed (run t (.keyExists (.cancelled project) .handler) reply s').1 = true →
        Sealed t (run t (.keyExists (.cancelled project) .handler) reply s').2 := by
      refine fun hmissed => .inl ⟨hover', ?_⟩
      rw [hlogs]
      exact hok.2.2.1 hmissed
    cases hres : (run t (.keyExists (.cancelled project) .handler) reply s').1 with
    | error e =>
      rw [hres] at hmissing
      exact hmissing rfl
    | ok seen =>
      rw [hres] at hmissing
      cases seen with
      | false => exact hmissing rfl
      | true => exact ⟨hover', by rw [hlogs, hr.logs]; exact hacked⟩
  refine Safe.bind hi hlook (fun seen s hi h => ?_) fun _ _ _ h => h
  cases seen with
  | true => exact mark_sealed hproject _ h.1 h.2
  | false => exact h

theorem onRaised_sealed (hproject : t.project = some project) (hi : fenceRules.inv s) (h : Has t (Fell (.error e : Except Exn JobResult)) s) :
    fenceRules.Safe t (fun _ => Sealed t) (onRaised project e) s := by
  have hexception : ∀ e, fenceRules.Safe t (fun _ => Sealed t) (onException project e) s := fun e =>
    Safe.bind hi (markIfCancelled_sealed hproject hi h.1 h.2.1) (fun _ _ _ h => h) fun _ _ _ h => h
  cases e with
  | cancelledError => exact (onRaised_quit .cancelledError s hi ⟨h.1, fun _ => h.2.2 rfl⟩).conseq hi fun _ _ _ h => .inl h
  | workflowCancellationUnproven message =>
    exact Safe.bind hi (mark_sealed hproject _ h.1 h.2.1) (fun _ _ _ h => h) fun _ _ _ h => h
  | _ => exact hexception _

theorem Calm.quit {log : Log} (h : Calm log) : Quit log := fun hcut => by
  rw [h.1] at hcut
  cases hcut

def Settling (t : Party) {A : Type} : Except Exn A → State → Prop
  | .ok _, s => Sealed t s
  | .error e, s => Has t (Fell (.error e : Except Exn JobResult)) s ∨ Has t Quit s

variable {msg : DeployMessage}

theorem supervised_sealed {polls : Nat} (hproject : t.project = some project) (hi : fenceRules.inv s)
    (h : Has t (Steady none) s) : fenceRules.Safe t (fun _ => Sealed t) (supervised project (deployJob polls msg)) s := by
  refine Safe.bind (M := fun _ => Sealed t) hi ?_ (fun settlement s _ h => ?_) fun _ _ _ h => h
  · refine Safe.handle (M := Settling t) hi ?_ (fun _ _ _ h => h) fun e s hi h => ?_
    · refine Safe.bind hi (deployJob_safe hi h) (fun result s hi h => ?_) fun e s _ h => .inl h
      refine (settle_quit result s hi ⟨h.1, Calm.quit h.2⟩).conseq hi fun r s _ h => ?_
      cases r with
      | ok _ => exact .inl h
      | error e => exact .inr h
    · rcases h with hfell | hquit
      · exact onRaised_sealed hproject hi hfell
      · exact (onRaised_quit e s hi hquit).conseq hi fun _ _ _ h => .inl h
  · cases settlement <;> exact h

theorem sealed_call (howner : t.owner = t) (hop : op ≠ .outside) (hack : ∀ site, op ≠ .ack site) (hstart : op.starts = false)
    (hbody : op.inBody = false) (hguarded : op.guarded = false) : fenceRules.Maintains t (Sealed t) (perform op) := by
  intro s hi h
  rcases h with hquit | hkept
  · exact (quit_call hop hstart hguarded s hi hquit).conseq hi fun _ _ _ h => .inl h
  · refine call_fenced hop hack fun s' reply hi hr _ => .inr ?_
    have hkept' : Kept t s' := kept_spared howner s s' hi hr hkept
    obtain ⟨events, hlogs, hmild⟩ : ∃ events, (serve t op reply s').2.logs t = events ++ s'.logs t ∧ ∀ event ∈ events, event.mild = true :=
      serve_events hop hack hstart
    refine (run_frame hop).kept ?_ hkept'
    rw [run_quiet hbody, hlogs]
    exact fun hmem => hkept'.2.1 (mild_acked hmild hmem)

theorem finish_sealed (howner : t.owner = t) : fenceRules.Maintains t (Sealed t) (finish project) := by
  refine .bind (.handle (sealed_call howner nofun nofun rfl rfl rfl) fun e => ?_) fun _ => sealed_call howner nofun nofun rfl rfl rfl
  split
  · exact .ret ()
  · exact .raise e

theorem runLeased_sealed {polls : Nat} (howner : t.owner = t) (hproject : t.project = some project)
    (hi : fenceRules.inv s) (h : Has t (Steady none) s) :
    fenceRules.Safe t (fun _ => Sealed t) (runLeased project (deployJob polls msg)) s := by
  have hwatch : fenceRules.Safe t (fun r s => r = .ok () ∧ Has t (Steady none) s) (perform .createWatch) s :=
    call_fenced (by nofun) (by nofun) fun s' reply hi hr _ => by
      have h' : Has t (Steady none) s' := has_spared _ s s' hi hr h
      refine ⟨rfl, run_over (by nofun) h'.1, ?_⟩
      rw [run_quiet rfl]
      exact h'.2
  refine Safe.bind hi hwatch (fun _ s hi h => ?_) fun e s _ h => nomatch h.1
  refine Safe.ensuring hi (supervised_sealed hproject hi h.2) fun r s hi h => ?_
  refine (finish_sealed howner s hi h).conseq hi fun d s _ h => ?_
  cases d <;> exact h

def Due (t : Party) (s : State) : Prop := s.ceased t = false ∧ Ending t.project (s.fenceSet t) (s.logs t)

theorem Sealed.due (h : Sealed t s) : Due t s := by
  rcases h with hquit | hkept
  · exact ⟨hquit.1, fun _ => .inl hquit.2⟩
  · exact ⟨hkept.1, fun _ => .inr ⟨hkept.2.2.2, hkept.2.1⟩⟩

theorem begin_steady (h : Has t (Steady none) s) : fenceRules.Safe t (fun _ => Has t (Steady none)) (beginLiveWork project) s := by
  refine call_fenced (by nofun) (by nofun) fun s' reply hi hr _ => ?_
  have h' : Has t (Steady none) s' := has_spared _ s s' hi hr h
  obtain ⟨events, hlogs, hmild⟩ : ∃ events, (serve t (.beginLiveWork project) reply s').2.logs t = events ++ s'.logs t ∧
      ∀ event ∈ events, event.mild = true := serve_events (by nofun) (by nofun) rfl
  refine ⟨run_over (by nofun) h'.1, ?_⟩
  rw [run_quiet rfl, hlogs]
  exact ⟨⟨(mild_cutOff hmild).trans h'.2.1.1, fun hmem => h'.2.1.2 (mild_acked hmild hmem)⟩, nofun⟩

theorem steady_quit (h : Has t (Steady none) s) : Has t Quit s := ⟨h.1, Calm.quit h.2.1⟩

theorem executeLiveWork_due {polls : Nat} {execution : Nat} {project : Option String} (hi : fenceRules.inv s)
    (ht : t = .job execution project) (h : Has t (Steady none) s) :
    fenceRules.Safe t (fun _ => Due t) (executeLiveWork project (deployJob polls msg)) s := by
  cases project with
  | none =>
    have hproject : t.project = none := by rw [ht]; rfl
    have hdue : ∀ {s : State}, s.ceased t = false → Due t s := fun hover => ⟨hover, by rw [hproject]; exact nofun⟩
    refine Safe.bind hi (deployJob_safe hi h) (fun result s hi h => ?_) fun e s _ h => hdue h.1
    have hack : fenceRules.Maintains t (Has t Quit) (ack .plain) := quit_call nofun rfl rfl
    exact Safe.bind hi (hack s hi ⟨h.1, Calm.quit h.2⟩) (fun _ s _ h => hdue h.1) fun _ s _ h => hdue h.1
  | some project =>
    have howner : t.owner = t := by rw [ht]; rfl
    have hproject : t.project = some project := by rw [ht]; rfl
    refine Safe.bind hi (begin_steady h) (fun begun s hi h => ?_) fun e s _ h => Sealed.due (.inl (steady_quit h))
    cases begun with
    | true => exact (runLeased_sealed howner hproject hi h).conseq hi fun _ _ _ h => h.due
    | false =>
      have hack : fenceRules.Maintains t (Has t Quit) (ack .plain) := quit_call nofun rfl rfl
      exact Safe.bind hi (hack s hi (steady_quit h)) (fun _ s _ h => Sealed.due (.inl h)) fun _ s _ h => Sealed.due (.inl h)

theorem watch_quit (rounds : Nat) : fenceRules.Maintains t (Has t Quit) (watch project rounds) := by
  induction rounds with
  | zero => exact .raise _
  | succ rounds ih =>
    refine .bind (quit_call nofun rfl rfl) fun _ => .bind (quit_call nofun rfl rfl) fun torn => ?_
    split
    · exact quit_call nofun rfl rfl
    · refine .bind (quit_call nofun rfl rfl) fun kept => ?_
      split
      · exact ih
      · exact .bind (quit_call nofun rfl rfl) fun _ => quit_call nofun rfl rfl

theorem cancelOnLiveTeardown_quit (rounds : Nat) : fenceRules.Maintains t (Has t Quit) (cancelOnLiveTeardown project rounds) := by
  refine catching_quit (watch_quit rounds) fun _ => .bind ?_ fun _ => quit_call nofun rfl rfl
  exact catching_quit (quit_call nofun rfl rfl) fun _ => .ret ()

theorem outside_quit : fenceRules.Maintains t (Has t Quit) (perform .outside) := by
  refine .perform (has_spared Quit) fun s hi h reply hok => ?_
  have hstate : (liveWorld.run t .outside reply s).2 = (reply : Reply).change.apply s := congrArg Prod.snd (run_outside reply)
  have hspares : ∀ u, Spares u s ((reply : Reply).change.apply s) := outside_spares hok.2.2.2.2.2
  rw [hstate]
  refine ⟨⟨fun u => ?_, fun u _ => hspares u⟩, (hspares t).ceased.trans h.1, ?_⟩
  · rw [apply_logs]
    exact hi u
  · rw [(hspares t).logs]
    exact h.2

theorem ended_fenced {outcome : Option (Except Exn Unit)} (hi : fenceRules.inv s) (h : outcome.isSome = true → Due t s) :
    fenceRules.Ends t outcome s := by
  have hover : ∀ u, u ≠ t → Function.update s.ceased t true u = s.ceased u := fun u hu => Function.update_of_ne hu _ _
  have hrest : ∀ s' : State, s'.ceased = Function.update s.ceased t true → fenceRules.rest t s' := by
    intro s' heq hfalse
    rw [heq, Function.update_self] at hfalse
    cases hfalse
  cases outcome with
  | none => exact ⟨⟨hi, fun u hu => ⟨rfl, hover u hu, .rfl, fun _ _ _ h => h⟩⟩, hrest _ rfl⟩
  | some r =>
    exact ⟨⟨finished_clean hi (h rfl).2, fun u hu => ⟨Function.update_of_ne hu _ _, hover u hu, .rfl, fun _ _ _ h => h⟩⟩, hrest _ rfl⟩

theorem deployBody_safe {rounds polls : Nat → Nat} {message : Nat → DeployMessage} (hi : fenceRules.inv s) (hempty : s.logs t = [])
    (hover : s.ceased t = false) : fenceRules.Safe t (fenceRules.Finishes t) (deployBody rounds polls message t) s := by
  have hsteady : Has t (Steady none) s := ⟨hover, by rw [hempty]; exact ⟨⟨rfl, nofun⟩, nofun⟩⟩
  have hidle : ∀ {A : Type} {p : Job A}, fenceRules.Maintains t (Has t Quit) p → fenceRules.Safe t (fun _ => Due t) p s := fun hp =>
    (hp s hi (steady_quit hsteady)).conseq hi fun _ s _ h => Sealed.due (.inl h)
  have hdue : fenceRules.Safe t (fun _ => Due t) (deployBody rounds polls message t) s := by
    cases t with
    | job execution project => exact Safe.bind hi (executeLiveWork_due hi rfl hsteady) (fun _ _ _ h => h) fun _ _ _ h => h
    | watchdog execution project => exact hidle (cancelOnLiveTeardown_quit _)
    | outside n => exact hidle outside_quit
  exact hdue.conseq hi fun r s hi h => ended_fenced hi fun _ => h

end Executions

section Runs

variable {rounds polls : Nat → Nat} {message : Nat → DeployMessage} {cancelKeys : String → Bool} {failureKeys : String → Option String}
  {leases : List (String × Party)} {c : Config liveWorld}

/-- Where cancellations come through so, no entry of a cancelled deploy is acknowledged while a
run of it may be live, and such a run is left to teardown. -/
theorem live_runs_fenced
    (h : Reaches (deployBody rounds polls message) stops (.idle (State.opening cancelKeys failureKeys leases)) c)
    (execution : Nat) (project : String) : Stopped (c.state.logs (.job execution (some project))) := by
  have hidle : fenceRules.Sound (.idle (State.opening cancelKeys failureKeys leases) : Config liveWorld) :=
    .idle (fun t => trivial) fun t _ => rfl
  have hsound : fenceRules.Sound c := Rules.reaches_sound hidle
    (fun t s hi hrest hok => deployBody_safe hi (hrest hok.1) hok.1) (fun t s hi _ => ended_fenced hi nofun) h
  exact stopped_of_clean rfl (hsound.inv (.job execution (some project)))

end Runs

instance (s : State) (op : Op) (reply : Reply) : Decidable (fenceLasts s op reply) := by
  rcases op with ⟨⟩ <;> dsimp only [fenceLasts] <;> rcases reply.change with ⟨⟩ <;> infer_instance

instance (s : State) (m : Move liveWorld) : Decidable (stops s m) := by
  rcases m with ⟨⟩ <;> dsimp only [stops] <;> infer_instance

def sampleMessage : DeployMessage where
  taskId := "a"
  projectId := "p"
  storyId := "s"
  callbackStream := none
  action := .feature
  deployFixAttempt := 0
  headSha := "abc"
  applicationId := none
  envOverrides := []
  fenceActiveDeploys := false

def sighted (fate : Fate Exn) : Reply :=
  { replied fate (.unfence "other") with
    found := some ⟨7, false, none, "", some "abc"⟩
    info := ⟨7, true, some "cancelled", "", some "abc"⟩ }

def deploys (n : Nat) : List (Turn liveWorld) := List.replicate n (.call firstJob fun _ => sighted .served)

def tearsDown : List (Turn liveWorld) := changes 0 (.fence "p") ++ calls (.watchdog 1 "p") 3

def stoppedInWait : List (Turn liveWorld) := begun 1 ++ deploys 26 ++ tearsDown ++ [interrupted firstJob] ++ deploys 11

def stoppedInDispatch : List (Turn liveWorld) :=
  begun 1 ++ deploys 21 ++ tearsDown ++ [.call firstJob fun _ => sighted (.unheard .cancelledError)] ++ deploys 6

def deployPool : Party → Job Unit := deployBody (fun _ => 3) (fun _ => 3) fun _ => sampleMessage

set_option maxRecDepth 8000 in
theorem wait_fenced : Stopped (((Config.idle State.empty).play deployPool stoppedInWait).state.logs firstJob) :=
  live_runs_fenced (play_reaches (by decide +kernel)) 1 "p"

set_option maxRecDepth 8000 in
theorem dispatch_unfenced : ∃ c : Config liveWorld, Reaches deployPool legit (.idle State.empty) c ∧ ¬ Stopped (c.state.logs firstJob) := by
  have hreaches : Reaches deployPool legit (.idle State.empty) ((Config.idle State.empty).play deployPool stoppedInDispatch) :=
    play_reaches (by decide +kernel)
  refine ⟨_, hreaches, fun h => ?_⟩
  have hlog : ((Config.idle State.empty).play deployPool stoppedInDispatch).state.logs firstJob =
      [.finished true false, .acked, .cancelled [.teardown], .dispatched 7, .began] := by decide +kernel
  rw [hlog] at h
  have hlive := h.acked [.finished true false] [.cancelled [.teardown], .dispatched 7, .began] rfl rfl
  cases hlive

end Orchestrator.LiveWork
