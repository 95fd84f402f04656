import Orchestrator.LiveWork.Actions
import Orchestrator.LiveWork.Settlement

/-!
What becomes of the workflow runs of a deploy job whose task is cancelled.
-/

namespace Orchestrator.LiveWork

open Async
open Contracts (DeployMessage)
open Deploy (Exn)

def liveRuns : Log → List Nat
  | [] => []
  | .dispatched runId :: older => runId :: liveRuns older
  | .terminal runId :: older => (liveRuns older).filter (· ≠ runId)
  | _ :: older => liveRuns older

def Event.cuts : Event → Bool
  | .cancelled _ => true
  | _ => false

def cutOff (log : Log) : Bool := log.any Event.cuts

/-- The entry of a cancelled job is acknowledged only with no run of it live; where one is, the
job leaves the failure key and its entry pending. -/
structure Stopped (log : Log) : Prop where
  acked : ∀ newer older, log = newer ++ .acked :: older → cutOff older = true → liveRuns older = []
  fenced : ∀ newer older teardown fence, log = newer ++ .finished teardown fence :: older → cutOff older = true →
    liveRuns older ≠ [] → fence = true ∧ .acked ∉ older

def Op.guarded : Op → Bool
  | .github _ .wait => true
  | _ => false

def shownTo : Deploy.ServiceCall → Reply → Option Nat
  | .getLatestWorkflowRun owner, reply => reply.deploy (.service (.getLatestWorkflowRun owner))
  | _, _ => none

def shown : Op → Reply → Option Nat
  | .github .getLatestWorkflowRun _, reply => reply.found.map (·.id)
  | .deploy (.service call), reply => shownTo call reply
  | _, _ => none

def fenceLasts (s : State) : Op → Reply → Prop
  | .outside, reply => match reply.change with
    | .clearFailure project => s.runningOf s.marked project = false
    | _ => True
  | _, _ => True

def Op.claimsStop : (op : Op) → Except Exn op.Res → Bool
  | .github _ _, .error (.workflowCancelled _) => true
  | _, _ => false

/-- A cancellation comes through in a guarded wait, or where no run is live; beside a live run
the handlers' calls of a cancelled job do not go wrong; and the run shown is the job's own. -/
def stops (s : State) : Move liveWorld → Prop
  | .call t op reply => legit s (.call t op reply) ∧
      (isCancelled (run t op reply s).1 = true → op.inBody = true →
        op.guarded = true ∨ liveRuns ((run t op reply s).2.logs t) = []) ∧
      (op.missed (run t op reply s).1 = true → cutOff (s.logs t) = true → liveRuns (s.logs t) = []) ∧
      (∀ runId ∈ shown op reply, ∀ id ∈ liveRuns (s.logs t), id = runId) ∧
      op.claimsStop (run t op reply s).1 = false ∧ fenceLasts s op reply
  | m => legit s m

def deployBody (rounds polls : Nat → Nat) (message : Nat → DeployMessage) : Party → Job Unit
  | .job execution project => do
    let _ ← executeLiveWork project (deployJob (polls execution) (message execution))
  | .watchdog execution project => cancelOnLiveTeardown project (rounds execution)
  | .outside _ => perform .outside

section Histories

variable {project : Option String} {event : Event} {log : Log}

def Quit (log : Log) : Prop := cutOff log = true → liveRuns log = []

def Ending (project : Option String) (fence : Bool) (log : Log) : Prop :=
  project.isSome = true → Quit log ∨ (fence = true ∧ .acked ∉ log)

def owed (project : Option String) : Event → Log → Prop
  | .acked, log => project.isSome = true → Quit log
  | .finished _ fence, log => Ending project fence log
  | _, _ => True

theorem owed_free (h : event.free = true) (log : Log) : owed project event log := by
  cases event with
  | acked | finished teardown fence => cases h
  | _ => trivial

theorem stopped_of_clean (hproject : project.isSome = true) (h : Clean (owed project) log) : Stopped log := by
  constructor
  · rintro newer older rfl hcut
    exact h.split.1 hproject hcut
  · rintro newer older teardown fence rfl hcut hlive
    rcases h.split.1 hproject with hquit | hfence
    · exact absurd (hquit hcut) hlive
    · exact hfence

theorem cutOff_append (events log : Log) : cutOff (events ++ log) = (cutOff events || cutOff log) := List.any_append

end Histories

section Frames

variable {t u : Party} {s s' s'' : State}

structure Spares (t : Party) (s s' : State) : Prop where
  logs : s'.logs t = s.logs t
  ceased : s'.ceased t = s.ceased t
  marked : t ∈ s'.marked ↔ t ∈ s.marked
  fence : s.ceased t = false → t.owner = t → t ∈ s.marked → s.fenceSet t = true → s'.fenceSet t = true

theorem Spares.refl (t : Party) (s : State) : Spares t s s := ⟨rfl, rfl, .rfl, fun _ _ _ h => h⟩

theorem Spares.trans (h : Spares t s s') (h' : Spares t s' s'') : Spares t s s'' := by
  refine ⟨h'.logs.trans h.logs, h'.ceased.trans h.ceased, h'.marked.trans h.marked, fun hover howner hmarked hfence => ?_⟩
  exact h'.fence (h.ceased.trans hover) howner (h.marked.mpr hmarked) (h.fence hover howner hmarked hfence)

theorem Frame.spares (h : Frame t s s') (hu : u ≠ t) : Spares u s s' := by
  have htolerates : Tolerates u s s' := h.tolerates hu
  exact ⟨htolerates.logs, htolerates.ceased, htolerates.marked, htolerates.fence⟩

theorem outside_spares {reply : Reply} (h : fenceLasts s .outside reply) (u : Party) : Spares u s (reply.change.apply s) := by
  cases hchange : reply.change with
  | clearFailure project =>
    simp only [fenceLasts, hchange] at h
    have htolerates : Tolerates u s ((Change.clearFailure project).apply s) := outside_tolerates h u
    exact ⟨htolerates.logs, htolerates.ceased, htolerates.marked, htolerates.fence⟩
  | _ => exact ⟨rfl, rfl, .rfl, fun _ _ _ h => h⟩

end Frames

def fenceRules : Rules liveWorld where
  admits := stops
  inv s := ∀ t, Clean (owed t.project) (s.logs t)
  rely := Spares
  rely_refl := Spares.refl
  rely_trans := Spares.trans
  rest t s := s.ceased t = false → s.logs t = []
  rest_stable := fun _ h hrest hover => h.logs.trans (hrest (h.ceased.symm.trans hover))

section Calls

open Rules

variable {t : Party} {s s' : State} {op : Op} {reply : Reply} {P : Log → Prop}

theorem frame_fenceInv (h : Frame t s s') (hi : fenceRules.inv s) (hclean : Clean (owed t.project) (s'.logs t)) : fenceRules.inv s' := by
  intro u
  by_cases hu : u = t
  · exact hu ▸ hclean
  · rw [h.others u hu]
    exact hi u

theorem has_spared (P : Log → Prop) : fenceRules.Stable t (Has t P) := by
  intro s s' _ hr h
  exact ⟨hr.ceased.trans h.1, by rw [hr.logs]; exact h.2⟩

def Op.starts : Op → Bool
  | .deploy (.triggerWorkflowDispatch _ _) => true
  | .deploy (.rerunFailedJobs _ _ _) => true
  | _ => false

theorem startedBy_quiet {op : Deploy.Op} (h : (Op.deploy op).starts = false) (reply : Reply) : startedBy op reply = [] := by
  cases op <;> first | rfl | cases h

theorem serve_events (hop : op ≠ .outside) (hack : ∀ site, op ≠ .ack site) (hstart : op.starts = false) :
    ∃ events, (serve t op reply s).2.logs t = events ++ s.logs t ∧ ∀ event ∈ events, event.mild = true := by
  have hnone : ∀ s' : State, s'.logs = s.logs → ∃ events, s'.logs t = events ++ s.logs t ∧ ∀ event ∈ events, event.mild = true :=
    fun s' heq => ⟨[], congrFun heq t, nofun⟩
  have hsome : ∀ events : Log, (∀ event ∈ events, event.mild = true) →
      ∃ events', (s.record t events).logs t = events' ++ s.logs t ∧ ∀ event ∈ events', event.mild = true :=
    fun events h => ⟨events, State.record_logs .., h⟩
  cases op with
  | process =>
    simp only [serve, process, answer]
    cases reply.fate with
    | served => exact hsome _ (by simp [Event.mild])
    | _ => exact hnone _ rfl
  | deploy op =>
    simp only [serve, startedBy_quiet hstart]
    cases reply.fate with
    | unsent e => exact hnone _ rfl
    | _ => exact hsome [] nofun
  | github call site =>
    simp only [serve, LiveWork.github, answer]
    cases reply.fate with
    | served => exact hsome _ (seen_mild call reply)
    | _ => exact hnone _ rfl
  | beginLiveWork project =>
    have hregister : (s.register t project).logs = s.logs := by
      unfold State.register
      split <;> rfl
    simp only [serve]
    cases reply.fate with
    | served =>
      refine ⟨[if s.cancelKeys project then .fenced else .began], ?_, ?_⟩
      · change ((s.register t project).record t _).logs t = _
        rw [State.record_logs, hregister]
      · split <;> simp [Event.mild]
    | unheard e => exact hnone _ hregister
    | unsent e => exact hnone _ rfl
  | keyExists key site =>
    simp only [serve, answer, State.exist]
    cases reply.fate with
    | served =>
      dsimp only
      split
      · exact hsome _ (by simp [Event.mild])
      · exact hnone _ rfl
    | _ => exact hnone _ rfl
  | ack site => exact absurd rfl (hack site)
  | outside => exact absurd rfl hop
  | utcnow | createWatch | cancelOwner reason => exact hnone _ rfl
  | _ =>
    simp only [serve]
    cases reply.fate <;> exact hnone _ rfl

variable {events log : Log}

section

variable (h : ∀ event ∈ events, event.mild = true)

include h

theorem mild_cutOff : cutOff (events ++ log) = cutOff log := by
  have hevents : cutOff events = false := List.any_eq_false.mpr fun event hmem hcut => by
    have hmild := h event hmem
    cases event with
    | cancelled reasons => cases hmild
    | _ => cases hcut
  rw [cutOff_append, hevents, Bool.false_or]

theorem mild_acked (hmem : .acked ∈ events ++ log) : .acked ∈ log := by
  rcases List.mem_append.mp hmem with hnew | hold
  · cases h _ hnew
  · exact hold

theorem mild_live : liveRuns (events ++ log) ⊆ liveRuns log := by
  induction events with
  | nil => exact List.Subset.refl _
  | cons event events ih =>
    have hrest := ih fun other hmem => h other (List.mem_cons_of_mem _ hmem)
    have hmild := h event List.mem_cons_self
    cases event with
    | terminal runId => exact fun id hid => hrest (List.mem_of_mem_filter hid)
    | dispatched runId => cases hmild
    | _ => exact hrest

end

structure Passed {A : Type} (guarded : Bool) (r : Except Exn A) (log log' : Log) : Prop where
  acked : .acked ∈ log' → .acked ∈ log
  live : liveRuns log' ⊆ liveRuns log
  cut : isCancelled r = false → cutOff log' = cutOff log
  stopped : isCancelled r = true → guarded = true ∨ liveRuns log' = []

theorem raisedBy_live {A : Type} (op : Op) (reasons : List Reason) (r : Except Exn A) (log : Log) :
    liveRuns (raisedBy op reasons r ++ log) = liveRuns log := by
  unfold raisedBy
  split
  · split <;> rfl
  · split <;> rfl
  · rfl

theorem raisedBy_acked {A : Type} (op : Op) (reasons : List Reason) (r : Except Exn A) {log : Log}
    (h : .acked ∈ raisedBy op reasons r ++ log) : .acked ∈ log := by
  rcases List.mem_append.mp h with hnew | hold
  · have hfree := raisedBy_free op reasons r _ hnew
    cases hfree
  · exact hold

theorem raisedBy_cut {A : Type} (op : Op) (reasons : List Reason) {r : Except Exn A} (h : isCancelled r = false) (log : Log) :
    cutOff (raisedBy op reasons r ++ log) = cutOff log := by
  unfold raisedBy
  split
  · cases h
  · split <;> rfl
  · rfl

theorem run_passed (hop : op ≠ .outside) (hack : ∀ site, op ≠ .ack site) (hstart : op.starts = false) (hbody : op.inBody = true)
    (hok : stops s (.call t op reply)) : Passed op.guarded (run t op reply s).1 (s.logs t) ((run t op reply s).2.logs t) := by
  have hserved : ∃ events, (serve t op reply s).2.logs t = events ++ s.logs t ∧ ∀ event ∈ events, event.mild = true :=
    serve_events hop hack hstart
  obtain ⟨events, hlogs, hmild⟩ := hserved
  have hstopped := hok.2.1
  have hrun : (run t op reply s).2.logs t = raisedBy op (s.requested t) (serve t op reply s).1 ++ (events ++ s.logs t) := by
    rw [run_logs, hlogs]
  refine ⟨fun hmem => ?_, fun id hid => ?_, fun hresult => ?_, fun hcancelled => hstopped hcancelled hbody⟩
  · rw [hrun] at hmem
    exact mild_acked hmild (raisedBy_acked _ _ _ hmem)
  · rw [hrun, raisedBy_live] at hid
    exact mild_live hmild hid
  · have hserved : isCancelled (serve t op reply s).1 = false := hresult
    rw [hrun, raisedBy_cut _ _ hserved]
    exact mild_cutOff hmild

theorem run_fenceClean (hop : op ≠ .outside) (hack : ∀ site, op ≠ .ack site) {project : Option String}
    (h : Clean (owed project) (s.logs t)) : Clean (owed project) ((run t op reply s).2.logs t) := by
  rw [run_logs]
  have hserved : Clean (owed project) ((serve t op reply s).2.logs t) := by
    by_cases hstart : op.starts = false
    · have hevents : ∃ events, (serve t op reply s).2.logs t = events ++ s.logs t ∧ ∀ event ∈ events, event.mild = true :=
        serve_events hop hack hstart
      obtain ⟨events, hlogs, hmild⟩ := hevents
      rw [hlogs]
      exact h.append fun event hmem log => owed_free (mild_free (hmild event hmem)) log
    · cases op with
      | deploy op =>
        simp only [serve]
        cases reply.fate with
        | unsent e => exact h
        | _ =>
          change Clean _ ((s.record t (startedBy op reply)).logs t)
          rw [State.record_logs]
          exact h.append fun event hmem log => owed_free (startedBy_free op reply event hmem) log
      | _ => exact absurd rfl hstart
  exact hserved.append fun event hmem log => owed_free (raisedBy_free _ _ _ event hmem) log

theorem call_fenced {post : Except Exn op.Res → State → Prop} (hop : op ≠ .outside) (hack : ∀ site, op ≠ .ack site)
    (h : ∀ s' reply, fenceRules.inv s' → Spares t s s' → stops s' (.call t op reply) → post (run t op reply s').1 (run t op reply s').2) :
    fenceRules.Safe t post (perform op) s :=
  Safe.perform fun s' hi hr reply hok =>
    ⟨⟨frame_fenceInv (run_frame hop) hi (run_fenceClean hop hack (hi t)), fun _ hu => (run_frame hop).spares hu⟩, h s' reply hi hr hok⟩

theorem body_call (hop : op ≠ .outside) (hack : ∀ site, op ≠ .ack site) (hstart : op.starts = false) (hbody : op.inBody = true)
    (hover : s.ceased t = false) : fenceRules.Safe t (fun r s' => Has t (Passed op.guarded r (s.logs t)) s') (perform op) s := by
  refine call_fenced hop hack fun s' reply _ hr hok => ?_
  have hpassed := run_passed hop hack hstart hbody hok
  rw [hr.logs] at hpassed
  exact ⟨run_over hop (hr.ceased.trans hover), hpassed⟩

end Calls

section Waits

open Rules

variable {t : Party} {s : State} {runId polls : Nat} {bound : List Nat} {cut : Bool} {site : Site} {call : GithubCall} {e : Exn} {P : Log → Prop} {log log' : Log}

def Owned (bound : List Nat) (cut : Bool) (log : Log) : Prop := .acked ∉ log ∧ liveRuns log ⊆ bound ∧ cutOff log = cut

def Halted (site : Site) (bound : List Nat) (cut : Bool) : Except Exn Unit → Log → Prop
  | .ok _, _ => False
  | .error e, log => .acked ∉ log ∧ ((∃ message, e = .workflowCancelled message) → liveRuns log = [] ∧ cutOff log = cut) ∧
      (e = .cancelledError → liveRuns log ⊆ bound ∧ (site = .wait ∨ liveRuns log = []))

theorem github_guarded (call : GithubCall) (h : (Op.github call site).guarded = true) : site = .wait := by
  cases site <;> first | rfl | cases h

variable {A : Type}

variable {guarded : Bool}

theorem Passed.owned {a : A} (h : Passed guarded (.ok a : Except Exn A) log log') (hown : Owned bound cut log) :
    Owned bound cut log' :=
  ⟨fun hmem => hown.1 (h.acked hmem), fun _ hid => hown.2.1 (h.live hid), (h.cut rfl).trans hown.2.2⟩

theorem Passed.halted (h : Passed (Op.github call site).guarded (.error e : Except Exn A) log log') (hown : Owned bound cut log)
    (hclaim : ∀ message, e ≠ .workflowCancelled message) : Halted site bound cut (.error e) log' := by
  refine ⟨fun hmem => hown.1 (h.acked hmem), ?_, fun he => ⟨fun _ hid => hown.2.1 (h.live hid), ?_⟩⟩
  · rintro ⟨message, heq⟩
    exact absurd heq (hclaim message)
  · subst he
    exact (h.stopped rfl).imp_left (github_guarded call)

def Unclaimed {A : Type} (r : Except Exn A) : Prop := ∀ e, r = .error e → ∀ message, e ≠ .workflowCancelled message

theorem github_safe (call : GithubCall) (site : Site) (hover : s.ceased t = false) : fenceRules.Safe t (fun r s' =>
    Has t (Passed (Op.github call site).guarded r (s.logs t)) s' ∧ Unclaimed r) (askGithub call site) s := by
  refine call_fenced nofun nofun fun s' reply _ hr hok => ?_
  have hpassed := run_passed (by nofun) (by nofun) rfl rfl hok
  rw [hr.logs] at hpassed
  refine ⟨⟨run_over (by nofun) (hr.ceased.trans hover), hpassed⟩, fun e heq message he => ?_⟩
  have hclaim : (Op.github call site).claimsStop (run t (.github call site) reply s').1 = false := hok.2.2.2.2.1
  rw [heq, he] at hclaim
  cases hclaim

theorem utcnow_safe (h : Has t P s) : fenceRules.Safe t (fun r s => (∃ clock, r = .ok clock) ∧ Has t P s) utcnow s := by
  refine call_fenced nofun nofun fun s' reply hi hr _ => ?_
  have h' : Has t P s' := has_spared P s s' hi hr h
  refine ⟨⟨_, rfl⟩, run_over (by nofun) h'.1, ?_⟩
  rw [run_quiet rfl]
  exact h'.2

theorem withinTimeout_safe (message : String) (start : Int) (hi : fenceRules.inv s) (h : Has t P s) :
    fenceRules.Safe t (fun r s => Has t P s ∧ ∀ e, r = .error e → e = .timeoutError message) (withinTimeout message start) s := by
  refine Safe.bind hi (utcnow_safe h) (fun clock s _ h => ?_) fun e s _ h => ?_
  · split
    · refine ⟨h.2, fun e he => ?_⟩
      cases he
      rfl
    · exact ⟨h.2, nofun⟩
  · obtain ⟨clock, hclock⟩ := h.1
    cases hclock

theorem getWorkflowRun_safe (runId : Nat) (site : Site) (hover : s.ceased t = false) : fenceRules.Safe t (fun r s' =>
    Has t (Passed (Op.github (.getWorkflowRun runId) site).guarded r (s.logs t)) s' ∧ Unclaimed r ∧
      ∀ info, r = .ok info → info.completed = true → runId ∉ liveRuns (s'.logs t)) (askGithub (.getWorkflowRun runId) site) s := by
  refine call_fenced nofun nofun fun s' reply _ hr hok => ?_
  have hpassed := run_passed (by nofun) (by nofun) rfl rfl hok
  rw [hr.logs] at hpassed
  refine ⟨⟨run_over (by nofun) (hr.ceased.trans hover), hpassed⟩, fun e heq message he => ?_, fun info heq hcompleted => ?_⟩
  · have hclaim : (Op.github (.getWorkflowRun runId) site).claimsStop (run t (.github (.getWorkflowRun runId) site) reply s').1 = false :=
      hok.2.2.2.2.1
    rw [heq, he] at hclaim
    cases hclaim
  · have hserved : (serve t (.github (.getWorkflowRun runId) site) reply s').1 = .ok info := heq
    obtain ⟨_, hlogs⟩ := run_answered hserved
    rw [hlogs]
    cases htold : (reply : Reply).fate.told with
    | some e =>
      have hserve : serve t (.github (.getWorkflowRun runId) site) reply s' = (.error e, s') := answer_told htold
      rw [hserve] at hserved
      cases hserved
    | none =>
      have hserve : serve t (.github (.getWorkflowRun runId) site) reply s' =
          (.ok (reply : Reply).info, s'.record t (GithubCall.seen (.getWorkflowRun runId) reply)) := answer_served htold
      rw [hserve] at hserved ⊢
      cases hserved
      rw [State.record_logs]
      simp only [GithubCall.seen, hcompleted, if_true, List.cons_append, List.nil_append, liveRuns]
      intro hmem
      simp at hmem

theorem Owned.emptied (h : Owned bound cut log) (hbound : bound ⊆ [runId]) (hnot : runId ∉ liveRuns log) : liveRuns log = [] := by
  rw [List.eq_nil_iff_forall_not_mem]
  intro id hid
  have hone := List.mem_singleton.mp (hbound (h.2.1 hid))
  exact hnot (hone ▸ hid)

theorem Owned.failed (h : Owned bound cut log) (hclaim : ∀ message, e ≠ .workflowCancelled message) (hcancel : e ≠ .cancelledError) :
    Halted site bound cut (.error e) log := by
  refine ⟨h.1, ?_, fun he => absurd he hcancel⟩
  rintro ⟨message, heq⟩
  exact absurd heq (hclaim message)

theorem github_owned (call : GithubCall) (site : Site) (hi : fenceRules.inv s) (h : Has t (Owned bound cut) s) :
    fenceRules.Safe t (fun r s => match r with
      | .ok _ => Has t (Owned bound cut) s
      | .error e => Has t (Halted site bound cut (.error e)) s) (askGithub call site) s := by
  refine (github_safe call site h.1).conseq hi fun r s' _ h' => ?_
  cases r with
  | ok a => exact ⟨h'.1.1, h'.1.2.owned h.2⟩
  | error e => exact ⟨h'.1.1, h'.1.2.halted h.2 (h'.2 e rfl)⟩

theorem pollCancelled_safe (workflow : String) (start : Int) (hbound : bound ⊆ [runId]) (hi : fenceRules.inv s) (h : Has t (Owned bound cut) s) :
    fenceRules.Safe t (fun r s => Has t (Halted site bound cut r) s) (pollCancelled workflow runId site start polls) s := by
  induction polls generalizing s with
  | zero => exact ⟨h.1, h.2.failed (by nofun) (by nofun)⟩
  | succ polls ih =>
    refine Safe.bind hi (withinTimeout_safe _ _ hi h) (fun _ s hi h => ?_) fun e s _ h => ?_
    · refine Safe.bind hi (getWorkflowRun_safe runId site h.1.1) (fun run s' hi h' => ?_) fun e s' _ h' => ?_
      · have hown : Owned bound cut (s'.logs t) := h'.1.2.owned h.1.2
        split
        · next hcompleted =>
          have hlive := hown.emptied hbound (h'.2.2 run rfl hcompleted)
          split
          · exact ⟨h'.1.1, hown.1, fun _ => ⟨hlive, hown.2.2⟩, nofun⟩
          · exact ⟨h'.1.1, hown.failed (by nofun) (by nofun)⟩
        · refine Safe.bind hi (github_owned _ site hi ⟨h'.1.1, hown⟩) (fun _ s hi h => ih hi h) fun e s _ h => h
      · exact ⟨h'.1.1, h'.1.2.halted h.1.2 (h'.2.1 e rfl)⟩
    · have he := h.2 e rfl
      subst he
      exact ⟨h.1.1, h.1.2.failed (by nofun) (by nofun)⟩

theorem cancelAndWait_safe (workflow : String) (hbound : bound ⊆ [runId]) (hi : fenceRules.inv s) (h : Has t (Owned bound cut) s) :
    fenceRules.Safe t (fun r s => Has t (Halted site bound cut r) s) (cancelAndWait workflow runId site polls) s := by
  refine Safe.bind hi (github_owned _ site hi h) (fun _ s hi h => ?_) fun e s _ h => h
  refine Safe.bind hi (github_owned _ site hi h) (fun _ s hi h => ?_) fun e s _ h => h
  refine Safe.bind hi (utcnow_safe h) (fun start s hi h => pollCancelled_safe workflow start hbound hi h.2) fun e s _ h => ?_
  obtain ⟨clock, hclock⟩ := h.1
  cases hclock

def Confirmed (site : Site) (bound : List Nat) (cut : Bool) (r : Except Exn Unit) (log : Log) : Prop :=
  Halted site bound cut r log ∧ match r with
    | .ok _ => True
    | .error e => e.isCancellation = true ∨ e = .cancelledError

theorem cancelAndConfirm_safe (workflow : String) (hbound : bound ⊆ [runId]) (hi : fenceRules.inv s) (h : Has t (Owned bound cut) s) :
    fenceRules.Safe t (fun r s => Has t (Confirmed site bound cut r) s) (cancelAndConfirmWorkflowRun workflow runId site polls) s := by
  refine Safe.handle hi (cancelAndWait_safe workflow hbound hi h) (fun _ _ _ h => h.2.elim) fun e s _ h => ?_
  have hunverified : ∀ message, Halted site bound cut (.error (.workflowCancellationUnproven message)) (s.logs t) := by
    refine fun message => ⟨h.2.1, ?_, nofun⟩
    rintro ⟨_, heq⟩
    cases heq
  cases e with
  | workflowCancelled message => exact ⟨h.1, h.2, .inl rfl⟩
  | cancelledError => exact ⟨h.1, h.2, .inr rfl⟩
  | _ => exact ⟨h.1, hunverified _, .inl rfl⟩

def remaining (runId : Nat) (completed : Bool) : List Nat := if completed then [] else [runId]

theorem remaining_subset (runId : Nat) (completed : Bool) : remaining runId completed ⊆ [runId] := by
  unfold remaining
  split
  · exact List.nil_subset _
  · exact List.Subset.refl _

theorem subset_remaining {runs : List Nat} {completed : Bool} (hone : runs ⊆ [runId]) (hcompleted : completed = true → runs = []) :
    runs ⊆ remaining runId completed := by
  unfold remaining
  split
  · next hdone => exact List.subset_nil.mpr (hcompleted hdone)
  · exact hone

def Tracked (run : Option WorkflowInfo) (log : Log) : Prop :=
  .acked ∉ log ∧ ∀ info, run = some info → liveRuns log ⊆ remaining info.id info.completed

def Cleaned (r : Except Exn Unit) (log : Log) : Prop := .acked ∉ log ∧ match r with
  | .ok _ => liveRuns log = []
  | .error e => e = .cancelledError ∧ liveRuns log = [] ∨ ∃ message, e = .workflowCancellationUnproven message

def Verifiable (r : Except Exn Unit) (log : Log) : Prop := .acked ∉ log ∧ match r with
  | .ok _ => liveRuns log = []
  | .error e => ((∃ message, e = .workflowCancelled message) → liveRuns log = []) ∧ (e = .cancelledError → liveRuns log = [])

theorem verified_safe {p : Job Unit} (message : String) (hi : fenceRules.inv s)
    (hp : fenceRules.Safe t (fun r s => Has t (Verifiable r) s) p s) :
    fenceRules.Safe t (fun r s => Has t (Cleaned r) s) (verified message p) s := by
  refine Safe.handle hi hp (fun _ s _ h => h) fun e s _ h => ?_
  cases e with
  | workflowCancelled message => exact ⟨h.1, h.2.1, h.2.2.1 ⟨message, rfl⟩⟩
  | workflowCancellationUnproven message => exact ⟨h.1, h.2.1, .inr ⟨message, rfl⟩⟩
  | cancelledError => exact ⟨h.1, h.2.1, .inl ⟨rfl, h.2.2.2 rfl⟩⟩
  | _ => exact ⟨h.1, h.2.1, .inr ⟨message, rfl⟩⟩

theorem confirmed_verifiable {r : Except Exn Unit} (h : Has t (Confirmed .confirm bound cut r) s) : Has t (Verifiable r) s := by
  cases r with
  | ok a => exact h.2.1.elim
  | error e =>
    refine ⟨h.1, h.2.1.1, fun hstop => (h.2.1.2.1 hstop).1, fun hcancel => ?_⟩
    rcases (h.2.1.2.2 hcancel).2 with hsite | hlive
    · cases hsite
    · exact hlive

variable {info : WorkflowInfo}

theorem latest_served {reply : Reply} (h : (serve t (.github .getLatestWorkflowRun site) reply s).1 = .ok (some info)) :
    reply.found = some info ∧ (serve t (.github .getLatestWorkflowRun site) reply s).2.logs t = info.seen ++ s.logs t := by
  cases htold : reply.fate.told with
  | some e =>
    have hserve : serve t (.github .getLatestWorkflowRun site) reply s = (.error e, s) := answer_told htold
    rw [hserve] at h
    cases h
  | none =>
    have hserve : serve t (.github .getLatestWorkflowRun site) reply s =
        (.ok reply.found, s.record t (GithubCall.seen .getLatestWorkflowRun reply)) := answer_served htold
    rw [hserve] at h
    have hfound : reply.found = some info := Except.ok.inj h
    refine ⟨hfound, ?_⟩
    rw [hserve, State.record_logs]
    simp only [GithubCall.seen, hfound, Option.map_some, Option.getD_some]

theorem seen_live (hcompleted : info.completed = true) (hone : ∀ id ∈ liveRuns log, id = info.id) :
    liveRuns (info.seen ++ log) = [] := by
  simp only [WorkflowInfo.seen, hcompleted, if_true, List.cons_append, List.nil_append, liveRuns]
  rw [List.filter_eq_nil_iff]
  intro id hid
  simp [hone id hid]

theorem getLatest_safe (site : Site) (hover : s.ceased t = false) : fenceRules.Safe t (fun r s' =>
    Has t (Passed (Op.github .getLatestWorkflowRun site).guarded r (s.logs t)) s' ∧ Unclaimed r ∧
      ∀ info, r = .ok (some info) → liveRuns (s'.logs t) ⊆ remaining info.id info.completed)
    (askGithub .getLatestWorkflowRun site) s := by
  refine call_fenced nofun nofun fun s' reply _ hr hok => ?_
  have hpassed := run_passed (by nofun) (by nofun) rfl rfl hok
  have hlive := hpassed.live
  rw [hr.logs] at hpassed
  refine ⟨⟨run_over (by nofun) (hr.ceased.trans hover), hpassed⟩, fun e heq message he => ?_, fun info heq => ?_⟩
  · have hclaim : (Op.github .getLatestWorkflowRun site).claimsStop (run t (.github .getLatestWorkflowRun site) reply s').1 = false :=
      hok.2.2.2.2.1
    rw [heq, he] at hclaim
    cases hclaim
  · have hserved : (serve t (.github .getLatestWorkflowRun site) reply s').1 = .ok (some info) := heq
    obtain ⟨hfound, hlogs⟩ := latest_served hserved
    have hshown : shown (.github .getLatestWorkflowRun site) reply = some info.id := by
      change (reply : Reply).found.map (·.id) = some info.id
      rw [hfound]
      rfl
    have howned : ∀ id ∈ liveRuns (s'.logs t), id = info.id := hok.2.2.2.1 info.id hshown
    have hrun : (run t (.github .getLatestWorkflowRun site) reply s').2.logs t = info.seen ++ s'.logs t :=
      (run_answered hserved).2.trans hlogs
    refine subset_remaining (fun id hid => List.mem_singleton.mpr (howned id (hlive hid))) fun hcompleted => ?_
    rw [hrun]
    exact seen_live hcompleted howned

variable {run : Option WorkflowInfo}

variable {r : Except Exn A}

theorem Passed.tracked (h : Passed guarded r log log')
    (htracked : Tracked run log) : Tracked run log' := by
  refine ⟨fun hmem => htracked.1 (h.acked hmem), fun info hrun => ?_⟩
  exact fun _ hid => htracked.2 info hrun (h.live hid)

theorem interruptedRun_safe (hi : fenceRules.inv s) (h : Has t (Tracked run) s) :
    fenceRules.Safe t (fun r s => s.ceased t = false ∧ .acked ∉ s.logs t ∧ match r with
      | .ok found => Tracked found (s.logs t)
      | .error e => (∀ message, e ≠ .workflowCancelled message) ∧ (e = .cancelledError → liveRuns (s.logs t) = []))
    (interruptedRun run) s := by
  cases run with
  | some info => exact ⟨h.1, h.2.1, h.2⟩
  | none =>
    refine (getLatest_safe .confirm h.1).conseq hi fun r s' _ h' => ?_
    have hacked : .acked ∉ s'.logs t := fun hmem => h.2.1 (h'.1.2.acked hmem)
    refine ⟨h'.1.1, hacked, ?_⟩
    cases r with
    | ok found =>
      refine ⟨hacked, fun info hfound => ?_⟩
      exact h'.2.2 info (congrArg Except.ok hfound)
    | error e =>
      refine ⟨h'.2.1 e rfl, fun he => ?_⟩
      subst he
      rcases h'.1.2.stopped rfl with hguarded | hlive
      · cases hguarded
      · exact hlive

theorem cancelInterruptedWorkflowWait_safe (hi : fenceRules.inv s) (h : Has t (Tracked run) s) :
    fenceRules.Safe t (fun r s => Has t (Cleaned r) s) (cancelInterruptedWorkflowWait polls run) s := by
  refine verified_safe _ hi (Safe.bind hi (interruptedRun_safe hi h) (fun found s hi h => ?_) fun e s _ h => ?_)
  · cases found with
    | none =>
      refine ⟨h.1, h.2.1, ?_, nofun⟩
      rintro ⟨_, heq⟩
      cases heq
    | some info =>
      have hlive : liveRuns (s.logs t) ⊆ remaining info.id info.completed := h.2.2.2 info rfl
      dsimp only
      split
      · next hdone => exact ⟨h.1, h.2.1, List.subset_nil.mp (by simpa [remaining, hdone] using hlive)⟩
      · exact (cancelAndConfirm_safe _ (remaining_subset _ _) hi ⟨h.1, h.2.1, hlive, rfl⟩).conseq hi fun _ _ _ h => confirmed_verifiable h
  · exact ⟨h.1, h.2.1, fun ⟨message, heq⟩ => absurd heq (h.2.2.1 message), h.2.2.2⟩

def Bounded (bound : List Nat) (log : Log) : Prop := .acked ∉ log ∧ liveRuns log ⊆ bound

theorem cancelInterruptedRunWait_safe {completed : Bool} (hi : fenceRules.inv s)
    (h : Has t (Bounded (remaining runId completed)) s) :
    fenceRules.Safe t (fun r s => Has t (Cleaned r) s) (cancelInterruptedRunWait polls runId completed) s := by
  unfold cancelInterruptedRunWait
  split
  · next hdone => exact ⟨h.1, h.2.1, List.subset_nil.mp (by simpa [remaining, hdone] using h.2.2)⟩
  · exact verified_safe _ hi ((cancelAndConfirm_safe _ (remaining_subset _ _) hi ⟨h.1, h.2.1, h.2.2, rfl⟩).conseq hi fun _ _ _ h => confirmed_verifiable h)

/-- The error neither interrupts the job nor, unless `strict`, tells of a run that may be live. -/
def ordinary (strict : Bool) : Exn → Bool
  | .cancelledError => false
  | .workflowCancellationUnproven _ => strict
  | _ => true

def Left (strict : Bool) (e : Exn) (log : Log) : Prop :=
  .acked ∉ log ∧ (e = .cancelledError → liveRuns log = []) ∧ (ordinary strict e = true → cutOff log = false)

def Broken (pre : Log → Prop) (e : Exn) (log : Log) : Prop :=
  .acked ∉ log ∧ (e = .cancelledError → pre log) ∧ (ordinary false e = true → cutOff log = false)

def Piece {A : Type} (pre : Log → Prop) (Q : A → Log → Prop) : Except Exn A → Log → Prop
  | .ok a, log => Q a log
  | .error e, log => Broken pre e log

def Came {A : Type} (strict : Bool) (Q : A → Log → Prop) : Except Exn A → Log → Prop
  | .ok a, log => Q a log
  | .error e, log => Left strict e log

theorem interrupting_safe {p : Job A} {cleanup : Job Unit} {pre : Log → Prop} {Q : A → Log → Prop} (hi : fenceRules.inv s)
    (hclean : ∀ s, fenceRules.inv s → Has t pre s → fenceRules.Safe t (fun r s => Has t (Cleaned r) s) cleanup s)
    (hp : fenceRules.Safe t (fun r s => Has t (Piece pre Q r) s) p s) :
    fenceRules.Safe t (fun r s => Has t (Came false Q r) s) (interrupting p cleanup) s := by
  refine Safe.handle hi hp (fun _ _ _ h => h) fun e s hi h => ?_
  split
  · next he =>
    subst he
    refine Safe.bind hi (hclean s hi ⟨h.1, h.2.2.1 rfl⟩) (fun _ s _ h => ⟨h.1, h.2.1, fun _ => h.2.2, nofun⟩) fun e s _ h => ?_
    rcases h.2.2 with ⟨rfl, hlive⟩ | ⟨message, rfl⟩
    · exact ⟨h.1, h.2.1, fun _ => hlive, nofun⟩
    · exact ⟨h.1, h.2.1, nofun, nofun⟩
  · next he => exact ⟨h.1, h.2.1, fun heq => absurd heq he, h.2.2.2⟩

theorem Passed.broken {pre : Log → Prop} (h : Passed guarded (.error e : Except Exn A) log log')
    (hacked : .acked ∉ log) (hcut : cutOff log = false) (hpre : pre log') : Broken pre e log' := by
  refine ⟨fun hmem => hacked (h.acked hmem), fun _ => hpre, fun hordinary => ?_⟩
  have hsame : cutOff log' = cutOff log := h.cut (by cases e <;> first | rfl | cases hordinary)
  rw [hsame, hcut]

abbrev Waiting (bound : List Nat) : Log → Prop := Owned bound false

theorem Passed.bounded (h : Passed guarded r log log') (hown : Owned bound cut log) :
    Bounded bound log' :=
  ⟨fun hmem => hown.1 (h.acked hmem), fun _ hid => hown.2.1 (h.live hid)⟩

theorem github_waiting (call : GithubCall) (hi : fenceRules.inv s) (h : Has t (Waiting bound) s) : fenceRules.Safe t (fun r s =>
    Has t (Bounded bound) s ∧ (isCancelled r = false → Has t (Waiting bound) s)) (askGithub call .wait) s := by
  refine (github_safe call .wait h.1).conseq hi fun r s' _ h' => ⟨⟨h'.1.1, h'.1.2.bounded h.2⟩, fun hresult => ⟨h'.1.1, ?_⟩⟩
  exact ⟨(h'.1.2.bounded h.2).1, (h'.1.2.bounded h.2).2, (h'.1.2.cut hresult).trans h.2.2.2⟩

theorem Owned.broken (h : Waiting bound log) (e : Exn) : Broken (Bounded bound) e log := ⟨h.1, fun _ => ⟨h.1, h.2.1⟩, fun _ => h.2.2⟩

theorem piece_of_waiting (hbounded : Has t (Bounded bound) s)
    (h : isCancelled r = false → Has t (Waiting bound) s) : Has t (Piece (Bounded bound) (fun _ => Waiting bound) r) s := by
  cases r with
  | ok a => exact h rfl
  | error e =>
    by_cases he : e = .cancelledError
    · subst he
      exact ⟨hbounded.1, hbounded.2.1, fun _ => hbounded.2, nofun⟩
    · have hwaiting := h (by cases e <;> first | rfl | exact absurd rfl he)
      exact ⟨hwaiting.1, hwaiting.2.broken e⟩

theorem caught_safe {call : GithubCall} {handler : Exn → Job call.Res} (hi : fenceRules.inv s) (h : Has t (Waiting bound) s)
    (hh : ∀ e s, fenceRules.inv s → Has t (Waiting bound) s →
      fenceRules.Safe t (fun r s => Has t (Piece (Bounded bound) (fun _ => Waiting bound) r) s) (handler e) s) :
    fenceRules.Safe t (fun r s => Has t (Piece (Bounded bound) (fun _ => Waiting bound) r) s) (catching (askGithub call .wait) handler) s := by
  refine Safe.handle hi (github_waiting call hi h) (fun a s _ h => piece_of_waiting h.1 h.2) fun e s hi h => ?_
  split
  · next hcaught => exact hh e s hi (h.2 (by cases e <;> first | rfl | cases hcaught))
  · exact piece_of_waiting h.1 h.2

theorem cancelRequested_safe (message : String) (hi : fenceRules.inv s) (h : Has t (Waiting bound) s) :
    fenceRules.Safe t (fun r s => Has t (Piece (Bounded bound) (fun _ => Waiting bound) r) s) (cancelRequested message) s :=
  caught_safe hi h fun _ _ _ h => ⟨h.1, h.2.broken _⟩

theorem failureLogs_safe (hi : fenceRules.inv s) (h : Has t (Waiting bound) s) :
    fenceRules.Safe t (fun r s => Has t (Piece (Bounded bound) (fun _ => Waiting bound) r) s) (failureLogs runId) s :=
  caught_safe hi h fun _ _ _ h => h

theorem concludedWorkflow_safe (hi : fenceRules.inv s) (h : Has t (Waiting bound) s) :
    fenceRules.Safe t (fun r s => Has t (Piece (Bounded bound) (fun _ => Waiting bound) r) s) (concludedWorkflow info) s := by
  unfold concludedWorkflow
  split
  · exact h
  · split
    · exact ⟨h.1, h.2.broken _⟩
    · exact Safe.bind hi (failureLogs_safe hi h) (fun _ s _ h => ⟨h.1, h.2.broken _⟩) fun _ _ _ h => h

theorem concludedRun_safe (hi : fenceRules.inv s) (h : Has t (Waiting bound) s) :
    fenceRules.Safe t (fun r s => Has t (Piece (Bounded bound) (fun _ => Waiting bound) r) s) (concludedRun runId info) s := by
  unfold concludedRun
  split
  · exact h
  · exact Safe.bind hi (failureLogs_safe hi h) (fun _ s _ h => ⟨h.1, h.2.broken _⟩) fun _ _ _ h => h

theorem stopRequested_safe {polls : Nat} (requested : Bool) (workflow : String) (hbound : bound ⊆ [runId]) (hi : fenceRules.inv s)
    (h : Has t (Waiting bound) s) : fenceRules.Safe t (fun r s => Has t (Piece (Bounded bound) (fun _ => Waiting bound) r) s)
      (stopRequested requested workflow runId polls) s := by
  unfold stopRequested
  split
  · refine (cancelAndConfirm_safe workflow hbound hi h).conseq hi fun r s _ h => ?_
    cases r with
    | ok a => exact h.2.1.elim
    | error e =>
      refine ⟨h.1, h.2.1.1, fun he => ⟨h.2.1.1, (h.2.1.2.2 he).1⟩, fun hordinary => ?_⟩
      cases e with
      | workflowCancelled message => exact (h.2.1.2.1 ⟨message, rfl⟩).2
      | workflowCancellationUnproven message | cancelledError => cases hordinary
      | _ => rcases h.2.2 with hkind | hkind <;> cases hkind
  · exact h

theorem sleep_safe (seconds : Nat) (a : A) (hi : fenceRules.inv s) (h : Has t (Waiting bound) s) :
    fenceRules.Safe t (fun r s => Has t (Piece (Bounded bound) (fun _ => Waiting bound) r) s)
      ((askGithub (.sleep seconds) .wait).bind fun _ => .ret a) s :=
  Safe.bind hi ((github_waiting _ hi h).conseq hi fun _ _ _ h => piece_of_waiting h.1 h.2) (fun _ _ _ h => h) fun _ _ _ h => h

theorem examineWorkflow_safe (hi : fenceRules.inv s) (h : Has t (Waiting (remaining info.id info.completed)) s) :
    fenceRules.Safe t (fun r s => Has t (Piece (Bounded (remaining info.id info.completed)) (fun _ => Waiting (remaining info.id info.completed)) r) s)
      (examineWorkflow polls info) s := by
  refine Safe.bind hi (cancelRequested_safe _ hi h) (fun requested s hi h => ?_) fun _ _ _ h => h
  refine Safe.bind hi (stopRequested_safe requested _ (remaining_subset _ _) hi h) (fun _ s hi h => ?_) fun _ _ _ h => h
  split
  · exact concludedWorkflow_safe hi h
  · exact sleep_safe _ _ hi h

theorem examineRun_safe (hbound : bound ⊆ [runId]) (hi : fenceRules.inv s) (h : Has t (Waiting bound) s) :
    fenceRules.Safe t (fun r s => Has t (Piece (Bounded bound) (fun _ => Waiting bound) r) s) (examineRun polls runId info) s := by
  refine Safe.bind hi (cancelRequested_safe _ hi h) (fun requested s hi h => ?_) fun _ _ _ h => h
  refine Safe.bind hi (stopRequested_safe (requested && !info.completed) _ hbound hi h) (fun _ s hi h => ?_) fun _ _ _ h => h
  split
  · exact concludedRun_safe hi h
  · exact sleep_safe _ _ hi h

def Calm (log : Log) : Prop := cutOff log = false ∧ .acked ∉ log

theorem Owned.calm (h : Waiting bound log) : Calm log := ⟨h.2.2, h.1⟩

theorem Calm.left (h : Calm log) (strict : Bool) (he : e ≠ .cancelledError) : Left strict e log :=
  ⟨h.2, fun heq => absurd heq he, fun _ => h.1⟩

theorem latest_piece (hi : fenceRules.inv s) (h : Has t (fun log => Calm log ∧ Tracked run log) s) :
    fenceRules.Safe t (fun r s => Has t (Piece (Tracked run) (fun found log => Calm log ∧ Tracked found log) r) s)
      (askGithub .getLatestWorkflowRun .wait) s := by
  refine (getLatest_safe .wait h.1).conseq hi fun r s' _ h' => ?_
  cases r with
  | ok found =>
    have hcalm : Calm (s'.logs t) := ⟨(h'.1.2.cut rfl).trans h.2.1.1, fun hmem => h.2.1.2 (h'.1.2.acked hmem)⟩
    refine ⟨h'.1.1, hcalm, hcalm.2, fun info hfound => ?_⟩
    exact h'.2.2 info (congrArg Except.ok hfound)
  | error e => exact ⟨h'.1.1, h'.1.2.broken h.2.1.2 h.2.1.1 (h'.1.2.tracked h.2.2)⟩

theorem withinTimeout_came {message : String} {start : Int} {next : Job A} (hi : fenceRules.inv s) (h : Has t P s)
    (hcalm : ∀ log, P log → Calm log) (hnext : ∀ s, fenceRules.inv s → Has t P s → fenceRules.Safe t (fun r s => Has t (Came false (fun _ => Calm) r) s) next s) :
    fenceRules.Safe t (fun r s => Has t (Came false (fun _ => Calm) r) s) ((withinTimeout message start).bind fun _ => next) s := by
  refine Safe.bind hi (withinTimeout_safe message start hi h) (fun _ s hi h => hnext s hi h.1) fun e s _ h => ?_
  have he := h.2 e rfl
  subst he
  exact ⟨h.1.1, (hcalm _ h.1.2).left false nofun⟩

theorem pollWorkflow_safe {confirms : Nat} (start : Int) (run : Option WorkflowInfo) (hi : fenceRules.inv s)
    (h : Has t (fun log => Calm log ∧ Tracked run log) s) :
    fenceRules.Safe t (fun r s => Has t (Came false (fun _ => Calm) r) s) (pollWorkflow confirms start polls run) s := by
  induction polls generalizing run s with
  | zero => exact ⟨h.1, h.2.1.left false nofun⟩
  | succ polls ih =>
    refine withinTimeout_came hi h (fun _ h => h.1) fun s hi h => ?_
    refine Safe.bind hi (interrupting_safe hi (fun s hi h => cancelInterruptedWorkflowWait_safe hi h) (latest_piece hi h))
      (fun found s hi h => ?_) fun e s _ h => h
    cases found with
    | none =>
      have hidle : fenceRules.Safe t (fun r s => Has t (Piece (Tracked none) (fun _ log => Calm log ∧ Tracked none log) r) s)
          (askGithub (.sleep pollInterval) .wait) s := by
        refine (github_safe _ .wait h.1).conseq hi fun r s' _ h' => ?_
        cases r with
        | ok a =>
          have hacked : .acked ∉ s'.logs t := fun hmem => h.2.1.2 (h'.1.2.acked hmem)
          exact ⟨h'.1.1, ⟨(h'.1.2.cut rfl).trans h.2.1.1, hacked⟩, hacked, nofun⟩
        | error e => exact ⟨h'.1.1, h'.1.2.broken h.2.1.2 h.2.1.1 (h'.1.2.tracked h.2.2)⟩
      refine Safe.bind hi (interrupting_safe hi (fun s hi h => cancelInterruptedWorkflowWait_safe hi h) hidle) (fun _ s hi h => ih none hi h)
        fun e s _ h => h
    | some info =>
      have hwaiting : Has t (Waiting (remaining info.id info.completed)) s := ⟨h.1, h.2.1.2, h.2.2.2 info rfl, h.2.1.1⟩
      have hpiece : fenceRules.Safe t (fun r s =>
          Has t (Piece (Tracked (some info)) (fun _ => Waiting (remaining info.id info.completed)) r) s) (examineWorkflow confirms info) s := by
        refine (examineWorkflow_safe hi hwaiting).conseq hi fun r s _ h => ?_
        cases r with
        | ok a => exact h
        | error e =>
          refine ⟨h.1, h.2.1, fun he => ⟨h.2.1, fun other hother => ?_⟩, h.2.2.2⟩
          cases hother
          exact (h.2.2.1 he).2
      refine Safe.bind hi (interrupting_safe hi (fun s hi h => cancelInterruptedWorkflowWait_safe hi h) hpiece) (fun done s hi h => ?_)
        fun e s _ h => h
      cases done with
      | some done => exact ⟨h.1, h.2.calm⟩
      | none =>
        refine ih (some info) hi ⟨h.1, h.2.calm, h.2.1, fun other hother => ?_⟩
        cases hother
        exact h.2.2.1

theorem waitForWorkflowCompletion_safe (hi : fenceRules.inv s) (h : Has t Calm s) :
    fenceRules.Safe t (fun r s => Has t (Came false (fun _ => Calm) r) s) (waitForWorkflowCompletion polls) s := by
  refine Safe.bind hi (utcnow_safe h) (fun start s hi h => ?_) fun e s _ h => ?_
  · exact pollWorkflow_safe start none hi ⟨h.2.1, h.2.2, h.2.2.2, nofun⟩
  · obtain ⟨clock, hclock⟩ := h.1
    cases hclock

theorem pollRun_safe {confirms : Nat} (start : Int) (completed : Bool) (hi : fenceRules.inv s)
    (h : Has t (Waiting (remaining runId completed)) s) :
    fenceRules.Safe t (fun r s => Has t (Came false (fun _ => Calm) r) s) (pollRun confirms runId start polls completed) s := by
  induction polls generalizing completed s with
  | zero => exact ⟨h.1, h.2.calm.left false nofun⟩
  | succ polls ih =>
    refine withinTimeout_came hi h (fun _ h => h.calm) fun s hi h => ?_
    have hget : fenceRules.Safe t (fun r s =>
        Has t (Piece (Bounded (remaining runId completed)) (fun info => Waiting (remaining runId info.completed)) r) s)
        (askGithub (.getWorkflowRun runId) .wait) s := by
      refine (getWorkflowRun_safe runId .wait h.1).conseq hi fun r s' _ h' => ?_
      cases r with
      | ok info =>
        have hown := h'.1.2.owned h.2
        have hone : liveRuns (s'.logs t) ⊆ [runId] := fun id hid => remaining_subset runId completed (hown.2.1 hid)
        refine ⟨h'.1.1, hown.1, subset_remaining hone fun hcompleted => ?_, hown.2.2⟩
        exact hown.emptied (remaining_subset runId completed) (h'.2.2 info rfl hcompleted)
      | error e => exact ⟨h'.1.1, h'.1.2.broken h.2.1 h.2.2.2 (h'.1.2.bounded h.2)⟩
    refine Safe.bind hi (interrupting_safe hi (fun s hi h => cancelInterruptedRunWait_safe hi h) hget) (fun info s hi h => ?_) fun e s _ h => h
    refine Safe.bind hi (interrupting_safe hi (fun s hi h => cancelInterruptedRunWait_safe hi h) (examineRun_safe (remaining_subset _ _) hi h)) (fun done s hi h => ?_) fun e s _ h => h
    cases done with
    | some done => exact ⟨h.1, h.2.calm⟩
    | none => exact ih info.completed hi h

end Waits

end Orchestrator.LiveWork
