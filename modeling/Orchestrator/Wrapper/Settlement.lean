import Orchestrator.Wrapper.Turn

/-!
Which turns of the wrapper submit one output that keeps what the agent reported.
-/

namespace Orchestrator.Wrapper

open Python
open Projects (AgentType)

variable {rt : Runtime} {cfg : Config} {t : Turn} {w w' v : WorkerWrapper}

def Attached (reported result : WorkerResult) : Prop :=
  ∃ report stdoutTail observability, result = attachMetadata reported report stdoutTail observability

def Settled (leaseId : String) (w w' : WorkerWrapper) : Prop :=
  ∃ result taken, w'.submitted = w.submitted ++ [(leaseId, result)] ∧ w'.accepted = w.accepted ++ taken ∧
    ∀ reported ∈ taken, Attached reported result

def firstReport (requests : List ResultRequest) : Option WorkerResult :=
  (requests.find? ResultRequest.isValid).map toWorkerResult

/-- The server's fields since it had taken `before` in all. -/
structure Hearing (before : List WorkerResult) (w : WorkerWrapper) : Prop where
  event : w.resultEvent = w.bufferedResult.isSome
  accepted : w.accepted = before ++ w.bufferedResult.toList
  requested : ∀ reported, w.bufferedResult = some reported → ∃ request, reported = toWorkerResult request

variable {before : List WorkerResult}

theorem Hearing.reported (h : Hearing before w) : w.reported = w.bufferedResult := by
  unfold WorkerWrapper.reported
  rw [h.event]
  cases w.bufferedResult with
  | none | some reported => rfl

theorem Hearing.handleResult (h : Hearing before w) (request : ResultRequest) :
    Hearing before (handleResult w request) ∧
      (Wrapper.handleResult w request).bufferedResult = w.bufferedResult.or (firstReport [request]) := by
  have hevent := h.event
  unfold Wrapper.handleResult firstReport
  cases hb : w.bufferedResult with
  | some reported =>
    rw [if_pos (by rw [hevent, hb]; rfl)]
    exact ⟨h, hb⟩
  | none =>
    rw [if_neg (by rw [hevent, hb]; exact Bool.false_ne_true)]
    cases hvalid : request.isValid with
    | false =>
      refine ⟨h, ?_⟩
      simp [hb, hvalid]
    | true =>
      have haccepted := h.accepted
      rw [hb] at haccepted
      refine ⟨⟨rfl, ?_, fun reported hr => ⟨request, (Option.some.inj hr).symm⟩⟩, ?_⟩
      · simp [haccepted]
      · simp [hvalid]

theorem firstReport_cons (request : ResultRequest) (rest : List ResultRequest) :
    firstReport (request :: rest) = (firstReport [request]).or (firstReport rest) := by
  unfold firstReport
  cases hvalid : request.isValid with
  | false | true => simp [hvalid]

theorem Hearing.hear (h : Hearing before w) (requests : List ResultRequest) :
    Hearing before (w.hear requests) ∧ (w.hear requests).bufferedResult = w.bufferedResult.or (firstReport requests) := by
  induction requests generalizing w with
  | nil => exact ⟨h, by simp [WorkerWrapper.hear, firstReport]⟩
  | cons request rest ih =>
    obtain ⟨hstep, hbuffered⟩ := h.handleResult request
    obtain ⟨hrest, heq⟩ := ih hstep
    refine ⟨hrest, heq.trans ?_⟩
    rw [hbuffered, Option.or_assoc, ← firstReport_cons]

theorem hear_untouched {V : Type} (view : WorkerWrapper → V) (h : ∀ w request, view (handleResult w request) = view w)
    (w : WorkerWrapper) (requests : List ResultRequest) : view (w.hear requests) = view w :=
  (Act.Untouched.await h ⟨requests, .ok ()⟩ : Act.Untouched view (awaiting (⟨requests, .ok ()⟩ : Step Unit))) w

theorem handleResult_submitted (w : WorkerWrapper) (request : ResultRequest) :
    (handleResult w request).submitted = w.submitted := by
  unfold handleResult
  split
  · rfl
  · split <;> rfl

theorem handleResult_effort (w : WorkerWrapper) (request : ResultRequest) :
    (handleResult w request).effortMetrics = w.effortMetrics := by
  unfold handleResult
  split
  · rfl
  · split <;> rfl

theorem not_settled {leaseId : String} (h : w'.submitted = w.submitted) : ¬ Settled leaseId w w' := by
  rintro ⟨result, taken, hs, -⟩
  rw [h] at hs
  exact absurd (congrArg List.length hs) (by simp)

theorem settled_reported {leaseId : String} {reported : WorkerResult} (h : Hearing w.accepted v)
    (hs : v.submitted = w.submitted) (hb : v.bufferedResult = some reported) (report : Option String) :
    Settled leaseId w (publishReported leaseId reported report v).2 := by
  refine ⟨_, [reported], congrArg (· ++ [(leaseId, attachMetadata reported report v.agentStdoutTail
    v.observabilityMetadata)]) hs, ?_, ?_⟩
  · have ha := h.accepted
    rw [hb] at ha
    exact ha
  · intro r hr
    rw [List.mem_singleton.mp hr]
    exact ⟨_, _, _, rfl⟩

theorem settled_failure_iff {leaseId error : String} {stopReason : Option WorkerStopReason} {limit : Option Int}
    {metadata : Metadata} (h : Hearing w.accepted v) (hs : v.submitted = w.submitted) :
    Settled leaseId w (submitOutput leaseId ⟨.failed error stopReason limit, metadata⟩ v).2 ↔ v.bufferedResult = none := by
  have ha := h.accepted
  constructor
  · rintro ⟨result, taken, hsub, hacc, hattached⟩
    cases hb : v.bufferedResult with
    | none => rfl
    | some reported =>
      have htaken : taken = [reported] := by
        rw [hb] at ha
        exact List.append_cancel_left (hacc.symm.trans ha)
      obtain ⟨report, stdoutTail, observability, hr⟩ := hattached reported (by simp [htaken])
      have hresult : (⟨.failed error stopReason limit, metadata⟩ : WorkerResult) = result := by
        have hlast : v.submitted ++ [(leaseId, ⟨.failed error stopReason limit, metadata⟩)] =
            w.submitted ++ [(leaseId, result)] := hsub
        rw [hs] at hlast
        exact congrArg Prod.snd (List.cons.inj (List.append_cancel_left hlast)).1
      obtain ⟨request, hrequest⟩ := h.requested reported hb
      have houtcome : Outcome.failed error stopReason limit = (toWorkerResult request).outcome := by
        rw [← hrequest]
        exact congrArg WorkerResult.outcome (hresult.trans hr)
      unfold toWorkerResult at houtcome
      cases hsuccess : request.success <;> simp [hsuccess] at houtcome
  · intro hb
    refine ⟨_, [], congrArg (· ++ [(leaseId, _)]) hs, ?_, by simp⟩
    rw [hb] at ha
    exact ha

variable (rt cfg t)

/-- A result is there when the wrapper comes to publish, or it can build a failed one; after a
resume that did not end well nothing may have been reported meanwhile. -/
def Publishable (early : Option WorkerResult) (error : Option String) (effort : Mapping) : Prop :=
  early.isSome = true ∨
    if given error = true ∨ ¬ (cfg.agentType = .claude && !cfg.isQaExecutor) = true then
      (acceptedEffort rt effort).isSome = true
    else match (resumeExecution t.resume).ends with
      | .error _ => False
      | .ok resumed => match firstReport (resumeExecution t.resume).heard with
        | some _ => resumed = true
        | none => (acceptedEffort rt effort).isSome = true

variable {rt cfg t}

theorem workerFailedResult_ok {effort : Effort} (observability : Observability)
    (h : acceptedEffort rt observability.effort = some effort) (error : String) (stopReason : Option WorkerStopReason)
    (limit : Option Int) (stdoutTail : Option String) :
    ∃ metadata, workerFailedResult rt error stopReason limit stdoutTail observability =
      .ok ⟨.failed error stopReason limit, metadata⟩ := by
  unfold workerFailedResult
  rw [h]
  exact ⟨_, rfl⟩

theorem publishFailure_rejected (h : acceptedEffort rt v.effortMetrics = none) (leaseId error : String)
    (stopReason : Option WorkerStopReason) (limit : Option Int) :
    publishFailure rt leaseId error stopReason limit v = (.error (.validationError (rt.rejection v.effortMetrics)), v) := by
  have hraise : workerFailedResult rt error stopReason limit v.agentStdoutTail v.observabilityMetadata =
      .error (.validationError (rt.rejection v.effortMetrics)) := by
    unfold workerFailedResult
    rw [show acceptedEffort rt v.observabilityMetadata.effort = none from h]
    rfl
  unfold publishFailure
  rw [Act.look_bind, id, hraise]
  rfl

theorem publishFailure_accepted {effort : Effort} (h : acceptedEffort rt v.effortMetrics = some effort)
    (leaseId error : String) (stopReason : Option WorkerStopReason) (limit : Option Int) :
    ∃ metadata, publishFailure rt leaseId error stopReason limit v =
      submitOutput leaseId ⟨.failed error stopReason limit, metadata⟩ v := by
  obtain ⟨metadata, hresult⟩ := workerFailedResult_ok v.observabilityMetadata h error stopReason limit
    v.agentStdoutTail
  refine ⟨metadata, ?_⟩
  unfold publishFailure
  rw [Act.look_bind, id, hresult]
  rfl

theorem publishFailure_settled_iff {leaseId error : String} {stopReason : Option WorkerStopReason} {limit : Option Int}
    (h : Hearing w.accepted v) (hs : v.submitted = w.submitted) :
    Settled leaseId w (publishFailure rt leaseId error stopReason limit v).2 ↔
      v.bufferedResult = none ∧ (acceptedEffort rt v.effortMetrics).isSome = true := by
  cases ha : acceptedEffort rt v.effortMetrics with
  | none =>
    rw [publishFailure_rejected ha]
    simp [not_settled hs]
  | some effort =>
    obtain ⟨metadata, heq⟩ := publishFailure_accepted ha leaseId error stopReason limit
    rw [heq, settled_failure_iff h hs]
    simp

theorem bind_pure_state {A B : Type} (x : Turning A) (b : A → B) (w : WorkerWrapper) :
    ((x >>= fun a => pure (b a)) w).2 = (x w).2 := by
  cases h : x w with
  | mk r s => cases r with
    | ok a => rw [Act.bind_ok h]; rfl
    | error e => rw [Act.bind_error h]

theorem resumed_effort (run : ResumeRun) (v : WorkerWrapper) :
    (attemptAutoResume run v).2.effortMetrics = v.effortMetrics := by
  have hhear := hear_untouched (·.effortMetrics) handleResult_effort v (resumeExecution run).heard
  rw [attemptAutoResume_apply]
  cases ht : run.tries with
  | false => simpa only [ht, Bool.false_eq_true, if_false] using hhear
  | true => exact hhear

theorem resumed_submitted (run : ResumeRun) (v : WorkerWrapper) :
    (attemptAutoResume run v).2.submitted = v.submitted := by
  have hhear := hear_untouched (·.submitted) handleResult_submitted v (resumeExecution run).heard
  rw [attemptAutoResume_apply]
  cases ht : run.tries with
  | false => simpa only [ht, Bool.false_eq_true, if_false] using hhear
  | true => exact hhear

theorem Hearing.resume (h : Hearing before v) (run : ResumeRun) :
    Hearing before (v.resume run) := ⟨h.event, h.accepted, h.requested⟩

theorem Hearing.resumed (h : Hearing before v) (hb : v.bufferedResult = none)
    (run : ResumeRun) :
    Hearing before (attemptAutoResume run v).2 ∧
      (attemptAutoResume run v).2.bufferedResult = firstReport (resumeExecution run).heard := by
  obtain ⟨hhear, hbuffered⟩ := h.hear (resumeExecution run).heard
  rw [hb, Option.none_or] at hbuffered
  rw [attemptAutoResume_apply]
  cases ht : run.tries with
  | false => simpa only [ht, Bool.false_eq_true, if_false] using ⟨hhear, hbuffered⟩
  | true => simpa only [ht, if_true] using ⟨hhear.resume run, hbuffered⟩

variable {error : Option String}

variable {status : String}

theorem publishResumed_settled_iff {report : Option String}
    (h : Hearing w.accepted v) (hs : v.submitted = w.submitted) (hb : v.bufferedResult = none) :
    Settled t.leaseId w (publishResumed rt t error status report v).2 ↔
      match (resumeExecution t.resume).ends with
      | .error _ => False
      | .ok resumed => match firstReport (resumeExecution t.resume).heard with
        | some _ => resumed = true
        | none => (acceptedEffort rt v.effortMetrics).isSome = true := by
  obtain ⟨hhearing, hbuffered⟩ := h.resumed hb t.resume
  have hsubmitted := (resumed_submitted t.resume v).trans hs
  have heffort := resumed_effort t.resume v
  unfold publishResumed
  cases hr : (resumeExecution t.resume).ends with
  | error e =>
    have hend : attemptAutoResume t.resume v = (.error e, (attemptAutoResume t.resume v).2) :=
      Prod.ext (by rw [attemptAutoResume_apply]; exact hr) rfl
    rw [Act.bind_error hend]
    simp [not_settled hsubmitted]
  | ok resumed =>
    have hend : attemptAutoResume t.resume v = (.ok resumed, (attemptAutoResume t.resume v).2) :=
      Prod.ext (by rw [attemptAutoResume_apply]; exact hr) rfl
    rw [Act.bind_ok hend, Act.look_bind, hhearing.reported, hbuffered]
    cases hf : firstReport (resumeExecution t.resume).heard with
    | none =>
      have hnone : (if resumed = true then (none : Option WorkerResult) else none) = none := by simp
      simp only [hnone]
      unfold publishWithoutResult
      rw [bind_pure_state _ (fun _ => _), publishFailure_settled_iff hhearing hsubmitted, hbuffered, hf, heffort]
      simp
    | some reported => cases resumed with
      | true =>
        simp only [if_true]
        rw [bind_pure_state _ (fun _ => _)]
        simp [settled_reported hhearing hsubmitted (hbuffered.trans hf)]
      | false =>
        simp only [Bool.false_eq_true, if_false]
        unfold publishWithoutResult
        rw [bind_pure_state _ (fun _ => _), publishFailure_settled_iff hhearing hsubmitted, hbuffered, hf]
        simp

theorem publishResult_settled_iff {report : Option String}
    (h : Hearing w.accepted v) (hs : v.submitted = w.submitted) :
    Settled t.leaseId w (publishResult rt cfg t error status report v).2 ↔
      Publishable rt cfg t v.bufferedResult error v.effortMetrics := by
  unfold publishResult Publishable
  rw [Act.look_bind, id, h.reported]
  cases hb : v.bufferedResult with
  | some reported => simp [bind_pure_state, settled_reported h hs hb]
  | none =>
    cases hg : given error with
    | true => simp [bind_pure_state, publishFailure_settled_iff h hs, hb]
    | false =>
      cases hc : (decide (cfg.agentType = .claude) && !cfg.isQaExecutor) with
      | true =>
        simp only [Bool.false_eq_true, if_false, if_true]
        rw [publishResumed_settled_iff h hs hb]
        simp
      | false =>
        simp only [Bool.false_eq_true, if_false]
        unfold publishWithoutResult
        rw [bind_pure_state _ (fun _ => _), publishFailure_settled_iff h hs]
        simp [hb]

variable (rt cfg t w)

def collectedFile : Option ReportFile :=
  let found := t.pulled.apply w.reportFile
  if (launchAgent cfg t.data t.agent).ends.isOk then t.agent.work.apply found else found

/-- What reading the report answers: `OSError` alone is handled. -/
def collectedReport (file : Option ReportFile) : Except Raised (Option String) :=
  match file with
  | none => .ok none
  | some file => match reportContent t file with
    | .ok content => .ok (some content)
    | .error e => if e.isOSError then .ok none else .error e

def executionError : Option String :=
  match (agentExecution rt cfg t.data t.agent).ends with
  | .ok _ => none
  | .error e => some e.str

def earlyReport : Option WorkerResult :=
  firstReport (t.startServer.heard ++ (agentExecution rt cfg t.data t.agent).heard)

def heldEffort : Mapping := (produced rt cfg t.data t.agent).metrics.getD w.effortMetrics

/-- Once the preparation let the turn through: the server starts, the agent's execution is not
cancelled, reading the report and archiving the task raise nothing, and there is something to publish. -/
structure Settleable : Prop where
  started : t.startServer.ends = .ok ()
  handled : ∀ e, (agentExecution rt cfg t.data t.agent).ends = .error e → e.isException = true
  collected : ∃ report, collectedReport t (collectedFile cfg t w) = .ok report ∧
    (cfg.isQaExecutor = true ∨ archiveTask rt t report = .ok ())
  publishable : Publishable rt cfg t (earlyReport rt cfg t) (executionError rt cfg t) (heldEffort rt cfg t w)

def Reportable : Prop :=
  match preparation rt cfg t with
  | .error _ => False
  | .ok (some _) => True
  | .ok none => Settleable rt cfg t w

variable {rt cfg t w}

def stopped (ended : Except Raised Unit) (w : WorkerWrapper) : WorkerWrapper :=
  match ended with
  | .error (.agentTurnLimitExceeded limitSeconds) =>
    { w with stopReason := some .agentLimitExceeded, agentLimitSeconds := some limitSeconds }
  | _ => w

theorem stopped_view {V : Type} (view : WorkerWrapper → V)
    (h : ∀ w stopReason limit, view { w with stopReason := stopReason, agentLimitSeconds := limit } = view w)
    (ended : Except Raised Unit) (w : WorkerWrapper) : view (stopped ended w) = view w := by
  unfold stopped
  split
  · exact h w _ _
  · rfl

def leftFile (t : Turn) (file : Option ReportFile) : Option ReportFile :=
  file.bind fun file => match reportContent t file with
    | .ok _ => none
    | .error _ => some file

theorem readWorkerReport_apply (t : Turn) (w : WorkerWrapper) :
    readWorkerReport t w = (collectedReport t w.reportFile, { w with reportFile := leftFile t w.reportFile }) := by
  unfold readWorkerReport collectedReport leftFile
  rw [Act.look_bind]
  cases hf : w.reportFile with
  | none =>
    have hw : { w with reportFile := none } = w := by rw [← hf]
    exact Prod.ext rfl hw.symm
  | some file =>
    have hw : { w with reportFile := some file } = w := by rw [← hf]
    cases hc : reportContent t file with
    | ok content => simp only [Option.bind_some, hc]; rfl
    | error e =>
      simp only [Option.bind_some, hc]
      rw [hw]
      cases he : e.isOSError with
      | true | false => rfl

theorem executionOutcome_raised {e : Raised} (h : e.isException = false) (w : WorkerWrapper) :
    executionOutcome (.error e) w = (.error e, w) := by
  cases e with
  | cancelledError => rfl
  | _ => cases h

theorem executionOutcome_handled (hhandled : ∀ e, (agentExecution rt cfg t.data t.agent).ends = .error e → e.isException = true)
    (w : WorkerWrapper) :
    ∃ status, executionOutcome (agentExecution rt cfg t.data t.agent).ends w =
      (.ok (status, executionError rt cfg t), stopped (agentExecution rt cfg t.data t.agent).ends w) := by
  unfold executionError
  cases hended : (agentExecution rt cfg t.data t.agent).ends with
  | ok u => exact ⟨"completed", rfl⟩
  | error e =>
    have he := hhandled e hended
    cases e with
    | cancelledError => cases he
    | _ => exact ⟨"failed", rfl⟩

def executed (rt : Runtime) (cfg : Config) (t : Turn) (w : WorkerWrapper) : WorkerWrapper :=
  (w.hear (t.startServer.heard ++ (agentExecution rt cfg t.data t.agent).heard)).record (produced rt cfg t.data t.agent)
    t.agent.work

theorem executeAgent_started (rt : Runtime) (cfg : Config) (t : Turn) (w : WorkerWrapper) :
    executeAgent rt cfg t.data t.agent (w.hear t.startServer.heard) =
      ((agentExecution rt cfg t.data t.agent).ends, executed rt cfg t w) := by
  rw [executeAgent_apply, ← hear_append]
  rfl

def concluded (rt : Runtime) (cfg : Config) (t : Turn) (w : WorkerWrapper) : WorkerWrapper :=
  stopped (agentExecution rt cfg t.data t.agent).ends (executed rt cfg t w)

theorem serveTurn_handled (hstart : t.startServer.ends = .ok ())
    (hhandled : ∀ e, (agentExecution rt cfg t.data t.agent).ends = .error e → e.isException = true) (w : WorkerWrapper) :
    ∃ status, serveTurn rt cfg t w = reportTurn rt cfg t (executionError rt cfg t) status (concluded rt cfg t w) := by
  obtain ⟨status, houtcome⟩ := executionOutcome_handled hhandled (executed rt cfg t w)
  refine ⟨status, ?_⟩
  unfold serveTurn
  rw [Act.bind_ok (by rw [awaiting_apply, hstart]), Act.attempt_bind, executeAgent_started, Act.bind_ok houtcome]
  rfl

theorem serveTurn_interrupted
    (h : ¬ (t.startServer.ends = .ok () ∧
      ∀ e, (agentExecution rt cfg t.data t.agent).ends = .error e → e.isException = true)) (w : WorkerWrapper) :
    (serveTurn rt cfg t w).2.submitted = w.submitted := by
  unfold serveTurn
  cases hs : t.startServer.ends with
  | error e =>
    rw [Act.bind_error (by rw [awaiting_apply, hs])]
    exact hear_untouched (·.submitted) handleResult_submitted w t.startServer.heard
  | ok u =>
    rw [hs] at h
    push Not at h
    obtain ⟨e, he, hraised⟩ := h rfl
    rw [Act.bind_ok (by rw [awaiting_apply, hs]), Act.attempt_bind, executeAgent_started, he,
      Act.bind_error (executionOutcome_raised (by simpa using hraised) _)]
    exact hear_untouched (·.submitted) handleResult_submitted w _

theorem reportTurn_settled_iff (h : Hearing w.accepted v)
    (hs : v.submitted = w.submitted) :
    Settled t.leaseId w (reportTurn rt cfg t error status v).2 ↔
      (∃ report, collectedReport t v.reportFile = .ok report ∧
        (cfg.isQaExecutor = true ∨ archiveTask rt t report = .ok ())) ∧
      Publishable rt cfg t v.bufferedResult error v.effortMetrics := by
  have hread := readWorkerReport_apply t v
  have hhearing : Hearing w.accepted { v with reportFile := leftFile t v.reportFile } := ⟨h.event, h.accepted, h.requested⟩
  have hunsettled : ¬ Settled t.leaseId w { v with reportFile := leftFile t v.reportFile } := not_settled hs
  unfold reportTurn
  cases hr : collectedReport t v.reportFile with
  | error e =>
    rw [hr] at hread
    rw [Act.bind_error hread]
    simp [hunsettled]
  | ok report =>
    rw [hr] at hread
    rw [Act.bind_ok hread]
    have hpublish : Settled t.leaseId w (publishResult rt cfg t error status report
        { v with reportFile := leftFile t v.reportFile }).2 ↔
          Publishable rt cfg t v.bufferedResult error v.effortMetrics := publishResult_settled_iff hhearing hs
    cases hq : cfg.isQaExecutor with
    | true =>
      simp only [if_true]
      rw [bind_pure_state _ (fun _ => _), hpublish]
      simp
    | false =>
      cases ha : archiveTask rt t report with
      | error e =>
        simp only [Bool.false_eq_true, if_false]
        rw [Act.bind_error (Act.ofExcept_apply _ _)]
        simp [hunsettled, ha]
      | ok u =>
        simp only [Bool.false_eq_true, if_false]
        rw [Act.bind_ok (Act.ofExcept_apply _ _), bind_pure_state _ (fun _ => _), hpublish]
        simp [ha]

def served (t : Turn) (w : WorkerWrapper) : WorkerWrapper :=
  { w with
    stopReason := none
    agentLimitSeconds := none
    reportFile := t.pulled.apply w.reportFile
    resultEvent := false
    bufferedResult := none }

theorem served_hearing (t : Turn) (w : WorkerWrapper) : Hearing w.accepted (served t w) :=
  ⟨rfl, (List.append_nil _).symm, fun _ h => by cases h⟩

theorem produced_launched (rt : Runtime) (cfg : Config) (data : Mapping) (run : AgentRun) :
    (produced rt cfg data run).launched = (launchAgent cfg data run).ends.isOk := by
  unfold produced
  cases ho : (agentOutput cfg data run).ends with
  | error e => rfl
  | ok output =>
    rw [launched_of_output ho]
    show (producedBy rt cfg run output).launched = true
    unfold producedBy
    cases extractEffortMetrics rt cfg output.stdout with
    | error e => rfl
    | ok metrics => cases saveTranscript run.artifact <;> rfl

theorem concluded_hearing (rt : Runtime) (cfg : Config) (t : Turn) (w : WorkerWrapper) :
    Hearing w.accepted (concluded rt cfg t (served t w)) ∧
      (concluded rt cfg t (served t w)).bufferedResult = earlyReport rt cfg t := by
  obtain ⟨hhear, hbuffered⟩ := (served_hearing t w).hear
    (t.startServer.heard ++ (agentExecution rt cfg t.data t.agent).heard)
  unfold concluded
  have hevent := stopped_view (·.resultEvent) (fun _ _ _ => rfl) (agentExecution rt cfg t.data t.agent).ends
    (executed rt cfg t (served t w))
  have hbuffer := stopped_view (·.bufferedResult) (fun _ _ _ => rfl) (agentExecution rt cfg t.data t.agent).ends
    (executed rt cfg t (served t w))
  have haccepted := stopped_view (·.accepted) (fun _ _ _ => rfl) (agentExecution rt cfg t.data t.agent).ends
    (executed rt cfg t (served t w))
  refine ⟨⟨?_, ?_, ?_⟩, hbuffer.trans hbuffered⟩
  · rw [hevent, hbuffer]
    exact hhear.event
  · rw [haccepted, hbuffer]
    exact hhear.accepted
  · rw [hbuffer]
    exact hhear.requested

theorem concluded_submitted (rt : Runtime) (cfg : Config) (t : Turn) (w : WorkerWrapper) :
    (concluded rt cfg t w).submitted = w.submitted :=
  (stopped_view (·.submitted) (fun _ _ _ => rfl) _ _).trans (hear_untouched (·.submitted) handleResult_submitted w _)

theorem concluded_effort (rt : Runtime) (cfg : Config) (t : Turn) (w : WorkerWrapper) :
    (concluded rt cfg t (served t w)).effortMetrics = heldEffort rt cfg t w := by
  have hhear := hear_untouched (·.effortMetrics) handleResult_effort (served t w)
    (t.startServer.heard ++ (agentExecution rt cfg t.data t.agent).heard)
  exact (stopped_view (·.effortMetrics) (fun _ _ _ => rfl) _ _).trans
    (congrArg ((produced rt cfg t.data t.agent).metrics.getD ·) hhear)

theorem handleResult_reportFile (w : WorkerWrapper) (request : ResultRequest) :
    (handleResult w request).reportFile = w.reportFile := by
  unfold handleResult
  split
  · rfl
  · split <;> rfl

theorem concluded_reportFile (rt : Runtime) (cfg : Config) (t : Turn) (w : WorkerWrapper) :
    (concluded rt cfg t (served t w)).reportFile = collectedFile cfg t w := by
  have hhear := hear_untouched (·.reportFile) handleResult_reportFile (served t w)
    (t.startServer.heard ++ (agentExecution rt cfg t.data t.agent).heard)
  refine (stopped_view (·.reportFile) (fun _ _ _ => rfl) _ _).trans ?_
  unfold executed WorkerWrapper.record collectedFile
  rw [produced_launched, show ((served t w).hear _).reportFile = t.pulled.apply w.reportFile from hhear]

theorem serveTurn_settled_iff :
    Settled t.leaseId w (serveTurn rt cfg t (served t w)).2 ↔ Settleable rt cfg t w := by
  by_cases hinterrupted : t.startServer.ends = .ok () ∧
      ∀ e, (agentExecution rt cfg t.data t.agent).ends = .error e → e.isException = true
  · obtain ⟨hstart, hhandled⟩ := hinterrupted
    obtain ⟨status, hserve⟩ := serveTurn_handled hstart hhandled (served t w)
    obtain ⟨hhearing, hbuffered⟩ := concluded_hearing rt cfg t w
    have hsubmitted : (concluded rt cfg t (served t w)).submitted = w.submitted := concluded_submitted rt cfg t (served t w)
    rw [hserve, reportTurn_settled_iff hhearing hsubmitted, concluded_reportFile, hbuffered, concluded_effort]
    exact ⟨fun ⟨hcollected, hpublishable⟩ => ⟨hstart, hhandled, hcollected, hpublishable⟩,
      fun h => ⟨h.collected, h.publishable⟩⟩
  · have hsubmitted : (serveTurn rt cfg t (served t w)).2.submitted = w.submitted :=
      serveTurn_interrupted hinterrupted (served t w)
    exact iff_of_false (not_settled hsubmitted) fun h => hinterrupted ⟨h.started, h.handled⟩

/-- A turn submits one output that keeps what the agent reported exactly when it is refused before
the server is there, or its server starts, its agent is not cancelled, its report and task can be
read as text, and nothing is reported to a resume that fails while the numbers of a failed result are accepted. -/
theorem turn_settled_iff (rt : Runtime) (cfg : Config) (t : Turn) (w : WorkerWrapper) :
    Settled t.leaseId w (processMessage rt cfg t w).2 ↔ Reportable rt cfg t w := by
  unfold processMessage runTurn Reportable
  rw [Act.update_bind, Act.update_bind]
  cases hp : preparation rt cfg t with
  | error e =>
    rw [Act.bind_error (Act.ofExcept_apply _ _)]
    exact iff_of_false (not_settled rfl) id
  | ok refusal =>
    rw [Act.bind_ok (Act.ofExcept_apply _ _)]
    cases refusal with
    | some error =>
      refine iff_of_true ⟨plainFailure error, [], rfl, (List.append_nil _).symm, by simp⟩ trivial
    | none =>
      simp only [Act.update_bind]
      rw [Act.ensuring_state]
      exact serveTurn_settled_iff

def plainRuntime : Runtime where
  jsonObjects _ := .ok []
  acceptInt value := match value with
    | .int n => some n
    | _ => none
  acceptFloat value := match value with
    | .float x => some x
    | _ => none
  rejection _ := "validation error"
  render _ := ""
  reprList _ := "[]"

def quietAgent (text : String) (heard : List ResultRequest) (work : ReportChange) : AgentRun where
  getSession := pure none
  uuid4 := "5f0c"
  setSession := pure ()
  spawn := pure ()
  work := work
  communicate := ⟨heard, .ok ⟨.ok text, .ok ""⟩⟩
  killpg := .ok ()
  wait := pure ()
  remainder := pure .nothing
  artifact := .error (.osError "read-only file system")
  returncode := 0
  capturedSessionId := .ok none
  setCaptured := pure ()

def quietTurn (leaseId prompt : String) (agent : AgentRun) : Turn where
  leaseId := leaseId
  data := [("prompt", .text prompt)]
  updateStatus := .ok ()
  gitPull := .ok ()
  pulled := .kept
  writeTaskMd := .ok ()
  writeStoryMd := .ok ()
  clearSession := .ok ()
  workspace := ⟨false, false, false, false, none⟩
  fixVenvPaths := .ok ()
  makefile := ⟨false, .ok "", .ok ()⟩
  startServer := pure ()
  agent := agent
  openReport := .ok ()
  removeReport := .ok ()
  archive := ⟨false, .ok "", .ok (), .ok (), fun _ _ => .ok ()⟩
  resume := ⟨pure none, pure (), .kept, pure .nothing, .ok (), pure ()⟩
  stopServer := .ok ()

def otherEncoding : Turn := quietTurn "1-0" "Add the endpoint"
  (quietAgent "done" [⟨true, some "8be5a4d", some "Endpoint added", none⟩] (.written (.error "invalid start byte")))

def noopConfig : Config := ⟨.noop, false, 3600⟩

/-- The report the server took is lost with the turn. -/
theorem undecodable_report_unsettled :
    (processMessage plainRuntime noopConfig otherEncoding (.start none)).2.accepted =
        [toWorkerResult ⟨true, some "8be5a4d", some "Endpoint added", none⟩] ∧
      ¬ Settled otherEncoding.leaseId (.start none)
        (processMessage plainRuntime noopConfig otherEncoding (.start none)).2 := by
  have hsubmitted : (processMessage plainRuntime noopConfig otherEncoding (.start none)).2.submitted = [] := by rfl
  exact ⟨by rfl, not_settled hsubmitted⟩

end Orchestrator.Wrapper
