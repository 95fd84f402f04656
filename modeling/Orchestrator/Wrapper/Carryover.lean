import Orchestrator.Results
import Orchestrator.Wrapper.Settlement

/-!
Whose metadata an output carries, over the turns of one wrapper.
-/

namespace Orchestrator.Wrapper

open Python
open Projects (AgentType)

variable {rt : Runtime} {cfg : Config} {t : Turn} {w v : WorkerWrapper}

variable (rt cfg t)

/-- What the agent of the turn left in `REPORT.md`. -/
def writtenReport : Option ReportFile :=
  if (launchAgent cfg t.data t.agent).ends.isOk then t.agent.work.apply none else none

def OwnTail (tail : Option String) : Prop :=
  tail = none ∨ tail = (produced rt cfg t.data t.agent).tail.getD none ∨
    ∃ texts, (resumeOutput t.resume).ends = .ok texts ∧
      tail = resumedTail ((produced rt cfg t.data t.agent).tail.getD none) texts.1 texts.2

def OwnEffort (effort : Effort) : Prop :=
  effort = ⟨.none, .none, .none, .none⟩ ∨
    ∃ metrics, (produced rt cfg t.data t.agent).metrics = some metrics ∧
      (effort = ⟨valueAt metrics "input_tokens", valueAt metrics "output_tokens", valueAt metrics "total_tokens",
        valueAt metrics "cost_usd"⟩ ∨ acceptedEffort rt metrics = some effort)

def Metadata.effort (m : Metadata) : Effort := ⟨m.inputTokens, m.outputTokens, m.totalTokens, m.costUsd⟩

structure Own (result : WorkerResult) : Prop where
  report : result.metadata.workerReport = none ∨
    ∃ text, writtenReport cfg t = some (.ok text) ∧ result.metadata.workerReport = some text
  tail : OwnTail rt cfg t result.metadata.agentStdoutTail
  effort : OwnEffort rt cfg t result.metadata.effort
  transcript : (result.metadata.transcriptPath = none ∧ result.metadata.transcriptTruncated = none) ∨
    ∃ saved, (produced rt cfg t.data t.agent).transcript = some saved ∧
      result.metadata.transcriptPath = saved.1 ∧ result.metadata.transcriptTruncated = some saved.2
  stop : ∀ error stopReason limit, result.outcome = .failed error stopReason limit →
    (stopReason = none ∧ limit = none) ∨
      ∃ limitSeconds, (agentExecution rt cfg t.data t.agent).ends = .error (.agentTurnLimitExceeded limitSeconds) ∧
        stopReason = some .agentLimitExceeded ∧ limit = some limitSeconds

/-- What the wrapper holds of earlier turns, the agent of this one replaces: its execution gets as
far as recording each field the wrapper has a value in, and a result it reports comes with its own
`REPORT.md` or none. -/
structure Replaced (w : WorkerWrapper) : Prop where
  metrics : (produced rt cfg t.data t.agent).metrics.isSome = true ∨ w.effortMetrics = []
  transcript : (produced rt cfg t.data t.agent).transcript.isSome = true ∨ w.transcriptPath = none
  tail : (produced rt cfg t.data t.agent).tail.isSome = true ∨ w.agentStdoutTail = none
  report : (earlyReport rt cfg t).isSome = true ∨ (firstReport (resumeExecution t.resume).heard).isSome = true →
    collectedFile cfg t w = writtenReport cfg t

def Publishes (w : WorkerWrapper) : Prop :=
  preparation rt cfg t = .ok none ∧ t.startServer.ends = .ok () ∧
    (∀ e, (agentExecution rt cfg t.data t.agent).ends = .error e → e.isException = true) ∧
    ∃ report, collectedReport t (collectedFile cfg t w) = .ok report ∧
      (cfg.isQaExecutor = true ∨ archiveTask rt t report = .ok ())

variable {rt cfg t}

structure Carries (rt : Runtime) (cfg : Config) (t : Turn) (v : WorkerWrapper) : Prop where
  effort : v.effortMetrics = (produced rt cfg t.data t.agent).metrics.getD []
  path : v.transcriptPath = ((produced rt cfg t.data t.agent).transcript.map Prod.fst).getD none
  truncated : v.transcriptPath ≠ none →
    v.transcriptTruncated = (produced rt cfg t.data t.agent).transcript.map Prod.snd
  tail : OwnTail rt cfg t v.agentStdoutTail

theorem Carries.observed (h : Carries rt cfg t v) :
    v.observabilityMetadata.transcript = none ∨
      ∃ saved path, (produced rt cfg t.data t.agent).transcript = some saved ∧ saved.1 = some path ∧
        v.observabilityMetadata.transcript = some (path, some saved.2) := by
  unfold WorkerWrapper.observabilityMetadata
  have hpath := h.path
  have htruncated := h.truncated
  cases hv : v.transcriptPath with
  | none => exact Or.inl rfl
  | some path =>
    by_cases hg : given (some path) = true
    · refine Or.inr ?_
      rw [hv] at hpath htruncated
      cases hs : (produced rt cfg t.data t.agent).transcript with
      | none =>
        rw [hs] at hpath
        cases hpath
      | some saved =>
        rw [hs] at hpath htruncated
        refine ⟨saved, path, rfl, hpath.symm, ?_⟩
        simp only [if_pos hg, Option.map_some, htruncated (by simp)]
    · exact Or.inl (if_neg hg)

theorem Carries.own_effort (h : Carries rt cfg t v) :
    OwnEffort rt cfg t ⟨valueAt v.effortMetrics "input_tokens", valueAt v.effortMetrics "output_tokens",
      valueAt v.effortMetrics "total_tokens", valueAt v.effortMetrics "cost_usd"⟩ := by
  have heffort := h.effort
  cases hm : (produced rt cfg t.data t.agent).metrics with
  | none =>
    rw [hm] at heffort
    rw [heffort]
    exact Or.inl rfl
  | some metrics =>
    rw [hm] at heffort
    rw [heffort]
    exact Or.inr ⟨metrics, hm, Or.inl rfl⟩

theorem Carries.accepted_effort (h : Carries rt cfg t v) {effort : Effort}
    (ha : acceptedEffort rt v.effortMetrics = some effort) : OwnEffort rt cfg t effort := by
  have heffort := h.effort
  cases hm : (produced rt cfg t.data t.agent).metrics with
  | none =>
    rw [hm] at heffort
    rw [heffort] at ha
    exact Or.inl (Option.some.inj ha).symm
  | some metrics =>
    rw [hm] at heffort
    rw [heffort] at ha
    exact Or.inr ⟨metrics, hm, Or.inr ha⟩

variable {report : Option String}

theorem Carries.attached (h : Carries rt cfg t v)
    (hreport : given report = true → ∃ text, writtenReport cfg t = some (.ok text) ∧ report = some text)
    (request : ResultRequest) :
    Own rt cfg t (attachMetadata (toWorkerResult request) report v.agentStdoutTail v.observabilityMetadata) := by
  have hempty : (toWorkerResult request).metadata = .empty := by
    unfold toWorkerResult
    cases request.success <;> rfl
  refine ⟨?_, ?_, ?_, ?_, ?_⟩
  · by_cases hg : given report = true
    · obtain ⟨text, hwritten, rfl⟩ := hreport hg
      exact Or.inr ⟨text, hwritten, if_pos hg⟩
    · refine Or.inl ?_
      show (if given report then report else (toWorkerResult request).metadata.workerReport) = none
      rw [if_neg hg, hempty]
      rfl
  · show OwnTail rt cfg t (if given v.agentStdoutTail then v.agentStdoutTail else
      (toWorkerResult request).metadata.agentStdoutTail)
    by_cases hg : given v.agentStdoutTail = true
    · rw [if_pos hg]
      exact h.tail
    · rw [if_neg hg, hempty]
      exact Or.inl rfl
  · have heffort := h.own_effort
    unfold valueAt at heffort
    unfold attachMetadata
    rw [hempty]
    exact heffort
  · unfold attachMetadata
    rw [hempty]
    rcases h.observed with hnone | ⟨saved, path, hsaved, hpath, hobserved⟩
    · rw [hnone]
      exact Or.inl ⟨rfl, rfl⟩
    · rw [hobserved]
      exact Or.inr ⟨saved, hsaved, hpath.symm, rfl⟩
  · intro error stopReason limit houtcome
    have hkind : (toWorkerResult request).outcome = .failed error stopReason limit := houtcome
    unfold toWorkerResult at hkind
    cases hs : request.success <;> simp [hs] at hkind

theorem Carries.failed (h : Carries rt cfg t v) {error : String} {stopReason : Option WorkerStopReason}
    {limit : Option Int} {result : WorkerResult}
    (hstop : (stopReason = none ∧ limit = none) ∨
      ∃ limitSeconds, (agentExecution rt cfg t.data t.agent).ends = .error (.agentTurnLimitExceeded limitSeconds) ∧
        stopReason = some .agentLimitExceeded ∧ limit = some limitSeconds)
    (hresult : workerFailedResult rt error stopReason limit v.agentStdoutTail v.observabilityMetadata = .ok result) :
    Own rt cfg t result := by
  unfold workerFailedResult at hresult
  cases ha : acceptedEffort rt v.observabilityMetadata.effort with
  | none =>
    rw [ha] at hresult
    cases hresult
  | some effort =>
    rw [ha] at hresult
    cases hresult
    refine ⟨Or.inl rfl, h.tail, h.accepted_effort ha, ?_, ?_⟩
    · rcases h.observed with hnone | ⟨saved, path, hsaved, hpath, hobserved⟩
      · rw [hnone]
        exact Or.inl ⟨rfl, rfl⟩
      · rw [hobserved]
        exact Or.inr ⟨saved, hsaved, hpath.symm, rfl⟩
    · intro error' stopReason' limit' houtcome
      cases houtcome
      exact hstop

/-- A step adds at most one output, for the lease and with `P`. -/
def Submits (leaseId : String) (P : WorkerResult → Prop) (v v' : WorkerWrapper) : Prop :=
  v'.submitted = v.submitted ∨ ∃ result, v'.submitted = v.submitted ++ [(leaseId, result)] ∧ P result

theorem publishFailure_submits {leaseId error : String} {stopReason : Option WorkerStopReason} {limit : Option Int}
    {P : WorkerResult → Prop}
    (h : ∀ result, workerFailedResult rt error stopReason limit v.agentStdoutTail v.observabilityMetadata = .ok result →
      P result) :
    Submits leaseId P v (publishFailure rt leaseId error stopReason limit v).2 := by
  unfold publishFailure
  rw [Act.look_bind, id]
  cases hr : workerFailedResult rt error stopReason limit v.agentStdoutTail v.observabilityMetadata with
  | error e => exact Or.inl rfl
  | ok result => exact Or.inr ⟨result, rfl, h result hr⟩

theorem handleResult_output (w : WorkerWrapper) (request : ResultRequest) :
    ((handleResult w request).transcriptPath, (handleResult w request).transcriptTruncated,
      (handleResult w request).agentStdoutTail) = (w.transcriptPath, w.transcriptTruncated, w.agentStdoutTail) := by
  unfold handleResult
  split
  · rfl
  · split <;> rfl

theorem Carries.resumed (h : Carries rt cfg t v) (htail : v.agentStdoutTail = (produced rt cfg t.data t.agent).tail.getD none) :
    Carries rt cfg t (attemptAutoResume t.resume v).2 := by
  have hpath := hear_untouched (fun w => (w.transcriptPath, w.transcriptTruncated, w.agentStdoutTail))
    handleResult_output v (resumeExecution t.resume).heard
  simp only [Prod.mk.injEq] at hpath
  obtain ⟨hp, htr, hta⟩ := hpath
  refine ⟨(resumed_effort t.resume v).trans h.effort, ?_, ?_, ?_⟩
  all_goals
    rw [attemptAutoResume_apply]
    cases ht : t.resume.tries
  · simpa only [Bool.false_eq_true, if_false, hp] using h.path
  · exact hp.trans h.path
  · simpa only [Bool.false_eq_true, if_false, hp, htr] using h.truncated
  · exact fun hne => htr.trans (h.truncated (by rw [← hp]; exact hne))
  · simpa only [Bool.false_eq_true, if_false, hta] using h.tail
  · simp only [if_true, WorkerWrapper.resume, hta]
    cases ho : (resumeOutput t.resume).ends with
    | error e => exact h.tail
    | ok texts => exact Or.inr (Or.inr ⟨texts, ho, by rw [htail]⟩)

variable {error : Option String}

variable {status : String}

theorem publishResumed_submits
    (h : Carries rt cfg t v) (htail : v.agentStdoutTail = (produced rt cfg t.data t.agent).tail.getD none)
    {before : List WorkerResult} (hhearing : Hearing before v) (hb : v.bufferedResult = none)
    (hreport : (firstReport (resumeExecution t.resume).heard).isSome = true → given report = true →
      ∃ text, writtenReport cfg t = some (.ok text) ∧ report = some text) :
    Submits t.leaseId (Own rt cfg t) v (publishResumed rt t error status report v).2 := by
  have hcarries := h.resumed htail
  have hsubmitted := resumed_submitted t.resume v
  obtain ⟨hafter, hbuffered⟩ := hhearing.resumed hb t.resume
  have hfailure : Submits t.leaseId (Own rt cfg t) v
      (publishFailure rt t.leaseId "Agent exited without reporting result" none none (attemptAutoResume t.resume v).2).2 := by
    have hsubmits : Submits t.leaseId (Own rt cfg t) (attemptAutoResume t.resume v).2
        (publishFailure rt t.leaseId "Agent exited without reporting result" none none (attemptAutoResume t.resume v).2).2 :=
      publishFailure_submits fun result hr => hcarries.failed (Or.inl ⟨rfl, rfl⟩) hr
    unfold Submits at hsubmits ⊢
    rw [hsubmitted] at hsubmits
    exact hsubmits
  unfold publishResumed
  cases hr : (resumeExecution t.resume).ends with
  | error e =>
    have hend : attemptAutoResume t.resume v = (.error e, (attemptAutoResume t.resume v).2) :=
      Prod.ext (by rw [attemptAutoResume_apply]; exact hr) rfl
    rw [Act.bind_error hend]
    exact Or.inl hsubmitted
  | ok resumed =>
    have hend : attemptAutoResume t.resume v = (.ok resumed, (attemptAutoResume t.resume v).2) :=
      Prod.ext (by rw [attemptAutoResume_apply]; exact hr) rfl
    rw [Act.bind_ok hend, Act.look_bind, hafter.reported]
    cases hu : (if resumed = true then (attemptAutoResume t.resume v).2.bufferedResult else none) with
    | none =>
      unfold publishWithoutResult
      simp only
      rw [bind_pure_state _ (fun _ => _)]
      exact hfailure
    | some reported =>
      have hreported : (attemptAutoResume t.resume v).2.bufferedResult = some reported := by
        cases resumed with
        | true => exact hu
        | false => cases hu
      obtain ⟨request, rfl⟩ := hafter.requested reported hreported
      have hreport' : given report = true → ∃ text, writtenReport cfg t = some (.ok text) ∧ report = some text :=
        hreport (by rw [← hbuffered, hreported]; rfl)
      have hown := hcarries.attached hreport' request
      simp only
      rw [bind_pure_state _ (fun _ => _)]
      refine Or.inr ⟨_, ?_, hown⟩
      exact congrArg (· ++ [(t.leaseId, _)]) hsubmitted

theorem publishResult_submits
    (h : Carries rt cfg t v) (htail : v.agentStdoutTail = (produced rt cfg t.data t.agent).tail.getD none)
    (hstop : (v.stopReason = none ∧ v.agentLimitSeconds = none) ∨
      ∃ limitSeconds, (agentExecution rt cfg t.data t.agent).ends = .error (.agentTurnLimitExceeded limitSeconds) ∧
        v.stopReason = some .agentLimitExceeded ∧ v.agentLimitSeconds = some limitSeconds)
    {before : List WorkerResult} (hhearing : Hearing before v)
    (hreport : v.bufferedResult.isSome = true ∨ (firstReport (resumeExecution t.resume).heard).isSome = true →
      given report = true → ∃ text, writtenReport cfg t = some (.ok text) ∧ report = some text) :
    Submits t.leaseId (Own rt cfg t) v (publishResult rt cfg t error status report v).2 := by
  unfold publishResult
  rw [Act.look_bind, id, hhearing.reported]
  cases hb : v.bufferedResult with
  | some reported =>
    obtain ⟨request, rfl⟩ := hhearing.requested reported hb
    simp only
    rw [bind_pure_state _ (fun _ => _)]
    exact Or.inr ⟨_, rfl, h.attached (hreport (Or.inl (by rw [hb]; rfl))) request⟩
  | none =>
    simp only
    cases hg : given error with
    | true =>
      simp only [if_true]
      rw [bind_pure_state _ (fun _ => _)]
      exact publishFailure_submits fun result hr => h.failed hstop hr
    | false =>
      simp only [Bool.false_eq_true, if_false]
      cases hc : (decide (cfg.agentType = .claude) && !cfg.isQaExecutor) with
      | true =>
        simp only [if_true]
        exact publishResumed_submits h htail hhearing hb fun hresume => hreport (Or.inr hresume)
      | false =>
        simp only [Bool.false_eq_true, if_false]
        unfold publishWithoutResult
        rw [bind_pure_state _ (fun _ => _)]
        exact publishFailure_submits fun result hr => h.failed (Or.inl ⟨rfl, rfl⟩) hr

theorem concluded_output (rt : Runtime) (cfg : Config) (t : Turn) (w : WorkerWrapper) :
    (concluded rt cfg t (served t w)).transcriptPath =
        ((produced rt cfg t.data t.agent).transcript.map Prod.fst).getD w.transcriptPath ∧
      (concluded rt cfg t (served t w)).transcriptTruncated =
        ((produced rt cfg t.data t.agent).transcript.map fun saved => some saved.2).getD w.transcriptTruncated ∧
      (concluded rt cfg t (served t w)).agentStdoutTail =
        (produced rt cfg t.data t.agent).tail.getD w.agentStdoutTail := by
  have hhear := hear_untouched (fun w => (w.transcriptPath, w.transcriptTruncated, w.agentStdoutTail)) handleResult_output
    (served t w) (t.startServer.heard ++ (agentExecution rt cfg t.data t.agent).heard)
  simp only [Prod.mk.injEq] at hhear
  obtain ⟨hpath, htruncated, htail⟩ := hhear
  refine ⟨?_, ?_, ?_⟩
  · exact (stopped_view (·.transcriptPath) (fun _ _ _ => rfl) _ _).trans (congrArg (Option.getD _ ·) hpath)
  · exact (stopped_view (·.transcriptTruncated) (fun _ _ _ => rfl) _ _).trans (congrArg (Option.getD _ ·) htruncated)
  · exact (stopped_view (·.agentStdoutTail) (fun _ _ _ => rfl) _ _).trans (congrArg (Option.getD _ ·) htail)

theorem concluded_carries (h : Replaced rt cfg t w) : Carries rt cfg t (concluded rt cfg t (served t w)) ∧
    (concluded rt cfg t (served t w)).agentStdoutTail = (produced rt cfg t.data t.agent).tail.getD none := by
  obtain ⟨hpath, htruncated, htail⟩ := concluded_output rt cfg t w
  have htail' : (concluded rt cfg t (served t w)).agentStdoutTail = (produced rt cfg t.data t.agent).tail.getD none := by
    rw [htail]
    rcases h.tail with hsome | hnone
    · obtain ⟨tail, hp⟩ := Option.isSome_iff_exists.mp hsome
      rw [hp]
      rfl
    · rw [hnone]
  refine ⟨⟨?_, ?_, ?_, Or.inr (Or.inl htail')⟩, htail'⟩
  · rw [concluded_effort]
    unfold heldEffort
    rcases h.metrics with hsome | hnone
    · obtain ⟨metrics, hp⟩ := Option.isSome_iff_exists.mp hsome
      rw [hp]
      rfl
    · rw [hnone]
  · rw [hpath]
    rcases h.transcript with hsome | hnone
    · obtain ⟨saved, hp⟩ := Option.isSome_iff_exists.mp hsome
      rw [hp]
      rfl
    · rw [hnone]
  · intro hne
    rw [htruncated]
    cases hp : (produced rt cfg t.data t.agent).transcript with
    | some saved => rfl
    | none =>
      rcases h.transcript with hsome | hnone
      · rw [hp] at hsome
        cases hsome
      · rw [hpath, hp] at hne
        exact absurd hnone hne

theorem handleResult_stop (w : WorkerWrapper) (request : ResultRequest) :
    ((handleResult w request).stopReason, (handleResult w request).agentLimitSeconds) =
      (w.stopReason, w.agentLimitSeconds) := by
  unfold handleResult
  split
  · rfl
  · split <;> rfl

theorem concluded_stop (rt : Runtime) (cfg : Config) (t : Turn) (w : WorkerWrapper) :
    ((concluded rt cfg t (served t w)).stopReason = none ∧ (concluded rt cfg t (served t w)).agentLimitSeconds = none) ∨
      ∃ limitSeconds, (agentExecution rt cfg t.data t.agent).ends = .error (.agentTurnLimitExceeded limitSeconds) ∧
        (concluded rt cfg t (served t w)).stopReason = some .agentLimitExceeded ∧
        (concluded rt cfg t (served t w)).agentLimitSeconds = some limitSeconds := by
  have hhear := hear_untouched (fun w => (w.stopReason, w.agentLimitSeconds)) handleResult_stop
    (served t w) (t.startServer.heard ++ (agentExecution rt cfg t.data t.agent).heard)
  simp only [Prod.mk.injEq] at hhear
  unfold concluded stopped
  split
  · rename_i limitSeconds hends
    exact Or.inr ⟨limitSeconds, hends, rfl, rfl⟩
  · exact Or.inl hhear

theorem collectedReport_text {file : Option ReportFile}
    (h : collectedReport t file = .ok report) (hg : given report = true) :
    ∃ text, file = some (.ok text) ∧ report = some text := by
  unfold collectedReport at h
  cases file with
  | none =>
    cases h
    cases hg
  | some file =>
    simp only at h
    cases hc : reportContent t file with
    | error e =>
      rw [hc] at h
      cases he : e.isOSError with
      | true =>
        simp only [he, if_true] at h
        cases h
        cases hg
      | false =>
        simp only [he, Bool.false_eq_true, if_false] at h
        cases h
    | ok content =>
      rw [hc] at h
      cases h
      refine ⟨content, ?_, rfl⟩
      unfold reportContent at hc
      obtain ⟨u, -, hrest⟩ := bind_ok hc
      obtain ⟨text, htext, hlast⟩ := bind_ok hrest
      obtain ⟨u', -, heq⟩ := bind_ok hlast
      cases heq
      cases file with
      | error text => cases htext
      | ok text =>
        cases htext
        rfl

def gathered (rt : Runtime) (cfg : Config) (t : Turn) (w : WorkerWrapper) : WorkerWrapper :=
  { concluded rt cfg t (served t w) with reportFile := leftFile t (collectedFile cfg t w) }

theorem gathered_submits (hreplaced : Replaced rt cfg t w)
    (hcollected : collectedReport t (collectedFile cfg t w) = .ok report) :
    Submits t.leaseId (Own rt cfg t) w (publishResult rt cfg t error status report (gathered rt cfg t w)).2 := by
  obtain ⟨hcarries, htail⟩ := concluded_carries hreplaced
  obtain ⟨hhearing, hbuffered⟩ := concluded_hearing rt cfg t w
  have hsubmitted : (gathered rt cfg t w).submitted = w.submitted := concluded_submitted rt cfg t (served t w)
  have hcarries' : Carries rt cfg t (gathered rt cfg t w) :=
    ⟨hcarries.effort, hcarries.path, hcarries.truncated, hcarries.tail⟩
  have hhearing' : Hearing w.accepted (gathered rt cfg t w) := ⟨hhearing.event, hhearing.accepted, hhearing.requested⟩
  have hown : (gathered rt cfg t w).bufferedResult.isSome = true ∨
      (firstReport (resumeExecution t.resume).heard).isSome = true → given report = true →
        ∃ text, writtenReport cfg t = some (.ok text) ∧ report = some text := by
    intro hreported hg
    obtain ⟨text, hfile, htext⟩ := collectedReport_text hcollected hg
    rw [hreplaced.report (by rw [← hbuffered]; exact hreported)] at hfile
    exact ⟨text, hfile, htext⟩
  have hsubmits : Submits t.leaseId (Own rt cfg t) (gathered rt cfg t w)
      (publishResult rt cfg t error status report (gathered rt cfg t w)).2 :=
    publishResult_submits hcarries' htail (concluded_stop rt cfg t w) hhearing' hown
  unfold Submits at hsubmits ⊢
  rw [hsubmitted] at hsubmits
  exact hsubmits

theorem reportTurn_submits
    (h : (∃ report, collectedReport t (collectedFile cfg t w) = .ok report ∧
      (cfg.isQaExecutor = true ∨ archiveTask rt t report = .ok ())) → Replaced rt cfg t w) :
    Submits t.leaseId (Own rt cfg t) w (reportTurn rt cfg t error status (concluded rt cfg t (served t w))).2 := by
  have hsubmitted : (gathered rt cfg t w).submitted = w.submitted := concluded_submitted rt cfg t (served t w)
  have hread := readWorkerReport_apply t (concluded rt cfg t (served t w))
  rw [concluded_reportFile] at hread
  change _ = (_, gathered rt cfg t w) at hread
  unfold reportTurn
  cases hc : collectedReport t (collectedFile cfg t w) with
  | error e =>
    rw [hc] at hread
    rw [Act.bind_error hread]
    exact Or.inl hsubmitted
  | ok report =>
    rw [hc] at hread
    rw [Act.bind_ok hread]
    cases hq : cfg.isQaExecutor with
    | true =>
      simp only [if_true]
      rw [bind_pure_state _ (fun _ => _)]
      exact gathered_submits (h ⟨report, hc, Or.inl hq⟩) hc
    | false =>
      simp only [Bool.false_eq_true, if_false]
      cases ha : archiveTask rt t report with
      | error e =>
        rw [Act.bind_error (Act.ofExcept_apply _ _)]
        exact Or.inl hsubmitted
      | ok u =>
        rw [Act.bind_ok (Act.ofExcept_apply _ _), bind_pure_state _ (fun _ => _)]
        exact gathered_submits (h ⟨report, hc, Or.inr ha⟩) hc

theorem plainFailure_own (rt : Runtime) (cfg : Config) (t : Turn) (error : String) : Own rt cfg t (plainFailure error) where
  report := Or.inl rfl
  tail := Or.inl rfl
  effort := Or.inl rfl
  transcript := Or.inl ⟨rfl, rfl⟩
  stop _ _ _ h := by
    cases h
    exact Or.inl ⟨rfl, rfl⟩

theorem processMessage_submits (h : Publishes rt cfg t w → Replaced rt cfg t w) :
    Submits t.leaseId (Own rt cfg t) w (processMessage rt cfg t w).2 := by
  unfold processMessage runTurn
  rw [Act.update_bind, Act.update_bind]
  cases hp : preparation rt cfg t with
  | error e =>
    rw [Act.bind_error (Act.ofExcept_apply _ _)]
    exact Or.inl rfl
  | ok refusal =>
    rw [Act.bind_ok (Act.ofExcept_apply _ _)]
    cases refusal with
    | some error => exact Or.inr ⟨plainFailure error, rfl, plainFailure_own rt cfg t error⟩
    | none =>
      simp only [Act.update_bind]
      rw [Act.ensuring_state]
      change Submits t.leaseId (Own rt cfg t) w (serveTurn rt cfg t (served t w)).2
      by_cases hinterrupted : t.startServer.ends = .ok () ∧
          ∀ e, (agentExecution rt cfg t.data t.agent).ends = .error e → e.isException = true
      · obtain ⟨hstart, hhandled⟩ := hinterrupted
        obtain ⟨status, hserve⟩ := serveTurn_handled hstart hhandled (served t w)
        rw [hserve]
        exact reportTurn_submits fun hcollected => h ⟨hp, hstart, hhandled, hcollected⟩
      · exact Or.inl (serveTurn_interrupted hinterrupted (served t w))

variable (rt cfg)

def turned (t : Turn) (w : WorkerWrapper) : WorkerWrapper := (processMessage rt cfg t w).2

def history : WorkerWrapper → List Turn → List (Turn × List (String × WorkerResult))
  | _, [] => []
  | w, t :: rest => (t, (turned rt cfg t w).submitted.drop w.submitted.length) :: history (turned rt cfg t w) rest

def ReplacedThroughout : WorkerWrapper → List Turn → Prop
  | _, [] => True
  | w, t :: rest => (Publishes rt cfg t w → Replaced rt cfg t w) ∧ ReplacedThroughout (turned rt cfg t w) rest

theorem runLoop_turns (ts : List Turn) (w : WorkerWrapper) :
    ∃ begun rest, ts = begun ++ rest ∧ (runLoop rt cfg ts w).2 = begun.foldl (fun w t => turned rt cfg t w) w := by
  induction ts generalizing w with
  | nil => exact ⟨[], [], rfl, rfl⟩
  | cons t ts ih =>
    unfold runLoop
    cases hend : processMessage rt cfg t w with
    | mk r w' =>
      have hturned : turned rt cfg t w = w' := congrArg Prod.snd hend
      cases r with
      | error e =>
        rw [Act.bind_error hend]
        exact ⟨[t], ts, rfl, hturned.symm⟩
      | ok u =>
        rw [Act.bind_ok hend]
        obtain ⟨begun, rest, hts, hrun⟩ := ih w'
        refine ⟨t :: begun, rest, by rw [hts]; rfl, ?_⟩
        rw [hrun, List.foldl_cons, hturned]

variable {rt cfg}

/-- In every run of one wrapper whose turns replace what is left of earlier ones before they
publish, each output carries what its own turn's agent gave, or nothing. -/
theorem turn_outputs_own (file : Option ReportFile) (ts : List Turn) (h : ReplacedThroughout rt cfg (.start file) ts) :
    ∀ entry ∈ history rt cfg (.start file) ts, ∀ output ∈ entry.2, output.1 = entry.1.leaseId ∧ Own rt cfg entry.1 output.2 := by
  generalize WorkerWrapper.start file = w at h
  induction ts generalizing w with
  | nil => simp [history]
  | cons t rest ih =>
    intro entry hentry output houtput
    rcases List.mem_cons.mp hentry with rfl | hlater
    · rcases processMessage_submits h.1 with hnone | ⟨result, hone, hown⟩
      · have hempty : (turned rt cfg t w).submitted.drop w.submitted.length = [] := by
          unfold turned
          rw [hnone, List.drop_length]
        simp only [hempty, List.not_mem_nil] at houtput
      · have hsingle : (turned rt cfg t w).submitted.drop w.submitted.length = [(t.leaseId, result)] := by
          unfold turned
          rw [hone, List.drop_left]
        simp only [hsingle, List.mem_singleton] at houtput
        subst houtput
        exact ⟨rfl, hown⟩
    · exact ih _ h.2 entry hlater output houtput

def firstTurn : Turn := quietTurn "1-0" "Add the endpoint" (quietAgent "Added the endpoint" [] .kept)

def secondTurn : Turn := quietTurn "2-0" "Fix the build" (quietAgent "Fixed the build" [] .kept)

theorem turn_outputs_own_quiet : ReplacedThroughout plainRuntime noopConfig (.start none) [firstTurn, secondTurn] ∧
    ∀ entry ∈ history plainRuntime noopConfig (.start none) [firstTurn, secondTurn], ∀ output ∈ entry.2,
      output.1 = entry.1.leaseId ∧ Own plainRuntime noopConfig entry.1 output.2 := by
  have hreplaced : ReplacedThroughout plainRuntime noopConfig (.start none) [firstTurn, secondTurn] :=
    ⟨fun _ => ⟨Or.inl rfl, Or.inl rfl, Or.inl rfl, fun _ => rfl⟩, fun _ => ⟨Or.inl rfl, Or.inl rfl, Or.inl rfl, fun _ => rfl⟩,
      trivial⟩
  exact ⟨hreplaced, turn_outputs_own none [firstTurn, secondTurn] hreplaced⟩

def sessionlessTurn : Turn :=
  { secondTurn with agent := { secondTurn.agent with
      getSession := ⟨[], .error (.exception "Server error '503 Service Unavailable'")⟩ } }

/-- A turn whose agent was never launched is published with the output of the turn before it. -/
theorem stale_tail_submitted :
    ∃ entry ∈ history plainRuntime noopConfig (.start none) [firstTurn, sessionlessTurn], ∃ output ∈ entry.2,
      entry.1.leaseId = "2-0" ∧ (produced plainRuntime noopConfig entry.1.data entry.1.agent).launched = false ∧
        output.2.metadata.agentStdoutTail = some "Added the endpoint" ∧ ¬ Own plainRuntime noopConfig entry.1 output.2 := by
  refine ⟨(sessionlessTurn, [("2-0", ⟨.failed "Server error '503 Service Unavailable'" none none,
    { Metadata.empty with agentStdoutTail := some "Added the endpoint" }⟩)]), ?_, _, List.mem_singleton.mpr rfl, rfl, rfl, rfl, ?_⟩
  · exact List.mem_cons_of_mem _ (List.mem_singleton.mpr rfl)
  · intro h
    rcases h.tail with hnone | hown | ⟨texts, hends, htail⟩
    · cases hnone
    · cases hown
    · cases hends
      cases htail

end Orchestrator.Wrapper
