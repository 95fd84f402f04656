import Orchestrator.Wrapper.World

/-!
One execution of the agent and one attempt to resume it: what either answers,
what the report server hears meanwhile, and which fields of the wrapper it writes
before it fails.
-/

namespace Orchestrator.Wrapper

open Python
open Projects (AgentType)

variable (rt : Runtime) (cfg : Config)

def number : Value → Option Int
  | .int n => some n
  | .bool b => some (if b then 1 else 0)
  | _ => none

def usageMetrics (payload : Mapping) : Option Mapping :=
  match valueAt payload "usage" with
  | .mapping usage =>
    let input := valueAt usage "input_tokens"
    let output := valueAt usage "output_tokens"
    let total := match valueAt usage "total_tokens", number input, number output with
      | .none, some i, some o => .int (i + o)
      | total, _, _ => total
    let cost := if hasKey payload "total_cost_usd" then valueAt payload "total_cost_usd" else valueAt payload "cost_usd"
    let result := [("input_tokens", input), ("output_tokens", output), ("total_tokens", total), ("cost_usd", cost)].filter
      fun entry => !entry.2.isNone
    if result.isEmpty then none else some result
  | _ => none

def extractEffortMetrics (stdout : String) : Except Raised Mapping :=
  if cfg.agentType = .codex then .ok []
  else (rt.jsonObjects stdout).map fun payloads => (payloads.reverse.findSome? usageMetrics).getD []

def saveTranscript (artifact : Except Raised (String × Bool)) : Except Raised (Option String × Bool) :=
  match artifact with
  | .ok saved => .ok (some saved.1, saved.2)
  | .error e => if e.isOSError then .ok (none, false) else .error e

def lastChars (n : Nat) (text : String) : String := String.ofList (text.toList.drop (text.toList.length - n))

def combined (stdout stderr : String) : String :=
  if stderr = "" then stdout
  else if stdout = "" then stderr
  else stdout ++ "\n--- stderr ---\n" ++ stderr

def stdoutTail (stdout stderr : String) : Option String :=
  if cfg.agentType = .codex then none
  else if combined stdout stderr = "" then none
  else some (lastChars 10000 (combined stdout stderr))

def resolvePrompt (data : Mapping) : Except Raised Value :=
  let raw := if (valueAt data "content").truthy then valueAt data "content" else valueAt data "prompt"
  if raw.truthy then .ok raw else .error (.valueError "Task data missing 'content' or 'prompt'")

def forgiveGone : Except Raised Unit → Except Raised Unit
  | .error (.processLookupError _) => .ok ()
  | r => r

def Step.forgiveGone (x : Step Unit) : Step Unit := ⟨x.heard, Wrapper.forgiveGone x.ends⟩

def killAgentProcessGroup (run : AgentRun) : Step Unit := do
  Awaited.ofExcept (forgiveGone run.killpg)
  Step.forgiveGone run.wait

def Streams.nothing : Streams := ⟨.ok "", .ok ""⟩

def remainingOutput (run : AgentRun) : Step Streams :=
  ⟨run.remainder.heard, match run.remainder.ends with
    | .ok streams => .ok streams
    | .error e => if e.isException then .ok .nothing else .error e⟩

def collectAgentOutput (run : AgentRun) : Step (Streams × Bool) :=
  match run.communicate with
  | ⟨heard, .ok streams⟩ => ⟨heard, .ok (streams, false)⟩
  | ⟨heard, .error (.timeoutError _)⟩ => do
    ⟨heard, .ok ()⟩
    killAgentProcessGroup run
    let streams ← remainingOutput run
    pure (streams, true)
  | ⟨heard, .error e⟩ => ⟨heard, .error e⟩

/-- `execute_agent` up to the launch of the process; the answer is its session. -/
def launchAgent (data : Mapping) (run : AgentRun) : Step (Option String) := do
  let found ← run.getSession
  let sessionId ← if !given found && cfg.agentType ≠ .claude then do
      run.setSession
      pure (some run.uuid4)
    else pure found
  let _ ← Awaited.ofExcept (resolvePrompt data)
  run.spawn
  pure sessionId

def decoded (streams : Streams) : Except Raised (String × String) := do
  let stdout ← streams.stdout
  let stderr ← streams.stderr
  pure (String.ofList (strip stdout.toList), String.ofList (strip stderr.toList))

structure AgentOutput where
  sessionId : Option String
  limitExceeded : Bool
  stdout : String
  stderr : String

def concludeAgent (run : AgentRun) (output : AgentOutput) : Step Unit :=
  if output.limitExceeded then Awaited.ofExcept (.error (.agentTurnLimitExceeded cfg.subprocessTimeoutSeconds))
  else if run.returncode ≠ 0 then
    if cfg.agentType = .codex then
      Awaited.ofExcept (.error (.runtimeError s!"Codex agent process failed with code {run.returncode}"))
    else
      let detail := if output.stderr ≠ "" then output.stderr else if output.stdout ≠ "" then output.stdout else "no output"
      Awaited.ofExcept (.error (.runtimeError s!"Agent process failed with code {run.returncode}: {detail}"))
  else if cfg.agentType = .claude && !given output.sessionId then do
    let captured ← Awaited.ofExcept run.capturedSessionId
    if given captured then run.setCaptured else pure ()
  else pure ()

/-- `execute_agent` from the output of the process on -/
def recordOutput (run : AgentRun) (output : AgentOutput) : Turning Unit := do
  let metrics ← Act.ofExcept (extractEffortMetrics rt cfg output.stdout)
  Act.update fun w => { w with effortMetrics := metrics }
  let transcript ← Act.ofExcept (saveTranscript run.artifact)
  Act.update fun w => { w with
    transcriptPath := transcript.1
    transcriptTruncated := some transcript.2
    agentStdoutTail := stdoutTail cfg output.stdout output.stderr }
  awaiting (concludeAgent cfg run output)

/-- `execute_agent` up to the output of the process -/
def runAgent (data : Mapping) (run : AgentRun) : Turning AgentOutput := do
  let sessionId ← awaiting (launchAgent cfg data run)
  Act.update fun w => { w with reportFile := run.work.apply w.reportFile }
  let collected ← awaiting (collectAgentOutput run)
  let texts ← Act.ofExcept (decoded collected.1)
  pure ⟨sessionId, collected.2, texts.1, texts.2⟩

def executeAgent (data : Mapping) (run : AgentRun) : Turning Unit := do
  let output ← runAgent cfg data run
  recordOutput rt cfg run output

def resumedTail (previous : Option String) (stdout stderr : String) : Option String :=
  if combined stdout stderr = "" then previous
  else some (lastChars 10000 (previous.getD "" ++ "\n--- resume ---\n" ++ combined stdout stderr))

/-- The body of `_attempt_auto_resume` that its handlers are for. -/
def resumeAgent (run : ResumeRun) : Turning Unit := do
  awaiting run.spawn
  Act.update fun w => { w with reportFile := run.work.apply w.reportFile }
  let streams ← awaiting run.communicate
  let texts ← Act.ofExcept (decoded streams)
  Act.update fun w => { w with agentStdoutTail := resumedTail w.agentStdoutTail texts.1 texts.2 }

def killResumed (run : ResumeRun) : Step Unit :=
  match run.kill with
  | .ok () => Step.forgiveGone run.wait
  | .error e => Awaited.ofExcept (forgiveGone (.error e))

def resumeHandlers (run : ResumeRun) : Except Raised Unit → Step Bool
  | .ok () => pure true
  | .error (.timeoutError _) => match run.spawn.ends with
    | .ok () => do
      killResumed run
      pure false
    -- `proc` has no value yet when the launch itself timed out.
    | .error _ => Awaited.ofExcept (.error (.unboundLocalError
        "cannot access local variable 'proc' where it is not associated with a value"))
  | .error e => if e.isException then pure false else Awaited.ofExcept (.error e)

def attemptAutoResume (run : ResumeRun) : Turning Bool := do
  let sessionId ← awaiting run.getSession
  if !given sessionId then pure false
  else do
    let ended ← (resumeAgent run).attempt
    awaiting (resumeHandlers run ended)

variable {rt cfg}

def WorkerWrapper.hear (w : WorkerWrapper) (requests : List ResultRequest) : WorkerWrapper := requests.foldl handleResult w

theorem handleResult_comm (change : WorkerWrapper → WorkerWrapper)
    (hevent : ∀ w, (change w).resultEvent = w.resultEvent)
    (htaken : ∀ (w : WorkerWrapper) result,
      { change w with bufferedResult := some result, resultEvent := true, accepted := (change w).accepted ++ [result] } =
        change { w with bufferedResult := some result, resultEvent := true, accepted := w.accepted ++ [result] })
    (w : WorkerWrapper) (request : ResultRequest) :
    handleResult (change w) request = change (handleResult w request) := by
  unfold handleResult
  rw [hevent]
  by_cases h : w.resultEvent = true
  · rw [if_pos h, if_pos h]
  · rw [if_neg h, if_neg h]
    cases hvalid : request.isValid with
    | false => rfl
    | true => exact htaken w (toWorkerResult request)

theorem hear_comm {change : WorkerWrapper → WorkerWrapper}
    (h : ∀ w request, handleResult (change w) request = change (handleResult w request)) (w : WorkerWrapper)
    (requests : List ResultRequest) : (change w).hear requests = change (w.hear requests) := by
  unfold WorkerWrapper.hear
  induction requests generalizing w with
  | nil => rfl
  | cons request rest ih =>
    rw [List.foldl_cons, h]
    exact ih (handleResult w request)

theorem hear_append (w : WorkerWrapper) (first second : List ResultRequest) :
    w.hear (first ++ second) = (w.hear first).hear second := List.foldl_append

@[simp] theorem awaiting_apply {A : Type} (x : Step A) (w : WorkerWrapper) :
    awaiting x w = (x.ends, w.hear x.heard) := rfl

variable (rt cfg)

def agentOutput (data : Mapping) (run : AgentRun) : Step AgentOutput := do
  let sessionId ← launchAgent cfg data run
  let collected ← collectAgentOutput run
  let texts ← Awaited.ofExcept (decoded collected.1)
  pure ⟨sessionId, collected.2, texts.1, texts.2⟩

def outputExecution (run : AgentRun) (output : AgentOutput) : Step Unit := do
  let _ ← Awaited.ofExcept (extractEffortMetrics rt cfg output.stdout)
  let _ ← Awaited.ofExcept (saveTranscript run.artifact)
  concludeAgent cfg run output

def agentExecution (data : Mapping) (run : AgentRun) : Step Unit := do
  let output ← agentOutput cfg data run
  outputExecution rt cfg run output

structure Produced where
  launched : Bool
  metrics : Option Mapping
  transcript : Option (Option String × Bool)
  tail : Option (Option String)

def producedBy (run : AgentRun) (output : AgentOutput) : Produced :=
  match extractEffortMetrics rt cfg output.stdout with
  | .error _ => ⟨true, none, none, none⟩
  | .ok metrics => match saveTranscript run.artifact with
    | .error _ => ⟨true, some metrics, none, none⟩
    | .ok transcript => ⟨true, some metrics, some transcript, some (stdoutTail cfg output.stdout output.stderr)⟩

def produced (data : Mapping) (run : AgentRun) : Produced :=
  match (agentOutput cfg data run).ends with
  | .error _ => ⟨(launchAgent cfg data run).ends.isOk, none, none, none⟩
  | .ok output => producedBy rt cfg run output

variable {rt cfg}

def WorkerWrapper.record (w : WorkerWrapper) (p : Produced) (work : ReportChange) : WorkerWrapper :=
  { w with
    reportFile := if p.launched then work.apply w.reportFile else w.reportFile
    effortMetrics := p.metrics.getD w.effortMetrics
    transcriptPath := (p.transcript.map Prod.fst).getD w.transcriptPath
    transcriptTruncated := (p.transcript.map fun saved => some saved.2).getD w.transcriptTruncated
    agentStdoutTail := p.tail.getD w.agentStdoutTail }

theorem handleResult_record (w : WorkerWrapper) (p : Produced) (work : ReportChange) (request : ResultRequest) :
    handleResult (w.record p work) request = (handleResult w request).record p work :=
  handleResult_comm (fun w => w.record p work) (fun _ => rfl) (fun _ _ => rfl) w request

theorem hear_record (w : WorkerWrapper) (p : Produced) (work : ReportChange) (requests : List ResultRequest) :
    (w.record p work).hear requests = (w.hear requests).record p work :=
  hear_comm (fun w request => handleResult_record w p work request) w requests

theorem recordOutput_apply (run : AgentRun) (output : AgentOutput) (work : ReportChange) (w : WorkerWrapper) :
    recordOutput rt cfg run output (w.record ⟨true, none, none, none⟩ work) =
      ((outputExecution rt cfg run output).ends,
        (w.hear (outputExecution rt cfg run output).heard).record (producedBy rt cfg run output) work) := by
  unfold recordOutput outputExecution producedBy
  cases hm : extractEffortMetrics rt cfg output.stdout with
  | error e => rfl
  | ok metrics =>
    cases ht : saveTranscript run.artifact with
    | error e => rfl
    | ok transcript =>
      have hhear := hear_record w ⟨true, some metrics, some transcript, some (stdoutTail cfg output.stdout output.stderr)⟩
        work (concludeAgent cfg run output).heard
      exact Prod.ext rfl hhear

theorem runAgent_apply (data : Mapping) (run : AgentRun) (w : WorkerWrapper) :
    runAgent cfg data run w =
      ((agentOutput cfg data run).ends,
        (w.hear (agentOutput cfg data run).heard).record ⟨(launchAgent cfg data run).ends.isOk, none, none, none⟩
          run.work) := by
  unfold runAgent agentOutput
  cases hl : (launchAgent cfg data run).ends with
  | error e =>
    rw [Act.bind_error (by rw [awaiting_apply, hl]), Awaited.bind_error hl]
    rfl
  | ok sessionId =>
    rw [Act.bind_ok (by rw [awaiting_apply, hl]), Awaited.bind_ok hl, Act.update_bind]
    have hwork := hear_record (w.hear (launchAgent cfg data run).heard) ⟨true, none, none, none⟩ run.work
      (collectAgentOutput run).heard
    rw [← hear_append] at hwork
    cases hc : (collectAgentOutput run).ends with
    | error e =>
      rw [Awaited.bind_error hc, Act.bind_error (by rw [awaiting_apply, hc])]
      exact Prod.ext rfl hwork
    | ok collected =>
      rw [Awaited.bind_ok hc, Act.bind_ok (by rw [awaiting_apply, hc])]
      cases hd : decoded collected.1 with
      | error e =>
        refine Prod.ext rfl (hwork.trans ?_)
        rw [Awaited.bind_error (Awaited.ends_ofExcept _), Awaited.heard_ofExcept, List.append_nil]
        rfl
      | ok texts =>
        refine Prod.ext rfl (hwork.trans ?_)
        rw [Awaited.bind_ok (Awaited.ends_ofExcept _), Awaited.heard_ofExcept]
        simp only [List.nil_append]
        show _ = WorkerWrapper.record (w.hear (_ ++ (_ ++ []))) _ _
        rw [List.append_nil]
        rfl

theorem launched_of_output {data : Mapping} {run : AgentRun} {output : AgentOutput}
    (h : (agentOutput cfg data run).ends = .ok output) : (launchAgent cfg data run).ends.isOk = true := by
  unfold agentOutput at h
  cases hl : (launchAgent cfg data run).ends with
  | error e =>
    rw [Awaited.bind_error hl] at h
    cases h
  | ok sessionId => rfl

theorem executeAgent_apply (data : Mapping) (run : AgentRun) (w : WorkerWrapper) :
    executeAgent rt cfg data run w =
      ((agentExecution rt cfg data run).ends,
        (w.hear (agentExecution rt cfg data run).heard).record (produced rt cfg data run) run.work) := by
  have hrun := @runAgent_apply cfg data run w
  unfold executeAgent agentExecution produced
  cases ho : (agentOutput cfg data run).ends with
  | error e =>
    rw [ho] at hrun
    rw [Act.bind_error hrun, Awaited.bind_error ho]
  | ok output =>
    rw [ho, launched_of_output ho] at hrun
    rw [Act.bind_ok hrun, recordOutput_apply, Awaited.bind_ok ho, hear_append]

variable (rt cfg)

def resumeOutput (run : ResumeRun) : Step (String × String) := do
  run.spawn
  let streams ← run.communicate
  Awaited.ofExcept (decoded streams)

def resumeExecution (run : ResumeRun) : Step Bool := do
  let sessionId ← run.getSession
  if !given sessionId then pure false
  else
    let handled := resumeHandlers run ((resumeOutput run).ends.map fun _ => ())
    ⟨(resumeOutput run).heard ++ handled.heard, handled.ends⟩

variable {rt cfg}

def WorkerWrapper.resume (w : WorkerWrapper) (run : ResumeRun) : WorkerWrapper :=
  { w with
    reportFile := if run.spawn.ends.isOk then run.work.apply w.reportFile else w.reportFile
    agentStdoutTail := match (resumeOutput run).ends with
      | .ok texts => resumedTail w.agentStdoutTail texts.1 texts.2
      | .error _ => w.agentStdoutTail }

theorem hear_resume (w : WorkerWrapper) (run : ResumeRun) (requests : List ResultRequest) :
    (w.resume run).hear requests = (w.hear requests).resume run :=
  hear_comm (handleResult_comm (fun w => w.resume run) (fun _ => rfl) fun _ _ => rfl) w requests

theorem hear_work (w : WorkerWrapper) (work : ReportChange) (requests : List ResultRequest) :
    WorkerWrapper.hear { w with reportFile := work.apply w.reportFile } requests =
      { w.hear requests with reportFile := work.apply (w.hear requests).reportFile } :=
  hear_comm (handleResult_comm (fun w => { w with reportFile := work.apply w.reportFile }) (fun _ => rfl)
    fun _ _ => rfl) w requests

theorem resumeAgent_apply (run : ResumeRun) (w : WorkerWrapper) :
    resumeAgent run w =
      ((resumeOutput run).ends.map fun _ => (), (w.hear (resumeOutput run).heard).resume run) := by
  unfold resumeAgent WorkerWrapper.resume
  cases hs : run.spawn.ends with
  | error e =>
    have ho : resumeOutput run = ⟨run.spawn.heard, .error e⟩ := Awaited.bind_error hs _
    rw [Act.bind_error (by rw [awaiting_apply, hs]), ho]
    rfl
  | ok u =>
    rw [Act.bind_ok (by rw [awaiting_apply, hs]), Act.update_bind]
    have hwork := hear_work (w.hear run.spawn.heard) run.work run.communicate.heard
    rw [← hear_append] at hwork
    cases hc : run.communicate.ends with
    | error e =>
      have ho : resumeOutput run = ⟨run.spawn.heard ++ run.communicate.heard, .error e⟩ := by
        unfold resumeOutput
        rw [Awaited.bind_ok hs, Awaited.bind_error hc]
      rw [Act.bind_error (by rw [awaiting_apply, hc]), ho]
      exact Prod.ext rfl hwork
    | ok streams =>
      have ho : resumeOutput run = ⟨run.spawn.heard ++ run.communicate.heard, decoded streams⟩ := by
        unfold resumeOutput
        rw [Awaited.bind_ok hs, Awaited.bind_ok hc, Awaited.heard_ofExcept, List.append_nil, Awaited.ends_ofExcept]
      rw [Act.bind_ok (by rw [awaiting_apply, hc]), ho]
      cases hd : decoded streams with
      | error e => exact Prod.ext rfl hwork
      | ok texts =>
        rw [hwork]
        rfl

def ResumeRun.tries (run : ResumeRun) : Bool :=
  match run.getSession.ends with
  | .ok sessionId => given sessionId
  | .error _ => false

theorem attemptAutoResume_apply (run : ResumeRun) (w : WorkerWrapper) :
    attemptAutoResume run w =
      ((resumeExecution run).ends,
        if run.tries then (w.hear (resumeExecution run).heard).resume run else w.hear (resumeExecution run).heard) := by
  unfold attemptAutoResume resumeExecution ResumeRun.tries
  cases hs : run.getSession.ends with
  | error e =>
    rw [Act.bind_error (by rw [awaiting_apply, hs]), Awaited.bind_error hs]
    rfl
  | ok sessionId =>
    rw [Act.bind_ok (by rw [awaiting_apply, hs]), Awaited.bind_ok hs]
    cases hg : given sessionId with
    | false =>
      simp only [Bool.not_false, if_true, hg, Bool.false_eq_true, if_false, Act.pure_apply, hear_append]
      rfl
    | true =>
      simp only [hg, Bool.not_true, Bool.false_eq_true, if_false, if_true, Act.attempt_bind, resumeAgent_apply,
        awaiting_apply, hear_resume, hear_append]

end Orchestrator.Wrapper
