import Orchestrator.Wrapper.Agent

/-!
A turn of the wrapper, from the lease to the submitted output.
-/

namespace Orchestrator.Wrapper

open Python
open Projects (AgentType)

variable (rt : Runtime) (cfg : Config)

def forgiveOSError : Except Raised Unit → Except Raised Unit
  | .ok () => .ok ()
  | .error e => if e.isOSError then .ok () else .error e

def pythonBool (b : Bool) : String := if b then "True" else "False"

def checkWorkspaceReady (view : WorkspaceView) : Bool × String :=
  if !view.isDir then (true, "workspace dir does not exist (not in container, skipping check)")
  else match view.entries with
    | none => (false, "workspace directory is unreadable")
    | some entries =>
      let visible := (entries.mergeSort fun a b => decide (a ≤ b)).filter fun e =>
        !startsWith e "." || e == ".copier-answers.yml" || e == ".github"
      let detail := s!"files={rt.reprList visible}, copier_marker={pythonBool view.hasCopier}, " ++
        s!"makefile={pythonBool view.hasMakefile}, services_dir={pythonBool view.hasServices}"
      if !view.hasCopier then (false, s!"missing .copier-answers.yml (scaffold not run). {detail}")
      else (true, detail)

def overrideMarker : String := "# --- orchestrator overrides ---"

def injectMakefileOverrides (view : MakefileView) (workspaceIsDir : Bool) : Except Raised Unit :=
  if !view.isFile then
    if !workspaceIsDir then .ok ()
    else .error (.runtimeError "Makefile is missing; cannot install worker compose proxy overrides")
  else
    let body := do
      let content ← view.read
      if contains content overrideMarker then .ok () else view.append
    match body with
    | .ok () => .ok ()
    | .error e =>
      if e.isOSError then .error (.runtimeError "Could not write worker compose proxy overrides") else .error e

def submitOutput (leaseId : String) (result : WorkerResult) : Turning Unit :=
  Act.update fun w => { w with submitted := w.submitted ++ [(leaseId, result)] }

def prepareWorkspace (t : Turn) : Except Raised Unit := do
  if !cfg.isQaExecutor then t.gitPull else pure ()
  if (valueAt t.data "prompt").truthy then t.writeTaskMd else pure ()
  if (valueAt t.data "story_md").truthy then t.writeStoryMd else pure ()
  if (valueAt t.data "clear_session").truthy then t.clearSession else pure ()

def preparation (t : Turn) : Except Raised (Option String) := do
  if hasKey t.data "task_id" || hasKey t.data "request_id" then t.updateStatus else pure ()
  prepareWorkspace cfg t
  if cfg.isQaExecutor then pure none
  else
    let ready := checkWorkspaceReady rt t.workspace
    if !ready.1 then pure (some s!"Workspace pre-flight failed: {ready.2}")
    else do
      t.fixVenvPaths
      match injectMakefileOverrides t.makefile t.workspace.isDir with
      | .ok () => pure none
      | .error e => if e.isRuntimeError then pure (some s!"Workspace preparation failed: {e.str}") else .error e

def plainFailure (error : String) : WorkerResult := ⟨.failed error none none, .empty⟩

/-- The handlers around `execute_agent`: its status and error. -/
def executionOutcome (ended : Except Raised Unit) : Turning (String × Option String) :=
  match ended with
  | .ok () => pure ("completed", none)
  | .error (.agentTurnLimitExceeded limitSeconds) => do
    Act.update fun w => { w with stopReason := some .agentLimitExceeded, agentLimitSeconds := some limitSeconds }
    pure ("failed", some (Raised.agentTurnLimitExceeded limitSeconds).str)
  | .error e => if e.isException then pure ("failed", some e.str) else Act.raise e

/-- The body of `_read_worker_report` that its handler is for. -/
def reportContent (t : Turn) (file : ReportFile) : Except Raised String := do
  t.openReport
  let content ← file.mapError .unicodeDecodeError
  t.removeReport
  pure content

def readWorkerReport (t : Turn) : Turning (Option String) := do
  let file ← Act.look (·.reportFile)
  match file with
  | none => pure none
  | some file => match reportContent t file with
    | .ok content => do
      Act.update fun w => { w with reportFile := none }
      pure (some content)
    | .error e => if e.isOSError then pure none else Act.raise e

def archiveTask (t : Turn) (report : Option String) : Except Raised Unit :=
  if !t.archive.isFile then .ok ()
  else match t.archive.read with
    | .error e => if e.isOSError then .ok () else .error e
    | .ok taskContent =>
      if (strip taskContent.toList).isEmpty then .ok ()
      else
        let archiveId := if (valueAt t.data "task_id").truthy then (valueAt t.data "task_id").str rt.render
          else if (valueAt t.data "request_id").truthy then (valueAt t.data "request_id").str rt.render
          else "unknown"
        let parts := taskContent :: if given report then ["\n---\n", report.getD ""] else []
        forgiveOSError do
          t.archive.makedirs
          forgiveOSError t.archive.ensureGitignoreEntry
          t.archive.write s!"/workspace/.story/old_tasks/{archiveId}.md" (String.intercalate "\n" parts)

structure Observability where
  effort : Mapping
  transcript : Option (String × Option Bool)

def WorkerWrapper.observabilityMetadata (w : WorkerWrapper) : Observability :=
  ⟨w.effortMetrics, if given w.transcriptPath then w.transcriptPath.map (·, w.transcriptTruncated) else none⟩

def attachMetadata (result : WorkerResult) (report stdoutTail : Option String) (observability : Observability) :
    WorkerResult :=
  let effort (key : String) (value : Value) := (observability.effort.lookup key).getD value
  { result with metadata := {
      workerReport := if given report then report else result.metadata.workerReport
      agentStdoutTail := if given stdoutTail then stdoutTail else result.metadata.agentStdoutTail
      inputTokens := effort "input_tokens" result.metadata.inputTokens
      outputTokens := effort "output_tokens" result.metadata.outputTokens
      totalTokens := effort "total_tokens" result.metadata.totalTokens
      costUsd := effort "cost_usd" result.metadata.costUsd
      transcriptPath := (observability.transcript.map Prod.fst).or result.metadata.transcriptPath
      transcriptTruncated := match observability.transcript with
        | some transcript => transcript.2
        | none => result.metadata.transcriptTruncated } }

def acceptedNumber (accept : Value → Option Value) (effort : Mapping) (key : String) : Option Value :=
  match valueAt effort key with
  | .none => some .none
  | value => accept value

structure Effort where
  inputTokens : Value
  outputTokens : Value
  totalTokens : Value
  costUsd : Value

def acceptedEffort (effort : Mapping) : Option Effort := do
  let acceptInt := fun value => (rt.acceptInt value).map Value.int
  let inputTokens ← acceptedNumber acceptInt effort "input_tokens"
  let outputTokens ← acceptedNumber acceptInt effort "output_tokens"
  let totalTokens ← acceptedNumber acceptInt effort "total_tokens"
  let costUsd ← acceptedNumber (fun value => (rt.acceptFloat value).map Value.float) effort "cost_usd"
  pure ⟨inputTokens, outputTokens, totalTokens, costUsd⟩

def workerFailedResult (error : String) (stopReason : Option WorkerStopReason) (agentLimitSeconds : Option Int)
    (stdoutTail : Option String) (observability : Observability) : Except Raised WorkerResult :=
  match acceptedEffort rt observability.effort with
  | none => .error (.validationError (rt.rejection observability.effort))
  | some effort => .ok ⟨.failed error stopReason agentLimitSeconds, {
      workerReport := none
      agentStdoutTail := stdoutTail
      inputTokens := effort.inputTokens
      outputTokens := effort.outputTokens
      totalTokens := effort.totalTokens
      costUsd := effort.costUsd
      transcriptPath := observability.transcript.map Prod.fst
      transcriptTruncated := observability.transcript.bind Prod.snd }⟩

def WorkerWrapper.reported (w : WorkerWrapper) : Option WorkerResult := if w.resultEvent then w.bufferedResult else none

def publishReported (leaseId : String) (result : WorkerResult) (report : Option String) : Turning Unit := do
  let w ← Act.look id
  submitOutput leaseId (attachMetadata result report w.agentStdoutTail w.observabilityMetadata)

def publishFailure (leaseId error : String) (stopReason : Option WorkerStopReason) (agentLimitSeconds : Option Int) :
    Turning Unit := do
  let w ← Act.look id
  let result ← Act.ofExcept (workerFailedResult rt error stopReason agentLimitSeconds w.agentStdoutTail
    w.observabilityMetadata)
  submitOutput leaseId result

/-- The last branch of `_publish_result` -/
def publishWithoutResult (leaseId : String) : Turning (String × Option String) := do
  let error := "Agent exited without reporting result"
  publishFailure rt leaseId error none none
  pure ("failed", some error)

/-- The branch of `_publish_result` that resumes the agent once -/
def publishResumed (t : Turn) (error : Option String) (status : String) (report : Option String) :
    Turning (String × Option String) := do
  let resumed ← attemptAutoResume t.resume
  let reported ← Act.look WorkerWrapper.reported
  match (if resumed then reported else none) with
  | some result => do
    publishReported t.leaseId result report
    pure (status, error)
  | none => publishWithoutResult rt t.leaseId

def publishResult (t : Turn) (error : Option String) (status : String) (report : Option String) :
    Turning (String × Option String) := do
  let w ← Act.look id
  match w.reported with
  | some result => do
    publishReported t.leaseId result report
    pure (status, error)
  | none =>
    if given error then do
      publishFailure rt t.leaseId (error.getD "") w.stopReason w.agentLimitSeconds
      pure (status, error)
    else if cfg.agentType = .claude && !cfg.isQaExecutor then publishResumed rt t error status report
    else publishWithoutResult rt t.leaseId

def reportTurn (t : Turn) (error : Option String) (status : String) : Turning Unit := do
  let report ← readWorkerReport t
  if cfg.isQaExecutor then pure () else Act.ofExcept (archiveTask rt t report)
  let _ ← publishResult rt cfg t error status report
  pure ()

def serveTurn (t : Turn) : Turning Unit := do
  awaiting t.startServer
  let ended ← (executeAgent rt cfg t.data t.agent).attempt
  let outcome ← executionOutcome ended
  reportTurn rt cfg t outcome.2 outcome.1

def runTurn (t : Turn) : Turning Unit := do
  Act.update fun w => { w with reportFile := t.pulled.apply w.reportFile }
  let refusal ← Act.ofExcept (preparation rt cfg t)
  match refusal with
  | some error => submitOutput t.leaseId (plainFailure error)
  | none => do
    Act.update fun w => { w with resultEvent := false, bufferedResult := none }
    (serveTurn rt cfg t).ensuring (Act.ofExcept t.stopServer)

def processMessage (t : Turn) : Turning Unit := do
  Act.update fun w => { w with stopReason := none, agentLimitSeconds := none }
  runTurn rt cfg t

/-- The loop of `run`, over the inputs it leases: what a turn raises ends it. -/
def runLoop : List Turn → Turning Unit
  | [] => pure ()
  | t :: rest => do
    processMessage rt cfg t
    runLoop rest

end Orchestrator.Wrapper
