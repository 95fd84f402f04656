import Orchestrator.Async.Interpretation
import Orchestrator.Deploy.Consumer
import Orchestrator.LiveWork.Execution

/-!
A deploy as live work: the waits for its workflow run, and what becomes of the run where a wait
is interrupted.
-/

namespace Orchestrator.LiveWork

open Async
open Contracts (DeployMessage)
open Deploy (Exn)

def askGithub (call : GithubCall) (site : Site) : Job call.Res := perform (.github call site)

def utcnow : Job Int := perform .utcnow

def deployTimeoutSeconds : Int := 600

def pollInterval : Nat := 15

def withinTimeout (message : String) (start : Int) : Job Unit := do
  let clock ← utcnow
  if deployTimeoutSeconds < clock - start then .raise (.timeoutError message)
  else return ()

/-- `polls` bounds how often a wait asks; the timeout does so in the end. -/
def pollCancelled (workflow : String) (runId : Nat) (site : Site) (start : Int) : Nat → Job Unit
  | 0 => .raise (.timeoutError ("Workflow " ++ workflow ++ " run " ++ toString runId ++ " did not cancel within " ++
      toString deployTimeoutSeconds ++ "s"))
  | polls + 1 => do
    withinTimeout ("Workflow " ++ workflow ++ " run " ++ toString runId ++ " did not cancel within " ++
      toString deployTimeoutSeconds ++ "s") start
    let run ← askGithub (.getWorkflowRun runId) site
    if run.completed then
      if run.conclusion = some "cancelled" then .raise (.workflowCancelled ("Workflow " ++ workflow ++ " cancelled by teardown"))
      else .raise (.runtimeError ("Workflow " ++ workflow ++ " run " ++ toString runId ++ " completed as " ++
        run.conclusion.getD "None" ++ " after teardown cancellation"))
    else do
      askGithub (.sleep pollInterval) site
      pollCancelled workflow runId site start polls

def cancelAndWait (workflow : String) (runId : Nat) (site : Site) (polls : Nat) : Job Unit := do
  askGithub (.cancelWorkflowRun runId) site
  askGithub .getToken site
  let start ← utcnow
  pollCancelled workflow runId site start polls

def cancelAndConfirmWorkflowRun (workflow : String) (runId : Nat) (site : Site) (polls : Nat) : Job Unit :=
  Prog.handle (cancelAndWait workflow runId site polls) fun e => match e with
    | .workflowCancelled _ => .raise e
    | .cancelledError => .raise e
    | _ => .raise (.workflowCancellationUnproven ("Workflow " ++ workflow ++ " run " ++ toString runId ++
      " cancellation could not be verified"))

def verified (message : String) (p : Job Unit) : Job Unit :=
  Prog.handle p fun e => match e with
    | .workflowCancelled _ => return ()
    | .workflowCancellationUnproven _ => .raise e
    | .cancelledError => .raise e
    | _ => .raise (.workflowCancellationUnproven message)

def deployWorkflow : String := "deploy.yml"

def interruptedRun (run : Option WorkflowInfo) : Job (Option WorkflowInfo) :=
  match run with
  | some info => return some info
  | none => askGithub .getLatestWorkflowRun .confirm

def cancelInterruptedWorkflowWait (polls : Nat) (run : Option WorkflowInfo) : Job Unit :=
  verified ("Workflow " ++ deployWorkflow ++ " cancellation could not be verified") do
    match ← interruptedRun run with
    | none => .raise (.workflowCancellationUnproven ("Workflow " ++ deployWorkflow ++ " cancellation could not identify a run"))
    | some info =>
      if info.completed then return ()
      else cancelAndConfirmWorkflowRun deployWorkflow info.id .confirm polls

def cancelInterruptedRunWait (polls runId : Nat) (completed : Bool) : Job Unit :=
  if completed then return ()
  else verified ("Workflow run " ++ toString runId ++ " cancellation could not be verified")
    (cancelAndConfirmWorkflowRun ("run " ++ toString runId) runId .confirm polls)

def interrupting {A : Type} (p : Job A) (cleanup : Job Unit) : Job A :=
  Prog.handle p fun e =>
    if e = .cancelledError then do
      cleanup
      .raise e
    else .raise e

def cancelRequested (message : String) : Job Bool :=
  catching (askGithub .cancelCheck .wait) fun _ => .raise (.workflowCancellationUnproven message)

def failureLogs (runId : Nat) : Job String :=
  catching (askGithub (.getFailureLogs runId) .wait) fun _ => return "(could not fetch failure details)"

def concludedWorkflow (info : WorkflowInfo) : Job (Option WorkflowInfo) :=
  if info.conclusion = some "success" then return some info
  else if info.conclusion = some "cancelled" then
    .raise (.workflowCancelled ("Workflow " ++ deployWorkflow ++ " run " ++ toString info.id ++ " was cancelled"))
  else do
    let logs ← failureLogs info.id
    .raise (.runtimeError ("Workflow " ++ deployWorkflow ++ " failed: " ++ info.conclusion.getD "None" ++ ". See: " ++
      info.htmlUrl ++ "\n" ++ logs))

def concludedRun (runId : Nat) (info : WorkflowInfo) : Job (Option WorkflowInfo) :=
  if info.conclusion = some "success" then return some info
  else do
    let logs ← failureLogs runId
    .raise (.runtimeError ("Workflow run " ++ toString runId ++ " failed: " ++ info.conclusion.getD "None" ++ ". See: " ++
      info.htmlUrl ++ "\n" ++ logs))

def stopRequested (requested : Bool) (workflow : String) (runId polls : Nat) : Job Unit :=
  if requested then cancelAndConfirmWorkflowRun workflow runId .wait polls
  else return ()

def examineWorkflow (polls : Nat) (info : WorkflowInfo) : Job (Option WorkflowInfo) := do
  let requested ← cancelRequested ("Workflow " ++ deployWorkflow ++ " run " ++ toString info.id ++
    " cancellation check could not be evaluated")
  stopRequested requested deployWorkflow info.id polls
  if info.completed then concludedWorkflow info
  else do
    askGithub (.sleep pollInterval) .wait
    return none

def examineRun (polls runId : Nat) (info : WorkflowInfo) : Job (Option WorkflowInfo) := do
  let requested ← cancelRequested ("Workflow run " ++ toString runId ++ " cancellation check could not be evaluated")
  stopRequested (requested && !info.completed) ("run " ++ toString runId) runId polls
  if info.completed then concludedRun runId info
  else do
    askGithub (.sleep pollInterval) .wait
    return none

/-- `confirms` bounds the waits for a cancelled run. `run` is what the last poll has found. -/
def pollWorkflow (confirms : Nat) (start : Int) : Nat → Option WorkflowInfo → Job WorkflowInfo
  | 0, _ => .raise (.timeoutError ("Workflow " ++ deployWorkflow ++ " did not complete within " ++ toString deployTimeoutSeconds ++ "s"))
  | polls + 1, run => do
    withinTimeout ("Workflow " ++ deployWorkflow ++ " did not complete within " ++ toString deployTimeoutSeconds ++ "s") start
    match ← interrupting (askGithub .getLatestWorkflowRun .wait) (cancelInterruptedWorkflowWait confirms run) with
    | none =>
      interrupting (askGithub (.sleep pollInterval) .wait) (cancelInterruptedWorkflowWait confirms none)
      pollWorkflow confirms start polls none
    | some info =>
      match ← interrupting (examineWorkflow confirms info) (cancelInterruptedWorkflowWait confirms (some info)) with
      | some done => return done
      | none => pollWorkflow confirms start polls (some info)

def waitForWorkflowCompletion (polls : Nat) : Job WorkflowInfo := do
  let start ← utcnow
  pollWorkflow polls start polls none

def pollRun (confirms runId : Nat) (start : Int) : Nat → Bool → Job WorkflowInfo
  | 0, _ => .raise (.timeoutError ("Workflow run " ++ toString runId ++ " did not complete within " ++ toString deployTimeoutSeconds ++ "s"))
  | polls + 1, completed => do
    withinTimeout ("Workflow run " ++ toString runId ++ " did not complete within " ++ toString deployTimeoutSeconds ++ "s") start
    let info ← interrupting (askGithub (.getWorkflowRun runId) .wait) (cancelInterruptedRunWait confirms runId completed)
    match ← interrupting (examineRun confirms runId info) (cancelInterruptedRunWait confirms runId info.completed) with
    | some done => return done
    | none => pollRun confirms runId start polls info.completed

def waitForRunCompletion (polls runId : Nat) : Job WorkflowInfo := do
  askGithub .getToken .plain
  let start ← utcnow
  pollRun polls runId start polls false

def WorkflowInfo.run (info : WorkflowInfo) : Deploy.WorkflowRun := ⟨info.id, info.headSha⟩

def liveCall (polls : Nat) : (op : Deploy.Op) → Job op.Res
  | .service (.waitForWorkflow _) => do
    let info ← waitForWorkflowCompletion polls
    return info.run
  | .service (.waitForRunCompletion _ workflowRunId) => do
    askGithub (.sleep 3) .plain
    let info ← waitForRunCompletion polls workflowRunId
    return info.run
  | op => perform (.deploy op)

def liveAttempt (polls : Nat) (op : Deploy.Op) : Job (Except Exn op.Res) := (liveCall polls op).attempt

def reported : Deploy.Result → JobResult
  | .job settled status => ⟨some settled, some status, none, false⟩
  | .sweep _ => ⟨none, none, none, false⟩

def deployJob (polls : Nat) (msg : DeployMessage) : Job JobResult := do
  let outcome ← (Deploy.processDeployJob msg).interp (liveAttempt polls)
  let result ← Prog.ofExcept (I := liveInterface) outcome
  return reported result

end Orchestrator.LiveWork
