import Orchestrator.Github.World

/-!
The listing of the runs that can still act, and the fence that stops them.
-/

namespace Orchestrator.Github

open Async

structure Workflow where
  owner : String
  repo : String
  workflowFile : String

def getToken : Job Unit := perform .getToken

def now : Job Int := perform .now

structure ListedRun where
  id : Nat
  status : WorkflowRunStatus
  headSha : Option String

def putRun (byId : List ListedRun) (run : ListedRun) : List ListedRun :=
  if byId.any (·.id = run.id) then byId.map fun other => if other.id = run.id then run else other
  else byId ++ [run]

def putRuns (byId : List ListedRun) (rows : List WorkflowRun) : List ListedRun :=
  (rows.filter (·.status ≠ .completed)).foldl (fun byId run => putRun byId ⟨run.id, run.status, run.headSha⟩) byId

def listPage (workflow : Workflow) (status : WorkflowRunStatus) (page : Nat) : Job (List WorkflowRun) :=
  Prog.handle (perform (.listRuns status page)) fun e => match e with
    | .httpStatusError 404 => .raise (.workflowNotFoundError
      ("Workflow '" ++ workflow.workflowFile ++ "' not found in " ++ workflow.owner ++ "/" ++ workflow.repo))
    | _ => .raise e

def listStatus (workflow : Workflow) (status : WorkflowRunStatus) : Nat → Nat → List ListedRun → Job (List ListedRun)
  | 0, _, _ => .raise (.workflowRunListingIncompleteError
      ("Workflow '" ++ workflow.workflowFile ++ "' in " ++ workflow.owner ++ "/" ++ workflow.repo ++ " has more than " ++
        toString (maxRunsPages * runsPageSize) ++ " runs with status " ++ status.value ++
        "; the set of runs that can still act cannot be proven complete"))
  | left + 1, page, byId => do
    let rows ← listPage workflow status page
    if rows.length < runsPageSize then return putRuns byId rows
    else listStatus workflow status left (page + 1) (putRuns byId rows)

def listStatuses (workflow : Workflow) : List WorkflowRunStatus → List ListedRun → Job (List ListedRun)
  | [], byId => return byId
  | status :: later, byId => do
    let byId ← listStatus workflow status maxRunsPages 1 byId
    listStatuses workflow later byId

def listUnfinishedWorkflowRuns (workflow : Workflow) : Job (List ListedRun) := do
  getToken
  listStatuses workflow unfinishedWorkflowRunStatuses []

def cancelWorkflowRun (runId : Nat) : Job Unit := do
  getToken
  Prog.handle (perform (.cancelRun runId)) fun e => match e with
    | .httpStatusError 409 => return ()
    | _ => .raise e

def getRun (runId : Nat) : Job WorkflowRun := perform (.getRun runId)

def sleep (seconds : Nat) : Job Unit := perform (.sleep seconds)

def stillWaiting (run : WorkflowRun) (timeoutSeconds start clock : Int) : Except Exn Unit :=
  if timeoutSeconds < clock - start then
    .error (.timeoutError ("Workflow run " ++ toString run.id ++ " was still " ++ run.status.value ++ " after " ++
      toString timeoutSeconds ++ "s"))
  else .ok ()

/-- `polls` bounds how often it asks; the timeout does so in the end. -/
def pollTerminal (runId : Nat) (timeoutSeconds : Int) (pollInterval : Nat) (start : Int) : Nat → Job String
  | 0 => .raise (.timeoutError ("Workflow run " ++ toString runId ++ " was still unfinished"))
  | polls + 1 => do
    let run ← getRun runId
    if run.status = .completed then return (run.conclusion.filter (· ≠ "")).getD "unknown"
    else do
      let clock ← now
      Prog.ofExcept (I := githubInterface) (stillWaiting run timeoutSeconds start clock)
      sleep pollInterval
      pollTerminal runId timeoutSeconds pollInterval start polls

def waitForTerminalWorkflowRun (runId : Nat) (timeoutSeconds : Int) (pollInterval polls : Nat) : Job String := do
  getToken
  let start ← now
  pollTerminal runId timeoutSeconds pollInterval start polls

def unproven {A : Type} (message : String) (p : Job A) : Job A :=
  Prog.handle p fun e => match e with
    | .cancelledError => .raise e
    | _ => .raise (.workflowCancellationUnprovenError message)

def stopRun (runId : Nat) (timeoutSeconds : Int) (pollInterval polls : Nat) : Job String := do
  cancelWorkflowRun runId
  waitForTerminalWorkflowRun runId timeoutSeconds pollInterval polls

def stopRuns (workflow : Workflow) (timeoutSeconds : Int) (pollInterval polls : Nat) : List ListedRun → List Nat → Job (List Nat)
  | [], fenced => return fenced
  | run :: rest, fenced => do
    let _ ← unproven ("Workflow " ++ workflow.workflowFile ++ " run " ++ toString run.id ++ " in " ++ workflow.owner ++ "/" ++
      workflow.repo ++ " could not be proven terminal") (stopRun run.id timeoutSeconds pollInterval polls)
    stopRuns workflow timeoutSeconds pollInterval polls rest (fenced ++ [run.id])

def fenceWorkflow (workflow : Workflow) (timeoutSeconds : Int) (pollInterval polls : Nat) : Job (List Nat) := do
  let active ← unproven ("Workflow " ++ workflow.workflowFile ++ " runs in " ++ workflow.owner ++ "/" ++ workflow.repo ++
    " could not be listed") (listUnfinishedWorkflowRuns workflow)
  stopRuns workflow timeoutSeconds pollInterval polls active []

inductive Call where
  | listUnfinishedWorkflowRuns
  | fenceWorkflow (timeoutSeconds : Int) (pollInterval polls : Nat)

def client (workflow : Workflow) : Call → Job Result
  | .listUnfinishedWorkflowRuns => do
    let active ← listUnfinishedWorkflowRuns workflow
    return .listed (active.map (·.id))
  | .fenceWorkflow timeoutSeconds pollInterval polls => do
    let ids ← fenceWorkflow workflow timeoutSeconds pollInterval polls
    return .fenced ids

def body (workflow : Workflow) (call : Call) : Party → Job Result
  | .client => client workflow call
  | .outside _ => do
    perform .outside
    return .nothing

end Orchestrator.Github
