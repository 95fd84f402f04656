import Orchestrator.Api.Runs

namespace Orchestrator.Api

open Contracts

variable {J : Type}

inductive TemporaryAccessStatus where
  | granting | granted | revoking | revoked | revokeFailed
deriving DecidableEq

structure TemporaryAccessGrant where
  qaRunId : String
  status : TemporaryAccessStatus
  lastError : Option String
  escalatedAt : Option Time

structure TemporaryAccessEscalation (J : Type) where
  error : String
  runErrorMessage : String
  runResult : J

structure Store (J : Type) where
  runs : String → Option (Run J)
  grants : String → Option TemporaryAccessGrant

structure Actor where
  isAdmin : Bool

def Store.writeRun (s : Store J) (runId : String) (run : Run J) : Store J :=
  { s with runs := Function.update s.runs runId (some run) }

@[simp] theorem writeRun_runs_self (s : Store J) (runId : String) (run : Run J) :
    (s.writeRun runId run).runs runId = some run := Function.update_self ..

@[simp] theorem writeRun_runs_of_ne (s : Store J) {runId id : String} (run : Run J) (h : id ≠ runId) :
    (s.writeRun runId run).runs id = s.runs id := Function.update_of_ne h ..

def lockRun (s : Store J) (runId : String) : Except HTTPException (Run J) :=
  match s.runs runId with
  | none => .error (.runNotFound runId)
  | some run => .ok run

def RunCreate.row (run : RunCreate) : Run J where
  type := run.type
  status := .member .queued
  projectId := run.projectId
  userId := run.userId
  storyId := run.storyId
  taskId := run.taskId
  callbackStream := run.callbackStream
  runMetadata := some run.runMetadata
  result := none
  errorMessage := none
  completedAt := none
  plain := fun _ => none

/-- `referenced` says whether the rows that the foreign keys name exist. -/
def createRun (s : Store J) (run : RunCreate) (userExists : Nat → Bool) (referenced : Bool) :
    Except HTTPException (Run J × Store J) :=
  match run.userId.filter (fun userId => userId != 0 && !userExists userId) with
  | some userId => .error (.userNotFound userId)
  | none =>
    if referenced && (s.runs run.id).isNone then .ok (run.row, s.writeRun run.id run.row)
    else .error .internalServerError

/-- `resolved` is what `resolve_actor` answers for this request. -/
def updateRun [DecidableEq J] (s : Store J) (runId : String) (update : RunUpdate J)
    (resolved : Except HTTPException (Option Actor)) (now : Time) :
    Except HTTPException (Run J × Store J) := do
  let run ← lockRun s runId
  let actor ← resolved
  if actor.any (fun actor => !actor.isAdmin) then .error .updateForbidden
  else
    let run ← updateRow runId update now run
    .ok (run, s.writeRun runId run)

def startRun (s : Store J) (runId : String) : Except HTTPException (DeployRunStart × Store J) := do
  let (answer, run) := startRow runId (← lockRun s runId)
  .ok (answer, s.writeRun runId run)

def claimRunDispatch (s : Store J) (runId : String) (now : Time) :
    Except HTTPException (DeployDispatchClaim × Store J) := do
  let (answer, run) ← claimRow runId now (← lockRun s runId)
  .ok (answer, s.writeRun runId run)

def supersedeRunDispatch (s : Store J) (runId reason : String) (now : Time) :
    Except HTTPException (DeployDispatchSupersede × Store J) := do
  let (answer, run) ← supersedeRow runId reason now (← lockRun s runId)
  .ok (answer, s.writeRun runId run)

def withdrawRunDispatch (s : Store J) (runId reason : String) (now : Time) :
    Except HTTPException (DeployDispatchWithdrawal × Store J) := do
  let (answer, run) ← withdrawRow runId reason now (← lockRun s runId)
  .ok (answer, s.writeRun runId run)

def escalateGrant (s : Store J) (grantId : String) (escalation : TemporaryAccessEscalation J) (now : Time) :
    Except HTTPException (TemporaryAccessGrant × Store J) :=
  match s.grants grantId with
  | none => .error (.grantNotFound grantId)
  | some grant =>
    if grant.status = .revoked then .error (.grantRevoked grantId)
    else
      let s := match s.runs grant.qaRunId with
        | none => s
        | some run =>
          s.writeRun grant.qaRunId (escalateRow escalation.runErrorMessage escalation.runResult now run)
      let grant := { grant with
        status := .revokeFailed
        lastError := some escalation.error
        escalatedAt := grant.escalatedAt.or (some now) }
      .ok (grant, { s with grants := Function.update s.grants grantId (some grant) })

inductive Request (J : Type) where
  | create (run : RunCreate) (userExists : Nat → Bool) (referenced : Bool)
  | update (runId : String) (update : RunUpdate J) (resolved : Except HTTPException (Option Actor)) (now : Time)
  | start (runId : String)
  | claim (runId : String) (now : Time)
  | supersede (runId reason : String) (now : Time)
  | withdraw (runId reason : String) (now : Time)
  | escalate (grantId : String) (escalation : TemporaryAccessEscalation J) (now : Time)

def committed {A : Type} (s : Store J) : Except HTTPException (A × Store J) → Store J
  | .ok (_, s') => s'
  | .error _ => s

def Store.serve [DecidableEq J] (s : Store J) : Request J → Store J
  | .create run userExists referenced => committed s (createRun s run userExists referenced)
  | .update runId update resolved now => committed s (updateRun s runId update resolved now)
  | .start runId => committed s (startRun s runId)
  | .claim runId now => committed s (claimRunDispatch s runId now)
  | .supersede runId reason now => committed s (supersedeRunDispatch s runId reason now)
  | .withdraw runId reason now => committed s (withdrawRunDispatch s runId reason now)
  | .escalate grantId escalation now => committed s (escalateGrant s grantId escalation now)

def Store.serveAll [DecidableEq J] (s : Store J) (requests : List (Request J)) : Store J :=
  requests.foldl Store.serve s

end Orchestrator.Api
