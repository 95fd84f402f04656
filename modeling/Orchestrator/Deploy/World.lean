import Orchestrator.Async.Interference
import Orchestrator.Api.RunStore
import Orchestrator.Contracts.Deploy

/-!
The deploy side of the system: deploy workers and the temporary access sweep,
over the run rows, the project locks in Redis and GitHub. What an outside
service answers is left open; what the API and Redis do is not.
-/

namespace Orchestrator.Deploy

open Async Api Contracts

structure AllocationError where
  reason : AllocationFailureReason
  requiredRamMb : Nat
  minDiskMb : Nat
  message : String
deriving DecidableEq

inductive Exn where
  | workflowCancelled (message : String)
  | workflowCancellationUnproven (message : String)
  | dispatchWithdrawn (message : String)
  | deployRefused (message : String)
  | runtimeError (message : String)
  | timeoutError (message : String)
  | allocationError (error : AllocationError)
  | valueError (message : String)
  | exception (message : String)
  | cancelledError
deriving DecidableEq

namespace Exn

def message : Exn → String
  | workflowCancelled message => message
  | workflowCancellationUnproven message => message
  | dispatchWithdrawn message => message
  | deployRefused message => message
  | runtimeError message => message
  | timeoutError message => message
  | allocationError error => error.message
  | valueError message => message
  | exception message => message
  | cancelledError => ""

def isRuntime : Exn → Bool
  | workflowCancelled _ => true
  | workflowCancellationUnproven _ => true
  | dispatchWithdrawn _ => true
  | deployRefused _ => true
  | runtimeError _ => true
  | timeoutError _ => true
  | allocationError _ => false
  | valueError _ => false
  | exception _ => false
  | cancelledError => false

def isCancellation : Exn → Bool
  | workflowCancelled _ => true
  | workflowCancellationUnproven _ => true
  | _ => false

def isException (e : Exn) : Bool := e != .cancelledError

end Exn

structure ProjectConfig where
  modules : List String
  envOverrides : Option (List (String × String))
  botAudience : Option String
  legacyBotAudience : Bool

structure Project where
  slug : String
  config : ProjectConfig

structure Repository where
  id : String
  gitUrl : String

structure Application where
  serverHandle : String
  running : Bool

structure Allocation where
  applicationId : Option Nat
  httpHealthPort : Bool
  serverIp : Option String
  serverHandle : Option String
  port : Option Nat

structure Deployment where
  deployedSha : Option String
  sameEnvironment : Bool

structure WorkflowRun where
  id : Nat
  headSha : Option String

structure NodeUpdate where
  errors : List String
  resolutionOutcome : Option DeployOutcome
  missingUserSecrets : List MissingUserSecret
  testIdentitySlot : Bool

inductive ServiceCall where
  | deployLockTtl
  | publishFlat (stream event taskId text : String)
  | liveWorkCancelled (projectId : String)
  | getProject (projectId : String)
  | getPrimaryRepository (projectId : String)
  | getApplication (applicationId : Nat)
  | patchApplication (applicationId : Nat) (status : String)
  | ensureProjectAllocations (projectId repoId serviceName : String) (modules : List String)
  | latestSuccess (applicationId : Nat) (overrides : List (String × String))
  | getServer (handle : String)
  | getServerSshKey (handle : String)
  | testServiceDir (serverIp projectName : String)
  | runLifecycleCommand (serverHandle projectName : String) (action : DeployAction)
  | allocateResources (projectId : String)
  | loadEnvironmentContract (headSha gitUrl : String)
  | resolveSecrets (overrides : List (String × String))
  | smokeTest (deployedUrl : String)
  | setRepositorySecrets (owner : String)
  | fenceWorkflow (owner : String)
  | createOrResetTag (owner headSha : String)
  | deleteTag (owner headSha : String)
  | waitForWorkflow (owner : String)
  | getLatestWorkflowRun (owner : String)
  | waitForRunCompletion (owner : String) (workflowRunId : Nat)
  | createDeployment (projectId : String) (deployedSha : Option String)
  | reportUnsettledDispatch (grantId : String)

def ServiceCall.Res : ServiceCall → Type
  | deployLockTtl => Nat
  | publishFlat _ _ _ _ => Unit
  | liveWorkCancelled _ => Bool
  | getProject _ => Option Project
  | getPrimaryRepository _ => Option Repository
  | getApplication _ => Application
  | patchApplication _ _ => Unit
  | ensureProjectAllocations _ _ _ _ => List Allocation
  | latestSuccess _ _ => Option Deployment
  | getServer _ => Unit
  | getServerSshKey _ => Option String
  | testServiceDir _ _ => Bool
  | runLifecycleCommand _ _ _ => Int × String
  | allocateResources _ => NodeUpdate
  | loadEnvironmentContract _ _ => NodeUpdate
  | resolveSecrets _ => NodeUpdate
  | smokeTest _ => Option String
  | setRepositorySecrets _ => Bool
  | fenceWorkflow _ => Unit
  | createOrResetTag _ _ => Unit
  | deleteTag _ _ => Unit
  | waitForWorkflow _ => WorkflowRun
  | getLatestWorkflowRun _ => Option Nat
  | waitForRunCompletion _ _ => WorkflowRun
  | createDeployment _ _ => Option Nat
  | reportUnsettledDispatch _ => Unit

inductive Op where
  | service (call : ServiceCall)
  | setLock (projectId taskId : String)
  | deleteLock (projectId : String)
  | getRun (runId : String)
  | startRun (runId : String)
  | patchRun (runId : String) (update : RunUpdate DeployRunResult)
  | claimDispatch (runId : String)
  | withdrawDispatch (runId reason : String)
  | supersedeDispatch (runId reason : String)
  | requireLiveLease (claim : DeployDispatchClaim)
  | triggerWorkflowDispatch (owner : String) (runId : String)
  | rerunFailedJobs (owner : String) (workflowRunId : Nat) (runId : String)

abbrev DeployRun := Run DeployRunResult

def Op.Res : Op → Type
  | service call => call.Res
  | setLock _ _ => Bool
  | deleteLock _ => Unit
  | getRun _ => Option DeployRun
  | startRun _ => DeployRunStart
  | patchRun _ _ => Unit
  | claimDispatch _ => DeployDispatchClaim
  | withdrawDispatch _ _ => DeployDispatchWithdrawal
  | supersedeDispatch _ _ => DeployDispatchSupersede
  | requireLiveLease _ => Time
  | triggerWorkflowDispatch _ _ => Unit
  | rerunFailedJobs _ _ _ => Unit

abbrev deployInterface : Interface := ⟨Op, Op.Res, Exn⟩

abbrev Job (A : Type) := Prog deployInterface A

abbrev perform (op : Op) : Job (Op.Res op) := Prog.perform (I := deployInterface) op

structure TemporaryAccessGrantDTO where
  id : String
  grantRunId : String
deriving DecidableEq

inductive Party where
  | worker (execution : Nat) (msg : DeployMessage)
  | sweep (execution : Nat) (grant : TemporaryAccessGrantDTO) (detail : String)
deriving DecidableEq

inductive Result where
  | job (settled : Bool) (status : String)
  | sweep (proceed : Bool)

inductive Event where
  | acquired (t : Party) (projectId : String)
  | released (t : Party) (projectId : String)
  | granted (t : Party) (claim : DeployDispatchClaim)
  | checked (t : Party) (runId : String)
  | recorded (t : Party) (runId : String)
  | dispatched (t : Party) (runId : String)
  | settled (runId : String)
  | ended (t : Party)
deriving DecidableEq

def Event.lockFree : Event → Bool
  | .acquired _ _ => false
  | .released _ _ => false
  | _ => true

structure State where
  store : Store DeployRunResult
  locks : String → Option String
  now : Time
  trace : List Event

namespace State

def initial (store : Store DeployRunResult) (now : Time) : State := ⟨store, fun _ => none, now, []⟩

def wait (s : State) (elapsed : Time) : State := { s with now := s.now + elapsed }

def record (s : State) (event : Event) : State := { s with trace := event :: s.trace }

def api {A : Type} (s : State) : Except HTTPException (A × Store DeployRunResult) → Except Exn A × State
  | .ok (answer, store) => (.ok answer, { s with store := store })
  | .error e => (.error (.exception e.detail), s)

def setLock (t : Party) (projectId taskId : String) (s : State) : Except Exn Bool × State :=
  match s.locks projectId with
  | some _ => (.ok false, s)
  | none =>
    (.ok true, { s with locks := Function.update s.locks projectId (some taskId) }.record (.acquired t projectId))

def deleteLock (t : Party) (projectId : String) (s : State) : Except Exn Unit × State :=
  (.ok (), { s with locks := Function.update s.locks projectId none }.record (.released t projectId))

/-- `GET runs/` with no id is the list of all runs, which is not a run. -/
def getRun (runId : String) (s : State) : Except Exn (Option DeployRun) × State :=
  if runId.isEmpty then (.error (.valueError "not a run"), s) else (.ok (s.store.runs runId), s)

def claimDispatch (t : Party) (runId : String) (s : State) : Except Exn DeployDispatchClaim × State :=
  match claimRunDispatch s.store runId s.now with
  | .error e => (.error (.exception e.detail), s)
  | .ok (claim, store) =>
    (.ok claim,
      if claim.granted then { s with store := store }.record (.granted t claim) else { s with store := store })

def patchRun (t : Party) (runId : String) (update : RunUpdate DeployRunResult) (s : State) :
    Except Exn Unit × State :=
  match updateRun s.store runId update (.ok none) s.now with
  | .error e => (.error (.exception e.detail), s)
  | .ok (_, store) => (.ok (), { s with store := store }.record (.recorded t runId))

def requireLiveLease (t : Party) (claim : DeployDispatchClaim) (s : State) : Except Exn Time × State :=
  match claim.leaseExpiresAt with
  | none => (.ok s.now, s.record (.checked t claim.runId))
  | some (_, false) => (.error (.exception "can't compare offset-naive and offset-aware datetimes"), s)
  | some (lease, true) =>
    if s.now < lease then (.ok s.now, s.record (.checked t claim.runId))
    else (.error (.dispatchWithdrawn ("deploy run " ++ claim.runId ++
      " held its dispatch claim past its lease and may no longer dispatch")), s)

end State

/-- `service` is what the outside services answer to this call; `fate` whether a
call to the API, to Redis or to GitHub is served and heard. -/
structure Reply where
  elapsed : Time
  fate : Fate Exn
  service : (call : ServiceCall) → Except Exn call.Res

def run (t : Party) (op : Op) (reply : Reply) (s : State) : Except Exn (Op.Res op) × State :=
  let s := s.wait reply.elapsed
  match op with
  | .service call => (reply.service call, s)
  | .setLock projectId taskId => reply.fate.serve (State.setLock t projectId taskId) s
  | .deleteLock projectId => reply.fate.serve (State.deleteLock t projectId) s
  | .getRun runId => reply.fate.serve (State.getRun runId) s
  | .startRun runId => reply.fate.serve (fun s => s.api (startRun s.store runId)) s
  | .patchRun runId update => reply.fate.serve (State.patchRun t runId update) s
  | .claimDispatch runId => reply.fate.serve (State.claimDispatch t runId) s
  | .withdrawDispatch runId reason =>
      reply.fate.serve (fun s => s.api (withdrawRunDispatch s.store runId reason s.now)) s
  | .supersedeDispatch runId reason =>
      reply.fate.serve (fun s => s.api (supersedeRunDispatch s.store runId reason s.now)) s
  | .requireLiveLease claim => State.requireLiveLease t claim s
  | .triggerWorkflowDispatch _ runId => reply.fate.serve (fun s => (.ok (), s.record (.dispatched t runId))) s
  | .rerunFailedJobs _ _ runId => reply.fate.serve (fun s => (.ok (), s.record (.dispatched t runId))) s

def ended : Party → Option (Except Exn Result) → State → State
  | .sweep n grant detail, some (.ok (.sweep true)), s =>
      (s.record (.settled grant.grantRunId)).record (.ended (.sweep n grant detail))
  | t, _, s => s.record (.ended t)

abbrev deployWorld : World deployInterface Party Result := ⟨State, fun _ => Reply, run, ended⟩

def idlePool (store : Store DeployRunResult) (now : Time) : Config deployWorld := .idle (State.initial store now)

end Orchestrator.Deploy
