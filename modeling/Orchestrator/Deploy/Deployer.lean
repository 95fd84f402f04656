import Orchestrator.Deploy.World

namespace Orchestrator.Deploy

open Async Api Contracts

def ask (call : ServiceCall) : Job call.Res := perform (.service call)

def liftExcept {A : Type} (result : Except Exn A) : Job A := Prog.ofExcept (I := deployInterface) result

def runDTO (run : DeployRun) : Except Exn DeployRun :=
  match run.status, run.type with
  | .member status, .member type =>
    if run.result.isNone && (status == .completed || status == .failed) then
      .error (.valueError ("run.result is required when status is " ++ status.value))
    else if run.result.isSome && type != .deploy then
      .error (.valueError ("run.result is DeployRunResult but run.type is " ++ type.value))
    else .ok run
  | _, _ => .error (.valueError "not a run")

def fetchRun (runId : String) : Job (Option DeployRun) := perform (.getRun runId)

def getRun (runId : String) : Job DeployRun := do
  match ← fetchRun runId with
  | none => .raise (.exception (HTTPException.runNotFound runId).detail)
  | some run => liftExcept (runDTO run)

def getRunIfMissingReturnsNone (runId : String) : Job (Option DeployRun) := do
  match ← fetchRun runId with
  | none => return none
  | some run => return some (← liftExcept (runDTO run))

def patchRun (runId : String) (update : RunUpdate DeployRunResult) : Job Unit :=
  perform (.patchRun runId update)

def outcomePatch (status : RunStatus) (error : Option String) (result : DeployRunResult) :
    RunUpdate DeployRunResult :=
  { RunUpdate.empty with
    status := some (some (.member status))
    errorMessage := error.map some
    result := some (some result) }

def runCancelled (runId : String) : Job Bool := do
  if runId.isEmpty then return false
  else match ← fetchRun runId with
    | none => .raise (.exception (HTTPException.runNotFound runId).detail)
    | some run => return run.status == .member .cancelled

def claimDispatch (runId : String) : Job (Option DeployDispatchClaim) := do
  if runId.isEmpty then return none
  else
    let claim ← perform (.claimDispatch runId)
    if claim.granted then return some claim
    else .raise (.dispatchWithdrawn
      ("deploy run " ++ runId ++ " was " ++ claim.runStatus.text ++ " before it was dispatched"))

def requireLiveLease : Option DeployDispatchClaim → Job Unit
  | none => return ()
  | some claim => do
    let _ ← perform (.requireLiveLease claim)

def triggerWorkflowDispatch (owner runId : String) : Job Unit :=
  perform (.triggerWorkflowDispatch owner runId)

def rerunFailedJobs (owner : String) (workflowRunId : Nat) (runId : String) : Job Unit :=
  perform (.rerunFailedJobs owner workflowRunId runId)

def crossBoundary (runId : String) (effect : Job Unit) : Job Unit := do
  let claim ← claimDispatch runId
  requireLiveLease claim
  effect

def tryDeployRerun (owner runId : String) : Job (Option WorkflowRun) :=
  Prog.handle (do
    match ← ask (.getLatestWorkflowRun owner) with
    | none => return none
    | some workflowRunId =>
      crossBoundary runId (rerunFailedJobs owner workflowRunId runId)
      return some (← ask (.waitForRunCompletion owner workflowRunId)))
    fun e => match e with
      | .dispatchWithdrawn _ => .raise e
      | _ =>
        if e.isCancellation || !e.isException then .raise e
        else return none

def removePinTag (owner headSha : String) : Job (Option Exn) :=
  if headSha.isEmpty then return none
  else Prog.handle (do
    let _ ← ask (.deleteTag owner headSha)
    return none)
    fun e => if e.isException then return some e else .raise e

def fenceActiveDeploys (owner : String) : Job Unit :=
  Prog.handle (do
    let _ ← ask (.fenceWorkflow owner)
    return ())
    fun e =>
      if e.isCancellation then
        .raise (.deployRefused ("an earlier deploy.yml run in " ++ owner ++ " could not be proven stopped: " ++ e.message))
      else .raise e

def verifyDeployedSha (info : WorkflowRun) (headSha : String) : Except Exn Unit :=
  if headSha.isEmpty then .ok ()
  else
    let deployed := (info.headSha.getD "").toLower
    if deployed = headSha.toLower then .ok ()
    else .error (.deployRefused ("deploy run " ++ toString info.id ++ " built commit " ++
      (if deployed.isEmpty then "unknown" else deployed) ++ ", requested " ++ headSha))

def dispatchAndRerun (owner runId : String) : Job (WorkflowRun × Bool) := do
  crossBoundary runId (triggerWorkflowDispatch owner runId)
  Prog.handle (do return (← ask (.waitForWorkflow owner), false))
    fun e =>
      if e.isRuntime && !e.isCancellation then do
        match ← tryDeployRerun owner runId with
        | none => .raise e
        | some info => return (info, true)
      else .raise e

def dispatchPinned (owner headSha runId : String) : Job (WorkflowRun × Bool) := do
  if !headSha.isEmpty then
    let _ ← ask (.createOrResetTag owner headSha)
  dispatchAndRerun owner runId

def dispatchAndWait (owner headSha runId : String) : Job (WorkflowRun × Bool) := do
  let result ← Prog.attempt (dispatchPinned owner headSha runId)
  let cleanupError ← removePinTag owner headSha
  let (info, rerun) ← liftExcept result
  match cleanupError with
  | some e => .raise (.deployRefused ("deploy pin tag survived in " ++ owner ++ ": " ++ e.message))
  | none =>
    liftExcept (verifyDeployedSha info headSha)
    return (info, rerun)

inductive DeploymentStatus where
  | success | failed | cancelled | error
deriving DecidableEq

structure DeployerUpdate where
  status : DeploymentStatus
  errors : List String
  deployedUrl : Option String
  applicationId : Option Nat

def DeployerUpdate.failed (error : String) : DeployerUpdate := ⟨.failed, [error], none, none⟩

def DeployerUpdate.cancelled : DeployerUpdate := ⟨.cancelled, [], none, none⟩

structure SubgraphInput where
  projectId : String
  runId : String
  slug : String
  gitUrl : String
  allocatedResources : List Allocation
  envOverrides : List (String × String)
  headSha : String
  fenceActiveDeploys : Bool

def writeDeploySecrets (owner : String) : Job Bool :=
  Prog.handle (ask (.setRepositorySecrets owner)) fun e => if e.isException then return false else .raise e

def createDeploymentRecord (projectId : String) (deployedSha : Option String) : Job (Option Nat) :=
  Prog.handle (ask (.createDeployment projectId deployedSha))
    fun e => if e.isException then return none else .raise e

def dispatchOrStop (input : SubgraphInput) : Job (Except DeployerUpdate WorkflowRun) :=
  Prog.handle (do
    let (info, _) ← dispatchAndWait input.gitUrl input.headSha input.runId
    return .ok info)
    fun e => match e with
      | .dispatchWithdrawn _ => return .error .cancelled
      | .deployRefused message => return .error (.failed ("Deploy refused: " ++ message))
      | _ => .raise e

def dispatchAndRecord (input : SubgraphInput) (serverIp : String) (port : Nat) : Job DeployerUpdate := do
  match ← dispatchOrStop input with
  | .error update => return update
  | .ok info =>
    let applicationId ← createDeploymentRecord input.projectId info.headSha
    return ⟨.success, [], some ("http://" ++ serverIp ++ ":" ++ toString port), applicationId⟩

def sshKeyOf : Option String → Job (Option String)
  | none => return none
  | some handle => do
    let _ ← ask (.getServer handle)
    ask (.getServerSshKey handle)

def fenceOrRefuse (input : SubgraphInput) : Job (Option String) :=
  if input.fenceActiveDeploys then
    Prog.handle (do
      fenceActiveDeploys input.gitUrl
      return none)
      fun e => match e with
        | .deployRefused message => return some message
        | _ => .raise e
  else return none

def deployTo (input : SubgraphInput) (serverIp : String) (port : Nat) (serverHandle : Option String) :
    Job DeployerUpdate := do
  if ← runCancelled input.runId then return .cancelled
  match ← sshKeyOf serverHandle with
  | none => return .failed "No SSH key for server"
  | some _ =>
    let _ ← writeDeploySecrets input.gitUrl
    match ← fenceOrRefuse input with
    | some message => return .failed ("Deploy refused: " ++ message)
    | none =>
      if ← runCancelled input.runId then return .cancelled
      else dispatchAndRecord input serverIp port

def deployerRun (input : SubgraphInput) : Job DeployerUpdate :=
  if input.projectId.isEmpty then return .failed "No project_id for deployment"
  else if input.gitUrl.isEmpty then return .failed "No repository URL found in project spec"
  else
    let resource := input.allocatedResources.find? (·.httpHealthPort)
    match resource.bind (·.serverIp), resource.bind (·.port) with
    | some serverIp, some port =>
      Prog.handle (deployTo input serverIp port (resource.bind (·.serverHandle)))
        fun e => match e with
          | .workflowCancellationUnproven _ => .raise e
          | .workflowCancelled _ => return .cancelled
          | .cancelledError => .raise e
          | .timeoutError message => return .failed ("Deploy timeout: " ++ message)
          | _ =>
            if e.isRuntime then return .failed ("Deploy workflow failed: " ++ e.message)
            else return ⟨.error, ["Deployment error: " ++ e.message], none, none⟩
    | _, _ => return .failed "No server_ip/port in allocated_resources"

structure SubgraphResult where
  deployment : Option DeploymentStatus
  errors : List String
  deployedUrl : Option String
  applicationId : Option Nat
  smokeFailure : Option String
  missingUserSecrets : List MissingUserSecret
  resolutionOutcome : Option DeployOutcome
  testIdentitySlot : Bool

def NodeUpdate.ended (update : NodeUpdate) : SubgraphResult :=
  ⟨none, update.errors, none, none, none, update.missingUserSecrets, update.resolutionOutcome,
    update.testIdentitySlot⟩

def deployAndSmoke (input : SubgraphInput) (testIdentitySlot : Bool) : Job SubgraphResult := do
  let update ← deployerRun input
  let result : SubgraphResult := ⟨some update.status, update.errors, update.deployedUrl, update.applicationId,
    none, [], none, testIdentitySlot⟩
  match update.deployedUrl with
  | some url =>
    if update.errors.isEmpty then
      let smokeFailure ← ask (.smokeTest url)
      return { result with smokeFailure := smokeFailure }
    else return result
  | none => return result

def resolveAndDeploy (input : SubgraphInput) : Job SubgraphResult := do
  let contract ← ask (.loadEnvironmentContract input.headSha input.gitUrl)
  if !contract.errors.isEmpty then return contract.ended
  let secrets ← ask (.resolveSecrets input.envOverrides)
  if !secrets.errors.isEmpty || !secrets.missingUserSecrets.isEmpty then return secrets.ended
  deployAndSmoke input contract.testIdentitySlot

def devopsSubgraph (input : SubgraphInput) : Job SubgraphResult := do
  if input.allocatedResources.isEmpty then
    let _ ← ask (.allocateResources input.projectId)
  resolveAndDeploy input

end Orchestrator.Deploy
