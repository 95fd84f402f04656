import Orchestrator.Deploy.Deployer

namespace Orchestrator.Deploy

open Async Api Contracts

def settled (status : String) : Result := .job true status

def unsettled (status : String) : Result := .job false status

def publishCallbackEvent (msg : DeployMessage) (event text : String) : Job Unit := do
  match msg.callbackStream with
  | none => return ()
  | some stream =>
    let _ ← ask (.publishFlat stream event msg.taskId text)

def handleDeployFailure (msg : DeployMessage) (error : String) (outcome : DeployOutcome)
    (missing : List MissingUserSecret) : Job Result := do
  patchRun msg.taskId (outcomePatch .failed (some error)
    { DeployRunResult.of outcome with
      errorDetails := some error
      deployFixAttempt := msg.deployFixAttempt
      missingUserSecrets := missing })
  publishCallbackEvent msg "failed" error
  return unsettled "failed"

def handleSmokeFailure (msg : DeployMessage) (url details : String) : Job Result := do
  patchRun msg.taskId (outcomePatch .failed (some ("Deployed but smoke test failed: " ++ details))
    { DeployRunResult.of .retry with
      deployedUrl := some url
      errorDetails := some details
      deployFixAttempt := msg.deployFixAttempt })
  publishCallbackEvent msg "failed" ("Deployed but smoke test failed: " ++ details)
  return unsettled "failed"

def handleDeploySuccess (msg : DeployMessage) (url : String) (result : SubgraphResult) : Job Result := do
  patchRun msg.taskId (outcomePatch .completed none
    { DeployRunResult.of .success with
      deployedUrl := some url
      applicationId := result.applicationId
      testIdentitySlot := result.testIdentitySlot })
  if msg.storyId.isEmpty then publishCallbackEvent msg "completed" ("Deploy completed: " ++ url)
  return settled "success"

def giveUp (msg : DeployMessage) (error : String) : Job Result := do
  patchRun msg.taskId (outcomePatch .failed (some error) (.of .giveUp))
  return unsettled "failed"

def effectiveEnvOverrides (project : Project) (msg : DeployMessage) : Except Exn (List (String × String)) :=
  match project.config.envOverrides with
  | none => .error (.valueError "project env_overrides must be a string mapping")
  | some configured =>
    match project.config.botAudience, msg.envOverrides.lookup "TG_BOT_ALLOWED_TELEGRAM_IDS" with
    | some selected, some audience =>
      if audience = selected then .ok (msg.envOverrides ++ configured)
      else .error (.valueError "deploy cannot override the configured bot audience")
    | none, some _ =>
      if project.config.legacyBotAudience then
        .error (.valueError "deploy cannot override the legacy private bot audience")
      else .ok (msg.envOverrides ++ configured)
    | _, none => .ok (msg.envOverrides ++ configured)

def legacyBotAudienceNeedsContractResolution (project : Project) : Bool :=
  project.config.legacyBotAudience && project.config.botAudience.isNone &&
    (match project.config.envOverrides with
      | none => true
      | some overrides => (overrides.lookup "TG_BOT_ALLOWED_TELEGRAM_IDS").isNone)

def deployInfraPortServices : List String := ["postgres", "redis"]

def allocateResources (projectId : String) (project : Project) : Job (Except String (List Allocation)) := do
  match ← ask (.getPrimaryRepository projectId) with
  | none => return .error ("No repository found for project " ++ projectId)
  | some repository =>
    return .ok (← ask (.ensureProjectAllocations projectId repository.id project.slug
      (project.config.modules ++ deployInfraPortServices).eraseDups))

def recordInfrastructureWait (msg : DeployMessage) (error : AllocationError) : Job Result := do
  patchRun msg.taskId (outcomePatch .failed (some error.message)
    { DeployRunResult.of .waitingInfrastructure with
      allocationFailureReason := some error.reason
      allocationRequiredRamMb := some error.requiredRamMb
      allocationMinDiskMb := some error.minDiskMb
      errorDetails := some error.message })
  return unsettled "waiting_infrastructure"

def alreadyDeployedApplication (headSha : String) (overrides : List (String × String)) :
    List Nat → Job (Option Nat)
  | [] => return none
  | applicationId :: rest => do
    match ← ask (.latestSuccess applicationId overrides) with
    | none => alreadyDeployedApplication headSha overrides rest
    | some deployment =>
      if deployment.deployedSha = some headSha && deployment.sameEnvironment then
        let application ← ask (.getApplication applicationId)
        if application.running then return some applicationId
        else alreadyDeployedApplication headSha overrides rest
      else alreadyDeployedApplication headSha overrides rest

def dirMismatch (serverIp projectName : String) (action : DeployAction) (dirExists : Bool) : Option String :=
  if action = .create && dirExists then
    some ("Service dir /opt/services/" ++ projectName ++ "/ already exists on " ++ serverIp ++
      ". Clean up the previous deployment or use action='feature'.")
  else if (action = .feature || action = .fix) && !dirExists then
    some ("Service dir /opt/services/" ++ projectName ++ "/ not found on " ++ serverIp ++
      ". Project was never deployed. Use action='create' for first deploy.")
  else none

def preCheckServer (serverIp projectName : String) (action : DeployAction) : Job (Option String) :=
  Prog.handle (do
    let dirExists ← ask (.testServiceDir serverIp projectName)
    return dirMismatch serverIp projectName action dirExists)
    fun e =>
      if e.isException then return some ("SSH pre-check failed for " ++ serverIp ++ ": " ++ e.message)
      else .raise e

def runDeployPrecheck (allocated : List Allocation) (project : Project) (action : DeployAction) :
    Job (Option String) := do
  match allocated.head?.bind (·.serverIp), allocated.head?.bind (·.serverHandle) with
  | some serverIp, some handle =>
    let _ ← ask (.getServer handle)
    match ← ask (.getServerSshKey handle) with
    | none => return none
    | some _ => preCheckServer serverIp project.slug action
  | _, _ => return none

/-- `create` falls back to `feature` where the service directory is already there. -/
def precheckWithFallback (allocated : List Allocation) (project : Project) (action : DeployAction) :
    Job (Option String) := do
  match ← runDeployPrecheck allocated project action with
  | none => return none
  | some error =>
    if action = .create && (error.splitOn "already exists").length != 1 then
      runDeployPrecheck allocated project .feature
    else return some error

def runLifecycleCommand (serverHandle projectName : String) (action : DeployAction) : Job (Option String) :=
  Prog.handle (do
    let (exitStatus, stderr) ← ask (.runLifecycleCommand serverHandle projectName action)
    return if exitStatus = 0 then none
      else some ("SSH command failed (exit " ++ toString exitStatus ++ "): " ++ stderr))
    fun e => if e.isException then return some e.message else .raise e

def processLifecycleAction (msg : DeployMessage) (project : Project) (serverHandle : String) :
    Job (Option String) := do
  let _ ← ask (.getServer serverHandle)
  match ← ask (.getServerSshKey serverHandle) with
  | none => return some ("No SSH key for server " ++ serverHandle)
  | some _ => runLifecycleCommand serverHandle project.slug msg.action

def handleLifecycleAction (msg : DeployMessage) (project : Project) : Job Result := do
  match msg.applicationId with
  | none => .raise (.valueError "application_id is required")
  | some applicationId =>
    let application ← ask (.getApplication applicationId)
    match ← processLifecycleAction msg project application.serverHandle with
    | some error =>
      patchRun msg.taskId (outcomePatch .failed (some error) { DeployRunResult.of .giveUp with action := some msg.action })
      return unsettled "failed"
    | none =>
      patchRun msg.taskId (outcomePatch .completed none { DeployRunResult.of .success with action := some msg.action })
      let _ ← ask (.patchApplication applicationId (if msg.action = .undeploy then "not_deployed" else "stopped"))
      return settled "success"

def handleMissingSecrets (msg : DeployMessage) (result : SubgraphResult) : Job Result :=
  if result.resolutionOutcome.any (· != .waitingForUserSecret) then
    .raise (.valueError "missing_user_secrets present but resolution_outcome is unexpected")
  else
    handleDeployFailure msg ("Missing secrets: " ++ ", ".intercalate (result.missingUserSecrets.map (·.key)))
      .waitingForUserSecret result.missingUserSecrets

def routeSubgraphResult (msg : DeployMessage) (result : SubgraphResult) : Job Result :=
  if result.deployment = some .cancelled then do
    patchRun msg.taskId (outcomePatch .cancelled (some "Deploy was cancelled before it could finish")
      { DeployRunResult.of .cancelled with action := some msg.action })
    return unsettled "cancelled"
  else match result.deployedUrl, result.smokeFailure with
    | some url, some details => handleSmokeFailure msg url details
    | some url, none => handleDeploySuccess msg url result
    | none, _ =>
      if !result.missingUserSecrets.isEmpty then handleMissingSecrets msg result
      else handleDeployFailure msg ("; ".intercalate result.errors) (result.resolutionOutcome.getD .retry) []

def redundantWith (msg : DeployMessage) (project : Project) (allocated : List Allocation)
    (overrides : List (String × String)) : Job (Option Nat) :=
  if !msg.fenceActiveDeploys && !legacyBotAudienceNeedsContractResolution project then
    alreadyDeployedApplication msg.headSha overrides (allocated.filterMap (·.applicationId)).eraseDups
  else return none

def deployToTarget (msg : DeployMessage) (project : Project) (allocated : List Allocation)
    (overrides : List (String × String)) : Job Result := do
  let repository ← ask (.getPrimaryRepository msg.projectId)
  let result ← devopsSubgraph {
    projectId := msg.projectId
    runId := msg.taskId
    slug := project.slug
    gitUrl := (repository.map (·.gitUrl)).getD ""
    allocatedResources := allocated
    envOverrides := overrides
    headSha := msg.headSha
    fenceActiveDeploys := msg.fenceActiveDeploys }
  routeSubgraphResult msg result

def deployAllocated (msg : DeployMessage) (project : Project) (allocated : List Allocation)
    (overrides : List (String × String)) : Job Result := do
  match ← redundantWith msg project allocated overrides with
  | some applicationId =>
    patchRun msg.taskId (outcomePatch .completed none
      { DeployRunResult.of .success with applicationId := some applicationId, action := some msg.action })
    publishCallbackEvent msg "completed" "Deploy skipped: application already runs this commit"
    return settled "success"
  | none =>
    match ← precheckWithFallback allocated project msg.action with
    | some error => handleDeployFailure msg error .retry []
    | none => deployToTarget msg project allocated overrides

def deployCommit (msg : DeployMessage) (project : Project) : Job Result := do
  match ← Prog.attempt (I := deployInterface) (allocateResources msg.projectId project) with
  | .error (.allocationError error) => recordInfrastructureWait msg error
  | .error e => .raise e
  | .ok (.error error) => giveUp msg error
  | .ok (.ok allocated) =>
    match effectiveEnvOverrides project msg with
    | .error e => handleDeployFailure msg e.message .environmentContractInvalid []
    | .ok overrides => deployAllocated msg project allocated overrides

def deployProject (msg : DeployMessage) : Job Result := do
  publishCallbackEvent msg "progress" "Deploy task started"
  if !lifecycleActions.contains msg.action && msg.headSha.isEmpty then
    handleDeployFailure msg "head_sha is required for deploy actions that read repository state"
      .headShaMissing []
  else
    match ← ask (.getProject msg.projectId) with
    | none => giveUp msg ("Project " ++ msg.projectId ++ " not found")
    | some project =>
      if lifecycleActions.contains msg.action then handleLifecycleAction msg project
      else deployCommit msg project

def acquireLock (projectId taskId : String) : Job Bool :=
  perform (.setLock projectId taskId)

def releaseLock (projectId : String) : Job Unit := perform (.deleteLock projectId)

def startRun (runId : String) : Job DeployRunStart := perform (.startRun runId)

def lockAndDeploy (msg : DeployMessage) : Job Result := do
  let _ ← ask .deployLockTtl
  if ← acquireLock msg.projectId msg.taskId then
    let start ← startRun msg.taskId
    if start.started then deployProject msg
    else return settled "cancelled"
  else
    patchRun msg.taskId (outcomePatch .cancelled
      (some ("Skipped: another deploy is already in progress for project " ++ msg.projectId))
      { DeployRunResult.of .cancelled with action := some msg.action })
    return unsettled "cancelled"

def onDeployException (msg : DeployMessage) (e : Exn) : Job Result :=
  match e with
  | .workflowCancellationUnproven _ => .raise e
  | .cancelledError => .raise e
  | _ => do
    let fenced ← if msg.projectId.isEmpty then pure false else ask (.liveWorkCancelled msg.projectId)
    if fenced then .raise e else handleDeployFailure msg e.message .retry []

def processDeployJob (msg : DeployMessage) : Job Result := do
  let run ← getRun msg.taskId
  if run.status = .member .cancelled then return settled "cancelled"
  Prog.ensuring (Prog.handle (lockAndDeploy msg) (onDeployException msg))
    (releaseLock msg.projectId)

end Orchestrator.Deploy

namespace Orchestrator.Deploy

open Async Api Contracts

def dispatchSettled (run : DeployRun) : Bool :=
  run.stamped dispatchSupersededAtKey || (run.terminal && run.result.isSome)

def withdrawDeployDispatch (runId reason : String) : Job DeployDispatchWithdrawal :=
  perform (.withdrawDispatch runId reason)

def supersedeDeployDispatch (runId reason : String) : Job DeployDispatchSupersede :=
  perform (.supersedeDispatch runId reason)

def stopGrantDeploy (grant : TemporaryAccessGrantDTO) (detail : String) : Job Bool := do
  match ← getRunIfMissingReturnsNone grant.grantRunId with
  | none => return true
  | some run =>
    if dispatchSettled run then return true
    else
      let withdrawal ← withdrawDeployDispatch grant.grantRunId
        ("temporary access grant " ++ grant.id ++ " was abandoned: " ++ detail)
      if withdrawal.claimedAt.isNone then return true
      else
        let again ← getRunIfMissingReturnsNone grant.grantRunId
        if again.any dispatchSettled then return true
        else
          let supersede ← supersedeDeployDispatch grant.grantRunId
            ("temporary access grant " ++ grant.id ++ " took the dispatch back: " ++ detail)
          if supersede.outcome.settled then return true
          else
            let _ ← ask (.reportUnsettledDispatch grant.id)
            return false

def body : Party → Job Result
  | .worker _ msg => processDeployJob msg
  | .sweep _ grant detail => do return .sweep (← stopGrantDeploy grant detail)

end Orchestrator.Deploy
