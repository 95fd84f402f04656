import Mathlib.Data.List.DropRight
import Orchestrator.Payload.World
import Orchestrator.Python.Number

namespace Orchestrator.Payload

open Async Api Contracts
open Deploy (Exn WorkflowRun DeploymentStatus)

def perform (op : Op) : Job op.Res := Prog.perform (I := payloadInterface) op

def liftExcept {A : Type} (result : Except Exn A) : Job A := Prog.ofExcept (I := payloadInterface) result

def emptyOverridesDigest : String := "none"

def envOverridesDigest (platform : Platform) (overrides : Dict) : String :=
  if overrides.isEmpty then emptyOverridesDigest else platform.sha256 overrides

def merge (base override : Dict) : Dict := base.filter (fun entry => (override.lookup entry.1).isNone) ++ override

def needsQuoting (value : String) : Bool := value.toList.any (" =\"'\n#".toList.contains ·)

def escape (value : String) : String :=
  String.ofList (value.toList.flatMap fun c =>
    if c = '\\' then ['\\', '\\'] else if c = '"' then ['\\', '"'] else [c])

def dotenvLine (entry : String × String) : String :=
  if needsQuoting entry.2 then entry.1 ++ "=\"" ++ escape entry.2 ++ "\"" else entry.1 ++ "=" ++ entry.2

def buildDotenv (secrets : Dict) : String :=
  String.intercalate "\n" ((secrets.mergeSort fun a b => a.1 ≤ b.1).map dotenvLine)

def httpHealthPortServices : List String := ["backend"]

def isHttpHealthPortService (serviceName : String) : Bool := httpHealthPortServices.contains serviceName

structure DeployParams where
  owner : String
  repo : String
  projectName : String
  serverIp : Option String
  port : Option Nat
  serverHandle : Option String

def urlParts (url : String) : List String := ((url.toList.rdropWhile (· = '/')).splitOn '/').map String.ofList

def projectSpecRuntimeSlug (state : DevOpsState) : Except Exn String :=
  match state.slug with
  | none => .error (.runtimeError "project slug is required for runtime operations")
  | some slug => if slug.isEmpty then .error (.runtimeError "project slug is required for runtime operations") else .ok slug

def extractDeployParams (state : DevOpsState) : Except Exn (Option DeployParams) :=
  if state.htmlUrl.isEmpty then .ok none
  else match (urlParts state.htmlUrl).reverse with
    | repo :: owner :: _ => do
      let projectName ← projectSpecRuntimeSlug state
      let resource := state.allocatedResources.find? fun resource => isHttpHealthPortService resource.serviceName
      .ok (some ⟨owner, repo, projectName, resource.bind (·.serverIp), resource.bind (·.port), resource.bind (·.serverHandle)⟩)
    | _ => .error (.exception "list index out of range")

def truthy (text : Option String) : Option String := text.filter (!·.isEmpty)

structure Registry where
  url : String
  user : String
  password : String

def registry (platform : Platform) : Option Registry := do
  let url ← truthy (platform.getenv "ORCHESTRATOR_HOSTNAME")
  let user ← truthy (platform.getenv "REGISTRY_USER")
  let password ← truthy (platform.getenv "REGISTRY_PASSWORD")
  return ⟨url, user, password⟩

def secretsMap (registry : Registry) (serverIp : String) (port : Nat) (projectName dotenvB64 sshKey sshUser : String) : Dict :=
  [("DOTENV", dotenvB64), ("DEPLOY_HOST", serverIp), ("DEPLOY_USER", sshUser), ("DEPLOY_SSH_KEY", sshKey),
    ("DEPLOY_PORT", toString port), ("PROJECT_NAME", projectName), ("REGISTRY_URL", registry.url),
    ("REGISTRY_USER", registry.user), ("REGISTRY_PASSWORD", registry.password)]

def setRepositorySecret (owner repo : String) (secret : String × String) : Job Unit :=
  perform (.setRepositorySecret owner repo secret.1 secret.2)

def setRepositorySecrets (owner repo : String) : Dict → Job Nat
  | [] => return 0
  | secret :: secrets => do
    let set ← Prog.handle (do
        setRepositorySecret owner repo secret
        return 1)
      fun e => if e.isException then return 0 else .raise e
    let others ← setRepositorySecrets owner repo secrets
    return set + others

def writeAll (owner repo : String) (secrets : Dict) : Job Bool :=
  Prog.handle (do
      let set ← setRepositorySecrets owner repo secrets
      return set = secrets.length)
    fun e => if e.isException then return false else .raise e

def writeDeploySecrets (platform : Platform) (owner repo serverIp : String) (port : Nat)
    (projectName dotenvB64 sshKey sshUser : String) : Job Bool :=
  match registry platform with
  | none => return false
  | some registry => writeAll owner repo (secretsMap registry serverIp port projectName dotenvB64 sshKey sshUser)

def runCancelled (runId : String) : Job Bool :=
  if runId.isEmpty then return false
  else do
    let status : String ← perform (.getRun runId)
    return status = "cancelled"

def claimDispatch (runId : String) : Job (Option DeployDispatchClaim) :=
  if runId.isEmpty then return none
  else do
    let claim : DeployDispatchClaim ← perform (.claimDispatch runId)
    if claim.granted then return some claim
    else .raise (.dispatchWithdrawn
      ("deploy run " ++ runId ++ " was " ++ claim.runStatus.text ++ " before it was dispatched"))

def requireLiveLease (claim : Option DeployDispatchClaim) (moment : Time) : Except Exn Unit :=
  match claim with
  | none => .ok ()
  | some claim => match claim.leaseExpiresAt with
    | none => .ok ()
    | some (_, false) => .error (.exception "can't compare offset-naive and offset-aware datetimes")
    | some (lease, true) =>
      if moment < lease then .ok ()
      else .error (.dispatchWithdrawn ("deploy run " ++ claim.runId ++
        " held its dispatch claim past its lease and may no longer dispatch"))

def crossBoundary (runId : String) : Job Time := do
  let claim ← claimDispatch runId
  let moment : Time ← perform .utcnow
  liftExcept (requireLiveLease claim moment)
  return moment

def rerun (owner repo runId : String) (workflowRunId : Nat) : Job WorkflowRun := do
  let _ ← crossBoundary runId
  perform (.rerunFailedJobs owner repo workflowRunId)
  perform (.sleep 3)
  perform (.waitForRunCompletion owner repo workflowRunId runId)

def tryDeployRerun (owner repo : String) (dispatchTime : Time) (ref headSha runId : String) : Job (Option WorkflowRun) :=
  Prog.handle (do
    let latest : Option Nat ← perform (.getLatestWorkflowRun owner repo ref dispatchTime headSha)
    match latest with
    | none => return none
    | some workflowRunId => do
      let info ← rerun owner repo runId workflowRunId
      return some info)
    fun e => match e with
      | .dispatchWithdrawn _ => .raise e
      | _ => if e.isCancellation || !e.isException then .raise e else return none

def removePinTag (owner repo tag : String) : Job (Option Exn) :=
  Prog.handle (do
    perform (.deleteRef owner repo ("tags/" ++ tag))
    return none)
    fun e => if e.isException then return some e else .raise e

def fenceActiveDeploys (owner repo : String) : Job Unit :=
  Prog.handle (perform (.fenceWorkflow owner repo)) fun e =>
    if e.isCancellation then
      .raise (.deployRefused ("an earlier deploy.yml run in " ++ owner ++ "/" ++ repo ++ " could not be proven stopped: " ++ e.message))
    else .raise e

def isCommitSha (sha : List Char) : Bool :=
  (sha.length = 40 || sha.length = 64) && sha.all fun c => c.isDigit || ('a' ≤ c && c ≤ 'f')

def deployPinTag (headSha : String) : Except Exn String :=
  let sha := (Python.strip headSha.toList).map Char.toLower
  if isCommitSha sha then .ok ("codegen-deploy-pin-" ++ String.ofList sha)
  else .error (.valueError ("deploy pin tag needs a full commit SHA, got " ++ headSha))

def dispatch (owner repo runId : String) (tag : Option String) : Job Time := do
  let dispatchTime ← crossBoundary runId
  perform (.triggerWorkflowDispatch owner repo tag)
  return dispatchTime

def waitOrRerun (owner repo ref headSha runId : String) (dispatchTime : Time) : Job (WorkflowRun × Bool) :=
  Prog.handle (do
    let info : WorkflowRun ← perform (.waitForWorkflowCompletion owner repo ref dispatchTime headSha runId)
    return (info, false))
    fun e =>
      if e.isRuntime && !e.isCancellation then do
        match ← tryDeployRerun owner repo dispatchTime ref headSha runId with
        | none => .raise e
        | some info => return (info, true)
      else .raise e

def verifyDeployedSha (info : WorkflowRun) (headSha : String) : Except Exn Unit :=
  if headSha.isEmpty then .ok ()
  else
    let deployed := (info.headSha.getD "").toLower
    if deployed = headSha.toLower then .ok ()
    else .error (.deployRefused ("deploy run " ++ toString info.id ++ " built commit " ++
      (if deployed.isEmpty then "unknown" else deployed) ++ ", requested " ++ headSha))

def createTag (owner repo headSha : String) : Option String → Job Unit
  | none => return ()
  | some tag => perform (.createOrResetTag owner repo tag headSha)

def dropTag (owner repo : String) : Option String → Job (Option Exn)
  | none => return none
  | some tag => removePinTag owner repo tag

def refuseLeak (owner repo : String) : Option Exn → Except Exn Unit
  | none => .ok ()
  | some e => .error (.deployRefused ("deploy pin tag survived in " ++ owner ++ "/" ++ repo ++ ": " ++ e.message))

def pinTag (headSha : String) : Except Exn (Option String) :=
  if headSha.isEmpty then .ok none else (deployPinTag headSha).map some

def dispatchAndWait (owner repo headSha runId : String) : Job (WorkflowRun × Bool) := do
  let tag ← liftExcept (pinTag headSha)
  let result ← Prog.attempt (do
    createTag owner repo headSha tag
    let dispatchTime ← dispatch owner repo runId tag
    waitOrRerun owner repo (tag.getD "main") headSha runId dispatchTime)
  let cleanupError ← dropTag owner repo tag
  let (info, rerun) ← liftExcept result
  liftExcept (refuseLeak owner repo cleanupError)
  liftExcept (verifyDeployedSha info headSha)
  return (info, rerun)

def runningApplication (projectId serverHandle serviceName : String) : Job (Option Nat) := do
  let repository : Option String ← perform (.getPrimaryRepository projectId)
  match repository with
  | none => return none
  | some repoId => do
    let applicationId : Option Nat ← perform (.getOrCreateApplication repoId serverHandle serviceName)
    perform (.updateApplication applicationId "running")
    return applicationId

def createDeploymentRecord (projectId serviceName serverHandle : String) (port : Nat) (info : DeploymentInfo)
    (deployedSha : Option String) : Job (Option Nat) :=
  Prog.handle (do
    let applicationId ← runningApplication projectId serverHandle serviceName
    perform (.createDeployment ⟨projectId, serviceName, serverHandle, port, info, applicationId.filter (· ≠ 0), truthy deployedSha⟩)
    return applicationId)
    fun e => if e.isException then return none else .raise e

structure Update where
  status : DeploymentStatus
  error : Option String
  runId : Option Nat
  errors : List String
  deployedUrl : Option String
  applicationId : Option Nat
  message : Option String

def Update.failed (error reported : String) : Update := ⟨.failed, some error, none, [reported], none, none, none⟩

def Update.cancelled : Update := ⟨.cancelled, none, none, [], none, none, none⟩

def Update.success (info : WorkflowRun) (rerun : Bool) (url : String) (applicationId : Option Nat) : Update :=
  ⟨.success, none, some info.id, [], some url, applicationId,
    some ("Deployment successful" ++ (if rerun then " (after rerun)" else "") ++ "! URL: " ++ url)⟩

def dispatchOrStop (owner repo headSha runId : String) : Job (Except Update (WorkflowRun × Bool)) :=
  Prog.handle (do
    let done ← dispatchAndWait owner repo headSha runId
    return .ok done)
    fun e => match e with
      | .dispatchWithdrawn _ => return .error .cancelled
      | .deployRefused message => return .error (.failed message ("Deploy refused: " ++ message))
      | _ => .raise e

def Modules.joined : Option Modules → String
  | none => "backend"
  | some (.names modules) => String.intercalate "," modules
  | some (.text modules) => modules

def deploymentInfo (platform : Platform) (state : DevOpsState) (params : DeployParams) : DeploymentInfo :=
  ⟨params.owner ++ "/" ++ params.repo, "main", Modules.joined state.modules, envOverridesDigest platform state.envOverrides⟩

def recordAndReport (platform : Platform) (state : DevOpsState) (params : DeployParams) (serverIp : String) (port : Nat)
    (serverHandle : String) (info : WorkflowRun) (rerun : Bool) : Job Update := do
  let applicationId ← createDeploymentRecord state.projectId params.projectName serverHandle port
    (deploymentInfo platform state params) info.headSha
  return .success info rerun ("http://" ++ serverIp ++ ":" ++ toString port) applicationId

def dispatchAndRecord (platform : Platform) (state : DevOpsState) (params : DeployParams) (serverIp : String) (port : Nat)
    (serverHandle : String) : Job Update := do
  if ← runCancelled state.runId then return .cancelled
  match ← dispatchOrStop params.owner params.repo state.headSha state.runId with
  | .error update => return update
  | .ok (info, rerun) => recordAndReport platform state params serverIp port serverHandle info rerun

def fenceOrRefuse (state : DevOpsState) (params : DeployParams) : Job (Option Update) :=
  if state.fenceActiveDeploys then
    Prog.handle (do
      fenceActiveDeploys params.owner params.repo
      return none)
      fun e => match e with
        | .deployRefused message => return some (.failed message ("Deploy refused: " ++ message))
        | _ => .raise e
  else return none

def dotenv (platform : Platform) (state : DevOpsState) : String :=
  platform.b64encode (buildDotenv
    (merge (merge state.nonSecretValues state.secretValues) [("CODEGEN_PROJECT_ID", state.projectId)]))

def writeAndDeploy (platform : Platform) (state : DevOpsState) (params : DeployParams) (serverIp : String) (port : Nat)
    (serverHandle sshUser sshKey : String) : Job Update := do
  let _ ← writeDeploySecrets platform params.owner params.repo serverIp port params.projectName
    (dotenv platform state) sshKey sshUser
  match ← fenceOrRefuse state params with
  | some update => return update
  | none => dispatchAndRecord platform state params serverIp port serverHandle

def noSshKey (serverHandle : Option String) : Update :=
  let handle := serverHandle.getD "None"
  .failed ("No SSH key in DB for server " ++ handle) ("No SSH key for server " ++ handle)

def deployTo (platform : Platform) (state : DevOpsState) (params : DeployParams) (serverIp : String) (port : Nat) :
    Job Update := do
  if ← runCancelled state.runId then return .cancelled
  match truthy params.serverHandle with
  | none => return noSshKey params.serverHandle
  | some serverHandle => do
    let sshUser : String ← perform (.getServer serverHandle)
    let key : Option String ← perform (.getServerSshKey serverHandle)
    match truthy key with
    | none => return noSshKey params.serverHandle
    | some sshKey => writeAndDeploy platform state params serverIp port serverHandle sshUser sshKey

def reportFailure (e : Exn) : Job Update :=
  match e with
  | .workflowCancellationUnproven _ => .raise e
  | .workflowCancelled _ => return .cancelled
  | .cancelledError => .raise e
  | .timeoutError message => return .failed message ("Deploy timeout: " ++ message)
  | _ =>
    if e.isRuntime then return .failed e.message ("Deploy workflow failed: " ++ e.message)
    else return ⟨.error, some e.message, none, ["Deployment error: " ++ e.message], none, none, none⟩

def DeployParams.target (params : DeployParams) : Option (String × Nat) := do
  let serverIp ← truthy params.serverIp
  let port ← params.port.filter (· ≠ 0)
  return (serverIp, port)

def deployerRun (platform : Platform) (state : DevOpsState) : Job Update := do
  if state.projectId.isEmpty then return .failed "No project_id" "No project_id for deployment"
  match ← liftExcept (extractDeployParams state) with
  | none => return .failed "No repository URL" "No repository URL found in project spec"
  | some params => match params.target with
    | none => return .failed "No allocated resources" "No server_ip/port in allocated_resources"
    | some (serverIp, port) => Prog.handle (deployTo platform state params serverIp port) reportFailure

end Orchestrator.Payload
