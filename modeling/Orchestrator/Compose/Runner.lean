import Orchestrator.Compose.Policy

/-!
`ComposeRunner`: how the arguments of a worker become the command that is run,
from a plan the manager writes for the commands that create containers, and
from the project's name alone for the others.
-/

namespace Orchestrator.Compose

open Python

/-- What the runner asks of its process and of the machine it runs on. The
policy on the sources a worker selects only decides whether the run goes on. -/
structure Host extends Machine where
  docker : String
  workspaceBasePath : PurePath
  isDir : PurePath → Bool
  isFile : PurePath → Bool
  pathExists : PurePath → Bool
  validateSourceTree : PurePath → PurePath → PurePath → Except Raised Unit
  config : List String → Except Raised (Int × String × String)
  safeLoad : String → Except String Value
  environ : String → Option String

structure ComposeInvocation where
  command : List String
  configCommand : List String
  cwd : PurePath
  env : List (String × String)
  sourceFiles : List String
  workspacePath : PurePath
  projectDirectory : PurePath
  projectName : String
  snapshotPath : Option PurePath
  workerId : String
  deriving DecidableEq, Repr

def planDirectoryName : String := ".compose-plans"

def networkOverrideFilename : String := ".codegen-network.yml"

def defaultComposeFiles : List String := ["infra/compose.base.yml", "infra/compose.dev.yml"]

def networkInjectionCommands : List String := ["up", "run", "build"]

def snapshotLoaderDirectives : List String := ["env_file", "extends", "label_file"]

def inheritedEnvVars : List String :=
  ["PATH", "HOME", "LANG", "LC_ALL", "TZ", "DOCKER_HOST", "DOCKER_CONFIG", "DOCKER_CERT_PATH", "DOCKER_TLS_VERIFY",
    "DOCKER_BUILDKIT", "COMPOSE_DOCKER_CLI_BUILD"]

def refused (text : String) : Raised := .valueError text

variable (host : Host)

def projectNameOf (workerId : String) : String := s!"worker_{workerId}"

def runEnv : List (String × String) :=
  (inheritedEnvVars.filterMap fun key => (host.environ key).map fun value => (key, value)) ++
    [("HOST_UID", "1000"), ("HOST_GID", "1000")]

def planDirectory (workerId : String) : PurePath :=
  (host.workspaceBasePath.join (.ofText planDirectoryName)).join (.ofText workerId)

def workspaceOf (workerId : String) (workspaceDir : Option String) : PurePath :=
  match workspaceDir with
  | some dir => if dir = "" then (host.workspaceBasePath.join (.ofText workerId)).join (.ofText "workspace") else .ofText dir
  | none => (host.workspaceBasePath.join (.ofText workerId)).join (.ofText "workspace")

def requireValid (args : List String) : Except Raised Unit :=
  let result := validateCommand args
  if result.valid then .ok () else .error (refused (String.intercalate "; " result.errors))

def requireWorkspace (workerId : String) (workspace : PurePath) : Except Raised Unit :=
  if host.isDir workspace then .ok ()
  else .error (refused s!"Workspace for worker '{workerId}' does not exist: {workspace.text}")

def sayInstead {A : Type} (text : String) : Except Raised A → Except Raised A
  | .error (.valueError _) => .error (refused text)
  | .error (.osError _) => .error (refused text)
  | result => result

def effectiveCwd (workspace resolvedWorkspace : PurePath) (cwd : String) : Except Raised PurePath :=
  let resolved : Except Raised PurePath := do
    let path ← host.resolve (workspace.join (.ofText cwd))
    let _ ← path.relativeTo resolvedWorkspace
    return path
  match resolved with
  | .error (.valueError _) => .error (refused s!"Path traversal detected: cwd '{cwd}' resolves outside workspace")
  | .error e => .error e
  | .ok path =>
    if host.isDir path then .ok path else .error (refused s!"Compose cwd does not exist: {path.text}")

def composeSource (cwd workspace : PurePath) (composeFile : String) : Except Raised PurePath := do
  let source ← sayInstead s!"Compose source cannot be resolved: {composeFile}" do
    let source ← host.resolve (cwd.join (.ofText composeFile))
    let _ ← source.relativeTo workspace
    return source
  if host.isFile source then .ok source else .error (refused s!"Compose source cannot be resolved: {composeFile}")

def sourceFilesOf (files : List (String × String)) : List String :=
  if files.isEmpty then defaultComposeFiles else files.map Prod.snd

def scopeArgs (projectName projectDirectory : String) : List String :=
  ["--project-name", projectName, "--project-directory", projectDirectory]

def injectsNetwork (args : List String) : Bool :=
  match subcommand args with
  | some sub => networkInjectionCommands.contains sub
  | none => false

def validateSources (injects : Bool) (sources : List PurePath) (workspace projectDirectory : PurePath) :
    Except Raised Unit :=
  if injects then sources.forM fun source => host.validateSourceTree source workspace projectDirectory else .ok ()

def requireNoEnv (env : List (String × String)) : Except Raised Unit :=
  if env.isEmpty then .ok () else .error (refused "Caller-controlled Compose environment is not allowed")

def prepareInvocation (workerId : String) (args : List String) (cwd : String) (env : List (String × String))
    (workspaceDir : Option String) : Except Raised ComposeInvocation := do
  requireValid args
  let workspace := workspaceOf host workerId workspaceDir
  requireWorkspace host workerId workspace
  let resolvedWorkspace ← host.resolve workspace
  let effectiveCwd ← effectiveCwd host workspace resolvedWorkspace cwd
  let projectName := projectNameOf workerId
  let planDirectory := planDirectory host workerId
  let (files, commandArgs) ← (takeFileFlags args).mapError refused
  let sourceFiles := sourceFilesOf files
  let defaultFileArgs := if files.isEmpty then defaultComposeFiles.flatMap fun file => ["-f", file] else []
  let sources ← sourceFiles.mapM (composeSource host effectiveCwd resolvedWorkspace)
  let projectDirectory := (sources.headD effectiveCwd).parent
  validateSources host (injectsNetwork args) sources resolvedWorkspace projectDirectory
  let networkArgs := if injectsNetwork args then ["-f", (planDirectory.join (.ofText networkOverrideFilename)).text] else []
  let dotEnv := resolvedWorkspace.join (.ofText ".env")
  let envFileArgs := if host.pathExists dotEnv then ["--env-file", dotEnv.text] else []
  let start := [host.docker, "compose"] ++ scopeArgs projectName projectDirectory.text ++ envFileArgs ++
    filePairs files ++ defaultFileArgs ++ networkArgs
  requireNoEnv env
  return {
    command := start ++ commandArgs
    configCommand := start ++ ["config", "--format", "json"]
    cwd := effectiveCwd
    env := runEnv host
    sourceFiles := sourceFiles
    workspacePath := resolvedWorkspace
    projectDirectory := projectDirectory
    projectName := projectName
    snapshotPath := some (planDirectory.join (.ofText "compose.resolved.yml"))
    workerId := workerId }

def requireNoSelection (args : List String) : Except Raised Unit :=
  if hasGlobalFileSelection args then .error (refused "Recovery commands do not allow worker-selected Compose files")
  else .ok ()

def prepareRecoveryInvocation (workerId : String) (args : List String) (workspaceDir : Option String) :
    Except Raised ComposeInvocation := do
  requireValid args
  requireNoSelection args
  let workspace := workspaceOf host workerId workspaceDir
  requireWorkspace host workerId workspace
  let planDirectory := planDirectory host workerId
  let resolvedWorkspace ← host.resolve workspace
  return {
    command := [host.docker, "compose"] ++ scopeArgs (projectNameOf workerId) planDirectory.text ++ args
    configCommand := []
    cwd := planDirectory
    env := runEnv host
    sourceFiles := []
    workspacePath := resolvedWorkspace
    projectDirectory := planDirectory
    projectName := projectNameOf workerId
    snapshotPath := none
    workerId := "" }

def assertPermittedBuildShape (name : String) (service : Mapping) : Except Raised Unit :=
  match valueAt service "build" with
  | .none => .ok ()
  | .text _ => .ok ()
  | .mapping build => match unsupportedBuildKeys build with
    | [] => .ok ()
    | key :: _ => .error (refused s!"Service '{name}': build.{key} is not supported")
  | _ => .error (refused s!"Service '{name}': build must be a mapping")

def assertSnapshotService : String × Value → Except Raised Unit
  | (name, .mapping service) => do
    match snapshotLoaderDirectives.find? (hasKey service) with
    | some directive =>
      .error (refused s!"Service '{name}': {directive} cannot be retained in an execution snapshot")
    | none => assertPermittedBuildShape name service
  | (name, _) => .error (refused s!"Service '{name}' must be a mapping")

def assertSnapshot (data : Mapping) (workerId : String) : Except Raised Unit := do
  match ← validateIdentities host.toMachine data workerId with
  | [] => return ()
  | error :: _ => throw (refused error)

def requireServices (data : Mapping) : Except Raised Mapping :=
  match valueAt data "services" with
  | .mapping services => .ok services
  | _ => .error (refused "Resolved Compose configuration must contain services")

def requirePlanDirectory (invocation : ComposeInvocation) : Except Raised PurePath :=
  match invocation.snapshotPath with
  | some path => .ok path.parent
  | none => .error (refused "Compose plan directory is unavailable")

def writeSnapshot (invocation : ComposeInvocation) (data : Mapping) (commandArgs : List String) :
    Except Raised ComposeInvocation := do
  let services ← requireServices data
  services.forM assertSnapshotService
  assertSnapshot host data invocation.workerId
  let planDirectory ← requirePlanDirectory invocation
  let snapshotPath := planDirectory.join (.ofText "compose.resolved.yml")
  return { invocation with
    command := [host.docker, "compose"] ++ scopeArgs invocation.projectName invocation.projectDirectory.text ++
      ["-f", snapshotPath.text] ++ commandArgs
    snapshotPath := some snapshotPath }

def resolvedProject (invocation : ComposeInvocation) : Except Raised Mapping := do
  let (returncode, stdout, stderr) ← host.config invocation.configCommand
  if returncode ≠ 0 then
    let said := [stderr, stdout].map fun text => String.ofList (strip text.toList)
    let detail := (said.find? (· ≠ "")).getD "unknown resolution error"
    throw (refused s!"docker compose config could not resolve the project: {detail}")
  match host.safeLoad stdout with
  | .error text => throw (refused s!"docker compose config returned invalid YAML: {text}")
  | .ok (.mapping data) => return data
  | .ok _ => throw (refused "docker compose config returned no project mapping")

def acceptedPlan (data : Mapping) (workerId : String) (workspace : Option PurePath) : Except Raised Mapping := do
  let data ← applyEffectiveOverrides host.toMachine data workerId
  let result ← validateEffectiveCompose host.toMachine (.mapping data) workerId workspace
  if result.valid then return data else throw (refused (String.intercalate "; " result.errors))

def createsContainers (args : List String) : Bool :=
  match subcommand args with
  | some sub => containerCreatingCommands.contains sub
  | none => false

def inspect (workerId : String) (args : List String) (cwd : String) (env : List (String × String))
    (workspaceDir : Option String) : Except Raised (Mapping × ComposeInvocation) := do
  let invocation ← prepareInvocation host workerId args cwd env workspaceDir
  let data ← resolvedProject host invocation
  if createsContainers args then
    let data ← acceptedPlan host data workerId (some invocation.workspacePath)
    let invocation ← writeSnapshot host invocation data (withoutFileFlags args)
    return (data, invocation)
  else return (data, invocation)

def run (workerId : String) (args : List String) (cwd : String) (env : List (String × String))
    (workspaceDir : Option String) (prepared : Option ComposeInvocation) : Except Raised ComposeInvocation :=
  if createsContainers args then
    match prepared with
    | some invocation => .ok invocation
    | none => Prod.snd <$> inspect host workerId args cwd env workspaceDir
  else prepareRecoveryInvocation host workerId args workspaceDir

end Orchestrator.Compose
