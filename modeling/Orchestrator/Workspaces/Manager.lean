import Orchestrator.Workspaces.World

/-!
Creating a worker and deleting it, as far as its workspace is concerned.
-/

namespace Orchestrator.Workspaces

open Async
open Turns (Exn WorkerType)

def ask (call : ServiceCall) : Job call.Res := perform (.service call)

def exceptException {A : Type} (body : Job A) (handler : Exn → Job A) : Job A :=
  Prog.handle (I := workspacesInterface) body fun e => if e = .cancelledError then .raise e else handler e

def raiseRuntimeError {A : Type} : Job A := .raise (.exception "RuntimeError")

def hgetall (workerId : String) : Job WorkerMeta := perform (.hgetall workerId)

def stampOwnership (workerId : String) (ownership : WorkerOwnership) : Job Unit :=
  perform (.hsetOwnership workerId ownership)

def getLock (projectId : String) : Job (Option String) := perform (.getLock projectId)

def srem (projectId : String) : Job Unit := perform (.srem projectId)

def withdraw (workerId : String) : Job String := do
  perform (.hdelOwnership workerId)
  raiseRuntimeError

def activate (projectId : String) : Job String := do
  perform (.sadd projectId)
  return projectId

def acquireWorkspaceLock (workerId : String) (ownership : WorkerOwnership) : Job String := do
  stampOwnership workerId ownership
  let acquired : Bool ← perform (.setLockNx ownership.projectId workerId)
  if acquired then activate ownership.projectId else withdraw workerId

def giveBack (projectId : String) : Job Unit := do
  perform (.deleteLock projectId)
  srem projectId

def releaseWorkspaceLock (workerId : String) : Option String → Job Unit
  | none => return ()
  | some projectId => do
    match ← getLock projectId with
    | none => srem projectId
    | some owner => if owner = workerId then giveBack projectId else return ()

def rejectWorker (workerId : String) : Job Unit := do
  ask (.hsetStatus workerId .failed)
  ask (.setError workerId)

def workerIdOf (key : String) : String := String.ofList (key.toList.reverse.takeWhile (· ≠ ':')).reverse

def findDeveloper (projectId : String) : List String → Job (Option String)
  | [] => return none
  | key :: rest => do
    let fields : WorkerMeta ← hgetall key
    if !fields.isQaWorker && fields.projectId = some projectId then return some (workerIdOf key)
    else findDeveloper projectId rest

def checkProjectLock (projectId : String) : Job (Option String) := do
  match (← getLock projectId).filter fun owner => !owner.isEmpty with
  | some owner => return some owner
  | none => do
    let active : Bool ← perform (.sismember projectId)
    if active then do
      let keys : List String ← perform (.scan none)
      findDeveloper projectId keys
    else return none

structure CreateCommand where
  workerId : String
  ownership : WorkerOwnership
  workerType : WorkerType
  codexHostSession : Bool
  repoId : Option String
  repoName : Option String
  githubToken : Option String
  branch : Option String
  instructionPath : String
  instructions : Option String
  taskContent : Option String

def CreateCommand.isQaWorker (cmd : CreateCommand) : Bool := cmd.workerType = .qa

def given (text : Option String) : Option String := text.filter fun text => !text.isEmpty

def takeProject (cmd : CreateCommand) : Job (Option String) := do
  let existing ← checkProjectLock cmd.ownership.projectId
  if (given existing).isSome then raiseRuntimeError
  else do
    let failures : Nat ← ask (.failureCount cmd.ownership.projectId)
    if 3 ≤ failures then raiseRuntimeError
    else do
      let projectId ← acquireWorkspaceLock cmd.workerId cmd.ownership
      return some projectId

def takeNothing (cmd : CreateCommand) : Job (Option String) := do
  stampOwnership cmd.workerId cmd.ownership
  return none

def take (cmd : CreateCommand) : Job (Option String) := if cmd.isQaWorker then takeNothing cmd else takeProject cmd

def doWhen (condition : Bool) (body : Job Unit) : Job Unit := if condition then body else return ()

def validateSession (cmd : CreateCommand) : Job Unit := doWhen cmd.codexHostSession (ask .validateCodexHostSession)

def takeUp (cmd : CreateCommand) : Job (WorkerNetwork × Option String) :=
  exceptException (do
    let network : WorkerNetwork ← ask (.resolveWorkerNetwork cmd.isQaWorker)
    validateSession cmd
    let held ← take cmd
    return (network, held))
    fun e => do
      releaseWorkspaceLock cmd.workerId none
      rejectWorker cmd.workerId
      .raise e

def ephemeralWorkspace (workerId : String) : Job String := do
  perform (.createEphemeralWorkspace workerId)
  return "qa-" ++ workerId

def scaffoldedWorkspace (repoId : String) : Job String := do
  let found : Bool ← perform (.getScaffoldedWorkspace repoId)
  if found then return repoId else raiseRuntimeError

def workspaceOf (cmd : CreateCommand) : Job String :=
  if cmd.isQaWorker then ephemeralWorkspace cmd.workerId
  else match given cmd.repoId with
    | none => raiseRuntimeError
    | some repoId => scaffoldedWorkspace repoId

def removeContainer (workerId : String) : Job Unit := perform (.removeContainer workerId)

def devNetworkOf (workerId : String) : String := "dev_proj_" ++ workerId

def createDevNetwork (cmd : CreateCommand) (network : WorkerNetwork) : Bool := network.name ≠ "host" && !cmd.isQaWorker

def doWith (text : Option String) (body : String → Job Unit) : Job Unit :=
  match given text with
  | none => return ()
  | some text => body text

def startContainer (cmd : CreateCommand) (network : WorkerNetwork) (entry : String) : Job Unit := do
  stampOwnership cmd.workerId cmd.ownership
  removeContainer cmd.workerId
  doWhen (createDevNetwork cmd network) (ask (.createNetwork (devNetworkOf cmd.workerId)))
  ask (.hsetStatus cmd.workerId .starting)
  perform (.runContainer ⟨cmd.workerId, entry, !cmd.isQaWorker⟩)
  doWhen (createDevNetwork cmd network) (ask (.connectNetwork (devNetworkOf cmd.workerId)))
  perform (.hsetWorkspace cmd.workerId (devNetworkOf cmd.workerId) entry)
  doWhen (!cmd.isQaWorker) (ask (.hsetStatus cmd.workerId .running))

def createWorker (cmd : CreateCommand) (network : WorkerNetwork) (entry : String) : Job Unit := do
  ask .ensureImage
  exceptException (startContainer cmd network entry) fun e => do
    rejectWorker cmd.workerId
    .raise e

def prepareWork (cmd : CreateCommand) : Job Unit := do
  doWith cmd.repoName fun repoName => doWith cmd.githubToken fun _ => ask (.refreshGitToken repoName)
  doWith cmd.branch fun branch => ask (.checkoutBranch branch)
  doWith cmd.instructions fun instructions => ask (.inject cmd.instructionPath instructions)
  doWith cmd.taskContent fun taskContent => ask (.inject "/workspace/TASK.md" taskContent)
  doWhen cmd.isQaWorker (do
    ask .injectQaProbe
    ask (.hsetStatus cmd.workerId .running))

def launch (cmd : CreateCommand) (network : WorkerNetwork) : Job Unit := do
  if cmd.isQaWorker && ((given cmd.instructions).isNone || (given cmd.taskContent).isNone) then raiseRuntimeError
  else do
    ask .ensureOrBuildImage
    let entry ← workspaceOf cmd
    ask (.registerBrokerWorker cmd.workerId cmd.workerType)
    ask (.containerEnvironment cmd.workerId)
    doWhen cmd.isQaWorker (ask (.establishEgress cmd.workerId))
    perform (.prepareWorkerPaths entry)
    ask (.prepareRemoteDaemonMounts cmd.workerId entry)
    createWorker cmd network entry
    doWhen cmd.isQaWorker (ask (.verifyIsolation cmd.workerId network.name))
    doWith cmd.repoId fun repoId => perform (.hsetRepoId cmd.workerId repoId)
    prepareWork cmd

def unregisterBrokerWorker (workerId : String) : Job Unit :=
  exceptException (ask (.unregisterBrokerWorker workerId)) fun _ => return ()

def deleteMeta (workerId : String) : Job Unit := perform (.deleteMeta workerId)

def undo (cmd : CreateCommand) (held : Option String) : Job Unit := do
  unregisterBrokerWorker cmd.workerId
  if cmd.isQaWorker then do
    ask (.tearDownEgress cmd.workerId)
    rejectWorker cmd.workerId
  else do
    releaseWorkspaceLock cmd.workerId held
    deleteMeta cmd.workerId

def createWorkerWithCapabilities (cmd : CreateCommand) : Job Unit := do
  perform (.hsetWorkerType cmd.workerId cmd.workerType)
  let (network, held) ← takeUp cmd
  doWhen (!cmd.isQaWorker) (ask (.hsetStatus cmd.workerId .building))
  exceptException (launch cmd network) fun e => do
    undo cmd held
    .raise e

structure DeleteCommand where
  workerId : String
  reason : Option String

def discardScratch (workerId : String) : Job Unit := do
  perform (.removeWorkspace ("qa-" ++ workerId))
  ask (.tearDownEgress workerId)

def bringDown (workerId : String) (fields : WorkerMeta) : Job Unit :=
  if fields.isQaWorker then discardScratch workerId
  else doWith fields.workspacePath fun workspace =>
    exceptException (ask (.composeDown workerId workspace)) fun _ => return ()

def readEvidence (workerId : String) (fields : WorkerMeta) : Job Unit :=
  match fields.ownership with
  | none => return ()
  | some _ => exceptException (ask (.readRemovalEvidence workerId)) fun _ => return ()

def removeWorker (workerId : String) (fields : WorkerMeta) : Job Bool :=
  exceptException (do
    bringDown workerId fields
    readEvidence workerId fields
    removeContainer workerId
    return true)
    fun _ => return false

def storeEvidence (workerId : String) (fields : WorkerMeta) : Job Bool :=
  match fields.ownership with
  | none => return false
  | some ownership => exceptException (do
      ask (.storeRemovalEvidence workerId ownership)
      return false)
      fun _ => return true

def countFailure (projectId : String) (reason : Option String) : Job Unit := do
  doWhen (reason = some "failed" || reason = some "timeout") (ask (.incrFailureCount projectId))
  doWhen (reason = some "completed") (ask (.resetFailureCount projectId))

def releaseHeld (cmd : DeleteCommand) : Option String → Job Unit
  | none => return ()
  | some projectId => do
    releaseWorkspaceLock cmd.workerId (some projectId)
    countFailure projectId cmd.reason

def deleteOtherKeys (workerId : String) : Job Unit := ask (.deleteKeys workerId)

def deleteKeys (workerId : String) (keepMeta : Bool) : Job Unit :=
  if keepMeta then deleteOtherKeys workerId else deleteMeta workerId

def deleteWorker (cmd : DeleteCommand) : Job Unit := do
  let fields : WorkerMeta ← hgetall cmd.workerId
  let removed ← removeWorker cmd.workerId fields
  if removed then do
    let keepMeta ← storeEvidence cmd.workerId fields
    exceptException (doWith fields.devNetwork fun network => ask (.removeNetwork network)) fun _ => return ()
    unregisterBrokerWorker cmd.workerId
    releaseHeld cmd fields.heldProjectId
    deleteKeys cmd.workerId keepMeta
  else return ()

end Orchestrator.Workspaces

/-!
The collector of workspaces, and everything that runs beside it.
-/

namespace Orchestrator.Workspaces

open Async

def smembers : Job (List String) := perform .smembers

def findHolder (projectId : String) : List String → Job Bool
  | [] => return false
  | key :: rest => do
    let fields : WorkerMeta ← hgetall key
    if fields.projectId = some projectId then return true else findHolder projectId rest

def clearStaleProject (projectId : String) : Job Unit := do
  let keys : List String ← perform (.scan (some projectId))
  let hasWorker ← findHolder projectId keys
  if hasWorker then return () else srem projectId

def notifyWorkspaceDeleted (entry : String) : Job Unit :=
  exceptException (ask (.notifyWorkspaceDeleted entry)) fun _ => return ()

def sweepEntry (now maxAgeHours : Int) (activeProjects : List String) (entry : String) : Job Unit :=
  if activeProjects.contains entry then return ()
  else do
    let removed : Bool ← perform (.sweepDirectory now maxAgeHours entry)
    doWhen removed (notifyWorkspaceDeleted entry)

def listWorkspaces : Job (List String) :=
  exceptException (perform .listdir) fun _ => return []

def garbageCollectWorkspaces (maxAgeHours : Int) : Job Unit := do
  let stale ← smembers
  Prog.forEach stale clearStaleProject
  let activeProjects ← smembers
  let now : Int ← perform .time
  let entries ← listWorkspaces
  Prog.forEach entries (sweepEntry now maxAgeHours activeProjects)

structure Fleet where
  creations : Nat → CreateCommand
  deletions : Nat → DeleteCommand
  maxAgeHours : Int

def body (fleet : Fleet) : Party → Job Unit
  | .collector => garbageCollectWorkspaces fleet.maxAgeHours
  | .create n => createWorkerWithCapabilities (fleet.creations n)
  | .delete n => deleteWorker (fleet.deletions n)
  | .outside _ => perform .outside

end Orchestrator.Workspaces
