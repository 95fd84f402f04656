import Orchestrator.Turns.Broker

/-!
The clients of workers: a turn is put on the worker's input, and the first output
that comes after is taken for its result.
-/

namespace Orchestrator.Turns

open Async Redis

def defaultStreamMaxlen : Nat := 10000

inductive WaitKind where
  | spawn | reuse

structure WaitRequest where
  kind : WaitKind
  workerId : String
  requestId : String
  groupName : String
  attemptId : String
  taskContent : String
  clearSession : Bool
  storyMd : Option String
  branch : Option String
  turnDeadlineSeconds : Nat
  timeoutSeconds : Nat
  rounds : Nat

inductive Heard where
  | nothing
  | undecodable
  | output (result : WorkerResult) (origin : Option Nat)
  | invalid

def invalidWorkerResult (workerId : String) : SpawnResult :=
  ⟨false, 1, "", none, some "invalid_worker_result", some workerId, none, none, none⟩

def spawnResultFromOutput (result : WorkerResult) (workerId : String) (origin : Option Nat) : SpawnResult :=
  match result with
  | .completed content commitSha workerReport =>
    ⟨true, 0, content, commitSha, none, some workerId, none, workerReport, origin⟩
  | .blocked blockReason workerReport =>
    ⟨false, 1, "", none, none, some workerId, some blockReason, workerReport, origin⟩
  | .failed error workerReport =>
    ⟨false, 1, "", none, some error, some workerId, none, workerReport, origin⟩

def heardOf : Payload → Heard
  | .flat _ => .undecodable
  | .undecodable => .undecodable
  | .noObject truthy => if truthy then .invalid else .nothing
  | .turn _ => .invalid
  | .result result lease => .output result lease

def exceptException {A : Type} (body : Job A) (handler : Exn → Job A) : Job A :=
  Prog.handle (I := turnsInterface) body fun e => if e = .cancelledError then .raise e else handler e

def recreateGroup (key : StreamKey) (group : String) : Job Unit :=
  Prog.handle (I := turnsInterface) (xgroupCreate key group .lastEntry) fun e =>
    if e = .busyGroup || e = .exception "ResponseError" then .ret () else .raise e

def waitForResponse (key : StreamKey) (group consumer workerId : String) : Nat → Job Heard
  | 0 => return .nothing
  | rounds + 1 => do
    let dead : Bool ← exceptException (ask (.foundDead workerId)) fun _ => .ret false
    if dead then return .nothing
    else do
      let entry : Option (Option (Nat × Payload)) ← Prog.handle (I := turnsInterface)
        (do return some (← xreadgroup key group consumer)) fun e => if e = .noGroup then .ret none else .raise e
      match entry with
      | none => do
        recreateGroup key group
        waitForResponse key group consumer workerId rounds
      | some none => waitForResponse key group consumer workerId rounds
      | some (some (entryId, payload)) => do
        xack key group entryId workerId
        return heardOf payload

def createOutputGroup (request : WaitRequest) : Job Unit :=
  let start := match request.kind with
    | .spawn => GroupStart.beginning
    | .reuse => GroupStart.lastEntry
  Prog.handle (I := turnsInterface) (xgroupCreate (.output request.workerId) request.groupName start) fun e =>
    if e = .busyGroup then .ret () else .raise e

def turnOf (request : WaitRequest) : InputData where
  requestId := some request.requestId
  attemptId := some request.attemptId
  turnDeadlineSeconds := some (.seconds request.turnDeadlineSeconds)
  prompt := request.taskContent
  clearSession := request.clearSession
  storyMd := request.storyMd
  branch := request.branch

def sendTurn (request : WaitRequest) : Job Unit := do
  let _ ← xadd (.input request.workerId) (.turn (turnOf request)) (some defaultStreamMaxlen) request.workerId

def timeoutText (request : WaitRequest) : String :=
  "Timeout after " ++ toString request.timeoutSeconds ++ "s waiting for worker output."

def conclude (request : WaitRequest) : Heard → Job SpawnResult
  | .output result origin => return spawnResultFromOutput result request.workerId origin
  | .undecodable => return invalidWorkerResult request.workerId
  | .invalid => return invalidWorkerResult request.workerId
  | .nothing => match request.kind with
    | .reuse => return ⟨false, -1, timeoutText request, none, some "execution_timeout", some request.workerId, none, none,
        none⟩
    | .spawn => do
      ask (.publishWorkerDeletion request.workerId "timeout")
      return ⟨false, -1, timeoutText request ++ " Container teardown requested; its confirmation is reconciled separately.",
        none, some "execution_timeout", none, none, none, none⟩

def takeTurn (request : WaitRequest) : Job SpawnResult := do
  createOutputGroup request
  ask (.recordTurnOnAttempt request.attemptId request.requestId)
  sendTurn request
  let heard ← waitForResponse (.output request.workerId) request.groupName request.groupName request.workerId request.rounds
  conclude request heard

def turnFailed (request : WaitRequest) : Job SpawnResult :=
  match request.kind with
  | .reuse => return ⟨false, -1, "", none, none, some request.workerId, none, none, none⟩
  | .spawn => do
    ask (.publishWorkerDeletion request.workerId "failed")
    return ⟨false, -1, "", none, none, none, none, none, none⟩

def destroyGroup (request : WaitRequest) : Job Unit :=
  exceptException (perform (.xgroupDestroy (.output request.workerId) request.groupName)) fun _ =>
    .ret ()

def guardedTurn (request : WaitRequest) (turn : Job SpawnResult) : Job SpawnResult :=
  Prog.ensuring (I := turnsInterface) (exceptException turn fun _ => turnFailed request) (destroyGroup request)

def sendTaskToWorker (request : WaitRequest) : Job SpawnResult := do
  ask (.recordWorkerOnAttempt request.attemptId request.workerId)
  guardedTurn request (takeTurn request)

def requestSpawn (request : WaitRequest) : Job SpawnResult :=
  guardedTurn request do
    ask (.recordWorkerOnAttempt request.attemptId request.workerId)
    let ready : Bool ← ask (.waitUntilReady request.workerId)
    if ready then takeTurn request
    else return ⟨false, -1, "", none, none, none, none, none, none⟩

def waitForTurn (request : WaitRequest) : Job SpawnResult :=
  match request.kind with
  | .spawn => requestSpawn request
  | .reuse => sendTaskToWorker request

end Orchestrator.Turns

/-!
The loop that cleans up streams judges by how long a key was left alone.
-/

namespace Orchestrator.Turns

open Async Redis

def orphanPatterns : List StreamPattern := [.poResponses, .workerInputs, .workerOutputs]

def defaultIdleThresholdSeconds : Nat := 600

def delete (key : StreamKey) : Job Unit := perform (.delete key)

def cleanKey (idleThreshold : Nat) (key : StreamKey) : Job Unit :=
  exceptException (do
    let idle : Nat ← perform (.idletime key idleThreshold)
    if idle ≥ idleThreshold then delete key else return ()) fun _ => .ret ()

def cleanPattern (idleThreshold : Nat) (pattern : StreamPattern) : Job Unit := do
  let keys : List StreamKey ← perform (.scan pattern)
  Prog.forEach keys (cleanKey idleThreshold)

def cleanOrphanStreams (idleThreshold : Nat) : Job Unit := Prog.forEach orphanPatterns (cleanPattern idleThreshold)

structure TurnsConfig where
  broker : BrokerConfig
  idleThreshold : Nat
  registrations : Nat → Registration × Option String
  unregistrations : Nat → String × Option String
  leases : Nat → LeaseRequest
  submissions : Nat → Submission
  waits : Nat → WaitRequest

def body (config : TurnsConfig) : Party → Job (Option SpawnResult)
  | .register n => do
    registerWorker config.broker (config.registrations n).1 (config.registrations n).2
    return none
  | .unregister n => do
    unregisterWorker config.broker (config.unregistrations n).1 (config.unregistrations n).2
    return none
  | .lease n => do
    leaseInput config.broker (config.leases n)
    return none
  | .submit n => do
    submitOutput config.broker (config.submissions n)
    return none
  | .waiter n => do
    return some (← waitForTurn (config.waits n))
  | .sweeper => do
    cleanOrphanStreams config.idleThreshold
    return none
  | .outside _ => do
    perform .outside
    return none

end Orchestrator.Turns
