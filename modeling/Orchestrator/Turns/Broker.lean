import Orchestrator.Turns.World

/-!
The routes of the broker: a worker is registered, leases its inputs and submits
its outputs.
-/

namespace Orchestrator.Turns

open Async Redis

inductive Operation where
  | inputLease | outputSubmit | statusUpdate | sessionRead | sessionWrite | sessionClear | infraCompose
deriving DecidableEq

def turnProtocolOperations : List Operation :=
  [.inputLease, .outputSubmit, .statusUpdate, .sessionRead, .sessionWrite, .sessionClear]

def WorkerType.allows : WorkerType → Operation → Bool
  | .developer, _ => true
  | .qa, operation => turnProtocolOperations.contains operation

/-- `tokenDigest` stands for the hash of a token. -/
structure BrokerConfig where
  internalToken : String
  tokenDigest : String → String
  streamMaxlen : Nat

def httpException {A : Type} (status : Nat) : Job A := .raise (.httpException status)

def readCredential (workerId : String) : Job (Option Credential) :=
  perform (.readCredential workerId)

def xgroupCreate (key : StreamKey) (group : String) (start : GroupStart) : Job Unit :=
  perform (.xgroupCreate key group start)

def xreadgroup (key : StreamKey) (group consumer : String) : Job (Option (Nat × Payload)) :=
  perform (.xreadgroup key group consumer)

def xadd (key : StreamKey) (payload : Payload) (maxlen : Option Nat) (account : String) : Job Nat :=
  perform (.xadd key payload maxlen account)

def xack (key : StreamKey) (group : String) (entryId : Nat) (account : String) : Job Unit :=
  perform (.xack key group entryId account)

def ask (call : ServiceCall) : Job call.Res := perform (.service call)

def worker (config : BrokerConfig) (workerId : String) (token : Option String) (operation : Operation) : Job Credential :=
  match token.filter fun token => !token.isEmpty with
  | none => httpException 401
  | some token => do
    match ← readCredential workerId with
    | none => httpException 403
    | some credential =>
      if credential.tokenDigest.isEmpty || config.tokenDigest token ≠ credential.tokenDigest then httpException 403
      else if credential.workerType.allows operation then return credential
      else httpException 403

def internal (config : BrokerConfig) (token : Option String) : Job Unit :=
  if token = some config.internalToken then return () else httpException 403

def credentialOf (config : BrokerConfig) (registration : Registration) : Credential where
  tokenDigest := config.tokenDigest registration.token
  workerType := registration.workerType
  inputStream := registration.inputStream
  outputStream := registration.outputStream
  consumerGroup := registration.consumerGroup

def registerWorker (config : BrokerConfig) (registration : Registration) (token : Option String) : Job Unit := do
  internal config token
  perform (.writeCredential registration.workerId (credentialOf config registration))
  Prog.handle (I := turnsInterface) (xgroupCreate registration.inputStream registration.consumerGroup .beginning) fun e =>
    if e = .busyGroup then .ret () else .raise e

def unregisterWorker (config : BrokerConfig) (workerId : String) (token : Option String) : Job Unit := do
  internal config token
  perform (.deleteWorkerKeys workerId)

def noTurn : InputData := ⟨none, none, none, "", false, none, none⟩

def decodeInput : Payload → Job InputData
  | .flat data => .ret data
  | .undecodable => httpException 422
  | .noObject _ => .raise (.exception "AttributeError")
  | .turn data => .ret data
  | .result .. => .ret noTurn

def activeTurn (workerId : String) (lease : Nat) (data : InputData) : Job (Option WorkerActiveTurn) :=
  match data.attemptId, data.turnDeadlineSeconds, data.requestId with
  | some attemptId, some deadline, some requestId => match deadline with
    | .notANumber => httpException 422
    | .beyondDates => .raise (.exception "OverflowError")
    | .seconds n =>
      if n ≤ 0 then httpException 422
      else if workerId.isEmpty || attemptId.isEmpty || requestId.isEmpty then .raise (.exception "ValidationError")
      else do
        let now : Nat ← perform .clock
        return some ⟨workerId, attemptId, requestId, lease, now, now + n.toNat⟩
  | _, _, _ => return none

def recordTurn (workerId : String) : Option WorkerActiveTurn → Job Unit
  | none => return ()
  | some turn => perform (.writeTurn workerId turn)

structure LeaseRequest where
  workerId : String
  token : Option String

def leaseEntry (workerId : String) : Option (Nat × Payload) → Job Unit
  | none => return ()
  | some (lease, payload) => do
    let data ← decodeInput payload
    let turn ← activeTurn workerId lease data
    recordTurn workerId turn
    perform (.answer workerId lease)

def leaseInput (config : BrokerConfig) (request : LeaseRequest) : Job Unit := do
  let credential ← worker config request.workerId request.token .inputLease
  let entry ← xreadgroup credential.inputStream credential.consumerGroup request.workerId
  leaseEntry request.workerId entry

structure Submission where
  workerId : String
  token : Option String
  leaseId : Nat
  result : Option WorkerResult

def deleteTurn (workerId : String) (lease : Nat) : Job Unit :=
  perform (.deleteTurn workerId lease)

def releaseTurn (workerId : String) (lease : Nat) : Option WorkerActiveTurn → Job Unit
  | none => return ()
  | some turn =>
    if turn.leaseId = lease then deleteTurn workerId lease else return ()

def submitOutput (config : BrokerConfig) (submission : Submission) : Job Unit := do
  let credential ← worker config submission.workerId submission.token .outputSubmit
  match submission.result with
  | none => .raise (.exception "ValidationError")
  | some result => do
    let _ ← xadd credential.outputStream (.result result (some submission.leaseId)) (some config.streamMaxlen)
      submission.workerId
    xack credential.inputStream credential.consumerGroup submission.leaseId submission.workerId
    let turn : Option WorkerActiveTurn ←
      perform (.readTurn submission.workerId submission.leaseId)
    releaseTurn submission.workerId submission.leaseId turn

end Orchestrator.Turns
