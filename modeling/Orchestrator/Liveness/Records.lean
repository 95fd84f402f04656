import Orchestrator.Projects.Config
import Orchestrator.Stateful

/-!
What the supervisor reads of a worker and of its attempt: the metadata of the run, the
records in Redis, and the moments written in them.
-/

namespace Orchestrator.Liveness

open Python
open Placement (Datetime)
open Projects (orEmpty)

inductive Raised where
  | exception (type : String)
  | cancelledError
deriving DecidableEq

/-- The first moment after `datetime.max`, in microseconds since the year 1. -/
def endOfTime : Int := 3652059 * 86400 * 1000000

def represents (reading : Int) : Bool := decide (0 ≤ reading) && decide (reading < endOfTime)

def later (moment : Datetime) (seconds : Int) : Except Raised Datetime :=
  if represents (moment.reading + seconds * 1000000) then .ok { moment with reading := moment.reading + seconds * 1000000 }
  else .error (.exception "OverflowError")

def utc (reading : Int) : Datetime := ⟨reading, some 0⟩

/-- `datetime.now(UTC) < moment`, which a naive moment does not take part in. -/
def isBefore (now : Int) (moment : Datetime) : Except Raised Bool :=
  if moment.utcOffset.isNone then .error (.exception "TypeError") else .ok (decide (now < moment.instant))

/-- What pydantic makes of a value that should be a number, a moment or a document, and how it
writes a moment. What it has written it reads back. -/
structure Library where
  int : Value → Option Int
  datetime : Value → Option Datetime
  dump : Datetime → String
  json : String → Option Value
  datetime_dump : ∀ reading, represents reading = true → datetime (.text (dump (utc reading))) = some (utc reading)

variable (lib : Library)

def optional {A : Type} (read : Value → Option A) (fields : Mapping) (name : String) : Option (Option A) :=
  match valueAt fields name with
  | .none => some none
  | v => (read v).map some

def required {A : Type} (read : Value → Option A) (fields : Mapping) (name : String) : Option A :=
  (fields.lookup name).bind read

def anyText : Value → Option String
  | .text s => some s
  | _ => none

/-- `Field(min_length=1)` -/
def nonemptyText : Value → Option String
  | .text s => if s = "" then none else some s
  | _ => none

def intAbove (bound : Int) (v : Value) : Option Int := (lib.int v).filter fun n => decide (bound < n)

structure AttemptTurnMetadata where
  initiatingRunId : Option String
  workerId : Option String
  agentLimitSeconds : Option Int
  activeTurnRequestId : Option String
  activeTurnBackstopSeconds : Option Int
  activeTurnRequestedAt : Option Datetime
  workerStopRequestedAt : Option Datetime
  workerStopAttempts : Option Int
  workerStopNextRetryAt : Option Datetime
  stopReason : Option String
  workerState : Option String

namespace AttemptTurnMetadata

def empty : AttemptTurnMetadata := ⟨none, none, none, none, none, none, none, none, none, none, none⟩

def fromRunMetadata (metadata : Mapping) : Option AttemptTurnMetadata := do
  let initiatingRunId ← optional nonemptyText metadata "initiating_run_id"
  let workerId ← optional nonemptyText metadata "worker_id"
  let agentLimitSeconds ← optional (intAbove lib 0) metadata "agent_limit_seconds"
  let activeTurnRequestId ← optional nonemptyText metadata "active_turn_request_id"
  let activeTurnBackstopSeconds ← optional (intAbove lib 0) metadata "active_turn_backstop_seconds"
  let activeTurnRequestedAt ← optional lib.datetime metadata "active_turn_requested_at"
  let workerStopRequestedAt ← optional lib.datetime metadata "worker_stop_requested_at"
  let workerStopAttempts ← optional (intAbove lib (-1)) metadata "worker_stop_attempts"
  let workerStopNextRetryAt ← optional lib.datetime metadata "worker_stop_next_retry_at"
  let stopReason ← optional anyText metadata "stop_reason"
  let workerState ← optional anyText metadata "worker_state"
  return ⟨initiatingRunId, workerId, agentLimitSeconds, activeTurnRequestId, activeTurnBackstopSeconds,
    activeTurnRequestedAt, workerStopRequestedAt, workerStopAttempts, workerStopNextRetryAt, stopReason, workerState⟩

def entry {A : Type} (name : String) (write : A → Value) (field : Option A) : Mapping :=
  match field with
  | some a => [(name, write a)]
  | none => []

def asRunMetadata (metadata : AttemptTurnMetadata) : Mapping :=
  entry "initiating_run_id" .text metadata.initiatingRunId ++
  entry "worker_id" .text metadata.workerId ++
  entry "agent_limit_seconds" .int metadata.agentLimitSeconds ++
  entry "active_turn_request_id" .text metadata.activeTurnRequestId ++
  entry "active_turn_backstop_seconds" .int metadata.activeTurnBackstopSeconds ++
  entry "active_turn_requested_at" (fun moment => .text (lib.dump moment)) metadata.activeTurnRequestedAt ++
  entry "worker_stop_requested_at" (fun moment => .text (lib.dump moment)) metadata.workerStopRequestedAt ++
  entry "worker_stop_attempts" .int metadata.workerStopAttempts ++
  entry "worker_stop_next_retry_at" (fun moment => .text (lib.dump moment)) metadata.workerStopNextRetryAt ++
  entry "stop_reason" .text metadata.stopReason ++
  entry "worker_state" .text metadata.workerState

end AttemptTurnMetadata

inductive RedisValue where
  | str (s : String)
  | bytes (b : ByteArray)

def RedisValue.truthy : RedisValue → Bool
  | .str s => s != ""
  | .bytes b => b.size != 0

def decodeRedisValue : RedisValue → Except Raised String
  | .str s => .ok s
  | .bytes b => match String.fromUTF8? b with
    | some s => .ok s
    | none => .error (.exception "UnicodeDecodeError")

def decodeRedisFields : List (RedisValue × RedisValue) → Mapping → Except Raised Mapping
  | [], decoded => .ok decoded
  | (k, v) :: rest, decoded => do
    let key ← decodeRedisValue k
    let value ← decodeRedisValue v
    decodeRedisFields rest (setKey decoded key (.text value))

inductive WorkerStatus where
  | building | starting | running | paused | dead | failed | stopped | gone | unknown
deriving DecidableEq

def WorkerStatus.value : WorkerStatus → String
  | .building => "BUILDING"
  | .starting => "STARTING"
  | .running => "RUNNING"
  | .paused => "PAUSED"
  | .dead => "DEAD"
  | .failed => "FAILED"
  | .stopped => "STOPPED"
  | .gone => "GONE"
  | .unknown => "UNKNOWN"

def WorkerStatus.ofValue (value : String) : Option WorkerStatus :=
  [.building, .starting, .running, .paused, .dead, .failed, .stopped, .gone, .unknown].find? fun status => status.value == value

def workerTerminalStatuses : List WorkerStatus := [.dead, .failed, .stopped, .gone]

structure WorkerActiveTurn where
  workerId : String
  attemptId : String
  requestId : String
  leaseId : String
  startedAt : Datetime
  deadlineAt : Datetime

def turnFields : List String := ["worker_id", "attempt_id", "request_id", "lease_id", "started_at", "deadline_at"]

def WorkerActiveTurn.fromRedisFields (fields : Mapping) : Except Raised (Option WorkerActiveTurn) :=
  if fields.isEmpty then .ok none
  else
    let turn : Option WorkerActiveTurn := do
      let workerId ← required nonemptyText fields "worker_id"
      let attemptId ← required nonemptyText fields "attempt_id"
      let requestId ← required nonemptyText fields "request_id"
      let leaseId ← required nonemptyText fields "lease_id"
      let startedAt ← required lib.datetime fields "started_at"
      let deadlineAt ← required lib.datetime fields "deadline_at"
      return ⟨workerId, attemptId, requestId, leaseId, startedAt, deadlineAt⟩
    match turn with
    | some turn => if fields.all fun field => turnFields.contains field.1 then .ok (some turn) else .error (.exception "ValidationError")
    | none => .error (.exception "ValidationError")

structure WorkerOwnership where
  projectId : String
  runId : String
  attemptId : String

structure RemovalFact where
  value : Value
  missedReason : Option String

structure RemovedWorkerEvidence where
  workerId : String
  container : String
  ownership : WorkerOwnership
  removedAt : String
  deleteReason : Option String
  workerType : RemovalFact
  agentType : RemovalFact
  image : RemovalFact
  state : RemovalFact
  exitCode : RemovalFact
  logTail : RemovalFact
  transcriptDir : RemovalFact

def readOwnership : Value → Option WorkerOwnership
  | .mapping fields => do
    let projectId ← required nonemptyText fields "project_id"
    let runId ← required nonemptyText fields "run_id"
    let attemptId ← required nonemptyText fields "attempt_id"
    return ⟨projectId, runId, attemptId⟩
  | _ => none

def readFact : Value → Option RemovalFact
  | .mapping fields => do
    let missedReason ← optional anyText fields "missed_reason"
    let fact : RemovalFact := ⟨valueAt fields "value", missedReason⟩
    if fact.value.isNone == fact.missedReason.isNone then none else some fact
  | _ => none

def readEvidence : Value → Option RemovedWorkerEvidence
  | .mapping fields => do
    let workerId ← required nonemptyText fields "worker_id"
    let container ← required nonemptyText fields "container"
    let ownership ← required readOwnership fields "ownership"
    let removedAt ← required nonemptyText fields "removed_at"
    let deleteReason ← optional anyText fields "delete_reason"
    let workerType ← required readFact fields "worker_type"
    let agentType ← required readFact fields "agent_type"
    let image ← required readFact fields "image"
    let state ← required readFact fields "state"
    let exitCode ← required readFact fields "exit_code"
    let logTail ← required readFact fields "log_tail"
    let transcriptDir ← required readFact fields "transcript_dir"
    return ⟨workerId, container, ownership, removedAt, deleteReason, workerType, agentType, image, state, exitCode, logTail,
      transcriptDir⟩
  | _ => none

def RemovedWorkerEvidence.validateJson (text : String) : Except Raised RemovedWorkerEvidence :=
  match (lib.json text).bind readEvidence with
  | some evidence => .ok evidence
  | none => .error (.exception "ValidationError")

end Orchestrator.Liveness
