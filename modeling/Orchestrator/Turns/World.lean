import Orchestrator.Async.Interference
import Orchestrator.Redis.Streams

/-!
The turns of workers: the streams their inputs and outputs go through, the
broker that leases the one and takes the other, the clients that wait, and the
loop that cleans streams up.
-/

namespace Orchestrator.Turns

open Async Redis

inductive Exn where
  | exception (type : String)
  | httpException (status : Nat)
  | cancelledError
  | noGroup
  | busyGroup
deriving DecidableEq

inductive WorkerType where
  | developer | qa
deriving DecidableEq

inductive StreamKey where
  | input (workerId : String)
  | output (workerId : String)
  | poResponse (requestId : String)
deriving DecidableEq

def StreamKey.worker : StreamKey → Option String
  | .input workerId => some workerId
  | .output workerId => some workerId
  | .poResponse _ => none

inductive Deadline where
  | seconds (n : Int)
  | beyondDates
  | notANumber

structure InputData where
  requestId : Option String
  attemptId : Option String
  turnDeadlineSeconds : Option Deadline
  prompt : String
  clearSession : Bool
  storyMd : Option String
  branch : Option String

inductive WorkerResult where
  | completed (content : String) (commitSha workerReport : Option String)
  | blocked (blockReason : String) (workerReport : Option String)
  | failed (error : String) (workerReport : Option String)

/-- The fields of an entry: those of a turn one by one, or one of text that is no
JSON, or JSON that is no object, or the JSON of a turn or of a result. `truthy` is what
Python takes the value for. `lease` is the input entry the result was submitted for; no
program reads it. -/
inductive Payload where
  | flat (data : InputData)
  | undecodable
  | noObject (truthy : Bool)
  | turn (data : InputData)
  | result (result : WorkerResult) (lease : Option Nat)

def Payload.lease : Payload → Option Nat
  | .result _ lease => lease
  | _ => none

structure WorkerActiveTurn where
  workerId : String
  attemptId : String
  requestId : String
  leaseId : Nat
  startedAt : Nat
  deadlineAt : Nat
deriving DecidableEq

structure Registration where
  workerId : String
  token : String
  workerType : WorkerType
  inputStream : StreamKey
  outputStream : StreamKey
  consumerGroup : String

structure Credential where
  tokenDigest : String
  workerType : WorkerType
  inputStream : StreamKey
  outputStream : StreamKey
  consumerGroup : String

inductive ServiceCall where
  | recordWorkerOnAttempt (attemptId workerId : String)
  | recordTurnOnAttempt (attemptId requestId : String)
  | foundDead (workerId : String)
  | waitUntilReady (workerId : String)
  | publishWorkerDeletion (workerId reason : String)

def ServiceCall.Res : ServiceCall → Type
  | recordWorkerOnAttempt .. => Unit
  | recordTurnOnAttempt .. => Unit
  | foundDead _ => Bool
  | waitUntilReady _ => Bool
  | publishWorkerDeletion .. => Unit

inductive StreamPattern where
  | poResponses | workerInputs | workerOutputs

def StreamPattern.holds : StreamPattern → StreamKey → Bool
  | .poResponses, .poResponse _ => true
  | .workerInputs, .input _ => true
  | .workerOutputs, .output _ => true
  | _, _ => false

inductive GroupStart where
  | beginning | lastEntry

def GroupStart.lastDelivered (stream : Stream Payload) : GroupStart → Nat
  | .beginning => 0
  | .lastEntry => stream.lastId

/-- The commands to Redis. `limit`, and the `lease` of a turn that is read or deleted,
say what the caller is after; an entry is added or acknowledged on the `account` of a
worker. Redis sees neither. `answer` hands a leased entry to the worker that asked for it. -/
inductive Op where
  | service (call : ServiceCall)
  | clock
  | writeCredential (workerId : String) (credential : Credential)
  | readCredential (workerId : String)
  | deleteWorkerKeys (workerId : String)
  | xgroupCreate (key : StreamKey) (group : String) (start : GroupStart)
  | xgroupDestroy (key : StreamKey) (group : String)
  | xreadgroup (key : StreamKey) (group consumer : String)
  | xadd (key : StreamKey) (payload : Payload) (maxlen : Option Nat) (account : String)
  | xack (key : StreamKey) (group : String) (entryId : Nat) (account : String)
  | writeTurn (workerId : String) (turn : WorkerActiveTurn)
  | readTurn (workerId : String) (lease : Nat)
  | deleteTurn (workerId : String) (lease : Nat)
  | answer (workerId : String) (lease : Nat)
  | scan (pattern : StreamPattern)
  | idletime (key : StreamKey) (limit : Nat)
  | delete (key : StreamKey)
  | outside

def Op.Res : Op → Type
  | service call => call.Res
  | clock => Nat
  | writeCredential .. => Unit
  | readCredential _ => Option Credential
  | deleteWorkerKeys _ => Unit
  | xgroupCreate .. => Unit
  | xgroupDestroy .. => Unit
  | xreadgroup .. => Option (Nat × Payload)
  | xadd .. => Nat
  | xack .. => Unit
  | writeTurn .. => Unit
  | readTurn .. => Option WorkerActiveTurn
  | deleteTurn .. => Unit
  | answer .. => Unit
  | scan _ => List StreamKey
  | idletime .. => Nat
  | delete _ => Unit
  | outside => Unit

abbrev turnsInterface : Interface := ⟨Op, Op.Res, Exn⟩

abbrev Job (A : Type) := Prog turnsInterface A

abbrev perform (op : Op) : Job (Op.Res op) := Prog.perform (I := turnsInterface) op

inductive Party where
  | register (request : Nat)
  | unregister (request : Nat)
  | lease (request : Nat)
  | submit (request : Nat)
  | waiter (request : Nat)
  | sweeper
  | outside (execution : Nat)
deriving DecidableEq

/-- `origin` is the input entry the output was submitted for; no program reads it. -/
structure SpawnResult where
  success : Bool
  exitCode : Int
  output : String
  commitSha : Option String
  errorMessage : Option String
  workerId : Option String
  gaveUpReason : Option String
  workerReport : Option String
  origin : Option Nat

/-- What an execution has read and is about to act on; of a client, the group in which
it waits for an output, and the entry it has sent. -/
inductive Intent where
  | dooms (key : StreamKey)
  | releases (workerId : String) (lease : Nat)
  | hands (workerId : String) (lease : Nat)
  | awaits (workerId group : String)
  | sent (entryId : Nat)
deriving DecidableEq

def Intent.doomed : Intent → Option StreamKey
  | .dooms key => some key
  | _ => none

def Intent.isWaiting : Intent → Bool
  | .awaits .. => true
  | _ => false

def Intent.own : Intent → Option Nat
  | .sent entryId => some entryId
  | _ => none

inductive Event where
  | swept (key : StreamKey) (registered : Bool)
  | cleared (workerId : String) (lease : Nat) (before : Option WorkerActiveTurn)
  | delivered (workerId : String) (entryId : Nat)
  | appended (workerId : String) (lease : Nat)
  | acknowledged (workerId : String) (lease : Nat)
  | returned (own : Option Nat) (origin : Option Nat)
deriving DecidableEq

/-- `touched` is when a key was last looked up. The rest is read by no program: the
groups that inputs of workers were given since they were registered (`opened`), the
leases a worker was given and still has (`held`), the intents, and the trace, the
latest event first. -/
structure State where
  clock : Nat
  nextId : Nat
  streams : StreamKey → Option (Stream Payload)
  touched : StreamKey → Nat
  credentials : String → Option Credential
  turns : String → Option WorkerActiveTurn
  opened : List (String × String)
  held : String → List Nat
  intents : List (Party × Intent)
  trace : List Event

namespace State

def record (s : State) (event : Event) : State := { s with trace := event :: s.trace }

def touch (s : State) (key : StreamKey) : State := { s with touched := Function.update s.touched key s.clock }

def setStream (s : State) (key : StreamKey) (stream : Option (Stream Payload)) : State :=
  { s with streams := Function.update s.streams key stream }

def intend (s : State) (t : Party) (intent : Intent) : State := { s with intents := (t, intent) :: s.intents }

def settle (s : State) (t : Party) : State := { s with intents := s.intents.filter fun entry => entry.1 ≠ t }

def registered (s : State) (workerId : String) : Bool := (s.credentials workerId).isSome

def inUse (s : State) (key : StreamKey) : Bool := key.worker.any s.registered

def hears (s : State) (t : Party) : State :=
  { s with intents := s.intents.filter fun entry => !(entry.1 = t && entry.2.isWaiting) }

def opens (s : State) (t : Party) (key : StreamKey) (group : String) : State :=
  match t, key with
  | .register _, .input workerId => { s with opened := (workerId, group) :: s.opened }
  | _, _ => s

def awaits (s : State) (t : Party) (key : StreamKey) (group : String) : State :=
  match t, key with
  | .waiter _, .output workerId => s.intend t (.awaits workerId group)
  | _, _ => s

def createGroup (s : State) (key : StreamKey) (group : String) (start : GroupStart) : State :=
  let stream := (s.streams key).getD .empty
  (s.setStream key (some (stream.setGroup group (some ⟨start.lastDelivered stream, []⟩)))).touch key

def hasGroup (s : State) (key : StreamKey) (group : String) : Bool :=
  (s.streams key).any fun stream => (stream.groups group).isSome

def xgroupCreate (t : Party) (key : StreamKey) (group : String) (start : GroupStart) (s : State) : Except Exn Unit × State :=
  if s.hasGroup key group then (.error .busyGroup, ((s.touch key).opens t key group).awaits t key group)
  else (.ok (), ((s.createGroup key group start).opens t key group).awaits t key group)

def xgroupDestroy (key : StreamKey) (group : String) (s : State) : Except Exn Unit × State :=
  match s.streams key with
  | none => (.error (.exception "ResponseError"), s)
  | some stream => (.ok (), (s.setStream key (some (stream.setGroup group none))).touch key)

def xreadgroup (t : Party) (key : StreamKey) (group consumer : String) (s : State) :
    Except Exn (Option (Nat × Payload)) × State :=
  match (s.streams key).bind fun stream => (stream.groups group).map fun g => (stream, g) with
  | none => (.error .noGroup, s.touch key)
  | some (stream, g) => match (stream.unread g).head? with
    | none => (.ok none, s.touch key)
    | some (entryId, payload) =>
      let s := (s.setStream key (some (stream.deliver group g entryId))).touch key
      match t with
      | .lease _ => (.ok (some (entryId, payload)),
          (s.intend t (.hands consumer entryId)).record (.delivered consumer entryId))
      | _ => (.ok (some (entryId, payload)), s)

def xadd (t : Party) (key : StreamKey) (payload : Payload) (maxlen : Option Nat) (account : String) (trimmed : Nat)
    (s : State) : Except Exn Nat × State :=
  let stream := (s.streams key).getD .empty
  let excess := match maxlen with
    | none => 0
    | some maxlen => min trimmed (stream.entries.length + 1 - maxlen)
  let added := (s.setStream key (some (stream.add s.nextId payload excess))).touch key
  let added := { added with nextId := s.nextId + 1 }
  match t, payload with
  | .submit _, .result _ (some lease) => (.ok s.nextId, added.record (.appended account lease))
  | .waiter _, _ => (.ok s.nextId, added.intend t (.sent s.nextId))
  | _, _ => (.ok s.nextId, added)

def xack (t : Party) (key : StreamKey) (group : String) (entryId : Nat) (account : String) (s : State) :
    Except Exn Unit × State :=
  let s := match s.streams key with
    | none => s
    | some stream => s.setStream key (some (stream.acknowledge group entryId))
  match t with
  | .submit _ => (.ok (), (s.touch key).record (.acknowledged account entryId))
  | .waiter _ => (.ok (), (s.touch key).hears t)
  | _ => (.ok (), s.touch key)

def readTurn (t : Party) (workerId : String) (lease : Nat) (s : State) : Except Exn (Option WorkerActiveTurn) × State :=
  match s.turns workerId with
  | none => (.ok none, s)
  | some turn => (.ok (some turn), if turn.leaseId = lease then s.intend t (.releases workerId lease) else s)

def deleteTurn (t : Party) (workerId : String) (lease : Nat) (s : State) : Except Exn Unit × State :=
  let cleared := State.record { s with turns := Function.update s.turns workerId none }
    (.cleared workerId lease (s.turns workerId))
  (.ok (), cleared.settle t)

def writeCredential (workerId : String) (credential : Credential) (s : State) : Except Exn Unit × State :=
  (.ok (), { s with
    credentials := Function.update s.credentials workerId (some credential)
    opened := s.opened.filter (·.1 ≠ workerId) })

def forget (s : State) (workerId : String) : State :=
  { s with
    credentials := Function.update s.credentials workerId none
    turns := Function.update s.turns workerId none
    opened := s.opened.filter (·.1 ≠ workerId) }

def answer (t : Party) (workerId : String) (lease : Nat) (s : State) : Except Exn Unit × State :=
  (.ok (), State.settle { s with held := Function.update s.held workerId (lease :: s.held workerId) } t)

def idletime (t : Party) (key : StreamKey) (limit : Nat) (s : State) : Except Exn Nat × State :=
  match s.streams key with
  | none => (.error (.exception "TypeError"), s)
  | some _ =>
    let idle := s.clock - s.touched key
    (.ok idle, if idle ≥ limit then (s.settle t).intend t (.dooms key) else s.settle t)

def delete (t : Party) (key : StreamKey) (s : State) : Except Exn Unit × State :=
  let swept := State.record (s.setStream key none) (.swept key (s.inUse key))
  (.ok (), swept.settle t)

end State

/-- What anybody else does: time passes, a worker's container dies or starts again,
worker-manager removes a worker, and entries are added that no worker submitted. -/
inductive OutsideChange where
  | advance (seconds : Nat)
  | removeWorker (workerId : String)
  | deathNotice (workerId : String) (exitCode : String)
  | restart (workerId : String)
  | publish (key : StreamKey) (data : InputData)
  | read (key : StreamKey)

def OutsideChange.apply (change : OutsideChange) (s : State) : State :=
  match change with
  | .advance seconds => { s with clock := s.clock + seconds }
  | .removeWorker workerId =>
    (((s.forget workerId).setStream (.input workerId) none).setStream (.output workerId) none)
  | .deathNotice workerId exitCode =>
    let notice := WorkerResult.failed ("Worker container died (exit_code=" ++ exitCode ++ ")") none
    (s.xadd (.outside 0) (.output workerId) (.result notice none) none workerId 0).2
  | .restart workerId => { s with held := Function.update s.held workerId [] }
  | .publish key data => (s.xadd (.outside 0) key (.flat data) none "" 0).2
  | .read key => s.touch key

/-- `keys` is what a scan comes up with, `trimmed` how much an approximate trim takes. -/
structure Reply where
  fate : Fate Exn
  service : (call : ServiceCall) → Except Exn call.Res
  keys : List StreamKey
  trimmed : Nat
  change : OutsideChange

def run (t : Party) (op : Op) (reply : Reply) (s : State) : Except Exn (Op.Res op) × State :=
  match op with
  | .service call => (reply.service call, s)
  | .clock => (.ok s.clock, s)
  | .writeCredential workerId credential => reply.fate.serve (State.writeCredential workerId credential) s
  | .readCredential workerId => reply.fate.serve (fun s => (.ok (s.credentials workerId), s)) s
  | .deleteWorkerKeys workerId => reply.fate.serve (fun s => (.ok (), s.forget workerId)) s
  | .xgroupCreate key group start => reply.fate.serve (State.xgroupCreate t key group start) s
  | .xgroupDestroy key group => reply.fate.serve (State.xgroupDestroy key group) s
  | .xreadgroup key group consumer => reply.fate.serve (State.xreadgroup t key group consumer) s
  | .xadd key payload maxlen account => reply.fate.serve (State.xadd t key payload maxlen account reply.trimmed) s
  | .xack key group entryId account => reply.fate.serve (State.xack t key group entryId account) s
  | .writeTurn workerId turn =>
    reply.fate.serve (fun s => (.ok (), { s with turns := Function.update s.turns workerId (some turn) })) s
  | .readTurn workerId lease => reply.fate.serve (State.readTurn t workerId lease) s
  | .deleteTurn workerId lease => reply.fate.serve (State.deleteTurn t workerId lease) s
  | .answer workerId lease => reply.fate.serve (State.answer t workerId lease) s
  | .scan pattern => reply.fate.serve (fun s => (.ok (reply.keys.filter pattern.holds), s)) s
  | .idletime key limit => reply.fate.serve (State.idletime t key limit) s
  | .delete key => reply.fate.serve (State.delete t key) s
  | .outside => (.ok (), reply.change.apply s)

def State.own (s : State) (t : Party) : Option Nat :=
  (s.intents.find? fun entry => entry.1 = t && entry.2.own.isSome).bind fun entry => entry.2.own

def ended (t : Party) (r : Option (Except Exn (Option SpawnResult))) (s : State) : State :=
  match r with
  | some (.ok (some result)) => (s.record (.returned (s.own t) result.origin)).settle t
  | _ => s.settle t

theorem mem_settle {s : State} {t u : Party} {intent : Intent} :
    (u, intent) ∈ (s.settle t).intents ↔ (u, intent) ∈ s.intents ∧ u ≠ t := by
  simp [State.settle]

theorem mem_hears {s : State} {t u : Party} {intent : Intent} :
    (u, intent) ∈ (s.hears t).intents ↔ (u, intent) ∈ s.intents ∧ (u = t → intent.isWaiting = false) := by
  simp [State.hears, imp_iff_not_or]

abbrev turnsWorld : World turnsInterface Party (Option SpawnResult) := ⟨State, fun _ => Reply, run, ended⟩

end Orchestrator.Turns
