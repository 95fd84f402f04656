import Orchestrator.Consumers.World

/-!
The shared consumer loop: an XAUTOCLAIM sweep from time to time, a blocking read, and what
becomes of each entry.
-/

namespace Orchestrator.Consumers

open Async Python

structure Schema where
  jsonLoads : String → Except String Value
  validateToleratingAdditions : Value → Except String Value
  hasLegacyRecipientField : Value → Bool

inductive Mode where
  | consume (autoAck : Bool)
  | consumeTyped

structure Consumer where
  schema : Schema
  mode : Mode
  count : Nat
  claimPending : Bool
  reclaimInterval : Int

def flat (fields : Fields) : Value := .mapping (fields.map fun field => (field.1, .text field.2))

def parseFields (schema : Schema) (fields : Fields) : Value :=
  match (fields.lookup "data").map schema.jsonLoads with
  | some (.ok (.mapping parsed)) => .mapping parsed
  | _ => flat fields

def decodeEntry (schema : Schema) (fields : Fields) : Except String Value :=
  match fields.lookup "data" with
  | some text => schema.jsonLoads text
  | none => .ok (flat fields)

def Consumer.reading (c : Consumer) (fields : Fields) : Option Value :=
  match c.mode with
  | .consume _ => some (parseFields c.schema fields)
  | .consumeTyped => match decodeEntry c.schema fields with
    | .error _ => none
    | .ok data => (c.schema.validateToleratingAdditions data).toOption

def perform (op : Op) : Job op.Res := Prog.perform (I := consumerInterface) op

def ensureConsumerGroup : Job Unit :=
  Prog.handle (perform .createGroup) fun e => if e = .busygroup then return () else .raise e

def resume (advances : Bool) : Job Unit := if advances then return () else .raise .generatorExit

def handOver (id : Nat) (value : Value) (autoAck : Bool) : Job Unit := do
  let advances : Bool ← perform (.handOver id value autoAck)
  resume advances

def cede : Job Unit := do
  let advances : Bool ← perform .cede
  resume advances

def ackEntry (id : Nat) (poison : Bool) : Job Unit := perform (.ack id poison)

def terminalAck (id : Nat) : Job Unit :=
  Prog.handle (ackEntry id true) fun e => if e.isException then return () else .raise e

def quarantineEntry (letter : DeadLetter) : Job Bool :=
  Prog.handle (do
    perform (.deadLetter letter)
    return true)
    fun e => if e.isException then return false else .raise e

def rejectEntry (id : Nat) (fields : Fields) (failure : Failure) (reason : String) : Job Unit := do
  let quarantined ← quarantineEntry ⟨id, failure, reason, fields⟩
  if quarantined then terminalAck id else return ()

def alertLegacyRecipientField (id : Nat) : Job Unit := perform (.alertLegacyRecipient id)

def alertIfLegacy (schema : Schema) (id : Nat) (data : Value) : Job Unit :=
  if schema.hasLegacyRecipientField data then alertLegacyRecipientField id else return ()

def consumeUntyped (schema : Schema) (autoAck : Bool) (id : Nat) (fields : Fields) : Job Unit := do
  handOver id (parseFields schema fields) autoAck
  if autoAck then ackEntry id false else return ()

def validateEntry (schema : Schema) (id : Nat) (fields : Fields) (data : Value) : Job Unit :=
  match schema.validateToleratingAdditions data with
  | .error reason => do
    alertIfLegacy schema id data
    rejectEntry id fields .validationError reason
  | .ok value => handOver id value false

def consumeTyped (schema : Schema) (id : Nat) (fields : Fields) : Job Unit :=
  match decodeEntry schema fields with
  | .error reason => rejectEntry id fields .decodeError reason
  | .ok data => validateEntry schema id fields data

def consumeEntry (c : Consumer) (id : Nat) (fields : Fields) : Job Unit :=
  match c.mode with
  | .consume autoAck => consumeUntyped c.schema autoAck id fields
  | .consumeTyped => consumeTyped c.schema id fields

abbrev Caught := Except Exn Unit

def recordLostEntry (id : Option Nat) (next : Job Caught) : Job Caught := do
  match ← Prog.attempt (perform (.recordLost id)) with
  | .error e => return .error e
  | .ok _ => next

def iterClaimed (c : Consumer) : List Claimed → Job Caught
  | [] => return .ok ()
  | .bodiless id :: rest => recordLostEntry id (iterClaimed c rest)
  | .entry id fields :: rest => do
    consumeEntry c id fields
    iterClaimed c rest

def recordDeleted : List Nat → Job Caught
  | [] => return .ok ()
  | id :: rest => recordLostEntry (some id) (recordDeleted rest)

def andThen (first next : Job Caught) : Job Caught := do
  match ← first with
  | .error e => return .error e
  | .ok () => next

/-- One XAUTOCLAIM sweep, of which `pages` pages are followed. -/
def reclaimPending (c : Consumer) : Nat → Nat → Job Caught
  | 0, _ => .raise .generatorExit
  | pages + 1, cursor => do
    match ← Prog.attempt (perform (.autoClaim cursor c.count)) with
    | .error e => return .error e
    | .ok page => andThen (iterClaimed c page.claimed) (andThen (recordDeleted page.deleted)
        (if page.cursor = 0 || page.cursor = cursor then return .ok () else reclaimPending c pages page.cursor))

def iterMessages (c : Consumer) : List (Nat × Fields) → Job Caught
  | [] => return .ok ()
  | (id, fields) :: rest => do
    consumeEntry c id fields
    iterMessages c rest

def idle : Job Caught := do
  match ← Prog.attempt (perform .sleep) with
  | .error e => return .error e
  | .ok () => do
    cede
    return .ok ()

def readNew (c : Consumer) : Job Caught := do
  match ← Prog.attempt (perform (.readGroup c.count)) with
  | .error e => return .error e
  | .ok [] => idle
  | .ok messages => iterMessages c messages

def sweepIfDue (c : Consumer) (pages : Nat) (nextReclaimAt : Int) : Job (Caught × Int) := do
  let clock : Int ← perform .monotonic
  if c.claimPending && nextReclaimAt ≤ clock then do
    let clock : Int ← perform .monotonic
    let swept ← reclaimPending c pages 0
    return (swept, clock + c.reclaimInterval)
  else return (.ok (), nextReclaimAt)

def readAfter (c : Consumer) : Caught → Job Caught
  | .error e => return .error e
  | .ok () => readNew c

def recover : Caught → Job Bool
  | .ok () => return true
  | .error .cancelledError => return false
  | .error .timeoutError => do
    perform .sleep
    cede
    return true
  | .error .nogroup => do
    ensureConsumerGroup
    perform .sleep
    return true
  | .error _ => do
    perform .sleep
    return true

def readLoop (c : Consumer) (pages : Nat) : Nat → Int → Job Unit
  | 0, _ => return ()
  | turns + 1, nextReclaimAt => do
    let (swept, nextReclaimAt) ← sweepIfDue c pages nextReclaimAt
    let read ← readAfter c swept
    let goesOn ← recover read
    if goesOn then readLoop c pages turns nextReclaimAt else return ()

def consume (c : Consumer) (pages turns : Nat) : Job Unit := do
  ensureConsumerGroup
  readLoop c pages turns 0

def caller : Job Unit := do
  let id : Nat ← perform .choose
  ackEntry id false

structure Fleet where
  consumers : Nat → Consumer
  pages : Nat
  turns : Nat

def body (fleet : Fleet) : Party → Job Unit
  | .consumer n => consume (fleet.consumers n) fleet.pages fleet.turns
  | .caller _ => caller
  | .outside _ => perform .outside

end Orchestrator.Consumers
