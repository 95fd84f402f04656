import Orchestrator.Async.Interference
import Orchestrator.Python.Value
import Orchestrator.Redis.Streams

/-!
One stream and one of its consumer groups in Redis, the consumers of the group, and the
callers that acknowledge what they were handed.
-/

namespace Orchestrator.Consumers

open Async

abbrev Fields := List (String × String)

inductive Failure where
  | decodeError | validationError
deriving DecidableEq

structure DeadLetter where
  entryId : Nat
  failure : Failure
  reason : String
  body : Fields
deriving DecidableEq

inductive Exn where
  | timeoutError
  | nogroup
  | busygroup
  | exception (type : String)
  | cancelledError
  | generatorExit
deriving DecidableEq

def Exn.isException : Exn → Bool
  | cancelledError => false
  | generatorExit => false
  | _ => true

inductive Claimed where
  | entry (id : Nat) (fields : Fields)
  | bodiless (id : Option Nat)

structure ClaimPage where
  cursor : Nat
  claimed : List Claimed
  deleted : List Nat

/-- `handOver` and `cede` give an entry, or nothing, to the caller, who goes on or does not. -/
inductive Op where
  | createGroup
  | autoClaim (cursor count : Nat)
  | recordLost (id : Option Nat)
  | readGroup (count : Nat)
  | deadLetter (letter : DeadLetter)
  | ack (id : Nat) (poison : Bool)
  | monotonic
  | handOver (id : Nat) (value : Python.Value) (autoAck : Bool)
  | cede
  | alertLegacyRecipient (id : Nat)
  | sleep
  | choose
  | outside

def Op.Res : Op → Type
  | createGroup => Unit
  | autoClaim _ _ => ClaimPage
  | recordLost _ => Nat
  | readGroup _ => List (Nat × Fields)
  | deadLetter _ => Unit
  | ack _ _ => Unit
  | monotonic => Int
  | handOver _ _ _ => Bool
  | cede => Bool
  | alertLegacyRecipient _ => Unit
  | sleep => Unit
  | choose => Nat
  | outside => Unit

abbrev consumerInterface : Interface := ⟨Op, Op.Res, Exn⟩

abbrev Job (A : Type) := Prog consumerInterface A

inductive Party where
  | consumer (n : Nat)
  | caller (execution : Nat)
  | outside (execution : Nat)
deriving DecidableEq

/-- `missed`: whoever was told that the entry is gone failed before it was counted;
`forgotten`: it went on to read without counting it. -/
inductive Event where
  | added (id : Nat) (fields : Fields)
  | delivered (id : Nat)
  | yielded (t : Party) (id : Nat) (value : Python.Value)
  | asked (id : Nat)
  | acked (id : Nat) (poison : Bool)
  | quarantined (id : Nat)
  | dropped (id : Nat)
  | counted (id : Nat)
  | missed (id : Nat)
  | forgotten (id : Nat)

/-- No program reads the last two: who was told of which entry that it is gone and has not
counted it yet, and what happened. -/
structure State where
  entries : List (Nat × Fields)
  lastId : Nat
  group : Option Redis.Group
  deadLetters : List DeadLetter
  lostTotal : Nat
  told : List (Party × Nat)
  trace : List Event

namespace State

def empty : State := ⟨[], 0, none, [], 0, [], []⟩

def record (s : State) (events : List Event) : State := { s with trace := events ++ s.trace }

def pending (s : State) : List Nat := (s.group.map (·.pending)).getD []

def holds (s : State) (id : Nat) : Bool := s.entries.any (·.1 = id)

def toldTo (s : State) (t : Party) : List Nat := (s.told.filter (·.1 = t)).map (·.2)

def abandon (t : Party) (s : State) : State :=
  { s with told := s.told.filter (·.1 ≠ t), trace := (s.toldTo t).map .missed ++ s.trace }

def goOn (t : Party) (s : State) : State := s.record ((s.toldTo t).map .forgotten)

def createGroup (s : State) : Except Exn Unit × State :=
  match s.group with
  | none => (.ok (), { s with group := some ⟨0, []⟩ })
  | some _ => (.error .busygroup, s)

def fresh (s : State) (g : Redis.Group) (number : Nat) : List (Nat × Fields) :=
  (s.entries.filter (g.lastDelivered < ·.1)).take number

def deliver (s : State) (g : Redis.Group) (rows : List (Nat × Fields)) : State :=
  { s with
    group := some ⟨((rows.map (·.1)).getLast?).getD g.lastDelivered, g.pending ++ rows.map (·.1)⟩
    trace := rows.map (fun row => .delivered row.1) ++ s.trace }

def readGroup (t : Party) (number : Nat) (s : State) : Except Exn (List (Nat × Fields)) × State :=
  match s.group with
  | none => (.error .nogroup, s.goOn t)
  | some g => (.ok (s.fresh g number), (s.goOn t).deliver g (s.fresh g number))

def deadLetter (letter : DeadLetter) (trimmed : Nat) (s : State) : Except Exn Unit × State :=
  (.ok (), { s with deadLetters := (s.deadLetters ++ [letter]).drop trimmed }.record [.quarantined letter.entryId])

def ack (id : Nat) (poison : Bool) (s : State) : Except Exn Unit × State :=
  (.ok (), { s with group := s.group.map fun g : Redis.Group => ⟨g.lastDelivered, g.pending.filter (· ≠ id)⟩ }.record [.acked id poison])

def handOver (t : Party) (id : Nat) (value : Python.Value) (autoAck advances : Bool) (s : State) : Except Exn Bool × State :=
  (.ok advances, s.record ((if autoAck && advances then [.asked id] else []) ++ [.yielded t id value]))

def choose (id : Nat) (s : State) : Except Exn Nat × State :=
  if s.trace.any fun event => match event with
    | .yielded _ other _ => other = id
    | _ => false
  then (.ok id, s.record [.asked id])
  else (.error (.exception "KeyError"), s)

end State

structure ClaimScan where
  cursor : Nat
  claims : List Nat
  bodiless : List (Option Nat)
  drops : List Nat

namespace State

def gone (s : State) (g : Redis.Group) (scan : ClaimScan) : List Nat :=
  g.pending.filter fun id => scan.drops.contains id && !s.holds id

def claimed (s : State) (g : Redis.Group) (scan : ClaimScan) : List Claimed :=
  (s.entries.filter fun entry => g.pending.contains entry.1 && scan.claims.contains entry.1).map (fun entry => .entry entry.1 entry.2) ++
    scan.bodiless.map .bodiless

def drop (t : Party) (s : State) (g : Redis.Group) (ids : List Nat) : State :=
  { s with
    group := some ⟨g.lastDelivered, g.pending.filter (!ids.contains ·)⟩
    told := ids.map (t, ·) ++ s.told
    trace := ids.map .dropped ++ s.trace }

def autoClaim (t : Party) (scan : ClaimScan) (s : State) : Except Exn ClaimPage × State :=
  match s.group with
  | none => (.error .nogroup, s.goOn t)
  | some g => (.ok ⟨scan.cursor, s.claimed g scan, s.gone g scan⟩, (s.goOn t).drop t g (s.gone g scan))

def recordLost (t : Party) (id : Option Nat) (s : State) : State :=
  { s with
    lostTotal := s.lostTotal + 1
    told := s.told.filter fun told => !(told.1 = t && some told.2 = id)
    trace := id.toList.map .counted ++ s.trace }

end State

inductive Change where
  | add (fields : Fields) (trimmed : Nat)
  | trim (trimmed : Nat)

def Change.apply (change : Change) (s : State) : State :=
  match change with
  | .add fields trimmed => { s with
      entries := (s.entries ++ [(s.lastId + 1, fields)]).drop trimmed
      lastId := s.lastId + 1 }.record [.added (s.lastId + 1) fields]
  | .trim trimmed => { s with entries := s.entries.drop trimmed }

structure Reply where
  fate : Fate Exn
  ready : Nat
  scan : ClaimScan
  trimmed : Nat
  clock : Int
  advances : Bool
  chosen : Nat
  change : Change

def run (t : Party) (op : Op) (reply : Reply) (s : State) : Except Exn (Op.Res op) × State :=
  match op with
  | .createGroup => reply.fate.serve State.createGroup s
  | .autoClaim _ _ => match reply.fate with
    | .served => State.autoClaim t reply.scan s
    | .unheard e => (.error e, (State.autoClaim t reply.scan s).2.abandon t)
    | .unsent e => (.error e, s.goOn t)
  | .recordLost id => match reply.fate with
    | .served => (.ok (s.lostTotal + 1), s.recordLost t id)
    | .unheard e => (.error e, (s.recordLost t id).abandon t)
    | .unsent e => (.error e, s.abandon t)
  | .readGroup count => match reply.fate with
    | .served => State.readGroup t (min count reply.ready) s
    | .unheard e => (.error e, (State.readGroup t (min count reply.ready) s).2)
    | .unsent e => (.error e, s.goOn t)
  | .deadLetter letter => reply.fate.serve (State.deadLetter letter reply.trimmed) s
  | .ack id poison => reply.fate.serve (State.ack id poison) s
  | .monotonic => (.ok reply.clock, s)
  | .handOver id value autoAck => State.handOver t id value autoAck reply.advances s
  | .cede => (.ok reply.advances, s)
  | .alertLegacyRecipient _ => reply.fate.serve (fun s => (.ok (), s)) s
  | .sleep => reply.fate.serve (fun s => (.ok (), s)) s
  | .choose => State.choose reply.chosen s
  | .outside => (.ok (), reply.change.apply s)

def ended (t : Party) (_ : Option (Except Exn Unit)) (s : State) : State := s.abandon t

abbrev consumerWorld : World consumerInterface Party Unit := ⟨State, fun _ => Reply, run, ended⟩

end Orchestrator.Consumers
