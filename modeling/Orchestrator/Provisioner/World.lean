import Orchestrator.Async.Histories
import Orchestrator.Async.Interference

/-!
The provisioner's handling of one entry of its queue, with what it keeps in
Redis for the entry while the incident journal cannot be written.
-/

namespace Orchestrator.Provisioner

open Async

inductive ResultStatus where
  | success | failed | superseded

structure ProvisionerMessage where
  requestId : String
  serverHandle : String
  isRecovery : Bool

structure ProvisionerResult where
  requestId : String
  status : ResultStatus
  serverHandle : String
  errors : List String

inductive Exn where
  | incidentPersistence (serverHandle details : String)
  | keyError
  | exception

structure Saved where
  serverHandle : String
  details : String
  requestId : String
deriving DecidableEq

/-- The hash `provisioner:incident-outage:<message id>`. -/
structure Outage where
  attempts : Option Nat
  saved : Option Saved
  terminalPublished : Bool
deriving DecidableEq

namespace Outage

def absent : Outage := ⟨none, none, false⟩

def stored (outage : Outage) : Bool := outage.attempts.isSome || outage.saved.isSome || outage.terminalPublished

def half (outage : Outage) : Bool := outage.attempts.isSome && outage.saved.isNone

end Outage

inductive Op where
  | hgetall
  | processJob (job : ProvisionerMessage)
  | createIncident (serverHandle details : String)
  | set (result : ProvisionerResult)
  | publish (result : ProvisionerResult)
  | ack
  | hincrby
  | hset (saved : Saved)
  | hsetTerminal
  | delete

def Op.Res : Op → Type
  | hgetall => Outage
  | processJob _ => ProvisionerResult
  | hincrby => Nat
  | _ => Unit

abbrev provisionerInterface : Interface := ⟨Op, Op.Res, Exn⟩

abbrev Handling (A : Type) := Prog provisionerInterface A

/-- One event for each call and each death of the process; `called` stands for a call that wrote
nothing the entry's outcome depends on. -/
inductive Event where
  | read (found : Outage)
  | ran
  | stored
  | published
  | acked
  | called
  | died
deriving DecidableEq

structure State where
  outage : Outage
  acked : Bool
  trace : List Event

def State.record (s : State) (event : Event) : State := { s with trace := event :: s.trace }

inductive Journal where
  | recorded | unavailable | raised

structure Reply where
  fate : Fate Unit
  provisioned : Except (String × String) ProvisionerResult
  journal : Journal

def command {A : Type} (fate : Fate Unit) (event : Event) (answer : A) (write : State → State) (s : State) :
    Except Exn A × State :=
  match fate with
  | .served => (.ok answer, (write s).record event)
  | .unheard _ => (.error .exception, (write s).record event)
  | .unsent _ => (.error .exception, s.record .called)

def hgetall (fate : Fate Unit) (s : State) : Except Exn Outage × State :=
  match fate with
  | .served => (.ok s.outage, s.record (.read s.outage))
  | .unheard _ | .unsent _ => (.error .exception, s.record .called)

def processJob (provisioned : Except (String × String) ProvisionerResult) (s : State) : Except Exn ProvisionerResult × State :=
  (provisioned.mapError fun error => .incidentPersistence error.1 error.2, s.record .ran)

def createIncident (serverHandle details : String) (journal : Journal) (s : State) : Except Exn Unit × State :=
  match journal with
  | .recorded => (.ok (), s.record .called)
  | .unavailable => (.error (.incidentPersistence serverHandle details), s.record .called)
  | .raised => (.error .exception, s.record .called)

def attemptsOf (s : State) : Nat := s.outage.attempts.getD 0 + 1

def run (_ : Unit) (op : Op) (reply : Reply) (s : State) : Except Exn (Op.Res op) × State :=
  match op with
  | .hgetall => hgetall reply.fate s
  | .processJob _ => processJob reply.provisioned s
  | .createIncident serverHandle details => createIncident serverHandle details reply.journal s
  | .set _ => command reply.fate .called () id s
  | .publish _ => command reply.fate .published () id s
  | .ack => command reply.fate .acked () (fun s => { s with acked := true }) s
  | .hincrby => command reply.fate .stored (attemptsOf s)
      (fun s => { s with outage := { s.outage with attempts := some (attemptsOf s) } }) s
  | .hset saved => command reply.fate .stored () (fun s => { s with outage := { s.outage with saved := some saved } }) s
  | .hsetTerminal => command reply.fate .stored () (fun s => { s with outage := { s.outage with terminalPublished := true } }) s
  | .delete => command reply.fate .called () (fun s => { s with outage := .absent }) s

def ended (_ : Unit) (outcome : Option (Except Exn Unit)) (s : State) : State :=
  match outcome with
  | none => s.record .died
  | some _ => s

abbrev provisionerWorld : World provisionerInterface Unit Unit := ⟨State, fun _ => Reply, run, ended⟩

def perform (op : Op) : Handling op.Res := Prog.perform (I := provisionerInterface) op

def acknowledge : Handling Unit := perform .ack

def publishAndAck (result : ProvisionerResult) : Handling Unit := do
  perform (.set result)
  perform (.publish result)
  acknowledge

def incidentOutageRetryBudget : Nat := 3

def journalUnavailable (job : ProvisionerMessage) (serverHandle : String) : ProvisionerResult :=
  ⟨job.requestId, .failed, serverHandle, ["Provisioning incident journal unavailable after bounded retries"]⟩

def publishTerminal (result : ProvisionerResult) : Handling Unit := do
  perform (.set result)
  perform (.publish result)
  perform .hsetTerminal
  acknowledge

def readOutage : Handling Outage := perform .hgetall

def countAttempt : Handling Nat := perform .hincrby

def escalate (job : ProvisionerMessage) (serverHandle : String) : Handling Unit := do
  let state ← readOutage
  if state.terminalPublished then acknowledge else publishTerminal (journalUnavailable job serverHandle)

def handleIncidentOutage (job : ProvisionerMessage) (serverHandle details : String) : Handling Unit := do
  let attempts ← countAttempt
  perform (.hset ⟨serverHandle, details, job.requestId⟩)
  if attempts < incidentOutageRetryBudget then .ret () else escalate job serverHandle

def journalRecovered (job : ProvisionerMessage) (serverHandle : String) : ProvisionerResult :=
  ⟨job.requestId, .failed, serverHandle, ["Provisioning failed; incident journal write recovered"]⟩

def settleIncident (job : ProvisionerMessage) (saved : Saved) : Except Exn Unit → Handling Unit
  | .ok _ => do
    publishAndAck (journalRecovered job saved.serverHandle)
    perform .delete
  | .error (.incidentPersistence serverHandle details) => handleIncidentOutage job serverHandle details
  | .error e => .raise e

def writeIncident (saved : Saved) : Handling Unit := perform (.createIncident saved.serverHandle saved.details)

def retrySavedIncident (job : ProvisionerMessage) (state : Outage) : Handling Unit :=
  if state.terminalPublished then acknowledge
  else match state.saved with
    | none => .raise .keyError
    | some saved => do
      let recorded ← (writeIncident saved).attempt
      settleIncident job saved recorded

def processProvisionerJob (job : ProvisionerMessage) : Handling ProvisionerResult := perform (.processJob job)

def provision (job : ProvisionerMessage) : Handling Unit := do
  let result ← processProvisionerJob job
  publishAndAck result

def serveEntry (job : ProvisionerMessage) : Handling Unit := do
  let state ← readOutage
  if state.stored then retrySavedIncident job state else provision job

/-- One delivery in `run_worker`; other exceptions are logged. -/
def deliver (job : ProvisionerMessage) : Handling Unit :=
  (serveEntry job).handle fun
    | .incidentPersistence serverHandle details => handleIncidentOutage job serverHandle details
    | _ => .ret ()

end Orchestrator.Provisioner
