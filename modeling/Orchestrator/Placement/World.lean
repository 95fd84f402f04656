import Mathlib.Data.List.Sort
import Orchestrator.Async.Interference
import Orchestrator.Contracts.Deploy
import Orchestrator.Python.Value

/-!
Servers, the applications placed on them, and the ports these hold, behind the API.
-/

namespace Orchestrator.Placement

open Async Contracts

inductive ServerStatus where
  | discovered | new | pendingSetup | provisioning | forceRebuild | ready | inUse | active
  | error | unreachable | maintenance | reserved | missing | decommissioned
deriving DecidableEq

inductive ApplicationStatus where
  | notDeployed | deploying | running | stopping | stopped | undeploying | down | degraded
deriving DecidableEq

inductive IncidentType where
  | serverUnreachable | provisioningFailed | serviceDown | resourceExhausted | sslExpiring | providerApiUnavailable
deriving DecidableEq

inductive IncidentStatus where
  | detected | recovering | resolved | failed
deriving DecidableEq

structure Datetime where
  reading : Int
  utcOffset : Option Int

def Datetime.instant (d : Datetime) : Int := d.reading - d.utcOffset.getD 0

structure Server where
  handle : String
  publicIp : String
  status : ServerStatus
  isManaged : Bool
  labels : Python.Mapping
  capacityRamMb : Int
  capacityDiskMb : Int
  usedRamMb : Int
  lastHealthCheck : Option Datetime

structure Incident where
  serverHandle : Option String
  incidentType : IncidentType
  status : IncidentStatus

structure Application where
  id : Nat
  repoId : String
  serverHandle : String
  serviceName : String
  reservedRamMb : Nat
  status : ApplicationStatus
deriving DecidableEq

structure PortAllocation where
  serverHandle : String
  port : Nat
  serviceName : String
  applicationId : Nat
deriving DecidableEq

structure AllocationError where
  reason : AllocationFailureReason
  requiredRamMb : Int
  minDiskMb : Int
deriving DecidableEq

inductive Exn where
  | exception (type : String)
  | allocationError (error : AllocationError)
  | cancelledError
deriving DecidableEq

structure ApplicationCreate where
  repoId : String
  serverHandle : String
  serviceName : String
  reservedRamMb : Int

inductive Op where
  | listServers (isManaged : Option Bool)
  | getServer (handle : String)
  | listActiveIncidents
  | listApplications (repoId serverHandle : Option String)
  | createApplication (application : ApplicationCreate)
  | listAllocations (applicationId : Nat)
  | portsOf (serverHandle : String)
  | insertAllocation (allocation : PortAllocation)
  | now
  | outside

def Op.Res : Op → Type
  | listServers _ => List Server
  | getServer _ => Server
  | listActiveIncidents => List Incident
  | listApplications .. => List Application
  | createApplication _ => Application
  | listAllocations _ => List PortAllocation
  | portsOf _ => List Nat
  | insertAllocation _ => Bool
  | now => Int
  | outside => Unit

abbrev placementInterface : Interface := ⟨Op, Op.Res, Exn⟩

abbrev Job (A : Type) := Prog placementInterface A

abbrev perform (op : Op) : Job (Op.Res op) := Prog.perform (I := placementInterface) op

structure Allocated where
  port : Nat
  serverHandle : String
  serverIp : String
  serviceName : String
  applicationId : Nat

inductive Party where
  | ensure (call : Nat)
  | scheduler
  | outside (execution : Nat)
deriving DecidableEq

/-- No program reads the last four: the servers whose applications a call has read, as long
as no application there has started to count; the applications such a call has created; the
call at work for a repository; and what the calls have returned. -/
structure State where
  servers : List Server
  incidents : List Incident
  applications : List Application
  nextId : Nat
  allocations : List PortAllocation
  clock : Int
  readings : List (Party × String)
  fresh : List Nat
  busy : String → Option Party
  returned : List (Nat × List Allocated)

def Application.holdsRamReservation (app : Application) : Bool := app.status ≠ .notDeployed && app.status ≠ .stopped

def reservedRam (apps : List Application) : Nat := ((apps.filter (·.holdsRamReservation)).map (·.reservedRamMb)).sum

theorem reservedRam_perm {apps apps' : List Application} (h : apps.Perm apps') : reservedRam apps = reservedRam apps' :=
  ((h.filter _).map _).sum_eq

namespace State

def application? (s : State) (id : Nat) : Option Application := s.applications.find? (·.id = id)

def applicationsOn (s : State) (serverHandle : String) : List Application :=
  s.applications.filter (·.serverHandle = serverHandle)

def listServers (isManaged : Option Bool) (s : State) : List Server :=
  s.servers.filter fun server => isManaged.all (server.isManaged = ·)

def getServer (handle : String) (s : State) : Except Exn Server × State :=
  match s.servers.find? (·.handle = handle) with
  | none => (.error (.exception "HTTPStatusError"), s)
  | some server => (.ok server, s)

def listActiveIncidents (s : State) : List Incident :=
  s.incidents.filter fun incident => incident.status = .detected || incident.status = .recovering

def findApplications (repoId serverHandle : Option String) (s : State) : List Application :=
  (s.applications.filter fun app => repoId.all (app.repoId = ·) && serverHandle.all (app.serverHandle = ·)).insertionSort
    (·.serviceName ≤ ·.serviceName)

/-- Whoever asks for all applications of a server has read it; whoever asks for those of a
repository is at work for it. -/
def listApplications (t : Party) (repoId serverHandle : Option String) (s : State) : Except Exn (List Application) × State :=
  (.ok (s.findApplications repoId serverHandle), match repoId, serverHandle with
    | none, some handle => { s with readings := (t, handle) :: s.readings }
    | some repoId, none => { s with busy := Function.update s.busy repoId (some t) }
    | _, _ => s)

def createApplication (t : Party) (application : ApplicationCreate) (s : State) : Except Exn Application × State :=
  if application.reservedRamMb < 1 || s.applications.any fun app =>
      app.repoId = application.repoId && app.serverHandle = application.serverHandle then
    (.error (.exception "HTTPStatusError"), s)
  else
    let app : Application := ⟨s.nextId, application.repoId, application.serverHandle, application.serviceName,
      application.reservedRamMb.toNat, .notDeployed⟩
    (.ok app, { s with
      applications := s.applications ++ [app]
      nextId := s.nextId + 1
      fresh := if s.readings.contains (t, application.serverHandle) then s.nextId :: s.fresh else s.fresh })

def listAllocations (applicationId : Nat) (s : State) : List PortAllocation :=
  s.allocations.filter fun allocation => applicationId = 0 || allocation.applicationId = applicationId

def portsOf (serverHandle : String) (s : State) : List Nat :=
  (s.allocations.filter (·.serverHandle = serverHandle)).map (·.port)

def insertAllocation (allocation : PortAllocation) (s : State) : Except Exn Bool × State :=
  if (s.portsOf allocation.serverHandle).contains allocation.port then (.ok false, s)
  else (.ok true, { s with allocations := s.allocations ++ [allocation] })

def setStatus (id : Nat) (status : ApplicationStatus) (s : State) : List Application :=
  s.applications.map fun app => if app.id = id then { app with status := status } else app

def starts (id : Nat) (status : ApplicationStatus) (s : State) : Bool :=
  (s.application? id).any fun app => !app.holdsRamReservation && { app with status := status }.holdsRamReservation

def changeStatus (id : Nat) (status : ApplicationStatus) (s : State) : State :=
  let s' := { s with applications := s.setStatus id status }
  match (s.application? id).filter fun _ => s.starts id status with
  | none => s'
  | some app => { s' with
      readings := s.readings.filter (·.2 ≠ app.serverHandle)
      fresh := s.fresh.filter fun other => (s.application? other).any (·.serverHandle ≠ app.serverHandle) }

def editServer (handle : String) (f : Server → Server) (s : State) : State :=
  { s with servers := s.servers.map fun server => if server.handle = handle then f server else server }

end State

/-- What anybody else does: applications change their status, servers are observed and
provisioned, incidents come and go. The capacity of a server stays. -/
inductive OutsideChange where
  | applicationStatus (id : Nat) (status : ApplicationStatus)
  | observe (handle : String) (usedRamMb : Int) (lastHealthCheck : Option Datetime)
  | provision (handle : String) (status : ServerStatus) (isManaged : Bool) (labels : Python.Mapping)
  | writeIncidents (incidents : List Incident)
  | tick (clock : Int)

def OutsideChange.apply (change : OutsideChange) (s : State) : State :=
  match change with
  | .applicationStatus id status => s.changeStatus id status
  | .observe handle usedRamMb lastHealthCheck => s.editServer handle fun server =>
    { server with usedRamMb := usedRamMb, lastHealthCheck := lastHealthCheck }
  | .provision handle status isManaged labels => s.editServer handle fun server =>
    { server with status := status, isManaged := isManaged, labels := labels }
  | .writeIncidents incidents => { s with incidents := incidents }
  | .tick clock => { s with clock := clock }

structure Reply where
  fate : Fate Exn
  change : OutsideChange

def run (t : Party) (op : Op) (reply : Reply) (s : State) : Except Exn (Op.Res op) × State :=
  match op with
  | .listServers isManaged => reply.fate.serve (fun s => (.ok (s.listServers isManaged), s)) s
  | .getServer handle => reply.fate.serve (State.getServer handle) s
  | .listActiveIncidents => reply.fate.serve (fun s => (.ok s.listActiveIncidents, s)) s
  | .listApplications repoId serverHandle => reply.fate.serve (State.listApplications t repoId serverHandle) s
  | .createApplication application => reply.fate.serve (State.createApplication t application) s
  | .listAllocations applicationId => reply.fate.serve (fun s => (.ok (s.listAllocations applicationId), s)) s
  | .portsOf serverHandle => reply.fate.serve (fun s => (.ok (s.portsOf serverHandle), s)) s
  | .insertAllocation allocation => reply.fate.serve (State.insertAllocation allocation) s
  | .now => (.ok s.clock, s)
  | .outside => (.ok (), reply.change.apply s)

def ended (t : Party) (outcome : Option (Except Exn (List Allocated))) (s : State) : State :=
  { s with
    readings := s.readings.filter (·.1 ≠ t)
    busy := fun repoId => if s.busy repoId = some t then none else s.busy repoId
    returned := match t, outcome with
      | .ensure n, some (.ok allocated) => (n, allocated) :: s.returned
      | _, _ => s.returned }

abbrev placementWorld : World placementInterface Party (List Allocated) := ⟨State, fun _ => Reply, run, ended⟩

end Orchestrator.Placement
