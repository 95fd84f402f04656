import Orchestrator.Placement.World

/-!
Choosing a server for a project, and a port for each of its modules. The scheduler
asks once more, for those who wait, whether there is a server.
-/

namespace Orchestrator.Placement

open Async Contracts

structure Settings where
  allocationRamReserveMb : Nat
  allocationMetricsFreshnessSeconds : Int

def listServers (isManaged : Option Bool) : Job (List Server) := perform (.listServers isManaged)

def getServer (handle : String) : Job Server := perform (.getServer handle)

def listActiveIncidents : Job (List Incident) := perform .listActiveIncidents

def listApplications (repoId serverHandle : Option String) : Job (List Application) :=
  perform (.listApplications repoId serverHandle)

def now : Job Int := perform .now

def admittingServerStatuses : List ServerStatus := [.active, .ready, .inUse]

inductive ServerAdmissionRejection where
  | notManaged | statusNotAdmitting | provisioningIncomplete | provisioningFailed

def admissionFailureReason : AllocationFailureReason := .serverNotProvisioned

def provisioningFailedServerHandles (incidents : List Incident) : List String :=
  (incidents.filter (·.incidentType = .provisioningFailed)).filterMap (·.serverHandle)

/-- A label that is missing or no text is not `complete`. -/
def provisioningComplete (labels : Python.Mapping) : Bool :=
  match Python.valueAt labels "provisioning_phase" with
  | .text phase => phase = "complete"
  | _ => false

def serverAdmissionRejection (server : Server) (provisioningFailedHandles : List String) : Option ServerAdmissionRejection :=
  if !server.isManaged then some .notManaged
  else if !admittingServerStatuses.contains server.status then some .statusNotAdmitting
  else if !provisioningComplete server.labels then some .provisioningIncomplete
  else if provisioningFailedHandles.contains server.handle then some .provisioningFailed
  else none

def serverAdmitsApplication (server : Server) (provisioningFailedHandles : List String) : Bool :=
  (serverAdmissionRejection server provisioningFailedHandles).isNone

def allocationRequiredRamMb (settings : Settings) (minRamMb : Int) : Int := minRamMb + settings.allocationRamReserveMb

def hasFreshMetrics (clock : Int) (lastHealthCheck : Option Datetime) (freshnessSeconds : Int) : Bool :=
  lastHealthCheck.any fun checked =>
    0 ≤ clock - checked.instant && clock - checked.instant ≤ freshnessSeconds * 1000000

inductive RejectionReason where
  | insufficientCapacity | insufficientReservedMemory | noFreshMetrics | insufficientFreeMemory
deriving DecidableEq

structure Search where
  suitable : List (Server × Int)
  rejectionReasons : List RejectionReason
  admissionRejections : List ServerAdmissionRejection

def Search.empty : Search := ⟨[], [], []⟩

namespace Search

def reject (search : Search) (reason : RejectionReason) : Search :=
  { search with rejectionReasons := search.rejectionReasons ++ [reason] }

def rejectAdmission (search : Search) (rejection : ServerAdmissionRejection) : Search :=
  { search with admissionRejections := search.admissionRejections ++ [rejection] }

def accept (search : Search) (server : Server) (slack : Int) : Search :=
  { search with suitable := search.suitable ++ [(server, slack)] }

end Search

def weighMetrics (settings : Settings) (requiredRamMb : Int) (server : Server) (reservedRamMb : Nat) (clock : Int)
    (search : Search) : Search :=
  if !hasFreshMetrics clock server.lastHealthCheck settings.allocationMetricsFreshnessSeconds then
    search.reject .noFreshMetrics
  else if server.capacityRamMb < max (reservedRamMb : Int) server.usedRamMb + requiredRamMb then
    search.reject .insufficientFreeMemory
  else search.accept server (server.capacityRamMb - max (reservedRamMb : Int) server.usedRamMb)

def weighServer (settings : Settings) (requiredRamMb minDiskMb : Int) (provisioningFailedHandles : List String)
    (server : Server) (search : Search) : Job Search :=
  match serverAdmissionRejection server provisioningFailedHandles with
  | some rejection => return search.rejectAdmission rejection
  | none =>
    if server.capacityDiskMb < minDiskMb then return search.reject .insufficientCapacity
    else do
      let applications ← listApplications none (some server.handle)
      if server.capacityRamMb < reservedRam applications + requiredRamMb then
        return search.reject .insufficientReservedMemory
      else do
        let clock ← now
        return weighMetrics settings requiredRamMb server (reservedRam applications) clock search

def weighServers (settings : Settings) (requiredRamMb minDiskMb : Int) (provisioningFailedHandles : List String) :
    List Server → Search → Job Search
  | [], search => return search
  | server :: rest, search => do
    let search ← weighServer settings requiredRamMb minDiskMb provisioningFailedHandles server search
    weighServers settings requiredRamMb minDiskMb provisioningFailedHandles rest search

def requestExceedsEveryServer (servers : List Server) (requiredRamMb minDiskMb : Int) : Bool :=
  !servers.any fun server => requiredRamMb ≤ server.capacityRamMb && minDiskMb ≤ server.capacityDiskMb

def roomiest : List (Server × Int) → Option (Server × Int)
  | [] => none
  | candidate :: rest => match roomiest rest with
    | none => some candidate
    | some other => if candidate.2 < other.2 then some other else some candidate

def refusalReason (servers : List Server) (requiredRamMb minDiskMb : Int) (search : Search) : AllocationFailureReason :=
  if requestExceedsEveryServer servers requiredRamMb minDiskMb then .impossibleCapacity
  else if !search.admissionRejections.isEmpty then admissionFailureReason
  else if search.rejectionReasons.contains .noFreshMetrics then .noFreshMetrics
  else if search.rejectionReasons.contains .insufficientReservedMemory then .insufficientReservedMemory
  else .insufficientFreeMemory

def chooseServer (servers : List Server) (requiredRamMb minDiskMb : Int) (search : Search) : Job Server :=
  match roomiest search.suitable with
  | some candidate => return candidate.1
  | none => .raise (.allocationError ⟨refusalReason servers requiredRamMb minDiskMb search, requiredRamMb, minDiskMb⟩)

def findSuitableServer (settings : Settings) (minRamMb minDiskMb : Int) : Job Server := do
  let servers ← listServers (some true)
  let incidents ← listActiveIncidents
  let requiredRamMb := allocationRequiredRamMb settings minRamMb
  let search ← weighServers settings requiredRamMb minDiskMb (provisioningFailedServerHandles incidents) servers .empty
  chooseServer servers requiredRamMb minDiskMb search

def refuseInadmissibleTarget (settings : Settings) (server : Server) (provisioningFailedHandles : List String)
    (minRamMb minDiskMb : Int) : Job Unit :=
  match serverAdmissionRejection server provisioningFailedHandles with
  | none => return ()
  | some _ => .raise (.allocationError ⟨admissionFailureReason, allocationRequiredRamMb settings minRamMb, minDiskMb⟩)

def createApplication (application : ApplicationCreate) : Job Application :=
  perform (.createApplication application)

def getOrCreateApplication (application : ApplicationCreate) : Job Application := do
  match ← listApplications (some application.repoId) (some application.serverHandle) with
  | app :: _ => return app
  | [] => createApplication application

/-- The first port from `port` on that is not taken; `ports` bounds the search. -/
def nextPort (taken : List Nat) : Nat → Nat → Nat
  | 0, port => port
  | fuel + 1, port => if taken.contains port then nextPort taken fuel (port + 1) else port

def startPort : Nat := 8000

def maxRetries : Nat := 10

def insertAllocation (allocation : PortAllocation) : Job Bool :=
  perform (.insertAllocation allocation)

def allocateNextPort (serverHandle serviceName : String) (applicationId : Nat) : Nat → Job Nat
  | 0 => .raise (.exception "HTTPStatusError")
  | attempts + 1 => do
    let taken : List Nat ← perform (.portsOf serverHandle)
    let port := nextPort taken taken.length startPort
    let inserted ← insertAllocation ⟨serverHandle, port, serviceName, applicationId⟩
    if inserted then return port else allocateNextPort serverHandle serviceName applicationId attempts

/-- `allocated[f"{server_handle}:{port}"] = entry` -/
def putAllocated (allocated : List Allocated) (entry : Allocated) : List Allocated :=
  (allocated.filter fun other => !(other.serverHandle = entry.serverHandle && other.port = entry.port)) ++ [entry]

def describeAllocations (applicationId : Nat) : List PortAllocation → List Allocated → Job (List Allocated)
  | [], allocated => return allocated
  | allocation :: rest, allocated => do
    let server ← getServer allocation.serverHandle
    describeAllocations applicationId rest (putAllocated allocated
      ⟨allocation.port, allocation.serverHandle, server.publicIp, allocation.serviceName, applicationId⟩)

def allocateModules (serverHandle serverIp : String) (applicationId : Nat) : List String → List Allocated → Job (List Allocated)
  | [], allocated => return allocated
  | module :: rest, allocated => do
    let port ← allocateNextPort serverHandle module applicationId maxRetries
    allocateModules serverHandle serverIp applicationId rest
      (putAllocated allocated ⟨port, serverHandle, serverIp, module, applicationId⟩)

def missingModules (modules : List String) (allocated : List Allocated) : List String :=
  modules.eraseDups.filter fun module => !(allocated.map (·.serviceName)).contains module

structure EnsureRequest where
  repoId : String
  serviceName : String
  modules : List String
  minRamMb : Int
  minDiskMb : Int

def reuse (settings : Settings) (request : EnsureRequest) (app : Application) : Job (Server × Application) := do
  let server ← getServer app.serverHandle
  let incidents ← listActiveIncidents
  refuseInadmissibleTarget settings server (provisioningFailedServerHandles incidents) request.minRamMb request.minDiskMb
  return (server, app)

def placeNew (settings : Settings) (request : EnsureRequest) : Job (Server × Application) := do
  let server ← findSuitableServer settings request.minRamMb request.minDiskMb
  let app ← getOrCreateApplication ⟨request.repoId, server.handle, request.serviceName, request.minRamMb⟩
  return (server, app)

def place (settings : Settings) (request : EnsureRequest) : List Application → Job (Server × Application)
  | app :: _ => reuse settings request app
  | [] => placeNew settings request

def handleOf (existingApps : List Application) (server : Server) : String :=
  match existingApps with
  | bound :: _ => bound.serverHandle
  | [] => server.handle

def ensureProjectAllocations (settings : Settings) (request : EnsureRequest) : Job (List Allocated) := do
  let existingApps ← listApplications (some request.repoId) none
  let (server, app) ← place settings request existingApps
  let existing : List PortAllocation ← perform (.listAllocations app.id)
  let allocated ← describeAllocations app.id existing []
  allocateModules (handleOf existingApps server) server.publicIp app.id (missingModules request.modules allocated) allocated

def maxTcpPort : Nat := 65535

inductive SecretResolutionError where
  | ambiguousAllocation (serviceName : String)
  | serverIpRequired (serviceName : String)
  | serverIpInvalid (serviceName : String)
  | portRequired (serviceName : String)

def SecretResolutionError.message : SecretResolutionError → String
  | .ambiguousAllocation serviceName => "Ambiguous allocation for service " ++ serviceName
  | .serverIpRequired serviceName => "Invalid allocation for service " ++ serviceName ++ ": server_ip is required"
  | .serverIpInvalid serviceName => "Invalid allocation for service " ++ serviceName ++ ": server_ip is invalid"
  | .portRequired serviceName => "Invalid allocation for service " ++ serviceName ++ ": port is required"

def checkAllocation (isIpAddress : String → Bool) (alloc : Allocated) (serviceName : String) :
    Except SecretResolutionError (String × Nat) :=
  if Python.strip alloc.serverIp.toList = [] || Python.lowerAscii alloc.serverIp.toList = "localhost".toList then
    .error (.serverIpRequired serviceName)
  else if !isIpAddress alloc.serverIp then .error (.serverIpInvalid serviceName)
  else if alloc.port < 1 || maxTcpPort < alloc.port then .error (.portRequired serviceName)
  else .ok (alloc.serverIp, alloc.port)

def findAllocation (isIpAddress : String → Bool) (allocatedResources : List Allocated) (serviceName : String) :
    Except SecretResolutionError (Option (String × Nat)) :=
  match allocatedResources.filter (·.serviceName = serviceName) with
  | [] => .ok none
  | [alloc] => (checkAllocation isIpAddress alloc serviceName).map some
  | _ :: _ :: _ => .error (.ambiguousAllocation serviceName)

def askedFor (serverHandle : String) : Option String := if serverHandle = "" then none else some serverHandle

/-- `if server_handle:` leaves the filter out for an empty handle. -/
def getApplications (serverHandle : String) : Job (List Application) := listApplications none (askedFor serverHandle)

def takesRequest (freshnessSeconds requiredRamMb minDiskMb : Int) (provisioningFailedHandles : List String) (clock : Int)
    (server : Server) : Job Bool :=
  if !serverAdmitsApplication server provisioningFailedHandles then return false
  else if server.capacityRamMb < requiredRamMb || server.capacityDiskMb < minDiskMb then return false
  else if !hasFreshMetrics clock server.lastHealthCheck freshnessSeconds then return false
  else do
    let apps ← getApplications server.handle
    return max (reservedRam apps : Int) server.usedRamMb + requiredRamMb ≤ server.capacityRamMb

def anyTakesRequest (freshnessSeconds requiredRamMb minDiskMb : Int) (provisioningFailedHandles : List String) (clock : Int) :
    List Server → Job Bool
  | [] => return false
  | server :: rest => do
    let taken ← takesRequest freshnessSeconds requiredRamMb minDiskMb provisioningFailedHandles clock server
    if taken then return true
    else anyTakesRequest freshnessSeconds requiredRamMb minDiskMb provisioningFailedHandles clock rest

def admissibleTargetExists (freshnessSeconds requiredRamMb minDiskMb : Int) : Job Bool := do
  let clock ← now
  let incidents ← listActiveIncidents
  let servers ← listServers none
  anyTakesRequest freshnessSeconds requiredRamMb minDiskMb (provisioningFailedServerHandles incidents) clock servers

def resourcesAvailable (freshnessSeconds : Int) (allocationRequiredRamMb allocationMinDiskMb : Option Int) : Job Bool :=
  match allocationRequiredRamMb, allocationMinDiskMb with
  | some requiredRamMb, some minDiskMb => admissibleTargetExists freshnessSeconds requiredRamMb minDiskMb
  | _, _ => return false

structure Fleet where
  settings : Settings
  requests : Nat → EnsureRequest

def body (fleet : Fleet) : Party → Job (List Allocated)
  | .ensure n => ensureProjectAllocations fleet.settings (fleet.requests n)
  | .scheduler => return []
  | .outside _ => do
    perform .outside
    return []

end Orchestrator.Placement
