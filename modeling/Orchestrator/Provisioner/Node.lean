import Orchestrator.Async.Runs
import Orchestrator.Placement.Allocations
import Orchestrator.Servers.Sync

/-!
The provisioner's work on one server, step by step, beside the server sync, the
listener to its results and the administrators, who write the same rows.
-/

namespace Orchestrator.Provisioning

open Async Python
open Placement (ServerStatus Incident)
open Servers (Server)

abbrev Exn := ServerSync.Exn

inductive ResultStatus where
  | success | failed | superseded

structure ProvisionerMessage where
  serverHandle : String
  isRecovery : Bool

structure ProvisionerResult where
  serverHandle : String
  status : ResultStatus

inductive ServiceCall where
  | nextJob
  | nextResult
  | hasCredentials
  | identityMatches (providerId : Int) (ip : String)
  | reinstallServer (providerId : Int)
  | waitForTask (providerId : Int)
  | resetServerPassword (providerId : Int)
  | accessPlaybook (handle ip : String) (password : Option String)
  | privateKey
  | saveServerSshKey (handle key : String)
  | redeployAllServices (handle ip : String)

def ServiceCall.Res : ServiceCall → Type
  | nextJob => ProvisionerMessage
  | nextResult => ProvisionerResult
  | hasCredentials | identityMatches .. | accessPlaybook .. => Bool
  | waitForTask _ | resetServerPassword _ | privateKey => Option String
  | _ => Unit

inductive Op where
  | sync (op : ServerSync.Op)
  | service (call : ServiceCall)
  | getServer (handle : String)
  | authorizedServerId (server : Server)
  | serverIsAllowed (providerId : Int)
  | updateStatus (handle : String) (status : ServerStatus)
  | patchLabels (handle : String) (labels : Mapping)
  | reserveAttempt (handle : String) (request : Servers.ProvisioningAttemptReservation)
  | resetAttempts (handle : String) (request : Servers.ProvisioningAttemptReset)
  | softwarePlaybook (handle : String)
  | createIncident (handle : String)
  | resolveActiveIncidents (handle : String)
  | outside

def Op.Res : Op → Type
  | sync op => op.Res
  | service call => call.Res
  | getServer _ => Server
  | authorizedServerId _ => Option Int
  | serverIsAllowed _ | softwarePlaybook _ => Bool
  | reserveAttempt .. => Servers.ProvisioningAttemptReservationResult
  | resetAttempts .. => Servers.ProvisioningAttemptResetResult
  | _ => Unit

abbrev provisioningInterface : Interface := ⟨Op, Op.Res, Exn⟩

abbrev Job (A : Type) := Prog provisioningInterface A

inductive Party where
  | provisioner | scheduler | listener
  | outside (execution : Nat)
deriving DecidableEq

inductive Event where
  | started (handle : String)
  | installed (handle : String)

structure State where
  sync : ServerSync.State
  incidents : List Incident
  trace : List Event

namespace State

def rows (s : State) : List Server := s.sync.rows

def rewrite (s : State) (f : Server → Server) : State := { s with sync := { s.sync with rows := s.sync.rows.map f } }

def getServer (handle : String) (s : State) : Except Exn Server × State :=
  match s.rows.find? (·.handle = handle) with
  | some server => (.ok server, s)
  | none => (.error .exception, s)

def withStatus (status : ServerStatus) (row : Server) : Server := { row with status := status }

def onHandle (handle : String) (f : Server → Server) (row : Server) : Server := if row.handle = handle then f row else row

def updateStatus (handle : String) (status : ServerStatus) (s : State) : Except Exn Unit × State :=
  if s.rows.any (·.handle = handle) then
    (.ok (), { s.rewrite (onHandle handle (withStatus status)) with
      trace := if status = .provisioning then .started handle :: s.trace else s.trace })
  else (.error .exception, s)

def patchLabels (handle : String) (labels : Mapping) (s : State) : Except Exn Unit × State :=
  if s.rows.any (·.handle = handle) then (.ok (), s.rewrite (onHandle handle fun row => { row with labels := labels }))
  else (.error .exception, s)

def onRow {A : Type} (handle : String) (request : Option Server → Except Servers.Exn A × Option Server) (s : State) :
    Except Exn A × State :=
  match request (s.rows.find? (·.handle = handle)) with
  | (answer, some row) => (answer.mapError fun _ => .exception, s.rewrite (onHandle handle fun _ => { row with handle := handle }))
  | (answer, none) => (answer.mapError fun _ => .exception, s)

def createIncident (handle : String) (s : State) : Except Exn Unit × State :=
  if s.incidents.any fun incident => incident.serverHandle = some handle ∧ incident.incidentType = .provisioningFailed then (.ok (), s)
  else (.ok (), { s with incidents := ⟨some handle, .provisioningFailed, .detected⟩ :: s.incidents })

def resolveActiveIncidents (handle : String) (s : State) : Except Exn Unit × State :=
  (.ok (), { s with incidents := s.incidents.filter fun incident =>
    ¬ (incident.serverHandle = some handle ∧ incident.incidentType = .provisioningFailed) })

def softwarePlaybook (handle : String) (outcome : Except Exn Bool) (s : State) : Except Exn Bool × State :=
  match outcome with
  | .ok true => (.ok true, { s with trace := .installed handle :: s.trace })
  | outcome => (outcome, s)

def authorizedServerId (server : Server) (s : State) : Except Exn (Option Int) :=
  if server.isManaged then
    (ServerSync.managedServerIds s.sync.allowlist).map fun ids =>
      (ServerSync.parseServerId (ServerSync.providerId server)).filter fun id => ids.contains id
  else .ok none

end State

inductive OutsideChange where
  | forceRebuild (handle : String)
  | setAllowlist (raw : Option String)
  | setIncidents (incidents : List Incident)

def OutsideChange.apply (s : State) : OutsideChange → State
  | .forceRebuild handle => s.rewrite (State.onHandle handle fun row =>
      match s.authorizedServerId row with
      | .ok (some _) => State.withStatus .forceRebuild row
      | _ => row)
  | .setAllowlist raw => { s with sync := { s.sync with allowlist := raw } }
  | .setIncidents incidents => { s with incidents := incidents }

structure Reply where
  fate : Fate Exn
  sync : ServerSync.Reply
  service : (call : ServiceCall) → Except Exn call.Res
  installed : Except Exn Bool
  newEpisodeId : String
  change : OutsideChange

def run (_ : Party) (op : Op) (reply : Reply) (s : State) : Except Exn (Op.Res op) × State :=
  match op with
  | .sync .outside => (.ok (), s)
  | .sync op => ((ServerSync.run .scheduler op reply.sync s.sync).1, { s with sync := (ServerSync.run .scheduler op reply.sync s.sync).2 })
  | .service call => (reply.service call, s)
  | .getServer handle => reply.fate.serve (State.getServer handle) s
  | .authorizedServerId server => (s.authorizedServerId server, s)
  | .serverIsAllowed providerId => ((ServerSync.managedServerIds s.sync.allowlist).map fun ids => ids.contains providerId, s)
  | .updateStatus handle status => reply.fate.serve (State.updateStatus handle status) s
  | .patchLabels handle labels => reply.fate.serve (State.patchLabels handle labels) s
  | .reserveAttempt handle request =>
      reply.fate.serve (State.onRow handle (Servers.reserveProvisioningAttempt request reply.newEpisodeId)) s
  | .resetAttempts handle request => reply.fate.serve (State.onRow handle (Servers.resetProvisioningAttempts request)) s
  | .softwarePlaybook handle => State.softwarePlaybook handle reply.installed s
  | .createIncident handle => reply.fate.serve (State.createIncident handle) s
  | .resolveActiveIncidents handle => reply.fate.serve (State.resolveActiveIncidents handle) s
  | .outside => (.ok (), reply.change.apply s)

abbrev provisioningWorld : World provisioningInterface Party Unit := ⟨State, fun _ => Reply, run, fun _ _ s => s⟩

def perform (op : Op) : Job op.Res := Prog.perform (I := provisioningInterface) op

def ask (call : ServiceCall) : Job call.Res := perform (.service call)

def getServer (handle : String) : Job Server := perform (.getServer handle)

def updateServerStatus (handle : String) (status : ServerStatus) : Job Unit := perform (.updateStatus handle status)

def mergeLabels (current labels : Mapping) : Mapping := labels.foldl (fun merged label => setKey merged label.1 label.2) current

def updateServerLabels (handle : String) (labels : Mapping) : Job Unit := do
  let current ← getServer handle
  perform (.patchLabels handle (mergeLabels current.labels labels))

def softwareInstallationLabels : Mapping := [("provisioning_phase", .text "software_installation")]

def provisioningCompleteLabels : Mapping := [("provisioning_phase", .text "complete"), ("qa_ssh_user", .text "qa-observer")]

def markProvisioningComplete (handle : String) : Job Unit := updateServerLabels handle provisioningCompleteLabels

structure AuthorizedServer where
  server : Server
  providerId : Int
  ip : String

structure ProvisioningDenied where
  reason : String
  markServerError : Bool

def fail (handle : String) : Job ResultStatus := do
  updateServerStatus handle .error
  perform (.createIncident handle)
  .ret .failed

def handleDenial (handle : String) (denial : ProvisioningDenied) : Job ResultStatus :=
  (if denial.markServerError then updateServerStatus handle .error else .ret ()).bind fun _ => .ret .failed

def serverIp (server : Server) : String := if server.publicIp = "" then server.host else server.publicIp

def target (server : Server) : Option Int → Except ProvisioningDenied AuthorizedServer
  | none => .error ⟨"server_not_authorized", false⟩
  | some providerId =>
    if serverIp server = "" then .error ⟨"server_ip_missing", true⟩ else .ok ⟨server, providerId, serverIp server⟩

def authorizedServerId (server : Server) : Job (Option Int) := perform (.authorizedServerId server)

def getAndValidateServerInfo (handle : String) : Job (Except ProvisioningDenied AuthorizedServer) := do
  let server ← getServer handle
  let providerId ← authorizedServerId server
  .ret (target server providerId)

def identityMatches (providerId : Int) (ip : String) : Job Bool := ask (.identityMatches providerId ip)

def hasCredentials : Job Bool := ask .hasCredentials

def initTime4vpsClient (target : AuthorizedServer) : Job (Option ProvisioningDenied) :=
  hasCredentials.bind fun credentials =>
    if credentials then (identityMatches target.providerId target.ip).bind fun same =>
      .ret (if same then none else some ⟨"provider_identity_mismatch", true⟩)
    else .ret (some ⟨"time4vps_credentials_missing", true⟩)

def accessPlaybook (handle ip : String) (password : Option String) : Job Bool := ask (.accessPlaybook handle ip password)

def softwarePlaybook (handle : String) : Job Bool := perform (.softwarePlaybook handle)

def installSoftware (handle : String) : Job Bool := do
  updateServerLabels handle softwareInstallationLabels
  let installed ← softwarePlaybook handle
  if installed then (markProvisioningComplete handle).bind fun _ => .ret true else .ret false

def waitForTask (providerId : Int) : Job (Option String) := ask (.waitForTask providerId)

def orReset (providerId : Int) : Option String → Job (Option String)
  | some password => .ret (some password)
  | none => ask (.resetServerPassword providerId)

def reinstall (handle : String) (target : AuthorizedServer) : Job Bool := do
  ask (.reinstallServer target.providerId)
  let extracted ← waitForTask target.providerId
  let password ← orReset target.providerId extracted
  if password.isSome then (accessPlaybook handle target.ip password).bind fun accessed =>
    if accessed then installSoftware handle else .ret false
  else .ret false

def serverIsAllowed (providerId : Int) : Job Bool := perform (.serverIsAllowed providerId)

def reinstallAndProvision (handle : String) (target : AuthorizedServer) : Job Bool := do
  let permitted ← serverIsAllowed target.providerId
  if permitted then (identityMatches target.providerId target.ip).bind fun same =>
    if same then (reinstall handle target).handle fun _ => .ret false else .ret false
  else .ret false

def privateKey : Job (Option String) := ask .privateKey

def persistServerSshKey (handle : String) : Job Bool := do
  let key ← privateKey
  match key.filter (· ≠ "") with
  | none => .ret false
  | some key => ((ask (.saveServerSshKey handle key)).bind fun _ => .ret true).handle fun _ => .ret false

structure Attempt where
  number : Nat
  episodeId : String

def resetProvisioningAttempts (handle : String) (attempt : Attempt) : Job Bool :=
  if h : 0 < attempt.number ∧ attempt.episodeId ≠ "" then
    (perform (.resetAttempts handle ⟨attempt.number, attempt.episodeId, h.1, h.2⟩)).bind
      fun (result : Servers.ProvisioningAttemptResetResult) => .ret result.reset
  else .raise .exception

def recoverServices (handle ip : String) (isRecovery : Bool) : Job Unit :=
  if isRecovery then ask (.redeployAllServices handle ip) else .ret ()

def finishProvisioning (handle ip : String) (isRecovery : Bool) (reset : Bool) : Job ResultStatus :=
  if reset then ((perform (.resolveActiveIncidents handle)).handle fun _ => .ret ()).bind fun _ =>
    (recoverServices handle ip isRecovery).bind fun _ => .ret .success
  else .ret .superseded

def handleProvisioningSuccess (handle : String) (target : AuthorizedServer) (attempt : Attempt) (isRecovery : Bool) :
    Job ResultStatus :=
  (persistServerSshKey handle).bind fun kept =>
    if kept then (resetProvisioningAttempts handle attempt).bind (finishProvisioning handle target.ip isRecovery) else fail handle

def runReinstallPath (job : ProvisionerMessage) (target : AuthorizedServer) (attempt : Attempt) : Job ResultStatus := do
  let success ← reinstallAndProvision job.serverHandle target
  if success then handleProvisioningSuccess job.serverHandle target attempt job.isRecovery else fail job.serverHandle

def runExistingAccessPath (job : ProvisionerMessage) (target : AuthorizedServer) (attempt : Attempt) : Job ResultStatus := do
  let accessed ← accessPlaybook job.serverHandle target.ip none
  if accessed then (installSoftware job.serverHandle).bind fun installed =>
    if installed then handleProvisioningSuccess job.serverHandle target attempt job.isRecovery else fail job.serverHandle
  else fail job.serverHandle

def reserveProvisioningAttempt (handle : String) (request : Servers.ProvisioningAttemptReservation) : Job (Option Attempt) :=
  (perform (.reserveAttempt handle request)).bind fun (reservation : Servers.ProvisioningAttemptReservationResult) =>
    if reservation.reserved then match reservation.episodeId with
      | some episodeId => .ret (some ⟨reservation.provisioningAttempts, episodeId⟩)
      | none => .raise .exception
    else .ret none

def provisionServer (job : ProvisionerMessage) (target : AuthorizedServer) (attempt : Attempt) : Job ResultStatus := do
  updateServerStatus job.serverHandle .provisioning
  if target.server.status = .forceRebuild then runReinstallPath job target attempt else runExistingAccessPath job target attempt

def attemptProvisioning (job : ProvisionerMessage) (target : AuthorizedServer) : Except Exn (Option Attempt) → Job ResultStatus
  | .error _ => (updateServerStatus job.serverHandle .error).bind fun _ => .ret .failed
  | .ok none => fail job.serverHandle
  | .ok (some attempt) => (initTime4vpsClient target).bind fun
    | some denial => handleDenial job.serverHandle denial
    | none => provisionServer job target attempt

def runNode (request : Servers.ProvisioningAttemptReservation) (job : ProvisionerMessage) : Job ResultStatus :=
  (getAndValidateServerInfo job.serverHandle).bind fun
    | .error denial => handleDenial job.serverHandle denial
    | .ok target => do
      let reservation ← (reserveProvisioningAttempt job.serverHandle request).attempt
      attemptProvisioning job target reservation

def processProvisionerJob (request : Servers.ProvisioningAttemptReservation) (job : ProvisionerMessage) : Job Unit :=
  ((runNode request job).handle fun _ => .ret .failed).bind fun _ => .ret ()

def processProvisionerResult (result : ProvisionerResult) : Job Unit :=
  match result.status with
  | .failed => (updateServerStatus result.serverHandle .unreachable).handle fun _ => .ret ()
  | _ => .ret ()

def nextJob : Job ProvisionerMessage := ask .nextJob

def nextResult : Job ProvisionerResult := ask .nextResult

def scheduling (stuckTimeout cooldown : Int) : Job Bool :=
  Prog.relabel (I := ServerSync.syncInterface) (J := provisioningInterface) Op.sync (fun _ r => r) id
    (ServerSync.body stuckTimeout cooldown .scheduler)

def body (request : Servers.ProvisioningAttemptReservation) (stuckTimeout cooldown : Int) : Party → Job Unit
  | .provisioner => nextJob.bind (processProvisionerJob request)
  | .scheduler => (scheduling stuckTimeout cooldown).bind fun _ => .ret ()
  | .listener => nextResult.bind processProvisionerResult
  | .outside _ => perform .outside

end Orchestrator.Provisioning
