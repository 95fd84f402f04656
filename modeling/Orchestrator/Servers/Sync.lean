import Orchestrator.Async.Histories
import Orchestrator.Servers.Rows

/-!
The scheduler's server sync: the provider's list against the rows of the
servers, and the triggers of provisioning, at startup and in every cycle.
-/

namespace Orchestrator.ServerSync

open Async Python
open Placement (ServerStatus)
open Servers (Server)

inductive Exn where
  | valueError | keyError | exception

def scheduledStatuses : List ServerStatus := [.pendingSetup, .provisioning, .forceRebuild]

def scheduled (server : Server) : Bool := scheduledStatuses.contains server.status

def providerId (server : Server) : Option String :=
  match valueAt server.labels "provider_id" with
  | .text id => some id
  | _ => none

def parseServerId (value : Option String) : Option Int :=
  value.bind fun text =>
    if text ≠ "" ∧ text.toList.all Char.isDigit then
      some (digitsValue (text.toList.map fun c => c.toNat - '0'.toNat) : Int) |>.filter (0 < ·)
    else none

/-- `managed_time4vps_server_ids`; a part that is no server id raises. -/
def managedServerIds (raw : Option String) : Except Exn (List Int) :=
  match raw with
  | none => .ok []
  | some raw =>
    if strip raw.toList = [] then .ok []
    else match (raw.toList.splitOn ',').mapM fun part => parseServerId (some (String.ofList (strip part))) with
      | some ids => .ok ids
      | none => .error .valueError

/-- `server_is_provisioning_allowed`, with the ids of the allowlist. -/
def allowed (ids : List Int) (server : Server) : Bool := server.isManaged && (parseServerId (providerId server)).any ids.contains

structure ProviderServer where
  id : Int
  ip : String
  domain : String

structure ServerUpdate where
  host : Option String := none
  publicIp : Option String := none
  status : Option ServerStatus := none
  isManaged : Option Bool := none
  providerId : Option String := none
  provisioningStartedAt : Option (Option Int) := none
deriving DecidableEq

def ServerUpdate.apply (update : ServerUpdate) (server : Server) : Server := { server with
  host := update.host.getD server.host
  publicIp := update.publicIp.getD server.publicIp
  status := update.status.getD server.status
  isManaged := update.isManaged.getD server.isManaged
  labels := match update.providerId with
    | some id => setKey server.labels "provider_id" (.text id)
    | none => server.labels
  provisioningStartedAt := update.provisioningStartedAt.getD server.provisioningStartedAt }

/-- What is no request on a server's row; `next` is what the scheduler comes to do, its start or a cycle. -/
inductive ServiceCall where
  | next
  | getTime4vpsClient
  | getProviderServers
  | recordProviderOutage
  | resolveProviderOutage
  | detailsDue
  | getServerDetails (providerId : Int)
  | now
  | notifyAdmins (handle : String)
  | reconcileProvisioningIncidents

inductive Phase where
  | startup | cycle

def ServiceCall.Res : ServiceCall → Type
  | next => Phase
  | getTime4vpsClient | detailsDue | getServerDetails _ => Bool
  | getProviderServers => List ProviderServer
  | now => Int
  | _ => Unit

inductive Op where
  | service (call : ServiceCall)
  | getServers (status : Option ServerStatus)
  | getServer (handle : String)
  | updateServer (handle : String) (update : ServerUpdate)
  | createServer (server : Server)
  | allowlist
  | vet (server : Server)
  | publish (handle : String)
  | outside

def Op.Res : Op → Type
  | service call => call.Res
  | getServers _ => List Server
  | getServer _ => Server
  | allowlist => List Int
  | vet _ => Bool
  | _ => Unit

abbrev syncInterface : Interface := ⟨Op, Op.Res, Exn⟩

abbrev Job (A : Type) := Prog syncInterface A

inductive Party where
  | scheduler
  | outside (execution : Nat)
deriving DecidableEq

inductive Event where
  | fetched (server : Server)
  | vetted (server : Server) (ids : List Int)
  | published (handle : String)
  | promoted (handle : String)
  | reserved (handle : String)
  | discovered (handle : String)
  | administered (handle : String)
  | ended (completed : Bool)

structure State where
  rows : List Server
  allowlist : Option String
  trace : List Event

namespace State

def record (s : State) (event : Event) : State := { s with trace := event :: s.trace }

def getServer (handle : String) (s : State) : Except Exn Server × State :=
  match s.rows.find? (·.handle = handle) with
  | some server => (.ok server, s.record (.fetched server))
  | none => (.error .exception, s)

def marks (handle : String) (update : ServerUpdate) : List Event :=
  (if update.isManaged = some true then [.promoted handle] else []) ++
    if update.status = some .reserved then [.reserved handle] else []

def updateServer (handle : String) (update : ServerUpdate) (s : State) : Except Exn Unit × State :=
  if s.rows.any (·.handle = handle) then
    (.ok (), { s with
      rows := s.rows.map fun row => if row.handle = handle then update.apply row else row
      trace := marks handle update ++ s.trace })
  else (.error .exception, s)

def createServer (server : Server) (s : State) : Except Exn Unit × State :=
  if s.rows.any (·.handle = server.handle) then (.error .exception, s)
  else (.ok (), { s with rows := server :: s.rows }.record (.discovered server.handle))

/-- The allowlist is read from the environment each time it is asked for, which is not for a server
that is not managed. -/
def vet (server : Server) (s : State) : Except Exn Bool × State :=
  if server.isManaged then
    match managedServerIds s.allowlist with
    | .ok ids => (.ok (allowed ids server), s.record (.vetted server ids))
    | .error e => (.error e, s)
  else (.ok false, s.record (.vetted server []))

end State

/-- What the others do: an administrator writes a row as he likes, a service a row that is there, and
the allowlist is set anew. -/
inductive OutsideChange where
  | administrator (row : Server)
  | service (row : Server)
  | setAllowlist (raw : Option String)

def OutsideChange.apply (s : State) : OutsideChange → State
  | .administrator row =>
    let written := { s with rows := row :: s.rows.filter (·.handle ≠ row.handle) }
    if scheduled row then written.record (.administered row.handle) else written
  | .service row => { s with rows := s.rows.map fun existing => if existing.handle = row.handle then row else existing }
  | .setAllowlist raw => { s with allowlist := raw }

structure Reply where
  fate : Fate Exn
  service : (call : ServiceCall) → Except Exn call.Res
  change : OutsideChange

def run (_ : Party) (op : Op) (reply : Reply) (s : State) : Except Exn (Op.Res op) × State :=
  match op with
  | .service call => (reply.service call, s)
  | .getServers status => reply.fate.serve (fun s => (.ok (s.rows.filter fun row => status.all (row.status = ·)), s)) s
  | .getServer handle => reply.fate.serve (State.getServer handle) s
  | .updateServer handle update => reply.fate.serve (State.updateServer handle update) s
  | .createServer server => reply.fate.serve (State.createServer server) s
  | .allowlist => (managedServerIds s.allowlist, s)
  | .vet server => s.vet server
  | .publish handle => reply.fate.serve (fun s => (.ok (), s.record (.published handle))) s
  | .outside => (.ok (), reply.change.apply s)

def completed : Option (Except Exn Bool) → Bool
  | some (.ok completed) => completed
  | _ => false

def ended (t : Party) (outcome : Option (Except Exn Bool)) (s : State) : State :=
  match t with
  | .scheduler => s.record (.ended (completed outcome))
  | .outside _ => s

abbrev syncWorld : World syncInterface Party Bool := ⟨State, fun _ => Reply, run, ended⟩

def perform (op : Op) : Job op.Res := Prog.perform (I := syncInterface) op

def ask (call : ServiceCall) : Job call.Res := perform (.service call)

def getServers (status : Option ServerStatus) : Job (List Server) := perform (.getServers status)

def getServer (handle : String) : Job Server := perform (.getServer handle)

def updateServer (handle : String) (update : ServerUpdate) : Job Unit := perform (.updateServer handle update)

def managedIds : Job (List Int) := perform .allowlist

def isProvisioningAllowed (server : Server) : Job Bool := perform (.vet server)

def notifyAdmins (handle : String) : Job Unit := ask (.notifyAdmins handle)

def publish (handle : String) : Job Unit := perform (.publish handle)

def publishProvisionerTrigger (handle : String) : Job Bool := do
  let server ← getServer handle
  let ok ← isProvisioningAllowed server
  if ok then (publish handle).bind fun _ => .ret true else .ret false

def retryPendingServers : Job Unit := do
  let servers ← getServers (some .pendingSetup)
  Prog.forEach servers fun server => (publishProvisionerTrigger server.handle).bind fun _ => .ret ()

structure ManagementChange where
  handle : String
  providerId : Int
  wasManaged : Bool
  isManaged : Bool

def reserve : ServerUpdate := { status := some .reserved, provisioningStartedAt := some none }

def reconciledStatus (existing : Server) (shouldManage : Bool) : Option ServerStatus :=
  if existing.isManaged ≠ shouldManage ∧ shouldManage ∧ scheduled existing then some .reserved
  else if existing.status = .unreachable then some (if shouldManage then .active else .reserved)
  else none

def differing {A : Type} [DecidableEq A] (old new : A) : Option A := if old = new then none else some new

def reconciliation (existing : Server) (serverId : Int) (ip hostname : String) (shouldManage : Bool) : ServerUpdate where
  providerId := if parseServerId (providerId existing) = some serverId then none else some (toString serverId)
  publicIp := differing existing.publicIp ip
  host := differing existing.host hostname
  status := reconciledStatus existing shouldManage
  isManaged := differing existing.isManaged shouldManage

def managementChange (existing : Server) (serverId : Int) (shouldManage : Bool) : Option ManagementChange :=
  if existing.isManaged = shouldManage then none else some ⟨existing.handle, serverId, existing.isManaged, shouldManage⟩

def reconcileExistingServer (existing : Server) (serverId : Int) (ip hostname : String) (shouldManage : Bool) :
    Job (Option ManagementChange) :=
  let update := reconciliation existing serverId ip hostname shouldManage
  if update = {} then .ret (managementChange existing serverId shouldManage)
  else (updateServer existing.handle update).bind fun _ => .ret (managementChange existing serverId shouldManage)

def discovered (srv : ProviderServer) (hostname : String) (isManaged : Bool) : Server where
  handle := s!"vps-{srv.id}"
  host := hostname
  publicIp := srv.ip
  status := if isManaged then .pendingSetup else .reserved
  isManaged := isManaged
  labels := [("provider_id", .text (toString srv.id))]
  provisioningStartedAt := none
  provisioningAttempts := 0
  provisioningEpisodeId := none

/-- The row of a provider's server: by its id, or by the address of a row that has no id. Of several
rows the last one counts. -/
def existingRow (rows : List Server) (srv : ProviderServer) : Option Server :=
  (rows.reverse.find? fun row => parseServerId (providerId row) = some srv.id).or
    (rows.reverse.find? fun row => parseServerId (providerId row) = none ∧ row.publicIp = srv.ip)

def syncServer (ids : List Int) (rows : List Server) (srv : ProviderServer) : Job (Option ManagementChange) :=
  let hostname := if srv.domain = "" then srv.ip else srv.domain
  let shouldManage := ids.contains srv.id
  if srv.ip = "" ∨ srv.id = 0 then .ret none
  else match existingRow rows srv with
    | some existing => reconcileExistingServer existing srv.id srv.ip hostname shouldManage
    | none => (perform (.createServer (discovered srv hostname shouldManage))).bind fun _ => .ret none

def syncEach (ids : List Int) (rows : List Server) : List ProviderServer → Job (List ManagementChange)
  | [] => .ret []
  | srv :: rest => do
    let change ← syncServer ids rows srv
    let changes ← syncEach ids rows rest
    .ret (change.toList ++ changes)

def isMissing (servers : List ProviderServer) (row : Server) : Bool :=
  match parseServerId (providerId row) with
  | some id => !(servers.any (·.id = id))
  | none => !(servers.any fun srv => srv.ip ≠ "" ∧ srv.ip = row.publicIp)

def markMissing (servers : List ProviderServer) (row : Server) : Job Unit :=
  if isMissing servers row ∧ row.status ≠ .unreachable then updateServer row.handle { status := some .unreachable } else .ret ()

def neutralizeUnauthorizedTrigger (server : Server) : Job Unit := do
  updateServer server.handle reserve
  notifyAdmins server.handle

def reportManagementChange (rows : List Server) (change : ManagementChange) : Job Unit :=
  match rows.reverse.find? (·.handle = change.handle) with
  | none => .raise .keyError
  | some previous =>
    (if change.wasManaged ∧ !change.isManaged ∧ scheduled previous then neutralizeUnauthorizedTrigger previous else .ret ()).bind fun _ =>
      notifyAdmins change.handle

def reportManagementChanges (changes : List ManagementChange) (rows : List Server) : Job Unit := do
  Prog.forEach changes (reportManagementChange rows)
  if 1 < (changes.filter fun change => change.wasManaged && !change.isManaged).length then notifyAdmins "" else .ret ()

def getProviderServers : Job (List ProviderServer) :=
  (ask .getProviderServers).handle fun e => (ask .recordProviderOutage).bind fun _ => .raise e

def syncServerList : Job Unit := do
  let servers ← getProviderServers
  ask .resolveProviderOutage
  let ids ← managedIds
  let rows ← getServers none
  let changes ← syncEach ids rows servers
  Prog.forEach rows (markMissing servers)
  reportManagementChanges changes rows
  notifyAdmins ""

def syncDetails (row : Server) : Job Unit :=
  match parseServerId (providerId row) with
  | none => .ret ()
  | some id => ((ask (.getServerDetails id)).bind fun (active : Bool) =>
      updateServer row.handle { status := if active ∧ row.status = .new then some .active else none }).handle fun _ => .ret ()

def syncServerDetails : Job Unit := do
  let rows ← getServers none
  Prog.forEach (rows.filter (·.status ≠ .unreachable)) syncDetails

def transitionAndPublish (server : Server) (transition : ServerUpdate) : Job Bool := do
  updateServer server.handle transition
  let published ← publishProvisionerTrigger server.handle
  if published then .ret true
  else (updateServer server.handle reserve).bind fun _ => (notifyAdmins server.handle).bind fun _ => .ret false

def actionable : List Server → Job (List Server)
  | [] => .ret []
  | server :: rest =>
    if scheduled server then do
      let ok ← isProvisioningAllowed server
      if ok then (actionable rest).bind fun servers => .ret (server :: servers)
      else (neutralizeUnauthorizedTrigger server).bind fun _ => actionable rest
    else actionable rest

structure TriggerRule where
  wait : Int
  transition : ServerUpdate

def triggerRule (stuckTimeout cooldown now : Int) : ServerStatus → TriggerRule
  | .pendingSetup => ⟨cooldown, { status := some .provisioning, provisioningStartedAt := some (some now) }⟩
  | _ => ⟨stuckTimeout, { provisioningStartedAt := some (some now) }⟩

def trigger (server : Server) (rule : TriggerRule) : Job Unit := do
  let published ← transitionAndPublish server rule.transition
  if published && server.status = .forceRebuild then notifyAdmins server.handle else .ret ()

def considerTrigger (stuckTimeout cooldown now : Int) (server : Server) : Job Unit :=
  let rule := triggerRule stuckTimeout cooldown now server.status
  match server.provisioningStartedAt with
  | none =>
    if server.status = .provisioning then updateServer server.handle { provisioningStartedAt := some (some now) }
    else trigger server rule
  | some started => if now - started < rule.wait then .ret () else trigger server rule

def readClock : Job Int := ask .now

def checkProvisioningTriggers (stuckTimeout cooldown : Int) : Job Unit := do
  let now ← readClock
  let rows ← getServers none
  let servers ← actionable rows
  Prog.forEach servers (considerTrigger stuckTimeout cooldown now)

def hasClient : Job Bool := ask .getTime4vpsClient

def detailsAreDue : Job Bool := ask .detailsDue

def maybeSyncDetails : Job Unit := detailsAreDue.bind fun due => if due then syncServerDetails else .ret ()

/-- One iteration of `sync_servers_worker`: whether the sync was completed. -/
def syncServers (stuckTimeout cooldown : Int) : Job Bool :=
  Prog.handle (do
    let client ← hasClient
    if client then
      (do
        syncServerList
        maybeSyncDetails
        checkProvisioningTriggers stuckTimeout cooldown
        ask .reconcileProvisioningIncidents
        .ret true)
    else .ret false) fun _ => .ret false

def nextPhase : Job Phase := ask .next

def schedule (stuckTimeout cooldown : Int) : Phase → Job Bool
  | .startup => retryPendingServers.bind fun _ => .ret false
  | .cycle => syncServers stuckTimeout cooldown

def body (stuckTimeout cooldown : Int) : Party → Job Bool
  | .scheduler => nextPhase.bind (schedule stuckTimeout cooldown)
  | .outside _ => (perform .outside).bind fun _ => .ret false

end Orchestrator.ServerSync
