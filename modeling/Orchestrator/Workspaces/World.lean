import Mathlib.Data.List.AList
import Orchestrator.Turns.World

/-!
The workspaces of the workers: the metadata of each worker, the locks of the projects,
the set of active projects, the directories, and the containers that have them mounted.
-/

namespace Orchestrator.Workspaces

open Async
open Turns (Exn WorkerType)

structure WorkerOwnership where
  projectId : String
  runId : String
  attemptId : String
  projectId_nonempty : projectId ≠ ""
  runId_nonempty : runId ≠ ""
  attemptId_nonempty : attemptId ≠ ""
deriving DecidableEq

/-- The fields of `worker:meta:`; the three of the ownership are written and deleted
together. -/
structure WorkerMeta where
  workerType : Option WorkerType
  ownership : Option WorkerOwnership
  devNetwork : Option String
  workspacePath : Option String
  repoId : Option String
deriving DecidableEq

namespace WorkerMeta

def blank : WorkerMeta := ⟨none, none, none, none, none⟩

def projectId (fields : WorkerMeta) : Option String := fields.ownership.map (·.projectId)

def isQaWorker (fields : WorkerMeta) : Bool := fields.workerType = some .qa

def heldProjectId (fields : WorkerMeta) : Option String := if fields.isQaWorker then none else fields.projectId

end WorkerMeta

structure WorkerNetwork where
  name : String
  allowHost : Bool

structure Mount where
  workerId : String
  entry : String
  developer : Bool

inductive WorkerStatus where
  | building | starting | running | failed

inductive ServiceCall where
  | resolveWorkerNetwork (forQa : Bool)
  | validateCodexHostSession
  | failureCount (projectId : String)
  | incrFailureCount (projectId : String)
  | resetFailureCount (projectId : String)
  | ensureOrBuildImage
  | ensureImage
  | registerBrokerWorker (workerId : String) (workerType : WorkerType)
  | unregisterBrokerWorker (workerId : String)
  | containerEnvironment (workerId : String)
  | establishEgress (workerId : String)
  | tearDownEgress (workerId : String)
  | prepareRemoteDaemonMounts (workerId entry : String)
  | createNetwork (name : String)
  | connectNetwork (name : String)
  | removeNetwork (name : String)
  | verifyIsolation (workerId : String) (network : String)
  | refreshGitToken (repoName : String)
  | checkoutBranch (branch : String)
  | inject (path content : String)
  | injectQaProbe
  | hsetStatus (workerId : String) (status : WorkerStatus)
  | setError (workerId : String)
  | deleteKeys (workerId : String)
  | composeDown (workerId workspace : String)
  | readRemovalEvidence (workerId : String)
  | storeRemovalEvidence (workerId : String) (ownership : WorkerOwnership)
  | notifyWorkspaceDeleted (repoId : String)

def ServiceCall.Res : ServiceCall → Type
  | resolveWorkerNetwork _ => WorkerNetwork
  | failureCount _ => Nat
  | _ => Unit

/-- `scan` goes through the metadata of all workers; `examined` is the project that the
collector looks for in it. `deleteMeta` is the deletion that takes the metadata along. -/
inductive Op where
  | service (call : ServiceCall)
  | hsetWorkerType (workerId : String) (workerType : WorkerType)
  | hsetOwnership (workerId : String) (ownership : WorkerOwnership)
  | hdelOwnership (workerId : String)
  | hsetWorkspace (workerId devNetwork workspacePath : String)
  | hsetRepoId (workerId repoId : String)
  | deleteMeta (workerId : String)
  | hgetall (workerId : String)
  | scan (examined : Option String)
  | getLock (projectId : String)
  | setLockNx (projectId workerId : String)
  | deleteLock (projectId : String)
  | smembers
  | sismember (projectId : String)
  | sadd (projectId : String)
  | srem (projectId : String)
  | getScaffoldedWorkspace (repoId : String)
  | createEphemeralWorkspace (workerId : String)
  | prepareWorkerPaths (entry : String)
  | removeWorkspace (entry : String)
  | runContainer (mount : Mount)
  | removeContainer (workerId : String)
  | listdir
  | time
  | sweepDirectory (now maxAgeHours : Int) (entry : String)
  | outside

def Op.Res : Op → Type
  | service call => call.Res
  | hgetall _ => WorkerMeta
  | scan _ => List String
  | getLock _ => Option String
  | setLockNx .. => Bool
  | smembers => List String
  | sismember _ => Bool
  | getScaffoldedWorkspace _ => Bool
  | listdir => List String
  | time => Int
  | sweepDirectory .. => Bool
  | _ => Unit

abbrev workspacesInterface : Interface := ⟨Op, Op.Res, Exn⟩

abbrev Job (A : Type) := Prog workspacesInterface A

abbrev perform (op : Op) : Job (Op.Res op) := Prog.perform (I := workspacesInterface) op

inductive Party where
  | collector
  | create (command : Nat)
  | delete (command : Nat)
  | outside (execution : Nat)
deriving DecidableEq

/-- A directory that was removed, and whether a developer worker had it mounted; a project
that the collector dropped, and whether a worker held its lock. -/
inductive Event where
  | removed (entry : String) (mounted : Bool)
  | dropped (projectId : String) (held : Bool)
deriving DecidableEq

def Event.harmless : Event → Bool
  | .removed _ mounted => !mounted
  | .dropped _ held => !held

/-- The last three are read by no program: `busy` is the command that works on a worker,
`examining` the active project whose holder the collector looks for. -/
structure State where
  metas : AList fun _ : String => WorkerMeta
  locks : AList fun _ : String => String
  activeProjects : List String
  directories : AList fun _ : String => Int
  mounts : List Mount
  clock : Int
  busy : String → Option Party
  examining : Option String
  trace : List Event

namespace State

def record (s : State) (event : Event) : State := { s with trace := event :: s.trace }

def fields (s : State) (workerId : String) : WorkerMeta := (s.metas.lookup workerId).getD .blank

def edit (s : State) (workerId : String) (f : WorkerMeta → WorkerMeta) : State :=
  { s with metas := s.metas.insert workerId (f (s.fields workerId)) }

def claim (s : State) (t : Party) (workerId : String) : State :=
  { s with busy := Function.update s.busy workerId (some t) }

def mounted (s : State) (entry : String) : Bool := s.mounts.any fun mount => mount.entry = entry && mount.developer

def holdsLock (s : State) (workerId : String) : Bool := s.locks.entries.any fun lock => lock.2 = workerId

def hdelOwnership (workerId : String) (s : State) : State :=
  if { s.fields workerId with ownership := none } = WorkerMeta.blank then { s with metas := s.metas.erase workerId }
  else s.edit workerId fun fields => { fields with ownership := none }

def hgetall (t : Party) (workerId : String) (s : State) : Except Exn WorkerMeta × State :=
  (.ok (s.fields workerId), match t with
    | .delete _ => s.claim t workerId
    | .collector => if (s.fields workerId).projectId = s.examining then { s with examining := none } else s
    | _ => s)

def setLockNx (projectId workerId : String) (s : State) : Except Exn Bool × State :=
  match s.locks.lookup projectId with
  | some _ => (.ok false, s)
  | none => (.ok true, { s with locks := s.locks.insert projectId workerId })

def srem (t : Party) (projectId : String) (s : State) : State :=
  let s' := { s with activeProjects := s.activeProjects.filter (· ≠ projectId) }
  if t = .collector then State.record { s' with examining := none } (.dropped projectId (s.locks.lookup projectId).isSome)
  else s'

def prepareWorkerPaths (entry : String) (s : State) : Except Exn Unit × State :=
  (if (s.directories.lookup entry).isSome then .ok () else .error (.exception "RuntimeError"), s)

def runContainer (mount : Mount) (s : State) : State :=
  let s' := { s with mounts := mount :: s.mounts }
  if (s.directories.lookup mount.entry).isSome then s'
  else { s' with directories := s.directories.insert mount.entry s.clock }

def removeContainer (workerId : String) (s : State) : State :=
  { s with mounts := s.mounts.filter (·.workerId ≠ workerId) }

def removeWorkspace (entry : String) (s : State) : State := { s with directories := s.directories.erase entry }

def stale (s : State) (now maxAgeHours : Int) (entry : String) : Bool :=
  (s.directories.lookup entry).any fun mtime => maxAgeHours * 3600 < now - mtime

/-- Looking at a directory and removing it, with nothing in between. One that cannot be
looked at is passed over, one whose path leads elsewhere is refused. -/
def sweepDirectory (statable resolved : Bool) (now maxAgeHours : Int) (entry : String) (s : State) : Except Exn Bool × State :=
  if statable && s.stale now maxAgeHours entry then
    if resolved then (.ok true, (s.removeWorkspace entry).record (.removed entry (s.mounted entry)))
    else (.error (.exception "ValueError"), s)
  else (.ok false, s)

end State

inductive OutsideChange where
  | touch (entry : String) (mtime : Int)
  | drop (entry : String)
  | exit (workerId : String)
  | tick (clock : Int)

def OutsideChange.apply (change : OutsideChange) (s : State) : State :=
  match change with
  | .touch entry mtime => { s with directories := s.directories.insert entry mtime }
  | .drop entry => s.removeWorkspace entry
  | .exit workerId => s.removeContainer workerId
  | .tick clock => { s with clock := clock }

/-- `scanned` are names that a scan gives out of turn, or for workers that are no more. -/
structure Reply where
  fate : Fate Exn
  service : (call : ServiceCall) → Except Exn call.Res
  scanned : List String
  statable : Bool
  resolved : Bool
  change : OutsideChange

def run (t : Party) (op : Op) (reply : Reply) (s : State) : Except Exn (Op.Res op) × State :=
  match op with
  | .service call => (reply.service call, s)
  | .hsetWorkerType workerId workerType => reply.fate.serve (fun s =>
      (.ok (), (s.claim t workerId).edit workerId fun fields => { fields with workerType := some workerType })) s
  | .hsetOwnership workerId ownership => reply.fate.serve (fun s =>
      (.ok (), s.edit workerId fun fields => { fields with ownership := some ownership })) s
  | .hdelOwnership workerId => reply.fate.serve (fun s => (.ok (), s.hdelOwnership workerId)) s
  | .hsetWorkspace workerId devNetwork workspacePath => reply.fate.serve (fun s =>
      (.ok (), s.edit workerId fun fields =>
        { fields with devNetwork := some devNetwork, workspacePath := some workspacePath })) s
  | .hsetRepoId workerId repoId => reply.fate.serve (fun s =>
      (.ok (), s.edit workerId fun fields => { fields with repoId := some repoId })) s
  | .deleteMeta workerId => reply.fate.serve (fun s => (.ok (), { s with metas := s.metas.erase workerId })) s
  | .hgetall workerId => reply.fate.serve (State.hgetall t workerId) s
  | .scan examined => reply.fate.serve (fun s =>
      (.ok (reply.scanned ++ s.metas.keys), if t = .collector then { s with examining := examined } else s)) s
  | .getLock projectId => reply.fate.serve (fun s => (.ok (s.locks.lookup projectId), s)) s
  | .setLockNx projectId workerId => reply.fate.serve (State.setLockNx projectId workerId) s
  | .deleteLock projectId => reply.fate.serve (fun s => (.ok (), { s with locks := s.locks.erase projectId })) s
  | .smembers => reply.fate.serve (fun s => (.ok s.activeProjects, s)) s
  | .sismember projectId => reply.fate.serve (fun s => (.ok (s.activeProjects.contains projectId), s)) s
  | .sadd projectId => reply.fate.serve (fun s =>
      (.ok (), { s with activeProjects := s.activeProjects.insert projectId })) s
  | .srem projectId => reply.fate.serve (fun s => (.ok (), s.srem t projectId)) s
  | .getScaffoldedWorkspace repoId => reply.fate.serve (fun s => (.ok (s.directories.lookup repoId).isSome, s)) s
  | .createEphemeralWorkspace workerId => reply.fate.serve (fun s =>
      (.ok (), { s with directories := s.directories.insert ("qa-" ++ workerId) s.clock })) s
  | .prepareWorkerPaths entry => reply.fate.serve (State.prepareWorkerPaths entry) s
  | .removeWorkspace entry => reply.fate.serve (fun s => (.ok (), s.removeWorkspace entry)) s
  | .runContainer mount => reply.fate.serve (fun s => (.ok (), s.runContainer mount)) s
  | .removeContainer workerId => reply.fate.serve (fun s => (.ok (), s.removeContainer workerId)) s
  | .listdir => reply.fate.serve (fun s => (.ok s.directories.keys, s)) s
  | .time => (.ok s.clock, s)
  | .sweepDirectory now maxAgeHours entry => reply.fate.serve (State.sweepDirectory reply.statable reply.resolved now maxAgeHours entry) s
  | .outside => (.ok (), reply.change.apply s)

def ended (t : Party) (_ : Option (Except Exn Unit)) (s : State) : State :=
  let s' := { s with busy := fun workerId => if s.busy workerId = some t then none else s.busy workerId }
  if t = .collector then { s' with examining := none } else s'

abbrev workspacesWorld : World workspacesInterface Party Unit := ⟨State, fun _ => Reply, run, ended⟩

end Orchestrator.Workspaces
