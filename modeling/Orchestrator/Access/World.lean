import Orchestrator.Access.Requests
import Orchestrator.Async.Interference
import Orchestrator.Contracts.Deploy

/-!
The sweep that settles grants and the handoffs that ask for them, over the
grants of the API. What the API makes of a request is modelled; what the runs,
the queues, Redis and the servers answer is left open. The trace keeps, newest
first, what became of the grants.
-/

namespace Orchestrator.Access

open Async Contracts
open Api (TemporaryAccessStatus TemporaryAccessEscalation)

inductive Exn where
  | http (error : HTTPException)
  | transport (message : String)
  | valueError (message : String)
  | cancelledError
deriving DecidableEq

def Exn.isException (e : Exn) : Bool := e != .cancelledError

structure RunDTO where
  id : String
  status : RunStatus
  createdAt : Time
  result : Option DeployOutcome
  supersededAt : Bool
deriving DecidableEq

inductive QABlockerCategory where
  | qaAccessGrantFailed | qaAccessExpired | qaCleanupFailed

structure QABlocker where
  category : QABlockerCategory
  attempted : String
  sent : String
  received : String

structure QARunResult where
  summary : String
  blocker : QABlocker

structure DeployRequest where
  runId : String
  projectId : String
  headSha : String
  grantId : String
  envKey : String
  value : String
  triggeredBy : String
  revokeReason : Option TemporaryAccessRevokeReason
  fenceActiveDeploys : Bool
deriving DecidableEq

inductive EnvObservationOutcome where
  | observed (present : Bool)
  | unreachable (detail : String)

structure EnvObservationResult where
  outcome : EnvObservationOutcome
  containers : Nat

structure Application where
  id : Int
  repoId : String
  serverHandle : String
  running : Bool

inductive ServiceCall where
  | clock
  | getRun (runId : String)
  | createRun (request : DeployRequest)
  | publishDeploy (request : DeployRequest)
  | publishQA (message : QAMessage)
  | publishObservation (requestId projectId serverHandle serviceSlug envKey : String)
  | withdrawDispatch (runId reason : String)
  | supersedeDispatch (runId reason : String)
  | recordRunOutcome (runId errorMessage : String) (result : QARunResult)
  | getResult (requestId : String)
  | deleteResult (requestId : String)
  | setPending (requestId : String)
  | setSlotAudit (projectId envKey requestId : String)
  | getApplication (applicationId : Int)
  | getRepositories (projectId : String)
  | getProject (projectId : String)
  | notifyAdmins (message : String)

def ServiceCall.Res : ServiceCall → Type
  | .clock => Time
  | .getRun _ => Option RunDTO
  | .createRun _ => Unit
  | .publishDeploy _ => Unit
  | .publishQA _ => Unit
  | .publishObservation .. => Unit
  | .withdrawDispatch .. => Option Time
  | .supersedeDispatch .. => Bool
  | .recordRunOutcome .. => Bool
  | .getResult _ => Option EnvObservationResult
  | .deleteResult _ => Unit
  | .setPending _ => Bool
  | .setSlotAudit .. => Bool
  | .getApplication _ => Option Application
  | .getRepositories _ => List String
  | .getProject _ => Option String
  | .notifyAdmins _ => Unit

inductive Op where
  | service (call : ServiceCall)
  | newSuffix
  | listUnderWatch (revokedAfter slotAuditBefore : Time)
  | createGrant (grantIn : TemporaryAccessGrantCreate)
  | updateGrant (grantId : String) (update : TemporaryAccessGrantUpdate)
  | escalateGrant (grantId : String) (escalation : TemporaryAccessEscalation QARunResult)
  | recordObservation (grantId : String) (observation : TemporaryAccessObservation)
  | logRevokeFailed (grantId : String) (spent calls : Bool)

def Op.Res : Op → Type
  | .service call => call.Res
  | .newSuffix => String
  | .listUnderWatch .. => Grants
  | .createGrant _ => TemporaryAccessGrant
  | .updateGrant .. => TemporaryAccessGrant
  | .escalateGrant .. => TemporaryAccessGrant
  | .recordObservation .. => TemporaryAccessGrant
  | .logRevokeFailed .. => Unit

abbrev accessInterface : Interface := ⟨Op, Op.Res, Exn⟩

abbrev Sweep (A : Type) := Prog accessInterface A

abbrev perform (op : Op) : Sweep (Op.Res op) := Prog.perform (I := accessInterface) op

structure Reply where
  fate : Fate Exn
  now : Time
  referenced : Bool

def Op.Answer : Op → Type
  | .service call => Except Exn call.Res
  | .newSuffix => String
  | .logRevokeFailed .. => Unit
  | _ => Reply

inductive Event where
  | minted (suffix : String)
  | created (grantId : String)
  | moved (grantId : String)
  | escalated (grantId : String)
  | read (observation : TemporaryAccessObservation) (before after : TemporaryAccessGrant) (owned : Bool)
  | failed (grantId : String) (spent calls : Bool)
deriving DecidableEq

inductive Party where
  | sweep
  | handoff (n : Nat)
deriving DecidableEq

structure State where
  db : Database QARunResult
  trace : List Event

/-- `LIVE_TEMPORARY_ACCESS_STATUSES`, the closed grants still watched, and the
newest grant of each slot whose last reading is old. -/
def underWatch (grants : Grants) (revokedAfter slotAuditBefore : Time) (grant : TemporaryAccessGrant) : Bool :=
  grant.live || grant.revokedAt.any (fun moment => decide (revokedAfter ≤ moment)) ||
    grant.observedAt.all (fun moment => decide (moment < slotAuditBefore)) &&
      !grants.any fun newer => newer.slot = grant.slot && decide (grant.grantedAt < newer.grantedAt)

def listUnderWatch (grants : Grants) (revokedAfter slotAuditBefore : Time) : Grants :=
  (grants.filter (underWatch grants revokedAfter slotAuditBefore)).mergeSort
    fun grant other => decide (other.grantedAt ≤ grant.grantedAt)

def Grants.owned (grants : Grants) (grant : TemporaryAccessGrant) : Bool :=
  grants.any fun other => other.id != grant.id && other.live && other.slot = grant.slot

namespace State

def record (s : State) (event : Event) : State := { s with trace := event :: s.trace }

def serve (s : State) (answer : Except HTTPException (TemporaryAccessGrant × Database QARunResult))
    (event : TemporaryAccessGrant → Option Event) : Except Exn TemporaryAccessGrant × State :=
  match answer with
  | .error e => (.error (.http e), s)
  | .ok (grant, db) => (.ok grant, ⟨db, (event grant).toList ++ s.trace⟩)

def createGrant (s : State) (grantIn : TemporaryAccessGrantCreate) (reply : Reply) :
    Except Exn TemporaryAccessGrant × State :=
  s.serve (s.db.createGrant grantIn reply.referenced reply.now) fun _ =>
    if (s.db.grants.find grantIn.id).isNone then some (.created grantIn.id) else none

def updateGrant (s : State) (grantId : String) (update : TemporaryAccessGrantUpdate) (reply : Reply) :
    Except Exn TemporaryAccessGrant × State :=
  s.serve (s.db.updateGrant grantId update reply.now) fun _ => update.status.map fun _ => .moved grantId

def escalateGrant (s : State) (grantId : String) (escalation : TemporaryAccessEscalation QARunResult) (reply : Reply) :
    Except Exn TemporaryAccessGrant × State :=
  s.serve (s.db.escalateGrant grantId escalation reply.now) fun _ => some (.escalated grantId)

def recordObservation (s : State) (grantId : String) (observation : TemporaryAccessObservation) (reply : Reply) :
    Except Exn TemporaryAccessGrant × State :=
  s.serve (s.db.recordObservation grantId observation reply.now) fun after =>
    (s.db.grants.find grantId).map fun before => .read observation before after (s.db.grants.owned before)

end State

def run (_ : Party) : (op : Op) → op.Answer → State → Except Exn op.Res × State
  | .service _, answer, s => (answer, s)
  | .newSuffix, suffix, s => (.ok suffix, s.record (.minted suffix))
  | .listUnderWatch revokedAfter slotAuditBefore, reply, s => reply.fate.serve (fun s =>
      (.ok (listUnderWatch s.db.grants revokedAfter slotAuditBefore), s)) s
  | .createGrant grantIn, reply, s => reply.fate.serve (fun s => s.createGrant grantIn reply) s
  | .updateGrant grantId update, reply, s => reply.fate.serve (fun s => s.updateGrant grantId update reply) s
  | .escalateGrant grantId escalation, reply, s => reply.fate.serve (fun s => s.escalateGrant grantId escalation reply) s
  | .recordObservation grantId observation, reply, s =>
      reply.fate.serve (fun s => s.recordObservation grantId observation reply) s
  | .logRevokeFailed grantId spent calls, _, s => (.ok (), s.record (.failed grantId spent calls))

abbrev accessWorld : World accessInterface Party Unit where
  State := State
  Answer := Op.Answer
  run := run
  ended _ _ s := s

end Orchestrator.Access
