import Orchestrator.Access.Settling
import Orchestrator.Async.Histories

/-!
The sweep and the handoffs once more, with what they have been told of runs and
what they have published written down beside the grants.
-/

namespace Orchestrator.Access

open Async Contracts
open Api (TemporaryAccessStatus TemporaryAccessEscalation)

/-- `published` keeps the stored grant of the run that the message names; `stamped`: the record of
the grant says that its QA message is out. -/
inductive Act where
  | read (runId : String) (run : Option RunDTO)
  | published (message : QAMessage) (grant : Option TemporaryAccessGrant)
  | dispatched (request : DeployRequest)
  | stamped (grantId : String)
deriving DecidableEq

structure Ledger where
  base : State
  acts : List Act

structure Heard (call : ServiceCall) where
  told : Except Exn call.Res
  carriedOut : Bool

def Heard.happened {call : ServiceCall} (heard : Heard call) : Bool := heard.carriedOut || heard.told.isOk

def temporaryAccessGrantId (runId : String) : String := String.ofList (("tempaccess-" ++ runId).toList.take 255)

def ServiceCall.acts (grants : Grants) : (call : ServiceCall) → Heard call → List Act
  | .getRun runId, heard => match heard.told with
    | .ok run => [.read runId run]
    | .error _ => []
  | .publishQA message, heard =>
    if heard.happened then [.published message (grants.find (temporaryAccessGrantId message.runId))] else []
  | .publishDeploy request, heard => if heard.happened then [.dispatched request] else []
  | _, _ => []

def Op.Noted : Op → Type
  | .service call => Heard call
  | .newSuffix => String
  | .logRevokeFailed .. => Unit
  | _ => Reply

namespace Ledger

def note (s : Ledger) (acts : List Act) : Ledger := { s with acts := acts ++ s.acts }

def lift {A : Type} (s : Ledger) (acts : List Act) (answer : Except Exn A × State) : Except Exn A × Ledger :=
  (answer.1, ⟨answer.2, acts ++ s.acts⟩)

def stamps (s : Ledger) (grantId : String) (update : TemporaryAccessGrantUpdate) (reply : Reply) : List Act :=
  if update.qaDispatched && reply.fate.carriedOut && (s.base.db.updateGrant grantId update reply.now).isOk then [.stamped grantId]
  else []

def run (t : Party) : (op : Op) → op.Noted → Ledger → Except Exn op.Res × Ledger
  | .service call, heard, s => (heard.told, s.note (call.acts s.base.db.grants heard))
  | .newSuffix, suffix, s => s.lift [] (Access.run t .newSuffix suffix s.base)
  | .listUnderWatch revokedAfter slotAuditBefore, reply, s =>
    s.lift [] (Access.run t (.listUnderWatch revokedAfter slotAuditBefore) reply s.base)
  | .createGrant grantIn, reply, s => s.lift [] (Access.run t (.createGrant grantIn) reply s.base)
  | .updateGrant grantId update, reply, s =>
    s.lift (s.stamps grantId update reply) (Access.run t (.updateGrant grantId update) reply s.base)
  | .escalateGrant grantId escalation, reply, s => s.lift [] (Access.run t (.escalateGrant grantId escalation) reply s.base)
  | .recordObservation grantId observation, reply, s =>
    s.lift [] (Access.run t (.recordObservation grantId observation) reply s.base)
  | .logRevokeFailed grantId spent calls, answer, s =>
    s.lift [] (Access.run t (.logRevokeFailed grantId spent calls) answer s.base)

end Ledger

abbrev ledgerWorld : World accessInterface Party Unit where
  State := Ledger
  Answer := Op.Noted
  run := Ledger.run
  ended _ _ s := s

def Deployed (runId : String) (acts : List Act) : Prop := ∃ run, .read runId (some run) ∈ acts ∧ deploySucceeded run = true

def Unrevoked (grantId : String) (acts : List Act) : Prop :=
  ∀ request, .dispatched request ∈ acts → request.grantId = grantId → request.revokeReason = none

/-- A QA message is published for a grant whose record says that it is granted, by the deploy run
it names; for a grant that no revocation was dispatched for; and again only where the record was not
stamped, and always for the same run. -/
def ReleaseDue : Act → List Act → Prop
  | .published message grant, older => ∃ row, grant = some row ∧ row.qaMessage = message ∧ row.status = .granted ∧
      Deployed row.grantRunId older ∧ Unrevoked row.id older ∧ .stamped row.id ∉ older ∧
      ∀ other before, .published other before ∈ older → temporaryAccessGrantId other.runId = row.id → other = message
  | _, _ => True

end Orchestrator.Access
