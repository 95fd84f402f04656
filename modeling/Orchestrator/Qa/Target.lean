import Orchestrator.Qa.World

/-!
The run that is given a key on its target, and the sweep that takes the keys
back which runs have left.
-/

namespace Orchestrator.Qa

open Async Contracts

def writeGrant (runId : String) (grant : QASshGrant) : Job Unit := perform (.patchGrant runId grant)

def newGrantMarker : Job String := do
  let hex : String ← perform .newHex
  return markerOf hex

def grantEntry (publicKey marker expiry : String) : KeyEntry where
  options := "restrict,expiry-time=\"" ++ expiry ++ "\""
  publicKey := publicKey
  marker := marker

def identityAbsent : Nat := 3

def identityKeysAbsent : Nat := 4

def installGrant (target : QATarget) (fleetKey : String) (entry : KeyEntry) : Job Unit := do
  let result : Completed ← Prog.handle
    (perform (.installGrant ⟨target.serverIp, target.sshUser, fleetKey⟩ target.qaSshUser entry))
    fun e => match e with
      | .connection detail => .raise (.grantError s!"could not reach {target.serverIp} to issue a QA identity: {detail}")
      | e => .raise e
  if result.exitStatus = identityAbsent ∨ result.exitStatus = identityKeysAbsent then
    let fact := if result.output = "" then s!"{target.qaSshUser} is not on the target" else result.output
    .raise (.identityAbsent s!"{target.serverHandle} records a QA account but {target.serverIp} has none: {fact}")
  else if result.exitStatus ≠ 0 then
    .raise (.grantError s!"could not install the run identity into {target.qaSshUser}@{target.serverIp}: {result.output}")
  else .ret ()

def revokeGrant (admin : Admin) (qaSshUser marker : String) : Job (Option String) := do
  let check : Completed ← perform (.revokeGrant admin qaSshUser marker)
  let answer := if check.output = "" then "no answer" else check.output
  match check.count with
  | none => return some s!"the target did not report whether {marker} is gone: {answer}"
  | some count =>
    if check.exitStatus ≠ 0 then return some s!"the target did not report whether {marker} is gone: {answer}"
    else if count ≠ 0 then return some s!"{count} authorized_keys line(s) matching {marker} survived revocation"
    else return none

structure QAGrantOutcome where
  marker : String
  revoked : Bool
  residual : Option String

def newGrant (target : QATarget) (marker : String) (issuedAt : Time) : QASshGrant where
  marker := marker
  serverHandle := target.serverHandle
  serverIp := target.serverIp
  sshUser := target.sshUser
  qaSshUser := target.qaSshUser
  state := .issuing
  issuedAt := issuedAt
  revokeAttempts := 0
  detail := none

abbrev Left := QAGrantOutcome × Option Exn

def orLeave {A : Type} (outcome : QAGrantOutcome) (p : Job A) (f : A → Job Left) : Job Left :=
  p.attempt.bind fun
    | .error e => .ret (outcome, some e)
    | .ok a => f a

def useTarget (target : QATarget) : Job Unit := do
  Prog.handle (perform (.connect target.serverIp target.qaSshUser)) fun e => match e with
    | .connection detail =>
      .raise (.grantError s!"the run identity could not connect to {target.serverIp}: {detail}")
    | e => .raise e
  perform .useSession

def readBack (delivery : Delivery) (marker : String) : Job (Option String) :=
  let target := delivery.target
  (revokeGrant ⟨target.serverIp, target.sshUser, delivery.fleetKey⟩ target.qaSshUser marker).handle fun e =>
    if e.isException then .ret (some s!"revocation failed: {e.text}") else .raise e

def takeBack (delivery : Delivery) (grant : QASshGrant) (outcome : QAGrantOutcome) : Job Left :=
  orLeave outcome (readBack delivery outcome.marker) fun residual =>
    let outcome := { outcome with residual := residual, revoked := residual.isNone }
    orLeave outcome (writeGrant delivery.runId { grant with
        state := if outcome.revoked then .released else .opened
        revokeAttempts := grant.revokeAttempts + 1
        detail := residual }) fun _ =>
    .ret (outcome, none)

def holdTarget (delivery : Delivery) (grant : QASshGrant) (outcome : QAGrantOutcome) : Job Left :=
  (useTarget delivery.target).attempt.bind fun used =>
    (takeBack delivery grant outcome).bind fun left =>
      .ret (left.1, left.2.or (match used with
        | .ok _ => none
        | .error e => some e))

def unresolved (target : QATarget) (outcome : QAGrantOutcome) (e : Exn) : QAGrantOutcome :=
  let text := s!"QA identity {outcome.marker} on {target.serverIp} was left unresolved: the install did not confirm"
  if e.isGrantError then { outcome with residual := some text } else outcome

def qaTargetGrant (delivery : Delivery) (outcome : QAGrantOutcome) : Job Left :=
  let target := delivery.target
  let grant := newGrant target outcome.marker delivery.issuedAt
  orLeave outcome (writeGrant delivery.runId grant) fun _ =>
    (installGrant target delivery.fleetKey (grantEntry delivery.publicKey outcome.marker delivery.expiry)).attempt.bind fun
      | .error e => .ret (unresolved target outcome e, some e)
      | .ok _ =>
        let grant := { grant with state := .opened }
        orLeave outcome (writeGrant delivery.runId grant) fun _ => holdTarget delivery grant outcome

def runQaCentrally (delivery : Delivery) : Job Left :=
  newGrantMarker.bind fun marker => qaTargetGrant delivery ⟨marker, false, none⟩

def grantSweepPage : Nat := 100

def grantSweepEscalateAfter : Nat := 3

inductive Verdict where
  | revoked | failed | escalated

structure Counts where
  seen : Nat
  revoked : Nat
  failed : Nat
  escalated : Nat
  unreadable : Nat
deriving DecidableEq

def Counts.add (counts : Counts) : Verdict → Counts
  | .revoked => { counts with revoked := counts.revoked + 1 }
  | .failed => { counts with failed := counts.failed + 1 }
  | .escalated => { counts with escalated := counts.escalated + 1 }

def QASshGrant.residue (grant : QASshGrant) : String :=
  match grant.detail.filter (· ≠ "") with
  | none => "the target could not be read back"
  | some detail => detail

def residualResult (grant : QASshGrant) : QARunResult where
  summary := "QA left access on the target that could not be proven gone"
  blocker :=
    { attempted := "remove the QA run's one-shot key from the target"
      sent := s!"authorized_keys entry {grant.marker} on {grant.serverIp}"
      received := grant.residue }
  resource := s!"authorized_keys entry {grant.marker} on {grant.serverIp}"
  cleanupDetail := grant.residue

def reportResidualAccess (runId : String) (grant : QASshGrant) : Job Bool :=
  ((perform (.patchOutcome runId (residualResult grant))).bind fun _ => .ret true).handle fun e =>
    if e = .http 409 then .ret false else .raise e

def sweepRevoke (grant : QASshGrant) (sshKey : String) : Job (Option String) :=
  (revokeGrant ⟨grant.serverIp, grant.sshUser, sshKey⟩ grant.qaSshUser grant.marker).handle fun e =>
    if e.isException then .ret (some s!"revocation failed: {e.text}") else .raise e

def QASshGrant.failed (grant : QASshGrant) (detail : String) : QASshGrant :=
  { grant with revokeAttempts := grant.revokeAttempts + 1, detail := some detail }

def settleRevoke (runId : String) (grant : QASshGrant) : Option String → Job Verdict
  | none => do
    writeGrant runId { grant with state := .released }
    return .revoked
  | some residual => do
    writeGrant runId (grant.failed residual)
    if grantSweepEscalateAfter ≤ grant.revokeAttempts + 1 then do
      let _ ← reportResidualAccess runId (grant.failed residual)
      return .escalated
    else return .failed

def reconcile (runId : String) (grant : QASshGrant) : Job Verdict := do
  let sshKey : Option String ← perform (.getServerSshKey grant.serverHandle)
  match sshKey.filter (· ≠ "") with
  | none => do
    writeGrant runId (grant.failed s!"no server key for {grant.serverHandle}; the grant cannot be taken back")
    return .failed
  | some sshKey => do
    let residual ← sweepRevoke grant sshKey
    settleRevoke runId grant residual

def reconcileEach : List Holding → Counts → Job Counts
  | [], counts => .ret counts
  | ⟨_, .unreadable _⟩ :: holdings, counts =>
    reconcileEach holdings { counts with unreadable := counts.unreadable + 1 }
  | ⟨run, .grant grant⟩ :: holdings, counts =>
    if grant.held then
      (reconcile run.id grant).bind fun verdict =>
        reconcileEach holdings ({ counts with seen := counts.seen + 1 }.add verdict)
    else reconcileEach holdings counts

def sweepQaSshGrants : Nat → Option RunRow → Counts → Job Counts
  | 0, _, counts => .ret counts
  | pages + 1, after, counts =>
    (perform (.listHolding grantSweepPage after)).bind fun (holdings : List Holding) =>
      (reconcileEach holdings counts).bind fun counts =>
        if holdings.length < grantSweepPage then .ret counts
        else sweepQaSshGrants pages ((holdings.getLast?.map (·.run)).or after) counts

def body : Party → Job Unit
  | .qa delivery => (runQaCentrally delivery).bind fun _ => .ret ()
  | .sweep _ pages => (sweepQaSshGrants pages none ⟨0, 0, 0, 0, 0⟩).bind fun _ => .ret ()

end Orchestrator.Qa
