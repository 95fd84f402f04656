import Mathlib.Algebra.Ring.Int.Defs
import Mathlib.Algebra.Ring.Nat
import Orchestrator.Api.RunStore

/-!
The record of access lent to a test identity, and what each request makes of
the row it has read. A grant holds access unless it is revoked, and only a
reading of the deployed service revokes it.
-/

namespace Orchestrator.Api

def TemporaryAccessStatus.value : TemporaryAccessStatus → String
  | .granting => "granting"
  | .granted => "granted"
  | .revoking => "revoking"
  | .revoked => "revoked"
  | .revokeFailed => "revoke_failed"

end Orchestrator.Api

namespace Orchestrator.Access

open Contracts
open Api (TemporaryAccessStatus TemporaryAccessEscalation)

inductive TemporaryAccessRevokeReason where
  | runTerminal | runMissing | expired | grantFailed | observedAfterRevoke
deriving DecidableEq

-- in seconds
def revokeConfirmationWindow : Time := 10 * 60

def revokeConfirmationReadings : Nat := 2

structure QAMessage where
  storyId : String
  applicationId : Int
  runId : String
deriving DecidableEq

structure TemporaryAccessGrant where
  id : String
  projectId : String
  envKey : String
  subject : String
  headSha : String
  qaRunId : String
  grantRunId : String
  qaMessage : QAMessage
  status : TemporaryAccessStatus
  grantedAt : Time
  qaDispatchedAt : Option Time
  revokedAt : Option Time
  revokeReason : Option TemporaryAccessRevokeReason
  revokeRunId : Option String
  revokeAttempts : Int
  escalatedAt : Option Time
  lastError : Option String
  observedAt : Option Time
  observationId : Option String
  slotClearSince : Option Time
  slotClearReadings : Nat
  reopenedAt : Option Time
deriving DecidableEq

structure TemporaryAccessGrantCreate where
  id : String
  projectId : String
  envKey : String
  subject : String
  headSha : String
  qaRunId : String
  grantRunId : String
  qaMessage : QAMessage

/-- The outer option of a field tells one that is set, to null or to a value,
from one that is left out; where null does what leaving out does, there is one. -/
structure TemporaryAccessGrantUpdate where
  status : Option {status : TemporaryAccessStatus // status ≠ .revoked}
  grantRunId : Option (Option String)
  qaDispatched : Bool
  revokeReason : Option (Option TemporaryAccessRevokeReason)
  revokeRunId : Option (Option String)
  revokeAttempts : Option (Option Int)
  escalated : Bool
  lastError : Option (Option String)

def TemporaryAccessGrantUpdate.empty : TemporaryAccessGrantUpdate :=
  ⟨none, none, false, none, none, none, false, none⟩

structure TemporaryAccessObservation where
  observationId : String
  applicationId : Int
  serverHandle : String
  serviceSlug : String
  envKey : String
  present : Bool
  containers : Nat
deriving DecidableEq

inductive HTTPException where
  | grantNotFound (grantId : String)
  | slotHeld (envKey heldId runId : String) (status : TemporaryAccessStatus)
  | alreadyRevoked (grantId : String)
  | nothingToEscalate (grantId : String)
  | otherKey (grantId holds read : String)
  | otherApplication (grantId : String) (expected read : Int)
  | notSettling (grantId : String) (status : TemporaryAccessStatus)
  | noReason (grantId : String)
  | internalServerError
deriving DecidableEq

def HTTPException.statusCode : HTTPException → Nat
  | .grantNotFound _ => 404
  | .slotHeld .. => 409
  | .alreadyRevoked _ => 409
  | .nothingToEscalate _ => 409
  | .otherKey .. => 422
  | .otherApplication .. => 422
  | .notSettling .. => 409
  | .noReason _ => 422
  | .internalServerError => 500

def HTTPException.detail : HTTPException → String
  | .grantNotFound grantId => s!"Temporary access grant {grantId} not found"
  | .slotHeld envKey heldId runId status =>
      s!"Temporary access for {envKey} is already granted by {heldId} (run {runId}, status {status.value})"
  | .alreadyRevoked grantId => s!"Temporary access grant {grantId} is already revoked"
  | .nothingToEscalate grantId =>
      s!"Temporary access grant {grantId} is revoked; there is nothing to escalate"
  | .otherKey grantId holds read => s!"Grant {grantId} holds {holds}; the reading is of {read}"
  | .otherApplication grantId expected read =>
      s!"Grant {grantId} was tested on application {expected}; the reading is of application {read}"
  | .notSettling grantId status =>
      s!"Temporary access grant {grantId} is {status.value}; only a grant being revoked or already closed is read"
  | .noReason grantId => s!"Temporary access grant {grantId} is revoking without a reason"
  | .internalServerError => "Internal Server Error"

namespace TemporaryAccessGrant

def live (grant : TemporaryAccessGrant) : Bool := grant.status != .revoked

def slot (grant : TemporaryAccessGrant) : String × String := (grant.projectId, grant.envKey)

def storable (grant : TemporaryAccessGrant) : Bool :=
  ([grant.id, grant.envKey, grant.subject, grant.qaRunId, grant.grantRunId] ++
      grant.revokeRunId.toList ++ grant.observationId.toList).all (·.length ≤ 255) &&
    grant.headSha.length ≤ 64 && decide (-2 ^ 31 ≤ grant.revokeAttempts) &&
    decide (grant.revokeAttempts < 2 ^ 31) && decide (grant.slotClearReadings < 2 ^ 31)

end TemporaryAccessGrant

def TemporaryAccessGrantCreate.row (grantIn : TemporaryAccessGrantCreate) (now : Time) : TemporaryAccessGrant where
  id := grantIn.id
  projectId := grantIn.projectId
  envKey := grantIn.envKey
  subject := grantIn.subject
  headSha := grantIn.headSha
  qaRunId := grantIn.qaRunId
  grantRunId := grantIn.grantRunId
  qaMessage := grantIn.qaMessage
  status := .granting
  grantedAt := now
  qaDispatchedAt := none
  revokedAt := none
  revokeReason := none
  revokeRunId := none
  revokeAttempts := 0
  escalatedAt := none
  lastError := none
  observedAt := none
  observationId := none
  slotClearSince := none
  slotClearReadings := 0
  reopenedAt := none

section Updates

variable {A : Type}

def assigned (column : A) : Option (Option A) → Except HTTPException A
  | none => .ok column
  | some none => .error .internalServerError
  | some (some value) => .ok value

def updateRow (grantId : String) (update : TemporaryAccessGrantUpdate) (now : Time) (grant : TemporaryAccessGrant) :
    Except HTTPException TemporaryAccessGrant :=
  if grant.status = .revoked then .error (.alreadyRevoked grantId)
  else do
    let grantRunId ← assigned grant.grantRunId update.grantRunId
    let revokeAttempts ← assigned grant.revokeAttempts update.revokeAttempts
    .ok { grant with
      status := (update.status.map Subtype.val).getD grant.status
      grantRunId := grantRunId
      qaDispatchedAt := if update.qaDispatched then grant.qaDispatchedAt.or (some now) else grant.qaDispatchedAt
      revokeReason := update.revokeReason.getD grant.revokeReason
      revokeRunId := update.revokeRunId.getD grant.revokeRunId
      revokeAttempts := revokeAttempts
      escalatedAt := if update.escalated then grant.escalatedAt.or (some now) else grant.escalatedAt
      lastError := update.lastError.getD grant.lastError }

def escalateRow (grantId error : String) (now : Time) (grant : TemporaryAccessGrant) :
    Except HTTPException TemporaryAccessGrant :=
  if grant.status = .revoked then .error (.nothingToEscalate grantId)
  else .ok { grant with
    status := .revokeFailed
    lastError := some error
    escalatedAt := grant.escalatedAt.or (some now) }

end Updates

section Readings

def requireReadable (grantId : String) (observation : TemporaryAccessObservation) (grant : TemporaryAccessGrant) :
    Except HTTPException Unit :=
  if observation.envKey ≠ grant.envKey then .error (.otherKey grantId grant.envKey observation.envKey)
  else if observation.applicationId ≠ grant.qaMessage.applicationId then
    .error (.otherApplication grantId grant.qaMessage.applicationId observation.applicationId)
  else if grant.status ≠ .revoking ∧ grant.status ≠ .revoked then .error (.notSettling grantId grant.status)
  else .ok ()

def stampReading (observation : TemporaryAccessObservation) (now : Time) (grant : TemporaryAccessGrant) :
    TemporaryAccessGrant :=
  { grant with observationId := some observation.observationId, observedAt := some now }

def clearStreak (grant : TemporaryAccessGrant) : TemporaryAccessGrant :=
  { grant with slotClearSince := none, slotClearReadings := 0 }

def countClear (now : Time) (grant : TemporaryAccessGrant) : TemporaryAccessGrant :=
  match grant.slotClearSince with
  | none => { grant with slotClearSince := some now, slotClearReadings := 1 }
  | some _ => { grant with slotClearReadings := grant.slotClearReadings + 1 }

def confirmed (now : Time) (grant : TemporaryAccessGrant) : Bool :=
  decide (revokeConfirmationReadings ≤ grant.slotClearReadings) &&
    grant.slotClearSince.any fun since => decide (since + revokeConfirmationWindow ≤ now)

def readOpenGrant (grantId : String) (observation : TemporaryAccessObservation) (now : Time)
    (grant : TemporaryAccessGrant) : Except HTTPException TemporaryAccessGrant :=
  if observation.present then .ok (clearStreak (stampReading observation now grant))
  else
    let grant := countClear now (stampReading observation now grant)
    if confirmed now grant then
      if grant.revokeReason = none then .error (.noReason grantId)
      else .ok { grant with status := .revoked, revokedAt := some now }
    else .ok grant

def reopen (observation : TemporaryAccessObservation) (now : Time) (grant : TemporaryAccessGrant) :
    TemporaryAccessGrant :=
  { clearStreak grant with
    status := .revoking
    revokeReason := some .observedAfterRevoke
    revokedAt := none
    reopenedAt := some now
    revokeAttempts := 0
    lastError := some s!"{observation.envKey} is set on application {observation.applicationId} after the grant was confirmed revoked" }

/-- The reading of a grant that is closed; `owned` says whether a live grant
holds the slot. -/
def readClosedGrant (observation : TemporaryAccessObservation) (now : Time) (owned : Bool)
    (grant : TemporaryAccessGrant) : TemporaryAccessGrant :=
  let grant := stampReading observation now grant
  if !observation.present then { grant with slotClearReadings := grant.slotClearReadings + 1 }
  else if owned then grant
  else reopen observation now grant

end Readings

end Orchestrator.Access
