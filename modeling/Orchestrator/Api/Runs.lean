import Orchestrator.Contracts.Run

/-!
The run rows and the operations of the API that write them. Each operation
locks the row, decides from what it says, and commits once: a refused request
leaves the store as it was.
-/

namespace Orchestrator.Api

open Contracts

inductive MetadataValue where
  | stamp (moment : Time) (aware : Bool)
  | number (n : Nat)
  | falsy
  | other (text : String)
deriving DecidableEq

abbrev Metadata := String → Option MetadataValue

def Metadata.merge (old new : Metadata) : Metadata := fun key => (new key).or (old key)

inductive PlainField where
  | errorTraceback | startedAt | iteration | inputTokens | outputTokens | totalTokens | costUsd
  | agentProfile | transcriptPath | transcriptTruncated

variable {J : Type}

structure Run (J : Type) where
  type : TypeColumn
  status : StatusColumn
  projectId : Option String
  userId : Option Nat
  storyId : Option String
  taskId : Option String
  callbackStream : Option String
  runMetadata : Option Metadata
  result : Option J
  errorMessage : Option String
  completedAt : Option Time
  plain : PlainField → Option J

structure RunCreate where
  id : String
  type : TypeColumn
  projectId : Option String
  userId : Option Nat
  storyId : Option String
  taskId : Option String
  runMetadata : Metadata
  callbackStream : Option String

structure RunUpdate (J : Type) where
  status : Option (Option StatusColumn)
  runMetadata : Option (Option Metadata)
  result : Option (Option J)
  errorMessage : Option (Option String)
  completedAt : Option (Option Time)
  plain : PlainField → Option (Option J)

def RunUpdate.empty : RunUpdate J := ⟨none, none, none, none, none, fun _ => none⟩

inductive HTTPException where
  | runNotFound (runId : String)
  | userNotFound (userId : Nat)
  | grantNotFound (grantId : String)
  | updateForbidden
  | cannotGoBack (runId : String) (status requested : StatusColumn)
  | cannotRewrite (runId : String) (status : StatusColumn) (fields : List String)
  | grantRevoked (grantId : String)
  | unauthorized (statusCode : Nat)
  | internalServerError

def HTTPException.statusCode : HTTPException → Nat
  | .runNotFound _ => 404
  | .userNotFound _ => 404
  | .grantNotFound _ => 404
  | .updateForbidden => 403
  | .cannotGoBack _ _ _ => 409
  | .cannotRewrite _ _ _ => 409
  | .grantRevoked _ => 409
  | .unauthorized statusCode => statusCode
  | .internalServerError => 500

def HTTPException.detail : HTTPException → String
  | .runNotFound runId => "Run " ++ runId ++ " not found"
  | .userNotFound userId => "User with id " ++ toString userId ++ " not found"
  | .grantNotFound grantId => "Temporary access grant " ++ grantId ++ " not found"
  | .updateForbidden => "Only system and admins can update runs"
  | .cannotGoBack runId status requested =>
      "Run " ++ runId ++ " is " ++ status.text ++ " and cannot go back to " ++ requested.text
  | .cannotRewrite runId status fields =>
      "Run " ++ runId ++ " is " ++ status.text ++ " and has recorded its outcome; cannot rewrite " ++
        ", ".intercalate fields
  | .grantRevoked grantId =>
      "Temporary access grant " ++ grantId ++ " is revoked; there is nothing to escalate"
  | .unauthorized _ => ""
  | .internalServerError => "Internal Server Error"

namespace Run

def terminal (run : Run J) : Bool := run.status.terminal

def metadata (run : Run J) : Metadata := run.runMetadata.getD (fun _ => none)

def recordFirstTerminalCompletion (now : Time) (run : Run J) : Run J :=
  { run with completedAt := run.completedAt.or (some now) }

def hasRecordedOutcome (run : Run J) : Bool :=
  run.result.isSome || (run.type == .member .qa && run.terminal)

def readStamp (run : Run J) (key : String) : Except HTTPException (Option (Time × Bool)) :=
  match run.metadata key with
  | none => .ok none
  | some .falsy => .ok none
  | some (.number n) => if n = 0 then .ok none else .error .internalServerError
  | some (.stamp moment aware) => .ok (some (moment, aware))
  | some (.other _) => .error .internalServerError

def claimedAt (run : Run J) : Except HTTPException (Option (Time × Bool)) := run.readStamp dispatchClaimedAtKey

def leaseExpiresAt (run : Run J) : Except HTTPException (Option (Time × Bool)) :=
  run.readStamp dispatchLeaseExpiresAtKey

def stamped (run : Run J) (key : String) : Bool :=
  match run.metadata key with
  | none => false
  | some .falsy => false
  | some (.number n) => n != 0
  | some (.stamp _ _) => true
  | some (.other _) => true

def stamp (key : String) (value : MetadataValue) (run : Run J) : Run J :=
  { run with runMetadata := some (Function.update run.metadata key (some value)) }

end Run

-- `lease_expires_at > datetime.now(UTC)` raises where the lease has no time zone
def leaseLive (leaseExpiresAt : Option (Time × Bool)) (now : Time) : Except HTTPException Bool :=
  match leaseExpiresAt with
  | none => .ok false
  | some (moment, true) => .ok (decide (now < moment))
  | some (_, false) => .error .internalServerError

variable [DecidableEq J]

def RunUpdate.rewritten (update : RunUpdate J) (run : Run J) : List String :=
  (if update.status.any (· != some run.status) then ["status"] else []) ++
  (if update.result.any (· != run.result) then ["result"] else []) ++
  (if update.errorMessage.any (· != run.errorMessage) then ["error_message"] else [])

omit [DecidableEq J] in
/-- `completed_at` is the API's own: a caller's value is dropped. -/
def RunUpdate.assign (update : RunUpdate J) (status : StatusColumn) (run : Run J) : Run J :=
  { run with
    status := status
    runMetadata := match update.runMetadata with
      | none => run.runMetadata
      | some none => none
      | some (some value) => some (run.metadata.merge value)
    result := update.result.getD run.result
    errorMessage := update.errorMessage.getD run.errorMessage
    plain := fun field => (update.plain field).getD (run.plain field) }

def recordRow (runId : String) (update : RunUpdate J) (run : Run J) : Except HTTPException (Run J) :=
  if run.terminal && run.hasRecordedOutcome && !(update.rewritten run).isEmpty then
    .error (.cannotRewrite runId run.status (update.rewritten run))
  else match update.status with
    | none => .ok (update.assign run.status run)
    | some (some status) => .ok (update.assign status run)
    -- the column is not nullable, so the commit fails
    | some none => .error .internalServerError

def updateRow (runId : String) (update : RunUpdate J) (now : Time) (run : Run J) :
    Except HTTPException (Run J) :=
  match update.status.join with
  | none => recordRow runId update run
  | some requested =>
    if run.terminal && !requested.terminal then .error (.cannotGoBack runId run.status requested)
    else if requested.terminal then recordRow runId update (run.recordFirstTerminalCompletion now)
    else recordRow runId update run

omit [DecidableEq J]

structure DeployRunStart where
  runId : String
  started : Bool
  runStatus : StatusColumn

structure DeployDispatchClaim where
  runId : String
  granted : Bool
  runStatus : StatusColumn
  claimedAt : Option (Time × Bool)
  leaseExpiresAt : Option (Time × Bool)
deriving DecidableEq

structure DeployDispatchSupersede where
  runId : String
  outcome : DispatchSupersede
  runStatus : StatusColumn
  claimedAt : Option (Time × Bool)
  leaseExpiresAt : Option (Time × Bool)

structure DeployDispatchWithdrawal where
  runId : String
  outcome : DispatchWithdrawal
  runStatus : StatusColumn
  claimedAt : Option (Time × Bool)

def startRow (runId : String) (run : Run J) : DeployRunStart × Run J :=
  if run.terminal then (⟨runId, false, run.status⟩, run)
  else (⟨runId, true, .member .running⟩, { run with status := .member .running })

def claimRow (runId : String) (now : Time) (run : Run J) : Except HTTPException (DeployDispatchClaim × Run J) := do
  if run.terminal then
    .ok (⟨runId, false, run.status, ← run.claimedAt, ← run.leaseExpiresAt⟩, run)
  else
    let claimedAt := (← run.claimedAt).getD (now, true)
    let leaseExpiresAt := (now + dispatchLease, true)
    let run := run.stamp dispatchClaimedAtKey (.stamp claimedAt.1 claimedAt.2)
    let run := run.stamp dispatchLeaseExpiresAtKey (.stamp leaseExpiresAt.1 leaseExpiresAt.2)
    .ok (⟨runId, true, run.status, some claimedAt, some leaseExpiresAt⟩, run)

def cancelRow (reason : String) (now : Time) (run : Run J) : Run J :=
  let run := { run with status := .member .cancelled }.recordFirstTerminalCompletion now
  if reason.isEmpty then run else { run with errorMessage := some reason }

def supersedeRow (runId reason : String) (now : Time) (run : Run J) :
    Except HTTPException (DeployDispatchSupersede × Run J) := do
  let claimedAt ← run.claimedAt
  let leaseExpiresAt ← run.leaseExpiresAt
  let answer (outcome : DispatchSupersede) (run : Run J) : DeployDispatchSupersede × Run J :=
    (⟨runId, outcome, run.status, claimedAt, leaseExpiresAt⟩, run)
  if run.terminal && run.hasRecordedOutcome then
    if run.stamped dispatchSupersededAtKey then .ok (answer .superseded run)
    else .ok (answer .alreadySettled run)
  else if claimedAt.isNone then .ok (answer .notClaimed run)
  else if run.stamped dispatchSupersededAtKey then .ok (answer .superseded run)
  else
    if ← leaseLive leaseExpiresAt now then .ok (answer .leaseLive run)
    else .ok (answer .superseded ((cancelRow reason now run).stamp dispatchSupersededAtKey (.stamp now true)))

def withdrawRow (runId reason : String) (now : Time) (run : Run J) :
    Except HTTPException (DeployDispatchWithdrawal × Run J) := do
  let claimedAt ← run.claimedAt
  if run.terminal then .ok (⟨runId, .alreadyTerminal, run.status, claimedAt⟩, run)
  else
    let outcome := if claimedAt.isSome then DispatchWithdrawal.alreadyDispatched else .withdrawn
    .ok (⟨runId, outcome, .member .cancelled, claimedAt⟩, cancelRow reason now run)

def escalateRow (error : String) (result : J) (now : Time) (run : Run J) : Run J :=
  if run.terminal then run
  else
    { run with
      status := .member .failed
      errorMessage := some error
      result := some result }.recordFirstTerminalCompletion now

end Orchestrator.Api
