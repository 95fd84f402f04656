import Orchestrator.Access.World
import Orchestrator.Python.Text

/-!
The sweep over the grants under watch, and the handoff that asks for one.
-/

namespace Orchestrator.Access

open Async Contracts
open Api (TemporaryAccessStatus TemporaryAccessEscalation)

structure SupervisorConfig where
  grantTtlMinutes : Nat
  revokeStaleMinutes : Nat
  maxRevokeAttempts : Int
  observationWindowMinutes : Nat
  unrevokedTtlMinutes : Nat
  revokedWatchMinutes : Nat
  contractAuditHours : Nat

def unsettledDispatchError : String := "grant deploy dispatch unsettled"

def unobservableError : String := "temporary access cannot be observed"

def ask (call : ServiceCall) : Sweep call.Res := perform (.service call)

def updateTemporaryAccessGrant (grantId : String) (update : TemporaryAccessGrantUpdate) : Sweep TemporaryAccessGrant :=
  perform (.updateGrant grantId update)

def notifyAdmins (message : String) : Sweep Unit := do
  -- a lost notification is nobody's failure
  let _ ← Prog.attempt (ask (.notifyAdmins message))
  return ()

/-- `_age_minutes(moment) >= minutes`. -/
def olderThan (moment : Time) (minutes : Nat) : Sweep Bool := do
  let now : Time ← ask .clock
  return decide (moment + 60 * minutes ≤ now)

def roundedMinutes (moment now : Time) : Nat :=
  let minutes := (now - moment) / 60
  if (now - moment) % 60 < 30 then minutes
  else if 30 < (now - moment) % 60 then minutes + 1
  else minutes + minutes % 2

def newDeployRunId (kind : String) : Sweep String := do
  let suffix : String ← perform .newSuffix
  return "deploy-" ++ kind ++ "-" ++ suffix

def deploySucceeded (run : RunDTO) : Bool := run.status == .completed && run.result == some .success

def deployOutcomeText : DeployOutcome → String
  | .success => "success"
  | .smokeFailure => "smoke_failure"
  | .codeFix => "code_fix"
  | .retry => "retry"
  | .giveUp => "give_up"
  | .waitingForUserSecret => "waiting_for_user_secret"
  | .allocationMissing => "allocation_missing"
  | .environmentContractInvalid => "environment_contract_invalid"
  | .environmentResolutionFailed => "environment_resolution_failed"
  | .headShaMissing => "head_sha_missing"
  | .waitingInfrastructure => "waiting_infrastructure"
  | .cancelled => "cancelled"

def deployFailureDetail (run : RunDTO) (kind : String) : String :=
  let outcome := (run.result.map deployOutcomeText).getD "no result"
  s!"{kind} deploy {run.id} ended {run.status.value} ({outcome})"

def TemporaryAccessRevokeReason.value : TemporaryAccessRevokeReason → String
  | .runTerminal => "run_terminal"
  | .runMissing => "run_missing"
  | .expired => "expired"
  | .grantFailed => "grant_failed"
  | .observedAfterRevoke => "observed_after_revoke"

def publishDeploy (grant : TemporaryAccessGrant) (runId value triggeredBy : String)
    (revokeReason : Option TemporaryAccessRevokeReason) (fenceActiveDeploys : Bool) : Sweep Unit := do
  let request : DeployRequest := ⟨runId, grant.projectId, grant.headSha, grant.id, grant.envKey, value, triggeredBy,
    revokeReason, fenceActiveDeploys⟩
  ask (.createRun request)
  ask (.publishDeploy request)

def publishGrantDeploy (grant : TemporaryAccessGrant) (grantRunId : String) : Sweep Unit :=
  publishDeploy grant grantRunId grant.subject "temporary_access_grant" none false

/-- A handoff asks for a grant under an id that names its run, and deploys the
run that the stored grant names unless somebody has taken it up already. -/
def grantTemporaryAccess (projectId envKey subject headSha : String) (qaMessage : QAMessage) : Sweep Unit := do
  let grantRunId ← newDeployRunId "grant"
  let grant : TemporaryAccessGrant ← perform (.createGrant
    ⟨String.ofList (("tempaccess-" ++ qaMessage.runId).toList.take 255), projectId, envKey, subject, headSha, qaMessage.runId,
      grantRunId, qaMessage⟩)
  if grant.status ≠ .granting then return ()
  else do
    let run : Option RunDTO ← ask (.getRun grant.grantRunId)
    if run.isSome then return ()
    else publishGrantDeploy grant grant.grantRunId

def failQaRun (grant : TemporaryAccessGrant) (category : QABlockerCategory)
    (attempted sent received summary errorMessage : String) : Sweep Unit :=
  if grant.revokeReason = some .runMissing then return ()
  else do
    let _ ← ask (.recordRunOutcome grant.qaRunId errorMessage ⟨summary, ⟨category, attempted, sent, received⟩⟩)
    return ()

def dispatchRevoke (grant : TemporaryAccessGrant) (reason : TemporaryAccessRevokeReason) : Sweep Unit := do
  let revokeRunId ← newDeployRunId "revoke"
  let _ ← updateTemporaryAccessGrant grant.id { TemporaryAccessGrantUpdate.empty with
    status := some ⟨.revoking, by decide⟩
    revokeReason := some (some reason)
    revokeRunId := some (some revokeRunId)
    revokeAttempts := some (some (grant.revokeAttempts + 1)) }
  publishDeploy grant revokeRunId "" "temporary_access_revoke" (some reason) true

def dispatchSettled (run : RunDTO) : Bool := run.supersededAt || run.status.terminal && run.result.isSome

def reportUnsettledDispatch (config : SupervisorConfig) (grant : TemporaryAccessGrant) (claimedAt : Time) :
    Sweep Unit := do
  let now : Time ← ask .clock
  if now < claimedAt + 60 * config.revokeStaleMinutes then return ()
  else if Python.startsWith (grant.lastError.getD "") unsettledDispatchError then return ()
  else do
    let minutes := roundedMinutes claimedAt now
    notifyAdmins s!"Temporary access {grant.envKey} for project {grant.projectId} cannot be revoked (grant {grant.id}): deploy {grant.grantRunId} claimed the dispatch {minutes} minutes ago and never said whether it reached GitHub"
    let _ ← updateTemporaryAccessGrant grant.id { TemporaryAccessGrantUpdate.empty with
      lastError := some (some s!"{unsettledDispatchError}: grant deploy {grant.grantRunId} claimed the dispatch {minutes} minutes ago and never recorded an outcome") }
    return ()

/-- Whether the revoke may proceed: a grant deploy that crossed the boundary is
waited for until it has answered or lost its claim. -/
def stopGrantDeploy (config : SupervisorConfig) (grant : TemporaryAccessGrant) (detail : String) : Sweep Bool := do
  let run : Option RunDTO ← ask (.getRun grant.grantRunId)
  if run.all dispatchSettled then return true
  else do
    let claimedAt : Option Time ← ask (.withdrawDispatch grant.grantRunId
      s!"temporary access grant {grant.id} was abandoned: {detail}")
    match claimedAt with
    | none => return true
    | some claimedAt => do
      let run : Option RunDTO ← ask (.getRun grant.grantRunId)
      if run.any dispatchSettled then return true
      else do
        let settled : Bool ← ask (.supersedeDispatch grant.grantRunId
          s!"temporary access grant {grant.id} took the dispatch back: {detail}")
        if settled then return true
        else do
          reportUnsettledDispatch config grant claimedAt
          return false

def abandonGrant (config : SupervisorConfig) (grant : TemporaryAccessGrant) (detail : String) : Sweep Unit := do
  failQaRun grant .qaAccessGrantFailed s!"grant temporary access {grant.envKey} for project {grant.projectId}"
    s!"deploy of {grant.headSha} with {grant.envKey} set" detail "temporary test access could not be granted"
    s!"temporary access {grant.envKey} was never confirmed: {detail}"
  let stopped ← stopGrantDeploy config grant detail
  if stopped then dispatchRevoke grant .grantFailed
  else return ()

def redispatchGrant (grant : TemporaryAccessGrant) : Sweep Unit := do
  let grantRunId ← newDeployRunId "grant"
  let _ ← updateTemporaryAccessGrant grant.id
    { TemporaryAccessGrantUpdate.empty with grantRunId := some (some grantRunId) }
  publishGrantDeploy grant grantRunId

def releaseQa (grant : TemporaryAccessGrant) : Sweep Unit :=
  if grant.qaDispatchedAt.isSome then return ()
  else do
    ask (.publishQA grant.qaMessage)
    let _ ← updateTemporaryAccessGrant grant.id { TemporaryAccessGrantUpdate.empty with qaDispatched := true }
    return ()

def revocationReason (config : SupervisorConfig) (grant : TemporaryAccessGrant) :
    Sweep (Option TemporaryAccessRevokeReason) := do
  let run : Option RunDTO ← ask (.getRun grant.qaRunId)
  match run with
  | none => return some .runMissing
  | some run =>
    if run.status.terminal then return some .runTerminal
    else do
      let now : Time ← ask .clock
      if grant.grantedAt + 60 * config.grantTtlMinutes ≤ now then do
        let minutes := roundedMinutes grant.grantedAt now
        notifyAdmins s!"Temporary access {grant.envKey} for project {grant.projectId} outlived its QA run {grant.qaRunId} by {minutes} minutes and is being revoked by timeout"
        failQaRun grant .qaAccessExpired s!"keep temporary access {grant.envKey} for the duration of the QA run"
          s!"grant {grant.id} issued {minutes} minutes ago"
          s!"QA run still {run.status.value} after {config.grantTtlMinutes} minutes"
          "temporary test access outlived the QA run it was granted for"
          s!"temporary access {grant.envKey} expired while the QA run was still {run.status.value}"
        return some .expired
      else return none

def settleGranted (config : SupervisorConfig) (grant : TemporaryAccessGrant) : Sweep Unit :=
  if grant.status = .revokeFailed then
    match grant.revokeReason with
    | none => .raise (.valueError s!"grant {grant.id} failed to revoke without a reason")
    | some reason => dispatchRevoke grant reason
  else do
    let reason ← revocationReason config grant
    match reason with
    | none => releaseQa grant
    | some reason => dispatchRevoke grant reason

def settleGrantInFlight (config : SupervisorConfig) (grant : TemporaryAccessGrant) : Sweep Unit := do
  let expired ← olderThan grant.grantedAt config.grantTtlMinutes
  if expired then
    abandonGrant config grant s!"grant deploy {grant.grantRunId} did not confirm within {config.grantTtlMinutes} minutes"
  else do
    let run : Option RunDTO ← ask (.getRun grant.grantRunId)
    match run with
    | none => redispatchGrant grant
    | some run =>
      if !run.status.terminal then do
        let stale ← olderThan run.createdAt config.revokeStaleMinutes
        if stale then
          abandonGrant config grant
            s!"grant deploy {run.id} is still {run.status.value} after {config.revokeStaleMinutes} minutes"
        else return ()
      else if run.status = .cancelled then redispatchGrant grant
      else if !deploySucceeded run then abandonGrant config grant (deployFailureDetail run "grant")
      else do
        let _ ← updateTemporaryAccessGrant grant.id
          { TemporaryAccessGrantUpdate.empty with status := some ⟨.granted, nofun⟩ }
        settleGranted config { grant with status := .granted }

def reconcilingSince (grant : TemporaryAccessGrant) : Time := grant.reopenedAt.getD grant.grantedAt

def retriesAreSpent (config : SupervisorConfig) (grant : TemporaryAccessGrant) : Sweep Bool :=
  if config.maxRevokeAttempts ≤ grant.revokeAttempts then return true
  else olderThan (reconcilingSince grant) config.unrevokedTtlMinutes

def cleanupFailure (grant : TemporaryAccessGrant) (error : String) : TemporaryAccessEscalation QARunResult where
  error := error
  runErrorMessage := s!"temporary access {grant.envKey} is still granted: {error}"
  runResult := ⟨"temporary test access could not be revoked", ⟨.qaCleanupFailed,
    s!"revoke temporary access {grant.envKey} for project {grant.projectId}",
    s!"deploy of {grant.headSha} with {grant.envKey} cleared", error⟩⟩

def recordRevokeFailure (config : SupervisorConfig) (grant : TemporaryAccessGrant) (error : String) : Sweep Unit := do
  let spent ← retriesAreSpent config grant
  let exhausted := spent && grant.escalatedAt.isNone
  perform (.logRevokeFailed grant.id spent exhausted)
  if !exhausted then do
    let _ ← updateTemporaryAccessGrant grant.id { TemporaryAccessGrantUpdate.empty with
      status := some ⟨.revokeFailed, nofun⟩
      lastError := some (some error) }
    return ()
  else do
    notifyAdmins s!"Temporary access {grant.envKey} survived {grant.revokeAttempts} revoke attempts and needs a human: grant {grant.id}, project {grant.projectId}, story {grant.qaMessage.storyId}, QA run {grant.qaRunId}. The test identity {grant.subject} may still be admitted by the deployed bot. Last error: {error}"
    let _ ← perform (.escalateGrant grant.id (cleanupFailure grant error))
    return ()

def observationRequestId (grant : TemporaryAccessGrant) : String :=
  "envobs-" ++ grant.revokeRunId.getD "None" ++ "-" ++ toString grant.slotClearReadings

structure ObservationTarget where
  applicationId : Int
  serverHandle : String
  serviceSlug : String

def observationTarget (grant : TemporaryAccessGrant) : Sweep (Option ObservationTarget) := do
  let application : Option Application ← ask (.getApplication grant.qaMessage.applicationId)
  match application with
  | none => return none
  | some application => do
    let repositories : List String ← ask (.getRepositories grant.projectId)
    if application.repoId ∉ repositories then
      .raise (.valueError s!"grant {grant.id} names application {grant.qaMessage.applicationId}, which belongs to repository {application.repoId} outside project {grant.projectId}")
    else if !application.running then return none
    else do
      let project : Option String ← ask (.getProject grant.projectId)
      match project with
      | none => return none
      | some slug => return some ⟨application.id, application.serverHandle, slug⟩

def reportUnobservableGrant (config : SupervisorConfig) (grant : TemporaryAccessGrant) (detail : String) : Sweep Unit :=
  if grant.status = .revoked then return ()
  else do
    let old ← olderThan (reconcilingSince grant) config.unrevokedTtlMinutes
    if !old then return ()
    else if Python.startsWith (grant.lastError.getD "") unobservableError then return ()
    else do
      notifyAdmins s!"Temporary access {grant.envKey} for project {grant.projectId} (grant {grant.id}) cannot be confirmed removed: {detail}"
      let _ ← updateTemporaryAccessGrant grant.id
        { TemporaryAccessGrantUpdate.empty with lastError := some (some s!"{unobservableError}: {detail}") }
      return ()

def observationPaced (config : SupervisorConfig) (grant : TemporaryAccessGrant) : Sweep Bool :=
  match grant.observedAt with
  | none => return true
  | some moment => olderThan moment config.observationWindowMinutes

def slotAuditDue (grant : TemporaryAccessGrant) (requestId : String) (slowAudit : Bool) : Sweep Bool :=
  if slowAudit then ask (.setSlotAudit grant.projectId grant.envKey requestId) else return true

def askForObservation (config : SupervisorConfig) (grant : TemporaryAccessGrant) (requestId : String)
    (slowAudit : Bool) : Sweep Unit := do
  let paced ← observationPaced config grant
  if !paced then return ()
  else do
    let due ← slotAuditDue grant requestId slowAudit
    if !due then return ()
    else do
      let target ← observationTarget grant
      match target with
      | none => return ()
      | some target => do
        let asked : Bool ← ask (.setPending requestId)
        if !asked then return ()
        else ask (.publishObservation requestId grant.projectId target.serverHandle target.serviceSlug grant.envKey)

/-- One reading of the running service, recorded against the grant, and what
the record makes of it; none when there is no reading. -/
def observeRunningService (config : SupervisorConfig) (grant : TemporaryAccessGrant) (slowAudit : Bool) :
    Sweep (Option (Bool × TemporaryAccessGrant)) := do
  let requestId := observationRequestId grant
  let observation : Option EnvObservationResult ← ask (.getResult requestId)
  match observation with
  | none => do
    askForObservation config grant requestId slowAudit
    return none
  | some observation => do
    ask (.deleteResult requestId)
    match observation.outcome with
    | .unreachable detail => do
      reportUnobservableGrant config grant detail
      return none
    | .observed present => do
      let target ← observationTarget grant
      match target with
      | none => return none
      | some target =>
        if observation.containers < 1 then .raise (.valueError "containers must be at least 1")
        else do
          let settled : TemporaryAccessGrant ← perform (.recordObservation grant.id
            ⟨requestId, target.applicationId, target.serverHandle, target.serviceSlug, grant.envKey, present,
              observation.containers⟩)
          return some (present, settled)

def settleRevokeInFlight (config : SupervisorConfig) (grant : TemporaryAccessGrant) : Sweep Unit :=
  match grant.revokeRunId, grant.revokeReason with
  | none, _ => .raise (.valueError s!"grant {grant.id} is revoking without a revoke run")
  | some _, none => .raise (.valueError s!"grant {grant.id} is revoking without a reason")
  | some revokeRunId, some reason => do
    let run : Option RunDTO ← ask (.getRun revokeRunId)
    match run with
    | none => dispatchRevoke grant reason
    | some run =>
      if !run.status.terminal then do
        let stale ← olderThan run.createdAt config.revokeStaleMinutes
        if stale then dispatchRevoke grant reason
        else return ()
      else if run.status = .cancelled then dispatchRevoke grant reason
      else if !deploySucceeded run then recordRevokeFailure config grant (deployFailureDetail run "revoke")
      else do
        let read ← observeRunningService config grant false
        match read with
        | some (true, _) =>
          recordRevokeFailure config grant
            s!"the running service still carries {grant.envKey} after revoke deploy {run.id}"
        -- an empty reading is the record's to count, and no reading is nobody's failure
        | _ => return ()

def pastTheWatchWindow (config : SupervisorConfig) (grant : TemporaryAccessGrant) : Sweep Bool :=
  match grant.revokedAt with
  | none => return false
  | some moment => olderThan moment config.revokedWatchMinutes

def watchClosedGrant (config : SupervisorConfig) (grant : TemporaryAccessGrant) : Sweep Unit := do
  let slowAudit ← pastTheWatchWindow config grant
  let read ← observeRunningService config grant slowAudit
  match read with
  | some (true, settled) =>
    if settled.status ≠ .revoking then return ()
    else do
      notifyAdmins s!"Temporary access {grant.envKey} for project {grant.projectId} (grant {grant.id}) is set on the running service again after it was confirmed removed; revoking it again"
      dispatchRevoke settled .observedAfterRevoke
  | _ => return ()

def settle (config : SupervisorConfig) (grant : TemporaryAccessGrant) : Sweep Unit :=
  match grant.status with
  | .granting => settleGrantInFlight config grant
  | .revoking => settleRevokeInFlight config grant
  | .revoked => watchClosedGrant config grant
  | _ => settleGranted config grant

def settleApart (config : SupervisorConfig) (grant : TemporaryAccessGrant) : Sweep Unit :=
  (settle config grant).handle fun e => if e.isException then return () else .raise e

def superviseTemporaryAccess (config : SupervisorConfig) : Sweep Unit := do
  let now : Time ← ask .clock
  let grants : Grants ← perform
    (.listUnderWatch (now - 60 * config.revokedWatchMinutes) (now - 3600 * config.contractAuditHours))
  Prog.forEach grants (settleApart config)

structure Handoff where
  projectId : String
  envKey : String
  subject : String
  headSha : String
  qaMessage : QAMessage

def party (config : SupervisorConfig) (handoffs : Nat → Handoff) : Party → Sweep Unit
  | .sweep => superviseTemporaryAccess config
  | .handoff n =>
    grantTemporaryAccess (handoffs n).projectId (handoffs n).envKey (handoffs n).subject (handoffs n).headSha
      (handoffs n).qaMessage

end Orchestrator.Access
