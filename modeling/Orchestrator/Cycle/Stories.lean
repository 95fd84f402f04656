import Orchestrator.Cycle.Supervision

/-!
The phases that route stories by their latest run: those that are deploying,
wait for a secret or are in testing, and the sweep of temporary access.
-/

namespace Orchestrator.Cycle

open Async Contracts
open Pipeline (Recipient QaRunResult Ending)
open Tasks (truthy)

def failStory (storyId detail : String) : Handling Unit := do
  send (.transitionStory storyId .fail)
  notifyAdmins (storyId ++ ": " ++ detail)

def failStoryOnInvalidResult (storyId runType : String) : Handling Unit :=
  failStory storyId ("invalid " ++ runType ++ " run result")

def redispatchDeploy (story : Story) (kind : String) : Handling Unit := do
  send (.createRun kind)
  let _ : Recipient ← resolveProjectRecipient story.projectId
  send (.publishMessage "deploy:queue")

def executeQaHandoff (story : Story) (qaRunId : String) (plan : HandoffPlan) : Handling Unit :=
  match plan.access with
  | some headSha =>
    granting (Access.grantTemporaryAccess story.projectId "TG_BOT_TEST_TELEGRAM_ID" "8202532144" headSha plan.qaMessage)
  | none => do
    send (.publishMessage "qa:queue")
    send (.updateRun qaRunId)

def qaRunIdForDeploy (deployRunId : String) : String := String.ofList (("qa-" ++ deployRunId).toList.take 255)

def temporaryAccessIsNeeded (project : Project) (result : DeployRunResult) : Bool :=
  result.testIdentitySlot && !project.admitsQa

def handOff (story : Story) (run : DeployRun) (applicationId : Nat) (access : Option String) : Handling Unit := do
  let qaRunId := qaRunIdForDeploy run.id
  let _ : Recipient ← resolveProjectRecipient story.projectId
  send (.createRun qaRunId)
  send (.transitionStory story.id .test)
  executeQaHandoff story qaRunId ⟨⟨story.id, applicationId, qaRunId⟩, access⟩

def handOffInto (story : Story) (run : DeployRun) (result : DeployRunResult) (applicationId : Nat) :
    Option Project → Handling Unit
  | none => failStory story.id "deploy succeeded but the project is gone — cannot run QA"
  | some project =>
    if (truthy project.initiatingRunId).isNone then
      failStory story.id "deploy succeeded but the project names no initiating run — cannot run QA"
    else match temporaryAccessIsNeeded project result, truthy run.headSha with
      | true, none =>
        failStory story.id "deploy succeeded but its commit is unknown — QA cannot be granted temporary access"
      | true, some headSha => handOff story run applicationId (some headSha)
      | false, _ => handOff story run applicationId none

def acceptanceCriteria (repo : Option Repository) : Option String :=
  (repo.bind (·.acceptanceCriteria)).filter fun criteria => !criteria.toList.all Char.isWhitespace

def handleDeploySuccessStory (story : Story) (run : DeployRun) (result : DeployRunResult) : Handling Unit :=
  match result.deployedUrl, result.applicationId with
  | some _, some applicationId => do
    let repo : Option Repository ← ask (.getPrimaryRepository story.projectId)
    match acceptanceCriteria repo with
    | none => failStory story.id "deploy succeeded but the project's repository has no acceptance criteria — cannot run QA"
    | some _ => handOffInto story run result applicationId (← ask (.getProject story.projectId))
  | _, _ => failStory story.id "deploy reported success but cannot run QA"

def redispatchFix (story : Story) : Handling Unit := do
  send (.transitionStory story.id .start)
  trying (send (.createRun "eng-deploy-fix")) (return ())
  let _ : Recipient ← resolveProjectRecipient story.projectId
  send (.publishMessage "engineering:queue")

def codeFixInto (config : Config) (story : Story) (result : DeployRunResult) : Option Project → Handling Unit
  | none => failStory story.id "deploy fix needs a project that is gone"
  | some project =>
    if (truthy project.initiatingRunId).isNone then
      failStory story.id "deploy fix needs a project that names its initiating run"
    else if result.deployFixAttempt ≥ config.maxDeployFixAttempts then failStory story.id "deploy fix retries exhausted"
    else redispatchFix story

def handleDeployCodeFix (config : Config) (story : Story) (result : DeployRunResult) : Handling Unit := do
  codeFixInto config story result (← ask (.getProject story.projectId))

def retryWithin (config : Config) (story : Story) (attempts : Nat) : Handling Unit := do
  if attempts ≥ config.maxDeployRetries then
    send (.transitionStory story.id .fail)
    send (.delete story.id)
    notifyAdmins (story.id ++ ": deploy retries exhausted")
    return ()
  redispatchDeploy story "deploy-retry"

def handleDeployRetry (config : Config) (story : Story) (run : DeployRun) : Handling Unit :=
  match truthy run.headSha with
  | none => failStory story.id "deploy retry could not find original head_sha"
  | some _ => do
    let attempts : Nat ← ask (.incr story.id)
    send (.expire story.id)
    retryWithin config story attempts

def deliverOwed (runId : String) : Option Pipeline.OwnerNotification → Handling Unit
  | none => return ()
  | some owed => deliverOwedNotification runId owed

def oweWhere (config : Config) (tellOwner : Bool) (run : DeployRun) (ending : Ending) :
    Handling (Option Pipeline.OwnerNotification) :=
  if tellOwner then do return some (← oweOwnerNotification config run.id run.ownerNotification ending)
  else return none

def escalateRefusedDeploy (config : Config) (story : Story) (run : DeployRun) (tellOwner : Bool) (detail : String) :
    Handling Unit := do
  send (.updateStory story.id)
  let owed ← oweWhere config tellOwner run ⟨"story_impossible_capacity", Pipeline.impossibleCapacityText, story.id,
    story.projectId, .waitingHumanReview, none⟩
  send (.transitionStory story.id .humanReview)
  notifyAdmins (run.id ++ ": " ++ detail)
  deliverOwed run.id owed

def handleDeployInfrastructureWait (config : Config) (story : Story) (run : DeployRun) (result : DeployRunResult) :
    Handling Unit := do
  if run.infrastructureWait ≥ config.resourceWaitTimeout then
    escalateRefusedDeploy config story run false "deploy waited for an admissible server"
    return ()
  let available : Bool ← admissibleTargetExists config (result.allocationRequiredRamMb.getD 0)
    (result.allocationMinDiskMb.getD 0)
  if !available then return ()
  if (truthy run.headSha).isNone then
    escalateRefusedDeploy config story run false "deploy run has no head_sha to resume the infrastructure wait with"
    return ()
  redispatchDeploy story "deploy-infra"

def routeRefusedDeploy (config : Config) (story : Story) (run : DeployRun) (result : DeployRunResult) : Handling Unit :=
  match refusalRouting .deploy (attemptDisposition result.allocationFailureReason true) with
  | .waitForAdmissibleTarget => handleDeployInfrastructureWait config story run result
  | .humanReviewWithOwnerNotice =>
    escalateRefusedDeploy config story run true (Pipeline.refusedDetail result)
  | .humanReviewPlatformAlert =>
    escalateRefusedDeploy config story run false "deploy placement could not be evaluated"
  | _ => escalateRefusedDeploy config story run false "deploy refusal classified as no refusal"

def handleDeployWaitingUserSecret (story : Story) : Handling Unit := do
  send (.transitionStory story.id .waitUserSecret)
  trying (requestViaPo story.projectId "story_waiting_user_secret") (return ())

def routeDeployOutcome (config : Config) (story : Story) (run : DeployRun) (result : DeployRunResult) : Handling Unit :=
  match result.deployOutcome with
  | .success => handleDeploySuccessStory story run result
  | .codeFix => handleDeployCodeFix config story result
  | .smokeFailure => handleDeployCodeFix config story result
  | .retry => handleDeployRetry config story run
  | .cancelled => handleDeployRetry config story run
  | .waitingInfrastructure => routeRefusedDeploy config story run result
  | .waitingForUserSecret => handleDeployWaitingUserSecret story
  | .giveUp => failStory story.id (result.errorDetails.getD "unknown error")
  | .allocationMissing => failStory story.id (result.errorDetails.getD "unknown error")
  | .environmentContractInvalid => failStory story.id (result.errorDetails.getD "unknown error")
  | .environmentResolutionFailed => failStory story.id (result.errorDetails.getD "unknown error")
  | .headShaMissing => failStory story.id (result.errorDetails.getD "unknown error")

def routeDeployRun (config : Config) (story : Story) : Option DeployRun → Handling Unit
  | none => return ()
  | some run =>
    if run.status = .queued ∨ run.status = .running then return ()
    else match run.result with
      | none => return ()
      | some result => routeDeployOutcome config story run result

def superviseDeployingStory (config : Config) (story : Story) : Handling Unit :=
  parsed (.getLatestDeployRun story.id) (failStoryOnInvalidResult story.id "deploy") (routeDeployRun config story)

def redispatchWaitingDeploy (story : Story) (run : DeployRun) : Handling Unit :=
  match truthy run.headSha with
  | none => failStory story.id "waiting deploy could not find original head_sha"
  | some _ => do
    send (.transitionStory story.id .deploy)
    redispatchDeploy story "deploy-secret"

def resumeWithSecrets (story : Story) (run : DeployRun) (missing : List String) : Handling Unit := do
  if missing.isEmpty then return ()
  let present : List String ← ask (.listProjectSecretKeys story.projectId)
  if !missing.all (present.contains ·) then return ()
  redispatchWaitingDeploy story run

def routeWaitingRun (story : Story) : Option DeployRun → Handling Unit
  | none => return ()
  | some run => match run.result with
    | none => return ()
    | some result => resumeWithSecrets story run (result.missingUserSecrets.map (·.key))

def superviseWaitingUserSecretStory (story : Story) : Handling Unit :=
  parsed (.getLatestDeployRun story.id) (failStoryOnInvalidResult story.id "deploy") (routeWaitingRun story)

def recoverPlanned (config : Config) (story : Story) (run : QaRun) : Stored HandoffPlan → Handling Unit
  | .absent => return ()
  | .unreadable => if run.dispatched ∨ run.age < config.qaHandoffRecovery then return () else refuse "ValidationError"
  | .value plan => do
    if run.dispatched ∨ run.age < config.qaHandoffRecovery then return ()
    match plan.access with
    | none => executeQaHandoff story run.id plan
    | some _ =>
      let granted : Bool ← ask (.grantExistsForRun run.id)
      if granted then return ()
      executeQaHandoff story run.id plan

def recoverQaHandoff (config : Config) (story : Story) (run : QaRun) : Handling Unit :=
  recoverPlanned config story run run.plan

def completeTested (config : Config) (story : Story) (run : QaRun) : Handling Unit :=
  match run.handoff with
  | none => refuse "KeyError"
  | some handoff => do
    let owed ← oweOwnerNotification config run.id run.ownerNotification
      ⟨"story_completed", Pipeline.storyCompletedText handoff, story.id, story.projectId, .completed, none⟩
    send (.transitionStory story.id .complete)
    deliverOwedNotification run.id owed

def quarantineUnverifiedApplication (config : Config) (story : Story) (run : QaRun) (result : QaRunResult) :
    Handling Unit :=
  match run.applicationId with
  | none => refuse "RuntimeError"
  | some applicationId => do
    send (.stopApplication applicationId)
    send (.updateStory story.id)
    let owed ← oweOwnerNotification config run.id run.ownerNotification
      ⟨"story_quarantined", Pipeline.quarantineText result, story.id, story.projectId, .waitingHumanReview, none⟩
    send (.transitionStory story.id .humanReview)
    deliverOwedNotification run.id owed

def exhaustedLimit (config : Config) (result : QaRunResult) (prior : List Pipeline.QaEvidence) : Option Nat :=
  let fingerprint := config.qa.digest (Pipeline.qaSummary result) result.failedChecks
  if (prior.filter (·.fingerprint = fingerprint)).length + 1 > config.qa.failureLimit then some config.qa.failureLimit
  else if prior.length + 1 > config.qa.fixLimit then some config.qa.fixLimit
  else none

def escalateExhausted (config : Config) (story : Story) (run : QaRun) (result : QaRunResult) (limit : Nat) :
    Handling Unit := do
  send (.updateStory story.id)
  let owed ← oweOwnerNotification config run.id run.ownerNotification
    ⟨"story_quarantined", Pipeline.fixAttemptsExhaustedText (Pipeline.qaSummary result) limit, story.id,
      story.projectId, .waitingHumanReview, none⟩
  send (.transitionStory story.id .humanReview)
  deliverOwedNotification run.id owed
  notifyAdmins ("QA failure exhausted its fix attempts for story " ++ story.id)

def handleQaFailed (config : Config) (story : Story) (run : QaRun) (result : QaRunResult) : Handling Unit := do
  let tasks : List Task ← ask (.getTasksByStory story.id)
  let prior := tasks.filterMap (·.qaFailure)
  if prior.any (·.qaRunId = run.id) then
    send (.transitionStory story.id .start)
    return ()
  match exhaustedLimit config result prior with
  | some limit => escalateExhausted config story run result limit
  | none =>
    send (.createTask story.id)
    send (.transitionStory story.id .start)

def routeQaOutcome (config : Config) (story : Story) (run : QaRun) (result : QaRunResult) : Handling Unit :=
  match result.qaOutcome with
  | .passed => completeTested config story run
  | .failed =>
    if result.blocker.isSome || result.failedChecks.isEmpty then quarantineUnverifiedApplication config story run result
    else handleQaFailed config story run result
  | .blocked => quarantineUnverifiedApplication config story run result
  | .exhausted => quarantineUnverifiedApplication config story run result
  | .error => quarantineUnverifiedApplication config story run result

def routeQaRun (config : Config) (story : Story) : Option QaRun → Handling Unit
  | none => return ()
  | some run =>
    if run.status = .queued then recoverQaHandoff config story run
    else if run.status = .running then return ()
    else match run.result with
      | none => return ()
      | some result => routeQaOutcome config story run result

def superviseTestingStory (config : Config) (story : Story) : Handling Unit :=
  parsed (.getLatestQaRun story.id) (failStoryOnInvalidResult story.id "qa") (routeQaRun config story)

def superviseGrant (config : Config) (grant : Access.TemporaryAccessGrant) : Handling Unit :=
  trying (do let _ ← swept (Access.settle config.access grant)) (return ())

end Orchestrator.Cycle
