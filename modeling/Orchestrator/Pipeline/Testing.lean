import Orchestrator.Pipeline.Notices

/-!
The supervision of stories in testing: each is routed by the outcome of its
latest QA run.
-/

namespace Orchestrator.Pipeline

open Async Contracts

/-- `digest` stands for the hash of the canonical text of what QA reported. -/
structure QaConfig where
  failureLimit : Nat
  fixLimit : Nat
  digest : String → List QaFailedCheck → String

def updateStory (storyId : String) (reason : QuarantineReason) : Job Unit :=
  perform (.updateStory storyId reason)

def getLatestRunByStory (storyId : String) (type : RunType) : Job (Option Run) :=
  perform (.getLatestRunByStory storyId type)

def present (text : Option String) : Option String := text.filter fun text => !text.isEmpty

def storyCompletedText (handoff : QaHandoff) : String :=
  let address := match present handoff.botUsername with
    | none => handoff.deployedUrl
    | some username => handoff.deployedUrl ++ " (Telegram bot @" ++ username ++ ")"
  "The story is finished: it is deployed and QA passed. Tell the user the good news and give them the address: " ++ address

def quarantineText (result : QaRunResult) : String :=
  let detail := match result.blocker with
    | some blocker => blocker.category ++ ": " ++ blocker.received
    | none => ((present result.summary).or (present result.error)).getD result.qaOutcome.value
  "QA could not confirm that the bot works. The bot has been stopped, but its Telegram token remains assigned to this " ++
    "project. Reason: " ++ detail ++ ". Please decide whether to fix and redeploy it."

def fixAttemptsExhaustedText (summary : String) (exhaustedLimit : Nat) : String :=
  "QA kept finding the same problem after " ++ toString exhaustedLimit ++ " attempts to fix it, so work on this story " ++
    "has stopped and a specialist has been asked to look at it. The last thing QA reported: " ++ summary

def completeStory (story : Story) (run : Run) : Job Unit :=
  match run.handoff with
  | none => .raise (.exception "KeyError")
  | some handoff => do
    let owed ← oweOwnerNotification run
      ⟨"story_completed", storyCompletedText handoff, story.id, story.projectId, .completed, none⟩
    transitionStory story.id .complete (some run.id)
    let _ ← deliverOwedNotification run.id owed

def qaQuarantineReason (result : QaRunResult) : QuarantineReason :=
  .unverified result.qaOutcome.value result.blocker (present result.summary) (present result.error) result.stateChanges
    result.telegramProbeEvidence

def quarantineUnverifiedApplication (story : Story) (run : Run) (result : QaRunResult) : Job Unit :=
  match run.applicationId with
  | none => .raise (.exception "RuntimeError")
  | some applicationId => do
    ask (.stopApplication applicationId)
    updateStory story.id (qaQuarantineReason result)
    let owed ← oweOwnerNotification run
      ⟨"story_quarantined", quarantineText result, story.id, story.projectId, .waitingHumanReview, none⟩
    transitionStory story.id .humanReview (some run.id)
    let _ ← deliverOwedNotification run.id owed

def qaFailureMetadata (task : Task) : Option QaEvidence := task.failureMetadata.bind (·.qaFailure)

def priorQa (s : State) (storyId : String) : List QaEvidence := (s.tasksOf storyId).filterMap qaFailureMetadata

def qaSummary (result : QaRunResult) : String := (present result.summary).getD "QA testing failed"

def qaEvidence (config : QaConfig) (run : Run) (result : QaRunResult) (prior : List QaEvidence) : QaEvidence :=
  let fingerprint := config.digest (qaSummary result) result.failedChecks
  { qaRunId := run.id
    fingerprint := fingerprint
    fingerprintAttempt := (prior.filter (·.fingerprint = fingerprint)).length + 1
    fixAttempt := prior.length + 1
    summary := qaSummary result
    failedChecks := result.failedChecks }

def QaConfig.reached (config : QaConfig) (evidence : QaEvidence) : Bool :=
  evidence.fingerprintAttempt > config.failureLimit || evidence.fixAttempt > config.fixLimit

def fixDescription (evidence : QaEvidence) : String :=
  let issues := if evidence.failedChecks.isEmpty then evidence.summary
    else "\n".intercalate (evidence.failedChecks.map fun check => "- " ++ check.name ++ ": " ++ check.detail)
  "QA testing found issues after deploy. Fix the following:\n\n" ++ issues ++ "\n\nQA summary: " ++ evidence.summary

def qaFixTask (story : Story) (evidence : QaEvidence) : TaskCreate where
  projectId := story.projectId
  storyId := some story.id
  title := "QA fix: " ++ (evidence.summary.take 80).toString
  type := .fix
  status := .todo
  description := fixDescription evidence
  failureMetadata := some ⟨none, some evidence, none⟩

def escalateExhausted (config : QaConfig) (story : Story) (run : Run) (evidence : QaEvidence) : Job Unit := do
  let limit := if evidence.fingerprintAttempt > config.failureLimit then config.failureLimit else config.fixLimit
  updateStory story.id (.fixesExhausted evidence)
  let owed ← oweOwnerNotification run ⟨"story_quarantined", fixAttemptsExhaustedText evidence.summary limit, story.id,
    story.projectId, .waitingHumanReview, none⟩
  transitionStory story.id .humanReview (some run.id)
  let _ ← deliverOwedNotification run.id owed
  ask (.notifyAdmins ("QA failure " ++ evidence.fingerprint ++ " exhausted " ++ toString limit ++ " fix attempts for story " ++
    story.id))

def answerQaFailure (config : QaConfig) (story : Story) (run : Run) (result : QaRunResult) (prior : List QaEvidence) :
    Job (Option Bool) :=
  if prior.any (·.qaRunId = run.id) then do
    transitionStory story.id .start (some run.id)
    return none
  else
    let evidence := qaEvidence config run result prior
    if config.reached evidence then do
      escalateExhausted config story run evidence
      return some false
    else do
      createTask (qaFixTask story evidence)
      transitionStory story.id .start (some run.id)
      return some true

def handleQaFailed (config : QaConfig) (story : Story) (run : Run) (result : QaRunResult) : Job (Option Bool) := do
  let tasks ← getTasksByStory story.id
  answerQaFailure config story run result (tasks.filterMap qaFailureMetadata)

inductive TestedOutcome where
  | completed | redispatched | failed | recovered | left

def routeQaOutcome (config : QaConfig) (story : Story) (run : Run) (result : QaRunResult) : Job TestedOutcome :=
  match result.qaOutcome with
  | .passed => do
    completeStory story run
    return .completed
  | .failed =>
    if result.blocker.isSome || result.failedChecks.isEmpty then do
      quarantineUnverifiedApplication story run result
      return .failed
    else do
      match ← handleQaFailed config story run result with
      | some true => return .redispatched
      | some false => return .failed
      | none => return .left
  | _ => do
    quarantineUnverifiedApplication story run result
    return .failed

def routeQaRun (config : QaConfig) (story : Story) : Option Run → Job TestedOutcome
  | none => return .left
  | some run => match run.status with
    | .queued => do
      let recovered : Bool ← ask (.recoverQaHandoff run.id)
      return if recovered then .recovered else .left
    | .running => return .left
    | _ => match run.result with
      | none => return .left
      | some (.qa result) => routeQaOutcome config story run result
      | some _ => .raise (.exception "AttributeError")

def failStoryOnInvalidResult (story : Story) : Job TestedOutcome := do
  transitionStory story.id .fail none
  ask (.notifyAdmins ("invalid qa run result: " ++ story.id))
  return .failed

def latestParsed (storyId : String) (type : RunType) : Job (Option (Option Run)) :=
  Prog.handle (I := pipelineInterface) (do return some (← getLatestRunByStory storyId type)) fun e =>
    if e = .exception "ValidationError" then .ret none else .raise e

def superviseTestingStory (config : QaConfig) (story : Story) : Job TestedOutcome := do
  match ← latestParsed story.id .qa with
  | none => failStoryOnInvalidResult story
  | some run => routeQaRun config story run

def superviseEach (config : QaConfig) : List Story → Job (List TestedOutcome)
  | [] => return []
  | story :: rest => do
    let outcome ← superviseTestingStory config story
    let outcomes ← superviseEach config rest
    return outcome :: outcomes

def superviseTestingStories (config : QaConfig) : Job (List TestedOutcome) := do
  superviseEach config (← getStoriesByStatus .testing)

end Orchestrator.Pipeline
