import Orchestrator.Pipeline.Testing

/-!
The two places where a placement no server can take ends with the owner being
told, and the part of the scheduler's tick that owes and delivers such messages.
-/

namespace Orchestrator.Pipeline

open Async Contracts

def transitionTask (taskId : String) (toStatus : TaskStatus) : Job Unit :=
  perform (.transitionTask taskId toStatus)

def impossibleCapacityTaskText : String :=
  "Engineering cannot place this project on any managed server. Tell the user that the request needs operator review."

def impossibleCapacityText : String :=
  "Deploying this project needs more capacity than any managed server can provide. Tell the user that our operators " ++
    "have been asked to review it, and that this is our infrastructure, not a problem with their project."

def escalateTaskToHumanReview (task : Task) (storyId detail runId : String) : Job Unit := do
  transitionTask task.id .waitingHumanReview
  transitionStory storyId .humanReview (some runId)
  ask (.notifyAdmins (task.id ++ ": " ++ detail))

def refuseTask (task : Task) (storyId : String) (run : Run) : Job Unit := do
  let owed ← oweOwnerNotification run ⟨"task_impossible_capacity", impossibleCapacityTaskText, storyId, task.projectId,
    .waitingHumanReview, some task.id⟩
  escalateTaskToHumanReview task storyId "allocation request exceeds every managed server's capacity" run.id
  let _ ← deliverOwedNotification run.id owed

def routeFailedTask (task : Task) (storyId : String) : List Run → Job Unit
  | [] => return ()
  | run :: _ => match run.result with
    | some (.engineering result) =>
      if refusalRouting .engineering (attemptDisposition result.allocationFailureReason true) =
          .humanReviewWithOwnerNotice then refuseTask task storyId run
      else return ()
    | _ => return ()

def superviseFailedTask (task : Task) : Job Unit :=
  match present task.storyId with
  | none => return ()
  | some storyId => do
    let runs ← perform (.listRuns task.id)
    routeFailedTask task storyId runs

def superviseFailedTasks : Job Unit := do
  let tasks ← perform (.getTasksByStatus .failed)
  Prog.forEach tasks superviseFailedTask

def refusedDetail (result : DeployRunResult) : String :=
  "deploy needs " ++ toString (result.allocationRequiredRamMb.getD 0) ++ " MB RAM and " ++
    toString (result.allocationMinDiskMb.getD 0) ++ " MB disk, which exceeds every managed server"

def escalateRefusedDeploy (story : Story) (run : Run) (result : DeployRunResult) (reason : AllocationFailureReason) :
    Job Unit := do
  updateStory story.id
    (.refusedDeploy reason result.allocationRequiredRamMb result.allocationMinDiskMb (refusedDetail result))
  let owed ← oweOwnerNotification run ⟨"story_impossible_capacity", impossibleCapacityText, story.id, story.projectId,
    .waitingHumanReview, none⟩
  transitionStory story.id .humanReview (some run.id)
  ask (.notifyAdmins (run.id ++ ": " ++ refusedDetail result))
  let _ ← deliverOwedNotification run.id owed

def routeDeployRun (story : Story) : Option Run → Job Unit
  | some run =>
    if run.status.terminal then match run.result with
      | some (.deploy result) => match result.allocationFailureReason with
        | some reason =>
          if result.deployOutcome = .waitingInfrastructure ∧
              refusalRouting .deploy (attemptDisposition (some reason) true) = .humanReviewWithOwnerNotice then
            escalateRefusedDeploy story run result reason
          else return ()
        | none => return ()
      | _ => return ()
    else return ()
  | none => return ()

def superviseDeployingStory (story : Story) : Job Unit := do
  match ← latestParsed story.id .deploy with
  | none =>
    let _ ← failStoryOnInvalidResult story
  | some run => routeDeployRun story run

def superviseDeployingStories : Job Unit := do
  Prog.forEach (← getStoriesByStatus .deploying) superviseDeployingStory

def schedulerTick (config : QaConfig) : Job Unit := do
  superviseFailedTasks
  superviseDeployingStories
  let _ ← superviseOwedOwnerNotifications
  let _ ← superviseTestingStories config

def body (config : QaConfig) : Party → Job Unit
  | .scheduler => schedulerTick config
  | .outside _ => perform .outside

end Orchestrator.Pipeline
