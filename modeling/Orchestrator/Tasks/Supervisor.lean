import Orchestrator.Tasks.Liveness

namespace Orchestrator.Tasks

open Async Api Contracts

def updateTask (taskId : String) (update : TaskUpdate) : Job Unit :=
  perform (.updateTask taskId update)

def storyHumanReviewAction : String := "human-review"

def bestEffort (body : Job Unit) : Job Unit := exceptException body (return ())

def escalateTaskToHumanReview (task : Task) (detail : String) : Job Unit := do
  transitionTask task.id .waitingHumanReview none
  match truthy task.storyId with
  | none => pure ()
  | some storyId => ask (.transitionStory storyId storyHumanReviewAction)
  ask (.notifyAdmins task.id detail)

def waitMetadata (task : Task) (now : Time) (result : EngineeringRunResult) : FailureMetadata where
  resourceWaitStartedAt := (task.failureMetadata.bind (·.resourceWaitStartedAt)).or (some now)
  requiredRamMb := result.allocationRequiredRamMb
  minDiskMb := result.allocationMinDiskMb

def parkRefused (task : Task) (result : EngineeringRunResult) (reason : AllocationFailureReason) : Job Unit := do
  let now : Time ← ask .clock
  updateTask task.id ⟨none, some (waitMetadata task now result)⟩
  transitionTask task.id .waitingResources none
  if (task.failureMetadata.bind (·.resourceWaitStartedAt)).isNone then
    bestEffort (ask (.notifyOwner task.id
      (if reason = .serverNotProvisioned then "task_waiting_infrastructure" else "task_waiting_resources")))

def parkTaskWaitingResources (task : Task) : Job Bool := do
  match (← listRuns task.id).head? with
  | none => return false
  | some run =>
    match run.result with
    | none => return false
    | some result =>
      match refusalRouting .engineering (attemptDisposition result.allocationFailureReason true) with
      | .humanReviewWithOwnerNotice =>
        ask (.owedNotification run.id)
        escalateTaskToHumanReview task "allocation request exceeds every managed server's capacity"
        ask (.notifyOwner task.id "task_impossible_capacity")
        return true
      | .humanReviewPlatformAlert =>
        escalateTaskToHumanReview task "placement could not be evaluated"
        return true
      | .parkWaitingResources =>
        match result.allocationFailureReason with
        | none => return false
        | some reason =>
          parkRefused task result reason
          return true
      | _ => return false

def returnToTodo (taskId : String) : Job Unit := transitionThrough taskId none [.backlog, .todo]

def retryFailedTask (task : Task) : Job Unit := do
  returnToTodo task.id
  updateTask task.id ⟨some (task.currentIteration + 1), none⟩

def escalateExhaustedTask (task : Task) (storyId : String) : Job Unit := do
  bestEffort (transitionTask task.id .waitingHumanReview none)
  bestEffort (ask (.transitionStory storyId storyHumanReviewAction))

inductive FailedOutcome where
  | retried | escalated | parked | standalone
deriving DecidableEq

def superviseFailedTask (task : Task) : Job FailedOutcome := do
  match truthy task.storyId with
  | none => return .standalone
  | some storyId =>
    if ← parkTaskWaitingResources task then return .parked
    else if task.currentIteration < task.maxIterations then
      retryFailedTask task
      return .retried
    else
      escalateExhaustedTask task storyId
      return .escalated

structure FailedCounts where
  retried : Nat
  escalated : Nat

def superviseFailedTasks : Job FailedCounts := do
  let outcomes ← eachTask superviseFailedTask (← getTasksByStatus .failed)
  return ⟨outcomes.count .retried, outcomes.count .escalated⟩

def clearFirstIteration (iteration : Nat) : List RunDTO → Job Unit
  | [] => return ()
  | run :: rest =>
    if run.metadata "iteration" = some (.number iteration) then
      updateRun run.id { RunUpdate.empty with
        runMetadata := some (some (run.metadata.merge fun key => if key = "iteration" then some .falsy else none)) }
    else clearFirstIteration iteration rest

def clearFailedRunIteration (task : Task) : Job Unit := do
  clearFirstIteration task.currentIteration (← listRuns task.id)

def resumeParkedTask (task : Task) : Job Unit := do
  returnToTodo task.id
  bestEffort (ask (.notifyOwner task.id "task_resources_resumed"))

def expireResourceWait (task : Task) : Job Unit := do
  transitionTask task.id .waitingHumanReview none
  ask (.createTaskEvent task.id)
  ask (.notifyAdmins task.id "resource wait timed out")

inductive WaitOutcome where
  | resumed | expired | waiting
deriving DecidableEq

def superviseWaitingTask (task : Task) : Job WaitOutcome := do
  let expired : Bool ← ask (.resourceWaitExpired task.id)
  if expired then
    expireResourceWait task
    return .expired
  else
    let available : Bool ← ask (.resourcesAvailable task.id)
    if available then
      clearFailedRunIteration task
      resumeParkedTask task
      return .resumed
    else return .waiting

structure WaitCounts where
  resumed : Nat
  expired : Nat

def superviseWaitingResourceTasks : Job WaitCounts := do
  let outcomes ← eachTask superviseWaitingTask (← getTasksByStatus .waitingResources)
  return ⟨outcomes.count .resumed, outcomes.count .expired⟩

end Orchestrator.Tasks
