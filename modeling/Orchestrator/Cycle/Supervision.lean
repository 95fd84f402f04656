import Orchestrator.Cycle.Dispatch

/-!
The phases that supervise stuck stories and tasks, and the notifications an
ended story owes its owner.
-/

namespace Orchestrator.Cycle

open Async Contracts
open Pipeline (Recipient OwnerNotification OwnerNotificationState Ending)
open Placement (Server Application serverAdmitsApplication provisioningFailedServerHandles)
open Tasks (truthy WorkerAttemptState)

variable {M : Type → Type} [Calls M]

def retryStory (config : Config) (story : Story) : Handling Unit := do
  let retries : Nat ← ask (.getCounter story.id)
  if retries ≥ config.maxArchitectRetries then
    send (.transitionStory story.id .fail)
    send (.delete story.id)
    return ()
  let _ : Recipient ← resolveProjectRecipient story.projectId
  send (.publishMessage "architect:queue")
  send (.set story.id)

def superviseStuckStory (config : Config) (active : List Story) (story : Story) : Handling Unit := do
  if story.age < config.storyStuckThreshold then return ()
  if active.any (·.projectId = story.projectId) then return ()
  let tasks : List Task ← ask (.getTasksByStory story.id)
  if !tasks.isEmpty then return ()
  retryStory config story

def TurnMetadata.unknownOrTimedOut (turn : TurnMetadata) : WorkerAttemptState :=
  if turn.backstopExpired then .timedOut else .unknown

def TurnMetadata.onTurn (turn : TurnMetadata) (runId : String) : Option ActiveTurn → WorkerAttemptState
  | some active =>
    if active.attemptId = runId ∧ active.requestId = turn.requestId then
      if active.overdue then .timedOut else .running
    else if turn.backstopExpired then turn.unknownOrTimedOut else .idle
  | none => if turn.backstopExpired then turn.unknownOrTimedOut else .idle

def liveState (run : EngineeringRun) (turn : TurnMetadata) (workerId : String) :
    Except Exn WorkerStatusField → Handling WorkerAttemptState
  | .error _ => return turn.unknownOrTimedOut
  | .ok .missing => return turn.unknownOrTimedOut
  | .ok .unknown => return turn.unknownOrTimedOut
  | .ok .terminal => return .dead
  | .ok .live => do
    let active : Except Exn (Option ActiveTurn) ← caught (ask (.activeTurn workerId))
    match active with
    | .error _ => return turn.unknownOrTimedOut
    | .ok active => return turn.onTurn run.id active

def removedEvidence (turn : TurnMetadata) (workerId : String) : Handling (Except Exn (Option String)) :=
  match truthy turn.initiatingRunId with
  | none => return .ok none
  | some _ => caught (ask (.removedEvidence workerId))

def workerState (run : EngineeringRun) (turn : TurnMetadata) (workerId : String) : Handling WorkerAttemptState := do
  let evidence : Except Exn (Option String) ← removedEvidence turn workerId
  match evidence with
  | .error _ => return turn.unknownOrTimedOut
  | .ok removed =>
    if removed = some run.id then return .removed
    liveState run turn workerId (← caught (ask (.workerStatus workerId)))

def attemptState (run : EngineeringRun) : Handling (WorkerAttemptState × Option TurnMetadata) :=
  match run.turn with
  | .unreadable => return (.unknown, none)
  | .absent => return (.unknown, none)
  | .value turn => match truthy turn.workerId with
    | none => return (turn.unknownOrTimedOut, none)
    | some workerId => return (← workerState run turn workerId, some turn)

def failRemovedAttempt (taskId : String) (run : EngineeringRun) : Handling Unit := do
  send (.updateRun run.id)
  send (.transitionTask taskId .failed)

def requestStuckAttemptStop (run : EngineeringRun) (turn : TurnMetadata) : Handling Unit := do
  if turn.stopDeferred then return ()
  send (.updateRun run.id)
  match truthy turn.workerId with
  | none => return ()
  | some workerId => send (.deleteWorker workerId)

def superviseAttempt (taskId : String) (run : EngineeringRun) : WorkerAttemptState × Option TurnMetadata → Handling Unit
  | (.running, _) => return ()
  | (.idle, _) => return ()
  | (.unknown, _) => return ()
  | (.removed, _) => failRemovedAttempt taskId run
  | (.timedOut, none) => failRemovedAttempt taskId run
  | (.dead, none) => return ()
  | (.timedOut, some turn) => requestStuckAttemptStop run turn
  | (.dead, some turn) => requestStuckAttemptStop run turn

def superviseStuckTask (task : Task) : Handling Unit := do
  let runs : List EngineeringRun ← ask (.listRuns task.id)
  match runs.find? (·.live) with
  | some run => superviseAttempt task.id run (← attemptState run)
  | none =>
    let runs : List EngineeringRun ← ask (.listRuns task.id)
    -- the runs come newest first, so the newest terminal one is the first of them
    match runs.find? (!·.live) with
    | none => return ()
    | some terminalRun => replayTerminalAttempt task.id terminalRun

def oweOwnerNotification (config : Config) (runId : String) (stored : Stored OwnerNotification) (ending : Ending) :
    Handling OwnerNotification :=
  match stored with
  | .unreadable => refuse "ValidationError"
  | .absent => do
    send (.writeRecord runId (ending.record config.now))
    return ending.record config.now
  | .value existing =>
    if existing.state ≠ .voided then return existing
    else do
      send (.writeRecord runId (ending.record config.now))
      return ending.record config.now

def settle (runId : String) (record : OwnerNotification) (state : OwnerNotificationState) (detail : Option String)
    (attempts : Nat) : M Unit :=
  send (.writeRecord runId { record with state := state, detail := detail, attempts := attempts })

def spendFailedAttempt (runId : String) (record : OwnerNotification) (attempts : Nat) (error : String) : Handling Unit :=
  if attempts ≥ Pipeline.ownerNotificationMaxAttempts then do
    settle runId record .abandoned (some error) attempts
    notifyAdmins ("Owner notification undelivered: run=" ++ runId ++ ": " ++ error)
  else settle runId record .owed (some error) attempts

/-- Whether a message went out; a recipient that resolved to nothing is written down in the same `try`. -/
def publishRecord (runId : String) (record : OwnerNotification) (attempts : Nat) : Guarded Bool := do
  let recipient : Recipient ← resolveProjectRecipient record.projectId
  if !recipient.isAddressable then
    settle runId record .unaddressable (some recipient.unaddressedReason) attempts
    return false
  send (.publishFlat record.event)
  return true

def Exn.text : Exn → String
  | .validationError => "ValidationError"
  | .exception name => name

def deliverTo (runId : String) (record : OwnerNotification) (attempts : Nat) : Except Exn Story → Handling Unit
  | .error e => spendFailedAttempt runId record attempts e.text
  | .ok story => do
    if story.status ≠ record.terminalStatus then
      settle runId record .voided
        (some ("story is " ++ story.status.value ++ ", not " ++ record.terminalStatus.value)) record.attempts
      return ()
    let sent : Except Exn Bool ← caught (publishRecord runId record attempts)
    match sent with
    | .error e => spendFailedAttempt runId record attempts e.text
    | .ok false => return ()
    | .ok true => settle runId record .delivered none attempts

def deliverOwedNotification (runId : String) (record : OwnerNotification) : Handling Unit := do
  if !record.owed then return ()
  deliverTo runId record (record.attempts + 1) (← caught (ask (.getStory record.storyId)))

def superviseOwedNotification (run : OwingRun) : Handling Unit :=
  match run.ownerNotification with
  | .absent => refuse "RuntimeError"
  | .unreadable => refuse "ValidationError"
  | .value record => deliverOwedNotification run.id record

def escalateTaskToHumanReview (task : Task) (detail : String) : Handling Unit := do
  send (.transitionTask task.id .waitingHumanReview)
  match truthy task.storyId with
  | none => pure ()
  | some storyId => send (.transitionStory storyId .humanReview)
  notifyAdmins (task.id ++ ": " ++ detail)

def requestViaPo (projectId event : String) : Guarded Unit := do
  let recipient : Recipient ← resolveProjectRecipient projectId
  if !recipient.isAddressable then return ()
  send (.publishFlat event)

def parkWaitingResources (task : Task) (reason : AllocationFailureReason) : Handling Unit := do
  send (.updateTask task.id)
  send (.transitionTask task.id .waitingResources)
  if task.waitStarted then return ()
  trying (requestViaPo task.projectId
    (if reason = .serverNotProvisioned then "task_waiting_infrastructure" else "task_waiting_resources")) (return ())

def refuseTask (config : Config) (task : Task) (storyId : String) (run : EngineeringRun) : Handling Unit := do
  let owed ← oweOwnerNotification config run.id run.ownerNotification ⟨"task_impossible_capacity",
    Pipeline.impossibleCapacityTaskText, storyId, task.projectId, .waitingHumanReview, some task.id⟩
  escalateTaskToHumanReview task "allocation request exceeds every managed server's capacity"
  deliverOwedNotification run.id owed

def routeRefusal (config : Config) (task : Task) (storyId : String) (run : EngineeringRun) :
    Option EngineeringRunResult → Handling Bool
  | none => return false
  | some result =>
    match refusalRouting .engineering (attemptDisposition result.allocationFailureReason true),
      result.allocationFailureReason with
    | .humanReviewWithOwnerNotice, _ => do
      refuseTask config task storyId run
      return true
    | .humanReviewPlatformAlert, _ => do
      escalateTaskToHumanReview task "placement could not be evaluated"
      return true
    | .parkWaitingResources, some reason => do
      parkWaitingResources task reason
      return true
    | _, _ => return false

def parkTaskWaitingResources (config : Config) (task : Task) (storyId : String) : Handling Bool := do
  let runs : List EngineeringRun ← ask (.listRuns task.id)
  match runs with
  | [] => return false
  | run :: _ => routeRefusal config task storyId run run.result

def retryFailedTask (taskId : String) : Handling Unit :=
  sendAll [.transitionTask taskId .backlog, .transitionTask taskId .todo, .updateTask taskId]

def escalateExhaustedTask (taskId storyId : String) : Handling Unit := do
  trying (send (.transitionTask taskId .waitingHumanReview)) (return ())
  trying (send (.transitionStory storyId .humanReview)) (return ())

def superviseFailedTask (config : Config) (task : Task) : Handling Unit :=
  match truthy task.storyId with
  | none => return ()
  | some storyId => do
    let parked : Bool ← parkTaskWaitingResources config task storyId
    if parked then return ()
    if task.currentIteration < task.maxIterations then retryFailedTask task.id
    else escalateExhaustedTask task.id storyId

def freshMetrics (config : Config) (server : Server) : Bool :=
  match server.lastHealthCheck with
  | none => false
  | some checked =>
    let age := (config.now : Int) * 1000000 - checked.instant
    0 ≤ age ∧ age ≤ (config.metricsFreshnessSeconds : Int) * 1000000

def reservedRam (applications : List Application) : Nat :=
  ((applications.filter fun application => application.status ≠ .notDeployed ∧ application.status ≠ .stopped).map
    (·.reservedRamMb)).sum

def anyTarget (config : Config) (requiredRamMb minDiskMb : Nat) (failedHandles : List String) :
    List Server → Handling Bool
  | [] => return false
  | server :: rest => do
    if !serverAdmitsApplication server failedHandles ∨ server.capacityRamMb < requiredRamMb ∨
        server.capacityDiskMb < minDiskMb ∨ !freshMetrics config server then
      anyTarget config requiredRamMb minDiskMb failedHandles rest
    else
      let applications : List Application ← ask (.getApplications server.handle)
      if max (reservedRam applications : Int) server.usedRamMb + requiredRamMb ≤ server.capacityRamMb then return true
      else anyTarget config requiredRamMb minDiskMb failedHandles rest

def admissibleTargetExists (config : Config) (requiredRamMb minDiskMb : Nat) : Handling Bool := do
  let incidents : List Placement.Incident ← ask .listActiveIncidents
  let servers : List Server ← ask .getServers
  anyTarget config requiredRamMb minDiskMb (provisioningFailedServerHandles incidents) servers

def resourcesAvailable (config : Config) (task : Task) : Handling Bool :=
  match task.requiredRamMb, task.minDiskMb with
  | some requiredRamMb, some minDiskMb => admissibleTargetExists config requiredRamMb minDiskMb
  | _, _ => return false

def clearFailedRunIteration (task : Task) : Handling Unit := do
  let runs : List EngineeringRun ← ask (.listRuns task.id)
  match runs.find? (·.iteration = some task.currentIteration) with
  | none => return ()
  | some run => send (.updateRun run.id)

def expireResourceWait (task : Task) : Handling Unit := do
  sendAll [.transitionTask task.id .waitingHumanReview, .createTaskEvent task.id]
  notifyAdmins (task.id ++ ": resource wait timed out")

def superviseWaitingTask (config : Config) (task : Task) : Handling Unit := do
  if task.waitAge ≥ config.resourceWaitTimeout then
    expireResourceWait task
    return ()
  let available : Bool ← resourcesAvailable config task
  if !available then return ()
  clearFailedRunIteration task
  sendAll [.transitionTask task.id .backlog, .transitionTask task.id .todo]
  trying (requestViaPo task.projectId "task_resources_resumed") (return ())

end Orchestrator.Cycle
