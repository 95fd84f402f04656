import Orchestrator.Tasks.Dispatcher

namespace Orchestrator.Tasks

open Async Api Contracts

def advanceThrough (taskId : String) (account : Option String) : List TaskStatus → Job Unit
  | [] => return ()
  | status :: rest => do
    let moved ← exceptException (do transitionTask taskId status account; return true) (return false)
    if moved then advanceThrough taskId account rest else return ()

def updateTaskStatus (planningTaskId : String) (status : TaskStatus) (account : Option String) : Job Unit :=
  advanceThrough planningTaskId account (if status = .done then [.inCi, .testing, .done] else [status])

def writeTaskEvent (planningTaskId : String) : Job Unit := bestEffort (ask (.createTaskEvent planningTaskId))

def stopPatch (reason : Option String) (update : RunUpdate EngineeringRunResult) : RunUpdate EngineeringRunResult :=
  match reason with
  | none => update
  | some reason =>
    { update with
      runMetadata := some (some fun key => if key = "stop_reason" then some (.other reason) else none) }

def failJob (runId error : String) (planningTaskId : Option String) : Job Unit := do
  updateRun runId (outcomePatch .failed (some error) (.of .failed))
  match truthy planningTaskId with
  | none => return ()
  | some taskId => updateTaskStatus taskId .failed (some runId)

def handleWorkerGaveUp (msg : EngineeringMessage) (reason : String) : Job Unit := do
  updateRun msg.taskId (stopPatch (some "agent_refused")
    (outcomePatch .failed (some ("Worker gave up: " ++ (reason.take 500).toString)) (.of .gaveUp)))
  match truthy msg.planningTaskId with
  | none => pure ()
  | some taskId =>
    bestEffort (transitionTask taskId .waitingHumanReview (some msg.taskId))
    bestEffort (ask (.patchTaskFailure taskId reason))
    writeTaskEvent taskId
  match truthy msg.storyId with
  | none => pure ()
  | some storyId => bestEffort (ask (.patchStory storyId "waiting_human_review"))
  ask (.notifyAdmins msg.taskId reason)
  if msg.telegramChatId.isEmpty then return ()
  else bestEffort (ask (.notifyOwner msg.taskId "story_blocked"))

def keepWorker (msg : EngineeringMessage) (workerId : String) : Job Unit :=
  match truthy msg.storyId with
  | some storyId => bestEffort (ask (.setStoryWorker storyId workerId))
  | none => bestEffort (ask (.deleteWorker workerId))

def queuedDeploy (msg : EngineeringMessage) : RunCreate where
  id := "deploy-" ++ msg.taskId.replace "eng-" ""
  type := .member .deploy
  projectId := some msg.projectId
  userId := none
  storyId := none
  taskId := none
  runMetadata := fun _ => none
  callbackStream := none

def autoDeploy (msg : EngineeringMessage) : Job Unit :=
  exceptException (do
    createRun (queuedDeploy msg)
    ask (.publishDeploy (queuedDeploy msg).id))
    (ask (.publishCallbackEvent msg.taskId "failed"))

def handleEngineeringSuccess (msg : EngineeringMessage) (result : SubgraphResult) : Job Unit := do
  if (truthy result.commitSha).isNone then
    updateRun msg.taskId (outcomePatch .failed (some "Developer completed but no commit was made") (.of .failed))
    ask (.publishCallbackEvent msg.taskId "failed")
  else
    match truthy result.workerId with
    | none => pure ()
    | some workerId => keepWorker msg workerId
    updateRun msg.taskId (outcomePatch .completed none ⟨result.engineeringStatus, result.commitSha, none, none, none⟩)
    match truthy msg.planningTaskId with
    | none => pure ()
    | some taskId =>
      updateTaskStatus taskId .done (some msg.taskId)
      writeTaskEvent taskId
    if msg.skipDeploy || (truthy msg.planningTaskId).isSome then ask (.publishCallbackEvent msg.taskId "completed")
    else
      ask (.publishCallbackEvent msg.taskId "progress")
      autoDeploy msg

def resolveAllocations (msg : EngineeringMessage) : Job Bool := do
  let refusal : Option AllocationRefusal ← ask (.allocateResources msg.projectId)
  match refusal with
  | none => return true
  | some refusal =>
    if refusal.reason.isSome && (refusal.requiredRamMb.isNone || refusal.minDiskMb.isNone) then
      .raise (.exception "allocation failure omitted admission requirements")
    else
      updateRun msg.taskId (outcomePatch .failed (some refusal.error)
        ⟨.failed, none, refusal.reason, refusal.requiredRamMb, refusal.minDiskMb⟩)
      return false

def routeSubgraphResult (msg : EngineeringMessage) (result : SubgraphResult) : Job Unit := do
  match truthy msg.planningTaskId with
  | none => pure ()
  | some taskId => if result.workerReport then writeTaskEvent taskId
  match result.engineeringStatus with
  | .done => handleEngineeringSuccess msg result
  | .gaveUp => handleWorkerGaveUp msg ((truthy result.gaveUpReason).getD "Worker could not complete the task")
  | _ =>
    ask (.publishCallbackEvent msg.taskId "failed")
    failJob msg.taskId ("; ".intercalate result.errors) msg.planningTaskId

def buildStoryContext (msg : EngineeringMessage) : Job Unit := do
  match truthy msg.storyId with
  | none => return ()
  | some storyId =>
    ask (.buildStoryContext storyId)
    ask (.buildStoryContext storyId)

def reuseStoryWorker (msg : EngineeringMessage) : Job (Option String) := do
  match truthy msg.storyId with
  | none => return none
  | some storyId => ask (.getStoryWorker storyId)

def startRunPatch : RunUpdate EngineeringRunResult :=
  { RunUpdate.empty with status := some (some (.member .running)) }

def developOn (msg : EngineeringMessage) (project : Project) : Job Unit := do
  if project.status = .draft && msg.action = .create then ask (.createRepoAndSetSecrets msg.projectId)
  if ← resolveAllocations msg then
    let _ ← reuseStoryWorker msg
    let _ ← ask (.getPrimaryRepository msg.projectId)
    buildStoryContext msg
    let result : SubgraphResult ← ask (.engineeringSubgraph msg.taskId)
    routeSubgraphResult msg result

def develop (msg : EngineeringMessage) : Job Unit := do
  updateRun msg.taskId startRunPatch
  ask (.publishCallbackEvent msg.taskId "progress")
  let project : Option Project ← ask (.getProject msg.projectId)
  match project with
  | none => failJob msg.taskId ("Project " ++ msg.projectId ++ " not found") msg.planningTaskId
  | some project => developOn msg project

def processEngineeringJob (msg : EngineeringMessage) : Job Unit :=
  Prog.handle (I := taskInterface) (develop msg) fun e => match e with
    | .cancelledError => .raise e
    | .exception message => do
      ask (.publishCallbackEvent msg.taskId "failed")
      failJob msg.taskId message msg.planningTaskId

end Orchestrator.Tasks

namespace Orchestrator.Tasks

open Async Api Contracts

def spawnAction : TaskType → Except Exn ActionType
  | .create => .ok .create
  | .feature => .ok .feature
  | .fix => .ok .fix
  | .refactor => .error (.exception "Input should be 'create', 'feature' or 'fix'")

def spawnMessage (task : Task) (runId initiatingRunId telegramChatId : String) (description : Option String)
    (action : ActionType) : EngineeringMessage where
  taskId := runId
  projectId := task.projectId
  initiatingRunId := initiatingRunId
  telegramChatId := telegramChatId
  action := action
  description := (truthy description).or task.description
  skipDeploy := false
  planningTaskId := some task.id
  storyId := truthy task.storyId
  branch := none

def spawnWorker (taskId runId : String) (description : Option String) : Job Unit := do
  let task ← getTask taskId
  let project : Option Project ← ask (.getProject task.projectId)
  match project with
  | none => .raise (.exception ("Project " ++ task.projectId ++ " not found"))
  | some project =>
    match truthy project.initiatingRunId with
    | none => .raise (.exception "the project has no initiating run")
    | some initiatingRunId =>
      let task ← perform (.spawnWorker taskId runId)
      let telegramChatId : String ← ask (.resolveProjectRecipient task.projectId "worker_spawned")
      let action ← liftExcept (spawnAction task.type)
      publishMessage (spawnMessage task runId initiatingRunId telegramChatId description action)

def adminRequest : AdminRequest → Job Unit
  | .action taskId action => perform (.taskAction taskId action)
  | .transition taskId toStatus => transitionTask taskId toStatus none
  | .spawnWorker taskId runId description => spawnWorker taskId runId description

def loopProgram : SchedulerLoop → Job Unit
  | .dispatchTodoTasks => do let _ ← dispatchTodoTasks
  | .superviseStuckTasks => do let _ ← superviseStuckTasks
  | .superviseFailedTasks => do let _ ← superviseFailedTasks
  | .superviseWaitingResourceTasks => do let _ ← superviseWaitingResourceTasks

def schedulerTick : Job Unit := do
  let loop : SchedulerLoop ← ask .nextLoop
  loopProgram loop

def body : Party → Job Unit
  | .scheduler => schedulerTick
  | .worker _ msg => processEngineeringJob msg
  | .admin _ request => adminRequest request
  | .outside _ => perform .outside

end Orchestrator.Tasks
