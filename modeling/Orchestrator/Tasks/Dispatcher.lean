import Orchestrator.Tasks.Supervisor

namespace Orchestrator.Tasks

open Async Api Contracts

def getTask (taskId : String) : Job Task := do
  match ← perform (.getTask taskId) with
  | none => .raise (State.notFound taskId)
  | some task => return task

def getTasksByStory (storyId : String) : Job (List Task) :=
  perform (.getTasksByStory storyId)

def createRun (run : RunCreate) : Job Unit := perform (.createRun run)

def publishMessage (msg : EngineeringMessage) : Job Unit := perform (.publishMessage msg)

def contextLine (event : TaskEvent) : Option String :=
  if event.iterationEnd && !event.summary.isEmpty then
    some ("- " ++ event.summary ++
      (if event.commitSha.isEmpty then "" else " (commit: " ++ event.commitSha ++ ")"))
  else none

def buildCumulativeContext (siblingEvents : List TaskEvent) : String :=
  let lines := siblingEvents.filterMap contextLine
  if lines.isEmpty then ""
  else "## Context from completed tasks\n" ++ "\n".intercalate lines ++ "\n\n"

def findUnfinishedRun (task : Task) : Job (Option RunDTO) := do
  return (← listRuns task.id).find? (·.live)

def RunDTO.ofIteration (run : RunDTO) (iteration : Nat) : Bool :=
  run.metadata "iteration" == some (.number iteration)

def findDispatchedRun (task : Task) : Job (Option RunDTO) := do
  return (← listRuns task.id).find? (·.ofIteration task.currentIteration)

def recoverDispatchedTask (taskId : String) (run : RunDTO) : Job Unit := do
  transitionTask taskId .inDev none
  transitionThrough taskId (some run.id) (terminalTaskStatuses run)

def storyBlocksDispatch (siblings : List Task) : Bool :=
  siblings.any (·.status = .inDev) || siblings.any (·.status = .waitingHumanReview)

inductive PriorAttempt where
  | recovered | blocked | replayed
deriving DecidableEq

def handlePriorAttempt (task : Task) : Job (Option PriorAttempt) := do
  match ← findUnfinishedRun task with
  | some run =>
    transitionTask task.id .inDev (some run.id)
    return some (if run.ofIteration task.currentIteration then .recovered else .blocked)
  | none =>
    match ← findDispatchedRun task with
    | some run =>
      recoverDispatchedTask task.id run
      return some .replayed
    | none => return none

def actionOf : TaskType → ActionType
  | .create => .create
  | .feature => .feature
  | .fix => .fix
  | .refactor => .feature

def optionalText (text : Option String) : MetadataValue :=
  match text with
  | none => .falsy
  | some text => if text.isEmpty then .falsy else .other text

def dispatchMetadata (task : Task) (initiatingRunId : String) : Metadata := fun key =>
  if key = "triggered_by" then some (.other "dispatcher")
  else if key = "story_id" then some (optionalText task.storyId)
  else if key = "task_id" then some (.other task.id)
  else if key = "initiating_run_id" then some (.other initiatingRunId)
  else if key = "iteration" then some (.number task.currentIteration)
  else none

def dispatchedRun (task : Task) (runId initiatingRunId : String) : RunCreate where
  id := runId
  type := .member .engineering
  projectId := some task.projectId
  userId := none
  storyId := none
  taskId := some task.id
  runMetadata := dispatchMetadata task initiatingRunId
  callbackStream := none

def dispatchMessage (task : Task) (runId initiatingRunId telegramChatId description : String) :
    EngineeringMessage where
  taskId := runId
  projectId := task.projectId
  initiatingRunId := initiatingRunId
  telegramChatId := telegramChatId
  action := actionOf task.type
  description := some description
  skipDeploy := true
  planningTaskId := some task.id
  storyId := task.storyId
  branch := (truthy task.storyId).map ("story/" ++ ·)

def publishFailedPatch (task : Task) (initiatingRunId : String) : RunUpdate EngineeringRunResult :=
  { outcomePatch .failed (some "dispatch publish failed") (.of .failed) with
    runMetadata := some (some ((dispatchMetadata task initiatingRunId).merge fun key =>
      if key = "iteration" then some .falsy
      else if key = "publish_failed" then some (.other "true")
      else none)) }

def createAndPublishRun (task : Task) (description initiatingRunId : String) : Job (Option String) := do
  let runId : String ← ask .newRunId
  createRun (dispatchedRun task runId initiatingRunId)
  let telegramChatId : String ← ask (.resolveProjectRecipient task.projectId "task_dispatch")
  let msg := dispatchMessage task runId initiatingRunId telegramChatId description
  exceptException (do
    publishMessage msg
    return some runId)
    (do
      updateRun runId (publishFailedPatch task initiatingRunId)
      return none)

def transitionToInDev (taskId runId : String) : Job Bool :=
  exceptException (do
    transitionTask taskId .inDev (some runId)
    return true)
    (exceptException (do
      transitionTask taskId .inDev (some runId)
      return true)
      (return false))

def internalProjectId : String := "033c2033-fc75-4d86-ade2-08efe7b15a5e"

def projectAndInitiatingRun (projectId : String) : Job (Option (Project × String)) := do
  let project : Option Project ← ask (.getProject projectId)
  match project with
  | none => return none
  | some project => return (truthy project.initiatingRunId).map fun runId => (project, runId)

def blockerResolved (task : Task) : Job Bool := do
  match truthy task.blockedByTaskId with
  | none => return true
  | some blockerId => return (← getTask blockerId).status = .done

def siblingsOf (task : Task) : Job (List Task) := do
  match truthy task.storyId with
  | none => return []
  | some storyId => getTasksByStory storyId

def eventsOf (taskId : String) : List Task → Job (List TaskEvent)
  | [] => return []
  | sibling :: rest => do
    if sibling.id != taskId && sibling.status = .done then
      let events : List TaskEvent ← ask (.getTaskEvents sibling.id)
      return events ++ (← eventsOf taskId rest)
    else eventsOf taskId rest

def dispatchFresh (task : Task) (siblings : List Task) (initiatingRunId : String) : Job Bool := do
  let context := buildCumulativeContext (← eventsOf task.id siblings)
  match ← createAndPublishRun task (context ++ task.description.getD "") initiatingRunId with
  | none => return false
  | some runId => transitionToInDev task.id runId

def dispatchReady (task : Task) (initiatingRunId : String) : Job Bool := do
  let siblings ← siblingsOf task
  if storyBlocksDispatch siblings then return false
  else
    match ← handlePriorAttempt task with
    | some prior => return prior != .blocked
    | none => dispatchFresh task siblings initiatingRunId

def dispatchTask (task : Task) : Job Bool := do
  if !(← blockerResolved task) then return false
  else if task.projectId = internalProjectId then return false
  else
    match ← projectAndInitiatingRun task.projectId with
    | none => return false
    | some (project, initiatingRunId) =>
      if project.status = .draft || !project.workspaceReady then return false
      else dispatchReady task initiatingRunId

def dispatchTodoTasks : Job Nat := do
  let outcomes ← eachTask dispatchTask (← getTasksByStatus .todo)
  return outcomes.count true

end Orchestrator.Tasks
