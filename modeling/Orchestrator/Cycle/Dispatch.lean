import Orchestrator.Cycle.Handling

/-!
The phases of a cycle that move work on: the scaffold trigger, the dispatch of
tasks, the completion of stories and the two pollers of pull requests.
-/

namespace Orchestrator.Cycle

open Async Contracts
open Completion (PullRequest Opened usableNodeId)
open Pipeline (Recipient WorkflowRun FailureDetails parseOwnerRepo)
open Tasks (truthy)

variable {M : Type → Type} [Calls M]

def unresolved (reason ownerUserId : String) : M Recipient := do
  notifyAdmins ("Notification recipient unresolved (" ++ reason ++ ")")
  return ⟨"", ownerUserId, "recipient unresolved: " ++ reason⟩

def ownerRecipient (ownerId : String) : Option (Option String) → M Recipient
  | none => unresolved "owner user not found" ownerId
  | some telegramId => match truthy telegramId with
    | none => unresolved "owner has no telegram id" ownerId
    | some chatId => return ⟨chatId, ownerId, ""⟩

def resolveOwnerRecipient (ownerId : Option String) : M Recipient :=
  match truthy ownerId with
  | none => unresolved "project has no owner" ""
  | some ownerId => do ownerRecipient ownerId (← ask (.getUser ownerId))

def recipientOf : Option Project → M Recipient
  | none => unresolved "project not found" ""
  | some project => resolveOwnerRecipient project.ownerId

def resolveProjectRecipient (projectId : String) : M Recipient := do
  recipientOf (← ask (.getProject projectId))

def publishScaffold (project : Project) : Handling Unit := do
  let repos : List String ← ask (.getRepositories project.id)
  if repos.isEmpty then return ()
  let marked : Bool ← ask (.markInflight project.id)
  if !marked then return ()
  let _ : Recipient ← resolveOwnerRecipient project.ownerId
  send (.publishMessage "scaffold:queue")

def triggerFullScaffold (project : Project) : Handling Unit := do
  if project.scaffoldError then return ()
  let stories : List Story ← ask (.getStoriesByProject project.id)
  if stories.isEmpty then return ()
  publishScaffold project

def triggerEnsureScaffold (project : Project) : Handling Unit := do
  if project.workspaceReady || project.scaffoldError then return ()
  let todoTasks : List Task ← ask (.todoTasksOf project.id)
  if todoTasks.isEmpty then return ()
  publishScaffold project

def triggerScaffold (project : Project) : Handling Unit :=
  match project.status with
  | .draft => triggerFullScaffold project
  | .active => triggerEnsureScaffold project
  | _ => return ()

def sendAll : List Command → Handling Unit
  | [] => return ()
  | command :: rest => do
    send command
    sendAll rest

def EngineeringRun.live (run : EngineeringRun) : Bool := Tasks.liveEngineeringStatuses.contains run.status

def terminalTaskStatuses (run : EngineeringRun) : List TaskStatus :=
  Tasks.terminalTaskStatuses ⟨run.id, run.status, run.result, fun _ => none⟩

def replayTerminalAttempt (taskId : String) (run : EngineeringRun) : Handling Unit :=
  sendAll ((terminalTaskStatuses run).map (.transitionTask taskId))

def handlePriorAttempt (task : Task) : Handling Bool := do
  let runs : List EngineeringRun ← ask (.listRuns task.id)
  if runs.any (·.live) then
    send (.transitionTask task.id .inDev)
    return true
  let runs : List EngineeringRun ← ask (.listRuns task.id)
  match runs.find? (·.iteration = some task.currentIteration) with
  | none => return false
  | some run =>
    send (.transitionTask task.id .inDev)
    replayTerminalAttempt task.id run
    return true

def createAndPublishRun (task : Task) : Handling Bool := do
  send (.createRun "eng")
  let _ : Recipient ← resolveProjectRecipient task.projectId
  trying (do
    send (.publishMessage "engineering:queue")
    return true)
    (do
      send (.updateRun "eng")
      return false)

def transitionToInDev (taskId : String) : Handling Unit :=
  trying (send (.transitionTask taskId .inDev)) (trying (send (.transitionTask taskId .inDev)) (return ()))

def storyBlocksDispatch (siblings : List Task) : Bool :=
  siblings.any (·.status = .inDev) || siblings.any (·.status = .waitingHumanReview)

def doneSiblings (task : Task) (siblings : List Task) : List Command :=
  (siblings.filter fun sibling => sibling.id ≠ task.id ∧ sibling.status = .done).map fun sibling => .getTaskEvents sibling.id

def dispatchFresh (task : Task) (siblings : List Task) : Handling Unit := do
  sendAll (doneSiblings task siblings)
  let published : Bool ← createAndPublishRun task
  if !published then return ()
  transitionToInDev task.id

def siblingsOf (task : Task) : Handling (List Task) :=
  match truthy task.storyId with
  | none => return []
  | some storyId => ask (.getTasksByStory storyId)

def dispatchReady (task : Task) : Handling Unit := do
  let siblings : List Task ← siblingsOf task
  if storyBlocksDispatch siblings then return ()
  let prior : Bool ← handlePriorAttempt task
  if prior then return ()
  dispatchFresh task siblings

def dispatchInto (task : Task) : Option Project → Handling Unit
  | none => return ()
  | some project =>
    if (truthy project.initiatingRunId).isNone || project.status = .draft || !project.workspaceReady then return ()
    else dispatchReady task

def dispatchUnblocked (task : Task) : Handling Unit := do
  if task.projectId = "033c2033-fc75-4d86-ade2-08efe7b15a5e" then return ()
  dispatchInto task (← ask (.getProject task.projectId))

def dispatchTask (task : Task) : Handling Unit :=
  match truthy task.blockedByTaskId with
  | none => dispatchUnblocked task
  | some blockerId => do
    let blocker : Task ← ask (.getTask blockerId)
    if blocker.status ≠ .done then return ()
    dispatchUnblocked task

def relieveWorker (storyId : String) (workerId : Option String) : M Unit :=
  match truthy workerId with
  | none => return ()
  | some workerId => do
    send (.deleteWorker workerId)
    send (.hdel storyId)

def cleanupStoryWorker (storyId : String) : M Unit := do
  relieveWorker storyId (← ask (.getStoryWorker storyId))

def triggerNextStory (projectId : String) : Handling Unit := do
  let created : List Story ← ask (.getStoriesByStatus .created)
  if (created.filter (·.projectId = projectId)).isEmpty then return ()
  let _ : Recipient ← resolveProjectRecipient projectId
  send (.publishMessage "architect:queue")

def enableAutoMerge (pr : PullRequest) : Guarded Bool :=
  match usableNodeId pr.nodeId with
  | some nodeId => ask (.enableAutoMerge nodeId)
  | none => do
    let details : PullRequest ← ask (.getPullRequest pr.number)
    match usableNodeId details.nodeId with
    | some nodeId => ask (.enableAutoMerge nodeId)
    | none => return false

def openPullRequest (story : Story) : Guarded Opened := do
  let pr : PullRequest ← ask (.createPullRequest ("story/" ++ story.id))
  send (.updateStory story.id)
  if pr.mergedAt.isSome then
    send (.transitionStory story.id .prReview)
    cleanupStoryWorker story.id
    return .merged
  let _ : Bool ← enableAutoMerge pr
  return .waiting

def concludeStory (story : Story) : Opened → Handling Unit
  | .failed => return ()
  | .merged => return ()
  | .waiting => do
    send (.transitionStory story.id .prReview)
    cleanupStoryWorker story.id
    triggerNextStory story.projectId

def completeInto (story : Story) : Option Repository → Handling Unit
  | none => return ()
  | some repo => match parseOwnerRepo (repo.gitUrl.getD "") with
    | none => refuse "IndexError"
    | some _ => do concludeStory story (← trying (openPullRequest story) (return .failed))

def completeStory (story : Story) : Handling Unit := do
  let tasks : List Task ← ask (.getTasksByStory story.id)
  if tasks.isEmpty || !tasks.all (·.status = .done) then return ()
  completeInto story (← ask (.getPrimaryRepository story.projectId))

def deployMerged (story : Story) : Handling Unit := do
  send (.transitionStory story.id .deploy)
  let _ : Recipient ← resolveProjectRecipient story.projectId
  let _ : List Story ← ask (.getStoriesByProject story.projectId)
  send (.createRun "deploy-poll")
  send (.publishMessage "deploy:queue")

def pollPullRequest (story : Story) (number : Nat) : Handling Unit := do
  let found : Except Exn PullRequest ← caught (ask (.getPullRequest number))
  match found with
  | .error _ => return ()
  | .ok pr => if (truthy pr.mergedAt).isNone then return () else deployMerged story

def pollMergedInto (story : Story) : Option Repository → Handling Unit
  | none => return ()
  | some repo => match parseOwnerRepo (repo.gitUrl.getD ""), story.prNumber.filter (· ≠ 0) with
    | none, _ => refuse "IndexError"
    | some _, none => return ()
    | some _, some number => pollPullRequest story number

def pollMergedPr (story : Story) : Handling Unit := do
  pollMergedInto story (← ask (.getPrimaryRepository story.projectId))

def failureDetails (runId : Nat) : Guarded FailureDetails :=
  Guarded.trying (ask (.getWorkflowFailureDetails runId)) (return ⟨[], some "Exception"⟩)

def handleFailedRun (config : Config) (story : Story) (run : WorkflowRun) : Guarded Unit := do
  let tasks : List Task ← ask (.getTasksByStory story.id)
  let prior := tasks.filterMap (·.ciFailure)
  if prior.any (·.runId = run.id) then return ()
  let details : FailureDetails ← failureDetails run.id
  let evidence := Pipeline.evidenceOf config.ci (Pipeline.storyBranch story.id) run prior details
  if evidence.fingerprintAttempt > config.ci.failureLimit then
    send (.transitionStory story.id .humanReview)
    notifyAdmins ("CI failure " ++ evidence.fingerprint)
    return ()
  send (.createTask story.id)
  send (.transitionStory story.id .fail)
  send (.transitionStory story.id .reopen)
  send (.transitionStory story.id .start)

def pollWorkflowRun (config : Config) (story : Story) : Except Exn (Option WorkflowRun) → Handling Unit
  | .error _ => return ()
  | .ok found => match found.filter WorkflowRun.red with
    | none => return ()
    | some run => trying (handleFailedRun config story run) (return ())

def pollCiInto (config : Config) (story : Story) : Option Repository → Handling Unit
  | none => return ()
  | some repo => match parseOwnerRepo (repo.gitUrl.getD "") with
    | none => refuse "IndexError"
    | some _ => do
      pollWorkflowRun config story (← caught (ask (.getLatestWorkflowRun (Pipeline.storyBranch story.id))))

def pollCiFailure (config : Config) (story : Story) : Handling Unit := do
  pollCiInto config story (← ask (.getPrimaryRepository story.projectId))

end Orchestrator.Cycle
