import Orchestrator.Access.Sweep
import Orchestrator.Async.Interpretation
import Orchestrator.Async.Runs
import Orchestrator.Completion.Stories
import Orchestrator.Pipeline.CiFailures
import Orchestrator.Pipeline.Refusals
import Orchestrator.Placement.Allocations
import Orchestrator.Tasks.Liveness

/-!
The calls of one cycle of the task dispatcher: those that select the items of a
phase, and those a phase makes for one of its items. A call says which `try`
around it, inside the handling of its item, catches what it raises.
-/

namespace Orchestrator.Cycle

open Async Contracts

inductive Exn where
  | validationError
  | exception (name : String)
deriving DecidableEq

/-- The `try` a call stands in: none, one that catches a `ValidationError`, one that catches every exception. -/
inductive Guard where
  | bare | validation | any

def Guard.catches : Guard → Exn → Bool
  | .bare, _ => false
  | .validation, e => e = .validationError
  | .any, _ => true

inductive Phase where
  | triggerScaffolds | dispatchTodoTasks | completeStories | pollMergedPrs | pollCiFailures
  | superviseStuckStories | superviseStuckTasks | superviseFailedTasks | superviseWaitingResourceTasks
  | superviseDeployingStories | superviseWaitingUserSecretStories | superviseOwedOwnerNotifications
  | superviseTestingStories | superviseTemporaryAccess
deriving DecidableEq

/-- `age` values are what the item's stamps come to at the moment of the cycle, in minutes. -/
structure Project where
  id : String
  status : Tasks.ProjectStatus
  scaffoldError : Bool
  workspaceReady : Bool
  ownerId : Option String
  initiatingRunId : Option String
  admitsQa : Bool

structure Story where
  id : String
  projectId : String
  status : StoryStatus
  priority : Int
  prNumber : Option Nat
  age : Nat

structure Task where
  id : String
  status : TaskStatus
  projectId : String
  storyId : Option String
  blockedByTaskId : Option String
  currentIteration : Nat
  maxIterations : Nat
  waitStarted : Bool
  waitAge : Nat
  requiredRamMb : Option Nat
  minDiskMb : Option Nat
  ciFailure : Option Pipeline.CiEvidence
  qaFailure : Option Pipeline.QaEvidence

/-- What a run's metadata says about its worker's turn; `backstopExpired` and
`stopDeferred` compare its stamps with the moment of the cycle. -/
structure TurnMetadata where
  workerId : Option String
  initiatingRunId : Option String
  requestId : Option String
  backstopExpired : Bool
  stopDeferred : Bool

inductive Stored (A : Type) where
  | absent
  | unreadable
  | value (a : A)

structure EngineeringRun where
  id : String
  status : RunStatus
  iteration : Option Nat
  turn : Stored TurnMetadata
  result : Option EngineeringRunResult
  ownerNotification : Stored Pipeline.OwnerNotification

structure DeployRun where
  id : String
  status : RunStatus
  headSha : Option String
  infrastructureWait : Nat
  result : Option DeployRunResult
  ownerNotification : Stored Pipeline.OwnerNotification

structure HandoffPlan where
  qaMessage : Access.QAMessage
  access : Option String

structure QaRun where
  id : String
  status : RunStatus
  age : Nat
  applicationId : Option Int
  plan : Stored HandoffPlan
  handoff : Option Pipeline.QaHandoff
  dispatched : Bool
  result : Option Pipeline.QaRunResult
  ownerNotification : Stored Pipeline.OwnerNotification

structure OwingRun where
  id : String
  ownerNotification : Stored Pipeline.OwnerNotification

structure Repository where
  gitUrl : Option String
  acceptanceCriteria : Option String

inductive WorkerStatusField where
  | missing | unknown | terminal | live

/-- A worker's active turn; `overdue` compares its deadline with the moment of the cycle. -/
structure ActiveTurn where
  attemptId : String
  requestId : Option String
  overdue : Bool

structure Config where
  now : Time
  storyStuckThreshold : Nat
  maxArchitectRetries : Nat
  maxDeployRetries : Nat
  maxDeployFixAttempts : Nat
  resourceWaitTimeout : Nat
  metricsFreshnessSeconds : Nat
  qaHandoffRecovery : Nat
  ci : Pipeline.CiConfig
  qa : Pipeline.QaConfig
  access : Access.SupervisorConfig

inductive Command where
  | publishMessage (queue : String)
  | publishFlat (event : String)
  | transitionTask (taskId : String) (toStatus : TaskStatus)
  | updateTask (taskId : String)
  | createTask (storyId : String)
  | createTaskEvent (taskId : String)
  | getTaskEvents (taskId : String)
  | transitionStory (storyId : String) (action : Pipeline.StoryAction)
  | updateStory (storyId : String)
  | createRun (kind : String)
  | updateRun (runId : String)
  | writeRecord (runId : String) (record : Pipeline.OwnerNotification)
  | stopApplication (applicationId : Int)
  | deleteWorker (workerId : String)
  | hdel (key : String)
  | set (key : String)
  | delete (key : String)
  | expire (key : String)
  | notifyAdmins (text : String)

inductive Request where
  | send (command : Command)
  | getProject (projectId : String)
  | getUser (userId : String)
  | getStoriesByProject (projectId : String)
  | getStoriesByStatus (status : StoryStatus)
  | getStory (storyId : String)
  | getRepositories (projectId : String)
  | getPrimaryRepository (projectId : String)
  | todoTasksOf (projectId : String)
  | markInflight (projectId : String)
  | getTask (taskId : String)
  | getTasksByStory (storyId : String)
  | listRuns (taskId : String)
  | createPullRequest (branch : String)
  | getPullRequest (number : Nat)
  | enableAutoMerge (nodeId : String)
  | getLatestWorkflowRun (branch : String)
  | getWorkflowFailureDetails (runId : Nat)
  | getStoryWorker (storyId : String)
  | getCounter (key : String)
  | incr (key : String)
  | removedEvidence (workerId : String)
  | workerStatus (workerId : String)
  | activeTurn (workerId : String)
  | listActiveIncidents
  | getServers
  | getApplications (serverHandle : String)
  | getLatestDeployRun (storyId : String)
  | getLatestQaRun (storyId : String)
  | listProjectSecretKeys (projectId : String)
  | grantExistsForRun (runId : String)
  | access (op : Access.Op)

def Request.Answer : Request → Type
  | .send _ => Unit
  | .getProject _ => Option Project
  | .getUser _ => Option (Option String)
  | .getStoriesByProject _ => List Story
  | .getStoriesByStatus _ => List Story
  | .getStory _ => Story
  | .getRepositories _ => List String
  | .getPrimaryRepository _ => Option Repository
  | .todoTasksOf _ => List Task
  | .markInflight _ => Bool
  | .getTask _ => Task
  | .getTasksByStory _ => List Task
  | .listRuns _ => List EngineeringRun
  | .createPullRequest _ => Completion.PullRequest
  | .getPullRequest _ => Completion.PullRequest
  | .enableAutoMerge _ => Bool
  | .getLatestWorkflowRun _ => Option Pipeline.WorkflowRun
  | .getWorkflowFailureDetails _ => Pipeline.FailureDetails
  | .getStoryWorker _ => Option String
  | .getCounter _ => Nat
  | .incr _ => Nat
  | .removedEvidence _ => Option String
  | .workerStatus _ => WorkerStatusField
  | .activeTurn _ => Option ActiveTurn
  | .listActiveIncidents => List Placement.Incident
  | .getServers => List Placement.Server
  | .getApplications _ => List Placement.Application
  | .getLatestDeployRun _ => Option DeployRun
  | .getLatestQaRun _ => Option QaRun
  | .listProjectSecretKeys _ => List String
  | .grantExistsForRun _ => Bool
  | .access op => op.Res

/-- `refused` is no call: it marks where the code raises on the item's own data. -/
inductive ItemOp where
  | request (guard : Guard) (request : Request)
  | refused (error : String)

def ItemOp.Res : ItemOp → Type
  | .request _ asked => asked.Answer
  | .refused _ => Unit

abbrev itemInterface : Interface := ⟨ItemOp, ItemOp.Res, Exn⟩

def ItemOp.letsOut : (op : ItemOp) → Except Exn op.Res → Bool
  | .request _ _, .ok _ => false
  | .request guard _, .error e => !guard.catches e
  | .refused _, _ => true

def letsOut (call : Call itemInterface) : Prop := call.op.letsOut call.answer = true

def Phase.Item : Phase → Type
  | .triggerScaffolds => Project
  | .dispatchTodoTasks => Task
  | .completeStories => Story
  | .pollMergedPrs => Story
  | .pollCiFailures => Story
  | .superviseStuckStories => Story
  | .superviseStuckTasks => Task
  | .superviseFailedTasks => Task
  | .superviseWaitingResourceTasks => Task
  | .superviseDeployingStories => Story
  | .superviseWaitingUserSecretStories => Story
  | .superviseOwedOwnerNotifications => OwingRun
  | .superviseTestingStories => Story
  | .superviseTemporaryAccess => Access.TemporaryAccessGrant

def Phase.itemId : (phase : Phase) → phase.Item → String
  | .triggerScaffolds => Project.id
  | .dispatchTodoTasks => Task.id
  | .completeStories => Story.id
  | .pollMergedPrs => Story.id
  | .pollCiFailures => Story.id
  | .superviseStuckStories => Story.id
  | .superviseStuckTasks => Task.id
  | .superviseFailedTasks => Task.id
  | .superviseWaitingResourceTasks => Task.id
  | .superviseDeployingStories => Story.id
  | .superviseWaitingUserSecretStories => Story.id
  | .superviseOwedOwnerNotifications => OwingRun.id
  | .superviseTestingStories => Story.id
  | .superviseTemporaryAccess => Access.TemporaryAccessGrant.id

structure Site where
  phase : Phase
  itemId : String
deriving DecidableEq

/-- `list` selects the items of a phase, `storiesInProgress` the projects whose stuck stories wait. -/
inductive Op where
  | list (phase : Phase)
  | storiesInProgress
  | item (site : Site) (op : ItemOp)
  | sleep

def Op.Res : Op → Type
  | .list phase => List phase.Item
  | .storiesInProgress => List Story
  | .item _ op => op.Res
  | .sleep => Unit

abbrev cycleInterface : Interface := ⟨Op, Op.Res, Exn⟩

abbrev Job (A : Type) := Prog cycleInterface A

end Orchestrator.Cycle
