import Mathlib.Data.List.Sort
import Orchestrator.Async.Interference
import Orchestrator.Api.RunStore
import Orchestrator.Contracts.Work

/-!
The task side of the system: the scheduler's loops, the engineering workers and
the administrator, over the task rows and the engineering runs of the API and
the queue of engineering messages.
-/

namespace Orchestrator.Tasks

open Async Api Contracts

inductive Exn where
  | exception (message : String)
  | cancelledError

structure FailureMetadata where
  resourceWaitStartedAt : Option Time
  requiredRamMb : Option Nat
  minDiskMb : Option Nat

structure TaskRow where
  projectId : String
  type : TaskType
  description : Option String
  status : TaskStatus
  priority : Int
  currentIteration : Nat
  maxIterations : Nat
  storyId : Option String
  blockedByTaskId : Option String
  failureMetadata : Option FailureMetadata

structure Task extends TaskRow where
  id : String

structure TaskUpdate where
  currentIteration : Option Nat
  failureMetadata : Option FailureMetadata

def TaskUpdate.assign (update : TaskUpdate) (task : TaskRow) : TaskRow :=
  { task with
    currentIteration := update.currentIteration.getD task.currentIteration
    failureMetadata := update.failureMetadata.or task.failureMetadata }

inductive TaskAction where
  | start | complete | fail | reopen | resume | cancel
deriving DecidableEq

abbrev EngineeringRun := Run EngineeringRunResult

inductive ProjectStatus where
  | draft | active | paused | archived
deriving DecidableEq

structure Project where
  status : ProjectStatus
  initiatingRunId : Option String
  workspaceReady : Bool

structure TaskEvent where
  iterationEnd : Bool
  summary : String
  commitSha : String

inductive WorkerAttemptState where
  | running | idle | dead | timedOut | removed | unknown

structure AllocationRefusal where
  error : String
  reason : Option AllocationFailureReason
  requiredRamMb : Option Nat
  minDiskMb : Option Nat

structure SubgraphResult where
  engineeringStatus : EngineeringStatus
  commitSha : Option String
  workerId : Option String
  workerReport : Bool
  gaveUpReason : Option String
  errors : List String

inductive SchedulerLoop where
  | dispatchTodoTasks | superviseStuckTasks | superviseFailedTasks | superviseWaitingResourceTasks

inductive ServiceCall where
  | nextLoop
  | clock
  | newRunId
  | getProject (projectId : String)
  | getTaskEvents (taskId : String)
  | createTaskEvent (taskId : String)
  | resolveProjectRecipient (projectId event : String)
  | attemptState (runId : String)
  | stopStuckAttempt (runId : String)
  | resourcesAvailable (taskId : String)
  | resourceWaitExpired (taskId : String)
  | transitionStory (storyId : String) (action : String)
  | owedNotification (runId : String)
  | notifyOwner (taskId event : String)
  | notifyAdmins (taskId detail : String)
  | publishCallbackEvent (runId event : String)
  | createRepoAndSetSecrets (projectId : String)
  | allocateResources (projectId : String)
  | getStoryWorker (storyId : String)
  | setStoryWorker (storyId workerId : String)
  | deleteWorker (workerId : String)
  | getPrimaryRepository (projectId : String)
  | buildStoryContext (storyId : String)
  | engineeringSubgraph (runId : String)
  | patchTaskFailure (taskId reason : String)
  | patchStory (storyId status : String)
  | publishDeploy (runId : String)

def ServiceCall.Res : ServiceCall → Type
  | nextLoop => SchedulerLoop
  | clock => Time
  | newRunId => String
  | getProject _ => Option Project
  | getTaskEvents _ => List TaskEvent
  | createTaskEvent _ => Unit
  | resolveProjectRecipient _ _ => String
  | attemptState _ => WorkerAttemptState × Option String
  | stopStuckAttempt _ => Unit
  | resourcesAvailable _ => Bool
  | resourceWaitExpired _ => Bool
  | transitionStory _ _ => Unit
  | owedNotification _ => Unit
  | notifyOwner _ _ => Unit
  | notifyAdmins _ _ => Unit
  | publishCallbackEvent _ _ => Unit
  | createRepoAndSetSecrets _ => Unit
  | allocateResources _ => Option AllocationRefusal
  | getStoryWorker _ => Option String
  | setStoryWorker _ _ => Unit
  | deleteWorker _ => Unit
  | getPrimaryRepository _ => Option String
  | buildStoryContext _ => Unit
  | engineeringSubgraph _ => SubgraphResult
  | patchTaskFailure _ _ => Unit
  | patchStory _ _ => Unit
  | publishDeploy _ => Unit

inductive Op where
  | service (call : ServiceCall)
  | getTasksByStatus (status : TaskStatus)
  | getTasksByStory (storyId : String)
  | getTask (taskId : String)
  | transitionTask (taskId : String) (toStatus : TaskStatus) (account : Option String)
  | updateTask (taskId : String) (update : TaskUpdate)
  | listRuns (taskId : String)
  | createRun (run : RunCreate)
  | updateRun (runId : String) (update : RunUpdate EngineeringRunResult)
  | publishMessage (msg : EngineeringMessage)
  | taskAction (taskId : String) (action : TaskAction)
  | spawnWorker (taskId runId : String)
  | outside

def Op.Res : Op → Type
  | service call => call.Res
  | getTasksByStatus _ => List Task
  | getTasksByStory _ => List Task
  | getTask _ => Option Task
  | transitionTask _ _ _ => Unit
  | updateTask _ _ => Unit
  | listRuns _ => List (String × EngineeringRun)
  | createRun _ => Unit
  | updateRun _ _ => Unit
  | publishMessage _ => Unit
  | taskAction _ _ => Unit
  | spawnWorker _ _ => Task
  | outside => Unit

abbrev taskInterface : Interface := ⟨Op, Op.Res, Exn⟩

abbrev Job (A : Type) := Prog taskInterface A

abbrev perform (op : Op) : Job (Op.Res op) := Prog.perform (I := taskInterface) op

inductive AdminRequest where
  | action (taskId : String) (action : TaskAction)
  | transition (taskId : String) (toStatus : TaskStatus)
  | spawnWorker (taskId runId : String) (description : Option String)
deriving DecidableEq

inductive Party where
  | scheduler
  | worker (execution : Nat) (msg : EngineeringMessage)
  | admin (execution : Nat) (request : AdminRequest)
  | outside (execution : Nat)
deriving DecidableEq

inductive Event where
  | moved (t : Party) (taskId : String) (fromStatus toStatus : TaskStatus) (account : Option String)
  | created (t : Party) (runId : String)
  | published (t : Party) (runId : String)
  | recorded (t : Party) (runId : String)
  | selected (t : Party) (taskIds : List String)
  | ended (t : Party)

/-- The rows of the API, task ids oldest first and run ids newest first. The
trace is what happened, the latest event first; no program reads it. -/
structure State where
  tasks : String → Option TaskRow
  taskIds : List String
  store : Store EngineeringRunResult
  runIds : List String
  trace : List Event

namespace State

def record (s : State) (event : Event) : State := { s with trace := event :: s.trace }

def allTasks (s : State) : List Task :=
  (s.taskIds.filterMap fun id => (s.tasks id).map fun row => ⟨row, id⟩).insertionSort (·.priority ≤ ·.priority)

def writeTask (s : State) (taskId : String) (task : TaskRow) : State :=
  { s with
    tasks := Function.update s.tasks taskId (some task)
    taskIds := if (s.tasks taskId).isSome then s.taskIds else s.taskIds ++ [taskId] }

def notFound (taskId : String) : Exn := .exception ("Task " ++ taskId ++ " not found")

def getTasksByStatus (t : Party) (status : TaskStatus) (s : State) : Except Exn (List Task) × State :=
  let tasks := s.allTasks.filter (·.status = status)
  (.ok tasks, s.record (.selected t (tasks.map (·.id))))

def getTask (taskId : String) (s : State) : Except Exn (Option Task) × State :=
  (.ok ((s.tasks taskId).map fun row => ⟨row, taskId⟩), s)

def transitionTask (t : Party) (taskId : String) (toStatus : TaskStatus) (account : Option String) (s : State) :
    Except Exn Unit × State :=
  match s.tasks taskId with
  | none => (.error (notFound taskId), s)
  | some task =>
    if (validTransitions task.status).contains toStatus then
      (.ok (), (s.writeTask taskId { task with status := toStatus }).record
        (.moved t taskId task.status toStatus account))
    else (.error (.exception ("Cannot transition from " ++ task.status.value ++ " to " ++ toStatus.value)), s)

def updateTask (taskId : String) (update : TaskUpdate) (s : State) : Except Exn Unit × State :=
  match s.tasks taskId with
  | none => (.error (notFound taskId), s)
  | some task => (.ok (), s.writeTask taskId (update.assign task))

def listRuns (taskId : String) (s : State) : List (String × EngineeringRun) :=
  s.runIds.filterMap fun id => (s.store.runs id).bind fun run =>
    if run.taskId = some taskId && run.type == .member .engineering then some (id, run) else none

def createRun (t : Party) (run : RunCreate) (referenced : Bool) (s : State) : Except Exn Unit × State :=
  match Api.createRun s.store run (fun _ => true) referenced with
  | .error e => (.error (.exception e.detail), s)
  | .ok (_, store) => (.ok (), { s with store := store, runIds := run.id :: s.runIds }.record (.created t run.id))

def recordOutcome (s : State) (t : Party) (runId : String) (update : RunUpdate EngineeringRunResult) : State :=
  if update.status.join.any TextOf.terminal then s.record (.recorded t runId) else s

def updateRun (t : Party) (runId : String) (update : RunUpdate EngineeringRunResult) (now : Time) (s : State) :
    Except Exn Unit × State :=
  match Api.updateRun s.store runId update (.ok none) now with
  | .error e => (.error (.exception e.detail), s)
  | .ok (_, store) => (.ok (), { s with store := store }.recordOutcome t runId update)

end State

def completePath : List TaskStatus := [.inDev, .inCi, .testing]

def TaskAction.target (action : TaskAction) (status : TaskStatus) : Option TaskStatus :=
  let validated (fromStatus toStatus : TaskStatus) : Option TaskStatus :=
    if (validTransitions fromStatus).contains toStatus then some toStatus else none
  match action with
  | .start => validated (if status = .backlog then .todo else status) .inDev
  | .complete => if completePath.contains status then some .done else none
  | .fail => validated status .failed
  | .reopen => validated status .backlog
  | .resume => validated status .inDev
  | .cancel => if status = .cancelled then some .cancelled else validated status .cancelled

namespace State

def taskAction (t : Party) (taskId : String) (action : TaskAction) (s : State) : Except Exn Unit × State :=
  match s.tasks taskId with
  | none => (.error (notFound taskId), s)
  | some task =>
    match action.target task.status with
    | none => (.error (.exception ("Cannot move task from status '" ++ task.status.value ++ "'")), s)
    | some status =>
      (.ok (), (s.writeTask taskId { task with status := status }).record (.moved t taskId task.status status none))

end State

def spawnedRun (task : Task) (runId : String) : RunCreate where
  id := runId
  type := .member .engineering
  projectId := some task.projectId
  userId := none
  storyId := task.storyId
  taskId := some task.id
  runMetadata := fun key =>
    if key = "triggered_by" then some (.other "admin")
    else if key = "task_id" then some (.other task.id)
    else none
  callbackStream := none

namespace State

def spawnWorker (t : Party) (taskId runId : String) (referenced : Bool) (s : State) : Except Exn Task × State :=
  match s.tasks taskId with
  | none => (.error (notFound taskId), s)
  | some row =>
    let task : Task := ⟨row, taskId⟩
    if task.status = .inDev then
      let (answer, s) := s.createRun t (spawnedRun task runId) referenced
      (answer.map fun _ => task, s)
    else if task.status = .backlog || task.status = .todo then
      match s.createRun t (spawnedRun task runId) referenced with
      | (.error e, _) => (.error e, s)
      | (.ok _, s) =>
        let started : Task := { task with status := .inDev }
        (.ok started, (s.writeTask taskId started.toTaskRow).record (.moved t taskId task.status .inDev (some runId)))
    else (.error (.exception ("Cannot spawn worker for task in status '" ++ task.status.value ++ "'")), s)

end State

inductive OutsideChange where
  | writeTask (taskId : String) (task : TaskRow)
  | updateRun (runId : String) (update : RunUpdate EngineeringRunResult)

/-- `service` is what the services outside this model answer to this call; `fate`
whether a call to the API or to Redis is served and heard. -/
structure Reply where
  now : Time
  fate : Fate Exn
  referenced : Bool
  service : (call : ServiceCall) → Except Exn call.Res
  change : OutsideChange

def run (t : Party) (op : Op) (reply : Reply) (s : State) : Except Exn (Op.Res op) × State :=
  match op with
  | .service call => (reply.service call, s)
  | .getTasksByStatus status => reply.fate.serve (State.getTasksByStatus t status) s
  | .getTasksByStory storyId => reply.fate.serve (fun s => (.ok (s.allTasks.filter (·.storyId = some storyId)), s)) s
  | .getTask taskId => reply.fate.serve (State.getTask taskId) s
  | .transitionTask taskId toStatus account => reply.fate.serve (State.transitionTask t taskId toStatus account) s
  | .updateTask taskId update => reply.fate.serve (State.updateTask taskId update) s
  | .listRuns taskId => reply.fate.serve (fun s => (.ok (s.listRuns taskId), s)) s
  | .createRun run => reply.fate.serve (State.createRun t run reply.referenced) s
  | .updateRun runId update => reply.fate.serve (State.updateRun t runId update reply.now) s
  | .publishMessage msg => reply.fate.serve (fun s => (.ok (), s.record (.published t msg.taskId))) s
  | .taskAction taskId action => reply.fate.serve (State.taskAction t taskId action) s
  | .spawnWorker taskId runId => reply.fate.serve (State.spawnWorker t taskId runId reply.referenced) s
  | .outside => match reply.change with
    | .writeTask taskId task => (.ok (), s.writeTask taskId task)
    | .updateRun runId update => State.updateRun t runId update reply.now s

def ended (t : Party) (_ : Option (Except Exn Unit)) (s : State) : State := s.record (.ended t)

abbrev taskWorld : World taskInterface Party Unit := ⟨State, fun _ => Reply, run, ended⟩

end Orchestrator.Tasks
