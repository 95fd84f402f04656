import Orchestrator.Async.Histories
import Orchestrator.Async.Interference
import Orchestrator.Contracts.Work

/-!
Tasks that wait for server capacity: the supervision of failed tasks, which parks them, and of
parked tasks, which releases or expires them, with the clock they read.
-/

namespace Orchestrator.Resources

open Async Contracts

inductive Exn where
  | exception
  | cancelledError
deriving DecidableEq

structure FailureMetadata where
  resourceWaitStartedAt : Option Time
  allocationRequiredRamMb : Option Nat
  allocationMinDiskMb : Option Nat
  allocationFailureReason : Option AllocationFailureReason
deriving DecidableEq

structure Task where
  id : String
  projectId : String
  storyId : Option String
  status : TaskStatus
  currentIteration : Nat
  maxIterations : Nat
  failureMetadata : Option FailureMetadata
  createdAt : Time
  updatedAt : Option Time
deriving DecidableEq

structure EngineeringRun where
  id : String
  result : Option EngineeringRunResult
  iteration : Option Nat

inductive SchedulerLoop where
  | superviseFailedTasks | superviseWaitingResourceTasks

inductive ServiceCall where
  | nextLoop
  | listRuns (taskId : String)
  | clearIteration (runId : String)
  | resourcesAvailable (requiredRamMb minDiskMb : Nat)
  | transitionStory (storyId action : String)
  | createTaskEvent (taskId : String)
  | notifyAdmins (taskId detail : String)
  | oweNotification (runId event : String)
  | deliverNotification (runId : String)

def ServiceCall.Res : ServiceCall → Type
  | nextLoop => SchedulerLoop
  | listRuns _ => List EngineeringRun
  | resourcesAvailable .. => Bool
  | _ => Unit

inductive Account where
  | none
  | parks (start : Time) (isNew : Bool)
  | expires (now start : Time) (isRecorded : Bool)
deriving DecidableEq

inductive Op where
  | service (call : ServiceCall)
  | clock
  | getTasksByStatus (status : TaskStatus)
  | updateIteration (taskId : String) (iteration : Nat)
  | updateMetadata (taskId : String) (metadata : FailureMetadata) (start : Time) (isNew : Bool)
  | transitionTask (taskId : String) (toStatus : TaskStatus) (account : Account)
  | resolveRecipient (taskId event : String)
  | publishFlat (taskId event : String)
  | outside

def Op.Res : Op → Type
  | service call => call.Res
  | clock => Time
  | getTasksByStatus _ => List Task
  | resolveRecipient .. => Bool
  | _ => Unit

abbrev resourceInterface : Interface := ⟨Op, Op.Res, Exn⟩

abbrev Job (A : Type) := Prog resourceInterface A

inductive Party where
  | scheduler
  | outside (execution : Nat)
deriving DecidableEq

/-- What the scheduler does: `recipient` is the answer where there is one, and says whether the
owner can be addressed. -/
inductive Event where
  | read (now : Time)
  | selected (status : TaskStatus) (tasks : List Task)
  | recorded (taskId : String) (start : Time) (isNew : Bool)
  | moved (taskId : String) (toStatus : TaskStatus) (account : Account)
  | asked (taskId event : String) (recipient : Option Bool)
  | published (taskId event : String)
  | ended (outcome : Option (Except Exn Unit))
deriving DecidableEq

structure State where
  tasks : List Task
  trace : List Event

namespace State

def record (s : State) (event : Event) : State := { s with trace := event :: s.trace }

def task? (s : State) (taskId : String) : Option Task := s.tasks.find? (·.id = taskId)

def rewrite (s : State) (taskId : String) (f : Task → Task) : State :=
  { s with tasks := s.tasks.map fun task => if task.id = taskId then f task else task }

def getTasksByStatus (status : TaskStatus) (s : State) : Except Exn (List Task) × State :=
  let tasks := s.tasks.filter (·.status = status)
  (.ok tasks, s.record (.selected status tasks))

def updateIteration (taskId : String) (iteration : Nat) (now : Time) (s : State) : Except Exn Unit × State :=
  match s.task? taskId with
  | none => (.error .exception, s)
  | some _ => (.ok (), s.rewrite taskId fun task => { task with currentIteration := iteration, updatedAt := some now })

def updateMetadata (taskId : String) (metadata : FailureMetadata) (start : Time) (isNew : Bool) (now : Time) (s : State) :
    Except Exn Unit × State :=
  match s.task? taskId with
  | none => (.error .exception, s)
  | some _ => (.ok (), (s.rewrite taskId fun task => { task with failureMetadata := some metadata, updatedAt := some now }).record
      (.recorded taskId start isNew))

def transitionTask (taskId : String) (toStatus : TaskStatus) (account : Account) (now : Time) (s : State) :
    Except Exn Unit × State :=
  match s.task? taskId with
  | none => (.error .exception, s)
  | some task =>
    if (validTransitions task.status).contains toStatus then
      (.ok (), (s.rewrite taskId fun task => { task with status := toStatus, updatedAt := some now }).record
        (.moved taskId toStatus account))
    else (.error .exception, s)

end State

/-- What the others do to a task: they leave the start of its wait or, as a worker that gives up
does, write other metadata over it. -/
structure OutsideChange where
  task : Task
  keepsMetadata : Bool

def OutsideChange.apply (change : OutsideChange) (s : State) : State :=
  match s.task? change.task.id with
  | none => { s with tasks := s.tasks ++ [{ change.task with failureMetadata := none }] }
  | some row => s.rewrite change.task.id fun _ =>
      { change.task with failureMetadata := if change.keepsMetadata then row.failureMetadata else none }

/-- `service` is what the services outside this model answer; `fate` whether a call is served and heard. -/
structure Reply where
  now : Time
  fate : Fate Exn
  addressable : Bool
  service : (call : ServiceCall) → Except Exn call.Res
  change : OutsideChange

def Fate.answer {A : Type} (fate : Fate Exn) (a : A) : Except Exn A :=
  match fate with
  | .served => .ok a
  | .unheard e | .unsent e => .error e

def run (_ : Party) (op : Op) (reply : Reply) (s : State) : Except Exn (Op.Res op) × State :=
  match op with
  | .service call => (reply.service call, s)
  | .clock => (.ok reply.now, s.record (.read reply.now))
  | .getTasksByStatus status => reply.fate.serve (State.getTasksByStatus status) s
  | .updateIteration taskId iteration => reply.fate.serve (State.updateIteration taskId iteration reply.now) s
  | .updateMetadata taskId metadata start isNew =>
      reply.fate.serve (State.updateMetadata taskId metadata start isNew reply.now) s
  | .transitionTask taskId toStatus account => reply.fate.serve (State.transitionTask taskId toStatus account reply.now) s
  | .resolveRecipient taskId event => (Fate.answer reply.fate reply.addressable,
      s.record (.asked taskId event (Fate.answer reply.fate reply.addressable).toOption))
  | .publishFlat taskId event => (Fate.answer reply.fate (), s.record (.published taskId event))
  | .outside => (.ok (), reply.change.apply s)

def ended (t : Party) (outcome : Option (Except Exn Unit)) (s : State) : State :=
  match t with
  | .scheduler => s.record (.ended outcome)
  | .outside _ => s

abbrev resourceWorld : World resourceInterface Party Unit := ⟨State, fun _ => Reply, run, ended⟩

def perform (op : Op) : Job op.Res := Prog.perform (I := resourceInterface) op

def ask (call : ServiceCall) : Job call.Res := perform (.service call)

def clock : Job Time := perform .clock

def transitionTask (taskId : String) (toStatus : TaskStatus) (account : Account) : Job Unit :=
  perform (.transitionTask taskId toStatus account)

/-- `except Exception` with a warning: a cancellation passes. -/
def bestEffort (body : Job Unit) : Job Unit :=
  Prog.handle (I := resourceInterface) body fun
    | .cancelledError => .raise .cancelledError
    | .exception => .ret ()

def eachTask {A : Type} (body : Task → Job A) : List Task → Job (List A)
  | [] => .ret []
  | task :: rest => do
    let outcome ← body task
    let others ← eachTask body rest
    .ret (outcome :: others)

def storyHumanReviewAction : String := "human-review"

def escalateStory (storyId : Option String) : Job Unit :=
  match storyId.filter (· ≠ "") with
  | none => .ret ()
  | some storyId => ask (.transitionStory storyId storyHumanReviewAction)

def escalateTaskToHumanReview (task : Task) (detail : String) : Job Unit := do
  transitionTask task.id .waitingHumanReview .none
  escalateStory task.storyId
  ask (.notifyAdmins task.id detail)

def requestViaPo (task : Task) (event : String) : Job Unit := do
  let addressable : Bool ← perform (.resolveRecipient task.id event)
  if addressable then perform (.publishFlat task.id event) else .ret ()

def requestResourcesViaPo (task : Task) : Job Unit := requestViaPo task "task_waiting_resources"

def requestInfrastructureWaitViaPo (task : Task) : Job Unit := requestViaPo task "task_waiting_infrastructure"

def notifyResourcesResumedViaPo (task : Task) : Job Unit := requestViaPo task "task_resources_resumed"

def Task.waitStart (task : Task) : Option Time := task.failureMetadata.bind (·.resourceWaitStartedAt)

def requestWait (task : Task) (reason : AllocationFailureReason) : Job Unit :=
  if reason = .serverNotProvisioned then requestInfrastructureWaitViaPo task else requestResourcesViaPo task

def requestNewWait (task : Task) (reason : AllocationFailureReason) (isNew : Bool) : Job Unit :=
  if isNew then bestEffort (requestWait task reason) else .ret ()

/-- `metadata.setdefault` keeps the start of a wait that has one. -/
def parkRefused (task : Task) (result : EngineeringRunResult) (reason : AllocationFailureReason) : Job Bool := do
  let now ← clock
  let start := task.waitStart.getD now
  let isNew := task.waitStart.isNone
  perform (.updateMetadata task.id
    ⟨some start, result.allocationRequiredRamMb, result.allocationMinDiskMb, some reason⟩ start isNew)
  transitionTask task.id .waitingResources (.parks start isNew)
  requestNewWait task reason isNew
  .ret true

def reviewImpossible (task : Task) (run : EngineeringRun) : Job Bool := do
  ask (.oweNotification run.id "task_impossible_capacity")
  escalateTaskToHumanReview task "allocation request exceeds every managed server's capacity"
  ask (.deliverNotification run.id)
  .ret true

def reviewUnevaluable (task : Task) : Job Bool := do
  escalateTaskToHumanReview task "placement could not be evaluated"
  .ret true

def routeRefusal (task : Task) (run : EngineeringRun) (result : EngineeringRunResult) : Job Bool :=
  match refusalRouting .engineering (attemptDisposition result.allocationFailureReason true), result.allocationFailureReason with
  | .humanReviewWithOwnerNotice, _ => reviewImpossible task run
  | .humanReviewPlatformAlert, _ => reviewUnevaluable task
  | .parkWaitingResources, some reason => parkRefused task result reason
  | _, _ => .ret false

def parkTaskWaitingResources (task : Task) : Job Bool := do
  let runs : List EngineeringRun ← ask (.listRuns task.id)
  match runs with
  | [] => .ret false
  | run :: _ => match run.result with
    | none => .ret false
    | some result => routeRefusal task run result

def returnToTodo (taskId : String) : Job Unit := do
  transitionTask taskId .backlog .none
  transitionTask taskId .todo .none

def retryFailedTask (task : Task) : Job Unit := do
  returnToTodo task.id
  perform (.updateIteration task.id (task.currentIteration + 1))

def escalateExhaustedTask (task : Task) : Job Unit := do
  bestEffort (transitionTask task.id .waitingHumanReview .none)
  bestEffort (escalateStory task.storyId)

inductive FailedOutcome where
  | retried | escalated | parked | standalone

def retryOrEscalate (task : Task) (parked : Bool) : Job FailedOutcome :=
  if parked then .ret .parked
  else if task.currentIteration < task.maxIterations then do
    retryFailedTask task
    .ret .retried
  else do
    escalateExhaustedTask task
    .ret .escalated

def superviseFailedTask (task : Task) : Job FailedOutcome :=
  match task.storyId.filter (· ≠ "") with
  | none => .ret .standalone
  | some _ => do
    let parked ← parkTaskWaitingResources task
    retryOrEscalate task parked

def superviseFailedTasks : Job (List FailedOutcome) := do
  let tasks : List Task ← perform (.getTasksByStatus .failed)
  eachTask superviseFailedTask tasks

def clearIteration (runId : String) : Job Unit := ask (.clearIteration runId)

def clearFirstIteration (iteration : Nat) : List EngineeringRun → Job Unit
  | [] => .ret ()
  | run :: rest => if run.iteration = some iteration then clearIteration run.id else clearFirstIteration iteration rest

def clearFailedRunIteration (task : Task) : Job Unit := do
  let runs : List EngineeringRun ← ask (.listRuns task.id)
  clearFirstIteration task.currentIteration runs

def resourcesAvailable (metadata : Option FailureMetadata) : Job Bool :=
  match metadata.bind (·.allocationRequiredRamMb), metadata.bind (·.allocationMinDiskMb) with
  | some requiredRamMb, some minDiskMb => ask (.resourcesAvailable requiredRamMb minDiskMb)
  | _, _ => .ret false

def Task.startedAt (task : Task) : Time := (task.waitStart.or task.updatedAt).getD task.createdAt

def expireResourceWait (task : Task) (now : Time) : Job Unit := do
  transitionTask task.id .waitingHumanReview (.expires now task.startedAt task.waitStart.isSome)
  ask (.createTaskEvent task.id)
  ask (.notifyAdmins task.id "resource wait timed out")

def releaseWaitingTask (task : Task) : Job Unit := do
  clearFailedRunIteration task
  returnToTodo task.id
  bestEffort (notifyResourcesResumedViaPo task)

inductive WaitOutcome where
  | resumed | expired | waiting

def releaseIfAvailable (task : Task) : Job WaitOutcome := do
  let available ← resourcesAvailable task.failureMetadata
  if available then do
    releaseWaitingTask task
    .ret .resumed
  else .ret .waiting

def superviseWaitingTask (timeout : Time) (task : Task) : Job WaitOutcome := do
  let now ← clock
  if task.startedAt + timeout ≤ now then do
    expireResourceWait task now
    .ret .expired
  else releaseIfAvailable task

def superviseWaitingResourceTasks (timeout : Time) : Job (List WaitOutcome) := do
  let tasks : List Task ← perform (.getTasksByStatus .waitingResources)
  eachTask (superviseWaitingTask timeout) tasks

def loopProgram (timeout : Time) : SchedulerLoop → Job Unit
  | .superviseFailedTasks => superviseFailedTasks.bind fun _ => .ret ()
  | .superviseWaitingResourceTasks => (superviseWaitingResourceTasks timeout).bind fun _ => .ret ()

def schedulerTick (timeout : Time) : Job Unit := do
  let loop : SchedulerLoop ← ask .nextLoop
  loopProgram timeout loop

def body (timeout : Time) : Party → Job Unit
  | .scheduler => schedulerTick timeout
  | .outside _ => perform .outside

end Orchestrator.Resources
