import Orchestrator.Tasks.World

namespace Orchestrator.Tasks

open Async Api Contracts

def ask (call : ServiceCall) : Job call.Res := perform (.service call)

def truthy (text : Option String) : Option String := text.filter fun text => !text.isEmpty

def liftExcept {A : Type} (result : Except Exn A) : Job A := Prog.ofExcept (I := taskInterface) result

def exceptException {A : Type} (body : Job A) (handler : Job A) : Job A :=
  Prog.handle (I := taskInterface) body fun e => match e with
    | .cancelledError => .raise e
    | .exception _ => handler

def transitionTask (taskId : String) (toStatus : TaskStatus) (account : Option String) : Job Unit :=
  perform (.transitionTask taskId toStatus account)

def updateRun (runId : String) (update : RunUpdate EngineeringRunResult) : Job Unit :=
  perform (.updateRun runId update)

def runDTO (run : EngineeringRun) : Except Exn RunStatus :=
  match run.status with
  | .other _ => .error (.exception "not a run")
  | .member status =>
    if run.result.isNone && (status == .completed || status == .failed) then
      .error (.exception ("run.result is required when status is " ++ status.value))
    else .ok status

structure RunDTO where
  id : String
  status : RunStatus
  result : Option EngineeringRunResult
  metadata : Metadata

def readRuns : List (String × EngineeringRun) → Except Exn (List RunDTO)
  | [] => .ok []
  | (id, run) :: rest => do
    let status ← runDTO run
    let others ← readRuns rest
    .ok (⟨id, status, run.result, run.metadata⟩ :: others)

def fetchRuns (taskId : String) : Job (List (String × EngineeringRun)) :=
  perform (.listRuns taskId)

def listRuns (taskId : String) : Job (List RunDTO) := do
  liftExcept (readRuns (← fetchRuns taskId))

def liveEngineeringStatuses : List RunStatus := [.queued, .running]

def RunDTO.live (run : RunDTO) : Bool := liveEngineeringStatuses.contains run.status

def selectLiveEngineeringRun (taskId : String) : Job (Option RunDTO) := do
  return (← listRuns taskId).find? (·.live)

-- the runs come newest first, so the newest terminal one is the first of them
def selectTerminalEngineeringRun (taskId : String) : Job (Option RunDTO) := do
  return (← listRuns taskId).find? (!·.live)

def terminalTaskStatuses (run : RunDTO) : List TaskStatus :=
  if run.status = .completed then [.inCi, .testing, .done]
  else if run.status = .failed && run.result.any (·.engineeringStatus = .gaveUp) then [.waitingHumanReview]
  else [.failed]

def transitionThrough (taskId : String) (account : Option String) (steps : List TaskStatus) : Job Unit :=
  Prog.forEach steps fun status => transitionTask taskId status account

def replayTerminalAttempt (taskId : String) (run : RunDTO) : Job Unit :=
  transitionThrough taskId (some run.id) (terminalTaskStatuses run)

def outcomePatch (status : RunStatus) (error : Option String) (result : EngineeringRunResult) :
    RunUpdate EngineeringRunResult :=
  { RunUpdate.empty with
    status := some (some (.member status))
    errorMessage := error.map some
    result := some (some result) }

def failRemovedAttempt (taskId : String) (run : RunDTO) : Job Unit := do
  updateRun run.id { outcomePatch .failed (some "engineering worker was removed after its turn timed out")
    (.of .failed) with
    runMetadata := some (some fun key => if key = "stop_reason" then some (.other "turn_deadline_exceeded") else none) }
  transitionTask taskId .failed (some run.id)

inductive StuckOutcome where
  | working | timedOut | stopping | left
deriving DecidableEq

def superviseStuckTask (task : Task) : Job StuckOutcome := do
  match ← selectLiveEngineeringRun task.id with
  | none =>
    match ← selectTerminalEngineeringRun task.id with
    | none => return .left
    | some terminalRun =>
      replayTerminalAttempt task.id terminalRun
      return .left
  | some run =>
    let (state, workerId) ← ask (.attemptState run.id)
    match state with
    | .running => return .working
    | .idle => return .left
    | .unknown => return .left
    | .removed =>
      failRemovedAttempt task.id run
      return .timedOut
    | .dead =>
      ask (.stopStuckAttempt run.id)
      return .stopping
    | .timedOut =>
      if workerId.isNone then
        failRemovedAttempt task.id run
        return .timedOut
      else
        ask (.stopStuckAttempt run.id)
        return .stopping

def getTasksByStatus (status : TaskStatus) : Job (List Task) :=
  perform (.getTasksByStatus status)

def eachTask {A : Type} (body : Task → Job A) : List Task → Job (List A)
  | [] => return []
  | task :: rest => do
    let outcome ← body task
    let others ← eachTask body rest
    return outcome :: others

structure StuckCounts where
  timedOut : Nat
  working : Nat
  stopping : Nat

def superviseStuckTasks : Job StuckCounts := do
  let outcomes ← eachTask superviseStuckTask (← getTasksByStatus .inDev)
  return ⟨outcomes.count .timedOut, outcomes.count .working, outcomes.count .stopping⟩

end Orchestrator.Tasks
