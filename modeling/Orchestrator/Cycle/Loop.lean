import Orchestrator.Cycle.Stories

/-!
The loop of the task dispatcher: cycles of phases, one exception handler around
each cycle. A failure that no handling of an item catches ends the cycle, and
with it the turn of every later item and phase.
-/

namespace Orchestrator.Cycle

open Async Contracts

def perform (op : Op) : Job op.Res := Prog.perform (I := cycleInterface) op

def Handling.at {A : Type} (handling : Handling A) (site : Site) : Job A :=
  handling.1.relabel (I := itemInterface) (J := cycleInterface) (Op.item site) (fun _ r => r) id

def forItems (phase : Phase) (handling : phase.Item → Handling Unit) (items : List phase.Item) : Job Unit :=
  Prog.forEach items fun item => (handling item).at ⟨phase, phase.itemId item⟩

def eachItem (phase : Phase) (handling : phase.Item → Handling Unit) : Job Unit := do
  let items : List phase.Item ← perform (.list phase)
  forItems phase handling items

def triggerScaffolds : Job Unit := eachItem .triggerScaffolds triggerScaffold

def dispatchTodoTasks : Job Unit := eachItem .dispatchTodoTasks dispatchTask

def completeStories : Job Unit := eachItem .completeStories completeStory

def pollMergedPrs : Job Unit := eachItem .pollMergedPrs pollMergedPr

def pollCiFailures (config : Config) : Job Unit := eachItem .pollCiFailures (pollCiFailure config)

def superviseStuckStories (config : Config) : Job Unit := do
  let stories : List Story ← perform (.list .superviseStuckStories)
  let active : List Story ← perform .storiesInProgress
  forItems .superviseStuckStories (superviseStuckStory config active) stories

def superviseStuckTasks : Job Unit := eachItem .superviseStuckTasks superviseStuckTask

def superviseFailedTasks (config : Config) : Job Unit := eachItem .superviseFailedTasks (superviseFailedTask config)

def superviseWaitingResourceTasks (config : Config) : Job Unit :=
  eachItem .superviseWaitingResourceTasks (superviseWaitingTask config)

def superviseDeployingStories (config : Config) : Job Unit :=
  eachItem .superviseDeployingStories (superviseDeployingStory config)

def superviseWaitingUserSecretStories : Job Unit :=
  eachItem .superviseWaitingUserSecretStories superviseWaitingUserSecretStory

def superviseOwedOwnerNotifications : Job Unit := eachItem .superviseOwedOwnerNotifications superviseOwedNotification

def superviseTestingStories (config : Config) : Job Unit :=
  eachItem .superviseTestingStories (superviseTestingStory config)

def superviseTemporaryAccess (config : Config) : Job Unit := eachItem .superviseTemporaryAccess (superviseGrant config)

/-- One cycle. Messages that are still owed are sent before the routing that owes
new ones, and stories are routed before the access sweep. -/
def dispatcherCycle (config : Config) : Job Unit := do
  triggerScaffolds
  dispatchTodoTasks
  completeStories
  pollMergedPrs
  pollCiFailures config
  superviseStuckStories config
  superviseStuckTasks
  superviseFailedTasks config
  superviseWaitingResourceTasks config
  superviseDeployingStories config
  superviseWaitingUserSecretStories
  superviseOwedOwnerNotifications
  superviseTestingStories config
  superviseTemporaryAccess config

/-- `while True`, for so many cycles; `config` counts those that are left. -/
def taskDispatcherLoop (config : Nat → Config) : Nat → Job Unit
  | 0 => .ret ()
  | n + 1 => ((dispatcherCycle (config n)).handle fun _ => .ret ()).bind fun _ =>
      .call .sleep fun _ => taskDispatcherLoop config n

def phaseHandling (config : Config) (active : List Story) : (phase : Phase) → phase.Item → Handling Unit
  | .triggerScaffolds => triggerScaffold
  | .dispatchTodoTasks => dispatchTask
  | .completeStories => completeStory
  | .pollMergedPrs => pollMergedPr
  | .pollCiFailures => pollCiFailure config
  | .superviseStuckStories => superviseStuckStory config active
  | .superviseStuckTasks => superviseStuckTask
  | .superviseFailedTasks => superviseFailedTask config
  | .superviseWaitingResourceTasks => superviseWaitingTask config
  | .superviseDeployingStories => superviseDeployingStory config
  | .superviseWaitingUserSecretStories => superviseWaitingUserSecretStory
  | .superviseOwedOwnerNotifications => superviseOwedNotification
  | .superviseTestingStories => superviseTestingStory config
  | .superviseTemporaryAccess => superviseGrant config

def phaseProgram (config : Config) : Phase → Job Unit
  | .superviseStuckStories => superviseStuckStories config
  | phase => eachItem phase (phaseHandling config [] phase)

def earlierPhases : List Phase :=
  [.triggerScaffolds, .dispatchTodoTasks, .completeStories, .pollMergedPrs, .pollCiFailures, .superviseStuckStories,
    .superviseStuckTasks, .superviseFailedTasks, .superviseWaitingResourceTasks, .superviseDeployingStories,
    .superviseWaitingUserSecretStories, .superviseOwedOwnerNotifications, .superviseTestingStories]

theorem dispatcherCycle_eq (config : Config) :
    dispatcherCycle config =
      (Prog.forEach earlierPhases (phaseProgram config)).bind fun _ => superviseTemporaryAccess config := by
  simp only [earlierPhases, Prog.forEach, Prog.bind_assoc, Prog.bind_ret]
  rfl

end Orchestrator.Cycle
