import Orchestrator.Contracts.Deploy

namespace Orchestrator.Contracts

inductive TaskStatus where
  | backlog | todo | inDev | inCi | testing | done | blocked | waitingHumanReview | waitingResources
  | failed | cancelled
deriving DecidableEq, Repr

def TaskStatus.value : TaskStatus → String
  | .backlog => "backlog"
  | .todo => "todo"
  | .inDev => "in_dev"
  | .inCi => "in_ci"
  | .testing => "testing"
  | .done => "done"
  | .blocked => "blocked"
  | .waitingHumanReview => "waiting_human_review"
  | .waitingResources => "waiting_resources"
  | .failed => "failed"
  | .cancelled => "cancelled"

def validTransitions : TaskStatus → List TaskStatus
  | .backlog => [.todo, .cancelled]
  | .todo => [.inDev, .backlog, .cancelled]
  | .inDev => [.inCi, .blocked, .waitingHumanReview, .waitingResources, .failed, .cancelled]
  | .inCi => [.inDev, .testing, .failed, .cancelled]
  | .testing => [.done, .inDev, .failed, .cancelled]
  | .blocked => [.inDev, .backlog, .cancelled]
  | .waitingHumanReview => [.inDev, .backlog, .failed, .cancelled]
  | .waitingResources => [.backlog, .waitingHumanReview, .cancelled]
  | .done => [.backlog]
  | .failed => [.backlog, .waitingResources, .waitingHumanReview, .cancelled]
  | .cancelled => []

inductive TaskType where
  | create | feature | fix | refactor
deriving DecidableEq, Repr

inductive ActionType where
  | create | feature | fix
deriving DecidableEq, Repr

inductive EngineeringStatus where
  | idle | done | gaveUp | failed
deriving DecidableEq, Repr

structure EngineeringRunResult where
  engineeringStatus : EngineeringStatus
  commitSha : Option String
  allocationFailureReason : Option AllocationFailureReason
  allocationRequiredRamMb : Option Nat
  allocationMinDiskMb : Option Nat
deriving DecidableEq

def EngineeringRunResult.of (status : EngineeringStatus) : EngineeringRunResult := ⟨status, none, none, none, none⟩

structure EngineeringMessage where
  taskId : String
  projectId : String
  initiatingRunId : String
  telegramChatId : String
  action : ActionType
  description : Option String
  skipDeploy : Bool
  planningTaskId : Option String
  storyId : Option String
  branch : Option String
deriving DecidableEq

end Orchestrator.Contracts

namespace Orchestrator.Contracts

inductive StoryStatus where
  | created | inProgress | reopened | prReview | deploying | testing | waitingHumanReview | waitingUserSecret
  | completed | failed | archived
deriving DecidableEq, Repr

def StoryStatus.value : StoryStatus → String
  | .created => "created"
  | .inProgress => "in_progress"
  | .reopened => "reopened"
  | .prReview => "pr_review"
  | .deploying => "deploying"
  | .testing => "testing"
  | .waitingHumanReview => "waiting_human_review"
  | .waitingUserSecret => "waiting_user_secret"
  | .completed => "completed"
  | .failed => "failed"
  | .archived => "archived"

def storyTransitions : StoryStatus → List StoryStatus
  | .created => [.inProgress, .failed, .archived]
  | .inProgress => [.prReview, .deploying, .waitingHumanReview, .completed, .failed, .archived]
  | .reopened => [.inProgress, .failed]
  | .prReview => [.deploying, .inProgress, .waitingHumanReview, .failed]
  | .deploying => [.testing, .completed, .inProgress, .waitingUserSecret, .waitingHumanReview, .failed]
  | .testing => [.completed, .inProgress, .waitingHumanReview, .failed]
  | .waitingHumanReview => [.inProgress, .failed]
  | .waitingUserSecret => [.deploying, .failed]
  | .completed => [.reopened, .archived]
  | .failed => [.reopened]
  | .archived => []

inductive StoryType where
  | product | technical
deriving DecidableEq, Repr

structure ArchitectMessage where
  storyId : String
  projectId : String
  telegramChatId : String
  isReopen : Bool
  userReport : Option String

end Orchestrator.Contracts
