import Orchestrator.Completion.World
import Orchestrator.Python.Number

/-!
The loop that completes stories, and what an engineering job does with its worker
once it has succeeded.
-/

namespace Orchestrator.Completion

open Async Contracts Pipeline

def ask (call : ServiceCall) : Job call.Res := perform (.service call)

def exceptException {A : Type} (body handler : Job A) : Job A :=
  Prog.handle (I := completionInterface) body fun e => if e = .cancelledError then .raise e else handler

def getStoriesByStatus (status : StoryStatus) : Job (List Story) :=
  perform (.getStoriesByStatus status)

def transitionStory (storyId : String) (action : StoryAction) : Job Unit :=
  perform (.transitionStory storyId action)

def publishDeletion (command : DeleteWorkerCommand) : Job Unit :=
  perform (.publishDeletion command)

def hdel (storyId : String) : Job Unit := perform (.hdel storyId)

def cleanupCommand (storyId workerId : String) : DeleteWorkerCommand where
  requestId := "cleanup-story-" ++ storyId
  workerId := workerId
  reason := "completed"

def relieve (storyId : String) (workerId : Option String) : Job Unit :=
  match workerId.filter fun workerId => !workerId.isEmpty with
  | none => return ()
  | some workerId => do
    publishDeletion (cleanupCommand storyId workerId)
    hdel storyId

def cleanupStoryWorker (storyId : String) : Job Unit := do
  let workerId : Option String ← perform (.hget storyId)
  relieve storyId workerId

def nextStory (projectId : String) (created : List Story) : Option Story :=
  ((created.filter (·.projectId = projectId)).insertionSort (·.priority ≤ ·.priority)).head?

def triggerNextStory (projectId : String) : Job Unit := do
  match nextStory projectId (← getStoriesByStatus .created) with
  | none => return ()
  | some next => do
    let recipient : Recipient ← ask (.resolveProjectRecipient projectId "next_story_triggered" next.id)
    ask (.publishArchitect ⟨next.id, projectId, recipient.telegramChatId, false, none⟩)

def usableNodeId (nodeId : Option String) : Option String :=
  nodeId.filter fun nodeId => !nodeId.isEmpty && !Python.isdigit nodeId

def enableAutoMerge (owner repoName : String) (pr : PullRequest) : Job Bool :=
  match usableNodeId pr.nodeId with
  | some nodeId => ask (.enableAutoMerge owner repoName nodeId)
  | none => do
    let details : PullRequest ← ask (.getPullRequest owner repoName pr.number)
    match usableNodeId details.nodeId with
    | some nodeId => ask (.enableAutoMerge owner repoName nodeId)
    | none => return false

inductive Opened where
  | failed | merged | waiting

def finishOpened (story : Story) (owner repoName : String) (pr : PullRequest) : Job Opened :=
  if pr.mergedAt.isSome then do
    transitionStory story.id .prReview
    cleanupStoryWorker story.id
    return .merged
  else do
    let _ ← enableAutoMerge owner repoName pr
    return .waiting

def openPullRequest (story : Story) (owner repoName : String) : Job Opened :=
  exceptException (do
    let pr : PullRequest ← ask (.createPullRequest owner repoName ("story/" ++ story.id) story.title)
    perform (.updateStory story.id pr.number)
    finishOpened story owner repoName pr)
    (return .failed)

def concludeStory (story : Story) : Opened → Job Bool
  | .failed => return false
  | .merged => return true
  | .waiting => do
    transitionStory story.id .prReview
    cleanupStoryWorker story.id
    triggerNextStory story.projectId
    return true

def getPrimaryRepository (projectId : String) : Job (Option Repository) := ask (.getPrimaryRepository projectId)

def repositoryOf (projectId : String) : Job (Option Repository) :=
  if projectId.isEmpty then return none else getPrimaryRepository projectId

def completeStory (story : Story) : Job Bool := do
  let statuses : List TaskStatus ← ask (.getTasksByStory story.id)
  if statuses.isEmpty || !statuses.all (· = .done) then return false
  else
    match ← repositoryOf story.projectId with
    | none => return false
    | some repo => match parseOwnerRepo (repo.gitUrl.getD "") with
      | none => .raise (.exception "IndexError")
      | some (owner, repoName) => concludeStory story (← openPullRequest story owner repoName)

def completeEach : List Story → Job Nat
  | [] => return 0
  | story :: rest => do
    let counted ← completeStory story
    let completed ← completeEach rest
    return if counted then completed + 1 else completed

def completeStories : Job Nat := do
  completeEach (← getStoriesByStatus .inProgress)

structure EngineeringSuccess where
  workerId : Option String
  storyId : Option String

def keepWorker (success : EngineeringSuccess) : Job Unit :=
  match success.workerId.filter fun workerId => !workerId.isEmpty with
  | none => return ()
  | some workerId => match success.storyId.filter fun storyId => !storyId.isEmpty with
    | some storyId => exceptException (perform (.hset storyId workerId)) (return ())
    | none => exceptException (publishDeletion ⟨"delete-" ++ workerId, workerId, "completed"⟩) (return ())

def body (successes : Nat → EngineeringSuccess) : Party → Job Unit
  | .scheduler => do
    let _ ← completeStories
  | .engineering n => keepWorker (successes n)
  | .outside _ => perform .outside

end Orchestrator.Completion
