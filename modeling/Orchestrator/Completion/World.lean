import Mathlib.Data.List.Sort
import Orchestrator.Pipeline.World

/-!
The worker a story keeps: the registry of workers by story, the stories' rows, and
the delete commands that worker-manager is sent.
-/

namespace Orchestrator.Completion

open Async Contracts Pipeline

structure Story where
  id : String
  projectId : String
  status : StoryStatus
  title : String
  priority : Int
  prNumber : Option Nat

structure PullRequest where
  number : Nat
  nodeId : Option String
  mergedAt : Option String

structure DeleteWorkerCommand where
  requestId : String
  workerId : String
  reason : String

inductive ServiceCall where
  | getTasksByStory (storyId : String)
  | getPrimaryRepository (projectId : String)
  | createPullRequest (owner repoName head title : String)
  | enableAutoMerge (owner repoName nodeId : String)
  | getPullRequest (owner repoName : String) (number : Nat)
  | resolveProjectRecipient (projectId event storyId : String)
  | publishArchitect (message : ArchitectMessage)

def ServiceCall.Res : ServiceCall → Type
  | getTasksByStory _ => List TaskStatus
  | getPrimaryRepository _ => Option Repository
  | createPullRequest .. => PullRequest
  | enableAutoMerge .. => Bool
  | getPullRequest .. => PullRequest
  | resolveProjectRecipient .. => Recipient
  | publishArchitect _ => Unit

inductive Op where
  | service (call : ServiceCall)
  | getStoriesByStatus (status : StoryStatus)
  | updateStory (storyId : String) (prNumber : Nat)
  | transitionStory (storyId : String) (action : StoryAction)
  | hget (storyId : String)
  | hset (storyId workerId : String)
  | hdel (storyId : String)
  | publishDeletion (command : DeleteWorkerCommand)
  | outside

def Op.Res : Op → Type
  | service call => call.Res
  | getStoriesByStatus _ => List Story
  | updateStory .. => Unit
  | transitionStory .. => Unit
  | hget _ => Option String
  | hset .. => Unit
  | hdel _ => Unit
  | publishDeletion _ => Unit
  | outside => Unit

abbrev completionInterface : Interface := ⟨Op, Op.Res, Exn⟩

abbrev Job (A : Type) := Prog completionInterface A

abbrev perform (op : Op) : Job (Op.Res op) := Prog.perform (I := completionInterface) op

inductive Party where
  | scheduler
  | engineering (execution : Nat)
  | outside (execution : Nat)
deriving DecidableEq

inductive Event where
  | registered (storyId workerId : String)
  | deletion (workerId : String)
deriving DecidableEq

/-- `workers` is the registry. No program reads the rest: `completing` is the story the
scheduler has taken out of progress and not yet relieved of its worker. -/
structure State where
  stories : List Story
  workers : String → Option String
  completing : Option String
  trace : List Event

namespace State

def record (s : State) (event : Event) : State := { s with trace := event :: s.trace }

def story? (s : State) (storyId : String) : Option Story := s.stories.find? (·.id = storyId)

def writeStory (s : State) (story : Story) : State :=
  { s with stories := s.stories.map fun row => if row.id = story.id then story else row }

def inProgress (s : State) (storyId : String) : Bool := (s.story? storyId).any fun story => story.status = .inProgress

def updateStory (storyId : String) (prNumber : Nat) (s : State) : Except Exn Unit × State :=
  match s.story? storyId with
  | none => (.error (.exception "HTTPStatusError"), s)
  | some story => (.ok (), s.writeStory { story with prNumber := some prNumber })

def transitionStory (storyId : String) (action : StoryAction) (s : State) : Except Exn Unit × State :=
  match s.story? storyId with
  | none => (.error (.exception "HTTPStatusError"), s)
  | some story =>
    if (storyTransitions story.status).contains action.target then
      (.ok (), { s.writeStory { story with status := action.target } with completing := some storyId })
    else (.error (.exception "HTTPStatusError"), s)

def hget (t : Party) (storyId : String) (s : State) : Except Exn (Option String) × State :=
  match s.workers storyId with
  | none => (.ok none, if t = .scheduler then { s with completing := none } else s)
  | some workerId => (.ok (some workerId), s)

def hset (storyId workerId : String) (s : State) : Except Exn Unit × State :=
  (.ok (), State.record { s with workers := Function.update s.workers storyId (some workerId) } (.registered storyId workerId))

def hdel (storyId : String) (s : State) : Except Exn Unit × State :=
  (.ok (), { s with workers := Function.update s.workers storyId none, completing := none })

end State

inductive OutsideChange where
  | writeStory (story : Story)
  | addStory (story : Story)
  | deleteWorker (workerId : String)

def OutsideChange.apply (change : OutsideChange) (s : State) : State :=
  match change with
  | .writeStory story => s.writeStory story
  | .addStory story => { s with stories := s.stories ++ [story] }
  | .deleteWorker workerId => s.record (.deletion workerId)

structure Reply where
  fate : Fate Exn
  service : (call : ServiceCall) → Except Exn call.Res
  change : OutsideChange

def run (t : Party) (op : Op) (reply : Reply) (s : State) : Except Exn (Op.Res op) × State :=
  match op with
  | .service call => (reply.service call, s)
  | .getStoriesByStatus status => reply.fate.serve (fun s => (.ok (s.stories.filter (·.status = status)), s)) s
  | .updateStory storyId prNumber => reply.fate.serve (State.updateStory storyId prNumber) s
  | .transitionStory storyId action => reply.fate.serve (State.transitionStory storyId action) s
  | .hget storyId => reply.fate.serve (State.hget t storyId) s
  | .hset storyId workerId => reply.fate.serve (State.hset storyId workerId) s
  | .hdel storyId => reply.fate.serve (State.hdel storyId) s
  | .publishDeletion command => reply.fate.serve (fun s => (.ok (), s.record (.deletion command.workerId))) s
  | .outside => (.ok (), reply.change.apply s)

def ended (t : Party) (_ : Option (Except Exn Unit)) (s : State) : State :=
  if t = .scheduler then { s with completing := none } else s

abbrev completionWorld : World completionInterface Party Unit := ⟨State, fun _ => Reply, run, ended⟩

end Orchestrator.Completion
