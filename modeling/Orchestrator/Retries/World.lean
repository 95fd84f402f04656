import Orchestrator.Async.Histories
import Orchestrator.Async.Interference
import Orchestrator.Contracts.Work

/-!
The retries of a story's deploy: the supervision of deploying stories, with the counter it
keeps for each story.
-/

namespace Orchestrator.Retries

open Async Contracts

inductive Exn where
  | exception
  | validationError
  | cancelledError

structure Story where
  id : String
  projectId : String
  status : StoryStatus

structure DeployRun where
  id : String
  storyId : String
  status : RunStatus
  outcome : Option DeployOutcome
  headSha : Option String
deriving DecidableEq

def DeployRun.commit (run : DeployRun) : Option String := run.headSha.filter (· ≠ "")

inductive ServiceCall where
  | resolveProjectRecipient (projectId event : String)
  | notifyAdmins (runId detail : String)
  | newRunId
  | handleSuccess (storyId runId : String)
  | handleCodeFix (storyId runId : String)
  | routeRefused (storyId runId : String)
  | waitUserSecret (storyId runId : String)
  | giveUp (storyId runId : String)
  | failOnInvalidResult (storyId : String)

def ServiceCall.Res : ServiceCall → Type
  | newRunId => String
  | handleSuccess .. | handleCodeFix .. => Bool
  | _ => Unit

inductive Failure where
  | headShaMissing | retriesExhausted
deriving DecidableEq

inductive Op where
  | service (call : ServiceCall)
  | getStoriesByStatus (status : StoryStatus)
  | getLatestRunByStory (storyId : String)
  | incr (storyId : String)
  | expire (storyId : String)
  | delete (storyId : String)
  | createRun (run : DeployRun)
  | publishMessage (storyId runId headSha : String)
  | failStory (storyId : String) (failure : Failure)
  | outside

def Op.Res : Op → Type
  | service call => call.Res
  | getStoriesByStatus _ => List Story
  | getLatestRunByStory _ => Option DeployRun
  | incr _ => Nat
  | _ => Unit

abbrev retryInterface : Interface := ⟨Op, Op.Res, Exn⟩

abbrev Job (A : Type) := Prog retryInterface A

inductive Party where
  | scheduler
  | outside (execution : Nat)
deriving DecidableEq

inductive Event where
  | begun (storyId : String) (left : Nat)
  | forgotten (storyId : String) (left : Nat)
  | read (storyId : String) (run : Option DeployRun)
  | counted (storyId : String) (attempts : Nat)
  | redispatched (storyId headSha : String)
  | failed (storyId : String) (failure : Failure)
  | ended (returned : Bool)
deriving DecidableEq

structure State where
  stories : List Story
  runs : List DeployRun
  retries : String → Option Nat
  trace : List Event

namespace State

def record (s : State) (event : Event) : State := { s with trace := event :: s.trace }

def latestRun (s : State) (storyId : String) : Option DeployRun := s.runs.find? (·.storyId = storyId)

def getLatestRunByStory (storyId : String) (fate : Fate Exn) (s : State) : Except Exn (Option DeployRun) × State :=
  match fate with
  | .served => (.ok (s.latestRun storyId), s.record (.read storyId (s.latestRun storyId)))
  | .unheard e | .unsent e => (.error e, s)

def attempts (s : State) (storyId : String) : Nat := (s.retries storyId).getD 0

def incr (storyId : String) (s : State) : Except Exn Nat × State :=
  (.ok (s.attempts storyId + 1), { s with retries := Function.update s.retries storyId (some (s.attempts storyId + 1)) }.record
    (.counted storyId (s.attempts storyId + 1)))

def forget (s : State) (storyId : String) : State :=
  { s with retries := Function.update s.retries storyId none }.record (.forgotten storyId (s.attempts storyId))

def delete (storyId : String) (s : State) : Except Exn Unit × State := (.ok (), s.forget storyId)

def createRun (run : DeployRun) (s : State) : Except Exn Unit × State :=
  if s.runs.any (·.id = run.id) then (.error .exception, s) else (.ok (), { s with runs := run :: s.runs })

def failStory (storyId : String) (failure : Failure) (s : State) : Except Exn Unit × State :=
  match s.stories.find? (·.id = storyId) with
  | none => (.error .exception, s)
  | some story =>
    if (storyTransitions story.status).contains .failed then
      (.ok (), { s with stories := s.stories.map fun row : Story => if row.id = storyId then { row with status := .failed } else row }.record
        (.failed storyId failure))
    else (.error .exception, s)

end State

inductive OutsideChange where
  | writeRuns (runs : List DeployRun)
  | writeStories (stories : List Story)
  | expired (storyId : String)
  | dispatch (run : DeployRun)

def OutsideChange.apply (s : State) : OutsideChange → State
  | .writeRuns runs => { s with runs := runs }
  | .writeStories stories => { s with stories := stories }
  | .expired storyId => s.forget storyId
  | .dispatch run => { s with runs := run :: s.runs }.record (.begun run.storyId (s.attempts run.storyId))

structure Reply where
  fate : Fate Exn
  service : (call : ServiceCall) → Except Exn call.Res
  change : OutsideChange

def run (_ : Party) (op : Op) (reply : Reply) (s : State) : Except Exn (Op.Res op) × State :=
  match op with
  | .service call => (reply.service call, s)
  | .getStoriesByStatus status => reply.fate.serve (fun s => (.ok (s.stories.filter (·.status = status)), s)) s
  | .getLatestRunByStory storyId => State.getLatestRunByStory storyId reply.fate s
  | .incr storyId => reply.fate.serve (State.incr storyId) s
  | .expire _ => reply.fate.serve (fun s => (.ok (), s)) s
  | .delete storyId => reply.fate.serve (State.delete storyId) s
  | .createRun run => reply.fate.serve (State.createRun run) s
  | .publishMessage storyId _ headSha => reply.fate.serve (fun s => (.ok (), s.record (.redispatched storyId headSha))) s
  | .failStory storyId failure => reply.fate.serve (State.failStory storyId failure) s
  | .outside => (.ok (), reply.change.apply s)

def returned : Option (Except Exn Unit) → Bool
  | some (.ok _) => true
  | _ => false

def ended (t : Party) (outcome : Option (Except Exn Unit)) (s : State) : State :=
  match t with
  | .scheduler => s.record (.ended (returned outcome))
  | .outside _ => s

abbrev retryWorld : World retryInterface Party Unit := ⟨State, fun _ => Reply, run, ended⟩

def perform (op : Op) : Job op.Res := Prog.perform (I := retryInterface) op

def ask (call : ServiceCall) : Job call.Res := perform (.service call)

def notifyAdmins (runId detail : String) : Job Unit := ask (.notifyAdmins runId detail)

def failWithoutHeadSha (storyId runId : String) : Job Bool := do
  perform (.failStory storyId .headShaMissing)
  notifyAdmins runId "deploy retry could not find original head_sha"
  .ret false

def failExhausted (storyId runId : String) (attempts : Nat) : Job Bool := do
  perform (.failStory storyId .retriesExhausted)
  perform (.delete storyId)
  notifyAdmins runId s!"deploy retries exhausted ({attempts})"
  .ret false

def redispatch (storyId projectId headSha : String) : Job Bool := do
  let newRunId ← ask .newRunId
  perform (.createRun ⟨newRunId, storyId, .queued, none, some headSha⟩)
  ask (.resolveProjectRecipient projectId "deploy_retry")
  perform (.publishMessage storyId newRunId headSha)
  .ret true

def retryWithin (maxRetries : Nat) (storyId projectId runId headSha : String) (attempts : Nat) : Job Bool :=
  if maxRetries ≤ attempts then failExhausted storyId runId attempts else redispatch storyId projectId headSha

def countRetry (storyId : String) : Job Nat := perform (.incr storyId)

def handleDeployRetry (maxRetries : Nat) (storyId projectId : String) (run : DeployRun) : Job Bool :=
  match run.commit with
  | none => failWithoutHeadSha storyId run.id
  | some headSha => do
    let attempts ← countRetry storyId
    perform (.expire storyId)
    retryWithin maxRetries storyId projectId run.id headSha attempts

inductive Routed where
  | tested | retried | redispatched | waiting | refused | failed | skipped

def routeOutcome (maxRetries : Nat) (story : Story) (run : DeployRun) : DeployOutcome → Job Routed
  | .success => (ask (.handleSuccess story.id run.id)).bind fun handedOff => .ret (bif handedOff then .tested else .failed)
  | .codeFix | .smokeFailure =>
    (ask (.handleCodeFix story.id run.id)).bind fun dispatched => .ret (bif dispatched then .redispatched else .failed)
  | .retry | .cancelled =>
    (handleDeployRetry maxRetries story.id story.projectId run).bind fun retried => .ret (bif retried then .retried else .failed)
  | .waitingInfrastructure => (ask (.routeRefused story.id run.id)).bind fun _ => .ret .refused
  | .waitingForUserSecret => (ask (.waitUserSecret story.id run.id)).bind fun _ => .ret .waiting
  | .giveUp | .allocationMissing | .environmentContractInvalid | .environmentResolutionFailed | .headShaMissing =>
    (ask (.giveUp story.id run.id)).bind fun _ => .ret .failed

def routeRun (maxRetries : Nat) (story : Story) : Option DeployRun → Job Routed
  | none => .ret .skipped
  | some run => match run.status.terminal, run.outcome with
    | true, some outcome => routeOutcome maxRetries story run outcome
    | _, _ => .ret .skipped

def getLatestRunByStory (storyId : String) : Job (Option DeployRun) := perform (.getLatestRunByStory storyId)

def routeLatest (maxRetries : Nat) (story : Story) : Except Exn (Option DeployRun) → Job Routed
  | .ok run => routeRun maxRetries story run
  | .error .validationError => (ask (.failOnInvalidResult story.id)).bind fun _ => .ret .failed
  | .error e => .raise e

def superviseDeployingStory (maxRetries : Nat) (story : Story) : Job Routed := do
  let latest ← (getLatestRunByStory story.id).attempt
  routeLatest maxRetries story latest

def eachStory (body : Story → Job Routed) : List Story → Job (List Routed)
  | [] => .ret []
  | story :: rest => do
    let routed ← body story
    let others ← eachStory body rest
    .ret (routed :: others)

def superviseDeployingStories (maxRetries : Nat) : Job (List Routed) := do
  let stories : List Story ← perform (.getStoriesByStatus .deploying)
  eachStory (superviseDeployingStory maxRetries) stories

def body (maxRetries : Nat) : Party → Job Unit
  | .scheduler => (superviseDeployingStories maxRetries).bind fun _ => .ret ()
  | .outside _ => perform .outside

end Orchestrator.Retries
