import Orchestrator.Async.Histories
import Orchestrator.Deploy.World

/-!
Jobs with a live teardown lease: each job's execution, its watchdog, and what happens to them
from outside, over the keys of their projects in Redis.
-/

namespace Orchestrator.LiveWork

open Async
open Deploy (Exn)

inductive Reason where
  | teardown | leaseLost | watchdogFailed | shutdown
deriving DecidableEq

inductive Party where
  | job (execution : Nat) (project : Option String)
  | watchdog (execution : Nat) (project : String)
  | outside (n : Nat)
deriving DecidableEq

inductive Key where
  | cancelled (project : String)
  | failed (project : String)

/-- Where a call stands: in the `try` block around a job or in one of its handlers, in the
watchdog, in the wait for a workflow run or in the handler of that wait, or elsewhere. -/
inductive Site where
  | plain | body | handler | watchdog | wait | confirm
deriving DecidableEq

structure JobResult where
  settledKey : Option Bool
  status : Option String
  deploymentStatus : Option String
  errors : Bool

structure WorkflowInfo where
  id : Nat
  completed : Bool
  conclusion : Option String
  htmlUrl : String
  headSha : Option String

inductive GithubCall where
  | getToken
  | getLatestWorkflowRun
  | getWorkflowRun (runId : Nat)
  | cancelWorkflowRun (runId : Nat)
  | getFailureLogs (runId : Nat)
  | cancelCheck
  | sleep (seconds : Nat)

def GithubCall.Res : GithubCall → Type
  | getLatestWorkflowRun => Option WorkflowInfo
  | getWorkflowRun _ => WorkflowInfo
  | getFailureLogs _ => String
  | cancelCheck => Bool
  | _ => Unit

inductive Op where
  | process
  | deploy (op : Deploy.Op)
  | github (call : GithubCall) (site : Site)
  | utcnow
  | beginLiveWork (project : String)
  | createWatch
  | keyExists (key : Key) (site : Site)
  | setFailure (project reason : String) (site : Site)
  | ack (site : Site)
  | stopWatch
  | zrem (project : String)
  | sleep
  | refreshLease (project : String)
  | cancelOwner (reason : Reason)
  | outside

def Op.Res : Op → Type
  | process => JobResult
  | deploy op => op.Res
  | github call _ => call.Res
  | utcnow => Int
  | beginLiveWork _ => Bool
  | keyExists _ _ => Bool
  | refreshLease _ => Bool
  | _ => Unit

abbrev liveInterface : Interface := ⟨Op, Op.Res, Exn⟩

abbrev Job (A : Type) := Prog liveInterface A

/-- `finished` tells whether the project was being torn down when the job ended, and whether
its failure key was set. -/
inductive Event where
  | fenced
  | began
  | returned (settled : Bool)
  | cleared
  | unproven
  | cancelled (reasons : List Reason)
  | dispatched (runId : Nat)
  | terminal (runId : Nat)
  | acked
  | finished (teardown fence : Bool)
deriving DecidableEq

abbrev Log := List Event

/-- No program reads the last three: the jobs that have set the failure key, the jobs whose
handler has failed to see or to leave a key, and each job's history, the latest event first. -/
structure State where
  cancelKeys : String → Bool
  failureKeys : String → Option String
  leases : List (String × Party)
  requested : Party → List Reason
  watched : Party → Bool
  ceased : Party → Bool
  marked : List Party
  exposed : List Party
  logs : Party → Log

def Party.project : Party → Option String
  | job _ project => project
  | watchdog _ project => some project
  | outside _ => none

namespace State

def empty : State := ⟨fun _ => false, fun _ => none, [], fun _ => [], fun _ => false, fun _ => false, [], [], fun _ => []⟩

def record (t : Party) (events : List Event) (s : State) : State :=
  { s with logs := Function.update s.logs t (events ++ s.logs t) }

@[simp] theorem record_logs (t : Party) (events : List Event) (s : State) : (s.record t events).logs t = events ++ s.logs t :=
  Function.update_self _ _ _

def isSet (s : State) : Key → Bool
  | .cancelled project => s.cancelKeys project
  | .failed project => (s.failureKeys project).isSome

def tornDown (t : Party) (s : State) : Bool := (t.project.map s.cancelKeys).getD false

def fenceSet (t : Party) (s : State) : Bool := (t.project.bind s.failureKeys).isSome

def register (t : Party) (project : String) (s : State) : State :=
  if s.cancelKeys project then s else { s with leases := (project, t) :: s.leases }

def beginLiveWork (t : Party) (project : String) (s : State) : Except Exn Bool × State :=
  (.ok !s.cancelKeys project, (s.register t project).record t [if s.cancelKeys project then .fenced else .began])

def exist (t : Party) (key : Key) (site : Site) (s : State) : Except Exn Bool × State :=
  (.ok (s.isSet key), if site = .body && !s.isSet key then s.record t [.cleared] else s)

def setFailure (t : Party) (project reason : String) (s : State) : Except Exn Unit × State :=
  (.ok (), { s with failureKeys := Function.update s.failureKeys project (some reason), marked := t :: s.marked })

def ack (t : Party) (s : State) : Except Exn Unit × State := (.ok (), s.record t [.acked])

def refreshLease (t : Party) (project : String) (s : State) : Except Exn Bool × State :=
  (.ok (s.leases.contains (project, t)), s)

def request (t : Party) (reason : Reason) (s : State) : State :=
  { s with requested := Function.update s.requested t (reason :: s.requested t) }

end State

def Party.owner : Party → Party
  | watchdog execution project => job execution (some project)
  | t => t

/-- What happens from outside: a project is fenced, or a key or a lease runs out, or a job's
task is cancelled because its service shuts down. -/
inductive Change where
  | fence (project : String)
  | unfence (project : String)
  | clearFailure (project : String)
  | dropLease (project : String) (t : Party)
  | shutdown (t : Party)

def Change.apply (change : Change) (s : State) : State :=
  match change with
  | .fence project => { s with cancelKeys := Function.update s.cancelKeys project true }
  | .unfence project => { s with cancelKeys := Function.update s.cancelKeys project false }
  | .clearFailure project => { s with failureKeys := Function.update s.failureKeys project none }
  | .dropLease project t => { s with leases := s.leases.filter (· ≠ (project, t)) }
  | .shutdown t => s.request t .shutdown

structure Reply where
  fate : Fate Exn
  result : JobResult
  deploy : (op : Deploy.Op) → op.Res
  startedRun : Nat
  found : Option WorkflowInfo
  info : WorkflowInfo
  failureLogs : String
  flag : Bool
  now : Int
  change : Change

def GithubCall.value : (call : GithubCall) → Reply → call.Res
  | getToken, _ => ()
  | getLatestWorkflowRun, reply => reply.found
  | getWorkflowRun _, reply => reply.info
  | cancelWorkflowRun _, _ => ()
  | getFailureLogs _, reply => reply.failureLogs
  | cancelCheck, reply => reply.flag
  | sleep _, _ => ()

def WorkflowInfo.seen (info : WorkflowInfo) : List Event := if info.completed then [.terminal info.id] else []

def GithubCall.seen : GithubCall → Reply → List Event
  | getLatestWorkflowRun, reply => (reply.found.map (·.seen)).getD []
  | getWorkflowRun runId, reply => if reply.info.completed then [.terminal runId] else []
  | _, _ => []

def startedBy (op : Deploy.Op) (reply : Reply) : List Event :=
  match op with
  | .triggerWorkflowDispatch _ _ => [.dispatched reply.startedRun]
  | .rerunFailedJobs _ workflowRunId _ => [.dispatched workflowRunId]
  | _ => []

def JobResult.settled (result : JobResult) : Bool := result.settledKey.getD false

def answer {A : Type} (fate : Fate Exn) (served : Except Exn A × State) (s : State) : Except Exn A × State :=
  match fate with
  | .served => served
  | .unheard e => (.error e, s)
  | .unsent e => (.error e, s)

def process (t : Party) (reply : Reply) (s : State) : Except Exn JobResult × State :=
  answer reply.fate (.ok reply.result, s.record t [.returned reply.result.settled]) s

def github (t : Party) (call : GithubCall) (reply : Reply) (s : State) : Except Exn call.Res × State :=
  answer reply.fate (.ok (call.value reply), s.record t (call.seen reply)) s

def serve (t : Party) (op : Op) (reply : Reply) (s : State) : Except Exn op.Res × State :=
  match op with
  | .process => process t reply s
  | .deploy op => reply.fate.serve (fun s => (.ok (reply.deploy op), s.record t (startedBy op reply))) s
  | .github call _ => github t call reply s
  | .utcnow => (.ok reply.now, s)
  | .beginLiveWork project => match reply.fate with
    | .served => State.beginLiveWork t project s
    | .unheard e => (.error e, s.register t project)
    | .unsent e => (.error e, s)
  | .createWatch => (.ok (), { s with watched := Function.update s.watched t true })
  | .keyExists key site => answer reply.fate (State.exist t key site s) s
  | .setFailure project reason _ => reply.fate.serve (State.setFailure t project reason) s
  | .ack _ => reply.fate.serve (State.ack t) s
  | .stopWatch => reply.fate.serve (fun s => (.ok (), { s with watched := Function.update s.watched t false })) s
  | .zrem project => reply.fate.serve (fun s => (.ok (), { s with leases := s.leases.filter (· ≠ (project, t)) })) s
  | .sleep => reply.fate.serve (fun s => (.ok (), s)) s
  | .refreshLease project => reply.fate.serve (State.refreshLease t.owner project) s
  | .cancelOwner reason => (.ok (), s.request t.owner reason)
  | .outside => (.ok (), reply.change.apply s)

def Op.inBody : Op → Bool
  | process => true
  | deploy _ => true
  | github _ _ => true
  | keyExists _ site => site = .body
  | setFailure _ _ site => site = .body
  | ack site => site = .body
  | _ => false

def isCancelled {A : Type} : Except Exn A → Bool
  | .error .cancelledError => true
  | _ => false

/-- What the outcome of a call adds to it: a cancellation has come through, or a workflow run
could not be proven stopped. -/
def raisedBy {A : Type} (op : Op) (reasons : List Reason) : Except Exn A → List Event
  | .error .cancelledError => if op.inBody then [.cancelled reasons] else []
  | .error (.workflowCancellationUnproven _) => if op.inBody then [.unproven] else []
  | _ => []

/-- A call of a handler has not settled the job: it has not seen the cancel key, not left the
failure key, or not come back from the acknowledgement. -/
def Op.missed : (op : Op) → Except Exn op.Res → Bool
  | keyExists (.cancelled _) .handler, r => match r with
    | .ok answer => !answer
    | .error _ => true
  | setFailure _ _ .handler, r => match r with
    | .ok _ => false
    | .error _ => true
  | ack .handler, r => isCancelled r
  | _, _ => false

def State.deliver {A : Type} (t : Party) (r : Except Exn A) (s : State) : State :=
  if isCancelled r then { s with requested := Function.update s.requested t [] } else s

def State.expose (t : Party) (missed : Bool) (s : State) : State :=
  if missed then { s with exposed := t :: s.exposed } else s

def run (t : Party) (op : Op) (reply : Reply) (s : State) : Except Exn op.Res × State :=
  ((serve t op reply s).1,
    (((serve t op reply s).2.record t (raisedBy op (s.requested t) (serve t op reply s).1)).deliver t (serve t op reply s).1).expose t
      (op.missed (serve t op reply s).1))

def ended (t : Party) (outcome : Option (Except Exn Unit)) (s : State) : State :=
  match outcome with
  | none => { s with ceased := Function.update s.ceased t true }
  | some _ => { s.record t [.finished (s.tornDown t) (s.fenceSet t)] with ceased := Function.update s.ceased t true }

abbrev liveWorld : World liveInterface Party Unit := ⟨State, fun _ => Reply, run, ended⟩

/-- An execution is not started twice, and a watchdog only by its job; a job's task is cancelled
only where someone has asked for it. -/
def legit (s : State) : Move liveWorld → Prop
  | .start t => s.ceased t = false ∧ (t.owner ≠ t → s.watched t.owner = true)
  | .call t op reply => t.owner = t → isCancelled (run t op reply s).1 = true → s.requested t ≠ []
  | .stop _ => True

end Orchestrator.LiveWork
