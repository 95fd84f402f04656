import Orchestrator.Async.Interference

/-!
The runs of one GitHub Actions workflow, which GitHub and others change at any time,
and a client that lists and stops them.
-/

namespace Orchestrator.Github

open Async

inductive WorkflowRunStatus where
  | queued | inProgress | requested | waiting | pending | completed
deriving DecidableEq

def WorkflowRunStatus.value : WorkflowRunStatus → String
  | queued => "queued"
  | inProgress => "in_progress"
  | requested => "requested"
  | waiting => "waiting"
  | pending => "pending"
  | completed => "completed"

structure WorkflowRun where
  id : Nat
  status : WorkflowRunStatus
  conclusion : Option String
  headSha : Option String

inductive Exn where
  | httpStatusError (statusCode : Nat)
  | workflowNotFoundError (message : String)
  | workflowRunListingIncompleteError (message : String)
  | workflowCancellationUnprovenError (message : String)
  | timeoutError (message : String)
  | exception (type : String)
  | cancelledError

inductive Op where
  | getToken
  | listRuns (status : WorkflowRunStatus) (page : Nat)
  | cancelRun (runId : Nat)
  | getRun (runId : Nat)
  | now
  | sleep (seconds : Nat)
  | outside

def Op.Res : Op → Type
  | getToken => Unit
  | listRuns _ _ => List WorkflowRun
  | cancelRun _ => Unit
  | getRun _ => WorkflowRun
  | now => Int
  | sleep _ => Unit
  | outside => Unit

abbrev githubInterface : Interface := ⟨Op, Op.Res, Exn⟩

abbrev Job (A : Type) := Prog githubInterface A

abbrev perform (op : Op) : Job (Op.Res op) := Prog.perform (I := githubInterface) op

def unfinishedWorkflowRunStatuses : List WorkflowRunStatus := [.queued, .inProgress, .requested, .waiting, .pending]

def runsPageSize : Nat := 100

def maxRunsPages : Nat := 20

/-- How far a listing has come: the runs that have been unfinished ever since it began, those
on the pages it was answered, the statuses whose last page it has not had, and how many pages
of the first of these it has had. -/
structure Listing where
  standing : List Nat
  seen : List Nat
  toAsk : List WorkflowRunStatus
  pages : Nat

inductive Result where
  | listed (ids : List Nat)
  | fenced (ids : List Nat)
  | nothing
deriving DecidableEq

structure Return where
  result : Result
  standing : List Nat
  observed : List Nat

structure State where
  runs : List WorkflowRun
  listing : Option Listing
  observed : List Nat
  returned : List Return

namespace State

def runsWith (s : State) (status : WorkflowRunStatus) : List WorkflowRun := s.runs.filter (·.status = status)

def unfinished (s : State) : List Nat := (s.runs.filter (·.status ≠ .completed)).map (·.id)

def begin (s : State) : Listing := ⟨s.unfinished, [], unfinishedWorkflowRunStatuses, 0⟩

def getToken (s : State) : Except Exn Unit × State :=
  (.ok (), { s with listing := some (s.listing.getD s.begin) })

def page (s : State) (status : WorkflowRunStatus) (page : Nat) : List WorkflowRun :=
  ((s.runsWith status).drop ((page - 1) * runsPageSize)).take runsPageSize

end State

def Listing.answered (listing : Listing) (rows : List WorkflowRun) : Listing :=
  if rows.length < runsPageSize then
    ⟨listing.standing, listing.seen ++ rows.map (·.id), listing.toAsk.tail, 0⟩
  else ⟨listing.standing, listing.seen ++ rows.map (·.id), listing.toAsk, listing.pages + 1⟩

namespace State

def listRuns (status : WorkflowRunStatus) (number : Nat) (s : State) : Except Exn (List WorkflowRun) × State :=
  (.ok (s.page status number), { s with listing := s.listing.map (·.answered (s.page status number)) })

def getRun (runId : Nat) (s : State) : Except Exn WorkflowRun × State :=
  match s.runs.find? (·.id = runId) with
  | none => (.error (.httpStatusError 404), s)
  | some run => (.ok run, if run.status = .completed then { s with observed := run.id :: s.observed } else s)

end State

inductive Change where
  | setStatus (id : Nat) (status : WorkflowRunStatus) (conclusion : Option String)
  | create (run : WorkflowRun)

def Change.apply (change : Change) (s : State) : State :=
  match change with
  | .setStatus id status conclusion => { s with
      runs := s.runs.map fun run => if run.id = id then { run with status := status, conclusion := conclusion } else run
      listing := if status = .completed then
        s.listing.map fun listing => { listing with standing := listing.standing.filter (· ≠ id) }
      else s.listing }
  | .create run => if s.runs.any (·.id = run.id) then s else { s with runs := run :: s.runs }

structure Reply where
  fate : Fate Exn
  clock : Int
  change : Change

inductive Party where
  | client
  | outside (execution : Nat)
deriving DecidableEq

def run (_ : Party) (op : Op) (reply : Reply) (s : State) : Except Exn (Op.Res op) × State :=
  match op with
  | .getToken => reply.fate.serve State.getToken s
  | .listRuns status page => reply.fate.serve (State.listRuns status page) s
  | .cancelRun _ => reply.fate.serve (fun s => (.ok (), s)) s
  | .getRun runId => reply.fate.serve (State.getRun runId) s
  | .now => (.ok reply.clock, s)
  | .sleep _ => reply.fate.serve (fun s => (.ok (), s)) s
  | .outside => (.ok (), reply.change.apply s)

def ended : Party → Option (Except Exn Result) → State → State
  | .client, outcome, s => { s with
      listing := none
      observed := []
      returned := match outcome with
        | some (.ok result) => ⟨result, (s.listing.map (·.standing)).getD [], s.observed⟩ :: s.returned
        | _ => s.returned }
  | .outside _, _, s => s

abbrev githubWorld : World githubInterface Party Result := ⟨State, fun _ => Reply, run, ended⟩

end Orchestrator.Github
