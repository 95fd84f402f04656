import Orchestrator.Async.Solo
import Orchestrator.Tasks.World

/-!
The preparation of a repository's workspace: the scheduler's trigger, the
scaffolder's handling of a message, command by command, and the collector of
old workspaces, beside the flag in the project's configuration.
-/

namespace Orchestrator.Scaffold

open Async
open Tasks (ProjectStatus)

inductive Mode where
  | full | ensure
deriving DecidableEq

structure ProjectConfig where
  workspaceReady : Bool
  scaffoldError : Option String
deriving DecidableEq

structure Project where
  status : ProjectStatus
  config : ProjectConfig
deriving DecidableEq

inductive Command where
  | gitInit | gitRemoteAdd | gitFetch | gitReset | gitCheckout
  | gitConfig (key value : String)
  | gitClone
  | writeDataFile | copier | readAnswers | unlinkDataFile
  | makeSetup
  | gitAdd | gitCommit | gitStatus | gitPush

structure Outcome where
  ok : Bool
  remark : Bool

inductive ServiceCall where
  | beginScaffoldWork
  | finishScaffoldWork
  | getOrgToken
  | createRepo
  | updateRepository
  | setRegistrySecrets
  | getRepo
  | validateInput (mode : Mode)
  | extractSpecsSummary
  | updateBranchProtection
  | enableRepoAutoMerge
  | failStories
  | olderThanMaxAge
  | getStoriesByProject
  | getTodoTasks
  | getRepositories

def ServiceCall.Res : ServiceCall → Type
  | beginScaffoldWork | validateInput _ | olderThanMaxAge | getStoriesByProject | getTodoTasks | getRepositories => Bool
  | _ => Unit

inductive Op where
  | service (call : ServiceCall)
  | getProject
  | updateProjectConfig (config : ProjectConfig)
  | updateProjectStatus (status : ProjectStatus)
  | workspaceHasFiles
  | command (command : Command)
  | captureTree
  | markInflight
  | publishMessage (mode : Mode)
  | nextMessage
  | ack (mode : Mode)
  | deleteInflight
  | removeWorkspace
  | notifyWorkspaceDeleted
  | outside

def Op.Res : Op → Type
  | service call => call.Res
  | getProject => Project
  | workspaceHasFiles | markInflight => Bool
  | command _ => Outcome
  | nextMessage => Mode
  | _ => Unit

abbrev scaffoldInterface : Interface := ⟨Op, Op.Res, Unit⟩

abbrev Job (A : Type) := Prog scaffoldInterface A

inductive Party where
  | scheduler | scaffolder | collector
  | outside (execution : Nat)
deriving DecidableEq

inductive Event where
  | taken | begun | completed | finished
  | removed | notified | swept
deriving DecidableEq

/-- One project with its repository; `files` are those of the workspace beyond `.git`, and `queue` the
messages that are not acknowledged. The trace is what happened, the latest event first, and no program
reads it. -/
structure State where
  project : Project
  files : Bool
  queue : List Mode
  inflight : Bool
  trace : List Event
deriving DecidableEq

namespace State

def record (s : State) (event : Event) : State := { s with trace := event :: s.trace }

def begins : Command → Bool
  | .gitInit | .gitClone => true
  | _ => false

def leaves (command : Command) (outcome : Except Unit Outcome) (left : Bool) : Bool :=
  match command, outcome with
  | .makeSetup, .ok ⟨true, _⟩ => true
  | _, _ => left

def run (command : Command) (outcome : Except Unit Outcome) (left : Bool) (s : State) : Except Unit Outcome × State :=
  (outcome, { s with
    files := leaves command outcome left
    trace := if begins command then .begun :: s.trace else s.trace })

def captureTree (outcome : Except Unit Unit) (s : State) : Except Unit Unit × State :=
  match outcome with
  | .ok () => (.ok (), s.record .completed)
  | .error e => (.error e, s)

def nextMessage (pick : Nat) (s : State) : Except Unit Mode × State :=
  match s.queue[pick]? with
  | some mode => (.ok mode, s.record .taken)
  | none => (.error (), s)

end State

inductive OutsideChange where
  | expireInflight
  | redeliver (mode : Mode)

def OutsideChange.apply (s : State) : OutsideChange → State
  | .expireInflight => { s with inflight := false }
  | .redeliver mode => { s with queue := mode :: s.queue }

structure Reply where
  fate : Fate Unit
  service : (call : ServiceCall) → Except Unit call.Res
  outcome : Except Unit Outcome
  tree : Except Unit Unit
  left : Bool
  pick : Nat
  change : OutsideChange

def run (_ : Party) (op : Op) (reply : Reply) (s : State) : Except Unit (Op.Res op) × State :=
  match op with
  | .service call => (reply.service call, s)
  | .getProject => reply.fate.serve (fun s => (.ok s.project, s)) s
  | .updateProjectConfig config => reply.fate.serve (fun s => (.ok (), { s with project := { s.project with config := config } })) s
  | .updateProjectStatus status => reply.fate.serve (fun s => (.ok (), { s with project := { s.project with status := status } })) s
  | .workspaceHasFiles => reply.fate.serve (fun s => (.ok s.files, s)) s
  | .command command => State.run command reply.outcome reply.left s
  | .captureTree => State.captureTree reply.tree s
  | .markInflight => reply.fate.serve (fun s => (.ok !s.inflight, { s with inflight := true })) s
  | .publishMessage mode => reply.fate.serve (fun s => (.ok (), { s with queue := s.queue ++ [mode] })) s
  | .nextMessage => State.nextMessage reply.pick s
  | .ack mode => reply.fate.serve (fun s => (.ok (), { s with queue := s.queue.erase mode })) s
  | .deleteInflight => reply.fate.serve (fun s => (.ok (), { s with inflight := false })) s
  | .removeWorkspace => (.ok (), { s with files := reply.left }.record .removed)
  | .notifyWorkspaceDeleted => reply.fate.serve (fun s =>
      (.ok (), { s with project := { s.project with config := { s.project.config with workspaceReady := false } } }.record .notified)) s
  | .outside => (.ok (), reply.change.apply s)

def ended (t : Party) (_ : Option (Except Unit Unit)) (s : State) : State :=
  match t with
  | .scaffolder => s.record .finished
  | .collector => s.record .swept
  | .scheduler | .outside _ => s

abbrev scaffoldWorld : World scaffoldInterface Party Unit := ⟨State, fun _ => Reply, run, ended⟩

def perform (op : Op) : Job op.Res := Prog.perform (I := scaffoldInterface) op

def ask (call : ServiceCall) : Job call.Res := perform (.service call)

def getProject : Job Project := perform .getProject

def updateProjectConfig (config : ProjectConfig) : Job Unit := perform (.updateProjectConfig config)

def command (c : Command) : Job Outcome := perform (.command c)

def runAll : List Command → Job Bool
  | [] => .ret true
  | c :: rest => (command c).bind fun outcome => if outcome.ok then runAll rest else .ret false

def captureTree : Job Unit := perform .captureTree

inductive ScaffoldResult where
  | skipped
  | success
  | failed (error : String)

def gitIdentity : List Command :=
  [.gitConfig "user.email" "ai@codegen.local", .gitConfig "user.name" "Codegen Bot", .gitConfig "core.hooksPath" "/dev/null"]

def complete : Job ScaffoldResult := do
  let _ ← command (.gitConfig "core.hooksPath" ".githooks")
  captureTree
  .ret .success

def runSteps (next : Job ScaffoldResult) : List (List Command × String) → Job ScaffoldResult
  | [] => next
  | (commands, error) :: rest => (runAll commands).bind fun ok => if ok then runSteps next rest else .ret (.failed error)

def validateInput (mode : Mode) : Job Bool := ask (.validateInput mode)

def workspaceHasFiles : Job Bool := perform .workspaceHasFiles

def ensureSteps : List (List Command × String) :=
  [(.gitClone :: gitIdentity, "Git clone failed"), ([.makeSetup], "make setup failed")]

/-- `run_ensure_workspace`: files mean a workspace that is prepared. -/
def runEnsureWorkspace (repoExistsOnGithub : Bool) : Job ScaffoldResult :=
  (validateInput .ensure).bind fun valid =>
    if valid then workspaceHasFiles.bind fun hasFiles =>
      if hasFiles then .ret .skipped
      else if repoExistsOnGithub then runSteps complete ensureSteps
      else .ret (.failed "Workspace missing and repo not found on GitHub")
    else .ret (.failed "invalid input")

def initOrigin : Job Bool :=
  (command .gitInit).bind fun init =>
    if init.ok then (command .gitRemoteAdd).bind fun added => .ret (added.ok || added.remark) else .ret init.remark

def resetSoft : Job Unit := (command .gitReset).bind fun _ => .ret ()

def commit : Job Bool :=
  (command .gitCommit).bind fun outcome =>
    if outcome.ok then .ret true else (command .gitStatus).bind fun status => .ret (status.ok && status.remark)

def templateSteps : List (List Command × String) :=
  [([.writeDataFile, .copier], "Copier failed"),
    ([.readAnswers], "Copier did not record resolved template commit"),
    ([.unlinkDataFile, .makeSetup], "make setup failed"),
    ([.gitConfig "core.hooksPath" "/dev/null", .gitAdd], "Git push failed")]

def pushScaffold : Job ScaffoldResult :=
  commit.bind fun committed =>
    if committed then runSteps complete [([.gitPush], "Git push failed")] else .ret (.failed "Git commit failed")

def runScaffold : Job ScaffoldResult :=
  (validateInput .full).bind fun valid =>
    if valid then initOrigin.bind fun origin =>
      if origin then (runAll [.gitFetch]).bind fun fetched =>
        if fetched then resetSoft.bind fun _ =>
          runSteps pushScaffold ((.gitCheckout :: gitIdentity, "Git init/fetch failed") :: templateSteps)
        else .ret (.failed "Git init/fetch failed")
      else .ret (.failed "Git init/fetch failed")
    else .ret (.failed "invalid input")

def updateProjectOnSuccess : Job Unit := do
  let _ ← getProject
  ask .extractSpecsSummary
  updateProjectConfig ⟨true, none⟩

def markScaffoldError (error : String) : Job Unit :=
  (getProject.bind fun project => updateProjectConfig { project.config with scaffoldError := some error }).handle fun _ => .ret ()

def repoExists : Job Bool := ((ask .getRepo).bind fun _ => .ret true).handle fun _ => .ret false

def settleEnsure : ScaffoldResult → Job Unit
  | .skipped => .ret ()
  | .success => updateProjectOnSuccess
  | .failed error => markScaffoldError error

def processEnsureMode : Job Unit := repoExists.bind fun onGithub => (runEnsureWorkspace onGithub).bind settleEnsure

def tryService (call : ServiceCall) : Job Unit := ((ask call).bind fun _ => .ret ()).handle fun _ => .ret ()

def settleFull : ScaffoldResult → Job Unit
  | .failed error => do
    markScaffoldError error
    tryService .failStories
  | _ => do
    updateProjectOnSuccess
    tryService .updateBranchProtection
    tryService .enableRepoAutoMerge
    perform (.updateProjectStatus .active)

def processFullMode : Job Unit := do
  ask .createRepo
  ask .updateRepository
  ask .setRegistrySecrets
  let result ← runScaffold
  settleFull result

def route : Mode → Job Unit
  | .ensure => processEnsureMode
  | .full => processFullMode

def beginScaffoldWork : Job Bool := ask .beginScaffoldWork

def processScaffoldJob (mode : Mode) : Job Unit :=
  beginScaffoldWork.bind fun lease =>
    if lease then (((ask .getOrgToken).bind fun _ => route mode).handle fun _ => .ret ()).bind fun _ => ask .finishScaffoldWork
    else .ret ()

def nextMessage : Job Mode := perform .nextMessage

def deliver : Job Unit :=
  nextMessage.bind fun mode =>
    (((processScaffoldJob mode).bind fun _ => perform (.ack mode)).handle fun _ => .ret ()).bind fun _ => perform .deleteInflight

def markInflight : Job Bool := perform .markInflight

def publishOnce (mode : Mode) : Job Unit :=
  markInflight.bind fun marked => if marked then perform (.publishMessage mode) else .ret ()

def getStoriesByProject : Job Bool := ask .getStoriesByProject

def getTodoTasks : Job Bool := ask .getTodoTasks

def getRepositories : Job Bool := ask .getRepositories

def triggerWith (work : Job Bool) (mode : Mode) : Job Unit :=
  work.bind fun found =>
    if found then getRepositories.bind fun repos => if repos then publishOnce mode else .ret () else .ret ()

def triggerFullScaffold (config : ProjectConfig) : Job Unit :=
  if config.scaffoldError.isSome then .ret () else triggerWith getStoriesByProject .full

def triggerEnsureScaffold (config : ProjectConfig) : Job Unit :=
  if config.workspaceReady ∨ config.scaffoldError.isSome then .ret () else triggerWith getTodoTasks .ensure

def triggerScaffolds : Job Unit :=
  getProject.bind fun project => match project.status with
    | .draft => triggerFullScaffold project.config
    | .active => triggerEnsureScaffold project.config
    | .paused | .archived => .ret ()

def olderThanMaxAge : Job Bool := ask .olderThanMaxAge

def notifyWorkspaceDeleted : Job Unit := (perform .notifyWorkspaceDeleted).handle fun _ => .ret ()

def collectWorkspace : Job Unit :=
  olderThanMaxAge.bind fun old => if old then (perform .removeWorkspace).bind fun _ => notifyWorkspaceDeleted else .ret ()

def body : Party → Job Unit
  | .scheduler => triggerScaffolds
  | .scaffolder => deliver
  | .collector => collectWorkspace
  | .outside _ => perform .outside

end Orchestrator.Scaffold
