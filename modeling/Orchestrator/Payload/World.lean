import Orchestrator.Async.Solo
import Orchestrator.Deploy.Deployer

/-!
The deployer node down to the secrets it writes, one by one, and the record it leaves.
-/

namespace Orchestrator.Payload

open Async Api Contracts
open Deploy (Exn WorkflowRun)

abbrev Dict := List (String × String)

structure Resource where
  serviceName : String
  serverIp : Option String
  port : Option Nat
  serverHandle : Option String

inductive Modules where
  | names (modules : List String)
  | text (modules : String)

structure DevOpsState where
  projectId : String
  runId : String
  slug : Option String
  modules : Option Modules
  htmlUrl : String
  allocatedResources : List Resource
  secretValues : Dict
  nonSecretValues : Dict
  envOverrides : Dict
  headSha : String
  fenceActiveDeploys : Bool

structure Platform where
  getenv : String → Option String
  b64encode : String → String
  sha256 : Dict → String

structure DeploymentInfo where
  repoFullName : String
  branch : String
  modules : String
  envOverridesDigest : String
deriving DecidableEq

structure Deployment where
  projectId : String
  serviceName : String
  serverHandle : String
  port : Nat
  deploymentInfo : DeploymentInfo
  applicationId : Option Nat
  deployedSha : Option String
deriving DecidableEq

inductive Op where
  | getRun (runId : String)
  | getServer (handle : String)
  | getServerSshKey (handle : String)
  | setRepositorySecret (owner repo name value : String)
  | fenceWorkflow (owner repo : String)
  | createOrResetTag (owner repo tag headSha : String)
  | claimDispatch (runId : String)
  | utcnow
  | triggerWorkflowDispatch (owner repo : String) (ref : Option String)
  | waitForWorkflowCompletion (owner repo ref : String) (createdAfter : Time) (headSha runId : String)
  | getLatestWorkflowRun (owner repo ref : String) (createdAfter : Time) (headSha : String)
  | rerunFailedJobs (owner repo : String) (workflowRunId : Nat)
  | sleep (seconds : Nat)
  | waitForRunCompletion (owner repo : String) (workflowRunId : Nat) (runId : String)
  | deleteRef (owner repo ref : String)
  | getPrimaryRepository (projectId : String)
  | getOrCreateApplication (repoId serverHandle serviceName : String)
  | updateApplication (applicationId : Option Nat) (status : String)
  | createDeployment (payload : Deployment)

def Op.Res : Op → Type
  | getRun _ => String
  | getServer _ => String
  | getServerSshKey _ => Option String
  | claimDispatch _ => DeployDispatchClaim
  | utcnow => Time
  | waitForWorkflowCompletion .. => WorkflowRun
  | getLatestWorkflowRun .. => Option Nat
  | waitForRunCompletion .. => WorkflowRun
  | getPrimaryRepository _ => Option String
  | getOrCreateApplication .. => Option Nat
  | _ => Unit

abbrev payloadInterface : Interface := ⟨Op, Op.Res, Exn⟩

abbrev Job (A : Type) := Prog payloadInterface A

inductive Event where
  | connection (sshUser : String)
  | sshKey (key : String)
  | wrote (owner repo name value : String)
  | dispatched (owner repo : String)
  | recorded (payload : Deployment)
deriving DecidableEq

structure Reply where
  fate : Fate Exn
  status : String
  sshUser : String
  key : Option String
  claim : DeployDispatchClaim
  now : Time
  workflow : WorkflowRun
  latest : Option Nat
  repoId : Option String
  applicationId : Option Nat

def Op.value : (op : Op) → Reply → op.Res
  | getRun _, reply => reply.status
  | getServer _, reply => reply.sshUser
  | getServerSshKey _, reply => reply.key
  | setRepositorySecret .., _ => ()
  | fenceWorkflow .., _ => ()
  | createOrResetTag .., _ => ()
  | claimDispatch _, reply => reply.claim
  | utcnow, reply => reply.now
  | triggerWorkflowDispatch .., _ => ()
  | waitForWorkflowCompletion .., reply => reply.workflow
  | getLatestWorkflowRun .., reply => reply.latest
  | rerunFailedJobs .., _ => ()
  | sleep _, _ => ()
  | waitForRunCompletion .., reply => reply.workflow
  | deleteRef .., _ => ()
  | getPrimaryRepository _, reply => reply.repoId
  | getOrCreateApplication .., reply => reply.applicationId
  | updateApplication .., _ => ()
  | createDeployment _, _ => ()

def Op.events : Op → Reply → List Event
  | getServer _, reply => [.connection reply.sshUser]
  | getServerSshKey _, reply => reply.key.toList.map .sshKey
  | setRepositorySecret owner repo name value, _ => [.wrote owner repo name value]
  | triggerWorkflowDispatch owner repo _, _ => [.dispatched owner repo]
  | rerunFailedJobs owner repo _, _ => [.dispatched owner repo]
  | createDeployment payload, _ => [.recorded payload]
  | _, _ => []

abbrev Log := List Event

def serve (op : Op) (reply : Reply) (log : Log) : Except Exn op.Res × Log := (.ok (op.value reply), op.events reply ++ log)

def run (_ : Unit) (op : Op) (reply : Reply) (log : Log) : Except Exn op.Res × Log := reply.fate.serve (serve op reply) log

abbrev payloadWorld : World payloadInterface Unit Unit := ⟨Log, fun _ => Reply, run, fun _ _ log => log⟩

end Orchestrator.Payload
