import Orchestrator.Async.Composition
import Orchestrator.Deploy.Consumer

/-!
What a deploy job is made of. A property of programs that every construction
keeps holds of the job if it holds of its calls: one lemma for each function of
the worker, so that an invariant has to be checked against the calls only.
-/

namespace Orchestrator.Deploy

open Async Api Contracts Rules

def ServiceCall.plain : ServiceCall → Bool
  | .createDeployment _ _ => false
  | .patchApplication _ _ => false
  | _ => true

variable {C : {A : Type} → Job A → Prop}

structure Boundary (C : {A : Type} → Job A → Prop) (runId : String) : Prop where
  built : Prog.Compositional (I := deployInterface) C
  service : ∀ call, call.plain = true → C (ask call)
  record : ∀ projectId deployedSha, C (ask (.createDeployment projectId deployedSha))
  trigger : ∀ owner, C (crossBoundary runId (triggerWorkflowDispatch owner runId))
  rerun : ∀ owner workflowRunId, C (crossBoundary runId (rerunFailedJobs owner workflowRunId runId))

structure Calls (C : {A : Type} → Job A → Prop) (runId : String) : Prop where
  built : Prog.Compositional (I := deployInterface) C
  service : ∀ call, call.plain = true → C (ask call)
  fetchRun : C (fetchRun runId)
  startRun : C (startRun runId)
  patchRun : ∀ {status error result}, status.terminal = true → C (patchRun runId (outcomePatch status error result))

structure DeployCalls (C : {A : Type} → Job A → Prop) (runId : String) : Prop extends Calls C runId where
  deploy : ∀ {input}, input.runId = runId → ∀ serverIp port, C (dispatchAndRecord input serverIp port)

variable {runId : String}

section

variable (h : Boundary C runId)

include h

theorem tryDeployRerun_built (owner : String) :
    C (tryDeployRerun owner runId) := by
  refine h.built.handle (h.built.bind (h.service _ rfl) fun found => ?_) fun e => ?_
  · split
    · exact h.built.ret none
    · exact h.built.bind (h.rerun _ _) fun _ => h.built.bind (h.service _ rfl) fun _ => h.built.ret _
  · split
    · exact h.built.raise _
    · split
      · exact h.built.raise _
      · exact h.built.ret none

theorem waitOrRerun_built (owner : String) :
    C (Prog.handle (do return (← ask (.waitForWorkflow owner), false))
      fun e =>
        if e.isRuntime && !e.isCancellation then do
          match ← tryDeployRerun owner runId with
          | none => .raise e
          | some info => return (info, true)
        else .raise e) := by
  refine h.built.handle (h.built.bind (h.service _ rfl) fun _ => h.built.ret _) fun e => ?_
  split
  · refine h.built.bind (tryDeployRerun_built h owner) fun info => ?_
    split
    · exact h.built.raise e
    · exact h.built.ret _
  · exact h.built.raise e

theorem dispatchAndRerun_built (owner : String) : C (dispatchAndRerun owner runId) :=
  h.built.bind (h.trigger owner) fun _ => waitOrRerun_built h owner

theorem dispatchPinned_built (owner headSha : String) :
    C (dispatchPinned owner headSha runId) := by
  unfold dispatchPinned
  split
  · exact h.built.bind (h.service _ rfl) fun _ => dispatchAndRerun_built h owner
  · exact dispatchAndRerun_built h owner

theorem removePinTag_built (owner headSha : String) :
    C (removePinTag owner headSha) := by
  unfold removePinTag
  split
  · exact h.built.ret none
  · refine h.built.handle (h.built.bind (h.service _ rfl) fun _ => h.built.ret none) fun e => ?_
    split
    · exact h.built.ret _
    · exact h.built.raise e

theorem dispatchAndWait_built (owner headSha : String) :
    C (dispatchAndWait owner headSha runId) := by
  refine h.built.bind (h.built.attempt (dispatchPinned_built h owner headSha)) fun result => ?_
  refine h.built.bind (removePinTag_built h owner headSha) fun cleanup => ?_
  refine h.built.bind (h.built.ofExcept result) fun ⟨info, rerun⟩ => ?_
  cases cleanup with
  | some e => exact h.built.raise _
  | none => exact h.built.bind (h.built.ofExcept _) fun _ => h.built.ret _

end

variable {input : SubgraphInput}

theorem dispatchOrStop_built (h : Boundary C input.runId) :
    C (dispatchOrStop input) := by
  refine h.built.handle (h.built.bind (dispatchAndWait_built h _ _) fun _ => h.built.ret _) fun e => ?_
  split
  · exact h.built.ret _
  · exact h.built.ret _
  · exact h.built.raise _

theorem createDeploymentRecord_built (h : Boundary C runId) (projectId : String)
    (deployedSha : Option String) : C (createDeploymentRecord projectId deployedSha) := by
  refine h.built.handle (h.record _ _) fun e => ?_
  split
  · exact h.built.ret none
  · exact h.built.raise e

theorem dispatchAndRecord_built (h : Boundary C input.runId)
    (serverIp : String) (port : Nat) : C (dispatchAndRecord input serverIp port) := by
  refine h.built.bind (dispatchOrStop_built h) fun dispatched => ?_
  cases dispatched with
  | error update => exact h.built.ret update
  | ok info => exact h.built.bind (createDeploymentRecord_built h _ _) fun _ => h.built.ret _

section

variable (h : Calls C runId)

include h

theorem getRun_built : C (getRun runId) := by
  refine h.built.bind h.fetchRun fun run => ?_
  split
  · exact h.built.raise _
  · exact h.built.ofExcept _

theorem getRunIfMissingReturnsNone_built :
    C (getRunIfMissingReturnsNone runId) := by
  refine h.built.bind h.fetchRun fun run => ?_
  split
  · exact h.built.ret none
  · exact h.built.bind (h.built.ofExcept _) fun _ => h.built.ret _

theorem runCancelled_built :
    C (runCancelled runId) := by
  unfold runCancelled
  split
  · exact h.built.ret false
  · refine h.built.bind h.fetchRun fun run => ?_
    split
    · exact h.built.raise _
    · exact h.built.ret _

theorem fenceActiveDeploys_built (owner : String) :
    C (fenceActiveDeploys owner) := by
  refine h.built.handle (h.built.bind (h.service _ rfl) fun _ => h.built.ret ()) fun e => ?_
  split
  · exact h.built.raise _
  · exact h.built.raise e

theorem writeDeploySecrets_built (owner : String) :
    C (writeDeploySecrets owner) := by
  refine h.built.handle (h.service _ rfl) fun e => ?_
  split
  · exact h.built.ret false
  · exact h.built.raise e

theorem sshKeyOf_built (serverHandle : Option String) :
    C (sshKeyOf serverHandle) := by
  cases serverHandle with
  | none => exact h.built.ret none
  | some handle => exact h.built.bind (h.service _ rfl) fun _ => h.service _ rfl

end

theorem fenceOrRefuse_built (h : Calls C input.runId) :
    C (fenceOrRefuse input) := by
  unfold fenceOrRefuse
  split
  · refine h.built.handle (h.built.bind (fenceActiveDeploys_built h _) fun _ => h.built.ret none) fun e => ?_
    split
    · exact h.built.ret _
    · exact h.built.raise _
  · exact h.built.ret none

section

variable (h : DeployCalls C input.runId)

include h

theorem deployTo_built (serverIp : String)
    (port : Nat) (serverHandle : Option String) : C (deployTo input serverIp port serverHandle) := by
  refine h.built.bind (runCancelled_built h.toCalls) fun cancelled => ?_
  split
  · exact h.built.ret _
  · refine h.built.bind (sshKeyOf_built h.toCalls serverHandle) fun key => ?_
    cases key with
    | none => exact h.built.ret _
    | some _ =>
      refine h.built.bind (writeDeploySecrets_built h.toCalls _) fun _ => h.built.bind (fenceOrRefuse_built h.toCalls) fun refused => ?_
      cases refused with
      | some message => exact h.built.ret _
      | none =>
        refine h.built.bind (runCancelled_built h.toCalls) fun cancelled => ?_
        split
        · exact h.built.ret _
        · exact h.deploy rfl serverIp port

theorem deployerRun_built :
    C (deployerRun input) := by
  unfold deployerRun
  split
  · exact h.built.ret _
  · split
    · exact h.built.ret _
    · dsimp only
      split
      · refine h.built.handle (deployTo_built h _ _ _) fun e => ?_
        split
        · exact h.built.raise _
        · exact h.built.ret _
        · exact h.built.raise _
        · exact h.built.ret _
        · split
          · exact h.built.ret _
          · exact h.built.ret _
      · exact h.built.ret _

theorem deployAndSmoke_built
    (testIdentitySlot : Bool) : C (deployAndSmoke input testIdentitySlot) := by
  refine h.built.bind (deployerRun_built h) fun update => ?_
  dsimp only
  split
  · split
    · exact h.built.bind (h.service _ rfl) fun _ => h.built.ret _
    · exact h.built.ret _
  · exact h.built.ret _

theorem resolveAndDeploy_built :
    C (resolveAndDeploy input) := by
  refine h.built.bind (h.service _ rfl) fun contract => ?_
  split
  · exact h.built.ret _
  · refine h.built.bind (h.service _ rfl) fun secrets => ?_
    split
    · exact h.built.ret _
    · exact deployAndSmoke_built h _

theorem devopsSubgraph_built :
    C (devopsSubgraph input) := by
  unfold devopsSubgraph
  split
  · exact h.built.bind (h.service _ rfl) fun _ => resolveAndDeploy_built h
  · exact resolveAndDeploy_built h

end

variable {msg : DeployMessage}

section

variable (h : Calls C msg.taskId)

include h

theorem publishCallbackEvent_built (event text : String) :
    C (publishCallbackEvent msg event text) := by
  unfold publishCallbackEvent
  split
  · exact h.built.ret ()
  · exact h.built.bind (h.service _ rfl) fun _ => h.built.ret ()

theorem handleDeployFailure_built (error : String)
    (outcome : DeployOutcome) (missing : List MissingUserSecret) :
    C (handleDeployFailure msg error outcome missing) :=
  h.built.bind (h.patchRun rfl) fun _ => h.built.bind (publishCallbackEvent_built h _ _) fun _ => h.built.ret _

theorem handleSmokeFailure_built (url details : String) :
    C (handleSmokeFailure msg url details) :=
  h.built.bind (h.patchRun rfl) fun _ => h.built.bind (publishCallbackEvent_built h _ _) fun _ => h.built.ret _

theorem handleDeploySuccess_built (url : String)
    (result : SubgraphResult) : C (handleDeploySuccess msg url result) := by
  refine h.built.bind (h.patchRun rfl) fun _ => ?_
  split
  · exact h.built.bind (publishCallbackEvent_built h _ _) fun _ => h.built.ret _
  · exact h.built.ret _

theorem giveUp_built (error : String) :
    C (giveUp msg error) :=
  h.built.bind (h.patchRun rfl) fun _ => h.built.ret _

theorem allocateResources_built (projectId : String)
    (project : Project) : C (allocateResources projectId project) := by
  refine h.built.bind (h.service _ rfl) fun repository => ?_
  split
  · exact h.built.ret _
  · exact h.built.bind (h.service _ rfl) fun _ => h.built.ret _

theorem recordInfrastructureWait_built (error : AllocationError) :
    C (recordInfrastructureWait msg error) :=
  h.built.bind (h.patchRun rfl) fun _ => h.built.ret _

theorem alreadyDeployedApplication_built (headSha : String)
    (overrides : List (String × String)) (applicationIds : List Nat) :
    C (alreadyDeployedApplication headSha overrides applicationIds) := by
  induction applicationIds with
  | nil => exact h.built.ret none
  | cons applicationId rest ih =>
    refine h.built.bind (h.service _ rfl) fun deployment => ?_
    split
    · exact ih
    · split
      · refine h.built.bind (h.service _ rfl) fun application => ?_
        split
        · exact h.built.ret _
        · exact ih
      · exact ih

theorem preCheckServer_built (serverIp projectName : String)
    (action : DeployAction) : C (preCheckServer serverIp projectName action) := by
  refine h.built.handle (h.built.bind (h.service _ rfl) fun _ => h.built.ret _) fun e => ?_
  split
  · exact h.built.ret _
  · exact h.built.raise e

theorem runDeployPrecheck_built (allocated : List Allocation)
    (project : Project) (action : DeployAction) : C (runDeployPrecheck allocated project action) := by
  unfold runDeployPrecheck
  split
  · refine h.built.bind (h.service _ rfl) fun _ => h.built.bind (h.service _ rfl) fun key => ?_
    split
    · exact h.built.ret none
    · exact preCheckServer_built h _ _ _
  · exact h.built.ret none

theorem precheckWithFallback_built (allocated : List Allocation)
    (project : Project) (action : DeployAction) : C (precheckWithFallback allocated project action) := by
  refine h.built.bind (runDeployPrecheck_built h allocated project action) fun error => ?_
  split
  · exact h.built.ret none
  · split
    · exact runDeployPrecheck_built h allocated project _
    · exact h.built.ret _

theorem handleLifecycleAction_built
    (hpatch : ∀ applicationId, C (ask (.patchApplication applicationId (if msg.action = .undeploy then "not_deployed" else "stopped"))))
    (project : Project) :
    C (handleLifecycleAction msg project) := by
  have command : ∀ handle, C (runLifecycleCommand handle project.slug msg.action) := by
    intro handle
    refine h.built.handle (h.built.bind (h.service _ rfl) fun _ => h.built.ret _) fun e => ?_
    split
    · exact h.built.ret _
    · exact h.built.raise e
  have action : ∀ handle, C (processLifecycleAction msg project handle) := by
    intro handle
    refine h.built.bind (h.service _ rfl) fun _ => h.built.bind (h.service _ rfl) fun key => ?_
    split
    · exact h.built.ret _
    · exact command handle
  unfold handleLifecycleAction
  split
  · exact h.built.raise _
  · refine h.built.bind (h.service _ rfl) fun application => h.built.bind (action _) fun error => ?_
    split
    · exact h.built.bind (h.patchRun rfl) fun _ => h.built.ret _
    · exact h.built.bind (h.patchRun rfl) fun _ => h.built.bind (hpatch _) fun _ => h.built.ret _

theorem routeSubgraphResult_built (result : SubgraphResult) :
    C (routeSubgraphResult msg result) := by
  unfold routeSubgraphResult
  split
  · exact h.built.bind (h.patchRun rfl) fun _ => h.built.ret _
  · split
    · exact handleSmokeFailure_built h _ _
    · exact handleDeploySuccess_built h _ _
    · split
      · unfold handleMissingSecrets
        split
        · exact h.built.raise _
        · exact handleDeployFailure_built h _ _ _
      · exact handleDeployFailure_built h _ _ _

end

theorem deployAllocated_built (h : DeployCalls C msg.taskId) (project : Project)
    (allocated : List Allocation) (overrides : List (String × String)) :
    C (deployAllocated msg project allocated overrides) := by
  have redundant : C (redundantWith msg project allocated overrides) := by
    unfold redundantWith
    split
    · exact alreadyDeployedApplication_built h.toCalls _ _ _
    · exact h.built.ret none
  refine h.built.bind redundant fun applicationId => ?_
  split
  · exact h.built.bind (h.patchRun rfl) fun _ => h.built.bind (publishCallbackEvent_built h.toCalls _ _) fun _ => h.built.ret _
  · refine h.built.bind (precheckWithFallback_built h.toCalls _ _ _) fun error => ?_
    split
    · exact handleDeployFailure_built h.toCalls _ _ _
    · exact h.built.bind (h.service _ rfl) fun _ =>
        h.built.bind (devopsSubgraph_built h) fun result => routeSubgraphResult_built h.toCalls result

theorem deployCommit_built (h : DeployCalls C msg.taskId) (project : Project) :
    C (deployCommit msg project) := by
  refine h.built.bind (h.built.attempt (allocateResources_built h.toCalls _ project)) fun allocated => ?_
  split
  · exact recordInfrastructureWait_built h.toCalls _
  · exact h.built.raise _
  · exact giveUp_built h.toCalls _
  · split
    · exact handleDeployFailure_built h.toCalls _ _ _
    · exact deployAllocated_built h _ _ _

theorem deployProject_built (h : Calls C msg.taskId)
    (hlifecycle : lifecycleActions.contains msg.action = true → ∀ project, C (handleLifecycleAction msg project))
    (hcommit : lifecycleActions.contains msg.action = false → ∀ project, C (deployCommit msg project)) :
    C (deployProject msg) := by
  refine h.built.bind (publishCallbackEvent_built h _ _) fun _ => ?_
  split
  · exact handleDeployFailure_built h _ _ _
  · refine h.built.bind (h.service _ rfl) fun project => ?_
    split
    · exact giveUp_built h _
    · cases haction : lifecycleActions.contains msg.action with
      | true => exact hlifecycle haction _
      | false => exact hcommit haction _

theorem lockAndDeploy_built (h : Calls C msg.taskId) (hacquire : C (acquireLock msg.projectId msg.taskId))
    (hdeploy : C (deployProject msg)) : C (lockAndDeploy msg) := by
  refine h.built.bind (h.service _ rfl) fun _ => h.built.bind hacquire fun acquired => ?_
  split
  · refine h.built.bind h.startRun fun start => ?_
    split
    · exact hdeploy
    · exact h.built.ret _
  · exact h.built.bind (h.patchRun rfl) fun _ => h.built.ret _

theorem onDeployException_built (h : Calls C msg.taskId) (e : Exn) :
    C (onDeployException msg e) := by
  have failed : ∀ fenced : Bool, C
      (if fenced then .raise e else handleDeployFailure msg e.message .retry [] : Job Result) := by
    intro fenced
    split
    · exact h.built.raise e
    · exact handleDeployFailure_built h _ _ _
  unfold onDeployException
  split
  · exact h.built.raise _
  · exact h.built.raise _
  · split
    · exact failed false
    · exact h.built.bind (h.service _ rfl) failed

section Assertions

variable {G : Rules deployWorld} {t : Party} {P : State → Prop}

structure CallsMaintain (G : Rules deployWorld) (t : Party) (P : State → Prop) (runId : String) : Prop where
  service : ∀ call, G.Maintains t P (ask call)
  fetchRun : G.Maintains t P (fetchRun runId)
  startRun : G.Maintains t P (startRun runId)
  patchRun : ∀ {status error result}, status.terminal = true →
    G.Maintains t P (patchRun runId (outcomePatch status error result))
  trigger : ∀ owner, G.Maintains t P (crossBoundary runId (triggerWorkflowDispatch owner runId))
  rerun : ∀ owner workflowRunId,
    G.Maintains t P (crossBoundary runId (rerunFailedJobs owner workflowRunId runId))

theorem CallsMaintain.boundary (h : CallsMaintain G t P runId) : Boundary (fun p => G.Maintains t P p) runId where
  built := G.maintains_compositional t P
  service call _ := h.service call
  record _ _ := h.service _
  trigger := h.trigger
  rerun := h.rerun

theorem CallsMaintain.calls (h : CallsMaintain G t P runId) : DeployCalls (fun p => G.Maintains t P p) runId where
  built := G.maintains_compositional t P
  service call _ := h.service call
  fetchRun := h.fetchRun
  startRun := h.startRun
  patchRun := h.patchRun
  deploy heq serverIp port := dispatchAndRecord_built (heq ▸ h.boundary) serverIp port

theorem deployProject_maintains (h : CallsMaintain G t P msg.taskId) : G.Maintains t P (deployProject msg) :=
  deployProject_built h.calls.toCalls (fun _ => handleLifecycleAction_built h.calls.toCalls fun _ => h.service _) fun _ =>
    deployCommit_built h.calls

end Assertions

end Orchestrator.Deploy
