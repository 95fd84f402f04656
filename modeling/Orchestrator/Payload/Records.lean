import Orchestrator.Async.Histories
import Orchestrator.Payload.Deployer

/-!
A recorded digest and the secrets behind it.
-/

namespace Orchestrator.Payload

open Async
open Deploy (Exn WorkflowRun)

def Written (platform : Platform) (state : DevOpsState) (owner repo : String) (log : Log) : Prop :=
  ∃ params serverIp port credentials sshUser sshKey,
    extractDeployParams state = .ok (some params) ∧ params.target = some (serverIp, port) ∧
    registry platform = some credentials ∧ .connection sshUser ∈ log ∧ .sshKey sshKey ∈ log ∧
    ∀ secret ∈ secretsMap credentials serverIp port params.projectName (dotenv platform state) sshKey sshUser,
      .wrote owner repo secret.1 secret.2 ∈ log

/-- Whatever was recorded carries the digest of the overrides, and every dispatch before it found
the secrets written. -/
def Backed (platform : Platform) (state : DevOpsState) (log : Log) : Prop :=
  ∀ newer older payload, log = newer ++ .recorded payload :: older →
    payload.deploymentInfo.envOverridesDigest = envOverridesDigest platform state.envOverrides ∧
    (∃ owner repo, .dispatched owner repo ∈ older) ∧
    ∀ later earlier owner repo, older = later ++ .dispatched owner repo :: earlier → Written platform state owner repo earlier

def Deployable (state : DevOpsState) : Prop :=
  state.projectId.isEmpty = false ∧ (∃ tag, pinTag state.headSha = .ok tag) ∧
  ∃ params, extractDeployParams state = .ok (some params) ∧ params.target.isSome = true ∧
    (truthy params.serverHandle).isSome = true

def secretNames : List String :=
  ["DOTENV", "DEPLOY_HOST", "DEPLOY_USER", "DEPLOY_SSH_KEY", "DEPLOY_PORT", "PROJECT_NAME", "REGISTRY_URL",
    "REGISTRY_USER", "REGISTRY_PASSWORD"]

def Complete (platform : Platform) (lands : String → Bool) : Prop :=
  (registry platform).isSome = true ∧ ∀ name ∈ secretNames, lands name = true

def Lands (lands : String → Bool) : Log → Move payloadWorld → Prop
  | _, .call _ (.setRepositorySecret _ _ name _) reply => (reply : Reply).fate.carriedOut = lands name
  | _, _ => True

section Logs

variable {platform : Platform} {state : DevOpsState} {owner repo : String} {log : Log} {event : Event}

def Due (platform : Platform) (state : DevOpsState) : Event → Log → Prop
  | .dispatched owner repo, log => Written platform state owner repo log
  | .recorded payload, log =>
    payload.deploymentInfo.envOverridesDigest = envOverridesDigest platform state.envOverrides ∧
      ∃ owner repo, .dispatched owner repo ∈ log
  | _, _ => True

theorem backed_of_clean (h : Clean (Due platform state) log) : Backed platform state log := by
  rintro newer older payload rfl
  obtain ⟨⟨hdigest, hdispatched⟩, hclean⟩ := h.split
  refine ⟨hdigest, hdispatched, ?_⟩
  rintro later earlier owner repo rfl
  exact hclean.split.1

theorem written_grows : Grows (Written platform state owner repo) := by
  rintro event log ⟨params, serverIp, port, credentials, sshUser, sshKey, hparams, htarget, hcredentials, huser, hkey, hall⟩
  exact ⟨params, serverIp, port, credentials, sshUser, sshKey, hparams, htarget, hcredentials, mem_grows _ _ _ huser,
    mem_grows _ _ _ hkey, fun secret hmem => mem_grows _ _ _ (hall secret hmem)⟩

end Logs

def rules (platform : Platform) (state : DevOpsState) (lands : String → Bool) : Rules payloadWorld where
  admits := Lands lands
  inv := Clean (Due platform state)
  rely _ log log' := log = log'
  rely_refl _ _ := rfl
  rely_trans h h' := h.trans h'
  rest _ _ := True
  rest_stable _ _ _ := trivial

section Node

open Rules

variable {platform : Platform} {state : DevOpsState} {lands : String → Bool} {owner repo : String} {log : Log} {P : Log → Prop}

theorem stable : (rules platform state lands).Stable () P := fun _ _ _ h hP => h ▸ hP

theorem keeps (h : Clean (Due platform state) log) : (rules platform state lands).Keeps () log log := .refl _ h

def Op.calm : Op → Bool
  | .triggerWorkflowDispatch .. => false
  | .rerunFailedJobs .. => false
  | .createDeployment _ => false
  | _ => true

abbrev Calm {A : Type} (p : Job A) : Prop := p.Uses fun op : Op => op.calm = true

theorem perform_calm {op : Op} (h : op.calm = true) : Calm (perform op) := .perform h

theorem ret_calm {A : Type} (a : A) : Calm (.ret a) := trivial

theorem liftExcept_calm {A : Type} (r : Except Exn A) : Calm (liftExcept r) := by
  cases r <;> trivial

theorem calm_clean {op : Op} {reply : Reply} (hcalm : op.calm = true) (h : Clean (Due platform state) log) :
    Clean (Due platform state) (op.events reply ++ log) := by
  cases op with
  | getServer handle => exact ⟨trivial, h⟩
  | getServerSshKey handle =>
    simp only [Op.events]
    cases reply.key with
    | none => exact h
    | some key => exact ⟨trivial, h⟩
  | setRepositorySecret owner repo name value => exact ⟨trivial, h⟩
  | triggerWorkflowDispatch owner repo ref | rerunFailedJobs owner repo workflowRunId | createDeployment payload => cases hcalm
  | _ => exact h

theorem serve_leaves (op : Op) (hP : Grows P)
    (h : ∀ log reply, Clean (Due platform state) log → P log → Clean (Due platform state) (op.events reply ++ log)) :
    (rules platform state lands).Leaves () P op := by
  have hrun : ∀ (reply : Reply) log, payloadWorld.run () op reply log = reply.fate.serve (serve op reply) log := fun _ _ => rfl
  refine Leaves.serve hrun fun log reply hi hlog _ _ => ?_
  exact ⟨⟨h log reply hi hlog, fun u hu => absurd rfl hu⟩, hP.append _ hlog⟩

theorem calm_leaves {op : Op} (hP : Grows P) (hcalm : op.calm = true) : (rules platform state lands).Leaves () P op :=
  serve_leaves op hP fun _ _ h _ => calm_clean hcalm h

theorem calm_maintains {A : Type} {p : Job A} (hP : Grows P) (hp : Calm p) :
    (rules platform state lands).Maintains () P p :=
  Safe.leaves stable (hp.mono fun _ hcalm => calm_leaves hP hcalm)

def Landed (lands : String → Bool) (owner repo : String) (secret : String × String) (log : Log) : Prop :=
  lands secret.1 = true → .wrote owner repo secret.1 secret.2 ∈ log

theorem landed_grows (secret : String × String) : Grows (Landed lands owner repo secret) :=
  fun event log h hlands => mem_grows _ event log (h hlands)

theorem setRepositorySecret_lands (hP : Grows P) (secret : String × String) (hi : Clean (Due platform state) log) (hlog : P log) :
    (rules platform state lands).Safe () (fun _ log => P log ∧ Landed lands owner repo secret log)
      (setRepositorySecret owner repo secret) log := by
  refine Safe.perform fun log' hi' hr reply hadm => ?_
  cases hr
  have hcarried : (reply : Reply).fate.carriedOut = lands secret.1 := hadm
  have hrun : payloadWorld.run () (.setRepositorySecret owner repo secret.1 secret.2) reply log =
      reply.fate.serve (serve (.setRepositorySecret owner repo secret.1 secret.2) reply) log := rfl
  have hserved : (rules platform state lands).Keeps () log (.wrote owner repo secret.1 secret.2 :: log) ∧
      P (.wrote owner repo secret.1 secret.2 :: log) ∧ Landed lands owner repo secret (.wrote owner repo secret.1 secret.2 :: log) :=
    ⟨⟨⟨trivial, hi⟩, fun u hu => absurd rfl hu⟩, hP _ _ hlog, fun _ => List.mem_cons_self⟩
  rw [hrun]
  generalize reply.fate = fate at hcarried
  cases fate with
  | unsent e => exact ⟨keeps hi, hlog, fun hlands => nomatch hcarried.trans hlands⟩
  | _ => exact hserved

def Tried (P : Log → Prop) (lands : String → Bool) (owner repo : String) (secrets : Dict) {A : Type} :
    Except Exn A → Log → Prop
  | .ok _, log => P log ∧ ∀ secret ∈ secrets, Landed lands owner repo secret log
  | .error e, _ => e.isException = false

theorem setOrSkip_tried (hP : Grows P) (secret : String × String) (hi : Clean (Due platform state) log) (hlog : P log) :
    (rules platform state lands).Safe () (Tried P lands owner repo [secret])
      (Prog.handle (do
          setRepositorySecret owner repo secret
          return 1)
        fun e => if e.isException then return 0 else .raise e) log := by
  have hone : ∀ log, P log ∧ Landed lands owner repo secret log →
      P log ∧ ∀ other ∈ [secret], Landed lands owner repo other log := by
    rintro log ⟨hlog, hlanded⟩
    refine ⟨hlog, fun other hmem => ?_⟩
    rw [List.mem_singleton.mp hmem]
    exact hlanded
  refine Safe.handle (M := fun _ log => P log ∧ Landed lands owner repo secret log) hi ?_ (fun _ log _ h => hone log h) ?_
  · exact Safe.bind hi (setRepositorySecret_lands hP secret hi hlog) (fun _ _ _ h => h) (fun _ _ _ h => h)
  · intro e log _ h
    cases hcaught : e.isException with
    | true => exact hone log h
    | false => exact hcaught

theorem setRepositorySecrets_tried (secrets : Dict) : ∀ {P : Log → Prop} {log : Log}, Grows P → Clean (Due platform state) log → P log →
    (rules platform state lands).Safe () (Tried P lands owner repo secrets) (setRepositorySecrets owner repo secrets) log := by
  induction secrets with
  | nil => exact fun _ _ hlog => ⟨hlog, nofun⟩
  | cons secret secrets ih =>
    intro P log hP hi hlog
    refine Safe.bind hi (setOrSkip_tried hP secret hi hlog) (fun set log hi hset => ?_) fun _ _ _ h => h
    have hlanded : Landed lands owner repo secret log := hset.2 secret List.mem_cons_self
    refine Safe.bind hi (ih (hP.and (landed_grows secret)) hi ⟨hset.1, hlanded⟩) (fun others log _ h => ?_) fun _ _ _ h => h
    refine ⟨h.1.1, fun other hmem => ?_⟩
    cases hmem with
    | head => exact h.1.2
    | tail _ hmem => exact h.2 other hmem

theorem writeAll_tried (secrets : Dict) (hP : Grows P) (hi : Clean (Due platform state) log) (hlog : P log) :
    (rules platform state lands).Safe () (Tried P lands owner repo secrets) (writeAll owner repo secrets) log := by
  refine Safe.handle (M := Tried P lands owner repo secrets) hi ?_ (fun _ _ _ h => h) ?_
  · exact Safe.bind hi (setRepositorySecrets_tried secrets hP hi hlog) (fun _ _ _ h => h) fun _ _ _ h => h
  · intro e log _ h
    have hraised : e.isException = false := h
    rw [hraised]
    exact hraised

theorem writeDeploySecrets_written {params : DeployParams} {serverIp sshUser sshKey : String} {port : Nat}
    (hparams : extractDeployParams state = .ok (some params)) (htarget : params.target = some (serverIp, port))
    (hcomplete : Deployable state → Complete platform lands)
    (hi : Clean (Due platform state) log) (huser : .connection sshUser ∈ log) (hkey : .sshKey sshKey ∈ log) :
    (rules platform state lands).Yields () (fun _ log => Deployable state → Written platform state params.owner params.repo log)
      (writeDeploySecrets platform params.owner params.repo serverIp port params.projectName (dotenv platform state) sshKey sshUser)
      log := by
  unfold writeDeploySecrets
  cases hregistry : registry platform with
  | none =>
    refine Yields.ret fun hdeployable => ?_
    have hsome := (hcomplete hdeployable).1
    rw [hregistry] at hsome
    cases hsome
  | some credentials =>
    have hP : Grows fun log => Event.connection sshUser ∈ log ∧ Event.sshKey sshKey ∈ log := (mem_grows _).and (mem_grows _)
    refine (writeAll_tried _ hP hi ⟨huser, hkey⟩).conseq hi ?_
    rintro r log _ htried a rfl hdeployable
    obtain ⟨⟨huser, hkey⟩, hlanded⟩ := htried
    refine ⟨params, serverIp, port, credentials, sshUser, sshKey, hparams, htarget, hregistry, huser, hkey, ?_⟩
    intro secret hmem
    refine hlanded secret hmem ((hcomplete hdeployable).2 secret.1 ?_)
    have hnames : (secretsMap credentials serverIp port params.projectName (dotenv platform state) sshKey sshUser).map Prod.fst =
        secretNames := rfl
    rw [← hnames]
    exact List.mem_map_of_mem hmem

end Node

section Dispatching

open Rules

variable {platform : Platform} {state : DevOpsState} {lands : String → Bool} {owner repo runId : String} {log : Log}
  {P : Log → Prop}

def Dispatched (platform : Platform) (state : DevOpsState) (owner repo : String) (log : Log) : Prop :=
  Written platform state owner repo log ∧ .dispatched owner repo ∈ log

theorem dispatched_grows : Grows (Dispatched platform state owner repo) := written_grows.and (mem_grows _)

theorem dispatch_leaves {op : Op} (hP : Grows P) (hwritten : ∀ log, P log → Written platform state owner repo log)
    (hop : ∀ reply, op.events reply = [.dispatched owner repo]) : (rules platform state lands).Leaves () P op := by
  refine serve_leaves op hP fun log reply hi hlog => ?_
  rw [hop reply]
  exact ⟨hwritten log hlog, hi⟩

theorem createDeployment_leaves {payload : Deployment}
    (hdigest : payload.deploymentInfo.envOverridesDigest = envOverridesDigest platform state.envOverrides) :
    (rules platform state lands).Leaves () (Dispatched platform state owner repo) (.createDeployment payload) :=
  serve_leaves _ dispatched_grows fun _ _ hi hlog => ⟨⟨hdigest, owner, repo, hlog.2⟩, hi⟩

theorem runCancelled_calm : Calm (runCancelled runId) := by
  unfold runCancelled
  split
  · trivial
  · exact (perform_calm rfl).bind fun _ => trivial

theorem claimDispatch_calm : Calm (claimDispatch runId) := by
  unfold claimDispatch
  split
  · trivial
  · refine (perform_calm rfl).bind fun claim => ?_
    split <;> trivial

theorem crossBoundary_calm : Calm (crossBoundary runId) :=
  claimDispatch_calm.bind fun _ => (perform_calm rfl).bind fun _ => (liftExcept_calm _).bind fun _ => trivial

theorem removePinTag_calm (tag : String) : Calm (removePinTag owner repo tag) := by
  refine ((perform_calm rfl).bind fun _ => ret_calm _).handle fun e => ?_
  split <;> trivial

theorem fenceActiveDeploys_calm : Calm (fenceActiveDeploys owner repo) := by
  refine (perform_calm rfl).handle fun e => ?_
  split <;> trivial

theorem createTag_calm (headSha : String) (tag : Option String) : Calm (createTag owner repo headSha tag) := by
  cases tag with
  | none => trivial
  | some tag => exact perform_calm rfl

theorem dropTag_calm (tag : Option String) : Calm (dropTag owner repo tag) := by
  cases tag with
  | none => trivial
  | some tag => exact removePinTag_calm tag

theorem runningApplication_calm (projectId serverHandle serviceName : String) :
    Calm (runningApplication projectId serverHandle serviceName) := by
  refine (perform_calm rfl).bind fun repository => ?_
  cases repository with
  | none => trivial
  | some repoId => exact (perform_calm rfl).bind fun _ => (perform_calm rfl).bind fun _ => trivial

theorem fenceOrRefuse_calm (params : DeployParams) : Calm (fenceOrRefuse state params) := by
  unfold fenceOrRefuse
  split
  · refine (fenceActiveDeploys_calm.bind fun _ => ret_calm _).handle fun e => ?_
    split <;> trivial
  · trivial

theorem rerun_maintains (hP : Grows P) (hwritten : ∀ log, P log → Written platform state owner repo log) (workflowRunId : Nat) :
    (rules platform state lands).Maintains () P (rerun owner repo runId workflowRunId) := by
  refine (calm_maintains hP crossBoundary_calm).bind fun _ => ?_
  refine (Maintains.perform stable (dispatch_leaves hP hwritten fun _ => rfl)).bind fun _ => ?_
  exact (calm_maintains hP (perform_calm rfl)).bind fun _ => calm_maintains hP (perform_calm rfl)

theorem tryDeployRerun_maintains (hP : Grows P) (hwritten : ∀ log, P log → Written platform state owner repo log)
    (dispatchTime : Contracts.Time) (ref headSha : String) :
    (rules platform state lands).Maintains () P (tryDeployRerun owner repo dispatchTime ref headSha runId) := by
  refine Maintains.handle ?_ fun e => ?_
  · refine (calm_maintains hP (perform_calm rfl)).bind fun latest => ?_
    cases latest with
    | none => exact .ret _
    | some workflowRunId => exact (rerun_maintains hP hwritten workflowRunId).bind fun _ => .ret _
  · split
    · exact .raise _
    · split
      · exact .raise _
      · exact .ret _

theorem waitOrRerun_maintains (hP : Grows P) (hwritten : ∀ log, P log → Written platform state owner repo log)
    (dispatchTime : Contracts.Time) (ref headSha : String) :
    (rules platform state lands).Maintains () P (waitOrRerun owner repo ref headSha runId dispatchTime) := by
  refine Maintains.handle ?_ fun e => ?_
  · exact (calm_maintains hP (perform_calm rfl)).bind fun _ => .ret _
  · split
    · refine (tryDeployRerun_maintains hP hwritten dispatchTime ref headSha).bind fun info => ?_
      cases info with
      | none => exact .raise _
      | some info => exact .ret _
    · exact .raise _

theorem dispatch_yields (tag : Option String) (hi : Clean (Due platform state) log) (h : Written platform state owner repo log) :
    (rules platform state lands).Yields () (fun _ => Dispatched platform state owner repo) (dispatch owner repo runId tag) log := by
  refine Safe.bind hi (calm_maintains written_grows crossBoundary_calm log hi h) (fun _ log hi h => ?_) fun _ _ _ _ _ h => nomatch h
  have hrun : ∀ (reply : Reply) log, payloadWorld.run () (.triggerWorkflowDispatch owner repo tag) reply log =
      reply.fate.serve (serve (.triggerWorkflowDispatch owner repo tag) reply) log := fun _ _ => rfl
  refine Yields.bind (M := fun _ => Dispatched platform state owner repo) hi (Yields.perform hrun ?_) fun _ _ _ h => .ret h
  rintro log' reply hi' rfl _ _
  refine ⟨⟨⟨h, hi⟩, fun u hu => absurd rfl hu⟩, fun _ _ => ⟨written_grows _ _ h, List.mem_cons_self⟩⟩

theorem dispatchAndWait_yields (headSha : String) (hi : Clean (Due platform state) log)
    (h : (∃ tag, pinTag headSha = .ok tag) → Written platform state owner repo log) :
    (rules platform state lands).Yields () (fun _ => Dispatched platform state owner repo)
      (dispatchAndWait owner repo headSha runId) log := by
  unfold dispatchAndWait
  cases htag : pinTag headSha with
  | error e => exact .raise
  | ok tag =>
    have hwritten := h ⟨tag, htag⟩
    have hguarded : (rules platform state lands).Yields () (fun _ => Dispatched platform state owner repo) (do
        createTag owner repo headSha tag
        let dispatchTime ← dispatch owner repo runId tag
        waitOrRerun owner repo (tag.getD "main") headSha runId dispatchTime) log := by
      refine Yields.bind hi (.of_maintains (calm_maintains written_grows (createTag_calm headSha tag)) hi hwritten) fun _ log hi h => ?_
      refine Yields.bind hi (dispatch_yields tag hi h) fun dispatchTime log hi h => ?_
      exact .of_maintains (waitOrRerun_maintains dispatched_grows (fun _ h => h.1) dispatchTime _ headSha) hi h
    change (rules platform state lands).Yields () _ ((Prog.attempt _).bind _) log
    refine Yields.bind (M := fun (r : Except Exn (WorkflowRun × Bool)) log => (∃ done, r = .ok done) →
        Dispatched platform state owner repo log) hi ?_ ?_
    · refine Safe.attempt (hguarded.conseq hi ?_)
      rintro r log _ h _ ⟨⟩ ⟨done, rfl⟩
      exact h done rfl
    · intro r log hi h
      cases r with
      | error e =>
        refine Yields.bind hi (.of_maintains (calm_maintains true_grows (dropTag_calm tag)) hi trivial)
          fun cleanupError _ _ _ => .raise
      | ok done =>
        refine Yields.bind hi (.of_maintains (calm_maintains dispatched_grows (dropTag_calm tag)) hi (h ⟨done, rfl⟩))
          fun cleanupError log hi h => ?_
        refine Yields.bind hi (.of_maintains (calm_maintains dispatched_grows (liftExcept_calm _)) hi h) fun _ log hi h => ?_
        refine Yields.bind hi (.of_maintains (calm_maintains dispatched_grows (liftExcept_calm _)) hi h) fun _ log hi h => ?_
        exact Yields.bind hi (.of_maintains (calm_maintains dispatched_grows (liftExcept_calm _)) hi h) fun _ _ _ h => .ret h

end Dispatching

section Recording

open Rules

variable {platform : Platform} {state : DevOpsState} {lands : String → Bool} {log : Log} {params : DeployParams} {serverIp : String}
  {port : Nat}

theorem createDeploymentRecord_maintains (serverHandle : String) (info : WorkflowRun) :
    (rules platform state lands).Maintains () (Dispatched platform state params.owner params.repo)
      (createDeploymentRecord state.projectId params.projectName serverHandle port (deploymentInfo platform state params) info.headSha) := by
  refine Maintains.handle ?_ fun e => ?_
  · refine (calm_maintains dispatched_grows (runningApplication_calm ..)).bind fun applicationId => ?_
    exact (Maintains.perform stable (createDeployment_leaves rfl)).bind fun _ => .ret _
  · split
    · exact .ret _
    · exact .raise _

theorem dispatchAndRecord_safe (serverHandle : String) (hi : Clean (Due platform state) log)
    (h : (∃ tag, pinTag state.headSha = .ok tag) → Written platform state params.owner params.repo log) :
    (rules platform state lands).Safe () (fun _ _ => True) (dispatchAndRecord platform state params serverIp port serverHandle) log := by
  have hgrows : Grows fun log => (∃ tag, pinTag state.headSha = .ok tag) → Written platform state params.owner params.repo log :=
    fun event log h htag => written_grows event log (h htag)
  refine Safe.bind hi (calm_maintains hgrows runCancelled_calm log hi h) (fun cancelled log hi h => ?_) fun _ _ _ _ => trivial
  cases cancelled with
  | true => trivial
  | false =>
    have hstopped : (rules platform state lands).Yields () (fun r log => ∀ done, r = .ok done →
        Dispatched platform state params.owner params.repo log) (dispatchOrStop params.owner params.repo state.headSha state.runId) log := by
      refine Yields.handle hi ?_ fun e _ _ => ?_
      · refine Yields.bind hi (dispatchAndWait_yields state.headSha hi h) fun done log hi h => Yields.ret fun _ _ => h
      · cases e <;> first | exact Yields.ret nofun | exact Yields.raise
    refine Safe.bind hi hstopped (fun r log hi h => ?_) fun _ _ _ _ => trivial
    cases r with
    | error update => trivial
    | ok done =>
      refine Safe.bind hi (createDeploymentRecord_maintains serverHandle done.1 log hi (h _ rfl done rfl)) (fun _ _ _ _ => trivial)
        fun _ _ _ _ => trivial

@[simp] theorem liftExcept_ok (a : A) : (liftExcept (.ok a) : Job A) = .ret a := rfl

theorem deployTo_safe (hcomplete : Deployable state → Complete platform lands) (hi : Clean (Due platform state) log)
    (hname : state.projectId.isEmpty = false) (hparams : extractDeployParams state = .ok (some params))
    (htarget : params.target = some (serverIp, port)) :
    (rules platform state lands).Safe () (fun _ _ => True) (deployTo platform state params serverIp port) log := by
  refine Safe.bind hi (calm_maintains true_grows runCancelled_calm log hi trivial) (fun cancelled log hi _ => ?_)
    fun _ _ _ _ => trivial
  cases cancelled with
  | true => trivial
  | false =>
    simp only [Bool.false_eq_true, if_false]
    cases hhandle : truthy params.serverHandle with
    | none => trivial
    | some serverHandle =>
      have hdeployable : (∃ tag, pinTag state.headSha = .ok tag) → Deployable state := fun htag =>
        ⟨hname, htag, params, hparams, by rw [htarget]; rfl, by rw [hhandle]; rfl⟩
      have huser : (rules platform state lands).Yields () (fun sshUser log => .connection sshUser ∈ log)
          (perform (.getServer serverHandle)) log :=
        Yields.perform (fun _ _ => rfl) fun log reply hi _ _ _ =>
          ⟨⟨⟨trivial, hi⟩, fun u hu => absurd rfl hu⟩, fun _ h => by cases h; exact List.mem_cons_self⟩
      refine Safe.bind hi huser (fun sshUser log hi huser => ?_) fun _ _ _ _ => trivial
      have huser : Event.connection sshUser ∈ log := huser sshUser rfl
      have hkey : (rules platform state lands).Yields () (fun key log => Event.connection sshUser ∈ log ∧
          ∀ sshKey, key = some sshKey → Event.sshKey sshKey ∈ log) (perform (.getServerSshKey serverHandle)) log := by
        refine Yields.perform (fun _ _ => rfl) ?_
        rintro log reply hi rfl _ _
        have hclean : Clean (Due platform state) ((Op.getServerSshKey serverHandle).events reply ++ log) := calm_clean rfl hi
        refine ⟨⟨hclean, fun u hu => absurd rfl hu⟩, fun key h => ?_⟩
        cases h
        refine ⟨(mem_grows _).append _ huser, fun sshKey hkey => List.mem_append_left _ ?_⟩
        have hreply : reply.key = some sshKey := hkey
        simp only [Op.events, hreply]
        exact List.mem_singleton.mpr rfl
      refine Safe.bind hi hkey (fun key log hi hanswered => ?_) fun _ _ _ _ => trivial
      obtain ⟨huser, hkeys⟩ := hanswered key rfl
      cases hkey : truthy key with
      | none => trivial
      | some sshKey =>
        have hmem : Event.sshKey sshKey ∈ log := hkeys sshKey (Option.eq_some_of_filter_eq_some hkey)
        refine Safe.bind hi (writeDeploySecrets_written hparams htarget hcomplete hi huser hmem) (fun _ log hi hwritten => ?_)
          fun _ _ _ _ => trivial
        have hwritten := hwritten _ rfl
        have hgrows : Grows fun log => Deployable state → Written platform state params.owner params.repo log :=
          fun event log h hstate => written_grows event log (h hstate)
        refine Safe.bind hi (calm_maintains hgrows (fenceOrRefuse_calm params) log hi hwritten) (fun refusal log hi hwritten => ?_)
          fun _ _ _ _ => trivial
        cases refusal with
        | some update => trivial
        | none => exact dispatchAndRecord_safe serverHandle hi fun htag => hwritten (hdeployable htag)

theorem deployerRun_safe (hcomplete : Deployable state → Complete platform lands) (hi : Clean (Due platform state) log) :
    (rules platform state lands).Safe () (fun _ _ => True) (deployerRun platform state) log := by
  unfold deployerRun
  cases hname : state.projectId.isEmpty with
  | true => trivial
  | false =>
    change (rules platform state lands).Safe () _ ((liftExcept (extractDeployParams state)).bind _) log
    cases hparams : extractDeployParams state with
    | error e => trivial
    | ok params =>
      cases params with
      | none => trivial
      | some params =>
        simp only [liftExcept_ok, Prog.bind]
        cases htarget : params.target with
        | none => trivial
        | some target =>
          refine Safe.handle hi (deployTo_safe hcomplete hi hname hparams htarget) (fun _ _ _ _ => trivial) fun e log _ _ => ?_
          cases e <;> trivial

end Recording

section Unhindered

variable {platform : Platform} {state : DevOpsState} {lands : String → Bool} {A B : Type} {log : Log}

def unhinderedFate (lands : String → Bool) : Op → Fate Exn
  | .setRepositorySecret _ _ name _ => if lands name then .served else .unsent (.exception "HTTPStatusError")
  | _ => .served

def unhindered (state : DevOpsState) (lands : String → Bool) (op : Op) : Reply where
  fate := unhinderedFate lands op
  status := "running"
  sshUser := "deploy"
  key := some "key"
  claim := ⟨state.runId, true, .member .running, none, none⟩
  now := 0
  workflow := ⟨1, some state.headSha⟩
  latest := none
  repoId := none
  applicationId := none

def smooth (state : DevOpsState) (lands : String → Bool) (op : Op) : Option (payloadWorld.Answer op) :=
  some (unhindered state lands op)

theorem unhindered_lands (op : Op) : Lands lands log (.call () op (unhindered state lands op)) := by
  cases op with
  | setRepositorySecret owner repo name value =>
    change (unhinderedFate lands (.setRepositorySecret owner repo name value)).carriedOut = lands name
    cases hname : lands name <;> simp [unhinderedFate, Fate.carriedOut, hname]
  | _ => trivial

def Gives (state : DevOpsState) (lands : String → Bool) (p : Job A) (a : A) : Prop :=
  ∀ log, ∃ log', solo payloadWorld () (smooth state lands) p log = (some (.ok a), log')

def Records (state : DevOpsState) (lands : String → Bool) (p : Job A) : Prop :=
  ∀ log, ∃ payload, Event.recorded payload ∈ (solo payloadWorld () (smooth state lands) p log).2

theorem Gives.ret (a : A) : Gives state lands (.ret a) a := fun log => ⟨log, rfl⟩

theorem solo_answered (op : Op) (log : Log) : solo payloadWorld () (smooth state lands) (perform op) log =
    (some ((unhinderedFate lands op).serve (serve op (unhindered state lands op)) log).1,
      ((unhinderedFate lands op).serve (serve op (unhindered state lands op)) log).2) := by
  have hanswer : smooth state lands op = some (unhindered state lands op) := rfl
  exact solo_perform (W := payloadWorld) hanswer

theorem Gives.perform {op : Op} (h : unhinderedFate lands op = .served) :
    Gives state lands (perform op) (op.value (unhindered state lands op)) := by
  intro log
  refine ⟨(serve op (unhindered state lands op) log).2, ?_⟩
  rw [solo_answered, h]
  rfl

variable {p : Job A}

theorem Gives.bind {f : A → Job B} {a : A} {b : B} (hp : Gives state lands p a) (hf : Gives state lands (f a) b) :
    Gives state lands (p.bind f) b := by
  intro log
  obtain ⟨mid, hrun⟩ := hp log
  obtain ⟨last, hrun'⟩ := hf mid
  exact ⟨last, (solo_bind_ok hrun).trans hrun'⟩

theorem Gives.handle {handler : Exn → Job A} {a : A} (hp : Gives state lands p a) :
    Gives state lands (p.handle handler) a := by
  intro log
  obtain ⟨last, hrun⟩ := hp log
  exact ⟨last, solo_handle_ok hrun⟩

theorem Gives.attempt {a : A} (hp : Gives state lands p a) : Gives state lands p.attempt (.ok a) := by
  intro log
  obtain ⟨last, hrun⟩ := hp log
  refine ⟨last, ?_⟩
  rw [solo_attempt, hrun]
  rfl

theorem Records.after {f : A → Job B} {a : A} (hp : Gives state lands p a) (hf : Records state lands (f a)) :
    Records state lands (p.bind f) := by
  intro log
  obtain ⟨mid, hrun⟩ := hp log
  rw [solo_bind_ok hrun]
  exact hf mid

theorem recorded_kept {event : Event} (h : event ∈ log) : event ∈ (solo payloadWorld () (smooth state lands) p log).2 := by
  refine solo_keeps (W := payloadWorld) (P := fun log : Log => event ∈ log) (fun op reply log _ h => ?_) h
  change event ∈ (reply.fate.serve (serve op reply) log).2
  cases reply.fate with
  | unsent e => exact h
  | _ => exact List.mem_append_right _ h

theorem Records.bind (f : A → Job B) (hp : Records state lands p) : Records state lands (p.bind f) := by
  intro log
  obtain ⟨payload, hmem⟩ := hp log
  refine ⟨payload, ?_⟩
  rcases hrun : solo payloadWorld () (smooth state lands) p log with ⟨r, log'⟩
  rw [hrun] at hmem
  cases r with
  | none =>
    rw [solo_bind_dead hrun]
    exact hmem
  | some r =>
    cases r with
    | error e =>
      rw [solo_bind_error hrun]
      exact hmem
    | ok a =>
      rw [solo_bind_ok hrun]
      exact recorded_kept hmem

theorem Records.attempt (hp : Records state lands p) : Records state lands p.attempt := by
  intro log
  obtain ⟨payload, hmem⟩ := hp log
  refine ⟨payload, ?_⟩
  rw [solo_attempt]
  exact hmem

theorem Records.handle (handler : Exn → Job A) (hp : Records state lands p) : Records state lands (p.handle handler) :=
  hp.attempt.bind _

variable {owner repo runId : String}

theorem runCancelled_gives : Gives state lands (runCancelled runId) false := by
  unfold runCancelled
  split
  · exact .ret _
  · exact (Gives.perform rfl).bind (.ret _)

theorem claimDispatch_gives : ∃ claim, Gives state lands (claimDispatch runId) claim ∧ requireLiveLease claim 0 = .ok () := by
  unfold claimDispatch
  split
  · exact ⟨none, .ret _, rfl⟩
  · exact ⟨_, (Gives.perform rfl).bind (.ret _), rfl⟩

theorem crossBoundary_gives : Gives state lands (crossBoundary runId) 0 := by
  obtain ⟨claim, hclaim, hlease⟩ : ∃ claim, Gives state lands (claimDispatch runId) claim ∧ requireLiveLease claim 0 = .ok () :=
    claimDispatch_gives
  refine hclaim.bind ((Gives.perform rfl).bind ?_)
  change Gives state lands ((liftExcept (requireLiveLease claim 0)).bind fun _ => .ret 0) 0
  rw [hlease]
  exact .ret 0

theorem setOrSkip_gives (secret : String × String) : ∃ n, Gives state lands (Prog.handle (do
      setRepositorySecret owner repo secret
      return 1)
    fun e => if e.isException then return 0 else .raise e) n := by
  cases hname : lands secret.1 with
  | true =>
    have hserved : unhinderedFate lands (.setRepositorySecret owner repo secret.1 secret.2) = .served := if_pos hname
    refine ⟨1, Gives.handle ?_⟩
    exact (Gives.perform hserved).bind (.ret 1)
  | false =>
    refine ⟨0, fun log => ⟨log, ?_⟩⟩
    have hfate : unhinderedFate lands (.setRepositorySecret owner repo secret.1 secret.2) = .unsent (.exception "HTTPStatusError") := by
      simp [unhinderedFate, hname]
    have hset : solo payloadWorld () (smooth state lands) (setRepositorySecret owner repo secret) log =
        (some (.error (.exception "HTTPStatusError")), log) := by
      refine (solo_answered (.setRepositorySecret owner repo secret.1 secret.2) log).trans ?_
      rw [hfate]
      rfl
    exact solo_handle_error (solo_bind_error hset)

theorem setRepositorySecrets_gives (secrets : Dict) : ∃ n, Gives state lands (setRepositorySecrets owner repo secrets) n := by
  induction secrets with
  | nil => exact ⟨0, .ret 0⟩
  | cons secret secrets ih =>
    obtain ⟨set, hset⟩ := setOrSkip_gives secret
    obtain ⟨others, hothers⟩ := ih
    exact ⟨set + others, hset.bind (hothers.bind (.ret _))⟩

theorem writeDeploySecrets_gives (serverIp projectName dotenvB64 sshKey sshUser : String) (port : Nat) :
    ∃ b, Gives state lands (writeDeploySecrets platform owner repo serverIp port projectName dotenvB64 sshKey sshUser) b := by
  unfold writeDeploySecrets
  cases registry platform with
  | none => exact ⟨false, .ret _⟩
  | some credentials =>
    obtain ⟨n, hn⟩ := setRepositorySecrets_gives (secretsMap credentials serverIp port projectName dotenvB64 sshKey sshUser)
    refine ⟨decide (n = (secretsMap credentials serverIp port projectName dotenvB64 sshKey sshUser).length), Gives.handle ?_⟩
    exact hn.bind (.ret _)

theorem fenceOrRefuse_gives (params : DeployParams) : Gives state lands (fenceOrRefuse state params) none := by
  unfold fenceOrRefuse
  split
  · exact ((Gives.perform rfl).handle.bind (.ret none)).handle
  · exact .ret none

theorem createTag_gives (headSha : String) (tag : Option String) : Gives state lands (createTag owner repo headSha tag) () := by
  cases tag with
  | none => exact .ret ()
  | some tag => exact .perform rfl

theorem dropTag_gives (tag : Option String) : Gives state lands (dropTag owner repo tag) none := by
  cases tag with
  | none => exact .ret none
  | some tag => exact ((Gives.perform rfl).bind (.ret none)).handle

theorem dispatchAndWait_gives {tag : Option String} (htag : pinTag state.headSha = .ok tag) :
    Gives state lands (dispatchAndWait owner repo state.headSha runId) (⟨1, some state.headSha⟩, false) := by
  have hwait : Gives state lands (waitOrRerun owner repo (tag.getD "main") state.headSha runId 0) (⟨1, some state.headSha⟩, false) := by
    refine Gives.handle ?_
    exact (Gives.perform rfl).bind (.ret _)
  have hdispatch : Gives state lands (dispatch owner repo runId tag) 0 := crossBoundary_gives.bind ((Gives.perform rfl).bind (.ret 0))
  have hverified : verifyDeployedSha ⟨1, some state.headSha⟩ state.headSha = .ok () := by simp [verifyDeployedSha]
  unfold dispatchAndWait
  rw [htag]
  change Gives state lands ((Prog.attempt _).bind _) _
  refine ((createTag_gives state.headSha tag).bind (hdispatch.bind hwait)).attempt.bind ((dropTag_gives tag).bind ?_)
  change Gives state lands ((liftExcept (verifyDeployedSha _ _)).bind _) _
  rw [hverified]
  exact .ret _

theorem createDeploymentRecord_records (serviceName serverHandle : String) (port : Nat) (info : DeploymentInfo)
    (deployedSha : Option String) :
    Records state lands (createDeploymentRecord state.projectId serviceName serverHandle port info deployedSha) := by
  have hnone : Gives state lands (runningApplication state.projectId serverHandle serviceName) none :=
    (Gives.perform rfl).bind (.ret none)
  refine Records.handle _ (Records.after hnone (Records.bind _ fun log => ?_))
  refine ⟨⟨state.projectId, serviceName, serverHandle, port, info, none, truthy deployedSha⟩, ?_⟩
  have hrun : solo payloadWorld () (smooth state lands)
      (perform (.createDeployment ⟨state.projectId, serviceName, serverHandle, port, info, none, truthy deployedSha⟩)) log = _ :=
    solo_answered _ log
  exact (congrArg (fun outcome => Event.recorded _ ∈ outcome.2) hrun).mpr List.mem_cons_self

theorem deployerRun_records (h : Deployable state) : Records state lands (deployerRun platform state) := by
  obtain ⟨hname, ⟨tag, htag⟩, params, hparams, htarget, hhandle⟩ := h
  obtain ⟨⟨serverIp, port⟩, htarget⟩ := Option.isSome_iff_exists.mp htarget
  obtain ⟨serverHandle, hhandle⟩ := Option.isSome_iff_exists.mp hhandle
  have hstopped : Gives state lands (dispatchOrStop params.owner params.repo state.headSha state.runId)
      (.ok (⟨1, some state.headSha⟩, false)) := by
    refine Gives.handle ?_
    exact (dispatchAndWait_gives htag).bind (.ret _)
  have hrecord : Records state lands (dispatchAndRecord platform state params serverIp port serverHandle) :=
    .after runCancelled_gives (.after hstopped (.bind _ (createDeploymentRecord_records _ _ _ _ _)))
  obtain ⟨written, hwrite⟩ : ∃ written, Gives state lands (writeDeploySecrets platform params.owner params.repo serverIp port
      params.projectName (dotenv platform state) "key" "deploy") written := writeDeploySecrets_gives ..
  have hdeploy : Records state lands (writeAndDeploy platform state params serverIp port serverHandle "deploy" "key") :=
    .after hwrite (.after (fenceOrRefuse_gives params) hrecord)
  have hto : Records state lands (deployTo platform state params serverIp port) := by
    refine .after runCancelled_gives ?_
    simp only [Bool.false_eq_true, if_false, hhandle]
    exact .after (Gives.perform rfl) (.after (Gives.perform rfl) hdeploy)
  unfold deployerRun
  rw [hname, hparams]
  simp only [Bool.false_eq_true, if_false, liftExcept_ok, Bind.bind, Prog.bind, htarget]
  exact hto.handle _

end Unhindered

section Results

variable {platform : Platform} {state : DevOpsState} {lands : String → Bool} {log : Log}

theorem Backed.written {payload : Deployment} (h : Backed platform state log) (hmem : .recorded payload ∈ log) :
    ∃ owner repo, Written platform state owner repo log := by
  obtain ⟨newer, older, rfl⟩ := List.append_of_mem hmem
  obtain ⟨_, ⟨owner, repo, hdispatched⟩, hwritten⟩ := h newer older payload rfl
  obtain ⟨later, earlier, rfl⟩ := List.append_of_mem hdispatched
  refine ⟨owner, repo, ?_⟩
  have hearlier := hwritten later earlier owner repo rfl
  exact written_grows.append newer (written_grows _ _ (written_grows.append later (written_grows _ _ hearlier)))

def OnlyLanded (lands : String → Bool) (log : Log) : Prop := ∀ owner repo name value, .wrote owner repo name value ∈ log → lands name = true

theorem OnlyLanded.complete {owner repo : String} (h : OnlyLanded lands log) (hwritten : Written platform state owner repo log) :
    Complete platform lands := by
  obtain ⟨params, serverIp, port, credentials, sshUser, sshKey, _, _, hregistry, _, _, hall⟩ := hwritten
  refine ⟨by rw [hregistry]; rfl, fun name hname => ?_⟩
  have hnames : (secretsMap credentials serverIp port params.projectName (dotenv platform state) sshKey sshUser).map Prod.fst =
      secretNames := rfl
  rw [← hnames] at hname
  obtain ⟨secret, hmem, rfl⟩ := List.mem_map.mp hname
  exact h owner repo secret.1 secret.2 (hall secret hmem)

theorem wrote_events {op : Op} {reply : Reply} {owner repo name value : String} (h : .wrote owner repo name value ∈ op.events reply) :
    op = .setRepositorySecret owner repo name value := by
  cases op with
  | getServerSshKey handle =>
    simp only [Op.events] at h
    obtain ⟨key, _, heq⟩ := List.mem_map.mp h
    cases heq
  | _ => simp_all [Op.events]

theorem serve_log (fate : Fate Exn) (op : Op) (reply : Reply) :
    (fate.serve (serve op reply) log).2 = (if fate.carriedOut then op.events reply else []) ++ log := by
  cases fate <;> rfl

theorem unhindered_onlyLanded (state : DevOpsState) {A : Type} (p : Job A) :
    OnlyLanded lands (solo payloadWorld () (smooth state lands) p []).2 := by
  refine solo_keeps (W := payloadWorld) (P := OnlyLanded lands) ?_ nofun
  rintro op reply log hanswer h owner repo name value hmem
  cases hanswer
  have hlog : (payloadWorld.run () op (unhindered state lands op) log).2 = _ := serve_log (unhinderedFate lands op) op _
  rw [hlog] at hmem
  rcases List.mem_append.mp hmem with hnew | hold
  · split at hnew
    · next hcarried =>
      cases wrote_events hnew
      have hlands : Lands lands log (.call () (.setRepositorySecret owner repo name value) (unhindered state lands _)) :=
        unhindered_lands _
      exact hlands.symm.trans hcarried
    · cases hnew
  · exact h owner repo name value hold

end Results

/-- Every execution with these outcomes of the secret writes backs what it records, exactly where
either the state cannot be deployed or all secrets land. -/
theorem digest_written_iff (platform : Platform) (state : DevOpsState) (lands : String → Bool) :
    (∀ sheets : List ((op : Op) → payloadWorld.Answer op), (∀ sheet ∈ sheets, ∀ op log, Lands lands log (.call () op (sheet op))) →
      Backed platform state (follow payloadWorld () (deployerRun platform state) sheets []).2) ↔
      (Deployable state → Complete platform lands) := by
  constructor
  · intro hbacked hdeployable
    obtain ⟨n, hn⟩ := exists_follow (W := payloadWorld) (t := ()) (unhindered state lands) (deployerRun platform state) []
    have hsheets : ∀ sheet ∈ List.replicate n (unhindered state lands), ∀ op log, Lands lands log (.call () op (sheet op)) := by
      intro sheet hmem op log
      rw [(List.mem_replicate.mp hmem).2]
      exact unhindered_lands op
    have hlog : Backed platform state (solo payloadWorld () (smooth state lands) (deployerRun platform state) []).2 := by
      have hfollowed := hbacked _ hsheets
      rw [hn] at hfollowed
      exact hfollowed
    have hrecords : Records state lands (deployerRun platform state) := deployerRun_records hdeployable
    obtain ⟨payload, hrecorded⟩ := hrecords []
    obtain ⟨owner, repo, hwritten⟩ := hlog.written hrecorded
    exact (unhindered_onlyLanded state (deployerRun platform state)).complete hwritten
  · intro hcomplete sheets hsheets
    have hsafe : (rules platform state lands).Safe () (fun _ _ => True) (deployerRun platform state) ([] : Log) :=
      deployerRun_safe hcomplete trivial
    have hclean : Clean (Due platform state) _ := (hsafe.follow trivial hsheets).1
    exact backed_of_clean hclean

def sampleState : DevOpsState where
  projectId := "p1"
  runId := ""
  slug := some "shop"
  modules := none
  htmlUrl := "https://github.com/acme/shop"
  allocatedResources := [⟨"backend", some "10.0.0.7", some 8001, some "vps-1"⟩]
  secretValues := [("BOT_TOKEN", "t")]
  nonSecretValues := []
  envOverrides := [("GREETING", "hello")]
  headSha := ""
  fenceActiveDeploys := false

def samplePlatform : Platform := ⟨fun _ => some "registry.example.com", id, fun _ => "digest"⟩

def refusesDotenv : List ((op : Op) → payloadWorld.Answer op) := List.replicate 20 (unhindered sampleState (· ≠ "DOTENV"))

def Event.writes (event : Event) (written : String) : Bool :=
  match event with
  | .wrote _ _ name _ => name = written
  | _ => false

theorem digest_unwritten :
    ¬ Backed samplePlatform sampleState (follow payloadWorld () (deployerRun samplePlatform sampleState) refusesDotenv []).2 := by
  intro h
  have hrecorded : Event.recorded ⟨"p1", "shop", "vps-1", 8001, ⟨"acme/shop", "main", "backend", "digest"⟩, none, none⟩ ∈
      (follow payloadWorld () (deployerRun samplePlatform sampleState) refusesDotenv []).2 := by decide +kernel
  have hnever : ∀ event ∈ (follow payloadWorld () (deployerRun samplePlatform sampleState) refusesDotenv []).2,
      event.writes "DOTENV" = false := by decide +kernel
  obtain ⟨owner, repo, params, serverIp, port, credentials, sshUser, sshKey, _, _, _, _, _, hall⟩ := h.written hrecorded
  have hwritten := hnever _ (hall _ List.mem_cons_self)
  cases hwritten

end Orchestrator.Payload
