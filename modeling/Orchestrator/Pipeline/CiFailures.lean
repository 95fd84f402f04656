import Orchestrator.Pipeline.World

/-!
The poller's answer to a red CI run: a fix task and three transitions that take
the story back to work, each a request of its own. What an interruption between
two of them leaves is followed to the poller's next tick.
-/

namespace Orchestrator.Pipeline

open Async Contracts

inductive FingerprintPayload where
  | jobs (failed : List (String × List String))
  | unavailable (reason : Option String)

/-- `digest` stands for the hash of the payload's canonical text. -/
structure CiConfig where
  failureLimit : Nat
  digest : FingerprintPayload → String

def failureFingerprint (config : CiConfig) (failedJobs : List FailedJob) (unavailableReason : Option String) : String :=
  config.digest (if failedJobs.isEmpty then .unavailable unavailableReason
    else .jobs (failedJobs.map fun job => (job.name, job.failedSteps)))

def ciMetadata (task : Task) : Option CiEvidence := task.failureMetadata.bind (·.ciFailure)

def ciInfrastructureSteps : List String := ["Set up Docker Buildx with retry"]

def describeJob (job : FailedJob) : List String :=
  ["Job: " ++ job.name] ++ job.failedSteps.map ("Failed step: " ++ ·) ++
    match job.logExcerpt.filter fun text => !text.isEmpty, job.logUnavailableReason.filter fun text => !text.isEmpty with
    | some excerpt, _ => ["Log excerpt:", "```text", excerpt, "```"]
    | none, some reason => ["Job log unavailable: " ++ reason]
    | none, none => []

def buildFailureDescription (evidence : CiEvidence) : String :=
  let head := ["CI failed on branch `" ++ evidence.branch ++ "`.", "", "Run URL: " ++ evidence.runUrl,
    "Run ID: " ++ toString evidence.runId, "Head SHA: " ++ evidence.headSha,
    "Failure fingerprint: " ++ evidence.fingerprint,
    "Fingerprint attempt: " ++ toString evidence.fingerprintAttempt, ""]
  let jobs := if evidence.failedJobs.isEmpty then
      ["Failure details unavailable: " ++ evidence.detailsUnavailableReason.getD ""]
    else evidence.failedJobs.flatMap describeJob
  let advice := if evidence.failedJobs.any fun job => job.failedSteps.any (ciInfrastructureSteps.contains ·) then
      ["", "CI infrastructure failure: Docker image registry was unavailable while preparing Buildx after retries.",
        "Do not change application code. Re-run CI when the registry is available."]
    else ["", "Fix all reported failures, run local checks, then push once."]
  "\n".intercalate (head ++ jobs ++ advice)

def priorEvidence (s : State) (storyId : String) : List CiEvidence := (s.tasksOf storyId).filterMap ciMetadata

def evidenceOf (config : CiConfig) (branch : String) (run : WorkflowRun) (prior : List CiEvidence)
    (details : FailureDetails) : CiEvidence :=
  let reason := details.unavailableReason.filter fun text => !text.isEmpty
  let unavailableReason := if details.failedJobs.isEmpty && reason.isNone then some "GitHub returned no failed jobs"
    else details.unavailableReason
  let fingerprint := failureFingerprint config details.failedJobs unavailableReason
  { runId := run.id
    runUrl := run.htmlUrl.getD ""
    headSha := ((run.headSha.filter fun text => !text.isEmpty).getD "unknown")
    branch := branch
    failedJobs := details.failedJobs
    detailsUnavailableReason := unavailableReason
    fingerprint := fingerprint
    fingerprintAttempt := (prior.filter (·.fingerprint = fingerprint)).length + 1 }

def ciFixTask (storyId projectId : String) (evidence : CiEvidence) : TaskCreate where
  projectId := projectId
  storyId := some storyId
  title := "Fix CI failure (run " ++ toString evidence.runId ++ ")"
  type := .fix
  status := .todo
  description := buildFailureDescription evidence
  failureMetadata := some ⟨some evidence, none, none⟩

def failureDetails (owner repoName : String) (runId : Nat) : Job FailureDetails :=
  exceptException (ask (.getWorkflowFailureDetails owner repoName runId)) fun type => return ⟨[], some type⟩

def transitionThrough (storyId : String) : List StoryAction → Job Unit
  | [] => return ()
  | action :: rest => do
    transitionStory storyId action none
    transitionThrough storyId rest

def resumption : List StoryAction := [.fail, .reopen, .start]

def answerFailure (config : CiConfig) (storyId projectId : String) (evidence : CiEvidence) : Job Bool :=
  if evidence.fingerprintAttempt > config.failureLimit then do
    transitionStory storyId .humanReview none
    ask (.notifyAdmins ("CI failure " ++ evidence.fingerprint ++ " exhausted " ++ toString config.failureLimit ++
      " fix attempts for story " ++ storyId))
    return false
  else do
    createTask (ciFixTask storyId projectId evidence)
    transitionThrough storyId resumption
    return true

def handleFailedRun (config : CiConfig) (owner repoName storyId projectId branch : String) (run : WorkflowRun) :
    Job Bool := do
  let tasks ← getTasksByStory storyId
  let prior := tasks.filterMap ciMetadata
  if prior.any (·.runId = run.id) then return false
  else
    let details ← failureDetails owner repoName run.id
    answerFailure config storyId projectId (evidenceOf config branch run prior details)

def storyBranch (storyId : String) : String := "story/" ++ storyId

def WorkflowRun.red (run : WorkflowRun) : Bool := run.status = "completed" && run.conclusion = some "failure"

def pollRun (config : CiConfig) (story : Story) (owner repoName : String) (found : Option WorkflowRun) : Job Bool :=
  match found.filter WorkflowRun.red with
  | none => return false
  | some failed =>
    exceptException (handleFailedRun config owner repoName story.id story.projectId (storyBranch story.id) failed)
      fun _ => return false

def pollBranch (config : CiConfig) (story : Story) (owner repoName : String) : Job Bool := do
  let found ← exceptException (ask (.getLatestWorkflowRun owner repoName (storyBranch story.id))) fun _ => return none
  pollRun config story owner repoName found

def pollRepository (config : CiConfig) (story : Story) : Option Repository → Job Bool
  | none => return false
  | some repo => match parseOwnerRepo (repo.gitUrl.getD "") with
    | none => .raise (.exception "IndexError")
    | some (owner, repoName) => pollBranch config story owner repoName

def pollStory (config : CiConfig) (story : Story) : Job Bool := do
  let repo ← ask (.getPrimaryRepository story.projectId)
  pollRepository config story repo

def pollStories (config : CiConfig) : List Story → Job Nat
  | [] => return 0
  | story :: rest => do
    let created ← pollStory config story
    let fixed ← pollStories config rest
    return if created then fixed + 1 else fixed

def pollCiFailures (config : CiConfig) : Job Nat := do
  let stories ← getStoriesByStatus .prReview
  pollStories config stories

structure GitHub where
  repository : String → Repository
  latestRun : String → Option WorkflowRun
  details : Nat → FailureDetails
  hosted : ∀ projectId, ∃ owner repoName, parseOwnerRepo ((repository projectId).gitUrl.getD "") = some (owner, repoName)

def GitHub.answer (github : GitHub) : (call : ServiceCall) → Except Exn call.Res
  | .clock => .ok (0 : Nat)
  | .getPrimaryRepository projectId => .ok (some (github.repository projectId))
  | .getLatestWorkflowRun _ _ branch => .ok (github.latestRun branch)
  | .getWorkflowFailureDetails _ _ runId => .ok (github.details runId)
  | .stopApplication _ => .ok ()
  | .resolveProjectRecipient .. => .ok ⟨"", "", ""⟩
  | .notifyAdmins _ => .ok ()
  | .recoverQaHandoff _ => .ok false

def GitHub.reply (github : GitHub) : Reply := ⟨.served, "", github.answer, .writeStory ⟨"", "", .created, none, none⟩⟩

def GitHub.undisturbed (github : GitHub) : Sheet := fun _ => some github.reply

def openStatus (status : TaskStatus) : Bool := status != .done && status != .cancelled

def fixTasks (s : State) (storyId : String) (runId : Nat) : List Task :=
  (s.tasksOf storyId).filter fun task => (ciMetadata task).any (·.runId = runId)

def State.through (storyId : String) : List StoryAction → State → State
  | [], s => s
  | action :: rest, s => match s.transitionStory storyId action none with
    | (.ok _, s) => s.through storyId rest
    | (.error _, s) => s

def exhausted (config : CiConfig) (s : State) (storyId : String) (run : WorkflowRun) (details : FailureDetails) : Bool :=
  (evidenceOf config (storyBranch storyId) run (priorEvidence s storyId) details).fingerprintAttempt > config.failureLimit

def withFixTask (config : CiConfig) (storyId projectId : String) (run : WorkflowRun) (details : FailureDetails)
    (newId : String) (s : State) : State :=
  (s.createTask (ciFixTask storyId projectId
    (evidenceOf config (storyBranch storyId) run (priorEvidence s storyId) details)) newId).2

def answered (config : CiConfig) (github : GitHub) (s : State) (story : Story) : State :=
  match (github.latestRun (storyBranch story.id)).filter (·.red) with
  | none => s
  | some failed =>
    if (fixTasks s story.id failed.id).isEmpty then
      if exhausted config s story.id failed (github.details failed.id) then
        (s.transitionStory story.id .humanReview none).2
      else (withFixTask config story.id story.projectId failed (github.details failed.id) "" s).through story.id resumption
    else s

def Resumed (s : State) (storyId : String) (runId : Nat) : Prop :=
  ∃ story, s.story? storyId = some story ∧ (story.status = .waitingHumanReview ∨
    story.status = .inProgress ∧ ((fixTasks s storyId runId).filter (openStatus ·.status)).length = 1)

def Rescanned (config : CiConfig) (github : GitHub) (s : State) (storyId : String) (runId : Nat) : Prop :=
  Resumed s storyId runId ∨ Resumed (after github.undisturbed (pollCiFailures config) s) storyId runId

section Undisturbed

variable (config : CiConfig) (github : GitHub) (s : State)

theorem prior_any_iff (storyId : String) (runId : Nat) : ((s.tasksOf storyId).filterMap ciMetadata).any (·.runId = runId) = !(fixTasks s storyId runId).isEmpty := by
  unfold fixTasks
  induction s.tasksOf storyId with
  | nil => rfl
  | cons task rest ih =>
    cases hmeta : ciMetadata task with
    | none => simp [hmeta, ih]
    | some evidence =>
      by_cases hrun : evidence.runId = runId
      · simp [hmeta, hrun]
      · simp [hmeta, hrun, ih]

def Caught {A : Type} : Except Exn A → Prop
  | .error .cancelledError => False
  | _ => True

theorem solo_request (op : Op) : alone github.undisturbed (perform op) s =
    (some (run .scheduler op github.reply s).1, (run .scheduler op github.reply s).2) :=
  solo_perform (W := pipelineWorld) rfl

theorem solo_through (storyId : String) (actions : List StoryAction) : ∃ outcome, Caught outcome ∧
    alone github.undisturbed (transitionThrough storyId actions) s =
      (some outcome, s.through storyId actions) := by
  induction actions generalizing s with
  | nil => exact ⟨.ok (), trivial, rfl⟩
  | cons action rest ih =>
    have hask : alone github.undisturbed (transitionStory storyId action none) s =
      (some (s.transitionStory storyId action none).1, (s.transitionStory storyId action none).2) := solo_request ..
    unfold State.through
    rcases transitionStory_cases storyId action none s with h | ⟨row, -, -, -, -, h⟩
    · rw [h] at hask ⊢
      exact ⟨.error (.exception _), trivial, solo_bind_error hask⟩
    · rw [h] at hask ⊢
      obtain ⟨outcome, hcaught, hrest⟩ := ih (s.moveStory row action none)
      exact ⟨outcome, hcaught, (solo_bind_ok hask).trans hrest⟩

theorem solo_answerFailure (storyId projectId : String) (evidence : CiEvidence) : ∃ outcome, Caught outcome ∧
    alone github.undisturbed (answerFailure config storyId projectId evidence) s = (some outcome,
      if evidence.fingerprintAttempt > config.failureLimit then (s.transitionStory storyId .humanReview none).2
      else (s.createTask (ciFixTask storyId projectId evidence) "").2.through storyId resumption) := by
  unfold answerFailure
  split
  · have hask : alone github.undisturbed (transitionStory storyId .humanReview none) s =
      (some (s.transitionStory storyId .humanReview none).1, (s.transitionStory storyId .humanReview none).2) :=
      solo_request ..
    rcases transitionStory_cases storyId .humanReview none s with h | ⟨row, -, -, -, -, h⟩
    · rw [h] at hask ⊢
      exact ⟨.error (.exception _), trivial, solo_bind_error hask⟩
    · rw [h] at hask ⊢
      exact ⟨.ok false, trivial, (solo_bind_ok hask).trans (solo_bind_ok (solo_request ..))⟩
  · have hcreate : alone github.undisturbed (createTask (ciFixTask storyId projectId evidence)) s =
      (some (.ok ()), (s.createTask (ciFixTask storyId projectId evidence) "").2) := solo_request ..
    obtain ⟨outcome, hcaught, hmoved⟩ :=
      solo_through github (s.createTask (ciFixTask storyId projectId evidence) "").2 storyId resumption
    match outcome with
    | .ok () => exact ⟨.ok true, trivial, (solo_bind_ok hcreate).trans (solo_bind_ok hmoved)⟩
    | .error (.exception type) => exact ⟨.error (.exception type), trivial, (solo_bind_ok hcreate).trans (solo_bind_error hmoved)⟩
    | .error .cancelledError => exact hcaught.elim

theorem solo_handleFailedRun (owner repoName storyId projectId : String) (failed : WorkflowRun) : ∃ outcome, Caught outcome ∧
    alone github.undisturbed
      (handleFailedRun config owner repoName storyId projectId (storyBranch storyId) failed) s = (some outcome,
        if (fixTasks s storyId failed.id).isEmpty then
          if exhausted config s storyId failed (github.details failed.id) then
            (s.transitionStory storyId .humanReview none).2
          else (withFixTask config storyId projectId failed (github.details failed.id) "" s).through storyId resumption
        else s) := by
  have htasks : alone github.undisturbed (getTasksByStory storyId) s =
    (some (.ok (s.tasksOf storyId)), s) := solo_request ..
  unfold handleFailedRun
  simp only [Prog.bind_eq, solo_bind_ok htasks, prior_any_iff]
  by_cases hfixed : (fixTasks s storyId failed.id).isEmpty = true
  · have hdetails : alone github.undisturbed (failureDetails owner repoName failed.id) s =
      (some (.ok (github.details failed.id)), s) := solo_handle_ok (solo_request ..)
    obtain ⟨outcome, hcaught, hanswer⟩ := solo_answerFailure config github s storyId projectId
      (evidenceOf config (storyBranch storyId) failed (priorEvidence s storyId) (github.details failed.id))
    refine ⟨outcome, hcaught, ?_⟩
    simp only [hfixed, Bool.not_true, Bool.false_eq_true, if_false, if_true, solo_bind_ok hdetails]
    refine hanswer.trans ?_
    simp only [exhausted, decide_eq_true_eq, withFixTask]
  · refine ⟨.ok false, trivial, ?_⟩
    simp [hfixed, solo]

theorem solo_pollBranch (story : Story) (owner repoName : String) : ∃ created,
    alone github.undisturbed (pollBranch config story owner repoName) s =
      (some (.ok created), answered config github s story) := by
  have hlatest : alone github.undisturbed
      (exceptException (ask (.getLatestWorkflowRun owner repoName (storyBranch story.id))) fun _ => Prog.ret none) s =
    (some (.ok (github.latestRun (storyBranch story.id))), s) := solo_handle_ok (solo_request ..)
  have hrun : ∃ created, alone github.undisturbed
      (pollRun config story owner repoName (github.latestRun (storyBranch story.id))) s =
        (some (.ok created), answered config github s story) := by
    unfold pollRun answered
    cases (github.latestRun (storyBranch story.id)).filter WorkflowRun.red with
    | none => exact ⟨false, rfl⟩
    | some failed =>
      obtain ⟨outcome, hcaught, hhandled⟩ :=
        solo_handleFailedRun config github s owner repoName story.id story.projectId failed
      match outcome with
      | .ok created => exact ⟨created, solo_handle_ok hhandled⟩
      | .error (.exception type) => exact ⟨false, solo_handle_error hhandled⟩
      | .error .cancelledError => exact hcaught.elim
  obtain ⟨created, hrun⟩ := hrun
  exact ⟨created, (solo_bind_ok hlatest).trans hrun⟩

theorem solo_pollStory (story : Story) : ∃ created,
    alone github.undisturbed (pollStory config story) s =
      (some (.ok created), answered config github s story) := by
  have hrepo : alone github.undisturbed (ask (.getPrimaryRepository story.projectId)) s =
    (some (.ok (some (github.repository story.projectId))), s) := solo_request ..
  obtain ⟨owner, repoName, hparse⟩ := github.hosted story.projectId
  obtain ⟨created, hbranch⟩ := solo_pollBranch config github s story owner repoName
  refine ⟨created, (solo_bind_ok hrepo).trans ?_⟩
  simp only [pollRepository, hparse]
  exact hbranch

theorem solo_pollStories (stories : List Story) : ∃ fixed,
    alone github.undisturbed (pollStories config stories) s =
      (some (.ok fixed), stories.foldl (answered config github) s) := by
  induction stories generalizing s with
  | nil => exact ⟨0, rfl⟩
  | cons story rest ih =>
    obtain ⟨created, hstory⟩ := solo_pollStory config github s story
    obtain ⟨fixed, hrest⟩ := ih (answered config github s story)
    exact ⟨_, (solo_bind_ok hstory).trans (solo_bind_ok hrest)⟩

theorem after_pollCiFailures : after github.undisturbed (pollCiFailures config) s =
    (s.stories.filter (·.status = .prReview)).foldl (answered config github) s := by
  have hstories : alone github.undisturbed (getStoriesByStatus .prReview) s =
    (some (.ok (s.stories.filter (·.status = .prReview))), s) := solo_request ..
  obtain ⟨fixed, hpolled⟩ := solo_pollStories config github s (s.stories.filter (·.status = .prReview))
  exact congrArg Prod.snd ((solo_bind_ok hstories).trans hpolled)

end Undisturbed

section Through

variable {s : State} {story : Story} {storyId otherId : String}

theorem through_story_of_ne (actions : List StoryAction) (h : otherId ≠ storyId) :
    (s.through storyId actions).story? otherId = s.story? otherId := by
  induction actions generalizing s with
  | nil => rfl
  | cons action rest ih =>
    unfold State.through
    rcases transitionStory_cases storyId action none s with hmove | ⟨row, -, rfl, -, -, hmove⟩
    · rw [hmove]
    · rw [hmove]
      exact ih.trans (story_moveStory_of_ne h)

theorem through_tasks (actions : List StoryAction) : (s.through storyId actions).tasks = s.tasks := by
  induction actions generalizing s with
  | nil => rfl
  | cons action rest ih =>
    unfold State.through
    rcases transitionStory_cases storyId action none s with hmove | ⟨row, -, -, -, -, hmove⟩
    · rw [hmove]
    · rw [hmove]
      exact ih

theorem through_completed (h : s.completed storyId = false) (actions : List StoryAction)
    (hactions : ∀ action ∈ actions, action.target ≠ .completed) :
    (s.through storyId actions).completed otherId = s.completed otherId := by
  induction actions generalizing s with
  | nil => rfl
  | cons action rest ih =>
    unfold State.through
    rcases transitionStory_cases storyId action none s with hmove | ⟨row, hrow, rfl, -, -, hmove⟩
    · rw [hmove]
    · rw [hmove]
      have hsource : row.status ≠ .completed := by simpa [State.completed, hrow] using h
      have hkept (otherId : String) : (s.moveStory row action none).completed otherId = s.completed otherId :=
        completed_moveStory hrow hsource (hactions action List.mem_cons_self)
      exact (ih ((hkept row.id).trans h) fun a ha => hactions a (List.mem_cons_of_mem _ ha)).trans (hkept otherId)

theorem resumption_completed : (s.through storyId resumption).completed otherId = s.completed otherId := by
  unfold resumption State.through
  rcases transitionStory_cases storyId .fail none s with hmove | ⟨row, hrow, rfl, -, hvalid, hmove⟩
  · rw [hmove]
  · rw [hmove]
    have hsource : row.status ≠ .completed := by
      intro hcompleted
      rw [hcompleted] at hvalid
      exact absurd hvalid (by decide)
    have hfailed (otherId : String) : (s.moveStory row .fail none).completed otherId = s.completed otherId :=
      completed_moveStory hrow hsource (by decide)
    have hopen : (s.moveStory row .fail none).completed row.id = false := by
      rw [hfailed]
      simp [State.completed, hrow, hsource]
    exact (through_completed hopen [.reopen, .start] (by decide)).trans (hfailed otherId)

def onTheWay (free : Bool) : List StoryStatus := [.prReview, .failed, .reopened, if free then .inProgress else .reopened]

theorem through_take {n : Nat} (hs : s.story? story.id = some story) (hreview : story.status = .prReview) (hn : n ≤ 3) :
    ∃ status, (s.through story.id (resumption.take n)).story? story.id = some { story with status := status } ∧
      (onTheWay (s.unblocked story))[n]? = some status := by
  have hopen : story.status ≠ .completed := by rw [hreview]; decide
  let failed : Story := { story with status := .failed }
  let reopened : Story := { story with status := .reopened }
  let s₁ := s.moveStory story .fail none
  let s₂ := s₁.moveStory failed .reopen none
  have hfailed : s₁.story? failed.id = some failed := story_moveStory_self hs
  have hreopened : s₂.story? reopened.id = some reopened := story_moveStory_self hfailed
  have hfail : s.transitionStory story.id .fail none = (.ok (), s₁) :=
    transitionStory_ok hs (fun h => by cases h) (by rw [hreview]; decide)
  have hreopen : s₁.transitionStory story.id .reopen none = (.ok (), s₂) :=
    transitionStory_ok hfailed (fun h => by cases h) (show StoryStatus.reopened ∈ storyTransitions .failed by decide)
  have hfree : s₂.unblocked reopened = s.unblocked story := by
    have hfirst (id : String) : s₁.completed id = s.completed id := completed_moveStory hs hopen (by decide)
    have hsecond (id : String) : s₂.completed id = s₁.completed id :=
      completed_moveStory hfailed (show StoryStatus.failed ≠ .completed by decide) (by decide)
    exact unblocked_of_completed (fun id => (hsecond id).trans (hfirst id)) story
  have hstart : (s₂.transitionStory reopened.id .start none).2.story? story.id =
      some { story with status := if s.unblocked story then .inProgress else .reopened } := by
    cases hblocked : s.unblocked story with
    | true =>
      have hmoved : s₂.transitionStory reopened.id .start none = (.ok (), s₂.moveStory reopened .start none) :=
        transitionStory_ok hreopened (fun _ => hfree.trans hblocked)
          (show StoryStatus.inProgress ∈ storyTransitions .reopened by decide)
      rw [hmoved]
      exact story_moveStory_self hreopened
    | false =>
      rcases transitionStory_cases reopened.id .start none s₂ with hmoved | ⟨row, hrow, -, hrowFree, -, -⟩
      · rw [hmoved]
        exact hreopened
      · cases hreopened.symm.trans hrow
        have htrue : s₂.unblocked reopened = true := hrowFree rfl
        rw [hfree, hblocked] at htrue
        cases htrue
  match n, hn with
  | 0, _ => exact ⟨.prReview, by rw [← hreview]; exact hs, rfl⟩
  | 1, _ =>
    refine ⟨.failed, ?_, rfl⟩
    simp only [resumption, List.take, State.through, hfail]
    exact hfailed
  | 2, _ =>
    refine ⟨.reopened, ?_, rfl⟩
    simp only [resumption, List.take, State.through, hfail, hreopen]
    exact hreopened
  | 3, _ =>
    refine ⟨_, ?_, rfl⟩
    simp only [resumption, List.take, State.through, hfail, hreopen]
    have hlast : (s₂.transitionStory story.id .start none).2.story? story.id = _ := hstart
    generalize s₂.transitionStory story.id .start none = r at hlast ⊢
    rcases r with ⟨outcome, s₃⟩
    cases outcome with
    | ok _ | error _ => exact hlast

end Through

section Answered

variable (config : CiConfig) (github : GitHub) (row : Story) {s : State} {story : Story} {storyId : String}
  {failed : WorkflowRun}

theorem withFixTask_tasksOf_self {projectId newId : String} {details : FailureDetails} :
    fixTasks (withFixTask config storyId projectId failed details newId s) storyId failed.id =
      fixTasks s storyId failed.id ++ [⟨ciFixTask storyId projectId
        (evidenceOf config (storyBranch storyId) failed (priorEvidence s storyId) details), newId⟩] := by
  simp [withFixTask, fixTasks, State.tasksOf, State.createTask, State.record, ciFixTask, ciMetadata, evidenceOf]

theorem answered_other (h : storyId ≠ row.id) : (answered config github s row).story? storyId = s.story? storyId ∧
    (answered config github s row).tasksOf storyId = s.tasksOf storyId := by
  unfold answered
  split
  · exact ⟨rfl, rfl⟩
  · split
    · split
      · rcases transitionStory_cases row.id .humanReview none s with hmove | ⟨_, -, hid, -, -, hmove⟩
        · rw [hmove]
          exact ⟨rfl, rfl⟩
        · rw [hmove]
          exact ⟨story_moveStory_of_ne (hid ▸ h), rfl⟩
      · refine ⟨(through_story_of_ne _ h).trans rfl, ?_⟩
        unfold State.tasksOf
        rw [through_tasks]
        simp [withFixTask, State.createTask, State.record, ciFixTask, h.symm]
    · exact ⟨rfl, rfl⟩

theorem answered_completed : (answered config github s row).completed storyId = s.completed storyId := by
  unfold answered
  split
  · rfl
  · split
    · split
      · rcases transitionStory_cases row.id .humanReview none s with hmove | ⟨moved, hmoved, hid, -, hvalid, hmove⟩
        · rw [hmove]
        · rw [hmove]
          rw [← hid] at hmoved
          refine completed_moveStory hmoved (fun hcompleted => ?_) (by decide)
          rw [hcompleted] at hvalid
          exact absurd hvalid (by decide)
      · exact resumption_completed.trans rfl
    · rfl

def Steady (config : CiConfig) (s : State) (storyId : String) (failed : WorkflowRun) (details : FailureDetails) : Prop :=
  fixTasks s storyId failed.id ≠ [] ∨ exhausted config s storyId failed details = true ∧
    ∃ story, s.story? storyId = some story ∧ story.status = .waitingHumanReview

theorem answered_steady (hlatest : (github.latestRun (storyBranch storyId)).filter WorkflowRun.red = some failed)
    (h : Steady config s storyId failed (github.details failed.id)) :
    (answered config github s row).story? storyId = s.story? storyId ∧
      (answered config github s row).tasksOf storyId = s.tasksOf storyId := by
  by_cases hid : storyId = row.id
  · subst hid
    unfold answered
    rw [hlatest]
    dsimp only
    rcases h with hfixed | ⟨hexhausted, story, hstory, hreview⟩
    · rw [if_neg (by simpa using hfixed)]
      exact ⟨rfl, rfl⟩
    · split
      · rcases transitionStory_cases row.id .humanReview none s with hmove | ⟨moved, hmoved, -, -, hvalid, -⟩
        · rw [hmove]
          exact ⟨rfl, rfl⟩
        · cases hstory.symm.trans hmoved
          rw [hreview] at hvalid
          exact absurd hvalid (by decide)
      · exact ⟨rfl, rfl⟩
  · exact answered_other config github row hid

theorem foldl_steady (hlatest : (github.latestRun (storyBranch storyId)).filter WorkflowRun.red = some failed)
    (rows : List Story) (h : Steady config s storyId failed (github.details failed.id)) :
    (rows.foldl (answered config github) s).story? storyId = s.story? storyId ∧
      (rows.foldl (answered config github) s).tasksOf storyId = s.tasksOf storyId := by
  induction rows generalizing s with
  | nil => exact ⟨rfl, rfl⟩
  | cons row rest ih =>
    obtain ⟨hstory, htasks⟩ := answered_steady config github row hlatest h
    have hsteady : Steady config (answered config github s row) storyId failed (github.details failed.id) := by
      unfold Steady fixTasks exhausted priorEvidence at h ⊢
      rw [hstory, htasks]
      exact h
    obtain ⟨hstory', htasks'⟩ := ih hsteady
    exact ⟨hstory'.trans hstory, htasks'.trans htasks⟩

theorem created_resumed_iff {projectId newId : String} {details : FailureDetails} {n : Nat}
    (hs : s.story? story.id = some story) (hreview : story.status = .prReview)
    (hfresh : fixTasks s story.id failed.id = []) (hn : n ≤ 3) :
    fixTasks ((withFixTask config story.id projectId failed details newId s).through story.id (resumption.take n))
        story.id failed.id ≠ [] ∧
      (Resumed ((withFixTask config story.id projectId failed details newId s).through story.id (resumption.take n))
        story.id failed.id ↔ n = 3 ∧ s.unblocked story = true) := by
  let created := withFixTask config story.id projectId failed details newId s
  have hcreated : created.story? story.id = some story := hs
  obtain ⟨status, hstory, hstatus⟩ := through_take hcreated hreview hn
  have hfixed : fixTasks (created.through story.id (resumption.take n)) story.id failed.id =
      [⟨ciFixTask story.id projectId
        (evidenceOf config (storyBranch story.id) failed (priorEvidence s story.id) details), newId⟩] := by
    unfold fixTasks State.tasksOf
    rw [through_tasks]
    refine (withFixTask_tasksOf_self config).trans ?_
    rw [hfresh]
    rfl
  refine ⟨by rw [hfixed]; exact List.cons_ne_nil _ _, fun ⟨found, hfound, hresumed⟩ => ?_, fun ⟨hlast, hfree⟩ => ?_⟩
  · cases hstory.symm.trans hfound
    have hfree : created.unblocked story = s.unblocked story := rfl
    rw [hfree] at hstatus
    match n, hn with
    | 0, _ => cases hstatus; simp at hresumed
    | 1, _ => cases hstatus; simp at hresumed
    | 2, _ => cases hstatus; simp at hresumed
    | 3, _ =>
      cases hblocked : s.unblocked story with
      | true => exact ⟨rfl, rfl⟩
      | false =>
        rw [hblocked] at hstatus
        cases hstatus
        simp at hresumed
  · subst hlast
    have hfree' : created.unblocked story = true := hfree
    rw [hfree'] at hstatus
    cases hstatus
    refine ⟨_, hstory, .inr ⟨rfl, ?_⟩⟩
    rw [hfixed]
    rfl

theorem answered_fresh (hs : s.story? story.id = some story) (hreview : story.status = .prReview) (hid : row.id = story.id)
    (hlatest : (github.latestRun (storyBranch story.id)).filter WorkflowRun.red = some failed)
    (hfresh : fixTasks s story.id failed.id = []) :
    Steady config (answered config github s row) story.id failed (github.details failed.id) ∧
      (Resumed (answered config github s row) story.id failed.id ↔
        exhausted config s story.id failed (github.details failed.id) = true ∨ s.unblocked story = true) := by
  unfold answered
  rw [hid, hlatest]
  dsimp only
  rw [if_pos (by simp [hfresh])]
  by_cases hexhausted : exhausted config s story.id failed (github.details failed.id) = true
  · have hmove : s.transitionStory story.id .humanReview none = (.ok (), s.moveStory story .humanReview none) :=
      transitionStory_ok hs (fun h => by cases h) (by rw [hreview]; decide)
    rw [if_pos hexhausted, hmove]
    have hmoved : (s.moveStory story .humanReview none).story? story.id = some _ := story_moveStory_self hs
    exact ⟨.inr ⟨hexhausted, _, hmoved, rfl⟩, fun _ => .inl hexhausted, fun _ => ⟨_, hmoved, .inl rfl⟩⟩
  · rw [if_neg hexhausted]
    obtain ⟨hfixed, hresumed⟩ := created_resumed_iff config hs hreview hfresh (Nat.le_refl 3)
    refine ⟨.inl hfixed, hresumed.trans ?_⟩
    simp [hexhausted]

theorem resumed_congr {s' : State} {runId : Nat} (hstory : s'.story? storyId = s.story? storyId)
    (htasks : s'.tasksOf storyId = s.tasksOf storyId) : Resumed s' storyId runId ↔ Resumed s storyId runId := by
  unfold Resumed fixTasks
  rw [hstory, htasks]

theorem foldl_fresh (hs : s.story? story.id = some story) (hreview : story.status = .prReview)
    (hlatest : (github.latestRun (storyBranch story.id)).filter WorkflowRun.red = some failed)
    (hfresh : fixTasks s story.id failed.id = []) (rows : List Story) (hmem : ∃ row ∈ rows, row.id = story.id) :
    Resumed (rows.foldl (answered config github) s) story.id failed.id ↔
      exhausted config s story.id failed (github.details failed.id) = true ∨ s.unblocked story = true := by
  induction rows generalizing s with
  | nil => simp at hmem
  | cons row rest ih =>
    by_cases hid : row.id = story.id
    · obtain ⟨hsteady, hresumed⟩ := answered_fresh config github row hs hreview hid hlatest hfresh
      obtain ⟨hstory, htasks⟩ := foldl_steady config github hlatest rest hsteady
      exact (resumed_congr hstory htasks).trans hresumed
    · have hne : story.id ≠ row.id := fun h => hid h.symm
      obtain ⟨hstory, htasks⟩ := answered_other config github row (s := s) hne
      have hrest : ∃ row ∈ rest, row.id = story.id := by
        obtain ⟨found, hfound, hfoundId⟩ := hmem
        rcases List.mem_cons.mp hfound with rfl | hfound
        · exact absurd hfoundId hid
        · exact ⟨found, hfound, hfoundId⟩
      have hkept : fixTasks (answered config github s row) story.id failed.id = [] := by
        unfold fixTasks
        rw [htasks]
        exact hfresh
      have hfree : (answered config github s row).unblocked story = s.unblocked story :=
        unblocked_of_completed (fun _ => answered_completed config github row) story
      refine (ih (hstory.trans hs) hkept hrest).trans ?_
      unfold exhausted priorEvidence
      rw [htasks, hfree]

theorem tick_fresh (hs : s.story? story.id = some story) (hreview : story.status = .prReview)
    (hlatest : (github.latestRun (storyBranch story.id)).filter WorkflowRun.red = some failed)
    (hfresh : fixTasks s story.id failed.id = []) :
    Resumed (after github.undisturbed (pollCiFailures config) s) story.id failed.id ↔
      exhausted config s story.id failed (github.details failed.id) = true ∨ s.unblocked story = true := by
  rw [after_pollCiFailures]
  refine foldl_fresh config github hs hreview hlatest hfresh _ ⟨story, ?_, rfl⟩
  exact List.mem_filter.mpr ⟨List.mem_of_find?_eq_some hs, by simpa using hreview⟩

theorem tick_steady (hlatest : (github.latestRun (storyBranch storyId)).filter WorkflowRun.red = some failed)
    (h : Steady config s storyId failed (github.details failed.id)) :
    Rescanned config github s storyId failed.id ↔ Resumed s storyId failed.id := by
  unfold Rescanned
  rw [after_pollCiFailures]
  obtain ⟨hstory, htasks⟩ := foldl_steady config github hlatest (s.stories.filter (·.status = .prReview)) h
  rw [resumed_congr hstory htasks, or_self]

end Answered

section Interrupted

variable {config : CiConfig} {answers : Sheet} {s : State} {storyId projectId owner repoName : String}
  {failed : WorkflowRun} {evidence : CiEvidence}

/-- How many of these requests are carried out, when they are made in turn until
one is not carried out or its answer does not arrive. -/
def carriedOut (answers : Sheet) : List Op → Nat
  | [] => 0
  | op :: rest => match (answers op).map Reply.fate with
    | some .served => carriedOut answers rest + 1
    | some (.unheard _) => 1
    | some (.unsent _) => 0
    | none => 0

def detailsTold (answers : Sheet) (owner repoName : String) (runId : Nat) : Option FailureDetails :=
  (answers (.service (.getWorkflowFailureDetails owner repoName runId))).bind fun reply =>
    match reply.service (.getWorkflowFailureDetails owner repoName runId) with
    | .ok details => some details
    | .error (.exception type) => some ⟨[], some type⟩
    | .error .cancelledError => none

def heardDetails (answers : Sheet) (owner repoName storyId : String) (runId : Nat) : Option FailureDetails :=
  if (answers (.getTasksByStory storyId)).any (·.fate.isServed) then detailsTold answers owner repoName runId
  else none

def wayBack (storyId : String) : List Op := resumption.map fun action => .transitionStory storyId action none

def writes (config : CiConfig) (storyId projectId : String) (evidence : CiEvidence) : List Op :=
  if evidence.fingerprintAttempt > config.failureLimit then [.transitionStory storyId .humanReview none]
  else .createTask (ciFixTask storyId projectId evidence) :: wayBack storyId

theorem after_through (actions : List StoryAction) : after answers (transitionThrough storyId actions) s =
    s.through storyId (actions.take (carriedOut answers (actions.map fun action => .transitionStory storyId action none))) := by
  induction actions generalizing s with
  | nil => rfl
  | cons action rest ih =>
    let op : Op := .transitionStory storyId action none
    have hsent : after answers (transitionThrough storyId (action :: rest)) s =
      (solo pipelineWorld .scheduler answers ((perform op).bind fun _ => transitionThrough storyId rest) s).2 := rfl
    rw [hsent]
    simp only [List.map_cons, carriedOut]
    cases hanswer : answers op with
    | none =>
      rw [solo_bind_dead (solo_perform_dead hanswer)]
      rfl
    | some reply =>
      have hrun : alone answers (perform op) s =
        (some (reply.fate.serve (State.transitionStory storyId action none) s).1,
          (reply.fate.serve (State.transitionStory storyId action none) s).2) := solo_perform (W := pipelineWorld) hanswer
      cases hfate : reply.fate with
      | unsent e =>
        rw [hfate] at hrun
        rw [solo_bind_error hrun]
        simp [hfate, Fate.serve, State.through]
      | unheard e =>
        rw [hfate] at hrun
        rw [solo_bind_error hrun]
        simp only [Option.map_some, hfate, List.take_succ_cons, List.take_zero, State.through, Fate.serve]
        rcases transitionStory_cases storyId action none s with hmove | ⟨row, -, -, -, -, hmove⟩
        · rw [hmove]
        · rw [hmove]
      | served =>
        rw [hfate] at hrun
        simp only [Option.map_some, hfate, List.take_succ_cons, State.through]
        rcases transitionStory_cases storyId action none s with hmove | ⟨row, -, -, -, -, hmove⟩
        · simp only [Fate.serve, hmove] at hrun ⊢
          rw [solo_bind_error hrun]
        · simp only [Fate.serve, hmove] at hrun ⊢
          rw [solo_bind_ok hrun]
          exact ih

theorem carriedOut_le (requests : List Op) : carriedOut answers requests ≤ requests.length := by
  induction requests with
  | nil => exact Nat.le_refl 0
  | cons op rest ih =>
    unfold carriedOut
    rw [List.length_cons]
    split <;> omega

theorem after_review (answers : Sheet) (s : State) (hlimit : evidence.fingerprintAttempt > config.failureLimit) :
    let requests := writes config storyId projectId evidence
    let left := after answers (answerFailure config storyId projectId evidence) s
    carriedOut answers requests = 0 ∧ left = s ∨
      carriedOut answers requests = requests.length ∧ left = (s.transitionStory storyId .humanReview none).2 := by
  let op : Op := .transitionStory storyId .humanReview none
  have hrequests : writes config storyId projectId evidence = [op] := if_pos hlimit
  have hprogram : ∃ rest, answerFailure config storyId projectId evidence =
      (perform op).bind rest ∧
        ∀ s', (alone answers (rest ()) s').2 = s' := by
    refine ⟨_, if_pos hlimit, fun s' => ?_⟩
    let note : Op := .service (.notifyAdmins ("CI failure " ++ evidence.fingerprint ++ " exhausted " ++
      toString config.failureLimit ++ " fix attempts for story " ++ storyId))
    cases hnote : answers note with
    | none => exact congrArg Prod.snd (solo_bind_dead (solo_perform_dead hnote))
    | some reply =>
      have hrun : alone answers (perform note) s' = _ :=
        solo_perform (W := pipelineWorld) hnote
      cases hheard : (pipelineWorld.run .scheduler note reply s').1 with
      | ok _ =>
        rw [hheard] at hrun
        exact congrArg Prod.snd (solo_bind_ok hrun)
      | error e =>
        rw [hheard] at hrun
        exact congrArg Prod.snd (solo_bind_error hrun)
  obtain ⟨rest, hprogram, hquiet⟩ := hprogram
  dsimp only
  unfold after alone
  rw [hrequests, hprogram]
  cases hanswer : answers op with
  | none =>
    rw [solo_bind_dead (solo_perform_dead hanswer)]
    exact .inl ⟨by simp [carriedOut, hanswer], rfl⟩
  | some reply =>
    have hrun : alone answers (perform op) s =
      (some (reply.fate.serve (State.transitionStory storyId .humanReview none) s).1,
        (reply.fate.serve (State.transitionStory storyId .humanReview none) s).2) :=
      solo_perform (W := pipelineWorld) hanswer
    cases hfate : reply.fate with
    | unsent e =>
      rw [hfate] at hrun
      rw [solo_bind_error hrun]
      exact .inl ⟨by simp [carriedOut, hanswer, hfate], rfl⟩
    | unheard e =>
      rw [hfate] at hrun
      rw [solo_bind_error hrun]
      exact .inr ⟨by simp [carriedOut, hanswer, hfate], rfl⟩
    | served =>
      rw [hfate] at hrun
      refine .inr ⟨by simp [carriedOut, hanswer, hfate], ?_⟩
      rcases transitionStory_cases storyId .humanReview none s with hmove | ⟨row, -, -, -, -, hmove⟩
      · simp only [Fate.serve, hmove] at hrun ⊢
        rw [solo_bind_error hrun]
      · simp only [Fate.serve, hmove] at hrun ⊢
        rw [solo_bind_ok hrun]
        exact hquiet _

theorem after_fix (answers : Sheet) (s : State) (hlimit : ¬ evidence.fingerprintAttempt > config.failureLimit) :
    let requests := writes config storyId projectId evidence
    let left := after answers (answerFailure config storyId projectId evidence) s
    carriedOut answers requests = 0 ∧ left = s ∨
      ∃ newId n, n ≤ 3 ∧ carriedOut answers requests = n + 1 ∧ requests.length = 4 ∧
        left = (s.createTask (ciFixTask storyId projectId evidence) newId).2.through storyId (resumption.take n) := by
  let op : Op := .createTask (ciFixTask storyId projectId evidence)
  have hrequests : writes config storyId projectId evidence = op :: wayBack storyId := if_neg hlimit
  have hprogram : answerFailure config storyId projectId evidence =
      (perform op).bind fun _ =>
        (transitionThrough storyId resumption).bind fun _ => Prog.ret true := if_neg hlimit
  have hquiet (s' : State) : (alone answers
      ((transitionThrough storyId resumption).bind fun _ => Prog.ret true) s').2 =
        after answers (transitionThrough storyId resumption) s' := by
    unfold after alone
    rcases hgone : solo pipelineWorld .scheduler answers (transitionThrough storyId resumption) s' with ⟨outcome, s₁⟩
    match outcome with
    | none => rw [solo_bind_dead hgone]
    | some (.ok ()) => rw [solo_bind_ok hgone]; rfl
    | some (.error e) => rw [solo_bind_error hgone]
  dsimp only
  unfold after alone
  rw [hrequests, hprogram]
  cases hanswer : answers op with
  | none =>
    rw [solo_bind_dead (solo_perform_dead hanswer)]
    exact .inl ⟨by simp [carriedOut, hanswer], rfl⟩
  | some reply =>
    have hrun : alone answers (perform op) s =
      (some (reply.fate.serve (State.createTask (ciFixTask storyId projectId evidence) reply.newId) s).1,
        (reply.fate.serve (State.createTask (ciFixTask storyId projectId evidence) reply.newId) s).2) :=
      solo_perform (W := pipelineWorld) hanswer
    cases hfate : reply.fate with
    | unsent e =>
      rw [hfate] at hrun
      rw [solo_bind_error hrun]
      exact .inl ⟨by simp [carriedOut, hanswer, hfate], rfl⟩
    | unheard e =>
      rw [hfate] at hrun
      rw [solo_bind_error hrun]
      exact .inr ⟨reply.newId, 0, by omega, by simp [carriedOut, hanswer, hfate], rfl, rfl⟩
    | served =>
      rw [hfate] at hrun
      have hcreated : alone answers (perform op) s =
        (some (.ok ()), (s.createTask (ciFixTask storyId projectId evidence) reply.newId).2) := hrun
      rw [solo_bind_ok hcreated]
      refine .inr ⟨reply.newId, carriedOut answers (wayBack storyId), carriedOut_le _,
        by simp [carriedOut, hanswer, hfate], rfl, ?_⟩
      exact (hquiet _).trans (after_through resumption)

theorem after_failureDetails (next : FailureDetails → Job Bool) :
    after answers ((failureDetails owner repoName failed.id).bind next) s =
      (detailsTold answers owner repoName failed.id).elim s fun details => after answers (next details) s := by
  let op : Op := .service (.getWorkflowFailureDetails owner repoName failed.id)
  unfold after alone detailsTold
  cases hanswer : answers op with
  | none => exact congrArg Prod.snd (solo_bind_dead (solo_handle_dead (solo_perform_dead hanswer)))
  | some reply =>
    have hrun : alone answers (perform op) s =
      (some (reply.service (.getWorkflowFailureDetails owner repoName failed.id)), s) :=
      solo_perform (W := pipelineWorld) hanswer
    simp only [Option.bind_some]
    match hheard : reply.service (.getWorkflowFailureDetails owner repoName failed.id) with
    | .ok details =>
      rw [hheard] at hrun
      exact congrArg Prod.snd (solo_bind_ok (solo_handle_ok hrun))
    | .error (.exception type) =>
      rw [hheard] at hrun
      exact congrArg Prod.snd (solo_bind_ok (solo_handle_error hrun))
    | .error .cancelledError =>
      rw [hheard] at hrun
      exact congrArg Prod.snd (solo_bind_error (solo_handle_error hrun))

theorem after_handleFailedRun :
    after answers (handleFailedRun config owner repoName storyId projectId (storyBranch storyId) failed) s =
      if fixTasks s storyId failed.id = [] then
        (heardDetails answers owner repoName storyId failed.id).elim s fun details =>
          after answers (answerFailure config storyId projectId
            (evidenceOf config (storyBranch storyId) failed (priorEvidence s storyId) details)) s
      else s := by
  let op : Op := .getTasksByStory storyId
  let details (prior : List CiEvidence) : Job Bool := (failureDetails owner repoName failed.id).bind fun details =>
    answerFailure config storyId projectId (evidenceOf config (storyBranch storyId) failed prior details)
  let go (tasks : List Task) : Job Bool :=
    if (tasks.filterMap ciMetadata).any (·.runId = failed.id) then .ret false else details (tasks.filterMap ciMetadata)
  have hprogram : handleFailedRun config owner repoName storyId projectId (storyBranch storyId) failed =
    (perform op).bind go := rfl
  have hgo : go (s.tasksOf storyId) =
      if fixTasks s storyId failed.id = [] then details (priorEvidence s storyId) else .ret false := by
    change (if ((s.tasksOf storyId).filterMap ciMetadata).any (·.runId = failed.id) then _ else _) = _
    rw [prior_any_iff]
    by_cases hfixed : fixTasks s storyId failed.id = []
    · simp [hfixed, priorEvidence]
    · simp [hfixed]
  unfold after heardDetails
  rw [hprogram]
  cases hanswer : answers op with
  | none =>
    refine (congrArg Prod.snd (solo_bind_dead (solo_perform_dead hanswer))).trans ?_
    simp
  | some reply =>
    have hrun : alone answers (perform op) s =
      (some (reply.fate.serve (fun s => (.ok (s.tasksOf storyId), s)) s).1, s) := by
      refine (solo_perform (W := pipelineWorld) hanswer).trans ?_
      simp only [pipelineWorld, run, op]
      cases reply.fate <;> rfl
    obtain ⟨fate, hfate⟩ : ∃ fate, reply.fate = fate := ⟨_, rfl⟩
    rw [hfate] at hrun
    cases fate with
    | unsent _ | unheard _ =>
      refine (congrArg Prod.snd (solo_bind_error hrun)).trans ?_
      simp [hfate, Fate.isServed]
    | served =>
      refine (congrArg Prod.snd (solo_bind_ok hrun)).trans ?_
      simp only [Option.any_some, hfate, Fate.isServed, if_true]
      change (alone answers (go (s.tasksOf storyId)) s).2 = _
      rw [hgo]
      split
      · exact after_failureDetails _
      · rfl

end Interrupted

def CanEnd (config : CiConfig) (s : State) (story : Story) (failed : WorkflowRun) (details : FailureDetails) : Prop :=
  exhausted config s story.id failed details = true ∨ s.unblocked story = true

def Resumable (config : CiConfig) (github : GitHub) (answers : Sheet) (owner repoName : String) (s : State)
    (story : Story) (failed : WorkflowRun) : Prop :=
  fixTasks s story.id failed.id = [] ∧
    (heardDetails answers owner repoName story.id failed.id).elim (CanEnd config s story failed (github.details failed.id))
      fun details =>
        let requests := writes config story.id story.projectId
          (evidenceOf config (storyBranch story.id) failed (priorEvidence s story.id) details)
        carriedOut answers requests = 0 ∧ CanEnd config s story failed (github.details failed.id) ∨
          carriedOut answers requests = requests.length ∧ CanEnd config s story failed details

/-- A red CI run that is answered with an interruption leaves its story where it
is resumed exactly when none of the answer's requests or all of them were carried out. -/
theorem ci_failure_rescanned_iff (config : CiConfig) (github : GitHub) (answers : Sheet) (owner repoName : String)
    (s : State) (story : Story) (failed : WorkflowRun) (hs : s.story? story.id = some story)
    (hreview : story.status = .prReview) (hlatest : github.latestRun (storyBranch story.id) = some failed)
    (hred : failed.red = true) :
    Rescanned config github (after answers
        (handleFailedRun config owner repoName story.id story.projectId (storyBranch story.id) failed) s) story.id failed.id ↔
      Resumable config github answers owner repoName s story failed := by
  have hlatest : (github.latestRun (storyBranch story.id)).filter WorkflowRun.red = some failed := by
    rw [hlatest]
    simp [hred]
  have hwaiting : ¬ Resumed s story.id failed.id := by
    rintro ⟨found, hfound, hresumed⟩
    cases hs.symm.trans hfound
    rw [hreview] at hresumed
    simp at hresumed
  have hagain (hfresh : fixTasks s story.id failed.id = []) : Rescanned config github s story.id failed.id ↔
      CanEnd config s story failed (github.details failed.id) := by
    unfold Rescanned
    rw [tick_fresh config github hs hreview hlatest hfresh]
    exact or_iff_right hwaiting
  rw [after_handleFailedRun]
  unfold Resumable
  by_cases hfresh : fixTasks s story.id failed.id = []
  · rw [if_pos hfresh]
    cases heardDetails answers owner repoName story.id failed.id with
    | none => simpa [hfresh] using hagain hfresh
    | some details =>
      simp only [Option.elim_some, hfresh, true_and]
      by_cases hlimit : exhausted config s story.id failed details = true
      · rcases after_review answers s (of_decide_eq_true hlimit) with ⟨hnone, hleft⟩ | ⟨hall, hleft⟩
        · rw [hleft, hagain hfresh, hnone, writes, if_pos (of_decide_eq_true hlimit)]
          simp
        · have hmove : s.transitionStory story.id .humanReview none = (.ok (), s.moveStory story .humanReview none) :=
            transitionStory_ok hs (fun h => by cases h) (by rw [hreview]; decide)
          have hmoved : (s.moveStory story .humanReview none).story? story.id = some _ := story_moveStory_self hs
          rw [hleft, hmove]
          exact ⟨fun _ => .inr ⟨hall, .inl hlimit⟩, fun _ => .inl ⟨_, hmoved, .inl rfl⟩⟩
      · have hbelow := mt decide_eq_true hlimit
        rcases after_fix answers s hbelow with ⟨hnone, hleft⟩ | ⟨newId, n, hn, hcount, hlength, hleft⟩
        · rw [hleft, hagain hfresh, hnone, writes, if_neg hbelow]
          simp
        · obtain ⟨hfixed, hresumed⟩ := created_resumed_iff config hs hreview hfresh hn
          rw [hleft]
          refine (tick_steady config github hlatest (.inl hfixed)).trans (hresumed.trans ?_)
          rw [hcount, hlength]
          simp [CanEnd, hlimit]
  · rw [if_neg hfresh, tick_steady config github hlatest (.inl hfresh)]
    simp [hfresh, hwaiting]

instance (s : State) (storyId : String) (runId : Nat) : Decidable (Resumed s storyId runId) :=
  decidable_of_iff ((s.story? storyId).any (fun story => story.status = .waitingHumanReview ∨
      story.status = .inProgress ∧ ((fixTasks s storyId runId).filter (openStatus ·.status)).length = 1) = true) (by
    unfold Resumed
    cases s.story? storyId <;> simp)

instance (config : CiConfig) (github : GitHub) (s : State) (storyId : String) (runId : Nat) :
    Decidable (Rescanned config github s storyId runId) :=
  inferInstanceAs (Decidable (Resumed s storyId runId ∨
    Resumed (after github.undisturbed (pollCiFailures config) s) storyId runId))

def sampleConfig : CiConfig := ⟨2, fun _ => "f"⟩

def redRun : WorkflowRun := ⟨7, "completed", some "failure", none, none⟩

def redGitHub : GitHub where
  repository _ := ⟨some "https://github.com/org/repo"⟩
  latestRun _ := some redRun
  details _ := ⟨[⟨"unit", ["Run pytest"], none, none⟩], none⟩
  hosted _ := ⟨"org", "repo", by decide +kernel⟩

def reviewedStory : Story := ⟨"s", "p", .prReview, none, none⟩

def inReview : State := ⟨[reviewedStory], [], [], []⟩

theorem ci_failure_rescanned_served : Rescanned sampleConfig redGitHub (after redGitHub.undisturbed
    (handleFailedRun sampleConfig "org" "repo" "s" "p" (storyBranch "s") redRun) inReview) "s" 7 := by
  refine (ci_failure_rescanned_iff sampleConfig redGitHub redGitHub.undisturbed "org" "repo" inReview reviewedStory redRun
    rfl rfl rfl rfl).mpr ⟨rfl, .inr ⟨?_, .inr rfl⟩⟩
  decide +kernel

def diesFailed : Sheet
  | .transitionStory _ .reopen _ => none
  | _ => some redGitHub.reply

theorem ci_failure_stranded : ¬ ∀ (config : CiConfig) (github : GitHub) (answers : Sheet) (owner repoName : String)
    (s : State) (story : Story) (failed : WorkflowRun), s.story? story.id = some story → story.status = .prReview →
      github.latestRun (storyBranch story.id) = some failed → failed.red = true →
      Rescanned config github (after answers
        (handleFailedRun config owner repoName story.id story.projectId (storyBranch story.id) failed) s) story.id
          failed.id := by
  intro h
  refine absurd (h sampleConfig redGitHub diesFailed "org" "repo" inReview reviewedStory redRun rfl rfl rfl rfl) ?_
  decide +kernel

end Orchestrator.Pipeline
