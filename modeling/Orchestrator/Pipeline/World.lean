import Orchestrator.Async.Solo
import Orchestrator.Contracts.Work

/-!
The story side of the system: the scheduler's loops over stories, with the rows
of stories, tasks and runs they read and write through the API, and the
messages to the product owner they publish.
-/

namespace Orchestrator.Pipeline

open Async Contracts

/-- `_parse_owner_repo`: the last two segments of the path, if there are two. -/
def parseOwnerRepo (gitUrl : String) : Option (String × String) :=
  let url := (gitUrl.toList.reverse.dropWhile (· == '/')).reverse
  let url := if ".git".toList.isSuffixOf url then url.take (url.length - 4) else url
  match (url.splitOn '/').reverse with
  | repo :: owner :: _ => some (String.ofList owner, String.ofList repo)
  | _ => none

inductive Exn where
  | exception (type : String)
  | cancelledError
deriving DecidableEq

structure FailedJob where
  name : String
  failedSteps : List String
  logExcerpt : Option String
  logUnavailableReason : Option String

structure CiEvidence where
  runId : Nat
  runUrl : String
  headSha : String
  branch : String
  failedJobs : List FailedJob
  detailsUnavailableReason : Option String
  fingerprint : String
  fingerprintAttempt : Nat

structure QaFailedCheck where
  name : String
  detail : String
deriving DecidableEq

structure QaEvidence where
  qaRunId : String
  fingerprint : String
  fingerprintAttempt : Nat
  fixAttempt : Nat
  summary : String
  failedChecks : List QaFailedCheck
deriving DecidableEq

structure FailureMetadata where
  ciFailure : Option CiEvidence
  qaFailure : Option QaEvidence
  reason : Option String

structure TaskCreate where
  projectId : String
  storyId : Option String
  title : String
  type : TaskType
  status : TaskStatus
  description : String
  failureMetadata : Option FailureMetadata

structure Task extends TaskCreate where
  id : String

structure QaBlocker where
  category : String
  attempted : String
  sent : String
  received : String

structure QaStateChangeCleanup where
  attempted : Bool
  succeeded : Bool
  detail : String

inductive QaStateChangeOperation where
  | created | modified

structure QaStateChange where
  resource : String
  operation : QaStateChangeOperation
  cleanup : QaStateChangeCleanup

structure QaTelegramReplyButton where
  row : Nat
  column : Nat
  text : Option String
  type : String
  callbackData : Option String

structure QaTelegramReplyMarkup where
  type : String
  buttons : List QaTelegramReplyButton

structure QaTelegramReplyEvidence where
  id : Int
  text : Option String
  caption : Option String
  mediaType : Option String
  replyMarkup : Option QaTelegramReplyMarkup

structure QaTelegramCallbackEvidence where
  text : Option String
  alert : Bool
  url : Option String

inductive QaTelegramAction where
  | message | callback

structure QaTelegramProbeEvidence where
  action : QaTelegramAction
  attempted : String
  sent : String
  delivered : Option Bool
  replies : List QaTelegramReplyEvidence
  callback : Option QaTelegramCallbackEvidence
  postPressMessage : Option QaTelegramReplyEvidence
  error : Option String

inductive QuarantineReason where
  | unverified (outcome : String) (blocker : Option QaBlocker) (summary error : Option String)
      (stateChanges : List QaStateChange) (telegramProbeEvidence : List QaTelegramProbeEvidence)
  | fixesExhausted (evidence : QaEvidence)
  | refusedDeploy (reason : AllocationFailureReason) (requiredRamMb minDiskMb : Option Nat) (detail : String)

structure Story where
  id : String
  projectId : String
  status : StoryStatus
  blockedByStoryId : Option String
  quarantineReason : Option QuarantineReason

inductive QaOutcome where
  | passed | failed | blocked | exhausted | error

def QaOutcome.value : QaOutcome → String
  | .passed => "passed"
  | .failed => "failed"
  | .blocked => "blocked"
  | .exhausted => "exhausted"
  | .error => "error"

structure QaRunResult where
  qaOutcome : QaOutcome
  failedChecks : List QaFailedCheck
  summary : Option String
  error : Option String
  blocker : Option QaBlocker
  telegramProbeEvidence : List QaTelegramProbeEvidence
  stateChanges : List QaStateChange

inductive RunResult where
  | qa (result : QaRunResult)
  | deploy (result : DeployRunResult)
  | engineering (result : EngineeringRunResult)

inductive OwnerNotificationState where
  | owed | delivered | unaddressable | abandoned | voided
deriving DecidableEq

structure OwnerNotification where
  event : String
  text : String
  storyId : String
  projectId : String
  terminalStatus : StoryStatus
  taskId : Option String
  state : OwnerNotificationState
  owedAt : Time
  attempts : Nat
  detail : Option String

structure QaHandoff where
  deployedUrl : String
  botUsername : Option String

structure Run where
  id : String
  storyId : Option String
  taskId : Option String
  type : RunType
  status : RunStatus
  valid : Bool
  result : Option RunResult
  applicationId : Option Int
  handoff : Option QaHandoff
  ownerNotification : Option OwnerNotification

structure PoSystemEvent where
  event : String
  taskId : String
  text : String
  storyId : String
  telegramChatId : String
  ownerUserId : String
  projectId : String

structure Recipient where
  telegramChatId : String
  ownerUserId : String
  unaddressedReason : String

def Recipient.isAddressable (recipient : Recipient) : Bool := !recipient.telegramChatId.isEmpty

structure Repository where
  gitUrl : Option String

structure WorkflowRun where
  id : Nat
  status : String
  conclusion : Option String
  htmlUrl : Option String
  headSha : Option String

structure FailureDetails where
  failedJobs : List FailedJob
  unavailableReason : Option String

inductive StoryAction where
  | humanReview | waitUserSecret | start | complete | fail | prReview | deploy | test | reopen | archive
deriving DecidableEq

def StoryAction.target : StoryAction → StoryStatus
  | .humanReview => .waitingHumanReview
  | .waitUserSecret => .waitingUserSecret
  | .start => .inProgress
  | .complete => .completed
  | .fail => .failed
  | .prReview => .prReview
  | .deploy => .deploying
  | .test => .testing
  | .reopen => .reopened
  | .archive => .archived

inductive ServiceCall where
  | clock
  | getPrimaryRepository (projectId : String)
  | getLatestWorkflowRun (owner repoName branch : String)
  | getWorkflowFailureDetails (owner repoName : String) (runId : Nat)
  | stopApplication (applicationId : Int)
  | resolveProjectRecipient (projectId event storyId : String)
  | notifyAdmins (text : String)
  | recoverQaHandoff (runId : String)

def ServiceCall.Res : ServiceCall → Type
  | clock => Time
  | getPrimaryRepository _ => Option Repository
  | getLatestWorkflowRun .. => Option WorkflowRun
  | getWorkflowFailureDetails .. => FailureDetails
  | stopApplication _ => Unit
  | resolveProjectRecipient .. => Recipient
  | notifyAdmins _ => Unit
  | recoverQaHandoff _ => Bool

inductive Op where
  | service (call : ServiceCall)
  | getStoriesByStatus (status : StoryStatus)
  | getStory (storyId : String)
  | transitionStory (storyId : String) (action : StoryAction) (account : Option String)
  | updateStory (storyId : String) (reason : QuarantineReason)
  | getTasksByStory (storyId : String)
  | getTasksByStatus (status : TaskStatus)
  | createTask (task : TaskCreate)
  | transitionTask (taskId : String) (toStatus : TaskStatus)
  | getLatestRunByStory (storyId : String) (type : RunType)
  | listRuns (taskId : String)
  | listRunsOwing
  | writeRecord (runId : String) (record : OwnerNotification)
  | publishFlat (runId : String) (event : PoSystemEvent)
  | outside

def Op.Res : Op → Type
  | service call => call.Res
  | getStoriesByStatus _ => List Story
  | getStory _ => Story
  | transitionStory .. => Unit
  | updateStory .. => Unit
  | getTasksByStory _ => List Task
  | getTasksByStatus _ => List Task
  | createTask _ => Unit
  | transitionTask .. => Unit
  | getLatestRunByStory .. => Option Run
  | listRuns _ => List Run
  | listRunsOwing => List Run
  | writeRecord .. => Unit
  | publishFlat .. => Unit
  | outside => Unit

abbrev pipelineInterface : Interface := ⟨Op, Op.Res, Exn⟩

abbrev Job (A : Type) := Prog pipelineInterface A

abbrev perform (op : Op) : Job (Op.Res op) := Prog.perform (I := pipelineInterface) op

inductive Party where
  | scheduler
  | outside (execution : Nat)
deriving DecidableEq

inductive Event where
  | created (task : TaskCreate)
  | moved (storyId : String) (fromStatus toStatus : StoryStatus) (account : Option String)
  | read (storyId : String) (status : StoryStatus)
  | recorded (runId : String) (record : OwnerNotification)
  | published (runId : String) (event : PoSystemEvent)

/-- Stories and tasks oldest first, runs newest first. The trace is what the
scheduler did, the latest event first; no program reads it. -/
structure State where
  stories : List Story
  tasks : List Task
  runs : List Run
  trace : List Event

namespace State

def record (s : State) (event : Event) : State := { s with trace := event :: s.trace }

def story? (s : State) (storyId : String) : Option Story := s.stories.find? (·.id = storyId)

def run? (s : State) (runId : String) : Option Run := s.runs.find? (·.id = runId)

def writeStory (s : State) (story : Story) : State :=
  { s with stories := s.stories.map fun row => if row.id = story.id then story else row }

def getStory (storyId : String) (s : State) : Except Exn Story × State :=
  match s.story? storyId with
  | none => (.error (.exception "HTTPStatusError"), s)
  | some story => (.ok story, s.record (.read storyId story.status))

def unblocked (s : State) (story : Story) : Bool :=
  match story.blockedByStoryId.filter fun blockerId => !blockerId.isEmpty with
  | none => true
  | some blockerId => (s.story? blockerId).any fun blocker => blocker.status = .completed

def transitionStory (storyId : String) (action : StoryAction) (account : Option String) (s : State) :
    Except Exn Unit × State :=
  match s.story? storyId with
  | none => (.error (.exception "HTTPStatusError"), s)
  | some story =>
    if action = .start && !s.unblocked story then (.error (.exception "HTTPStatusError"), s)
    else if (storyTransitions story.status).contains action.target then
      (.ok (), (s.writeStory { story with status := action.target }).record
        (.moved storyId story.status action.target account))
    else (.error (.exception "HTTPStatusError"), s)

def updateStory (storyId : String) (reason : QuarantineReason) (s : State) : Except Exn Unit × State :=
  match s.story? storyId with
  | none => (.error (.exception "HTTPStatusError"), s)
  | some story => (.ok (), s.writeStory { story with quarantineReason := some reason })

def tasksOf (s : State) (storyId : String) : List Task := s.tasks.filter (·.storyId = some storyId)

def createTask (task : TaskCreate) (newId : String) (s : State) : Except Exn Unit × State :=
  (.ok (), State.record { s with tasks := s.tasks ++ [⟨task, newId⟩] } (.created task))

def writeTask (s : State) (task : Task) : State :=
  { s with tasks := s.tasks.map fun row => if row.id = task.id then task else row }

def transitionTask (taskId : String) (toStatus : TaskStatus) (s : State) : Except Exn Unit × State :=
  match s.tasks.find? (·.id = taskId) with
  | none => (.error (.exception "HTTPStatusError"), s)
  | some task =>
    if (validTransitions task.status).contains toStatus then
      let moved (row : Task) : Task := if row.id = taskId then { row with status := toStatus } else row
      (.ok (), { s with tasks := s.tasks.map moved })
    else (.error (.exception "HTTPStatusError"), s)

def getLatestRunByStory (storyId : String) (type : RunType) (s : State) : Except Exn (Option Run) × State :=
  match s.runs.find? fun run => run.storyId = some storyId ∧ run.type = type with
  | none => (.ok none, s)
  | some run => if run.valid then (.ok (some run), s) else (.error (.exception "ValidationError"), s)

def listRuns (taskId : String) (s : State) : Except Exn (List Run) × State :=
  let rows := s.runs.filter fun run => run.taskId = some taskId ∧ run.type = .engineering
  if rows.all (·.valid) then (.ok rows, s) else (.error (.exception "ValidationError"), s)

def owing (run : Run) : Bool := run.ownerNotification.any fun record => record.state = .owed

def listRunsOwing (page : Nat) (s : State) : Except Exn (List Run) × State :=
  let rows := (s.runs.reverse.filter owing).take page
  if rows.all (·.valid) then (.ok rows, s) else (.error (.exception "ValidationError"), s)

def writeRecord (runId : String) (record : OwnerNotification) (s : State) : Except Exn Unit × State :=
  match s.run? runId with
  | none => (.error (.exception "HTTPStatusError"), s)
  | some _ =>
    let noted (row : Run) : Run := if row.id = runId then { row with ownerNotification := some record } else row
    (.ok (), State.record { s with runs := s.runs.map noted } (.recorded runId record))

end State

section Rows

variable {s : State} {story : Story} {storyId otherId : String} {action : StoryAction} {account : Option String}

theorem find_map_ids (rows : List Story) (f : Story → Story) (hf : ∀ row, (f row).id = row.id) :
    (rows.map f).find? (·.id = storyId) = (rows.find? (·.id = storyId)).map f := by
  induction rows with
  | nil => rfl
  | cons row rest ih =>
    by_cases h : row.id = storyId
    · simp [h, hf]
    · simp [h, hf, ih]

theorem story_id_of_some (h : s.story? storyId = some story) : story.id = storyId := by
  simpa using List.find?_some h

theorem story_writeStory_self (h : s.story? story.id = some story) (changed : Story) (hid : changed.id = story.id) :
    (s.writeStory changed).story? story.id = some changed := by
  unfold State.writeStory State.story?
  rw [find_map_ids _ _ (fun row => by split <;> simp_all)]
  unfold State.story? at h
  rw [h]
  simp [hid]

theorem story_writeStory_of_ne (h : otherId ≠ story.id) : (s.writeStory story).story? otherId = s.story? otherId := by
  unfold State.writeStory State.story?
  rw [find_map_ids _ _ (fun row => by split <;> simp_all)]
  cases hfind : s.stories.find? (·.id = otherId) with
  | none => rfl
  | some row =>
    have hid : row.id = otherId := by simpa using List.find?_some hfind
    simp [hid, h]

def State.moveStory (s : State) (story : Story) (action : StoryAction) (account : Option String) : State :=
  (s.writeStory { story with status := action.target }).record (.moved story.id story.status action.target account)

theorem story_moveStory_self (h : s.story? story.id = some story) :
    (s.moveStory story action account).story? story.id = some { story with status := action.target } :=
  story_writeStory_self h _ rfl

theorem story_moveStory_of_ne (h : otherId ≠ story.id) :
    (s.moveStory story action account).story? otherId = s.story? otherId := by
  let moved : Story := { story with status := action.target }
  have hmoved : otherId ≠ moved.id := h
  exact story_writeStory_of_ne hmoved

def State.completed (s : State) (storyId : String) : Bool := (s.story? storyId).any fun story => story.status = .completed

theorem completed_moveStory (h : s.story? story.id = some story) (hsource : story.status ≠ .completed)
    (htarget : action.target ≠ .completed) : (s.moveStory story action account).completed otherId = s.completed otherId := by
  unfold State.completed
  by_cases hid : otherId = story.id
  · subst hid
    rw [story_moveStory_self h, h]
    simp [hsource, htarget]
  · rw [story_moveStory_of_ne hid]

theorem unblocked_of_completed {s' : State} (h : ∀ storyId, s'.completed storyId = s.completed storyId) (story : Story) :
    s'.unblocked story = s.unblocked story := by
  unfold State.unblocked
  split
  · rfl
  · exact h _

theorem transitionStory_ok (h : s.story? story.id = some story) (hfree : action = .start → s.unblocked story = true)
    (hvalid : action.target ∈ storyTransitions story.status) :
    s.transitionStory story.id action account = (.ok (), s.moveStory story action account) := by
  have hmem : (storyTransitions story.status).contains action.target = true := List.contains_iff_mem.mpr hvalid
  have hblock : (action = .start && !s.unblocked story) = false := by
    by_cases hstart : action = .start
    · simp [hfree hstart]
    · simp [hstart]
  unfold State.transitionStory
  rw [h]
  dsimp only
  rw [if_neg (by simp [hblock]), if_pos hmem]
  rfl

theorem transitionStory_cases (storyId : String) (action : StoryAction) (account : Option String) (s : State) :
    s.transitionStory storyId action account = (.error (.exception "HTTPStatusError"), s) ∨
    (∃ story, s.story? storyId = some story ∧ story.id = storyId ∧ (action = .start → s.unblocked story = true) ∧
      action.target ∈ storyTransitions story.status ∧
      s.transitionStory storyId action account = (.ok (), s.moveStory story action account)) := by
  unfold State.transitionStory
  cases hs : s.story? storyId with
  | none => exact .inl rfl
  | some story =>
    have hid := story_id_of_some hs
    dsimp only
    split
    · exact .inl rfl
    · next hfree =>
      split
      · next hvalid =>
        refine .inr ⟨story, rfl, hid, fun hstart => ?_, List.contains_iff_mem.mp hvalid, ?_⟩
        · simpa [hstart] using hfree
        · subst hid
          rfl
      · exact .inl rfl

end Rows

inductive OutsideChange where
  | writeStory (story : Story)
  | addStory (story : Story)
  | writeTask (task : Task)
  | workerGaveUp (taskId reason : String)
  | addTask (task : Task)
  | addRun (run : Run)
  | writeRun (run : Run)

/-- A run is changed in everything but the record it carries, and a new one has a new
id and carries none. Of a worker that gives up, its reason replaces what the task's
failure metadata held. -/
def OutsideChange.apply (change : OutsideChange) (s : State) : State :=
  match change with
  | .writeStory story => s.writeStory story
  | .addStory story => { s with stories := s.stories ++ [story] }
  | .writeTask task => s.writeTask task
  | .workerGaveUp taskId reason =>
    let noted (row : Task) : Task :=
      if row.id = taskId then { row with failureMetadata := some ⟨none, none, some reason⟩ } else row
    { s with tasks := s.tasks.map noted }
  | .addTask task => { s with tasks := s.tasks ++ [task] }
  | .addRun run =>
    if (s.run? run.id).isSome then s else { s with runs := { run with ownerNotification := none } :: s.runs }
  | .writeRun run =>
    let changed (row : Run) : Run := if row.id = run.id then { run with ownerNotification := row.ownerNotification } else row
    { s with runs := s.runs.map changed }

theorem addRun_tasks (run : Run) (s : State) : ((OutsideChange.addRun run).apply s).tasks = s.tasks := by
  unfold OutsideChange.apply
  dsimp only
  split <;> rfl

theorem outside_trace (change : OutsideChange) (s : State) : (change.apply s).trace = s.trace := by
  cases change with
  | addRun run =>
    unfold OutsideChange.apply
    dsimp only
    split <;> rfl
  | _ => rfl

/-- `service` is what the services outside this model answer to this call; `fate`
whether a call to the API or to Redis is served and heard. -/
structure Reply where
  fate : Fate Exn
  newId : String
  service : (call : ServiceCall) → Except Exn call.Res
  change : OutsideChange

def ownerNotificationPage : Nat := 100

def run (_ : Party) (op : Op) (reply : Reply) (s : State) : Except Exn (Op.Res op) × State :=
  match op with
  | .service call => (reply.service call, s)
  | .getStoriesByStatus status => reply.fate.serve (fun s => (.ok (s.stories.filter (·.status = status)), s)) s
  | .getStory storyId => reply.fate.serve (State.getStory storyId) s
  | .transitionStory storyId action account => reply.fate.serve (State.transitionStory storyId action account) s
  | .updateStory storyId reason => reply.fate.serve (State.updateStory storyId reason) s
  | .getTasksByStory storyId => reply.fate.serve (fun s => (.ok (s.tasksOf storyId), s)) s
  | .getTasksByStatus status => reply.fate.serve (fun s => (.ok (s.tasks.filter (·.status = status)), s)) s
  | .createTask task => reply.fate.serve (State.createTask task reply.newId) s
  | .transitionTask taskId toStatus => reply.fate.serve (State.transitionTask taskId toStatus) s
  | .getLatestRunByStory storyId type => reply.fate.serve (State.getLatestRunByStory storyId type) s
  | .listRuns taskId => reply.fate.serve (State.listRuns taskId) s
  | .listRunsOwing => reply.fate.serve (State.listRunsOwing ownerNotificationPage) s
  | .writeRecord runId record => reply.fate.serve (State.writeRecord runId record) s
  | .publishFlat runId event => reply.fate.serve (fun s => (.ok (), s.record (.published runId event))) s
  | .outside => (.ok (), reply.change.apply s)

/-- What a call of the scheduler can do. -/
inductive Effect (s : State) : Op → State → Prop where
  | kept {op : Op} : Effect s op s
  | read {storyId : String} {status : StoryStatus} : Effect s (.getStory storyId) (s.record (.read storyId status))
  | moved {action : StoryAction} {account : Option String} {story : Story} (h : s.story? story.id = some story) :
      Effect s (.transitionStory story.id action account) (s.moveStory story action account)
  | noted {reason : QuarantineReason} {story : Story} (h : s.story? story.id = some story) :
      Effect s (.updateStory story.id reason) (s.writeStory { story with quarantineReason := some reason })
  | created {task : TaskCreate} {newId : String} :
      Effect s (.createTask task) (State.record { s with tasks := s.tasks ++ [⟨task, newId⟩] } (.created task))
  | turned {taskId : String} {toStatus : TaskStatus} : Effect s (.transitionTask taskId toStatus)
      { s with tasks := s.tasks.map fun row => if row.id = taskId then { row with status := toStatus } else row }
  | recorded {runId : String} {record : OwnerNotification} : Effect s (.writeRecord runId record)
      (State.record { s with runs := s.runs.map fun row =>
        if row.id = runId then { row with ownerNotification := some record } else row } (.recorded runId record))
  | published {runId : String} {event : PoSystemEvent} : Effect s (.publishFlat runId event) (s.record (.published runId event))

theorem Effect.serve {A : Type} {op : Op} {s : State} {exec : State → Except Exn A × State} (fate : Fate Exn)
    (h : Effect s op (exec s).2) : Effect s op (fate.serve exec s).2 := by
  cases fate with
  | unsent e => exact .kept
  | _ => exact h

theorem run_effect (t : Party) {op : Op} (hop : op ≠ .outside) (reply : Reply) (s : State) : Effect s op (run t op reply s).2 := by
  cases op with
  | getStory storyId =>
    refine .serve reply.fate ?_
    unfold State.getStory
    split
    · exact .kept
    · exact .read
  | transitionStory storyId action account =>
    refine .serve reply.fate ?_
    rcases transitionStory_cases storyId action account s with h | ⟨story, hstory, rfl, -, -, h⟩
    · rw [h]
      exact .kept
    · rw [h]
      exact .moved hstory
  | updateStory storyId reason =>
    refine .serve reply.fate ?_
    unfold State.updateStory
    cases hstory : s.story? storyId with
    | none => exact .kept
    | some story =>
      obtain rfl := story_id_of_some hstory
      exact .noted hstory
  | createTask task => exact .serve reply.fate .created
  | transitionTask taskId toStatus =>
    refine .serve reply.fate ?_
    unfold State.transitionTask
    split
    · exact .kept
    · split
      · exact .turned
      · exact .kept
  | getLatestRunByStory storyId type =>
    refine .serve reply.fate ?_
    unfold State.getLatestRunByStory
    split
    · exact .kept
    · split <;> exact .kept
  | listRuns taskId =>
    refine .serve reply.fate ?_
    unfold State.listRuns
    dsimp only
    split <;> exact .kept
  | listRunsOwing =>
    refine .serve reply.fate ?_
    unfold State.listRunsOwing
    dsimp only
    split <;> exact .kept
  | writeRecord runId record =>
    refine .serve reply.fate ?_
    unfold State.writeRecord
    split
    · exact .kept
    · exact .recorded
  | publishFlat runId event => exact .serve reply.fate .published
  | outside => exact absurd rfl hop
  | service call => exact .kept
  | _ => exact .serve reply.fate .kept

abbrev pipelineWorld : World pipelineInterface Party Unit := ⟨State, fun _ => Reply, run, fun _ _ s => s⟩

abbrev Sheet := (op : Op) → Option Reply

abbrev alone {A : Type} (answers : Sheet) (p : Job A) (s : State) : Option (Except Exn A) × State :=
  solo pipelineWorld .scheduler answers p s

def after {A : Type} (answers : Sheet) (p : Job A) (s : State) : State := (alone answers p s).2

def ask (call : ServiceCall) : Job call.Res := perform (.service call)

def getStoriesByStatus (status : StoryStatus) : Job (List Story) :=
  perform (.getStoriesByStatus status)

def transitionStory (storyId : String) (action : StoryAction) (account : Option String) : Job Unit :=
  perform (.transitionStory storyId action account)

def getTasksByStory (storyId : String) : Job (List Task) :=
  perform (.getTasksByStory storyId)

def createTask (task : TaskCreate) : Job Unit := perform (.createTask task)

def exceptException {A : Type} (body : Job A) (handler : String → Job A) : Job A :=
  Prog.handle (I := pipelineInterface) body fun e => match e with
    | .cancelledError => .raise e
    | .exception type => handler type

end Orchestrator.Pipeline
