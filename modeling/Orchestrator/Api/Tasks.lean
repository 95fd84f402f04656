import Orchestrator.Async.Lifecycle
import Orchestrator.Contracts.Work
import Orchestrator.Python.Value
import Orchestrator.Results

/-!
The requests that write tasks, as they run beside each other. Every transition
is written with an event that says where the task came from.
-/

namespace Orchestrator.Api.Tasks

open Async Contracts

structure TaskRow where
  projectId : String
  type : TaskType
  title : String
  description : Option String
  plan : Option String
  status : TaskStatus
  priority : Int
  acceptanceCriteria : Option String
  currentIteration : Int
  maxIterations : Int
  needE2e : Bool
  createdBy : String
  sourceBrainstormId : Option String
  repositoryId : Option String
  storyId : Option String
  blockedByTaskId : Option String
  failureMetadata : Option Python.Mapping

inductive HTTPException where
  | taskNotFound (taskId : String)
  | invalidStatus (status : String)
  | invalidTransition (fromStatus toStatus : TaskStatus)
  | notCompletable (status : TaskStatus)
  | notSpawnable (status : TaskStatus)
  | projectNotFound (projectId : String)
  | projectPredatesRunOwnership (projectId : String)
  | foreignKey
  | internalServerError

def HTTPException.statusCode : HTTPException → Nat
  | .taskNotFound _ => 404
  | .invalidStatus _ => 422
  | .invalidTransition .. => 422
  | .notCompletable _ => 422
  | .notSpawnable _ => 422
  | .projectNotFound _ => 404
  | .projectPredatesRunOwnership _ => 409
  | .foreignKey => 422
  | .internalServerError => 500

def HTTPException.detail : HTTPException → String
  | .taskNotFound taskId => s!"Task {taskId} not found"
  | .invalidStatus status => s!"Invalid status: {status}"
  | .invalidTransition fromStatus toStatus =>
      "Cannot transition from " ++ fromStatus.value ++ " to " ++ toStatus.value ++ ". Allowed: [" ++
        ", ".intercalate ((validTransitions fromStatus).map fun status => "'" ++ status.value ++ "'") ++ "]"
  | .notCompletable status => "Cannot complete task from status '" ++ status.value ++ "'"
  | .notSpawnable status => "Cannot spawn worker for task in status '" ++ status.value ++ "'"
  | .projectNotFound projectId => s!"Project {projectId} not found"
  | .projectPredatesRunOwnership projectId => s!"Project {projectId} has no initiating run: it predates run ownership. Workers cannot be created for it, because they could not be attributed to any run once they die. Recreate the project from the run that needs it."
  | .foreignKey => "Foreign key constraint violated"
  | .internalServerError => "Internal Server Error"

structure TaskEvent where
  actor : String
  details : Python.Mapping

structure RunRow where
  id : String
  projectId : String
  taskId : String
  storyId : Option String

structure ProjectRow where
  initiatingRunId : Option String
  ownerTelegramId : Option Int

structure Tables where
  projects : String → Option ProjectRow
  runs : List RunRow

inductive Question where
  | project (projectId : String)
  | telegramIdOf (projectId : String)
  | publish (message : EngineeringMessage)

def Question.Answer : Question → Type
  | .project _ => Option ProjectRow
  | .telegramIdOf _ => Option Int
  | .publish _ => Unit

def Question.answer : (question : Question) → Tables → Except HTTPException question.Answer
  | .project projectId, tables => .ok (tables.projects projectId)
  | .telegramIdOf projectId, tables => .ok ((tables.projects projectId).bind (·.ownerTelegramId))
  | .publish _, _ => .ok ()

abbrev tasks : Lifecycle where
  Status := TaskStatus
  Row := TaskRow
  Note := TaskEvent
  Rest := Tables
  Question := Question
  Answer := Question.Answer
  Exn := HTTPException
  next := validTransitions
  status := TaskRow.status
  setStatus status task := { task with status := status }
  status_setStatus _ _ := rfl
  answer := Question.answer
  vanished := .internalServerError
  duplicate := .foreignKey

abbrev Handler (A : Type) := tasks.Handler A

def getTask (taskId : String) : Handler TaskRow := Lifecycle.load (L := tasks) taskId (.taskNotFound taskId)

def validateTransition (fromStatus toStatus : TaskStatus) : Except HTTPException Unit :=
  if toStatus ∈ validTransitions fromStatus then .ok () else .error (.invalidTransition fromStatus toStatus)

structure TaskTransition where
  reason : Option String
  actor : String
  details : Python.Mapping

def TaskTransition.reasoned (body : TaskTransition) : Python.Mapping :=
  match body.reason with
  | none => body.details
  | some reason => if reason = "" then body.details else Python.setKey body.details "reason" (.text reason)

/-- `validate_transition`, the write of the status, and its event. -/
def applyTransition (status toStatus : TaskStatus) (event : TaskEvent) : Except HTTPException tasks.Change := do
  validateTransition status toStatus
  .ok (.move status toStatus event)

def transitionTo (toStatus : TaskStatus) (taskId : String) (event : TaskEvent) : Handler TaskRow :=
  Lifecycle.revise (L := tasks) taskId (.taskNotFound taskId) none fun task => applyTransition task.status toStatus event

def failTask (taskId : String) (body : TaskTransition) : Handler TaskRow :=
  transitionTo .failed taskId ⟨body.actor, body.reasoned⟩

def reopenTask (taskId : String) (body : TaskTransition) : Handler TaskRow :=
  transitionTo .backlog taskId ⟨body.actor, body.reasoned⟩

def taskStatusOf (text : String) : Option TaskStatus :=
  [TaskStatus.backlog, .todo, .inDev, .inCi, .testing, .done, .blocked, .waitingHumanReview, .waitingResources, .failed,
    .cancelled].find? fun status => status.value = text

def transitionTask (taskId toStatus : String) (body : TaskTransition) : Handler TaskRow :=
  Lifecycle.revise (L := tasks) taskId (.taskNotFound taskId) none fun task =>
    match taskStatusOf toStatus with
    | none => .error (.invalidStatus toStatus)
    | some status => applyTransition task.status status ⟨body.actor, body.details⟩

def followed (change : tasks.Change) (status : TaskStatus) (event : TaskEvent) : tasks.Change :=
  { change with
    status := some status
    events := change.events ++ [(some (change.status.getD status, status), event)] }

def startFrom (status : TaskStatus) (actor : String) (event : TaskEvent) : Except HTTPException tasks.Change :=
  if status = .backlog then do
    validateTransition .todo .inDev
    .ok (followed (.move .backlog .todo ⟨actor, []⟩) .inDev event)
  else applyTransition status .inDev event

def startTask (taskId : String) (body : TaskTransition) : Handler TaskRow :=
  Lifecycle.revise (L := tasks) taskId (.taskNotFound taskId) none fun task =>
    startFrom task.status body.actor ⟨body.actor, body.details⟩

def completePath : TaskStatus → Option (List TaskStatus)
  | .inDev => some [.inCi, .testing, .done]
  | .inCi => some [.testing, .done]
  | .testing => some [.done]
  | _ => none

def walkPath (event : TaskEvent) (status : TaskStatus) : List TaskStatus → tasks.Change
  | [] => ⟨none, id, [], id⟩
  | next :: path => path.foldl (fun change next => followed change next event) (.move status next event)

def completeTask (taskId : String) (body : TaskTransition) : Handler TaskRow :=
  Lifecycle.revise (L := tasks) taskId (.taskNotFound taskId) none fun task =>
    match completePath task.status with
    | none => .error (.notCompletable task.status)
    | some path => .ok (walkPath ⟨body.actor, body.details⟩ task.status path)

def resumeTask (taskId guidance actor : String) : Handler TaskRow :=
  Lifecycle.revise (L := tasks) taskId (.taskNotFound taskId) none fun task => do
    let change ← applyTransition task.status .inDev ⟨actor, [("guidance", .text guidance)]⟩
    .ok { change with events := change.events ++
      [(none, ⟨actor, [("action", .text "guidance"), ("guidance", .text guidance)]⟩)] }

def cancelTask (taskId : String) : Handler TaskRow := do
  let task ← getTask taskId
  if task.status = .cancelled then return task
  else do
    let change ← Prog.ofExcept (applyTransition task.status .cancelled ⟨"system", []⟩)
    Lifecycle.save (L := tasks) taskId change none

def spawnFrom (status : TaskStatus) (actor : String) : Except HTTPException tasks.Change :=
  if status = .backlog ∨ status = .todo then startFrom status actor ⟨actor, []⟩
  else if status = .inDev then .ok ⟨none, id, [], id⟩
  else .error (.notSpawnable status)

def spawnAction : TaskType → Except HTTPException ActionType
  | .create => .ok .create
  | .feature => .ok .feature
  | .fix => .ok .fix
  | .refactor => .error .internalServerError

def initiatingRunOrConflict (projectId : String) (project : ProjectRow) : Except HTTPException String :=
  match project.initiatingRunId with
  | none => .error (.projectPredatesRunOwnership projectId)
  | some runId => if runId = "" then .error (.projectPredatesRunOwnership projectId) else .ok runId

def getProject (projectId : String) : Handler ProjectRow :=
  (Lifecycle.ask (L := tasks) (.project projectId)).bind fun
    | none => .raise (.projectNotFound projectId)
    | some project => .ret project

def resolveProjectChatId (projectId : String) : Handler String := do
  let telegramId : Option Int ← Lifecycle.ask (L := tasks) (.telegramIdOf projectId)
  return match telegramId with
    | none => ""
    | some telegramId => if telegramId = 0 then "" else toString telegramId

def publishSpawned (taskId runId initiatingRunId : String) (description : Option String) (task : TaskRow) : Handler Unit := do
  let chat ← resolveProjectChatId task.projectId
  let action ← Prog.ofExcept (spawnAction task.type)
  Lifecycle.ask (L := tasks) (.publish
    { taskId := runId
      projectId := task.projectId
      initiatingRunId := initiatingRunId
      telegramChatId := chat
      action := action
      description := description.or task.description
      skipDeploy := false
      planningTaskId := some taskId
      storyId := task.storyId
      branch := none })

/-- `referenced` says whether what a row refers to exists, and whether its key is free. -/
def spawnWorker (taskId runId actor : String) (description : Option String) (referenced : Bool) : Handler TaskRow := do
  let task ← getTask taskId
  let project ← getProject task.projectId
  let initiatingRunId ← Prog.ofExcept (initiatingRunOrConflict task.projectId project)
  let change ← Prog.ofExcept (spawnFrom task.status actor)
  let spawned ← Lifecycle.save (L := tasks) taskId
    { change with rest := fun tables => { tables with runs := ⟨runId, task.projectId, taskId, task.storyId⟩ :: tables.runs } }
    (if referenced then none else some .internalServerError)
  publishSpawned taskId runId initiatingRunId description spawned
  return spawned

def refusal (referenced : Bool) : Option HTTPException := if referenced then none else some .foreignKey

def createTask (taskId : String) (task : TaskRow) (referenced : Bool) : Handler TaskRow :=
  Lifecycle.make (L := tasks) taskId { task with currentIteration := 0, plan := none } (refusal referenced)

structure TaskUpdate where
  projectId : Option (Option String)
  title : Option (Option String)
  description : Option (Option String)
  plan : Option (Option String)
  acceptanceCriteria : Option (Option String)
  priority : Option (Option Int)
  needE2e : Option (Option Bool)
  repositoryId : Option (Option String)
  storyId : Option (Option String)
  blockedByTaskId : Option (Option String)
  sourceBrainstormId : Option (Option String)
  currentIteration : Option (Option Int)
  failureMetadata : Option (Option Python.Mapping)

def TaskUpdate.storable (update : TaskUpdate) : Bool :=
  update.projectId != some none && update.title != some none && update.priority != some none &&
    update.needE2e != some none && update.currentIteration != some none

def TaskUpdate.assign (update : TaskUpdate) (task : TaskRow) : TaskRow :=
  { task with
    projectId := (update.projectId.getD none).getD task.projectId
    title := (update.title.getD none).getD task.title
    description := update.description.getD task.description
    plan := update.plan.getD task.plan
    acceptanceCriteria := update.acceptanceCriteria.getD task.acceptanceCriteria
    priority := (update.priority.getD none).getD task.priority
    needE2e := (update.needE2e.getD none).getD task.needE2e
    repositoryId := update.repositoryId.getD task.repositoryId
    storyId := update.storyId.getD task.storyId
    blockedByTaskId := update.blockedByTaskId.getD task.blockedByTaskId
    sourceBrainstormId := update.sourceBrainstormId.getD task.sourceBrainstormId
    currentIteration := (update.currentIteration.getD none).getD task.currentIteration
    failureMetadata := update.failureMetadata.getD task.failureMetadata }

def updateTask (taskId : String) (update : TaskUpdate) (referenced : Bool) : Handler TaskRow :=
  Lifecycle.revise (L := tasks) taskId (.taskNotFound taskId) (refusal (referenced && update.storable)) fun _ =>
    .ok ⟨none, update.assign, [], id⟩

inductive Request where
  | create (taskId : String) (task : TaskRow) (referenced : Bool)
  | update (taskId : String) (update : TaskUpdate) (referenced : Bool)
  | start (taskId : String) (body : TaskTransition)
  | complete (taskId : String) (body : TaskTransition)
  | fail (taskId : String) (body : TaskTransition)
  | reopen (taskId : String) (body : TaskTransition)
  | resume (taskId guidance actor : String)
  | transition (taskId toStatus : String) (body : TaskTransition)
  | spawnWorker (taskId runId actor : String) (description : Option String) (referenced : Bool)
  | cancel (taskId : String)

def Request.handler : Request → Handler TaskRow
  | .create taskId task referenced => createTask taskId task referenced
  | .update taskId fields referenced => updateTask taskId fields referenced
  | .start taskId body => startTask taskId body
  | .complete taskId body => completeTask taskId body
  | .fail taskId body => failTask taskId body
  | .reopen taskId body => reopenTask taskId body
  | .resume taskId guidance actor => resumeTask taskId guidance actor
  | .transition taskId toStatus body => transitionTask taskId toStatus body
  | .spawnWorker taskId runId actor description referenced => Tasks.spawnWorker taskId runId actor description referenced
  | .cancel taskId => cancelTask taskId

section Requests

open Rules

variable {T : Type} [DecidableEq T] {t : T} {s : tasks.schema.Tables T TaskRow} {taskId : String}
  {status toStatus : TaskStatus} {event : TaskEvent} {change : tasks.Change}

theorem validateTransition_ok {u : Unit} (h : validateTransition status toStatus = .ok u) :
    toStatus ∈ validTransitions status := by
  unfold validateTransition at h
  split at h
  · next hvalid => exact hvalid
  · cases h

theorem applyTransition_lawful (h : applyTransition status toStatus event = .ok change) :
    change = .move status toStatus event ∧ toStatus ∈ validTransitions status := by
  obtain ⟨_, hvalid, h⟩ := bind_ok h
  cases h
  exact ⟨rfl, validateTransition_ok hvalid⟩

theorem followed_lawful {mid : TaskStatus} (h : change.Lawful status) (hset : change.status = some mid)
    (hvalid : toStatus ∈ validTransitions mid) : (followed change toStatus event).Lawful status := by
  refine ⟨h.keeps, ?_, fun hnone => by cases hnone⟩
  have hsteps : (followed change toStatus event).steps = change.steps ++ [(mid, toStatus)] := by
    unfold Lifecycle.Change.steps followed
    rw [List.filterMap_append, hset]
    rfl
  have hwalks := h.walks
  rw [hset] at hwalks
  rw [hsteps]
  exact hwalks.append ⟨rfl, hvalid, rfl⟩

theorem startFrom_lawful {actor : String} (h : startFrom status actor event = .ok change) : change.Lawful status := by
  unfold startFrom at h
  split at h
  · next hbacklog =>
    subst hbacklog
    obtain ⟨_, hvalid, h⟩ := bind_ok h
    cases h
    exact followed_lawful (Lifecycle.Change.lawful_move (by decide)) rfl (validateTransition_ok hvalid)
  · obtain ⟨rfl, hvalid⟩ := applyTransition_lawful h
    exact Lifecycle.Change.lawful_move hvalid

theorem unmoved_lawful {assign : TaskRow → TaskRow} {rest : Tables → Tables} (h : ∀ task, (assign task).status = task.status) :
    (⟨none, assign, [], rest⟩ : tasks.Change).Lawful status :=
  ⟨h, rfl, fun _ => rfl⟩

theorem spawnFrom_lawful {actor : String} (h : spawnFrom status actor = .ok change) : change.Lawful status := by
  unfold spawnFrom at h
  split at h
  · exact startFrom_lawful h
  · split at h
    · cases h
      exact unmoved_lawful fun _ => rfl
    · cases h

theorem completePath_lawful {path : List TaskStatus} (h : completePath status = some path) :
    (walkPath event status path).Lawful status := by
  have moved {toStatus : TaskStatus} (hvalid : toStatus ∈ validTransitions status) :
      (Lifecycle.Change.move (L := tasks) status toStatus event).Lawful status := Lifecycle.Change.lawful_move hvalid
  cases status with
  | inDev =>
    cases h
    exact followed_lawful (followed_lawful (moved (by decide)) rfl (by decide)) rfl (by decide)
  | inCi =>
    cases h
    exact followed_lawful (moved (by decide)) rfl (by decide)
  | testing =>
    cases h
    exact moved (by decide)
  | _ => cases h

theorem rest_lawful {rest : Tables → Tables} (h : change.Lawful status) :
    ({ change with rest := rest } : tasks.Change).Lawful status :=
  ⟨h.keeps, h.walks, h.quiet⟩

theorem transitionTo_safe (hi : (tasks.rules T TaskRow).inv s) :
    (tasks.rules T TaskRow).Safe t (fun _ _ => True) (transitionTo toStatus taskId event) s := by
  refine Lifecycle.revise_safe (fun task change h => ?_) hi
  obtain ⟨rfl, hvalid⟩ := applyTransition_lawful h
  exact Lifecycle.Change.lawful_move hvalid

theorem cancelTask_safe (hi : (tasks.rules T TaskRow).inv s) :
    (tasks.rules T TaskRow).Safe t (fun _ _ => True) (cancelTask taskId) s := by
  refine Safe.bind hi (Lifecycle.load_safe hi) (fun task s hi hseen => ?_) fun _ _ _ _ => trivial
  split
  · trivial
  · cases hchange : applyTransition task.status .cancelled ⟨"system", []⟩ with
    | error e => trivial
    | ok change =>
      obtain ⟨rfl, hvalid⟩ := applyTransition_lawful hchange
      exact Lifecycle.save_safe (Lifecycle.Change.lawful_move hvalid) (hseen task rfl) hi

theorem publishSpawned_anywhere {runId initiatingRunId : String} {description : Option String} {task : TaskRow} :
    (tasks.rules T TaskRow).Maintains t (fun _ => True)
      (publishSpawned taskId runId initiatingRunId description task) := by
  refine .bind (.bind (Lifecycle.query_anywhere _) fun _ => .ret _) fun chat => ?_
  exact .bind (.ofExcept _) fun action => Lifecycle.query_anywhere _

theorem spawnWorker_safe {runId actor : String} {description : Option String} {referenced : Bool}
    (hi : (tasks.rules T TaskRow).inv s) :
    (tasks.rules T TaskRow).Safe t (fun _ _ => True) (spawnWorker taskId runId actor description referenced) s := by
  refine Safe.bind hi (Lifecycle.load_safe hi) (fun task s hi hseen => ?_) fun _ _ _ _ => trivial
  have project : (tasks.rules T TaskRow).Maintains t (Lifecycle.Seen t taskId task.status) (getProject task.projectId) := by
    refine .bind (Lifecycle.query_maintains _) fun found => ?_
    cases found with
    | none => exact .raise _
    | some project => exact .ret project
  refine Safe.bind hi (project s hi (hseen task rfl)) (fun project s hi hseen => ?_) fun _ _ _ _ => trivial
  cases hrun : initiatingRunOrConflict task.projectId project with
  | error e => trivial
  | ok initiatingRunId =>
    cases hchange : spawnFrom task.status actor with
    | error e => trivial
    | ok change =>
      change (tasks.rules T TaskRow).Safe t _ (Prog.bind (Lifecycle.save (L := tasks) taskId _ _) _) s
      refine Safe.bind hi (Lifecycle.save_safe (rest_lawful (spawnFrom_lawful hchange)) hseen hi) (fun spawned s hi _ => ?_)
        fun _ _ _ _ => trivial
      exact Safe.bind hi (publishSpawned_anywhere s hi trivial) (fun _ _ _ _ => trivial) fun _ _ _ _ => trivial

theorem handler_safe (request : Request) (hi : (tasks.rules T TaskRow).inv s) :
    (tasks.rules T TaskRow).Safe t (fun _ _ => True) request.handler s := by
  cases request with
  | create taskId task referenced => exact Lifecycle.make_safe hi
  | update taskId fields referenced =>
    refine Lifecycle.revise_safe (fun task change h => ?_) hi
    cases h
    exact unmoved_lawful fun _ => rfl
  | start taskId body => exact Lifecycle.revise_safe (fun task change h => startFrom_lawful h) hi
  | complete taskId body =>
    refine Lifecycle.revise_safe (fun task change h => ?_) hi
    split at h
    · cases h
    · next path hpath =>
      cases h
      exact completePath_lawful hpath
  | resume taskId guidance actor =>
    refine Lifecycle.revise_safe (fun task change h => ?_) hi
    obtain ⟨moved, hmoved, h⟩ := bind_ok h
    obtain ⟨rfl, hvalid⟩ := applyTransition_lawful hmoved
    cases h
    exact ⟨fun _ => rfl, ⟨rfl, hvalid, rfl⟩, fun hnone => by cases hnone⟩
  | transition taskId toStatus body =>
    refine Lifecycle.revise_safe (fun task change h => ?_) hi
    split at h
    · cases h
    · obtain ⟨rfl, hvalid⟩ := applyTransition_lawful h
      exact Lifecycle.Change.lawful_move hvalid
  | spawnWorker taskId runId actor description referenced => exact spawnWorker_safe hi
  | cancel taskId => exact cancelTask_safe hi
  | _ => exact transitionTo_safe hi

end Requests

end Orchestrator.Api.Tasks
