import Orchestrator.Async.Lifecycle
import Orchestrator.Contracts.Work
import Orchestrator.Python.Value
import Orchestrator.Results

/-!
The requests that write stories, as they run beside each other. A story is read
without a lock, checked against the transitions that are valid from its status,
and committed.
-/

namespace Orchestrator.Api.Stories

open Async Contracts

structure StoryRow where
  projectId : String
  parentStoryId : Option String
  title : String
  description : Option String
  acceptanceCriteria : Option String
  type : StoryType
  status : StoryStatus
  priority : Int
  blockedByStoryId : Option String
  createdBy : String
  userReport : Option String
  quarantineReason : Option Python.Mapping
  prNumber : Option Int

inductive HTTPException where
  | storyNotFound (storyId : String)
  | invalidTransition (fromStatus toStatus : StoryStatus)
  | blocked (blockerId : String) (status : StoryStatus)
  | notForArchitect (status : StoryStatus)
  | parentNotFound (storyId : String)
  | parentInReview (storyId : String)
  | internalServerError

def HTTPException.statusCode : HTTPException → Nat
  | .storyNotFound _ => 404
  | .invalidTransition .. => 422
  | .blocked .. => 422
  | .notForArchitect _ => 422
  | .parentNotFound _ => 404
  | .parentInReview _ => 409
  | .internalServerError => 500

def HTTPException.detail : HTTPException → String
  | .storyNotFound storyId => s!"Story {storyId} not found"
  | .invalidTransition fromStatus toStatus =>
      "Cannot transition from " ++ fromStatus.value ++ " to " ++ toStatus.value ++ ". Allowed: [" ++
        ", ".intercalate ((storyTransitions fromStatus).map fun status => "'" ++ status.value ++ "'") ++ "]"
  | .blocked blockerId status =>
      s!"Cannot start: blocked by story {blockerId} (status: {status.value}, must be completed)"
  | .notForArchitect status =>
      "Cannot send to architect from status '" ++ status.value ++ "'. Must be created or reopened."
  | .parentNotFound storyId => s!"Parent story {storyId} not found for project"
  | .parentInReview storyId => s!"Story {storyId} requires human review before retrying"
  | .internalServerError => "Internal Server Error"

structure LogEntry where
  event : String
  actor : String

inductive Question where
  | telegramIdOf (projectId : String)
  | publish (message : ArchitectMessage)

def Question.Answer : Question → Type
  | .telegramIdOf _ => Option Int
  | .publish _ => Unit

abbrev Owners := String → Option Int

def Question.answer : (question : Question) → Owners → Except HTTPException question.Answer
  | .telegramIdOf projectId, owners => .ok (owners projectId)
  | .publish _, _ => .ok ()

abbrev stories : Lifecycle where
  Status := StoryStatus
  Row := StoryRow
  Note := LogEntry
  Rest := Owners
  Question := Question
  Answer := Question.Answer
  Exn := HTTPException
  next := storyTransitions
  status := StoryRow.status
  setStatus status story := { story with status := status }
  status_setStatus _ _ := rfl
  answer := Question.answer
  vanished := .internalServerError
  duplicate := .internalServerError

abbrev Handler (A : Type) := stories.Handler A

def getStory (storyId : String) : Handler StoryRow := Lifecycle.load (L := stories) storyId (.storyNotFound storyId)

def validateTransition (fromStatus toStatus : StoryStatus) : Except HTTPException Unit :=
  if toStatus ∈ storyTransitions fromStatus then .ok () else .error (.invalidTransition fromStatus toStatus)

def doTransition (story : StoryRow) (toStatus : StoryStatus) (entry : LogEntry) : Except HTTPException stories.Change := do
  validateTransition story.status toStatus
  .ok (.move story.status toStatus entry)

def transitionStory (toStatus : StoryStatus) (event storyId actor : String) : Handler StoryRow :=
  Lifecycle.revise (L := stories) storyId (.storyNotFound storyId) none fun story => doTransition story toStatus ⟨event, actor⟩

def humanReviewStory : String → String → Handler StoryRow := transitionStory .waitingHumanReview "story_waiting_human_review"

def waitUserSecretStory : String → String → Handler StoryRow := transitionStory .waitingUserSecret "story_waiting_user_secret"

def completeStory : String → String → Handler StoryRow := transitionStory .completed "story_completed"

def failStory : String → String → Handler StoryRow := transitionStory .failed "story_failed"

def prReviewStory : String → String → Handler StoryRow := transitionStory .prReview "story_pr_review"

def deployStory : String → String → Handler StoryRow := transitionStory .deploying "story_deploying"

def testStory : String → String → Handler StoryRow := transitionStory .testing "story_testing"

def archiveStory : String → String → Handler StoryRow := transitionStory .archived "story_archived"

def reopenStory (storyId : String) (userReport : Option String) (actor : String) : Handler StoryRow :=
  Lifecycle.revise (L := stories) storyId (.storyNotFound storyId) none fun story => do
    let change ← doTransition story .reopened ⟨"story_reopened", actor⟩
    .ok { change with assign := fun story => { story with userReport := userReport.or story.userReport } }

def requireUnblocked (story : StoryRow) : Handler Unit :=
  match story.blockedByStoryId with
  | none => .ret ()
  | some blockerId =>
    if blockerId = "" then .ret ()
    else do
      let blocker ← getStory blockerId
      if blocker.status ≠ .completed then .raise (.blocked blockerId blocker.status)
      else return ()

def startStory (storyId actor : String) : Handler StoryRow := do
  let story ← getStory storyId
  requireUnblocked story
  let change ← Prog.ofExcept (doTransition story .inProgress ⟨"story_started", actor⟩)
  Lifecycle.save (L := stories) storyId change none

def resolveProjectChatId (projectId : String) : Handler String := do
  let telegramId : Option Int ← Lifecycle.ask (L := stories) (.telegramIdOf projectId)
  return match telegramId with
    | none => ""
    | some telegramId => if telegramId = 0 then "" else toString telegramId

def sendToArchitect (storyId actor : String) : Handler StoryRow := do
  let story ← getStory storyId
  if story.status ∉ [StoryStatus.created, .reopened] then .raise (.notForArchitect story.status)
  else do
    let change ← Prog.ofExcept (doTransition story .inProgress ⟨"story_sent_to_architect", actor⟩)
    let sent ← Lifecycle.save (L := stories) storyId change none
    let chat ← resolveProjectChatId sent.projectId
    let isReopen := story.status == .reopened
    Lifecycle.ask (L := stories) (.publish ⟨storyId, sent.projectId, chat, isReopen, if isReopen then sent.userReport else none⟩)
    return sent

structure StoryCreate where
  projectId : String
  title : String
  description : Option String
  acceptanceCriteria : Option String
  parentStoryId : Option String
  type : StoryType
  priority : Int
  blockedByStoryId : Option String
  createdBy : String

def StoryCreate.row (body : StoryCreate) : StoryRow where
  projectId := body.projectId
  parentStoryId := body.parentStoryId
  title := body.title
  description := body.description
  acceptanceCriteria := body.acceptanceCriteria
  type := body.type
  status := .created
  priority := body.priority
  blockedByStoryId := body.blockedByStoryId
  createdBy := body.createdBy
  userReport := none
  quarantineReason := none
  prNumber := none

def failedQa (reason : Python.Mapping) : Bool :=
  match Python.valueAt reason "qa_failure" with
  | .mapping _ => true
  | _ => false

def validateRetryParent (body : StoryCreate) : Handler Unit :=
  match body.parentStoryId with
  | none => .ret ()
  | some parentId => (Lifecycle.lock (L := stories) parentId).bind fun
    | none => .raise (.parentNotFound parentId)
    | some parent =>
      if parent.projectId ≠ body.projectId then .raise (.parentNotFound parentId)
      else if parent.status = .waitingHumanReview ∧ failedQa (parent.quarantineReason.getD []) then
        .raise (.parentInReview parentId)
      else .ret ()

/-- `referenced` says whether what a row refers to exists. -/
def refusal (referenced : Bool) : Option HTTPException := if referenced then none else some .internalServerError

def createStory (storyId : String) (body : StoryCreate) (referenced : Bool) : Handler StoryRow := do
  validateRetryParent body
  Lifecycle.make (L := stories) storyId body.row (refusal referenced)

structure StoryUpdate where
  title : Option (Option String)
  description : Option (Option String)
  acceptanceCriteria : Option (Option String)
  parentStoryId : Option (Option String)
  type : Option (Option StoryType)
  priority : Option (Option Int)
  blockedByStoryId : Option (Option String)
  quarantineReason : Option (Option Python.Mapping)
  prNumber : Option (Option Int)

def StoryUpdate.storable (update : StoryUpdate) : Bool :=
  update.title != some none && update.type != some none && update.priority != some none

def StoryUpdate.assign (update : StoryUpdate) (story : StoryRow) : StoryRow :=
  { story with
    title := (update.title.getD none).getD story.title
    description := update.description.getD story.description
    acceptanceCriteria := update.acceptanceCriteria.getD story.acceptanceCriteria
    parentStoryId := update.parentStoryId.getD story.parentStoryId
    type := (update.type.getD none).getD story.type
    priority := (update.priority.getD none).getD story.priority
    blockedByStoryId := update.blockedByStoryId.getD story.blockedByStoryId
    quarantineReason := update.quarantineReason.getD story.quarantineReason
    prNumber := update.prNumber.getD story.prNumber }

def updateStory (storyId : String) (update : StoryUpdate) (referenced : Bool) : Handler StoryRow :=
  Lifecycle.revise (L := stories) storyId (.storyNotFound storyId) (refusal (referenced && update.storable)) fun _ =>
    .ok ⟨none, update.assign, [], id⟩

inductive Request where
  | create (storyId : String) (body : StoryCreate) (referenced : Bool)
  | update (storyId : String) (update : StoryUpdate) (referenced : Bool)
  | humanReview (storyId actor : String)
  | waitUserSecret (storyId actor : String)
  | start (storyId actor : String)
  | complete (storyId actor : String)
  | fail (storyId actor : String)
  | prReview (storyId actor : String)
  | deploy (storyId actor : String)
  | test (storyId actor : String)
  | reopen (storyId : String) (userReport : Option String) (actor : String)
  | archive (storyId actor : String)
  | sendToArchitect (storyId actor : String)

def Request.handler : Request → Handler StoryRow
  | .create storyId body referenced => createStory storyId body referenced
  | .update storyId fields referenced => updateStory storyId fields referenced
  | .humanReview storyId actor => humanReviewStory storyId actor
  | .waitUserSecret storyId actor => waitUserSecretStory storyId actor
  | .start storyId actor => startStory storyId actor
  | .complete storyId actor => completeStory storyId actor
  | .fail storyId actor => failStory storyId actor
  | .prReview storyId actor => prReviewStory storyId actor
  | .deploy storyId actor => deployStory storyId actor
  | .test storyId actor => testStory storyId actor
  | .reopen storyId userReport actor => reopenStory storyId userReport actor
  | .archive storyId actor => archiveStory storyId actor
  | .sendToArchitect storyId actor => Stories.sendToArchitect storyId actor

section Requests

open Rules

variable {T : Type} [DecidableEq T] {t : T} {s : stories.schema.Tables T StoryRow} {story : StoryRow} {storyId : String}

theorem doTransition_lawful {toStatus : StoryStatus} {entry : LogEntry} {change : stories.Change}
    (h : doTransition story toStatus entry = .ok change) :
    change = .move story.status toStatus entry ∧ toStatus ∈ storyTransitions story.status := by
  unfold doTransition validateTransition at h
  split at h
  · next hvalid =>
    cases h
    exact ⟨rfl, hvalid⟩
  · cases h

theorem transitionStory_safe {toStatus : StoryStatus} {event actor : String} (hi : (stories.rules T StoryRow).inv s) :
    (stories.rules T StoryRow).Safe t (fun _ _ => True) (transitionStory toStatus event storyId actor) s := by
  refine Lifecycle.revise_safe (fun row change h => ?_) hi
  obtain ⟨rfl, hvalid⟩ := doTransition_lawful h
  exact Lifecycle.Change.lawful_move hvalid

theorem getStory_maintains {statusOf : StoryStatus} {otherId : String} :
    (stories.rules T StoryRow).Maintains t (Lifecycle.Seen t otherId statusOf) (getStory storyId) := by
  refine .bind (Lifecycle.query_maintains _) fun found => ?_
  cases found with
  | none => exact .raise _
  | some row => exact .ret row

theorem startStory_safe {actor : String} (hi : (stories.rules T StoryRow).inv s) :
    (stories.rules T StoryRow).Safe t (fun _ _ => True) (startStory storyId actor) s := by
  refine Safe.bind hi (Lifecycle.load_safe hi) (fun story s hi hseen => ?_) fun _ _ _ _ => trivial
  have unblocked : (stories.rules T StoryRow).Maintains t (Lifecycle.Seen t storyId story.status) (requireUnblocked story) := by
    unfold requireUnblocked
    split
    · exact .ret ()
    · split
      · exact .ret ()
      · refine .bind getStory_maintains fun blocker => ?_
        split
        · exact .raise _
        · exact .ret ()
  refine Safe.bind hi (unblocked s hi (hseen story rfl)) (fun _ s hi hseen => ?_) fun _ _ _ _ => trivial
  cases hchange : doTransition story .inProgress ⟨"story_started", actor⟩ with
  | error e => trivial
  | ok change =>
    obtain ⟨rfl, hvalid⟩ := doTransition_lawful hchange
    exact Lifecycle.save_safe (Lifecycle.Change.lawful_move hvalid) hseen hi

theorem sendToArchitect_safe {actor : String} (hi : (stories.rules T StoryRow).inv s) :
    (stories.rules T StoryRow).Safe t (fun _ _ => True) (sendToArchitect storyId actor) s := by
  refine Safe.bind hi (Lifecycle.load_safe hi) (fun story s hi hseen => ?_) fun _ _ _ _ => trivial
  split
  · trivial
  · cases hchange : doTransition story .inProgress ⟨"story_sent_to_architect", actor⟩ with
    | error e => trivial
    | ok change =>
      obtain ⟨rfl, hvalid⟩ := doTransition_lawful hchange
      change (stories.rules T StoryRow).Safe t _ (Prog.bind (Lifecycle.save (L := stories) storyId _ none) _) s
      refine Safe.bind hi (Lifecycle.save_safe (Lifecycle.Change.lawful_move hvalid) (hseen story rfl) hi) ?_
        fun _ _ _ _ => trivial
      intro sent s hi _
      have chat : (stories.rules T StoryRow).Maintains t (fun _ => True) (resolveProjectChatId sent.projectId) :=
        .bind (Lifecycle.query_anywhere _) fun _ => .ret _
      refine Safe.bind hi (chat s hi trivial) (fun chat s hi _ => ?_) fun _ _ _ _ => trivial
      exact Safe.bind hi (Lifecycle.query_anywhere _ s hi trivial) (fun _ _ _ _ => trivial) fun _ _ _ _ => trivial

theorem handler_safe (request : Request) (hi : (stories.rules T StoryRow).inv s) :
    (stories.rules T StoryRow).Safe t (fun _ _ => True) request.handler s := by
  cases request with
  | create storyId body referenced =>
    have parent : (stories.rules T StoryRow).Maintains t (fun _ => True) (validateRetryParent body) := by
      unfold validateRetryParent
      split
      · exact .ret ()
      · refine .bind (Lifecycle.query_anywhere _) fun found => ?_
        cases found with
        | none => exact .raise _
        | some parent =>
          dsimp only
          split
          · exact .raise _
          · split
            · exact .raise _
            · exact .ret ()
    exact Safe.bind hi (parent s hi trivial) (fun _ s hi _ => Lifecycle.make_safe hi) fun _ _ _ _ => trivial
  | update storyId fields referenced =>
    refine Lifecycle.revise_safe (fun row change h => ?_) hi
    cases h
    exact ⟨fun _ => rfl, rfl, fun _ => rfl⟩
  | start storyId actor => exact startStory_safe hi
  | reopen storyId userReport actor =>
    refine Lifecycle.revise_safe (fun row change h => ?_) hi
    obtain ⟨moved, hmoved, h⟩ := bind_ok h
    obtain ⟨rfl, hvalid⟩ := doTransition_lawful hmoved
    cases h
    exact ⟨fun _ => rfl, ⟨rfl, hvalid, rfl⟩, fun hnone => by cases hnone⟩
  | sendToArchitect storyId actor => exact sendToArchitect_safe hi
  | _ => exact transitionStory_safe hi

end Requests

end Orchestrator.Api.Stories
