import Orchestrator.Pipeline.World

/-!
The notifications an ended story owes its owner: written down on the run that
decided the ending before the story is moved, and delivered from there.
-/

namespace Orchestrator.Pipeline

open Async Contracts

def ownerNotificationMaxAttempts : Nat := 3

def OwnerNotification.owed (record : OwnerNotification) : Bool := record.state = .owed

def writeRecord (runId : String) (record : OwnerNotification) : Job Unit :=
  perform (.writeRecord runId record)

structure Ending where
  event : String
  text : String
  storyId : String
  projectId : String
  terminalStatus : StoryStatus
  taskId : Option String

def Ending.record (ending : Ending) (owedAt : Time) : OwnerNotification where
  event := ending.event
  text := ending.text
  storyId := ending.storyId
  projectId := ending.projectId
  terminalStatus := ending.terminalStatus
  taskId := ending.taskId
  state := .owed
  owedAt := owedAt
  attempts := 0
  detail := none

def oweOwnerNotification (run : Run) (ending : Ending) : Job OwnerNotification :=
  match run.ownerNotification.filter fun existing => existing.state ≠ .voided with
  | some existing => return existing
  | none => do
    let now ← ask .clock
    writeRecord run.id (ending.record now)
    return ending.record now

inductive OwnerNotificationOutcome where
  | delivered | retrying | exhausted | unaddressable | voided | skipped

def settle (runId : String) (record : OwnerNotification) (state : OwnerNotificationState) (detail : Option String)
    (attempts : Nat) : Job Unit :=
  writeRecord runId { record with state := state, detail := detail, attempts := attempts }

def abandon (runId : String) (record : OwnerNotification) (attempts : Nat) (error : String) : Job Unit := do
  settle runId record .abandoned (some error) attempts
  ask (.notifyAdmins ("Owner notification undelivered after " ++ toString attempts ++ " attempts: event=" ++
    record.event ++ " story=" ++ record.storyId ++ " project=" ++ record.projectId ++ " run=" ++ runId ++ ": " ++ error))

def spendFailedAttempt (runId : String) (record : OwnerNotification) (attempts : Nat) (error : String) :
    Job OwnerNotificationOutcome :=
  if attempts ≥ ownerNotificationMaxAttempts then do
    abandon runId record attempts error
    return .exhausted
  else do
    settle runId record .owed (some error) attempts
    return .retrying

def poEvent (record : OwnerNotification) (recipient : Recipient) : PoSystemEvent where
  event := record.event
  taskId := record.taskId.getD record.storyId
  text := record.text
  storyId := record.storyId
  telegramChatId := recipient.telegramChatId
  ownerUserId := recipient.ownerUserId
  projectId := record.projectId

def getStory (storyId : String) : Job Story := perform (.getStory storyId)

def publishFlat (runId : String) (event : PoSystemEvent) : Job Unit :=
  perform (.publishFlat runId event)

def publishRecord (runId : String) (record : OwnerNotification) (attempts : Nat) : Job (Option OwnerNotificationOutcome) := do
  let recipient ← ask (.resolveProjectRecipient record.projectId record.event record.storyId)
  if Recipient.isAddressable recipient then do
    publishFlat runId (poEvent record recipient)
    return none
  else do
    settle runId record .unaddressable (some (Recipient.unaddressedReason recipient)) attempts
    return some .unaddressable

def caught {A : Type} (body : Job A) : Job (Except String A) :=
  exceptException (do return .ok (← body)) fun type => return .error type

def concludeAttempt (runId : String) (record : OwnerNotification) (attempts : Nat) :
    Except String (Option OwnerNotificationOutcome) → Job OwnerNotificationOutcome
  | .error type => spendFailedAttempt runId record attempts type
  | .ok (some outcome) => return outcome
  | .ok none => do
    settle runId record .delivered none attempts
    return .delivered

def deliverTo (runId : String) (record : OwnerNotification) (attempts : Nat) :
    Except String Story → Job OwnerNotificationOutcome
  | .error type => spendFailedAttempt runId record attempts type
  | .ok story =>
    if story.status ≠ record.terminalStatus then do
      settle runId record .voided
        (some ("story is " ++ story.status.value ++ ", not " ++ record.terminalStatus.value)) record.attempts
      return .voided
    else do
      let sent ← caught (publishRecord runId record attempts)
      concludeAttempt runId record attempts sent

def deliverOwedNotification (runId : String) (record : OwnerNotification) : Job OwnerNotificationOutcome :=
  if record.owed then do
    let found ← caught (getStory record.storyId)
    deliverTo runId record (record.attempts + 1) found
  else return .skipped

def deliverEach : List Run → Job (List OwnerNotificationOutcome)
  | [] => return []
  | run :: rest => match run.ownerNotification with
    | none => .raise (.exception "RuntimeError")
    | some record => do
      let outcome ← deliverOwedNotification run.id record
      let outcomes ← deliverEach rest
      return outcome :: outcomes

def superviseOwedOwnerNotifications : Job (List OwnerNotificationOutcome) := do
  let runs ← perform .listRunsOwing
  deliverEach runs

end Orchestrator.Pipeline
