import Orchestrator.Po.World

/-!
The consumer loop of `po:input`, and what becomes of one entry.
-/

namespace Orchestrator.Po

open Async Python

def perform (op : Op) : Job op.Res := Prog.perform (I := poInterface) op

def ask (call : Call) : Job call.Res := perform (.call call)

def publishFlat (stream : Stream) (fields : Data) : Job Unit := ask (.publishFlat stream fields)

def updateState (threadId : String) (recovered : List String) : Job Unit := ask (.updateState threadId recovered)

def notifyAdmins (text : String) : Job Unit := ask (.notifyAdmins text)

def ainvoke (call : Invocation) : Job String := ask (.ainvoke call)

def notifyAdminsBestEffort (text : String) : Job Unit :=
  Prog.handle (notifyAdmins text) fun e => if e.isException then return () else .raise e

def orphanCalls (messages : List CheckpointMessage) : List String :=
  let results := messages.filterMap fun message => match message with
    | .tool toolCallId => some toolCallId
    | _ => none
  messages.flatMap fun message => match message with
    | .ai toolCalls => toolCalls.filter (!results.contains ·)
    | _ => []

def recoverCalls (threadId : String) : List String → Job Unit
  | [] => return ()
  | orphans => updateState threadId orphans

def repairOrphanToolCalls (threadId : String) : Job Unit := do
  let messages : List CheckpointMessage ← ask (.getState threadId)
  recoverCalls threadId (orphanCalls messages)

def storyEvents : List String :=
  ["story_completed", "story_failed", "story_blocked", "story_quarantined", "story_waiting_user_secret", "task_waiting_resources",
    "task_waiting_infrastructure", "task_impossible_capacity", "story_impossible_capacity", "task_resources_resumed"]

def Data.dropped (data : Data) : Bool := data.get "type" = "system_event" && !storyEvents.contains (data.get "event")

def missingRecipient (data : Data) : String :=
  "PO event has no Telegram recipient: event=" ++ orElse (data.get "event") (data.get "type") ++
    " story=" ++ orElse (data.get "story_id") "-" ++ " project=" ++ orElse (data.get "project_id") "-" ++
    " owner_user_id=" ++ orElse (data.get "owner_user_id") "-"

def stamped (data : Data) : String :=
  if data.get "timestamp" = "" then data.get "text" else "[" ++ data.get "timestamp" ++ " UTC] " ++ data.get "text"

def tag (data : Data) : String :=
  if data.get "event" = "" then data.get "type" else data.get "type" ++ ":" ++ data.get "event"

def formatted (telegramChatId : String) (data : Data) : String :=
  if data.get "type" = "user_message" then
    "[context: telegram_chat_id=" ++ telegramChatId ++ ", user_name=" ++ data.get "user_name" ++ "] " ++ stamped data
  else "[system: " ++ tag data ++ "] " ++ stamped data

def poThreadId (telegramChatId : String) : String := "po-chat-" ++ telegramChatId

def invocation (telegramChatId : String) (data : Data) : Invocation :=
  ⟨poThreadId telegramChatId, formatted telegramChatId data, telegramChatId, data.get "user_name", data.get "story_id"⟩

def checkpointCorrupt (message : String) : Bool :=
  contains message "tool_calls that do not have a corresponding ToolMessage"

def invokeAgain (call : Invocation) : Job String := do
  repairOrphanToolCalls call.threadId
  ainvoke call

def invoke (call : Invocation) : Job String :=
  Prog.handle (ainvoke call) fun e => match e with
    | .valueError message => if checkpointCorrupt message then invokeAgain call else .raise e
    | _ => .raise e

def reply (telegramChatId : String) (data : Data) (responseText : String) : Job Unit :=
  match data.requestId with
  | some requestId =>
    publishFlat (.response requestId) (poResponse (orElse responseText "Бот вернул пустой ответ") telegramChatId none)
  | none => if responseText = "" then return ()
    else publishFlat .proactive (proactiveFromInput data responseText telegramChatId)

def answerMessage (telegramChatId : String) (data : Data) : Job Unit := do
  repairOrphanToolCalls (poThreadId telegramChatId)
  let responseText ← invoke (invocation telegramChatId data)
  reply telegramChatId data responseText

def handleMessage (telegramChatId : String) (data : Data) : Job Unit :=
  if data.dropped then return ()
  else if telegramChatId = "" then notifyAdminsBestEffort (missingRecipient data)
  else answerMessage telegramChatId data

def errorResponse (telegramChatId : String) : Data := poResponse "An error occurred, please try again." telegramChatId (some "true")

def publishError (telegramChatId : String) (data : Data) : Job Unit :=
  match data.requestId with
  | some requestId => publishFlat (.response requestId) (errorResponse telegramChatId)
  | none => return ()

def attend (telegramChatId : String) (data : Data) : Job Unit :=
  Prog.handle (handleMessage telegramChatId data) fun e => if e.isException then publishError telegramChatId data else .raise e

def attendAndAck (msgId : String) (message : POInputMessage) : Job Unit :=
  Prog.ensuring (attend message.telegramChatId message.modelDump) (perform (.xack msgId))

def lockedChat (msgId : String) (message : POInputMessage) : Job Unit := do
  let _ : Unit ← perform (.acquire message.telegramChatId)
  Prog.ensuring (attendAndAck msgId message) (perform (.release message.telegramChatId))

def processMessage : Dispatch → Job Unit
  | none => return ()
  | some (msgId, message) => do
    let _ : Unit ← perform .acquireSem
    Prog.ensuring (lockedChat msgId message) (perform .releaseSem)

def dispatchMessage : Dispatch → Job Unit
  | none => return ()
  | some (msgId, message) => perform (.dispatch msgId message)

def consumePoInput : Nat → Job Unit
  | 0 => return ()
  | turns + 1 => do
    let message : Dispatch ← perform .next
    dispatchMessage message
    consumePoInput turns

def runTask : Job Unit := do
  let entry : Dispatch ← perform .enter
  processMessage entry

def body (turns : Nat) : Party → Job Unit
  | .loop => consumePoInput turns
  | .task _ => runTask
  | .callback n => perform (.dispatched n)

end Orchestrator.Po
