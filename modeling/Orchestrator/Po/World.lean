import Orchestrator.Async.Histories
import Orchestrator.Async.Solo
import Orchestrator.Python.Text

/-!
One process that answers `po:input`: its consumer loop, the task of each entry it dispatches,
the semaphore and the lock of each Telegram chat, and the calls a handling makes.
-/

namespace Orchestrator.Po

open Async

inductive POInputMessage where
  | userMessage (text telegramChatId requestId userName timestamp : String)
  | systemEvent (event text taskId telegramChatId ownerUserId storyId projectId timestamp : String)
  | reminder (text telegramChatId storyId timestamp : String)
deriving DecidableEq

abbrev Data := List (String × String)

def POInputMessage.modelDump : POInputMessage → Data
  | userMessage text telegramChatId requestId userName timestamp =>
    [("type", "user_message"), ("text", text), ("telegram_chat_id", telegramChatId), ("request_id", requestId),
      ("user_name", userName), ("timestamp", timestamp)]
  | systemEvent event text taskId telegramChatId ownerUserId storyId projectId timestamp =>
    [("type", "system_event"), ("event", event), ("text", text), ("task_id", taskId), ("telegram_chat_id", telegramChatId),
      ("owner_user_id", ownerUserId), ("story_id", storyId), ("project_id", projectId), ("timestamp", timestamp)]
  | reminder text telegramChatId storyId timestamp =>
    [("type", "reminder"), ("text", text), ("telegram_chat_id", telegramChatId), ("story_id", storyId), ("timestamp", timestamp)]

def POInputMessage.telegramChatId : POInputMessage → String
  | userMessage _ telegramChatId _ _ _ => telegramChatId
  | systemEvent _ _ _ telegramChatId _ _ _ _ => telegramChatId
  | reminder _ telegramChatId _ _ => telegramChatId

def Data.get (data : Data) (key : String) : String := (data.lookup key).getD ""

def orElse (text other : String) : String := if text = "" then other else text

def Data.requestId (data : Data) : Option String := (data.lookup "request_id").filter (· ≠ "")

inductive Stream where
  | response (requestId : String)
  | proactive
deriving DecidableEq

def Data.replyStream (data : Data) : Stream :=
  match data.requestId with
  | some requestId => .response requestId
  | none => .proactive

def toFlatFields (fields : List (String × Option String)) : Data :=
  fields.filterMap fun field => (field.2.filter (· ≠ "")).map (field.1, ·)

def poResponse (text telegramChatId : String) (error : Option String) : Data :=
  toFlatFields [("text", some text), ("telegram_chat_id", some telegramChatId), ("error", error)]

def proactiveFromInput (source : Data) (text telegramChatId : String) : Data :=
  toFlatFields [("text", some text), ("telegram_chat_id", some telegramChatId), ("owner_user_id", some (source.get "owner_user_id")),
    ("event", some (source.get "event")), ("story_id", some (source.get "story_id")), ("project_id", some (source.get "project_id"))]

inductive CheckpointMessage where
  | human
  | ai (toolCalls : List String)
  | tool (toolCallId : String)

structure Invocation where
  threadId : String
  content : String
  telegramChatId : String
  userName : String
  retryStoryId : String
deriving DecidableEq

inductive Exn where
  | valueError (message : String)
  | exception
  | cancelledError
deriving DecidableEq

def Exn.isException : Exn → Bool
  | cancelledError => false
  | _ => true

inductive Call where
  | getState (threadId : String)
  | updateState (threadId : String) (recovered : List String)
  | ainvoke (invocation : Invocation)
  | notifyAdmins (text : String)
  | publishFlat (stream : Stream) (fields : Data)
deriving DecidableEq

def Call.Res : Call → Type
  | getState _ => List CheckpointMessage
  | updateState _ _ => Unit
  | ainvoke _ => String
  | notifyAdmins _ => Unit
  | publishFlat _ _ => Unit

abbrev Dispatch := Option (String × POInputMessage)

inductive Op where
  | next
  | dispatch (msgId : String) (message : POInputMessage)
  | dispatched (n : Nat)
  | enter
  | acquireSem
  | releaseSem
  | acquire (telegramChatId : String)
  | release (telegramChatId : String)
  | call (call : Call)
  | xack (msgId : String)

def Op.Res : Op → Type
  | next => Dispatch
  | dispatch _ _ => Unit
  | dispatched _ => Unit
  | enter => Dispatch
  | acquireSem => Unit
  | releaseSem => Unit
  | acquire _ => Unit
  | release _ => Unit
  | .call request => request.Res
  | xack _ => Unit

abbrev poInterface : Interface := ⟨Op, Op.Res, Exn⟩

abbrev Job (A : Type) := Prog poInterface A

inductive Party where
  | loop
  | task (n : Nat)
  | callback (n : Nat)
deriving DecidableEq

def Party.number : Party → Nat
  | task n => n
  | _ => 0

inductive Phase where
  | created | running | stopped | finished | forgotten

def Phase.live : Phase → Bool
  | finished => false
  | forgotten => false
  | _ => true

structure Task where
  msgId : String
  message : POInputMessage
  phase : Phase

inductive Event where
  | dispatched (n : Nat) (msgId : String) (message : POInputMessage)
  | finished (n : Nat) (msgId : String)
  | acquired (n : Nat) (telegramChatId : String)
  | released (n : Nat) (telegramChatId : String)
  | raised (n : Nat) (call : Call) (error : Exn)
  | published (n : Nat) (stream : Stream) (fields : Data)
  | notified (n : Nat)
  | replied (n : Nat) (text : String)
  | acked (n : Nat) (msgId : String)
deriving DecidableEq

/-- No program reads `trace`: what happened, the latest first. -/
structure State where
  tasks : Nat → Option Task
  next : Nat
  inFlight : String → Option Nat
  permits : Nat
  locks : String → Option Nat
  trace : List Event

def maxConcurrent : Nat := 10

namespace State

def start : State := ⟨fun _ => none, 0, fun _ => none, maxConcurrent, fun _ => none, []⟩

def record (s : State) (events : List Event) : State := { s with trace := events ++ s.trace }

def setPhase (s : State) (n : Nat) (task : Task) (phase : Phase) : State :=
  { s with tasks := Function.update s.tasks n (some { task with phase := phase }) }

def dispatch (s : State) (msgId : String) (message : POInputMessage) : State :=
  match s.inFlight msgId with
  | some _ => s
  | none => { s with
      tasks := Function.update s.tasks s.next (some ⟨msgId, message, .created⟩)
      next := s.next + 1
      inFlight := Function.update s.inFlight msgId (some s.next)
      trace := .dispatched s.next msgId message :: s.trace }

def forget (s : State) (n : Nat) : State :=
  match s.tasks n with
  | some ⟨msgId, message, .finished⟩ =>
    { s.setPhase n ⟨msgId, message, .finished⟩ .forgotten with inFlight := Function.update s.inFlight msgId none }
  | _ => s

def enter (s : State) (n : Nat) : Dispatch × State :=
  match s.tasks n with
  | some ⟨msgId, message, .created⟩ => (some (msgId, message), s.setPhase n ⟨msgId, message, .created⟩ .running)
  | _ => (none, s)

def acquire (s : State) (n : Nat) (telegramChatId : String) : State :=
  { s with locks := Function.update s.locks telegramChatId (some n), trace := .acquired n telegramChatId :: s.trace }

/-- `asyncio.Lock.release` does not ask who holds the lock. -/
def release (s : State) (n : Nat) (telegramChatId : String) : State :=
  { s with locks := Function.update s.locks telegramChatId none, trace := .released n telegramChatId :: s.trace }

def ended (s : State) (n : Nat) (outcome : Option (Except Exn Unit)) : State :=
  match s.tasks n, outcome with
  | some ⟨msgId, message, .running⟩, some _ =>
    (s.setPhase n ⟨msgId, message, .running⟩ .finished).record [.finished n msgId]
  | some ⟨msgId, message, .running⟩, none => s.setPhase n ⟨msgId, message, .running⟩ .stopped
  | _, _ => s

end State

structure Reply where
  fate : Fate Exn
  message : Dispatch
  answer : (call : Call) → call.Res

def Call.events (n : Nat) (fate : Fate Exn) : (call : Call) → call.Res → List Event
  | publishFlat stream fields, _ => if fate.carriedOut then [.published n stream fields] else []
  | notifyAdmins _, _ => if fate.carriedOut then [.notified n] else []
  | ainvoke _, text => if fate.isServed then [.replied n text] else []
  | getState _, _ => []
  | updateState _ _, _ => []

def Call.failures (n : Nat) (call : Call) (fate : Fate Exn) : List Event := (fate.told.map (.raised n call)).toList

def serve (n : Nat) (call : Call) (reply : Reply) (s : State) : Except Exn call.Res × State :=
  (match reply.fate.told with
    | none => .ok (reply.answer call)
    | some e => .error e,
  s.record (call.failures n reply.fate ++ call.events n reply.fate (reply.answer call)))

def whenFree (fate : Fate Exn) (s after : State) : Except Exn Unit × State :=
  if fate.isServed then (.ok (), after) else (.error .cancelledError, s)

def run (t : Party) (op : Op) (reply : Reply) (s : State) : Except Exn (Op.Res op) × State :=
  match op with
  | .next => reply.fate.serve (fun s => (.ok reply.message, s)) s
  | .dispatch msgId message => (.ok (), s.dispatch msgId message)
  | .dispatched n => (.ok (), s.forget n)
  | .enter => (.ok (s.enter t.number).1, (s.enter t.number).2)
  | .acquireSem => whenFree reply.fate s { s with permits := s.permits - 1 }
  | .releaseSem => (.ok (), { s with permits := s.permits + 1 })
  | .acquire telegramChatId => whenFree reply.fate s (s.acquire t.number telegramChatId)
  | .release telegramChatId => (.ok (), s.release t.number telegramChatId)
  | .call call => serve t.number call reply s
  | .xack msgId => reply.fate.serve (fun s => (.ok (), s.record [.acked t.number msgId])) s

def ended (t : Party) (outcome : Option (Except Exn Unit)) (s : State) : State :=
  match t with
  | .task n => s.ended n outcome
  | _ => s

abbrev poWorld : World poInterface Party Unit := ⟨State, fun _ => Reply, run, ended⟩

def unblocked (s : State) : Move poWorld → Prop
  | .call _ .acquireSem reply => reply.fate.isServed = true → 0 < s.permits
  | .call _ (.acquire telegramChatId) reply => reply.fate.isServed = true → s.locks telegramChatId = none
  | _ => True

end Orchestrator.Po
