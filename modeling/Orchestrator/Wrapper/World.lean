import Orchestrator.Projects.Config
import Orchestrator.Stateful

/-!
The worker wrapper and what it deals with in a turn: the agent's report server,
the results it submits, and what the broker, the file system and the agent's
processes answer.
-/

namespace Orchestrator.Wrapper

open Python
open Projects (AgentType)

/-- The exceptions, as far as the handlers of the wrapper tell them apart; a
cancellation is no `Exception`. -/
inductive Raised where
  | osError (text : String)
  | timeoutError (text : String)
  | processLookupError (text : String)
  | unicodeDecodeError (text : String)
  | valueError (text : String)
  | validationError (text : String)
  | runtimeError (text : String)
  | agentTurnLimitExceeded (limitSeconds : Int)
  | unboundLocalError (text : String)
  | exception (text : String)
  | cancelledError
deriving DecidableEq

namespace Raised

def isException : Raised → Bool
  | .cancelledError => false
  | _ => true

def isOSError : Raised → Bool
  | .osError _ => true
  | .timeoutError _ => true
  | .processLookupError _ => true
  | _ => false

def isRuntimeError : Raised → Bool
  | .runtimeError _ => true
  | .agentTurnLimitExceeded _ => true
  | _ => false

def str : Raised → String
  | .osError text => text
  | .timeoutError text => text
  | .processLookupError text => text
  | .unicodeDecodeError text => text
  | .valueError text => text
  | .validationError text => text
  | .runtimeError text => text
  | .agentTurnLimitExceeded limitSeconds => s!"Agent process exceeded its {limitSeconds}s turn limit"
  | .unboundLocalError text => text
  | .exception text => text
  | .cancelledError => ""

end Raised

inductive WorkerStopReason where
  | agentLimitExceeded | turnDeadlineExceeded | agentRefused

structure Metadata where
  workerReport : Option String
  agentStdoutTail : Option String
  inputTokens : Value
  outputTokens : Value
  totalTokens : Value
  costUsd : Value
  transcriptPath : Option String
  transcriptTruncated : Option Bool

def Metadata.empty : Metadata := ⟨none, none, .none, .none, .none, .none, none, none⟩

inductive Outcome where
  | completed (commitSha content : String)
  | failed (error : String) (stopReason : Option WorkerStopReason) (agentLimitSeconds : Option Int)
  | blocked (blockReason : String)

structure WorkerResult where
  outcome : Outcome
  metadata : Metadata

structure ResultRequest where
  success : Bool
  commit : Option String
  summary : Option String
  reason : Option String

def given : Option String → Bool
  | none => false
  | some text => text != ""

def notBlank : Option String → Bool
  | none => true
  | some text => !(strip text.toList).isEmpty

def ResultRequest.isValid (request : ResultRequest) : Bool :=
  notBlank request.commit && notBlank request.summary && notBlank request.reason &&
    if request.success then given request.commit && given request.summary else given request.reason

def toWorkerResult (request : ResultRequest) : WorkerResult :=
  if request.success then ⟨.completed (request.commit.getD "") (request.summary.getD ""), .empty⟩
  else ⟨.blocked (request.reason.getD ""), .empty⟩

/-- What reading `REPORT.md` as text gives: its text, or what is wrong with its bytes. -/
abbrev ReportFile := Except String String

/-- What someone else does to `REPORT.md`. -/
inductive ReportChange where
  | kept
  | removed
  | written (file : ReportFile)

def ReportChange.apply : ReportChange → Option ReportFile → Option ReportFile
  | .kept, file => file
  | .removed, _ => none
  | .written file, _ => some file

structure Config where
  agentType : AgentType
  isQaExecutor : Bool
  subprocessTimeoutSeconds : Int

/-- The libraries: the objects that `json.loads` finds in an agent's output, taken whole and
line by line; the number a field of a result model accepts a value as, and the text of what it
raises for values it does not; the texts of values and lists. -/
structure Runtime where
  jsonObjects : String → Except Raised (List Mapping)
  acceptInt : Value → Option Int
  acceptFloat : Value → Option Float64
  rejection : Mapping → String
  render : Value → String
  reprList : List String → String

/-- One wrapper over its turns. `reportFile` is the workspace's; `accepted` and `submitted` keep
what its report server took and what it submitted for which lease. -/
structure WorkerWrapper where
  resultEvent : Bool
  bufferedResult : Option WorkerResult
  agentStdoutTail : Option String
  effortMetrics : Mapping
  transcriptPath : Option String
  transcriptTruncated : Option Bool
  stopReason : Option WorkerStopReason
  agentLimitSeconds : Option Int
  reportFile : Option ReportFile
  accepted : List WorkerResult
  submitted : List (String × WorkerResult)

def WorkerWrapper.start (reportFile : Option ReportFile) : WorkerWrapper where
  resultEvent := false
  bufferedResult := none
  agentStdoutTail := none
  effortMetrics := []
  transcriptPath := none
  transcriptTruncated := none
  stopReason := none
  agentLimitSeconds := none
  reportFile := reportFile
  accepted := []
  submitted := []

def handleResult (w : WorkerWrapper) (request : ResultRequest) : WorkerWrapper :=
  if w.resultEvent then w
  else if !request.isValid then w
  else { w with
    bufferedResult := some (toWorkerResult request)
    resultEvent := true
    accepted := w.accepted ++ [toWorkerResult request] }

abbrev Step := Awaited ResultRequest Raised

abbrev Turning := Act WorkerWrapper Raised

def awaiting {A : Type} (x : Step A) : Turning A := Act.await handleResult x

structure Streams where
  stdout : Except Raised String
  stderr : Except Raised String

/-- How the agent's execution goes. `remainder` is what its pipes still give after it was
killed; `artifact` is what saving the transcript answers. -/
structure AgentRun where
  getSession : Step (Option String)
  uuid4 : String
  setSession : Step Unit
  spawn : Step Unit
  work : ReportChange
  communicate : Step Streams
  killpg : Except Raised Unit
  wait : Step Unit
  remainder : Step Streams
  artifact : Except Raised (String × Bool)
  returncode : Int
  capturedSessionId : Except Raised (Option String)
  setCaptured : Step Unit

structure ResumeRun where
  getSession : Step (Option String)
  spawn : Step Unit
  work : ReportChange
  communicate : Step Streams
  kill : Except Raised Unit
  wait : Step Unit

structure WorkspaceView where
  isDir : Bool
  hasCopier : Bool
  hasMakefile : Bool
  hasServices : Bool
  entries : Option (List String)

structure MakefileView where
  isFile : Bool
  read : Except Raised String
  append : Except Raised Unit

/-- What archiving the task meets: `write` answers for a path and the text written there. -/
structure ArchiveView where
  isFile : Bool
  read : Except Raised String
  makedirs : Except Raised Unit
  ensureGitignoreEntry : Except Raised Unit
  write : String → String → Except Raised Unit

/-- One leased turn, with the answers of everything it calls. `pulled` is what became of
`REPORT.md` between the last turn and the agent of this one. -/
structure Turn where
  leaseId : String
  data : Mapping
  updateStatus : Except Raised Unit
  gitPull : Except Raised Unit
  pulled : ReportChange
  writeTaskMd : Except Raised Unit
  writeStoryMd : Except Raised Unit
  clearSession : Except Raised Unit
  workspace : WorkspaceView
  fixVenvPaths : Except Raised Unit
  makefile : MakefileView
  startServer : Step Unit
  agent : AgentRun
  openReport : Except Raised Unit
  removeReport : Except Raised Unit
  archive : ArchiveView
  resume : ResumeRun
  stopServer : Except Raised Unit

end Orchestrator.Wrapper
