import Orchestrator.Python.JsonPlaces
import Orchestrator.Python.Regex

/-!
How the final message of a QA agent is read: the wrapper, the fenced block, the
document, and the fields a verdict must have.
-/

namespace Orchestrator.QaRunner

open Json

structure UnknownResultBlocker where
  attempted : Text
  sent : Text
  received : Text

structure QAResult where
  passed : Bool
  checks : List Value
  summary : Text
  raw : Text
  blocker : Option UnknownResultBlocker

inductive Raised where
  | loads (error : LoadsError)
  | typeError

def unknownResultBlocker (attempted sent received : Text) : UnknownResultBlocker := ⟨attempted, sent, received⟩

def blocked (raw summary attempted received : Text) : QAResult :=
  ⟨false, [], summary, raw, some (unknownResultBlocker attempted (text "QA agent final message") received)⟩

def invalidQaPayload (raw reason : Text) : QAResult :=
  blocked raw (text "QA output has an invalid result shape: " ++ reason) (text "validate QA agent result") (raw.take 2000)

def isTrue : Option Value → Bool
  | some (.bool b) => b
  | _ => false

def isBool : Option Value → Bool
  | some (.bool _) => true
  | _ => false

def isNonEmptyText : Option Value → Bool
  | some (.text s) => !(strip s).isEmpty
  | _ => false

def hasFields (data : Entries) (fields : List Text) : Bool := fields.all fun field => (get? data field).isSome

def onlyFields (data : Entries) (fields : List Text) : Bool := data.all fun entry => fields.contains entry.1

def requiredFields : List Text := [text "pass", text "checks", text "summary"]

def allowedFields : List Text := requiredFields ++ [text "state_changes"]

def expectedCheckFields : List Text := [text "name", text "pass", text "detail"]

def checkProblem (index : Nat) (check : Value) : Option Text :=
  match check with
  | .object entries =>
    if !(hasFields entries expectedCheckFields && onlyFields entries expectedCheckFields) then
      some (text s!"check {index} must contain exactly name, pass, and detail fields")
    else if !isNonEmptyText (get? entries (text "name")) then some (text s!"check {index} name must be a non-empty string")
    else if !isBool (get? entries (text "pass")) then some (text s!"check {index} pass must be a boolean")
    else if !isNonEmptyText (get? entries (text "detail")) then
      some (text s!"check {index} detail must be a non-empty string")
    else none
  | _ => some (text s!"check {index} must contain exactly name, pass, and detail fields")

def checksProblem : Nat → List Value → Option Text
  | _, [] => none
  | index, check :: rest => (checkProblem index check).or (checksProblem (index + 1) rest)

/-- The reason `_validate_qa_payload` refuses the fields of a verdict for. -/
def payloadProblem (data : Entries) : Option Text :=
  if !(hasFields data requiredFields && onlyFields data allowedFields) then
    some (text "expected exactly pass, checks, and summary fields")
  else if !isBool (get? data (text "pass")) then some (text "pass must be a boolean")
  else match get? data (text "summary") with
    | some (.text _) => match get? data (text "checks") with
      | some (.list checks) => checksProblem 0 checks
      | _ => some (text "checks must be a list")
    | _ => some (text "summary must be a string")

def passOf (data : Entries) : Bool := isTrue (get? data (text "pass"))

def checksOf (data : Entries) : List Value :=
  match get? data (text "checks") with
  | some (.list checks) => checks
  | _ => []

def summaryOf (data : Entries) : Text :=
  match get? data (text "summary") with
  | some (.text summary) => summary
  | _ => []

def isResultWrapper (wrapper : Entries) : Bool :=
  match get? wrapper (text "type") with
  | some (.text kind) => kind == text "result"
  | _ => false

def unwrapped (limits : Limits) (message : Text) : Except Raised Value :=
  match loads limits message with
  | .ok (.object wrapper) =>
    if isResultWrapper wrapper then .ok ((get? wrapper (text "result")).getD (.text [])) else .ok (.text message)
  | .ok _ => .ok (.text message)
  | .error .decodeError => .ok (.text message)
  | .error e => .error (.loads e)

def fence : Text := [0x60, 0x60, 0x60]

def newline : Text := [0xa]

def fencedGroups (document : Text) : List Text := do
  let rest ← Regex.literal fence document
  let rest ← Regex.optional (Regex.literal (text "json")) rest
  let rest ← Regex.greedy isSpace rest
  let rest ← Regex.optional (Regex.literal newline) rest
  let split ← Regex.lazily rest
  let rest ← Regex.optional (Regex.literal newline) split.2
  let _ ← Regex.literal fence rest
  pure split.1

def fencedBlock (document : Text) : Option Text := Regex.search fencedGroups document

/-- Steps 1 and 2: the text that is parsed for a verdict; `re.search` takes text only. -/
def verdictText (limits : Limits) (raw : Text) : Except Raised Text := do
  match ← unwrapped limits (strip raw) with
  | .text message => pure (((fencedBlock message).map strip).getD message)
  | _ => .error .typeError

def readVerdict (limits : Limits) (raw document : Text) : Except Raised QAResult :=
  match loads limits document with
  | .error .decodeError =>
    .ok (blocked raw (text "Failed to parse QA output as JSON: " ++ raw.take 200) (text "parse QA agent result")
      (raw.take 2000))
  | .error e => .error (.loads e)
  | .ok (.object data) => match payloadProblem data with
    | some reason => .ok (invalidQaPayload raw reason)
    | none => .ok ⟨passOf data, checksOf data, summaryOf data, raw, none⟩
  | .ok _ =>
    .ok (blocked raw (text "QA output is not a result object") (text "validate QA agent result") (raw.take 2000))

def parseQaResult (limits : Limits) (raw : Text) : Except Raised QAResult :=
  if (strip raw).isEmpty then
    .ok (blocked raw (text "QA produced no output") (text "parse QA agent result") (text "empty output"))
  else do
    let document ← verdictText limits raw
    readVerdict limits raw document

end Orchestrator.QaRunner
