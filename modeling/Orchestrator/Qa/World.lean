import Orchestrator.Async.Interference
import Orchestrator.Contracts.Run
import Orchestrator.Python.Text

/-!
The key that a QA run is given on its target, the record of it on the run, and
the calls of those who write both. The records and the `authorized_keys` of the
targets are modelled; what else the services answer is left open.
-/

namespace Orchestrator.Qa

open Async Contracts

inductive QASshGrantState where
  | issuing | opened | released
deriving DecidableEq

structure QASshGrant where
  marker : String
  serverHandle : String
  serverIp : String
  sshUser : String
  qaSshUser : String
  state : QASshGrantState
  issuedAt : Time
  revokeAttempts : Nat
  detail : Option String
deriving DecidableEq

def QASshGrant.held (grant : QASshGrant) : Bool := grant.state != .released

structure QATarget where
  serverHandle : String
  serverIp : String
  sshUser : String
  qaSshUser : String
deriving DecidableEq

structure Delivery where
  runId : String
  attempt : Nat
  target : QATarget
  fleetKey : String
  publicKey : String
  expiry : String
  issuedAt : Time
deriving DecidableEq

structure KeyEntry where
  options : String
  publicKey : String
  marker : String

/-- A line of `authorized_keys`: the key of a run, or whatever else is there. -/
inductive Line where
  | key (entry : KeyEntry)
  | other (text : String)

def Line.text : Line → String
  | .key entry => entry.options ++ " " ++ entry.publicKey ++ " " ++ entry.marker
  | .other text => text

inductive Account where
  | absent
  | withoutKeys
  | keys (lines : List Line)

structure RunRow where
  id : String
  createdAt : Time
deriving DecidableEq

inductive Record where
  | grant (grant : QASshGrant)
  | unreadable (text : String)

structure Holding where
  run : RunRow
  record : Record

inductive Exn where
  | http (statusCode : Nat)
  | connection (detail : String)
  | grantError (detail : String)
  | identityAbsent (detail : String)
  | failure (detail : String)
  | cancelledError
deriving DecidableEq

def Exn.isException (e : Exn) : Bool := e != .cancelledError

def Exn.isGrantError : Exn → Bool
  | .grantError _ => true
  | .identityAbsent _ => true
  | _ => false

def Exn.text : Exn → String
  | .http statusCode => s!"HTTP {statusCode}"
  | .connection detail => detail
  | .grantError detail => detail
  | .identityAbsent detail => detail
  | .failure detail => detail
  | .cancelledError => ""

structure Admin where
  serverIp : String
  sshUser : String
  fleetKey : String

structure Completed where
  exitStatus : Nat
  count : Option Nat
  output : String

structure QABlocker where
  attempted : String
  sent : String
  received : String

structure QARunResult where
  summary : String
  blocker : QABlocker
  resource : String
  cleanupDetail : String

inductive Op where
  | newHex
  | patchGrant (runId : String) (grant : QASshGrant)
  | installGrant (admin : Admin) (qaSshUser : String) (entry : KeyEntry)
  | revokeGrant (admin : Admin) (qaSshUser marker : String)
  | connect (serverIp qaSshUser : String)
  | useSession
  | listHolding (limit : Nat) (after : Option RunRow)
  | getServerSshKey (serverHandle : String)
  | patchOutcome (runId : String) (result : QARunResult)

def Op.Res : Op → Type
  | .newHex => String
  | .installGrant .. => Completed
  | .revokeGrant .. => Completed
  | .listHolding .. => List Holding
  | .getServerSshKey _ => Option String
  | _ => Unit

abbrev qaInterface : Interface := ⟨Op, Op.Res, Exn⟩

abbrev Job (A : Type) := Prog qaInterface A

abbrev perform (op : Op) : Job (Op.Res op) := Prog.perform (I := qaInterface) op

structure Script where
  fate : Fate Exn
  brokenOff : Option (Nat × String)

def Op.Answer : Op → Type
  | .newHex => String
  | .patchGrant .. => Fate Exn
  | .installGrant .. => Script
  | .revokeGrant .. => Script
  | .listHolding .. => Fate Exn
  | .connect .. => Except Exn Unit
  | .useSession => Except Exn Unit
  | .getServerSshKey _ => Except Exn (Option String)
  | .patchOutcome .. => Except Exn Unit

inductive Party where
  | qa (delivery : Delivery)
  | sweep (worker pages : Nat)
deriving DecidableEq

inductive Event where
  | minted (party : Party) (marker : String)
  | wrote (runId : String) (grant : QASshGrant)
  | installed (marker : String)
  | readGone (party : Party) (serverIp qaSshUser marker : String)
deriving DecidableEq

structure State where
  runs : List RunRow
  records : String → Option Record
  accounts : String → String → Account
  trace : List Event

def markerOf (hex : String) : String := "codegen-qa-run-" ++ hex

namespace Account

def present (marker : String) : Account → Bool
  | .keys lines => lines.any fun line => match line with
    | .key entry => entry.marker == marker
    | .other _ => false
  | _ => false

def install (entry : KeyEntry) : Account → Completed × Account
  | .absent => (⟨3, none, "no such account"⟩, .absent)
  | .withoutKeys => (⟨4, none, "no authorized_keys"⟩, .withoutKeys)
  | .keys lines => (⟨0, none, ""⟩, .keys (lines ++ [.key entry]))

/-- `_REVOKE_GRANT`; a filter that kept nothing does not replace the file. -/
def revoke (marker : String) : Account → Completed × Account
  | .keys lines =>
    let kept := lines.filter fun line => !Python.contains line.text marker
    let left := if kept = [] then lines else kept
    let count := (left.filter fun line => Python.contains line.text marker).length
    (⟨0, some count, toString count⟩, .keys left)
  | account => (⟨0, some 0, "0"⟩, account)

end Account

namespace State

def record (s : State) (event : Event) : State := { s with trace := event :: s.trace }

def grantOf (s : State) (runId : String) : Option QASshGrant :=
  match s.records runId with
  | some (.grant grant) => some grant
  | _ => none

def present (s : State) (serverIp qaSshUser marker : String) : Bool := (s.accounts serverIp qaSshUser).present marker

def patchGrant (s : State) (runId : String) (grant : QASshGrant) : Except Exn Unit × State :=
  if s.runs.any fun run => run.id == runId then
    (.ok (), { s with
      records := Function.update s.records runId (some (.grant grant))
      trace := .wrote runId grant :: s.trace })
  else (.error (.http 404), s)

def setAccount (s : State) (serverIp qaSshUser : String) (account : Account) : State :=
  { s with accounts := Function.update s.accounts serverIp (Function.update (s.accounts serverIp) qaSshUser account) }

def installGrant (s : State) (admin : Admin) (qaSshUser : String) (entry : KeyEntry) (brokenOff : Option (Nat × String)) :
    Except Exn Completed × State :=
  match brokenOff with
  | some (status, output) => (.ok ⟨status + 1, none, output⟩, s)
  | none =>
    let (completed, account) := (s.accounts admin.serverIp qaSshUser).install entry
    let left := s.setAccount admin.serverIp qaSshUser account
    (.ok completed, if completed.exitStatus = 0 then left.record (.installed entry.marker) else left)

def revokeGrant (s : State) (party : Party) (admin : Admin) (qaSshUser marker : String)
    (brokenOff : Option (Nat × String)) : Except Exn Completed × State :=
  match brokenOff with
  | some (status, output) => (.ok ⟨status + 1, none, output⟩, s)
  | none =>
    let (completed, account) := (s.accounts admin.serverIp qaSshUser).revoke marker
    let left := s.setAccount admin.serverIp qaSshUser account
    (.ok completed, if completed.count = some 0 then left.record (.readGone party admin.serverIp qaSshUser marker) else left)

def holding (s : State) (run : RunRow) : Option Holding :=
  match s.records run.id with
  | none => none
  | some (.unreadable text) => some ⟨run, .unreadable text⟩
  | some (.grant grant) => if grant.held then some ⟨run, .grant grant⟩ else none

def selected (s : State) : List Holding := s.runs.filterMap s.holding

def before (run other : RunRow) : Bool :=
  decide (run.createdAt < other.createdAt) || run.createdAt == other.createdAt && decide (run.id < other.id)

def listHolding (s : State) (limit : Nat) (after : Option RunRow) : List Holding :=
  ((s.selected.filter fun holding => after.all fun cursor => before cursor holding.run).mergeSort
    fun holding other => !before other.run holding.run).take limit

end State

def run (party : Party) : (op : Op) → op.Answer → State → Except Exn op.Res × State
  | .newHex, hex, s => (.ok hex, s.record (.minted party (markerOf hex)))
  | .patchGrant runId grant, fate, s => fate.serve (fun s => s.patchGrant runId grant) s
  | .installGrant admin qaSshUser entry, script, s =>
      script.fate.serve (fun s => s.installGrant admin qaSshUser entry script.brokenOff) s
  | .revokeGrant admin qaSshUser marker, script, s =>
      script.fate.serve (fun s => s.revokeGrant party admin qaSshUser marker script.brokenOff) s
  | .listHolding limit after, fate, s => fate.serve (fun s => (.ok (s.listHolding limit after), s)) s
  | .connect .., answer, s => (answer, s)
  | .useSession, answer, s => (answer, s)
  | .getServerSshKey _, answer, s => (answer, s)
  | .patchOutcome .., answer, s => (answer, s)

abbrev qaWorld : World qaInterface Party Unit where
  State := State
  Answer := Op.Answer
  run := run
  ended _ _ s := s

end Orchestrator.Qa
