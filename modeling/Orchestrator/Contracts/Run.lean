import Mathlib.Logic.Function.Basic

namespace Orchestrator.Contracts

inductive TextOf {E : Type} (value : E → String) where
  | member (e : E)
  | other (text : {t : String // ∀ e, value e ≠ t})
deriving DecidableEq

def TextOf.text {E : Type} {value : E → String} : TextOf value → String
  | .member e => value e
  | .other text => text.val

inductive RunStatus where
  | queued | running | completed | failed | cancelled
deriving DecidableEq, Repr

def RunStatus.value : RunStatus → String
  | .queued => "queued"
  | .running => "running"
  | .completed => "completed"
  | .failed => "failed"
  | .cancelled => "cancelled"

def terminalRunStatuses : List RunStatus := [.completed, .failed, .cancelled]

def RunStatus.terminal (status : RunStatus) : Bool := terminalRunStatuses.contains status

inductive RunType where
  | engineering | deploy | qa
deriving DecidableEq, Repr

def RunType.value : RunType → String
  | .engineering => "engineering"
  | .deploy => "deploy"
  | .qa => "qa"

abbrev StatusColumn := TextOf RunStatus.value

abbrev TypeColumn := TextOf RunType.value

def TextOf.terminal : StatusColumn → Bool
  | .member status => status.terminal
  | .other _ => false

abbrev Time := Nat

def dispatchClaimedAtKey : String := "dispatch_claimed_at"

def dispatchLeaseExpiresAtKey : String := "dispatch_lease_expires_at"

def dispatchSupersededAtKey : String := "dispatch_superseded_at"

-- in seconds
def dispatchLease : Time := 5 * 60

inductive DispatchWithdrawal where
  | withdrawn | alreadyDispatched | alreadyTerminal
deriving DecidableEq, Repr

inductive DispatchSupersede where
  | superseded | alreadySettled | notClaimed | leaseLive
deriving DecidableEq, Repr

def DispatchSupersede.settled (outcome : DispatchSupersede) : Bool := outcome != .leaseLive

end Orchestrator.Contracts
