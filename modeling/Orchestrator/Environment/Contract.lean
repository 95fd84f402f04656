import Orchestrator.Python.Value

/-!
The environment contract of a repository: the variables its services read, and for each where its
value comes from.
-/

namespace Orchestrator.Environment

open Python

/-- A float as the object it is: the sign of a zero and which NaN it is are no part of its number. -/
inductive FloatObject where
  | finite (x : ℚ)
  | negativeZero
  | infinite (negative : Bool)
  | nan (object : Nat)
deriving DecidableEq

def FloatObject.number : FloatObject → Float64
  | finite x => .finite x
  | negativeZero => .finite 0
  | infinite negative => .infinite negative
  | nan _ => .nan

inductive EnvLiteralValue where
  | text (s : String)
  | int (n : Int)
  | float (x : FloatObject)
  | bool (b : Bool)
deriving DecidableEq

structure AllocationSelector where
  service : Option String
  resource : Option String
  given : (service.or resource).isSome = true

def AllocationSelector.name (selector : AllocationSelector) : String := (selector.service.or selector.resource).get selector.given

inductive EnvSource where
  | userSecret (description : String)
  | generatedSecret
  | allocation (selector : AllocationSelector) (sensitive : Bool)
  | derived
  | literal (value : EnvLiteralValue)

structure EnvContractEntry where
  source : EnvSource
  environments : List String
  required : Bool

def EnvContractEntry.sensitive (entry : EnvContractEntry) : Bool :=
  match entry.source with
  | .userSecret _ | .generatedSecret => true
  | .allocation _ sensitive => sensitive
  | .derived | .literal _ => false

def EnvContractEntry.isLiteral (entry : EnvContractEntry) : Bool :=
  match entry.source with
  | .literal _ => true
  | _ => false

def EnvContractEntry.inProduction (entry : EnvContractEntry) : Bool := entry.environments.contains "production"

structure CanonicalEnvContract where
  entries : List (String × EnvContractEntry)
  nodup : (entries.map (·.1)).Nodup

def CanonicalEnvContract.declares (contract : CanonicalEnvContract) (key : String) : Bool := (contract.entries.lookup key).isSome

end Orchestrator.Environment
