import Orchestrator.Contracts.Run

namespace Orchestrator.Contracts

inductive DeployAction where
  | create | feature | fix | stop | undeploy
deriving DecidableEq, Repr

def lifecycleActions : List DeployAction := [.stop, .undeploy]

inductive DeployOutcome where
  | success | smokeFailure | codeFix | retry | giveUp | waitingForUserSecret | allocationMissing
  | environmentContractInvalid | environmentResolutionFailed | headShaMissing | waitingInfrastructure
  | cancelled
deriving DecidableEq, Repr

inductive AllocationFailureReason where
  | insufficientFreeMemory | insufficientReservedMemory | impossibleCapacity | noFreshMetrics
  | serverNotProvisioned
deriving DecidableEq, Repr

inductive AttemptDisposition where
  | none | productFailure | infrastructureWait | operatorReview | technicalFailure
deriving DecidableEq, Repr

def allocationDispositions : AllocationFailureReason → AttemptDisposition
  | .insufficientFreeMemory => .infrastructureWait
  | .insufficientReservedMemory => .infrastructureWait
  | .serverNotProvisioned => .infrastructureWait
  | .impossibleCapacity => .operatorReview
  | .noFreshMetrics => .technicalFailure

def attemptDisposition (allocationFailure : Option AllocationFailureReason) (productFailure : Bool) :
    AttemptDisposition :=
  match allocationFailure with
  | some reason => allocationDispositions reason
  | .none => if productFailure then .productFailure else .none

inductive PlacementPath where
  | engineering | deploy
deriving DecidableEq, Repr

inductive RefusalRouting where
  | parkWaitingResources | waitForAdmissibleTarget | humanReviewWithOwnerNotice | humanReviewPlatformAlert
  | callerFailureRouting | noRefusal
deriving DecidableEq, Repr

def refusalRouting : PlacementPath → AttemptDisposition → RefusalRouting
  | .engineering, .infrastructureWait => .parkWaitingResources
  | .deploy, .infrastructureWait => .waitForAdmissibleTarget
  | _, .operatorReview => .humanReviewWithOwnerNotice
  | _, .technicalFailure => .humanReviewPlatformAlert
  | _, .productFailure => .callerFailureRouting
  | _, .none => .noRefusal

structure MissingUserSecret where
  key : String
  description : String
deriving DecidableEq

structure DeployMessage where
  taskId : String
  projectId : String
  storyId : String
  callbackStream : Option String
  action : DeployAction
  deployFixAttempt : Nat
  headSha : String
  applicationId : Option Nat
  envOverrides : List (String × String)
  fenceActiveDeploys : Bool
deriving DecidableEq

structure DeployRunResult where
  deployOutcome : DeployOutcome
  deployedUrl : Option String
  applicationId : Option Nat
  testIdentitySlot : Bool
  deployFixAttempt : Nat
  errorDetails : Option String
  missingUserSecrets : List MissingUserSecret
  action : Option DeployAction
  allocationFailureReason : Option AllocationFailureReason
  allocationRequiredRamMb : Option Nat
  allocationMinDiskMb : Option Nat
deriving DecidableEq

def DeployRunResult.of (outcome : DeployOutcome) : DeployRunResult where
  deployOutcome := outcome
  deployedUrl := none
  applicationId := none
  testIdentitySlot := false
  deployFixAttempt := 0
  errorDetails := none
  missingUserSecrets := []
  action := none
  allocationFailureReason := none
  allocationRequiredRamMb := none
  allocationMinDiskMb := none

end Orchestrator.Contracts
