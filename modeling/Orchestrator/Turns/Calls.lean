import Orchestrator.Turns.Waiters

/-!
Which commands each party sends at all.
-/

namespace Orchestrator.Turns

open Async Redis

def Party.makes : Party → Op → Bool
  | .register _, .writeCredential .. | .register _, .xgroupCreate .. => true
  | .unregister _, .deleteWorkerKeys _ => true
  | .lease _, .readCredential _ | .lease _, .xreadgroup .. | .lease _, .clock | .lease _, .writeTurn ..
  | .lease _, .answer .. => true
  | .submit _, .readCredential _ | .submit _, .xadd .. | .submit _, .xack .. | .submit _, .readTurn ..
  | .submit _, .deleteTurn .. => true
  | .waiter _, .service _ | .waiter _, .xgroupCreate (.output _) .. | .waiter _, .xgroupDestroy (.output _) _
  | .waiter _, .xreadgroup (.output _) .. | .waiter _, .xadd (.input _) .. | .waiter _, .xack (.output _) .. => true
  | .sweeper, .scan _ | .sweeper, .idletime .. | .sweeper, .delete _ => true
  | .outside _, .outside => true
  | _, _ => false

abbrev Makes {A : Type} (t : Party) (p : Job A) : Prop := Prog.Uses (fun op : Op => t.makes op = true) p

variable {A : Type} {t : Party}

theorem makes_exceptException {p : Job A} {handler : Exn → Job A} (hp : Makes t p) (hh : ∀ e, Makes t (handler e)) :
    Makes t (exceptException p handler) := by
  refine .handle hp fun e => ?_
  split
  · trivial
  · exact hh e

theorem worker_uses {allowed : Op → Prop} (config : BrokerConfig) (workerId : String) (token : Option String)
    (operation : Operation) (h : allowed (.readCredential workerId)) :
    Prog.Uses (I := turnsInterface) allowed (worker config workerId token operation) := by
  unfold worker
  split
  · trivial
  · refine .bind (.perform h) fun found => ?_
    split
    · trivial
    · split
      · trivial
      · split <;> trivial

theorem registerWorker_makes (config : BrokerConfig) (registration : Registration) (token : Option String) (n : Nat) :
    Makes (.register n) (registerWorker config registration token) := by
  unfold registerWorker internal
  split
  · refine .bind trivial fun _ => .bind (.perform rfl) fun _ => .handle (.perform rfl) fun e => ?_
    split <;> trivial
  · trivial

theorem unregisterWorker_makes (config : BrokerConfig) (workerId : String) (token : Option String) (n : Nat) :
    Makes (.unregister n) (unregisterWorker config workerId token) := by
  unfold unregisterWorker internal
  split
  · exact .bind trivial fun _ => .perform rfl
  · trivial

theorem activeTurn_makes (workerId : String) (lease : Nat) (data : InputData) (n : Nat) :
    Makes (.lease n) (activeTurn workerId lease data) := by
  unfold activeTurn
  split
  · split
    · trivial
    · trivial
    · split
      · trivial
      · split
        · trivial
        · exact .bind (.perform rfl) fun _ => trivial
  · trivial

theorem leaseInput_makes (config : BrokerConfig) (request : LeaseRequest) (n : Nat) :
    Makes (.lease n) (leaseInput config request) := by
  refine .bind (worker_uses _ _ _ _ rfl) fun credential => .bind (.perform rfl) fun entry => ?_
  unfold leaseEntry
  split
  · trivial
  · refine .bind ?_ fun data => .bind (activeTurn_makes ..) fun turn => .bind ?_ fun _ => .perform rfl
    · unfold decodeInput
      split <;> trivial
    · unfold recordTurn
      split
      · trivial
      · exact .perform rfl

theorem submitOutput_makes (config : BrokerConfig) (submission : Submission) (n : Nat) :
    Makes (.submit n) (submitOutput config submission) := by
  refine .bind (worker_uses _ _ _ _ rfl) fun credential => ?_
  split
  · trivial
  · refine .bind (.perform rfl) fun _ => .bind (.perform rfl) fun _ => .bind (.perform rfl) fun turn => ?_
    match turn with
    | none => trivial
    | some turn =>
      unfold releaseTurn
      dsimp only
      split
      · exact .perform rfl
      · trivial

theorem waitForResponse_makes (workerId group consumer : String) (rounds n : Nat) :
    Makes (.waiter n) (waitForResponse (.output workerId) group consumer workerId rounds) := by
  induction rounds with
  | zero => trivial
  | succ rounds ih =>
    refine .bind (makes_exceptException (.perform rfl) fun _ => trivial) fun dead => ?_
    split
    · trivial
    · refine .bind (.handle (.bind (.perform rfl) fun _ => trivial) fun e => ?_) fun entry => ?_
      · split <;> trivial
      · match entry with
        | none =>
          refine .bind (.handle (.perform rfl) fun e => ?_) fun _ => ih
          split <;> trivial
        | some none => exact ih
        | some (some (entryId, payload)) => exact .bind (.perform rfl) fun _ => trivial

theorem conclude_makes (request : WaitRequest) (heard : Heard) (n : Nat) : Makes (.waiter n) (conclude request heard) := by
  unfold conclude
  split
  · trivial
  · trivial
  · trivial
  · split
    · trivial
    · exact .bind (.perform rfl) fun _ => trivial

theorem createOutputGroup_makes (request : WaitRequest) (n : Nat) : Makes (.waiter n) (createOutputGroup request) := by
  refine .handle (.perform rfl) fun e => ?_
  split <;> trivial

theorem takeTurn_makes (request : WaitRequest) (n : Nat) : Makes (.waiter n) (takeTurn request) :=
  .bind (createOutputGroup_makes ..) fun _ => .bind (.perform rfl) fun _ => .bind (.bind (.perform rfl) fun _ => trivial)
    fun _ => .bind (waitForResponse_makes ..) fun _ => conclude_makes ..

theorem turnFailed_makes (request : WaitRequest) (n : Nat) : Makes (.waiter n) (turnFailed request) := by
  unfold turnFailed
  split
  · trivial
  · exact .bind (.perform rfl) fun _ => trivial

theorem destroyGroup_makes (request : WaitRequest) (n : Nat) : Makes (.waiter n) (destroyGroup request) :=
  makes_exceptException (.perform rfl) fun _ => trivial

theorem guardedTurn_makes (request : WaitRequest) {turn : Job SpawnResult} {n : Nat} (h : Makes (.waiter n) turn) :
    Makes (.waiter n) (guardedTurn request turn) := by
  have hguarded : Makes (.waiter n) (exceptException turn fun _ => turnFailed request) :=
    makes_exceptException h fun _ => turnFailed_makes request n
  refine .bind hguarded.attempt fun r => .bind (destroyGroup_makes ..) fun _ => ?_
  cases r <;> trivial

theorem waitForTurn_makes (request : WaitRequest) (n : Nat) : Makes (.waiter n) (waitForTurn request) := by
  unfold waitForTurn
  split
  · refine guardedTurn_makes request (.bind (.perform rfl) fun _ => .bind (.perform rfl) fun ready => ?_)
    split
    · exact takeTurn_makes ..
    · trivial
  · exact .bind (.perform rfl) fun _ => guardedTurn_makes request (takeTurn_makes ..)

theorem cleanOrphanStreams_makes (idleThreshold : Nat) : Makes .sweeper (cleanOrphanStreams idleThreshold) := by
  refine .forEach fun pattern _ => .bind (.perform rfl) fun keys => .forEach fun key _ => ?_
  refine makes_exceptException (.bind (.perform rfl) fun idle => ?_) fun _ => trivial
  split
  · exact .perform rfl
  · trivial

theorem body_makes (config : TurnsConfig) (t : Party) : Makes t (body config t) := by
  cases t with
  | register n => exact .bind (registerWorker_makes ..) fun _ => trivial
  | unregister n => exact .bind (unregisterWorker_makes ..) fun _ => trivial
  | lease n => exact .bind (leaseInput_makes ..) fun _ => trivial
  | submit n => exact .bind (submitOutput_makes ..) fun _ => trivial
  | waiter n => exact .bind (waitForTurn_makes ..) fun _ => trivial
  | sweeper => exact .bind (cleanOrphanStreams_makes _) fun _ => trivial
  | outside n => exact .bind (.perform rfl) fun _ => trivial

end Orchestrator.Turns
