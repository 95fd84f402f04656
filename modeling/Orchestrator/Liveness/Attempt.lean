import Orchestrator.Liveness.Records

/-!
The state of one attempt, from several stores of which each may fail.
-/

namespace Orchestrator.Liveness

open Python Contracts
open Placement (Datetime)
open Projects (updateKeys)

structure Run where
  id : String
  taskId : String
  status : RunStatus
  gaveUp : Bool
  createdAt : Int
  runMetadata : Mapping

structure Patch where
  runId : String
  status : Option RunStatus
  runMetadata : Mapping
  keeps_retry : runMetadata.lookup "worker_stop_next_retry_at" = none

inductive Change where
  | created (run : Run)
  | patched (patch : Patch)

abbrev Reply (A : Type) := Awaited Change Raised A

structure Redis where
  hget : String → String → Reply (Option RedisValue)
  hgetall : String → Reply (List (RedisValue × RedisValue))

inductive WorkerAttemptState where
  | running | idle | dead | timedOut | removed | unknown
deriving DecidableEq

def WorkerAttemptState.value : WorkerAttemptState → String
  | .running => "running"
  | .idle => "idle"
  | .dead => "dead"
  | .timedOut => "timed_out"
  | .removed => "removed"
  | .unknown => "unknown"

section Reading

variable {A B : Type}

def tryOr (x : Reply A) (handler : Except Raised B) (next : A → Reply B) : Reply B :=
  match x.ends with
  | .ok a => ⟨x.heard ++ (next a).heard, (next a).ends⟩
  | .error .cancelledError => ⟨x.heard, .error .cancelledError⟩
  | .error (.exception _) => ⟨x.heard, handler⟩

theorem tryOr_ok {x : Reply A} {handler : Except Raised B} {next : A → Reply B} {b : B} (h : (tryOr x handler next).ends = .ok b) :
    (∃ a, x.ends = .ok a ∧ (next a).ends = .ok b) ∨ handler = .ok b := by
  unfold tryOr at h
  cases hx : x.ends with
  | ok a =>
    rw [hx] at h
    exact Or.inl ⟨a, rfl, h⟩
  | error e =>
    rw [hx] at h
    cases e with
    | exception type => exact Or.inr h
    | cancelledError => cases h

end Reading

variable (lib : Library)

def turnBackstopExpired (metadata : AttemptTurnMetadata) (now : Int) : Except Raised Bool :=
  match metadata.activeTurnRequestedAt, metadata.activeTurnBackstopSeconds with
  | some requestedAt, some seconds => do
    let backstop ← later requestedAt seconds
    let early ← isBefore now backstop
    return !early
  | _, _ => .ok false

def unknownOrTimedOut (metadata : AttemptTurnMetadata) (now : Int) : Except Raised WorkerAttemptState := do
  let expired ← turnBackstopExpired metadata now
  return if expired then .timedOut else .unknown

def removedWorkerEvidenceKey (runId : String) : String := "worker:evidence:removed:" ++ runId

def workerStatusKey (workerId : String) : String := "worker:status:" ++ workerId

def activeTurnKey (workerId : String) : String := "worker:active-turn:" ++ workerId

def removalRecorded (redis : Redis) (runId : String) (initiatingRunId : Option String) (workerId : String) : Reply Bool :=
  match initiatingRunId with
  | none => pure false
  | some initiatingRunId => do
    let raw ← redis.hget (removedWorkerEvidenceKey initiatingRunId) workerId
    match raw with
    | none => pure false
    | some raw =>
      if raw.truthy then do
        let text ← Awaited.ofExcept (decodeRedisValue raw)
        let evidence ← Awaited.ofExcept (RemovedWorkerEvidence.validateJson lib text)
        return evidence.ownership.attemptId == runId
      else pure false

def readStatus (redis : Redis) (workerId : String) : Reply (Option String) := do
  let raw ← redis.hget (workerStatusKey workerId) "status"
  match raw with
  | none => pure none
  | some raw => do
    let status ← Awaited.ofExcept (decodeRedisValue raw)
    return some status

def readTurn (redis : Redis) (workerId : String) : Reply (Option WorkerActiveTurn) := do
  let fields ← redis.hgetall (activeTurnKey workerId)
  let decoded ← Awaited.ofExcept (decodeRedisFields fields [])
  Awaited.ofExcept (WorkerActiveTurn.fromRedisFields lib decoded)

def turnState (metadata : AttemptTurnMetadata) (runId : String) (now : Int) :
    Option WorkerActiveTurn → Except Raised WorkerAttemptState
  | some active =>
    if active.attemptId = runId ∧ some active.requestId = metadata.activeTurnRequestId then do
      let early ← isBefore now active.deadlineAt
      return if early then .running else .timedOut
    else idleOrTimedOut metadata now
  | none => idleOrTimedOut metadata now
where
  idleOrTimedOut (metadata : AttemptTurnMetadata) (now : Int) : Except Raised WorkerAttemptState := do
    let expired ← turnBackstopExpired metadata now
    if expired then unknownOrTimedOut metadata now else return .idle

def statusState (redis : Redis) (metadata : AttemptTurnMetadata) (runId workerId : String) (now : Int) : Reply WorkerAttemptState :=
  tryOr (readStatus redis workerId) (unknownOrTimedOut metadata now) fun status => match status with
    | none => Awaited.ofExcept (unknownOrTimedOut metadata now)
    | some status => match WorkerStatus.ofValue status with
      | none => Awaited.ofExcept (unknownOrTimedOut metadata now)
      | some status =>
        if workerTerminalStatuses.contains status then pure .dead
        else tryOr (readTurn lib redis workerId) (unknownOrTimedOut metadata now) fun active =>
          Awaited.ofExcept (turnState metadata runId now active)

def workerState (redis : Redis) (metadata : AttemptTurnMetadata) (runId workerId : String) (now : Int) : Reply WorkerAttemptState :=
  tryOr (removalRecorded lib redis runId metadata.initiatingRunId workerId) (unknownOrTimedOut metadata now) fun removed =>
    if removed then pure .removed else statusState lib redis metadata runId workerId now

def attemptState (redis : Redis) (run : Run) (now : Int) : Reply (WorkerAttemptState × Option String) :=
  match AttemptTurnMetadata.fromRunMetadata lib run.runMetadata with
  | none => pure (.unknown, none)
  | some metadata => match metadata.workerId with
    | none => Awaited.ofExcept ((unknownOrTimedOut metadata now).map fun state => (state, none))
    | some workerId => do
      let state ← workerState lib redis metadata run.id workerId now
      return (state, some workerId)

section Verdicts

variable {lib : Library} {redis : Redis} {run : Run} {metadata : AttemptTurnMetadata} {now : Int} {state : WorkerAttemptState}
  {runId workerId : String}

def Open (state : WorkerAttemptState) : Prop := state ≠ .removed ∧ state ≠ .dead

theorem unknownOrTimedOut_open (h : unknownOrTimedOut metadata now = .ok state) : Open state := by
  unfold unknownOrTimedOut at h
  obtain ⟨expired, -, h⟩ := Projects.bind_eq_ok.mp h
  obtain rfl := Except.ok.inj h
  cases expired <;> simp [Open]

theorem idleOrTimedOut_open (h : turnState.idleOrTimedOut metadata now = .ok state) : Open state := by
  unfold turnState.idleOrTimedOut at h
  obtain ⟨expired, -, h⟩ := Projects.bind_eq_ok.mp h
  cases expired with
  | true => exact unknownOrTimedOut_open h
  | false =>
    obtain rfl := Except.ok.inj h
    simp [Open]

theorem turnState_open {active : Option WorkerActiveTurn} (h : turnState metadata runId now active = .ok state) : Open state := by
  cases active with
  | none => exact idleOrTimedOut_open h
  | some active =>
    simp only [turnState] at h
    split at h
    · obtain ⟨early, -, h⟩ := Projects.bind_eq_ok.mp h
      obtain rfl := Except.ok.inj h
      cases early <;> simp [Open]
    · exact idleOrTimedOut_open h

theorem awaited_ok {A B : Type} {x : Reply A} {f : A → Reply B} {b : B} (h : (x >>= f).ends = .ok b) :
    ∃ a, x.ends = .ok a ∧ (f a).ends = .ok b := by
  cases hx : x.ends with
  | ok a =>
    rw [Awaited.bind_ok hx] at h
    exact ⟨a, rfl, h⟩
  | error e =>
    rw [Awaited.bind_error hx] at h
    cases h

def RemovalRead (lib : Library) (redis : Redis) (metadata : AttemptTurnMetadata) (runId workerId : String) : Prop :=
  ∃ initiatingRunId raw text evidence, metadata.initiatingRunId = some initiatingRunId ∧
    (redis.hget (removedWorkerEvidenceKey initiatingRunId) workerId).ends = .ok (some raw) ∧
    decodeRedisValue raw = .ok text ∧ RemovedWorkerEvidence.validateJson lib text = .ok evidence ∧
    evidence.ownership.attemptId = runId

def DeathRead (redis : Redis) (workerId : String) : Prop :=
  ∃ raw status, (redis.hget (workerStatusKey workerId) "status").ends = .ok (some raw) ∧
    decodeRedisValue raw = .ok (WorkerStatus.value status) ∧ status ∈ workerTerminalStatuses

theorem removalRecorded_read (h : (removalRecorded lib redis runId metadata.initiatingRunId workerId).ends = .ok true) :
    RemovalRead lib redis metadata runId workerId := by
  cases hinitiating : metadata.initiatingRunId with
  | none =>
    rw [hinitiating] at h
    cases h
  | some initiating =>
    rw [hinitiating] at h
    obtain ⟨raw, hraw, h⟩ := awaited_ok h
    cases raw with
    | none => cases h
    | some raw =>
      simp only at h
      split at h
      · obtain ⟨text, htext, h⟩ := awaited_ok h
        obtain ⟨evidence, hevidence, h⟩ := awaited_ok h
        have hsame : (evidence.ownership.attemptId == runId) = true := Except.ok.inj h
        exact ⟨initiating, raw, text, evidence, hinitiating, hraw, htext, hevidence, by simpa using hsame⟩
      · cases h

theorem ofValue_value {value : String} {status : WorkerStatus} (h : WorkerStatus.ofValue value = some status) :
    value = status.value := by
  have hfound := List.find?_some h
  exact (eq_of_beq hfound).symm

theorem readStatus_ok {status : String} (h : (readStatus redis workerId).ends = .ok (some status)) :
    ∃ raw, (redis.hget (workerStatusKey workerId) "status").ends = .ok (some raw) ∧ decodeRedisValue raw = .ok status := by
  obtain ⟨raw, hraw, h⟩ := awaited_ok h
  cases raw with
  | none => cases h
  | some raw =>
    obtain ⟨decoded, hdecoded, h⟩ := awaited_ok h
    obtain rfl := Option.some.inj (Except.ok.inj h)
    exact ⟨raw, hraw, hdecoded⟩

theorem statusState_read (h : (statusState lib redis metadata runId workerId now).ends = .ok state) :
    Open state ∨ (state = .dead ∧ DeathRead redis workerId) := by
  rcases tryOr_ok h with ⟨status, hstatus, h⟩ | h
  swap
  · exact Or.inl (unknownOrTimedOut_open h)
  cases status with
  | none => exact Or.inl (unknownOrTimedOut_open h)
  | some value =>
    cases hvalue : WorkerStatus.ofValue value with
    | none =>
      simp only [hvalue] at h
      exact Or.inl (unknownOrTimedOut_open h)
    | some status =>
      simp only [hvalue] at h
      split at h
      · rename_i hterminal
        obtain ⟨raw, hraw, hdecoded⟩ := readStatus_ok hstatus
        obtain rfl := Except.ok.inj h
        refine Or.inr ⟨rfl, raw, status, hraw, ?_, by simpa using hterminal⟩
        rw [hdecoded, ofValue_value hvalue]
      · rcases tryOr_ok h with ⟨active, -, h⟩ | h
        · exact Or.inl (turnState_open h)
        · exact Or.inl (unknownOrTimedOut_open h)

theorem workerState_read (h : (workerState lib redis metadata runId workerId now).ends = .ok state) :
    Open state ∨ (state = .removed ∧ RemovalRead lib redis metadata runId workerId) ∨ (state = .dead ∧ DeathRead redis workerId) := by
  rcases tryOr_ok h with ⟨removed, hremoved, h⟩ | h
  swap
  · exact Or.inl (unknownOrTimedOut_open h)
  cases removed with
  | true =>
    obtain rfl := Except.ok.inj h
    exact Or.inr (Or.inl ⟨rfl, removalRecorded_read hremoved⟩)
  | false =>
    rcases statusState_read h with hopen | hdead
    · exact Or.inl hopen
    · exact Or.inr (Or.inr hdead)

theorem attemptState_read {worker : Option String} (h : (attemptState lib redis run now).ends = .ok (state, worker))
    (hends : state = .removed ∨ state = .dead) : ∃ metadata workerId,
    AttemptTurnMetadata.fromRunMetadata lib run.runMetadata = some metadata ∧ metadata.workerId = some workerId ∧
      worker = some workerId ∧ (state = .removed → RemovalRead lib redis metadata run.id workerId) ∧
        (state = .dead → DeathRead redis workerId) := by
  have hclosed : ¬ Open state := by
    rintro ⟨hremoved, hdead⟩
    rcases hends with h | h
    · exact hremoved h
    · exact hdead h
  unfold attemptState at h
  cases hmetadata : AttemptTurnMetadata.fromRunMetadata lib run.runMetadata with
  | none =>
    rw [hmetadata] at h
    obtain ⟨rfl, -⟩ := Prod.mk.inj (Except.ok.inj h)
    simp [Open] at hclosed
  | some metadata =>
    simp only [hmetadata] at h
    cases hworker : metadata.workerId with
    | none =>
      simp only [hworker, Awaited.ends_ofExcept] at h
      obtain ⟨state', hstate, h⟩ := Projects.map_eq_ok.mp h
      obtain ⟨rfl, -⟩ := Prod.mk.inj h
      exact absurd (unknownOrTimedOut_open hstate) hclosed
    | some workerId =>
      simp only [hworker] at h
      obtain ⟨state', hstate, h⟩ := awaited_ok h
      obtain ⟨rfl, rfl⟩ := Prod.mk.inj (Except.ok.inj h)
      refine ⟨metadata, workerId, rfl, hworker, rfl, ?_⟩
      rcases workerState_read hstate with hopen | ⟨rfl, hread⟩ | ⟨rfl, hread⟩
      · exact absurd hopen hclosed
      · exact ⟨fun _ => hread, nofun⟩
      · exact ⟨nofun, fun _ => hread⟩

end Verdicts

end Orchestrator.Liveness
