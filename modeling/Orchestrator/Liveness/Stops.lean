import Orchestrator.Liveness.Attempt
import Orchestrator.Keyed

/-!
The supervisor's ticks over the attempts that are stuck, and the stops that they send.
-/

namespace Orchestrator.Liveness

open Python Contracts
open Placement (Datetime)
open Projects (updateKeys)

structure DeleteWorkerCommand where
  requestId : String
  workerId : String
  reason : String

structure Stop where
  runId : String
  command : DeleteWorkerCommand
  sentAt : Int
  retryAt : Int

structure State where
  runs : List Run
  stops : List Stop

def Run.patched (run : Run) (status : Option RunStatus) (runMetadata : Mapping) : Run :=
  { run with status := status.getD run.status, runMetadata := updateKeys run.runMetadata runMetadata }

def State.patch (runId : String) (status : Option RunStatus) (runMetadata : Mapping) (s : State) : State :=
  { s with runs := s.runs.map fun run => if run.id = runId then run.patched status runMetadata else run }

def State.stopped (stop : Stop) (s : State) : State := { s with stops := stop :: s.stops }

def hear (s : State) : Change → State
  | .created run => if s.runs.any (·.id = run.id) then s else { s with runs := run :: s.runs }
  | .patched patch => s.patch patch.runId patch.status patch.runMetadata

/-- A request that changes something: what is heard before it is carried out, whether it is,
and how it ends. Nobody is told that it was carried out where it was not. -/
structure Request where
  heard : List Change
  carriedOut : Bool
  ends : Except Raised Unit
  answered : ends = .ok () → carriedOut = true

abbrev Step (A : Type) := Act State Raised A

def send (request : Request) (effect : State → State) : Step Unit := fun s =>
  (request.ends, if request.carriedOut then effect (request.heard.foldl hear s) else request.heard.foldl hear s)

structure Answers where
  listRuns : Reply Unit
  listTerminal : Reply Unit
  redis : Redis
  transition : TaskStatus → Reply Unit
  failRun : Request
  updateRun : Request
  publish : Request

variable (lib : Library)

def mustWait (metadata : AttemptTurnMetadata) (now : Int) : Except Raised Bool :=
  match metadata.workerStopNextRetryAt with
  | some retryAt => isBefore now retryAt
  | none => .ok false

def retrySeconds (attempts : Int) : Int := min (30 * 2 ^ (min (attempts - 1) 4).toNat) 300

def stopPatch (metadata : AttemptTurnMetadata) (state : WorkerAttemptState) (attempts : Int) (now : Int) (retryAt : Datetime) :
    AttemptTurnMetadata :=
  { AttemptTurnMetadata.empty with
    workerStopRequestedAt := some (metadata.workerStopRequestedAt.getD (utc now))
    workerStopAttempts := some attempts
    workerStopNextRetryAt := some retryAt
    stopReason := some "turn_deadline_exceeded"
    workerState := some state.value }

def sendStop (answers : Answers) (taskId runId : String) (attempts : Int) (now : Int) (retryAt : Datetime) : Option String → Step Unit
  | none => pure ()
  | some workerId => send answers.publish (State.stopped
      ⟨runId, ⟨s!"stuck-{taskId}-{attempts}", workerId, "timeout"⟩, now, retryAt.instant⟩)

def requestStuckAttemptStop (answers : Answers) (taskId : String) (run : Run) (state : WorkerAttemptState)
    (workerId : Option String) (now : Int) : Step Bool :=
  match AttemptTurnMetadata.fromRunMetadata lib run.runMetadata with
  | none => .raise (.exception "ValidationError")
  | some metadata => do
    let wait ← Act.ofExcept (mustWait metadata now)
    if wait then return false
    else do
      let attempts := metadata.workerStopAttempts.getD 0 + 1
      let retryAt ← Act.ofExcept (later (utc now) (retrySeconds attempts))
      send answers.updateRun (State.patch run.id none ((stopPatch metadata state attempts now retryAt).asRunMetadata lib))
      sendStop answers taskId run.id attempts now retryAt workerId
      return true

def liveEngineeringStatuses : List RunStatus := [.queued, .running]

def Run.live (run : Run) : Bool := liveEngineeringStatuses.contains run.status

def terminalTaskStatuses (run : Run) : List TaskStatus :=
  if run.status = .completed then [.inCi, .testing, .done]
  else if run.status = .failed && run.gaveUp then [.waitingHumanReview]
  else [.failed]

def listRuns (reply : Reply Unit) (taskId : String) : Step (List Run) := do
  Act.await hear reply
  Act.look fun s => s.runs.filter (·.taskId = taskId)

def transitionThrough (answers : Answers) : List TaskStatus → Step Unit
  | [] => pure ()
  | status :: rest => do
    Act.await hear (answers.transition status)
    transitionThrough answers rest

def failRemovedAttempt (answers : Answers) (run : Run) : Step Unit := do
  send answers.failRun (State.patch run.id (some .failed) [("stop_reason", .text "turn_deadline_exceeded")])
  transitionThrough answers [.failed]

/-- `max(runs, key=created_at)` -/
def latest : List Run → Option Run
  | [] => none
  | run :: rest => match latest rest with
    | some best => if run.createdAt < best.createdAt then some best else some run
    | none => some run

def replayTerminalAttempt (answers : Answers) (taskId : String) : Step Unit := do
  let runs ← listRuns answers.listTerminal taskId
  match latest (runs.filter (!·.live)) with
  | none => pure ()
  | some run => transitionThrough answers (terminalTaskStatuses run)

def settleAttempt (answers : Answers) (taskId : String) (run : Run) (now : Int) (state : WorkerAttemptState)
    (workerId : Option String) : Step Unit :=
  match state with
  | .running => pure ()
  | .idle => pure ()
  | .unknown => pure ()
  | .removed => failRemovedAttempt answers run
  | .timedOut =>
    if workerId.isNone then failRemovedAttempt answers run
    else do
      let _ ← requestStuckAttemptStop lib answers taskId run .timedOut workerId now
      return ()
  | .dead => do
    let _ ← requestStuckAttemptStop lib answers taskId run .dead workerId now
    return ()

def superviseStuckTask (now : Int) (taskId : String) (answers : Answers) : Step Unit := do
  let runs ← listRuns answers.listRuns taskId
  match runs.find? (·.live) with
  | none => replayTerminalAttempt answers taskId
  | some run => do
    let verdict ← Act.await hear (attemptState lib answers.redis run now)
    settleAttempt lib answers taskId run now verdict.1 verdict.2

def superviseEach (now : Int) : List (String × Answers) → Step Unit
  | [] => pure ()
  | (taskId, answers) :: rest => do
    superviseStuckTask lib now taskId answers
    superviseEach now rest

structure Tick where
  now : Int
  tasks : Reply (List (String × Answers))

def superviseStuckTasks (tick : Tick) : Step Unit := do
  let tasks ← Act.await hear tick.tasks
  superviseEach lib tick.now tasks

/-- A task whose wait for resources is over -/
structure Resumption where
  taskId : String
  currentIteration : Int
  listRuns : Reply Unit
  updateRun : Request

/-- The run gets back all the metadata that was read of it, the retry time included. -/
def clearFailedRunIteration (resumption : Resumption) : Step Unit := do
  let runs ← listRuns resumption.listRuns resumption.taskId
  match runs.find? fun run => (valueAt run.runMetadata "iteration").eq (.int resumption.currentIteration) with
  | none => pure ()
  | some run => send resumption.updateRun (State.patch run.id none (setKey run.runMetadata "iteration" .none))

inductive Event where
  | tick (tick : Tick)
  | resumed (resumption : Resumption)
  | outside (change : Change)

def State.after (s : State) : Event → State
  | .tick tick => (superviseStuckTasks lib tick s).2
  | .resumed resumption => (clearFailedRunIteration resumption s).2
  | .outside change => hear s change

def Spaced (stops : List Stop) : Prop :=
  stops.Pairwise fun newer older => newer.runId = older.runId → older.retryAt ≤ newer.sentAt

section Recording

variable {lib : Library} {s : State} {run : Run} {runId : String} {t : Int} {change : Change} {metadata : Mapping}

def WaitsUntil (lib : Library) (metadata : Mapping) (t : Int) : Prop :=
  ∃ moment, optional lib.datetime metadata "worker_stop_next_retry_at" = some (some moment) ∧
    moment.utcOffset.isSome = true ∧ t ≤ moment.instant

def Recorded (lib : Library) (s : State) (runId : String) (t : Int) : Prop :=
  (∃ run ∈ s.runs, run.id = runId) ∧ ∀ run ∈ s.runs, run.id = runId → WaitsUntil lib run.runMetadata t

structure Good (lib : Library) (s : State) : Prop where
  recorded : ∀ stop ∈ s.stops, Recorded lib s stop.runId stop.retryAt
  spaced : Spaced s.stops

variable {more : Mapping}

theorem optional_congr (h : more.lookup "worker_stop_next_retry_at" = none) :
    optional lib.datetime (updateKeys metadata more) "worker_stop_next_retry_at" =
      optional lib.datetime metadata "worker_stop_next_retry_at" := by
  unfold optional valueAt
  rw [Projects.lookup_updateKeys, h, Option.none_or]

theorem waitsUntil_keeps (hmore : more.lookup "worker_stop_next_retry_at" = none)
    (h : WaitsUntil lib metadata t) : WaitsUntil lib (updateKeys metadata more) t := by
  obtain ⟨moment, hmoment, haware, hle⟩ := h
  exact ⟨moment, (optional_congr hmore).trans hmoment, haware, hle⟩

theorem waitsUntil_rewritten {read more : Mapping} (h : WaitsUntil lib read t)
    (hmore : more.lookup "worker_stop_next_retry_at" = read.lookup "worker_stop_next_retry_at") :
    WaitsUntil lib (updateKeys metadata more) t := by
  obtain ⟨moment, hmoment, haware, hle⟩ := h
  refine ⟨moment, ?_, haware, hle⟩
  rw [← hmoment]
  unfold optional valueAt at hmoment ⊢
  rw [Projects.lookup_updateKeys, hmore]
  cases hread : read.lookup "worker_stop_next_retry_at" with
  | none => simp [hread] at hmoment
  | some value => rfl

variable {status : Option RunStatus}

variable {target : String}

theorem mem_patch {run' : Run} :
    run' ∈ (s.patch target status more).runs ↔
      ∃ run ∈ s.runs, (if run.id = target then run.patched status more else run) = run' := List.mem_map

theorem patched_id (run : Run) (target : String) (status : Option RunStatus) (more : Mapping) :
    (if run.id = target then run.patched status more else run).id = run.id := by
  split
  · rfl
  · rfl

theorem Recorded.patch (h : Recorded lib s runId t)
    (hmore : target = runId → ∀ metadata, WaitsUntil lib metadata t → WaitsUntil lib (updateKeys metadata more) t) :
    Recorded lib (s.patch target status more) runId t := by
  obtain ⟨⟨run, hrun, hid⟩, hwaits⟩ := h
  constructor
  · refine ⟨_, mem_patch.mpr ⟨run, hrun, rfl⟩, ?_⟩
    rw [patched_id, hid]
  · intro run' hrun' hid'
    obtain ⟨before, hbefore, rfl⟩ := mem_patch.mp hrun'
    rw [patched_id] at hid'
    have hwait := hwaits before hbefore hid'
    by_cases htarget : before.id = target
    · rw [if_pos htarget]
      exact hmore (htarget.symm.trans hid') _ hwait
    · rw [if_neg htarget]
      exact hwait

theorem Recorded.hear (h : Recorded lib s runId t) : Recorded lib (hear s change) runId t := by
  cases change with
  | created run =>
    obtain ⟨⟨there, hthere, hid⟩, hwaits⟩ := h
    simp only [Liveness.hear]
    split
    · exact ⟨⟨there, hthere, hid⟩, hwaits⟩
    · rename_i hfresh
      constructor
      · exact ⟨there, List.mem_cons_of_mem _ hthere, hid⟩
      · intro run' hrun' hid'
        rcases List.mem_cons.mp hrun' with rfl | hrun'
        · exfalso
          apply hfresh
          rw [List.any_eq_true]
          exact ⟨there, hthere, by simpa using hid.trans hid'.symm⟩
        · exact hwaits run' hrun' hid'
  | patched patch => exact h.patch fun _ metadata hwait => waitsUntil_keeps patch.keeps_retry hwait

theorem hear_stops (s : State) (change : Change) : (hear s change).stops = s.stops := by
  cases change with
  | created run =>
    simp only [hear]
    split
    · rfl
    · rfl
  | patched patch => rfl

theorem Good.hear (h : Good lib s) : Good lib (hear s change) := by
  constructor
  · intro stop hstop
    rw [hear_stops] at hstop
    exact (h.recorded stop hstop).hear
  · rw [hear_stops]
    exact h.spaced

theorem patch_exists (h : ∃ run' ∈ s.runs, run'.id = runId) :
    ∃ run' ∈ (s.patch target status more).runs, run'.id = runId := by
  obtain ⟨run', hrun', hid⟩ := h
  refine ⟨_, mem_patch.mpr ⟨run', hrun', rfl⟩, ?_⟩
  rw [patched_id, hid]

def Seen (lib : Library) (s : State) (run : Run) : Prop :=
  (∃ run' ∈ s.runs, run'.id = run.id) ∧
    ∀ stop ∈ s.stops, stop.runId = run.id → WaitsUntil lib run.runMetadata stop.retryAt

theorem hear_exists (h : ∃ run' ∈ s.runs, run'.id = runId) : ∃ run' ∈ (hear s change).runs, run'.id = runId := by
  obtain ⟨run', hrun', hid⟩ := h
  cases change with
  | created run =>
    simp only [Liveness.hear]
    split
    · exact ⟨run', hrun', hid⟩
    · exact ⟨run', List.mem_cons_of_mem _ hrun', hid⟩
  | patched patch => exact patch_exists ⟨run', hrun', hid⟩

theorem Seen.hear (h : Seen lib s run) : Seen lib (hear s change) run := by
  constructor
  · exact hear_exists h.1
  · rw [hear_stops]
    exact h.2

theorem Good.seen (h : Good lib s) (hrun : run ∈ s.runs) : Seen lib s run := by
  constructor
  · exact ⟨run, hrun, rfl⟩
  · exact fun stop hstop hid => (h.recorded stop hstop).2 run hrun hid.symm

def Due (s : State) (runId : String) (now : Int) : Prop := ∀ stop ∈ s.stops, stop.runId = runId → stop.retryAt ≤ now

variable {read : AttemptTurnMetadata}

theorem fromRunMetadata_retry (h : AttemptTurnMetadata.fromRunMetadata lib metadata = some read) :
    optional lib.datetime metadata "worker_stop_next_retry_at" = some read.workerStopNextRetryAt := by
  unfold AttemptTurnMetadata.fromRunMetadata at h
  simp only [Option.bind_eq_bind, Option.bind_eq_some_iff, Option.pure_def, Option.some.injEq] at h
  obtain ⟨_, -, _, -, _, -, _, -, _, -, _, -, _, -, _, -, retryAt, hretry, _, -, _, -, rfl⟩ := h
  exact hretry

theorem due_of_mustWait {now : Int}
    (hread : AttemptTurnMetadata.fromRunMetadata lib metadata = some read) (hwait : mustWait read now = .ok false)
    (h : WaitsUntil lib metadata t) : t ≤ now := by
  obtain ⟨moment, hmoment, haware, hle⟩ := h
  rw [fromRunMetadata_retry hread] at hmoment
  unfold mustWait at hwait
  rw [Option.some.inj hmoment] at hwait
  simp only [isBefore] at hwait
  split at hwait
  · cases hwait
  · have hlate : ¬ now < moment.instant := by simpa using Except.ok.inj hwait
    omega

theorem retrySeconds_nonneg (attempts : Int) : 0 ≤ retrySeconds attempts := by
  unfold retrySeconds
  apply le_min
  · positivity
  · decide

theorem later_utc {now seconds : Int} {moment : Datetime} (h : later (utc now) seconds = .ok moment) :
    moment = utc (now + seconds * 1000000) ∧ represents (now + seconds * 1000000) = true := by
  unfold later at h
  split at h
  · rename_i hrepresents
    exact ⟨(Except.ok.inj h).symm, hrepresents⟩
  · cases h

theorem stopPatch_retry (read : AttemptTurnMetadata) (state : WorkerAttemptState) (attempts now : Int) (retryAt : Datetime) :
    ((stopPatch read state attempts now retryAt).asRunMetadata lib).lookup "worker_stop_next_retry_at" =
      some (.text (lib.dump retryAt)) := by
  simp [stopPatch, AttemptTurnMetadata.asRunMetadata, AttemptTurnMetadata.empty, AttemptTurnMetadata.entry, List.lookup_cons]

theorem stopPatch_waits {state : WorkerAttemptState} {attempts now seconds : Int} {retryAt : Datetime}
    (hretry : later (utc now) seconds = .ok retryAt) (ht : t ≤ retryAt.instant) :
    WaitsUntil lib (updateKeys metadata ((stopPatch read state attempts now retryAt).asRunMetadata lib)) t := by
  obtain ⟨rfl, hrepresents⟩ := later_utc hretry
  refine ⟨_, ?_, rfl, ht⟩
  unfold optional valueAt
  rw [Projects.lookup_updateKeys, stopPatch_retry]
  simp [lib.datetime_dump _ hrepresents]

end Recording

section Ticks

variable {lib : Library} {A : Type} {pre : State → Prop} {post : A → State → Prop}

theorem send_ensures {request : Request} {effect : State → State} {inv : State → Prop} {post : Unit → State → Prop}
    (hinv : ∀ s, pre s → inv s) (hhear : ∀ s change, pre s → pre (hear s change))
    (heffect : ∀ s, pre s → inv (effect s) ∧ post () (effect s)) : Act.Ensures pre (send request effect) inv post := by
  have hheard : ∀ (heard : List Change) s, pre s → pre (heard.foldl hear s) := by
    intro heard
    induction heard with
    | nil => exact fun s h => h
    | cons change rest ih => exact fun s h => ih _ (hhear s change h)
  intro s hpre
  have hafter := hheard request.heard s hpre
  unfold send
  cases hcarried : request.carriedOut with
  | true => exact ⟨(heffect _ hafter).1, fun _ _ => (heffect _ hafter).2⟩
  | false =>
    refine ⟨hinv _ hafter, fun a ha => ?_⟩
    have hanswered := request.answered ha
    rw [hcarried] at hanswered
    cases hanswered

theorem Good.awaited {B : Type} (reply : Reply B) : Act.Ensures (Good lib) (Act.await Liveness.hear reply) (Good lib) fun _ => Good lib :=
  .await (fun _ h => h) (fun _ _ h => h.hear) (fun _ _ _ h => h)

theorem Good.listRuns (reply : Reply Unit) (taskId : String) :
    Act.Ensures (Good lib) (listRuns reply taskId) (Good lib) fun runs s => Good lib s ∧ ∀ run ∈ runs, Seen lib s run := by
  apply (Good.awaited reply).bind
  intro _
  exact .look (fun _ h => h) fun s h => ⟨h, fun run hrun => h.seen (List.mem_filter.mp hrun).1⟩

theorem Good.transitionThrough (answers : Answers) (statuses : List TaskStatus) :
    Act.Ensures (Good lib) (transitionThrough answers statuses) (Good lib) fun _ => Good lib := by
  induction statuses with
  | nil => exact .pure fun s h => ⟨h, h⟩
  | cons status rest ih => exact (Good.awaited _).bind fun _ => ih

theorem Good.failRemovedAttempt (answers : Answers) (run : Run) :
    Act.Ensures (Good lib) (failRemovedAttempt answers run) (Good lib) fun _ => Good lib := by
  have hfail : Act.Ensures (Good lib)
      (send answers.failRun (State.patch run.id (some .failed) [("stop_reason", .text "turn_deadline_exceeded")]))
      (Good lib) fun _ => Good lib := by
    apply send_ensures (fun _ h => h) (fun _ _ h => h.hear)
    intro s h
    have hafter : Good lib (s.patch run.id (some .failed) [("stop_reason", .text "turn_deadline_exceeded")]) :=
      ⟨fun stop hstop => (h.recorded stop hstop).patch fun _ _ hwait => waitsUntil_keeps (by decide) hwait, h.spaced⟩
    exact ⟨hafter, hafter⟩
  exact hfail.bind fun _ => Good.transitionThrough answers _

theorem Good.replayTerminalAttempt (answers : Answers) (taskId : String) :
    Act.Ensures (Good lib) (replayTerminalAttempt answers taskId) (Good lib) fun _ => Good lib := by
  apply (Good.listRuns _ taskId).bind
  intro runs s hs
  cases latest (runs.filter (!·.live)) with
  | none => exact ⟨hs.1, fun _ _ => hs.1⟩
  | some run => exact Good.transitionThrough answers _ s hs.1

theorem sendStop_ensures (answers : Answers) (taskId runId : String) (attempts now : Int) (retryAt : Datetime) (workerId : Option String) :
    Act.Ensures (fun s => Good lib s ∧ Recorded lib s runId retryAt.instant ∧ Due s runId now)
      (sendStop answers taskId runId attempts now retryAt workerId) (Good lib) fun _ => Good lib := by
  cases workerId with
  | none => exact .pure fun s h => ⟨h.1, h.1⟩
  | some workerId =>
    apply send_ensures (fun s h => h.1)
    · rintro s change ⟨hgood, hrecorded, hdue⟩
      refine ⟨hgood.hear, hrecorded.hear, ?_⟩
      unfold Due
      rw [hear_stops]
      exact hdue
    · rintro s ⟨hgood, hrecorded, hdue⟩
      have hafter : Good lib (s.stopped ⟨runId, ⟨s!"stuck-{taskId}-{attempts}", workerId, "timeout"⟩, now, retryAt.instant⟩) := by
        constructor
        · intro stop hstop
          rcases List.mem_cons.mp hstop with rfl | hstop
          · exact hrecorded
          · exact hgood.recorded stop hstop
        · apply List.Pairwise.cons _ hgood.spaced
          exact fun older holder hid => hdue older holder hid.symm
      exact ⟨hafter, hafter⟩

theorem requestStuckAttemptStop_ensures (answers : Answers) (taskId : String) (run : Run) (state : WorkerAttemptState)
    (workerId : Option String) (now : Int) :
    Act.Ensures (fun s => Good lib s ∧ Seen lib s run) (requestStuckAttemptStop lib answers taskId run state workerId now)
      (Good lib) fun _ => Good lib := by
  unfold requestStuckAttemptStop
  cases hread : AttemptTurnMetadata.fromRunMetadata lib run.runMetadata with
  | none => exact .raise fun s h => h.1
  | some read =>
    have hwaits : Act.Ensures (fun s => Good lib s ∧ Seen lib s run) (Act.ofExcept (mustWait read now) : Step Bool) (Good lib)
        fun wait s => (Good lib s ∧ Seen lib s run) ∧ mustWait read now = .ok wait :=
      .ofExcept (fun s h => h.1) fun wait hwait s h => ⟨h, hwait⟩
    apply hwaits.bind
    intro wait
    cases wait with
    | true => exact .pure fun s h => ⟨h.1.1, h.1.1⟩
    | false =>
      have hmoment : Act.Ensures (fun s => (Good lib s ∧ Seen lib s run) ∧ mustWait read now = .ok false)
          (Act.ofExcept (later (utc now) (retrySeconds (read.workerStopAttempts.getD 0 + 1))) : Step Datetime) (Good lib)
          fun retryAt s => ((Good lib s ∧ Seen lib s run) ∧ mustWait read now = .ok false) ∧
            later (utc now) (retrySeconds (read.workerStopAttempts.getD 0 + 1)) = .ok retryAt :=
        .ofExcept (fun s h => h.1.1) fun retryAt hretry s h => ⟨h, hretry⟩
      apply hmoment.bind
      intro retryAt
      have hwrite : Act.Ensures (fun s => ((Good lib s ∧ Seen lib s run) ∧ mustWait read now = .ok false) ∧
            later (utc now) (retrySeconds (read.workerStopAttempts.getD 0 + 1)) = .ok retryAt)
          (send answers.updateRun (State.patch run.id none
            ((stopPatch read state (read.workerStopAttempts.getD 0 + 1) now retryAt).asRunMetadata lib))) (Good lib)
          fun _ s => Good lib s ∧ Recorded lib s run.id retryAt.instant ∧ Due s run.id now := by
        apply send_ensures (fun s h => h.1.1.1)
        · rintro s change ⟨⟨⟨hgood, hseen⟩, hwait⟩, hretry⟩
          exact ⟨⟨⟨hgood.hear, hseen.hear⟩, hwait⟩, hretry⟩
        · rintro s ⟨⟨⟨hgood, hseen⟩, hwait⟩, hretry⟩
          have hdue : Due s run.id now := fun stop hstop hid => due_of_mustWait hread hwait (hseen.2 stop hstop hid)
          have hlater : now ≤ retryAt.instant := by
            obtain ⟨rfl, -⟩ := later_utc hretry
            have hnonneg := retrySeconds_nonneg (read.workerStopAttempts.getD 0 + 1)
            simp only [utc, Datetime.instant, Option.getD_some]
            omega
          have hafter : Good lib (s.patch run.id none
              ((stopPatch read state (read.workerStopAttempts.getD 0 + 1) now retryAt).asRunMetadata lib)) := by
            refine ⟨fun stop hstop => ?_, hgood.spaced⟩
            apply (hgood.recorded stop hstop).patch
            intro hid metadata _
            exact stopPatch_waits hretry ((hdue stop hstop hid.symm).trans hlater)
          refine ⟨hafter, hafter, ⟨patch_exists hseen.1, ?_⟩, hdue⟩
          intro run' hrun' hid
          obtain ⟨before, -, rfl⟩ := mem_patch.mp hrun'
          rw [patched_id] at hid
          rw [if_pos hid]
          exact stopPatch_waits hretry le_rfl
      apply hwrite.bind
      intro _
      apply (sendStop_ensures answers taskId run.id (read.workerStopAttempts.getD 0 + 1) now retryAt workerId).bind
      intro _
      exact .pure fun s h => ⟨h, h⟩

theorem settleAttempt_ensures (answers : Answers) (taskId : String) (run : Run) (now : Int) (state : WorkerAttemptState)
    (workerId : Option String) :
    Act.Ensures (fun s => Good lib s ∧ Seen lib s run) (settleAttempt lib answers taskId run now state workerId) (Good lib)
      fun _ => Good lib := by
  have hstop : ∀ state, Act.Ensures (fun s => Good lib s ∧ Seen lib s run)
      (requestStuckAttemptStop lib answers taskId run state workerId now >>= fun _ => pure ()) (Good lib) fun _ => Good lib :=
    fun state => .bind (requestStuckAttemptStop_ensures answers taskId run state workerId now) fun _ => .pure fun s h => ⟨h, h⟩
  have hfail : Act.Ensures (fun s => Good lib s ∧ Seen lib s run) (failRemovedAttempt answers run) (Good lib) fun _ => Good lib :=
    fun s h => Good.failRemovedAttempt answers run s h.1
  cases state with
  | removed => exact hfail
  | dead => exact hstop .dead
  | timedOut =>
    simp only [settleAttempt]
    split
    · exact hfail
    · exact hstop .timedOut
  | _ => exact .pure fun s h => ⟨h.1, h.1⟩

theorem Good.superviseStuckTask (now : Int) (taskId : String) (answers : Answers) :
    Act.Ensures (Good lib) (superviseStuckTask lib now taskId answers) (Good lib) fun _ => Good lib := by
  apply (Good.listRuns answers.listRuns taskId).bind
  intro runs
  cases hfound : runs.find? (·.live) with
  | none => exact fun s h => Good.replayTerminalAttempt answers taskId s h.1
  | some run =>
    have hmem := List.mem_of_find?_eq_some hfound
    have hverdict : Act.Ensures (fun s => Good lib s ∧ ∀ run ∈ runs, Seen lib s run)
        (Act.await Liveness.hear (attemptState lib answers.redis run now)) (Good lib) fun _ s => Good lib s ∧ Seen lib s run :=
      .await (fun s h => h.1) (fun s change h => ⟨h.1.hear, fun run hrun => (h.2 run hrun).hear⟩)
        fun _ _ s h => ⟨h.1, h.2 run hmem⟩
    exact hverdict.bind fun verdict => settleAttempt_ensures answers taskId run now verdict.1 verdict.2

theorem Good.superviseEach (now : Int) (tasks : List (String × Answers)) :
    Act.Ensures (Good lib) (superviseEach lib now tasks) (Good lib) fun _ => Good lib := by
  induction tasks with
  | nil => exact .pure fun s h => ⟨h, h⟩
  | cons task rest ih => exact (Good.superviseStuckTask now task.1 task.2).bind fun _ => ih

theorem Good.clearFailedRunIteration (resumption : Resumption) :
    Act.Ensures (Good lib) (clearFailedRunIteration resumption) (Good lib) fun _ => Good lib := by
  apply (Good.listRuns resumption.listRuns resumption.taskId).bind
  intro runs
  cases hfound : runs.find? fun run => (valueAt run.runMetadata "iteration").eq (.int resumption.currentIteration) with
  | none => exact .pure fun s h => ⟨h.1, h.1⟩
  | some run =>
    apply send_ensures (fun s h => h.1)
    · exact fun s change h => ⟨h.1.hear, fun run hrun => (h.2 run hrun).hear⟩
    · rintro s ⟨hgood, hseen⟩
      have hread := hseen run (List.mem_of_find?_eq_some hfound)
      have hafter : Good lib (s.patch run.id none (setKey run.runMetadata "iteration" .none)) := by
        refine ⟨fun stop hstop => (hgood.recorded stop hstop).patch fun hid metadata _ => ?_, hgood.spaced⟩
        exact waitsUntil_rewritten (hread.2 stop hstop hid.symm) (lookup_setKey_of_ne _ _ (by decide))
      exact ⟨hafter, hafter⟩

theorem Good.after {s : State} (h : Good lib s) (event : Event) : Good lib (s.after lib event) := by
  cases event with
  | tick tick => exact (((Good.awaited tick.tasks).bind fun _ => Good.superviseEach tick.now _) s h).1
  | resumed resumption => exact (Good.clearFailedRunIteration resumption s h).1
  | outside change => exact h.hear

theorem Good.run {s : State} (h : Good lib s) (events : List Event) : Good lib (events.foldl (State.after lib) s) := by
  induction events generalizing s with
  | nil => exact h
  | cons event rest ih => exact ih (h.after event)

end Ticks

/-- An attempt is called removed or dead only where a record of its own worker was read that
says so; and however the ticks of the supervisor go, a stop of an attempt comes when the time
recorded with each earlier one is there. -/
theorem attempts_end_on_evidence (lib : Library) :
    (∀ redis run now state worker, (attemptState lib redis run now).ends = .ok (state, worker) → state = .removed ∨ state = .dead →
      ∃ metadata workerId, AttemptTurnMetadata.fromRunMetadata lib run.runMetadata = some metadata ∧
        metadata.workerId = some workerId ∧ worker = some workerId ∧
          (state = .removed → RemovalRead lib redis metadata run.id workerId) ∧ (state = .dead → DeathRead redis workerId)) ∧
    ∀ (runs : List Run) (events : List Event), Spaced (events.foldl (State.after lib) ⟨runs, []⟩).stops := by
  constructor
  · intro redis run now state worker h hends
    exact attemptState_read h hends
  · intro runs events
    have hstart : Good lib ⟨runs, []⟩ := ⟨fun stop hstop => (List.not_mem_nil hstop).elim, .nil⟩
    exact (hstart.run events).spaced

section Samples

def sampleMoments : List (Int × String) :=
  [(63918460800000000, "2026-07-01T00:00:00Z"), (63918460830000000, "2026-07-01T00:00:30Z"),
    (63918460890000000, "2026-07-01T00:01:30Z")]

def dumpMoment (moment : Datetime) : String :=
  (sampleMoments.lookup moment.reading).getD (String.ofList (List.replicate moment.reading.toNat '0'))

def readMoment : Value → Option Datetime
  | .text s => some (utc (((sampleMoments.map Prod.swap).lookup s).getD s.length))
  | _ => none

def readInt : Value → Option Int
  | .int n => some n
  | _ => none

theorem readMoment_dumpMoment (reading : Int) (h : represents reading = true) :
    readMoment (.text (dumpMoment (utc reading))) = some (utc reading) := by
  simp only [represents, Bool.and_eq_true, decide_eq_true_eq] at h
  unfold readMoment dumpMoment
  cases hlookup : sampleMoments.lookup (utc reading).reading with
  | some text =>
    have hback : ∀ entry ∈ sampleMoments, (sampleMoments.map Prod.swap).lookup entry.2 = some entry.1 := by decide +kernel
    have hread := hback _ (mem_of_lookup hlookup)
    simp only [Option.getD_some, hread, utc]
  | none =>
    have hplain : ∀ entry ∈ sampleMoments.map Prod.swap, '2' ∈ entry.1.toList := by decide +kernel
    have hnone : (sampleMoments.map Prod.swap).lookup (String.ofList (List.replicate reading.toNat '0')) = none := by
      rw [List.lookup_eq_none_iff]
      intro entry hentry
      have hmem := hplain entry hentry
      rw [bne_iff_ne]
      intro heq
      rw [← heq] at hmem
      simp at hmem
    simp [hnone, utc, h.1]

def sampleLibrary : Library := ⟨readInt, readMoment, dumpMoment, fun _ => none, readMoment_dumpMoment⟩

def told : Request := ⟨[], true, .ok (), fun _ => rfl⟩

/-- The worker of the sample has died. -/
def sampleRedis : Redis where
  hget key field := ⟨[], .ok (if (key, field) = (workerStatusKey "worker-1", "status") then some (.str "DEAD") else none)⟩
  hgetall _ := ⟨[], .ok []⟩

def sampleRun : Run := ⟨"run-1", "task-1", .running, false, 0, [("worker_id", .text "worker-1"), ("iteration", .int 1)]⟩

def sampleTick (seconds : Int) : Event :=
  .tick ⟨63918460800000000 + seconds * 1000000,
    ⟨[], .ok [("task-1", ⟨pure (), pure (), sampleRedis, fun _ => pure (), told, told, told⟩)]⟩⟩

end Samples

/-- A dead worker is told to stop at once and after thirty seconds, and not in between, although
its run is written back as it was read. -/
theorem dead_worker_stopped_twice :
    DeathRead sampleRedis "worker-1" ∧
    ([sampleTick 0, .outside (.patched ⟨"run-1", none, [("error", .text "late")], by decide⟩), sampleTick 20,
      .resumed ⟨"task-1", 1, pure (), told⟩, sampleTick 30].foldl (State.after sampleLibrary) ⟨[sampleRun], []⟩).stops.map
        (fun stop => (stop.sentAt, stop.retryAt)) =
      [(63918460830000000, 63918460890000000), (63918460800000000, 63918460830000000)] ∧
    Spaced ([sampleTick 0, .outside (.patched ⟨"run-1", none, [("error", .text "late")], by decide⟩), sampleTick 20,
      .resumed ⟨"task-1", 1, pure (), told⟩, sampleTick 30].foldl (State.after sampleLibrary) ⟨[sampleRun], []⟩).stops := by
  refine ⟨?_, by decide +kernel, (attempts_end_on_evidence sampleLibrary).2 _ _⟩
  obtain ⟨_, _, -, hworker, hsame, -, hdead⟩ := (attempts_end_on_evidence sampleLibrary).1 sampleRedis sampleRun
    63918460800000000 .dead (some "worker-1") (by decide +kernel) (.inr rfl)
  cases hsame
  exact hdead rfl

end Orchestrator.Liveness
