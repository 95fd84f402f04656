import Orchestrator.Tasks.Engineering

/-!
The promotions of a task that take more than one transition, each a request of
its own, and where a promotion leaves its task when it is interrupted.
-/

namespace Orchestrator.Tasks

open Async Api Contracts

abbrev Sheet := (op : Op) → Option Reply

def after {A : Type} (t : Party) (answers : Sheet) (p : Job A) (s : State) : State := alone taskWorld t answers p s

/-- How many of the transitions the API carries out, when they are requested in
turn until one is not carried out or its answer does not arrive. -/
def carriedOut (answers : Sheet) (taskId : String) (account : Option String) : List TaskStatus → Nat
  | [] => 0
  | status :: rest => match (answers (.transitionTask taskId status account)).map Reply.fate with
    | some .served => carriedOut answers taskId account rest + 1
    | some (.unheard _) => 1
    | some (.unsent _) => 0
    | none => 0

def statusOf (s : State) (taskId : String) : Option TaskStatus := (s.tasks taskId).map (·.status)

def Path : TaskStatus → List TaskStatus → Prop
  | _, [] => True
  | status, next :: rest => next ∈ validTransitions status ∧ Path next rest

instance decidablePath : (status : TaskStatus) → (steps : List TaskStatus) → Decidable (Path status steps)
  | _, [] => .isTrue trivial
  | status, next :: rest =>
    @instDecidableAnd (next ∈ validTransitions status) (Path next rest) _ (decidablePath next rest)

variable {t : Party} {answers : Sheet} {taskId : String} {account : Option String} {s : State}

variable {status : TaskStatus}

theorem transitionTask_ok {row : TaskRow} (hrow : s.tasks taskId = some row)
    (hvalid : status ∈ validTransitions row.status) :
    s.transitionTask t taskId status account = (.ok (), (s.writeTask taskId { row with status := status }).record
      (.moved t taskId row.status status account)) := by
  have hmem : (validTransitions row.status).contains status = true := List.contains_iff_mem.mpr hvalid
  unfold State.transitionTask
  rw [hrow]
  exact if_pos hmem

def advance (t : Party) (answers : Sheet) (taskId : String) (account : Option String) : List TaskStatus → State → State
  | [], s => s
  | status :: rest, s => match answers (.transitionTask taskId status account) with
    | none => s
    | some reply => match run t (.transitionTask taskId status account) reply s with
      | (.ok _, s) => advance t answers taskId account rest s
      | (.error _, s) => s

theorem after_step {rest : List TaskStatus} {next : Except Exn (Op.Res (.transitionTask taskId status account)) → Job Unit}
    (herror : ∀ e s, after t answers (next (.error e)) s = s)
    (hok : ∀ s, after t answers (next (.ok ())) s = advance t answers taskId account rest s) :
    after t answers (.call (.transitionTask taskId status account) next) s = advance t answers taskId account (status :: rest) s := by
  simp only [after, alone, advance]
  cases answers (.transitionTask taskId status account) with
  | none => rfl
  | some reply =>
    dsimp only
    rcases run t (.transitionTask taskId status account) reply s with ⟨r, s'⟩
    cases r with
    | ok _ => exact hok s'
    | error e => exact herror e s'

theorem after_transitionThrough (steps : List TaskStatus) :
    after t answers (transitionThrough taskId account steps) s = advance t answers taskId account steps s := by
  induction steps generalizing s with
  | nil => rfl
  | cons status rest ih => exact after_step (fun _ _ => rfl) fun _ => ih

theorem after_advanceThrough (steps : List TaskStatus) :
    after t answers (advanceThrough taskId account steps) s = advance t answers taskId account steps s := by
  induction steps generalizing s with
  | nil => rfl
  | cons status rest ih => exact after_step (fun e _ => by cases e <;> rfl) fun _ => ih

theorem advance_status {source : TaskStatus} {steps : List TaskStatus} (hpath : Path source steps)
    (hs : statusOf s taskId = some source) :
    statusOf (advance t answers taskId account steps s) taskId =
      (source :: steps)[carriedOut answers taskId account steps]? := by
  induction steps generalizing s source with
  | nil => exact hs
  | cons status rest ih =>
    obtain ⟨row, hrow, rfl⟩ := Option.map_eq_some_iff.mp hs
    have hok : s.transitionTask t taskId status account = _ := transitionTask_ok hrow hpath.1
    have hmoved : statusOf (s.transitionTask t taskId status account).2 taskId = some status := by
      rw [hok]
      simp [statusOf, State.record, State.writeTask]
    simp only [advance, carriedOut]
    cases answers (.transitionTask taskId status account) with
    | none => exact hs
    | some reply =>
      cases hfate : reply.fate with
      | served =>
        simp only [run, hfate, Fate.serve, hok, Option.map_some, List.getElem?_cons_succ]
        rw [hok] at hmoved
        exact ih hpath.2 hmoved
      | unheard e =>
        simp only [run, hfate, Fate.serve, Option.map_some, List.getElem?_cons_succ]
        exact hmoved
      | unsent e =>
        simp only [run, hfate, Fate.serve, Option.map_some]
        exact hs

theorem after_updateTask_status (update : TaskUpdate) {id : String} :
    statusOf (after t answers (updateTask taskId update) s) id = statusOf s id := by
  have hserved : statusOf (s.updateTask taskId update).2 id = statusOf s id := by
    unfold State.updateTask
    cases hrow : s.tasks taskId with
    | none => rfl
    | some row =>
      by_cases hid : id = taskId
      · subst hid
        simp [statusOf, State.writeTask, TaskUpdate.assign, hrow]
      · simp [statusOf, State.writeTask, hid]
  refine alone_perform (W := taskWorld) (P := fun s' => statusOf s' id = statusOf s id) rfl fun reply => ?_
  change statusOf (reply.fate.serve (State.updateTask taskId update) s).2 id = statusOf s id
  cases reply.fate with
  | unsent e => rfl
  | _ => exact hserved

theorem after_notifyOwner_status (event : String) {id : String} :
    statusOf (after t answers (bestEffort (ask (.notifyOwner taskId event))) s) id = statusOf s id := by
  refine alone_handle (W := taskWorld) (P := fun s' => statusOf s' id = statusOf s id) ?_ fun e s' hs' => ?_
  · exact alone_perform (W := taskWorld) (P := fun s' => statusOf s' id = statusOf s id) rfl fun _ => rfl
  · cases e with
    | exception message | cancelledError => exact hs'

inductive Promotion where
  | engineeringSuccess (runId : String)
  | terminalReplay (run : RunDTO)
  | failedRetry
  | resourceRelease

namespace Promotion

def source : Promotion → TaskStatus
  | engineeringSuccess _ => .inDev
  | terminalReplay _ => .inDev
  | failedRetry => .failed
  | resourceRelease => .waitingResources

def steps : Promotion → List TaskStatus
  | engineeringSuccess _ => [.inCi, .testing, .done]
  | terminalReplay run => terminalTaskStatuses run
  | failedRetry => [.backlog, .todo]
  | resourceRelease => [.backlog, .todo]

def onAccountOf : Promotion → Option String
  | engineeringSuccess runId => some runId
  | terminalReplay run => some run.id
  | failedRetry => none
  | resourceRelease => none

def program (task : Task) : Promotion → Job Unit
  | engineeringSuccess runId => updateTaskStatus task.id .done (some runId)
  | terminalReplay run => replayTerminalAttempt task.id run
  | failedRetry => retryFailedTask task
  | resourceRelease => resumeParkedTask task

theorem path (p : Promotion) : Path p.source p.steps := by
  cases p with
  | engineeringSuccess runId =>
    change Path .inDev [.inCi, .testing, .done]
    decide
  | terminalReplay run =>
    change Path .inDev (terminalTaskStatuses run)
    unfold terminalTaskStatuses
    by_cases hdone : run.status = .completed
    · rw [if_pos hdone]
      decide
    · rw [if_neg hdone]
      split
      · decide
      · decide
  | failedRetry =>
    change Path .failed [.backlog, .todo]
    decide
  | resourceRelease =>
    change Path .waitingResources [.backlog, .todo]
    decide

theorem left_status (p : Promotion) {task : Task} (hs : statusOf s task.id = some p.source) :
    statusOf (after t answers (p.program task) s) task.id =
      (p.source :: p.steps)[carriedOut answers task.id p.onAccountOf p.steps]? := by
  have hchain : statusOf (advance t answers task.id p.onAccountOf p.steps s) task.id = _ := advance_status p.path hs
  cases p with
  | engineeringSuccess runId =>
    rw [← hchain]
    exact congrArg (statusOf · task.id) (after_advanceThrough _)
  | terminalReplay run =>
    rw [← hchain]
    exact congrArg (statusOf · task.id) (after_transitionThrough _)
  | failedRetry =>
    refine alone_bind (W := taskWorld) (P := fun s' => statusOf s' task.id = _) ?_ fun _ s' hs' => ?_
    · rw [← hchain]
      exact congrArg (statusOf · task.id) (after_transitionThrough _)
    · exact (after_updateTask_status _).trans hs'
  | resourceRelease =>
    refine alone_bind (W := taskWorld) (P := fun s' => statusOf s' task.id = _) ?_ fun _ s' hs' => ?_
    · rw [← hchain]
      exact congrArg (statusOf · task.id) (after_transitionThrough _)
    · exact (after_notifyOwner_status _).trans hs'

end Promotion

def Selects (loop : SchedulerLoop) (status : TaskStatus) : Prop :=
  ∃ next, loopProgram loop = .call (.getTasksByStatus status) next

def Rescanned (status : TaskStatus) : Prop :=
  (∃ loop, Selects loop status) ∨ status = .waitingHumanReview ∨ status = .done ∨ status = .cancelled

def selected : SchedulerLoop → TaskStatus
  | .dispatchTodoTasks => .todo
  | .superviseStuckTasks => .inDev
  | .superviseFailedTasks => .failed
  | .superviseWaitingResourceTasks => .waitingResources

theorem selects_iff {loop : SchedulerLoop} : Selects loop status ↔ selected loop = status := by
  have hsome : ∃ next, loopProgram loop = .call (.getTasksByStatus (selected loop)) next := by
    cases loop <;> exact ⟨_, rfl⟩
  obtain ⟨next, hnext⟩ := hsome
  constructor
  · rintro ⟨next', hnext'⟩
    rw [hnext] at hnext'
    cases hnext'
    rfl
  · rintro rfl
    exact ⟨next, hnext⟩

theorem rescanned_iff : Rescanned status ↔ status ≠ .backlog ∧ status ≠ .inCi ∧
    status ≠ .testing ∧ status ≠ .blocked := by
  unfold Rescanned
  simp only [selects_iff]
  constructor
  · rintro (⟨loop, rfl⟩ | rfl | rfl | rfl)
    · cases loop <;> decide
    · decide
    · decide
    · decide
  · intro h
    cases status with
    | todo => exact .inl ⟨.dispatchTodoTasks, rfl⟩
    | inDev => exact .inl ⟨.superviseStuckTasks, rfl⟩
    | failed => exact .inl ⟨.superviseFailedTasks, rfl⟩
    | waitingResources => exact .inl ⟨.superviseWaitingResourceTasks, rfl⟩
    | waitingHumanReview => exact .inr (.inl rfl)
    | done => exact .inr (.inr (.inl rfl))
    | cancelled => exact .inr (.inr (.inr rfl))
    | backlog => exact absurd rfl h.1
    | inCi => exact absurd rfl h.2.1
    | testing => exact absurd rfl h.2.2.1
    | blocked => exact absurd rfl h.2.2.2

theorem carriedOut_le (steps : List TaskStatus) : carriedOut answers taskId account steps ≤ steps.length := by
  induction steps with
  | nil => exact Nat.le_refl 0
  | cons status rest ih =>
    unfold carriedOut
    rw [List.length_cons]
    split <;> omega

instance (status : TaskStatus) : Decidable (Rescanned status) := decidable_of_iff' _ rescanned_iff

def Blind (source : TaskStatus) (steps : List TaskStatus) : Prop :=
  Rescanned source ∧ (∀ status ∈ steps.dropLast, ¬ Rescanned status) ∧ ∀ status ∈ steps.getLast?, Rescanned status

theorem Blind.rescanned_at {source status : TaskStatus} {steps : List TaskStatus} {n : Nat}
    (hblind : Blind source steps) (h : (source :: steps)[n]? = some status) :
    Rescanned status ↔ n = 0 ∨ n = steps.length := by
  obtain ⟨hsource, hinner, hlast⟩ := hblind
  cases n with
  | zero =>
    cases h
    exact ⟨fun _ => .inl rfl, fun _ => hsource⟩
  | succ n =>
    rw [List.getElem?_cons_succ] at h
    obtain ⟨hlt, hget⟩ := List.getElem?_eq_some_iff.mp h
    by_cases hend : n + 1 = steps.length
    · refine ⟨fun _ => .inr hend, fun _ => hlast status ?_⟩
      rw [List.getLast?_eq_getElem?, ← hend]
      exact h
    · have hmem : status ∈ steps.dropLast := by
        have hlt' : n < steps.dropLast.length := by rw [List.length_dropLast]; omega
        rw [← hget, ← List.getElem_dropLast hlt']
        exact List.getElem_mem hlt'
      refine ⟨fun hr => absurd hr (hinner status hmem), fun hn => ?_⟩
      omega

theorem Promotion.blind (p : Promotion) : Blind p.source p.steps := by
  unfold Blind
  cases p with
  | engineeringSuccess runId =>
    change Rescanned .inDev ∧ (∀ status ∈ [TaskStatus.inCi, .testing], _) ∧ ∀ status ∈ some TaskStatus.done, _
    decide
  | terminalReplay run =>
    change Rescanned .inDev ∧ (∀ status ∈ (terminalTaskStatuses run).dropLast, _) ∧
      ∀ status ∈ (terminalTaskStatuses run).getLast?, _
    unfold terminalTaskStatuses
    split
    · decide
    · split <;> decide
  | failedRetry =>
    change Rescanned .failed ∧ (∀ status ∈ [TaskStatus.backlog], _) ∧ ∀ status ∈ some TaskStatus.todo, _
    decide
  | resourceRelease =>
    change Rescanned .waitingResources ∧ (∀ status ∈ [TaskStatus.backlog], _) ∧ ∀ status ∈ some TaskStatus.todo, _
    decide

/-- A promotion that is interrupted leaves its task where some loop, or a human,
takes it up again exactly when none of its transitions or all of them were
carried out. -/
theorem promotion_rescanned_iff (p : Promotion) (t : Party) (answers : Sheet) (task : Task) (s : State)
    (hs : statusOf s task.id = some p.source) :
    ∃ status, statusOf (after t answers (p.program task) s) task.id = some status ∧
      (Rescanned status ↔ carriedOut answers task.id p.onAccountOf p.steps = 0 ∨
        carriedOut answers task.id p.onAccountOf p.steps = p.steps.length) := by
  have hlt : carriedOut answers task.id p.onAccountOf p.steps < (p.source :: p.steps).length :=
    Nat.lt_succ_of_le (carriedOut_le p.steps)
  have hstatus := List.getElem?_eq_getElem hlt
  exact ⟨_, (p.left_status hs).trans hstatus, p.blind.rescanned_at hstatus⟩

def exampleRow (status : TaskStatus) : TaskRow where
  projectId := "p"
  type := .feature
  description := none
  status := status
  priority := 0
  currentIteration := 0
  maxIterations := 3
  storyId := some "s"
  blockedByTaskId := none
  failureMetadata := none

def exampleTask (status : TaskStatus) : Task := ⟨exampleRow status, "t"⟩

def oneTask (status : TaskStatus) : State where
  tasks := fun id => if id = "t" then some (exampleRow status) else none
  taskIds := ["t"]
  store := ⟨fun _ => none, fun _ => none⟩
  runIds := []
  trace := []

def silent : (call : ServiceCall) → Except Exn call.Res := fun _ => .error (.exception "unavailable")

def servedReply : Reply := ⟨0, .served, true, silent, .updateRun "" .empty⟩

theorem promotion_rescanned_served : ∃ status,
    statusOf (after .scheduler (fun _ => some servedReply) (retryFailedTask (exampleTask .failed)) (oneTask .failed)) "t" =
      some status ∧ Rescanned status := by
  obtain ⟨status, hstatus, hiff⟩ := promotion_rescanned_iff .failedRetry .scheduler (fun _ => some servedReply)
    (exampleTask .failed) (oneTask .failed) rfl
  exact ⟨status, hstatus, hiff.mpr (.inr rfl)⟩

def diesInCi : Sheet
  | .transitionTask _ .inCi _ => some servedReply
  | _ => none

theorem promotion_stranded : ¬ ∀ (p : Promotion) (t : Party) (answers : Sheet) (task : Task) (s : State),
    statusOf s task.id = some p.source →
      ∃ status, statusOf (after t answers (p.program task) s) task.id = some status ∧ Rescanned status := by
  intro h
  obtain ⟨status, hstatus, hresc⟩ :=
    h (.engineeringSuccess "r") .scheduler diesInCi (exampleTask .inDev) (oneTask .inDev) rfl
  have hleft : statusOf (after .scheduler diesInCi (updateTaskStatus "t" .done (some "r")) (oneTask .inDev)) "t" =
      some .inCi := by decide
  cases hleft.symm.trans hstatus
  exact absurd hresc (by decide)

end Orchestrator.Tasks
