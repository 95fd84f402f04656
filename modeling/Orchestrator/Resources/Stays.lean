import Orchestrator.Resources.World

/-!
How long a task may wait for resources, and when its owner is told: one bound and one notice
from the park that records the start.
-/

namespace Orchestrator.Resources

open Async Contracts

def pending : List Event → Bool
  | .moved _ _ (.parks _ true) :: _ => true
  | .asked _ _ (some true) :: _ => true
  | _ => false

def selection : List Event → List Task
  | [] => []
  | .selected _ tasks :: _ => tasks
  | _ :: older => selection older

def waitNotices : List String := ["task_waiting_resources", "task_waiting_infrastructure"]

def Due (timeout : Time) : Event → List Event → Prop
  | .read _, older => pending older = false
  | .selected _ _, older => pending older = false
  | .recorded taskId start isNew, older => pending older = false ∧
      (∃ task ∈ selection older, task.id = taskId ∧ task.waitStart = if isNew then none else some start) ∧
      if isNew then older.head? = some (.read start) else .recorded taskId start true ∈ older
  | .moved taskId toStatus account, older => pending older = false ∧ match account with
    | .none => toStatus ≠ .waitingResources
    | .parks start isNew => toStatus = .waitingResources ∧ older.head? = some (.recorded taskId start isNew)
    | .expires now start isRecorded => toStatus = .waitingHumanReview ∧ older.head? = some (.read now) ∧
        start + timeout ≤ now ∧ (isRecorded = true → .recorded taskId start true ∈ older) ∧
        ∃ task ∈ selection older, task.id = taskId ∧ task.startedAt = start ∧ task.waitStart.isSome = isRecorded
  | .asked taskId event _, older =>
      (event ∈ waitNotices ∧ ∃ start, older.head? = some (.moved taskId .waitingResources (.parks start true))) ∨
        (event = "task_resources_resumed" ∧ older.head? = some (.moved taskId .todo .none))
  | .published taskId event, older => older.head? = some (.asked taskId event (some true))
  | .ended outcome, older => outcome = some (.ok ()) → pending older = false

def Recorded (task : Task) (trace : List Event) : Prop :=
  ∀ start, task.waitStart = some start → .recorded task.id start true ∈ trace

structure Kept (timeout : Time) (s : State) : Prop where
  clean : Clean (Due timeout) s.trace
  recorded : ∀ task ∈ s.tasks, Recorded task s.trace

abbrev stays (timeout : Time) : Rules resourceWorld where
  admits := anyMove
  inv := Kept timeout
  rely t s s' := t = .scheduler → s'.trace = s.trace
  rely_refl _ _ _ := rfl
  rely_trans h h' ht := (h' ht).trans (h ht)
  rest t s := t = .scheduler → pending s.trace = false
  rest_stable _ h hrest ht := (h ht) ▸ hrest ht

section Steps

variable {timeout : Time} {s : State} {event : Event}

theorem Recorded.cons {task : Task} {trace : List Event} (h : Recorded task trace) (event : Event) :
    Recorded task (event :: trace) := fun start hstart => List.mem_cons_of_mem _ (h start hstart)

theorem Kept.record (h : Kept timeout s) (hdue : Due timeout event s.trace) : Kept timeout (s.record event) :=
  ⟨⟨hdue, h.clean⟩, fun task htask => (h.recorded task htask).cons event⟩

theorem Kept.rewrite (h : Kept timeout s) {taskId : String} {f : Task → Task}
    (hf : ∀ task ∈ s.tasks, task.id = taskId → Recorded (f task) s.trace) : Kept timeout (s.rewrite taskId f) := by
  refine ⟨h.clean, fun task htask => ?_⟩
  obtain ⟨row, hrow, rfl⟩ := List.mem_map.mp htask
  split
  · rename_i hid
    exact hf row hrow hid
  · exact h.recorded row hrow

theorem task_mem {taskId : String} {task : Task} (h : s.task? taskId = some task) : task ∈ s.tasks ∧ task.id = taskId :=
  ⟨List.mem_of_find?_eq_some h, by simpa using List.find?_some h⟩

theorem change_kept (h : Kept timeout s) (change : OutsideChange) : Kept timeout (change.apply s) ∧ (change.apply s).trace = s.trace := by
  unfold OutsideChange.apply
  split
  · refine ⟨⟨h.clean, fun task htask => ?_⟩, rfl⟩
    rcases List.mem_append.mp htask with htask | htask
    · exact h.recorded task htask
    · cases List.mem_singleton.mp htask
      nofun
  · rename_i row hrow
    obtain ⟨hmem, hid⟩ := task_mem hrow
    refine ⟨h.rewrite fun _ _ _ => ?_, rfl⟩
    intro start hstart
    cases hkeeps : change.keepsMetadata with
    | false => simp [Task.waitStart, hkeeps] at hstart
    | true =>
      simp only [Task.waitStart, hkeeps, if_true] at hstart
      rw [← hid]
      exact h.recorded row hmem start hstart

end Steps

/-- `task` is of the last selection, and its start was recorded before it. -/
def Chosen (trace : List Event) (task : Task) : Prop := task ∈ selection trace ∧ Recorded task trace

structure Quiet (tasks : List Task) (s : State) : Prop where
  settled : pending s.trace = false
  chosen : ∀ task ∈ tasks, Chosen s.trace task

section Calls

variable {timeout : Time} {s : State} {tasks : List Task} {A : Type}

theorem call_safe {op : Op} {post : Except Exn op.Res → State → Prop}
    (h : ∀ s' : State, Kept timeout s' → s'.trace = s.trace → ∀ reply : Reply,
      Kept timeout (run .scheduler op reply s').2 ∧ post (run .scheduler op reply s').1 (run .scheduler op reply s').2) :
    (stays timeout).Safe .scheduler post (perform op) s := by
  refine Rules.Safe.perform fun s' hi' hr reply _ => ?_
  obtain ⟨hkept, hpost⟩ := h s' hi' (hr rfl) reply
  refine ⟨⟨hkept, ?_⟩, hpost⟩
  rintro u hu rfl
  exact absurd rfl hu

theorem clock_reads (h : pending s.trace = false) :
    (stays timeout).Yields .scheduler (fun now s' => s'.trace = .read now :: s.trace) clock s := by
  refine call_safe fun s' hi' htrace reply => ⟨hi'.record ?_, ?_⟩
  · rw [htrace]
    exact h
  · rintro now ⟨⟩
    exact congrArg _ htrace

theorem Quiet.of_trace (h : Quiet tasks s) {s' : State} (htrace : s'.trace = s.trace) : Quiet tasks s' :=
  ⟨htrace ▸ h.settled, fun task htask => htrace ▸ h.chosen task htask⟩

theorem chosen_cons {trace : List Event} (h : ∀ task ∈ tasks, Chosen trace task) {event : Event}
    (hsame : selection (event :: trace) = selection trace) (htrace : s.trace = event :: trace) :
    ∀ task ∈ tasks, Chosen s.trace task := by
  intro task htask
  obtain ⟨hmem, hrecorded⟩ := h task htask
  rw [htrace]
  exact ⟨hsame ▸ hmem, hrecorded.cons event⟩

theorem ask_quiet (call : ServiceCall) : (stays timeout).Maintains .scheduler (Quiet tasks) (ask call) := by
  intro s _ hquiet
  refine call_safe fun s' hi' htrace reply => ⟨hi', hquiet.of_trace htrace⟩

theorem serve_cases {fate : Fate Exn} {exec : State → Except Exn A × State} {P : Except Exn A → State → Prop}
    (hunsent : ∀ e, P (.error e) s) (hserved : P (exec s).1 (exec s).2) (hunheard : ∀ e, P (.error e) (exec s).2) :
    P (fate.serve exec s).1 (fate.serve exec s).2 := by
  cases fate with
  | served => exact hserved
  | unheard e => exact hunheard e
  | unsent e => exact hunsent e

theorem updateIteration_quiet (taskId : String) (iteration : Nat) :
    (stays timeout).Maintains .scheduler (Quiet tasks) (perform (.updateIteration taskId iteration)) := by
  intro s _ hquiet
  refine call_safe fun s' hi' htrace reply => ?_
  have hexec : Kept timeout (s'.updateIteration taskId iteration reply.now).2 ∧
      (s'.updateIteration taskId iteration reply.now).2.trace = s'.trace := by
    unfold State.updateIteration
    split
    · exact ⟨hi', rfl⟩
    · exact ⟨hi'.rewrite fun task htask _ => hi'.recorded task htask, rfl⟩
  refine serve_cases (P := fun _ s => Kept timeout s ∧ Quiet tasks s) (fun _ => ⟨hi', hquiet.of_trace htrace⟩) ?_ fun _ => ?_
  · exact ⟨hexec.1, hquiet.of_trace (hexec.2.trans htrace)⟩
  · exact ⟨hexec.1, hquiet.of_trace (hexec.2.trans htrace)⟩

variable {taskId : String}

theorem transition_safe {toStatus : TaskStatus} {account : Account}
    (hdue : Due timeout (.moved taskId toStatus account) s.trace) :
    (stays timeout).Safe .scheduler (fun r s' => (s'.trace = s.trace ∧ ∃ e, r = .error e) ∨
      s'.trace = .moved taskId toStatus account :: s.trace) (transitionTask taskId toStatus account) s := by
  refine call_safe fun s' hi' htrace reply => ?_
  have hexec : Kept timeout (s'.transitionTask taskId toStatus account reply.now).2 ∧
      (((s'.transitionTask taskId toStatus account reply.now).2.trace = s.trace ∧
        ∃ e, (s'.transitionTask taskId toStatus account reply.now).1 = .error e) ∨
      (s'.transitionTask taskId toStatus account reply.now).2.trace = .moved taskId toStatus account :: s.trace) := by
    unfold State.transitionTask
    split
    · exact ⟨hi', .inl ⟨htrace, _, rfl⟩⟩
    · split
      · refine ⟨Kept.record (hi'.rewrite fun task htask _ => hi'.recorded task htask) (htrace ▸ hdue), .inr ?_⟩
        simp [State.record, State.rewrite, htrace]
      · exact ⟨hi', .inl ⟨htrace, _, rfl⟩⟩
  refine serve_cases (P := fun r s' => Kept timeout s' ∧ ((s'.trace = s.trace ∧ ∃ e, r = .error e) ∨
    s'.trace = .moved taskId toStatus account :: s.trace)) (fun e => ⟨hi', .inl ⟨htrace, e, rfl⟩⟩) hexec fun e => ?_
  refine ⟨hexec.1, ?_⟩
  rcases hexec.2 with ⟨hsame, _⟩ | hmoved
  · exact .inl ⟨hsame, e, rfl⟩
  · exact .inr hmoved

theorem transition_quiet {toStatus : TaskStatus} (hto : toStatus ≠ .waitingResources) :
    (stays timeout).Maintains .scheduler (Quiet tasks) (transitionTask taskId toStatus .none) := by
  intro s hi hquiet
  refine (transition_safe ⟨hquiet.settled, hto⟩).conseq hi fun r s' _ h => ?_
  rcases h with ⟨hsame, _⟩ | hmoved
  · exact hquiet.of_trace hsame
  · exact ⟨by rw [hmoved]; rfl, chosen_cons hquiet.chosen rfl hmoved⟩

theorem record_safe {metadata : FailureMetadata} {start : Time} {isNew : Bool}
    (hmetadata : metadata.resourceWaitStartedAt = some start) (hdue : Due timeout (.recorded taskId start isNew) s.trace)
    (hstart : .recorded taskId start true ∈ .recorded taskId start isNew :: s.trace) :
    (stays timeout).Safe .scheduler (fun r s' => (∃ e, r = .error e) ∨ s'.trace = .recorded taskId start isNew :: s.trace)
      (perform (.updateMetadata taskId metadata start isNew)) s := by
  refine call_safe fun s' hi' htrace reply => ?_
  have hexec : Kept timeout (s'.updateMetadata taskId metadata start isNew reply.now).2 ∧
      ((∃ e, (s'.updateMetadata taskId metadata start isNew reply.now).1 = .error e) ∨
        (s'.updateMetadata taskId metadata start isNew reply.now).2.trace = .recorded taskId start isNew :: s.trace) := by
    unfold State.updateMetadata
    split
    · exact ⟨hi', .inl ⟨_, rfl⟩⟩
    · have hafter : (((s'.rewrite taskId fun task => { task with failureMetadata := some metadata, updatedAt := some reply.now }).record
          (.recorded taskId start isNew)).trace) = .recorded taskId start isNew :: s.trace := congrArg _ htrace
      refine ⟨⟨⟨htrace ▸ hdue, hi'.clean⟩, fun other hother since hwait => ?_⟩, .inr hafter⟩
      rw [hafter]
      obtain ⟨row, hrow, rfl⟩ := List.mem_map.mp hother
      split at hwait
      · rename_i hid
        have hsame : start = since := Option.some.inj (hmetadata.symm.trans hwait)
        rw [if_pos hid, ← hsame]
        exact hid ▸ hstart
      · rename_i hid
        rw [if_neg hid]
        exact List.mem_cons_of_mem _ (htrace ▸ hi'.recorded row hrow since hwait)
  refine serve_cases (P := fun r s' => Kept timeout s' ∧ ((∃ e, r = .error e) ∨
    s'.trace = .recorded taskId start isNew :: s.trace)) (fun e => ⟨hi', .inl ⟨e, rfl⟩⟩) hexec fun e => ?_
  exact ⟨hexec.1, .inl ⟨e, rfl⟩⟩

theorem bestEffort_safe {body : Job Unit} {P : State → Prop} (hi : Kept timeout s)
    (h : (stays timeout).Safe .scheduler (fun _ => P) body s) : (stays timeout).Safe .scheduler (fun _ => P) (bestEffort body) s := by
  refine Rules.Safe.handle hi h (fun _ _ _ h => h) fun e s _ h => ?_
  cases e with
  | exception | cancelledError => exact h

theorem request_safe {task : Task} {event : String} (hi : Kept timeout s)
    (hdue : ∀ recipient, Due timeout (.asked task.id event recipient) s.trace) (hchosen : ∀ task ∈ tasks, Chosen s.trace task) :
    (stays timeout).Safe .scheduler (fun _ => Quiet tasks) (requestViaPo task event) s := by
  have hasked : (stays timeout).Safe .scheduler (fun r s' => (∀ task ∈ tasks, Chosen s'.trace task) ∧
      s'.trace = .asked task.id event r.toOption :: s.trace) (perform (.resolveRecipient task.id event)) s := by
    refine call_safe fun s' hi' htrace reply => ⟨hi'.record (htrace ▸ hdue _), ?_, ?_⟩
    · exact chosen_cons hchosen rfl (congrArg _ htrace)
    · exact congrArg _ htrace
  unfold requestViaPo
  refine Rules.Safe.bind hi hasked ?_ ?_
  · rintro addressable s' hi' ⟨hchosen', htrace⟩
    cases addressable with
    | false => exact ⟨by rw [htrace]; rfl, hchosen'⟩
    | true =>
      refine call_safe fun s'' hi'' htrace' reply => ?_
      have hdue' : Due timeout (.published task.id event) s''.trace := by
        rw [htrace', htrace]
        rfl
      exact ⟨hi''.record hdue', rfl, chosen_cons hchosen' rfl (congrArg _ htrace')⟩
  · rintro e s' hi' ⟨hchosen', htrace⟩
    exact ⟨by rw [htrace]; rfl, hchosen'⟩

end Calls

section Supervision

variable {timeout : Time} {s : State} {tasks : List Task}

theorem yields_of_maintains {A : Type} {p : Job A} (hp : (stays timeout).Maintains .scheduler (Quiet tasks) p)
    (hi : Kept timeout s) (h : Quiet tasks s) : (stays timeout).Yields .scheduler (fun _ => Quiet tasks) p s :=
  .of_maintains hp hi h

theorem escalateStory_quiet (storyId : Option String) : (stays timeout).Maintains .scheduler (Quiet tasks) (escalateStory storyId) := by
  unfold escalateStory
  split
  · exact .ret ()
  · exact ask_quiet _

theorem escalateTaskToHumanReview_quiet (task : Task) (detail : String) :
    (stays timeout).Maintains .scheduler (Quiet tasks) (escalateTaskToHumanReview task detail) :=
  .bind (transition_quiet (by decide)) fun _ => .bind (escalateStory_quiet _) fun _ => ask_quiet _

variable {task : Task}

theorem parkRefused_quiet (htask : task ∈ tasks) (result : EngineeringRunResult) (reason : AllocationFailureReason)
    (hi : Kept timeout s) (h : Quiet tasks s) :
    (stays timeout).Yields .scheduler (fun _ => Quiet tasks) (parkRefused task result reason) s := by
  unfold parkRefused
  refine Rules.Yields.bind hi (clock_reads h.settled) fun now s' hi' htrace => ?_
  have hstart : Due timeout (.recorded task.id (task.waitStart.getD now) task.waitStart.isNone) s'.trace ∧
      (Event.recorded task.id (task.waitStart.getD now) true ∈
        .recorded task.id (task.waitStart.getD now) task.waitStart.isNone :: s'.trace) := by
    rw [htrace]
    obtain ⟨hselected, hrecorded⟩ := h.chosen task htask
    cases hwait : task.waitStart with
    | none => exact ⟨⟨rfl, ⟨task, hselected, rfl, hwait⟩, rfl⟩, List.mem_cons_self⟩
    | some start =>
      have hmem := List.mem_cons_of_mem (.read now) (hrecorded start hwait)
      exact ⟨⟨rfl, ⟨task, hselected, rfl, hwait⟩, hmem⟩, List.mem_cons_of_mem _ hmem⟩
  refine Rules.Safe.bind hi' (record_safe rfl hstart.1 hstart.2) ?_ fun _ _ _ _ _ h => nomatch h
  rintro _ s'' hi'' (⟨_, ⟨⟩⟩ | htrace')
  have hdue : Due timeout (.moved task.id .waitingResources (.parks (task.waitStart.getD now) task.waitStart.isNone)) s''.trace := by
    rw [htrace']
    exact ⟨rfl, rfl, rfl⟩
  refine Rules.Safe.bind hi'' (transition_safe hdue) ?_ fun _ _ _ _ _ h => nomatch h
  rintro _ s3 hi3 (⟨_, _, ⟨⟩⟩ | hmoved)
  have hkept : ∀ other ∈ tasks, Chosen s3.trace other := by
    have hbefore : ∀ other ∈ tasks, Chosen s''.trace other :=
      chosen_cons (chosen_cons h.chosen rfl htrace) rfl htrace'
    exact chosen_cons hbefore rfl hmoved
  refine Rules.Yields.bind (M := fun _ => Quiet tasks) hi3 ?_ fun _ _ _ hquiet => .ret hquiet
  unfold requestNewWait
  cases hnew : task.waitStart.isNone with
  | false =>
    rw [hnew] at hmoved
    exact .ret ⟨by rw [hmoved]; rfl, hkept⟩
  | true =>
    have hnotice : ∀ event ∈ waitNotices, ∀ recipient, Due timeout (.asked task.id event recipient) s3.trace := by
      intro event hevent recipient
      rw [hmoved, hnew]
      exact .inl ⟨hevent, _, rfl⟩
    refine (bestEffort_safe hi3 ?_).conseq hi3 fun _ _ _ hquiet _ _ => hquiet
    unfold requestWait
    split
    · exact request_safe hi3 (hnotice _ (by decide)) hkept
    · exact request_safe hi3 (hnotice _ (by decide)) hkept

theorem routeRefusal_quiet (htask : task ∈ tasks) (run : EngineeringRun) (result : EngineeringRunResult)
    (hi : Kept timeout s) (h : Quiet tasks s) :
    (stays timeout).Yields .scheduler (fun _ => Quiet tasks) (routeRefusal task run result) s := by
  unfold routeRefusal
  split
  · refine yields_of_maintains ?_ hi h
    exact .bind (ask_quiet _) fun _ => .bind (escalateTaskToHumanReview_quiet _ _) fun _ => .bind (ask_quiet _) fun _ => .ret _
  · refine yields_of_maintains ?_ hi h
    exact .bind (escalateTaskToHumanReview_quiet _ _) fun _ => .ret _
  · exact parkRefused_quiet htask result _ hi h
  · exact .ret h

theorem parkTaskWaitingResources_quiet (htask : task ∈ tasks) (hi : Kept timeout s) (h : Quiet tasks s) :
    (stays timeout).Yields .scheduler (fun _ => Quiet tasks) (parkTaskWaitingResources task) s := by
  unfold parkTaskWaitingResources
  refine Rules.Yields.bind hi (yields_of_maintains (ask_quiet _) hi h) fun runs s hi h => ?_
  cases runs with
  | nil => exact .ret h
  | cons run rest =>
    dsimp only
    cases run.result with
    | none => exact .ret h
    | some result => exact routeRefusal_quiet htask run result hi h

theorem returnToTodo_quiet (taskId : String) : (stays timeout).Maintains .scheduler (Quiet tasks) (returnToTodo taskId) :=
  .bind (transition_quiet (by decide)) fun _ => transition_quiet (by decide)

theorem bestEffort_quiet {body : Job Unit} (h : (stays timeout).Maintains .scheduler (Quiet tasks) body) :
    (stays timeout).Maintains .scheduler (Quiet tasks) (bestEffort body) :=
  fun s hi hquiet => bestEffort_safe hi (h s hi hquiet)

theorem superviseFailedTask_quiet (htask : task ∈ tasks) (hi : Kept timeout s) (h : Quiet tasks s) :
    (stays timeout).Yields .scheduler (fun _ => Quiet tasks) (superviseFailedTask task) s := by
  unfold superviseFailedTask
  split
  · exact .ret h
  · refine Rules.Yields.bind hi (parkTaskWaitingResources_quiet htask hi h) fun parked s hi h => ?_
    refine yields_of_maintains ?_ hi h
    unfold retryOrEscalate
    split
    · exact .ret _
    · split
      · exact .bind (.bind (returnToTodo_quiet _) fun _ => updateIteration_quiet _ _) fun _ => .ret _
      · refine .bind ?_ fun _ => .ret _
        exact .bind (bestEffort_quiet (transition_quiet (by decide))) fun _ => bestEffort_quiet (escalateStory_quiet _)

theorem releaseWaitingTask_quiet (task : Task) (hi : Kept timeout s) (h : Quiet tasks s) :
    (stays timeout).Yields .scheduler (fun _ => Quiet tasks) (releaseWaitingTask task) s := by
  unfold releaseWaitingTask
  have hclear : ∀ runs : List EngineeringRun, (stays timeout).Maintains .scheduler (Quiet tasks)
      (clearFirstIteration task.currentIteration runs) := by
    intro runs
    induction runs with
    | nil => exact .ret ()
    | cons run rest ih =>
      unfold clearFirstIteration
      split
      · exact ask_quiet _
      · exact ih
  have hcleared := yields_of_maintains (.bind (ask_quiet (.listRuns task.id)) hclear) hi h
  refine Rules.Yields.bind hi hcleared fun _ s hi h => ?_
  unfold returnToTodo
  simp only [Prog.bind_eq, Prog.bind_assoc]
  refine Rules.Yields.bind hi (yields_of_maintains (transition_quiet (by decide)) hi h) fun _ s hi h => ?_
  refine Rules.Safe.bind hi (transition_safe ⟨h.settled, nofun⟩) ?_ fun _ _ _ _ _ h => nomatch h
  rintro _ s' hi' (⟨_, _, ⟨⟩⟩ | hmoved)
  refine (bestEffort_safe hi' ?_).conseq hi' fun _ _ _ hquiet _ _ => hquiet
  refine request_safe hi' (fun recipient => ?_) (chosen_cons h.chosen rfl hmoved)
  rw [hmoved]
  exact .inr ⟨rfl, rfl⟩

theorem superviseWaitingTask_quiet (htask : task ∈ tasks) (hi : Kept timeout s) (h : Quiet tasks s) :
    (stays timeout).Yields .scheduler (fun _ => Quiet tasks) (superviseWaitingTask timeout task) s := by
  unfold superviseWaitingTask
  refine Rules.Yields.bind hi (clock_reads h.settled) fun now s' hi' htrace => ?_
  have hquiet : Quiet tasks s' := ⟨by rw [htrace]; rfl, chosen_cons h.chosen rfl htrace⟩
  split
  · rename_i hexpired
    have hdue : Due timeout (.moved task.id .waitingHumanReview (.expires now task.startedAt task.waitStart.isSome)) s'.trace := by
      obtain ⟨hselected, hrecorded⟩ := hquiet.chosen task htask
      refine ⟨hquiet.settled, rfl, by rw [htrace]; rfl, hexpired, fun hsome => ?_, task, hselected, rfl, rfl, rfl⟩
      obtain ⟨start, hstart⟩ := Option.isSome_iff_exists.mp hsome
      have hmem := hrecorded start hstart
      simpa [Task.startedAt, hstart] using hmem
    refine Rules.Yields.bind (M := fun _ => Quiet tasks) hi' ?_ fun _ _ _ h => .ret h
    unfold expireResourceWait
    refine Rules.Safe.bind hi' (transition_safe hdue) ?_ fun _ _ _ _ _ h => nomatch h
    rintro _ s3 hi3 (⟨_, _, ⟨⟩⟩ | hmoved)
    have hquiet' : Quiet tasks s3 := ⟨by rw [hmoved]; rfl, chosen_cons hquiet.chosen rfl hmoved⟩
    exact yields_of_maintains (.bind (ask_quiet _) fun _ => ask_quiet _) hi3 hquiet'
  · unfold releaseIfAvailable
    have havailable : (stays timeout).Maintains .scheduler (Quiet tasks) (resourcesAvailable task.failureMetadata) := by
      unfold resourcesAvailable
      cases task.failureMetadata.bind (·.allocationRequiredRamMb) with
      | none => exact .ret _
      | some requiredRamMb =>
        cases task.failureMetadata.bind (·.allocationMinDiskMb) with
        | none => exact .ret _
        | some minDiskMb => exact ask_quiet _
    refine Rules.Yields.bind hi' (yields_of_maintains havailable hi' hquiet) fun available s hi h => ?_
    split
    · exact Rules.Yields.bind hi (releaseWaitingTask_quiet task hi h) fun _ _ _ h => .ret h
    · exact .ret h

theorem eachTask_quiet {A : Type} {body : Task → Job A} {todo : List Task}
    (hbody : ∀ task ∈ todo, ∀ s, Kept timeout s → Quiet tasks s →
      (stays timeout).Yields .scheduler (fun _ => Quiet tasks) (body task) s)
    (hi : Kept timeout s) (h : Quiet tasks s) : (stays timeout).Yields .scheduler (fun _ => Quiet tasks) (eachTask body todo) s := by
  induction todo generalizing s with
  | nil => exact .ret h
  | cons task rest ih =>
    refine Rules.Yields.bind hi (hbody task List.mem_cons_self s hi h) fun _ s hi h => ?_
    exact Rules.Yields.bind hi (ih (fun other hother => hbody other (List.mem_cons_of_mem _ hother)) hi h) fun _ _ _ h => .ret h

theorem select_quiet {A : Type} {status : TaskStatus} {f : List Task → Job A} (hi : Kept timeout s) (h : pending s.trace = false)
    (hf : ∀ tasks s, Kept timeout s → Quiet tasks s →
      (stays timeout).Yields .scheduler (fun _ s => pending s.trace = false) (f tasks) s) :
    (stays timeout).Yields .scheduler (fun _ s => pending s.trace = false)
      ((perform (.getTasksByStatus status)).bind f) s := by
  refine Rules.Yields.bind (M := Quiet) hi ?_ hf
  refine call_safe fun s' hi' htrace reply => ?_
  have hkept : Kept timeout (s'.getTasksByStatus status).2 := hi'.record (htrace ▸ h)
  refine serve_cases (P := fun (r : Except Exn (List Task)) s => Kept timeout s ∧ ∀ tasks, r = .ok tasks → Quiet tasks s)
    (fun _ => ⟨hi', nofun⟩) ⟨hkept, ?_⟩ fun _ => ⟨hkept, nofun⟩
  rintro tasks ⟨⟩
  exact ⟨rfl, fun task htask => ⟨htask, (hi'.recorded task (List.mem_of_mem_filter htask)).cons _⟩⟩

theorem schedulerTick_quiet (hi : Kept timeout s) (h : pending s.trace = false) :
    (stays timeout).Yields .scheduler (fun _ s => pending s.trace = false) (schedulerTick timeout) s := by
  unfold schedulerTick
  have hask : (stays timeout).Yields .scheduler (fun _ => Quiet []) (ask .nextLoop) s :=
    yields_of_maintains (ask_quiet .nextLoop) hi ⟨h, by simp⟩
  refine Rules.Yields.bind hi hask fun loop s hi h => ?_
  have hloop : ∀ {A : Type} {status : TaskStatus} {body : Task → Job A}, (∀ tasks task s, task ∈ tasks → Kept timeout s →
      Quiet tasks s → (stays timeout).Yields .scheduler (fun _ => Quiet tasks) (body task) s) →
      (stays timeout).Yields .scheduler (fun _ s => pending s.trace = false)
        (((perform (.getTasksByStatus status)).bind fun tasks => eachTask body tasks).bind fun _ => .ret ()) s := by
    intro A status body hbody
    refine Rules.Yields.bind (M := fun _ s => pending s.trace = false) hi ?_ fun _ _ _ h => .ret h
    refine select_quiet hi h.settled fun tasks s hi h => ?_
    refine (eachTask_quiet (fun task htask s hi h => hbody tasks task s htask hi h) hi h).conseq hi ?_
    exact fun _ _ _ hquiet a heq => (hquiet a heq).settled
  cases loop with
  | superviseFailedTasks => exact hloop fun tasks task s htask hi h => superviseFailedTask_quiet htask hi h
  | superviseWaitingResourceTasks => exact hloop fun tasks task s htask hi h => superviseWaitingTask_quiet htask hi h

end Supervision

section Runs

variable {timeout : Time} {tasks : List Task} {c : Config resourceWorld}

def opening (tasks : List Task) : State := ⟨tasks, []⟩

theorem reaches_kept (hfresh : ∀ task ∈ tasks, task.waitStart = none)
    (h : Reaches (body timeout) anyMove (.idle (opening tasks)) c) : Kept timeout c.state := by
  have hopen : Kept timeout (opening tasks) := by
    refine ⟨trivial, fun task htask start hstart => ?_⟩
    rw [hfresh task htask] at hstart
    cases hstart
  have hends : ∀ t outcome (s : State), Kept timeout s → (t = .scheduler → Due timeout (.ended outcome) s.trace) →
      (stays timeout).Ends t outcome s := by
    intro t outcome s hi hdue
    cases t with
    | scheduler =>
      refine ⟨⟨hi.record (hdue rfl), ?_⟩, fun _ => rfl⟩
      rintro u hu rfl
      exact absurd rfl hu
    | outside execution => exact ⟨.refl _ hi, nofun⟩
  refine (Rules.reaches_sound (G := stays timeout) (.idle hopen fun _ _ => rfl) ?_ ?_ h).inv
  · intro t s hi hrest _
    cases t with
    | scheduler =>
      refine (schedulerTick_quiet hi (hrest rfl)).conseq hi fun r s hi hpost => ?_
      refine hends .scheduler (some r) s hi fun _ hok => ?_
      exact hpost () (Option.some.inj hok)
    | outside execution =>
      refine Rules.Safe.perform fun s' hi' _ reply _ => ?_
      obtain ⟨hkept, htrace⟩ := change_kept hi' reply.change
      exact ⟨⟨hkept, fun _ _ _ => htrace⟩, hends _ _ _ hkept nofun⟩
  · intro t s hi _
    exact hends t none s hi fun _ => nofun

/-- A wait lasts as long as the configured time from the park that recorded its start, which is of a
task that had none; that park, and no other, tells the owner. -/
theorem waits_bounded (hfresh : ∀ task ∈ tasks, task.waitStart = none)
    (h : Reaches (body timeout) anyMove (.idle (opening tasks)) c) {newer older : List Event} {event : Event}
    (htrace : c.state.trace = newer ++ event :: older) : Due timeout event older := by
  have hclean := (reaches_kept hfresh h).clean
  rw [htrace] at hclean
  exact hclean.split.1

end Runs

def sampleTask : Task where
  id := "t"
  projectId := "p"
  storyId := some "s"
  status := .failed
  currentIteration := 0
  maxIterations := 3
  failureMetadata := none
  createdAt := 0
  updatedAt := none

def refusedRun : EngineeringRun where
  id := "r"
  result := some ⟨.failed, none, some .insufficientFreeMemory, some 768, some 1024⟩
  iteration := some 0

def sampleService (loop : SchedulerLoop) : (call : ServiceCall) → Except Exn call.Res
  | .nextLoop => .ok loop
  | .listRuns _ => .ok [refusedRun]
  | .resourcesAvailable .. => .ok true
  | .clearIteration _ | .transitionStory .. | .createTaskEvent _ | .notifyAdmins .. | .oweNotification .. | .deliverNotification _ =>
    .ok ()

def sampleReply (loop : SchedulerLoop) (now : Time) : Reply where
  now := now
  fate := .served
  addressable := true
  service := sampleService loop
  change := ⟨sampleTask, true⟩

def sampleLoop (loop : SchedulerLoop) (now : Time) : List (Turn resourceWorld) :=
  .start .scheduler :: List.replicate 12 (.call .scheduler fun _ => sampleReply loop now)

def released : Config resourceWorld := (Config.idle (opening [sampleTask])).play (body 60)
  (sampleLoop .superviseFailedTasks 0 ++ sampleLoop .superviseWaitingResourceTasks 30)

def failedAgain : Config resourceWorld := released.play (body 60)
  [.start (.outside 0), .call (.outside 0) fun _ => sampleReply .superviseFailedTasks 40]

def parkedAgain : Config resourceWorld := failedAgain.play (body 60) (sampleLoop .superviseFailedTasks 50)

def expiredAgain : Config resourceWorld := parkedAgain.play (body 60) (sampleLoop .superviseWaitingResourceTasks 60)

theorem again_bounded : Due 60 (.moved "t" .waitingHumanReview (.expires 60 0 true))
    (.read 60 :: .selected .waitingResources parkedAgain.state.tasks :: parkedAgain.state.trace) := by
  have htrace : expiredAgain.state.trace = [.ended (some (.ok ()))] ++
      .moved "t" .waitingHumanReview (.expires 60 0 true) :: .read 60 ::
        .selected .waitingResources parkedAgain.state.tasks :: parkedAgain.state.trace := by
    decide +kernel
  have hfresh : ∀ task ∈ [sampleTask], task.waitStart = none := by decide
  have hreaches : Reaches (body 60) anyMove (.idle (opening [sampleTask])) expiredAgain :=
    ((play_reaches_anyMove ..).trans (play_reaches_anyMove ..)).trans
      ((play_reaches_anyMove ..).trans (play_reaches_anyMove ..))
  exact waits_bounded hfresh hreaches htrace

/-- The second wait is not told of, and is over ten after it began. -/
theorem second_wait_cut_short :
    Reaches (body 60) anyMove (.idle (opening [sampleTask])) released ∧ Reaches (body 60) anyMove released parkedAgain ∧
      Reaches (body 60) anyMove parkedAgain expiredAgain ∧
      released.state.trace.head? = some (.ended (some (.ok ()))) ∧
      .published "t" "task_resources_resumed" ∈ released.state.trace ∧
      parkedAgain.state.trace = [.ended (some (.ok ())), .moved "t" .waitingResources (.parks 0 false), .recorded "t" 0 false,
        .read 50, .selected .failed failedAgain.state.tasks] ++ released.state.trace ∧
      expiredAgain.state.trace = [.ended (some (.ok ())), .moved "t" .waitingHumanReview (.expires 60 0 true), .read 60,
        .selected .waitingResources parkedAgain.state.tasks] ++ parkedAgain.state.trace :=
  ⟨play_reaches_anyMove .., (play_reaches_anyMove ..).trans (play_reaches_anyMove ..), play_reaches_anyMove .., by decide +kernel, by decide +kernel,
    by decide +kernel, by decide +kernel⟩

end Orchestrator.Resources
