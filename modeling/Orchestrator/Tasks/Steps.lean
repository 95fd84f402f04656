import Orchestrator.Tasks.Engineering
import Orchestrator.Api.RunOutcome

/-!
What one call can do to the state.
-/

namespace Orchestrator.Tasks

open Async Api Contracts

variable {t : Party} {s : State}

theorem serve_of {A : Type} {P : State → Prop} {fate : Fate Exn} {exec : State → Except Exn A × State}
    (h : P s) (hexec : P (exec s).2) : P (fate.serve exec s).2 := by
  cases fate with
  | unsent e => exact h
  | _ => exact hexec

theorem transitionTask_cases (t : Party) (taskId : String) (toStatus : TaskStatus) (account : Option String)
    (s : State) :
    (∃ e, s.transitionTask t taskId toStatus account = (.error e, s)) ∨
    ∃ row : TaskRow, s.tasks taskId = some row ∧ toStatus ∈ validTransitions row.status ∧
      s.transitionTask t taskId toStatus account = (.ok (), (s.writeTask taskId { row with status := toStatus }).record
        (.moved t taskId row.status toStatus account)) := by
  unfold State.transitionTask
  cases s.tasks taskId with
  | none => exact .inl ⟨_, rfl⟩
  | some row =>
    by_cases hmem : (validTransitions row.status).contains toStatus = true
    · simp only [hmem, if_true]
      exact .inr ⟨row, rfl, List.contains_iff_mem.mp hmem, rfl⟩
    · simp only [hmem]
      exact .inl ⟨_, rfl⟩

theorem updateTask_cases (taskId : String) (update : TaskUpdate) (s : State) :
    (∃ e, State.updateTask taskId update s = (.error e, s)) ∨
    ∃ row : TaskRow, s.tasks taskId = some row ∧
      State.updateTask taskId update s = (.ok (), s.writeTask taskId (update.assign row)) := by
  unfold State.updateTask
  cases s.tasks taskId with
  | none => exact .inl ⟨_, rfl⟩
  | some row => exact .inr ⟨row, rfl, rfl⟩

theorem taskAction_cases (t : Party) (taskId : String) (action : TaskAction) (s : State) :
    (∃ e, s.taskAction t taskId action = (.error e, s)) ∨
    ∃ (row : TaskRow) (status : TaskStatus), s.tasks taskId = some row ∧ action.target row.status = some status ∧
      s.taskAction t taskId action = (.ok (), (s.writeTask taskId { row with status := status }).record
        (.moved t taskId row.status status none)) := by
  unfold State.taskAction
  cases s.tasks taskId with
  | none => exact .inl ⟨_, rfl⟩
  | some row =>
    cases htarget : action.target row.status with
    | none =>
      simp only [htarget]
      exact .inl ⟨_, rfl⟩
    | some status =>
      simp only [htarget]
      exact .inr ⟨row, status, rfl, htarget, rfl⟩

theorem createRun_cases (t : Party) (run : RunCreate) (referenced : Bool) (s : State) :
    (∃ e, s.createRun t run referenced = (.error e, s)) ∨
    (s.store.runs run.id = none ∧ s.createRun t run referenced = (.ok (),
      { s with store := s.store.writeRun run.id run.row, runIds := run.id :: s.runIds }.record (.created t run.id))) := by
  unfold State.createRun
  cases hcreate : Api.createRun s.store run (fun _ => true) referenced with
  | error e => exact .inl ⟨_, rfl⟩
  | ok result =>
    unfold Api.createRun at hcreate
    split at hcreate
    · cases hcreate
    · split at hcreate
      · rename_i hfree
        cases hcreate
        exact .inr ⟨Option.isNone_iff_eq_none.mp ((Bool.and_eq_true ..).mp hfree).2, rfl⟩
      · cases hcreate

variable {update : RunUpdate EngineeringRunResult}

variable {runId : String}

theorem updateRun_ok {store store' : Store EngineeringRunResult}
    {now : Time} {row' : EngineeringRun}
    (h : Api.updateRun store runId update (.ok none) now = .ok (row', store')) :
    ∃ row, store.runs runId = some row ∧ updateRow runId update now row = .ok row' ∧
      store' = store.writeRun runId row' := by
  obtain ⟨row, hrow, h⟩ := bind_ok h
  obtain ⟨actor, hactor, h⟩ := bind_ok h
  cases hactor
  obtain ⟨row'', hrow', h⟩ := bind_ok h
  cases h
  exact ⟨row, lockRun_ok hrow, hrow', rfl⟩

def State.writeUpdate (s : State) (t : Party) (runId : String) (update : RunUpdate EngineeringRunResult)
    (row : EngineeringRun) : State := { s with store := s.store.writeRun runId row }.recordOutcome t runId update

theorem updateRun_cases (t : Party) (runId : String) (update : RunUpdate EngineeringRunResult) (now : Time) (s : State) :
    (∃ e, s.updateRun t runId update now = (.error e, s)) ∨
    ∃ row row', s.store.runs runId = some row ∧ updateRow runId update now row = .ok row' ∧
      s.updateRun t runId update now = (.ok (), s.writeUpdate t runId update row') := by
  unfold State.updateRun
  cases hupdate : Api.updateRun s.store runId update (.ok none) now with
  | error e => exact .inl ⟨_, rfl⟩
  | ok result =>
    obtain ⟨row', store'⟩ := result
    obtain ⟨row, hrow, hrow', rfl⟩ := updateRun_ok hupdate
    exact .inr ⟨row, row', hrow, hrow', rfl⟩

theorem updateRun_eq {now : Time} {row row' : EngineeringRun}
    (hrow : s.store.runs runId = some row) (hupdate : updateRow runId update now row = .ok row') :
    s.updateRun t runId update now = (.ok (), s.writeUpdate t runId update row') := by
  have hserved : Api.updateRun s.store runId update (.ok none) now = .ok (row', s.store.writeRun runId row') := by
    unfold Api.updateRun lockRun
    rw [hrow]
    simp only [bind, Except.bind, Option.any_none, hupdate]
    rfl
  unfold State.updateRun
  rw [hserved]
  rfl

theorem spawnWorker_cases (t : Party) (taskId runId : String) (referenced : Bool) (s : State) :
    (∃ e, s.spawnWorker t taskId runId referenced = (.error e, s)) ∨
    ∃ (row : TaskRow) (created : State), s.tasks taskId = some row ∧
      s.createRun t (spawnedRun ⟨row, taskId⟩ runId) referenced = (.ok (), created) ∧
      ((row.status = .inDev ∧ s.spawnWorker t taskId runId referenced = (.ok ⟨row, taskId⟩, created)) ∨
      ((row.status = .backlog ∨ row.status = .todo) ∧ s.spawnWorker t taskId runId referenced =
        (.ok ⟨{ row with status := .inDev }, taskId⟩, (created.writeTask taskId { row with status := .inDev }).record
          (.moved t taskId row.status .inDev (some runId))))) := by
  unfold State.spawnWorker
  cases s.tasks taskId with
  | none => exact .inl ⟨_, rfl⟩
  | some row =>
    dsimp only
    have hcreate := createRun_cases t (spawnedRun ⟨row, taskId⟩ runId) referenced s
    generalize hc : s.createRun t (spawnedRun ⟨row, taskId⟩ runId) referenced = result at hcreate ⊢
    by_cases hdev : row.status = .inDev
    · rw [if_pos hdev]
      rcases hcreate with ⟨e, rfl⟩ | ⟨_, rfl⟩
      · exact .inl ⟨_, rfl⟩
      · exact .inr ⟨row, _, rfl, hc, .inl ⟨hdev, rfl⟩⟩
    · rw [if_neg hdev]
      by_cases hstart : (row.status = .backlog || row.status = .todo) = true
      · rw [if_pos hstart]
        rcases hcreate with ⟨e, rfl⟩ | ⟨_, rfl⟩
        · exact .inl ⟨_, rfl⟩
        · refine .inr ⟨row, _, rfl, hc, .inr ⟨?_, rfl⟩⟩
          simpa using hstart
      · rw [if_neg hstart]
        exact .inl ⟨_, rfl⟩

variable {row : EngineeringRun}

theorem writeUpdate_store :
    (s.writeUpdate t runId update row).store = s.store.writeRun runId row := by
  unfold State.writeUpdate State.recordOutcome
  split <;> rfl

theorem writeUpdate_trace :
    ∀ e ∈ s.trace, e ∈ (s.writeUpdate t runId update row).trace := by
  intro e he
  unfold State.writeUpdate State.recordOutcome
  split
  · exact List.mem_cons_of_mem _ he
  · exact he

inductive Effect (t : Party) : Op → State → State → Prop
  | none {op : Op} (s : State) : Effect t op s s
  | selected {status : TaskStatus} (s : State) :
      Effect t (.getTasksByStatus status) s
        (s.record (.selected t ((s.allTasks.filter (·.status = status)).map (·.id))))
  | moved {taskId : String} {toStatus : TaskStatus} {account : Option String} {s : State} {row : TaskRow}
      (hrow : s.tasks taskId = some row) (hvalid : toStatus ∈ validTransitions row.status) :
      Effect t (.transitionTask taskId toStatus account) s ((s.writeTask taskId { row with status := toStatus }).record
        (.moved t taskId row.status toStatus account))
  | assigned {taskId : String} {update : TaskUpdate} {s : State} {row : TaskRow} (hrow : s.tasks taskId = some row) :
      Effect t (.updateTask taskId update) s (s.writeTask taskId (update.assign row))
  | created {run : RunCreate} {s : State} (hfree : s.store.runs run.id = Option.none) :
      Effect t (.createRun run) s
        ({ s with store := s.store.writeRun run.id run.row, runIds := run.id :: s.runIds }.record (.created t run.id))
  | updated {runId : String} {update : RunUpdate EngineeringRunResult} {now : Time} {s : State} {row row' : EngineeringRun}
      (hrow : s.store.runs runId = some row) (hupdate : updateRow runId update now row = .ok row') :
      Effect t (.updateRun runId update) s (s.writeUpdate t runId update row')
  | published {msg : EngineeringMessage} (s : State) :
      Effect t (.publishMessage msg) s (s.record (.published t msg.taskId))
  | acted {taskId : String} {action : TaskAction} {s : State} {row : TaskRow} {status : TaskStatus}
      (hrow : s.tasks taskId = some row) (htarget : action.target row.status = some status) :
      Effect t (.taskAction taskId action) s ((s.writeTask taskId { row with status := status }).record
        (.moved t taskId row.status status Option.none))
  | spawned {taskId runId : String} {s : State} {row : TaskRow} (hrow : s.tasks taskId = some row)
      (hfree : s.store.runs runId = Option.none) (hdev : row.status = .inDev) :
      Effect t (.spawnWorker taskId runId) s
        ({ s with store := s.store.writeRun runId (spawnedRun ⟨row, taskId⟩ runId).row, runIds := runId :: s.runIds }.record
          (.created t runId))
  | spawnedInto {taskId runId : String} {s : State} {row : TaskRow} (hrow : s.tasks taskId = some row)
      (hfree : s.store.runs runId = Option.none) (hstart : row.status = .backlog ∨ row.status = .todo) :
      Effect t (.spawnWorker taskId runId) s
        (((({ s with store := s.store.writeRun runId (spawnedRun ⟨row, taskId⟩ runId).row, runIds := runId :: s.runIds } :
          State).record (.created t runId)).writeTask taskId { row with status := .inDev }).record
          (.moved t taskId row.status .inDev (some runId)))
  | outsideTask {taskId : String} {row : TaskRow} (s : State) : Effect t .outside s (s.writeTask taskId row)
  | outsideRun {runId : String} {update : RunUpdate EngineeringRunResult} {now : Time} {s : State}
      {row row' : EngineeringRun} (hrow : s.store.runs runId = some row)
      (hupdate : updateRow runId update now row = .ok row') :
      Effect t .outside s (s.writeUpdate t runId update row')

theorem run_effect (op : Op) (reply : Reply) : Effect t op s (run t op reply s).2 := by
  cases op with
  | service call => exact .none s
  | getTasksByStatus status => exact serve_of (.none s) (.selected s)
  | transitionTask taskId toStatus account =>
    refine serve_of (.none s) ?_
    rcases transitionTask_cases t taskId toStatus account s with ⟨e, heq⟩ | ⟨row, hrow, hvalid, heq⟩
    · rw [heq]
      exact .none s
    · rw [heq]
      exact .moved hrow hvalid
  | updateTask taskId update =>
    refine serve_of (.none s) ?_
    rcases updateTask_cases taskId update s with ⟨e, heq⟩ | ⟨row, hrow, heq⟩
    · rw [heq]
      exact .none s
    · rw [heq]
      exact .assigned hrow
  | createRun run =>
    refine serve_of (.none s) ?_
    rcases createRun_cases t run reply.referenced s with ⟨e, heq⟩ | ⟨hfree, heq⟩
    · rw [heq]
      exact .none s
    · rw [heq]
      exact .created hfree
  | updateRun runId update =>
    refine serve_of (.none s) ?_
    rcases updateRun_cases t runId update reply.now s with ⟨e, heq⟩ | ⟨row, row', hrow, hrow', heq⟩
    · rw [heq]
      exact .none s
    · rw [heq]
      exact .updated hrow hrow'
  | publishMessage msg => exact serve_of (.none s) (.published s)
  | taskAction taskId action =>
    refine serve_of (.none s) ?_
    rcases taskAction_cases t taskId action s with ⟨e, heq⟩ | ⟨row, status, hrow, htarget, heq⟩
    · rw [heq]
      exact .none s
    · rw [heq]
      exact .acted hrow htarget
  | spawnWorker taskId runId =>
    refine serve_of (.none s) ?_
    rcases spawnWorker_cases t taskId runId reply.referenced s with ⟨e, heq⟩ | ⟨row, created, hrow, hcreated, hcase⟩
    · rw [heq]
      exact .none s
    · rcases createRun_cases t (spawnedRun ⟨row, taskId⟩ runId) reply.referenced s with ⟨e, hc⟩ | ⟨hfree, hc⟩
      · cases hcreated.symm.trans hc
      · cases hcreated.symm.trans hc
        rcases hcase with ⟨hdev, heq⟩ | ⟨hstart, heq⟩
        · rw [heq]
          exact .spawned hrow hfree hdev
        · rw [heq]
          exact .spawnedInto hrow hfree hstart
  | outside =>
    unfold run
    cases reply.change with
    | writeTask taskId row => exact .outsideTask s
    | updateRun runId update =>
      rcases updateRun_cases t runId update reply.now s with ⟨e, heq⟩ | ⟨row, row', hrow, hrow', heq⟩
      · dsimp only
        rw [heq]
        exact .none s
      · dsimp only
        rw [heq]
        exact .outsideRun hrow hrow'
  | _ => exact serve_of (.none s) (.none s)

theorem run_listRuns {taskId : String} {reply : Reply} {rows : List (String × EngineeringRun)}
    (h : (run t (.listRuns taskId) reply s).1 = .ok rows) :
    rows = s.listRuns taskId ∧ (run t (.listRuns taskId) reply s).2 = s := by
  unfold run at h ⊢
  dsimp only at h ⊢
  cases hfate : reply.fate with
  | served =>
    rw [hfate] at h
    exact ⟨(Except.ok.inj h).symm, rfl⟩
  | unheard e =>
    rw [hfate] at h
    cases h
  | unsent e =>
    rw [hfate] at h
    cases h

theorem mem_listRuns {taskId id : String} (h : (id, row) ∈ s.listRuns taskId) :
    s.store.runs id = some row ∧ row.type = .member .engineering ∧ row.taskId = some taskId := by
  obtain ⟨id', _, hid⟩ := List.mem_filterMap.mp h
  obtain ⟨row', hrow, hsome⟩ := Option.bind_eq_some_iff.mp hid
  by_cases hmatch : (row'.taskId = some taskId && row'.type == .member .engineering) = true
  · rw [if_pos hmatch] at hsome
    cases hsome
    obtain ⟨htask, htype⟩ := (Bool.and_eq_true ..).mp hmatch
    exact ⟨hrow, beq_iff_eq.mp htype, of_decide_eq_true htask⟩
  · rw [if_neg hmatch] at hsome
    cases hsome

theorem mem_readRuns {rows : List (String × EngineeringRun)} {runs : List RunDTO} {run : RunDTO}
    (h : readRuns rows = .ok runs) (hmem : run ∈ runs) :
    ∃ row, (run.id, row) ∈ rows ∧ row.status = .member run.status := by
  induction rows generalizing runs with
  | nil =>
    cases h
    cases hmem
  | cons head rest ih =>
    obtain ⟨id, row⟩ := head
    obtain ⟨status, hstatus, h⟩ := bind_ok h
    obtain ⟨others, hothers, h⟩ := bind_ok h
    cases h
    rcases List.mem_cons.mp hmem with rfl | hmem
    · refine ⟨row, List.mem_cons_self, ?_⟩
      unfold runDTO at hstatus
      split at hstatus
      · cases hstatus
      · rename_i column heq
        split at hstatus
        · cases hstatus
        · cases hstatus
          exact heq
    · obtain ⟨row', hrow', heq⟩ := ih hothers hmem
      exact ⟨row', List.mem_cons_of_mem _ hrow', heq⟩

theorem RunDTO.live_iff {run : RunDTO} : run.live = true ↔ run.status.terminal = false := by
  unfold RunDTO.live
  cases run.status <;> decide

end Orchestrator.Tasks
