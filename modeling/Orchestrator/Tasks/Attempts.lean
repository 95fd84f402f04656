import Orchestrator.Tasks.Steps

/-!
A run that is left open has its message: what the dispatcher adopts as the live
attempt of a task has been published, in every run in which no tick is cut off
between the creation of a run and the publication of its message.
-/

namespace Orchestrator.Tasks

open Async Api Contracts Rules

def Published (trace : List Event) (runId : String) : Prop := ∃ u, .published u runId ∈ trace

def Open (s : State) (runId : String) : Prop :=
  ∃ row, s.store.runs runId = some row ∧ row.type = .member .engineering ∧ row.terminal = false

def Quiet (s : State) : Prop := ∀ r, Open s r → Published s.trace r

def Adopted (trace : List Event) : Prop := ∀ newer older t taskId status r,
  trace = newer ++ .moved t taskId status .inDev (some r) :: older → Published older r

variable {t : Party} {s s' : State} {r : String}

theorem Adopted.cons {e : Event} {trace : List Event} (h : Adopted trace)
    (he : ∀ t taskId status r, e = .moved t taskId status .inDev (some r) → Published trace r) :
    Adopted (e :: trace) := by
  intro newer older t taskId status r heq
  cases newer with
  | nil =>
    cases heq
    exact he t taskId status r rfl
  | cons e' newer =>
    cases heq
    exact h newer older t taskId status r rfl

structure Progress (s s' : State) : Prop where
  opened : ∀ r, Open s' r → Open s r ∨ Published s'.trace r
  trace : ∀ e ∈ s.trace, e ∈ s'.trace

theorem Published.mono {older newer : List Event} (h : Published older r) (hsub : ∀ e ∈ older, e ∈ newer) :
    Published newer r := by
  obtain ⟨u, hu⟩ := h
  exact ⟨u, hsub _ hu⟩

theorem Progress.refl (s : State) : Progress s s := ⟨fun _ h => .inl h, fun _ h => h⟩

theorem Progress.trans {s'' : State} (h : Progress s s') (h' : Progress s' s'') : Progress s s'' := by
  refine ⟨fun r hr => ?_, fun e he => h'.trace e (h.trace e he)⟩
  rcases h'.opened r hr with hopen | hpub
  · rcases h.opened r hopen with hopen | hpub
    · exact .inl hopen
    · exact .inr (hpub.mono h'.trace)
  · exact .inr hpub

theorem Progress.quiet (h : Progress s s') (hq : Quiet s) : Quiet s' := by
  intro r hr
  rcases h.opened r hr with hopen | hpub
  · exact (hq r hopen).mono h.trace
  · exact hpub

theorem progress_of_store (hstore : s'.store = s.store) (htrace : ∀ e ∈ s.trace, e ∈ s'.trace) : Progress s s' := by
  refine ⟨fun r hr => .inl ?_, htrace⟩
  unfold Open at hr ⊢
  rwa [hstore] at hr

variable {update : RunUpdate EngineeringRunResult}

theorem updateRow_progress {runId : String} {now : Time}
    {row row' : EngineeringRun} (hrow : s.store.runs runId = some row)
    (hupdate : updateRow runId update now row = .ok row') :
    Progress s (s.writeUpdate t runId update row') := by
  refine ⟨fun r hr => .inl ?_, writeUpdate_trace⟩
  obtain ⟨found, hfound, htype, hterm⟩ := hr
  rw [writeUpdate_store] at hfound
  by_cases hid : r = runId
  · subst hid
    have hself : (s.store.writeRun r row').runs r = some row' := writeRun_runs_self ..
    cases hself.symm.trans hfound
    have hkeeps := updateRow_keeps hupdate
    refine ⟨row, hrow, hkeeps.evolves.type ▸ htype, ?_⟩
    cases ht : row.terminal with
    | false => rfl
    | true => exact absurd (hkeeps.evolves.terminal ht) (by simp [hterm])
  · exact ⟨found, (writeRun_runs_of_ne _ _ hid).symm.trans hfound, htype, hterm⟩

def Op.benign : Op → Bool
  | .createRun _ => false
  | .spawnWorker _ _ => false
  | .transitionTask _ .inDev (some _) => false
  | _ => true

def Op.creates : Op → Bool
  | .createRun _ => true
  | .spawnWorker _ _ => true
  | _ => false

theorem writeUpdate_adopted {runId : String} {row : EngineeringRun}
    (hi : Adopted s.trace) : Adopted (s.writeUpdate t runId update row).trace := by
  unfold State.writeUpdate State.recordOutcome
  split
  · exact Adopted.cons hi fun _ _ _ _ he => by cases he
  · exact hi

theorem Effect.progress {op : Op} (h : Effect t op s s') (hop : op.creates = false) : Progress s s' := by
  have recorded : ∀ (s : State) (e : Event), ∀ e' ∈ s.trace, e' ∈ (s.record e).trace :=
    fun _ _ _ h => List.mem_cons_of_mem _ h
  cases h with
  | none => exact .refl s
  | assigned => exact progress_of_store rfl fun _ h => h
  | created => cases hop
  | updated hrow hupdate => exact updateRow_progress hrow hupdate
  | spawned | spawnedInto => cases hop
  | outsideTask => exact progress_of_store rfl fun _ h => h
  | outsideRun hrow hupdate => exact updateRow_progress hrow hupdate
  | _ => exact progress_of_store rfl (recorded _ _)

theorem Effect.adopted {op : Op} (h : Effect t op s s') (hop : op.creates = false) (hi : Adopted s.trace)
    (hadopt : ∀ taskId r, op = .transitionTask taskId .inDev (some r) → Published s.trace r) :
    Adopted s'.trace := by
  cases h with
  | selected => exact hi.cons fun _ _ _ _ he => by cases he
  | moved =>
    refine hi.cons fun u taskId' status r he => ?_
    cases he
    exact hadopt _ r rfl
  | created => cases hop
  | updated => exact writeUpdate_adopted hi
  | published | acted => exact hi.cons fun _ _ _ _ he => by cases he
  | spawned | spawnedInto => cases hop
  | outsideRun => exact writeUpdate_adopted hi
  | _ => exact hi

def Reply.answers (op : Op) (reply : Reply) : Prop :=
  match op with
  | .service call => ∃ a, reply.service call = .ok a
  | .outside => True
  | _ => reply.fate = .served

/-- Ticks of the dispatcher, while anybody else changes tasks and runs through the
API but creates no run. The creation of a run is heard of, and from there to the
publication of its message the tick's calls are answered and the process lives;
the publication itself may fail. -/
def uncut (s : State) : Move taskWorld → Prop
  | .start t => t = .scheduler ∨ ∃ n, t = .outside n
  | .stop t => t = .scheduler → Quiet s
  | .call .scheduler (.service .nextLoop) reply =>
      ∀ loop, reply.service .nextLoop = .ok loop → loop = .dispatchTodoTasks
  | .call .scheduler (.createRun _) reply => ∀ e, reply.fate ≠ .unheard e
  | .call .scheduler (.publishMessage _) reply =>
      reply.fate ≠ .unheard .cancelledError ∧ reply.fate ≠ .unsent .cancelledError
  | .call .scheduler op reply => Quiet s ∨ reply.answers op
  | .call _ _ _ => True

def attemptRules : Rules taskWorld where
  admits := uncut
  inv s := Adopted s.trace
  rely t s s' := t = .scheduler → Progress s s'
  rely_refl _ s _ := .refl s
  rely_trans h h' ht := (h ht).trans (h' ht)
  rest t s := t = .scheduler → Quiet s
  rest_stable _ hr hq ht := (hr ht).quiet (hq ht)

theorem scheduler_keeps (h : Adopted s'.trace) : attemptRules.Keeps .scheduler s s' :=
  ⟨h, fun _ hu ht => absurd ht hu⟩

theorem quiet_stable : attemptRules.Stable .scheduler Quiet := fun _ _ _ hr hq => (hr rfl).quiet hq

def QuietAnd (r : String) (s : State) : Prop := Quiet s ∧ Published s.trace r

theorem quietAnd_stable : attemptRules.Stable .scheduler (QuietAnd r) :=
  fun _ _ _ hr h => ⟨(hr rfl).quiet h.1, h.2.mono (hr rfl).trace⟩

theorem benign_leaves {op : Op} (hop : op.benign = true) : attemptRules.Leaves .scheduler Quiet op := by
  have hcreates : op.creates = false := by
    cases op with
    | createRun run | spawnWorker taskId runId => cases hop
    | _ => rfl
  intro s hi hq reply _
  have heff : Effect .scheduler op s (run .scheduler op reply s).2 := run_effect op reply
  refine ⟨scheduler_keeps (heff.adopted hcreates hi fun taskId r he => ?_), (heff.progress hcreates).quiet hq⟩
  subst he
  cases hop

theorem quiet_perform {op : Op} (hop : op.benign = true) :
    attemptRules.Maintains .scheduler Quiet (perform op) :=
  .perform quiet_stable (benign_leaves hop)

theorem ask_maintains {call : ServiceCall} : attemptRules.Maintains .scheduler Quiet (ask call) := quiet_perform rfl

theorem liftExcept_maintains {A : Type} (result : Except Exn A) :
    attemptRules.Maintains .scheduler Quiet (liftExcept result) := by
  cases result with
  | ok a => exact .ret a
  | error e => exact .raise e

variable {taskId : String}

theorem listRuns_maintains : attemptRules.Maintains .scheduler Quiet (listRuns taskId) :=
  .bind (quiet_perform rfl) fun runs => liftExcept_maintains (readRuns runs)

def RowsPublished (answer : Except Exn (List (String × EngineeringRun))) (s : State) : Prop :=
  Quiet s ∧ ∀ rows, answer = .ok rows → ∀ id row, (id, row) ∈ rows → row.terminal = false → Published s.trace id

theorem fetchRuns_safe (hq : Quiet s) :
    attemptRules.Safe .scheduler RowsPublished (fetchRuns taskId) s := by
  refine Safe.perform fun s' hi' hr reply hadm => ?_
  have hquiet := quiet_stable s s' hi' hr hq
  obtain ⟨hkeeps, hquiet'⟩ := benign_leaves rfl s' hi' hquiet reply hadm
  refine ⟨hkeeps, hquiet', fun rows hrows id row hmem hterm => ?_⟩
  have hlisted : rows = s'.listRuns taskId ∧ (run .scheduler (.listRuns taskId) reply s').2 = s' := run_listRuns hrows
  obtain ⟨rfl, hstate⟩ := hlisted
  obtain ⟨hrow, htype, _⟩ := mem_listRuns hmem
  change Published (run .scheduler (.listRuns taskId) reply s').2.trace id
  rw [hstate]
  exact hquiet id ⟨row, hrow, htype, hterm⟩

def LivePublished (answer : Except Exn (List RunDTO)) (s : State) : Prop :=
  Quiet s ∧ ∀ runs, answer = .ok runs → ∀ run ∈ runs, run.live = true → Published s.trace run.id

theorem listRuns_safe (hi : attemptRules.inv s) (hq : Quiet s) :
    attemptRules.Safe .scheduler LivePublished (listRuns taskId) s := by
  refine Safe.bind hi (fetchRuns_safe hq) (fun rows s _ h => ?_) fun e s _ h => ⟨h.1, fun _ he => by cases he⟩
  cases hread : readRuns rows with
  | error e => exact ⟨h.1, fun _ he => by cases he⟩
  | ok runs =>
    refine ⟨h.1, fun runs' heq run hmem hlive => ?_⟩
    cases heq
    obtain ⟨row, hrow, hstatus⟩ := mem_readRuns hread hmem
    refine h.2 rows rfl run.id row hrow ?_
    rw [Run.terminal, hstatus]
    exact RunDTO.live_iff.mp hlive

theorem findUnfinishedRun_safe {task : Task} (hi : attemptRules.inv s) (hq : Quiet s) :
    attemptRules.Safe .scheduler (fun answer s => Quiet s ∧ ∀ run, answer = .ok (some run) → Published s.trace run.id)
      (findUnfinishedRun task) s := by
  refine Safe.bind hi (listRuns_safe hi hq) (fun runs s _ h => ⟨h.1, fun run hrun => ?_⟩)
    fun e s _ h => ⟨h.1, fun _ he => by cases he⟩
  have hfind : runs.find? (·.live) = some run := Except.ok.inj hrun
  exact h.2 runs rfl run (List.mem_of_find?_eq_some hfind) (by simpa using List.find?_some hfind)

def Pending (r : String) (s : State) : Prop := ∀ r', Open s r' → r' = r ∨ Published s.trace r'

theorem Quiet.pending (h : Quiet s) : Pending r s := fun r' hr' => .inr (h r' hr')

theorem Progress.pending (h : Progress s s') (hp : Pending r s) : Pending r s' := by
  intro r' hr'
  rcases h.opened r' hr' with hopen | hpub
  · rcases hp r' hopen with heq | hpub
    · exact .inl heq
    · exact .inr (hpub.mono h.trace)
  · exact .inr hpub

theorem created_pending {run : RunCreate} (hq : Quiet s) : Pending run.id
    ({ s with store := s.store.writeRun run.id run.row, runIds := run.id :: s.runIds }.record (.created t run.id)) := by
  intro r' hr'
  by_cases hid : r' = run.id
  · exact .inl hid
  · obtain ⟨row, hrow, htype, hterm⟩ := hr'
    have hrow' : s.store.runs r' = some row := (writeRun_runs_of_ne _ _ hid).symm.trans hrow
    exact .inr ((hq r' ⟨row, hrow', htype, hterm⟩).mono fun _ h => List.mem_cons_of_mem _ h)

theorem published_quiet (hp : Pending r s) : Quiet (s.record (.published t r)) := by
  intro r' hr'
  rcases hp r' hr' with rfl | hpub
  · exact ⟨t, List.mem_cons_self⟩
  · exact hpub.mono fun _ h => List.mem_cons_of_mem _ h

theorem closed_quiet {status : StatusColumn} {now : Time}
    (hstatus : update.status = some (some status)) (hterm : status.terminal = true) (hp : Pending r s) :
    Quiet (s.updateRun t r update now).2 := by
  have hprogress : Progress s (s.updateRun t r update now).2 := by
    rcases updateRun_cases t r update now s with ⟨e, heq⟩ | ⟨row, row', hrow, hrow', heq⟩
    · rw [heq]
      exact .refl s
    · rw [heq]
      exact updateRow_progress hrow hrow'
  intro r' hr'
  rcases hprogress.pending hp r' hr' with rfl | hpub
  · rcases hprogress.opened r' hr' with ⟨row, hrow, _, hopen⟩ | hpub
    · exfalso
      have hcloses : ∃ row', updateRow r' update now row = .ok row' ∧ row'.terminal = true :=
        updateRow_closes hopen hstatus hterm
      obtain ⟨row', hrow', hclosed⟩ := hcloses
      obtain ⟨found, hfound, _, hfopen⟩ := hr'
      rw [updateRun_eq hrow hrow'] at hfound
      rw [writeUpdate_store] at hfound
      have hself : (s.store.writeRun r' row').runs r' = some row' := writeRun_runs_self ..
      cases hself.symm.trans hfound
      exact absurd hclosed (by simp [hfopen])
    · exact hpub
  · exact hpub

def Created {A : Type} (r : String) (answer : Except Exn A) (s : State) : Prop :=
  match answer with
  | .ok _ => Pending r s
  | .error _ => Quiet s

theorem createRun_safe {run : RunCreate} (hq : Quiet s) :
    attemptRules.Safe .scheduler (Created run.id) (createRun run) s := by
  refine Safe.perform fun s' hi' hr reply hadm => ?_
  have hquiet : Quiet s' := quiet_stable s s' hi' hr hq
  have hheard : ∀ e, reply.fate ≠ .unheard e := hadm
  change attemptRules.Keeps .scheduler s' (reply.fate.serve (State.createRun .scheduler run reply.referenced) s').2 ∧
    Created run.id (reply.fate.serve (State.createRun .scheduler run reply.referenced) s').1
      (reply.fate.serve (State.createRun .scheduler run reply.referenced) s').2
  cases hfate : reply.fate with
  | served =>
    simp only [Fate.serve]
    rcases createRun_cases .scheduler run reply.referenced s' with ⟨e, heq⟩ | ⟨_, heq⟩
    · rw [heq]
      exact ⟨scheduler_keeps hi', hquiet⟩
    · rw [heq]
      exact ⟨scheduler_keeps (hi'.cons fun _ _ _ _ he => by cases he), created_pending hquiet⟩
  | unheard e => exact absurd hfate (hheard e)
  | unsent e => exact ⟨scheduler_keeps hi', hquiet⟩

theorem pending_stable : attemptRules.Stable .scheduler (Pending r) := fun _ _ _ hr hp => (hr rfl).pending hp

theorem recipient_safe {projectId event : String} (hp : Pending r s) :
    attemptRules.Safe .scheduler (Created r) (ask (.resolveProjectRecipient projectId event)) s := by
  refine Safe.perform fun s' hi' hr reply hadm => ?_
  have hpending : Pending r s' := pending_stable s s' hi' hr hp
  refine ⟨scheduler_keeps hi', ?_⟩
  change Created r (reply.service (.resolveProjectRecipient projectId event)) s'
  have hadm' : Quiet s' ∨ ∃ a, reply.service (.resolveProjectRecipient projectId event) = .ok a := hadm
  cases hanswer : reply.service (.resolveProjectRecipient projectId event) with
  | ok a => exact hpending
  | error e =>
    rcases hadm' with hquiet | ⟨a, ha⟩
    · exact hquiet
    · cases hanswer.symm.trans ha

def Sent (r : String) (answer : Except Exn Unit) (s : State) : Prop :=
  match answer with
  | .ok _ => QuietAnd r s
  | .error e => Pending r s ∧ e ≠ .cancelledError

theorem publishMessage_safe {msg : EngineeringMessage} (hp : Pending msg.taskId s) :
    attemptRules.Safe .scheduler (Sent msg.taskId) (publishMessage msg) s := by
  refine Safe.perform fun s' hi' hr reply hadm => ?_
  have hpending : Pending msg.taskId s' := pending_stable s s' hi' hr hp
  have hcaught : reply.fate ≠ .unheard .cancelledError ∧ reply.fate ≠ .unsent .cancelledError := hadm
  have hsent : Adopted (s'.record (.published .scheduler msg.taskId)).trace := hi'.cons fun _ _ _ _ he => by cases he
  change attemptRules.Keeps .scheduler s' (reply.fate.serve (fun s => (Except.ok (), s.record (.published .scheduler msg.taskId))) s').2 ∧
    Sent msg.taskId (reply.fate.serve (fun s => (Except.ok (), s.record (.published .scheduler msg.taskId))) s').1
      (reply.fate.serve (fun s => (Except.ok (), s.record (.published .scheduler msg.taskId))) s').2
  cases hfate : reply.fate with
  | served => exact ⟨scheduler_keeps hsent, published_quiet hpending, .scheduler, List.mem_cons_self⟩
  | unheard e =>
    refine ⟨scheduler_keeps hsent, (published_quiet hpending).pending, fun he => ?_⟩
    exact hcaught.1 (hfate.trans (congrArg Fate.unheard he))
  | unsent e =>
    refine ⟨scheduler_keeps hi', hpending, fun he => ?_⟩
    exact hcaught.2 (hfate.trans (congrArg Fate.unsent he))

theorem closeRun_safe {status : StatusColumn}
    (hstatus : update.status = some (some status)) (hterm : status.terminal = true) (hp : Pending r s) :
    attemptRules.Safe .scheduler (fun _ => Quiet) (updateRun r update) s := by
  refine Safe.perform fun s' hi' hr reply hadm => ?_
  have hpending : Pending r s' := pending_stable s s' hi' hr hp
  have heff : Effect .scheduler (.updateRun r update) s' (run .scheduler (.updateRun r update) reply s').2 :=
    run_effect _ reply
  refine ⟨scheduler_keeps (heff.adopted rfl hi' fun _ _ he => by cases he), ?_⟩
  change Quiet (run .scheduler (.updateRun r update) reply s').2
  have hadm' : Quiet s' ∨ reply.fate = .served := hadm
  rcases hadm' with hquiet | hserved
  · exact (heff.progress rfl).quiet hquiet
  · unfold run
    simp only [hserved, Fate.serve]
    exact closed_quiet hstatus hterm hpending

def HandsOn (answer : Except Exn (Option String)) (s : State) : Prop :=
  Quiet s ∧ ∀ r, answer = .ok (some r) → Published s.trace r

theorem publishOrClose_safe {msg : EngineeringMessage} {task : Task} {initiatingRunId : String}
    (hi : attemptRules.inv s) (hp : Pending msg.taskId s) :
    attemptRules.Safe .scheduler HandsOn (exceptException
      (do publishMessage msg; return some msg.taskId)
      (do updateRun msg.taskId (publishFailedPatch task initiatingRunId); return none)) s := by
  have body : attemptRules.Safe .scheduler (fun answer s => match answer with
      | .ok sent => sent = some msg.taskId ∧ QuietAnd msg.taskId s
      | .error e => Pending msg.taskId s ∧ e ≠ .cancelledError)
      (do publishMessage msg; return some msg.taskId : Job (Option String)) s :=
    Safe.bind hi (publishMessage_safe hp) (fun _ _ _ h => ⟨rfl, h⟩) fun _ _ _ h => h
  refine Safe.handle hi body (fun sent s _ h => ⟨h.2.1, fun r hr => ?_⟩) fun e s hi h => ?_
  · cases (Except.ok.inj hr).symm.trans h.1
    exact h.2.2
  · cases e with
    | cancelledError => exact absurd rfl h.2
    | exception message =>
      exact Safe.bind hi (closeRun_safe rfl rfl h.1) (fun _ _ _ hq => ⟨hq, fun _ hr => by cases hr⟩)
        fun _ _ _ hq => ⟨hq, fun _ hr => by cases hr⟩

theorem createAndPublishRun_safe {task : Task} {description initiatingRunId : String}
    (hi : attemptRules.inv s) (hq : Quiet s) :
    attemptRules.Safe .scheduler HandsOn (createAndPublishRun task description initiatingRunId) s := by
  refine Safe.bind hi (ask_maintains s hi hq) (fun runId s hi hq => ?_) fun e s _ hq => ⟨hq, fun _ hr => by cases hr⟩
  refine Safe.bind hi (createRun_safe hq) (fun _ s hi hp => ?_) fun e s _ hq => ⟨hq, fun _ hr => by cases hr⟩
  refine Safe.bind hi (recipient_safe hp) (fun chat s hi hp => ?_) fun e s _ hq => ⟨hq, fun _ hr => by cases hr⟩
  have publish := @publishOrClose_safe s (dispatchMessage task runId initiatingRunId chat description) task initiatingRunId
  exact publish hi hp

theorem adopt_maintains :
    attemptRules.Maintains .scheduler (QuietAnd r) (transitionTask taskId .inDev (some r)) := by
  refine .perform quietAnd_stable fun s hi hq reply _ => ?_
  have heff : Effect .scheduler (.transitionTask taskId .inDev (some r)) s
      (run .scheduler (.transitionTask taskId .inDev (some r)) reply s).2 := run_effect _ reply
  have hprogress := heff.progress rfl
  refine ⟨scheduler_keeps (heff.adopted rfl hi fun taskId' r' he => ?_), hprogress.quiet hq.1, hq.2.mono hprogress.trace⟩
  cases he
  exact hq.2

theorem transitionToInDev_maintains :
    attemptRules.Maintains .scheduler (QuietAnd r) (transitionToInDev taskId r) := by
  have move : attemptRules.Maintains .scheduler (QuietAnd r)
      (do transitionTask taskId .inDev (some r); return true : Job Bool) := .bind adopt_maintains fun _ => .ret true
  refine .handle move fun e => ?_
  cases e with
  | cancelledError => exact .raise _
  | exception message =>
    refine .handle move fun e => ?_
    cases e with
    | cancelledError => exact .raise _
    | exception message => exact .ret false

theorem transitionThrough_maintains {steps : List TaskStatus}
    (hsteps : ∀ status ∈ steps, status ≠ .inDev) :
    attemptRules.Maintains .scheduler Quiet (transitionThrough taskId (some r) steps) := by
  refine .forEach fun status hmem => quiet_perform ?_
  have hne := hsteps status hmem
  cases status with
  | inDev => exact absurd rfl hne
  | _ => rfl

theorem terminalTaskStatuses_ne (run : RunDTO) : ∀ status ∈ terminalTaskStatuses run, status ≠ .inDev := by
  unfold terminalTaskStatuses
  split
  · decide
  · split <;> decide

theorem handlePriorAttempt_maintains {task : Task} :
    attemptRules.Maintains .scheduler Quiet (handlePriorAttempt task) := by
  intro s hi hq
  refine Safe.bind hi (findUnfinishedRun_safe hi hq) (fun unfinished s hi h => ?_) fun _ _ _ h => h.1
  cases unfinished with
  | some run =>
    exact Safe.bind hi (adopt_maintains s hi ⟨h.1, h.2 run rfl⟩) (fun _ _ _ h => h.1) fun _ _ _ h => h.1
  | none =>
    refine Safe.bind hi ((Maintains.bind listRuns_maintains fun _ => .ret _) s hi h.1) (fun prior s hi hq => ?_)
      fun _ _ _ h => h
    cases prior with
    | none => exact hq
    | some run =>
      have recover : attemptRules.Maintains .scheduler Quiet (recoverDispatchedTask task.id run) :=
        .bind (quiet_perform rfl) fun _ => transitionThrough_maintains (terminalTaskStatuses_ne run)
      exact Safe.bind hi (recover s hi hq) (fun _ _ _ h => h) fun _ _ _ h => h

theorem eventsOf_maintains (siblings : List Task) :
    attemptRules.Maintains .scheduler Quiet (eventsOf taskId siblings) := by
  induction siblings with
  | nil => exact .ret []
  | cons sibling rest ih =>
    unfold eventsOf
    split
    · exact .bind ask_maintains fun events => .bind ih fun others => .ret _
    · exact ih

theorem dispatchFresh_maintains {task : Task} {siblings : List Task} {initiatingRunId : String} :
    attemptRules.Maintains .scheduler Quiet (dispatchFresh task siblings initiatingRunId) := by
  refine .bind (eventsOf_maintains siblings) fun events s hi hq => ?_
  refine Safe.bind hi (createAndPublishRun_safe hi hq) (fun handed s hi h => ?_) fun _ _ _ h => h.1
  cases handed with
  | none => exact h.1
  | some runId =>
    exact (transitionToInDev_maintains s hi ⟨h.1, h.2 runId rfl⟩).conseq hi fun _ _ _ h => h.1

theorem dispatchReady_maintains {task : Task} {initiatingRunId : String} :
    attemptRules.Maintains .scheduler Quiet (dispatchReady task initiatingRunId) := by
  have siblings : attemptRules.Maintains .scheduler Quiet (siblingsOf task) := by
    unfold siblingsOf
    split
    · exact .ret []
    · exact quiet_perform rfl
  refine .bind siblings fun siblings => ?_
  split
  · exact .ret false
  · refine .bind handlePriorAttempt_maintains fun prior => ?_
    cases prior with
    | none => exact dispatchFresh_maintains
    | some prior => exact .ret _

theorem blockerResolved_maintains {task : Task} :
    attemptRules.Maintains .scheduler Quiet (blockerResolved task) := by
  unfold blockerResolved
  split
  · exact .ret true
  · refine .bind (.bind (quiet_perform rfl) fun found => ?_) fun blocker => .ret _
    cases found with
    | none => exact .raise _
    | some blocker => exact .ret blocker

theorem dispatchTask_maintains (task : Task) : attemptRules.Maintains .scheduler Quiet (dispatchTask task) := by
  refine .bind blockerResolved_maintains fun resolved => ?_
  split
  · exact .ret false
  · split
    · exact .ret false
    · refine .bind (.bind ask_maintains fun project => ?_) fun owned => ?_
      · cases project with
        | none => exact .ret none
        | some project => exact .ret _
      · cases owned with
        | none => exact .ret false
        | some owned =>
          dsimp only
          split
          · exact .ret false
          · exact dispatchReady_maintains

theorem eachTask_maintains {A : Type} {body : Task → Job A} (hb : ∀ task, attemptRules.Maintains .scheduler Quiet (body task))
    (tasks : List Task) : attemptRules.Maintains .scheduler Quiet (eachTask body tasks) := by
  induction tasks with
  | nil => exact .ret []
  | cons task rest ih => exact .bind (hb task) fun outcome => .bind ih fun others => .ret _

theorem nextLoop_safe (hq : Quiet s) : attemptRules.Safe .scheduler
    (fun answer s => Quiet s ∧ ∀ loop, answer = .ok loop → loop = SchedulerLoop.dispatchTodoTasks) (ask .nextLoop) s := by
  refine Safe.perform fun s' hi' hr reply hadm => ?_
  have hdispatch : ∀ loop, reply.service .nextLoop = .ok loop → loop = SchedulerLoop.dispatchTodoTasks := hadm
  exact ⟨scheduler_keeps hi', quiet_stable s s' hi' hr hq, hdispatch⟩

theorem schedulerTick_maintains : attemptRules.Maintains .scheduler Quiet schedulerTick := by
  intro s hi hq
  refine Safe.bind hi (nextLoop_safe hq) (fun loop s hi h => ?_) fun _ _ _ h => h.1
  cases h.2 loop rfl
  have tick : attemptRules.Maintains .scheduler Quiet (loopProgram .dispatchTodoTasks) :=
    .bind (.bind (quiet_perform rfl) fun tasks => .bind (eachTask_maintains dispatchTask_maintains tasks) fun _ => .ret _)
      fun _ => .ret ()
  exact tick s hi h.1

theorem ended_ends (hi : attemptRules.inv s) (hq : t = .scheduler → Quiet s)
    (r : Option (Except Exn Unit)) : attemptRules.Ends t r s := by
  have hprogress : Progress s (s.record (.ended t)) := progress_of_store rfl fun _ h => List.mem_cons_of_mem _ h
  have hadopted : Adopted (s.record (.ended t)).trace := Adopted.cons hi fun _ _ _ _ he => by cases he
  exact ⟨⟨hadopted, fun _ _ _ => hprogress⟩, fun ht => hprogress.quiet (hq ht)⟩

theorem body_safe (hi : attemptRules.inv s) (hrest : attemptRules.rest t s)
    (hstart : t = .scheduler ∨ ∃ n, t = .outside n) :
    attemptRules.Safe t (attemptRules.Finishes t) (body t) s := by
  rcases hstart with rfl | ⟨n, rfl⟩
  · exact (schedulerTick_maintains s hi (hrest rfl)).conseq hi fun r s hi hq => ended_ends hi (fun _ => hq) (some r)
  · refine Safe.perform fun s' hi' _ reply _ => ?_
    have heff : Effect (.outside n) .outside s' (run (.outside n) .outside reply s').2 := run_effect _ reply
    have hadopted := heff.adopted rfl hi' fun _ _ he => by cases he
    exact ⟨⟨hadopted, fun _ _ _ => heff.progress rfl⟩, ended_ends hadopted (fun ht => by cases ht) _⟩

def Settled (s : State) : Prop := s.trace = [] ∧ ∀ r, ¬ Open s r

def queuedRow : TaskRow where
  projectId := "p"
  type := .feature
  description := some "add a page"
  status := .todo
  priority := 0
  currentIteration := 0
  maxIterations := 3
  storyId := none
  blockedByTaskId := none
  failureMetadata := none

def oneQueued : State where
  tasks := fun id => if id = "t" then some queuedRow else none
  taskIds := ["t"]
  store := ⟨fun _ => none, fun _ => none⟩
  runIds := []
  trace := []

def readyProject (recipient : Except Exn String) : (call : ServiceCall) → Except Exn call.Res
  | .nextLoop => .ok SchedulerLoop.dispatchTodoTasks
  | .newRunId => .ok ("r" : String)
  | .getProject _ => .ok (some ⟨.active, some "initiating", true⟩ : Option Project)
  | .resolveProjectRecipient _ _ => recipient
  | _ => .error (.exception "unavailable")

def dispatcherCall (recipient : Except Exn String) : Turn taskWorld :=
  .call .scheduler fun _ => ⟨0, .served, true, readyProject recipient, .updateRun "" .empty⟩

def ticks (recipient : Except Exn String) (calls : Nat) : List (Turn taskWorld) :=
  .start .scheduler :: List.replicate calls (dispatcherCall recipient)

theorem oneQueued_settled : Settled oneQueued := by
  refine ⟨rfl, ?_⟩
  rintro r ⟨row, hrow, _⟩
  cases hrow

/-- In every run in which no tick is cut off between the creation of a run and
its message, whatever run a task is taken into development for had its message
published before, and between two ticks every unfinished run has. -/
theorem adopted_published (s : State) (hs : Settled s) (c : Config taskWorld)
    (h : Reaches body uncut (.idle s) c) :
    (∀ newer older t taskId status r, c.state.trace = newer ++ .moved t taskId status .inDev (some r) :: older →
      Published older r) ∧ (c.task .scheduler = none → ∀ r, Open c.state r → Published c.state.trace r) := by
  have hadopted : Adopted s.trace := by
    intro newer older t taskId status r heq
    rw [hs.1] at heq
    cases newer <;> cases heq
  have hsound : attemptRules.Sound c := by
    refine reaches_sound (G := attemptRules) (.idle hadopted fun _ _ r hr => absurd hr (hs.2 r))
      (fun t s hi hrest hok => body_safe hi hrest hok) (fun t s hi hok => ended_ends hi hok none) h
  exact ⟨hsound.inv, fun hidle => hsound.rest .scheduler hidle rfl⟩

theorem adopted_published_dispatched :
    Published (((Config.idle oneQueued : Config taskWorld).play body (ticks (.ok "42") 10)).state.trace.drop 2) "r" := by
  have hrun : (Config.idle oneQueued : Config taskWorld).Admitted body uncut (ticks (.ok "42") 10) := by
    refine ⟨.inl rfl, ?_, ?_, ?_, ?_, ?_, ?_, ?_, ?_, ?_, ?_, trivial⟩
    · rintro w ⟨⟩ loop ⟨⟩
      rfl
    · rintro w ⟨⟩
      exact .inr rfl
    · rintro w ⟨⟩
      exact .inr ⟨_, rfl⟩
    · rintro w ⟨⟩
      exact .inr rfl
    · rintro w ⟨⟩
      exact .inr rfl
    · rintro w ⟨⟩
      exact .inr ⟨_, rfl⟩
    · rintro w ⟨⟩ e ⟨⟩
    · rintro w ⟨⟩
      exact .inr ⟨_, rfl⟩
    · rintro w ⟨⟩
      exact ⟨nofun, nofun⟩
    · rintro w ⟨⟩
      exact .inr rfl
  exact (adopted_published oneQueued oneQueued_settled _ (play_reaches hrun)).1 [.ended .scheduler] _ .scheduler "t"
    .todo "r" (by rfl)

/-- The owner cannot be resolved after the run was created: the tick fails, and the
next one adopts a run that no message was ever published for. -/
theorem adopted_unpublished : ∃ c : Config taskWorld, Reaches body anyMove (.idle oneQueued) c ∧
    c.state.trace = [.ended .scheduler, .moved .scheduler "t" .todo .inDev (some "r"),
      .selected .scheduler ["t"], .ended .scheduler, .created .scheduler "r", .selected .scheduler ["t"]] ∧
    Open c.state "r" ∧ ¬ Published c.state.trace "r" := by
  refine ⟨_, play_reaches_anyMove body (.idle oneQueued)
    (ticks (.error (.exception "unavailable")) 8 ++ ticks (.error (.exception "unavailable")) 5),
    by rfl, ⟨_, rfl, rfl, rfl⟩, ?_⟩
  rintro ⟨u, hu⟩
  change Event.published u "r" ∈ [Event.ended .scheduler, .moved .scheduler "t" .todo .inDev (some "r"),
    .selected .scheduler ["t"], .ended .scheduler, .created .scheduler "r", .selected .scheduler ["t"]] at hu
  simp at hu

end Orchestrator.Tasks
