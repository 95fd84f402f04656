import Orchestrator.Pipeline.Refusals

/-!
The repair loop of QA: what a failed run comes to is decided by the fix tasks
the story already has, of which nothing but their failure metadata tells.
-/

namespace Orchestrator.Pipeline

open Async Contracts Async.Rules

def fixOf (storyId : String) : Event → Option QaEvidence
  | .created task => if task.storyId = some storyId then task.failureMetadata.bind (·.qaFailure) else none
  | _ => none

def fixesOf (storyId : String) : List Event → List QaEvidence
  | [] => []
  | e :: trace => fixesOf storyId trace ++ (fixOf storyId e).toList

/-- Each failed run has one fix task at most, the limits are kept, and no story is
taken back to work but on account of a run that has its fix task. -/
structure Repairs (config : QaConfig) (s : State) : Prop where
  kept : ∀ storyId, (fixesOf storyId s.trace).Sublist (priorQa s storyId)
  once : ∀ storyId, ((fixesOf storyId s.trace).map (·.qaRunId)).Nodup
  bounded : ∀ storyId, (fixesOf storyId s.trace).length ≤ config.fixLimit
  alike : ∀ storyId fingerprint,
    ((fixesOf storyId s.trace).filter (·.fingerprint = fingerprint)).length ≤ config.failureLimit
  restarted : ∀ storyId fromStatus runId, .moved storyId fromStatus .inProgress (some runId) ∈ s.trace →
    ∃ evidence ∈ priorQa s storyId, evidence.qaRunId = runId

def Retains (old new : Task) : Prop :=
  qaFailureMetadata old = none ∨ qaFailureMetadata new = qaFailureMetadata old ∧ new.storyId = old.storyId

instance (old new : Task) : Decidable (Retains old new) := inferInstanceAs (Decidable (_ ∨ _))

def OutsideChange.retains (s : State) : OutsideChange → Prop
  | .writeTask task => ∀ row ∈ s.tasks, row.id = task.id → Retains row task
  | .workerGaveUp taskId _ => ∀ row ∈ s.tasks, row.id = taskId → qaFailureMetadata row = none
  | _ => True

instance (s : State) : (change : OutsideChange) → Decidable (change.retains s)
  | .writeTask task => inferInstanceAs (Decidable (∀ row ∈ s.tasks, row.id = task.id → Retains row task))
  | .workerGaveUp taskId _ =>
    inferInstanceAs (Decidable (∀ row ∈ s.tasks, row.id = taskId → qaFailureMetadata row = none))
  | .writeStory _ => .isTrue trivial
  | .addStory _ => .isTrue trivial
  | .addTask _ => .isTrue trivial
  | .addRun _ => .isTrue trivial
  | .writeRun _ => .isTrue trivial

def evidenceKept : State → Move pipelineWorld → Prop
  | s, .call _ .outside reply => reply.change.retains s
  | _, _ => True

instance (s : State) (m : Move pipelineWorld) : Decidable (evidenceKept s m) := by
  rcases m with _ | ⟨_, ⟨⟩, reply⟩ | _ <;> dsimp only [evidenceKept] <;> infer_instance

section Rows

variable {s : State} {storyId : String}

theorem priorQa_map_sublist (rows : List Task) (f : Task → Task) (hf : ∀ row ∈ rows, Retains row (f row)) :
    ((rows.filter (·.storyId = some storyId)).filterMap qaFailureMetadata).Sublist
      (((rows.map f).filter (·.storyId = some storyId)).filterMap qaFailureMetadata) := by
  induction rows with
  | nil => exact .refl _
  | cons row rest ih =>
    have hrest := ih fun row hrow => hf row (List.mem_cons_of_mem _ hrow)
    have hgrow : (((rest.map f).filter (·.storyId = some storyId)).filterMap qaFailureMetadata).Sublist
        ((((row :: rest).map f).filter (·.storyId = some storyId)).filterMap qaFailureMetadata) := by
      rw [List.map_cons]
      exact ((List.sublist_cons_self _ _).filter _).filterMap _
    rcases hf row List.mem_cons_self with hnone | ⟨hsame, hstory⟩
    · refine .trans ?_ hgrow
      by_cases hid : row.storyId = some storyId
      · simpa [hid, hnone] using hrest
      · simpa [hid] using hrest
    · by_cases hid : row.storyId = some storyId
      · cases hmeta : qaFailureMetadata row with
        | none | some evidence => simpa [hid, hmeta, hstory, hsame] using hrest
      · simpa [hid, hstory] using hrest

theorem priorQa_map_status {taskId : String} {toStatus : TaskStatus} (rows : List Task) :
    (((rows.map fun row => if row.id = taskId then { row with status := toStatus } else row).filter
      (·.storyId = some storyId)).filterMap qaFailureMetadata) =
        (rows.filter (·.storyId = some storyId)).filterMap qaFailureMetadata := by
  have hmeta (row : Task) : qaFailureMetadata (if row.id = taskId then { row with status := toStatus } else row) =
      qaFailureMetadata row := by split <;> rfl
  have hstory (row : Task) : (if row.id = taskId then { row with status := toStatus } else row).storyId = row.storyId := by
    split <;> rfl
  simp only [List.filter_map, List.filterMap_map, Function.comp_def, hmeta, hstory]

theorem retains_sublist {change : OutsideChange} (h : change.retains s) (storyId : String) :
    (priorQa s storyId).Sublist (priorQa (change.apply s) storyId) := by
  cases change with
  | writeTask task =>
    refine priorQa_map_sublist s.tasks _ fun row hrow => ?_
    split
    · next hid => exact h row hrow hid
    · exact .inr ⟨rfl, rfl⟩
  | workerGaveUp taskId reason =>
    refine priorQa_map_sublist s.tasks _ fun row hrow => ?_
    split
    · next hid => exact .inl (h row hrow hid)
    · exact .inr ⟨rfl, rfl⟩
  | addTask task =>
    have hgrow : s.tasks.Sublist (s.tasks ++ [task]) := List.sublist_append_left _ _
    exact (hgrow.filter _).filterMap _
  | addRun run =>
    have hprior : priorQa ((OutsideChange.addRun run).apply s) storyId = priorQa s storyId := by
      unfold priorQa State.tasksOf
      rw [addRun_tasks]
    exact hprior ▸ .refl _
  | _ => exact .refl _

end Rows

structure Harmless (s s' : State) : Prop where
  prior : ∀ storyId, priorQa s' storyId = priorQa s storyId
  fixes : ∀ storyId, fixesOf storyId s'.trace = fixesOf storyId s.trace
  moves : ∀ storyId fromStatus runId, .moved storyId fromStatus .inProgress (some runId) ∈ s'.trace →
    .moved storyId fromStatus .inProgress (some runId) ∈ s.trace

def Op.plain : Op → Bool
  | .createTask _ => false
  | .transitionStory _ .start (some _) => false
  | .outside => false
  | _ => true

section Steps

variable {config : QaConfig} {s s' : State} {storyId : String} {reply : Reply}

theorem Harmless.refl (s : State) : Harmless s s := ⟨fun _ => rfl, fun _ => rfl, fun _ _ _ h => h⟩

theorem Harmless.of_tasks (htasks : s'.tasks = s.tasks) (htrace : s'.trace = s.trace) : Harmless s s' := by
  refine ⟨fun storyId => ?_, fun storyId => by rw [htrace], fun _ _ _ h => htrace ▸ h⟩
  unfold priorQa State.tasksOf
  rw [htasks]

theorem Harmless.of_event (e : Event) (htasks : s'.tasks = s.tasks) (htrace : s'.trace = e :: s.trace)
    (hfix : ∀ storyId, fixOf storyId e = none)
    (hmove : ∀ storyId fromStatus runId, e ≠ .moved storyId fromStatus .inProgress (some runId)) : Harmless s s' := by
  refine ⟨fun storyId => ?_, fun storyId => ?_, fun storyId fromStatus runId hmem => ?_⟩
  · unfold priorQa State.tasksOf
    rw [htasks]
  · rw [htrace, fixesOf, hfix]
    exact List.append_nil _
  · rw [htrace] at hmem
    rcases List.mem_cons.mp hmem with heq | hmem
    · exact absurd heq.symm (hmove storyId fromStatus runId)
    · exact hmem

theorem run_harmless (t : Party) {op : Op} (hop : op.plain = true) : Harmless s (run t op reply s).2 := by
  have hother : op ≠ .outside := by
    rintro rfl
    cases hop
  have heffect := run_effect t hother reply s
  generalize (run t op reply s).2 = s' at heffect ⊢
  cases heffect with
  | kept => exact .refl s
  | @moved action account story =>
    refine .of_event (.moved story.id story.status action.target account) rfl rfl (fun _ => rfl)
      fun storyId fromStatus runId heq => ?_
    cases action with
    | start =>
      cases account with
      | none => cases heq
      | some _ => cases hop
    | _ => cases heq
  | noted => exact .of_tasks rfl rfl
  | created => cases hop
  | turned => exact ⟨fun storyId => priorQa_map_status s.tasks, fun _ => rfl, fun _ _ _ h => h⟩
  | _ => exact .of_event _ rfl rfl (fun _ => rfl) fun _ _ _ h => by cases h

theorem Harmless.repairs (h : Harmless s s') (hi : Repairs config s) : Repairs config s' := by
  refine ⟨fun storyId => ?_, fun storyId => ?_, fun storyId => ?_, fun storyId fingerprint => ?_,
    fun storyId fromStatus runId hmem => ?_⟩
  · rw [h.fixes, h.prior]
    exact hi.kept storyId
  · rw [h.fixes]
    exact hi.once storyId
  · rw [h.fixes]
    exact hi.bounded storyId
  · rw [h.fixes]
    exact hi.alike storyId fingerprint
  · rw [h.prior]
    exact hi.restarted _ _ _ (h.moves _ _ _ hmem)

end Steps

def Op.notice : Op → Bool
  | .service _ | .getStory _ | .writeRecord .. | .publishFlat .. => true
  | _ => false

abbrev Noticing {A : Type} (p : Job A) : Prop := Prog.Uses (fun op : Op => op.notice = true) p

abbrev Plain {A : Type} (p : Job A) : Prop := Prog.Uses (fun op : Op => op.plain = true) p

section Plain

variable {A : Type}

theorem plain_request {op : Op} (h : op.plain = true) : Plain (perform op) := .perform h

theorem noticing_request {op : Op} (h : op.notice = true) : Noticing (perform op) := .perform h

theorem plain_of_notice {op : Op} (h : op.notice = true) : op.plain = true := by
  cases op with
  | transitionStory | createTask | outside => cases h
  | _ => rfl

theorem noticing_caught {p : Job A} (hp : Noticing p) : Noticing (caught p) := by
  refine .bind (Prog.Uses.attempt (.bind hp fun _ => trivial)) fun r => ?_
  match r with
  | .ok a => trivial
  | .error .cancelledError => trivial
  | .error (.exception type) => trivial

theorem noticing_owe (run : Run) (ending : Ending) : Noticing (oweOwnerNotification run ending) := by
  unfold oweOwnerNotification
  split
  · trivial
  · exact .bind (noticing_request rfl) fun _ => .bind (noticing_request rfl) fun _ => trivial

theorem noticing_spendFailedAttempt (runId : String) (record : OwnerNotification) (attempts : Nat) (error : String) :
    Noticing (spendFailedAttempt runId record attempts error) := by
  unfold spendFailedAttempt
  split
  · exact .bind (.bind (noticing_request rfl) fun _ => noticing_request rfl) fun _ => trivial
  · exact .bind (noticing_request rfl) fun _ => trivial

theorem noticing_publishRecord (runId : String) (record : OwnerNotification) (attempts : Nat) :
    Noticing (publishRecord runId record attempts) := by
  refine .bind (noticing_request rfl) fun recipient => ?_
  split
  · exact .bind (noticing_request rfl) fun _ => trivial
  · exact .bind (noticing_request rfl) fun _ => trivial

theorem noticing_deliver (runId : String) (record : OwnerNotification) : Noticing (deliverOwedNotification runId record) := by
  unfold deliverOwedNotification
  split
  · refine .bind (noticing_caught (noticing_request rfl)) fun found => ?_
    cases found with
    | error type => exact noticing_spendFailedAttempt ..
    | ok story =>
      unfold deliverTo
      dsimp only
      split
      · exact .bind (noticing_request rfl) fun _ => trivial
      · refine .bind (noticing_caught (noticing_publishRecord ..)) fun sent => ?_
        match sent with
        | .error type => exact noticing_spendFailedAttempt ..
        | .ok (some outcome) => trivial
        | .ok none => exact .bind (noticing_request rfl) fun _ => trivial
  · trivial

theorem plain_owe (run : Run) (ending : Ending) : Plain (oweOwnerNotification run ending) :=
  (noticing_owe run ending).mono fun _ => plain_of_notice

theorem plain_deliver (runId : String) (record : OwnerNotification) : Plain (deliverOwedNotification runId record) :=
  (noticing_deliver runId record).mono fun _ => plain_of_notice

theorem plain_deliverEach (runs : List Run) : Plain (deliverEach runs) := by
  induction runs with
  | nil => trivial
  | cons run rest ih =>
    unfold deliverEach
    split
    · trivial
    · exact .bind (plain_deliver ..) fun _ => .bind ih fun _ => trivial

theorem plain_superviseOwed : Plain superviseOwedOwnerNotifications :=
  .bind (plain_request rfl) fun runs => plain_deliverEach runs

theorem plain_completeStory (story : Story) (run : Run) : Plain (completeStory story run) := by
  unfold completeStory
  split
  · trivial
  · exact .bind (plain_owe ..) fun _ => .bind (plain_request rfl) fun _ => .bind (plain_deliver ..) fun _ => trivial

theorem plain_quarantine (story : Story) (run : Run) (result : QaRunResult) :
    Plain (quarantineUnverifiedApplication story run result) := by
  unfold quarantineUnverifiedApplication
  split
  · trivial
  · exact .bind (plain_request rfl) fun _ => .bind (plain_request rfl) fun _ => .bind (plain_owe ..) fun _ =>
      .bind (plain_request rfl) fun _ => .bind (plain_deliver ..) fun _ => trivial

theorem plain_escalateExhausted (config : QaConfig) (story : Story) (run : Run) (evidence : QaEvidence) :
    Plain (escalateExhausted config story run evidence) :=
  .bind (plain_request rfl) fun _ => .bind (plain_owe ..) fun _ => .bind (plain_request rfl) fun _ =>
    .bind (plain_deliver ..) fun _ => plain_request rfl

theorem plain_latestParsed (storyId : String) (type : RunType) : Plain (latestParsed storyId type) := by
  refine .bind (Prog.Uses.attempt (.bind (plain_request rfl) fun _ => trivial)) fun r => ?_
  cases r with
  | ok _ => trivial
  | error e =>
    dsimp only
    split
    · trivial
    · trivial

theorem plain_failStory (story : Story) : Plain (failStoryOnInvalidResult story) :=
  .bind (plain_request rfl) fun _ => .bind (plain_request rfl) fun _ => trivial

theorem plain_forEach {xs : List A} {each : A → Job Unit} (h : ∀ x, Plain (each x)) : Plain (Prog.forEach xs each) := by
  induction xs with
  | nil => trivial
  | cons x rest ih => exact .bind (h x) fun _ => ih

theorem plain_superviseFailedTasks : Plain superviseFailedTasks := by
  refine .bind (plain_request rfl) fun tasks => plain_forEach fun task => ?_
  unfold superviseFailedTask
  split
  · trivial
  · refine .bind (plain_request rfl) fun runs => ?_
    unfold routeFailedTask
    split
    · trivial
    · split
      · split
        · exact .bind (plain_owe ..) fun _ => .bind
            (.bind (plain_request rfl) fun _ => .bind (plain_request rfl) fun _ => plain_request rfl) fun _ =>
              .bind (plain_deliver ..) fun _ => trivial
        · trivial
      · trivial

theorem plain_superviseDeployingStories : Plain superviseDeployingStories := by
  refine .bind (plain_request rfl) fun stories => plain_forEach fun story => ?_
  refine .bind (plain_latestParsed ..) fun parsed => ?_
  split
  · exact .bind (plain_failStory story) fun _ => trivial
  · unfold routeDeployRun
    split
    · split
      · split
        · split
          · split
            · exact .bind (plain_request rfl) fun _ => .bind (plain_owe ..) fun _ => .bind (plain_request rfl) fun _ =>
                .bind (plain_request rfl) fun _ => .bind (plain_deliver ..) fun _ => trivial
            · trivial
          · trivial
        · trivial
      · trivial
    · trivial

end Plain

def repairRules (config : QaConfig) : Rules pipelineWorld where
  admits := evidenceKept
  inv := Repairs config
  rely t s s' := t = .scheduler →
    s'.trace = s.trace ∧ ∀ storyId, (priorQa s storyId).Sublist (priorQa s' storyId)
  rely_refl _ _ _ := ⟨rfl, fun _ => .refl _⟩
  rely_trans h h' ht := ⟨(h' ht).1.trans (h ht).1, fun storyId => ((h ht).2 storyId).trans ((h' ht).2 storyId)⟩
  rest _ _ := True
  rest_stable _ _ _ := trivial

section Repairing

variable {config : QaConfig} {s s' : State} {A : Type} {P : State → Prop} {storyId runId : String} {evidence : QaEvidence}

structure Firm (P : State → Prop) : Prop where
  harmless : ∀ s s', Harmless s s' → P s → P s'
  others : ∀ s s', s'.trace = s.trace → (∀ storyId, (priorQa s storyId).Sublist (priorQa s' storyId)) → P s → P s'

theorem keeps_scheduler (hi : Repairs config s') : (repairRules config).Keeps .scheduler s s' :=
  ⟨hi, fun _ hu ht => absurd ht hu⟩

theorem Firm.stable (h : Firm P) : (repairRules config).Stable .scheduler P :=
  fun s s' _ hr hP => h.others s s' (hr rfl).1 (hr rfl).2 hP

theorem Firm.leaves (h : Firm P) {op : Op} (hop : op.plain = true) : (repairRules config).Leaves .scheduler P op :=
  fun s hi hP _ _ =>
    let step := run_harmless .scheduler hop
    ⟨keeps_scheduler (step.repairs hi), h.harmless s _ step hP⟩

theorem Firm.maintains (h : Firm P) {p : Job A} (hp : Plain p) : (repairRules config).Maintains .scheduler P p :=
  Safe.leaves h.stable (hp.mono fun _ hop => h.leaves hop)

theorem firm_true : Firm fun _ => True := ⟨fun _ _ _ _ => trivial, fun _ _ _ _ _ => trivial⟩

def Evidenced (storyId runId : String) (s : State) : Prop := ∃ evidence ∈ priorQa s storyId, evidence.qaRunId = runId

theorem firm_evidenced : Firm (Evidenced storyId runId) := by
  refine ⟨fun s s' h => ?_, fun s s' _ hsub => ?_⟩
  · rintro ⟨evidence, hmem, hrun⟩
    exact ⟨evidence, h.prior storyId ▸ hmem, hrun⟩
  · rintro ⟨evidence, hmem, hrun⟩
    exact ⟨evidence, (hsub storyId).subset hmem, hrun⟩

structure Room (config : QaConfig) (storyId : String) (evidence : QaEvidence) (s : State) : Prop where
  fresh : evidence.qaRunId ∉ (fixesOf storyId s.trace).map (·.qaRunId)
  fixes : (fixesOf storyId s.trace).length < config.fixLimit
  alike : ((fixesOf storyId s.trace).filter (·.fingerprint = evidence.fingerprint)).length < config.failureLimit

theorem firm_room : Firm (Room config storyId evidence) := by
  refine ⟨fun s s' h hroom => ?_, fun s s' htrace _ hroom => ?_⟩
  · obtain ⟨hfresh, hfixes, halike⟩ := hroom
    rw [← h.fixes] at hfresh hfixes halike
    exact ⟨hfresh, hfixes, halike⟩
  · obtain ⟨hfresh, hfixes, halike⟩ := hroom
    rw [← htrace] at hfresh hfixes halike
    exact ⟨hfresh, hfixes, halike⟩

theorem room_of_prior (hi : Repairs config s) {run : Run} {result : QaRunResult}
    (hfresh : (priorQa s storyId).any (·.qaRunId = run.id) = false)
    (hlimits : config.reached (qaEvidence config run result (priorQa s storyId)) = false) :
    Room config storyId (qaEvidence config run result (priorQa s storyId)) s := by
  have hkept := hi.kept storyId
  simp only [QaConfig.reached, qaEvidence, gt_iff_lt, Bool.or_eq_false_iff, decide_eq_false_iff_not, Nat.not_lt] at hlimits
  refine ⟨fun hmem => ?_, ?_, ?_⟩
  · obtain ⟨found, hfound, hrun⟩ := List.mem_map.mp hmem
    have hnone := List.any_eq_false.mp hfresh found (hkept.subset hfound)
    exact hnone (decide_eq_true hrun)
  · exact Nat.lt_of_succ_le (Nat.le_trans (Nat.succ_le_succ hkept.length_le) hlimits.2)
  · exact Nat.lt_of_succ_le (Nat.le_trans (Nat.succ_le_succ (hkept.filter _).length_le) hlimits.1)

theorem priorQa_created (story : Story) (newId storyId : String) :
    priorQa (s.createTask (qaFixTask story evidence) newId).2 storyId =
      priorQa s storyId ++ if storyId = story.id then [evidence] else [] := by
  unfold priorQa State.tasksOf State.createTask State.record
  by_cases hid : storyId = story.id
  · subst hid
    simp [qaFixTask, qaFailureMetadata]
  · have hid' : ¬ story.id = storyId := fun h => hid h.symm
    simp [qaFixTask, hid, hid']

theorem fixesOf_created (story : Story) (newId storyId : String) :
    fixesOf storyId (s.createTask (qaFixTask story evidence) newId).2.trace =
      fixesOf storyId s.trace ++ if storyId = story.id then [evidence] else [] := by
  change fixesOf storyId s.trace ++ (fixOf storyId (.created (qaFixTask story evidence))).toList = _
  by_cases hid : storyId = story.id
  · subst hid
    simp [fixOf, qaFixTask]
  · have hid' : ¬ story.id = storyId := fun h => hid h.symm
    simp [fixOf, qaFixTask, hid, hid']

theorem create_repairs (hi : Repairs config s) {story : Story} (hroom : Room config story.id evidence s) (newId : String) :
    Repairs config (s.createTask (qaFixTask story evidence) newId).2 ∧
      Evidenced story.id evidence.qaRunId (s.createTask (qaFixTask story evidence) newId).2 := by
  refine ⟨⟨fun storyId => ?_, fun storyId => ?_, fun storyId => ?_, fun storyId fingerprint => ?_,
    fun storyId fromStatus runId hmem => ?_⟩, evidence, ?_, rfl⟩
  · rw [fixesOf_created, priorQa_created]
    exact (hi.kept storyId).append (.refl _)
  · rw [fixesOf_created]
    by_cases hid : storyId = story.id
    · subst hid
      rw [if_pos rfl, List.map_append, List.nodup_append]
      refine ⟨hi.once story.id, (List.pairwise_singleton _ _), fun old hold new hnew => ?_⟩
      rw [List.map_singleton, List.mem_singleton] at hnew
      subst hnew
      exact fun heq => hroom.fresh (heq ▸ hold)
    · simpa [hid] using hi.once storyId
  · rw [fixesOf_created]
    by_cases hid : storyId = story.id
    · subst hid
      rw [if_pos rfl, List.length_append]
      exact hroom.fixes
    · simpa [hid] using hi.bounded storyId
  · rw [fixesOf_created]
    by_cases hid : storyId = story.id
    · subst hid
      by_cases hfp : evidence.fingerprint = fingerprint
      · subst hfp
        rw [if_pos rfl, List.filter_append, List.length_append]
        have hone : ([evidence].filter (·.fingerprint = evidence.fingerprint)).length ≤ 1 := List.length_filter_le ..
        have hroom := hroom.alike
        omega
      · simpa [hfp] using hi.alike story.id fingerprint
    · simpa [hid] using hi.alike storyId fingerprint
  · rcases List.mem_cons.mp hmem with heq | hmem
    · cases heq
    · obtain ⟨found, hfound, hrun⟩ := hi.restarted storyId fromStatus runId hmem
      refine ⟨found, ?_, hrun⟩
      rw [priorQa_created]
      exact List.mem_append_left _ hfound
  · rw [priorQa_created, if_pos rfl]
    exact List.mem_append_right _ (List.mem_singleton_self _)

theorem start_repairs (hi : Repairs config s) (hevidence : Evidenced storyId runId s) :
    Repairs config (s.transitionStory storyId .start (some runId)).2 := by
  rcases transitionStory_cases storyId .start (some runId) s with h | ⟨story, -, rfl, -, -, h⟩
  · rw [h]
    exact hi
  · rw [h]
    have hfixes (id : String) : fixesOf id (s.moveStory story .start (some runId)).trace = fixesOf id s.trace :=
      List.append_nil _
    refine ⟨fun id => ?_, fun id => ?_, fun id => ?_, fun id fingerprint => ?_, fun id fromStatus other hmem => ?_⟩
    · dsimp only
      rw [hfixes]
      exact hi.kept id
    · dsimp only
      rw [hfixes]
      exact hi.once id
    · dsimp only
      rw [hfixes]
      exact hi.bounded id
    · dsimp only
      rw [hfixes]
      exact hi.alike id fingerprint
    · rcases List.mem_cons.mp hmem with heq | hmem
      · cases heq
        exact hevidence
      · exact hi.restarted id fromStatus other hmem

theorem serve_cases {B : Type} (fate : Fate Exn) (exec : State → Except Exn B × State) (s : State) :
    (fate.serve exec s).2 = s ∨ (fate.serve exec s).2 = (exec s).2 := by
  cases fate with
  | unsent e => exact .inl rfl
  | _ => exact .inr rfl

theorem startStory_maintains (story : Story) (run : Run) : (repairRules config).Maintains .scheduler
    (Evidenced story.id run.id) (transitionStory story.id .start (some run.id)) := by
  refine .perform firm_evidenced.stable fun s hi hevidence reply _ => ?_
  change (repairRules config).Keeps .scheduler s
    (reply.fate.serve (State.transitionStory story.id .start (some run.id)) s).2 ∧ Evidenced story.id run.id
      (reply.fate.serve (State.transitionStory story.id .start (some run.id)) s).2
  rcases serve_cases reply.fate (State.transitionStory story.id .start (some run.id)) s with h | h
  · rw [h]
    exact ⟨keeps_scheduler hi, hevidence⟩
  · rw [h]
    refine ⟨keeps_scheduler (start_repairs hi hevidence), ?_⟩
    rcases transitionStory_cases story.id .start (some run.id) s with hmove | ⟨row, -, -, -, -, hmove⟩
    · rw [hmove]
      exact hevidence
    · rw [hmove]
      exact hevidence

theorem createFix_safe {story : Story} (hroom : Room config story.id evidence s) :
    (repairRules config).Safe .scheduler (fun r s => r = .ok () → Evidenced story.id evidence.qaRunId s)
      (createTask (qaFixTask story evidence)) s := by
  refine Safe.perform fun s' hi' hr reply _ => ?_
  have hroom' := firm_room.stable s s' hi' hr hroom
  obtain ⟨hcreated, hevidence⟩ := create_repairs hi' hroom' reply.newId
  change (repairRules config).Keeps .scheduler s' (reply.fate.serve (State.createTask _ reply.newId) s').2 ∧
    ((reply.fate.serve (State.createTask _ reply.newId) s').1 = .ok () →
      Evidenced story.id evidence.qaRunId (reply.fate.serve (State.createTask _ reply.newId) s').2)
  cases reply.fate with
  | served => exact ⟨keeps_scheduler hcreated, fun _ => hevidence⟩
  | unheard e => exact ⟨keeps_scheduler hcreated, fun h => by cases h⟩
  | unsent e => exact ⟨keeps_scheduler hi', fun h => by cases h⟩

theorem answerQaFailure_safe {story : Story} {run : Run} {result : QaRunResult} {prior : List QaEvidence}
    (hi : Repairs config s) (hold : prior.any (·.qaRunId = run.id) = true → Evidenced story.id run.id s)
    (hroom : prior.any (·.qaRunId = run.id) = false → config.reached (qaEvidence config run result prior) = false →
      Room config story.id (qaEvidence config run result prior) s) :
    (repairRules config).Safe .scheduler (fun _ _ => True) (answerQaFailure config story run result prior) s := by
  unfold answerQaFailure
  split
  · next hany =>
    exact Safe.bind hi (startStory_maintains story run s hi (hold hany)) (fun _ _ _ _ => trivial) fun _ _ _ _ => trivial
  · next hnone =>
    dsimp only
    split
    · exact Safe.bind hi (firm_true.maintains (plain_escalateExhausted ..) s hi trivial) (fun _ _ _ _ => trivial)
        fun _ _ _ _ => trivial
    · next hlimit =>
      have hroom := hroom (Bool.eq_false_iff.mpr hnone) (Bool.eq_false_iff.mpr hlimit)
      refine Safe.bind hi (createFix_safe hroom) (fun _ s hi hevidence => ?_) fun _ _ _ _ => trivial
      exact Safe.bind hi (startStory_maintains story run s hi (hevidence rfl)) (fun _ _ _ _ => trivial)
        fun _ _ _ _ => trivial

theorem handleQaFailed_safe (story : Story) (run : Run) (result : QaRunResult) (hi : Repairs config s) :
    (repairRules config).Safe .scheduler (fun _ _ => True) (handleQaFailed config story run result) s := by
  refine Safe.bind (M := fun r s => ∀ tasks, r = .ok tasks → tasks = s.tasksOf story.id) hi
    (Safe.perform fun s' hi' _ reply _ => ?_) (fun tasks s hi htasks => ?_) fun _ _ _ _ => trivial
  · refine ⟨keeps_scheduler ((run_harmless .scheduler rfl).repairs hi'), fun tasks h => ?_⟩
    change (reply.fate.serve (fun s => (.ok (s.tasksOf story.id), s)) s').1 = .ok tasks at h
    change tasks = (reply.fate.serve (fun s => (.ok (s.tasksOf story.id), s)) s').2.tasksOf story.id
    cases hfate : reply.fate with
    | served =>
      rw [hfate] at h
      cases h
      rfl
    | unheard e =>
      rw [hfate] at h
      cases h
    | unsent e =>
      rw [hfate] at h
      cases h
  · have hprior : tasks.filterMap qaFailureMetadata = priorQa s story.id := by rw [htasks tasks rfl]; rfl
    rw [hprior]
    refine answerQaFailure_safe hi (fun hany => ?_) fun hnone hlimit => room_of_prior hi hnone hlimit
    obtain ⟨found, hfound, hrun⟩ := List.any_eq_true.mp hany
    exact ⟨found, hfound, of_decide_eq_true hrun⟩

theorem superviseTestingStory_safe (story : Story) (hi : Repairs config s) :
    (repairRules config).Safe .scheduler (fun _ _ => True) (superviseTestingStory config story) s := by
  have plainly {p : Job TestedOutcome} {s : State} (hi : Repairs config s) (hp : Plain p) :
      (repairRules config).Safe .scheduler (fun _ _ => True) p s := firm_true.maintains hp s hi trivial
  refine Safe.bind hi (firm_true.maintains (plain_latestParsed ..) s hi trivial) (fun parsed s hi _ => ?_)
    fun _ _ _ _ => trivial
  split
  · exact plainly hi (plain_failStory story)
  · next found =>
    unfold routeQaRun
    split
    · trivial
    · split
      · exact plainly hi (.bind (plain_request rfl) fun _ => trivial)
      · trivial
      · split
        · trivial
        · unfold routeQaOutcome
          split
          · exact plainly hi (.bind (plain_completeStory ..) fun _ => trivial)
          · split
            · exact plainly hi (.bind (plain_quarantine ..) fun _ => trivial)
            · refine Safe.bind hi (handleQaFailed_safe _ _ _ hi) (fun outcome s hi _ => ?_) fun _ _ _ _ => trivial
              split <;> trivial
          · exact plainly hi (.bind (plain_quarantine ..) fun _ => trivial)
        · trivial

theorem superviseEach_safe (stories : List Story) (hi : Repairs config s) :
    (repairRules config).Safe .scheduler (fun _ _ => True) (superviseEach config stories) s := by
  induction stories generalizing s with
  | nil => trivial
  | cons story rest ih =>
    refine Safe.bind hi (superviseTestingStory_safe story hi) (fun _ s hi _ => ?_) fun _ _ _ _ => trivial
    exact Safe.bind hi (ih hi) (fun _ _ _ _ => trivial) fun _ _ _ _ => trivial

theorem body_safe (t : Party) (hi : Repairs config s) :
    (repairRules config).Safe t ((repairRules config).Finishes t) (body config t) s := by
  have ends (t : Party) (r : Except Exn Unit) (s : State) (hi : Repairs config s) :
      (repairRules config).Finishes t r s := ⟨.refl _ hi, trivial⟩
  cases t with
  | scheduler =>
    have plainly {p : Job Unit} {s : State} (hi : Repairs config s) (hp : Plain p) :
        (repairRules config).Safe .scheduler (fun _ _ => True) p s := firm_true.maintains hp s hi trivial
    refine Safe.bind hi (plainly hi plain_superviseFailedTasks) (fun _ s hi _ => ?_) fun e s hi _ => ends _ _ s hi
    refine Safe.bind hi (plainly hi plain_superviseDeployingStories) (fun _ s hi _ => ?_) fun e s hi _ => ends _ _ s hi
    refine Safe.bind hi (firm_true.maintains plain_superviseOwed s hi trivial) (fun _ s hi _ => ?_)
      fun e s hi _ => ends _ _ s hi
    have testing : (repairRules config).Safe .scheduler (fun _ _ => True) (superviseTestingStories config) s :=
      Safe.bind hi (firm_true.maintains (plain_request rfl) s hi trivial) (fun stories s hi _ => superviseEach_safe stories hi)
        fun _ _ _ _ => trivial
    exact Safe.bind hi testing (fun _ s hi _ => ends _ _ s hi) fun e s hi _ => ends _ _ s hi
  | outside execution =>
    refine Safe.perform fun s' hi' _ reply hretains => ?_
    have htrace : (reply.change.apply s').trace = s'.trace := outside_trace reply.change s'
    have hsub := retains_sublist hretains
    have hkept : Repairs config (reply.change.apply s') := by
      refine ⟨fun storyId => ?_, fun storyId => ?_, fun storyId => ?_, fun storyId fingerprint => ?_,
        fun storyId fromStatus runId hmem => ?_⟩
      · rw [htrace]
        exact (hi'.kept storyId).trans (hsub storyId)
      · rw [htrace]
        exact hi'.once storyId
      · rw [htrace]
        exact hi'.bounded storyId
      · rw [htrace]
        exact hi'.alike storyId fingerprint
      · obtain ⟨found, hfound, hrun⟩ := hi'.restarted storyId fromStatus runId (htrace ▸ hmem)
        exact ⟨found, (hsub storyId).subset hfound, hrun⟩
    exact ⟨⟨hkept, fun u _ hu => ⟨htrace, hsub⟩⟩, ends _ _ _ hkept⟩

theorem reaches_repairs {c : Config pipelineWorld} (s : State) (hs : s.trace = [])
    (h : Reaches (body config) evidenceKept (Config.idle s : Config pipelineWorld) c) : Repairs config c.state := by
  have hi : Repairs config s := by
    refine ⟨fun storyId => ?_, fun storyId => ?_, fun storyId => ?_, fun storyId fingerprint => ?_,
      fun storyId fromStatus runId hmem => ?_⟩
    · rw [hs]
      exact List.nil_sublist _
    · rw [hs]
      exact List.nodup_nil
    · rw [hs]
      exact Nat.zero_le _
    · rw [hs]
      exact Nat.zero_le _
    · rw [hs] at hmem
      cases hmem
  have hidle : (repairRules config).Sound (Config.idle s : Config pipelineWorld) := .idle hi fun _ => trivial
  exact (reaches_sound hidle (fun t s hi _ _ => body_safe t hi) (fun t s hi _ => ⟨.refl _ hi, trivial⟩) h).inv

end Repairing

def statusOf (s : State) (storyId : String) : Option StoryStatus := (s.story? storyId).map (·.status)

def Exhausted (config : QaConfig) (s : State) (story : Story) (run : Run) (result : QaRunResult) : Prop :=
  (priorQa s story.id).any (·.qaRunId = run.id) = false ∧
    config.reached (qaEvidence config run result (priorQa s story.id)) = true

def Undisturbed (answers : Sheet) : Prop :=
  ∀ op, ∃ reply, answers op = some reply ∧ reply.fate = .served ∧ ∀ call, ∃ answer, reply.service call = .ok answer

def Op.handsOver (storyId : String) : Op → Bool
  | .transitionStory id .humanReview _ => id = storyId
  | .transitionStory .. => false
  | .outside => false
  | _ => true

section Limits

variable {config : QaConfig} {s : State} {storyId : String} {answers : Sheet} {reply : Reply}

theorem statusOf_noted {story : Story} {reason : Option QuarantineReason} (h : s.story? story.id = some story) :
    statusOf (s.writeStory { story with quarantineReason := reason }) storyId = statusOf s storyId := by
  unfold statusOf
  by_cases hother : storyId = story.id
  · subst hother
    rw [story_writeStory_self h { story with quarantineReason := reason } rfl, h]
    rfl
  · rw [@story_writeStory_of_ne s { story with quarantineReason := reason } storyId hother]

theorem statusOf_updateStory (id : String) (reason : QuarantineReason) :
    statusOf (s.updateStory id reason).2 storyId = statusOf s storyId := by
  unfold State.updateStory
  cases hs : s.story? id with
  | none => rfl
  | some story =>
    obtain rfl := story_id_of_some hs
    exact statusOf_noted hs

theorem run_handsOver {op : Op} (h : op.handsOver storyId = true) :
    statusOf (run .scheduler op reply s).2 storyId = statusOf s storyId ∨
      statusOf (run .scheduler op reply s).2 storyId = some .waitingHumanReview := by
  have hother : op ≠ .outside := by
    rintro rfl
    cases h
  have heffect := run_effect .scheduler hother reply s
  generalize (run .scheduler op reply s).2 = s' at heffect ⊢
  cases heffect with
  | @moved action account story hstory =>
    cases action with
    | humanReview =>
      obtain rfl : story.id = storyId := of_decide_eq_true h
      refine .inr ?_
      unfold statusOf
      rw [story_moveStory_self hstory]
      rfl
    | _ => cases h
  | noted hstory => exact .inl (statusOf_noted hstory)
  | _ => exact .inl rfl

theorem handsOver_of_notice {op : Op} (h : op.notice = true) : op.handsOver storyId = true := by
  cases op with
  | transitionStory | outside => cases h
  | _ => rfl

theorem solo_handsOver {A : Type} {p : Job A} (hp : Prog.Uses (fun op : Op => op.handsOver storyId = true) p)
    (hs : statusOf s storyId = some .testing ∨ statusOf s storyId = some .waitingHumanReview) :
    statusOf (after answers p s) storyId = some .testing ∨ statusOf (after answers p s) storyId = some .waitingHumanReview := by
  refine solo_uses (W := pipelineWorld)
    (P := fun s => statusOf s storyId = some .testing ∨ statusOf s storyId = some .waitingHumanReview) hp (fun op reply s hop hs => ?_) hs
  rcases run_handsOver hop with h | h
  · change statusOf (run .scheduler op reply s).2 storyId = _ ∨ statusOf (run .scheduler op reply s).2 storyId = _
    rwa [h]
  · exact .inr h

theorem escalateExhausted_handsOver (config : QaConfig) (story : Story) (run : Run) (evidence : QaEvidence) :
    Prog.Uses (fun op : Op => op.handsOver story.id = true) (escalateExhausted config story run evidence) := by
  have notice {A : Type} {p : Job A} (hp : Noticing p) : Prog.Uses (fun op : Op => op.handsOver story.id = true) p :=
    hp.mono fun _ => handsOver_of_notice
  refine .bind (.perform rfl) fun _ => .bind (notice (noticing_owe ..)) fun _ => .bind (.perform ?_) fun _ =>
    .bind (notice (noticing_deliver ..)) fun _ => .perform rfl
  exact decide_eq_true rfl

theorem solo_ask (h : Undisturbed answers) (call : ServiceCall) : ∃ answer,
    alone answers (ask call) s = (some (.ok answer), s) := by
  obtain ⟨reply, hreply, -, htold⟩ := h (.service call)
  obtain ⟨answer, hanswer⟩ := htold call
  refine ⟨answer, (solo_perform (W := pipelineWorld) hreply).trans ?_⟩
  change (some (reply.service call), s) = _
  rw [hanswer]

theorem after_still {A : Type} {p : Job A} {status : StoryStatus} (hp : Noticing p) (hs : statusOf s storyId = some status) :
    statusOf (after answers p s) storyId = some status := by
  refine solo_uses (W := pipelineWorld) (P := fun s => statusOf s storyId = some status) hp (fun op reply s hop hs => ?_) hs
  have still {B : Type} (exec : State → Except Exn B × State) (hexec : statusOf (exec s).2 storyId = statusOf s storyId) :
      statusOf (reply.fate.serve exec s).2 storyId = some status := by
    rcases serve_cases reply.fate exec s with he | he
    · rw [he]
      exact hs
    · rw [he, hexec]
      exact hs
  cases op with
  | service call => exact hs
  | getStory id =>
    refine still _ ?_
    unfold State.getStory
    split <;> rfl
  | writeRecord runId record =>
    refine still _ ?_
    unfold State.writeRecord
    split <;> rfl
  | publishFlat runId event => exact still _ rfl
  | _ => cases hop

theorem solo_served (h : Undisturbed answers) (op : Op) (exec : State → Except Exn (Op.Res op) × State)
    (hop : ∀ reply, run .scheduler op reply s = reply.fate.serve exec s) {a : Op.Res op} {s' : State}
    (hexec : exec s = (.ok a, s')) :
    alone answers (perform op) s = (some (.ok a), s') := by
  obtain ⟨reply, hreply, hserved, -⟩ := h op
  have hrun : run .scheduler op reply s = (.ok a, s') := by
    rw [hop, hserved]
    exact hexec
  refine (solo_perform (W := pipelineWorld) hreply).trans ?_
  exact congrArg (fun r : Except Exn (Op.Res op) × State => (some r.1, r.2)) hrun

variable {run : Run}

theorem solo_owe (h : Undisturbed answers) (hrun : (s.run? run.id).isSome) (ending : Ending) :
    ∃ owed s', alone answers (oweOwnerNotification run ending) s = (some (.ok owed), s') ∧
      s'.stories = s.stories := by
  unfold oweOwnerNotification
  split
  · next existing _ => exact ⟨existing, s, rfl, rfl⟩
  · obtain ⟨now, hnow⟩ := solo_ask (s := s) h .clock
    obtain ⟨row, hrow⟩ := Option.isSome_iff_exists.mp hrun
    have hwritten : s.writeRecord run.id (ending.record now) =
        (.ok (), (s.writeRecord run.id (ending.record now)).2) := by
      unfold State.writeRecord
      rw [hrow]
    have hwrite : alone answers (writeRecord run.id (ending.record now)) s =
        (some (.ok ()), (s.writeRecord run.id (ending.record now)).2) :=
      solo_served h (.writeRecord run.id (ending.record now)) (State.writeRecord run.id (ending.record now)) (fun _ => rfl) hwritten
    refine ⟨ending.record now, _, (solo_bind_ok hnow).trans (solo_bind_ok hwrite), ?_⟩
    unfold State.writeRecord
    rw [hrow]
    rfl

variable {story : Story}

theorem escalateExhausted_reviewed (h : Undisturbed answers) {evidence : QaEvidence}
    (hrun : (s.run? run.id).isSome) (hs : statusOf s story.id = some .testing) :
    statusOf (after answers (escalateExhausted config story run evidence) s) story.id = some .waitingHumanReview := by
  obtain ⟨found, hfound, -⟩ := Option.map_eq_some_iff.mp hs
  let noted : Story := { found with quarantineReason := some (.fixesExhausted evidence) }
  have hupdated : s.updateStory story.id (.fixesExhausted evidence) = (.ok (), s.writeStory noted) := by
    unfold State.updateStory
    rw [hfound]
  have hnoted : alone answers (updateStory story.id (.fixesExhausted evidence)) s =
      (some (.ok ()), s.writeStory noted) :=
    solo_served h (.updateStory story.id (.fixesExhausted evidence)) (State.updateStory story.id (.fixesExhausted evidence))
      (fun _ => rfl) hupdated
  have hs₁ : statusOf (s.writeStory noted) story.id = some .testing := by
    have hkept : statusOf (s.updateStory story.id (.fixesExhausted evidence)).2 story.id = statusOf s story.id :=
      statusOf_updateStory ..
    rw [hupdated] at hkept
    exact hkept.trans hs
  have hrun₁ : ((s.writeStory noted).run? run.id).isSome := hrun
  obtain ⟨owed, s₂, howed, hstories⟩ := solo_owe h hrun₁ ⟨"story_quarantined", fixAttemptsExhaustedText evidence.summary
    (if evidence.fingerprintAttempt > config.failureLimit then config.failureLimit else config.fixLimit), story.id,
    story.projectId, .waitingHumanReview, none⟩
  have hs₂ : statusOf s₂ story.id = some .testing := by
    unfold statusOf State.story? at hs₁ ⊢
    rw [hstories]
    exact hs₁
  obtain ⟨row, hrow, hstatus⟩ := Option.map_eq_some_iff.mp hs₂
  have hid := story_id_of_some hrow
  rw [← hid] at hrow
  have hmove : s₂.transitionStory story.id .humanReview (some run.id) =
      (.ok (), s₂.moveStory row .humanReview (some run.id)) := by
    rw [← hid]
    exact transitionStory_ok hrow (fun h => by cases h) (by rw [hstatus]; decide)
  have hmoved : alone answers (transitionStory story.id .humanReview (some run.id)) s₂ =
      (some (.ok ()), s₂.moveStory row .humanReview (some run.id)) :=
    solo_served h (.transitionStory story.id .humanReview (some run.id))
      (State.transitionStory story.id .humanReview (some run.id)) (fun _ => rfl) hmove
  have hreviewed : statusOf (s₂.moveStory row .humanReview (some run.id)) story.id = some .waitingHumanReview := by
    unfold statusOf
    rw [← hid, story_moveStory_self hrow]
    rfl
  have hgone : alone answers (escalateExhausted config story run evidence) s = _ :=
    (solo_bind_ok hnoted).trans ((solo_bind_ok howed).trans (solo_bind_ok hmoved))
  unfold after
  rw [hgone]
  exact after_still (.bind (noticing_deliver ..) fun _ => .perform rfl) hreviewed

variable {result : QaRunResult}

theorem solo_answerExhausted (h : Exhausted config s story run result) :
    after answers (answerQaFailure config story run result (priorQa s story.id)) s =
      after answers (escalateExhausted config story run (qaEvidence config run result (priorQa s story.id))) s := by
  unfold answerQaFailure
  rw [if_neg (by simp [h.1])]
  dsimp only
  rw [if_pos h.2]
  unfold after
  match hend : alone answers
    (escalateExhausted config story run (qaEvidence config run result (priorQa s story.id))) s with
  | (some (.ok _), s') => exact congrArg Prod.snd (solo_bind_ok hend)
  | (some (.error _), s') => exact congrArg Prod.snd (solo_bind_error hend)
  | (none, s') => exact congrArg Prod.snd (solo_bind_dead hend)

theorem after_exhausted (answers : Sheet) (h : Exhausted config s story run result) :
    (after answers (handleQaFailed config story run result) s = s ∧ ¬Undisturbed answers) ∨
      after answers (handleQaFailed config story run result) s =
        after answers (escalateExhausted config story run (qaEvidence config run result (priorQa s story.id))) s := by
  rw [← solo_answerExhausted h]
  let read : Op := .getTasksByStory story.id
  cases hanswer : answers read with
  | none =>
    refine .inl ⟨congrArg Prod.snd (solo_bind_dead (solo_perform_dead hanswer)), fun hall => ?_⟩
    obtain ⟨reply, hreply, -⟩ := hall read
    cases hreply.symm.trans hanswer
  | some reply =>
    have hran := solo_perform (W := pipelineWorld) (t := .scheduler) (s := s) hanswer
    change _ = (some (reply.fate.serve (fun s => (.ok (s.tasksOf story.id), s)) s).1,
      (reply.fate.serve (fun s => (.ok (s.tasksOf story.id), s)) s).2) at hran
    obtain ⟨fate, hfate⟩ : ∃ fate, reply.fate = fate := ⟨_, rfl⟩
    have disturbed (hne : fate ≠ .served) : ¬Undisturbed answers := fun hall => by
      obtain ⟨other, hother, hserved, -⟩ := hall read
      cases hother.symm.trans hanswer
      exact hne (hfate.symm.trans hserved)
    rw [hfate] at hran
    cases fate with
    | served => exact .inr (congrArg Prod.snd (solo_bind_ok hran))
    | _ => exact .inl ⟨congrArg Prod.snd (solo_bind_error hran), disturbed fun hserved => by cases hserved⟩

theorem exhausted_handsOver (h : Exhausted config s story run result)
    (hs : statusOf s story.id = some .testing) :
    statusOf (after answers (handleQaFailed config story run result) s) story.id = some .testing ∨
      statusOf (after answers (handleQaFailed config story run result) s) story.id = some .waitingHumanReview := by
  rcases after_exhausted answers h with ⟨hsame, -⟩ | hsame
  · rw [hsame]
    exact .inl hs
  · rw [hsame]
    exact solo_handsOver (escalateExhausted_handsOver config story run _) (.inl hs)

theorem exhausted_reviewed (h : Exhausted config s story run result)
    (hrun : (s.run? run.id).isSome) (hs : statusOf s story.id = some .testing) (hall : Undisturbed answers) :
    statusOf (after answers (handleQaFailed config story run result) s) story.id = some .waitingHumanReview := by
  rcases after_exhausted answers h with ⟨-, hnone⟩ | hsame
  · exact absurd hall hnone
  · rw [hsame]
    exact escalateExhausted_reviewed hall hrun hs

end Limits

/-- In a run in which no fix task loses its evidence the repairs are counted
right, and once a limit is reached a failed run ends with the human. -/
theorem qa_repairs_bounded (config : QaConfig) (s : State) (hs : s.trace = []) (c : Config pipelineWorld)
    (h : Reaches (body config) evidenceKept (Config.idle s) c) :
    Repairs config c.state ∧ ∀ (story : Story) (run : Run) (result : QaRunResult) (answers : Sheet),
      statusOf c.state story.id = some .testing → (c.state.run? run.id).isSome →
      Exhausted config c.state story run result →
      (statusOf (after answers (handleQaFailed config story run result) c.state) story.id = some .testing ∨
        statusOf (after answers (handleQaFailed config story run result) c.state) story.id = some .waitingHumanReview) ∧
      (Undisturbed answers →
        statusOf (after answers (handleQaFailed config story run result) c.state) story.id = some .waitingHumanReview) := by
  refine ⟨reaches_repairs s hs h, fun story run result answers htesting hrun hexhausted => ⟨?_, fun hall => ?_⟩⟩
  · exact exhausted_handsOver hexhausted htesting
  · exact exhausted_reviewed hexhausted hrun htesting hall

def sampleQa : QaConfig := ⟨1, 2, fun summary _ => summary⟩

def failedCheck : QaRunResult := ⟨.failed, [⟨"checkout", "the cart stays empty"⟩], some "cart", none, none, [], []⟩

def failedQa : Run where
  id := "r"
  storyId := some "s"
  taskId := none
  type := .qa
  status := .completed
  valid := true
  result := some (.qa failedCheck)
  applicationId := some 1
  handoff := none
  ownerNotification := none

def testedStory : Story := ⟨"s", "p", .testing, none, none⟩

def inTesting : State := ⟨[testedStory], [], [failedQa], []⟩

def qaServed : Reply where
  fate := .served
  newId := "fix"
  service call := match call with
    | .clock => .ok (0 : Nat)
    | .getPrimaryRepository _ => .ok none
    | .getLatestWorkflowRun .. => .ok none
    | .getWorkflowFailureDetails .. => .ok ⟨[], none⟩
    | .stopApplication _ => .ok ()
    | .resolveProjectRecipient .. => .ok ⟨"chat", "owner", ""⟩
    | .notifyAdmins _ => .ok ()
    | .recoverQaHandoff _ => .ok false
  change := .workerGaveUp "fix" "stuck"

def qaUnsent : Reply := { qaServed with fate := .unsent (.exception "ConnectError") }

def sampleCutTick : List (Turn pipelineWorld) :=
  .start .scheduler :: (List.replicate 7 (.call .scheduler fun _ => qaServed) ++ [.call .scheduler fun _ => qaUnsent])

def sampleFullTick : List (Turn pipelineWorld) := .start .scheduler :: List.replicate 8 (.call .scheduler fun _ => qaServed)

theorem sample_repairs_bounded :
    Repairs sampleQa ((Config.idle inTesting).play (body sampleQa) (sampleCutTick ++ sampleFullTick)).state ∧
      statusOf ((Config.idle inTesting).play (body sampleQa) (sampleCutTick ++ sampleFullTick)).state "s" =
        some .inProgress :=
  ⟨(qa_repairs_bounded sampleQa inTesting rfl _ (play_reaches (by decide +kernel))).1, by decide +kernel⟩

def sampleGaveUp : List (Turn pipelineWorld) :=
  sampleCutTick ++ [.start (.outside 0), .call (.outside 0) fun _ => qaServed] ++ sampleFullTick

theorem gave_up_forgets_repair : ¬ ∀ (config : QaConfig) (s : State), s.trace = [] → ∀ c : Config pipelineWorld,
    Reaches (body config) anyMove (Config.idle s) c → ∀ storyId,
      ((fixesOf storyId c.state.trace).map (·.qaRunId)).Nodup := by
  intro h
  refine absurd (h sampleQa inTesting rfl _ (play_reaches_anyMove _ _ sampleGaveUp) "s") ?_
  decide +kernel

end Orchestrator.Pipeline
