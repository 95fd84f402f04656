import Orchestrator.Cycle.Loop

/-!
When the items of a cycle are kept apart: exactly when no call of the cycle is
left uncaught. One that is ends the cycle, and the later phases do not run.
-/

namespace Orchestrator.Cycle

open Async Contracts

def uncaught : Call cycleInterface → Bool
  | ⟨.item _ op, answer⟩ => op.letsOut answer
  | ⟨.list phase, answer⟩ => Call.failed (I := cycleInterface) ⟨.list phase, answer⟩
  | ⟨.storiesInProgress, answer⟩ => Call.failed (I := cycleInterface) ⟨.storiesInProgress, answer⟩
  | ⟨.sleep, _⟩ => false

def Uncaught (call : Call cycleInterface) : Prop := uncaught call = true

def Healthy (site : Site) (calls : List (Call cycleInterface)) : Prop :=
  ∀ op answer, (⟨.item site op, answer⟩ : Call cycleInterface) ∈ calls → ∃ a, answer = .ok a

def Informed (phase : Phase) (calls : List (Call cycleInterface)) (active : List Story) : Prop :=
  match phase with
  | .superviseStuckStories => (⟨.storiesInProgress, .ok active⟩ : Call cycleInterface) ∈ calls
  | _ => active = []

def Handled (config : Config) (phase : Phase) (item : phase.Item) (calls : List (Call cycleInterface)) : Prop :=
  ∃ active before own after, calls = before ++ own ++ after ∧ Informed phase calls active ∧
    ((phaseHandling config active phase item).at ⟨phase, phase.itemId item⟩).Run own (.ok ())

def Isolates (config : Config) (calls : List (Call cycleInterface)) : Prop :=
  ∀ phase : Phase, ∃ items : List phase.Item, (⟨.list phase, .ok items⟩ : Call cycleInterface) ∈ calls ∧
    ∀ item ∈ items, Healthy ⟨phase, phase.itemId item⟩ calls → Handled config phase item calls

theorem at_strict {A : Type} (handling : Handling A) (site : Site) : (handling.at site).Strict Uncaught :=
  Prog.Strict.relabel (J := cycleInterface) _ _ _ (fun _ _ => Iff.rfl) handling.2

theorem forItems_strict (phase : Phase) (handling : phase.Item → Handling Unit) (items : List phase.Item) :
    (forItems phase handling items).Strict Uncaught :=
  Prog.Strict.forEach fun item _ => at_strict (handling item) ⟨phase, phase.itemId item⟩

theorem list_strict (phase : Phase) : (perform (.list phase)).Strict Uncaught := by
  apply Prog.Strict.perform
  · intro a
    simp [Uncaught, uncaught, Call.failed]
  · intro e
    simp [Uncaught, uncaught, Call.failed]

theorem storiesInProgress_strict : (perform .storiesInProgress).Strict Uncaught := by
  apply Prog.Strict.perform
  · intro a
    simp [Uncaught, uncaught, Call.failed]
  · intro e
    simp [Uncaught, uncaught, Call.failed]

theorem eachItem_strict (phase : Phase) (handling : phase.Item → Handling Unit) :
    (eachItem phase handling).Strict Uncaught :=
  (list_strict phase).bind fun items => forItems_strict phase handling items

theorem phaseProgram_strict (config : Config) (phase : Phase) : (phaseProgram config phase).Strict Uncaught := by
  cases phase
  case superviseStuckStories =>
    exact (list_strict _).bind fun stories => storiesInProgress_strict.bind fun active =>
      forItems_strict .superviseStuckStories (superviseStuckStory config active) stories
  all_goals exact eachItem_strict _ _

theorem dispatcherCycle_strict (config : Config) : (dispatcherCycle config).Strict Uncaught := by
  rw [dispatcherCycle_eq]
  exact (Prog.Strict.forEach fun phase _ => phaseProgram_strict config phase).bind fun _ => eachItem_strict _ _

def SelectsOnly (phase : Phase) (op : Op) : Prop := ∀ other, op = .list other → other = phase

theorem at_selectsOnly {A : Type} (phase : Phase) (handling : Handling A) (site : Site) :
    (handling.at site).Uses (SelectsOnly phase) := by
  refine (Prog.uses_relabel (J := cycleInterface) _ _ _ handling.1).mono fun op hop other heq => ?_
  obtain ⟨own, rfl⟩ := hop
  cases heq

theorem eachItem_selectsOnly (phase : Phase) (handling : phase.Item → Handling Unit) :
    (eachItem phase handling).Uses (SelectsOnly phase) := by
  refine Prog.Uses.bind (Prog.Uses.perform fun other heq => ?_) fun items =>
    Prog.Uses.forEach fun item _ => at_selectsOnly phase (handling item) _
  cases heq
  rfl

theorem phaseProgram_selectsOnly (config : Config) (phase : Phase) :
    (phaseProgram config phase).Uses (SelectsOnly phase) := by
  cases phase
  case superviseStuckStories =>
    refine Prog.Uses.bind (Prog.Uses.perform fun other heq => ?_) fun stories =>
      Prog.Uses.bind (Prog.Uses.perform fun other heq => ?_) fun active =>
        Prog.Uses.forEach fun item _ => at_selectsOnly _ (superviseStuckStory config active item) _
    · cases heq
      rfl
    · cases heq
  all_goals exact eachItem_selectsOnly _ _

theorem superviseGrants_quiet (config : Config) (grants : List Access.TemporaryAccessGrant) :
    (forItems .superviseTemporaryAccess (superviseGrant config) grants).Quiet Uncaught :=
  Prog.Quiet.forEach fun _ _ =>
    Prog.Quiet.relabel (J := cycleInterface) _ _ _ (fun _ _ => Iff.rfl) (Guarded.handle_quiet _ (pure ()))

variable {config : Config} {calls : List (Call cycleInterface)} {r : Except Exn Unit}

theorem caught_of_selected (h : (dispatcherCycle config).Run calls r) {grants : List Access.TemporaryAccessGrant}
    (hsel : (⟨.list .superviseTemporaryAccess, .ok grants⟩ : Call cycleInterface) ∈ calls) :
    ∀ call ∈ calls, ¬ Uncaught call := by
  have hearlier : (Prog.forEach earlierPhases (phaseProgram config)).Uses (· ≠ Op.list .superviseTemporaryAccess) := by
    refine Prog.Uses.forEach fun phase hphase => (phaseProgram_selectsOnly config phase).mono fun op hop heq => ?_
    rw [← hop _ heq] at hphase
    revert hphase
    decide
  rw [dispatcherCycle_eq] at h
  obtain ⟨e, hrun, _⟩ | ⟨before, after, _, rfl, hrun, hsweep⟩ := h.bind_cases
  · exact absurd rfl (hrun.uses hearlier _ hsel)
  · have hbefore : ∀ call ∈ before, ¬ Uncaught call := by
      intro call hmem huncaught
      obtain ⟨e, he⟩ := (Prog.Strict.forEach (fun phase _ => phaseProgram_strict config phase) _ _ hrun).mp
        ⟨call, hmem, huncaught⟩
      cases he
    have hselected : (⟨.list .superviseTemporaryAccess, .ok grants⟩ : Call cycleInterface) ∈ after :=
      (List.mem_append.mp hsel).resolve_left fun hmem => absurd rfl (hrun.uses hearlier _ hmem)
    have hafter : ∀ call ∈ after, ¬ Uncaught call := by
      obtain ⟨e, hlist, _⟩ | ⟨listing, rest, grants', rfl, hlist, hrest⟩ := hsweep.bind_cases
      · rw [hlist.perform_cases, List.mem_singleton] at hselected
        cases hselected
      · rw [hlist.perform_cases]
        intro call hmem
        rcases List.mem_cons.mp hmem with rfl | hmem
        · simp [Uncaught, uncaught, Call.failed]
        · exact superviseGrants_quiet config grants' _ _ hrest call hmem
    intro call hmem
    rcases List.mem_append.mp hmem with hmem | hmem
    · exact hbefore call hmem
    · exact hafter call hmem

def Completes (config : Config) (phase : Phase) (calls : List (Call cycleInterface)) : Prop :=
  ∃ items : List phase.Item, (⟨.list phase, .ok items⟩ : Call cycleInterface) ∈ calls ∧
    ∀ item ∈ items, Handled config phase item calls

variable {phase : Phase}

theorem Informed.extend {active : List Story} (h : Informed phase calls active)
    (before after : List (Call cycleInterface)) : Informed phase (before ++ calls ++ after) active := by
  cases phase
  case superviseStuckStories => exact List.mem_append_left _ (List.mem_append_right _ h)
  all_goals exact h

theorem Handled.extend {item : phase.Item} (h : Handled config phase item calls)
    (before after : List (Call cycleInterface)) : Handled config phase item (before ++ calls ++ after) := by
  obtain ⟨active, earlier, own, later, rfl, hinformed, hrun⟩ := h
  exact ⟨active, before ++ earlier, own, later ++ after, by simp only [List.append_assoc],
    hinformed.extend before after, hrun⟩

theorem Completes.extend (h : Completes config phase calls) (before after : List (Call cycleInterface)) :
    Completes config phase (before ++ calls ++ after) := by
  obtain ⟨items, hsel, hhandled⟩ := h
  exact ⟨items, List.mem_append_left _ (List.mem_append_right _ hsel),
    fun item hitem => (hhandled item hitem).extend before after⟩

theorem perform_ok {op : Op} {a : op.Res} (h : (perform op).Run calls (.ok a)) :
    calls = [(⟨op, .ok a⟩ : Call cycleInterface)] := h.perform_cases

theorem forItems_handles {active : List Story} {items : List phase.Item}
    (first : List (Call cycleInterface)) (hinformed : Informed phase (first ++ calls) active)
    (h : (forItems phase (phaseHandling config active phase) items).Run calls (.ok ())) :
    ∀ item ∈ items, Handled config phase item (first ++ calls) := by
  intro item hitem
  obtain ⟨before, own, after, rfl, hrun⟩ := h.forEach_ok item hitem
  exact ⟨active, first ++ before, own, after, by simp only [List.append_assoc], hinformed, hrun⟩

theorem eachItem_completes (hphase : ∀ own, Informed phase own [])
    (h : (eachItem phase (phaseHandling config [] phase)).Run calls (.ok ())) : Completes config phase calls := by
  obtain ⟨e, _, hr⟩ | ⟨first, rest, items, rfl, hlist, hrest⟩ := Prog.Run.bind_cases h
  · cases hr
  · refine ⟨items, List.mem_append_left _ ?_, forItems_handles _ (hphase _) hrest⟩
    rw [perform_ok hlist]
    exact List.mem_singleton_self _

theorem superviseStuckStories_completes (h : (superviseStuckStories config).Run calls (.ok ())) :
    Completes config .superviseStuckStories calls := by
  obtain ⟨e, _, hr⟩ | ⟨first, rest, stories, rfl, hlist, hrest⟩ := Prog.Run.bind_cases h
  · cases hr
  · obtain ⟨e, _, hr⟩ | ⟨second, own, active, rfl, hactive, hown⟩ := Prog.Run.bind_cases hrest
    · cases hr
    · rw [perform_ok hlist, perform_ok hactive]
      refine ⟨stories, List.mem_cons_self, ?_⟩
      exact forItems_handles [_, _] (List.mem_cons_of_mem _ List.mem_cons_self) hown

theorem phaseProgram_completes (phase : Phase) (h : (phaseProgram config phase).Run calls (.ok ())) :
    Completes config phase calls := by
  cases phase
  case superviseStuckStories => exact superviseStuckStories_completes h
  all_goals exact eachItem_completes (fun _ => rfl) h

theorem dispatcherCycle_completes (h : (dispatcherCycle config).Run calls (.ok ())) (phase : Phase) :
    Completes config phase calls := by
  rw [dispatcherCycle_eq] at h
  obtain ⟨e, _, hr⟩ | ⟨before, after, _, rfl, hrun, hsweep⟩ := h.bind_cases
  · cases hr
  · by_cases hphase : phase ∈ earlierPhases
    · obtain ⟨earlier, own, later, rfl, hown⟩ := hrun.forEach_ok phase hphase
      have := (phaseProgram_completes phase hown).extend earlier (later ++ after)
      rwa [← List.append_assoc] at this
    · obtain rfl : phase = .superviseTemporaryAccess := by
        cases phase <;> first | rfl | exact absurd (by decide) hphase
      have := (phaseProgram_completes .superviseTemporaryAccess hsweep).extend before []
      rwa [List.append_nil] at this

theorem isolates_iff (h : (dispatcherCycle config).Run calls r) :
    Isolates config calls ↔ ∀ call ∈ calls, ¬ Uncaught call := by
  constructor
  · intro hisolates
    obtain ⟨grants, hsel, _⟩ := hisolates .superviseTemporaryAccess
    exact caught_of_selected h hsel
  · intro hcaught phase
    cases r with
    | ok u =>
      obtain ⟨items, hsel, hhandled⟩ := dispatcherCycle_completes h phase
      exact ⟨items, hsel, fun item hitem _ => hhandled item hitem⟩
    | error e =>
      obtain ⟨call, hmem, huncaught⟩ := (dispatcherCycle_strict config _ _ h).mpr ⟨e, rfl⟩
      exact absurd huncaught (hcaught call hmem)

def EachCycle (P : Config → List (Call cycleInterface) → Prop) (config : Nat → Config) :
    Nat → List (Call cycleInterface) → Prop
  | 0, calls => calls = []
  | n + 1, calls => ∃ own woken rest, calls = own ++ (⟨.sleep, woken⟩ : Call cycleInterface) :: rest ∧
      P (config n) own ∧ EachCycle P config n rest

theorem EachCycle.imp {P Q : Config → List (Call cycleInterface) → Prop} {config : Nat → Config}
    (himp : ∀ config own, P config own → Q config own) {n : Nat} {calls : List (Call cycleInterface)}
    (h : EachCycle P config n calls) : EachCycle Q config n calls := by
  induction n generalizing calls with
  | zero => exact h
  | succ n ih =>
    obtain ⟨own, woken, rest, rfl, hown, hrest⟩ := h
    exact ⟨own, woken, rest, rfl, himp _ _ hown, ih hrest⟩

theorem taskDispatcherLoop_cycles {config : Nat → Config} {n : Nat} (h : (taskDispatcherLoop config n).Run calls r) :
    EachCycle (fun config own => ∃ outcome, (dispatcherCycle config).Run own outcome) config n calls := by
  induction n generalizing calls with
  | zero =>
    cases h
    rfl
  | succ n ih =>
    obtain ⟨e, hrun, _⟩ | ⟨own, rest, _, rfl, hrun, hrest⟩ := Prog.Run.bind_cases h
    · obtain ⟨a, _, hr⟩ | ⟨before, after, e, rfl, _, hrest⟩ := hrun.handle_cases
      · cases hr
      · cases hrest
    · have hcycle : ∃ outcome, (dispatcherCycle (config n)).Run own outcome := by
        obtain ⟨a, hbody, _⟩ | ⟨before, after, e, rfl, hbody, hafter⟩ := hrun.handle_cases
        · exact ⟨_, hbody⟩
        · cases hafter
          rw [List.append_nil]
          exact ⟨_, hbody⟩
      cases hrest with
      | call woken hrest => exact ⟨own, woken, _, rfl, hcycle, ih hrest⟩

theorem cycles_isolate {config : Nat → Config} {n : Nat} (h : (taskDispatcherLoop config n).Run calls r) :
    EachCycle (fun config own => Isolates config own ↔ ∀ call ∈ own, ¬ Uncaught call) config n calls :=
  (taskDispatcherLoop_cycles h).imp fun _ _ ⟨_, hrun⟩ => isolates_iff hrun

def sampleConfig : Config where
  now := 0
  storyStuckThreshold := 10
  maxArchitectRetries := 3
  maxDeployRetries := 3
  maxDeployFixAttempts := 3
  resourceWaitTimeout := 60
  metricsFreshnessSeconds := 300
  qaHandoffRecovery := 5
  ci := ⟨3, fun _ => ""⟩
  qa := ⟨3, 3, fun _ _ => ""⟩
  access := ⟨60, 10, 3, 10, 60, 60, 24⟩

def brokenStory : (op : Op) → Except Exn op.Res
  | .list .superviseDeployingStories =>
    .ok [⟨"broken", "shop", .deploying, 0, none, 0⟩, ⟨"healthy", "blog", .deploying, 0, none, 0⟩]
  | .list _ => .ok []
  | .storiesInProgress => .ok []
  | .sleep => .ok ()
  | .item site (.request _ (.getLatestDeployRun _)) =>
    if site.itemId = "broken" then .error (.exception "HTTPStatusError")
    else .ok (some ⟨"deploy-2", .running, none, 0, none, .absent⟩)
  | .item _ (.request _ _) => .error (.exception "HTTPStatusError")
  | .item _ (.refused error) => .error (.exception error)

theorem brokenStory_cycles :
    EachCycle (fun config own => Isolates config own ↔ ∀ call ∈ own, ¬ Uncaught call) (fun _ => sampleConfig) 2
      ((taskDispatcherLoop (fun _ => sampleConfig) 2).respond brokenStory).1 :=
  cycles_isolate (Prog.respond_run brokenStory (taskDispatcherLoop (fun _ => sampleConfig) 2))

def madeFor (site : Site) (call : Call cycleInterface) : Bool :=
  match call.op with
  | .item other _ => other = site
  | _ => false

/-- One story whose runs cannot be read, and no other call fails: the cycle does
not come to the story after it, and neither to the phases that follow. -/
theorem broken_story_starves :
    ∃ calls outcome, (dispatcherCycle sampleConfig).Run calls outcome ∧
      (∀ call ∈ calls, call.failed = true → madeFor ⟨.superviseDeployingStories, "broken"⟩ call = true) ∧
      (∀ call ∈ calls, madeFor ⟨.superviseDeployingStories, "healthy"⟩ call = false) ∧
      ¬ Isolates sampleConfig calls := by
  refine ⟨_, _, Prog.respond_run brokenStory _, by decide +kernel, by decide +kernel, fun hisolates => ?_⟩
  have huncaught : ∃ call ∈ ((dispatcherCycle sampleConfig).respond brokenStory).1, uncaught call = true := by
    decide +kernel
  obtain ⟨call, hmem, huncaught⟩ := huncaught
  exact (isolates_iff (Prog.respond_run brokenStory _)).mp hisolates call hmem huncaught

end Orchestrator.Cycle
