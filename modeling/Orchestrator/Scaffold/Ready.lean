import Orchestrator.Scaffold.World

/-!
When a workspace is ready: the flag stands for a preparation that came to its
end, and a workspace that is not flagged is prepared again by a later cycle,
where no preparation is cut off unrecorded.
-/

namespace Orchestrator.Scaffold

open Async
open Tasks (ProjectStatus)

def prepared : List Event → Bool
  | .completed :: _ => true
  | .begun :: _ | .removed :: _ | [] => false
  | _ :: older => prepared older

def busy : List Event → Bool
  | .taken :: _ => true
  | .finished :: _ | [] => false
  | _ :: older => busy older

def owing : List Event → Bool
  | .removed :: _ => true
  | .notified :: _ | .swept :: _ | [] => false
  | _ :: older => owing older

def resumable (project : Project) (files : Bool) : Bool :=
  project.config.workspaceReady || project.config.scaffoldError.isSome || !files

def safe (project : Project) (files : Bool) : Prop := project.status = .active → resumable project files = true

def raises {A : Type} : Except Unit A → Bool
  | .error _ => true
  | .ok _ => false

def takesUp : Op → Bool
  | .nextMessage => true
  | _ => false

def beginsPreparation : Op → Bool
  | .command command => State.begins command
  | _ => false

/-- No preparation begins under the flag, none is cut off where it leaves an active project with files
alone, and the collector removes all of a directory nobody is working on, and says so. -/
def steady (s : State) : Move scaffoldWorld → Prop
  | .call .scaffolder op reply =>
      (takesUp op = true → owing s.trace = false) ∧ (beginsPreparation op = true → s.project.config.workspaceReady = false) ∧
        (raises (run .scaffolder op reply s).1 = true →
          safe (run .scaffolder op reply s).2.project (run .scaffolder op reply s).2.files)
  | .stop .scaffolder => safe s.project s.files
  | .call .collector .removeWorkspace reply => busy s.trace = false ∧ reply.left = false
  | .call .collector .notifyWorkspaceDeleted reply => s.project.config.workspaceReady = true → reply.fate.carriedOut = true
  | .stop .collector => owing s.trace = true → s.project.config.workspaceReady = false
  | _ => True

structure Consistent (s : State) : Prop where
  ready : s.project.config.workspaceReady = true → prepared s.trace = true ∨ owing s.trace = true
  removed : owing s.trace = true → s.files = false
  apart : busy s.trace = true → owing s.trace = false

structure Aside (s s' : State) : Prop where
  busy : busy s'.trace = busy s.trace
  frozen : Scaffold.busy s.trace = true → s'.project = s.project ∧ s'.files = s.files ∧ prepared s'.trace = prepared s.trace
  safe : Scaffold.safe s.project s.files → Scaffold.safe s'.project s'.files

theorem Aside.refl (s : State) : Aside s s := ⟨rfl, fun _ => ⟨rfl, rfl, rfl⟩, fun h => h⟩

theorem Aside.trans {s s' s'' : State} (h : Aside s s') (h' : Aside s' s'') : Aside s s'' := by
  refine ⟨h'.busy.trans h.busy, fun hbusy => ?_, fun hsafe => h'.safe (h.safe hsafe)⟩
  obtain ⟨hp, hf, ht⟩ := h.frozen hbusy
  obtain ⟨hp', hf', ht'⟩ := h'.frozen (h.busy.trans hbusy)
  exact ⟨hp'.trans hp, hf'.trans hf, ht'.trans ht⟩

structure Apart (s s' : State) : Prop where
  owing : owing s'.trace = owing s.trace
  frozen : Scaffold.owing s.trace = true → s'.project = s.project

theorem Apart.trans {s s' s'' : State} (h : Apart s s') (h' : Apart s' s'') : Apart s s'' :=
  ⟨h'.owing.trans h.owing, fun howing => (h'.frozen (h.owing.trans howing)).trans (h.frozen howing)⟩

abbrev preparing : Rules scaffoldWorld where
  admits := steady
  inv := Consistent
  rely t s s' := (t = .scaffolder → Aside s s') ∧ (t = .collector → Apart s s')
  rely_refl _ s := ⟨fun _ => .refl s, fun _ => ⟨rfl, fun _ => rfl⟩⟩
  rely_trans h h' := ⟨fun ht => (h.1 ht).trans (h'.1 ht), fun ht => (h.2 ht).trans (h'.2 ht)⟩
  rest t s := (t = .scaffolder → busy s.trace = false ∧ safe s.project s.files) ∧ (t = .collector → owing s.trace = false)
  rest_stable _ h hrest := ⟨fun ht => ⟨(h.1 ht).busy.trans (hrest.1 ht).1, (h.1 ht).safe (hrest.1 ht).2⟩,
    fun ht => (h.2 ht).owing.trans (hrest.2 ht)⟩

def Held (F : Project → Bool → Bool → Prop) (s : State) : Prop := busy s.trace = true ∧ F s.project s.files (prepared s.trace)

abbrev Sound : State → Prop := Held fun project files _ => safe project files

def Leads {A : Type} (Q : A → State → Prop) (p : Job A) (s : State) : Prop :=
  preparing.Safe .scaffolder (fun r s => (∀ a, r = .ok a → Q a s) ∧ ∀ e, r = .error e → Sound s) p s

section Scaffolder

variable {s : State} {A B : Type} {F G : Project → Bool → Bool → Prop}

theorem held_stable : preparing.Stable .scaffolder (Held F) := by
  intro s s' _ hr h
  obtain ⟨hproject, hfiles, hprepared⟩ := (hr.1 rfl).frozen h.1
  refine ⟨(hr.1 rfl).busy.trans h.1, ?_⟩
  rw [hproject, hfiles, hprepared]
  exact h.2

theorem Held.mono (h : Held F s) (hFG : ∀ project files prepared, F project files prepared → G project files prepared) : Held G s :=
  ⟨h.1, hFG _ _ _ h.2⟩

variable {Q : A → State → Prop}

theorem Leads.ret {a : A} (h : Q a s) : Leads Q (.ret a) s :=
  ⟨fun _ heq => by cases heq; exact h, nofun⟩

theorem Leads.bind {R : B → State → Prop} {p : Job A} {f : A → Job B} (hi : Consistent s) (h : Leads Q p s)
    (hf : ∀ a s', Consistent s' → Q a s' → Leads R (f a) s') : Leads R (p.bind f) s := by
  refine Rules.Safe.bind hi h (fun a s' hi' hpost => hf a s' hi' (hpost.1 a rfl)) fun e s' _ hpost => ?_
  exact ⟨nofun, fun _ _ => hpost.2 e rfl⟩

theorem Leads.handle {p : Job A} {handler : Unit → Job A} (hi : Consistent s) (h : Leads Q p s)
    (hh : ∀ e s', Consistent s' → Sound s' → Leads Q (handler e) s') : Leads Q (p.handle handler) s := by
  refine Rules.Safe.handle hi h (fun a s' _ hpost => ⟨fun _ heq => ?_, nofun⟩) fun e s' hi' hpost => hh e s' hi' (hpost.2 e rfl)
  cases heq
  exact hpost.1 a rfl

theorem Leads.mono {Q R : A → State → Prop} {p : Job A} (hi : Consistent s) (h : Leads Q p s) (hq : ∀ a s', Q a s' → R a s') :
    Leads R p s :=
  Rules.Safe.conseq hi h fun _ _ _ hpost => ⟨fun a heq => hq a _ (hpost.1 a heq), hpost.2⟩

structure InJob (s s' : State) : Prop where
  consistent : Consistent s'
  busy : busy s'.trace = true
  owing : owing s'.trace = owing s.trace

theorem InJob.keeps {s' : State} (h : InJob s s') (hi : Consistent s) (hbusy : Scaffold.busy s.trace = true) :
    preparing.Keeps .scaffolder s s' := by
  refine ⟨h.consistent, fun u hu => ⟨fun ht => absurd ht hu, fun _ => ⟨h.owing, fun howing => ?_⟩⟩⟩
  rw [hi.apart hbusy] at howing
  cases howing

theorem call_leads {op : Op} {Q : op.Res → State → Prop} (h : Held F s)
    (hcall : ∀ s reply, Consistent s → Held F s → steady s (.call .scaffolder op reply) → InJob s (run .scaffolder op reply s).2 ∧
      ∀ a, (run .scaffolder op reply s).1 = .ok a → Q a (run .scaffolder op reply s).2) : Leads Q (perform op) s := by
  refine Rules.Safe.perform fun s' hi' hr reply hok => ?_
  have hheld : Held F s' := held_stable s s' hi' hr h
  obtain ⟨hjob, hanswer⟩ := hcall s' reply hi' hheld hok
  refine ⟨hjob.keeps hi' hheld.1, hanswer, fun e heq => ⟨hjob.busy, hok.2.2 ?_⟩⟩
  rw [heq]
  rfl

theorem InJob.refl (hi : Consistent s) (hbusy : Scaffold.busy s.trace = true) : InJob s s := ⟨hi, hbusy, rfl⟩

theorem silent_leads {op : Op} (h : Held F s) (hproject : ∀ reply s, (run .scaffolder op reply s).2.project = s.project)
    (hfiles : ∀ reply s, (run .scaffolder op reply s).2.files = s.files)
    (htrace : ∀ reply s, (run .scaffolder op reply s).2.trace = s.trace) : Leads (fun _ => Held F) (perform op) s := by
  refine call_leads h fun s reply hi hheld _ => ⟨⟨⟨?_, ?_, ?_⟩, ?_, ?_⟩, fun _ _ => ⟨?_, ?_⟩⟩
  · rw [hproject, htrace]
    exact hi.ready
  · rw [hfiles, htrace]
    exact hi.removed
  · rw [htrace]
    exact hi.apart
  · rw [htrace]
    exact hheld.1
  · rw [htrace]
  · rw [htrace]
    exact hheld.1
  · rw [hproject, hfiles, htrace]
    exact hheld.2

theorem ask_leads (call : ServiceCall) (h : Held F s) : Leads (fun _ => Held F) (ask call) s :=
  silent_leads h (fun _ _ => rfl) (fun _ _ => rfl) fun _ _ => rfl

theorem serve_state {fate : Fate Unit} {exec : State → Except Unit A × State} {P : State → Prop} (h : P s) (hexec : P (exec s).2) :
    P (fate.serve exec s).2 := by
  cases fate with
  | unsent e => exact h
  | _ => exact hexec

theorem served_leads {op : Op} {exec : Reply → State → Except Unit op.Res × State} (h : Held F s)
    (hrun : ∀ reply s, run .scaffolder op reply s = reply.fate.serve (exec reply) s)
    (hexec : ∀ reply s, (exec reply s).2.project = s.project ∧ (exec reply s).2.files = s.files ∧ (exec reply s).2.trace = s.trace) :
    Leads (fun _ => Held F) (perform op) s := by
  refine silent_leads h (fun reply s => ?_) (fun reply s => ?_) fun reply s => ?_
  · rw [hrun]
    exact serve_state (P := fun s' => s'.project = s.project) rfl (hexec reply s).1
  · rw [hrun]
    exact serve_state (P := fun s' => s'.files = s.files) rfl (hexec reply s).2.1
  · rw [hrun]
    exact serve_state (P := fun s' => s'.trace = s.trace) rfl (hexec reply s).2.2

theorem serve_leads {op : Op} {Q : op.Res → State → Prop} (exec : State → Except Unit op.Res × State) (h : Held F s)
    (hrun : ∀ reply s, run .scaffolder op reply s = reply.fate.serve exec s)
    (hexec : ∀ s, Consistent s → Held F s → InJob s (exec s).2 ∧ ∀ a, (exec s).1 = .ok a → Q a (exec s).2) :
    Leads Q (perform op) s := by
  refine call_leads h fun s reply hi hheld _ => ?_
  rw [hrun]
  cases reply.fate with
  | served => exact hexec s hi hheld
  | unheard e => exact ⟨(hexec s hi hheld).1, nofun⟩
  | unsent e => exact ⟨.refl hi hheld.1, nofun⟩

theorem getProject_leads (h : Held F s) :
    Leads (fun project => Held fun project' files prepared => project' = project ∧ F project' files prepared) getProject s := by
  refine serve_leads (fun s => (.ok s.project, s)) h (fun _ _ => rfl) fun s hi hheld => ⟨.refl hi hheld.1, ?_⟩
  rintro project ⟨⟩
  exact ⟨hheld.1, rfl, hheld.2⟩

theorem InJob.write {project : Project} (hi : Consistent s) (hbusy : Scaffold.busy s.trace = true)
    (h : project.config.workspaceReady = true → prepared s.trace = true ∨ s.project.config.workspaceReady = true) :
    InJob s { s with project := project } := by
  refine ⟨⟨fun hready => ?_, hi.removed, hi.apart⟩, hbusy, rfl⟩
  rcases h hready with hprepared | hbefore
  · exact .inl hprepared
  · exact hi.ready hbefore

theorem updateProjectConfig_leads {config : ProjectConfig} (h : Held F s) (hready : ∀ project files prepared, F project files prepared →
    config.workspaceReady = true → prepared = true ∨ project.config.workspaceReady = true) :
    Leads (fun _ => Held fun project _ _ => project.config = config) (updateProjectConfig config) s :=
  serve_leads (fun s => (.ok (), { s with project := { s.project with config := config } })) h (fun _ _ => rfl) fun _ hi hheld =>
    ⟨.write hi hheld.1 (hready _ _ _ hheld.2), fun _ _ => ⟨hheld.1, rfl⟩⟩

theorem updateProjectStatus_leads {config : ProjectConfig} {status : ProjectStatus} (h : Held (fun project _ _ => project.config = config) s) :
    Leads (fun _ => Held fun project _ _ => project.config = config) (perform (.updateProjectStatus status)) s :=
  serve_leads (fun s => (.ok (), { s with project := { s.project with status := status } })) h (fun _ _ => rfl) fun _ hi hheld =>
    ⟨.write hi hheld.1 .inr, fun _ _ => ⟨hheld.1, hheld.2⟩⟩

theorem command_leads (c : Command) (h : Held F s) : Leads (fun _ => Held fun _ _ _ => True) (command c) s := by
  refine call_leads h fun s reply hi hheld hok => ?_
  have hbegins := hok.2.1
  change (State.begins c = true → s.project.config.workspaceReady = false) at hbegins
  change InJob s (State.run c reply.outcome reply.left s).2 ∧ ∀ a, _ → Held _ (State.run c reply.outcome reply.left s).2
  have hapart := hi.apart hheld.1
  unfold State.run
  by_cases hc : State.begins c = true
  · rw [if_pos hc]
    refine ⟨⟨⟨fun hready => ?_, fun howing => ?_, fun _ => hapart⟩, hheld.1, rfl⟩, fun _ _ => ⟨hheld.1, trivial⟩⟩
    · rw [hbegins hc] at hready
      cases hready
    · exact absurd (hapart.symm.trans howing) nofun
  · rw [if_neg hc]
    refine ⟨⟨⟨hi.ready, fun howing => ?_, hi.apart⟩, hheld.1, rfl⟩, fun _ _ => ⟨hheld.1, trivial⟩⟩
    exact absurd (hapart.symm.trans howing) nofun

theorem captureTree_leads (h : Held F s) : Leads (fun _ => Held fun _ _ prepared => prepared = true) captureTree s := by
  refine call_leads h fun s reply hi hheld _ => ?_
  change InJob s (State.captureTree reply.tree s).2 ∧ ∀ a, (State.captureTree reply.tree s).1 = .ok a → Held _ (State.captureTree reply.tree s).2
  unfold State.captureTree
  cases reply.tree with
  | ok _ => exact ⟨⟨⟨fun _ => .inl rfl, hi.removed, hi.apart⟩, hheld.1, rfl⟩, fun _ _ => ⟨hheld.1, rfl⟩⟩
  | error e => exact ⟨.refl hi hheld.1, nofun⟩

def After (skipped : State → Prop) : ScaffoldResult → State → Prop
  | .skipped => skipped
  | .success => Held fun _ _ prepared => prepared = true
  | .failed _ => Held fun _ _ _ => True

theorem Held.plain (h : Held F s) : Held (fun _ _ _ => True) s := h.mono fun _ _ _ _ => trivial

theorem runAll_leads (commands : List Command) (hi : Consistent s) (h : Held F s) :
    Leads (fun _ => Held fun _ _ _ => True) (runAll commands) s := by
  induction commands generalizing s F with
  | nil => exact .ret h.plain
  | cons c rest ih =>
    refine .bind hi (command_leads c h) fun outcome s₁ hi₁ h₁ => ?_
    split
    · exact ih hi₁ h₁
    · exact .ret h₁

variable {skipped : State → Prop}

theorem runSteps_leads {next : Job ScaffoldResult} (steps : List (List Command × String))
    (hnext : ∀ s, Consistent s → Held (fun _ _ _ => True) s → Leads (After skipped) next s) (hi : Consistent s) (h : Held F s) :
    Leads (After skipped) (runSteps next steps) s := by
  induction steps generalizing s F with
  | nil => exact hnext s hi h.plain
  | cons step rest ih =>
    refine .bind hi (runAll_leads step.1 hi h) fun ok s₁ hi₁ h₁ => ?_
    split
    · exact ih hi₁ h₁
    · exact .ret h₁

theorem complete_leads (hi : Consistent s) (h : Held F s) : Leads (After skipped) complete s := by
  refine .bind hi (command_leads _ h) fun _ s₁ hi₁ h₁ => ?_
  exact .bind hi₁ (captureTree_leads h₁) fun _ _ _ h₂ => .ret h₂

theorem runEnsureWorkspace_leads (repoExistsOnGithub : Bool) (hi : Consistent s) (h : Sound s) :
    Leads (After Sound) (runEnsureWorkspace repoExistsOnGithub) s := by
  refine .bind hi (ask_leads _ h) fun (valid : Bool) s₁ hi₁ h₁ => ?_
  split
  · refine .bind hi₁ (served_leads h₁ (fun _ _ => rfl) fun _ _ => ⟨rfl, rfl, rfl⟩) fun (hasFiles : Bool) s₂ hi₂ h₂ => ?_
    split
    · exact .ret h₂
    split
    · exact runSteps_leads _ (fun _ hi h => complete_leads hi h) hi₂ h₂
    · exact .ret h₂.plain
  · exact .ret h₁.plain

theorem initOrigin_leads (hi : Consistent s) (h : Held F s) : Leads (fun _ => Held fun _ _ _ => True) initOrigin s := by
  refine .bind hi (command_leads _ h) fun init s₁ hi₁ h₁ => ?_
  split
  · exact .bind hi₁ (command_leads _ h₁) fun _ _ _ h₂ => .ret h₂
  · exact .ret h₁

theorem commit_leads (hi : Consistent s) (h : Held F s) : Leads (fun _ => Held fun _ _ _ => True) commit s := by
  refine .bind hi (command_leads _ h) fun outcome s₁ hi₁ h₁ => ?_
  split
  · exact .ret h₁
  · exact .bind hi₁ (command_leads _ h₁) fun _ _ _ h₂ => .ret h₂

theorem pushScaffold_leads (hi : Consistent s) (h : Held F s) : Leads (After skipped) pushScaffold s := by
  refine .bind hi (commit_leads hi h) fun committed s₁ hi₁ h₁ => ?_
  split
  · exact runSteps_leads _ (fun _ hi h => complete_leads hi h) hi₁ h₁
  · exact .ret h₁

theorem runScaffold_leads (hi : Consistent s) (h : Held F s) : Leads (After skipped) runScaffold s := by
  refine .bind hi (ask_leads _ h) fun (valid : Bool) s₁ hi₁ h₁ => ?_
  split
  · refine .bind hi₁ (initOrigin_leads hi₁ h₁) fun origin s₂ hi₂ h₂ => ?_
    split
    · refine .bind hi₂ (runAll_leads _ hi₂ h₂) fun fetched s₃ hi₃ h₃ => ?_
      split
      · refine .bind hi₃ (.bind hi₃ (command_leads _ h₃) fun _ _ _ h => .ret h) fun _ s₄ hi₄ (h₄ : Held (fun _ _ _ => True) s₄) => ?_
        exact runSteps_leads _ (fun _ hi h => pushScaffold_leads hi h) hi₄ h₄
      · exact .ret h₃
    · exact .ret h₂
  · exact .ret h₁.plain

theorem updateProjectOnSuccess_leads (hi : Consistent s) (h : Held (fun _ _ prepared => prepared = true) s) :
    Leads (fun _ => Held fun project _ _ => project.config = ⟨true, none⟩) updateProjectOnSuccess s := by
  refine .bind hi (getProject_leads h) fun _ s₁ hi₁ h₁ => ?_
  refine .bind hi₁ (ask_leads _ h₁) fun _ s₂ _ h₂ => ?_
  exact updateProjectConfig_leads h₂ fun _ _ _ h _ => .inl h.2

theorem markScaffoldError_leads (error : String) (hi : Consistent s) (h : Held F s) : Leads (fun _ => Sound) (markScaffoldError error) s := by
  refine .handle hi (.bind hi (getProject_leads h) fun project s₁ hi₁ h₁ => ?_) fun _ _ _ h => .ret h
  refine .mono hi₁ (updateProjectConfig_leads h₁ fun _ _ _ h hready => .inr ?_) fun _ _ hmarked => hmarked.mono fun project' files _ heq _ => ?_
  · rw [h.1]
    exact hready
  · rw [resumable, heq, Option.isSome_some, Bool.or_true, Bool.true_or]

theorem sound_of_ready (h : Held (fun project _ _ => project.config = ⟨true, none⟩) s) : Sound s :=
  h.mono fun project files _ heq _ => by rw [resumable, heq, Bool.true_or, Bool.true_or]

theorem ask_maintains (call : ServiceCall) : preparing.Maintains .scaffolder (Held F) (ask call) :=
  .perform held_stable fun _ hi h _ _ => ⟨(InJob.refl hi h.1).keeps hi h.1, h⟩

theorem tryService_leads (call : ServiceCall) (hF : ∀ project files prepared, F project files prepared → safe project files)
    (hi : Consistent s) (h : Held F s) : Leads (fun _ => Held F) (tryService call) s := by
  have hkeeps : preparing.Maintains .scaffolder (Held F) (tryService call) :=
    .handle ((ask_maintains call).bind fun _ => .ret _) fun _ => .ret _
  exact Rules.Safe.conseq hi (hkeeps s hi h) fun _ _ _ h => ⟨fun _ _ => h, fun _ _ => h.mono hF⟩

theorem settleEnsure_leads (result : ScaffoldResult) (hi : Consistent s) (h : After Sound result s) :
    Leads (fun _ => Sound) (settleEnsure result) s := by
  cases result with
  | skipped => exact .ret h
  | success => exact .mono hi (updateProjectOnSuccess_leads hi h) fun _ _ h => sound_of_ready h
  | failed error => exact markScaffoldError_leads (F := fun _ _ _ => True) error hi h

theorem settleFull_leads (result : ScaffoldResult) (hi : Consistent s) (h : After (fun _ => False) result s) :
    Leads (fun _ => Sound) (settleFull result) s := by
  have hready : ∀ (project : Project) (files _ : Bool), project.config = ⟨true, none⟩ → safe project files :=
    fun project files _ heq _ => by rw [resumable, heq, Bool.true_or, Bool.true_or]
  cases result with
  | skipped => exact h.elim
  | success =>
    refine .bind hi (updateProjectOnSuccess_leads hi h) fun _ s₁ hi₁ h₁ => ?_
    refine .bind hi₁ (tryService_leads _ hready hi₁ h₁) fun _ s₂ hi₂ h₂ => ?_
    refine .bind hi₂ (tryService_leads _ hready hi₂ h₂) fun _ s₃ hi₃ h₃ => ?_
    exact .mono hi₃ (updateProjectStatus_leads h₃) fun _ _ h => h.mono hready
  | failed error =>
    refine .bind hi (markScaffoldError_leads (F := fun _ _ _ => True) error hi h) fun _ s₁ hi₁ h₁ => ?_
    exact tryService_leads _ (fun _ _ _ h => h) hi₁ h₁

theorem route_leads (mode : Mode) (hi : Consistent s) (h : Sound s) : Leads (fun _ => Sound) (route mode) s := by
  cases mode with
  | ensure =>
    have hexists : Leads (fun _ => Sound) repoExists s :=
      .handle hi (.bind hi (ask_leads _ h) fun _ _ _ h => .ret h) fun _ _ _ h => .ret h
    refine .bind hi hexists fun onGithub s₁ hi₁ h₁ => ?_
    exact .bind hi₁ (runEnsureWorkspace_leads onGithub hi₁ h₁) fun result _ hi₂ h₂ => settleEnsure_leads result hi₂ h₂
  | full =>
    refine .bind hi (ask_leads _ h) fun _ s₁ hi₁ h₁ => ?_
    refine .bind hi₁ (ask_leads _ h₁) fun _ s₂ hi₂ h₂ => ?_
    refine .bind hi₂ (ask_leads _ h₂) fun _ s₃ hi₃ h₃ => ?_
    exact .bind hi₃ (runScaffold_leads hi₃ h₃) fun result _ hi₄ h₄ => settleFull_leads result hi₄ h₄

theorem processScaffoldJob_leads (mode : Mode) (hi : Consistent s) (h : Sound s) :
    Leads (fun _ => Sound) (processScaffoldJob mode) s := by
  refine .bind hi (ask_leads _ h) fun (lease : Bool) s₁ hi₁ h₁ => ?_
  split
  · have hroute : Leads (fun _ => Sound) ((ask .getOrgToken).bind fun _ => route mode) s₁ :=
      .bind hi₁ (ask_leads _ h₁) fun _ _ hi h => route_leads mode hi h
    have hcaught : Leads (fun _ => Sound) (((ask .getOrgToken).bind fun _ => route mode).handle fun _ => .ret ()) s₁ :=
      .handle hi₁ hroute fun _ _ _ h => .ret h
    exact .bind hi₁ hcaught fun _ _ _ h => ask_leads _ h
  · exact .ret h₁

theorem deliver_safe (hi : Consistent s) (hsafe : safe s.project s.files) :
    preparing.Safe .scaffolder (fun _ s => safe s.project s.files) deliver s := by
  have hjob (mode : Mode) {s : State} (hi : Consistent s) (h : Sound s) : Leads (fun _ => Sound)
      ((((processScaffoldJob mode).bind fun _ => perform (.ack mode)).handle fun _ => .ret ()).bind fun _ => perform .deleteInflight) s := by
    have hacked : Leads (fun _ => Sound) (((processScaffoldJob mode).bind fun _ => perform (.ack mode)).handle fun _ => .ret ()) s :=
      .handle hi (.bind hi (processScaffoldJob_leads mode hi h) fun _ _ _ h =>
        served_leads h (fun _ _ => rfl) fun _ _ => ⟨rfl, rfl, rfl⟩) fun _ _ _ h => .ret h
    exact .bind hi hacked fun _ _ _ h => served_leads h (fun _ _ => rfl) fun _ _ => ⟨rfl, rfl, rfl⟩
  refine Rules.Safe.bind (M := fun r s => safe s.project s.files ∧ ∀ mode, r = .ok mode → Sound s) hi ?_
    (fun mode s₁ hi₁ h₁ => ?_) fun _ _ _ h => h.1
  · refine Rules.Safe.perform fun s' hi' hr reply hok => ?_
    have hsafe' := (hr.1 rfl).safe hsafe
    have howing : owing s'.trace = false := hok.1 rfl
    change preparing.Keeps .scaffolder s' (State.nextMessage reply.pick s').2 ∧
      safe (State.nextMessage reply.pick s').2.project (State.nextMessage reply.pick s').2.files ∧
      ∀ mode, (State.nextMessage reply.pick s').1 = .ok mode → Sound (State.nextMessage reply.pick s').2
    unfold State.nextMessage
    split
    · refine ⟨⟨⟨hi'.ready, hi'.removed, fun _ => howing⟩, fun u hu => ⟨fun ht => absurd ht hu, fun _ => ⟨rfl, fun _ => rfl⟩⟩⟩, hsafe', ?_⟩
      exact fun _ _ => ⟨rfl, hsafe'⟩
    · exact ⟨.refl preparing hi', hsafe', nofun⟩
  · exact Rules.Safe.conseq hi₁ (hjob mode hi₁ (h₁.2 mode rfl)) fun r s _ hpost => by
      cases r with
      | ok u => exact (hpost.1 u rfl).2
      | error e => exact (hpost.2 e rfl).2

end Scaffolder

section Others

variable {s : State}

theorem other_keeps {t : Party} {s' : State} (hi : Consistent s) (hproject : s'.project = s.project) (hfiles : s'.files = s.files)
    (htrace : s'.trace = s.trace) : preparing.Keeps t s s' := by
  have hi' : Consistent s' := by
    refine ⟨?_, ?_, ?_⟩
    · rw [hproject, htrace]
      exact hi.ready
    · rw [hfiles, htrace]
      exact hi.removed
    · rw [htrace]
      exact hi.apart
  refine ⟨hi', fun u hu => ⟨fun _ => ⟨?_, fun _ => ⟨hproject, hfiles, ?_⟩, ?_⟩, fun _ => ⟨?_, fun _ => hproject⟩⟩⟩
  · rw [htrace]
  · rw [htrace]
  · rw [hproject, hfiles]
    exact id
  · rw [htrace]

def Told (s : State) : Prop := owing s.trace = true → s.project.config.workspaceReady = false

theorem told_stable : preparing.Stable .collector Told := by
  intro s s' _ hr h howing
  rw [(hr.2 rfl).owing] at howing
  rw [(hr.2 rfl).frozen howing]
  exact h howing

theorem remove_aside {left : Bool} (hbusy : busy s.trace = false) (hleft : left = false) :
    Aside s ({ s with files := left }.record .removed) := by
  refine ⟨rfl, fun h => absurd (hbusy.symm.trans h) nofun, fun _ _ => ?_⟩
  change resumable s.project left = true
  rw [hleft, resumable, Bool.not_false, Bool.or_true]

theorem notified_aside (hi : Consistent s) (howing : owing s.trace = true) : Aside s ({ s with
    project := { s.project with config := { s.project.config with workspaceReady := false } } }.record .notified) := by
  refine ⟨rfl, fun hbusy => ?_, fun _ _ => ?_⟩
  · rw [hi.apart hbusy] at howing
    cases howing
  · change resumable _ s.files = true
    rw [hi.removed howing, resumable, Bool.not_false, Bool.or_true]

theorem collectWorkspace_safe (hi : Consistent s) (hrest : owing s.trace = false) :
    preparing.Safe .collector (fun _ => Told) collectWorkspace s := by
  have htold {s : State} (h : owing s.trace = false) : Told s := fun howing => absurd (h.symm.trans howing) nofun
  have hplain : preparing.Maintains .collector Told olderThanMaxAge :=
    .perform told_stable fun _ hi h _ _ => ⟨.refl preparing hi, h⟩
  refine Rules.Safe.bind (M := fun _ => Told) hi (hplain s hi (htold hrest)) (fun old s₁ hi₁ h₁ => ?_) fun _ _ _ h => h
  split
  · refine Rules.Safe.bind (M := fun r s => r = .ok () ∧ owing s.trace = true) hi₁ ?_ (fun _ s₂ hi₂ h₂ => ?_) fun _ _ _ h => nomatch h.1
    · refine Rules.Safe.perform fun s' hi' _ reply hok => ⟨⟨⟨fun _ => .inr rfl, fun _ => hok.2, fun hbusy => ?_⟩, ?_⟩, rfl, rfl⟩
      · exact absurd (hok.1.symm.trans hbusy) nofun
      · exact fun u hu => ⟨fun _ => remove_aside hok.1 hok.2, fun ht => absurd ht hu⟩
    · refine Rules.Safe.handle (M := fun _ => Told) hi₂ ?_ (fun _ _ _ h => h) fun _ _ _ h => h
      refine Rules.Safe.perform fun s' hi' hr reply hok => ?_
      have howing : owing s'.trace = true := ((hr.2 rfl).owing).trans h₂.2
      have hnotified : preparing.Keeps .collector s' ({ s' with
          project := { s'.project with config := { s'.project.config with workspaceReady := false } } }.record .notified) :=
        ⟨⟨nofun, nofun, fun _ => rfl⟩, fun u hu => ⟨fun _ => notified_aside hi' howing, fun ht => absurd ht hu⟩⟩
      change preparing.Keeps .collector s' (reply.fate.serve _ s').2 ∧ Told (reply.fate.serve _ s').2
      cases hfate : reply.fate with
      | unsent e =>
        refine ⟨.refl preparing hi', fun _ => Bool.eq_false_iff.mpr fun hready => ?_⟩
        have hcarried := hok hready
        rw [hfate] at hcarried
        cases hcarried
      | _ => exact ⟨hnotified, fun _ => rfl⟩
  · exact h₁

theorem triggerScaffolds_maintains : preparing.Maintains .scheduler (fun _ => True) triggerScaffolds := by
  have hstable : preparing.Stable .scheduler fun _ => True := fun _ _ _ _ _ => trivial
  have hother {op : Op} (h : ∀ reply s, (run .scheduler op reply s).2.project = s.project ∧
      (run .scheduler op reply s).2.files = s.files ∧ (run .scheduler op reply s).2.trace = s.trace) :
      preparing.Maintains .scheduler (fun _ => True) (perform op) :=
    .perform hstable fun s hi _ reply _ => ⟨other_keeps hi (h reply s).1 (h reply s).2.1 (h reply s).2.2, trivial⟩
  have hserved {op : Op} {exec : State → Except Unit op.Res × State}
      (hrun : ∀ reply s, run .scheduler op reply s = reply.fate.serve exec s)
      (hexec : ∀ s, (exec s).2.project = s.project ∧ (exec s).2.files = s.files ∧ (exec s).2.trace = s.trace) :
      preparing.Maintains .scheduler (fun _ => True) (perform op) := by
    refine hother fun reply s => ?_
    rw [hrun]
    exact serve_state (P := fun s' => s'.project = s.project ∧ s'.files = s.files ∧ s'.trace = s.trace) ⟨rfl, rfl, rfl⟩ (hexec s)
  have hwith (work : Job Bool) (hwork : preparing.Maintains .scheduler (fun _ => True) work) (mode : Mode) :
      preparing.Maintains .scheduler (fun _ => True) (triggerWith work mode) := by
    refine hwork.bind fun found => ?_
    split
    · refine .bind (hother fun _ _ => ⟨rfl, rfl, rfl⟩) fun (repos : Bool) => ?_
      split
      · refine .bind (hserved (fun _ _ => rfl) fun _ => ⟨rfl, rfl, rfl⟩) fun (marked : Bool) => ?_
        cases marked with
        | true => exact hserved (fun _ _ => rfl) fun _ => ⟨rfl, rfl, rfl⟩
        | false => exact .ret _
      · exact .ret _
    · exact .ret _
  refine .bind (hserved (fun _ _ => rfl) fun _ => ⟨rfl, rfl, rfl⟩) fun (project : Project) => ?_
  split
  · unfold triggerFullScaffold
    split
    · exact .ret _
    · exact hwith _ (hother fun _ _ => ⟨rfl, rfl, rfl⟩) _
  · unfold triggerEnsureScaffold
    split
    · exact .ret _
    · exact hwith _ (hother fun _ _ => ⟨rfl, rfl, rfl⟩) _
  · exact .ret _
  · exact .ret _

theorem outside_keeps (execution : Nat) (change : OutsideChange) (hi : Consistent s) :
    preparing.Keeps (.outside execution) s (change.apply s) := by
  cases change <;> exact other_keeps hi rfl rfl rfl

end Others

section Runs

variable {c : Config scaffoldWorld}

variable {outcome : Option (Except Unit Unit)}

variable {s : State}

theorem finished_ends (hi : Consistent s) (hsafe : safe s.project s.files) :
    preparing.Ends .scaffolder outcome s :=
  ⟨⟨⟨hi.ready, hi.removed, nofun⟩, fun _ hu => ⟨fun ht => absurd ht hu, fun _ => ⟨rfl, fun _ => rfl⟩⟩⟩, fun _ => ⟨rfl, hsafe⟩, nofun⟩

theorem swept_ends (hi : Consistent s) (htold : Told s) :
    preparing.Ends .collector outcome s := by
  refine ⟨⟨⟨fun hready => ?_, nofun, fun _ => rfl⟩, fun _ hu => ⟨fun _ => ⟨rfl, fun _ => ⟨rfl, rfl, rfl⟩, id⟩, fun ht => absurd ht hu⟩⟩,
    nofun, fun _ => rfl⟩
  rcases hi.ready hready with hprepared | howing
  · exact .inl hprepared
  · exact absurd ((htold howing).symm.trans hready) nofun

theorem plain_ends {t : Party} (hi : Consistent s) (hscaffolder : t ≠ .scaffolder)
    (hcollector : t ≠ .collector) : preparing.Ends t outcome s := by
  have hended : ended t outcome s = s := by
    cases t with
    | scaffolder => exact absurd rfl hscaffolder
    | collector => exact absurd rfl hcollector
    | _ => rfl
  refine ⟨?_, fun ht => absurd ht hscaffolder, fun ht => absurd ht hcollector⟩
  change preparing.Keeps t s (ended t outcome s)
  rw [hended]
  exact .refl preparing hi

def opening (status : ProjectStatus) : State := ⟨⟨status, ⟨false, none⟩⟩, false, [], false, []⟩

theorem opening_sound (status : ProjectStatus) : preparing.Sound (.idle (opening status) : Config scaffoldWorld) :=
  .idle ⟨nofun, nofun, nofun⟩ fun _ => ⟨fun _ => ⟨rfl, fun _ => rfl⟩, fun _ => rfl⟩

theorem reaches_sound {status : ProjectStatus} (h : Reaches body steady (.idle (opening status)) c) : preparing.Sound c := by
  refine Rules.reaches_sound (opening_sound status) (fun t s hi hrest _ => ?_) (fun t s hi hok => ?_) h
  · cases t with
    | scaffolder => exact Rules.Safe.conseq hi (deliver_safe hi (hrest.1 rfl).2) fun _ _ hi' h => finished_ends hi' h
    | collector => exact Rules.Safe.conseq hi (collectWorkspace_safe hi (hrest.2 rfl)) fun _ _ hi' h => swept_ends hi' h
    | scheduler => exact Rules.Safe.conseq hi (triggerScaffolds_maintains s hi trivial) fun _ _ hi' _ => plain_ends hi' nofun nofun
    | outside execution =>
      refine Rules.Safe.perform fun s' hi' _ reply _ => ?_
      have hkeeps := outside_keeps execution reply.change hi'
      exact ⟨hkeeps, plain_ends hkeeps.inv nofun nofun⟩
  · cases t with
    | scaffolder => exact finished_ends hi hok
    | collector => exact swept_ends hi hok
    | _ => exact plain_ends hi nofun nofun

def servedService : (call : ServiceCall) → Except Unit call.Res
  | .beginScaffoldWork | .validateInput _ | .olderThanMaxAge | .getStoriesByProject | .getTodoTasks | .getRepositories => .ok true
  | .finishScaffoldWork | .getOrgToken | .createRepo | .updateRepository | .setRegistrySecrets | .getRepo | .extractSpecsSummary
  | .updateBranchProtection | .enableRepoAutoMerge | .failStories => .ok ()

def servedReply : Reply := ⟨.served, servedService, .ok ⟨true, false⟩, .ok (), true, 0, .expireInflight⟩

/-- A cycle of the scheduler and the delivery of what it publishes, where there is work and everything
succeeds; the trace is its own. -/
def nextCycle (s : State) : State :=
  (solo scaffoldWorld .scaffolder (fun _ => some servedReply) deliver
    (solo scaffoldWorld .scheduler (fun _ => some servedReply) triggerScaffolds { s with trace := [] }).2).2

structure Persisting (c : Config scaffoldWorld) : Prop where
  idle : c.task .scaffolder = none
  watched : c.state.project.status = .draft ∨ c.state.project.status = .active
  queue : c.state.queue = []
  inflight : c.state.inflight = false

theorem nextCycle_prepares (hqueue : s.queue = []) (hinflight : s.inflight = false)
    (hready : s.project.config.workspaceReady = false) (herror : s.project.config.scaffoldError = none)
    (hstatus : s.project.status = .draft ∨ s.project.status = .active ∧ s.files = false) :
    (nextCycle s).project.config.workspaceReady = true ∧ prepared (nextCycle s).trace = true := by
  obtain ⟨⟨status, ready, error⟩, files, queue, inflight, trace⟩ := s
  cases hqueue
  cases hinflight
  cases hready
  cases herror
  change (nextCycle ⟨⟨status, false, none⟩, files, [], false, []⟩).project.config.workspaceReady = true ∧
    prepared (nextCycle ⟨⟨status, false, none⟩, files, [], false, []⟩).trace = true
  rcases hstatus with rfl | ⟨rfl, hfiles⟩
  · cases files <;> decide +kernel
  · cases hfiles
    decide +kernel

/-- The flag stands for a preparation that came to its end, and without the flag an error is recorded
or the next cycle prepares the workspace. -/
theorem workspace_ready_or_resumed {status : ProjectStatus} (h : Reaches body steady (.idle (opening status)) c) :
    (owing c.state.trace = false → c.state.project.config.workspaceReady = true → prepared c.state.trace = true) ∧
      (Persisting c → c.state.project.config.workspaceReady = true ∨ c.state.project.config.scaffoldError.isSome = true ∨
        (nextCycle c.state).project.config.workspaceReady = true ∧ prepared (nextCycle c.state).trace = true) := by
  have hsound := reaches_sound h
  refine ⟨fun howing hready => ?_, fun hpersisting => ?_⟩
  · exact (hsound.inv.ready hready).resolve_right fun h => absurd (howing.symm.trans h) nofun
  · have hsafe := ((hsound.rest .scaffolder hpersisting.idle).1 rfl).2
    cases hready : c.state.project.config.workspaceReady with
    | true => exact .inl rfl
    | false =>
      cases herror : c.state.project.config.scaffoldError with
      | some error => exact .inr (.inl rfl)
      | none =>
        refine .inr (.inr (nextCycle_prepares hpersisting.queue hpersisting.inflight hready herror ?_))
        refine hpersisting.watched.imp id fun hactive => ⟨hactive, ?_⟩
        have hresumable := hsafe hactive
        rw [resumable, hready, herror] at hresumable
        simpa using hresumable

end Runs

section Wedged

structure Wedged (s : State) : Prop where
  status : s.project.status = .active
  ready : s.project.config.workspaceReady = false
  error : s.project.config.scaffoldError = none
  files : s.files = true
  queue : s.queue = []
  inflight : s.inflight = false

theorem Wedged.next {s : State} (h : Wedged s) : Wedged (nextCycle s) := by
  obtain ⟨⟨status, ready, error⟩, files, queue, inflight, trace⟩ := s
  obtain ⟨hstatus, hready, herror, hfiles, hqueue, hinflight⟩ := h
  cases hstatus
  cases hready
  cases herror
  cases hfiles
  cases hqueue
  cases hinflight
  have hnext : nextCycle ⟨⟨.active, false, none⟩, true, [], false, []⟩ = ⟨⟨.active, false, none⟩, true, [], false, [.taken]⟩ := by
    decide +kernel
  change Wedged (nextCycle ⟨⟨.active, false, none⟩, true, [], false, []⟩)
  rw [hnext]
  exact ⟨rfl, rfl, rfl, rfl, rfl, rfl⟩

theorem Wedged.cycles {s : State} (h : Wedged s) (cycles : Nat) : Wedged (nextCycle^[cycles] s) := by
  induction cycles generalizing s with
  | zero => exact h
  | succ cycles ih => exact ih h.next

end Wedged

instance (project : Project) (files : Bool) : Decidable (safe project files) :=
  inferInstanceAs (Decidable (project.status = .active → resumable project files = true))

instance (s : State) (m : Move scaffoldWorld) : Decidable (steady s m) := by
  unfold steady
  split <;> infer_instance

def calls (t : Party) (n : Nat) (reply : Reply) : List (Turn scaffoldWorld) := .start t :: List.replicate n (.call t fun _ => reply)

def ensured : List (Turn scaffoldWorld) := calls .scheduler 5 servedReply ++ calls .scaffolder 20 servedReply

def played (turns : List (Turn scaffoldWorld)) : Config scaffoldWorld := (Config.idle (opening .active)).play body turns

theorem ensured_prepared : prepared (played ensured).state.trace = true := by
  have hreaches : Reaches body steady (.idle (opening .active)) (played ensured) := play_reaches (by decide +kernel)
  exact (workspace_ready_or_resumed hreaches).1 (by decide +kernel) (by decide +kernel)

def interrupted : Config scaffoldWorld :=
  played (calls .scheduler 5 servedReply ++ calls .scaffolder 7 servedReply ++ [.stop .scaffolder] ++ calls .scaffolder 20 servedReply)

def untold : Config scaffoldWorld :=
  played (ensured ++ calls .collector 2 { servedReply with left := false } ++ [.call .collector fun _ => { servedReply with fate := .unsent () }])

theorem workspace_wedged_or_missing :
    (∃ c : Config scaffoldWorld, Reaches body anyMove (.idle (opening .active)) c ∧ Persisting c ∧
        c.state.project.config.workspaceReady = false ∧ c.state.project.config.scaffoldError = none ∧
        ∀ cycles, (nextCycle^[cycles] c.state).project.config.workspaceReady = false) ∧
      ∃ c : Config scaffoldWorld, Reaches body anyMove (.idle (opening .active)) c ∧ owing c.state.trace = false ∧
        c.state.project.config.workspaceReady = true ∧ prepared c.state.trace = false := by
  have hidle : (interrupted.task .scaffolder).isNone = true := by decide +kernel
  have hwedged : Wedged interrupted.state :=
    ⟨by decide +kernel, by decide +kernel, by decide +kernel, by decide +kernel, by decide +kernel, by decide +kernel⟩
  refine ⟨⟨interrupted, play_reaches_anyMove _ _ _, ⟨Option.isNone_iff_eq_none.mp hidle, .inr hwedged.status, hwedged.queue,
    hwedged.inflight⟩, hwedged.ready, hwedged.error, fun cycles => (hwedged.cycles cycles).ready⟩,
    untold, play_reaches_anyMove _ _ _, ?_, ?_, ?_⟩ <;> decide +kernel

end Orchestrator.Scaffold
