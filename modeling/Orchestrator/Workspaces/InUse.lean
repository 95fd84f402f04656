import Orchestrator.Workspaces.Manager

/-!
The collector spares what is in use: a directory that is old enough to go is mounted by
no developer worker, a project without a worker is locked by none.
-/

namespace Orchestrator.Workspaces

open Async Async.Rules
open Turns (Exn WorkerType)

structure Guarded (s : State) : Prop where
  evidence : ∀ projectId workerId, s.locks.lookup projectId = some workerId →
    (s.fields workerId).heldProjectId = some projectId
  spared : ∀ event ∈ s.trace, event.harmless = true

structure Spares (t : Party) (s s' : State) : Prop where
  busy : ∀ workerId, s.busy workerId = some t → s'.busy workerId = some t
  fields : ∀ workerId, s.busy workerId = some t → s'.fields workerId = s.fields workerId
  locks : ∀ workerId, s.busy workerId = some t → ∀ projectId,
    s'.locks.lookup projectId = some workerId ↔ s.locks.lookup projectId = some workerId
  examining : t = .collector → ∀ projectId, s.examining = some projectId → s'.examining = some projectId ∧
    ∀ workerId, s'.locks.lookup projectId = some workerId → s.locks.lookup projectId = some workerId

theorem Spares.refl (t : Party) (s : State) : Spares t s s :=
  ⟨fun _ h => h, fun _ _ => rfl, fun _ _ _ => .rfl, fun _ _ h => ⟨h, fun _ hlock => hlock⟩⟩

theorem Spares.trans {t : Party} {s s' s'' : State} (h : Spares t s s') (h' : Spares t s' s'') : Spares t s s'' where
  busy workerId hbusy := h'.busy workerId (h.busy workerId hbusy)
  fields workerId hbusy := (h'.fields workerId (h.busy workerId hbusy)).trans (h.fields workerId hbusy)
  locks workerId hbusy projectId :=
    (h'.locks workerId (h.busy workerId hbusy) projectId).trans (h.locks workerId hbusy projectId)
  examining ht projectId hexamining := by
    obtain ⟨hmid, hlocks⟩ := h.examining ht projectId hexamining
    obtain ⟨hend, hlocks'⟩ := h'.examining ht projectId hmid
    exact ⟨hend, fun workerId hlock => hlocks workerId (hlocks' workerId hlock)⟩

/-- One command at a time works on a worker, a worker that holds a lock is not created
again, no lock is taken of a project that the collector is about to drop, and the
workspace of a worker that develops is not older than what the collector removes. -/
def orderly : State → Move workspacesWorld → Prop
  | s, .call _ (.hsetWorkerType workerId _) reply =>
    reply.fate.carriedOut = true → s.busy workerId = none ∧ s.holdsLock workerId = false
  | s, .call (.delete _) (.hgetall workerId) reply => reply.fate.carriedOut = true → s.busy workerId = none
  | s, .call _ (.setLockNx projectId _) reply =>
    reply.fate.carriedOut = true → s.locks.lookup projectId = none → s.examining ≠ some projectId
  | s, .call _ (.sweepDirectory now maxAgeHours entry) reply =>
    reply.fate.carriedOut = true → reply.statable = true → reply.resolved = true →
      s.stale now maxAgeHours entry = true → s.mounted entry = false
  | _, _ => True

instance (s : State) (m : Move workspacesWorld) : Decidable (orderly s m) := by
  unfold orderly
  split <;> infer_instance

abbrev workspacesRules : Rules workspacesWorld where
  admits := orderly
  inv := Guarded
  rely := Spares
  rely_refl := Spares.refl
  rely_trans := Spares.trans
  rest _ _ := True
  rest_stable _ _ _ := trivial

section Steps

variable {t : Party} {s s' : State} {workerId projectId : String}

@[simp] theorem fields_edit (s : State) (workerId : String) (f : WorkerMeta → WorkerMeta) :
    (s.edit workerId f).fields workerId = f (s.fields workerId) := by
  simp [State.edit, State.fields]

theorem fields_edit_ne {other : String} (h : other ≠ workerId) (f : WorkerMeta → WorkerMeta) :
    (s.edit workerId f).fields other = s.fields other := by
  simp [State.edit, State.fields, AList.lookup_insert_ne h]

theorem fields_erase_ne {other : String} (h : other ≠ workerId) :
    State.fields { s with metas := s.metas.erase workerId } other = s.fields other := by
  simp [State.fields, AList.lookup_erase_ne h]

theorem holdsLock_of_lookup (h : s.locks.lookup projectId = some workerId) : s.holdsLock workerId = true :=
  List.any_eq_true.mpr ⟨⟨projectId, workerId⟩, AList.mem_lookup_iff.mp h, by simp⟩

structure Aside (t : Party) (s s' : State) : Prop where
  fields : s'.fields = s.fields
  locks : s'.locks = s.locks
  busy : s'.busy = s.busy
  examining : t = .collector ∨ s'.examining = s.examining
  trace : ∀ event ∈ s'.trace, event ∈ s.trace ∨ event.harmless = true

theorem Aside.keeps (h : Aside t s s') (hi : Guarded s) : workspacesRules.Keeps t s s' where
  inv := {
    evidence := fun projectId workerId hlock => by
      rw [h.locks] at hlock
      rw [h.fields]
      exact hi.evidence projectId workerId hlock
    spared := fun event hmem => (h.trace event hmem).elim (hi.spared event) id }
  rely u hu := {
    busy := fun workerId hbusy => by rw [h.busy]; exact hbusy
    fields := fun workerId _ => by rw [h.fields]
    locks := fun workerId _ projectId => by rw [h.locks]
    examining := fun hcollector projectId hexamining => by
      rcases h.examining with ht | hsame
      · exact absurd (hcollector.trans ht.symm) hu
      · exact ⟨hsame.trans hexamining, fun workerId hlock => by rwa [h.locks] at hlock⟩ }

theorem own_keeps (hi : Guarded s) (hbusy : s.busy workerId = some t)
    (hfields : ∀ other, other ≠ workerId → s'.fields other = s.fields other) (hlocks : s'.locks = s.locks)
    (hsame : s'.busy = s.busy ∧ s'.examining = s.examining ∧ s'.trace = s.trace)
    (hheld : ∀ projectId, s.locks.lookup projectId = some workerId → (s'.fields workerId).heldProjectId = some projectId) :
    workspacesRules.Keeps t s s' where
  inv := {
    evidence := fun projectId other hlock => by
      rw [hlocks] at hlock
      by_cases hother : other = workerId
      · subst hother
        exact hheld projectId hlock
      · rw [hfields other hother]
        exact hi.evidence projectId other hlock
    spared := by rw [hsame.2.2]; exact hi.spared }
  rely u hu := {
    busy := fun other h => by rw [hsame.1]; exact h
    fields := fun other h => by
      refine hfields other fun hother => hu ?_
      subst hother
      exact Option.some.inj (h.symm.trans hbusy)
    locks := fun other _ projectId => by rw [hlocks]
    examining := fun _ projectId h => ⟨hsame.2.1.trans h, fun other hlock => by rwa [hlocks] at hlock⟩ }

theorem claim_keeps (hi : Guarded s) (hfree : s.busy workerId = none) :
    workspacesRules.Keeps t s (s.claim t workerId) where
  inv := ⟨hi.evidence, hi.spared⟩
  rely u hu := {
    busy := fun other h => by
      have hother : other ≠ workerId := fun hother => by
        subst hother
        cases hfree.symm.trans h
      simp [State.claim, Function.update_of_ne hother, h]
    fields := fun _ _ => rfl
    locks := fun _ _ _ => .rfl
    examining := fun _ _ h => ⟨h, fun _ hlock => hlock⟩ }

theorem ended_keeps (r : Option (Except Exn Unit)) (hi : Guarded s) : workspacesRules.Keeps t s (ended t r s) := by
  have hbusy (u : Party) (hu : u ≠ t) (other : String) (h : s.busy other = some u) :
      (if s.busy other = some t then none else s.busy other) = some u := by
    rw [if_neg (by rw [h]; simpa using hu), h]
  unfold ended
  by_cases ht : t = .collector
  · rw [if_pos ht]
    exact ⟨⟨hi.evidence, hi.spared⟩, fun u hu =>
      ⟨hbusy u hu, fun _ _ => rfl, fun _ _ _ => .rfl, fun hcollector => absurd (hcollector.trans ht.symm) hu⟩⟩
  · rw [if_neg ht]
    exact ⟨⟨hi.evidence, hi.spared⟩, fun u hu =>
      ⟨hbusy u hu, fun _ _ => rfl, fun _ _ _ => .rfl, fun _ _ h => ⟨h, fun _ hlock => hlock⟩⟩⟩

theorem insertLock_keeps (hi : Guarded s) (hbusy : s.busy workerId = some t) (hfree : s.locks.lookup projectId = none)
    (hheld : (s.fields workerId).heldProjectId = some projectId) (hexamining : s.examining ≠ some projectId) :
    workspacesRules.Keeps t s { s with locks := s.locks.insert projectId workerId } where
  inv := {
    evidence := fun otherProject other hlock => by
      by_cases hproject : otherProject = projectId
      · subst hproject
        cases (AList.lookup_insert s.locks).symm.trans hlock
        exact hheld
      · rw [AList.lookup_insert_ne hproject] at hlock
        exact hi.evidence otherProject other hlock
    spared := hi.spared }
  rely u hu := {
    busy := fun _ h => h
    fields := fun _ _ => rfl
    locks := fun other h otherProject => by
      have hother : workerId ≠ other := fun hother => hu (Option.some.inj ((hother ▸ h).symm.trans hbusy))
      by_cases hproject : otherProject = projectId
      · subst hproject
        rw [AList.lookup_insert, hfree]
        simp [hother]
      · rw [AList.lookup_insert_ne hproject]
    examining := fun _ otherProject h => by
      have hproject : otherProject ≠ projectId := fun hproject => hexamining (hproject ▸ h)
      refine ⟨h, fun other hlock => ?_⟩
      rwa [AList.lookup_insert_ne hproject] at hlock }

theorem eraseLock_keeps (hi : Guarded s) (hbusy : s.busy workerId = some t) (hlock : s.locks.lookup projectId = some workerId) :
    workspacesRules.Keeps t s { s with locks := s.locks.erase projectId } := by
  have hleft (otherProject other : String) (h : (s.locks.erase projectId).lookup otherProject = some other) :
      s.locks.lookup otherProject = some other := by
    by_cases hproject : otherProject = projectId
    · subst hproject
      cases (AList.lookup_erase otherProject s.locks).symm.trans h
    · rwa [AList.lookup_erase_ne hproject] at h
  refine ⟨⟨fun otherProject other h => hi.evidence otherProject other (hleft otherProject other h), hi.spared⟩, fun u hu =>
    ⟨fun _ h => h, fun _ _ => rfl, fun other h otherProject => ⟨hleft otherProject other, fun hheld => ?_⟩,
      fun _ otherProject h => ⟨h, hleft otherProject⟩⟩⟩
  have hproject : otherProject ≠ projectId := fun hproject => by
    subst hproject
    cases hlock.symm.trans hheld
    exact hu (Option.some.inj (h.symm.trans hbusy))
  rwa [AList.lookup_erase_ne hproject]

end Steps

section Programs

variable {t : Party} {s : State} {workerId projectId : String} {A : Type}

abbrev Yields (t : Party) (Q : A → State → Prop) (p : Job A) (s : State) : Prop := workspacesRules.Yields t Q p s

theorem exceptException_yields {p : Job A} {handler : Exn → Job A} {Q : A → State → Prop} (hi : Guarded s)
    (hp : Yields t Q p s) (hh : ∀ e s, Guarded s → Yields t Q (handler e) s) : Yields t Q (exceptException p handler) s :=
  Rules.Yields.handle hi hp fun e s hi => by
    split
    · exact Rules.Yields.raise
    · exact hh e s hi

def Owns (t : Party) (workerId : String) (held : Option String) (s : State) : Prop :=
  s.busy workerId = some t ∧ ∀ projectId, s.locks.lookup projectId = some workerId → held = some projectId

variable {held : Option String}

theorem Owns.spared {s' : State} (h : Owns t workerId held s) (hr : Spares t s s') :
    Owns t workerId held s' :=
  ⟨hr.busy workerId h.1, fun projectId hlock => h.2 projectId ((hr.locks workerId h.1 projectId).mp hlock)⟩

theorem owns_stable : workspacesRules.Stable t (Owns t workerId held) := fun _ _ _ hr h => h.spared hr

def Op.isAside : Op → Bool
  | .service _ | .getLock _ | .smembers | .sismember _ | .sadd _ | .srem _ | .getScaffoldedWorkspace _
  | .createEphemeralWorkspace _ | .prepareWorkerPaths _ | .removeWorkspace _ | .runContainer _ | .removeContainer _
  | .listdir | .time | .outside => true
  | _ => false

variable {op : Op}

theorem serve_aside {exec : State → Except Exn (Op.Res op) × State} (fate : Fate Exn)
    (h : Aside t s (exec s).2) : Aside t s (fate.serve exec s).2 := by
  cases fate with
  | unsent e => exact ⟨rfl, rfl, rfl, .inr rfl, fun _ => .inl⟩
  | _ => exact h

theorem Aside.refl (t : Party) (s : State) : Aside t s s := ⟨rfl, rfl, rfl, .inr rfl, fun _ => .inl⟩

theorem runContainer_aside (mount : Mount) : Aside t s (s.runContainer mount) := by
  unfold State.runContainer
  split <;> exact ⟨rfl, rfl, rfl, .inr rfl, fun _ => .inl⟩

theorem change_aside (change : OutsideChange) : Aside t s (change.apply s) := by
  cases change <;> exact ⟨rfl, rfl, rfl, .inr rfl, fun _ => .inl⟩

theorem run_aside (hop : op.isAside = true) (ht : t ≠ .collector) (reply : Reply) :
    Aside t s (run t op reply s).2 := by
  cases op with
  | service => exact .refl t s
  | getLock | smembers | sismember => exact serve_aside _ (.refl t s)
  | sadd => exact serve_aside _ ⟨rfl, rfl, rfl, .inr rfl, fun _ => .inl⟩
  | srem projectId =>
    refine serve_aside _ ?_
    simp only [State.srem, if_neg ht]
    exact ⟨rfl, rfl, rfl, .inr rfl, fun _ => .inl⟩
  | getScaffoldedWorkspace => exact serve_aside _ (.refl t s)
  | createEphemeralWorkspace => exact serve_aside _ ⟨rfl, rfl, rfl, .inr rfl, fun _ => .inl⟩
  | prepareWorkerPaths => exact serve_aside _ (.refl t s)
  | removeWorkspace => exact serve_aside _ ⟨rfl, rfl, rfl, .inr rfl, fun _ => .inl⟩
  | runContainer mount => exact serve_aside _ (runContainer_aside mount)
  | removeContainer => exact serve_aside _ ⟨rfl, rfl, rfl, .inr rfl, fun _ => .inl⟩
  | listdir => exact serve_aside _ (.refl t s)
  | time => exact .refl t s
  | outside => exact change_aside reply.change
  | _ => cases hop

theorem aside_leaves {P : State → Prop} (hop : op.isAside = true) (ht : t ≠ .collector)
    (hP : ∀ s s', Aside t s s' → P s → P s') : workspacesRules.Leaves t P op := fun _ hi h reply _ =>
  have haside := run_aside hop ht reply
  ⟨haside.keeps hi, hP _ _ haside h⟩

theorem owns_aside {s' : State} (haside : Aside t s s') (h : Owns t workerId held s) :
    Owns t workerId held s' := by
  refine ⟨haside.busy ▸ h.1, fun projectId hlock => h.2 projectId ?_⟩
  rwa [haside.locks] at hlock

theorem owns_perform (ht : t ≠ .collector) (hop : op.isAside = true) :
    workspacesRules.Maintains t (Owns t workerId held) (Prog.perform op) :=
  .perform owns_stable (aside_leaves hop ht fun _ _ => owns_aside)

theorem Maintains.exceptException {P : State → Prop} {p : Job A} {handler : Exn → Job A}
    (hp : workspacesRules.Maintains t P p) (hh : ∀ e, workspacesRules.Maintains t P (handler e)) :
    workspacesRules.Maintains t P (exceptException p handler) := .handle hp fun e => by
  split
  · exact .raise e
  · exact hh e

theorem getLock_yields (h : Owns t workerId (some projectId) s) :
    Yields t (fun owner s => owner = some workerId ∧ Owns t workerId (some projectId) s ∧
      s.locks.lookup projectId = some workerId ∨ owner ≠ some workerId ∧ Owns t workerId none s) (getLock projectId) s := by
  refine Yields.perform (fun _ _ => rfl) fun s' reply hi hr _ _ => ⟨.refl _ hi, fun owner howner => ?_⟩
  have howns := h.spared hr
  cases howner
  by_cases hown : s'.locks.lookup projectId = some workerId
  · exact .inl ⟨hown, howns, hown⟩
  · refine .inr ⟨hown, howns.1, fun other hlock => ?_⟩
    cases howns.2 other hlock
    exact absurd hlock hown

theorem giveBack_yields (ht : t ≠ .collector) (h : Owns t workerId (some projectId) s)
    (hlock : s.locks.lookup projectId = some workerId) (hi : Guarded s) :
    Yields t (fun _ => Owns t workerId none) (giveBack projectId) s := by
  refine Yields.bind hi (M := fun _ => Owns t workerId none) ?_ fun _ s hi h => .of_maintains (owns_perform ht rfl) hi h
  refine Yields.perform (fun _ _ => rfl) fun s' reply hi' hr _ _ => ?_
  have howns := h.spared hr
  have hlock' := (hr.locks workerId h.1 projectId).mpr hlock
  refine ⟨eraseLock_keeps hi' howns.1 hlock', fun _ _ => ⟨howns.1, fun other hleft => ?_⟩⟩
  by_cases hproject : other = projectId
  · subst hproject
    cases (AList.lookup_erase other s'.locks).symm.trans hleft
  · cases howns.2 other ((AList.lookup_erase_ne hproject).symm.trans hleft)
    exact absurd rfl hproject

theorem releaseWorkspaceLock_yields (ht : t ≠ .collector) (h : Owns t workerId (some projectId) s) (hi : Guarded s) :
    Yields t (fun _ => Owns t workerId none) (releaseWorkspaceLock workerId (some projectId)) s := by
  refine Yields.bind hi (getLock_yields h) fun owner s hi h => ?_
  rcases h with ⟨rfl, howns, hlock⟩ | ⟨hother, howns⟩
  · simp only [if_true]
    exact giveBack_yields ht howns hlock hi
  · cases owner with
    | none => exact .of_maintains (owns_perform ht rfl) hi howns
    | some owner =>
      simp only [if_neg fun heq => hother (congrArg some heq)]
      exact .ret howns

theorem deleteMeta_yields (h : Owns t workerId none s) : Yields t (fun _ _ => True) (deleteMeta workerId) s := by
  refine Yields.perform (fun _ _ => rfl) fun s' reply hi hr _ _ => ⟨?_, fun _ _ => trivial⟩
  have howns := h.spared hr
  exact own_keeps hi howns.1 (fun _ hother => fields_erase_ne hother) rfl ⟨rfl, rfl, rfl⟩
    fun projectId hlock => nomatch howns.2 projectId hlock

theorem anywhere_perform (ht : t ≠ .collector) (hop : op.isAside = true) :
    workspacesRules.Maintains t (fun _ => True) (Prog.perform op) :=
  .perform (fun _ _ _ _ h => h) (aside_leaves hop ht fun _ _ _ h => h)

end Programs

section Creating

variable {n : Nat} {cmd : CreateCommand} {s : State}

theorem create_aside {op : Op} (hop : op.isAside = true) :
    workspacesRules.Maintains (.create n) (fun _ => True) (Prog.perform op) := anywhere_perform nofun hop

def CreateCommand.takes (cmd : CreateCommand) : Option String := if cmd.isQaWorker then none else some cmd.ownership.projectId

structure Works (n : Nat) (cmd : CreateCommand) (held : Option String) (s : State) : Prop where
  owns : Owns (.create n) cmd.workerId held s
  workerType : (s.fields cmd.workerId).workerType = some cmd.workerType

variable {held : Option String}

theorem Works.spared {s' : State} (h : Works n cmd held s) (hr : Spares (.create n) s s') :
    Works n cmd held s' :=
  ⟨h.owns.spared hr, by rw [hr.fields cmd.workerId h.owns.1]; exact h.workerType⟩

theorem works_stable : workspacesRules.Stable (.create n) (Works n cmd held) :=
  fun _ _ _ hr h => h.spared hr

theorem works_aside {s' : State} (haside : Aside (.create n) s s') (h : Works n cmd held s) :
    Works n cmd held s' :=
  ⟨owns_aside haside h.owns, by rw [haside.fields]; exact h.workerType⟩

theorem works_perform {op : Op} (hop : op.isAside = true) :
    workspacesRules.Maintains (.create n) (Works n cmd held) (Prog.perform op) :=
  .perform works_stable (aside_leaves hop nofun fun _ _ => works_aside)

theorem works_ask (call : ServiceCall) :
    workspacesRules.Maintains (.create n) (Works n cmd held) (ask call) := works_perform rfl

theorem works_edit {op : Op} {exec : State → Except Exn (Op.Res op) × State}
    {f : WorkerMeta → WorkerMeta} (hrun : ∀ reply s, run (.create n) op reply s = reply.fate.serve exec s)
    (hexec : ∀ s, (exec s).2 = s.edit cmd.workerId f) (htype : ∀ fields, (f fields).workerType = fields.workerType)
    (hheld : ∀ fields projectId, held = some projectId → fields.workerType = some cmd.workerType →
      fields.heldProjectId = some projectId → (f fields).heldProjectId = some projectId) :
    workspacesRules.Maintains (.create n) (Works n cmd held) (Prog.perform op) := by
  refine .perform works_stable (.serve hrun fun s reply hi h _ _ => ?_)
  rw [hexec]
  refine ⟨own_keeps hi h.owns.1 (fun _ hother => fields_edit_ne hother f) rfl ⟨rfl, rfl, rfl⟩ fun projectId hlock => ?_,
    h.owns, by rw [fields_edit, htype]; exact h.workerType⟩
  rw [fields_edit]
  exact hheld _ _ (h.owns.2 projectId hlock) h.workerType (hi.evidence projectId cmd.workerId hlock)

theorem stampOwnership_maintains (hheld : ∀ projectId, held = some projectId → cmd.takes = held) :
    workspacesRules.Maintains (.create n) (Works n cmd held) (stampOwnership cmd.workerId cmd.ownership) := by
  refine works_edit (f := fun fields => { fields with ownership := some cmd.ownership }) (fun _ _ => rfl) (fun _ => rfl)
    (fun _ => rfl) fun fields projectId hproject htype _ => ?_
  have htakes : cmd.takes = some projectId := (hheld projectId hproject).trans hproject
  unfold CreateCommand.takes CreateCommand.isQaWorker at htakes
  unfold WorkerMeta.heldProjectId WorkerMeta.isQaWorker WorkerMeta.projectId
  rw [htype]
  by_cases hqa : cmd.workerType = .qa
  · simp [hqa] at htakes
  · simpa [hqa] using htakes

theorem hsetWorkerType_yields :
    Yields (.create n) (fun _ => Works n cmd none)
      (perform (.hsetWorkerType cmd.workerId cmd.workerType)) s := by
  refine Yields.perform (fun _ _ => rfl) fun s' reply hi _ hseen hcarried => ?_
  obtain ⟨hfree, hholds⟩ : s'.busy cmd.workerId = none ∧ s'.holdsLock cmd.workerId = false := hseen hcarried
  have hnone (projectId : String) (hlock : s'.locks.lookup projectId = some cmd.workerId) : False := by
    cases (holdsLock_of_lookup hlock).symm.trans hholds
  have hclaim := claim_keeps (t := .create n) hi hfree
  have hbusy : (s'.claim (.create n) cmd.workerId).busy cmd.workerId = some (.create n) := Function.update_self ..
  refine ⟨hclaim.trans (own_keeps hclaim.inv hbusy (fun _ hother => fields_edit_ne hother _) rfl ⟨rfl, rfl, rfl⟩
    fun projectId hlock => (hnone projectId hlock).elim), fun _ _ => ⟨⟨hbusy, fun projectId hlock => (hnone projectId hlock).elim⟩, ?_⟩⟩
  simp only [fields_edit]

theorem stamped_yields (h : Works n cmd none s) :
    Yields (.create n) (fun _ s => Works n cmd none s ∧ (s.fields cmd.workerId).ownership = some cmd.ownership)
      (stampOwnership cmd.workerId cmd.ownership) s := by
  refine Yields.perform (fun _ _ => rfl) fun s' reply hi hr _ _ => ?_
  have hworks := h.spared hr
  refine ⟨own_keeps hi hworks.owns.1 (fun _ hother => fields_edit_ne hother _) rfl ⟨rfl, rfl, rfl⟩
    fun projectId hlock => (nomatch hworks.owns.2 projectId hlock), fun _ _ => ⟨⟨hworks.owns, ?_⟩, ?_⟩⟩
  · simp only [fields_edit]
    exact hworks.workerType
  · simp only [fields_edit]

theorem takes_of_developer (hqa : cmd.isQaWorker = false) : cmd.takes = some cmd.ownership.projectId := by
  simp [CreateCommand.takes, hqa]

theorem setLockNx_yields (hqa : cmd.isQaWorker = false) (h : Works n cmd none s)
    (hownership : (s.fields cmd.workerId).ownership = some cmd.ownership) :
    Yields (.create n) (fun acquired : Bool => Works n cmd (if acquired then cmd.takes else none))
      (perform (.setLockNx cmd.ownership.projectId cmd.workerId)) s := by
  refine Yields.perform (fun _ _ => rfl) fun s' reply hi hr hseen hcarried => ?_
  have hworks := h.spared hr
  have hnamed : (s'.fields cmd.workerId).heldProjectId = some cmd.ownership.projectId := by
    have htype : cmd.workerType ≠ .qa := by simpa [CreateCommand.isQaWorker] using hqa
    have hfields := hr.fields cmd.workerId h.owns.1
    simp [WorkerMeta.heldProjectId, WorkerMeta.isQaWorker, WorkerMeta.projectId, h.workerType, hfields, hownership, htype]
  unfold State.setLockNx
  cases hlock : s'.locks.lookup cmd.ownership.projectId with
  | some owner => exact ⟨.refl _ hi, fun acquired heq => by cases heq; exact hworks⟩
  | none =>
    refine ⟨insertLock_keeps hi hworks.owns.1 hlock hnamed (hseen hcarried hlock), fun acquired heq => ?_⟩
    cases heq
    refine ⟨⟨hworks.owns.1, fun projectId hleft => ?_⟩, hworks.workerType⟩
    by_cases hproject : projectId = cmd.ownership.projectId
    · rw [hproject]
      exact takes_of_developer hqa
    · exact nomatch hworks.owns.2 projectId ((AList.lookup_insert_ne hproject).symm.trans hleft)

theorem withdraw_yields {Q : String → State → Prop} (hi : Guarded s) (h : Works n cmd none s) :
    Yields (.create n) Q (withdraw cmd.workerId) s := by
  refine Yields.bind hi (M := fun _ _ => True) ?_ fun _ _ _ _ => Yields.raise
  refine Yields.perform (fun _ _ => rfl) fun s' reply hi hr _ _ => ⟨?_, fun _ _ => trivial⟩
  have hworks := h.spared hr
  simp only [State.hdelOwnership]
  split
  · exact own_keeps hi hworks.owns.1 (fun _ hother => fields_erase_ne hother) rfl ⟨rfl, rfl, rfl⟩
      fun projectId hlock => nomatch hworks.owns.2 projectId hlock
  · exact own_keeps hi hworks.owns.1 (fun _ hother => fields_edit_ne hother _) rfl ⟨rfl, rfl, rfl⟩
      fun projectId hlock => nomatch hworks.owns.2 projectId hlock

theorem acquireWorkspaceLock_yields (hqa : cmd.isQaWorker = false) (hi : Guarded s) (h : Works n cmd none s) :
    Yields (.create n) (fun projectId s => some projectId = cmd.takes ∧ Works n cmd cmd.takes s)
      (acquireWorkspaceLock cmd.workerId cmd.ownership) s := by
  refine Yields.bind hi (stamped_yields h) fun _ s hi h => ?_
  refine Yields.bind hi (setLockNx_yields hqa h.1 h.2) fun acquired s hi h => ?_
  cases acquired with
  | false => exact withdraw_yields hi h
  | true =>
    refine Yields.bind hi (.of_maintains (works_perform rfl) hi h) fun _ s hi h => Yields.ret ⟨?_, h⟩
    exact (takes_of_developer hqa).symm

theorem read_leaves {op : Op} (hop : (∃ workerId, op = .hgetall workerId) ∨ ∃ examined, op = .scan examined)
    : workspacesRules.Leaves (.create n) (Works n cmd held) op := by
  intro s hi h reply _
  have haside : Aside (.create n) s (run (.create n) op reply s).2 := by
    rcases hop with ⟨workerId, rfl⟩ | ⟨examined, rfl⟩ <;> exact serve_aside _ (.refl _ s)
  exact ⟨haside.keeps hi, works_aside haside h⟩

theorem findDeveloper_maintains (projectId : String) (keys : List String) :
    workspacesRules.Maintains (.create n) (Works n cmd held) (findDeveloper projectId keys) := by
  induction keys with
  | nil => exact .ret none
  | cons key rest ih =>
    refine .bind (.perform works_stable (read_leaves (.inl ⟨key, rfl⟩))) fun fields => ?_
    split
    · exact .ret _
    · exact ih

theorem checkProjectLock_maintains (projectId : String) :
    workspacesRules.Maintains (.create n) (Works n cmd held) (checkProjectLock projectId) := by
  refine .bind (works_perform rfl) fun owner => ?_
  split
  · exact .ret _
  · refine .bind (works_perform rfl) fun active => ?_
    split
    · exact .bind (.perform works_stable (read_leaves (.inr ⟨none, rfl⟩))) fun keys => findDeveloper_maintains _ _
    · exact .ret none

variable {P : State → Prop}

theorem rejectWorker_maintains
    (hP : ∀ call, workspacesRules.Maintains (.create n) P (ask call)) :
    workspacesRules.Maintains (.create n) P (rejectWorker cmd.workerId) := .bind (hP _) fun _ => hP _

theorem takeProject_yields (hqa : cmd.isQaWorker = false) (hi : Guarded s) (h : Works n cmd none s) :
    Yields (.create n) (fun held s => held = cmd.takes ∧ Works n cmd cmd.takes s) (takeProject cmd) s := by
  refine Yields.bind hi (.of_maintains (checkProjectLock_maintains _) hi h) fun existing s hi h => ?_
  split
  · exact Yields.raise
  · refine Yields.bind hi (.of_maintains (works_ask _) hi h) fun failures s hi h => ?_
    split
    · exact Yields.raise
    · exact Yields.bind hi (acquireWorkspaceLock_yields hqa hi h) fun projectId s hi h => Yields.ret h

theorem takeNothing_yields (hqa : cmd.isQaWorker = true) (hi : Guarded s) (h : Works n cmd none s) :
    Yields (.create n) (fun held s => held = cmd.takes ∧ Works n cmd cmd.takes s) (takeNothing cmd) s := by
  have htakes : cmd.takes = none := by simp [CreateCommand.takes, hqa]
  refine Yields.bind hi (.of_maintains (stampOwnership_maintains fun _ _ => htakes) hi h) fun _ s hi h => Yields.ret ?_
  rw [htakes]
  exact ⟨rfl, h⟩

theorem take_yields (hi : Guarded s) (h : Works n cmd none s) :
    Yields (.create n) (fun held s => held = cmd.takes ∧ Works n cmd cmd.takes s) (take cmd) s := by
  unfold take
  cases hqa : cmd.isQaWorker with
  | true => exact takeNothing_yields hqa hi h
  | false => exact takeProject_yields hqa hi h

theorem doWhen_maintains {t : Party} {p : Job Unit} (condition : Bool)
    (hp : workspacesRules.Maintains t P p) : workspacesRules.Maintains t P (doWhen condition p) := by
  cases condition with
  | false => exact .ret ()
  | true => exact hp

theorem doWith_maintains {t : Party} {p : String → Job Unit} (text : Option String)
    (hp : ∀ text, workspacesRules.Maintains t P (p text)) : workspacesRules.Maintains t P (doWith text p) := by
  unfold doWith
  split
  · exact .ret ()
  · exact hp _

theorem takeUp_yields (hi : Guarded s) (h : Works n cmd none s) :
    Yields (.create n) (fun taken s => taken.2 = cmd.takes ∧ Works n cmd cmd.takes s) (takeUp cmd) s := by
  refine exceptException_yields hi ?_ fun e s hi => ?_
  · refine Yields.bind hi (.of_maintains (works_ask _) hi h) fun network s hi h => ?_
    refine Yields.bind hi (.of_maintains (doWhen_maintains _ (works_ask _)) hi h) fun _ s hi h => ?_
    refine Yields.bind hi (take_yields hi h) ?_
    intro held s hi h _ heq
    cases heq
    exact h
  · refine Yields.bind hi (M := fun _ _ => True) (Yields.ret trivial) fun _ s hi _ => ?_
    exact Yields.bind hi (.of_maintains (rejectWorker_maintains fun _ => create_aside rfl) hi trivial)
      fun _ s hi h => Yields.raise

theorem workspaceOf_maintains :
    workspacesRules.Maintains (.create n) (Works n cmd held) (workspaceOf cmd) := by
  unfold workspaceOf
  split
  · exact .bind (works_perform rfl) fun _ => .ret _
  · split
    · exact .raise _
    · refine .bind (works_perform rfl) fun found => ?_
      split
      · exact .ret _
      · exact .raise _

theorem startContainer_maintains (network : WorkerNetwork) (entry : String) :
    workspacesRules.Maintains (.create n) (Works n cmd cmd.takes) (startContainer cmd network entry) := by
  refine .bind (stampOwnership_maintains fun _ _ => rfl) fun _ => ?_
  refine .bind (works_perform rfl) fun _ => ?_
  refine .bind (doWhen_maintains _ (works_ask _)) fun _ => .bind (works_ask _) fun _ => ?_
  refine .bind (works_perform rfl) fun _ => .bind (doWhen_maintains _ (works_ask _)) fun _ => ?_
  refine .bind (works_edit (f := fun fields =>
    { fields with devNetwork := some (devNetworkOf cmd.workerId), workspacePath := some entry })
    (fun _ _ => rfl) (fun _ => rfl) (fun _ => rfl) fun _ _ _ _ h => h) fun _ => ?_
  exact doWhen_maintains _ (works_ask _)

theorem createWorker_maintains (network : WorkerNetwork) (entry : String) :
    workspacesRules.Maintains (.create n) (Works n cmd cmd.takes) (createWorker cmd network entry) := by
  refine .bind (works_ask _) fun _ => Maintains.exceptException (startContainer_maintains network entry) fun e => ?_
  refine .bind (rejectWorker_maintains works_ask) fun _ => ?_
  exact .raise e

theorem prepareWork_maintains :
    workspacesRules.Maintains (.create n) (Works n cmd held) (prepareWork cmd) := by
  refine .bind (doWith_maintains _ fun _ => doWith_maintains _ fun _ => works_ask _) fun _ => ?_
  refine .bind (doWith_maintains _ fun _ => works_ask _) fun _ => ?_
  refine .bind (doWith_maintains _ fun _ => works_ask _) fun _ => ?_
  refine .bind (doWith_maintains _ fun _ => works_ask _) fun _ => ?_
  exact doWhen_maintains _ (.bind (works_ask _) fun _ => works_ask _)

theorem launch_maintains (network : WorkerNetwork) :
    workspacesRules.Maintains (.create n) (Works n cmd cmd.takes) (launch cmd network) := by
  unfold launch
  split
  · exact .raise _
  · refine .bind (works_ask _) fun _ => .bind workspaceOf_maintains fun entry => ?_
    refine .bind (works_ask _) fun _ => .bind (works_ask _) fun _ => .bind (doWhen_maintains _ (works_ask _)) fun _ => ?_
    refine .bind (works_perform rfl) fun _ => .bind (works_ask _) fun _ => .bind (createWorker_maintains network entry) fun _ => ?_
    refine .bind (doWhen_maintains _ (works_ask _)) fun _ => .bind (doWith_maintains _ fun repoId => ?_) fun _ => prepareWork_maintains
    exact works_edit (f := fun fields => { fields with repoId := some repoId }) (fun _ _ => rfl) (fun _ => rfl)
      (fun _ => rfl) fun _ _ _ _ h => h

theorem unregisterBrokerWorker_maintains {t : Party} {workerId : String}
    (hP : ∀ call, workspacesRules.Maintains t P (ask call)) :
    workspacesRules.Maintains t P (unregisterBrokerWorker workerId) :=
  Maintains.exceptException (hP _) fun _ => .ret ()

theorem undo_yields (hi : Guarded s) (h : Works n cmd cmd.takes s) :
    Yields (.create n) (fun _ _ => True) (undo cmd cmd.takes) s := by
  refine Yields.bind hi (.of_maintains (unregisterBrokerWorker_maintains works_ask) hi h) fun _ s hi h => ?_
  cases hqa : cmd.isQaWorker with
  | true =>
    exact .of_maintains (.bind (create_aside rfl) fun _ => rejectWorker_maintains fun _ => create_aside rfl) hi trivial
  | false =>
    rw [takes_of_developer hqa] at h ⊢
    refine Yields.bind hi (releaseWorkspaceLock_yields nofun h.owns hi) fun _ s hi h => ?_
    exact deleteMeta_yields h

theorem createWorkerWithCapabilities_yields (hi : Guarded s) :
    Yields (.create n) (fun _ _ => True) (createWorkerWithCapabilities cmd) s := by
  refine Yields.bind hi hsetWorkerType_yields fun _ s hi h => ?_
  refine Yields.bind hi (takeUp_yields hi h) fun taken s hi h => ?_
  obtain ⟨network, held⟩ := taken
  obtain ⟨rfl, h⟩ : held = cmd.takes ∧ Works n cmd cmd.takes s := h
  refine Yields.bind hi (.of_maintains (doWhen_maintains _ (works_ask _)) hi h) fun _ s hi h => ?_
  refine Safe.handle hi (launch_maintains network s hi h) (fun _ _ _ _ _ _ => trivial) fun e s hi h => ?_
  split
  · exact Yields.raise
  · exact Yields.bind hi (undo_yields hi h) fun _ s hi h => Yields.raise

end Creating

section Deleting

variable {n : Nat} {s : State} {workerId : String} {held : Option String}

theorem delete_ask (call : ServiceCall) :
    workspacesRules.Maintains (.delete n) (Owns (.delete n) workerId held) (ask call) := owns_perform nofun rfl

theorem hgetall_yields :
    Yields (.delete n) (fun fields => Owns (.delete n) workerId fields.heldProjectId) (hgetall workerId) s := by
  refine Yields.perform (fun _ _ => rfl) fun s' reply hi _ hseen hcarried => ?_
  refine ⟨claim_keeps hi (hseen hcarried), fun fields hfields => ?_⟩
  cases hfields
  exact ⟨Function.update_self .., fun projectId hlock => hi.evidence projectId workerId hlock⟩

theorem bringDown_maintains (fields : WorkerMeta) :
    workspacesRules.Maintains (.delete n) (Owns (.delete n) workerId held) (bringDown workerId fields) := by
  unfold bringDown
  split
  · exact .bind (owns_perform nofun rfl) fun _ => delete_ask _
  · exact doWith_maintains _ fun _ => Maintains.exceptException (delete_ask _) fun _ => .ret ()

theorem removeWorker_maintains (fields : WorkerMeta) :
    workspacesRules.Maintains (.delete n) (Owns (.delete n) workerId held) (removeWorker workerId fields) := by
  refine Maintains.exceptException (.bind (bringDown_maintains fields) fun _ => .bind ?_ fun _ => ?_) fun _ => .ret false
  · unfold readEvidence
    split
    · exact .ret ()
    · exact Maintains.exceptException (delete_ask _) fun _ => .ret ()
  · exact .bind (owns_perform nofun rfl) fun _ => .ret true

theorem storeEvidence_maintains (fields : WorkerMeta) :
    workspacesRules.Maintains (.delete n) (Owns (.delete n) workerId held) (storeEvidence workerId fields) := by
  unfold storeEvidence
  split
  · exact .ret false
  · exact Maintains.exceptException (.bind (delete_ask _) fun _ => .ret false) fun _ => .ret true

theorem countFailure_maintains (projectId : String) (reason : Option String) :
    workspacesRules.Maintains (.delete n) (Owns (.delete n) workerId held) (countFailure projectId reason) :=
  .bind (doWhen_maintains _ (delete_ask _)) fun _ => doWhen_maintains _ (delete_ask _)

theorem releaseHeld_yields (cmd : DeleteCommand) (hi : Guarded s) (h : Owns (.delete n) cmd.workerId held s) :
    Yields (.delete n) (fun _ => Owns (.delete n) cmd.workerId none) (releaseHeld cmd held) s := by
  cases held with
  | none => exact .ret h
  | some projectId =>
    refine Yields.bind hi (releaseWorkspaceLock_yields nofun h hi) fun _ s hi h => ?_
    exact .of_maintains (countFailure_maintains _ _) hi h

theorem deleteWorker_yields (cmd : DeleteCommand) (hi : Guarded s) :
    Yields (.delete n) (fun _ _ => True) (deleteWorker cmd) s := by
  refine Yields.bind hi hgetall_yields fun fields s hi h => ?_
  refine Yields.bind hi (.of_maintains (removeWorker_maintains fields) hi h) fun removed s hi h => ?_
  split
  · refine Yields.bind hi (.of_maintains (storeEvidence_maintains fields) hi h) fun keepMeta s hi h => ?_
    refine Yields.bind hi (.of_maintains (Maintains.exceptException (doWith_maintains _ fun _ => delete_ask _)
      fun _ => .ret ()) hi h) fun _ s hi h => ?_
    refine Yields.bind hi (.of_maintains (unregisterBrokerWorker_maintains delete_ask) hi h) fun _ s hi h => ?_
    refine Yields.bind hi (releaseHeld_yields cmd hi h) fun _ s hi h => ?_
    unfold deleteKeys
    split
    · exact .of_maintains (anywhere_perform nofun rfl) hi trivial
    · exact deleteMeta_yields h
  · exact .ret trivial

end Deleting

section Collecting

variable {s : State} {projectId : String}

def Looking (projectId : String) (keys : List String) (s : State) : Prop :=
  s.examining = some projectId ∧ ∀ workerId, s.locks.lookup projectId = some workerId → workerId ∈ keys

theorem Looking.spared {keys : List String} {s' : State} (h : Looking projectId keys s) (hr : Spares .collector s s') :
    Looking projectId keys s' := by
  obtain ⟨hexamining, hlocks⟩ := hr.examining rfl projectId h.1
  exact ⟨hexamining, fun workerId hlock => h.2 workerId (hlocks workerId hlock)⟩

theorem collector_calm {op : Op} {exec : Reply → State → Except Exn (Op.Res op) × State}
    (hrun : ∀ reply s, run .collector op reply s = reply.fate.serve (exec reply) s)
    (haside : ∀ reply s, orderly s (.call .collector op reply) → reply.fate.carriedOut = true → Aside .collector s (exec reply s).2) :
    workspacesRules.Maintains .collector (fun _ => True) (Prog.perform op) :=
  .perform (fun _ _ _ _ h => h) (.serve hrun fun s reply hi h hseen hcarried => ⟨(haside reply s hseen hcarried).keeps hi, h⟩)

theorem scan_yields :
    Yields .collector (fun keys => Looking projectId keys) (perform (.scan (some projectId))) s := by
  refine Yields.perform (fun _ _ => rfl) fun s' reply hi _ _ _ => ⟨?_, fun keys hkeys => ?_⟩
  · exact Aside.keeps ⟨rfl, rfl, rfl, .inl rfl, fun _ => .inl⟩ hi
  · cases hkeys
    refine ⟨rfl, fun workerId hlock => List.mem_append_right _ ?_⟩
    have hheld := hi.evidence projectId workerId hlock
    rw [← AList.mem_keys, ← AList.lookup_isSome]
    cases hmeta : s'.metas.lookup workerId with
    | some fields => rfl
    | none =>
      rw [State.fields, hmeta] at hheld
      cases hheld

theorem examine_yields {key : String} {rest : List String} (h : Looking projectId (key :: rest) s) :
    Yields .collector (fun fields s => fields.projectId ≠ some projectId → Looking projectId rest s) (hgetall key) s := by
  refine Yields.perform (fun _ _ => rfl) fun s' reply hi hr _ _ => ?_
  obtain ⟨hexamining, hlocks⟩ := h.spared hr
  refine ⟨?_, fun fields hfields hother => ?_⟩
  · simp only [State.hgetall]
    split <;> exact Aside.keeps ⟨rfl, rfl, rfl, .inl rfl, fun _ => .inl⟩ hi
  · cases hfields
    simp only [State.hgetall, hexamining, if_neg hother]
    refine ⟨hexamining, fun workerId hlock => (List.mem_cons.mp (hlocks workerId hlock)).elim (fun hkey => ?_) id⟩
    subst hkey
    have hheld := hi.evidence projectId workerId hlock
    unfold WorkerMeta.heldProjectId at hheld
    split at hheld
    · cases hheld
    · exact absurd hheld hother

theorem findHolder_yields (keys : List String) (hi : Guarded s) (h : Looking projectId keys s) :
    Yields .collector (fun hasWorker s => hasWorker = false → Looking projectId [] s) (findHolder projectId keys) s := by
  induction keys generalizing s with
  | nil => exact .ret fun _ => h
  | cons key rest ih =>
    refine Yields.bind hi (examine_yields h) fun fields s hi h => ?_
    split
    · exact .ret nofun
    · next hother => exact ih hi (h hother)

theorem drop_yields (h : Looking projectId [] s) : Yields .collector (fun _ _ => True) (srem projectId) s := by
  refine Yields.perform (fun _ _ => rfl) fun s' reply hi hr _ _ => ⟨Aside.keeps ?_ hi, fun _ _ => trivial⟩
  obtain ⟨_, hlocks⟩ := h.spared hr
  have hfree : s'.locks.lookup projectId = none :=
    Option.eq_none_iff_forall_ne_some.mpr fun workerId hlock => nomatch hlocks workerId hlock
  refine ⟨rfl, rfl, rfl, .inl rfl, fun event hmem => ?_⟩
  simp only [State.srem, if_true, State.record, hfree, Option.isSome_none] at hmem
  rcases List.mem_cons.mp hmem with rfl | hmem
  · exact .inr rfl
  · exact .inl hmem

theorem clearStaleProject_maintains (projectId : String) :
    workspacesRules.Maintains .collector (fun _ => True) (clearStaleProject projectId) := by
  intro s hi _
  have hcleared : Yields .collector (fun _ _ => True) (clearStaleProject projectId) s := by
    refine Yields.bind hi scan_yields fun keys s hi h => ?_
    refine Yields.bind hi (findHolder_yields keys hi h) fun hasWorker s hi h => ?_
    cases hasWorker with
    | true => exact .ret trivial
    | false => exact drop_yields (h rfl)
  exact hcleared.conseq hi fun _ _ _ _ => trivial

theorem sweepDirectory_maintains (now maxAgeHours : Int) (entry : String) :
    workspacesRules.Maintains .collector (fun _ => True)
      (perform (.sweepDirectory now maxAgeHours entry)) := by
  refine collector_calm (fun _ _ => rfl) fun reply s hseen hcarried => ?_
  have hspared := hseen hcarried
  unfold State.sweepDirectory
  split
  · next hstale =>
    obtain ⟨hstatable, hstale⟩ := Bool.and_eq_true_iff.mp hstale
    split
    · next hresolved =>
      refine ⟨rfl, rfl, rfl, .inr rfl, fun event hmem => ?_⟩
      rcases List.mem_cons.mp hmem with rfl | hmem
      · exact .inr (by simp [Event.harmless, hspared hstatable hresolved hstale])
      · exact .inl hmem
    · exact .refl _ s
  · exact .refl _ s

theorem sweepEntry_maintains (now maxAgeHours : Int) (activeProjects : List String) (entry : String) :
    workspacesRules.Maintains .collector (fun _ => True) (sweepEntry now maxAgeHours activeProjects entry) := by
  unfold sweepEntry
  split
  · exact .ret ()
  · refine .bind (sweepDirectory_maintains now maxAgeHours entry) fun removed => doWhen_maintains _ ?_
    exact Maintains.exceptException (.perform (fun _ _ _ _ h => h) fun s hi h _ _ => ⟨.refl _ hi, h⟩) fun _ => .ret ()

theorem garbageCollectWorkspaces_maintains (maxAgeHours : Int) :
    workspacesRules.Maintains .collector (fun _ => True) (garbageCollectWorkspaces maxAgeHours) := by
  have hsmembers : workspacesRules.Maintains .collector (fun _ => True) smembers :=
    collector_calm (fun _ _ => rfl) fun _ _ _ _ => .refl _ _
  refine .bind hsmembers fun stale => .bind (.forEach fun projectId _ => clearStaleProject_maintains projectId) fun _ => ?_
  refine .bind hsmembers fun activeProjects => .bind ?_ fun now => .bind ?_ fun entries => ?_
  · exact .perform (fun _ _ _ _ h => h) fun s hi h _ _ => ⟨.refl _ hi, h⟩
  · exact Maintains.exceptException (collector_calm (fun _ _ => rfl)
      fun _ _ _ _ => .refl _ _) fun _ => .ret []
  · exact .forEach fun entry _ => sweepEntry_maintains now maxAgeHours activeProjects entry

end Collecting

theorem workspaces_start (fleet : Fleet) (t : Party) {s : State} (hi : Guarded s) :
    workspacesRules.Safe t (workspacesRules.Finishes t) (body fleet t) s := by
  cases t with
  | collector =>
    exact (garbageCollectWorkspaces_maintains fleet.maxAgeHours s hi trivial).conseq hi
      fun r _ hi _ => ⟨ended_keeps (some r) hi, trivial⟩
  | create n =>
    exact (createWorkerWithCapabilities_yields hi).conseq hi fun r _ hi _ => ⟨ended_keeps (some r) hi, trivial⟩
  | delete n => exact (deleteWorker_yields _ hi).conseq hi fun r _ hi _ => ⟨ended_keeps (some r) hi, trivial⟩
  | outside n =>
    exact ((anywhere_perform (t := .outside n) nofun rfl) s hi trivial).conseq hi
      fun r _ hi _ => ⟨ended_keeps (some r) hi, trivial⟩

/-- In an orderly run the collector removes no directory that a developer worker has
mounted, and drops no project of which a worker holds the lock. -/
theorem workspaces_spared (fleet : Fleet) (start : State) (hstart : Guarded start) (c : Config workspacesWorld)
    (h : Reaches (body fleet) orderly (Config.idle start) c) : ∀ event ∈ c.state.trace, event.harmless = true := by
  have hidle : workspacesRules.Sound (Config.idle start : Config workspacesWorld) := .idle hstart fun _ => trivial
  exact (reaches_sound hidle (fun t s hi _ _ => workspaces_start fleet t hi)
    (fun t s hi _ => ⟨ended_keeps none hi, trivial⟩) h).inv.spared

def sampleHost : State where
  metas := ∅
  locks := ∅
  activeProjects := []
  directories := AList.singleton "repo" 0
  mounts := []
  clock := 1000
  busy _ := none
  examining := none
  trace := []

theorem sampleHost_guarded : Guarded sampleHost := ⟨fun _ _ h => (nomatch h), fun _ h => (nomatch h)⟩

def sampleCreation (workerId : String) : CreateCommand where
  workerId := workerId
  ownership := ⟨"p", "run", "attempt", by decide, by decide, by decide⟩
  workerType := .developer
  codexHostSession := false
  repoId := some "repo"
  repoName := none
  githubToken := none
  branch := none
  instructionPath := "CLAUDE.md"
  instructions := none
  taskContent := none

def sampleFleet : Fleet where
  creations n := sampleCreation (if n = 0 then "w0" else "w1")
  deletions _ := ⟨"w0", some "completed"⟩
  maxAgeHours := 35

def answered : (call : ServiceCall) → Except Exn call.Res
  | .resolveWorkerNetwork _ => .ok ⟨"workers", false⟩
  | .failureCount _ => .ok (0 : Nat)
  | .validateCodexHostSession | .incrFailureCount _ | .resetFailureCount _ | .ensureOrBuildImage | .ensureImage
  | .registerBrokerWorker .. | .unregisterBrokerWorker _ | .containerEnvironment _ | .establishEgress _ | .tearDownEgress _
  | .prepareRemoteDaemonMounts .. | .createNetwork _ | .connectNetwork _ | .removeNetwork _ | .verifyIsolation ..
  | .refreshGitToken _ | .checkoutBranch _ | .inject .. | .injectQaProbe | .hsetStatus .. | .setError _ | .deleteKeys _
  | .composeDown .. | .readRemovalEvidence _ | .storeRemovalEvidence .. | .notifyWorkspaceDeleted _ => .ok ()

def served (change : OutsideChange) : Reply := ⟨.served, answered, [], true, true, change⟩

def calls (n : Nat) (t : Party) : List (Turn workspacesWorld) := List.replicate n (.call t fun _ => served (.tick 0))

def whole (t : Party) : List (Turn workspacesWorld) := .start t :: calls 30 t

def sampleSweep : List (Turn workspacesWorld) :=
  whole (.create 0) ++ .start .collector :: calls 3 .collector ++ whole (.delete 0) ++ calls 10 .collector

theorem sample_workspaces_spared :
    (∀ event ∈ ((Config.idle sampleHost).play (body sampleFleet) sampleSweep).state.trace, event.harmless = true) ∧
      ((Config.idle sampleHost).play (body sampleFleet) (whole (.create 0))).state.mounted "repo" = true ∧
      ((Config.idle sampleHost).play (body sampleFleet) sampleSweep).state.mounts = [] :=
  ⟨workspaces_spared sampleFleet sampleHost sampleHost_guarded _ (play_reaches (by decide +kernel)), by decide +kernel,
    by decide +kernel⟩

def sweepOfOld : List (Turn workspacesWorld) :=
  whole (.create 0) ++ .start (.outside 0) :: .call (.outside 0) (fun _ => served (.tick 200000)) :: whole .collector

def sweepOfTaken : List (Turn workspacesWorld) :=
  whole (.create 0) ++ .start .collector :: calls 1 .collector ++ whole (.delete 0) ++ calls 1 .collector ++
    whole (.create 1) ++ calls 1 .collector

theorem workspace_in_use_swept : ¬ (∀ (fleet : Fleet) (start : State), Guarded start → ∀ c : Config workspacesWorld,
    Reaches (body fleet) anyMove (Config.idle start) c → ∀ event ∈ c.state.trace, event.harmless = true) ∧
      .removed "repo" true ∈ ((Config.idle sampleHost).play (body sampleFleet) sweepOfOld).state.trace ∧
      .dropped "p" true ∈ ((Config.idle sampleHost).play (body sampleFleet) sweepOfTaken).state.trace := by
  have hremoved : .removed "repo" true ∈ ((Config.idle sampleHost).play (body sampleFleet) sweepOfOld).state.trace := by
    decide +kernel
  refine ⟨fun h => ?_, hremoved, by decide +kernel⟩
  exact absurd (h sampleFleet sampleHost sampleHost_guarded _ (play_reaches_anyMove _ _ _) _ hremoved) (by decide)

end Orchestrator.Workspaces
