import Orchestrator.Deploy.Frame

/-!
Mutual exclusion of the project deploy lock, over any number of jobs and
sweeps. The trace tells which execution holds which lock.
-/

namespace Orchestrator.Deploy

open Async Api Contracts Rules

def holding (t : Party) (projectId : String) : List Event → Bool
  | [] => false
  | .acquired u p :: older => u == t && p == projectId || holding t projectId older
  | .released u p :: older => !(u == t && p == projectId) && holding t projectId older
  | _ :: older => holding t projectId older

structure LockExclusive (trace : List Event) : Prop where
  owned : ∀ newer older t p, trace = newer ++ .released t p :: older → holding t p older = true
  unique : ∀ t u p, holding t p trace = true → holding u p trace = true → t = u

variable {e : Event}

theorem holding_cons_lockFree (he : e.lockFree = true) (t : Party) (p : String) (trace : List Event) :
    holding t p (e :: trace) = holding t p trace := by
  cases e <;> first | rfl | cases he

theorem LockExclusive.nil : LockExclusive [] := by
  refine ⟨fun newer older t p h => ?_, fun t u p h => ?_⟩
  · cases newer <;> cases h
  · cases h

theorem LockExclusive.cons {trace : List Event} (h : LockExclusive trace)
    (hrel : ∀ t p, e = .released t p → holding t p trace = true)
    (huniq : ∀ t u p, holding t p (e :: trace) = true → holding u p (e :: trace) = true → t = u) :
    LockExclusive (e :: trace) := by
  refine ⟨fun newer older t p heq => ?_, huniq⟩
  cases newer with
  | nil =>
    obtain ⟨rfl, rfl⟩ := List.cons.inj heq
    exact hrel t p rfl
  | cons e' newer => exact h.owned newer older t p (List.cons.inj heq).2

theorem LockExclusive.cons_lockFree {trace : List Event} (h : LockExclusive trace)
    (he : e.lockFree = true) : LockExclusive (e :: trace) := by
  refine h.cons (fun t p heq => ?_) fun t u p => ?_
  · rw [heq] at he
    cases he
  · rw [holding_cons_lockFree he, holding_cons_lockFree he]
    exact h.unique t u p

structure LockInv (s : State) : Prop where
  exclusive : LockExclusive s.trace
  free : ∀ p, s.locks p = none → ∀ t, holding t p s.trace = false

structure LocksKept (s s' : State) : Prop where
  locks : s'.locks = s.locks
  holding : ∀ t p, holding t p s'.trace = holding t p s.trace
  exclusive : LockExclusive s.trace → LockExclusive s'.trace

theorem LocksKept.refl (s : State) : LocksKept s s := ⟨rfl, fun _ _ => rfl, id⟩

theorem LocksKept.trans {s s' s'' : State} (h : LocksKept s s') (h' : LocksKept s' s'') : LocksKept s s'' :=
  ⟨h'.locks.trans h.locks, fun t p => (h'.holding t p).trans (h.holding t p), fun he => h'.exclusive (h.exclusive he)⟩

theorem LocksKept.inv {s s' : State} (h : LocksKept s s') (hi : LockInv s) : LockInv s' := by
  refine ⟨h.exclusive hi.exclusive, fun p hp t => ?_⟩
  rw [h.holding]
  rw [h.locks] at hp
  exact hi.free p hp t

theorem LocksKept.record (s : State) (he : e.lockFree = true) : LocksKept s (s.record e) :=
  ⟨rfl, fun t p => holding_cons_lockFree he t p s.trace, fun h => h.cons_lockFree he⟩

theorem LocksKept.store (s : State) (store : Store DeployRunResult) : LocksKept s { s with store := store } :=
  ⟨rfl, fun _ _ => rfl, id⟩

theorem LocksKept.wait {s s' : State} (elapsed : Time) (h : LocksKept (s.wait elapsed) s') : LocksKept s s' :=
  ⟨h.locks, h.holding, h.exclusive⟩

theorem LocksKept.api {A : Type} (s : State) (answer : Except HTTPException (A × Store DeployRunResult)) :
    LocksKept s (s.api answer).2 := by
  cases answer with
  | ok r => exact .store s r.2
  | error e => exact .refl s

theorem LocksKept.serve {A : Type} {s : State} {exec : State → Except Exn A × State} (fate : Fate Exn)
    (h : LocksKept s (exec s).2) : LocksKept s (fate.serve exec s).2 := by
  cases fate with
  | unsent e => exact .refl s
  | _ => exact h

def Op.lockFree : Op → Bool
  | .setLock _ _ => false
  | .deleteLock _ => false
  | _ => true

theorem run_locksKept {op : Op} (hop : op.lockFree = true) (t : Party) (reply : Reply) (s : State) :
    LocksKept s (run t op reply s).2 := by
  refine .wait reply.elapsed ?_
  cases op with
  | service call => exact .refl _
  | setLock projectId taskId | deleteLock projectId => cases hop
  | getRun runId =>
    refine .serve reply.fate ?_
    unfold State.getRun
    split <;> exact .refl _
  | patchRun runId update =>
    refine .serve reply.fate ?_
    unfold State.patchRun
    split
    · exact .refl _
    · exact (LocksKept.store _ _).trans (.record _ rfl)
  | claimDispatch runId =>
    refine .serve reply.fate ?_
    unfold State.claimDispatch
    split
    · exact .refl _
    · dsimp only
      split
      · exact (LocksKept.store _ _).trans (.record _ rfl)
      · exact .store _ _
  | requireLiveLease claim =>
    change LocksKept _ (State.requireLiveLease t claim _).2
    unfold State.requireLiveLease
    split
    · exact .record _ rfl
    · exact .refl _
    · split
      · exact .record _ rfl
      · exact .refl _
  | triggerWorkflowDispatch owner runId | rerunFailedJobs owner workflowRunId runId => exact .serve reply.fate (.record _ rfl)
  | _ => exact .serve reply.fate (.api _ _)

def runsOnce (s : State) : Move deployWorld → Prop
  | .start t => .ended t ∉ s.trace
  | _ => True

instance (s : State) : (m : Move deployWorld) → Decidable (runsOnce s m)
  | .start t => inferInstanceAs (Decidable (.ended t ∉ s.trace))
  | .call _ _ _ => .isTrue trivial
  | .stop _ => .isTrue trivial

/-- `refused` are executions that leave the lock alone: what they delete is not
carried out. Everyone else takes the lock, and finds it free. -/
def refusedStayAway (refused : Party → Bool) (s : State) : Move deployWorld → Prop
  | .start t => .ended t ∉ s.trace
  | .call t (.service .deployLockTtl) reply => refused t ∨ (reply.service .deployLockTtl).isOk
  | .call t (.setLock projectId _) reply => refused t ∨ s.locks projectId = none ∧ reply.fate.carriedOut
  | .call t (.deleteLock _) reply => refused t → reply.fate.carriedOut = false
  | _ => True

instance (refused : Party → Bool) (s : State) (m : Move deployWorld) : Decidable (refusedStayAway refused s m) := by
  unfold refusedStayAway
  split <;> infer_instance

def lockRules (refused : Party → Bool) : Rules deployWorld where
  admits := refusedStayAway refused
  inv := LockInv
  rely t s s' := ∀ p, holding t p s'.trace = holding t p s.trace
  rely_refl _ _ _ := rfl
  rely_trans h h' p := (h' p).trans (h p)
  rest _ _ := True
  rest_stable _ _ h := h

variable {refused : Party → Bool}

theorem LocksKept.keeps {s s' : State} (h : LocksKept s s') (hi : LockInv s) (t : Party) : (lockRules refused).Keeps t s s' :=
  ⟨h.inv hi, fun u _ p => h.holding u p⟩

theorem ended_locksKept (t : Party) (r : Option (Except Exn Result)) (s : State) : LocksKept s (ended t r s) := by
  unfold ended
  split
  · exact (LocksKept.record s rfl).trans (.record _ rfl)
  · exact .record s rfl

theorem setLock_keeps (t : Party) {projectId : String} (taskId : String) {s : State} (hi : LockInv s)
    (hfree : s.locks projectId = none) :
    (lockRules refused).Keeps t s (s.setLock t projectId taskId).2 ∧
      holding t projectId (s.setLock t projectId taskId).2.trace = true := by
  have heq : s.setLock t projectId taskId = (.ok true,
      { s with locks := Function.update s.locks projectId (some taskId) }.record (.acquired t projectId)) := by
    unfold State.setLock
    rw [hfree]
  rw [heq]
  have hheld : ∀ u p, holding u p (.acquired t projectId :: s.trace) = true →
      (t = u ∧ projectId = p) ∨ holding u p s.trace = true := by
    intro u p h
    simpa [holding] using h
  refine ⟨⟨⟨hi.exclusive.cons ?_ ?_, ?_⟩, ?_⟩, ?_⟩
  · intro _ _ h
    cases h
  · intro u v p hu hv
    rcases hheld u p hu with ⟨rfl, rfl⟩ | hu'
    · rcases hheld v _ hv with ⟨rfl, _⟩ | hv'
      · rfl
      · rw [hi.free _ hfree v] at hv'
        cases hv'
    · rcases hheld v p hv with ⟨rfl, rfl⟩ | hv'
      · rw [hi.free _ hfree u] at hu'
        cases hu'
      · exact hi.exclusive.unique u v p hu' hv'
  · intro p hp u
    by_cases hpe : p = projectId
    · subst hpe
      simp [State.record] at hp
    · have hp' : s.locks p = none := by simpa [State.record, hpe] using hp
      have hne : ¬ (t = u ∧ projectId = p) := fun h => hpe h.2.symm
      cases hh : holding u p (.acquired t projectId :: s.trace) with
      | false => exact hh
      | true =>
        rcases hheld u p hh with h | h
        · exact absurd h hne
        · rw [hi.free p hp' u] at h
          cases h
  · intro u hu p
    have hne : (t == u) = false := beq_false_of_ne (Ne.symm hu)
    simp [State.record, holding, hne]
  · simp [State.record, holding]

theorem deleteLock_keeps {t : Party} {projectId : String} {s : State} (hi : LockInv s)
    (hheld : holding t projectId s.trace = true) :
    (lockRules refused).Keeps t s (s.deleteLock t projectId).2 := by
  have hold : ∀ u p, holding u p (.released t projectId :: s.trace) = true →
      ¬ (t = u ∧ projectId = p) ∧ holding u p s.trace = true := by
    intro u p h
    simp only [holding, Bool.and_eq_true, Bool.not_eq_true', ← Bool.not_eq_true, beq_iff_eq] at h
    exact h
  refine ⟨⟨hi.exclusive.cons ?_ ?_, ?_⟩, ?_⟩
  · intro u p h
    cases h
    exact hheld
  · intro u v p hu hv
    exact hi.exclusive.unique u v p (hold u p hu).2 (hold v p hv).2
  · intro p hp u
    cases hh : holding u p (.released t projectId :: s.trace) with
    | false => exact hh
    | true =>
      obtain ⟨hne, hu⟩ := hold u p hh
      by_cases hpe : p = projectId
      · subst hpe
        exact absurd ⟨hi.exclusive.unique t u p hheld hu, rfl⟩ hne
      · have hp' : s.locks p = none := by simpa [State.deleteLock, State.record, hpe] using hp
        rw [hi.free p hp' u] at hu
        cases hu
  · intro u hu p
    have hne : (t == u) = false := beq_false_of_ne (Ne.symm hu)
    simp [State.deleteLock, State.record, holding, hne]

section Jobs

variable {t : Party}

def Held (refused : Party → Bool) (t : Party) (projectId : String) (s : State) : Prop :=
  refused t = false → holding t projectId s.trace = true

theorem held_stable (projectId : String) : (lockRules refused).Stable t (Held refused t projectId) := by
  intro s s' _ hr h hne
  rw [hr projectId]
  exact h hne

theorem lockFree_maintains {op : Op} (hop : op.lockFree = true) {P : State → Prop}
    (hst : (lockRules refused).Stable t P) (hP : ∀ s s', LocksKept s s' → P s → P s') :
    (lockRules refused).Maintains t P (perform op) := by
  refine .perform hst fun s hi h reply _ => ?_
  have hk := run_locksKept hop t reply s
  exact ⟨hk.keeps hi t, hP _ _ hk h⟩

theorem callsMaintain_lock (runId : String) {P : State → Prop}
    (hst : (lockRules refused).Stable t P) (hP : ∀ s s', LocksKept s s' → P s → P s') :
    CallsMaintain (lockRules refused) t P runId := by
  have calls : ∀ op : Op, op.lockFree = true →
      (lockRules refused).Maintains t P (perform op) :=
    fun op hop => lockFree_maintains hop hst hP
  have crossing : ∀ effect, (lockRules refused).Maintains t P effect →
      (lockRules refused).Maintains t P (crossBoundary runId effect) := by
    intro effect he
    have claim : (lockRules refused).Maintains t P (claimDispatch runId) := by
      unfold claimDispatch
      split
      · exact .ret none
      · refine .bind (calls _ rfl) fun claim => ?_
        split
        · exact .ret _
        · exact .raise _
    refine .bind claim fun claim => .bind ?_ fun _ => he
    cases claim with
    | none => exact .ret ()
    | some claim => exact .bind (calls _ rfl) fun _ => .ret ()
  exact {
    service := fun call => calls _ rfl
    fetchRun := calls _ rfl
    startRun := calls _ rfl
    patchRun := fun _ => calls _ rfl
    trigger := fun owner => crossing _ (calls _ rfl)
    rerun := fun owner workflowRunId => crossing _ (calls _ rfl) }

theorem callsMaintain_held (runId projectId : String) :
    CallsMaintain (lockRules refused) t (Held refused t projectId) runId :=
  callsMaintain_lock _ (held_stable _) fun _ _ hk h hne => (hk.holding t _).trans (h hne)

variable {s : State}

theorem run_setLock_keeps {projectId taskId : String} (hi : LockInv s) {reply : Reply}
    (hok : refusedStayAway refused s (.call t (.setLock projectId taskId) reply)) :
    (lockRules refused).Keeps t s (run t (.setLock projectId taskId) reply s).2 ∧
      Held refused t projectId (run t (.setLock projectId taskId) reply s).2 := by
  have hinv : LockInv (s.wait reply.elapsed) := ⟨hi.exclusive, hi.free⟩
  have kept : (lockRules refused).Keeps t s (s.wait reply.elapsed) := ((LocksKept.refl _).wait reply.elapsed).keeps hi t
  change _ ∧ Held refused t projectId (reply.fate.serve (State.setLock t projectId taskId) (s.wait reply.elapsed)).2
  change (lockRules refused).Keeps t s
    (reply.fate.serve (State.setLock t projectId taskId) (s.wait reply.elapsed)).2 ∧ _
  cases hl : s.locks projectId with
  | none =>
    obtain ⟨hk, hh⟩ := @setLock_keeps refused t projectId taskId _ hinv hl
    cases hf : reply.fate with
    | unsent e =>
      refine ⟨kept, fun hne => ?_⟩
      rcases hok with h | h
      · rw [hne] at h
        cases h
      · rw [hf] at h
        cases h.2
    | _ => exact ⟨⟨hk.inv, hk.rely⟩, fun _ => hh⟩
  | some holder =>
    -- SET NX of a key that is there writes nothing
    have heq : (s.wait reply.elapsed).setLock t projectId taskId = (.ok false, s.wait reply.elapsed) := by
      unfold State.setLock
      rw [show (s.wait reply.elapsed).locks projectId = some holder from hl]
    have hsame : (reply.fate.serve (State.setLock t projectId taskId) (s.wait reply.elapsed)).2 = s.wait reply.elapsed := by
      cases reply.fate <;> simp [Fate.serve, heq]
    rw [hsame]
    refine ⟨kept, fun hne => ?_⟩
    rcases hok with h | h
    · rw [hne] at h
      cases h
    · rw [hl] at h
      cases h.1

theorem run_deleteLock_keeps {projectId : String} (hi : LockInv s) (hh : Held refused t projectId s)
    {reply : Reply} (hok : refusedStayAway refused s (.call t (.deleteLock projectId) reply)) :
    (lockRules refused).Keeps t s (run t (.deleteLock projectId) reply s).2 := by
  change (lockRules refused).Keeps t s (reply.fate.serve (State.deleteLock t projectId) (s.wait reply.elapsed)).2
  have kept : (lockRules refused).Keeps t s (s.wait reply.elapsed) := ((LocksKept.refl _).wait reply.elapsed).keeps hi t
  cases hr : refused t with
  | true =>
    have hf : reply.fate.carriedOut = false := hok hr
    cases hfate : reply.fate with
    | unsent e => exact kept
    | _ => simp [hfate, Fate.carriedOut] at hf
  | false =>
    have hk := @deleteLock_keeps refused t projectId (s.wait reply.elapsed) ⟨hi.exclusive, hi.free⟩ (hh hr)
    cases reply.fate with
    | unsent e => exact kept
    | _ => exact ⟨hk.inv, hk.rely⟩

theorem lockAndDeploy_safe {msg : DeployMessage} (hi : (lockRules refused).inv s) :
    (lockRules refused).Safe t (fun _ s => Held refused t msg.projectId s) (lockAndDeploy msg) s := by
  have hkeep : CallsMaintain (lockRules refused) t (Held refused t msg.projectId) msg.taskId :=
    callsMaintain_held _ _
  refine Safe.bind (M := fun r _ => refused t ∨ r.isOk) hi ?_ ?_ ?_
  · refine Safe.perform fun s hi _ reply hok => ?_
    exact ⟨(run_locksKept rfl t reply s).keeps hi t, hok⟩
  · intro ttl s hi _
    refine Safe.bind (M := fun _ s => Held refused t msg.projectId s) hi ?_ ?_ fun _ _ _ h => h
    · exact Safe.perform fun s hi _ reply hok => run_setLock_keeps hi hok
    · intro acquired s hi hh
      cases acquired with
      | false => exact Maintains.bind (hkeep.patchRun rfl) (fun _ => .ret _) s hi hh
      | true =>
        have started : (lockRules refused).Maintains t (Held refused t msg.projectId)
            (startRun msg.taskId >>= fun start =>
              if start.started then deployProject msg else return settled "cancelled") := by
          refine .bind hkeep.startRun fun start => ?_
          split
          · exact deployProject_maintains hkeep
          · exact .ret _
        exact started s hi hh
  · -- an execution whose lifetime setting raises is one that never takes the lock
    intro e s _ h hne
    rcases h with h | h
    · rw [hne] at h
      cases h
    · cases h

theorem processDeployJob_safe {msg : DeployMessage} (hi : (lockRules refused).inv s) :
    (lockRules refused).Safe t (fun _ _ => True) (processDeployJob msg) s := by
  have hfree : CallsMaintain (lockRules refused) t (fun _ => True) msg.taskId :=
    callsMaintain_lock _ (fun _ _ _ _ _ => trivial) fun _ _ _ _ => trivial
  have hkeep : CallsMaintain (lockRules refused) t (Held refused t msg.projectId) msg.taskId :=
    callsMaintain_held _ _
  refine Safe.bind hi (getRun_built hfree.calls.toCalls s hi trivial) ?_ fun _ _ _ _ => trivial
  intro run s hi _
  split
  · trivial
  · refine Safe.ensuring (M := fun _ s => Held refused t msg.projectId s) hi ?_ ?_
    · exact Safe.handle hi (lockAndDeploy_safe hi) (fun _ _ _ h => h)
        fun e s hi h => onDeployException_built hkeep.calls.toCalls e s hi h
    · intro r s hi h
      refine Safe.perform fun s' hi' hr reply hok => ?_
      have hh : Held refused t msg.projectId s' := held_stable msg.projectId s s' hi' hr h
      exact ⟨run_deleteLock_keeps hi' hh hok, by split <;> trivial⟩

theorem body_safe (hi : (lockRules refused).inv s) : (lockRules refused).Safe t (fun _ _ => True) (body t) s := by
  cases t with
  | worker n msg => exact processDeployJob_safe hi
  | sweep n grant detail =>
    have calls : ∀ op : Op, op.lockFree = true → (lockRules refused).Maintains (.sweep n grant detail) (fun _ => True)
        (perform op) :=
      fun op hop => lockFree_maintains hop (fun _ _ _ _ _ => trivial) fun _ _ _ _ => trivial
    have hfree : CallsMaintain (lockRules refused) (.sweep n grant detail) (fun _ => True) grant.grantRunId :=
      callsMaintain_lock _ (fun _ _ _ _ _ => trivial) fun _ _ _ _ => trivial
    have stop : (lockRules refused).Maintains (.sweep n grant detail) (fun _ => True) (stopGrantDeploy grant detail) := by
      refine .bind (getRunIfMissingReturnsNone_built hfree.calls.toCalls) fun run => ?_
      split
      · exact .ret true
      · split
        · exact .ret true
        · refine .bind (calls _ rfl) fun withdrawal => ?_
          split
          · exact .ret true
          · refine .bind (getRunIfMissingReturnsNone_built hfree.calls.toCalls) fun again => ?_
            split
            · exact .ret true
            · refine .bind (calls _ rfl) fun supersede => ?_
              split
              · exact .ret true
              · exact .bind (calls _ rfl) fun _ => .ret false
    exact Maintains.bind stop (fun _ => .ret _) s hi trivial

end Jobs

/-- As long as no execution that does not take the lock gets its DELETE through, a
lock is deleted by its holder only, and no two executions hold one. -/
theorem deploy_lock_exclusive (refused : Party → Bool) (store : Store DeployRunResult) (now : Time)
    (c : Config deployWorld) (h : Reaches body (refusedStayAway refused) (idlePool store now) c) :
    LockExclusive c.state.trace := by
  have hinit : (lockRules refused).inv (.initial store now) := ⟨.nil, fun _ _ _ => rfl⟩
  refine (reaches_sound (G := lockRules refused) (.idle hinit fun _ => trivial) (fun t s hi _ _ => ?_)
    (fun t s hi _ => ?_) h).inv.exclusive
  · exact (body_safe hi).conseq hi fun r s hi _ => ⟨(ended_locksKept t (some r) s).keeps hi t, trivial⟩
  · exact ⟨(ended_locksKept t none s).keeps hi t, trivial⟩

def exampleMessage (taskId : String) : DeployMessage where
  taskId := taskId
  projectId := "p"
  storyId := "s"
  callbackStream := none
  action := .feature
  deployFixAttempt := 0
  headSha := "abc"
  applicationId := none
  envOverrides := []
  fenceActiveDeploys := false

def queuedDeploy (id : String) : RunCreate where
  id := id
  type := .member .deploy
  projectId := some "p"
  userId := none
  storyId := some "s"
  taskId := none
  runMetadata := fun _ => none
  callbackStream := none

def exampleStore : Store DeployRunResult where
  runs := fun id => if ["a", "b", "c"].contains id then some (queuedDeploy id).row else none
  grants := fun _ => none

def lockOnly : (call : ServiceCall) → Except Exn call.Res
  | .deployLockTtl => .ok (3600 : Nat)
  | _ => .error (.exception "unavailable")

def served (t : Party) : Turn deployWorld := .call t fun _ => ⟨0, .served, lockOnly⟩

def unsent (t : Party) : Turn deployWorld := .call t fun _ => ⟨0, .unsent (.exception "connection lost"), lockOnly⟩

def takesLock (t : Party) : List (Turn deployWorld) := [.start t, served t, served t, served t]

/-- Job `b` is refused while `a` works and never gets its DELETE through; `a` fails
and gives the lock back, and `c` takes it. -/
def refusedInSilence : List (Turn deployWorld) :=
  takesLock (.worker 0 (exampleMessage "a")) ++ takesLock (.worker 1 (exampleMessage "b")) ++
    [served (.worker 1 (exampleMessage "b")), unsent (.worker 1 (exampleMessage "b"))] ++
    List.replicate 4 (served (.worker 0 (exampleMessage "a"))) ++ takesLock (.worker 2 (exampleMessage "c"))

theorem deploy_lock_exclusive_refused :
    holding (.worker 2 (exampleMessage "c")) "p"
      ((idlePool exampleStore 0).play body refusedInSilence).state.trace = true ∧
    LockExclusive ((idlePool exampleStore 0).play body refusedInSilence).state.trace :=
  ⟨by decide, deploy_lock_exclusive (· == .worker 1 (exampleMessage "b")) exampleStore 0 _ (play_reaches (by decide))⟩

/-- Job `a` holds the lock; job `b` is refused it and deletes it on its way out;
job `c` takes it while `a` still works. -/
def contention : List (Turn deployWorld) :=
  takesLock (.worker 0 (exampleMessage "a")) ++ takesLock (.worker 1 (exampleMessage "b")) ++
    [served (.worker 1 (exampleMessage "b")), served (.worker 1 (exampleMessage "b"))] ++
    takesLock (.worker 2 (exampleMessage "c"))

theorem deploy_lock_shared : ∃ c : Config deployWorld,
    Reaches body runsOnce (idlePool exampleStore 0) c ∧ ¬ LockExclusive c.state.trace := by
  refine ⟨(idlePool exampleStore 0).play body contention,
    play_reaches (by decide), fun h => ?_⟩
  have heq := h.unique (.worker 0 (exampleMessage "a")) (.worker 2 (exampleMessage "c")) "p" (by decide) (by decide)
  exact absurd heq (by decide)

end Orchestrator.Deploy
