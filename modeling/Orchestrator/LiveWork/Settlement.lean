import Orchestrator.Async.Solo
import Orchestrator.LiveWork.Execution

/-!
When a job's entry is acknowledged, and what a job leaves behind that ends without.
-/

namespace Orchestrator.LiveWork

open Async
open Deploy (Exn)

def body (rounds : Nat → Nat) : Party → Job Unit
  | .job _ project => do
    let _ ← executeLiveWork project (perform .process)
  | .watchdog execution project => cancelOnLiveTeardown project (rounds execution)
  | .outside _ => perform .outside

def Fencing (reasons : List Reason) : Prop := .teardown ∈ reasons ∨ .leaseLost ∈ reasons

instance (reasons : List Reason) : Decidable (Fencing reasons) := inferInstanceAs (Decidable (_ ∨ _))

structure Excused (project : Option String) (log : Log) : Prop where
  reason : .fenced ∈ log ∨ (∃ settled, .returned settled ∈ log ∧ (settled = true ∨ .cleared ∈ log ∨ project = none)) ∨
    ∃ reasons, .cancelled reasons ∈ log ∧ Fencing reasons
  cancelled : ∀ reasons, .cancelled reasons ∈ log → Fencing reasons
  proven : .unproven ∉ log

/-- The entry is acknowledged only where that is excused, and a job that has begun and ends
under teardown without it leaves the failure key. -/
structure Lawful (project : Option String) (log : Log) : Prop where
  acked : ∀ newer older, log = newer ++ .acked :: older → Excused project older
  fenced : ∀ newer older, log = newer ++ .finished true false :: older → .began ∈ older → .acked ∈ older

def State.runningOf (s : State) (ts : List Party) (project : String) : Bool :=
  ts.any fun t => !s.ceased t && t.owner = t && t.project = some project

def Op.finds : (op : Op) → Except Exn op.Res → Bool
  | .keyExists _ .handler, .ok answer => answer
  | _, _ => false

def Event.fencing : Event → Bool
  | .cancelled reasons => decide (Fencing reasons)
  | _ => true

/-- A project is not fenced while a job of it is leaving without the cancel key seen, and a
failure key lasts until the jobs that have set it are over. -/
def lasting (s : State) : Op → Reply → Prop
  | .outside, reply => match reply.change with
    | .fence project => s.runningOf s.exposed project = false
    | .clearFailure project => s.runningOf s.marked project = false
    | _ => True
  | _, _ => True

/-- A handler that finds a key set belongs to a job cancelled for a teardown or a lost lease,
and a handler's call goes wrong only while the project is not torn down. -/
def settles (s : State) : Move liveWorld → Prop
  | .call t op reply => legit s (.call t op reply) ∧ (op.missed (run t op reply s).1 = true → s.tornDown t = false) ∧
    (op.finds (run t op reply s).1 = true → ∀ event ∈ s.logs t, event.fencing = true) ∧ lasting s op reply
  | m => legit s m

instance (s : State) (op : Op) (reply : Reply) : Decidable (lasting s op reply) := by
  unfold lasting
  (repeat' split) <;> infer_instance

instance (s : State) (m : Move liveWorld) : Decidable (legit s m) := by
  unfold legit
  split <;> infer_instance

instance (s : State) (m : Move liveWorld) : Decidable (settles s m) := by
  unfold settles
  split <;> infer_instance

section Histories

variable {project : Option String} {log : Log}

def due (project : Option String) : Event → Log → Prop
  | .acked, log => Excused project log
  | .finished true false, log => .began ∈ log → .acked ∈ log
  | _, _ => True

theorem lawful_of_clean (h : Clean (due project) log) : Lawful project log := by
  constructor
  · rintro newer older rfl
    exact h.split.1
  · rintro newer older rfl
    exact h.split.1

end Histories

section Frames

variable {t u : Party} {s s' s'' : State}

structure Frame (t : Party) (s s' : State) : Prop where
  cancelKeys : s'.cancelKeys = s.cancelKeys
  failureKeys : ∀ project, (s.failureKeys project).isSome = true → (s'.failureKeys project).isSome = true
  ceased : s'.ceased = s.ceased
  marked : ∀ u, u ≠ t → (u ∈ s'.marked ↔ u ∈ s.marked)
  exposed : ∀ u, u ≠ t → (u ∈ s'.exposed ↔ u ∈ s.exposed)
  others : ∀ u, u ≠ t → s'.logs u = s.logs u
  marks : t ∈ s.marked → t ∈ s'.marked
  exposes : t ∈ s.exposed → t ∈ s'.exposed
  log : ∃ events, s'.logs t = events ++ s.logs t

theorem Frame.aside (leases : List (String × Party)) (requested : Party → List Reason) (watched : Party → Bool) :
    Frame t s { s with leases := leases, requested := requested, watched := watched } :=
  ⟨rfl, fun _ h => h, rfl, fun _ _ => .rfl, fun _ _ => .rfl, fun _ _ => rfl, id, id, [], rfl⟩

theorem Frame.refl (t : Party) (s : State) : Frame t s s := .aside s.leases s.requested s.watched

theorem Frame.trans (h : Frame t s s') (h' : Frame t s' s'') : Frame t s s'' := by
  obtain ⟨events, hlog⟩ := h.log
  obtain ⟨events', hlog'⟩ := h'.log
  refine ⟨h'.cancelKeys.trans h.cancelKeys, fun p hp => h'.failureKeys p (h.failureKeys p hp), h'.ceased.trans h.ceased,
    fun u hu => (h'.marked u hu).trans (h.marked u hu), fun u hu => (h'.exposed u hu).trans (h.exposed u hu),
    fun u hu => (h'.others u hu).trans (h.others u hu), fun hm => h'.marks (h.marks hm), fun he => h'.exposes (h.exposes he),
    events' ++ events, ?_⟩
  rw [hlog', hlog, List.append_assoc]

theorem Frame.record (events : List Event) : Frame t s (s.record t events) :=
  ⟨rfl, fun _ h => h, rfl, fun _ _ => .rfl, fun _ _ => .rfl, fun _ hu => Function.update_of_ne hu _ _, id, id, events,
    Function.update_self _ _ _⟩

theorem Frame.setFailure (project reason : String) : Frame t s (State.setFailure t project reason s).2 := by
  refine ⟨rfl, fun p hp => ?_, rfl, fun u hu => ?_, fun _ _ => .rfl, fun _ _ => rfl, List.mem_cons_of_mem _, id, [], rfl⟩
  · by_cases h : p = project
    · subst h
      simp [State.setFailure]
    · simpa [State.setFailure, Function.update_of_ne h] using hp
  · simp [State.setFailure, hu]

theorem Frame.deliver {A : Type} (r : Except Exn A) : Frame t s (s.deliver t r) := by
  unfold State.deliver
  split
  · exact .aside _ _ _
  · exact .refl t s

theorem Frame.expose (missed : Bool) : Frame t s (s.expose t missed) := by
  unfold State.expose
  split
  · exact ⟨rfl, fun _ h => h, rfl, fun _ _ => .rfl, fun u hu => by simp [hu], fun _ _ => rfl, id, List.mem_cons_of_mem _, [], rfl⟩
  · exact .refl t s

theorem Frame.register (project : String) : Frame t s (s.register t project) := by
  unfold State.register
  split
  · exact .refl t s
  · exact .aside _ _ _

theorem Frame.exist (key : Key) (site : Site) : Frame t s (State.exist t key site s).2 := by
  unfold State.exist
  dsimp only
  split
  · exact .record _
  · exact .refl t s

theorem Frame.served {A : Type} {fate : Fate Exn} {exec : State → Except Exn A × State} (h : Frame t s (exec s).2) :
    Frame t s (fate.serve exec s).2 := by
  cases fate with
  | unsent e => exact .refl t s
  | _ => exact h

theorem Frame.answered {A : Type} {fate : Fate Exn} {served : Except Exn A × State} (h : Frame t s served.2) :
    Frame t s (answer fate served s).2 := by
  cases fate with
  | served => exact h
  | _ => exact .refl t s

theorem serve_frame {op : Op} {reply : Reply} (h : op ≠ .outside) : Frame t s (serve t op reply s).2 := by
  cases op with
  | deploy op => exact .served (.record _)
  | utcnow => exact .refl t s
  | beginLiveWork project =>
    simp only [serve]
    cases reply.fate with
    | served => exact (Frame.register project).trans (.record _)
    | unheard e => exact .register project
    | unsent e => exact .refl t s
  | createWatch => exact .aside _ _ _
  | keyExists key site => exact .answered (.exist key site)
  | setFailure project reason site => exact .served (.setFailure project reason)
  | ack site => exact .served (.record _)
  | stopWatch | zrem project => exact .served (.aside _ _ _)
  | sleep | refreshLease project => exact .served (.refl t s)
  | cancelOwner reason => exact .aside _ _ _
  | outside => exact absurd rfl h
  | _ => exact .answered (.record _)

theorem run_after (op : Op) (reply : Reply) : Frame t (serve t op reply s).2 (run t op reply s).2 := by
  unfold run
  exact ((Frame.record _).trans (.deliver _)).trans (.expose _)

theorem run_frame {op : Op} {reply : Reply} (h : op ≠ .outside) : Frame t s (run t op reply s).2 :=
  (serve_frame h).trans (run_after op reply)

structure Tolerates (t : Party) (s s' : State) : Prop where
  logs : s'.logs t = s.logs t
  ceased : s'.ceased t = s.ceased t
  marked : t ∈ s'.marked ↔ t ∈ s.marked
  exposed : t ∈ s'.exposed ↔ t ∈ s.exposed
  fence : s.ceased t = false → t.owner = t → t ∈ s.marked → s.fenceSet t = true → s'.fenceSet t = true
  torn : s.ceased t = false → t.owner = t → t ∈ s.exposed → s.tornDown t = false → s'.tornDown t = false

theorem Tolerates.refl (t : Party) (s : State) : Tolerates t s s := ⟨rfl, rfl, .rfl, .rfl, fun _ _ _ h => h, fun _ _ _ h => h⟩

theorem Tolerates.trans (h : Tolerates t s s') (h' : Tolerates t s' s'') : Tolerates t s s'' := by
  refine ⟨h'.logs.trans h.logs, h'.ceased.trans h.ceased, h'.marked.trans h.marked, h'.exposed.trans h.exposed, ?_, ?_⟩
  · intro hover howner hmarked hfence
    exact h'.fence (h.ceased.trans hover) howner (h.marked.mpr hmarked) (h.fence hover howner hmarked hfence)
  · intro hover howner hexposed htorn
    exact h'.torn (h.ceased.trans hover) howner (h.exposed.mpr hexposed) (h.torn hover howner hexposed htorn)

theorem fenceSet_mono (h : ∀ project, (s.failureKeys project).isSome = true → (s'.failureKeys project).isSome = true)
    (hfence : s.fenceSet t = true) : s'.fenceSet t = true := by
  unfold State.fenceSet at *
  cases hproject : t.project with
  | none => simp [hproject] at hfence
  | some project =>
    rw [hproject] at hfence
    exact h project hfence

theorem Frame.tolerates (h : Frame t s s') (hu : u ≠ t) : Tolerates u s s' := by
  refine ⟨h.others u hu, congrFun h.ceased u, h.marked u hu, h.exposed u hu, fun _ _ _ => fenceSet_mono h.failureKeys, fun _ _ _ htorn => ?_⟩
  unfold State.tornDown at *
  rw [h.cancelKeys]
  exact htorn

theorem runningOf_project {ts : List Party} {project : String} (h : s.runningOf ts project = false) (hmem : u ∈ ts)
    (hover : s.ceased u = false) (howner : u.owner = u) : u.project ≠ some project := by
  intro hproject
  unfold State.runningOf at h
  rw [List.any_eq_false] at h
  exact h u hmem (by simp [hover, howner, hproject])

theorem outside_tolerates {change : Change} (h : match change with
    | .fence project => s.runningOf s.exposed project = false
    | .clearFailure project => s.runningOf s.marked project = false
    | _ => True) (u : Party) : Tolerates u s (change.apply s) := by
  cases change with
  | fence project =>
    refine ⟨rfl, rfl, .rfl, .rfl, fun _ _ _ h => h, fun hover howner hexposed htorn => ?_⟩
    have hother := runningOf_project h hexposed hover howner
    unfold State.tornDown at *
    cases hproject : u.project with
    | none => rfl
    | some p =>
      rw [hproject] at htorn hother
      simpa [Change.apply, Function.update_of_ne fun hp => hother (congrArg some hp)] using htorn
  | unfence project =>
    refine ⟨rfl, rfl, .rfl, .rfl, fun _ _ _ h => h, fun _ _ _ htorn => ?_⟩
    unfold State.tornDown at *
    cases hproject : u.project with
    | none => rfl
    | some p =>
      rw [hproject] at htorn
      by_cases hp : p = project
      · subst hp
        simp [Change.apply]
      · simpa [Change.apply, Function.update_of_ne hp] using htorn
  | clearFailure project =>
    refine ⟨rfl, rfl, .rfl, .rfl, fun hover howner hmarked hfence => ?_, fun _ _ _ h => h⟩
    have hother := runningOf_project h hmarked hover howner
    unfold State.fenceSet at *
    cases hproject : u.project with
    | none => simp [hproject] at hfence
    | some p =>
      rw [hproject] at hfence hother
      simpa [Change.apply, Function.update_of_ne fun hp => hother (congrArg some hp)] using hfence
  | _ => exact ⟨rfl, rfl, .rfl, .rfl, fun _ _ _ h => h, fun _ _ _ h => h⟩

end Frames

def rules : Rules liveWorld where
  admits := settles
  inv s := ∀ t, Clean (due t.project) (s.logs t)
  rely := Tolerates
  rely_refl := Tolerates.refl
  rely_trans := Tolerates.trans
  rest t s := s.ceased t = false → s.logs t = [] ∧ t ∉ s.marked ∧ t ∉ s.exposed
  rest_stable := fun _ h hrest hover => by
    obtain ⟨hlogs, hmarked, hexposed⟩ := hrest (h.ceased.symm.trans hover)
    exact ⟨h.logs.trans hlogs, fun hm => hmarked (h.marked.mp hm), fun he => hexposed (h.exposed.mp he)⟩

section Calls

open Rules

variable {t : Party} {s s' : State} {project : String} {op : Op} {reply : Reply}

theorem run_logs : (run t op reply s).2.logs t =
    raisedBy op (s.requested t) (serve t op reply s).1 ++ (serve t op reply s).2.logs t := by
  unfold run State.expose State.deliver
  split <;> split <;> exact Function.update_self _ _ _

theorem frame_inv (h : Frame t s s') (hi : rules.inv s) (hclean : Clean (due t.project) (s'.logs t)) : rules.inv s' := by
  intro u
  by_cases hu : u = t
  · exact hu ▸ hclean
  · rw [h.others u hu]
    exact hi u

theorem call_safe {post : Except Exn op.Res → State → Prop} (hop : op ≠ .outside)
    (h : ∀ s' reply, rules.inv s' → Tolerates t s s' → settles s' (.call t op reply) →
      Clean (due t.project) ((run t op reply s').2.logs t) ∧ post (run t op reply s').1 (run t op reply s').2) :
    rules.Safe t post (perform op) s := by
  refine Safe.perform fun s' hi hr reply hok => ?_
  obtain ⟨hclean, hpost⟩ := h s' reply hi hr hok
  exact ⟨⟨frame_inv (run_frame hop) hi hclean, fun u hu => (run_frame hop).tolerates hu⟩, hpost⟩

def Event.free : Event → Bool
  | .acked => false
  | .finished _ _ => false
  | _ => true

def Event.mild : Event → Bool
  | .cancelled _ | .dispatched _ | .acked | .finished _ _ => false
  | _ => true

theorem mild_free {event : Event} (h : event.mild = true) : event.free = true := by
  cases event <;> first | rfl | cases h

variable {project : Option String}

theorem due_free {event : Event} (h : event.free = true) (log : Log) : due project event log := by
  cases event with
  | acked | finished teardown fence => cases h
  | _ => trivial

theorem raisedBy_free {A : Type} (op : Op) (reasons : List Reason) (r : Except Exn A) :
    ∀ event ∈ raisedBy op reasons r, event.free = true := by
  unfold raisedBy
  split
  · split <;> simp [Event.free]
  · split <;> simp [Event.free]
  · simp

theorem clean_free {events log : Log} (h : Clean (due project) log)
    (hfree : ∀ event ∈ events, event.free = true) : Clean (due project) (events ++ log) :=
  h.append fun event hmem log => due_free (hfree event hmem) log

theorem record_clean {events : Log} (h : Clean (due project) (s.logs t))
    (hfree : ∀ event ∈ events, event.free = true) : Clean (due project) ((s.record t events).logs t) := by
  rw [State.record_logs]
  exact clean_free h hfree

theorem startedBy_free (op : Deploy.Op) (reply : Reply) : ∀ event ∈ startedBy op reply, event.free = true := by
  cases op <;> simp [startedBy, Event.free]

theorem seen_mild (call : GithubCall) (reply : Reply) : ∀ event ∈ call.seen reply, event.mild = true := by
  have hterminal : ∀ (completed : Bool) (runId : Nat), ∀ event ∈ (if completed then [.terminal runId] else [] : Log), event.mild = true := by
    intro completed runId event hmem
    split at hmem
    · cases List.mem_singleton.mp hmem
      rfl
    · cases hmem
  cases call with
  | getLatestWorkflowRun =>
    simp only [GithubCall.seen]
    cases reply.found with
    | none => simp
    | some info => exact hterminal info.completed info.id
  | getWorkflowRun runId => exact hterminal reply.info.completed runId
  | _ => simp [GithubCall.seen]

theorem answer_clean {A : Type} {fate : Fate Exn} {served : Except Exn A × State}
    (hserved : Clean (due project) (served.2.logs t)) (h : Clean (due project) (s.logs t)) :
    Clean (due project) ((answer fate served s).2.logs t) := by
  cases fate with
  | served => exact hserved
  | _ => exact h

theorem serve_clean (hop : op ≠ .outside) (hack : ∀ site, op ≠ .ack site)
    (h : Clean (due project) (s.logs t)) : Clean (due project) ((serve t op reply s).2.logs t) := by
  cases op with
  | process => exact answer_clean (record_clean h (by simp [Event.free])) h
  | deploy op =>
    simp only [serve]
    cases reply.fate with
    | unsent e => exact h
    | _ => exact record_clean h (startedBy_free op reply)
  | github call site => exact answer_clean (record_clean h fun event hmem => mild_free (seen_mild call reply event hmem)) h
  | beginLiveWork project =>
    have hregister : ∀ project, (s.register t project).logs t = s.logs t := by
      intro project
      unfold State.register
      split <;> rfl
    simp only [serve]
    cases reply.fate with
    | served =>
      refine record_clean (by rwa [hregister]) ?_
      split <;> simp [Event.free]
    | unheard e => rwa [hregister]
    | unsent e => exact h
  | keyExists key site =>
    refine answer_clean ?_ h
    unfold State.exist
    dsimp only
    split
    · exact record_clean h (by simp [Event.free])
    · exact h
  | ack site => exact absurd rfl (hack site)
  | outside => exact absurd rfl hop
  | utcnow | createWatch | cancelOwner reason => exact h
  | _ =>
    simp only [serve]
    cases reply.fate <;> exact h

theorem run_clean (hop : op ≠ .outside) (hack : ∀ site, op ≠ .ack site)
    (h : Clean (due project) (s.logs t)) : Clean (due project) ((run t op reply s).2.logs t) := by
  rw [run_logs]
  exact clean_free (serve_clean hop hack h) (raisedBy_free op _ _)

theorem quiet_safe {post : Except Exn op.Res → State → Prop} (hop : op ≠ .outside) (hack : ∀ site, op ≠ .ack site)
    (h : ∀ s' reply, rules.inv s' → Tolerates t s s' → settles s' (.call t op reply) →
      post (run t op reply s').1 (run t op reply s').2) : rules.Safe t post (perform op) s :=
  call_safe hop fun s' reply hi hr hok => ⟨run_clean hop hack (hi t), h s' reply hi hr hok⟩

end Calls

section Phases

variable {t : Party} {s s' : State} {project : String} {op : Op} {log : Log} {P : Log → Prop}

def Event.smooth : Event → Bool
  | .cancelled _ => false
  | .unproven => false
  | _ => true

def Smooth (log : Log) : Prop := ∀ event ∈ log, event.smooth = true

def Hit (log : Log) : Prop := (∃ reasons, .cancelled reasons ∈ log) ∧ .unproven ∉ log

def Has (t : Party) (P : Log → Prop) (s : State) : Prop := s.ceased t = false ∧ P (s.logs t)

/-- The job may end as it is: its entry is acknowledged, or it has left the failure key, or it
leaves while nobody tears the project down. -/
def Covered (t : Party) (s : State) : Prop :=
  s.ceased t = false ∧ (.acked ∈ s.logs t ∨ (t ∈ s.marked ∧ s.fenceSet t = true) ∨ (t ∈ s.exposed ∧ s.tornDown t = false))

theorem has_stable (P : Log → Prop) : rules.Stable t (Has t P) := by
  intro s s' _ hr h
  exact ⟨hr.ceased.trans h.1, by rw [hr.logs]; exact h.2⟩

theorem covered_stable (howner : t.owner = t) : rules.Stable t (Covered t) := by
  intro s s' _ hr h
  refine ⟨hr.ceased.trans h.1, ?_⟩
  rcases h.2 with hacked | ⟨hmarked, hfence⟩ | ⟨hexposed, htorn⟩
  · exact .inl (by rwa [hr.logs])
  · exact .inr (.inl ⟨hr.marked.mpr hmarked, hr.fence h.1 howner hmarked hfence⟩)
  · exact .inr (.inr ⟨hr.exposed.mpr hexposed, hr.torn h.1 howner hexposed htorn⟩)

theorem Frame.covered (h : Frame t s s') (hs : Covered t s) : Covered t s' := by
  obtain ⟨events, hlog⟩ := h.log
  refine ⟨(congrFun h.ceased t).trans hs.1, ?_⟩
  rcases hs.2 with hacked | ⟨hmarked, hfence⟩ | ⟨hexposed, htorn⟩
  · exact .inl (hlog ▸ List.mem_append_right events hacked)
  · exact .inr (.inl ⟨h.marks hmarked, fenceSet_mono h.failureKeys hfence⟩)
  · refine .inr (.inr ⟨h.exposes hexposed, ?_⟩)
    unfold State.tornDown at *
    rw [h.cancelKeys]
    exact htorn

def Raised (t : Party) (e : Exn) (s : State) : Prop := s.ceased t = false ∧ (e = .cancelledError → Hit (s.logs t))

theorem raised_hit {A : Type} (hbody : op.inBody = true) (reasons : List Reason) (hlog : Smooth log) :
    Hit (raisedBy op reasons (.error .cancelledError : Except Exn A) ++ log) := by
  have hraised : raisedBy op reasons (.error .cancelledError : Except Exn A) = [.cancelled reasons] := by
    simp [raisedBy, hbody]
  rw [hraised]
  refine ⟨⟨reasons, List.mem_cons_self⟩, fun hmem => ?_⟩
  rcases List.mem_cons.mp hmem with heq | hmem
  · cases heq
  · have hsmooth := hlog _ hmem
    cases hsmooth

theorem smooth_cons {event : Event} (hevent : event.smooth = true) (h : Smooth log) : Smooth (event :: log) := by
  intro other hmem
  rcases List.mem_cons.mp hmem with rfl | hmem
  · exact hevent
  · exact h other hmem

variable {reply : Reply} {e : Exn}

theorem run_over (hop : op ≠ .outside) (h : s.ceased t = false) : (run t op reply s).2.ceased t = false :=
  (congrFun (run_frame hop).ceased t).trans h

theorem run_raised (hop : op ≠ .outside) (hbody : op.inBody = true) (hover : s.ceased t = false)
    (hfailed : (serve t op reply s).1 = .error e) (hsmooth : Smooth ((serve t op reply s).2.logs t)) :
    Raised t e (run t op reply s).2 := by
  refine ⟨run_over hop hover, fun he => ?_⟩
  rw [run_logs, hfailed, he]
  exact raised_hit hbody _ hsmooth

theorem run_answered {a : op.Res} (h : (serve t op reply s).1 = .ok a) :
    (run t op reply s).1 = .ok a ∧ (run t op reply s).2.logs t = (serve t op reply s).2.logs t := by
  refine ⟨h, ?_⟩
  rw [run_logs, h]
  rfl

theorem run_failed (hserve : serve t op reply s = (.error e, s)) (hop : op ≠ .outside) (hbody : op.inBody = true)
    (hover : s.ceased t = false) (hsmooth : Smooth (s.logs t)) : (run t op reply s).1 = .error e ∧ Raised t e (run t op reply s).2 := by
  have hres : (run t op reply s).1 = .error e := congrArg Prod.fst hserve
  exact ⟨hres, run_raised hop hbody hover hres (by rw [hserve]; exact hsmooth)⟩

theorem answer_served {A : Type} {fate : Fate Exn} {served : Except Exn A × State} (h : fate.told = none) : answer fate served s = served := by
  cases fate with
  | served => rfl
  | _ => cases h

theorem answer_told {A : Type} {fate : Fate Exn} {served : Except Exn A × State} (h : fate.told = some e) :
    answer fate served s = (.error e, s) := by
  cases fate with
  | served => cases h
  | _ => cases h; rfl

theorem process_safe (h : Has t Smooth s) : rules.Safe t (fun r s => match r with
      | .ok result => Has t (fun log => Smooth log ∧ .returned result.settled ∈ log) s
      | .error e => Raised t e s) (perform .process) s := by
  refine quiet_safe nofun nofun fun s' reply hi hr _ => ?_
  have h' : Has t Smooth s' := has_stable Smooth s s' hi hr h
  cases htold : (reply : Reply).fate.told with
  | some e =>
    have hserve : serve t .process reply s' = (.error e, s') := answer_told htold
    obtain ⟨hres, hraised⟩ := run_failed hserve nofun rfl h'.1 h'.2
    rw [hres]
    exact hraised
  | none =>
    have hserve : serve t .process reply s' = (.ok reply.result, s'.record t [.returned reply.result.settled]) := answer_served htold
    obtain ⟨hres, hlogs⟩ := run_answered (congrArg Prod.fst hserve)
    rw [hres]
    refine ⟨run_over nofun h'.1, ?_⟩
    rw [hlogs, hserve, State.record_logs]
    exact ⟨smooth_cons rfl h'.2, List.mem_cons_self⟩

def Returned (settled : Bool) (log : Log) : Prop := Smooth log ∧ .returned settled ∈ log

theorem checked_safe {settled : Bool} (h : Has t (Returned settled) s) :
    rules.Safe t (fun r s => match r with
      | .ok cancelled => Has t (fun log => Returned settled log ∧ (cancelled = false → .cleared ∈ log)) s
      | .error e => Raised t e s) (keyExists (.cancelled project) .body) s := by
  refine quiet_safe nofun nofun fun s' reply hi hr _ => ?_
  have h' : Has t (Returned settled) s' := has_stable _ s s' hi hr h
  cases htold : (reply : Reply).fate.told with
  | some e =>
    have hserve : serve t (.keyExists (.cancelled project) .body) reply s' = (.error e, s') := answer_told htold
    obtain ⟨hres, hraised⟩ := run_failed hserve nofun rfl h'.1 h'.2.1
    rw [hres]
    exact hraised
  | none =>
    have hserve : serve t (.keyExists (.cancelled project) .body) reply s' = State.exist t (.cancelled project) .body s' :=
      answer_served htold
    obtain ⟨hres, hlogs⟩ := run_answered (congrArg Prod.fst hserve)
    rw [hres]
    refine ⟨run_over nofun h'.1, ?_⟩
    rw [hlogs, hserve]
    cases hset : s'.isSet (.cancelled project) with
    | true => exact ⟨by simpa [State.exist, hset] using h'.2, nofun⟩
    | false =>
      have hrecorded : (State.exist t (.cancelled project) .body s').2 = s'.record t [.cleared] := by simp [State.exist, hset]
      rw [hrecorded, State.record_logs]
      exact ⟨⟨smooth_cons rfl h'.2.1, List.mem_cons_of_mem _ h'.2.2⟩, fun _ => List.mem_cons_self⟩

theorem setFailure_covered {reason : String} (hproject : t.project = some project) (hover : s.ceased t = false) :
    Covered t (State.setFailure t project reason s).2 := by
  refine ⟨hover, .inr (.inl ⟨List.mem_cons_self, ?_⟩)⟩
  simp [State.fenceSet, State.setFailure, hproject]

theorem serve_setFailure (reply : Reply) (project reason : String) (site : Site) :
    serve t (.setFailure project reason site) reply s = State.setFailure t project reason s ∨
      ∃ e, (serve t (.setFailure project reason site) reply s).1 = .error e ∧
        (serve t (.setFailure project reason site) reply s).2.logs t = s.logs t := by
  simp only [serve]
  cases reply.fate with
  | served => exact .inl rfl
  | unheard e => exact .inr ⟨e, rfl, rfl⟩
  | unsent e => exact .inr ⟨e, rfl, rfl⟩

theorem mark_body_safe (hproject : t.project = some project) (reason : String) (h : Has t Smooth s) :
    rules.Safe t (fun r s => match r with
      | .ok _ => Covered t s
      | .error e => Raised t e s) (markLiveWorkFailure project reason .body) s := by
  refine quiet_safe nofun nofun fun s' reply hi hr _ => ?_
  have h' : Has t Smooth s' := has_stable _ s s' hi hr h
  rcases serve_setFailure (t := t) (s := s') reply project reason .body with hserve | ⟨e, hres, hlogs⟩
  · have hrun : (run t (.setFailure project reason .body) reply s').1 = .ok () := congrArg Prod.fst hserve
    rw [hrun]
    refine (run_after (.setFailure project reason .body) reply).covered ?_
    rw [hserve]
    exact setFailure_covered hproject h'.1
  · have hrun : (run t (.setFailure project reason .body) reply s').1 = .error e := hres
    rw [hrun]
    exact run_raised nofun rfl h'.1 hres (by rw [hlogs]; exact h'.2)

theorem serve_ack (reply : Reply) (site : Site) : serve t (.ack site) reply s = State.ack t s ∨
    ∃ e, (serve t (.ack site) reply s).1 = .error e ∧
      ((serve t (.ack site) reply s).2 = s ∨ (serve t (.ack site) reply s).2 = s.record t [.acked]) := by
  simp only [serve]
  cases reply.fate with
  | served => exact .inl rfl
  | unheard e => exact .inr ⟨e, rfl, .inr rfl⟩
  | unsent e => exact .inr ⟨e, rfl, .inl rfl⟩

theorem ack_clean {site : Site} (h : Clean (due t.project) (s.logs t)) (hexcused : Excused t.project (s.logs t)) :
    Clean (due t.project) ((run t (.ack site) reply s).2.logs t) := by
  have hacked : Clean (due t.project) ((s.record t [.acked]).logs t) := by
    rw [State.record_logs]
    exact ⟨hexcused, h⟩
  rw [run_logs]
  refine clean_free ?_ (raisedBy_free _ _ _)
  rcases serve_ack (t := t) (s := s) reply site with hserve | ⟨_, _, hserve | hserve⟩
  · rw [hserve]
    exact hacked
  · rw [hserve]
    exact h
  · rw [hserve]
    exact hacked

theorem acked_covered (hover : s.ceased t = false) : Covered t (State.ack t s).2 := by
  refine ⟨hover, .inl ?_⟩
  change _ ∈ (s.record t [.acked]).logs t
  rw [State.record_logs]
  exact List.mem_cons_self

theorem ack_body_safe (hexcused : ∀ log, P log → Excused t.project log) (hsmooth : ∀ log, P log → Smooth log) (h : Has t P s) :
    rules.Safe t (fun r s => match r with
      | .ok _ => Covered t s
      | .error e => Raised t e s) (ack .body) s := by
  refine call_safe nofun fun s' reply hi hr _ => ?_
  have h' : Has t P s' := has_stable _ s s' hi hr h
  refine ⟨ack_clean (hi t) (hexcused _ h'.2), ?_⟩
  rcases serve_ack (t := t) (s := s') reply .body with hserve | ⟨e, hres, hstate⟩
  · have hrun : (run t (.ack .body) reply s').1 = .ok () := congrArg Prod.fst hserve
    rw [hrun]
    refine (run_after (.ack .body) reply).covered ?_
    rw [hserve]
    exact acked_covered h'.1
  · have hrun : (run t (.ack .body) reply s').1 = .error e := hres
    rw [hrun]
    refine run_raised nofun rfl h'.1 hres ?_
    rcases hstate with hserve | hserve
    · rw [hserve]
      exact hsmooth _ h'.2
    · rw [hserve, State.record_logs]
      exact smooth_cons rfl (hsmooth _ h'.2)

def Fenced (log : Log) : Prop := Hit log ∧ ∀ event ∈ log, event.fencing = true

theorem Fenced.excused {project : Option String} (h : Fenced log) : Excused project log := by
  have hfencing : ∀ reasons, .cancelled reasons ∈ log → Fencing reasons := fun reasons hmem =>
    of_decide_eq_true (h.2 _ hmem)
  obtain ⟨reasons, hmem⟩ := h.1.1
  exact ⟨.inr (.inr ⟨reasons, hmem, hfencing reasons hmem⟩), hfencing, h.1.2⟩

theorem raisedBy_quiet {A : Type} (hbody : op.inBody = false) (reasons : List Reason) (r : Except Exn A) : raisedBy op reasons r = [] := by
  unfold raisedBy
  split <;> simp [hbody]

theorem run_quiet (hbody : op.inBody = false) : (run t op reply s).2.logs t = (serve t op reply s).2.logs t := by
  rw [run_logs, raisedBy_quiet hbody]
  rfl

theorem missed_covered (hok : settles s (.call t op reply)) (hop : op ≠ .outside) (hover : s.ceased t = false)
    (hmissed : op.missed (run t op reply s).1 = true) : Covered t (run t op reply s).2 := by
  have htorn : s.tornDown t = false := hok.2.1 hmissed
  refine ⟨run_over hop hover, .inr (.inr ⟨?_, ?_⟩)⟩
  · have hserve : op.missed (serve t op reply s).1 = true := hmissed
    unfold run State.expose
    rw [if_pos hserve]
    exact List.mem_cons_self
  · unfold State.tornDown at *
    rw [(run_frame hop).cancelKeys]
    exact htorn

theorem look_logs (reply : Reply) (key : Key) : (run t (.keyExists key .handler) reply s).2.logs t = s.logs t := by
  rw [run_quiet rfl]
  simp only [serve, answer, State.exist]
  cases reply.fate <;> rfl

theorem sees_safe (h : Has t Hit s) : rules.Safe t (fun r s => match r with
      | .ok true => Has t Fenced s
      | .ok false => Covered t s ∧ Has t Hit s
      | .error _ => Covered t s) (keyExists (.cancelled project) .handler) s := by
  refine quiet_safe nofun nofun fun s' reply hi hr hok => ?_
  have h' : Has t Hit s' := has_stable _ s s' hi hr h
  have hover : (run t (.keyExists (.cancelled project) .handler) reply s').2.ceased t = false := run_over nofun h'.1
  cases hres : (run t (.keyExists (.cancelled project) .handler) reply s').1 with
  | error e =>
    refine missed_covered hok nofun h'.1 ?_
    rw [hres]
    rfl
  | ok seen =>
    cases seen with
    | true =>
      refine ⟨hover, ?_⟩
      rw [look_logs]
      exact ⟨h'.2, hok.2.2.1 (by rw [hres]; rfl)⟩
    | false =>
      refine ⟨missed_covered hok nofun h'.1 ?_, hover, by rw [look_logs]; exact h'.2⟩
      rw [hres]
      rfl

theorem seesFailure_safe (howner : t.owner = t) (h : Has t Hit s) (hcovered : Covered t s) : rules.Safe t (fun r s => match r with
      | .ok true => Has t Fenced s
      | _ => Covered t s) (keyExists (.failed project) .handler) s := by
  refine quiet_safe nofun nofun fun s' reply hi hr hok => ?_
  have h' : Has t Hit s' := has_stable _ s s' hi hr h
  have hover : (run t (.keyExists (.failed project) .handler) reply s').2.ceased t = false := run_over nofun h'.1
  have hcovered' : Covered t (run t (.keyExists (.failed project) .handler) reply s').2 :=
    (run_frame (by nofun)).covered (covered_stable howner s s' hi hr hcovered)
  cases hres : (run t (.keyExists (.failed project) .handler) reply s').1 with
  | error e => exact hcovered'
  | ok seen =>
    cases seen with
    | false => exact hcovered'
    | true =>
      refine ⟨hover, ?_⟩
      rw [look_logs]
      exact ⟨h'.2, hok.2.2.1 (by rw [hres]; rfl)⟩

theorem mark_handler_safe (hproject : t.project = some project) (reason : String) (h : s.ceased t = false) :
    rules.Safe t (fun _ => Covered t) (markLiveWorkFailure project reason .handler) s := by
  refine quiet_safe nofun nofun fun s' reply hi hr hok => ?_
  have hover : s'.ceased t = false := hr.ceased.trans h
  rcases serve_setFailure (t := t) (s := s') reply project reason .handler with hserve | ⟨e, hres, _⟩
  · refine (run_after (.setFailure project reason .handler) reply).covered ?_
    rw [hserve]
    exact setFailure_covered hproject hover
  · have hrun : (run t (.setFailure project reason .handler) reply s').1 = .error e := hres
    refine missed_covered hok nofun hover ?_
    rw [hrun]
    rfl

theorem ack_handler_safe (h : Has t Fenced s) : rules.Safe t (fun r s => match r with
      | .ok _ => Covered t s
      | .error e => s.ceased t = false ∧ (e = .cancelledError → Covered t s)) (ack .handler) s := by
  refine call_safe nofun fun s' reply hi hr hok => ?_
  have h' : Has t Fenced s' := has_stable _ s s' hi hr h
  refine ⟨ack_clean (hi t) h'.2.excused, ?_⟩
  rcases serve_ack (t := t) (s := s') reply .handler with hserve | ⟨e, hres, _⟩
  · have hrun : (run t (.ack .handler) reply s').1 = .ok () := congrArg Prod.fst hserve
    rw [hrun]
    refine (run_after (.ack .handler) reply).covered ?_
    rw [hserve]
    exact acked_covered h'.1
  · have hrun : (run t (.ack .handler) reply s').1 = .error e := hres
    rw [hrun]
    refine ⟨run_over nofun h'.1, fun he => ?_⟩
    subst he
    refine missed_covered hok nofun h'.1 ?_
    rw [hrun]
    rfl

end Phases

section Handlers

open Rules

variable {t : Party} {s : State} {project : String} {e : Exn} {P : Log → Prop}

theorem cancelledByTeardown_safe (howner : t.owner = t) (hi : rules.inv s) (h : Has t Hit s) : rules.Safe t (fun r s => match r with
      | .ok true => Has t Fenced s
      | _ => Covered t s) (cancelledByTeardown project) s := by
  refine Safe.bind hi (sees_safe h) (fun seen s hi h => ?_) fun e s _ h => h
  cases seen with
  | true => exact h
  | false => exact seesFailure_safe howner h.2 h.1

theorem ackTorn_safe (hproject : t.project = some project) (hi : rules.inv s) (h : Has t Fenced s) :
    rules.Safe t (fun _ => Covered t) (ackTorn project) s := by
  refine Safe.bind (M := fun _ => Covered t) hi ?_ (fun _ _ _ h => h) fun _ _ _ h => h
  refine Safe.handle hi (ack_handler_safe h) (fun _ _ _ h => h) fun e s hi h => ?_
  cases hcaught : e.isException with
  | true => exact Safe.bind hi (mark_handler_safe hproject _ h.1) (fun _ _ _ h => h) fun _ _ _ h => h
  | false =>
    have he : e = .cancelledError := by simpa [Exn.isException] using hcaught
    exact h.2 he

theorem onCancelled_safe (howner : t.owner = t) (hproject : t.project = some project) (hi : rules.inv s) (h : Has t Hit s) :
    rules.Safe t (fun _ => Covered t) (onCancelled project) s := by
  refine Safe.bind hi (cancelledByTeardown_safe howner hi h) (fun torn s hi h => ?_) fun _ _ _ h => h
  cases torn with
  | true => exact ackTorn_safe hproject hi h
  | false => exact h

theorem onUnproven_safe (hproject : t.project = some project) (hi : rules.inv s) (message : String) (h : s.ceased t = false) :
    rules.Safe t (fun _ => Covered t) (onUnproven project message) s :=
  Safe.bind hi (mark_handler_safe hproject _ h) (fun _ _ _ h => h) fun _ _ _ h => h

theorem markIfCancelled_safe (hproject : t.project = some project) (hi : rules.inv s) (h : s.ceased t = false) :
    rules.Safe t (fun _ => Covered t) (markIfCancelled project) s := by
  have hlook : rules.Safe t (fun r s => match r with
      | .ok true => s.ceased t = false
      | _ => Covered t s) (keyExists (.cancelled project) .handler) s := by
    refine quiet_safe nofun nofun fun s' reply hi hr hok => ?_
    have hover : s'.ceased t = false := hr.ceased.trans h
    cases hres : (run t (.keyExists (.cancelled project) .handler) reply s').1 with
    | error e =>
      refine missed_covered hok nofun hover ?_
      rw [hres]
      rfl
    | ok seen =>
      cases seen with
      | true => exact run_over nofun hover
      | false =>
        refine missed_covered hok nofun hover ?_
        rw [hres]
        rfl
  refine Safe.bind hi hlook (fun seen s hi h => ?_) fun _ _ _ h => h
  cases seen with
  | true => exact mark_handler_safe hproject _ h
  | false => exact h

theorem onRaised_safe (howner : t.owner = t) (hproject : t.project = some project) (hi : rules.inv s) (h : Raised t e s) :
    rules.Safe t (fun _ => Covered t) (onRaised project e) s := by
  have hexception : ∀ e, rules.Safe t (fun _ => Covered t) (onException project e) s := fun e =>
    Safe.bind hi (markIfCancelled_safe hproject hi h.1) (fun _ _ _ h => h) fun _ _ _ h => h
  cases e with
  | cancelledError => exact onCancelled_safe howner hproject hi ⟨h.1, h.2 rfl⟩
  | workflowCancellationUnproven message => exact onUnproven_safe hproject hi message h.1
  | _ => exact hexception _

theorem settle_safe {result : JobResult} (hproject : t.project = some project) (hi : rules.inv s)
    (h : Has t (Returned result.settled) s) : rules.Safe t (fun r s => match r with
      | .ok _ => Covered t s
      | .error e => Raised t e s) (settle project result) s := by
  refine Safe.bind hi (checked_safe h) (fun cancelled s hi h => ?_) fun e s _ h => h
  have hunsettled : rules.Safe t (fun r s => match r with
      | .ok _ => Covered t s
      | .error e => Raised t e s) (settleUnsettled project result) s :=
    Safe.bind hi (mark_body_safe hproject _ ⟨h.1, h.2.1.1⟩) (fun _ _ _ h => h) fun _ _ _ h => h
  have hdone (hexcused : result.settled = true ∨ cancelled = false) : rules.Safe t (fun r s => match r with
      | .ok _ => Covered t s
      | .error e => Raised t e s) (settleDone result) s := by
    refine Safe.bind hi (ack_body_safe (P := fun log => Returned result.settled log ∧ (cancelled = false → .cleared ∈ log))
      (fun log h => ?_) (fun _ h => h.1.1) h) (fun _ _ _ h => h) fun _ _ _ h => h
    refine ⟨.inr (.inl ⟨result.settled, h.1.2, hexcused.imp id fun hcleared => .inl (h.2 hcleared)⟩), fun reasons hmem => ?_, fun hmem => ?_⟩
    · exact nomatch h.1.1 _ hmem
    · exact nomatch h.1.1 _ hmem
  cases cancelled with
  | false => exact hdone (.inr rfl)
  | true =>
    cases hsettled : result.settled with
    | true => simpa [hsettled] using hdone (.inl hsettled)
    | false => simpa [hsettled] using hunsettled

theorem supervised_safe (howner : t.owner = t) (hproject : t.project = some project) (hi : rules.inv s) (h : Has t Smooth s) :
    rules.Safe t (fun _ => Covered t) (supervised project (perform .process)) s := by
  refine Safe.bind (M := fun _ => Covered t) hi ?_ (fun settlement s _ h => ?_) fun _ _ _ h => h
  · refine Safe.handle (M := fun r s => match r with
      | .ok _ => Covered t s
      | .error e => Raised t e s) hi ?_ (fun _ _ _ h => h) fun e s hi h => onRaised_safe howner hproject hi h
    exact Safe.bind hi (process_safe h) (fun result s hi h => settle_safe hproject hi h) fun e s _ h => h
  · cases settlement <;> exact h

theorem covered_leaves (howner : t.owner = t) {op : Op} (hop : op ≠ .outside) (hack : ∀ site, op ≠ .ack site) :
    rules.Maintains t (Covered t) (perform op) := by
  intro s hi h
  exact quiet_safe hop hack fun s' reply hi hr _ => (run_frame hop).covered (covered_stable howner s s' hi hr h)

theorem finish_maintains (howner : t.owner = t) : rules.Maintains t (Covered t) (finish project) := by
  refine Maintains.bind (Maintains.handle (covered_leaves howner nofun nofun) fun e => ?_) fun _ => covered_leaves howner nofun nofun
  split
  · exact .ret ()
  · exact .raise e

theorem runLeased_safe (howner : t.owner = t) (hproject : t.project = some project) (hi : rules.inv s) (h : Has t Smooth s) :
    rules.Safe t (fun _ => Covered t) (runLeased project (perform .process)) s := by
  have hwatch : rules.Safe t (fun r s => r = .ok () ∧ Has t Smooth s) (perform .createWatch) s :=
    quiet_safe nofun nofun fun s' reply hi hr _ => by
      have h' : Has t Smooth s' := has_stable _ s s' hi hr h
      refine ⟨rfl, run_over nofun h'.1, ?_⟩
      rw [run_quiet rfl]
      exact h'.2
  refine Safe.bind hi hwatch (fun _ s hi h => ?_) fun e s _ h => nomatch h.1
  refine Safe.ensuring hi (supervised_safe howner hproject hi h.2) fun r s hi h => ?_
  refine (finish_maintains howner s hi h).conseq hi fun d s _ h => ?_
  cases d <;> exact h

def Fit (t : Party) (s : State) : Prop := s.ceased t = false ∧ due t.project (.finished (s.tornDown t) (s.fenceSet t)) (s.logs t)

theorem Covered.fit (h : Covered t s) : Fit t s := by
  refine ⟨h.1, ?_⟩
  rcases h.2 with hacked | ⟨_, hfence⟩ | ⟨_, htorn⟩
  · cases s.tornDown t <;> cases s.fenceSet t <;> first | trivial | exact fun _ => hacked
  · rw [hfence]
    cases s.tornDown t <;> trivial
  · rw [htorn]
    cases s.fenceSet t <;> trivial

theorem fit_unbegun (hover : s.ceased t = false) (h : .began ∉ s.logs t) : Fit t s := by
  refine ⟨hover, ?_⟩
  cases s.tornDown t <;> cases s.fenceSet t <;> first | trivial | exact fun hbegan => absurd hbegan h

theorem fit_projectless (hproject : t.project = none) (hover : s.ceased t = false) : Fit t s := by
  refine ⟨hover, ?_⟩
  have htorn : s.tornDown t = false := by simp [State.tornDown, hproject]
  rw [htorn]
  cases s.fenceSet t <;> trivial

theorem ack_plain_safe (hexcused : ∀ log, P log → Excused t.project log) (h : Has t P s) :
    rules.Safe t (fun _ s => s.ceased t = false ∧ ∃ log, P log ∧ (s.logs t = log ∨ s.logs t = .acked :: log)) (ack .plain) s := by
  refine call_safe nofun fun s' reply hi hr _ => ?_
  have h' : Has t P s' := has_stable _ s s' hi hr h
  refine ⟨ack_clean (hi t) (hexcused _ h'.2), run_over nofun h'.1, s'.logs t, h'.2, ?_⟩
  rw [run_quiet rfl]
  rcases serve_ack (t := t) (s := s') reply .plain with hserve | ⟨_, _, hserve | hserve⟩
  · rw [hserve]
    exact .inr (State.record_logs ..)
  · rw [hserve]
    exact .inl rfl
  · rw [hserve]
    exact .inr (State.record_logs ..)

theorem begin_safe (h : Has t (· = []) s) : rules.Safe t (fun r s => match r with
      | .ok true => Has t Smooth s
      | .ok false => Has t (· = [.fenced]) s
      | .error _ => Has t (· = []) s) (beginLiveWork project) s := by
  refine quiet_safe nofun nofun fun s' reply hi hr _ => ?_
  have h' : Has t (· = []) s' := has_stable _ s s' hi hr h
  have hover : (run t (.beginLiveWork project) reply s').2.ceased t = false := run_over nofun h'.1
  have hlogs : (run t (.beginLiveWork project) reply s').2.logs t = (serve t (.beginLiveWork project) reply s').2.logs t := run_quiet rfl
  have hregister : (s'.register t project).logs t = [] := by
    unfold State.register
    split <;> exact h'.2
  cases hfate : (reply : Reply).fate with
  | served =>
    have hserve : serve t (.beginLiveWork project) reply s' = State.beginLiveWork t project s' := by
      simp only [serve, hfate]
      rfl
    have hres : (run t (.beginLiveWork project) reply s').1 = .ok !s'.cancelKeys project := congrArg Prod.fst hserve
    rw [hserve] at hlogs
    change _ = ((s'.register t project).record t _).logs t at hlogs
    rw [State.record_logs, hregister] at hlogs
    rw [hres]
    cases hkey : s'.cancelKeys project with
    | true =>
      rw [hkey] at hlogs
      exact ⟨hover, hlogs⟩
    | false =>
      rw [hkey] at hlogs
      refine ⟨hover, ?_⟩
      rw [hlogs]
      exact smooth_cons rfl nofun
  | unheard e =>
    have hserve : serve t (.beginLiveWork project) reply s' = (.error e, s'.register t project) := by
      simp only [serve, hfate]
    have hres : (run t (.beginLiveWork project) reply s').1 = .error e := congrArg Prod.fst hserve
    rw [hserve, hregister] at hlogs
    rw [hres]
    exact ⟨hover, hlogs⟩
  | unsent e =>
    have hserve : serve t (.beginLiveWork project) reply s' = (.error e, s') := by
      simp only [serve, hfate]
    have hres : (run t (.beginLiveWork project) reply s').1 = .error e := congrArg Prod.fst hserve
    rw [hserve] at hlogs
    rw [hres]
    exact ⟨hover, hlogs.trans h'.2⟩

theorem executeLiveWork_safe {execution : Nat} {project : Option String} (hi : rules.inv s) (ht : t = .job execution project)
    (h : Has t (· = []) s) : rules.Safe t (fun _ => Fit t) (executeLiveWork project (perform .process)) s := by
  have hsmooth : Has t Smooth s := ⟨h.1, by rw [h.2]; exact nofun⟩
  cases project with
  | none =>
    have hproject : t.project = none := by rw [ht]; rfl
    refine Safe.bind hi (process_safe hsmooth) (fun result s hi h => ?_) fun e s _ h => fit_projectless hproject h.1
    refine Safe.bind hi (ack_plain_safe (P := fun log => Smooth log ∧ .returned result.settled ∈ log) (fun log h => ?_) h)
      (fun _ s _ h => fit_projectless hproject h.1) fun _ s _ h => fit_projectless hproject h.1
    refine ⟨.inr (.inl ⟨result.settled, h.2, .inr (.inr hproject)⟩), fun reasons hmem => ?_, fun hmem => ?_⟩
    · exact nomatch h.1 _ hmem
    · exact nomatch h.1 _ hmem
  | some project =>
    have howner : t.owner = t := by rw [ht]; rfl
    have hproject : t.project = some project := by rw [ht]; rfl
    refine Safe.bind hi (begin_safe h) (fun begun s hi h => ?_) fun e s _ h => fit_unbegun h.1 (by rw [h.2]; exact nofun)
    cases begun with
    | true => exact (runLeased_safe howner hproject hi h).conseq hi fun _ _ _ h => h.fit
    | false =>
      have hfit : ∀ s, (s.ceased t = false ∧ ∃ log, log = [.fenced] ∧ (s.logs t = log ∨ s.logs t = .acked :: log)) → Fit t s := by
        rintro s ⟨hover, _, rfl, hlog | hlog⟩
        · exact fit_unbegun hover (by rw [hlog]; simp)
        · exact fit_unbegun hover (by rw [hlog]; simp)
      refine Safe.bind hi (ack_plain_safe (P := (· = [.fenced])) (fun log h => ?_) h) (fun _ s _ h => hfit s h) fun _ s _ h => hfit s h
      subst h
      exact ⟨.inl List.mem_cons_self, by simp, by simp⟩

end Handlers

section Runs

open Rules

variable {t : Party} {s : State}

def Op.isWatch : Op → Bool
  | sleep | refreshLease _ | cancelOwner _ => true
  | keyExists _ site => site = .watchdog
  | setFailure _ _ site => site = .watchdog
  | _ => false

theorem watch_logs {op : Op} (hop : op.isWatch = true) (reply : Reply) : (run t op reply s).2.logs t = s.logs t := by
  cases op with
  | sleep | refreshLease _ =>
    rw [run_quiet rfl]
    simp only [serve]
    cases reply.fate <;> rfl
  | cancelOwner reason => exact run_quiet rfl
  | keyExists key site =>
    have hsite : site = .watchdog := of_decide_eq_true hop
    subst hsite
    rw [run_quiet rfl]
    simp only [serve, answer, State.exist]
    cases reply.fate <;> rfl
  | setFailure project reason site =>
    have hsite : site = .watchdog := of_decide_eq_true hop
    subst hsite
    rw [run_quiet rfl]
    simp only [serve]
    cases reply.fate <;> rfl
  | _ => cases hop

theorem watching {op : Op} (hop : op.isWatch = true) : rules.Maintains t (Has t (· = [])) (perform op) := by
  intro s hi h
  have houtside : op ≠ .outside := fun heq => by rw [heq] at hop; cases hop
  refine quiet_safe houtside (fun site heq => by rw [heq] at hop; cases hop) fun s' reply hi hr _ => ?_
  have h' : Has t (· = []) s' := has_stable _ s s' hi hr h
  exact ⟨run_over houtside h'.1, (watch_logs hop reply).trans h'.2⟩

theorem watch_maintains (project : String) (rounds : Nat) : rules.Maintains t (Has t (· = [])) (watch project rounds) := by
  induction rounds with
  | zero => exact .raise _
  | succ rounds ih =>
    refine .bind (watching rfl) fun _ => .bind (watching rfl) fun torn => ?_
    cases torn with
    | true => exact watching rfl
    | false =>
      refine .bind (watching rfl) fun kept => ?_
      cases kept with
      | true => exact ih
      | false => exact .bind (watching rfl) fun _ => watching rfl

theorem catching_maintains {A : Type} {P : State → Prop} {p : Job A} {handler : Exn → Job A} (hp : rules.Maintains t P p)
    (hh : ∀ e, rules.Maintains t P (handler e)) : rules.Maintains t P (catching p handler) := by
  refine .handle hp fun e => ?_
  split
  · exact hh e
  · exact .raise e

theorem cancelOnLiveTeardown_maintains (project : String) (rounds : Nat) :
    rules.Maintains t (Has t (· = [])) (cancelOnLiveTeardown project rounds) := by
  refine catching_maintains (watch_maintains project rounds) fun _ => .bind ?_ fun _ => watching rfl
  exact catching_maintains (watching rfl) fun _ => .ret ()

theorem run_outside (reply : Reply) : run t .outside reply s = (.ok (), reply.change.apply s) := by
  have hrecord : ∀ s : State, s.record t [] = s := fun s => by
    unfold State.record
    rw [List.nil_append, Function.update_eq_self]
  exact congrArg (Prod.mk _) (hrecord _)

theorem apply_logs (change : Change) (s : State) : (change.apply s).logs = s.logs := by
  cases change <;> rfl

theorem outside_maintains : rules.Maintains t (Has t (· = [])) (perform .outside) := by
  refine .perform (has_stable _) fun s hi h reply hok => ?_
  have hstate : (liveWorld.run t .outside reply s).2 = (reply : Reply).change.apply s := congrArg Prod.snd (run_outside reply)
  have hlasting : lasting s .outside reply := hok.2.2.2
  have htolerates : ∀ u, Tolerates u s ((reply : Reply).change.apply s) := outside_tolerates hlasting
  rw [hstate]
  refine ⟨⟨fun u => ?_, fun u _ => htolerates u⟩, (htolerates t).ceased.trans h.1, (htolerates t).logs.trans h.2⟩
  rw [apply_logs]
  exact hi u

theorem finished_clean {due : Option String → Event → Log → Prop} (hi : ∀ u : Party, Clean (due u.project) (s.logs u))
    (h : due t.project (.finished (s.tornDown t) (s.fenceSet t)) (s.logs t)) (u : Party) :
    Clean (due u.project) ((s.record t [.finished (s.tornDown t) (s.fenceSet t)]).logs u) := by
  by_cases hu : u = t
  · rw [hu, State.record_logs]
    exact ⟨h, hi t⟩
  · rw [(Frame.record [.finished (s.tornDown t) (s.fenceSet t)]).others u hu]
    exact hi u

theorem ended_keeps {outcome : Option (Except Exn Unit)} (hi : rules.inv s)
    (h : outcome.isSome = true → Fit t s) : rules.Ends t outcome s := by
  have hover : ∀ u, u ≠ t → Function.update s.ceased t true u = s.ceased u := fun u hu => Function.update_of_ne hu _ _
  have hrest : ∀ s' : State, s'.ceased = Function.update s.ceased t true → rules.rest t s' := by
    intro s' heq hfalse
    rw [heq, Function.update_self] at hfalse
    cases hfalse
  cases outcome with
  | none => exact ⟨⟨hi, fun u hu => ⟨rfl, hover u hu, .rfl, .rfl, fun _ _ _ h => h, fun _ _ _ h => h⟩⟩, hrest _ rfl⟩
  | some r =>
    exact ⟨⟨finished_clean hi (h rfl).2, fun u hu => ⟨Function.update_of_ne hu _ _, hover u hu, .rfl, .rfl, fun _ _ _ h => h,
      fun _ _ _ h => h⟩⟩, hrest _ rfl⟩

theorem body_safe {rounds : Nat → Nat} (hi : rules.inv s) (hrest : rules.rest t s) (hover : s.ceased t = false) :
    rules.Safe t (rules.Finishes t) (body rounds t) s := by
  have hempty : Has t (· = []) s := ⟨hover, (hrest hover).1⟩
  have hidle : ∀ {A : Type} {p : Job A}, rules.Maintains t (Has t (· = [])) p → rules.Safe t (fun _ => Fit t) p s := fun hp =>
    (hp s hi hempty).conseq hi fun _ s _ h => fit_unbegun h.1 (by rw [h.2]; exact nofun)
  have hfit : rules.Safe t (fun _ => Fit t) (body rounds t) s := by
    cases t with
    | job execution project =>
      exact Safe.bind hi (executeLiveWork_safe hi rfl hempty) (fun _ _ _ h => h) fun _ _ _ h => h
    | watchdog execution project => exact hidle (cancelOnLiveTeardown_maintains project _)
    | outside n => exact hidle outside_maintains
  exact hfit.conseq hi fun r s hi h => ended_keeps hi fun _ => h

def State.opening (cancelKeys : String → Bool) (failureKeys : String → Option String) (leases : List (String × Party)) : State :=
  { State.empty with cancelKeys := cancelKeys, failureKeys := failureKeys, leases := leases }

end Runs

section Settlement

variable {rounds : Nat → Nat} {cancelKeys : String → Bool} {failureKeys : String → Option String} {leases : List (String × Party)}
  {c : Config liveWorld}

/-- Where every run of the jobs settles so, no entry is acknowledged that may not be. -/
theorem entries_settled (h : Reaches (body rounds) settles (.idle (State.opening cancelKeys failureKeys leases)) c) (t : Party) :
    Lawful t.project (c.state.logs t) := by
  have hidle : rules.Sound (.idle (State.opening cancelKeys failureKeys leases) : Config liveWorld) :=
    .idle (fun t => trivial) fun t _ => ⟨rfl, nofun, nofun⟩
  have hsound : rules.Sound c := Rules.reaches_sound hidle
    (fun t s hi hrest hok => body_safe hi hrest hok.1) (fun t s hi _ => ended_keeps hi nofun) h
  exact lawful_of_clean (hsound.inv t)

end Settlement

def offered : (call : Deploy.ServiceCall) → call.Res
  | .deployLockTtl => (3600 : Nat)
  | .liveWorkCancelled _ => false
  | .getProject _ => (some ⟨"shop", ⟨["backend"], some [], none, false⟩⟩ : Option Deploy.Project)
  | .getPrimaryRepository _ => (some ⟨"repo", "owner/shop"⟩ : Option Deploy.Repository)
  | .getApplication _ => (⟨"srv", false⟩ : Deploy.Application)
  | .ensureProjectAllocations _ _ _ _ => ([⟨none, true, some "10.0.0.1", some "srv", some 8080⟩] : List Deploy.Allocation)
  | .latestSuccess _ _ => (none : Option Deploy.Deployment)
  | .getServerSshKey _ => (some "key" : Option String)
  | .testServiceDir _ _ => true
  | .runLifecycleCommand _ _ _ => ((0, "") : Int × String)
  | .allocateResources _ | .loadEnvironmentContract _ _ | .resolveSecrets _ => (⟨[], none, [], false⟩ : Deploy.NodeUpdate)
  | .smokeTest _ => (none : Option String)
  | .setRepositorySecrets _ => true
  | .waitForWorkflow _ | .waitForRunCompletion _ _ => (⟨0, some "abc"⟩ : Deploy.WorkflowRun)
  | .getLatestWorkflowRun _ => (none : Option Nat)
  | .createDeployment _ _ => (none : Option Nat)
  | .publishFlat _ _ _ _ | .patchApplication _ _ | .getServer _ | .fenceWorkflow _ | .createOrResetTag _ _ | .deleteTag _ _
  | .reportUnsettledDispatch _ => ()

def queuedDeploy : Api.RunCreate where
  id := "a"
  type := .member .deploy
  projectId := some "p"
  userId := none
  storyId := some "s"
  taskId := none
  runMetadata := fun _ => none
  callbackStream := none

def granted : (op : Deploy.Op) → op.Res
  | .service call => offered call
  | .setLock _ _ => true
  | .getRun _ => some queuedDeploy.row
  | .startRun runId => (⟨runId, true, .member .running⟩ : Api.DeployRunStart)
  | .claimDispatch runId => (⟨runId, true, .member .running, none, none⟩ : Api.DeployDispatchClaim)
  | .withdrawDispatch runId _ => (⟨runId, .alreadyTerminal, .member .running, none⟩ : Api.DeployDispatchWithdrawal)
  | .supersedeDispatch runId _ => (⟨runId, .notClaimed, .member .running, none, none⟩ : Api.DeployDispatchSupersede)
  | .requireLiveLease _ => (0 : Contracts.Time)
  | .deleteLock _ | .patchRun _ _ | .triggerWorkflowDispatch _ _ | .rerunFailedJobs _ _ _ => ()

def replied (fate : Fate Exn) (change : Change) : Reply where
  fate := fate
  result := ⟨none, some "success", none, false⟩
  deploy := granted
  startedRun := 7
  found := none
  info := ⟨7, true, none, "", none⟩
  failureLogs := ""
  flag := false
  now := 0
  change := change

def calls (t : Party) (n : Nat) : List (Turn liveWorld) := List.replicate n (.call t fun _ => replied .served (.unfence "other"))

def changes (n : Nat) (change : Change) : List (Turn liveWorld) := [.start (.outside n), .call (.outside n) fun _ => replied .served change]

def interrupted (t : Party) : Turn liveWorld := .call t fun _ => replied (.unsent .cancelledError) (.unfence "other")

def firstJob : Party := .job 1 (some "p")

def secondJob : Party := .job 2 (some "p")

def begun (execution : Nat) : List (Turn liveWorld) :=
  .start (.job execution (some "p")) :: calls (.job execution (some "p")) 2 ++ [.start (.watchdog execution "p")]

def stoppedByTeardown : List (Turn liveWorld) :=
  begun 1 ++ changes 0 (.fence "p") ++ calls (.watchdog 1 "p") 3 ++ [interrupted firstJob] ++ calls firstJob 4

theorem stopped_settled : Lawful (some "p") (((Config.idle State.empty).play (body fun _ => 3) stoppedByTeardown).state.logs firstJob) :=
  entries_settled (play_reaches (by decide +kernel)) firstJob

/-- A job loses its lease and leaves the failure key of the project. While the key lasts, the
service shuts down under another job of the project. -/
def shutBesideLostLease : List (Turn liveWorld) :=
  begun 1 ++ begun 2 ++ changes 0 (.dropLease "p" secondJob) ++ calls (.watchdog 2 "p") 5 ++ changes 1 (.shutdown firstJob) ++
    [interrupted firstJob] ++ calls firstJob 5

theorem shutdown_acknowledged : ∃ c : Config liveWorld,
    Reaches (body fun _ => 3) legit (.idle State.empty) c ∧ ¬ Lawful (some "p") (c.state.logs firstJob) := by
  have hreaches : Reaches (body fun _ => 3) legit (.idle State.empty)
      ((Config.idle State.empty).play (body fun _ => 3) shutBesideLostLease) := play_reaches (by decide +kernel)
  refine ⟨_, hreaches, fun h => ?_⟩
  have hlog : ((Config.idle State.empty).play (body fun _ => 3) shutBesideLostLease).state.logs firstJob =
      [.finished false true, .acked, .cancelled [.shutdown], .began] := by decide +kernel
  rw [hlog] at h
  have hexcused := (h.acked [.finished false true] [.cancelled [.shutdown], .began] rfl).cancelled [.shutdown] List.mem_cons_self
  exact absurd hexcused (by decide)

end Orchestrator.LiveWork
