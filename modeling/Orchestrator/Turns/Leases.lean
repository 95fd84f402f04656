import Orchestrator.Async.Solo
import Orchestrator.Turns.Sweeps

/-!
What becomes of the entries a worker is given, and of the record of its turn.
-/

namespace Orchestrator.Turns

open Async Async.Rules Redis

/-- A submission removes the record of its own lease alone; what it acknowledges it has
given an output; and an entry that was delivered is acknowledged, or the worker has
it, or the request that read it is still on its way. -/
structure Leased (s : State) : Prop where
  fenced : ∀ workerId lease turn, .cleared workerId lease (some turn) ∈ s.trace → turn.leaseId = lease
  answered : ∀ newer older workerId lease, s.trace = newer ++ .acknowledged workerId lease :: older →
    .appended workerId lease ∈ older
  accounted : ∀ workerId entryId, .delivered workerId entryId ∈ s.trace → .acknowledged workerId entryId ∈ s.trace ∨
    entryId ∈ s.held workerId ∨ ∃ t, (t, Intent.hands workerId entryId) ∈ s.intents

def InputData.leasable (workerId : String) (data : InputData) : Bool :=
  match data.attemptId, data.turnDeadlineSeconds, data.requestId with
  | some attemptId, some deadline, some requestId => match deadline with
    | .notANumber => false
    | .beyondDates => false
    | .seconds n => !(n ≤ 0) && !(workerId.isEmpty || attemptId.isEmpty || requestId.isEmpty)
  | _, _, _ => true

def Payload.leasable (workerId : String) : Payload → Bool
  | .flat data => data.leasable workerId
  | .undecodable => false
  | .noObject _ => false
  | .turn data => data.leasable workerId
  | .result .. => true

def State.upcoming (s : State) (key : StreamKey) (group : String) : Option (Nat × Payload) :=
  (s.streams key).bind fun stream => (stream.groups group).bind fun g => (stream.unread g).head?

def Intent.released : Intent → Option (String × Nat)
  | .releases workerId lease => some (workerId, lease)
  | _ => none

def Intent.handed : Intent → Option (String × Nat)
  | .hands workerId lease => some (workerId, lease)
  | _ => none

def Party.leases : Party → Bool
  | .lease _ => true
  | _ => false

def OutsideChange.restarted : OutsideChange → Option String
  | .restart workerId => some workerId
  | _ => none

/-- Nothing comes between an entry's delivery and the worker it is for: it can be
leased, no command and no process fails before the worker has it, and the worker does
not start again before its output is acknowledged. Nor is the turn of another lease
recorded between a submission's reading of the record and its removal. -/
def unbroken : State → Move turnsWorld → Prop
  | s, .call t (.xreadgroup key group workerId) reply => t.leases = true → reply.fate.carriedOut = true →
    ∀ entry ∈ s.upcoming key group, reply.fate.isServed = true ∧ entry.2.leasable workerId = true
  | s, .call _ (.writeTurn workerId turn) reply => reply.fate.isServed = true ∧
    ∀ entry ∈ s.intents, ∀ released ∈ entry.2.released, released.1 = workerId → turn.leaseId = released.2
  | _, .call _ (.answer ..) reply => reply.fate.carriedOut = true
  | s, .call _ .outside reply => ∀ workerId ∈ reply.change.restarted, ∀ entryId ∈ s.held workerId,
    .acknowledged workerId entryId ∈ s.trace
  | s, .stop t => ∀ entry ∈ s.intents, entry.1 = t → entry.2.handed = none
  | _, _ => True

instance (s : State) (m : Move turnsWorld) : Decidable (unbroken s m) := by
  rcases m with _ | ⟨_, ⟨⟩, reply⟩ | _ <;> dsimp only [unbroken] <;> infer_instance

def Intent.free : Intent → Bool
  | .releases .. | .hands .. => false
  | _ => true

def Event.free : Event → Bool
  | .cleared .. | .delivered .. | .acknowledged .. => false
  | _ => true

structure Plain (t : Party) (s s' : State) : Prop where
  trace : ∃ newer, s'.trace = newer ++ s.trace ∧ ∀ event ∈ newer, event.free = true
  held : s'.held = s.held
  turns : ∀ workerId turn, s'.turns workerId = some turn → s.turns workerId = some turn
  own : ∀ intent, intent.free = false → (t, intent) ∈ s'.intents → (t, intent) ∈ s.intents
  others : ∀ u intent, u ≠ t → ((u, intent) ∈ s'.intents ↔ (u, intent) ∈ s.intents)

section Steps

variable {t : Party} {s s' s'' : State} {A : Type}

theorem Plain.refl (t : Party) (s : State) : Plain t s s :=
  ⟨⟨[], rfl, fun _ h => nomatch h⟩, rfl, fun _ _ h => h, fun _ _ h => h, fun _ _ _ => .rfl⟩

theorem Plain.trans (h : Plain t s s') (h' : Plain t s' s'') : Plain t s s'' := by
  obtain ⟨newer, htrace, hfree⟩ := h.trace
  obtain ⟨newer', htrace', hfree'⟩ := h'.trace
  refine ⟨⟨newer' ++ newer, by rw [htrace', htrace, List.append_assoc], fun event hmem => ?_⟩, h'.held.trans h.held,
    fun workerId turn hturn => h.turns workerId turn (h'.turns workerId turn hturn),
    fun intent hfree hmem => h.own intent hfree (h'.own intent hfree hmem),
    fun u intent hu => (h'.others u intent hu).trans (h.others u intent hu)⟩
  rcases List.mem_append.mp hmem with hmem | hmem
  · exact hfree' event hmem
  · exact hfree event hmem

theorem Plain.serve {exec : State → Except Exn A × State} (fate : Fate Exn) (h : Plain t s (exec s).2) :
    Plain t s (fate.serve exec s).2 := by
  cases fate with
  | unsent e => exact .refl t s
  | _ => exact h

theorem Plain.still (htrace : s'.trace = s.trace) (hheld : s'.held = s.held) (hintents : s'.intents = s.intents)
    (hturns : ∀ workerId turn, s'.turns workerId = some turn → s.turns workerId = some turn) : Plain t s s' :=
  ⟨⟨[], htrace, fun _ h => nomatch h⟩, hheld, hturns, fun _ _ h => hintents ▸ h, fun _ _ _ => by rw [hintents]⟩

theorem Plain.record {event : Event} (h : event.free = true) : Plain t s (s.record event) := by
  refine ⟨⟨[event], rfl, fun other hmem => ?_⟩, rfl, fun _ _ h => h, fun _ _ h => h, fun _ _ _ => .rfl⟩
  rw [List.mem_singleton.mp hmem, h]

theorem Plain.intend {intent : Intent} (h : intent.free = true) : Plain t s (s.intend t intent) := by
  refine ⟨⟨[], rfl, fun _ h => nomatch h⟩, rfl, fun _ _ h => h, fun other hother hmem => ?_, fun u other hu => ?_⟩
  · rcases List.mem_cons.mp hmem with heq | hmem
    · cases heq
      cases h.symm.trans hother
    · exact hmem
  · refine ⟨fun hmem => ?_, List.mem_cons_of_mem _⟩
    rcases List.mem_cons.mp hmem with heq | hmem
    · cases heq
      exact absurd rfl hu
    · exact hmem

theorem Plain.settle : Plain t s (s.settle t) := by
  refine ⟨⟨[], rfl, fun _ h => nomatch h⟩, rfl, fun _ _ h => h, fun _ _ hmem => (mem_settle.mp hmem).1, fun u intent hu => ?_⟩
  rw [mem_settle]
  exact ⟨And.left, fun hmem => ⟨hmem, hu⟩⟩

theorem Plain.hears : Plain t s (s.hears t) := by
  refine ⟨⟨[], rfl, fun _ h => nomatch h⟩, rfl, fun _ _ h => h, fun _ _ hmem => (mem_hears.mp hmem).1, fun u intent hu => ?_⟩
  rw [mem_hears]
  exact ⟨And.left, fun hmem => ⟨hmem, fun heq => absurd heq hu⟩⟩

theorem Plain.opens (key : StreamKey) (group : String) : Plain t s (s.opens t key group) := by
  unfold State.opens
  split
  · exact .still rfl rfl rfl fun _ _ h => h
  · exact .refl t s

theorem Plain.awaits (key : StreamKey) (group : String) : Plain t s (s.awaits t key group) := by
  unfold State.awaits
  split
  · exact .intend rfl
  · exact .refl t s

theorem xgroupCreate_plain (key : StreamKey) (group : String) (start : GroupStart) :
    Plain t s (s.xgroupCreate t key group start).2 := by
  unfold State.xgroupCreate
  split
  · have htouched : Plain t s (s.touch key) := .still rfl rfl rfl fun _ _ h => h
    exact (htouched.trans (.opens key group)).trans (.awaits key group)
  · have hcreated : Plain t s (s.createGroup key group start) := .still rfl rfl rfl fun _ _ h => h
    exact (hcreated.trans (.opens key group)).trans (.awaits key group)

theorem xgroupDestroy_plain (key : StreamKey) (group : String) : Plain t s (s.xgroupDestroy key group).2 := by
  unfold State.xgroupDestroy
  split
  · exact .refl t s
  · exact .still rfl rfl rfl fun _ _ h => h

theorem xreadgroup_plain (key : StreamKey) (group consumer : String) (ht : t.leases = false) :
    Plain t s (s.xreadgroup t key group consumer).2 := by
  unfold State.xreadgroup
  split
  · exact .still rfl rfl rfl fun _ _ h => h
  · next stream g _ =>
    split
    · exact .still rfl rfl rfl fun _ _ h => h
    · next entryId payload _ =>
      have hread : Plain t s ((s.setStream key (some (stream.deliver group g entryId))).touch key) :=
        .still rfl rfl rfl fun _ _ h => h
      cases t with
      | lease n => cases ht
      | _ => exact hread

theorem xadd_plain (key : StreamKey) (payload : Payload) (maxlen : Option Nat) (account : String) (trimmed : Nat) :
    Plain t s (s.xadd t key payload maxlen account trimmed).2 := by
  have hadded (excess : Nat) : Plain t s
      { ((s.setStream key (some (((s.streams key).getD .empty).add s.nextId payload excess))).touch key) with
        nextId := s.nextId + 1 } := .still rfl rfl rfl fun _ _ h => h
  unfold State.xadd
  dsimp only
  split
  · exact (hadded _).trans (.record rfl)
  · exact (hadded _).trans (.intend rfl)
  · exact hadded _

theorem acknowledge_plain (key : StreamKey) (group : String) (entryId : Nat) : Plain t s
    ((match s.streams key with
      | none => s
      | some stream => s.setStream key (some (stream.acknowledge group entryId))).touch key) := by
  split
  · exact .still rfl rfl rfl fun _ _ h => h
  · exact .still rfl rfl rfl fun _ _ h => h

theorem forget_plain (workerId : String) : Plain t s (s.forget workerId) := by
  refine .still rfl rfl rfl fun id turn hturn => ?_
  unfold State.forget at hturn
  dsimp only at hturn
  by_cases hid : id = workerId
  · subst hid
    rw [Function.update_self] at hturn
    cases hturn
  · rwa [Function.update_of_ne hid] at hturn

theorem idletime_plain (key : StreamKey) (limit : Nat) : Plain t s (s.idletime t key limit).2 := by
  unfold State.idletime
  split
  · exact .refl t s
  · dsimp only
    split
    · exact Plain.settle.trans (.intend rfl)
    · exact .settle

theorem delete_plain (key : StreamKey) : Plain t s (s.delete t key).2 := by
  have hdropped : Plain t s (s.setStream key none) := .still rfl rfl rfl fun _ _ h => h
  exact (hdropped.trans (.record rfl)).trans .settle

theorem outside_plain (change : OutsideChange) (h : change.restarted = none) : Plain t s (change.apply s) := by
  cases change with
  | removeWorker workerId =>
    have hforgot : Plain t s (s.forget workerId) := forget_plain workerId
    exact hforgot.trans (.still rfl rfl rfl fun _ _ h => h)
  | restart workerId => cases h
  | _ => exact .still rfl rfl rfl fun _ _ h => h

end Steps

structure LeaseInv (s : State) : Prop where
  leased : Leased s
  recorded : ∀ t workerId lease turn, (t, Intent.releases workerId lease) ∈ s.intents → s.turns workerId = some turn →
    turn.leaseId = lease

def leaseRules : Rules turnsWorld where
  admits := unbroken
  inv := LeaseInv
  rely t s s' := (∀ intent, (t, intent) ∈ s'.intents ↔ (t, intent) ∈ s.intents) ∧ ∀ event ∈ s.trace, event ∈ s'.trace
  rely_refl _ _ := ⟨fun _ => .rfl, fun _ h => h⟩
  rely_trans h h' := ⟨fun intent => (h'.1 intent).trans (h.1 intent), fun event hmem => h'.2 event (h.2 event hmem)⟩
  rest t s := ∀ workerId lease, (t, Intent.hands workerId lease) ∉ s.intents
  rest_stable _ hr hrest workerId lease hmem := hrest workerId lease ((hr.1 _).mp hmem)

def Unladen (t : Party) (s : State) : Prop := ∀ workerId lease, (t, Intent.hands workerId lease) ∉ s.intents

def Laden (t : Party) (workerId : String) (lease : Nat) (s : State) : Prop :=
  ∀ id entryId, (t, Intent.hands id entryId) ∈ s.intents → id = workerId ∧ entryId = lease

section Leasing

variable {t : Party} {s s' : State} {A : Type} {reply : Reply}

theorem unladen_stable : leaseRules.Stable t (Unladen t) := fun _ _ _ hr h workerId lease hmem =>
  h workerId lease ((hr.1 _).mp hmem)

variable {workerId : String}

variable {lease : Nat}

theorem laden_stable : leaseRules.Stable t (Laden t workerId lease) :=
  fun _ _ _ hr h id entryId hmem => h id entryId ((hr.1 _).mp hmem)

theorem older_of_append {newer newer' older trace : List Event} {event : Event} (h : newer ++ trace = newer' ++ event :: older)
    (hnot : event ∉ newer) : ∃ between, trace = between ++ event :: older := by
  rcases List.append_eq_append_iff.mp h with ⟨between, _, htrace⟩ | ⟨between, hnewer, hrest⟩
  · exact ⟨between, htrace⟩
  · cases between with
    | nil => exact ⟨[], by simpa using hrest.symm⟩
    | cons first between =>
      rw [List.cons_append, List.cons.injEq] at hrest
      exact absurd (hnewer ▸ List.mem_append_right _ (hrest.1 ▸ List.mem_cons_self)) hnot

theorem Plain.mono (h : Plain t s s') : ∀ event ∈ s.trace, event ∈ s'.trace := by
  obtain ⟨newer, htrace, _⟩ := h.trace
  rw [htrace]
  exact fun event hmem => List.mem_append_right _ hmem

theorem Plain.old (h : Plain t s s') {event : Event} (hfree : event.free = false) (hmem : event ∈ s'.trace) :
    event ∈ s.trace := by
  obtain ⟨newer, htrace, hnewer⟩ := h.trace
  rw [htrace] at hmem
  rcases List.mem_append.mp hmem with hmem | hmem
  · cases hfree.symm.trans (hnewer event hmem)
  · exact hmem

theorem Plain.keeps (h : Plain t s s') (hi : LeaseInv s) (hunladen : Unladen t s) :
    leaseRules.Keeps t s s' ∧ Unladen t s' := by
  have hfenced : ∀ workerId lease turn, .cleared workerId lease (some turn) ∈ s'.trace → turn.leaseId = lease :=
    fun workerId lease turn hmem => hi.leased.fenced workerId lease turn (h.old rfl hmem)
  have hanswered : ∀ newer older workerId lease, s'.trace = newer ++ .acknowledged workerId lease :: older →
      .appended workerId lease ∈ older := by
    intro newer' older workerId lease heq
    obtain ⟨newer, htrace, hnewer⟩ := h.trace
    have hnot : Event.acknowledged workerId lease ∉ newer := fun hmem => nomatch hnewer _ hmem
    obtain ⟨between, hbetween⟩ := older_of_append (htrace.symm.trans heq) hnot
    exact hi.leased.answered between older workerId lease hbetween
  have haccounted : ∀ workerId entryId, .delivered workerId entryId ∈ s'.trace →
      .acknowledged workerId entryId ∈ s'.trace ∨ entryId ∈ s'.held workerId ∨
        ∃ t, (t, Intent.hands workerId entryId) ∈ s'.intents := by
    intro workerId entryId hmem
    rcases hi.leased.accounted workerId entryId (h.old rfl hmem) with hacked | hheld | ⟨u, hmem⟩
    · exact .inl (h.mono _ hacked)
    · exact .inr (.inl (h.held ▸ hheld))
    · have hu : u ≠ t := by
        rintro rfl
        exact hunladen workerId entryId hmem
      exact .inr (.inr ⟨u, (h.others u _ hu).mpr hmem⟩)
  have hrecorded : ∀ u workerId lease turn, (u, Intent.releases workerId lease) ∈ s'.intents →
      s'.turns workerId = some turn → turn.leaseId = lease := by
    intro u workerId lease turn hmem hturn
    refine hi.recorded u workerId lease turn ?_ (h.turns workerId turn hturn)
    by_cases hu : u = t
    · subst hu
      exact h.own _ rfl hmem
    · exact (h.others u _ hu).mp hmem
  exact ⟨⟨⟨⟨hfenced, hanswered, haccounted⟩, hrecorded⟩, fun u hu => ⟨fun intent => h.others u intent hu, h.mono⟩⟩,
    fun workerId lease hmem => hunladen workerId lease (h.own _ rfl hmem)⟩

theorem restart_keeps (workerId : String) (hi : LeaseInv s) (hunladen : Unladen t s)
    (hdone : ∀ entryId ∈ s.held workerId, .acknowledged workerId entryId ∈ s.trace) :
    leaseRules.Keeps t s ((OutsideChange.restart workerId).apply s) ∧ Unladen t ((OutsideChange.restart workerId).apply s) := by
  refine ⟨⟨⟨⟨hi.leased.fenced, hi.leased.answered, fun id entryId hmem => ?_⟩, hi.recorded⟩, fun _ _ => ⟨fun _ => .rfl, fun _ h => h⟩⟩,
    hunladen⟩
  rcases hi.leased.accounted id entryId hmem with hacked | hheld | hhands
  · exact .inl hacked
  · by_cases hid : id = workerId
    · subst hid
      exact .inl (hdone entryId hheld)
    · refine .inr (.inl ?_)
      change entryId ∈ Function.update s.held workerId [] id
      rwa [Function.update_of_ne hid]
  · exact .inr (.inr hhands)

theorem readTurn_keeps (workerId : String) (lease : Nat) (hi : LeaseInv s) (hunladen : Unladen t s) :
    leaseRules.Keeps t s (s.readTurn t workerId lease).2 ∧ Unladen t (s.readTurn t workerId lease).2 := by
  unfold State.readTurn
  split
  · exact ⟨.refl _ hi, hunladen⟩
  · next turn hturn =>
    dsimp only
    split
    · next hlease =>
      refine ⟨⟨⟨⟨hi.leased.fenced, hi.leased.answered, fun id entryId hmem => ?_⟩, fun u id other record hmem hrecord => ?_⟩,
        fun u hu => ⟨fun intent => ?_, fun _ h => h⟩⟩, fun id entryId hmem => ?_⟩
      · rcases hi.leased.accounted id entryId hmem with hacked | hheld | ⟨u, hhands⟩
        · exact .inl hacked
        · exact .inr (.inl hheld)
        · exact .inr (.inr ⟨u, List.mem_cons_of_mem _ hhands⟩)
      · rcases List.mem_cons.mp hmem with heq | hmem
        · cases heq
          cases hturn.symm.trans hrecord
          exact hlease
        · exact hi.recorded u id other record hmem hrecord
      · simp [State.intend, hu]
      · rcases List.mem_cons.mp hmem with heq | hmem
        · cases heq
        · exact hunladen id entryId hmem
    · exact ⟨.refl _ hi, hunladen⟩

def Party.submits : Party → Bool
  | .submit _ => true
  | _ => false

/-- The calls with which `t` neither hands an entry out nor acknowledges it, and leaves
the record of a turn alone. -/
def Op.light (t : Party) : Op → Bool
  | .xreadgroup .. => !t.leases
  | .xack .. => !t.submits
  | .writeTurn .. | .deleteTurn .. | .answer .. => false
  | _ => true

theorem serve_keeps {exec : State → Except Exn A × State} {P : State → Prop} (fate : Fate Exn) (hi : LeaseInv s) (hP : P s)
    (h : leaseRules.Keeps t s (exec s).2 ∧ P (exec s).2) :
    leaseRules.Keeps t s (fate.serve exec s).2 ∧ P (fate.serve exec s).2 := by
  cases fate with
  | unsent e => exact ⟨.refl _ hi, hP⟩
  | _ => exact h

theorem run_light {op : Op} (hop : op.light t = true) (hi : LeaseInv s) (hunladen : Unladen t s)
    (hunbroken : unbroken s (.call t op reply)) :
    leaseRules.Keeps t s (run t op reply s).2 ∧ Unladen t (run t op reply s).2 := by
  cases op with
  | service call | clock => exact ⟨.refl _ hi, hunladen⟩
  | readCredential workerId | scan pattern => exact ((Plain.refl t s).serve reply.fate).keeps hi hunladen
  | writeCredential workerId credential =>
    have hwritten : Plain t s (s.writeCredential workerId credential).2 := .still rfl rfl rfl fun _ _ h => h
    exact (hwritten.serve reply.fate).keeps hi hunladen
  | deleteWorkerKeys workerId =>
    let exec (s : State) : Except Exn Unit × State := (.ok (), s.forget workerId)
    have hforgot : Plain t s (exec s).2 := forget_plain workerId
    exact (hforgot.serve reply.fate).keeps hi hunladen
  | xgroupCreate key group start => exact ((xgroupCreate_plain key group start).serve reply.fate).keeps hi hunladen
  | xgroupDestroy key group => exact ((xgroupDestroy_plain key group).serve reply.fate).keeps hi hunladen
  | xreadgroup key group consumer =>
    have ht : t.leases = false := by simpa [Op.light] using hop
    exact ((xreadgroup_plain key group consumer ht).serve reply.fate).keeps hi hunladen
  | xadd key payload maxlen account =>
    exact ((xadd_plain key payload maxlen account reply.trimmed).serve reply.fate).keeps hi hunladen
  | xack key group entryId account =>
    have hacked : Plain t s (s.xack t key group entryId account).2 := by
      cases t with
      | submit n => cases hop
      | waiter n => exact (acknowledge_plain key group entryId).trans .hears
      | _ => exact acknowledge_plain key group entryId
    exact (hacked.serve reply.fate).keeps hi hunladen
  | readTurn workerId lease => exact serve_keeps reply.fate hi hunladen (readTurn_keeps workerId lease hi hunladen)
  | idletime key limit => exact ((idletime_plain key limit).serve reply.fate).keeps hi hunladen
  | delete key => exact ((delete_plain key).serve reply.fate).keeps hi hunladen
  | outside =>
    change leaseRules.Keeps t s (reply.change.apply s) ∧ Unladen t (reply.change.apply s)
    have hrestarted : ∀ workerId ∈ reply.change.restarted, ∀ entryId ∈ s.held workerId,
        .acknowledged workerId entryId ∈ s.trace := hunbroken
    generalize reply.change = change at hrestarted ⊢
    cases change with
    | restart workerId => exact restart_keeps workerId hi hunladen (hrestarted workerId rfl)
    | _ => exact (outside_plain _ rfl).keeps hi hunladen
  | _ => cases hop

theorem light_maintains {p : Job A} (hp : Prog.Uses (fun op : Op => op.light t = true) p) :
    leaseRules.Maintains t (Unladen t) p :=
  Safe.leaves unladen_stable (hp.mono fun _ hop _ hi hunladen _ hunbroken => run_light hop hi hunladen hunbroken)

theorem light_of_makes {op : Op} (hl : t.leases = false) (hs : t.submits = false) (h : t.makes op = true) :
    op.light t = true := by
  cases op with
  | xreadgroup => simp [Op.light, hl]
  | xack => simp [Op.light, hs]
  | writeTurn => cases t with
    | lease => cases hl
    | _ => cases h
  | deleteTurn => cases t with
    | submit => cases hs
    | _ => cases h
  | answer => cases t with
    | lease => cases hl
    | _ => cases h
  | _ => rfl

theorem worker_maintains (config : BrokerConfig) (workerId : String) (token : Option String) (operation : Operation) :
    leaseRules.Maintains t (Unladen t) (worker config workerId token operation) :=
  light_maintains (worker_uses config workerId token operation rfl)

theorem xreadgroup_none {key : StreamKey} {group consumer : String} (h : s.upcoming key group = none) :
    (s.xreadgroup t key group consumer).2 = s.touch key ∧ ∀ entry, (s.xreadgroup t key group consumer).1 ≠ .ok (some entry) := by
  unfold State.upcoming at h
  unfold State.xreadgroup
  cases hstream : s.streams key with
  | none => exact ⟨rfl, fun _ heq => nomatch heq⟩
  | some stream => cases hgroup : stream.groups group with
    | none =>
      simp only [Option.bind_some, hgroup, Option.map_none]
      exact ⟨trivial, fun _ heq => nomatch heq⟩
    | some g =>
      rw [hstream, Option.bind_some, hgroup, Option.bind_some] at h
      simp only [Option.bind_some, hgroup, Option.map_some, h]
      exact ⟨trivial, fun _ heq => nomatch heq⟩

variable {payload : Payload}

theorem xreadgroup_some {key : StreamKey} {group consumer : String} {entryId : Nat}
    (h : s.upcoming key group = some (entryId, payload)) (n : Nat) :
    ∃ stream, s.xreadgroup (.lease n) key group consumer = (.ok (some (entryId, payload)),
      (((s.setStream key stream).touch key).intend (.lease n) (.hands consumer entryId)).record
        (.delivered consumer entryId)) := by
  unfold State.upcoming at h
  obtain ⟨stream, hstream, h⟩ := Option.bind_eq_some_iff.mp h
  obtain ⟨g, hgroup, hhead⟩ := Option.bind_eq_some_iff.mp h
  refine ⟨some (stream.deliver group g entryId), ?_⟩
  unfold State.xreadgroup
  rw [hstream, Option.bind_some, hgroup, Option.map_some]
  simp only [hhead]

theorem Leased.answered_cons (h : Leased s) {event : Event} (hne : ∀ workerId lease, event ≠ .acknowledged workerId lease) :
    ∀ newer older workerId lease, event :: s.trace = newer ++ .acknowledged workerId lease :: older →
      .appended workerId lease ∈ older := by
  intro newer older workerId lease heq
  cases newer with
  | nil => exact absurd (List.cons.inj heq).1 (hne workerId lease)
  | cons _ newer => exact h.answered newer older workerId lease (List.cons.inj heq).2

theorem delivered_keeps (workerId : String) (entryId : Nat) (hi : LeaseInv s) :
    leaseRules.Keeps t s ((s.intend t (.hands workerId entryId)).record (.delivered workerId entryId)) := by
  have hfenced : ∀ id lease turn, .cleared id lease (some turn) ∈ Event.delivered workerId entryId :: s.trace →
      turn.leaseId = lease := by
    intro id lease turn hmem
    rcases List.mem_cons.mp hmem with heq | hmem
    · cases heq
    · exact hi.leased.fenced id lease turn hmem
  have haccounted : ∀ id lease, .delivered id lease ∈ Event.delivered workerId entryId :: s.trace →
      .acknowledged id lease ∈ Event.delivered workerId entryId :: s.trace ∨ lease ∈ s.held id ∨
        ∃ u, (u, Intent.hands id lease) ∈ (t, Intent.hands workerId entryId) :: s.intents := by
    intro id lease hmem
    rcases List.mem_cons.mp hmem with heq | hmem
    · cases heq
      exact .inr (.inr ⟨t, List.mem_cons_self⟩)
    · rcases hi.leased.accounted id lease hmem with hacked | hheld | ⟨u, hhands⟩
      · exact .inl (List.mem_cons_of_mem _ hacked)
      · exact .inr (.inl hheld)
      · exact .inr (.inr ⟨u, List.mem_cons_of_mem _ hhands⟩)
  refine ⟨⟨⟨hfenced, hi.leased.answered_cons fun _ _ h => (nomatch h), haccounted⟩, fun u id lease turn hmem hturn => ?_⟩,
    fun u hu => ⟨fun intent => ?_, fun event hmem => ?_⟩⟩
  · rcases List.mem_cons.mp hmem with heq | hmem
    · cases heq
    · exact hi.recorded u id lease turn hmem hturn
  · simp [State.intend, State.record, hu]
  · exact List.mem_cons_of_mem _ hmem

theorem readInput_safe (key : StreamKey) (group workerId : String) (n : Nat) (hunladen : Unladen (.lease n) s) :
    leaseRules.Safe (.lease n) (fun r s => match r with
        | .ok (some (lease, payload)) => Laden (.lease n) workerId lease s ∧ payload.leasable workerId = true
        | .ok none => Unladen (.lease n) s
        | .error _ => Unladen (.lease n) s) (xreadgroup key group workerId) s := by
  refine Safe.perform fun s' hi' hr reply hunbroken => ?_
  have hunladen' := unladen_stable _ _ hi' hr hunladen
  change leaseRules.Keeps _ s' (reply.fate.serve (State.xreadgroup (.lease n) key group workerId) s').2 ∧ _
  have hnext : reply.fate.carriedOut = true → ∀ entry ∈ s'.upcoming key group,
      reply.fate.isServed = true ∧ entry.2.leasable workerId = true := hunbroken rfl
  suffices hgoal : ∀ r s'', reply.fate.serve (State.xreadgroup (.lease n) key group workerId) s' = (r, s'') →
      leaseRules.Keeps (.lease n) s' s'' ∧ match r with
        | .ok (some (lease, payload)) => Laden (.lease n) workerId lease s'' ∧ payload.leasable workerId = true
        | .ok none => Unladen (.lease n) s''
        | .error _ => Unladen (.lease n) s'' from hgoal _ _ rfl
  intro r s'' hrun
  cases hupcoming : s'.upcoming key group with
  | none =>
    obtain ⟨hstate, hresult⟩ := xreadgroup_none hupcoming
    have htouched : Plain (.lease n) s' (s'.xreadgroup (.lease n) key group workerId).2 :=
      hstate ▸ .still rfl rfl rfl fun _ _ h => h
    obtain ⟨hkeeps, hafter⟩ := (htouched.serve reply.fate).keeps hi' hunladen'
    rw [hrun] at hkeeps hafter
    refine ⟨hkeeps, ?_⟩
    match r with
    | .error e => exact hafter
    | .ok none => exact hafter
    | .ok (some entry) => exact absurd (congrArg Prod.fst (Fate.serve_ok hrun)) (hresult entry)
  | some entry =>
    obtain ⟨stream, hread⟩ := xreadgroup_some hupcoming n
    cases hfate : reply.fate with
    | unsent e =>
      rw [hfate] at hrun
      cases hrun
      exact ⟨.refl _ hi', hunladen'⟩
    | unheard e => cases hfate ▸ (hnext (hfate ▸ rfl) entry hupcoming).1
    | served =>
      rw [hfate] at hrun
      cases hrun.symm.trans hread
      have hset : Plain (.lease n) s' ((s'.setStream key stream).touch key) := .still rfl rfl rfl fun _ _ h => h
      have hkeeps := (hset.keeps hi' hunladen').1
      refine ⟨hkeeps.trans (delivered_keeps workerId entry.1 hkeeps.inv), fun id other hmem => ?_,
        (hnext (hfate ▸ rfl) entry hupcoming).2⟩
      rcases List.mem_cons.mp hmem with heq | hmem
      · cases heq
        exact ⟨rfl, rfl⟩
      · exact absurd hmem (hunladen' id other)

theorem decodeInput_safe (hpayload : payload.leasable workerId = true)
    (hladen : Laden t workerId lease s) :
    leaseRules.Safe t (fun r s => Laden t workerId lease s ∧ ∃ data, r = .ok data ∧ data.leasable workerId = true)
      (decodeInput payload) s := by
  cases payload with
  | flat data => exact ⟨hladen, data, rfl, hpayload⟩
  | turn data => exact ⟨hladen, data, rfl, hpayload⟩
  | result result lease => exact ⟨hladen, noTurn, rfl, rfl⟩
  | _ => cases hpayload

theorem activeTurn_safe {data : InputData} (hdata : data.leasable workerId = true)
    (hladen : Laden t workerId lease s) :
    leaseRules.Safe t (fun r s => Laden t workerId lease s ∧ ∃ turn, r = .ok turn) (activeTurn workerId lease data) s := by
  unfold InputData.leasable at hdata
  split at hdata
  · next attemptId deadline requestId hattempt hdeadline hrequest =>
    unfold activeTurn
    simp only [hattempt, hdeadline, hrequest]
    cases deadline with
    | seconds n =>
      simp only [Bool.and_eq_true, Bool.not_eq_true', decide_eq_false_iff_not] at hdata
      simp only [if_neg hdata.1, hdata.2, Bool.false_eq_true, if_false]
      intro s' hi' hr reply _
      exact ⟨.refl _ hi', laden_stable _ _ hi' hr hladen, _, rfl⟩
    | _ => cases hdata
  · next hnone =>
    unfold activeTurn
    split
    · next hattempt hdeadline hrequest => exact absurd hrequest (hnone _ _ _ hattempt hdeadline)
    · exact ⟨hladen, _, rfl⟩

theorem writeTurn_keeps {turn : WorkerActiveTurn} (hi : LeaseInv s)
    (hladen : Laden t workerId lease s)
    (hreleased : ∀ entry ∈ s.intents, ∀ released ∈ entry.2.released, released.1 = workerId → turn.leaseId = released.2) :
    leaseRules.Keeps t s { s with turns := Function.update s.turns workerId (some turn) } ∧
      Laden t workerId lease { s with turns := Function.update s.turns workerId (some turn) } := by
  refine ⟨⟨⟨⟨hi.leased.fenced, hi.leased.answered, hi.leased.accounted⟩, fun u id other record hmem hrecord => ?_⟩,
    fun _ _ => ⟨fun _ => .rfl, fun _ h => h⟩⟩, hladen⟩
  dsimp only at hrecord
  by_cases hid : id = workerId
  · subst hid
    rw [Function.update_self] at hrecord
    cases hrecord
    exact hreleased _ hmem _ rfl rfl
  · rw [Function.update_of_ne hid] at hrecord
    exact hi.recorded u id other record hmem hrecord

theorem recordTurn_safe (turn : Option WorkerActiveTurn) (hladen : Laden t workerId lease s) :
    leaseRules.Safe t (fun r s => Laden t workerId lease s ∧ r = .ok ()) (recordTurn workerId turn) s := by
  cases turn with
  | none => exact ⟨hladen, rfl⟩
  | some turn =>
    refine Safe.perform fun s' hi' hr reply hunbroken => ?_
    obtain ⟨hserved, hreleased⟩ : reply.fate.isServed = true ∧ ∀ entry ∈ s'.intents, ∀ released ∈ entry.2.released,
      released.1 = workerId → turn.leaseId = released.2 := hunbroken
    obtain ⟨hkeeps, hafter⟩ := writeTurn_keeps hi' (laden_stable _ _ hi' hr hladen) hreleased
    simp only [run]
    cases hfate : reply.fate with
    | served => exact ⟨hkeeps, hafter, rfl⟩
    | _ => cases hfate ▸ hserved

theorem answer_keeps (hi : LeaseInv s) (hladen : Laden t workerId lease s) :
    leaseRules.Keeps t s (s.answer t workerId lease).2 ∧ Unladen t (s.answer t workerId lease).2 := by
  refine ⟨⟨⟨⟨hi.leased.fenced, hi.leased.answered, fun id entryId hmem => ?_⟩, fun u id other turn hmem hturn => ?_⟩,
    fun u hu => ⟨fun intent => ?_, fun _ h => h⟩⟩, fun id entryId hmem => ?_⟩
  · rcases hi.leased.accounted id entryId hmem with hacked | hheld | ⟨u, hhands⟩
    · exact .inl hacked
    · refine .inr (.inl ?_)
      change entryId ∈ Function.update s.held workerId (lease :: s.held workerId) id
      by_cases hid : id = workerId
      · subst hid
        rw [Function.update_self]
        exact List.mem_cons_of_mem _ hheld
      · rwa [Function.update_of_ne hid]
    · by_cases hu : u = t
      · subst hu
        obtain ⟨rfl, rfl⟩ := hladen id entryId hhands
        refine .inr (.inl ?_)
        change entryId ∈ Function.update s.held id (entryId :: s.held id) id
        rw [Function.update_self]
        exact List.mem_cons_self
      · exact .inr (.inr ⟨u, mem_settle.mpr ⟨hhands, hu⟩⟩)
  · exact hi.recorded u id other turn (mem_settle.mp hmem).1 hturn
  · exact mem_settle.trans ⟨And.left, fun hmem => ⟨hmem, hu⟩⟩
  · exact (mem_settle.mp hmem).2 rfl

theorem leaseEntry_safe (hi : LeaseInv s)
    (hladen : Laden t workerId lease s) (hpayload : payload.leasable workerId = true) :
    leaseRules.Safe t (fun _ => Unladen t) (leaseEntry workerId (some (lease, payload))) s := by
  refine Safe.bind hi (decodeInput_safe hpayload hladen) (fun data s hi hdecoded => ?_) fun e s hi herror => ?_
  · obtain ⟨hladen, _, hsame, hdata⟩ := hdecoded
    cases hsame
    refine Safe.bind hi (activeTurn_safe hdata hladen) (fun turn s hi hturn => ?_) fun e s hi herror => ?_
    · refine Safe.bind hi (recordTurn_safe turn hturn.1) (fun _ s hi hrecorded => ?_) fun e s hi herror => nomatch herror.2
      refine Safe.perform fun s' hi' hr reply hunbroken => ?_
      have hladen' := laden_stable _ _ hi' hr hrecorded.1
      have hcarried : reply.fate.carriedOut = true := hunbroken
      simp only [run]
      cases hfate : reply.fate with
      | unsent e => cases hfate ▸ hcarried
      | _ => exact answer_keeps hi' hladen'
    · obtain ⟨_, _, herror⟩ := herror
      cases herror
  · obtain ⟨_, _, herror, _⟩ := herror
    cases herror

theorem leaseInput_safe (config : BrokerConfig) (request : LeaseRequest) (n : Nat) (hi : LeaseInv s)
    (hunladen : Unladen (.lease n) s) :
    leaseRules.Safe (.lease n) (fun _ => Unladen (.lease n)) (leaseInput config request) s := by
  refine Safe.bind hi (worker_maintains config _ _ _ s hi hunladen) (fun credential s hi hunladen => ?_) fun _ _ _ h => h
  refine Safe.bind hi (readInput_safe _ _ _ n hunladen) (fun entry s hi hread => ?_) fun _ _ _ h => h
  match entry with
  | none => exact hread
  | some (lease, payload) => exact leaseEntry_safe hi hread.1 hread.2

theorem acknowledged_keeps (hi : LeaseInv s)
    (hunladen : Unladen t s) (happended : .appended workerId lease ∈ s.trace) :
    leaseRules.Keeps t s (s.record (.acknowledged workerId lease)) ∧ Unladen t (s.record (.acknowledged workerId lease)) := by
  have hanswered : ∀ newer older id entryId, Event.acknowledged workerId lease :: s.trace =
      newer ++ .acknowledged id entryId :: older → .appended id entryId ∈ older := by
    intro newer older id entryId heq
    cases newer with
    | nil =>
      cases heq
      exact happended
    | cons event newer =>
      rw [List.cons_append, List.cons.injEq] at heq
      exact hi.leased.answered newer older id entryId heq.2
  refine ⟨⟨⟨⟨fun id other turn hmem => ?_, hanswered, fun id entryId hmem => ?_⟩, hi.recorded⟩,
    fun _ _ => ⟨fun _ => .rfl, fun _ h => List.mem_cons_of_mem _ h⟩⟩, hunladen⟩
  · rcases List.mem_cons.mp hmem with heq | hmem
    · cases heq
    · exact hi.leased.fenced id other turn hmem
  · rcases List.mem_cons.mp hmem with heq | hmem
    · cases heq
    · rcases hi.leased.accounted id entryId hmem with hacked | hheld | hhands
      · exact .inl (List.mem_cons_of_mem _ hacked)
      · exact .inr (.inl hheld)
      · exact .inr (.inr hhands)

theorem xack_safe (key : StreamKey) (group workerId : String) (lease n : Nat) (hunladen : Unladen (.submit n) s)
    (happended : .appended workerId lease ∈ s.trace) :
    leaseRules.Safe (.submit n) (fun _ => Unladen (.submit n)) (xack key group lease workerId) s := by
  refine Safe.perform fun s' hi' hr reply _ => serve_keeps reply.fate hi' (unladen_stable _ _ hi' hr hunladen) ?_
  have hplain := acknowledge_plain (t := .submit n) (s := s') key group lease
  have hacked := hplain.keeps hi' (unladen_stable _ _ hi' hr hunladen)
  have hrecorded := acknowledged_keeps hacked.1.inv hacked.2 (hplain.mono _ (hr.2 _ happended))
  exact ⟨hacked.1.trans hrecorded.1, hrecorded.2⟩

theorem xadd_safe (key : StreamKey) (result : WorkerResult) (maxlen : Option Nat) (workerId : String) (lease n : Nat)
    (hunladen : Unladen (.submit n) s) :
    leaseRules.Safe (.submit n) (fun r s => Unladen (.submit n) s ∧ ∀ entryId, r = .ok entryId →
      .appended workerId lease ∈ s.trace) (xadd key (.result result (some lease)) maxlen workerId) s := by
  refine Safe.perform fun s' hi' hr reply hunbroken => ?_
  have hlight : Op.light (.submit n) (.xadd key (.result result (some lease)) maxlen workerId) = true := rfl
  obtain ⟨hkeeps, hafter⟩ := run_light hlight hi' (unladen_stable _ _ hi' hr hunladen) hunbroken
  refine ⟨hkeeps, hafter, fun entryId heq => ?_⟩
  have hserved : reply.fate.serve (State.xadd (.submit n) key (.result result (some lease)) maxlen workerId reply.trimmed) s' =
      (.ok entryId, (run (.submit n) (.xadd key (.result result (some lease)) maxlen workerId) reply s').2) := Prod.ext heq rfl
  have hadded := congrArg (fun result => result.2.trace) (Fate.serve_ok hserved)
  exact (show _ = _ from hadded) ▸ List.mem_cons_self

theorem readTurn_safe (workerId : String) (lease : Nat) (hunladen : Unladen t s) :
    leaseRules.Safe t (fun r s => Unladen t s ∧ ∀ turn, r = .ok (some turn) → turn.leaseId = lease →
      (t, Intent.releases workerId lease) ∈ s.intents)
      (perform (.readTurn workerId lease)) s := by
  refine Safe.perform fun s' hi' hr reply hunbroken => ?_
  have hlight : Op.light t (.readTurn workerId lease) = true := rfl
  obtain ⟨hkeeps, hafter⟩ := run_light hlight hi' (unladen_stable _ _ hi' hr hunladen) hunbroken
  refine ⟨hkeeps, hafter, fun turn heq hlease => ?_⟩
  have hserved : reply.fate.serve (State.readTurn t workerId lease) s' =
      (.ok (some turn), (run t (.readTurn workerId lease) reply s').2) := Prod.ext heq rfl
  have hread := Fate.serve_ok hserved
  unfold State.readTurn at hread
  split at hread
  · cases hread
  · rw [Prod.mk.injEq, Except.ok.injEq, Option.some.injEq] at hread
    obtain ⟨rfl, hstate⟩ := hread
    rw [if_pos hlease] at hstate
    exact hstate ▸ List.mem_cons_self

theorem deleteTurn_keeps (workerId : String) (lease : Nat) (hi : LeaseInv s) (hunladen : Unladen t s)
    (hreleases : (t, Intent.releases workerId lease) ∈ s.intents) :
    leaseRules.Keeps t s (s.deleteTurn t workerId lease).2 ∧ Unladen t (s.deleteTurn t workerId lease).2 := by
  have hfenced : ∀ id other turn, .cleared id other (some turn) ∈ Event.cleared workerId lease (s.turns workerId) :: s.trace →
      turn.leaseId = other := by
    intro id other turn hmem
    rcases List.mem_cons.mp hmem with heq | hmem
    · rw [Event.cleared.injEq] at heq
      obtain ⟨rfl, rfl, hturn⟩ := heq
      exact hi.recorded t id other turn hreleases hturn.symm
    · exact hi.leased.fenced id other turn hmem
  refine ⟨⟨⟨⟨hfenced, hi.leased.answered_cons fun _ _ h => (nomatch h), fun id entryId hmem => ?_⟩,
    fun u id other turn hmem hturn => ?_⟩, fun u hu => ⟨fun intent => ?_, fun _ hmem => List.mem_cons_of_mem _ hmem⟩⟩,
    fun id entryId hmem => hunladen id entryId (mem_settle.mp hmem).1⟩
  · rcases List.mem_cons.mp hmem with heq | hmem
    · cases heq
    · rcases hi.leased.accounted id entryId hmem with hacked | hheld | ⟨u, hhands⟩
      · exact .inl (List.mem_cons_of_mem _ hacked)
      · exact .inr (.inl hheld)
      · refine .inr (.inr ⟨u, mem_settle.mpr ⟨hhands, ?_⟩⟩)
        rintro rfl
        exact hunladen id entryId hhands
  · change Function.update s.turns workerId none id = some turn at hturn
    by_cases hid : id = workerId
    · subst hid
      rw [Function.update_self] at hturn
      cases hturn
    · rw [Function.update_of_ne hid] at hturn
      exact hi.recorded u id other turn (mem_settle.mp hmem).1 hturn
  · exact mem_settle.trans ⟨And.left, fun hmem => ⟨hmem, hu⟩⟩

theorem releaseTurn_safe (turn : Option WorkerActiveTurn) (hunladen : Unladen t s)
    (hreleases : ∀ record, turn = some record → record.leaseId = lease → (t, Intent.releases workerId lease) ∈ s.intents) :
    leaseRules.Safe t (fun _ => Unladen t) (releaseTurn workerId lease turn) s := by
  cases turn with
  | none => exact hunladen
  | some turn =>
    unfold releaseTurn
    dsimp only
    split
    · next hlease =>
      refine Safe.perform fun s' hi' hr reply _ => ?_
      have hunladen' := unladen_stable _ _ hi' hr hunladen
      exact serve_keeps reply.fate hi' hunladen'
        (deleteTurn_keeps workerId lease hi' hunladen' ((hr.1 _).mpr (hreleases turn rfl hlease)))
    · exact hunladen

theorem submitOutput_safe (config : BrokerConfig) (submission : Submission) (n : Nat) (hi : LeaseInv s)
    (hunladen : Unladen (.submit n) s) :
    leaseRules.Safe (.submit n) (fun _ => Unladen (.submit n)) (submitOutput config submission) s := by
  refine Safe.bind hi (worker_maintains config _ _ _ s hi hunladen) (fun credential s hi hunladen => ?_) fun _ _ _ h => h
  split
  · exact hunladen
  · next result _ =>
    refine Safe.bind hi (xadd_safe _ result _ _ submission.leaseId n hunladen) (fun entryId s hi hadded => ?_) fun _ _ _ h => h.1
    refine Safe.bind hi (xack_safe _ _ _ _ n hadded.1 (hadded.2 entryId rfl)) (fun _ s hi hunladen => ?_) fun _ _ _ h => h
    refine Safe.bind hi (readTurn_safe _ _ hunladen) (fun turn s hi hread => ?_) fun _ _ _ h => h.1
    exact releaseTurn_safe turn hread.1 fun record hrecord => hread.2 record (congrArg _ hrecord)

theorem ended_leased (r : Option (Except Exn (Option SpawnResult))) (hi : LeaseInv s) (hunladen : Unladen t s) :
    leaseRules.Keeps t s (ended t r s) ∧ Unladen t (ended t r s) := by
  unfold ended
  split
  · next result =>
    have hreturned : Plain t s (s.record (.returned (s.own t) result.origin)) := .record rfl
    exact (hreturned.trans .settle).keeps hi hunladen
  · exact Plain.settle.keeps hi hunladen

theorem lease_start (config : TurnsConfig) (hi : LeaseInv s) (hunladen : Unladen t s) :
    leaseRules.Safe t (leaseRules.Finishes t) (body config t) s := by
  have finish {p : Job (Option SpawnResult)} (hp : leaseRules.Safe t (fun _ => Unladen t) p s) :
      leaseRules.Safe t (leaseRules.Finishes t) p s :=
    hp.conseq hi fun r s hi hunladen => ended_leased (some r) hi hunladen
  have light (hl : t.leases = false) (hs : t.submits = false) : leaseRules.Safe t (leaseRules.Finishes t) (body config t) s :=
    finish (light_maintains ((body_makes config t).mono fun _ => light_of_makes hl hs) s hi hunladen)
  cases t with
  | lease n => exact finish (Safe.bind hi (leaseInput_safe _ _ n hi hunladen) (fun _ _ _ h => h) fun _ _ _ h => h)
  | submit n => exact finish (Safe.bind hi (submitOutput_safe _ _ n hi hunladen) (fun _ _ _ h => h) fun _ _ _ h => h)
  | _ => exact light rfl rfl

end Leasing

/-- In a run in which nothing comes between an entry's delivery and the worker it is
for, and no turn is recorded while a submission is about to remove the record, leases
are fenced and none is lost. -/
theorem leases_kept (config : TurnsConfig) (start : State) (hstart : Leased start) (hintents : start.intents = [])
    (c : Config turnsWorld) (h : Reaches (body config) unbroken (Config.idle start) c) : Leased c.state := by
  have hnone (t : Party) (intent : Intent) : (t, intent) ∉ start.intents := by
    rw [hintents]
    exact List.not_mem_nil
  have hi : LeaseInv start := ⟨hstart, fun t workerId lease _ hmem => absurd hmem (hnone t _)⟩
  have hidle : leaseRules.Sound (Config.idle start : Config turnsWorld) := .idle hi fun t _ _ => hnone t _
  refine (reaches_sound hidle (fun t s hi hunladen _ => lease_start config hi hunladen) (fun t s hi hstop => ?_) h).inv.leased
  refine ended_leased none hi fun workerId lease hmem => ?_
  cases hstop _ hmem rfl

theorem emptyRedis_leased : Leased emptyRedis :=
  ⟨fun _ _ _ h => (nomatch h), fun _ _ _ _ h => absurd h.symm (List.append_ne_nil_of_right_ne_nil _ (List.cons_ne_nil _ _)),
    fun _ _ h => (nomatch h)⟩

def sampleLeases : List (Turn turnsWorld) :=
  turnsOf (.register 0) 2 ++ turnsOf (.waiter 0) 4 ++ turnsOf (.waiter 1) 4 ++ turnsOf (.lease 0) 5

theorem sample_leases_kept :
    Leased ((Config.idle emptyRedis).play (body sampleTurns) (sampleLeases ++ turnsOf (.submit 1) 5 ++ turnsOf (.lease 1) 5)).state ∧
      ((Config.idle emptyRedis).play (body sampleTurns) (sampleLeases ++ turnsOf (.submit 1) 5 ++ turnsOf (.lease 1) 5)).state.trace =
        [.delivered "w" 2, .cleared "w" 1 (some ⟨"w", "attempt-0", "request-0", 1, 0, 3600⟩), .acknowledged "w" 1,
          .appended "w" 1, .delivered "w" 1] :=
  ⟨leases_kept sampleTurns emptyRedis emptyRedis_leased rfl _ (play_reaches (by decide +kernel)), by decide +kernel⟩

def overtakenSubmission : List (Turn turnsWorld) :=
  sampleLeases ++ turnsOf (.submit 1) 4 ++ turnsOf (.lease 1) 5 ++ [.call (.submit 1) fun _ => turnsServed (.advance 0)]

def malformedInput : InputData := ⟨some "request", some "attempt", some .notANumber, "do it", false, none, none⟩

def malformedDelivery : List (Turn turnsWorld) :=
  turnsOf (.register 0) 2 ++ [.start (.outside 0), .call (.outside 0) fun _ => turnsServed (.publish (.input "w") malformedInput)] ++
    turnsOf (.lease 0) 3

theorem leases_stolen_and_lost :
    (¬ ∀ (config : TurnsConfig) (start : State), Leased start → start.intents = [] →
      ∀ c : Config turnsWorld, Reaches (body config) anyMove (Config.idle start) c →
        ∀ workerId lease turn, .cleared workerId lease (some turn) ∈ c.state.trace → turn.leaseId = lease) ∧
    ¬ ∀ (config : TurnsConfig) (start : State), Leased start → start.intents = [] →
      ∀ c : Config turnsWorld, Reaches (body config) anyMove (Config.idle start) c →
        ∀ workerId entryId, .delivered workerId entryId ∈ c.state.trace → .acknowledged workerId entryId ∈ c.state.trace ∨
          entryId ∈ c.state.held workerId ∨ ∃ t, (t, Intent.hands workerId entryId) ∈ c.state.intents := by
  refine ⟨fun h => ?_, fun h => ?_⟩
  · have hcleared : Event.cleared "w" 1 (some ⟨"w", "attempt-1", "request-1", 2, 0, 3600⟩) ∈
        ((Config.idle emptyRedis).play (body sampleTurns) overtakenSubmission).state.trace := by decide +kernel
    cases h sampleTurns emptyRedis emptyRedis_leased rfl _ (play_reaches_anyMove _ _ _) _ _ _ hcleared
  · have hlost : Event.delivered "w" 1 ∈ ((Config.idle emptyRedis).play (body sampleTurns) malformedDelivery).state.trace ∧
        Event.acknowledged "w" 1 ∉ ((Config.idle emptyRedis).play (body sampleTurns) malformedDelivery).state.trace ∧
        1 ∉ ((Config.idle emptyRedis).play (body sampleTurns) malformedDelivery).state.held "w" ∧
        ((Config.idle emptyRedis).play (body sampleTurns) malformedDelivery).state.intents = [] := by decide +kernel
    obtain ⟨hdelivered, hacked, hheld, hintents⟩ := hlost
    rcases h sampleTurns emptyRedis emptyRedis_leased rfl _ (play_reaches_anyMove _ _ _) _ _ hdelivered with h | h | ⟨t, h⟩
    · exact hacked h
    · exact hheld h
    · rw [hintents] at h
      cases h

end Orchestrator.Turns
