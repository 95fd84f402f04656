import Orchestrator.Async.Solo
import Orchestrator.Turns.Sweeps

/-!
A client takes the first output its group hands out. It is the output of its own turn
as long as nothing is submitted meanwhile for another.
-/

namespace Orchestrator.Turns

open Async Async.Rules Redis

def OwnOutputs (s : State) : Prop := ∀ own lease, .returned own (some lease) ∈ s.trace → own = some lease

def State.ahead (s : State) (key : StreamKey) (group : String) (start : GroupStart) : List (Nat × Payload) :=
  match s.streams key with
  | none => []
  | some stream => stream.unread ((stream.groups group).getD ⟨start.lastDelivered stream, []⟩)

def Intent.awaitsOn (key : StreamKey) : Intent → Bool
  | .awaits workerId _ => key = .output workerId
  | _ => false

def StreamKey.isOutput : StreamKey → Bool
  | .output _ => true
  | _ => false

def Party.waits : Party → Bool
  | .waiter _ => true
  | _ => false

/-- While clients wait for outputs of a worker, none is submitted but for the entry they
have sent; no submitted output is ahead of a group when it is made, and none but for
the entry the client has sent when it finds the group there; and no group is said to
be there but by Redis. -/
def undisturbed : State → Move turnsWorld → Prop
  | s, .call _ (.xadd key payload _ _) reply => reply.fate.carriedOut = true → ∀ lease ∈ payload.lease,
    ∀ waiting ∈ s.intents, waiting.2.awaitsOn key = true → (waiting.1, Intent.sent lease) ∈ s.intents
  | s, .call t (.xgroupCreate key group start) reply => (t.waits = true → reply.fate.told ≠ some .busyGroup) ∧
    (key.isOutput = true → reply.fate.carriedOut = true → ∀ entry ∈ s.ahead key group start, ∀ lease ∈ entry.2.lease,
      s.hasGroup key group = true ∧ (t.waits = true → (t, Intent.sent lease) ∈ s.intents))
  | _, _ => True

instance (s : State) (m : Move turnsWorld) : Decidable (undisturbed s m) := by
  rcases m with _ | ⟨_, ⟨⟩, reply⟩ | _ <;> dsimp only [undisturbed] <;> infer_instance

def Apart (s : State) : Prop := ∀ t workerId group, (t, Intent.awaits workerId group) ∈ s.intents →
  ∀ stream g, s.streams (.output workerId) = some stream → stream.groups group = some g →
    ∀ entry ∈ stream.unread g, ∀ lease ∈ entry.2.lease, (t, Intent.sent lease) ∈ s.intents

structure Calm (t : Party) (s s' : State) : Prop where
  trace : ∀ own origin, .returned own origin ∈ s'.trace → .returned own origin ∈ s.trace
  unread : ∀ workerId group stream' g', s'.streams (.output workerId) = some stream' → stream'.groups group = some g' →
    ∀ entry ∈ stream'.unread g', ∀ lease ∈ entry.2.lease,
      ∃ stream g, s.streams (.output workerId) = some stream ∧ stream.groups group = some g ∧ entry ∈ stream.unread g
  own : ∀ workerId group, (t, Intent.awaits workerId group) ∈ s'.intents → (t, Intent.awaits workerId group) ∈ s.intents ∧
    ∀ lease, (t, Intent.sent lease) ∈ s.intents → (t, Intent.sent lease) ∈ s'.intents
  others : ∀ u intent, u ≠ t → ((u, intent) ∈ s'.intents ↔ (u, intent) ∈ s.intents)

section Steps

variable {t : Party} {s s' s'' : State} {A : Type}

theorem Calm.refl (t : Party) (s : State) : Calm t s s :=
  ⟨fun _ _ h => h, fun _ _ stream g hs hg _ hmem _ _ => ⟨stream, g, hs, hg, hmem⟩, fun _ _ h => ⟨h, fun _ h => h⟩,
    fun _ _ _ => .rfl⟩

theorem Calm.trans (h : Calm t s s') (h' : Calm t s' s'') : Calm t s s'' := by
  refine ⟨fun own origin hmem => h.trace own origin (h'.trace own origin hmem),
    fun workerId group stream g hs hg entry hmem lease hlease => ?_, fun workerId group hmem => ?_,
    fun u intent hu => (h'.others u intent hu).trans (h.others u intent hu)⟩
  · obtain ⟨stream', g', hs', hg', hmem'⟩ := h'.unread workerId group stream g hs hg entry hmem lease hlease
    exact h.unread workerId group stream' g' hs' hg' entry hmem' lease hlease
  · obtain ⟨hmem', hsent'⟩ := h'.own workerId group hmem
    obtain ⟨hmem, hsent⟩ := h.own workerId group hmem'
    exact ⟨hmem, fun lease hlease => hsent' lease (hsent lease hlease)⟩

theorem Calm.serve {exec : State → Except Exn A × State} (fate : Fate Exn) (h : Calm t s (exec s).2) :
    Calm t s (fate.serve exec s).2 := by
  cases fate with
  | unsent e => exact .refl t s
  | _ => exact h

theorem Calm.still (hstreams : s'.streams = s.streams) (hintents : s'.intents = s.intents)
    (htrace : ∀ own origin, .returned own origin ∈ s'.trace → .returned own origin ∈ s.trace) : Calm t s s' := by
  refine ⟨htrace, fun workerId group stream g hs hg entry hmem _ _ => ?_, fun _ _ hmem => ?_,
    fun _ _ _ => by rw [hintents]⟩
  · exact ⟨stream, g, hstreams ▸ hs, hg, hmem⟩
  · rw [hintents] at hmem ⊢
    exact ⟨hmem, fun _ h => h⟩

theorem Calm.intend {intent : Intent} (h : intent.isWaiting = false) : Calm t s (s.intend t intent) := by
  refine ⟨fun _ _ h => h, fun _ _ stream g hs hg _ hmem _ _ => ⟨stream, g, hs, hg, hmem⟩, fun workerId group hmem => ?_,
    fun u other hu => by simp [State.intend, hu]⟩
  rcases List.mem_cons.mp hmem with heq | hmem
  · cases heq
    cases h
  · exact ⟨hmem, fun _ hsent => List.mem_cons_of_mem _ hsent⟩

theorem Calm.settle : Calm t s (s.settle t) := by
  refine ⟨fun _ _ h => h, fun _ _ stream g hs hg _ hmem _ _ => ⟨stream, g, hs, hg, hmem⟩, fun workerId group hmem => ?_,
    fun u intent hu => by simp [mem_settle, hu]⟩
  exact absurd rfl (mem_settle.mp hmem).2

theorem Calm.hears : Calm t s (s.hears t) := by
  refine ⟨fun _ _ h => h, fun _ _ stream g hs hg _ hmem _ _ => ⟨stream, g, hs, hg, hmem⟩, fun workerId group hmem => ?_,
    fun u intent hu => by simp [mem_hears, hu]⟩
  cases (mem_hears.mp hmem).2 rfl

variable {key : StreamKey}

theorem Calm.setStream {stream : Option (Stream Payload)}
    (hunread : ∀ new, stream = some new → key.isOutput = true → ∀ group g', new.groups group = some g' → ∀ entry ∈ new.unread g', ∀ lease ∈ entry.2.lease,
      ∃ old g, s.streams key = some old ∧ old.groups group = some g ∧ entry ∈ old.unread g) :
    Calm t s (s.setStream key stream) := by
  refine ⟨fun _ _ h => h, fun workerId group new g hnew hg entry hmem lease hlease => ?_,
    fun _ _ h => ⟨h, fun _ h => h⟩, fun _ _ _ => .rfl⟩
  · change Function.update s.streams key stream (.output workerId) = some new at hnew
    by_cases hkey : .output workerId = key
    · subst hkey
      rw [Function.update_self] at hnew
      exact hunread new hnew rfl group g hg entry hmem lease hlease
    · rw [Function.update_of_ne hkey] at hnew
      exact ⟨new, g, hnew, hg, hmem⟩

theorem Calm.touch (key : StreamKey) : Calm t s (s.touch key) := .still rfl rfl fun _ _ h => h

theorem Calm.record {event : Event} (h : ∀ own origin, event ≠ .returned own origin) : Calm t s (s.record event) := by
  refine .still rfl rfl fun own origin hmem => ?_
  rcases List.mem_cons.mp hmem with heq | hmem
  · exact absurd heq.symm (h own origin)
  · exact hmem

theorem Calm.dropStream (key : StreamKey) : Calm t s (s.setStream key none) :=
  .setStream fun _ h => nomatch h

theorem Calm.setGroup {stream : Stream Payload} {name : String} {g : Option Group}
    (hs : s.streams key = some stream)
    (hg : ∀ g', g = some g' → ∃ old, stream.groups name = some old ∧ old.lastDelivered ≤ g'.lastDelivered) :
    Calm t s (s.setStream key (some (stream.setGroup name g))) := by
  refine .setStream fun new hnew _ group g' hg' entry hmem _ _ => ?_
  cases hnew
  obtain ⟨hentry, hlast⟩ := Stream.mem_unread.mp hmem
  by_cases hname : group = name
  · subst hname
    rw [Stream.setGroup_self] at hg'
    obtain ⟨old, hold, hle⟩ := hg g' hg'
    exact ⟨stream, old, hs, hold, Stream.mem_unread.mpr ⟨hentry, Nat.lt_of_le_of_lt hle hlast⟩⟩
  · rw [Stream.setGroup_of_ne _ hname] at hg'
    exact ⟨stream, g', hs, hg', Stream.mem_unread.mpr ⟨hentry, hlast⟩⟩

theorem xgroupDestroy_calm (key : StreamKey) (group : String) : Calm t s (s.xgroupDestroy key group).2 := by
  unfold State.xgroupDestroy
  split
  · exact .refl t s
  · next stream hs =>
    have hdropped : Calm t s (s.setStream key (some (stream.setGroup group none))) := .setGroup hs fun _ h => nomatch h
    exact hdropped.trans (.touch key)

theorem xreadgroup_calm (key : StreamKey) (group consumer : String) : Calm t s (s.xreadgroup t key group consumer).2 := by
  unfold State.xreadgroup
  split
  · exact .touch key
  · next stream g hfound =>
    split
    · exact .touch key
    · next entryId payload hhead =>
      obtain ⟨old, hold, hgroup⟩ := Option.bind_eq_some_iff.mp hfound
      obtain ⟨g', hg', heq⟩ := Option.map_eq_some_iff.mp hgroup
      cases heq
      have hlast : g.lastDelivered < entryId := (Stream.mem_unread.mp (List.mem_of_head? hhead)).2
      have hdelivered : Calm t s (s.setStream key (some (stream.deliver group g entryId))) :=
        .setGroup hold fun _ heq => ⟨g, hg', by cases heq; exact Nat.le_of_lt hlast⟩
      have hread := hdelivered.trans (.touch key)
      cases t with
      | lease n => exact hread.trans (.trans (.intend rfl) (.record fun _ _ h => nomatch h))
      | _ => exact hread

theorem xack_calm (key : StreamKey) (group : String) (entryId : Nat) (account : String) :
    Calm t s (s.xack t key group entryId account).2 := by
  have hacked : Calm t s (match s.streams key with
      | none => s
      | some stream => s.setStream key (some (stream.acknowledge group entryId))) := by
    split
    · exact .refl t s
    · next stream hs =>
      refine .setGroup hs fun g' hg' => ?_
      obtain ⟨g, hg, rfl⟩ := Option.map_eq_some_iff.mp hg'
      exact ⟨g, hg, Nat.le_refl _⟩
  unfold State.xack
  cases t with
  | submit n => exact hacked.trans (.trans (.touch key) (.record fun _ _ h => nomatch h))
  | waiter n => exact hacked.trans (.trans (.touch key) .hears)
  | _ => exact hacked.trans (.touch key)

theorem add_unread {payload : Payload} {excess : Nat} {workerId group : String} {stream : Stream Payload}
    {g : Group} {entry : Nat × Payload}
    (hs : (s.setStream key (some (((s.streams key).getD .empty).add s.nextId payload excess))).streams (.output workerId) =
      some stream)
    (hg : stream.groups group = some g) (hmem : entry ∈ stream.unread g) :
    (∃ old, s.streams (.output workerId) = some old ∧ old.groups group = some g ∧ entry ∈ old.unread g) ∨
      key = .output workerId ∧ entry.2 = payload := by
  change Function.update s.streams key _ (.output workerId) = some stream at hs
  by_cases hkey : .output workerId = key
  · subst hkey
    rw [Function.update_self] at hs
    cases hs
    obtain ⟨hentry, hlast⟩ := Stream.mem_unread.mp hmem
    rcases Stream.mem_add hentry with hold | rfl
    · left
      cases hstream : s.streams (.output workerId) with
      | none =>
        rw [hstream] at hold
        cases hold
      | some old =>
        rw [hstream] at hold hg
        exact ⟨old, rfl, hg, Stream.mem_unread.mpr ⟨hold, hlast⟩⟩
    · exact .inr ⟨rfl, rfl⟩
  · rw [Function.update_of_ne hkey] at hs
    exact .inl ⟨stream, hs, hg, hmem⟩

theorem add_calm {payload : Payload} {excess : Nat} (h : payload.lease = none) :
    Calm t s { ((s.setStream key (some (((s.streams key).getD .empty).add s.nextId payload excess))).touch key) with
      nextId := s.nextId + 1 } := by
  refine ⟨fun _ _ h => h, fun workerId group stream g hs hg entry hmem lease hlease => ?_,
    fun _ _ h => ⟨h, fun _ h => h⟩, fun _ _ _ => .rfl⟩
  rcases add_unread hs hg hmem with ⟨old, hold, hg', hmem'⟩ | ⟨_, heq⟩
  · exact ⟨old, g, hold, hg', hmem'⟩
  · rw [heq, h] at hlease
    cases hlease

end Steps

structure OutputInv (s : State) : Prop where
  own : OwnOutputs s
  apart : Apart s

def outputRules : Rules turnsWorld where
  admits := undisturbed
  inv := OutputInv
  rely t s s' := ∀ intent, (t, intent) ∈ s'.intents ↔ (t, intent) ∈ s.intents
  rely_refl _ _ _ := .rfl
  rely_trans h h' intent := (h' intent).trans (h intent)
  rest t s := ∀ intent, (t, intent) ∉ s.intents
  rest_stable _ hr hrest intent hmem := hrest intent ((hr intent).mp hmem)

section Waiting

variable {t : Party} {s s' : State} {A : Type} {reply : Reply}

theorem Calm.keeps (h : Calm t s s') (hi : OutputInv s) : outputRules.Keeps t s s' := by
  refine ⟨⟨fun own lease hmem => hi.own own lease (h.trace own _ hmem), ?_⟩, fun u hu intent => h.others u intent hu⟩
  intro u workerId group hawaits stream g hs hg entry hmem lease hlease
  obtain ⟨stream', g', hs', hg', hmem'⟩ := h.unread workerId group stream g hs hg entry hmem lease hlease
  by_cases hu : u = t
  · subst hu
    obtain ⟨hold, hsent⟩ := h.own workerId group hawaits
    exact hsent lease (hi.apart u workerId group hold stream' g' hs' hg' entry hmem' lease hlease)
  · have hold := (h.others u _ hu).mp hawaits
    exact (h.others u _ hu).mpr (hi.apart u workerId group hold stream' g' hs' hg' entry hmem' lease hlease)

theorem serve_calm {exec : State → Except Exn A × State} (fate : Fate Exn) (hi : OutputInv s)
    (h : fate.carriedOut = true → outputRules.Keeps t s (exec s).2) : outputRules.Keeps t s (fate.serve exec s).2 := by
  cases fate with
  | unsent e => exact .refl _ hi
  | _ => exact h rfl

theorem forget_calm (workerId : String) : Calm t s (s.forget workerId) := .still rfl rfl fun _ _ h => h

theorem createGroup_calm {key : StreamKey} {group : String} {start : GroupStart} (hnew : s.hasGroup key group = false)
    (hahead : key.isOutput = true → ∀ entry ∈ s.ahead key group start, entry.2.lease = none) :
    Calm t s (s.createGroup key group start) := by
  refine .trans (.setStream fun new hcreated houtput name g hg entry hmem lease hlease => ?_) (.touch key)
  cases hcreated
  obtain ⟨hentry, hlast⟩ := Stream.mem_unread.mp hmem
  unfold State.ahead at hahead
  unfold State.hasGroup at hnew
  cases hs : s.streams key with
  | none =>
    rw [hs] at hentry
    cases hentry
  | some stream =>
    simp only [hs, Option.getD_some, Option.any_some] at hg hentry hnew hahead
    by_cases hname : name = group
    · subst hname
      rw [Stream.setGroup_self, Option.some.injEq] at hg
      subst hg
      rw [Option.isSome_eq_false_iff, Option.isNone_iff_eq_none] at hnew
      rw [hnew] at hahead
      cases hlease.symm.trans (hahead houtput entry (Stream.mem_unread.mpr ⟨hentry, hlast⟩))
    · rw [Stream.setGroup_of_ne _ hname] at hg
      exact ⟨stream, g, rfl, hg, Stream.mem_unread.mpr ⟨hentry, hlast⟩⟩

theorem awaits_keeps {key : StreamKey} {group : String} (hi : OutputInv s)
    (hahead : key.isOutput = true → ∀ stream g, s.streams key = some stream → stream.groups group = some g →
      ∀ entry ∈ stream.unread g, ∀ lease ∈ entry.2.lease, t.waits = true → (t, Intent.sent lease) ∈ s.intents) :
    outputRules.Keeps t s (s.awaits t key group) := by
  unfold State.awaits
  split
  · next n workerId =>
    refine ⟨⟨hi.own, fun u id name hmem stream g hs hg entry hentry lease hlease => ?_⟩,
      fun u hu intent => by simp [State.intend, hu]⟩
    rcases List.mem_cons.mp hmem with heq | hmem
    · cases heq
      exact List.mem_cons_of_mem _ (hahead rfl stream g hs hg entry hentry lease hlease rfl)
    · exact List.mem_cons_of_mem _ (hi.apart u id name hmem stream g hs hg entry hentry lease hlease)
  · exact .refl _ hi

theorem opens_calm (key : StreamKey) (group : String) : Calm t s (s.opens t key group) := by
  unfold State.opens
  split
  · exact .still rfl rfl fun _ _ h => h
  · exact .refl t s

theorem opens_streams (key : StreamKey) (group : String) : (s.opens t key group).streams = s.streams := by
  unfold State.opens
  split <;> rfl

theorem opens_intents (key : StreamKey) (group : String) : (s.opens t key group).intents = s.intents := by
  unfold State.opens
  split <;> rfl

theorem xgroupCreate_output (key : StreamKey) (group : String) (start : GroupStart) (hi : OutputInv s)
    (hahead : key.isOutput = true → ∀ entry ∈ s.ahead key group start, ∀ lease ∈ entry.2.lease,
      s.hasGroup key group = true ∧ (t.waits = true → (t, Intent.sent lease) ∈ s.intents)) :
    outputRules.Keeps t s (s.xgroupCreate t key group start).2 := by
  unfold State.xgroupCreate
  split
  · have hopened : Calm t s ((s.touch key).opens t key group) := (Calm.touch key).trans (opens_calm key group)
    refine (hopened.keeps hi).trans (awaits_keeps (hopened.keeps hi).inv fun houtput stream g hs hg entry hmem lease hlease => ?_)
    rw [opens_streams] at hs
    rw [opens_intents]
    change s.streams key = some stream at hs
    have hentry : entry ∈ s.ahead key group start := by
      unfold State.ahead
      rw [hs]
      dsimp only
      rwa [hg]
    exact (hahead houtput entry hentry lease hlease).2
  · next hbusy =>
    have hnew : s.hasGroup key group = false := Bool.eq_false_iff.mpr hbusy
    have hcreated : Calm t s (s.createGroup key group start) := createGroup_calm hnew fun houtput entry hmem => by
      cases hlease : entry.2.lease with
      | none => rfl
      | some lease => exact absurd (hahead houtput entry hmem lease hlease).1 hbusy
    have hopened : Calm t s ((s.createGroup key group start).opens t key group) := hcreated.trans (opens_calm key group)
    refine (hopened.keeps hi).trans (awaits_keeps (hopened.keeps hi).inv fun houtput stream g hs hg entry hmem lease hlease => ?_)
    cases key with
    | output workerId =>
      obtain ⟨old, g', hold, hg', _⟩ := hopened.unread workerId group stream g hs hg entry hmem lease hlease
      exact absurd (hasGroup_iff.mpr ⟨old, hold, by rw [hg']; rfl⟩) hbusy
    | _ => cases houtput

theorem xadd_output (key : StreamKey) (payload : Payload) (maxlen : Option Nat) (account : String) (trimmed : Nat) (hi : OutputInv s)
    (hown : ∀ lease ∈ payload.lease, ∀ waiting ∈ s.intents, waiting.2.awaitsOn key = true →
      (waiting.1, Intent.sent lease) ∈ s.intents) :
    outputRules.Keeps t s (s.xadd t key payload maxlen account trimmed).2 := by
  have hadded (excess : Nat) : outputRules.Keeps t s
      { ((s.setStream key (some (((s.streams key).getD .empty).add s.nextId payload excess))).touch key) with
        nextId := s.nextId + 1 } := by
    refine ⟨⟨hi.own, fun u workerId group hawaits stream g hs hg entry hmem lease hlease => ?_⟩, fun _ _ _ => .rfl⟩
    rcases add_unread hs hg hmem with ⟨old, hold, hg', hmem'⟩ | ⟨rfl, heq⟩
    · exact hi.apart u workerId group hawaits old g hold hg' entry hmem' lease hlease
    · exact hown lease (heq ▸ hlease) _ hawaits (decide_eq_true rfl)
  unfold State.xadd
  dsimp only
  split
  · exact (hadded _).trans (Calm.keeps (.record fun _ _ h => nomatch h) (hadded _).inv)
  · exact (hadded _).trans (Calm.keeps (.intend rfl) (hadded _).inv)
  · exact hadded _

theorem outside_calm (change : OutsideChange) : Calm t s (change.apply s) := by
  cases change with
  | removeWorker workerId =>
    exact ((forget_calm workerId).trans (.dropStream (.input workerId))).trans (.dropStream (.output workerId))
  | deathNotice workerId exitCode | publish key data => exact add_calm rfl
  | read key => exact .touch key
  | _ => exact .still rfl rfl fun _ _ h => h

theorem idletime_calm (key : StreamKey) (limit : Nat) : Calm t s (s.idletime t key limit).2 := by
  unfold State.idletime
  split
  · exact .refl t s
  · dsimp only
    split
    · exact Calm.settle.trans (.intend rfl)
    · exact .settle

theorem run_output {op : Op} (hi : OutputInv s) (hundisturbed : undisturbed s (.call t op reply)) :
    outputRules.Keeps t s (run t op reply s).2 := by
  cases op with
  | writeCredential workerId credential =>
    have hwritten : Calm t s (s.writeCredential workerId credential).2 := .still rfl rfl fun _ _ h => h
    exact (hwritten.serve reply.fate).keeps hi
  | readCredential workerId => exact ((Calm.refl t s).serve reply.fate).keeps hi
  | deleteWorkerKeys workerId =>
    let exec (s : State) : Except Exn Unit × State := (.ok (), s.forget workerId)
    have hforgot : Calm t s (exec s).2 := forget_calm workerId
    exact (hforgot.serve reply.fate).keeps hi
  | xgroupCreate key group start =>
    exact serve_calm reply.fate hi fun hcarried =>
      xgroupCreate_output key group start hi fun houtput => hundisturbed.2 houtput hcarried
  | xgroupDestroy key group => exact ((xgroupDestroy_calm key group).serve reply.fate).keeps hi
  | xreadgroup key group consumer => exact ((xreadgroup_calm key group consumer).serve reply.fate).keeps hi
  | xadd key payload maxlen account =>
    exact serve_calm reply.fate hi fun hcarried => xadd_output key payload maxlen account reply.trimmed hi (hundisturbed hcarried)
  | xack key group entryId account => exact ((xack_calm key group entryId account).serve reply.fate).keeps hi
  | writeTurn workerId turn =>
    let exec (s : State) : Except Exn Unit × State := (.ok (), { s with turns := Function.update s.turns workerId (some turn) })
    have hwritten : Calm t s (exec s).2 := .still rfl rfl fun _ _ h => h
    exact (hwritten.serve reply.fate).keeps hi
  | readTurn workerId lease =>
    refine (Calm.serve reply.fate ?_).keeps hi
    unfold State.readTurn
    split
    · exact .refl t s
    · dsimp only
      split
      · exact .intend rfl
      · exact .refl t s
  | deleteTurn workerId lease =>
    have hgone : Calm t s { s with turns := Function.update s.turns workerId none } := .still rfl rfl fun _ _ h => h
    have hcleared : Calm t s (State.record { s with turns := Function.update s.turns workerId none }
        (.cleared workerId lease (s.turns workerId))) := hgone.trans (.record fun _ _ h => nomatch h)
    exact ((hcleared.trans .settle).serve reply.fate).keeps hi
  | answer workerId lease =>
    have hgiven : Calm t s { s with held := Function.update s.held workerId (lease :: s.held workerId) } :=
      .still rfl rfl fun _ _ h => h
    exact ((hgiven.trans .settle).serve reply.fate).keeps hi
  | scan pattern => exact ((Calm.refl t s).serve reply.fate).keeps hi
  | idletime key limit => exact ((idletime_calm key limit).serve reply.fate).keeps hi
  | delete key =>
    have hdropped : Calm t s (State.record (s.setStream key none) (.swept key (s.inUse key))) :=
      (Calm.dropStream key).trans (.record fun _ _ h => nomatch h)
    exact ((hdropped.trans .settle).serve reply.fate).keeps hi
  | outside => exact (outside_calm reply.change).keeps hi
  | _ => exact .refl _ hi

theorem any_safe (p : Job A) (hi : OutputInv s) : outputRules.Safe t (fun _ _ => True) p s := by
  induction p generalizing s with
  | ret a | raise e => trivial
  | call op next ih =>
    intro s' hi' _ reply hundisturbed
    have hkeeps := run_output hi' hundisturbed
    exact ⟨hkeeps, ih _ hkeeps.inv⟩

def Unsent (t : Party) (s : State) : Prop := ∀ lease, (t, Intent.sent lease) ∉ s.intents

structure Waits (t : Party) (workerId group : String) (s : State) : Prop where
  awaits : (t, Intent.awaits workerId group) ∈ s.intents
  once : ∀ lease other, (t, Intent.sent lease) ∈ s.intents → (t, Intent.sent other) ∈ s.intents → other = lease

def Claims (t : Party) (origin : Option Nat) (s : State) : Prop :=
  ∀ lease ∈ origin, (t, Intent.sent lease) ∈ s.intents ∧ ∀ other, (t, Intent.sent other) ∈ s.intents → other = lease

theorem Claims.none : Claims t none s := fun _ h => nomatch h

theorem Claims.own {lease : Nat} (h : Claims t (some lease) s) : s.own t = some lease := by
  obtain ⟨hsent, honly⟩ := h lease rfl
  unfold State.own
  cases hfound : s.intents.find? fun entry => entry.1 = t && entry.2.own.isSome with
  | none =>
    have hnot := List.find?_eq_none.mp hfound _ hsent
    simp [Intent.own] at hnot
  | some entry =>
    obtain ⟨u, intent⟩ := entry
    have hentry := List.find?_some hfound
    have hmem := List.mem_of_find?_eq_some hfound
    simp only [Bool.and_eq_true, decide_eq_true_eq] at hentry
    obtain ⟨rfl, hown⟩ := hentry
    cases intent with
    | sent other => exact congrArg some (honly other hmem)
    | _ => cases hown

theorem unsent_stable : outputRules.Stable t (Unsent t) := fun _ _ _ hr h lease hmem => h lease ((hr _).mp hmem)

variable {workerId group : String}

theorem waits_stable : outputRules.Stable t (Waits t workerId group) := fun _ _ _ hr h =>
  ⟨(hr _).mpr h.awaits, fun lease other hlease hother => h.once lease other ((hr _).mp hlease) ((hr _).mp hother)⟩

theorem claims_stable {origin : Option Nat} : outputRules.Stable t (Claims t origin) := fun _ _ _ hr h lease hlease =>
  ⟨(hr _).mpr (h lease hlease).1, fun other hmem => (h lease hlease).2 other ((hr _).mp hmem)⟩

theorem waits_of_intents (h : s'.intents = s.intents) (hwaits : Waits t workerId group s) :
    Waits t workerId group s' := by
  refine ⟨?_, ?_⟩
  · rw [h]
    exact hwaits.awaits
  · rw [h]
    exact hwaits.once

theorem claims_of_intents {origin : Option Nat} (h : s'.intents = s.intents) (hclaims : Claims t origin s) :
    Claims t origin s' := by
  unfold Claims
  rw [h]
  exact hclaims

theorem serve_intents {exec : State → Except Exn A × State} (fate : Fate Exn) (h : (exec s).2.intents = s.intents) :
    (fate.serve exec s).2.intents = s.intents := by
  cases fate with
  | unsent e => rfl
  | _ => exact h

theorem xgroupCreate_intents (n : Nat) (workerId group : String) (start : GroupStart) :
    (s.xgroupCreate (.waiter n) (.output workerId) group start).2.intents =
      (.waiter n, .awaits workerId group) :: s.intents := by
  unfold State.xgroupCreate
  split <;> rfl

theorem xgroupDestroy_intents (key : StreamKey) (group : String) : (s.xgroupDestroy key group).2.intents = s.intents := by
  unfold State.xgroupDestroy
  split <;> rfl

theorem xreadgroup_intents (n : Nat) (key : StreamKey) (group consumer : String) :
    (s.xreadgroup (.waiter n) key group consumer).2.intents = s.intents := by
  unfold State.xreadgroup
  split
  · rfl
  · split <;> rfl

theorem xadd_intents (n : Nat) (key : StreamKey) (payload : Payload) (maxlen : Option Nat) (account : String) (trimmed : Nat) :
    (s.xadd (.waiter n) key payload maxlen account trimmed).2.intents = (.waiter n, .sent s.nextId) :: s.intents := rfl

theorem ask_maintains {P : State → Prop} (call : ServiceCall) (hst : outputRules.Stable t P) :
    outputRules.Maintains t P (ask call) :=
  .perform hst fun _ hi hP _ _ => ⟨.refl _ hi, hP⟩

theorem exceptException_safe {p : Job A} {handler : Exn → Job A} {post : Except Exn A → State → Prop} (hi : OutputInv s)
    (hp : outputRules.Safe t post p s) (hh : ∀ e s, OutputInv s → post (.error e) s → outputRules.Safe t post (handler e) s) :
    outputRules.Safe t post (exceptException p handler) s := by
  refine Safe.handle hi hp (fun _ _ _ h => h) fun e s hi h => ?_
  split
  · exact h
  · exact hh e s hi h

theorem createOutputGroup_safe (request : WaitRequest) (n : Nat) (hi : OutputInv s) (hunsent : Unsent (.waiter n) s) :
    outputRules.Safe (.waiter n) (fun r s => Unsent (.waiter n) s ∧
      (r = .ok () → (Party.waiter n, Intent.awaits request.workerId request.groupName) ∈ s.intents)) (createOutputGroup request) s := by
  have hcreated (start : GroupStart) : outputRules.Safe (.waiter n) (fun r s => Unsent (.waiter n) s ∧
      (r = .ok () ∨ r = .error .busyGroup → (Party.waiter n, Intent.awaits request.workerId request.groupName) ∈ s.intents))
      (xgroupCreate (.output request.workerId) request.groupName start) s := by
    refine Safe.perform fun s' hi' hr reply hundisturbed => ⟨run_output hi' hundisturbed, ?_⟩
    have hunsent' := unsent_stable _ _ hi' hr hunsent
    have htold : reply.fate.told ≠ some .busyGroup := hundisturbed.1 rfl
    have hserved : Unsent (.waiter n) (s'.xgroupCreate (.waiter n) (.output request.workerId) request.groupName start).2 := by
      intro lease hmem
      rw [xgroupCreate_intents] at hmem
      rcases List.mem_cons.mp hmem with heq | hmem
      · cases heq
      · exact hunsent' lease hmem
    simp only [run]
    cases hfate : reply.fate with
    | served =>
      refine ⟨hserved, fun _ => ?_⟩
      change _ ∈ (s'.xgroupCreate (.waiter n) (.output request.workerId) request.groupName start).2.intents
      rw [xgroupCreate_intents]
      exact List.mem_cons_self
    | unheard e =>
      refine ⟨hserved, fun h => ?_⟩
      rcases h with h | h
      · cases h
      · cases h
        exact absurd (hfate ▸ rfl) htold
    | unsent e =>
      refine ⟨hunsent', fun h => ?_⟩
      rcases h with h | h
      · cases h
      · cases h
        exact absurd (hfate ▸ rfl) htold
  refine Safe.handle hi (hcreated _) (fun _ s _ h => ⟨h.1, fun _ => h.2 (.inl rfl)⟩) fun e s hi h => ?_
  split
  · next hbusy => exact ⟨h.1, fun _ => h.2 (.inr (congrArg _ hbusy))⟩
  · exact ⟨h.1, fun h => nomatch h⟩

theorem sendTurn_safe (request : WaitRequest) (n : Nat) (hi : OutputInv s) (hunsent : Unsent (.waiter n) s)
    (hawaits : (Party.waiter n, Intent.awaits workerId group) ∈ s.intents) :
    outputRules.Safe (.waiter n) (fun _ => Waits (.waiter n) workerId group) (sendTurn request) s := by
  refine Safe.bind (M := fun _ => Waits (.waiter n) workerId group) hi
    (Safe.perform fun s' hi' hr reply hundisturbed => ⟨run_output hi' hundisturbed, ?_⟩) (fun _ _ _ h => h) fun _ _ _ h => h
  have hunsent' := unsent_stable _ _ hi' hr hunsent
  have hbefore : Waits (.waiter n) workerId group s' :=
    ⟨(hr _).mpr hawaits, fun lease _ hlease => absurd hlease (hunsent' lease)⟩
  have hafter : Waits (.waiter n) workerId group (s'.xadd (.waiter n) (.input request.workerId) (.turn (turnOf request))
      (some defaultStreamMaxlen) request.workerId reply.trimmed).2 := by
    have hsent (lease : Nat) (hmem : (Party.waiter n, Intent.sent lease) ∈ (s'.xadd (.waiter n) (.input request.workerId)
        (.turn (turnOf request)) (some defaultStreamMaxlen) request.workerId reply.trimmed).2.intents) : lease = s'.nextId := by
      rw [xadd_intents] at hmem
      rcases List.mem_cons.mp hmem with heq | hmem
      · cases heq
        rfl
      · exact absurd hmem (hunsent' lease)
    refine ⟨?_, fun lease other hlease hother => (hsent other hother).trans (hsent lease hlease).symm⟩
    rw [xadd_intents]
    exact List.mem_cons_of_mem _ hbefore.awaits
  simp only [run]
  cases reply.fate with
  | unsent e => exact hbefore
  | _ => exact hafter

theorem readOutput_safe (consumer : String) (n : Nat) (hwaits : Waits (.waiter n) workerId group s) :
    outputRules.Safe (.waiter n) (fun r s => Waits (.waiter n) workerId group s ∧
      ∀ entryId payload, r = .ok (some (entryId, payload)) → Claims (.waiter n) payload.lease s)
      (xreadgroup (.output workerId) group consumer) s := by
  refine Safe.perform fun s' hi' hr reply hundisturbed => ⟨run_output hi' hundisturbed, ?_⟩
  have hwaits' := waits_stable _ _ hi' hr hwaits
  have hintents := serve_intents reply.fate (xreadgroup_intents (s := s') n (.output workerId) group consumer)
  refine ⟨waits_of_intents hintents hwaits', fun entryId payload heq => claims_of_intents hintents fun lease hlease => ?_⟩
  have hsent : (Party.waiter n, Intent.sent lease) ∈ s'.intents := by
    have hread := congrArg Prod.fst (Fate.serve_ok (Prod.ext heq rfl))
    unfold State.xreadgroup at hread
    split at hread
    · cases hread
    · next stream g hfound =>
      split at hread
      · cases hread
      · next id body hhead =>
        obtain ⟨old, hold, hgroup⟩ := Option.bind_eq_some_iff.mp hfound
        obtain ⟨g', hg', hpair⟩ := Option.map_eq_some_iff.mp hgroup
        cases hpair
        cases hread
        exact hi'.apart _ workerId group hwaits'.awaits stream g hold hg' _ (List.mem_of_head? hhead) lease hlease
  exact ⟨hsent, fun other hother => hwaits'.once lease other hsent hother⟩

def Heard.origin : Heard → Option Nat
  | .output _ origin => origin
  | _ => none

theorem heardOf_origin {payload : Payload} (h : Claims t payload.lease s) : Claims t (heardOf payload).origin s := by
  cases payload with
  | result result lease => exact h
  | noObject truthy => cases truthy <;> exact .none
  | _ => exact .none

theorem recreateGroup_maintains (workerId group : String) (n : Nat) :
    outputRules.Maintains (.waiter n) (Waits (.waiter n) workerId group) (recreateGroup (.output workerId) group) := by
  refine .handle (.perform waits_stable fun s hi hwaits reply hundisturbed => ⟨run_output hi hundisturbed, ?_⟩) fun e => ?_
  · have hafter : Waits (.waiter n) workerId group (s.xgroupCreate (.waiter n) (.output workerId) group .lastEntry).2 := by
      have hsent (lease : Nat) (hmem : (Party.waiter n, Intent.sent lease) ∈
          (s.xgroupCreate (.waiter n) (.output workerId) group .lastEntry).2.intents) :
          (Party.waiter n, Intent.sent lease) ∈ s.intents := by
        rw [xgroupCreate_intents] at hmem
        rcases List.mem_cons.mp hmem with heq | hmem
        · cases heq
        · exact hmem
      refine ⟨?_, fun lease other hlease hother => hwaits.once lease other (hsent lease hlease) (hsent other hother)⟩
      rw [xgroupCreate_intents]
      exact List.mem_cons_self
    simp only [run]
    cases reply.fate with
    | unsent e => exact hwaits
    | _ => exact hafter
  · split
    · exact .ret ()
    · exact .raise e

theorem acknowledgeOutput_maintains (key : StreamKey) (group : String) (entryId n : Nat) (account : String) (origin : Option Nat) :
    outputRules.Maintains (.waiter n) (Claims (.waiter n) origin) (xack key group entryId account) := by
  refine .perform claims_stable fun s hi hclaims reply hundisturbed => ⟨run_output hi hundisturbed, ?_⟩
  have hacked : Claims (.waiter n) origin (s.xack (.waiter n) key group entryId account).2 := by
    intro lease hlease
    obtain ⟨hsent, honly⟩ := hclaims lease hlease
    have hmem (other : Nat) : (Party.waiter n, Intent.sent other) ∈ (s.xack (.waiter n) key group entryId account).2.intents ↔
        (Party.waiter n, Intent.sent other) ∈ s.intents := by
      unfold State.xack
      dsimp only
      rw [mem_hears]
      split <;> simp [State.touch, State.setStream, Intent.isWaiting]
    exact ⟨(hmem lease).mpr hsent, fun other hother => honly other ((hmem other).mp hother)⟩
  simp only [run]
  cases reply.fate with
  | unsent e => exact hclaims
  | _ => exact hacked

def Received (n : Nat) (workerId group : String) : Option (Option (Nat × Payload)) → State → Prop
  | some (some (_, payload)), s => Claims (.waiter n) payload.lease s
  | _, s => Waits (.waiter n) workerId group s

theorem waitForResponse_safe (workerId group consumer : String) (rounds n : Nat) (hi : OutputInv s)
    (hwaits : Waits (.waiter n) workerId group s) :
    outputRules.Safe (.waiter n) (fun r s => ∀ heard, r = .ok heard → Claims (.waiter n) heard.origin s)
      (waitForResponse (.output workerId) group consumer workerId rounds) s := by
  induction rounds generalizing s with
  | zero =>
    intro heard heq
    cases heq
    exact .none
  | succ rounds ih =>
    have halive : outputRules.Maintains (.waiter n) (Waits (.waiter n) workerId group)
        (exceptException (ask (.foundDead workerId)) fun _ => .ret false) := fun s hi hwaits =>
      exceptException_safe hi (ask_maintains _ waits_stable s hi hwaits) fun _ _ _ h => h
    refine Safe.bind hi (halive s hi hwaits) (fun dead s hi hwaits => ?_) fun _ _ _ _ _ heq => by cases heq
    split
    · intro heard heq
      cases heq
      exact .none
    · have hread : outputRules.Safe (.waiter n) (fun r s => (∀ e, r = .error e → e = .noGroup → Waits (.waiter n) workerId group s) ∧
          ∀ entry, r = .ok entry → Received n workerId group entry s)
          (do return some (← xreadgroup (.output workerId) group consumer)) s := by
        refine Safe.bind hi (readOutput_safe consumer n hwaits) (fun entry s hi h => ⟨by rintro _ ⟨⟩, fun _ heq => ?_⟩)
          fun e s hi h => ⟨fun _ _ _ => h.1, by rintro _ ⟨⟩⟩
        cases heq
        rcases entry with _ | ⟨entryId, payload⟩
        · exact h.1
        · exact h.2 entryId payload rfl
      refine Safe.bind (M := fun r s => ∀ entry, r = .ok entry → Received n workerId group entry s) hi (Safe.handle hi hread (fun _ _ _ h => h.2) fun e s hi h => ?_)
        (fun entry s hi h => ?_) fun _ _ _ _ _ heq => by cases heq
      · split
        · next hgone =>
          intro entry heq
          cases heq
          exact h.1 e rfl hgone
        · rintro _ ⟨⟩
      · rcases entry with _ | _ | ⟨entryId, payload⟩
        · exact Safe.bind hi (recreateGroup_maintains workerId group n s hi (h none rfl)) (fun _ s hi hwaits => ih hi hwaits)
            fun _ _ _ _ _ heq => by cases heq
        · exact ih hi (h _ rfl)
        · refine Safe.bind hi (acknowledgeOutput_maintains _ group entryId n workerId payload.lease s hi (h _ rfl))
            (fun _ s hi hclaims heard heq => ?_) fun _ _ _ _ _ heq => by cases heq
          cases heq
          exact heardOf_origin hclaims

def Tells (t : Party) (r : Except Exn SpawnResult) (s : State) : Prop := ∀ result, r = .ok result → Claims t result.origin s

theorem Tells.error (e : Exn) : Tells t (.error e) s := fun _ h => nomatch h

theorem Tells.plain {result : SpawnResult} (h : result.origin = none) : Tells t (.ok result) s := by
  rintro _ ⟨⟩
  rw [h]
  exact .none

theorem conclude_safe (request : WaitRequest) {heard : Heard} (n : Nat) (hi : OutputInv s)
    (hclaims : Claims (.waiter n) heard.origin s) :
    outputRules.Safe (.waiter n) (Tells (.waiter n)) (conclude request heard) s := by
  cases heard with
  | output result origin =>
    rintro _ ⟨⟩
    cases result <;> exact hclaims
  | nothing =>
    unfold conclude
    dsimp only
    split
    · exact .plain rfl
    · exact Safe.bind hi (any_safe _ hi) (fun _ _ _ _ => .plain rfl) fun _ _ _ _ => .error _
  | _ => exact .plain rfl

theorem takeTurn_safe (request : WaitRequest) (n : Nat) (hi : OutputInv s) (hunsent : Unsent (.waiter n) s) :
    outputRules.Safe (.waiter n) (Tells (.waiter n)) (takeTurn request) s := by
  refine Safe.bind hi (createOutputGroup_safe request n hi hunsent) (fun _ s hi hcreated => ?_) fun _ _ _ _ => .error _
  have hawaits := hcreated.2 rfl
  have hrecorded : outputRules.Maintains (.waiter n) (fun s => Unsent (.waiter n) s ∧
      (Party.waiter n, Intent.awaits request.workerId request.groupName) ∈ s.intents)
      (ask (.recordTurnOnAttempt request.attemptId request.requestId)) :=
    ask_maintains _ fun s s' hi hr h => ⟨unsent_stable s s' hi hr h.1, (hr _).mpr h.2⟩
  refine Safe.bind hi (hrecorded s hi ⟨hcreated.1, hawaits⟩) (fun _ s hi h => ?_) fun _ _ _ _ => .error _
  refine Safe.bind hi (sendTurn_safe request n hi h.1 h.2) (fun _ s hi hwaits => ?_) fun _ _ _ _ => .error _
  refine Safe.bind hi (waitForResponse_safe _ _ _ _ n hi hwaits) (fun heard s hi hheard => ?_) fun _ _ _ _ => .error _
  exact conclude_safe request n hi (hheard heard rfl)

theorem destroyGroup_maintains (request : WaitRequest) (n : Nat) (origin : Option Nat) :
    outputRules.Maintains (.waiter n) (Claims (.waiter n) origin) (destroyGroup request) := by
  have hdestroyed : outputRules.Maintains (.waiter n) (Claims (.waiter n) origin)
      (perform (.xgroupDestroy (.output request.workerId) request.groupName)) :=
    .perform claims_stable fun s hi hclaims reply hundisturbed =>
      ⟨run_output hi hundisturbed, claims_of_intents (serve_intents reply.fate (xgroupDestroy_intents ..)) hclaims⟩
  exact fun s hi hclaims => exceptException_safe hi (hdestroyed s hi hclaims) fun _ _ _ h => h

theorem guardedTurn_safe (request : WaitRequest) {turn : Job SpawnResult} (n : Nat) (hi : OutputInv s)
    (hturn : outputRules.Safe (.waiter n) (Tells (.waiter n)) turn s) :
    outputRules.Safe (.waiter n) (Tells (.waiter n)) (guardedTurn request turn) s := by
  refine Safe.ensuring hi (exceptException_safe hi hturn fun e s hi _ => ?_) fun r s hi htells => ?_
  · unfold turnFailed
    split
    · exact .plain rfl
    · exact Safe.bind hi (any_safe _ hi) (fun _ _ _ _ => .plain rfl) fun _ _ _ _ => .error _
  · cases r with
    | error e =>
      refine (any_safe _ hi).conseq hi fun d s _ _ => ?_
      cases d <;> exact .error _
    | ok result =>
      refine (destroyGroup_maintains request n result.origin s hi (htells result rfl)).conseq hi fun d s _ hclaims => ?_
      cases d with
      | error e => exact .error _
      | ok _ =>
        rintro _ ⟨⟩
        exact hclaims

theorem waitForTurn_safe (request : WaitRequest) (n : Nat) (hi : OutputInv s) (hunsent : Unsent (.waiter n) s) :
    outputRules.Safe (.waiter n) (Tells (.waiter n)) (waitForTurn request) s := by
  unfold waitForTurn
  split
  · refine guardedTurn_safe request n hi ?_
    refine Safe.bind hi (ask_maintains _ unsent_stable s hi hunsent) (fun _ s hi hunsent => ?_) fun _ _ _ _ => .error _
    refine Safe.bind hi (ask_maintains _ unsent_stable s hi hunsent) (fun ready s hi hunsent => ?_) fun _ _ _ _ => .error _
    split
    · exact takeTurn_safe request n hi hunsent
    · exact .plain rfl
  · refine Safe.bind hi (ask_maintains _ unsent_stable s hi hunsent) (fun _ s hi hunsent => ?_) fun _ _ _ _ => .error _
    exact guardedTurn_safe request n hi (takeTurn_safe request n hi hunsent)

theorem settle_ends (hi : OutputInv s) :
    outputRules.Keeps t s (s.settle t) ∧ ∀ intent, (t, intent) ∉ (s.settle t).intents :=
  ⟨Calm.settle.keeps hi, fun _ hmem => (mem_settle.mp hmem).2 rfl⟩

theorem returned_keeps {origin : Option Nat} (hi : OutputInv s) (hclaims : Claims t origin s) :
    outputRules.Keeps t s (s.record (.returned (s.own t) origin)) := by
  refine ⟨⟨fun own lease hmem => ?_, hi.apart⟩, fun _ _ _ => .rfl⟩
  rcases List.mem_cons.mp hmem with heq | hmem
  · rw [Event.returned.injEq] at heq
    obtain ⟨rfl, rfl⟩ := heq
    exact hclaims.own
  · exact hi.own own lease hmem

theorem output_start (config : TurnsConfig) (hi : OutputInv s) (hrest : ∀ intent, (t, intent) ∉ s.intents) :
    outputRules.Safe t (outputRules.Finishes t) (body config t) s := by
  have finish {p : Job Unit} : outputRules.Safe t (outputRules.Finishes t) (p.bind fun _ => .ret none) s :=
    Safe.bind hi (any_safe p hi) (fun _ _ hi _ => settle_ends hi) fun _ _ hi _ => settle_ends hi
  cases t with
  | waiter n =>
    refine Safe.bind hi (waitForTurn_safe _ n hi fun lease => hrest _) (fun result s hi htells => ?_) fun _ _ hi _ => settle_ends hi
    have hreturned := returned_keeps hi (htells result rfl)
    exact ⟨hreturned.trans (settle_ends hreturned.inv).1, (settle_ends hreturned.inv).2⟩
  | _ => exact finish

end Waiting

/-- In a run in which nothing is submitted for another entry while a client waits, each
client returns the output of its own turn. -/
theorem outputs_own (config : TurnsConfig) (start : State) (hstart : OwnOutputs start) (hintents : start.intents = [])
    (c : Config turnsWorld) (h : Reaches (body config) undisturbed (Config.idle start) c) : OwnOutputs c.state := by
  have hnone (t : Party) (intent : Intent) : (t, intent) ∉ start.intents := by
    rw [hintents]
    exact List.not_mem_nil
  have hi : OutputInv start := ⟨hstart, fun t workerId group hmem => absurd hmem (hnone t _)⟩
  have hidle : outputRules.Sound (Config.idle start : Config turnsWorld) := .idle hi hnone
  exact (reaches_sound hidle (fun t s hi hrest _ => output_start config hi hrest) (fun t s hi _ => settle_ends hi) h).inv.own

theorem emptyRedis_own : OwnOutputs emptyRedis := fun _ _ h => (nomatch h)

def resume (t : Party) (calls : Nat) : List (Turn turnsWorld) := List.replicate calls (.call t fun _ => turnsServed (.advance 0))

def answeredTurn (n lease : Nat) : List (Turn turnsWorld) :=
  turnsOf (.waiter n) 4 ++ turnsOf (.lease n) 5 ++ turnsOf (.submit lease) 5 ++ resume (.waiter n) 4

theorem sample_outputs_own :
    OwnOutputs ((Config.idle emptyRedis).play (body sampleTurns) (turnsOf (.register 0) 2 ++ answeredTurn 0 1 ++ answeredTurn 1 3)).state ∧
      .returned (some 3) (some 3) ∈ ((Config.idle emptyRedis).play (body sampleTurns)
        (turnsOf (.register 0) 2 ++ answeredTurn 0 1 ++ answeredTurn 1 3)).state.trace :=
  ⟨outputs_own sampleTurns emptyRedis emptyRedis_own rfl _ (play_reaches (by decide +kernel)), by decide +kernel⟩

def lateOutput : List (Turn turnsWorld) :=
  turnsOf (.register 0) 2 ++ turnsOf (.waiter 0) 4 ++ turnsOf (.lease 0) 5 ++ resume (.waiter 0) 3 ++
    turnsOf (.waiter 1) 4 ++ turnsOf (.submit 1) 5 ++ resume (.waiter 1) 4

theorem late_output_taken : ¬ ∀ (config : TurnsConfig) (start : State), OwnOutputs start → start.intents = [] →
    ∀ c : Config turnsWorld, Reaches (body config) anyMove (Config.idle start) c → OwnOutputs c.state := by
  intro h
  have hreturned : Event.returned (some 2) (some 1) ∈
      ((Config.idle emptyRedis).play (body sampleTurns) lateOutput).state.trace := by decide +kernel
  cases h sampleTurns emptyRedis emptyRedis_own rfl _ (play_reaches_anyMove _ _ _) _ _ hreturned

end Orchestrator.Turns
