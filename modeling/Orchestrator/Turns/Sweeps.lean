import Orchestrator.Turns.Calls

/-!
A sweep spares the streams of registered workers as long as none of them is left
alone for as long as the threshold.
-/

namespace Orchestrator.Turns

open Async Async.Rules Redis

structure Spared (s : State) : Prop where
  swept : ∀ key registered, .swept key registered ∈ s.trace → registered = false
  grouped : ∀ workerId group, (workerId, group) ∈ s.opened → s.registered workerId →
    ∃ stream, s.streams (.input workerId) = some stream ∧ (stream.groups group).isSome

/-- The stream of a registered worker that a sweep looks at was not left alone for as
long as the threshold, and no worker is registered one of whose streams is about to
be deleted. -/
def attended : State → Move turnsWorld → Prop
  | s, .call _ (.idletime key limit) _ => s.inUse key = true → s.clock - s.touched key < limit
  | s, .call _ (.writeCredential workerId _) _ => ∀ entry ∈ s.intents, ∀ key ∈ entry.2.doomed, key.worker ≠ some workerId
  | _, _ => True

instance (s : State) (m : Move turnsWorld) : Decidable (attended s m) := by
  unfold attended
  split <;> infer_instance

structure Grown (t : Party) (s s' : State) : Prop where
  streams : ∀ workerId stream, s.streams (.input workerId) = some stream →
    ∃ stream', s'.streams (.input workerId) = some stream' ∧
      ∀ group, (stream.groups group).isSome → (stream'.groups group).isSome
  opened : s'.opened = s.opened
  credentials : s'.credentials = s.credentials
  swept : ∀ key registered, .swept key registered ∈ s'.trace → .swept key registered ∈ s.trace
  doomed : ∀ entry ∈ s'.intents, ∀ key ∈ entry.2.doomed, entry ∈ s.intents
  others : ∀ u key, u ≠ t → (u, .dooms key) ∈ s.intents → (u, .dooms key) ∈ s'.intents

section Steps

variable {t : Party} {s s' s'' : State} {A : Type}

theorem Grown.refl (t : Party) (s : State) : Grown t s s :=
  ⟨fun _ stream h => ⟨stream, h, fun _ hg => hg⟩, rfl, rfl, fun _ _ h => h, fun _ h _ _ => h, fun _ _ _ h => h⟩

theorem Grown.trans (h : Grown t s s') (h' : Grown t s' s'') : Grown t s s'' := by
  refine ⟨fun workerId stream hstream => ?_, h'.opened.trans h.opened, h'.credentials.trans h.credentials,
    fun key registered hmem => h.swept key registered (h'.swept key registered hmem),
    fun entry hmem key hkey => h.doomed entry (h'.doomed entry hmem key hkey) key hkey,
    fun u key hu hmem => h'.others u key hu (h.others u key hu hmem)⟩
  obtain ⟨stream', hstream', hgroups⟩ := h.streams workerId stream hstream
  obtain ⟨stream'', hstream'', hgroups'⟩ := h'.streams workerId stream' hstream'
  exact ⟨stream'', hstream'', fun group hg => hgroups' group (hgroups group hg)⟩

theorem Grown.serve {exec : State → Except Exn A × State} (fate : Fate Exn) (h : Grown t s (exec s).2) :
    Grown t s (fate.serve exec s).2 := by
  cases fate with
  | unsent e => exact .refl t s
  | _ => exact h

theorem Grown.touch (key : StreamKey) : Grown t s (s.touch key) :=
  ⟨fun _ stream h => ⟨stream, h, fun _ hg => hg⟩, rfl, rfl, fun _ _ h => h, fun _ h _ _ => h, fun _ _ _ h => h⟩

theorem Grown.record (event : Event) (h : ∀ key registered, event ≠ .swept key registered) : Grown t s (s.record event) := by
  refine ⟨fun _ stream h => ⟨stream, h, fun _ hg => hg⟩, rfl, rfl, fun key registered hmem => ?_, fun _ h _ _ => h, fun _ _ _ h => h⟩
  rcases List.mem_cons.mp hmem with heq | hmem
  · exact absurd heq.symm (h key registered)
  · exact hmem

theorem Grown.intend (intent : Intent) (h : intent.doomed = none) : Grown t s (s.intend t intent) := by
  refine ⟨fun _ stream h => ⟨stream, h, fun _ hg => hg⟩, rfl, rfl, fun _ _ h => h, fun entry hmem key hkey => ?_,
    fun _ _ _ h => List.mem_cons_of_mem _ h⟩
  rcases List.mem_cons.mp hmem with rfl | hmem
  · rw [Option.mem_def, h] at hkey
    cases hkey
  · exact hmem

theorem Grown.settle : Grown t s (s.settle t) := by
  refine ⟨fun _ stream h => ⟨stream, h, fun _ hg => hg⟩, rfl, rfl, fun _ _ h => h, fun entry hmem _ _ => ?_,
    fun u key hu hmem => ?_⟩
  · exact (List.mem_filter.mp hmem).1
  · exact List.mem_filter.mpr ⟨hmem, by simpa using hu⟩

theorem Grown.hears : Grown t s (s.hears t) := by
  refine ⟨fun _ stream h => ⟨stream, h, fun _ hg => hg⟩, rfl, rfl, fun _ _ h => h, fun entry hmem _ _ => ?_,
    fun u key hu hmem => ?_⟩
  · exact (List.mem_filter.mp hmem).1
  · exact List.mem_filter.mpr ⟨hmem, by simp [hu]⟩

theorem Grown.setStream {key : StreamKey} {stream : Option (Stream Payload)} (h : ∀ workerId, key = .input workerId →
    ∀ old, s.streams key = some old → ∃ new, stream = some new ∧ ∀ group, (old.groups group).isSome → (new.groups group).isSome) :
    Grown t s (s.setStream key stream) := by
  refine ⟨fun workerId old hold => ?_, rfl, rfl, fun _ _ h => h, fun _ h _ _ => h, fun _ _ _ h => h⟩
  unfold State.setStream
  by_cases hkey : .input workerId = key
  · subst hkey
    dsimp only
    rw [Function.update_self]
    exact h workerId rfl old hold
  · dsimp only
    rw [Function.update_of_ne hkey]
    exact ⟨old, hold, fun _ hg => hg⟩

theorem grown_setGroup {stream : Stream Payload} {name group : String} {g : Group} (h : (stream.groups group).isSome) :
    ((stream.setGroup name (some g)).groups group).isSome := by
  by_cases hname : group = name
  · subst hname
    rw [Stream.setGroup_self]
    rfl
  · rw [Stream.setGroup_of_ne _ hname]
    exact h

theorem grown_acknowledge {stream : Stream Payload} {name group : String} {id : Nat} (h : (stream.groups group).isSome) :
    ((stream.acknowledge name id).groups group).isSome := by
  unfold Stream.acknowledge
  by_cases hname : group = name
  · subst hname
    rw [Stream.setGroup_self, Option.isSome_map]
    exact h
  · rw [Stream.setGroup_of_ne _ hname]
    exact h

theorem xreadgroup_grown (key : StreamKey) (group consumer : String) : Grown t s (s.xreadgroup t key group consumer).2 := by
  unfold State.xreadgroup
  split
  · exact .touch key
  · next stream g hfound =>
    split
    · exact .touch key
    · next entryId payload _ =>
      obtain ⟨old, hold, hgroup⟩ := Option.bind_eq_some_iff.mp hfound
      obtain ⟨g', hg', heq⟩ := Option.map_eq_some_iff.mp hgroup
      cases heq
      have hread : Grown t s ((s.setStream key (some (stream.deliver group g entryId))).touch key) := by
        refine .trans (.setStream fun _ _ other hother => ?_) (.touch key)
        cases hold.symm.trans hother
        exact ⟨_, rfl, fun _ h => grown_setGroup h⟩
      cases t with
      | lease n => exact hread.trans (.trans (.intend _ rfl) (.record _ fun _ _ h => by cases h))
      | _ => exact hread

theorem add_grown (t : Party) (key : StreamKey) (payload : Payload) (excess : Nat) :
    Grown t s { ((s.setStream key (some (((s.streams key).getD .empty).add s.nextId payload excess))).touch key) with
      nextId := s.nextId + 1 } := by
  have hset : Grown t s (s.setStream key (some (((s.streams key).getD .empty).add s.nextId payload excess))) := by
    refine .setStream fun _ _ old hold => ⟨_, rfl, fun _ h => ?_⟩
    rw [hold]
    exact h
  exact ⟨hset.streams, rfl, rfl, fun _ _ h => h, fun _ h _ _ => h, fun _ _ _ h => h⟩

theorem xadd_grown (key : StreamKey) (payload : Payload) (maxlen : Option Nat) (account : String) (trimmed : Nat) :
    Grown t s (s.xadd t key payload maxlen account trimmed).2 := by
  unfold State.xadd
  dsimp only
  split
  · exact (add_grown _ key _ _).trans (.record _ fun _ _ h => by cases h)
  · exact (add_grown _ key _ _).trans (.intend _ rfl)
  · exact add_grown _ key _ _

theorem xack_grown (key : StreamKey) (group : String) (entryId : Nat) (account : String) :
    Grown t s (s.xack t key group entryId account).2 := by
  unfold State.xack
  cases hstream : s.streams key with
  | none =>
    cases t with
    | submit n => exact .trans (.touch key) (.record _ fun _ _ h => by cases h)
    | waiter n => exact .trans (.touch key) .hears
    | _ => exact .touch key
  | some stream =>
    have hacked : Grown t s (s.setStream key (some (stream.acknowledge group entryId))) := by
      refine .setStream fun _ _ old hold => ?_
      cases hstream.symm.trans hold
      exact ⟨_, rfl, fun _ h => grown_acknowledge h⟩
    cases t with
    | submit n => exact hacked.trans (.trans (.touch key) (.record _ fun _ _ h => by cases h))
    | waiter n => exact hacked.trans (.trans (.touch key) .hears)
    | _ => exact hacked.trans (.touch key)

def Op.grows : Op → Bool
  | .xgroupDestroy (.input _) _ => false
  | .writeCredential .. | .deleteWorkerKeys _ | .xgroupCreate .. | .idletime .. | .delete _ | .outside => false
  | _ => true

theorem run_grown {op : Op} {reply : Reply} (h : op.grows = true) : Grown t s (run t op reply s).2 := by
  cases op with
  | service call | clock => exact .refl t s
  | readCredential workerId => exact .serve reply.fate (.refl t s)
  | xgroupDestroy key group =>
    refine .serve reply.fate ?_
    unfold State.xgroupDestroy
    split
    · exact .refl t s
    · refine .trans (.setStream fun workerId hkey => ?_) (.touch key)
      subst hkey
      cases h
  | xreadgroup key group consumer => exact .serve reply.fate (xreadgroup_grown ..)
  | xadd key payload maxlen account => exact .serve reply.fate (xadd_grown ..)
  | xack key group entryId account => exact .serve reply.fate (xack_grown ..)
  | writeTurn workerId turn =>
    exact .serve reply.fate
      ⟨fun _ stream h => ⟨stream, h, fun _ hg => hg⟩, rfl, rfl, fun _ _ h => h, fun _ h _ _ => h, fun _ _ _ h => h⟩
  | readTurn workerId lease =>
    refine .serve reply.fate ?_
    unfold State.readTurn
    split
    · exact .refl t s
    · dsimp only
      split
      · exact .intend _ rfl
      · exact .refl t s
  | deleteTurn workerId lease =>
    refine .serve reply.fate (.trans ?_ .settle)
    let cleared : State := { s with turns := Function.update s.turns workerId none }
    have hcleared : Grown t s cleared :=
      ⟨fun _ stream h => ⟨stream, h, fun _ hg => hg⟩, rfl, rfl, fun _ _ h => h, fun _ h _ _ => h, fun _ _ _ h => h⟩
    exact hcleared.trans (.record _ fun _ _ h => by cases h)
  | answer workerId lease =>
    refine .serve reply.fate (.trans ?_ .settle)
    exact ⟨fun _ stream h => ⟨stream, h, fun _ hg => hg⟩, rfl, rfl, fun _ _ h => h, fun _ h _ _ => h, fun _ _ _ h => h⟩
  | scan pattern => exact .serve reply.fate (.refl t s)
  | _ => cases h

end Steps

structure SweepInv (s : State) : Prop where
  spared : Spared s
  doomed : ∀ entry ∈ s.intents, ∀ key ∈ entry.2.doomed, s.inUse key = false

def sweepRules : Rules turnsWorld where
  admits := attended
  inv := SweepInv
  rely t s s' := ∀ key, (t, Intent.dooms key) ∈ s.intents → (t, Intent.dooms key) ∈ s'.intents
  rely_refl _ _ _ h := h
  rely_trans h h' key hmem := h' key (h key hmem)
  rest _ _ := True
  rest_stable _ _ _ := trivial

section Sweeping

variable {t : Party} {s s' : State} {reply : Reply} {A : Type}

theorem inUse_congr (h : s'.credentials = s.credentials) (key : StreamKey) : s'.inUse key = s.inUse key := by
  unfold State.inUse State.registered
  rw [h]

theorem Grown.inv (h : Grown t s s') (hi : SweepInv s) : SweepInv s' := by
  refine ⟨⟨fun key registered hmem => hi.spared.swept key registered (h.swept key registered hmem),
    fun workerId group hmem hregistered => ?_⟩, fun entry hmem key hkey => ?_⟩
  · unfold State.registered at hregistered
    rw [h.credentials] at hregistered
    obtain ⟨stream, hstream, hgroup⟩ := hi.spared.grouped workerId group (h.opened ▸ hmem) hregistered
    obtain ⟨stream', hstream', hgroups⟩ := h.streams workerId stream hstream
    exact ⟨stream', hstream', hgroups group hgroup⟩
  · rw [inUse_congr h.credentials]
    exact hi.doomed entry (h.doomed entry hmem key hkey) key hkey

theorem Grown.keeps (h : Grown t s s') (hi : SweepInv s) : sweepRules.Keeps t s s' :=
  ⟨h.inv hi, fun u hu key hmem => h.others u key hu hmem⟩

theorem opens_cases (key : StreamKey) (group : String) :
    s.opens t key group = s ∨ ∃ workerId, key = .input workerId ∧
      s.opens t key group = { s with opened := (workerId, group) :: s.opened } := by
  unfold State.opens
  split
  · exact .inr ⟨_, rfl, rfl⟩
  · exact .inl rfl

theorem opens_keeps {key : StreamKey} {group : String} (hi : SweepInv s)
    (h : ∃ stream, s.streams key = some stream ∧ (stream.groups group).isSome) :
    sweepRules.Keeps t s (s.opens t key group) := by
  rcases opens_cases (t := t) (s := s) key group with hsame | ⟨workerId, rfl, hopened⟩
  · rw [hsame]
    exact .refl _ hi
  · rw [hopened]
    refine ⟨⟨⟨hi.spared.swept, fun other name hmem hregistered => ?_⟩, hi.doomed⟩, fun _ _ _ hmem => hmem⟩
    rcases List.mem_cons.mp hmem with heq | hmem
    · cases heq
      exact h
    · exact hi.spared.grouped other name hmem hregistered

theorem awaits_grown (key : StreamKey) (group : String) : Grown t s (s.awaits t key group) := by
  unfold State.awaits
  split
  · exact .intend _ rfl
  · exact .refl _ s

theorem createGroup_grown (key : StreamKey) (group : String) (start : GroupStart) :
    Grown t s (s.createGroup key group start) := by
  refine .trans (.setStream fun _ _ old hold => ⟨_, rfl, fun _ h => grown_setGroup ?_⟩) (.touch key)
  rw [hold]
  exact h

theorem hasGroup_iff {key : StreamKey} {group : String} :
    s.hasGroup key group = true ↔ ∃ stream, s.streams key = some stream ∧ (stream.groups group).isSome := by
  unfold State.hasGroup
  rw [Option.any_eq_true]

theorem createGroup_hasGroup (key : StreamKey) (group : String) (start : GroupStart) :
    (s.createGroup key group start).hasGroup key group = true := by
  refine hasGroup_iff.mpr ⟨_, Function.update_self .., ?_⟩
  rw [Stream.setGroup_self]
  rfl

theorem xgroupCreate_keeps (key : StreamKey) (group : String) (start : GroupStart) (hi : SweepInv s) :
    sweepRules.Keeps t s (s.xgroupCreate t key group start).2 := by
  unfold State.xgroupCreate
  split
  · next hbusy =>
    have htouched : Grown t s (s.touch key) := .touch key
    have hopened := opens_keeps (t := t) (htouched.inv hi) (hasGroup_iff.mp hbusy)
    exact ((htouched.keeps hi).trans hopened).trans ((awaits_grown key group).keeps hopened.inv)
  · have hcreated : Grown t s (s.createGroup key group start) := createGroup_grown key group start
    have hopened := opens_keeps (t := t) (hcreated.inv hi) (hasGroup_iff.mp (createGroup_hasGroup key group start))
    exact ((hcreated.keeps hi).trans hopened).trans ((awaits_grown key group).keeps hopened.inv)

theorem writeCredential_keeps (workerId : String) (credential : Credential) (hi : SweepInv s)
    (hfree : ∀ entry ∈ s.intents, ∀ key ∈ entry.2.doomed, key.worker ≠ some workerId) :
    sweepRules.Keeps t s (s.writeCredential workerId credential).2 := by
  have hother (id : String) (hid : id ≠ workerId) : (s.writeCredential workerId credential).2.registered id = s.registered id := by
    unfold State.writeCredential State.registered
    dsimp only
    rw [Function.update_of_ne hid]
  refine ⟨⟨⟨hi.spared.swept, fun id group hmem hregistered => ?_⟩, fun entry hmem key hkey => ?_⟩, fun _ _ _ hmem => hmem⟩
  · obtain ⟨hopened, hid⟩ := List.mem_filter.mp hmem
    exact hi.spared.grouped id group hopened (hother id (by simpa using hid) ▸ hregistered)
  · have hnot := hi.doomed entry hmem key hkey
    have hne := hfree entry hmem key hkey
    unfold State.inUse at hnot ⊢
    cases hworker : key.worker with
    | none => rfl
    | some id =>
      rw [hworker] at hnot hne
      exact (hother id fun heq => hne (heq ▸ rfl)).trans hnot

theorem forget_registered (workerId id : String) (h : (s.forget workerId).registered id = true) :
    id ≠ workerId ∧ s.registered id = true := by
  unfold State.forget State.registered at *
  dsimp only at h
  by_cases hid : id = workerId
  · subst hid
    rw [Function.update_self] at h
    cases h
  · rw [Function.update_of_ne hid] at h
    exact ⟨hid, h⟩

theorem forget_inUse (workerId : String) (key : StreamKey) (h : s.inUse key = false) : (s.forget workerId).inUse key = false := by
  unfold State.inUse at *
  cases hworker : key.worker with
  | none => rfl
  | some id =>
    rw [hworker] at h
    cases hregistered : (s.forget workerId).registered id with
    | false => exact hregistered
    | true => cases h.symm.trans (forget_registered workerId id hregistered).2

theorem forget_keeps (workerId : String) (hi : SweepInv s) : sweepRules.Keeps t s (s.forget workerId) := by
  refine ⟨⟨⟨hi.spared.swept, fun id group hmem hregistered => ?_⟩, fun entry hmem key hkey => ?_⟩, fun _ _ _ hmem => hmem⟩
  · exact hi.spared.grouped id group (List.mem_filter.mp hmem).1 (forget_registered workerId id hregistered).2
  · exact forget_inUse workerId key (hi.doomed entry hmem key hkey)

theorem dropStream_keeps (key : StreamKey) (hi : SweepInv s) (hfree : s.inUse key = false) :
    sweepRules.Keeps t s (s.setStream key none) := by
  refine ⟨⟨⟨hi.spared.swept, fun id group hmem hregistered => ?_⟩, hi.doomed⟩, fun _ _ _ hmem => hmem⟩
  have hne : StreamKey.input id ≠ key := by
    rintro rfl
    cases hfree.symm.trans hregistered
  obtain ⟨stream, hstream, hgroup⟩ := hi.spared.grouped id group hmem hregistered
  exact ⟨stream, (Function.update_of_ne hne ..).trans hstream, hgroup⟩

theorem forget_free (workerId : String) : (s.forget workerId).registered workerId = false := by
  unfold State.forget State.registered
  dsimp only
  rw [Function.update_self]
  rfl

theorem outside_keeps (change : OutsideChange) (hi : SweepInv s) : sweepRules.Keeps t s (change.apply s) := by
  cases change with
  | removeWorker workerId =>
    have hforgot := forget_keeps (t := t) workerId hi
    have hinput := dropStream_keeps (t := t) (.input workerId) hforgot.inv (forget_free workerId)
    exact (hforgot.trans hinput).trans (dropStream_keeps (.output workerId) hinput.inv (forget_free workerId))
  | deathNotice workerId exitCode => exact (add_grown t (.output workerId) _ _).keeps hi
  | publish key data => exact (add_grown t key _ _).keeps hi
  | read key => exact (Grown.touch key).keeps hi
  | _ => exact ⟨⟨⟨hi.spared.swept, hi.spared.grouped⟩, hi.doomed⟩, fun _ _ _ hmem => hmem⟩

theorem idletime_keeps (key : StreamKey) (limit : Nat) (hi : SweepInv s)
    (hattended : s.inUse key = true → s.clock - s.touched key < limit) :
    sweepRules.Keeps t s (s.idletime t key limit).2 := by
  have hsettled : Grown t s (s.settle t) := .settle
  unfold State.idletime
  split
  · exact .refl _ hi
  · dsimp only
    split
    · next hidle =>
      have hfree : s.inUse key = false := Bool.eq_false_iff.mpr fun h => Nat.not_lt.mpr hidle (hattended h)
      have hspared := (hsettled.inv hi).spared
      refine ⟨⟨⟨hspared.swept, hspared.grouped⟩, fun entry hmem other hother => ?_⟩, fun u hu other hmem => ?_⟩
      · rcases List.mem_cons.mp hmem with rfl | hmem
        · cases hother
          exact hfree
        · exact (hsettled.inv hi).doomed entry hmem other hother
      · exact List.mem_cons_of_mem _ (hsettled.others u other hu hmem)
    · exact hsettled.keeps hi

def Op.steady : Op → Bool
  | .delete _ | .xgroupDestroy (.input _) _ => false
  | _ => true

theorem Keeps.serve {exec : State → Except Exn A × State} (fate : Fate Exn) (hi : SweepInv s)
    (h : sweepRules.Keeps t s (exec s).2) : sweepRules.Keeps t s (fate.serve exec s).2 := by
  cases fate with
  | unsent e => exact .refl _ hi
  | _ => exact h

theorem run_keeps {op : Op} (hop : op.steady = true) (hi : SweepInv s) (hattended : attended s (.call t op reply)) :
    sweepRules.Keeps t s (run t op reply s).2 := by
  cases op with
  | writeCredential workerId credential =>
    exact Keeps.serve reply.fate hi (writeCredential_keeps workerId credential hi hattended)
  | deleteWorkerKeys workerId =>
    have hforgot := forget_keeps (t := t) workerId hi
    let exec (s : State) : Except Exn Unit × State := (.ok (), s.forget workerId)
    have hexec : sweepRules.Keeps t s (exec s).2 := hforgot
    exact Keeps.serve reply.fate hi hexec
  | xgroupCreate key group start => exact Keeps.serve reply.fate hi (xgroupCreate_keeps key group start hi)
  | idletime key limit => exact Keeps.serve reply.fate hi (idletime_keeps key limit hi hattended)
  | outside => exact outside_keeps reply.change hi
  | delete => cases hop
  | xgroupDestroy key group => cases key with
    | input workerId => cases hop
    | output workerId | poResponse requestId => exact (run_grown rfl).keeps hi
  | _ => exact (run_grown rfl).keeps hi

abbrev Steady (p : Job A) : Prop := Prog.Uses (fun op : Op => op.steady = true) p

theorem steady_safe {p : Job A} (hp : Steady p) (hi : SweepInv s) : sweepRules.Safe t (fun _ _ => True) p s :=
  Safe.leaves (P := fun _ => True) (fun _ _ _ _ _ => trivial)
    (hp.mono fun _ hop _ hi _ _ hattended => ⟨run_keeps hop hi hattended, trivial⟩) s hi trivial

theorem steady_of_makes {op : Op} (ht : t ≠ .sweeper) (h : t.makes op = true) : op.steady = true := by
  cases op with
  | delete key => cases t with
    | sweeper => exact absurd rfl ht
    | _ => cases h
  | xgroupDestroy key group => cases key with
    | input workerId => cases t <;> cases h
    | _ => rfl
  | _ => rfl

theorem delete_keeps (key : StreamKey) (hi : SweepInv s) (hdoomed : (t, Intent.dooms key) ∈ s.intents) :
    sweepRules.Keeps t s (s.delete t key).2 := by
  have hfree := hi.doomed _ hdoomed key rfl
  have hdropped := dropStream_keeps (t := t) key hi hfree
  have hswept : sweepRules.Keeps t (s.setStream key none) (State.record (s.setStream key none) (.swept key (s.inUse key))) := by
    refine ⟨⟨⟨fun other registered hmem => ?_, hdropped.inv.spared.grouped⟩, hdropped.inv.doomed⟩, fun _ _ _ hmem => hmem⟩
    rcases List.mem_cons.mp hmem with heq | hmem
    · cases heq
      exact hfree
    · exact hi.spared.swept other registered hmem
  exact (hdropped.trans hswept).trans (Grown.settle.keeps hswept.inv)

theorem cleanKey_safe (idleThreshold : Nat) (key : StreamKey) (hi : SweepInv s) :
    sweepRules.Safe .sweeper (fun _ _ => True) (cleanKey idleThreshold key) s := by
  have hidle : sweepRules.Safe .sweeper
      (fun r s => ∀ idle : Nat, r = .ok idle → idle ≥ idleThreshold → (Party.sweeper, Intent.dooms key) ∈ s.intents)
      (perform (.idletime key idleThreshold)) s := by
    refine Safe.perform fun s' hi' _ reply hattended => ⟨run_keeps rfl hi' hattended, fun idle heq hge => ?_⟩
    change (reply.fate.serve (State.idletime .sweeper key idleThreshold) s').1 = .ok idle at heq
    change (Party.sweeper, Intent.dooms key) ∈ (reply.fate.serve (State.idletime .sweeper key idleThreshold) s').2.intents
    cases hfate : reply.fate with
    | served =>
      rw [hfate] at heq
      simp only [Fate.serve, State.idletime] at heq ⊢
      split at heq
      · cases heq
      · cases heq
        rw [if_pos hge]
        exact List.mem_cons_self
    | unheard e =>
      rw [hfate] at heq
      cases heq
    | unsent e =>
      rw [hfate] at heq
      cases heq
  have hdelete (s : State) (hi : SweepInv s) (hdoomed : (Party.sweeper, Intent.dooms key) ∈ s.intents) :
      sweepRules.Safe .sweeper (fun _ _ => True) (delete key) s := by
    refine Safe.perform fun s' hi' hr reply _ => ⟨Keeps.serve reply.fate hi' (delete_keeps key hi' (hr key hdoomed)), trivial⟩
  refine Safe.handle (M := fun _ _ => True) hi (Safe.bind hi hidle (fun idle s hi h => ?_) fun _ _ _ _ => trivial)
    (fun _ _ _ _ => trivial) fun e s hi _ => ?_
  · split
    · next hge => exact hdelete s hi (h idle rfl hge)
    · trivial
  · split <;> trivial

theorem cleanOrphanStreams_safe (idleThreshold : Nat) (hi : SweepInv s) :
    sweepRules.Safe .sweeper (fun _ _ => True) (cleanOrphanStreams idleThreshold) s := by
  have hpattern (pattern : StreamPattern) :
      sweepRules.Maintains .sweeper (fun _ => True) (cleanPattern idleThreshold pattern) :=
    .bind (fun s hi _ => steady_safe (.perform rfl) hi) fun keys => .forEach fun key _ s hi _ => cleanKey_safe idleThreshold key hi
  exact Maintains.forEach (fun pattern _ => hpattern pattern) s hi trivial

theorem ended_keeps (r : Option (Except Exn (Option SpawnResult))) (hi : SweepInv s) : sweepRules.Keeps t s (ended t r s) := by
  unfold ended
  split
  · next result =>
    have hreturned : Grown t s (s.record (.returned (s.own t) result.origin)) := .record _ fun _ _ h => by cases h
    exact (hreturned.trans .settle).keeps hi
  · exact Grown.settle.keeps hi

theorem sweep_start (config : TurnsConfig) (t : Party) (hi : SweepInv s) :
    sweepRules.Safe t (sweepRules.Finishes t) (body config t) s := by
  have finish {p : Job (Option SpawnResult)} (hp : sweepRules.Safe t (fun _ _ => True) p s) :
      sweepRules.Safe t (sweepRules.Finishes t) p s :=
    hp.conseq hi fun r s hi _ => ⟨ended_keeps (some r) hi, trivial⟩
  by_cases ht : t = .sweeper
  · subst ht
    exact finish (Safe.bind hi (cleanOrphanStreams_safe _ hi) (fun _ _ _ _ => trivial) fun _ _ _ _ => trivial)
  · exact finish (steady_safe ((body_makes config t).mono fun _ => steady_of_makes ht) hi)

end Sweeping

/-- In a run in which the streams of registered workers are never left alone for the
threshold when a sweep looks at them, they are spared. -/
theorem sweeps_spare_workers (config : TurnsConfig) (start : State) (hstart : Spared start) (hintents : start.intents = [])
    (c : Config turnsWorld) (h : Reaches (body config) attended (Config.idle start) c) : Spared c.state := by
  have hi : SweepInv start := by
    refine ⟨hstart, fun entry hmem => ?_⟩
    rw [hintents] at hmem
    cases hmem
  have hidle : sweepRules.Sound (Config.idle start : Config turnsWorld) := .idle hi fun _ => trivial
  exact (reaches_sound hidle (fun t s hi _ _ => sweep_start config t hi)
    (fun t s hi _ => ⟨ended_keeps none hi, trivial⟩) h).inv.spared

def sampleTurns : TurnsConfig where
  broker := ⟨"internal", fun token => "hash of " ++ token, 1000⟩
  idleThreshold := defaultIdleThresholdSeconds
  registrations _ := (⟨"w", "secret", .developer, .input "w", .output "w", "worker_group"⟩, some "internal")
  unregistrations _ := ("w", some "internal")
  leases _ := ⟨"w", some "secret"⟩
  submissions lease := ⟨"w", some "secret", lease, some (.completed "done" none none)⟩
  waits n := ⟨.reuse, "w", "request-" ++ toString n, "group-" ++ toString n, "attempt-" ++ toString n, "do it", false, none,
    none, 3600, 3600, 1⟩

def emptyRedis : State where
  clock := 0
  nextId := 1
  streams _ := none
  touched _ := 0
  credentials _ := none
  turns _ := none
  opened := []
  held _ := []
  intents := []
  trace := []

theorem emptyRedis_spared : Spared emptyRedis :=
  ⟨fun _ _ h => (nomatch h), fun _ _ h => (nomatch h)⟩

def turnsServed (change : OutsideChange) : Reply where
  fate := .served
  service call := match call with
    | .recordWorkerOnAttempt .. => .ok ()
    | .recordTurnOnAttempt .. => .ok ()
    | .foundDead _ => .ok false
    | .waitUntilReady _ => .ok true
    | .publishWorkerDeletion .. => .ok ()
  keys := [.input "w"]
  trimmed := 0
  change := change

def turnsOf (t : Party) (calls : Nat) : List (Turn turnsWorld) :=
  .start t :: List.replicate calls (.call t fun _ => turnsServed (.advance 0))

def later (seconds : Nat) : List (Turn turnsWorld) :=
  [.start (.outside 0), .call (.outside 0) fun _ => turnsServed (.advance seconds)]

def sampleSweep (seconds : Nat) : List (Turn turnsWorld) :=
  turnsOf (.register 0) 2 ++ turnsOf (.waiter 0) 4 ++ turnsOf (.lease 0) 5 ++ later seconds ++ turnsOf .sweeper 6

theorem sample_sweep_spares :
    Spared ((Config.idle emptyRedis).play (body sampleTurns) (sampleSweep 599)).state ∧
      ((Config.idle emptyRedis).play (body sampleTurns) (sampleSweep 599)).state.held "w" = [1] :=
  ⟨sweeps_spare_workers sampleTurns emptyRedis emptyRedis_spared rfl _ (play_reaches (by decide +kernel)), by decide +kernel⟩

theorem idle_worker_swept : ¬ ∀ (config : TurnsConfig) (start : State), Spared start → start.intents = [] →
    ∀ c : Config turnsWorld, Reaches (body config) anyMove (Config.idle start) c →
      ∀ key registered, .swept key registered ∈ c.state.trace → registered = false := by
  intro h
  have hswept : Event.swept (.input "w") true ∈
      ((Config.idle emptyRedis).play (body sampleTurns) (sampleSweep 600)).state.trace := by decide +kernel
  cases h sampleTurns emptyRedis emptyRedis_spared rfl _ (play_reaches_anyMove _ _ _) _ _ hswept

end Orchestrator.Turns
