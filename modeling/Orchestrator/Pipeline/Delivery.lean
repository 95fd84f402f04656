import Orchestrator.Pipeline.Refusals

/-!
What the record on a run says of the messages sent for it: none is sent before
the story was read as the record has it, and how often is counted on the record
alone, which is written after the message.
-/

namespace Orchestrator.Pipeline

open Async Contracts Async.Rules

def standing (start : State) (runId : String) : List Event → Option OwnerNotification
  | .recorded id record :: older => if id = runId then some record else standing start runId older
  | _ :: older => standing start runId older
  | [] => (start.run? runId).bind (·.ownerNotification)

def OwnerNotification.fresh (record : OwnerNotification) : Bool := record.owed && record.attempts = 0

def settled (start : State) (runId : String) : List Event → Bool
  | .recorded id record :: older =>
    if id = runId then !record.owed || (!record.fresh && settled start runId older) else settled start runId older
  | _ :: older => settled start runId older
  | [] => ((start.run? runId).bind (·.ownerNotification)).any fun record => !record.owed

def publishes (runId : String) : List Event → Nat
  | .published id _ :: older => publishes runId older + if id = runId then 1 else 0
  | .recorded id record :: older => if id = runId && record.fresh then 0 else publishes runId older
  | _ :: older => publishes runId older
  | [] => 0

def outstanding (runId : String) : List Event → Bool
  | .published id _ :: older => id = runId || outstanding runId older
  | .recorded id _ :: older => if id = runId then false else outstanding runId older
  | _ :: older => outstanding runId older
  | [] => false

/-- The message is the one of the record that stands, and the story has just been
read in the status the record was written for. -/
def Announced (start : State) (runId : String) (event : PoSystemEvent) (older : List Event) : Prop :=
  ∃ record rest recipient, standing start runId older = some record ∧ record.owed = true ∧
    event = poEvent record recipient ∧ older = .read record.storyId record.terminalStatus :: rest

def endings : List StoryStatus := [.completed, .waitingHumanReview]

structure Noticed (start s : State) : Prop where
  decided : ∀ storyId fromStatus toStatus runId, .moved storyId fromStatus toStatus (some runId) ∈ s.trace →
    toStatus ∈ endings → ∃ run, s.run? runId = some run ∧ run.ownerNotification.isSome
  announced : ∀ newer older runId event, s.trace = newer ++ .published runId event :: older →
    Announced start runId event older

structure Spared (start s : State) : Prop where
  unsettled : ∀ newer older runId event, s.trace = newer ++ .published runId event :: older →
    settled start runId older = false
  bounded : ∀ runId, publishes runId s.trace ≤ ownerNotificationMaxAttempts

/-- Every message that goes out is told of on its record: neither does the process
die, nor does the write fail, nor is the call cancelled, between the two; and the
answer to the write that settles a record without a message is heard. -/
def accounted : State → Move pipelineWorld → Prop
  | s, .stop .scheduler => ∀ run ∈ s.runs, outstanding run.id s.trace = false
  | s, .call _ (.writeRecord runId record) reply => match reply.fate with
    | .unsent _ => outstanding runId s.trace = false
    | .unheard (.exception _) => record.state ≠ .unaddressable
    | _ => True
  | _, .call _ (.publishFlat ..) reply => match reply.fate with
    | .unheard .cancelledError => False
    | _ => True
  | _, _ => True

instance (s : State) (m : Move pipelineWorld) : Decidable (accounted s m) := by
  unfold accounted
  (repeat' split) <;> infer_instance

def Event.silent : Event → Bool
  | .recorded .. | .published .. => false
  | _ => true

def Event.mute : Event → Bool
  | .moved _ _ toStatus (some _) => !endings.contains toStatus
  | e => e.silent

section Traces

variable {start : State} {trace : List Event} {e : Event} {runId : String} {event : PoSystemEvent}
  {record record' : OwnerNotification}

theorem silent_of_mute (h : e.mute = true) : e.silent = true := by
  cases e with
  | moved => rfl
  | _ => exact h

theorem standing_silent (h : e.silent = true) : standing start runId (e :: trace) = standing start runId trace := by
  cases e with
  | recorded => cases h
  | _ => rfl

theorem settled_silent (h : e.silent = true) : settled start runId (e :: trace) = settled start runId trace := by
  cases e with
  | recorded => cases h
  | _ => rfl

theorem publishes_silent (h : e.silent = true) : publishes runId (e :: trace) = publishes runId trace := by
  cases e with
  | recorded | published => cases h
  | _ => rfl

theorem outstanding_silent (h : e.silent = true) : outstanding runId (e :: trace) = outstanding runId trace := by
  cases e with
  | recorded | published => cases h
  | _ => rfl

theorem published_cons {Q : String → PoSystemEvent → List Event → Prop}
    (h : ∀ newer older runId event, trace = newer ++ .published runId event :: older → Q runId event older)
    (he : ∀ runId event, e = .published runId event → Q runId event trace) :
    ∀ newer older runId event, e :: trace = newer ++ .published runId event :: older → Q runId event older := by
  intro newer older runId event heq
  cases newer with
  | nil =>
    obtain ⟨rfl, rfl⟩ := List.cons.inj heq
    exact he runId event rfl
  | cons first rest =>
    obtain ⟨-, htrace⟩ := List.cons.inj heq
    exact h rest older runId event htrace

structure Counted (start : State) (trace : List Event) : Prop where
  alive : ∀ runId record, standing start runId trace = some record → record.owed = true →
    settled start runId trace = false
  counted : ∀ runId record, standing start runId trace = some record → record.owed = true →
    publishes runId trace ≤ record.attempts + (outstanding runId trace).toNat ∧
      publishes runId trace < ownerNotificationMaxAttempts + (outstanding runId trace).toNat
  bounded : ∀ runId, publishes runId trace ≤ ownerNotificationMaxAttempts
  unsettled : ∀ newer older runId event, trace = newer ++ .published runId event :: older →
    settled start runId older = false

theorem Counted.nil (start : State) : Counted start [] := by
  refine ⟨fun runId record hstanding howed => ?_, fun runId record hstanding howed => ⟨?_, ?_⟩, fun runId => ?_,
    fun newer older runId event h => ?_⟩
  · change (start.run? runId).bind (·.ownerNotification) = some record at hstanding
    simp [settled, hstanding, howed]
  · exact Nat.zero_le _
  · exact Nat.zero_lt_succ _
  · exact Nat.zero_le _
  · cases newer <;> cases h

theorem Counted.silent (h : Counted start trace) (he : e.silent = true) : Counted start (e :: trace) := by
  refine ⟨fun runId record hstanding howed => ?_, fun runId record hstanding howed => ?_, fun runId => ?_,
    published_cons h.unsettled fun runId event heq => ?_⟩
  · rw [settled_silent he]
    exact h.alive runId record (standing_silent he ▸ hstanding) howed
  · rw [publishes_silent he, outstanding_silent he]
    exact h.counted runId record (standing_silent he ▸ hstanding) howed
  · rw [publishes_silent he]
    exact h.bounded runId
  · subst heq
    cases he

theorem Counted.published (h : Counted start trace) (hstanding : standing start runId trace = some record)
    (howed : record.owed = true) (hquiet : outstanding runId trace = false) :
    Counted start (.published runId event :: trace) := by
  have hroom := h.counted runId record hstanding howed
  rw [hquiet] at hroom
  refine ⟨h.alive, fun id other hother howed' => ?_, fun id => ?_, published_cons h.unsettled fun id sent heq => ?_⟩
  · by_cases hid : runId = id
    · subst hid
      cases hstanding.symm.trans hother
      simp only [publishes, outstanding, if_true, decide_true, Bool.true_or, Bool.toNat_true]
      simp only [Bool.toNat_false] at hroom
      omega
    · have hkept := h.counted id other hother howed'
      simpa [publishes, outstanding, hid] using hkept
  · by_cases hid : runId = id
    · subst hid
      simp only [publishes, if_true]
      simp only [Bool.toNat_false] at hroom
      omega
    · simpa [publishes, hid] using h.bounded id
  · cases heq
    exact h.alive runId record hstanding howed

def Follows (record? : Option OwnerNotification) (record' : OwnerNotification) : Prop :=
  record'.owed = false ∨ record'.fresh = true ∨ ∃ record, record? = some record ∧ record.owed = true ∧
    record'.attempts = record.attempts + 1 ∧ record'.attempts < ownerNotificationMaxAttempts

theorem Counted.recorded (h : Counted start trace) (hfollows : Follows (standing start runId trace) record') :
    Counted start (.recorded runId record' :: trace) := by
  have hpublishes (id : String) : publishes id (.recorded runId record' :: trace) ≤ publishes id trace := by
    simp only [publishes]
    split
    · exact Nat.zero_le _
    · exact Nat.le_refl _
  refine ⟨fun id other hother howed => ?_, fun id other hother howed => ?_, fun id => Nat.le_trans (hpublishes id) (h.bounded id),
    published_cons h.unsettled fun id sent heq => by cases heq⟩
  · by_cases hid : runId = id
    · subst hid
      obtain rfl : record' = other := by simpa [standing] using hother
      rcases hfollows with hsettled | hfresh | ⟨record, hstanding, howed', -, -⟩
      · cases hsettled.symm.trans howed
      · simp [settled, howed, hfresh]
      · simp [settled, howed, h.alive runId record hstanding howed']
    · have hkept := h.alive id other (by simpa [standing, hid] using hother) howed
      simpa [settled, hid] using hkept
  · by_cases hid : runId = id
    · subst hid
      obtain rfl : record' = other := by simpa [standing] using hother
      have hquiet : outstanding runId (.recorded runId record' :: trace) = false := by simp [outstanding]
      rw [hquiet]
      rcases hfollows with hsettled | hfresh | ⟨record, hstanding, howed', hattempts, hlimit⟩
      · cases hsettled.symm.trans howed
      · have hzero : publishes runId (.recorded runId record' :: trace) = 0 := by simp [publishes, hfresh]
        rw [hzero]
        exact ⟨Nat.zero_le _, Nat.zero_lt_succ _⟩
      · have hcount := (h.counted runId record hstanding howed').1
        have hle := hpublishes runId
        have hone := Bool.toNat_le (outstanding runId trace)
        simp only [Bool.toNat_false]
        omega
    · have hkept := h.counted id other (by simpa [standing, hid] using hother) howed
      simpa [publishes, outstanding, hid] using hkept

end Traces

def Holds (runId : String) (record : Option OwnerNotification) (s : State) : Prop :=
  ∃ run, s.run? runId = some run ∧ run.ownerNotification = record

def KeptOn (runId : String) (s s' : State) : Prop := ∀ record, Holds runId record s → Holds runId record s'

def Apart (runId : String) (P : State → Prop) : Prop := ∀ s s', (∀ id, id ≠ runId → KeptOn id s s') → P s → P s'

def Rowwise (P : State → Prop) : Prop := ∀ s s', (∀ id, KeptOn id s s') → P s → P s'

structure Unsaid (s s' : State) : Prop where
  rows : s'.runs = s.runs
  said : s'.trace = s.trace ∨ ∃ e : Event, e.mute = true ∧ s'.trace = e :: s.trace

def Op.mute : Op → Bool
  | .writeRecord .. | .publishFlat .. | .outside => false
  | .transitionStory _ action (some _) => !endings.contains action.target
  | _ => true

def Op.within (runId : String) : Op → Bool
  | .transitionStory _ _ (some id) => id = runId
  | op => op.mute

structure Based (start s : State) : Prop where
  ids : (s.runs.map (·.id)).Nodup
  kept : ∀ runId, standing start runId s.trace = (s.run? runId).bind (·.ownerNotification)
  known : ∀ runId, outstanding runId s.trace = true → (s.run? runId).isSome
  noticed : Noticed start s

def Quiet (s : State) : Prop := ∀ runId, outstanding runId s.trace = false

def noticeRules (start : State) (strict : Prop) : Rules pipelineWorld where
  admits s m := strict → accounted s m
  inv s := Based start s ∧ (strict → Counted start s.trace)
  rely t s s' := t = .scheduler → s'.trace = s.trace ∧ ∀ runId, KeptOn runId s s'
  rely_refl _ _ _ := ⟨rfl, fun _ _ h => h⟩
  rely_trans h h' ht :=
    ⟨(h' ht).1.trans (h ht).1, fun runId record hheld => (h' ht).2 runId record ((h ht).2 runId record hheld)⟩
  rest t s := t = .scheduler → strict → Quiet s
  rest_stable _ hr hrest ht hstrict runId := (congrArg (outstanding runId) (hr ht).1).trans (hrest ht hstrict runId)

section Rows

variable {s s' : State} {runId id : String} {record : Option OwnerNotification} {P : State → Prop}

theorem rowwise_holds : Rowwise (Holds runId record) := fun _ _ h hheld => h runId record hheld

theorem Apart.rowwise (h : Apart runId P) : Rowwise P := fun s s' hkept => h s s' fun id _ => hkept id

theorem keptOn_of_rows (h : s'.runs = s.runs) : KeptOn runId s s' := by
  rintro record ⟨run, hrun, hrecord⟩
  refine ⟨run, ?_, hrecord⟩
  unfold State.run? at hrun ⊢
  rw [h]
  exact hrun

theorem run_map (f : Run → Run) (hf : ∀ row, (f row).id = row.id) :
    (s.runs.map f).find? (·.id = runId) = (s.run? runId).map f := by
  unfold State.run?
  rw [List.find?_map]
  congr 2
  funext row
  simp [hf]

theorem keptOn_map (f : Run → Run) (hf : ∀ row, (f row).id = row.id)
    (hrecord : ∀ row, row.id = runId → (f row).ownerNotification = row.ownerNotification)
    (hrows : s'.runs = s.runs.map f) : KeptOn runId s s' := by
  rintro record ⟨run, hrun, hheld⟩
  have hid : run.id = runId := by simpa using List.find?_some hrun
  refine ⟨f run, ?_, (hrecord run hid).trans hheld⟩
  unfold State.run?
  rw [hrows, run_map f hf, hrun]
  rfl

theorem holds_of_mem (hids : (s.runs.map (·.id)).Nodup) {run : Run} (h : run ∈ s.runs) :
    Holds run.id run.ownerNotification s := by
  refine ⟨run, ?_, rfl⟩
  unfold State.run?
  generalize s.runs = rows at hids h
  induction rows with
  | nil => cases h
  | cons row rest ih =>
    rw [List.map_cons, List.nodup_cons] at hids
    rcases List.mem_cons.mp h with rfl | hrest
    · simp
    · have hne : row.id ≠ run.id := fun heq => hids.1 (heq ▸ List.mem_map_of_mem hrest)
      rw [List.find?_cons_of_neg (by simpa using hne)]
      exact ih hids.2 hrest

end Rows

section Steps

variable {start s s' : State} {runId : String} {record : OwnerNotification} {reply : Reply}

theorem Unsaid.refl (s : State) : Unsaid s s := ⟨rfl, .inl rfl⟩

theorem Unsaid.of_rows (hrows : s'.runs = s.runs) (htrace : s'.trace = s.trace) : Unsaid s s' := ⟨hrows, .inl htrace⟩

theorem Unsaid.of_event (e : Event) (he : e.mute = true) (hrows : s'.runs = s.runs) (htrace : s'.trace = e :: s.trace) :
    Unsaid s s' := ⟨hrows, .inr ⟨e, he, htrace⟩⟩

theorem run_unsaid {op : Op} (hop : op.mute = true) : Unsaid s (run .scheduler op reply s).2 := by
  have hother : op ≠ .outside := by
    rintro rfl
    cases hop
  have heffect := run_effect .scheduler hother reply s
  generalize (run .scheduler op reply s).2 = s' at heffect ⊢
  cases heffect with
  | kept => exact .refl s
  | read => exact .of_event _ rfl rfl rfl
  | @moved action account story =>
    refine .of_event (.moved story.id story.status action.target account) ?_ rfl rfl
    cases account with
    | none => rfl
    | some _ => exact hop
  | created => exact .of_event (.created _) rfl rfl rfl
  | recorded | published => cases hop
  | _ => exact .of_rows rfl rfl

theorem Based.of_event (h : Based start s) (e : Event) (hrows : s'.runs = s.runs) (htrace : s'.trace = e :: s.trace)
    (hstanding : ∀ runId, standing start runId (e :: s.trace) = standing start runId s.trace)
    (hknown : ∀ runId, outstanding runId (e :: s.trace) = true → (s.run? runId).isSome)
    (hmoved : ∀ storyId fromStatus toStatus runId, e = .moved storyId fromStatus toStatus (some runId) →
      toStatus ∈ endings → ∃ run, s.run? runId = some run ∧ run.ownerNotification.isSome)
    (hsent : ∀ runId event, e = .published runId event → Announced start runId event s.trace) : Based start s' := by
  have hrun (runId : String) : s'.run? runId = s.run? runId := by
    unfold State.run?
    rw [hrows]
  refine ⟨hrows ▸ h.ids, fun runId => ?_, fun runId hout => ?_, fun storyId fromStatus toStatus runId hmem hto => ?_, ?_⟩
  · rw [htrace, hstanding, hrun]
    exact h.kept runId
  · rw [htrace] at hout
    rw [hrun]
    exact hknown runId hout
  · rw [htrace] at hmem
    rw [hrun]
    rcases List.mem_cons.mp hmem with heq | hmem
    · exact hmoved storyId fromStatus toStatus runId heq.symm hto
    · exact h.noticed.decided storyId fromStatus toStatus runId hmem hto
  · rw [htrace]
    exact published_cons h.noticed.announced hsent

theorem Based.unsaid (h : Based start s) (hstep : Unsaid s s') : Based start s' := by
  rcases hstep.said with htrace | ⟨e, he, htrace⟩
  · have hrun (runId : String) : s'.run? runId = s.run? runId := by
      unfold State.run?
      rw [hstep.rows]
    refine ⟨hstep.rows ▸ h.ids, fun runId => ?_, fun runId hout => ?_, fun storyId fromStatus toStatus runId hmem hto => ?_, ?_⟩
    · rw [htrace, hrun]
      exact h.kept runId
    · rw [hrun]
      exact h.known runId (htrace ▸ hout)
    · rw [hrun]
      exact h.noticed.decided storyId fromStatus toStatus runId (htrace ▸ hmem) hto
    · rw [htrace]
      exact h.noticed.announced
  · refine h.of_event e hstep.rows htrace (fun _ => standing_silent (silent_of_mute he)) (fun runId hout => ?_)
      (fun storyId fromStatus toStatus runId heq hto => ?_) fun runId event heq => ?_
    · exact h.known runId (outstanding_silent (silent_of_mute he) ▸ hout)
    · subst heq
      simp [Event.mute, hto] at he
    · subst heq
      cases he

theorem Counted.unsaid (h : Counted start s.trace) (hstep : Unsaid s s') : Counted start s'.trace := by
  rcases hstep.said with htrace | ⟨e, he, htrace⟩
  · rw [htrace]
    exact h
  · rw [htrace]
    exact h.silent (silent_of_mute he)

theorem Unsaid.outstanding (hstep : Unsaid s s') (runId : String) :
    outstanding runId s'.trace = outstanding runId s.trace := by
  rcases hstep.said with htrace | ⟨e, he, htrace⟩
  · rw [htrace]
  · rw [htrace, outstanding_silent (silent_of_mute he)]

theorem Based.moved (h : Based start s) {story : Story} {action : StoryAction} (hheld : Holds runId (some record) s) :
    Based start (s.moveStory story action (some runId)) := by
  refine h.of_event _ rfl rfl (fun _ => rfl) h.known (fun storyId fromStatus toStatus id heq _ => ?_) fun id event heq => by
    cases heq
  cases heq
  obtain ⟨run, hrun, hrecord⟩ := hheld
  exact ⟨run, hrun, by rw [hrecord]; rfl⟩

theorem Based.published (h : Based start s) (event : PoSystemEvent) (hheld : Holds runId (some record) s)
    (hannounced : Announced start runId event s.trace) : Based start (s.record (.published runId event)) := by
  refine h.of_event _ rfl rfl (fun _ => rfl) (fun id hout => ?_) (fun storyId fromStatus toStatus id heq _ => by cases heq)
    fun id sent heq => ?_
  · by_cases hid : runId = id
    · subst hid
      obtain ⟨run, hrun, -⟩ := hheld
      rw [hrun]
      rfl
    · exact h.known id (by simpa [outstanding, hid] using hout)
  · cases heq
    exact hannounced

def State.noteRecord (s : State) (runId : String) (record : OwnerNotification) : State :=
  let noted (row : Run) : Run := if row.id = runId then { row with ownerNotification := some record } else row
  State.record { s with runs := s.runs.map noted } (.recorded runId record)

theorem writeRecord_some (hrun : (s.run? runId).isSome) : s.writeRecord runId record = (.ok (), s.noteRecord runId record) := by
  obtain ⟨row, hrow⟩ := Option.isSome_iff_exists.mp hrun
  unfold State.writeRecord
  rw [hrow]
  rfl

theorem writeRecord_none (hrun : s.run? runId = none) :
    s.writeRecord runId record = (.error (.exception "HTTPStatusError"), s) := by
  unfold State.writeRecord
  rw [hrun]

theorem noteRecord_run (id : String) : (s.noteRecord runId record).run? id =
    (s.run? id).map fun row => if row.id = runId then { row with ownerNotification := some record } else row := by
  unfold State.noteRecord State.record
  exact run_map _ fun row => by split <;> rfl

theorem noteRecord_holds (hrun : (s.run? runId).isSome) : Holds runId (some record) (s.noteRecord runId record) := by
  obtain ⟨row, hrow⟩ := Option.isSome_iff_exists.mp hrun
  have hid : row.id = runId := by simpa using List.find?_some hrow
  refine ⟨{ row with ownerNotification := some record }, ?_, rfl⟩
  rw [noteRecord_run, hrow]
  simp [hid]

theorem noteRecord_kept {id : String} (h : id ≠ runId) : KeptOn id s (s.noteRecord runId record) := by
  refine keptOn_map (fun row => if row.id = runId then { row with ownerNotification := some record } else row)
    (fun row => by split <;> rfl) (fun row hrow => ?_) rfl
  rw [if_neg (by rw [hrow]; exact h)]

theorem Based.noted (h : Based start s) (hrun : (s.run? runId).isSome) : Based start (s.noteRecord runId record) := by
  have hsome (id : String) (hid : (s.run? id).isSome) : ((s.noteRecord runId record).run? id).isSome := by
    rw [noteRecord_run, Option.isSome_map]
    exact hid
  refine ⟨?_, fun id => ?_, fun id hout => ?_, fun storyId fromStatus toStatus id hmem hto => ?_, ?_⟩
  · have hids : (s.noteRecord runId record).runs.map (·.id) = s.runs.map (·.id) := by
      unfold State.noteRecord State.record
      rw [List.map_map]
      exact List.map_congr_left fun row _ => by
        dsimp only [Function.comp]
        split <;> rfl
    rw [hids]
    exact h.ids
  · change standing start id (.recorded runId record :: s.trace) = _
    by_cases hid : runId = id
    · subst hid
      have hnoted : Holds runId (some record) (s.noteRecord runId record) := noteRecord_holds hrun
      obtain ⟨run, hheld, hrecord⟩ := hnoted
      rw [hheld]
      simp [standing, hrecord]
    · have hkept := h.kept id
      rw [noteRecord_run]
      simp only [standing, if_neg hid, hkept]
      cases hfound : s.run? id with
      | none => rfl
      | some row =>
        have hrow : row.id = id := by simpa using List.find?_some hfound
        simp [hrow, Ne.symm hid]
  · by_cases hid : runId = id
    · subst hid
      exact hsome _ hrun
    · exact hsome _ (h.known id (by simpa [State.noteRecord, State.record, outstanding, hid] using hout))
  · rcases List.mem_cons.mp hmem with heq | hmem
    · cases heq
    · obtain ⟨run, hfound, hrecord⟩ := h.noticed.decided storyId fromStatus toStatus id hmem hto
      rw [noteRecord_run, hfound]
      refine ⟨_, rfl, ?_⟩
      by_cases hid : run.id = runId
      · simp [hid]
      · simpa [hid] using hrecord
  · exact published_cons h.noticed.announced fun id event heq => by cases heq

theorem outside_kept (change : OutsideChange) (hnodup : (s.runs.map (·.id)).Nodup) :
    (((change.apply s).runs.map (·.id)).Nodup) ∧
      ∀ id, ((change.apply s).run? id).bind (·.ownerNotification) = (s.run? id).bind (·.ownerNotification) ∧
        KeptOn id s (change.apply s) := by
  have same {s' : State} (h : s'.runs = s.runs) : (s'.runs.map (·.id)).Nodup ∧
      ∀ id, (s'.run? id).bind (·.ownerNotification) = (s.run? id).bind (·.ownerNotification) ∧ KeptOn id s s' := by
    refine ⟨h ▸ hnodup, fun id => ⟨?_, keptOn_of_rows h⟩⟩
    unfold State.run?
    rw [h]
  cases change with
  | addRun run =>
    unfold OutsideChange.apply
    dsimp only
    split
    · exact same rfl
    · next hnew =>
      have hnone : s.run? run.id = none := by simpa using hnew
      let s' : State := { s with runs := { run with ownerNotification := none } :: s.runs }
      have hother (id : String) (hid : run.id ≠ id) : s'.run? id = s.run? id :=
        List.find?_cons_of_neg (by simpa using hid)
      have hself : s'.run? run.id = some { run with ownerNotification := none } := by
        simp [s', State.run?]
      have hfresh : run.id ∉ s.runs.map (·.id) := by
        intro hmem
        obtain ⟨row, hrow, hid⟩ := List.mem_map.mp hmem
        have hfound := List.find?_eq_none.mp hnone row hrow
        simp [hid] at hfound
      refine ⟨List.nodup_cons.mpr ⟨hfresh, hnodup⟩, fun id => ?_⟩
      by_cases hid : run.id = id
      · subst hid
        refine ⟨?_, fun record hheld => ?_⟩
        · change (s'.run? run.id).bind (·.ownerNotification) = _
          rw [hself, hnone]
          rfl
        · obtain ⟨row, hrow, -⟩ := hheld
          cases hnone.symm.trans hrow
      · refine ⟨?_, fun record hheld => ?_⟩
        · change (s'.run? id).bind (·.ownerNotification) = _
          rw [hother id hid]
        · obtain ⟨row, hrow, hrecord⟩ := hheld
          exact ⟨row, (hother id hid).trans hrow, hrecord⟩
  | writeRun run =>
    let changed (row : Run) : Run := if row.id = run.id then { run with ownerNotification := row.ownerNotification } else row
    have hid (row : Run) : (changed row).id = row.id := by
      dsimp only [changed]
      split
      · next h => exact h.symm
      · rfl
    have hrecord (row : Run) : (changed row).ownerNotification = row.ownerNotification := by
      dsimp only [changed]
      split <;> rfl
    have hrun (id : String) : ((OutsideChange.writeRun run).apply s).run? id = (s.run? id).map changed := run_map changed hid
    refine ⟨?_, fun id => ⟨?_, keptOn_map changed hid (fun row _ => hrecord row) rfl⟩⟩
    · have hids : (s.runs.map changed).map (·.id) = s.runs.map (·.id) := by
        rw [List.map_map]
        exact List.map_congr_left fun row _ => hid row
      change ((s.runs.map changed).map (·.id)).Nodup
      rw [hids]
      exact hnodup
    · rw [hrun]
      cases s.run? id with
      | none => rfl
      | some row => exact hrecord row
  | _ => exact same rfl

theorem Based.outside (h : Based start s) (change : OutsideChange) : Based start (change.apply s) := by
  have hkept := outside_kept change h.ids
  have htrace := outside_trace change s
  have hsome (id : String) (hid : (s.run? id).isSome) : ((change.apply s).run? id).isSome := by
    obtain ⟨run, hrun⟩ := Option.isSome_iff_exists.mp hid
    obtain ⟨row, hrow, -⟩ := (hkept.2 id).2 _ ⟨run, hrun, rfl⟩
    rw [hrow]
    rfl
  refine ⟨hkept.1, fun id => ?_, fun id hout => ?_, fun storyId fromStatus toStatus id hmem hto => ?_, ?_⟩
  · rw [htrace, (hkept.2 id).1]
    exact h.kept id
  · exact hsome id (h.known id (htrace ▸ hout))
  · obtain ⟨run, hrun, hrecord⟩ := h.noticed.decided storyId fromStatus toStatus id (htrace ▸ hmem) hto
    obtain ⟨row, hrow, hsame⟩ := (hkept.2 id).2 _ ⟨run, hrun, rfl⟩
    exact ⟨row, hrow, by rw [hsame]; exact hrecord⟩
  · rw [htrace]
    exact h.noticed.announced

end Steps

section Delivering

variable {start s s' : State} {strict : Prop} {P : State → Prop} {runId : String} {record : OwnerNotification}
  {x : Option OwnerNotification} {A : Type} {attempts : Nat}

def Inv (start : State) (strict : Prop) (s : State) : Prop := Based start s ∧ (strict → Counted start s.trace)

def Still (strict : Prop) (P : State → Prop) (s : State) : Prop := (strict → Quiet s) ∧ P s

structure Attempted (strict : Prop) (runId : String) (record? : Option OwnerNotification) (P : State → Prop) (s : State) :
    Prop where
  others : strict → ∀ id, id ≠ runId → outstanding id s.trace = false
  held : strict → Holds runId record? s
  frame : P s

abbrev Assures (start : State) (strict : Prop) {A : Type} (post : Except Exn A → State → Prop) (p : Job A) (s : State) : Prop :=
  (noticeRules start strict).Safe .scheduler post p s

abbrev Upholds (start : State) (strict : Prop) {A : Type} (P : State → Prop) (p : Job A) : Prop :=
  (noticeRules start strict).Maintains .scheduler P p

theorem keeps_of_inv (hi : Inv start strict s') : (noticeRules start strict).Keeps .scheduler s s' :=
  ⟨hi, fun _ hu ht => absurd ht hu⟩

theorem Still.tolerates (hP : Rowwise P) (htrace : s'.trace = s.trace) (hkept : ∀ id, KeptOn id s s')
    (h : Still strict P s) : Still strict P s' :=
  ⟨fun hstrict id => (congrArg (outstanding id) htrace).trans (h.1 hstrict id), hP s s' hkept h.2⟩

theorem still_stable (hP : Rowwise P) : (noticeRules start strict).Stable .scheduler (Still strict P) :=
  fun _ _ _ hr h => h.tolerates hP (hr rfl).1 (hr rfl).2

theorem Unsaid.still (hstep : Unsaid s s') (hP : Rowwise P) (h : Still strict P s) : Still strict P s' :=
  ⟨fun hstrict id => (hstep.outstanding id).trans (h.1 hstrict id), hP s s' (fun _ => keptOn_of_rows hstep.rows) h.2⟩

theorem Unsaid.inv (hstep : Unsaid s s') (hi : Inv start strict s) : Inv start strict s' :=
  ⟨hi.1.unsaid hstep, fun hstrict => (hi.2 hstrict).unsaid hstep⟩

abbrev Mute (p : Job A) : Prop := Prog.Uses (fun op : Op => op.mute = true) p

theorem mute_maintains (hP : Rowwise P) {p : Job A} (hp : Mute p) :
    Upholds start strict (Still strict P) p :=
  Safe.leaves (still_stable hP) (hp.mono fun _ hop _ hi h _ _ =>
    ⟨keeps_of_inv ((run_unsaid hop).inv hi), (run_unsaid hop).still hP h⟩)

theorem within_leaves (hP : Rowwise P) (hheld : ∀ s, P s → ∃ record, Holds runId (some record) s) {op : Op}
    (hop : op.within runId = true) : (noticeRules start strict).Leaves .scheduler (Still strict P) op := by
  intro s hi h reply _
  have mute (hop : op.mute = true) : (noticeRules start strict).Keeps .scheduler s (run .scheduler op reply s).2 ∧
      Still strict P (run .scheduler op reply s).2 :=
    ⟨keeps_of_inv ((run_unsaid hop).inv hi), (run_unsaid hop).still hP h⟩
  cases op with
  | transitionStory id action account => cases account with
    | none => exact mute hop
    | some account =>
      obtain rfl : account = runId := of_decide_eq_true hop
      change (noticeRules start strict).Keeps .scheduler s
        (reply.fate.serve (State.transitionStory id action (some account)) s).2 ∧
          Still strict P (reply.fate.serve (State.transitionStory id action (some account)) s).2
      have left : (noticeRules start strict).Keeps .scheduler s s ∧ Still strict P s := ⟨keeps_of_inv hi, h⟩
      have moved : (noticeRules start strict).Keeps .scheduler s (s.transitionStory id action (some account)).2 ∧
          Still strict P (s.transitionStory id action (some account)).2 := by
        rcases transitionStory_cases id action (some account) s with hmove | ⟨story, -, -, -, -, hmove⟩
        · rw [hmove]
          exact left
        · rw [hmove]
          obtain ⟨record, hrecord⟩ := hheld s h.2
          refine ⟨keeps_of_inv ⟨hi.1.moved hrecord, fun hstrict => (hi.2 hstrict).silent rfl⟩, h.1, ?_⟩
          exact hP s _ (fun _ => keptOn_of_rows rfl) h.2
      cases reply.fate with
      | unsent e => exact left
      | _ => exact moved
  | writeRecord | publishFlat | outside => cases hop
  | _ => exact mute hop

theorem Attempted.tolerates (hP : Apart runId P) (htrace : s'.trace = s.trace) (hkept : ∀ id, KeptOn id s s')
    (h : Attempted strict runId x P s) : Attempted strict runId x P s' := by
  refine ⟨fun hstrict id hid => ?_, fun hstrict => hkept runId x (h.held hstrict), hP s s' (fun id _ => hkept id) h.frame⟩
  rw [htrace]
  exact h.others hstrict id hid

theorem Still.attempted (h : Still strict P s) (hheld : strict → Holds runId x s) : Attempted strict runId x P s :=
  ⟨fun hstrict id _ => h.1 hstrict id, hheld, h.2⟩

theorem write_safe {record' : OwnerNotification} (hP : Apart runId P) (h : Attempted strict runId x P s)
    (hfollows : Follows x record') :
    Assures start strict (fun r s => Still strict P s ∧
      (∀ a, r = .ok a → Holds runId (some record') s) ∧
      (strict → record'.state = .unaddressable → ∀ type, r = .error (.exception type) → Holds runId x s))
      (writeRecord runId record') s := by
  refine Safe.perform fun s' hi hr reply hadmits => ?_
  have h := h.tolerates hP (hr rfl).1 (hr rfl).2
  have left (hquiet : strict → outstanding runId s'.trace = false) : Still strict P s' := by
    refine ⟨fun hstrict id => ?_, h.frame⟩
    by_cases hid : id = runId
    · exact hid ▸ hquiet hstrict
    · exact h.others hstrict id hid
  have hwritten (hrun : (s'.run? runId).isSome) :
      Inv start strict (s'.noteRecord runId record') ∧ Still strict P (s'.noteRecord runId record') := by
    refine ⟨⟨hi.1.noted hrun, fun hstrict => (hi.2 hstrict).recorded ?_⟩, fun hstrict id => ?_,
      hP s' _ (fun id hid => noteRecord_kept hid) h.frame⟩
    · obtain ⟨run, hfound, hrecord⟩ := h.held hstrict
      rw [hi.1.kept, hfound]
      change Follows run.ownerNotification record'
      rw [hrecord]
      exact hfollows
    · change outstanding id (.recorded runId record' :: s'.trace) = false
      by_cases hid : runId = id
      · simp [outstanding, hid]
      · simpa [outstanding, hid] using h.others hstrict id (Ne.symm hid)
  obtain ⟨fate, hfate⟩ : ∃ fate, reply.fate = fate := ⟨_, rfl⟩
  have hrun : run .scheduler (.writeRecord runId record') reply s' = fate.serve (State.writeRecord runId record') s' := by
    rw [← hfate]
    rfl
  suffices hgoal : ∀ r s'', fate.serve (State.writeRecord runId record') s' = (r, s'') →
      (noticeRules start strict).Keeps .scheduler s' s'' ∧ Still strict P s'' ∧
        (∀ a, r = .ok a → Holds runId (some record') s'') ∧
        (strict → record'.state = .unaddressable → ∀ type, r = .error (.exception type) → Holds runId x s'') from
    hgoal _ _ hrun.symm
  rintro r s'' hserved
  cases hfound : s'.run? runId with
  | none =>
    have hloose : ¬strict := fun hstrict => by
      obtain ⟨run, hrow, -⟩ := h.held hstrict
      cases hfound.symm.trans hrow
    have hsame : s'' = s' ∧ ∀ a, r ≠ .ok a := by
      cases fate with
      | served =>
        cases (writeRecord_none hfound).symm.trans hserved
        exact ⟨rfl, fun a heq => by cases heq⟩
      | unheard e =>
        simp only [Fate.serve, writeRecord_none hfound] at hserved
        cases hserved
        exact ⟨rfl, fun a heq => by cases heq⟩
      | unsent e =>
        cases hserved
        exact ⟨rfl, fun a heq => by cases heq⟩
    obtain ⟨rfl, hnever⟩ := hsame
    exact ⟨keeps_of_inv hi, left fun hstrict => absurd hstrict hloose, fun a heq => absurd heq (hnever a),
      fun hstrict => absurd hstrict hloose⟩
  | some row =>
    have hsome : (s'.run? runId).isSome := by rw [hfound]; rfl
    cases fate with
    | served =>
      cases (writeRecord_some hsome).symm.trans hserved
      exact ⟨keeps_of_inv (hwritten hsome).1, (hwritten hsome).2, fun _ _ => noteRecord_holds hsome,
        fun _ _ type heq => by cases heq⟩
    | unheard e =>
      simp only [Fate.serve, writeRecord_some hsome] at hserved
      cases hserved
      refine ⟨keeps_of_inv (hwritten hsome).1, (hwritten hsome).2, fun _ heq => (nomatch heq), fun hstrict hstate type heq => ?_⟩
      cases heq
      have hadmits := hadmits hstrict
      change accounted s' (.call .scheduler (.writeRecord runId record') reply) at hadmits
      simp only [accounted, hfate] at hadmits
      exact absurd hstate hadmits
    | unsent e =>
      cases hserved
      refine ⟨keeps_of_inv hi, left fun hstrict => ?_, fun _ heq => (nomatch heq), fun hstrict _ _ _ => h.held hstrict⟩
      have hadmits := hadmits hstrict
      change accounted s' (.call .scheduler (.writeRecord runId record') reply) at hadmits
      simpa only [accounted, hfate] using hadmits

theorem settle_safe {state : OwnerNotificationState} {detail : Option String} (hP : Apart runId P)
    (hi : Inv start strict s) (h : Attempted strict runId (some record) P s)
    (hnext : state ≠ .owed ∨ record.owed = true ∧ attempts = record.attempts + 1 ∧ attempts < ownerNotificationMaxAttempts) :
    Assures start strict (fun _ => Still strict P) (settle runId record state detail attempts) s := by
  refine (write_safe hP h ?_).conseq hi fun _ _ _ hpost => hpost.1
  rcases hnext with hsettled | ⟨howed, hattempts, hlimit⟩
  · exact .inl (decide_eq_false hsettled)
  · exact .inr (.inr ⟨record, rfl, howed, hattempts, hlimit⟩)

theorem spendFailedAttempt_safe {error : String} (hP : Apart runId P) (hi : Inv start strict s)
    (h : Attempted strict runId (some record) P s) (howed : record.owed = true) :
    Assures start strict (fun _ => Still strict P)
      (spendFailedAttempt runId record (record.attempts + 1) error) s := by
  unfold spendFailedAttempt
  split
  · have habandon : Assures start strict (fun _ => Still strict P)
        (abandon runId record (record.attempts + 1) error) s :=
      Safe.bind hi (settle_safe hP hi h (.inl (by decide))) (fun _ s hi h => mute_maintains hP.rowwise (.perform rfl) s hi h)
        fun _ _ _ h => h
    exact Safe.bind hi habandon (fun _ _ _ h => h) fun _ _ _ h => h
  · next hlimit =>
    exact Safe.bind hi (settle_safe hP hi h (.inr ⟨howed, rfl, Nat.lt_of_not_ge hlimit⟩)) (fun _ _ _ h => h) fun _ _ _ h => h

/-- What one attempt leaves: unless the record was settled, or the call cancelled,
a message may be out that the record does not tell of. -/
def AttemptLeft (strict : Prop) (runId : String) (record : OwnerNotification) (P : State → Prop) :
    Except Exn (Option OwnerNotificationOutcome) → State → Prop
  | .ok (some _), s => Still strict P s
  | .ok none, s => Attempted strict runId (some record) P s
  | .error (.exception _), s => Attempted strict runId (some record) P s
  | .error .cancelledError, s => Still strict P s

theorem publishFlat_safe {recipient : Recipient} {rest : List Event} (hP : Apart runId P)
    (hquiet : strict → Quiet s) (hheld : Holds runId (some record) s) (hframe : P s) (howed : record.owed = true)
    (hread : s.trace = .read record.storyId record.terminalStatus :: rest) :
    Assures start strict
      (fun r s => Attempted strict runId (some record) P s ∧ (r = .error .cancelledError → Still strict P s))
      (publishFlat runId (poEvent record recipient)) s := by
  refine Safe.perform fun s' hi hr reply hadmits => ?_
  obtain ⟨htrace, hkept⟩ := hr rfl
  have h : Still strict P s' := Still.tolerates hP.rowwise htrace hkept ⟨hquiet, hframe⟩
  have hheld := hkept runId _ hheld
  have hstanding : standing start runId s'.trace = some record := by
    obtain ⟨run, hrun, hrecord⟩ := hheld
    rw [hi.1.kept, hrun]
    exact hrecord
  have hannounced : Announced start runId (poEvent record recipient) s'.trace :=
    ⟨record, rest, recipient, hstanding, howed, rfl, htrace.trans hread⟩
  let sent := s'.record (.published runId (poEvent record recipient))
  have hsent : Inv start strict sent ∧ Attempted strict runId (some record) P sent := by
    refine ⟨⟨hi.1.published _ hheld hannounced, fun hstrict => ?_⟩, fun hstrict id hid => ?_, fun _ => ?_, ?_⟩
    · exact (hi.2 hstrict).published hstanding howed (h.1 hstrict runId)
    · change outstanding id (.published runId (poEvent record recipient) :: s'.trace) = false
      simpa [outstanding, Ne.symm hid] using h.1 hstrict id
    · exact keptOn_of_rows rfl _ hheld
    · exact hP s' sent (fun _ _ => keptOn_of_rows rfl) h.2
  obtain ⟨fate, hfate⟩ : ∃ fate, reply.fate = fate := ⟨_, rfl⟩
  have hrun : run .scheduler (.publishFlat runId (poEvent record recipient)) reply s' =
      fate.serve (fun s => (.ok (), s.record (.published runId (poEvent record recipient)))) s' := by
    rw [← hfate]
    rfl
  suffices hgoal : ∀ r s'', fate.serve (fun s => (.ok (), s.record (.published runId (poEvent record recipient)))) s' = (r, s'') →
      (noticeRules start strict).Keeps .scheduler s' s'' ∧ Attempted strict runId (some record) P s'' ∧
        (r = .error .cancelledError → Still strict P s'') from hgoal _ _ hrun.symm
  rintro r s'' hserved
  cases fate with
  | served =>
    cases hserved
    exact ⟨keeps_of_inv hsent.1, hsent.2, fun heq => (nomatch heq)⟩
  | unheard e =>
    cases hserved
    refine ⟨keeps_of_inv hsent.1, hsent.2, fun heq => ⟨fun hstrict => ?_, hsent.2.frame⟩⟩
    cases heq
    have hadmits := hadmits hstrict
    change accounted s' (.call .scheduler (.publishFlat runId (poEvent record recipient)) reply) at hadmits
    simp only [accounted, hfate] at hadmits
  | unsent e =>
    cases hserved
    exact ⟨keeps_of_inv hi, h.attempted fun _ => hheld, fun _ => h⟩

def JustRead (storyId : String) (status : StoryStatus) (s : State) : Prop := ∃ rest, s.trace = .read storyId status :: rest

theorem getStory_safe (storyId : String) (hP : Rowwise P) (h : Still strict P s) :
    Assures start strict
      (fun r s => Still strict P s ∧ ∀ story, r = .ok story → JustRead storyId story.status s) (getStory storyId) s := by
  refine Safe.perform fun s' hi hr reply _ => ?_
  have hstep : Unsaid s' (run .scheduler (.getStory storyId) reply s').2 := run_unsaid rfl
  have h := h.tolerates hP (hr rfl).1 (hr rfl).2
  refine ⟨keeps_of_inv (hstep.inv hi), hstep.still hP h, fun story heq => ?_⟩
  change (reply.fate.serve (State.getStory storyId) s').1 = .ok story at heq
  change JustRead storyId story.status (reply.fate.serve (State.getStory storyId) s').2
  cases hfate : reply.fate with
  | served =>
    rw [hfate] at heq
    simp only [Fate.serve, State.getStory] at heq ⊢
    split at heq
    · cases heq
    · cases heq
      exact ⟨s'.trace, rfl⟩
  | unheard e =>
    rw [hfate] at heq
    cases heq
  | unsent e =>
    rw [hfate] at heq
    cases heq

theorem publishRecord_safe (hP : Apart runId P) (hi : Inv start strict s) (h : Still strict P s)
    (hheld : Holds runId (some record) s) (howed : record.owed = true)
    (hread : JustRead record.storyId record.terminalStatus s) :
    Assures start strict (AttemptLeft strict runId record P)
      (publishRecord runId record (record.attempts + 1)) s := by
  let Ready (s : State) : Prop :=
    Still strict P s ∧ Holds runId (some record) s ∧ JustRead record.storyId record.terminalStatus s
  have hask : Assures start strict (fun _ => Ready)
      (ask (.resolveProjectRecipient record.projectId record.event record.storyId)) s := by
    refine Safe.perform fun s' hi' hr reply _ => ⟨keeps_of_inv hi', ?_⟩
    obtain ⟨htrace, hkept⟩ := hr rfl
    obtain ⟨rest, hrest⟩ := hread
    exact ⟨h.tolerates hP.rowwise htrace hkept, hkept runId _ hheld, rest, htrace.trans hrest⟩
  have failed (e : Exn) (s : State) (hready : Ready s) : AttemptLeft strict runId record P (.error e) s := by
    cases e with
    | exception type => exact hready.1.attempted fun _ => hready.2.1
    | cancelledError => exact hready.1
  refine Safe.bind hi hask (fun recipient s hi hready => ?_) fun e s _ hready => failed e s hready
  obtain ⟨h, hheld, rest, hrest⟩ := hready
  split
  · refine Safe.bind hi (publishFlat_safe hP h.1 hheld h.2 howed hrest) (fun _ _ _ h => h.1) fun e s _ h => ?_
    cases e with
    | exception type => exact h.1
    | cancelledError => exact h.2 rfl
  · refine Safe.bind hi (write_safe hP (h.attempted fun _ => hheld) (.inl rfl)) (fun _ _ _ h => h.1) fun e s _ h => ?_
    cases e with
    | exception type => exact h.1.attempted fun hstrict => h.2.2 hstrict rfl type rfl
    | cancelledError => exact h.1

def AttemptRead (strict : Prop) (runId : String) (record : OwnerNotification) (P : State → Prop) :
    Except String (Option OwnerNotificationOutcome) → State → Prop
  | .ok (some _), s => Still strict P s
  | _, s => Attempted strict runId (some record) P s

theorem concludeAttempt_safe {sent : Except String (Option OwnerNotificationOutcome)} (hP : Apart runId P)
    (hi : Inv start strict s) (howed : record.owed = true)
    (h : AttemptRead strict runId record P sent s) :
    Assures start strict (fun _ => Still strict P)
      (concludeAttempt runId record (record.attempts + 1) sent) s := by
  rcases sent with type | _ | outcome
  · exact spendFailedAttempt_safe hP hi h howed
  · exact Safe.bind hi (settle_safe hP hi h (.inl (by decide))) (fun _ _ _ h => h) fun _ _ _ h => h
  · exact h

theorem caught_safe {p : Job A} {M : Except Exn A → State → Prop} {Q : Except Exn (Except String A) → State → Prop}
    (hi : Inv start strict s) (hp : Assures start strict M p s)
    (hok : ∀ a s, M (.ok a) s → Q (.ok (.ok a)) s)
    (hraise : ∀ s, M (.error .cancelledError) s → Q (.error .cancelledError) s)
    (herr : ∀ type s, M (.error (.exception type)) s → Q (.ok (.error type)) s) :
    Assures start strict Q (caught p) s := by
  have hbody : Assures start strict (fun (r : Except Exn (Except String A)) s =>
      (∃ a, r = .ok (.ok a) ∧ M (.ok a) s) ∨ ∃ e, r = .error e ∧ M (.error e) s) (p.bind fun a => .ret (.ok a)) s :=
    Safe.bind hi hp (fun a s _ h => .inl ⟨a, rfl, h⟩) fun e s _ h => .inr ⟨e, rfl, h⟩
  refine Safe.handle hi hbody (fun r s _ h => ?_) fun e s hi h => ?_
  · rcases h with ⟨a, heq, h⟩ | ⟨e, heq, -⟩
    · cases heq
      exact hok a s h
    · cases heq
  · rcases h with ⟨a, heq, -⟩ | ⟨e', heq, h⟩
    · cases heq
    · cases heq
      cases e with
      | exception type => exact herr type s h
      | cancelledError => exact hraise s h

def CaughtAttempt (strict : Prop) (runId : String) (record : OwnerNotification) (P : State → Prop) :
    Except Exn (Except String (Option OwnerNotificationOutcome)) → State → Prop
  | .ok sent, s => AttemptRead strict runId record P sent s
  | .error _, s => Still strict P s

theorem deliverTo_safe (found : Except String Story) (hP : Apart runId P) (hi : Inv start strict s)
    (h : Still strict P s) (hheld : Holds runId (some record) s) (howed : record.owed = true)
    (hread : ∀ story, found = .ok story → JustRead record.storyId story.status s) :
    Assures start strict (fun _ => Still strict P)
      (deliverTo runId record (record.attempts + 1) found) s := by
  have hattempted := h.attempted fun _ => hheld
  cases found with
  | error type => exact spendFailedAttempt_safe hP hi hattempted howed
  | ok story =>
    unfold deliverTo
    dsimp only
    split
    · exact Safe.bind hi (settle_safe hP hi hattempted (.inl (by decide))) (fun _ _ _ h => h) fun _ _ _ h => h
    · next hstatus =>
      have hready := hread story rfl
      rw [Decidable.not_not.mp hstatus] at hready
      refine Safe.bind hi (caught_safe (Q := CaughtAttempt strict runId record P) hi (publishRecord_safe hP hi h hheld howed hready) ?_ (fun _ h => h) fun _ _ h => h)
        (fun sent s hi h => ?_) fun _ _ _ h => h
      · rintro (_ | _) s h <;> exact h
      · exact concludeAttempt_safe hP hi howed h

theorem deliverOwedNotification_safe (hP : Apart runId P) (hi : Inv start strict s) (h : Still strict P s)
    (hheld : Holds runId (some record) s) :
    Assures start strict (fun _ => Still strict P) (deliverOwedNotification runId record) s := by
  unfold deliverOwedNotification
  split
  · next howed =>
    have hboth : Rowwise fun s => P s ∧ Holds runId (some record) s := fun s s' hkept h =>
      ⟨hP.rowwise s s' hkept h.1, hkept runId _ h.2⟩
    refine Safe.bind hi (caught_safe (Q := fun r s => Still strict (fun s => P s ∧ Holds runId (some record) s) s ∧
      ∀ story, r = .ok (.ok story) → JustRead record.storyId story.status s) hi
        (getStory_safe record.storyId hboth ⟨h.1, h.2, hheld⟩) (fun story s h => ⟨h.1, ?_⟩) (fun s h => ⟨h.1, ?_⟩)
        fun type s h => ⟨h.1, ?_⟩) (fun found s hi h => ?_) fun e s _ h => ⟨h.1.1, h.1.2.1⟩
    · intro story' heq
      cases heq
      exact h.2 story rfl
    · intro story heq
      cases heq
    · intro story heq
      cases heq
    · exact deliverTo_safe found hP hi ⟨h.1.1, h.1.2.1⟩ h.1.2.2 howed fun story heq => h.2 story (heq ▸ rfl)
  · exact h

theorem oweOwnerNotification_safe {row : Run} {ending : Ending} (hP : Apart row.id P) (hi : Inv start strict s)
    (h : Still strict P s) (hheld : Holds row.id row.ownerNotification s) :
    Assures start strict
      (fun r s => Still strict P s ∧ ∀ owed, r = .ok owed → Holds row.id (some owed) s) (oweOwnerNotification row ending) s := by
  unfold oweOwnerNotification
  split
  · next existing hexisting =>
    have hsome : row.ownerNotification = some existing := (Option.filter_eq_some_iff.mp hexisting).1
    refine ⟨h, fun owed heq => ?_⟩
    cases heq
    exact hsome ▸ hheld
  · have hboth : Rowwise fun s => P s ∧ Holds row.id row.ownerNotification s := fun s s' hkept h =>
      ⟨hP.rowwise s s' hkept h.1, hkept row.id _ h.2⟩
    refine Safe.bind hi (mute_maintains hboth (.perform rfl) s hi ⟨h.1, h.2, hheld⟩) (fun now s hi h => ?_) fun e s _ h => ?_
    · have hattempted : Attempted strict row.id row.ownerNotification P s :=
        Still.attempted ⟨h.1, h.2.1⟩ fun _ => h.2.2
      refine Safe.bind hi (write_safe hP hattempted (.inr (.inl rfl))) (fun _ s _ h => ⟨h.1, fun owed heq => ?_⟩)
        fun e s _ h => ⟨h.1, fun owed heq => by cases heq⟩
      cases heq
      exact h.2.1 () rfl
    · exact ⟨⟨h.1, h.2.1⟩, fun owed heq => by cases heq⟩

def Free : State → Prop := fun _ => True

theorem apart_free : Apart runId Free := fun _ _ _ _ => trivial

theorem rowwise_free : Rowwise Free := fun _ _ _ _ => trivial

theorem tell_safe {row : Run} {ending : Ending} {B : Type} {move : Job B} {rest : OwnerNotificationOutcome → Job A}
    (hi : Inv start strict s) (h : Still strict Free s) (hheld : Holds row.id row.ownerNotification s)
    (hmove : Prog.Uses (fun op : Op => op.within row.id = true) move) (hrest : ∀ outcome, Mute (rest outcome)) :
    Assures start strict (fun _ => Still strict Free)
      ((oweOwnerNotification row ending).bind fun owed =>
        move.bind fun _ => (deliverOwedNotification row.id owed).bind rest) s := by
  refine Safe.bind hi (oweOwnerNotification_safe apart_free hi h hheld) (fun owed s hi h => ?_) fun _ _ _ h => h.1
  have hwithin : Upholds start strict (Still strict (Holds row.id (some owed))) move :=
    Safe.leaves (still_stable rowwise_holds)
      (hmove.mono fun _ hop => within_leaves rowwise_holds (fun _ hheld => ⟨owed, hheld⟩) hop)
  refine Safe.bind hi (hwithin s hi ⟨h.1.1, h.2 owed rfl⟩) (fun _ s hi h => ?_) fun _ _ _ h => ⟨h.1, trivial⟩
  refine Safe.bind hi (deliverOwedNotification_safe apart_free hi ⟨h.1, trivial⟩ h.2) (fun outcome s hi h => ?_)
    fun _ _ _ h => h
  exact mute_maintains rowwise_free (hrest outcome) s hi h

end Delivering

section Routes

variable {start s : State} {strict : Prop} {A : Type} {config : QaConfig}

theorem within_transition (storyId runId : String) (action : StoryAction) :
    Prog.Uses (fun op : Op => op.within runId = true) (transitionStory storyId action (some runId)) :=
  .perform (decide_eq_true rfl)

abbrev SoundWith (start : State) (strict : Prop) (row : Run) (p : Job A) : Prop :=
  ∀ s, Inv start strict s → Still strict (Holds row.id row.ownerNotification) s →
    Assures start strict (fun _ => Still strict Free) p s

variable {row : Run}

theorem soundWith_mute {p : Job A} (hp : Mute p) : SoundWith start strict row p :=
  fun s hi h => mute_maintains rowwise_free hp s hi ⟨h.1, trivial⟩

theorem soundWith_bind {B : Type} {p : Job B} {f : B → Job A} (hp : Mute p)
    (hf : ∀ b, SoundWith start strict row (f b)) : SoundWith start strict row (p.bind f) := fun s hi h =>
  Safe.bind hi (mute_maintains rowwise_holds hp s hi h) (fun b s hi h => hf b s hi h) fun _ _ _ h => ⟨h.1, trivial⟩

theorem soundWith_then {B : Type} {p : Job B} {f : B → Job A} (hp : SoundWith start strict row p)
    (hf : ∀ b, Mute (f b)) : SoundWith start strict row (p.bind f) := fun s hi h =>
  Safe.bind hi (hp s hi h) (fun b s hi h => mute_maintains rowwise_free (hf b) s hi h) fun _ _ _ h => h

theorem soundWith_tell {ending : Ending} {B : Type} {move : Job B} {rest : OwnerNotificationOutcome → Job A}
    (hmove : Prog.Uses (fun op : Op => op.within row.id = true) move) (hrest : ∀ outcome, Mute (rest outcome)) :
    SoundWith start strict row ((oweOwnerNotification row ending).bind fun owed =>
      move.bind fun _ => (deliverOwedNotification row.id owed).bind rest) := fun _ hi h =>
  tell_safe hi ⟨h.1, trivial⟩ h.2 hmove hrest

theorem completeStory_sound (story : Story) (row : Run) : SoundWith start strict row (completeStory story row) := by
  unfold completeStory
  split
  · exact fun s _ h => ⟨h.1, trivial⟩
  · exact soundWith_tell (within_transition ..) fun _ => trivial

theorem quarantine_sound (story : Story) (row : Run) (result : QaRunResult) :
    SoundWith start strict row (quarantineUnverifiedApplication story row result) := by
  unfold quarantineUnverifiedApplication
  split
  · exact fun s _ h => ⟨h.1, trivial⟩
  · exact soundWith_bind (.perform rfl) fun _ => soundWith_bind (.perform rfl) fun _ =>
      soundWith_tell (within_transition ..) fun _ => trivial

theorem escalateExhausted_sound (story : Story) (row : Run) (evidence : QaEvidence) :
    SoundWith start strict row (escalateExhausted config story row evidence) :=
  soundWith_bind (.perform rfl) fun _ => soundWith_tell (within_transition ..) fun _ => .perform rfl

theorem handleQaFailed_sound (story : Story) (row : Run) (result : QaRunResult) :
    SoundWith start strict row (handleQaFailed config story row result) := by
  refine soundWith_bind (.perform rfl) fun tasks => ?_
  unfold answerQaFailure
  split
  · exact soundWith_mute (.bind (.perform rfl) fun _ => trivial)
  · dsimp only
    split
    · exact soundWith_then (escalateExhausted_sound _ _ _) fun _ => trivial
    · exact soundWith_mute (.bind (.perform rfl) fun _ => .bind (.perform rfl) fun _ => trivial)

theorem routeQaRun_sound (story : Story) (row : Run) : SoundWith start strict row (routeQaRun config story (some row)) := by
  unfold routeQaRun
  dsimp only
  split
  · exact soundWith_mute (.bind (.perform rfl) fun _ => trivial)
  · exact soundWith_mute trivial
  · split
    · exact soundWith_mute trivial
    · unfold routeQaOutcome
      split
      · exact soundWith_then (completeStory_sound _ _) fun _ => trivial
      · split
        · exact soundWith_then (quarantine_sound _ _ _) fun _ => trivial
        · refine soundWith_then (handleQaFailed_sound _ _ _) fun outcome => ?_
          match outcome with
          | some true | some false | none => trivial
      · exact soundWith_then (quarantine_sound _ _ _) fun _ => trivial
    · exact soundWith_mute trivial

theorem read_safe {op : Op} (hop : op.mute = true) {Q : Op.Res op → State → Prop}
    (hQ : ∀ s reply v, Based start s → (run .scheduler op reply s).1 = .ok v → Q v (run .scheduler op reply s).2)
    (h : Still strict Free s) : Assures start strict
      (fun r s => Still strict Free s ∧ ∀ v, r = .ok v → Q v s) (perform op) s := by
  refine Safe.perform fun s' hi hr reply _ => ?_
  have hstep : Unsaid s' (run .scheduler op reply s').2 := run_unsaid hop
  have h := h.tolerates rowwise_free (hr rfl).1 (hr rfl).2
  exact ⟨keeps_of_inv (hstep.inv hi), hstep.still rowwise_free h, fun v heq => hQ s' reply v hi.1 heq⟩

theorem serve_ok {B : Type} {fate : Fate Exn} {exec : State → Except Exn B × State} {v : B} {Q : B → State → Prop}
    (h : (fate.serve exec s).1 = .ok v) (hexec : (exec s).1 = .ok v → Q v (exec s).2) : Q v (fate.serve exec s).2 := by
  cases fate with
  | served => exact hexec h
  | _ => cases h

def Known (rows : List Run) (s : State) : Prop := ∀ row ∈ rows, Holds row.id row.ownerNotification s

def Listed (rows : List Run) (s : State) : Prop := Known rows s ∧ (rows.map (·.id)).Nodup

theorem known_of_based (h : Based start s) {rows : List Run} (hrows : ∀ row ∈ rows, row ∈ s.runs) : Known rows s :=
  fun row hrow => holds_of_mem h.ids (hrows row hrow)

theorem latestParsed_safe (storyId : String) (type : RunType) (hi : Inv start strict s) (h : Still strict Free s) :
    Assures start strict
      (fun r s => Still strict Free s ∧ ∀ row, r = .ok (some (some row)) → Holds row.id row.ownerNotification s)
      (latestParsed storyId type) s := by
  have hread : Assures start strict
      (fun r s => Still strict Free s ∧ ∀ found, r = .ok found → Known found.toList s) (getLatestRunByStory storyId type) s := by
    refine read_safe rfl (fun s reply found hbased heq => serve_ok (Q := fun found s => Known found.toList s) heq fun heq => ?_) h
    unfold State.getLatestRunByStory at heq ⊢
    split at heq
    · cases heq
      exact fun row hrow => nomatch hrow
    · next row hrow =>
      split at heq
      · next hvalid =>
        cases heq
        simp only [hvalid]
        exact known_of_based hbased fun row' hmem => by
          obtain rfl : row' = row := by simpa using hmem
          exact List.mem_of_find?_eq_some hrow
      · cases heq
  refine Safe.handle (M := fun r s => Still strict Free s ∧ ∀ row, r = .ok (some (some row)) →
    Holds row.id row.ownerNotification s) hi ?_ (fun _ _ _ h => h) fun e s hi h => ?_
  · refine Safe.bind hi hread (fun found s hi h => ⟨h.1, fun row heq => ?_⟩) fun e s _ h => ⟨h.1, fun row heq => by cases heq⟩
    cases heq
    exact h.2 (some row) rfl row (by simp)
  · split
    · exact ⟨h.1, fun row heq => by cases heq⟩
    · exact ⟨h.1, fun row heq => by cases heq⟩

theorem mute_failStory (story : Story) : Mute (failStoryOnInvalidResult story) :=
  .bind (.perform rfl) fun _ => .bind (.perform rfl) fun _ => trivial

theorem superviseTestingStory_sound (story : Story) :
    Upholds start strict (Still strict Free) (superviseTestingStory config story) := by
  intro s hi h
  refine Safe.bind hi (latestParsed_safe _ _ hi h) (fun found s hi h => ?_) fun _ _ _ h => h.1
  match found with
  | none => exact mute_maintains rowwise_free (mute_failStory story) s hi h.1
  | some none => exact h.1
  | some (some row) => exact routeQaRun_sound story row s hi ⟨h.1.1, h.2 row rfl⟩

theorem superviseTestingStories_sound :
    Upholds start strict (Still strict Free) (superviseTestingStories config) := by
  have each (stories : List Story) :
      Upholds start strict (Still strict Free) (superviseEach config stories) := by
    induction stories with
    | nil => exact .ret []
    | cons story rest ih => exact .bind (superviseTestingStory_sound story) fun _ => .bind ih fun _ => .ret _
  exact .bind (mute_maintains rowwise_free (.perform rfl)) each

theorem refuseTask_sound (task : Task) (storyId : String) (row : Run) :
    SoundWith start strict row (refuseTask task storyId row) :=
  soundWith_tell (.bind (.perform rfl) fun _ => .bind (within_transition ..) fun _ => .perform rfl) fun _ => trivial

theorem superviseFailedTask_sound (task : Task) :
    Upholds start strict (Still strict Free) (superviseFailedTask task) := by
  unfold superviseFailedTask
  split
  · exact .ret ()
  · next storyId _ =>
    intro s hi h
    have hread : Assures start strict
        (fun r s => Still strict Free s ∧ ∀ rows, r = .ok rows → Known rows s)
        (perform (.listRuns task.id)) s := by
      refine read_safe rfl (fun s reply rows hbased heq => serve_ok (Q := Known) heq fun heq => ?_) h
      unfold State.listRuns at heq ⊢
      dsimp only at heq ⊢
      split at heq
      · next hvalid =>
        cases heq
        rw [if_pos hvalid]
        exact known_of_based hbased fun row hrow => (List.mem_filter.mp hrow).1
      · cases heq
    refine Safe.bind hi hread (fun rows s hi h => ?_) fun _ _ _ h => h.1
    unfold routeFailedTask
    split
    · exact h.1
    · next row rest =>
      split
      · split
        · exact refuseTask_sound task storyId row s hi ⟨h.1.1, h.2 _ rfl row List.mem_cons_self⟩
        · exact h.1
      · exact h.1

theorem superviseFailedTasks_sound :
    Upholds start strict (Still strict Free) superviseFailedTasks :=
  .bind (mute_maintains rowwise_free (.perform rfl)) fun _ => .forEach fun task _ => superviseFailedTask_sound task

theorem escalateRefusedDeploy_sound (story : Story) (row : Run) (result : DeployRunResult) (reason : AllocationFailureReason) :
    SoundWith start strict row (escalateRefusedDeploy story row result reason) := by
  have hmove : Prog.Uses (fun op : Op => op.within row.id = true)
      ((transitionStory story.id .humanReview (some row.id)).bind fun _ =>
        ask (.notifyAdmins (row.id ++ ": " ++ refusedDetail result))) :=
    .bind (within_transition ..) fun _ => .perform rfl
  have hroute : SoundWith start strict row ((oweOwnerNotification row ⟨"story_impossible_capacity", impossibleCapacityText,
      story.id, story.projectId, .waitingHumanReview, none⟩).bind fun owed =>
        ((transitionStory story.id .humanReview (some row.id)).bind fun _ =>
          ask (.notifyAdmins (row.id ++ ": " ++ refusedDetail result))).bind fun _ =>
            (deliverOwedNotification row.id owed).bind fun _ => .ret ()) :=
    soundWith_tell hmove fun _ => trivial
  simp only [Prog.bind_assoc] at hroute
  exact soundWith_bind (.perform rfl) fun _ => hroute

theorem routeDeployRun_sound (story : Story) (row : Run) : SoundWith start strict row (routeDeployRun story (some row)) := by
  unfold routeDeployRun
  dsimp only
  split
  · split
    · split
      · split
        · exact escalateRefusedDeploy_sound _ _ _ _
        · exact soundWith_mute trivial
      · exact soundWith_mute trivial
    · exact soundWith_mute trivial
  · exact soundWith_mute trivial

theorem superviseDeployingStory_sound (story : Story) :
    Upholds start strict (Still strict Free) (superviseDeployingStory story) := by
  intro s hi h
  refine Safe.bind hi (latestParsed_safe _ _ hi h) (fun found s hi h => ?_) fun _ _ _ h => h.1
  match found with
  | none => exact (mute_maintains rowwise_free (mute_failStory story)).bind (fun _ => .ret ()) s hi h.1
  | some none => exact h.1
  | some (some row) => exact routeDeployRun_sound story row s hi ⟨h.1.1, h.2 row rfl⟩

theorem superviseDeployingStories_sound :
    Upholds start strict (Still strict Free) superviseDeployingStories :=
  .bind (mute_maintains rowwise_free (.perform rfl)) fun _ => .forEach fun story _ => superviseDeployingStory_sound story

theorem deliverEach_safe (rows : List Run) (hids : (rows.map (·.id)).Nodup) (hi : Inv start strict s)
    (h : Still strict (Known rows) s) :
    Assures start strict (fun _ => Still strict Free) (deliverEach rows) s := by
  induction rows generalizing s with
  | nil => exact ⟨h.1, trivial⟩
  | cons row rest ih =>
    rw [List.map_cons, List.nodup_cons] at hids
    unfold deliverEach
    split
    · exact ⟨h.1, trivial⟩
    · next record hrecord =>
      have hapart : Apart row.id (Known rest) := fun s s' hkept hknown other hother =>
        hkept other.id (fun heq => hids.1 (heq ▸ List.mem_map_of_mem hother)) _ (hknown other hother)
      have hheld : Holds row.id (some record) s := hrecord ▸ h.2 row List.mem_cons_self
      have hrest : Still strict (Known rest) s := ⟨h.1, fun other hother => h.2 other (List.mem_cons_of_mem _ hother)⟩
      refine Safe.bind hi (deliverOwedNotification_safe hapart hi hrest hheld) (fun outcome s hi h => ?_)
        fun _ _ _ h => ⟨h.1, trivial⟩
      exact Safe.bind hi (ih hids.2 hi h) (fun _ _ _ h => h) fun _ _ _ h => h

theorem superviseOwed_sound :
    Upholds start strict (Still strict Free) superviseOwedOwnerNotifications := by
  intro s hi h
  have hread : Assures start strict
      (fun r s => Still strict Free s ∧ ∀ rows, r = .ok rows → Listed rows s)
      (perform .listRunsOwing) s := by
    refine read_safe rfl (fun s reply rows hbased heq =>
      serve_ok (Q := Listed) heq fun heq => ?_) h
    unfold State.listRunsOwing at heq ⊢
    dsimp only at heq ⊢
    split at heq
    · next hvalid =>
      cases heq
      rw [if_pos hvalid]
      have hsub : ((s.runs.reverse.filter State.owing).take ownerNotificationPage).Sublist s.runs.reverse :=
        (List.take_sublist _ _).trans List.filter_sublist
      refine ⟨known_of_based hbased fun row hrow => List.mem_reverse.mp (hsub.subset hrow), (hsub.map _).nodup ?_⟩
      rw [List.map_reverse]
      exact List.pairwise_reverse.mpr (hbased.ids.imp Ne.symm)
    · cases heq
  refine Safe.bind hi hread (fun rows s hi h => ?_) fun _ _ _ h => h.1
  exact deliverEach_safe rows (h.2 rows rfl).2 hi ⟨h.1.1, (h.2 rows rfl).1⟩

theorem tick_sound : Upholds start strict (Still strict Free) (schedulerTick config) :=
  .bind superviseFailedTasks_sound fun _ => .bind superviseDeployingStories_sound fun _ =>
    .bind superviseOwed_sound fun _ => .bind superviseTestingStories_sound fun _ => .ret ()

theorem notice_start (t : Party) (hi : Inv start strict s) (hrest : (noticeRules start strict).rest t s) :
    (noticeRules start strict).Safe t ((noticeRules start strict).Finishes t) (body config t) s := by
  cases t with
  | scheduler =>
    refine (tick_sound s hi ⟨fun hstrict => hrest rfl hstrict, trivial⟩).conseq hi fun r s hi h => ?_
    exact ⟨.refl _ hi, fun _ hstrict => h.1 hstrict⟩
  | outside execution =>
    refine Safe.perform fun s' hi' _ reply _ => ?_
    have htrace := outside_trace reply.change s'
    have hkept : Inv start strict (reply.change.apply s') :=
      ⟨hi'.1.outside reply.change, fun hstrict => htrace ▸ hi'.2 hstrict⟩
    refine ⟨⟨hkept, fun u _ _ => ⟨htrace, fun id => ((outside_kept reply.change hi'.1.ids).2 id).2⟩⟩, .refl _ hkept, fun ht => ?_⟩
    cases ht

theorem notice_stop (t : Party) (hi : Inv start strict s) (hadmits : strict → accounted s (.stop t)) :
    (noticeRules start strict).Ends t none s := by
  refine ⟨.refl _ hi, fun ht hstrict runId => ?_⟩
  subst ht
  cases hout : outstanding runId s.trace with
  | false => rfl
  | true =>
    obtain ⟨row, hrow⟩ := Option.isSome_iff_exists.mp (hi.1.known runId hout)
    have hid : row.id = runId := by simpa using List.find?_some hrow
    have hquiet : outstanding row.id s.trace = false := hadmits hstrict row (List.mem_of_find?_eq_some hrow)
    rw [hid] at hquiet
    exact hout.symm.trans hquiet

theorem reaches_noticed {c : Config pipelineWorld} (hids : (start.runs.map (·.id)).Nodup) (htrace : start.trace = [])
    (h : Reaches (body config) (noticeRules start strict).admits (Config.idle start : Config pipelineWorld) c) :
    Inv start strict c.state := by
  have hi : Inv start strict start := by
    refine ⟨⟨hids, fun runId => ?_, fun runId hout => ?_, fun storyId fromStatus toStatus runId hmem _ => ?_, ?_⟩, fun _ => ?_⟩
    · rw [htrace]
      rfl
    · rw [htrace] at hout
      cases hout
    · rw [htrace] at hmem
      cases hmem
    · intro newer older runId event heq
      rw [htrace] at heq
      cases newer <;> cases heq
    · rw [htrace]
      exact .nil start
  have hidle : (noticeRules start strict).Sound (Config.idle start : Config pipelineWorld) := by
    refine .idle hi fun t _ _ runId => ?_
    rw [htrace]
    rfl
  exact (reaches_sound hidle (fun t s hi hrest _ => notice_start t hi hrest) (fun t s hi hadmits => notice_stop t hi hadmits) h).inv

end Routes

/-- Every ending that is told to the owner has its record, and nothing is sent but
what the record says of a story that was read as the record has it. As long as
every message is told of on its record, none is sent for a settled one, and no more
than the attempts there are. -/
theorem owner_notices_kept (config : QaConfig) (start : State) (hids : (start.runs.map (·.id)).Nodup)
    (htrace : start.trace = []) (c : Config pipelineWorld) :
    (Reaches (body config) anyMove (Config.idle start) c → Noticed start c.state) ∧
      (Reaches (body config) accounted (Config.idle start) c → Spared start c.state) := by
  refine ⟨fun h => ?_, fun h => ?_⟩
  · have hreach : Reaches (body config) (noticeRules start False).admits (Config.idle start) c :=
      h.mono fun _ _ _ hnever => hnever.elim
    exact (reaches_noticed hids htrace hreach).1.noticed
  · have hreach : Reaches (body config) (noticeRules start True).admits (Config.idle start) c :=
      h.mono fun _ _ hadmits _ => hadmits
    have hcounted := (reaches_noticed hids htrace hreach).2 trivial
    exact ⟨hcounted.unsettled, hcounted.bounded⟩

def owedRecord : OwnerNotification where
  event := "story_completed"
  text := "done"
  storyId := "s"
  projectId := "p"
  terminalStatus := .completed
  taskId := none
  state := .owed
  owedAt := 0
  attempts := 0
  detail := none

def inDebt : State where
  stories := [⟨"s", "p", .completed, none, none⟩]
  tasks := []
  runs := [⟨"r", some "s", none, .qa, .completed, true, none, none, none, some owedRecord⟩]
  trace := []

def noticeReply : Reply where
  fate := .served
  newId := ""
  service call := match call with
    | .clock => .ok (0 : Nat)
    | .getPrimaryRepository _ => .ok none
    | .getLatestWorkflowRun .. => .ok none
    | .getWorkflowFailureDetails .. => .ok ⟨[], none⟩
    | .stopApplication _ => .ok ()
    | .resolveProjectRecipient .. => .ok ⟨"chat", "owner", ""⟩
    | .notifyAdmins _ => .ok ()
    | .recoverQaHandoff _ => .ok false
  change := .writeStory ⟨"s", "p", .completed, none, none⟩

def noticeConfig : QaConfig := ⟨1, 2, fun summary _ => summary⟩

def sampleUnnoted : List (Turn pipelineWorld) :=
  .start .scheduler :: (List.replicate 6 (.call .scheduler fun _ => noticeReply) ++
    [.call .scheduler fun _ => { noticeReply with fate := .unsent (.exception "ConnectError") }])

def sampleNoted : List (Turn pipelineWorld) :=
  .start .scheduler :: List.replicate 8 (.call .scheduler fun _ => noticeReply)

theorem sample_notice_kept :
    Spared inDebt ((Config.idle inDebt).play (body noticeConfig) (sampleNoted ++ sampleNoted)).state ∧
      publishes "r" ((Config.idle inDebt).play (body noticeConfig) (sampleNoted ++ sampleNoted)).state.trace = 1 :=
  ⟨(owner_notices_kept noticeConfig inDebt (by decide) rfl _).2 (play_reaches (by decide +kernel)), by decide +kernel⟩

theorem unnoted_notice_repeats : ¬ ∀ (config : QaConfig) (start : State), (start.runs.map (·.id)).Nodup → start.trace = [] →
    ∀ c : Config pipelineWorld, Reaches (body config) anyMove (Config.idle start) c →
      ∀ runId, publishes runId c.state.trace ≤ ownerNotificationMaxAttempts := by
  intro h
  refine absurd (h noticeConfig inDebt (by decide) rfl _
    (play_reaches_anyMove _ _ (sampleUnnoted ++ sampleUnnoted ++ sampleUnnoted ++ sampleUnnoted)) "r") ?_
  decide +kernel

end Orchestrator.Pipeline
