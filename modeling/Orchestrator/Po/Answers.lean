import Orchestrator.Po.Consumer

/-!
What every act of a handling finds before it: the entry is handled once at a time, its chat is
locked for it, and it is acknowledged only when its handling has come to an outcome.
-/

namespace Orchestrator.Po

open Async Rules

def processing (msgId : String) : List Event → Option Nat
  | [] => none
  | .dispatched n other _ :: log => if other = msgId then some n else processing msgId log
  | .finished _ other :: log => if other = msgId then none else processing msgId log
  | _ :: log => processing msgId log

def holder (telegramChatId : String) : List Event → Option Nat
  | [] => none
  | .acquired n other :: log => if other = telegramChatId then some n else holder telegramChatId log
  | .released _ other :: log => if other = telegramChatId then none else holder telegramChatId log
  | _ :: log => holder telegramChatId log

def Works (n : Nat) (msgId : String) (message : POInputMessage) (log : List Event) : Prop :=
  .dispatched n msgId message ∈ log ∧ processing msgId log = some n

def Handles (n : Nat) (msgId : String) (message : POInputMessage) (log : List Event) : Prop :=
  Works n msgId message log ∧ holder message.telegramChatId log = some n

def Reported (n : Nat) (log : List Event) : Prop := .notified n ∈ log ∨ ∃ text e, .raised n (.notifyAdmins text) e ∈ log

/-- The handling has published a response, an error response among them, or a proactive message;
or it has dropped the entry. -/
def Answered (n : Nat) (message : POInputMessage) (log : List Event) : Prop :=
  (∃ fields, .published n message.modelDump.replyStream fields ∈ log) ∨ message.modelDump.dropped = true ∨
    (message.telegramChatId = "" ∧ Reported n log) ∨ (message.modelDump.requestId = none ∧ .replied n "" ∈ log)

/-- The handling was cancelled, or it raised where nobody waits for an error response, or the error
response could not be published. -/
def Failed (n : Nat) (message : POInputMessage) (log : List Event) : Prop :=
  (∃ call, .raised n call .cancelledError ∈ log) ∨
    (message.modelDump.requestId = none ∧ ∃ call e, .raised n call e ∈ log) ∨
    ∃ e, .raised n (.publishFlat message.modelDump.replyStream (errorResponse message.telegramChatId)) e ∈ log

def Due : Event → List Event → Prop
  | .dispatched _ msgId _, older => processing msgId older = none
  | .finished n msgId, older => processing msgId older = some n
  | .acquired n telegramChatId, older => holder telegramChatId older = none ∧
      ∃ msgId message, Works n msgId message older ∧ message.telegramChatId = telegramChatId
  | .released n telegramChatId, older => holder telegramChatId older = some n
  | .raised n _ _, older => ∃ msgId message, Handles n msgId message older
  | .published n _ _, older => ∃ msgId message, Handles n msgId message older
  | .notified n, older => ∃ msgId message, Handles n msgId message older
  | .replied n _, older => ∃ msgId message, Handles n msgId message older
  | .acked n msgId, older => ∃ message, Handles n msgId message older ∧ (Answered n message older ∨ Failed n message older)

def Event.neutral : Event → Bool
  | raised .. => true
  | published .. => true
  | notified _ => true
  | replied .. => true
  | acked .. => true
  | _ => false

section Logs

variable {n : Nat} {msgId telegramChatId : String} {message : POInputMessage} {log log' : List Event} {event : Event}

theorem processing_neutral (h : event.neutral = true) : processing msgId (event :: log) = processing msgId log := by
  cases event with
  | dispatched | finished | acquired | released => cases h
  | _ => rfl

theorem holder_neutral (h : event.neutral = true) : holder telegramChatId (event :: log) = holder telegramChatId log := by
  cases event with
  | dispatched | finished | acquired | released => cases h
  | _ => rfl

theorem Answered.mono (h : Answered n message log) (hsub : log ⊆ log') : Answered n message log' := by
  rcases h with ⟨fields, hpublished⟩ | hdropped | ⟨hchat, hreported⟩ | ⟨hrequest, hreplied⟩
  · exact .inl ⟨fields, hsub hpublished⟩
  · exact .inr (.inl hdropped)
  · refine .inr (.inr (.inl ⟨hchat, ?_⟩))
    rcases hreported with hnotified | ⟨text, e, hraised⟩
    · exact .inl (hsub hnotified)
    · exact .inr ⟨text, e, hsub hraised⟩
  · exact .inr (.inr (.inr ⟨hrequest, hsub hreplied⟩))

theorem Failed.mono (h : Failed n message log) (hsub : log ⊆ log') : Failed n message log' := by
  rcases h with ⟨call, hraised⟩ | ⟨hrequest, call, e, hraised⟩ | ⟨e, hraised⟩
  · exact .inl ⟨call, hsub hraised⟩
  · exact .inr (.inl ⟨hrequest, call, e, hsub hraised⟩)
  · exact .inr (.inr ⟨e, hsub hraised⟩)

end Logs

structure Inv (s : State) : Prop where
  clean : Clean Due s.trace
  fresh : ∀ n, s.next ≤ n → s.tasks n = none
  inFlight : ∀ n task, s.tasks n = some task → task.phase ≠ .forgotten → s.inFlight task.msgId = some n
  known : ∀ n task, s.tasks n = some task → .dispatched n task.msgId task.message ∈ s.trace
  processing : ∀ msgId n, processing msgId s.trace = some n → ∃ task, s.tasks n = some task ∧ task.msgId = msgId ∧ task.phase.live = true
  live : ∀ n task, s.tasks n = some task → task.phase.live = true → Po.processing task.msgId s.trace = some n
  locks : ∀ telegramChatId, s.locks telegramChatId = holder telegramChatId s.trace

structure Kept (n : Nat) (s s' : State) : Prop where
  grows : s.trace ⊆ s'.trace
  task : ∀ task, s.tasks n = some task → task.phase = .running → s'.tasks n = some task
  locks : ∀ telegramChatId, s.locks telegramChatId = some n → s'.locks telegramChatId = some n

theorem Kept.refl (n : Nat) (s : State) : Kept n s s := ⟨fun _ h => h, fun _ h _ => h, fun _ h => h⟩

theorem Kept.trans {n : Nat} {s s' s'' : State} (h : Kept n s s') (h' : Kept n s' s'') : Kept n s s'' :=
  ⟨fun _ hmem => h'.grows (h.grows hmem), fun task hn hp => h'.task task (h.task task hn hp) hp,
    fun chat hchat => h'.locks chat (h.locks chat hchat)⟩

def handlings : Rules poWorld where
  admits := unblocked
  inv := Inv
  rely t s s' := ∀ n, t = .task n → Kept n s s'
  rely_refl _ s n _ := .refl n s
  rely_trans h h' n hn := (h n hn).trans (h' n hn)
  rest _ _ := True
  rest_stable _ _ _ := trivial

section Steps

variable {n : Nat} {msgId telegramChatId : String} {message : POInputMessage} {s : State} {event : Event}

theorem start_inv : Inv .start where
  clean := trivial
  fresh _ _ := rfl
  inFlight _ _ h := nomatch h
  known _ _ h := nomatch h
  processing _ _ h := nomatch h
  live _ _ h := nomatch h
  locks _ := rfl

theorem record_inv (hi : Inv s) (hneutral : event.neutral = true) (hdue : Due event s.trace) : Inv (s.record [event]) where
  clean := ⟨hdue, hi.clean⟩
  fresh := hi.fresh
  inFlight := hi.inFlight
  known n task h := List.mem_cons_of_mem _ (hi.known n task h)
  processing msgId n h := hi.processing msgId n (by rw [← h]; exact (processing_neutral hneutral).symm)
  live n task h hl := (processing_neutral hneutral).trans (hi.live n task h hl)
  locks chat := (hi.locks chat).trans (holder_neutral hneutral).symm

theorem dispatch_inv (hi : Inv s) : Inv (s.dispatch msgId message) := by
  unfold State.dispatch
  split
  · exact hi
  next hflight =>
  have hnone : processing msgId s.trace = none := by
    cases hp : processing msgId s.trace with
    | none => rfl
    | some n =>
      obtain ⟨task, htask, hid, hlive⟩ := hi.processing msgId n hp
      have hin := hi.inFlight n task htask (by rintro heq; rw [heq] at hlive; cases hlive)
      rw [hid, hflight] at hin
      cases hin
  have hold : ∀ n task, Function.update s.tasks s.next (some ⟨msgId, message, .created⟩) n = some task →
      (n = s.next ∧ task = ⟨msgId, message, .created⟩) ∨ s.tasks n = some task := by
    intro n task h
    by_cases hn : n = s.next
    · subst hn
      rw [Function.update_self, Option.some.injEq] at h
      exact .inl ⟨rfl, h.symm⟩
    · rw [Function.update_of_ne hn] at h
      exact .inr h
  have hother : ∀ n task, s.tasks n = some task → task.phase ≠ .forgotten → task.msgId ≠ msgId := by
    intro n task h hphase hid
    have hin := hi.inFlight n task h hphase
    rw [hid, hflight] at hin
    cases hin
  refine ⟨⟨hnone, hi.clean⟩, ?_, ?_, ?_, ?_, ?_, hi.locks⟩
  · intro n hle
    have hn : n ≠ s.next := by
      rintro rfl
      exact absurd hle (Nat.not_succ_le_self _)
    exact (Function.update_of_ne hn ..).trans (hi.fresh n (Nat.le_of_succ_le hle))
  · intro n task h hphase
    rcases hold n task h with ⟨rfl, rfl⟩ | h
    · exact Function.update_self ..
    · exact (Function.update_of_ne (hother n task h hphase) ..).trans (hi.inFlight n task h hphase)
  · intro n task h
    rcases hold n task h with ⟨rfl, rfl⟩ | h
    · exact List.mem_cons_self
    · exact List.mem_cons_of_mem _ (hi.known n task h)
  · intro id n h
    simp only [Po.processing] at h
    split at h
    · next heq =>
      cases h
      exact ⟨_, Function.update_self .., heq, rfl⟩
    · obtain ⟨task, htask, hid, hlive⟩ := hi.processing id n h
      have hn : n ≠ s.next := by
        rintro rfl
        rw [hi.fresh _ (Nat.le_refl _)] at htask
        cases htask
      exact ⟨task, (Function.update_of_ne hn ..).trans htask, hid, hlive⟩
  · intro n task h hlive
    simp only [Po.processing]
    rcases hold n task h with ⟨rfl, rfl⟩ | h
    · exact if_pos rfl
    · have hne := hother n task h (by rintro heq; rw [heq] at hlive; cases hlive)
      rw [if_neg (Ne.symm hne)]
      exact hi.live n task h hlive

theorem dispatch_kept (hi : Inv s) : Kept n s (s.dispatch msgId message) := by
  unfold State.dispatch
  split
  · exact .refl n s
  · refine ⟨List.subset_cons_self .., fun task h _ => ?_, fun _ h => h⟩
    have hn : n ≠ s.next := by
      rintro rfl
      rw [hi.fresh _ (Nat.le_refl _)] at h
      cases h
    exact (Function.update_of_ne hn ..).trans h

theorem setPhase_tasks {task : Task} {phase : Phase} {m : Nat} {other : Task}
    (h : (s.setPhase n task phase).tasks m = some other) :
    (m = n ∧ other = { task with phase := phase }) ∨ (m ≠ n ∧ s.tasks m = some other) := by
  change Function.update s.tasks n (some { task with phase := phase }) m = some other at h
  by_cases hm : m = n
  · subst hm
    rw [Function.update_self, Option.some.injEq] at h
    exact .inl ⟨rfl, h.symm⟩
  · rw [Function.update_of_ne hm] at h
    exact .inr ⟨hm, h⟩

theorem setPhase_fresh {task : Task} {phase : Phase} (hi : Inv s) (htask : s.tasks n = some task) :
    ∀ m, s.next ≤ m → (s.setPhase n task phase).tasks m = none := by
  intro m hle
  have hm : m ≠ n := by
    rintro rfl
    rw [hi.fresh m hle] at htask
    cases htask
  exact (Function.update_of_ne hm ..).trans (hi.fresh m hle)

theorem setPhase_inv {task : Task} {phase : Phase} (hi : Inv s) (htask : s.tasks n = some task)
    (hlive : task.phase.live = true) (hphase : phase.live = true) : Inv (s.setPhase n task phase) where
  clean := hi.clean
  fresh := setPhase_fresh hi htask
  inFlight m other h hother := by
    rcases setPhase_tasks h with ⟨rfl, rfl⟩ | ⟨_, h⟩
    · exact hi.inFlight m task htask (by rintro heq; rw [heq] at hlive; cases hlive)
    · exact hi.inFlight m other h hother
  known m other h := by
    rcases setPhase_tasks h with ⟨rfl, rfl⟩ | ⟨_, h⟩
    · exact hi.known m task htask
    · exact hi.known m other h
  processing id m h := by
    obtain ⟨other, hother, hid, hl⟩ := hi.processing id m h
    by_cases hm : m = n
    · subst hm
      cases htask.symm.trans hother
      exact ⟨_, Function.update_self .., hid, hphase⟩
    · exact ⟨other, (Function.update_of_ne hm ..).trans hother, hid, hl⟩
  live m other h hl := by
    rcases setPhase_tasks h with ⟨rfl, rfl⟩ | ⟨_, h⟩
    · exact hi.live m task htask hlive
    · exact hi.live m other h hl
  locks := hi.locks

theorem finish_inv (hi : Inv s) (htask : s.tasks n = some ⟨msgId, message, .running⟩) :
    Inv ((s.setPhase n ⟨msgId, message, .running⟩ .finished).record [.finished n msgId]) := by
  have hother : ∀ m other, m ≠ n → s.tasks m = some other → other.phase.live = true → other.msgId ≠ msgId := by
    intro m other hm h hlive hid
    have hin := hi.inFlight m other h (by rintro heq; rw [heq] at hlive; cases hlive)
    have hown := hi.inFlight n _ htask nofun
    rw [hid] at hin
    exact hm (Option.some.inj (hin.symm.trans hown))
  refine ⟨⟨hi.live n _ htask rfl, hi.clean⟩, setPhase_fresh hi htask, ?_, ?_, ?_, ?_, hi.locks⟩
  · intro m other h hphase
    rcases setPhase_tasks h with ⟨rfl, rfl⟩ | ⟨_, h⟩
    · exact hi.inFlight m ⟨msgId, message, .running⟩ htask nofun
    · exact hi.inFlight m other h hphase
  · intro m other h
    rcases setPhase_tasks h with ⟨rfl, rfl⟩ | ⟨_, h⟩
    · exact List.mem_cons_of_mem _ (hi.known m ⟨msgId, message, .running⟩ htask)
    · exact List.mem_cons_of_mem _ (hi.known m other h)
  · intro id m h
    change Po.processing id (.finished n msgId :: s.trace) = some m at h
    simp only [Po.processing] at h
    split at h
    · cases h
    · next hne =>
      obtain ⟨task, htasks, hid, hlive⟩ := hi.processing id m h
      have hm : m ≠ n := by
        rintro rfl
        cases htask.symm.trans htasks
        exact hne hid
      exact ⟨task, (Function.update_of_ne hm ..).trans htasks, hid, hlive⟩
  · intro m other h hlive
    change Po.processing other.msgId (.finished n msgId :: s.trace) = some m
    simp only [Po.processing]
    rcases setPhase_tasks h with ⟨rfl, rfl⟩ | ⟨hm, h⟩
    · cases hlive
    · rw [if_neg (Ne.symm (hother m other hm h hlive))]
      exact hi.live m other h hlive

theorem ended_inv (hi : Inv s) (outcome : Option (Except Exn Unit)) : Inv (s.ended n outcome) := by
  unfold State.ended
  split
  · next msgId message _ htask => exact finish_inv hi htask
  · next msgId message htask => exact setPhase_inv hi htask rfl rfl
  · exact hi

theorem ended_kept {m : Nat} (hm : m ≠ n) (outcome : Option (Except Exn Unit)) : Kept m s (s.ended n outcome) := by
  unfold State.ended
  split
  · exact ⟨List.subset_cons_self .., fun task h _ => (Function.update_of_ne hm ..).trans h, fun _ h => h⟩
  · exact ⟨fun _ h => h, fun task h _ => (Function.update_of_ne hm ..).trans h, fun _ h => h⟩
  · exact .refl m s

theorem forget_inv (hi : Inv s) : Inv (s.forget n) := by
  unfold State.forget
  split
  next msgId message htask =>
    have hown := hi.inFlight n _ htask nofun
    refine ⟨hi.clean, setPhase_fresh hi htask, ?_, ?_, ?_, ?_, hi.locks⟩
    · intro m other h hphase
      rcases setPhase_tasks h with ⟨rfl, rfl⟩ | ⟨hm, h⟩
      · exact absurd rfl hphase
      · have hin := hi.inFlight m other h hphase
        have hid : other.msgId ≠ msgId := by
          rintro heq
          rw [heq] at hin
          exact hm (Option.some.inj (hin.symm.trans hown))
        exact (Function.update_of_ne hid ..).trans hin
    · intro m other h
      rcases setPhase_tasks h with ⟨rfl, rfl⟩ | ⟨_, h⟩
      · exact hi.known m ⟨msgId, message, .finished⟩ htask
      · exact hi.known m other h
    · intro id m h
      obtain ⟨other, hother, hid, hlive⟩ := hi.processing id m h
      have hm : m ≠ n := by
        rintro rfl
        cases htask.symm.trans hother
        cases hlive
      exact ⟨other, (Function.update_of_ne hm ..).trans hother, hid, hlive⟩
    · intro m other h hlive
      rcases setPhase_tasks h with ⟨rfl, rfl⟩ | ⟨_, h⟩
      · cases hlive
      · exact hi.live m other h hlive
  · exact hi

theorem forget_kept {m : Nat} : Kept m s (s.forget n) := by
  unfold State.forget
  split
  next msgId message htask =>
    refine ⟨fun _ h => h, fun task h hphase => ?_, fun _ h => h⟩
    have hm : m ≠ n := by
      rintro rfl
      cases htask.symm.trans h
      cases hphase
    exact (Function.update_of_ne hm ..).trans h
  · exact .refl m s

theorem acquire_inv (hi : Inv s) (hfree : s.locks message.telegramChatId = none)
    (htask : s.tasks n = some ⟨msgId, message, .running⟩) : Inv (s.acquire n message.telegramChatId) := by
  refine ⟨⟨⟨(hi.locks _).symm.trans hfree, msgId, message, ⟨hi.known n _ htask, hi.live n _ htask rfl⟩, rfl⟩, hi.clean⟩, hi.fresh,
    hi.inFlight, fun m other h => List.mem_cons_of_mem _ (hi.known m other h), hi.processing, hi.live, ?_⟩
  intro chat
  change Function.update s.locks message.telegramChatId (some n) chat = _
  simp only [State.acquire, holder]
  by_cases hchat : message.telegramChatId = chat
  · rw [if_pos hchat, hchat, Function.update_self]
  · rw [if_neg hchat, Function.update_of_ne (Ne.symm hchat)]
    exact hi.locks chat

theorem release_inv (hi : Inv s) (hheld : s.locks telegramChatId = some n) : Inv (s.release n telegramChatId) := by
  refine ⟨⟨(hi.locks _).symm.trans hheld, hi.clean⟩, hi.fresh,
    hi.inFlight, fun m other h => List.mem_cons_of_mem _ (hi.known m other h), hi.processing, hi.live, ?_⟩
  intro chat
  change Function.update s.locks telegramChatId none chat = _
  simp only [State.release, holder]
  by_cases hchat : telegramChatId = chat
  · rw [if_pos hchat, hchat, Function.update_self]
  · rw [if_neg hchat, Function.update_of_ne (Ne.symm hchat)]
    exact hi.locks chat

end Steps

section Programs

variable {n : Nat} {msgId : String} {message : POInputMessage} {s : State} {A : Type}

def Running (n : Nat) (msgId : String) (message : POInputMessage) (s : State) : Prop :=
  s.tasks n = some ⟨msgId, message, .running⟩

def Held (n : Nat) (msgId : String) (message : POInputMessage) (s : State) : Prop :=
  Running n msgId message s ∧ s.locks message.telegramChatId = some n

theorem Held.kept {s' : State} (h : Held n msgId message s) (hkept : Kept n s s') : Held n msgId message s' :=
  ⟨hkept.task _ h.1 rfl, hkept.locks _ h.2⟩

theorem Held.handles (h : Held n msgId message s) (hi : Inv s) : Handles n msgId message s.trace :=
  ⟨⟨hi.known n _ h.1, hi.live n _ h.1 rfl⟩, (hi.locks _).symm.trans h.2⟩

theorem record_held {events : List Event} (h : Held n msgId message s) : Held n msgId message (s.record events) := h

def Tells (n : Nat) (call : Call) (r : Except Exn call.Res) (log : List Event) : Prop :=
  match r with
  | .ok a => ∀ event ∈ call.events n .served a, event ∈ log
  | .error e => .raised n call e ∈ log

def Own (n : Nat) (event : Event) : Prop :=
  event.neutral = true ∧ ∀ log, (∃ msgId message, Handles n msgId message log) → Due event log

theorem records_inv {events : List Event} (hi : Inv s) (hown : ∀ event ∈ events, Own n event) (h : Held n msgId message s) :
    Inv (s.record events) := by
  induction events with
  | nil => exact hi
  | cons event events ih =>
    have hrest := ih fun other hmem => hown other (List.mem_cons_of_mem _ hmem)
    obtain ⟨hneutral, hdue⟩ := hown event List.mem_cons_self
    exact record_inv (s := s.record events) hrest hneutral (hdue _ ⟨msgId, message, (record_held h).handles hrest⟩)

theorem events_own (fate : Fate Exn) (call : Call) (a : call.Res) : ∀ event ∈ call.events n fate a, Own n event := by
  intro event hmem
  cases call with
  | ainvoke | notifyAdmins | publishFlat =>
    obtain ⟨_, rfl⟩ := List.mem_ite_nil_right.mp hmem |>.imp_right List.mem_singleton.mp
    exact ⟨rfl, fun _ h => h⟩
  | _ => cases hmem

theorem failures_own (fate : Fate Exn) (call : Call) : ∀ event ∈ call.failures n fate, Own n event := by
  intro event hmem
  obtain ⟨e, _, rfl⟩ := Option.map_eq_some_iff.mp (Option.mem_toList.mp hmem)
  exact ⟨rfl, fun _ h => h⟩

theorem ask_safe (h : Held n msgId message s) (call : Call) :
    handlings.Safe (.task n) (fun r s' => Held n msgId message s' ∧ Tells n call r s'.trace) (ask call) s := by
  refine Safe.perform fun s' hi hr reply _ => ?_
  have hheld := h.kept (hr n rfl)
  change handlings.Keeps (.task n) s' (serve n call reply s').2 ∧ Held n msgId message (serve n call reply s').2 ∧
    Tells n call (serve n call reply s').1 (serve n call reply s').2.trace
  refine ⟨⟨?_, ?_⟩, hheld, ?_⟩
  · refine records_inv hi (fun event hmem => ?_) hheld
    rcases List.mem_append.mp hmem with hmem | hmem
    · exact failures_own reply.fate call event hmem
    · exact events_own reply.fate call _ event hmem
  · rintro u _ m rfl
    exact ⟨List.subset_append_right .., fun _ h _ => h, fun _ h => h⟩
  · unfold serve Tells
    cases hfate : reply.fate with
    | served => exact fun event hmem => List.mem_append_left _ (List.mem_append_right _ hmem)
    | _ => exact List.mem_append_left _ (List.mem_append_left _ List.mem_cons_self)

def Raises (n : Nat) (Q : A → List Event → Prop) (r : Except Exn A) (log : List Event) : Prop :=
  match r with
  | .ok a => Q a log
  | .error e => ∃ call, .raised n call e ∈ log

def Handling (n : Nat) (msgId : String) (message : POInputMessage) (Q : A → List Event → Prop) (r : Except Exn A) (s : State) : Prop :=
  Held n msgId message s ∧ Raises n Q r s.trace

variable {Q : A → List Event → Prop}

theorem ask_handling (hi : Inv s) (h : Held n msgId message s) (call : Call) : handlings.Safe (.task n)
    (Handling n msgId message fun a log => ∀ event ∈ call.events n .served a, event ∈ log) (ask call) s := by
  refine (ask_safe h call).conseq hi fun r s' _ hpost => ⟨hpost.1, ?_⟩
  cases r with
  | ok a => exact hpost.2
  | error e => exact ⟨call, hpost.2⟩

theorem bind_handling {B : Type} {P : B → List Event → Prop} {p : Job B} {f : B → Job A} (hi : Inv s)
    (hp : handlings.Safe (.task n) (Handling n msgId message P) p s)
    (hf : ∀ b s, Inv s → Held n msgId message s → P b s.trace → handlings.Safe (.task n) (Handling n msgId message Q) (f b) s) :
    handlings.Safe (.task n) (Handling n msgId message Q) (p.bind f) s :=
  Safe.bind hi hp (fun b s hi h => hf b s hi h.1 h.2) fun _ _ _ h => h

theorem repairOrphanToolCalls_handling (hi : Inv s) (h : Held n msgId message s) (threadId : String) :
    handlings.Safe (.task n) (Handling n msgId message fun _ _ => True) (repairOrphanToolCalls threadId) s := by
  refine bind_handling hi (ask_handling hi h _) fun messages s hi h _ => ?_
  unfold recoverCalls
  split
  · exact ⟨h, trivial⟩
  · refine (ask_handling hi h (.updateState threadId (orphanCalls messages))).conseq hi fun r s' _ hpost => ⟨hpost.1, ?_⟩
    cases r with
    | ok _ => trivial
    | error e => exact hpost.2

theorem ainvoke_handling (hi : Inv s) (h : Held n msgId message s) (call : Invocation) :
    handlings.Safe (.task n) (Handling n msgId message fun text log => .replied n text ∈ log) (ainvoke call) s := by
  refine (ask_handling hi h (.ainvoke call)).conseq hi fun r s' _ hpost => ⟨hpost.1, ?_⟩
  cases r with
  | ok text => exact hpost.2 _ List.mem_cons_self
  | error e => exact hpost.2

theorem invoke_handling (hi : Inv s) (h : Held n msgId message s) (call : Invocation) :
    handlings.Safe (.task n) (Handling n msgId message fun text log => .replied n text ∈ log) (invoke call) s := by
  refine Safe.handle hi (ainvoke_handling hi h call) (fun _ _ _ h => h) fun e s hi h => ?_
  have hraises : handlings.Safe (.task n) (Handling n msgId message fun (text : String) log => .replied n text ∈ log) (.raise e) s := h
  dsimp only
  split
  · next text =>
    by_cases hcorrupt : checkpointCorrupt text = true
    · rw [if_pos hcorrupt]
      refine bind_handling hi (repairOrphanToolCalls_handling hi h.1 _) fun _ s hi h _ => ainvoke_handling hi h call
    · rw [if_neg hcorrupt]
      exact hraises
  · exact hraises

theorem publish_handling (hi : Inv s) (h : Held n msgId message s) (fields : Data) : handlings.Safe (.task n)
    (Handling n msgId message fun _ log => Answered n message log) (publishFlat message.modelDump.replyStream fields) s := by
  refine (ask_handling hi h (.publishFlat _ fields)).conseq hi fun r s' _ hpost => ⟨hpost.1, ?_⟩
  cases r with
  | ok _ => exact .inl ⟨fields, hpost.2 _ List.mem_cons_self⟩
  | error e => exact hpost.2

theorem replyStream_some {data : Data} {requestId : String} (h : data.requestId = some requestId) :
    data.replyStream = .response requestId := by
  unfold Data.replyStream
  rw [h]

theorem replyStream_none {data : Data} (h : data.requestId = none) : data.replyStream = .proactive := by
  unfold Data.replyStream
  rw [h]

theorem reply_handling {responseText : String} (hi : Inv s) (h : Held n msgId message s) (hreplied : .replied n responseText ∈ s.trace) :
    handlings.Safe (.task n) (Handling n msgId message fun _ log => Answered n message log)
      (reply message.telegramChatId message.modelDump responseText) s := by
  unfold reply
  cases hrequest : message.modelDump.requestId with
  | some requestId =>
    dsimp only
    rw [← replyStream_some hrequest]
    exact publish_handling hi h _
  | none =>
    dsimp only
    by_cases htext : responseText = ""
    · rw [if_pos htext]
      rw [htext] at hreplied
      exact ⟨h, .inr (.inr (.inr ⟨hrequest, hreplied⟩))⟩
    · rw [if_neg htext, ← replyStream_none hrequest]
      exact publish_handling hi h _

theorem notifyAdminsBestEffort_handling (hi : Inv s) (h : Held n msgId message s) (text : String) :
    handlings.Safe (.task n) (Handling n msgId message fun _ log => Reported n log) (notifyAdminsBestEffort text) s := by
  refine Safe.handle hi (ask_safe h (.notifyAdmins text)) ?_ fun e s hi h => ?_
  · exact fun _ s _ h => ⟨h.1, .inl (h.2 _ List.mem_cons_self)⟩
  · by_cases he : e.isException = true
    · rw [if_pos he]
      exact ⟨h.1, .inr ⟨text, e, h.2⟩⟩
    · rw [if_neg he]
      exact ⟨h.1, _, h.2⟩

theorem handleMessage_handling (hi : Inv s) (h : Held n msgId message s) : handlings.Safe (.task n)
    (Handling n msgId message fun _ log => Answered n message log) (handleMessage message.telegramChatId message.modelDump) s := by
  unfold handleMessage
  by_cases hdropped : message.modelDump.dropped = true
  · rw [if_pos hdropped]
    exact ⟨h, .inr (.inl hdropped)⟩
  · rw [if_neg hdropped]
    by_cases hchat : message.telegramChatId = ""
    · rw [if_pos hchat]
      refine (notifyAdminsBestEffort_handling hi h _).conseq hi fun r s' _ hpost => ⟨hpost.1, ?_⟩
      cases r with
      | ok _ => exact .inr (.inr (.inl ⟨hchat, hpost.2⟩))
      | error e => exact hpost.2
    · rw [if_neg hchat]
      refine bind_handling hi (repairOrphanToolCalls_handling hi h _) fun _ s hi h _ => ?_
      exact bind_handling hi (invoke_handling hi h _) fun text s hi h hreplied => reply_handling hi h hreplied

def Settled (n : Nat) (msgId : String) (message : POInputMessage) (s : State) : Prop :=
  Held n msgId message s ∧ (Answered n message s.trace ∨ Failed n message s.trace)

theorem publishError_settled (hi : Inv s) (h : Held n msgId message s) {call : Call} {e : Exn} (hraised : .raised n call e ∈ s.trace) :
    handlings.Safe (.task n) (fun _ => Settled n msgId message) (publishError message.telegramChatId message.modelDump) s := by
  unfold publishError
  cases hrequest : message.modelDump.requestId with
  | none => exact ⟨h, .inr (.inr (.inl ⟨hrequest, call, e, hraised⟩))⟩
  | some requestId =>
    dsimp only
    rw [← replyStream_some hrequest]
    refine (ask_safe h (.publishFlat _ _)).conseq hi fun r s' _ hpost => ⟨hpost.1, ?_⟩
    cases r with
    | ok _ => exact .inl (.inl ⟨_, hpost.2 _ List.mem_cons_self⟩)
    | error e => exact .inr (.inr (.inr ⟨e, hpost.2⟩))

theorem attend_settled (hi : Inv s) (h : Held n msgId message s) : handlings.Safe (.task n) (fun _ => Settled n msgId message)
    (attend message.telegramChatId message.modelDump) s := by
  refine Safe.handle hi (handleMessage_handling hi h) (fun _ _ _ h => ⟨h.1, .inl h.2⟩) ?_
  rintro e s hi ⟨h, call, hraised⟩
  by_cases he : e.isException = true
  · rw [if_pos he]
    exact publishError_settled hi h hraised
  · rw [if_neg he]
    cases e with
    | cancelledError => exact ⟨h, .inr (.inl ⟨call, hraised⟩)⟩
    | _ => exact absurd rfl he

theorem xack_held (h : Settled n msgId message s) :
    handlings.Safe (.task n) (fun _ => Held n msgId message) (perform (.xack msgId)) s := by
  refine Safe.perform fun s' hi hr reply _ => ?_
  have hkept : Kept n s s' := hr n rfl
  have hheld := h.1.kept hkept
  have hacked : handlings.Keeps (.task n) s' (s'.record [.acked n msgId]) := by
    refine ⟨record_inv hi rfl ⟨message, hheld.handles hi, h.2.imp (·.mono hkept.grows) (·.mono hkept.grows)⟩, ?_⟩
    rintro u _ m rfl
    exact ⟨List.subset_cons_self .., fun _ h _ => h, fun _ h => h⟩
  change handlings.Keeps (.task n) s' (reply.fate.serve (fun s => (.ok (), s.record [.acked n msgId])) s').2 ∧
    Held n msgId message (reply.fate.serve (fun s => (.ok (), s.record [.acked n msgId])) s').2
  cases reply.fate with
  | unsent e => exact ⟨.refl _ hi, hheld⟩
  | _ => exact ⟨hacked, hheld⟩

theorem attendAndAck_held (hi : Inv s) (h : Held n msgId message s) :
    handlings.Safe (.task n) (fun _ => Held n msgId message) (attendAndAck msgId message) s := by
  refine Safe.ensuring hi (attend_settled hi h) fun r s hi h => (xack_held h).conseq hi fun r' _ _ hheld => ?_
  cases r' with
  | ok _ | error e => exact hheld

theorem release_safe (h : Held n msgId message s) :
    handlings.Safe (.task n) (fun _ _ => True) (perform (.release message.telegramChatId)) s := by
  refine Safe.perform fun s' hi hr reply _ => ⟨⟨?_, ?_⟩, trivial⟩
  · exact release_inv hi (h.kept (hr n rfl)).2
  · rintro u hu m rfl
    refine ⟨List.subset_cons_self .., fun _ h _ => h, fun chat hchat => ?_⟩
    have hne : chat ≠ message.telegramChatId := by
      rintro rfl
      have hown := (h.kept (hr n rfl)).2
      cases hchat.symm.trans hown
      exact hu rfl
    exact (Function.update_of_ne hne ..).trans hchat

theorem acquire_held (h : Running n msgId message s) : handlings.Safe (.task n) (fun r s' => ∀ a, r = .ok a → Held n msgId message s')
    (perform (.acquire message.telegramChatId)) s := by
  refine Safe.perform fun s' hi hr reply hadm => ?_
  have hrunning : Running n msgId message s' := (hr n rfl).task _ h rfl
  change handlings.Keeps (.task n) s' (whenFree reply.fate s' (s'.acquire n message.telegramChatId)).2 ∧ ∀ a,
    (whenFree reply.fate s' (s'.acquire n message.telegramChatId)).1 = .ok a →
      Held n msgId message (whenFree reply.fate s' (s'.acquire n message.telegramChatId)).2
  unfold whenFree
  cases hserved : reply.fate.isServed with
  | false => exact ⟨.refl _ hi, nofun⟩
  | true =>
    have hfree : s'.locks message.telegramChatId = none := hadm hserved
    refine ⟨⟨acquire_inv hi hfree hrunning, ?_⟩, fun _ _ => ⟨hrunning, Function.update_self ..⟩⟩
    rintro u _ m rfl
    refine ⟨List.subset_cons_self .., fun _ h _ => h, fun chat hchat => ?_⟩
    have hne : chat ≠ message.telegramChatId := by
      rintro rfl
      cases hchat.symm.trans hfree
    exact (Function.update_of_ne hne ..).trans hchat

theorem permits_safe (msgId : String) (message : POInputMessage) {op : Op} (hpermits : ∀ t reply s, ∃ permits, (run t op reply s).2 = { s with permits := permits }) :
    handlings.Safe (.task n) (fun _ s' => Running n msgId message s → Running n msgId message s') (perform op) s := by
  refine Safe.perform fun s' hi hr reply _ => ?_
  obtain ⟨permits, hrun⟩ := hpermits (.task n) reply s'
  change handlings.Keeps (.task n) s' (run (.task n) op reply s').2 ∧ (Running n msgId message s → Running n msgId message (run (.task n) op reply s').2)
  rw [hrun]
  refine ⟨⟨⟨hi.clean, hi.fresh, hi.inFlight, hi.known, hi.processing, hi.live, hi.locks⟩, ?_⟩, fun h => (hr n rfl).task _ h rfl⟩
  rintro u _ m rfl
  exact ⟨fun _ h => h, fun _ h _ => h, fun _ h => h⟩

theorem lockedChat_safe (hi : Inv s) (h : Running n msgId message s) :
    handlings.Safe (.task n) (fun _ _ => True) (lockedChat msgId message) s := by
  refine Safe.bind hi (acquire_held h) (fun _ s hi hheld => ?_) fun _ _ _ _ => trivial
  refine Safe.ensuring hi (attendAndAck_held hi (hheld _ rfl)) fun r s hi h => (release_safe h).conseq hi fun r' _ _ _ => ?_
  cases r' with
  | ok _ | error e => trivial

theorem processMessage_safe (hi : Inv s) (h : Running n msgId message s) :
    handlings.Safe (.task n) (fun _ _ => True) (processMessage (some (msgId, message))) s := by
  have hacquire : ∀ t reply s, ∃ permits, (run t .acquireSem reply s).2 = { s with permits := permits } := by
    intro t reply s
    unfold run whenFree
    dsimp only
    cases reply.fate.isServed with
    | true => exact ⟨_, rfl⟩
    | false => exact ⟨s.permits, rfl⟩
  refine Safe.bind hi (permits_safe msgId message hacquire) (fun _ s hi hrunning => ?_) fun _ _ _ _ => trivial
  refine Safe.ensuring hi (lockedChat_safe hi (hrunning h)) fun r s hi _ => ?_
  refine (permits_safe msgId message fun _ _ s => ⟨s.permits + 1, rfl⟩).conseq hi fun r' _ _ _ => ?_
  cases r' with
  | ok _ | error e => trivial

theorem enter_running : handlings.Safe (.task n)
    (fun r s' => ∀ msgId message, r = .ok (some (msgId, message)) → Running n msgId message s') (perform .enter) s := by
  refine Safe.perform fun s' hi _ reply _ => ?_
  change handlings.Keeps (.task n) s' (s'.enter n).2 ∧ ∀ msgId message, Except.ok (s'.enter n).1 = .ok (some (msgId, message)) →
    Running n msgId message (s'.enter n).2
  unfold State.enter
  split
  next msgId message htask =>
    refine ⟨⟨setPhase_inv hi htask rfl rfl, ?_⟩, ?_⟩
    · rintro u hu m rfl
      exact ⟨fun _ h => h, fun task h _ => (Function.update_of_ne (by rintro rfl; exact hu rfl) ..).trans h, fun _ h => h⟩
    · rintro _ _ ⟨⟩
      exact Function.update_self ..
  · exact ⟨.refl _ hi, nofun⟩

theorem runTask_safe (hi : Inv s) : handlings.Safe (.task n) (fun _ _ => True) runTask s := by
  refine Safe.bind hi enter_running (fun entry s hi h => ?_) fun _ _ _ _ => trivial
  cases entry with
  | none => trivial
  | some entry => exact processMessage_safe hi (h entry.1 entry.2 rfl)

theorem consumePoInput_safe (turns : Nat) (hi : Inv s) : handlings.Safe .loop (fun _ _ => True) (consumePoInput turns) s := by
  induction turns generalizing s with
  | zero => trivial
  | succ turns ih =>
    have hnext : handlings.Safe .loop (fun _ _ => True) (perform .next) s := by
      refine Safe.perform fun s' hi _ reply _ => ⟨?_, trivial⟩
      change handlings.Keeps .loop s' (reply.fate.serve (fun s => (.ok reply.message, s)) s').2
      cases reply.fate <;> exact .refl _ hi
    refine Safe.bind hi hnext (fun message s hi _ => ?_) fun _ _ _ _ => trivial
    have hdispatch : handlings.Safe .loop (fun _ _ => True) (dispatchMessage message) s := by
      cases message with
      | none => trivial
      | some message =>
        refine Safe.perform fun s' hi _ reply _ => ⟨⟨dispatch_inv hi, ?_⟩, trivial⟩
        rintro u _ m rfl
        exact dispatch_kept hi
    exact Safe.bind hi hdispatch (fun _ s hi _ => ih hi) fun _ _ _ _ => trivial

end Programs

section Runs

variable {turns : Nat} {c : Config poWorld} {newer older : List Event} {event : Event}

theorem reaches_inv (h : Reaches (body turns) unblocked (.idle State.start) c) : Inv c.state := by
  have hends : ∀ t outcome s, Inv s → handlings.Ends t outcome s := by
    intro t outcome s hi
    cases t with
    | task n =>
      refine ⟨⟨ended_inv hi outcome, ?_⟩, trivial⟩
      rintro u hu m rfl
      exact ended_kept (by rintro rfl; exact hu rfl) outcome
    | _ => exact ⟨.refl _ hi, trivial⟩
  refine (Rules.reaches_sound (G := handlings) (.idle start_inv fun _ => trivial) ?_ (fun t s hi _ => hends t none s hi) h).inv
  intro t s hi _ _
  cases t with
  | task n => exact (runTask_safe hi).conseq hi fun r s hi _ => hends _ (some r) s hi
  | loop => exact (consumePoInput_safe turns hi).conseq hi fun r s hi _ => hends _ (some r) s hi
  | callback n =>
    refine Safe.perform fun s' hi _ reply _ => ?_
    have hkeeps : handlings.Keeps (.callback n) s' (s'.forget n) := by
      refine ⟨forget_inv hi, ?_⟩
      rintro u _ m rfl
      exact forget_kept
    exact ⟨hkeeps, hends _ _ _ hkeeps.inv⟩

/-- An entry is handled once at a time, under the lock of its chat, and acknowledged when it has
been answered, or when answering it has failed. -/
theorem handled_once (h : Reaches (body turns) unblocked (.idle State.start) c) (htrace : c.state.trace = newer ++ event :: older) :
    Due event older := by
  have hclean := (reaches_inv h).clean
  rw [htrace] at hclean
  exact hclean.split.1

end Runs

instance (s : State) (m : Move poWorld) : Decidable (unblocked s m) := by
  unfold unblocked
  (repeat' split) <;> infer_instance

def sampleAnswer : (call : Call) → call.Res
  | .getState _ => []
  | .updateState .. => ()
  | .ainvoke _ => "It failed."
  | .notifyAdmins _ => ()
  | .publishFlat .. => ()

def storyFailed : POInputMessage := .systemEvent "story_failed" "The story failed." "" "42" "7" "s" "p" ""

def sampleReply (graph : Fate Exn) : (op : Op) → Reply
  | .next => ⟨.served, some ("1-0", storyFailed), sampleAnswer⟩
  | .call (.ainvoke _) => ⟨graph, none, sampleAnswer⟩
  | _ => ⟨.served, none, sampleAnswer⟩

def sampleTurns (graph : Fate Exn) : List (Turn poWorld) :=
  [.start .loop, .call .loop (sampleReply graph), .call .loop (sampleReply graph), .start (.task 0)] ++
    List.replicate 9 (.call (.task 0) (sampleReply graph))

def sampleRun (graph : Fate Exn) : Config poWorld := Config.play (body 1) (.idle State.start) (sampleTurns graph)

theorem answer_acked : Due (.acked 0 "1-0") [.published 0 .proactive (proactiveFromInput storyFailed.modelDump "It failed." "42"),
    .replied 0 "It failed.", .acquired 0 "42", .dispatched 0 "1-0" storyFailed] := by
  have htrace : (sampleRun .served).state.trace = [.finished 0 "1-0", .released 0 "42"] ++ .acked 0 "1-0" ::
      [.published 0 .proactive (proactiveFromInput storyFailed.modelDump "It failed." "42"), .replied 0 "It failed.", .acquired 0 "42",
        .dispatched 0 "1-0" storyFailed] := by decide +kernel
  have hreaches : Reaches (body 1) unblocked (.idle State.start) (sampleRun .served) := play_reaches (by decide +kernel)
  exact handled_once hreaches htrace

def graphRaised : List Event :=
  [.raised 0 (.ainvoke (invocation "42" storyFailed.modelDump)) .exception, .acquired 0 "42", .dispatched 0 "1-0" storyFailed]

/-- The graph raises on an event for the user, and the entry is acknowledged with nothing published. -/
theorem failure_acked : Reaches (body 1) unblocked (.idle State.start) (sampleRun (.unsent .exception)) ∧
    (sampleRun (.unsent .exception)).state.trace = [.finished 0 "1-0", .released 0 "42"] ++ .acked 0 "1-0" :: graphRaised ∧
      ¬ Answered 0 storyFailed graphRaised := by
  refine ⟨play_reaches (by decide +kernel), by decide +kernel, ?_⟩
  rintro (⟨fields, hpublished⟩ | hdropped | ⟨hchat, _⟩ | ⟨_, hreplied⟩)
  · simp [graphRaised] at hpublished
  · exact absurd hdropped (by decide)
  · exact absurd hchat (by decide)
  · simp [graphRaised] at hreplied

end Orchestrator.Po
