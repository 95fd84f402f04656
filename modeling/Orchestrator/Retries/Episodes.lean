import Orchestrator.Retries.World

/-!
The retries of one episode: what the counter says, and when its count is the episode's own.
-/

namespace Orchestrator.Retries

open Async Contracts

def acts (trace : List Event) : List Event := trace.filter fun
  | .begun _ _ | .forgotten _ _ => false
  | _ => true

def spent (storyId : String) : List Event → Nat
  | [] => 0
  | .begun other _ :: older => if other = storyId then 0 else spent storyId older
  | .redispatched other _ :: older => spent storyId older + if other = storyId then 1 else 0
  | _ :: older => spent storyId older

def retryOutcomes : List DeployOutcome := [.retry, .cancelled]

def DeployRun.retryable (run : DeployRun) : Bool :=
  run.status.terminal && run.outcome.any retryOutcomes.contains && run.commit.isSome

def counting (maxRetries : Nat) : List Event → Bool
  | .counted _ attempts :: _ => decide (attempts < maxRetries)
  | _ => false

def owing (maxRetries : Nat) : List Event → Bool
  | .read _ (some run) :: _ => run.retryable
  | older => counting maxRetries older

def owed (maxRetries : Nat) (storyId : String) : List Event → Nat
  | .counted other attempts :: _ => if other = storyId ∧ attempts < maxRetries then 1 else 0
  | _ => 0

/-- The counter's key was absent when the episode under way began, with no retry being
sent just then, and has held a count ever since the first. -/
def intact (maxRetries : Nat) (before : String → Option Nat) (storyId : String) : List Event → Bool
  | [] => (before storyId).isNone
  | .begun other left :: older =>
      if other = storyId then left + owed maxRetries storyId (acts older) == 0 else intact maxRetries before storyId older
  | .forgotten other left :: older => (other != storyId || left == 0) && intact maxRetries before storyId older
  | _ :: older => intact maxRetries before storyId older

def Due (maxRetries : Nat) : Event → List Event → Prop
  | .begun .., _ => True
  | .forgotten .., _ => True
  | .read .., older => owing maxRetries (acts older) = false
  | .counted storyId attempts, older => (∃ run : DeployRun, (acts older).head? = some (.read storyId (some run)) ∧ run.retryable = true) ∧
      (attempts < maxRetries ↔ spent storyId older + 1 < maxRetries)
  | .redispatched storyId _, older => ∃ attempts, (acts older).head? = some (.counted storyId attempts) ∧ attempts < maxRetries
  | .failed storyId .retriesExhausted, older =>
      ∃ attempts, (acts older).head? = some (.counted storyId attempts) ∧ maxRetries ≤ attempts
  | .failed _ .headShaMissing, older => owing maxRetries (acts older) = false
  | .ended returned, older => counting maxRetries (acts older) = false ∧ (returned = true → owing maxRetries (acts older) = false)

def answered (s : State) (op : Op) (reply : Reply) : Bool :=
  (run .scheduler op reply s).1.isOk || match op with
    | .publishMessage .. => reply.fate.carriedOut
    | _ => false

/-- What is counted is redispatched, and nothing of the counter is left over or forgotten. -/
def steady (maxRetries : Nat) (before : String → Option Nat) (s : State) : Move retryWorld → Prop
  | .call .scheduler (.incr storyId) reply => answered s (.incr storyId) reply = reply.fate.carriedOut ∧
      intact maxRetries before storyId s.trace = true
  | .call .scheduler op reply => counting maxRetries (acts s.trace) = true → answered s op reply = true
  | .stop .scheduler => counting maxRetries (acts s.trace) = false
  | _ => True

instance (maxRetries : Nat) (before : String → Option Nat) (s : State) (m : Move retryWorld) :
    Decidable (steady maxRetries before s m) := by
  unfold steady
  split <;> infer_instance

/-- The counter is the episode's redispatches, with the one being sent; or both have reached the maximum. -/
def Agrees (maxRetries : Nat) (s : State) (storyId : String) : Prop :=
  s.attempts storyId = spent storyId s.trace + owed maxRetries storyId (acts s.trace) ∨
    maxRetries ≤ s.attempts storyId ∧ maxRetries ≤ spent storyId s.trace + 1

structure Kept (maxRetries : Nat) (before : String → Option Nat) (s : State) : Prop where
  clean : Clean (Due maxRetries) s.trace
  agrees : ∀ storyId, intact maxRetries before storyId s.trace = true → Agrees maxRetries s storyId

abbrev episodes (maxRetries : Nat) (before : String → Option Nat) : Rules retryWorld where
  admits := steady maxRetries before
  inv := Kept maxRetries before
  rely t s s' := t = .scheduler → acts s'.trace = acts s.trace
  rely_refl _ _ _ := rfl
  rely_trans h h' ht := (h' ht).trans (h ht)
  rest t s := t = .scheduler → owing maxRetries (acts s.trace) = false
  rest_stable _ h hrest ht := (h ht) ▸ hrest ht

section Counting

variable {maxRetries : Nat} {before : String → Option Nat} {s s' : State} {storyId : String}

theorem owed_of_counting {trace : List Event} (h : counting maxRetries trace = false) (storyId : String) :
    owed maxRetries storyId trace = 0 := by
  unfold owed
  split
  · rename_i attempts _
    have hmax : ¬ attempts < maxRetries := of_decide_eq_false h
    rw [if_neg fun hand => hmax hand.2]
  · rfl

theorem Kept.same (h : Kept maxRetries before s) (htrace : s'.trace = s.trace) (hretries : s'.retries = s.retries) :
    Kept maxRetries before s' := by
  refine ⟨htrace ▸ h.clean, fun storyId hintact => ?_⟩
  rw [htrace] at hintact
  have hagrees := h.agrees storyId hintact
  unfold Agrees State.attempts at hagrees ⊢
  rw [htrace, hretries]
  exact hagrees

def Event.plain : Event → Bool
  | .read .. | .failed .. | .ended _ => true
  | _ => false

section

variable (h : Kept maxRetries before s)

include h

theorem Kept.record_plain {event : Event} (hplain : event.plain = true)
    (hcounting : counting maxRetries (acts s.trace) = false) (hdue : Due maxRetries event s.trace) :
    Kept maxRetries before (s.record event) := by
  refine ⟨⟨hdue, h.clean⟩, fun storyId hintact => ?_⟩
  have howed := owed_of_counting hcounting storyId
  cases event with
  | read _ _ | failed _ _ | ended _ =>
    have hagrees := h.agrees storyId hintact
    unfold Agrees at hagrees
    rw [howed] at hagrees
    exact hagrees
  | _ => cases hplain

theorem Kept.counted (storyId : String) (hcounting : counting maxRetries (acts s.trace) = false)
    (hdue : Due maxRetries (.counted storyId (s.attempts storyId + 1)) s.trace) : Kept maxRetries before (s.incr storyId).2 := by
  refine ⟨⟨hdue, h.clean⟩, fun other hintact => ?_⟩
  have hagrees := h.agrees other hintact
  have howed := owed_of_counting hcounting other
  unfold Agrees at hagrees
  rw [howed] at hagrees
  change _ = spent other s.trace + (if storyId = other ∧ s.attempts storyId + 1 < maxRetries then 1 else 0) ∨
    _ ∧ maxRetries ≤ spent other s.trace + 1
  by_cases hsame : storyId = other
  · subst hsame
    have hattempts : (s.incr storyId).2.attempts storyId = s.attempts storyId + 1 := by
      simp [State.incr, State.attempts, State.record]
    rw [hattempts]
    by_cases hmax : s.attempts storyId + 1 < maxRetries
    · rw [if_pos ⟨rfl, hmax⟩]
      omega
    · rw [if_neg fun hand => hmax hand.2]
      omega
  · have hattempts : (s.incr storyId).2.attempts other = s.attempts other := by
      simp [State.incr, State.attempts, State.record, Function.update_of_ne (Ne.symm hsame)]
    rw [hattempts, if_neg fun hand => hsame hand.1]
    exact hagrees

theorem Kept.redispatched {attempts : Nat} {older : List Event} (headSha : String)
    (hacts : acts s.trace = .counted storyId attempts :: older) (hmax : attempts < maxRetries) :
    Kept maxRetries before (s.record (.redispatched storyId headSha)) := by
  refine ⟨⟨⟨attempts, by rw [hacts]; rfl, hmax⟩, h.clean⟩, fun other hintact => ?_⟩
  have hagrees := h.agrees other hintact
  unfold Agrees at hagrees
  rw [hacts] at hagrees
  change s.attempts other = (spent other s.trace + if storyId = other then 1 else 0) + 0 ∨
    maxRetries ≤ s.attempts other ∧ maxRetries ≤ (spent other s.trace + if storyId = other then 1 else 0) + 1
  by_cases hsame : storyId = other
  · simp only [owed, hsame, hmax, and_self, if_true] at hagrees ⊢
    omega
  · simp only [owed, hsame, false_and, if_false] at hagrees ⊢
    omega

theorem Kept.forget (storyId : String) : Kept maxRetries before (s.forget storyId) := by
  refine ⟨⟨trivial, h.clean⟩, fun other hintact => ?_⟩
  obtain ⟨hleft, hintact⟩ := Bool.and_eq_true_iff.mp hintact
  have hagrees := h.agrees other hintact
  have hattempts : (s.forget storyId).attempts other = s.attempts other := by
    by_cases hsame : storyId = other
    · subst hsame
      have hzero : s.attempts storyId = 0 := by simpa using hleft
      rw [hzero]
      simp [State.forget, State.attempts, State.record]
    · simp [State.forget, State.attempts, State.record, Function.update_of_ne (Ne.symm hsame)]
  unfold Agrees
  rw [hattempts]
  exact hagrees

theorem Kept.dispatch (run : DeployRun) :
    Kept maxRetries before (OutsideChange.apply s (.dispatch run)) := by
  refine ⟨⟨trivial, h.clean⟩, fun other hintact => ?_⟩
  change (if run.storyId = other then s.attempts run.storyId + owed maxRetries other (acts s.trace) == 0
    else intact maxRetries before other s.trace) = true at hintact
  change s.attempts other = (if run.storyId = other then 0 else spent other s.trace) + owed maxRetries other (acts s.trace) ∨
    maxRetries ≤ s.attempts other ∧ maxRetries ≤ (if run.storyId = other then 0 else spent other s.trace) + 1
  by_cases hsame : run.storyId = other
  · subst hsame
    rw [if_pos rfl, beq_iff_eq] at hintact
    rw [if_pos rfl]
    omega
  · rw [if_neg hsame] at hintact ⊢
    exact h.agrees other hintact

end

end Counting

section Calls

variable {maxRetries : Nat} {before : String → Option Nat} {s : State} {A B : Type}

abbrev Settled (maxRetries : Nat) (s : State) : Prop := owing maxRetries (acts s.trace) = false

def Done (maxRetries : Nat) (r : Except Exn A) (s : State) : Prop :=
  counting maxRetries (acts s.trace) = false ∧ ∀ a, r = .ok a → Settled maxRetries s

abbrev Finishes (maxRetries : Nat) (before : String → Option Nat) (p : Job A) (s : State) : Prop :=
  (episodes maxRetries before).Safe .scheduler (Done maxRetries) p s

theorem counting_of_settled (h : Settled maxRetries s) : counting maxRetries (acts s.trace) = false := by
  unfold Settled owing at h
  split at h
  · rename_i heq
    rw [heq]
    rfl
  · exact h

theorem done_of_settled {r : Except Exn A} (h : Settled maxRetries s) : Done maxRetries r s :=
  ⟨counting_of_settled h, fun _ _ => h⟩

theorem call_safe {op : Op} {post : Except Exn op.Res → State → Prop}
    (h : ∀ s' : State, Kept maxRetries before s' → acts s'.trace = acts s.trace → ∀ reply : Reply,
      steady maxRetries before s' (.call .scheduler op reply) → Kept maxRetries before (run .scheduler op reply s').2 ∧
        post (run .scheduler op reply s').1 (run .scheduler op reply s').2) :
    (episodes maxRetries before).Safe .scheduler post (perform op) s := by
  refine Rules.Safe.perform fun s' hi' hr reply hadm => ?_
  obtain ⟨hkept, hpost⟩ := h s' hi' (hr rfl) reply hadm
  refine ⟨⟨hkept, ?_⟩, hpost⟩
  rintro u hu rfl
  exact absurd rfl hu

def Silent (op : Op) : Prop := ∀ (s : State) reply,
  (run .scheduler op reply s).2.trace = s.trace ∧ (run .scheduler op reply s).2.retries = s.retries

theorem silent_safe {op : Op} (h : Silent op) :
    (episodes maxRetries before).Safe .scheduler (fun _ s' => acts s'.trace = acts s.trace) (perform op) s := by
  refine call_safe fun s' hi' hacts reply _ => ?_
  obtain ⟨htrace, hretries⟩ := h s' reply
  exact ⟨hi'.same htrace hretries, (congrArg acts htrace).trans hacts⟩

theorem answered_safe {op : Op} (h : Silent op)
    (hop : (∀ storyId, op ≠ .incr storyId) ∧ ∀ storyId runId headSha, op ≠ .publishMessage storyId runId headSha)
    (hcounting : counting maxRetries (acts s.trace) = true) :
    (episodes maxRetries before).Safe .scheduler (fun r s' => acts s'.trace = acts s.trace ∧ ∃ a, r = .ok a) (perform op) s := by
  refine call_safe fun s' hi' hacts reply hadm => ?_
  obtain ⟨htrace, hretries⟩ := h s' reply
  refine ⟨hi'.same htrace hretries, (congrArg acts htrace).trans hacts, ?_⟩
  have hanswered : answered s' op reply = true := by
    cases op with
    | incr storyId => exact absurd rfl (hop.1 storyId)
    | _ => exact hadm (hacts ▸ hcounting)
  have hok : (run .scheduler op reply s').1.isOk = true := by
    cases op with
    | publishMessage storyId runId headSha => exact absurd rfl (hop.2 storyId runId headSha)
    | _ => simpa [answered] using hanswered
  cases hr : (run .scheduler op reply s').1 with
  | ok a => exact ⟨a, rfl⟩
  | error e =>
    rw [hr] at hok
    cases hok

theorem serve_same {fate : Fate Exn} {exec : State → Except Exn A × State}
    (h : (exec s).2.trace = s.trace ∧ (exec s).2.retries = s.retries) :
    (fate.serve exec s).2.trace = s.trace ∧ (fate.serve exec s).2.retries = s.retries := by
  cases fate with
  | unsent e => exact ⟨rfl, rfl⟩
  | _ => exact h

theorem createRun_silent (created : DeployRun) : Silent (.createRun created) := by
  refine fun s reply => serve_same ?_
  unfold State.createRun
  split <;> exact ⟨rfl, rfl⟩

theorem quiet_done {op : Op} (h : Silent op) (hsettled : Settled maxRetries s) :
    Finishes maxRetries before (perform op) s := by
  refine call_safe fun s' hi' hacts reply _ => ?_
  obtain ⟨htrace, hretries⟩ := h s' reply
  have hsame : Settled maxRetries (run .scheduler op reply s').2 := by
    unfold Settled
    rw [htrace, hacts]
    exact hsettled
  exact ⟨hi'.same htrace hretries, done_of_settled hsame⟩

theorem delete_done (storyId : String) (hsettled : Settled maxRetries s) :
    Finishes maxRetries before (perform (.delete storyId)) s := by
  refine call_safe fun s' hi' hacts reply _ => ?_
  have hbefore : Settled maxRetries s' := by
    unfold Settled
    rw [hacts]
    exact hsettled
  have hafter : Settled maxRetries (s'.forget storyId) := hbefore
  change Kept maxRetries before (reply.fate.serve (State.delete storyId) s').2 ∧
    Done maxRetries (reply.fate.serve (State.delete storyId) s').1 (reply.fate.serve (State.delete storyId) s').2
  cases reply.fate with
  | unsent e => exact ⟨hi', done_of_settled hbefore⟩
  | _ => exact ⟨hi'.forget storyId, done_of_settled hafter⟩

theorem ask_done (call : ServiceCall) (h : Settled maxRetries s) :
    Finishes maxRetries before (ask call) s := quiet_done (fun _ _ => ⟨rfl, rfl⟩) h

theorem done_bind {p : Job A} {f : A → Job B} (hi : Kept maxRetries before s)
    (hp : Finishes maxRetries before p s)
    (hf : ∀ a s, Kept maxRetries before s → Settled maxRetries s →
      Finishes maxRetries before (f a) s) :
    Finishes maxRetries before (p.bind f) s :=
  Rules.Safe.bind hi hp (fun a s hi h => hf a s hi (h.2 a rfl)) fun _ _ _ h => ⟨h.1, nofun⟩

theorem failStory_done {storyId : String} {failure : Failure} (hdue : ∀ s' : State, acts s'.trace = acts s.trace →
      Due maxRetries (.failed storyId failure) s'.trace) (h : Settled maxRetries s) :
    Finishes maxRetries before (perform (.failStory storyId failure)) s := by
  refine call_safe fun s' hi' hacts reply _ => ?_
  have hsettled : Settled maxRetries s' := by
    change owing maxRetries (acts s'.trace) = false
    rw [hacts]
    exact h
  have hexec : Kept maxRetries before (s'.failStory storyId failure).2 ∧ Settled maxRetries (s'.failStory storyId failure).2 := by
    unfold State.failStory
    split
    · exact ⟨hi', hsettled⟩
    · split
      · have hrow : Kept maxRetries before { s' with stories := s'.stories.map fun row : Story =>
            if row.id = storyId then { row with status := .failed } else row } := hi'.same rfl rfl
        exact ⟨hrow.record_plain rfl (counting_of_settled hsettled) (hdue s' hacts), rfl⟩
      · exact ⟨hi', hsettled⟩
  change Kept maxRetries before (reply.fate.serve _ s').2 ∧ Done maxRetries (reply.fate.serve _ s').1 (reply.fate.serve _ s').2
  cases reply.fate with
  | unsent e => exact ⟨hi', done_of_settled hsettled⟩
  | _ => exact ⟨hexec.1, done_of_settled hexec.2⟩

end Calls

section Supervision

variable {maxRetries : Nat} {before : String → Option Nat} {s : State} {storyId : String}

theorem ret_done {A : Type} (a : A) (h : Settled maxRetries s) :
    Finishes maxRetries before (.ret a : Job A) s := done_of_settled h

variable {older : List Event}

variable {attempts : Nat}

theorem settled_of_counted (h : acts s.trace = .counted storyId attempts :: older)
    (hmax : maxRetries ≤ attempts) : Settled maxRetries s := by
  unfold Settled
  rw [h]
  simp only [owing, counting, decide_eq_false_iff_not]
  omega

theorem failExhausted_done (runId : String) (hi : Kept maxRetries before s)
    (h : acts s.trace = .counted storyId attempts :: older) (hmax : maxRetries ≤ attempts) :
    Finishes maxRetries before (failExhausted storyId runId attempts) s := by
  refine done_bind hi (failStory_done (fun s' hacts => ⟨attempts, ?_, hmax⟩) (settled_of_counted h hmax)) fun _ s hi h => ?_
  · rw [hacts, h]
    rfl
  · refine done_bind hi (delete_done storyId h) fun _ s hi h => ?_
    exact done_bind hi (ask_done _ h) fun _ _ _ h => ret_done _ h

theorem redispatch_done (projectId headSha : String) (hi : Kept maxRetries before s)
    (h : acts s.trace = .counted storyId attempts :: older) (hmax : attempts < maxRetries) :
    Finishes maxRetries before (redispatch storyId projectId headSha) s := by
  have hcounting : ∀ s : State, acts s.trace = .counted storyId attempts :: older → counting maxRetries (acts s.trace) = true := by
    intro s h
    rw [h]
    exact decide_eq_true hmax
  refine Rules.Safe.bind hi (answered_safe (fun _ _ => ⟨rfl, rfl⟩) ⟨nofun, nofun⟩ (hcounting s h)) ?_ ?_
  · rintro newRunId s hi ⟨hacts, _⟩
    have h := hacts.trans h
    refine Rules.Safe.bind hi (answered_safe (createRun_silent _) ⟨nofun, nofun⟩ (hcounting s h)) ?_ ?_
    · rintro _ s hi ⟨hacts, _⟩
      have h := hacts.trans h
      refine Rules.Safe.bind hi (answered_safe (fun _ _ => ⟨rfl, rfl⟩) ⟨nofun, nofun⟩ (hcounting s h)) ?_ ?_
      · rintro _ s hi ⟨hacts, _⟩
        have h := hacts.trans h
        have hpublish : Finishes maxRetries before
            (perform (.publishMessage storyId newRunId headSha)) s := by
          refine call_safe fun s' hi' hacts reply hadm => ?_
          have h := hacts.trans h
          have hsent : Kept maxRetries before (s'.record (.redispatched storyId headSha)) := hi'.redispatched headSha h hmax
          have hanswered : answered s' (.publishMessage storyId newRunId headSha) reply = true := hadm (hcounting s' h)
          unfold answered run at hanswered
          change Kept maxRetries before (reply.fate.serve _ s').2 ∧ Done maxRetries (reply.fate.serve _ s').1 (reply.fate.serve _ s').2
          cases hfate : reply.fate with
          | unsent e =>
            rw [hfate] at hanswered
            cases hanswered
          | _ => exact ⟨hsent, done_of_settled rfl⟩
        exact done_bind hi hpublish fun _ _ _ h => ret_done _ h
      · rintro e s _ ⟨_, _, ⟨⟩⟩
    · rintro e s _ ⟨_, _, ⟨⟩⟩
  · rintro e s _ ⟨_, _, ⟨⟩⟩

theorem handleDeployRetry_done {projectId : String} {run : DeployRun} (hi : Kept maxRetries before s)
    (h : acts s.trace = .read storyId (some run) :: older) (hrun : run.status.terminal = true)
    (houtcome : run.outcome.any retryOutcomes.contains = true) :
    Finishes maxRetries before (handleDeployRetry maxRetries storyId projectId run) s := by
  unfold handleDeployRetry
  cases hsha : run.commit with
  | none =>
    have hsettled : Settled maxRetries s := by
      unfold Settled
      rw [h]
      simp [owing, DeployRun.retryable, hsha]
    refine done_bind hi (failStory_done (fun s' hacts => ?_) hsettled) fun _ s hi h => ?_
    · change owing maxRetries (acts s'.trace) = false
      rw [hacts]
      exact hsettled
    · exact done_bind hi (ask_done _ h) fun _ _ _ h => ret_done _ h
  | some headSha =>
    have hretryable : run.retryable = true := by simp [DeployRun.retryable, hrun, houtcome, hsha]
    have hcount : (episodes maxRetries before).Safe .scheduler (fun r s' => (∀ attempts, r = .ok attempts →
        acts s'.trace = .counted storyId attempts :: acts s.trace) ∧ (∀ e, r = .error e → acts s'.trace = acts s.trace))
        (countRetry storyId) s := by
      refine call_safe fun s' hi' hacts reply hadm => ?_
      obtain ⟨hanswered, hintact⟩ := hadm
      have hcounting : counting maxRetries (acts s'.trace) = false := by
        rw [hacts, h]
        rfl
      -- the counter is the episode's redispatches, so that the next count says what they do
      have hbudget : s'.attempts storyId + 1 < maxRetries ↔ spent storyId s'.trace + 1 < maxRetries := by
        have hagrees := hi'.agrees storyId hintact
        unfold Agrees at hagrees
        rw [owed_of_counting hcounting] at hagrees
        omega
      have hcounted : Kept maxRetries before (s'.incr storyId).2 :=
        hi'.counted storyId hcounting ⟨⟨run, by rw [hacts, h]; rfl, hretryable⟩, hbudget⟩
      unfold answered at hanswered
      change Kept maxRetries before (reply.fate.serve (State.incr storyId) s').2 ∧
        (∀ attempts, (reply.fate.serve (State.incr storyId) s').1 = .ok attempts →
          acts (reply.fate.serve (State.incr storyId) s').2.trace = .counted storyId attempts :: acts s.trace) ∧
        ∀ e, (reply.fate.serve (State.incr storyId) s').1 = .error e →
          acts (reply.fate.serve (State.incr storyId) s').2.trace = acts s.trace
      change ((reply.fate.serve (State.incr storyId) s').1.isOk || false) = reply.fate.carriedOut at hanswered
      cases hfate : reply.fate with
      | served =>
        refine ⟨hcounted, ?_, nofun⟩
        rintro attempts ⟨⟩
        exact congrArg _ hacts
      | unheard e =>
        rw [hfate] at hanswered
        cases hanswered
      | unsent e => exact ⟨hi', nofun, fun _ _ => hacts⟩
    refine Rules.Safe.bind hi hcount ?_ ?_
    · rintro attempts s' hi' ⟨hcounted, _⟩
      have hacts := hcounted attempts rfl
      unfold retryWithin
      by_cases hmax : maxRetries ≤ attempts
      · rw [if_pos hmax]
        have hexpire : (episodes maxRetries before).Safe .scheduler (fun _ s'' => acts s''.trace = acts s'.trace)
            (perform (.expire storyId)) s' := silent_safe fun _ _ => serve_same ⟨rfl, rfl⟩
        refine Rules.Safe.bind hi' hexpire ?_ ?_
        · intro _ s'' hi'' hsame
          exact failExhausted_done run.id hi'' (hsame.trans hacts) hmax
        · intro e s'' _ hsame
          exact done_of_settled (settled_of_counted (hsame.trans hacts) hmax)
      · rw [if_neg hmax]
        have hcounting : counting maxRetries (acts s'.trace) = true := by
          rw [hacts]
          exact decide_eq_true (Nat.lt_of_not_le hmax)
        refine Rules.Safe.bind hi' (answered_safe (fun _ _ => serve_same ⟨rfl, rfl⟩) ⟨nofun, nofun⟩ hcounting) ?_ ?_
        · rintro _ s'' hi'' ⟨hsame, _⟩
          exact redispatch_done projectId headSha hi'' (hsame.trans hacts) (Nat.lt_of_not_le hmax)
        · rintro e s'' _ ⟨_, _, ⟨⟩⟩
    · rintro e s' _ ⟨_, herror⟩
      refine ⟨?_, nofun⟩
      rw [herror e rfl, h]
      rfl

theorem routeRun_done {story : Story} {latest : Option DeployRun} (hi : Kept maxRetries before s)
    (h : acts s.trace = .read story.id latest :: older) :
    Finishes maxRetries before (routeRun maxRetries story latest) s := by
  cases latest with
  | none => exact ret_done _ (by unfold Settled; rw [h]; rfl)
  | some run =>
    have hsettled : (∀ outcome, run.outcome = some outcome → retryOutcomes.contains outcome = false) ∨ run.status.terminal = false →
        Settled maxRetries s := by
      intro hcase
      unfold Settled
      rw [h]
      simp only [owing, DeployRun.retryable, Bool.and_eq_false_iff]
      left
      rcases hcase with houtcome | hgoing
      · right
        cases hrun : run.outcome with
        | none => rfl
        | some outcome => exact houtcome outcome hrun
      · exact .inl hgoing
    unfold routeRun
    dsimp only
    cases hterminal : run.status.terminal with
    | false => exact ret_done _ (hsettled (.inr hterminal))
    | true =>
      cases houtcome : run.outcome with
      | none => exact ret_done _ (hsettled (.inl fun outcome heq => nomatch houtcome.symm.trans heq))
      | some outcome =>
        have hother : retryOutcomes.contains outcome = false → Settled maxRetries s := by
          intro hcontains
          refine hsettled (.inl fun other heq => ?_)
          cases houtcome.symm.trans heq
          exact hcontains
        have hservice : ∀ {call : ServiceCall} {f : call.Res → Routed}, retryOutcomes.contains outcome = false →
            Finishes maxRetries before ((ask call).bind fun a => .ret (f a)) s :=
          fun hcontains => done_bind hi (ask_done _ (hother hcontains)) fun _ _ _ h => ret_done _ h
        have hretry : retryOutcomes.contains outcome = true → Finishes maxRetries before
            ((handleDeployRetry maxRetries story.id story.projectId run).bind fun retried =>
              .ret (bif retried then Routed.retried else Routed.failed)) s := by
          intro hcontains
          refine done_bind hi (handleDeployRetry_done hi h hterminal ?_) fun _ _ _ h => ret_done _ h
          rw [houtcome]
          exact hcontains
        cases outcome with
        | retry | cancelled => exact hretry rfl
        | _ => exact hservice rfl

theorem superviseDeployingStory_done (story : Story) (hi : Kept maxRetries before s) (h : Settled maxRetries s) :
    Finishes maxRetries before (superviseDeployingStory maxRetries story) s := by
  unfold superviseDeployingStory
  have hread : (episodes maxRetries before).Safe .scheduler (fun r s' => (∀ latest, r = .ok latest →
      acts s'.trace = .read story.id latest :: acts s.trace) ∧ (∀ e, r = .error e → acts s'.trace = acts s.trace))
      (getLatestRunByStory story.id) s := by
    refine call_safe fun s' hi' hacts reply _ => ?_
    change Kept maxRetries before (s'.getLatestRunByStory story.id reply.fate).2 ∧
      (∀ latest, (s'.getLatestRunByStory story.id reply.fate).1 = .ok latest →
        acts (s'.getLatestRunByStory story.id reply.fate).2.trace = .read story.id latest :: acts s.trace) ∧
      ∀ e, (s'.getLatestRunByStory story.id reply.fate).1 = .error e →
        acts (s'.getLatestRunByStory story.id reply.fate).2.trace = acts s.trace
    unfold State.getLatestRunByStory
    cases reply.fate with
    | served =>
      have hsettled : owing maxRetries (acts s'.trace) = false := by
        rw [hacts]
        exact h
      refine ⟨hi'.record_plain rfl (counting_of_settled hsettled) hsettled, ?_, nofun⟩
      · rintro latest ⟨⟩
        exact congrArg _ hacts
    | _ => exact ⟨hi', nofun, fun _ _ => hacts⟩
  refine Rules.Safe.bind (M := fun r s' => ∃ latest, r = .ok latest ∧ (∀ run, latest = .ok run →
      acts s'.trace = .read story.id run :: acts s.trace) ∧ (∀ e, latest = .error e → acts s'.trace = acts s.trace)) hi
    (Rules.Safe.attempt (hread.conseq hi fun r _ _ hpost => ⟨r, rfl, hpost⟩)) ?_ ?_
  · rintro latest s' hi' ⟨_, ⟨⟩, hok, herror⟩
    cases latest with
    | ok run => exact routeRun_done hi' (hok run rfl)
    | error e =>
      have hsettled : Settled maxRetries s' := by
        unfold Settled
        rw [herror e rfl]
        exact h
      cases e with
      | validationError => exact done_bind hi' (ask_done _ hsettled) fun _ _ _ h => ret_done _ h
      | _ => exact done_of_settled hsettled
  · rintro e s' _ ⟨_, ⟨⟩, _⟩

theorem eachStory_done (stories : List Story) (hi : Kept maxRetries before s) (h : Settled maxRetries s) :
    Finishes maxRetries before (eachStory (superviseDeployingStory maxRetries) stories) s := by
  induction stories generalizing s with
  | nil => exact ret_done _ h
  | cons story rest ih =>
    refine done_bind hi (superviseDeployingStory_done story hi h) fun _ s hi h => ?_
    exact done_bind hi (ih hi h) fun _ _ _ h => ret_done _ h

end Supervision

section Runs

variable {maxRetries : Nat} {stories : List Story} {runs : List DeployRun} {retries : String → Option Nat}
variable {c : Config retryWorld}

def opening (stories : List Story) (runs : List DeployRun) (retries : String → Option Nat) : State := ⟨stories, runs, retries, []⟩

theorem reaches_clean (h : Reaches (body maxRetries) (steady maxRetries retries) (.idle (opening stories runs retries)) c) :
    Clean (Due maxRetries) c.state.trace := by
  have hends : ∀ t outcome (s : State), Kept maxRetries retries s →
      (t = .scheduler → Due maxRetries (.ended (returned outcome)) s.trace) → (episodes maxRetries retries).Ends t outcome s := by
    intro t outcome s hi hdue
    cases t with
    | scheduler =>
      refine ⟨⟨hi.record_plain rfl (hdue rfl).1 (hdue rfl), ?_⟩, fun _ => rfl⟩
      rintro u hu rfl
      exact absurd rfl hu
    | outside execution => exact ⟨.refl _ hi, nofun⟩
  have hstart : (episodes maxRetries retries).inv (opening stories runs retries) := by
    refine ⟨trivial, fun storyId hintact => .inl ?_⟩
    have habsent : retries storyId = none := Option.isNone_iff_eq_none.mp hintact
    simp [State.attempts, opening, habsent, spent, acts, owed]
  refine (Rules.reaches_sound (.idle hstart fun _ _ => rfl) ?_ ?_ h).inv.clean
  · intro t s hi hrest _
    cases t with
    | scheduler =>
      have hlist : Finishes maxRetries retries (body maxRetries .scheduler) s := by
        refine done_bind hi ?_ fun _ _ _ h => ret_done _ h
        exact done_bind hi (quiet_done (fun _ _ => serve_same ⟨rfl, rfl⟩) (hrest rfl)) fun stories _ hi h => eachStory_done stories hi h
      refine hlist.conseq hi fun r s hi hdone => ?_
      refine hends .scheduler (some r) s hi fun _ => ⟨hdone.1, fun hreturned => ?_⟩
      cases r with
      | ok a => exact hdone.2 a rfl
      | error e => cases hreturned
    | outside execution =>
      refine Rules.Safe.perform fun s' hi' _ reply _ => ?_
      have hchange : Kept maxRetries retries (reply.change.apply s') ∧ acts (reply.change.apply s').trace = acts s'.trace := by
        cases reply.change with
        | expired storyId => exact ⟨hi'.forget storyId, rfl⟩
        | dispatch run => exact ⟨hi'.dispatch run, rfl⟩
        | _ => exact ⟨hi'.same rfl rfl, rfl⟩
      exact ⟨⟨hchange.1, fun _ _ _ => hchange.2⟩, hends _ _ _ hchange.1 nofun⟩
  · intro t s hi hadm
    refine hends t none s hi ?_
    rintro rfl
    exact ⟨hadm, nofun⟩

/-- Where the counter starts from nothing in each episode, a retry is redispatched until the episode
has had as many as are allowed, and only then the story is failed. -/
theorem retries_of_episode (h : Reaches (body maxRetries) (steady maxRetries retries) (.idle (opening stories runs retries)) c)
    {newer older : List Event} {event : Event} (htrace : c.state.trace = newer ++ event :: older) : Due maxRetries event older := by
  have hclean := reaches_clean h
  rw [htrace] at hclean
  exact hclean.split.1

end Runs

def sampleService (newRunId : String) : (call : ServiceCall) → Except Exn call.Res
  | .newRunId => .ok newRunId
  | .handleSuccess .. | .handleCodeFix .. => .ok true
  | .resolveProjectRecipient .. | .notifyAdmins .. | .routeRefused .. | .waitUserSecret .. | .giveUp .. | .failOnInvalidResult _ =>
    .ok ()

def sampleReply (newRunId : String) (change : OutsideChange) : Reply := ⟨.served, sampleService newRunId, change⟩

def outsideTurn (change : OutsideChange) : List (Turn retryWorld) :=
  [.start (.outside 0), .call (.outside 0) fun _ => sampleReply "" change]

def tick (newRunId : String) : List (Turn retryWorld) :=
  .start .scheduler :: List.replicate 8 (.call .scheduler fun _ => sampleReply newRunId (.writeRuns []))

def sampleRun (id headSha : String) (outcome : DeployOutcome) : DeployRun := ⟨id, "s", .failed, some outcome, some headSha⟩

def deployed (id headSha : String) (outcome : DeployOutcome) : List (Turn retryWorld) :=
  outsideTurn (.dispatch ⟨id, "s", .queued, none, some headSha⟩) ++ outsideTurn (.writeRuns [sampleRun id headSha outcome])

def sampleStart : Config retryWorld := .idle (opening [⟨"s", "p", .deploying⟩] [] fun _ => none)

def firstRetry : Config retryWorld := sampleStart.play (body 3) (deployed "d1" "c1" .retry ++ tick "d2")

/-- The first commit's retry is forgotten before the second commit is dispatched, and is no count of it. -/
def freshCommit : Config retryWorld := firstRetry.play (body 3)
  (outsideTurn (.writeRuns [sampleRun "d2" "c1" .success]) ++ tick "" ++ outsideTurn (.expired "s") ++
    deployed "d3" "c2" .retry ++ tick "d4")

theorem second_redispatched : Due 3 (.redispatched "s" "c2")
    (.counted "s" 1 :: .read "s" (some (sampleRun "d3" "c2" .retry)) :: .begun "s" 0 :: .forgotten "s" 1 :: .ended true ::
      .read "s" (some (sampleRun "d2" "c1" .success)) :: firstRetry.state.trace) := by
  have htrace : freshCommit.state.trace = [.ended true] ++ .redispatched "s" "c2" ::
      (.counted "s" 1 :: .read "s" (some (sampleRun "d3" "c2" .retry)) :: .begun "s" 0 :: .forgotten "s" 1 :: .ended true ::
        .read "s" (some (sampleRun "d2" "c1" .success)) :: firstRetry.state.trace) := by decide +kernel
  have hfirst : Reaches (body 3) (steady 3 fun _ => none) sampleStart firstRetry := play_reaches (by decide +kernel)
  exact retries_of_episode (hfirst.trans (play_reaches (by decide +kernel))) htrace

def secondCommit : Config retryWorld := firstRetry.play (body 3)
  (outsideTurn (.writeRuns [sampleRun "d2" "c1" .cancelled]) ++ tick "d3" ++
    outsideTurn (.writeRuns [sampleRun "d3" "c1" .success]) ++ tick "" ++ deployed "d4" "c2" .retry ++ tick "d5")

theorem second_commit_failed :
    Reaches (body 3) anyMove sampleStart firstRetry ∧ Reaches (body 3) anyMove firstRetry secondCommit ∧
      secondCommit.state.trace.take 6 = [.ended true, .forgotten "s" 3, .failed "s" .retriesExhausted, .counted "s" 3,
        .read "s" (some (sampleRun "d4" "c2" .retry)), .begun "s" 2] ∧
      spent "s" secondCommit.state.trace = 0 :=
  ⟨play_reaches_anyMove .., play_reaches_anyMove .., by decide +kernel, by decide +kernel⟩

end Orchestrator.Retries
