import Orchestrator.Completion.Stories

/-!
The worker of a story is deleted once its story is out of progress, as long as the
story leaves through its completion and nothing fails on the way.
-/

namespace Orchestrator.Completion

open Async Async.Rules Contracts Pipeline

/-- Of each worker that was ever registered for a story the deletion was asked for; or
the registry names it, and the story is in progress or the scheduler is on its way to
relieve it. -/
structure Kept (s : State) : Prop where
  named : ∀ storyId workerId, .registered storyId workerId ∈ s.trace → workerId.isEmpty = false
  kept : ∀ storyId workerId, .registered storyId workerId ∈ s.trace → .deletion workerId ∈ s.trace ∨
    s.workers storyId = some workerId ∧ (s.inProgress storyId = true ∨ s.completing = some storyId)

def State.relieved (s : State) (storyId : String) : Prop :=
  ∀ workerId ∈ s.workers storyId, workerId.isEmpty = false → .deletion workerId ∈ s.trace

instance (s : State) (storyId : String) : Decidable (s.relieved storyId) :=
  inferInstanceAs (Decidable (∀ workerId ∈ s.workers storyId, workerId.isEmpty = false → .deletion workerId ∈ s.trace))

def Settled (s : State) : Prop := ∀ storyId ∈ s.completing, s.relieved storyId

instance (s : State) : Decidable (Settled s) := inferInstanceAs (Decidable (∀ storyId ∈ s.completing, s.relieved storyId))

def OutsideChange.written : OutsideChange → Option Story
  | .writeStory story => some story
  | _ => none

/-- A worker is registered for a story in progress that has no other, a story in
progress is taken out of it by its completion alone unless it has no worker, and from
there to the delete command no command and no process fails. -/
def seenTo : State → Move completionWorld → Prop
  | s, .call _ (.hset storyId workerId) reply => reply.fate.carriedOut = true → s.inProgress storyId = true ∧
    s.completing ≠ some storyId ∧ (s.workers storyId = some workerId ∨ s.relieved storyId)
  | s, .call _ (.transitionStory storyId _) reply => reply.fate.carriedOut = true → reply.fate.isServed = true ∨ s.relieved storyId
  | s, .call _ (.hget storyId) reply => reply.fate.isServed = true ∨ s.relieved storyId
  | s, .call t (.publishDeletion _) reply => t = .scheduler → reply.fate.carriedOut = true ∨ Settled s
  | s, .call _ .outside reply => ∀ story ∈ reply.change.written, s.inProgress story.id = true →
    story.status = .inProgress ∨ s.completing = some story.id ∨ s.relieved story.id
  | s, .stop t => t = .scheduler → Settled s
  | _, _ => True

instance (s : State) (m : Move completionWorld) : Decidable (seenTo s m) := by
  unfold seenTo
  split <;> infer_instance

section Rows

variable {s : State} {story row : Story} {storyId : String}

theorem story_writeStory (s : State) (story : Story) (storyId : String) : (s.writeStory story).story? storyId =
    (s.story? storyId).map fun row => if row.id = story.id then story else row := by
  unfold State.writeStory State.story?
  dsimp only
  rw [List.find?_map]
  congr 2
  funext row
  simp only [Function.comp_apply]
  split
  · next hid => rw [hid]
  · rfl

theorem story_id (h : s.story? storyId = some story) : story.id = storyId := by
  simpa using List.find?_some h

theorem inProgress_of_ne (hne : storyId ≠ story.id) : (s.writeStory story).inProgress storyId = s.inProgress storyId := by
  unfold State.inProgress
  rw [story_writeStory]
  cases hs : s.story? storyId with
  | none => rfl
  | some row =>
    have hid := story_id hs
    subst hid
    simp [hne]

theorem inProgress_writeStory (hkeeps : s.inProgress story.id = true → story.status = .inProgress)
    (h : s.inProgress storyId = true) : (s.writeStory story).inProgress storyId = true := by
  by_cases hid : storyId = story.id
  · subst hid
    have hstatus := hkeeps h
    unfold State.inProgress at h ⊢
    rw [story_writeStory]
    cases hs : s.story? story.id with
    | none =>
      rw [hs] at h
      cases h
    | some row => simp [story_id hs, hstatus]
  · rw [inProgress_of_ne hid]
    exact h

theorem inProgress_addStory (h : s.inProgress storyId = true) :
    ({ s with stories := s.stories ++ [story] } : State).inProgress storyId = true := by
  unfold State.inProgress State.story? at *
  dsimp only
  rw [List.find?_append]
  cases hs : s.stories.find? (·.id = storyId) with
  | none =>
    rw [hs] at h
    cases h
  | some row =>
    rw [hs] at h
    exact h

end Rows

theorem Kept.deleted {s : State} (h : Kept s) {storyId workerId : String} (hrelieved : s.relieved storyId)
    (hmem : .registered storyId workerId ∈ s.trace) : .deletion workerId ∈ s.trace := by
  rcases h.kept storyId workerId hmem with hdeleted | ⟨hnamed, _⟩
  · exact hdeleted
  · exact hrelieved workerId hnamed (h.named storyId workerId hmem)

def completionRules : Rules completionWorld where
  admits := seenTo
  inv := Kept
  rely t s s' := t = .scheduler → s'.completing = s.completing ∧
    (∀ storyId ∈ s.completing, s'.workers storyId = s.workers storyId) ∧
    ∀ workerId, .deletion workerId ∈ s.trace → .deletion workerId ∈ s'.trace
  rely_refl _ _ _ := ⟨rfl, fun _ _ => rfl, fun _ h => h⟩
  rely_trans h h' ht := by
    obtain ⟨hcompleting, hworkers, hdeleted⟩ := h ht
    obtain ⟨hcompleting', hworkers', hdeleted'⟩ := h' ht
    refine ⟨hcompleting'.trans hcompleting, fun storyId hmem => ?_, fun workerId hmem => hdeleted' workerId (hdeleted workerId hmem)⟩
    exact (hworkers' storyId (hcompleting ▸ hmem)).trans (hworkers storyId hmem)
  rest t s := t = .scheduler → Settled s
  rest_stable _ hr hrest ht storyId hmem workerId hnamed hname := by
    obtain ⟨hcompleting, hworkers, hdeleted⟩ := hr ht
    rw [hcompleting] at hmem
    rw [hworkers storyId hmem] at hnamed
    exact hdeleted workerId (hrest ht storyId hmem workerId hnamed hname)

section Completing

variable {t : Party} {s s' : State} {A : Type} {reply : Reply}

theorem keeps_of_same (hi : Kept s) (hworkers : s'.workers = s.workers) (hcompleting : s'.completing = s.completing)
    (htrace : s'.trace = s.trace) (hstories : ∀ storyId, s.inProgress storyId = true → s'.inProgress storyId = true) :
    completionRules.Keeps t s s' := by
  refine ⟨⟨fun storyId workerId hmem => hi.named storyId workerId (htrace ▸ hmem), fun storyId workerId hmem => ?_⟩,
    fun _ _ _ => ⟨hcompleting, fun _ _ => by rw [hworkers], fun _ h => htrace ▸ h⟩⟩
  rw [htrace] at hmem ⊢
  rw [hworkers, hcompleting]
  rcases hi.kept storyId workerId hmem with hdeleted | ⟨hnamed, hprogress | hcompletes⟩
  · exact .inl hdeleted
  · exact .inr ⟨hnamed, .inl (hstories storyId hprogress)⟩
  · exact .inr ⟨hnamed, .inr hcompletes⟩

theorem serve_kept {exec : State → Except Exn A × State} (fate : Fate Exn) (hi : Kept s)
    (h : fate.carriedOut = true → completionRules.Keeps t s (exec s).2) : completionRules.Keeps t s (fate.serve exec s).2 := by
  cases fate with
  | unsent e => exact .refl _ hi
  | _ => exact h rfl

theorem deletion_keeps (workerId : String) (hi : Kept s) : completionRules.Keeps t s (s.record (.deletion workerId)) := by
  refine ⟨⟨fun storyId id hmem => ?_, fun storyId id hmem => ?_⟩,
    fun _ _ _ => ⟨rfl, fun _ _ => rfl, fun _ h => List.mem_cons_of_mem _ h⟩⟩
  · rcases List.mem_cons.mp hmem with heq | hmem
    · cases heq
    · exact hi.named storyId id hmem
  · rcases List.mem_cons.mp hmem with heq | hmem
    · cases heq
    · rcases hi.kept storyId id hmem with hdeleted | hnamed
      · exact .inl (List.mem_cons_of_mem _ hdeleted)
      · exact .inr hnamed

theorem hset_keeps {storyId workerId : String} (hi : Kept s) (hname : workerId.isEmpty = false)
    (hprogress : s.inProgress storyId = true) (hcompleting : s.completing ≠ some storyId)
    (hfree : s.workers storyId = some workerId ∨ s.relieved storyId) :
    completionRules.Keeps t s (s.hset storyId workerId).2 := by
  have hself : Function.update s.workers storyId (some workerId) storyId = some workerId := Function.update_self ..
  refine ⟨⟨fun other id hmem => ?_, fun other id hmem => ?_⟩, fun _ _ _ => ⟨rfl, fun other hmem => ?_, fun _ h =>
    List.mem_cons_of_mem _ h⟩⟩
  · rcases List.mem_cons.mp hmem with heq | hmem
    · cases heq
      exact hname
    · exact hi.named other id hmem
  · rcases List.mem_cons.mp hmem with heq | hmem
    · cases heq
      exact .inr ⟨hself, .inl hprogress⟩
    · by_cases hother : other = storyId
      · subst hother
        rcases hfree with hsame | hrelieved
        · rcases hi.kept other id hmem with hdeleted | ⟨hnamed, hleft⟩
          · exact .inl (List.mem_cons_of_mem _ hdeleted)
          · cases hsame.symm.trans hnamed
            exact .inr ⟨hself, hleft⟩
        · exact .inl (List.mem_cons_of_mem _ (hi.deleted hrelieved hmem))
      · rcases hi.kept other id hmem with hdeleted | ⟨hnamed, hleft⟩
        · exact .inl (List.mem_cons_of_mem _ hdeleted)
        · exact .inr ⟨(Function.update_of_ne hother ..).trans hnamed, hleft⟩
  · have hother : other ≠ storyId := fun heq => hcompleting (heq ▸ hmem)
    exact Function.update_of_ne hother ..

theorem transitionStory_keeps (storyId : String) (action : StoryAction) (hi : Kept s) (hsettled : Settled s) :
    completionRules.Keeps .scheduler s (s.transitionStory storyId action).2 := by
  unfold State.transitionStory
  split
  · exact .refl _ hi
  · next story hstory =>
    split
    · refine ⟨⟨hi.named, fun other id hmem => ?_⟩, fun u hu hscheduler => absurd hscheduler hu⟩
      rcases hi.kept other id hmem with hdeleted | ⟨hnamed, hprogress | hcompletes⟩
      · exact .inl hdeleted
      · by_cases hother : other = storyId
        · exact .inr ⟨hnamed, .inr (congrArg some hother.symm)⟩
        · have hne : other ≠ story.id := fun heq => hother (heq.trans (story_id hstory))
          refine .inr ⟨hnamed, .inl ?_⟩
          have hsame : ({ s.writeStory { story with status := action.target } with completing := some storyId } : State).inProgress
              other = s.inProgress other := inProgress_of_ne hne
          exact hsame.trans hprogress
      · exact .inl (hi.deleted (hsettled other hcompletes) hmem)
    · exact .refl _ hi

theorem settle_keeps (hi : Kept s) (hsettled : Settled s) :
    completionRules.Keeps .scheduler s { s with completing := none } := by
  refine ⟨⟨hi.named, fun storyId id hmem => ?_⟩, fun u hu hscheduler => absurd hscheduler hu⟩
  rcases hi.kept storyId id hmem with hdeleted | ⟨hnamed, hprogress | hcompletes⟩
  · exact .inl hdeleted
  · exact .inr ⟨hnamed, .inl hprogress⟩
  · exact .inl (hi.deleted (hsettled storyId hcompletes) hmem)

variable {storyId : String}

theorem hdel_keeps (hi : Kept s) (hsettled : Settled s) (hcompleting : s.completing = some storyId) :
    completionRules.Keeps .scheduler s (s.hdel storyId).2 := by
  refine ⟨⟨hi.named, fun other id hmem => ?_⟩, fun u hu hscheduler => absurd hscheduler hu⟩
  by_cases hother : other = storyId
  · subst hother
    exact .inl (hi.deleted (hsettled other hcompleting) hmem)
  · rcases (settle_keeps hi hsettled).inv.kept other id hmem with hdeleted | ⟨hnamed, hleft⟩
    · exact .inl hdeleted
    · exact .inr ⟨(Function.update_of_ne hother ..).trans hnamed, hleft⟩

theorem outside_keeps (change : OutsideChange) (hi : Kept s) (hseen : ∀ story ∈ change.written, s.inProgress story.id = true →
    story.status = .inProgress ∨ s.completing = some story.id ∨ s.relieved story.id) :
    completionRules.Keeps t s (change.apply s) := by
  cases change with
  | deleteWorker workerId => exact deletion_keeps workerId hi
  | addStory story => exact keeps_of_same hi rfl rfl rfl fun _ => inProgress_addStory
  | writeStory story =>
    refine ⟨⟨hi.named, fun storyId workerId hmem => ?_⟩, fun _ _ _ => ⟨rfl, fun _ _ => rfl, fun _ h => h⟩⟩
    rcases hi.kept storyId workerId hmem with hdeleted | ⟨hnamed, hprogress | hcompletes⟩
    · exact .inl hdeleted
    · by_cases hid : storyId = story.id
      · subst hid
        rcases hseen story rfl hprogress with hstays | hcompletes | hrelieved
        · exact .inr ⟨hnamed, .inl (inProgress_writeStory (fun _ => hstays) hprogress)⟩
        · exact .inr ⟨hnamed, .inr hcompletes⟩
        · exact .inl (hi.deleted hrelieved hmem)
      · exact .inr ⟨hnamed, .inl ((inProgress_of_ne hid).trans hprogress)⟩
    · exact .inr ⟨hnamed, .inr hcompletes⟩

theorem settled_stable : completionRules.Stable .scheduler Settled := fun _ _ hi hr h =>
  completionRules.rest_stable hi hr (fun _ => h) rfl

theorem completing_stable :
    completionRules.Stable .scheduler (fun s : State => s.completing = some storyId) := fun _ _ _ hr h => (hr rfl).1.trans h

theorem settled_of_same (hworkers : s'.workers = s.workers) (hcompleting : s'.completing = s.completing)
    (htrace : s'.trace = s.trace) (h : Settled s) : Settled s' := by
  unfold Settled State.relieved
  rw [hworkers, hcompleting, htrace]
  exact h

def Op.aside : Op → Bool
  | .service _ | .getStoriesByStatus _ | .updateStory .. => true
  | _ => false

theorem updateStory_same (storyId : String) (prNumber : Nat) (s : State) :
    (s.updateStory storyId prNumber).2.workers = s.workers ∧ (s.updateStory storyId prNumber).2.completing = s.completing ∧
      (s.updateStory storyId prNumber).2.trace = s.trace ∧
      ∀ other, s.inProgress other = true → (s.updateStory storyId prNumber).2.inProgress other = true := by
  unfold State.updateStory
  split
  · exact ⟨rfl, rfl, rfl, fun _ h => h⟩
  · next story hstory =>
    refine ⟨rfl, rfl, rfl, fun other h => inProgress_writeStory (fun hprogress => ?_) h⟩
    unfold State.inProgress at hprogress
    rw [story_id hstory, hstory] at hprogress
    simpa using hprogress

theorem run_aside {op : Op} (hop : op.aside = true) (hi : Kept s) (hsettled : Settled s) :
    completionRules.Keeps .scheduler s (run .scheduler op reply s).2 ∧ Settled (run .scheduler op reply s).2 := by
  cases op with
  | service call => exact ⟨.refl _ hi, hsettled⟩
  | getStoriesByStatus status =>
    simp only [run]
    cases reply.fate <;> exact ⟨.refl _ hi, hsettled⟩
  | updateStory storyId prNumber =>
    obtain ⟨hworkers, hcompleting, htrace, hstories⟩ := updateStory_same storyId prNumber s
    have hserved := keeps_of_same (t := .scheduler) hi hworkers hcompleting htrace hstories
    have hafter := settled_of_same hworkers hcompleting htrace hsettled
    simp only [run]
    cases reply.fate with
    | unsent e => exact ⟨.refl _ hi, hsettled⟩
    | _ => exact ⟨hserved, hafter⟩
  | _ => cases hop

theorem aside_maintains {p : Job A} (hp : Prog.Uses (fun op : Op => op.aside = true) p) :
    completionRules.Maintains .scheduler Settled p :=
  Safe.leaves settled_stable (hp.mono fun _ hop _ hi hsettled _ _ => run_aside hop hi hsettled)

theorem transitionStory_cases (storyId : String) (action : StoryAction) (s : State) :
    (∃ e, s.transitionStory storyId action = (.error e, s)) ∨
      ∃ s', s.transitionStory storyId action = (.ok (), s') ∧ s'.completing = some storyId ∧ s'.workers = s.workers ∧
        s'.trace = s.trace := by
  unfold State.transitionStory
  split
  · exact .inl ⟨_, rfl⟩
  · split
    · exact .inr ⟨_, rfl, rfl, rfl, rfl⟩
    · exact .inl ⟨_, rfl⟩

theorem transitionStory_safe (storyId : String) (action : StoryAction) (hsettled : Settled s) :
    completionRules.Safe .scheduler (fun r s => (r = .ok () → s.completing = some storyId) ∧ ∀ e, r = .error e → Settled s)
      (transitionStory storyId action) s := by
  refine Safe.perform fun s' hi' hr reply hseen => ?_
  have hsettled' := settled_stable _ _ hi' hr hsettled
  have hkeeps := transitionStory_keeps storyId action hi' hsettled'
  refine ⟨serve_kept reply.fate hi' fun _ => hkeeps, ?_⟩
  have hheard : reply.fate.carriedOut = true → reply.fate.isServed = true ∨ s'.relieved storyId := hseen
  simp only [run]
  generalize reply.fate = fate at hheard ⊢
  cases fate with
  | unsent e => exact ⟨fun h => (nomatch h), fun _ _ => hsettled'⟩
  | served =>
    simp only [Fate.serve]
    rcases transitionStory_cases storyId action s' with ⟨e, hfailed⟩ | ⟨s'', hmoved, hcompleting, _⟩
    · rw [hfailed]
      exact ⟨fun h => (nomatch h), fun _ _ => hsettled'⟩
    · rw [hmoved]
      exact ⟨fun _ => hcompleting, fun _ h => nomatch h⟩
  | unheard e =>
    simp only [Fate.serve]
    refine ⟨fun h => (nomatch h), fun _ _ => ?_⟩
    rcases transitionStory_cases storyId action s' with ⟨e, hfailed⟩ | ⟨s'', hmoved, hcompleting, hworkers, htrace⟩
    · rw [hfailed]
      exact hsettled'
    · rw [hmoved]
      rcases hheard rfl with hserved | hrelieved
      · cases hserved
      · intro other hother
        cases hcompleting.symm.trans hother
        unfold State.relieved
        rw [hworkers, htrace]
        exact hrelieved

theorem settled_of_relieved (hcompleting : s.completing = some storyId) (h : s.relieved storyId) : Settled s := by
  intro other hother
  cases hcompleting.symm.trans hother
  exact h

def Named (storyId : String) : Except Exn (Option String) → State → Prop
  | .ok (some workerId), s => s.completing = some storyId ∧ s.workers storyId = some workerId
  | _, s => Settled s

theorem hget_safe (hcompleting : s.completing = some storyId) :
    completionRules.Safe .scheduler (Named storyId)
      (perform (.hget storyId)) s := by
  refine Safe.perform fun s' hi' hr reply hseen => ?_
  have hcompleting' := completing_stable _ _ hi' hr hcompleting
  have hheard : reply.fate.isServed = true ∨ s'.relieved storyId := hseen
  simp only [run]
  generalize reply.fate = fate at hheard ⊢
  cases hworker : s'.workers storyId with
  | none =>
    have hread : s'.hget .scheduler storyId = (.ok none, { s' with completing := none }) := by rw [State.hget, hworker]; rfl
    have hrelieved : s'.relieved storyId := by
      intro workerId hnamed
      cases hworker.symm.trans hnamed
    have hsettled := settled_of_relieved hcompleting' hrelieved
    have hkeeps := settle_keeps hi' hsettled
    cases fate with
    | served | unheard _ =>
      simp only [Fate.serve, hread]
      exact ⟨hkeeps, by rintro _ ⟨⟩⟩
    | unsent e => exact ⟨.refl _ hi', hsettled⟩
  | some workerId =>
    have hread : s'.hget .scheduler storyId = (.ok (some workerId), s') := by rw [State.hget, hworker]
    cases fate with
    | served =>
      simp only [Fate.serve, hread]
      exact ⟨.refl _ hi', hcompleting', hworker⟩
    | unheard e =>
      simp only [Fate.serve, hread]
      rcases hheard with hserved | hrelieved
      · cases hserved
      · exact ⟨.refl _ hi', settled_of_relieved hcompleting' hrelieved⟩
    | unsent e =>
      rcases hheard with hserved | hrelieved
      · cases hserved
      · exact ⟨.refl _ hi', settled_of_relieved hcompleting' hrelieved⟩

theorem publishDeletion_safe {command : DeleteWorkerCommand} (hcompleting : s.completing = some storyId)
    (hworker : s.workers storyId = some command.workerId) :
    completionRules.Safe .scheduler (fun _ s => s.completing = some storyId ∧ Settled s) (publishDeletion command) s := by
  refine Safe.perform fun s' hi' hr reply hseen => ?_
  have hcompleting' := completing_stable _ _ hi' hr hcompleting
  have hworker' : s'.workers storyId = some command.workerId := ((hr rfl).2.1 storyId hcompleting).trans hworker
  have hcarried : reply.fate.carriedOut = true ∨ Settled s' := hseen rfl
  have hpublished : completionRules.Keeps .scheduler s' (s'.record (.deletion command.workerId)) ∧
      (s'.record (.deletion command.workerId)).completing = some storyId ∧ Settled (s'.record (.deletion command.workerId)) := by
    refine ⟨deletion_keeps _ hi', hcompleting', settled_of_relieved hcompleting' fun workerId hnamed _ => ?_⟩
    cases hworker'.symm.trans hnamed
    exact List.mem_cons_self
  simp only [run]
  generalize reply.fate = fate at hcarried ⊢
  cases fate with
  | unsent e =>
    rcases hcarried with hcarried | hsettled
    · cases hcarried
    · exact ⟨.refl _ hi', hcompleting', hsettled⟩
  | _ => exact hpublished

theorem hdel_safe (hcompleting : s.completing = some storyId) (hsettled : Settled s) :
    completionRules.Safe .scheduler (fun _ => Settled) (hdel storyId) s := by
  refine Safe.perform fun s' hi' hr reply _ => ?_
  have hsettled' := settled_stable _ _ hi' hr hsettled
  have hkeeps := hdel_keeps hi' hsettled' (completing_stable _ _ hi' hr hcompleting)
  simp only [run]
  cases reply.fate with
  | unsent e => exact ⟨.refl _ hi', hsettled'⟩
  | _ => exact ⟨hkeeps, by rintro _ ⟨⟩⟩

theorem cleanupStoryWorker_safe (hi : Kept s) (hcompleting : s.completing = some storyId) :
    completionRules.Safe .scheduler (fun _ => Settled) (cleanupStoryWorker storyId) s := by
  refine Safe.bind hi (hget_safe hcompleting) (fun workerId s hi h => ?_) fun _ _ _ h => h
  cases workerId with
  | none => exact h
  | some workerId =>
    obtain ⟨hcompleting, hworker⟩ := h
    unfold relieve
    by_cases hname : workerId.isEmpty = true
    · rw [Option.filter_some, if_neg (by simp [hname])]
      refine settled_of_relieved hcompleting fun other hnamed hnonempty => ?_
      cases hworker.symm.trans hnamed
      cases hname.symm.trans hnonempty
    · rw [Option.filter_some, if_pos (by simp [hname])]
      refine Safe.bind hi (publishDeletion_safe hcompleting hworker) (fun _ s hi h => ?_) fun _ _ _ h => h.2
      exact hdel_safe h.1 h.2

theorem leaveProgress_safe {A : Type} {next : Job A} {action : StoryAction} (hi : Kept s) (hsettled : Settled s)
    (hnext : completionRules.Maintains .scheduler Settled next) :
    completionRules.Safe .scheduler (fun _ => Settled)
      ((transitionStory storyId action).bind fun _ => (cleanupStoryWorker storyId).bind fun _ => next) s :=
  Safe.bind hi (transitionStory_safe storyId action hsettled)
    (fun _ _ hi h => Safe.bind hi (cleanupStoryWorker_safe hi (h.1 rfl)) (fun _ s hi h => hnext s hi h) fun _ _ _ h => h)
    fun e _ _ h => h.2 e rfl

theorem exceptException_maintains {p handler : Job A} (hp : completionRules.Maintains .scheduler Settled p)
    (hh : completionRules.Maintains .scheduler Settled handler) :
    completionRules.Maintains .scheduler Settled (exceptException p handler) := by
  refine .handle hp fun e => ?_
  split
  · exact .raise e
  · exact hh

theorem enableAutoMerge_maintains (owner repoName : String) (pr : PullRequest) :
    completionRules.Maintains .scheduler Settled (enableAutoMerge owner repoName pr) := by
  refine aside_maintains ?_
  unfold enableAutoMerge
  split
  · exact .perform rfl
  · refine .bind (.perform rfl) fun details => ?_
    split
    · exact .perform rfl
    · trivial

theorem openPullRequest_maintains (story : Story) (owner repoName : String) :
    completionRules.Maintains .scheduler Settled (openPullRequest story owner repoName) := by
  refine exceptException_maintains (.bind (aside_maintains (.perform rfl)) fun pr => .bind (aside_maintains (.perform rfl))
    fun _ => ?_) (.ret _)
  unfold finishOpened
  split
  · exact fun s hi hsettled => leaveProgress_safe hi hsettled (.ret _)
  · exact (enableAutoMerge_maintains _ _ _).bind fun _ => .ret _

theorem triggerNextStory_maintains (projectId : String) :
    completionRules.Maintains .scheduler Settled (triggerNextStory projectId) := by
  refine .bind (aside_maintains (.perform rfl)) fun created => ?_
  split
  · exact .ret ()
  · exact .bind (aside_maintains (.perform rfl)) fun _ => aside_maintains (.perform rfl)

theorem concludeStory_maintains (story : Story) (opened : Opened) :
    completionRules.Maintains .scheduler Settled (concludeStory story opened) := by
  cases opened with
  | waiting =>
    exact fun s hi hsettled => leaveProgress_safe hi hsettled (.bind (triggerNextStory_maintains _) fun _ => .ret _)
  | _ => exact .ret _

theorem completeStory_maintains (story : Story) : completionRules.Maintains .scheduler Settled (completeStory story) := by
  refine .bind (aside_maintains (.perform rfl)) fun statuses => ?_
  split
  · exact .ret _
  · refine .bind ?_ fun repo => ?_
    · unfold repositoryOf
      split
      · exact .ret _
      · exact aside_maintains (.perform rfl)
    · split
      · exact .ret _
      · split
        · exact .raise _
        · exact (openPullRequest_maintains _ _ _).bind fun opened => concludeStory_maintains _ _

theorem completeStories_maintains : completionRules.Maintains .scheduler Settled completeStories := by
  refine .bind (aside_maintains (.perform rfl)) fun stories => ?_
  induction stories with
  | nil => exact .ret _
  | cons story rest ih => exact .bind (completeStory_maintains story) fun _ => .bind ih fun _ => .ret _

theorem keepWorker_safe (success : EngineeringSuccess) (n : Nat) (hi : Kept s) :
    completionRules.Safe (.engineering n) (fun _ _ => True) (keepWorker success) s := by
  have handled {p : Job Unit} (hp : completionRules.Safe (.engineering n) (fun _ _ => True) p s) :
      completionRules.Safe (.engineering n) (fun _ _ => True) (exceptException p (return ())) s := by
    refine Safe.handle hi hp (fun _ _ _ _ => trivial) fun e s hi _ => ?_
    split <;> trivial
  unfold keepWorker
  split
  · trivial
  · next workerId hworker =>
    have hname : workerId.isEmpty = false := by simpa using (Option.filter_eq_some_iff.mp hworker).2
    split
    · refine handled (Safe.perform fun s' hi' _ reply hseen => ⟨serve_kept reply.fate hi' fun hcarried => ?_, trivial⟩)
      obtain ⟨hprogress, hcompleting, hfree⟩ := hseen hcarried
      exact hset_keeps hi' hname hprogress hcompleting hfree
    · refine handled (Safe.perform fun s' hi' _ reply _ => ⟨?_, trivial⟩)
      let exec (s : State) : Except Exn Unit × State := (.ok (), s.record (.deletion workerId))
      have hexec : completionRules.Keeps (.engineering n) s' (exec s').2 := deletion_keeps workerId hi'
      exact serve_kept reply.fate hi' fun _ => hexec

theorem ended_keeps (r : Option (Except Exn Unit)) (hi : Kept s) (hsettled : t = .scheduler → Settled s) :
    completionRules.Keeps t s (ended t r s) ∧ (t = .scheduler → Settled (ended t r s)) := by
  unfold ended
  by_cases ht : t = .scheduler
  · subst ht
    exact ⟨settle_keeps hi (hsettled rfl), fun _ _ h => nomatch h⟩
  · rw [if_neg ht]
    exact ⟨.refl _ hi, hsettled⟩

theorem completion_start (successes : Nat → EngineeringSuccess) (hi : Kept s) (hrest : t = .scheduler → Settled s) :
    completionRules.Safe t (completionRules.Finishes t) (body successes t) s := by
  cases t with
  | scheduler =>
    have hcompleted : completionRules.Maintains .scheduler Settled (body successes .scheduler) :=
      .bind completeStories_maintains fun _ => .ret ()
    exact (hcompleted s hi (hrest rfl)).conseq hi fun r _ hi h => ended_keeps (some r) hi fun _ => h
  | engineering n => exact (keepWorker_safe _ n hi).conseq hi fun r _ hi _ => ended_keeps (some r) hi fun h => nomatch h
  | outside n =>
    have houtside : completionRules.Safe (.outside n) (fun _ _ => True) (body successes (.outside n)) s :=
      Safe.perform fun s' hi' _ reply hseen => ⟨outside_keeps reply.change hi' hseen, trivial⟩
    exact houtside.conseq hi fun r _ hi _ => ended_keeps (some r) hi fun h => nomatch h

end Completing

/-- In a run in which stories leave progress through their completion and nothing fails
on its way to the worker, no worker is left behind. -/
theorem workers_kept (successes : Nat → EngineeringSuccess) (start : State) (hstart : Kept start)
    (hcompleting : start.completing = none) (c : Config completionWorld)
    (h : Reaches (body successes) seenTo (Config.idle start) c) : Kept c.state := by
  have hrest (t : Party) : completionRules.rest t start := fun _ storyId hmem => nomatch hcompleting.symm.trans hmem
  have hidle : completionRules.Sound (Config.idle start : Config completionWorld) := .idle hstart hrest
  exact (reaches_sound hidle (fun t s hi hrest _ => completion_start successes hi hrest)
    (fun t s hi hstop => ended_keeps none hi hstop) h).inv

def sampleCompletion : State where
  stories := [⟨"s", "p", .inProgress, "Story", 0, none⟩]
  workers _ := none
  completing := none
  trace := []

theorem sampleCompletion_kept : Kept sampleCompletion := ⟨fun _ _ h => (nomatch h), fun _ _ h => (nomatch h)⟩

def keptWorker : Nat → EngineeringSuccess := fun _ => ⟨some "w", some "s"⟩

def completionServed (fate : Fate Exn) (change : OutsideChange) : Reply where
  fate := fate
  service call := match call with
    | .getTasksByStory _ => .ok [TaskStatus.done]
    | .getPrimaryRepository _ => .ok (some ⟨some "https://github.com/org/repo.git"⟩)
    | .createPullRequest .. => .ok ⟨1, some "PR_1", none⟩
    | .enableAutoMerge .. => .ok true
    | .getPullRequest .. => .ok ⟨1, some "PR_1", none⟩
    | .resolveProjectRecipient .. => .ok ⟨"", "", ""⟩
    | .publishArchitect _ => .ok ()
  change := change

def served (calls : Nat) (t : Party) : List (Turn completionWorld) :=
  List.replicate calls (.call t fun _ => completionServed .served (.deleteWorker ""))

def completedRun : List (Turn completionWorld) :=
  .start (.engineering 0) :: served 1 (.engineering 0) ++ .start .scheduler :: served 11 .scheduler

theorem sample_workers_kept : Kept ((Config.idle sampleCompletion).play (body keptWorker) completedRun).state ∧
    ((Config.idle sampleCompletion).play (body keptWorker) completedRun).state.trace = [.deletion "w", .registered "s" "w"] :=
  ⟨workers_kept keptWorker sampleCompletion sampleCompletion_kept rfl _ (play_reaches (by decide +kernel)), by decide +kernel⟩

def unreadRegistry : List (Turn completionWorld) :=
  .start (.engineering 0) :: served 1 (.engineering 0) ++ .start .scheduler :: served 7 .scheduler ++
    [.call .scheduler fun _ => completionServed (.unsent (.exception "ConnectionError")) (.deleteWorker "")]

def failedStory : List (Turn completionWorld) :=
  .start (.engineering 0) :: served 1 (.engineering 0) ++
    [.start (.outside 0), .call (.outside 0) fun _ =>
      completionServed .served (.writeStory ⟨"s", "p", .failed, "Story", 0, none⟩)]

def State.leaks (s : State) (storyId workerId : String) : Bool :=
  s.trace.contains (.registered storyId workerId) && !s.trace.contains (.deletion workerId) &&
    !s.inProgress storyId && s.completing ≠ some storyId

theorem not_kept_of_leaks {s : State} {storyId workerId : String} (h : s.leaks storyId workerId = true) : ¬ Kept s := by
  simp only [State.leaks, Bool.and_eq_true, List.contains_iff_mem, Bool.not_eq_true', decide_eq_true_eq] at h
  obtain ⟨⟨⟨hregistered, hdeleted⟩, hprogress⟩, hcompleting⟩ := h
  intro hkept
  rcases hkept.kept storyId workerId hregistered with hmem | ⟨_, hleft | hleft⟩
  · exact absurd (List.contains_iff_mem.mpr hmem) (by rw [hdeleted]; decide)
  · cases hprogress.symm.trans hleft
  · exact hcompleting hleft

theorem workers_left_behind : ¬ (∀ (successes : Nat → EngineeringSuccess) (start : State), Kept start → start.completing = none →
    ∀ c : Config completionWorld, Reaches (body successes) anyMove (Config.idle start) c → Kept c.state) ∧
      ¬ Kept ((Config.idle sampleCompletion).play (body keptWorker) failedStory).state := by
  have hfailed : ((Config.idle sampleCompletion).play (body keptWorker) failedStory).state.leaks "s" "w" = true := by
    decide +kernel
  refine ⟨fun h => ?_, not_kept_of_leaks hfailed⟩
  have hleaks : ((Config.idle sampleCompletion).play (body keptWorker) unreadRegistry).state.leaks "s" "w" = true := by
    decide +kernel
  exact not_kept_of_leaks hleaks (h keptWorker sampleCompletion sampleCompletion_kept rfl _ (play_reaches_anyMove _ _ _))

end Orchestrator.Completion
