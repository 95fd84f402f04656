import Mathlib.Data.List.Nodup
import Orchestrator.Github.Actions

/-!
The listing has every run that was unfinished all the while, as long as no run that is
still to be listed gets where the listing does not ask any more.
-/

namespace Orchestrator.Github

open Async Async.Rules

def State.ahead (s : State) (listing : Listing) : List WorkflowRun :=
  match listing.toAsk with
  | [] => []
  | status :: later => (s.runsWith status).drop (listing.pages * runsPageSize) ++ s.runs.filter fun run => later.contains run.status

def State.Covers (s : State) (listing : Listing) : Prop :=
  ∀ id ∈ listing.standing, id ∈ listing.seen ∨ id ∈ (s.ahead listing).map (·.id)

instance (s : State) (listing : Listing) : Decidable (s.Covers listing) :=
  inferInstanceAs (Decidable (∀ id ∈ listing.standing, id ∈ listing.seen ∨ id ∈ (s.ahead listing).map (·.id)))

/-- No change takes a run that is still to be listed to a status whose last page the listing
has had, or to a page it has had. -/
def staysAhead : State → Move githubWorld → Prop
  | s, .call _ .outside reply => ∀ listing ∈ (reply.change.apply s).listing, (reply.change.apply s).Covers listing
  | _, _ => True

instance (s : State) (m : Move githubWorld) : Decidable (staysAhead s m) := by
  unfold staysAhead
  split <;> infer_instance

def Return.Complete (r : Return) : Prop :=
  match r.result with
  | .listed ids => ∀ id ∈ r.standing, id ∈ ids
  | .fenced ids => r.standing = [] ∧ ∀ id ∈ ids, id ∈ r.observed
  | .nothing => True

structure Watched (s : State) : Prop where
  ids : (s.runs.map (·.id)).Nodup
  standing : ∀ listing ∈ s.listing, ∀ id ∈ listing.standing, ∃ run ∈ s.runs, run.id = id ∧ run.status ≠ .completed
  covers : ∀ listing ∈ s.listing, s.Covers listing
  returned : ∀ r ∈ s.returned, r.Complete

structure Continues (s s' : State) : Prop where
  observed : s'.observed = s.observed
  idle : s.listing = none → s'.listing = none
  listing : ∀ listing, s.listing = some listing → ∃ listing', s'.listing = some listing' ∧ listing'.seen = listing.seen ∧
    listing'.toAsk = listing.toAsk ∧ listing'.pages = listing.pages ∧ listing'.standing ⊆ listing.standing

theorem Continues.refl (s : State) : Continues s s := ⟨rfl, id, fun listing h => ⟨listing, h, rfl, rfl, rfl, fun _ h => h⟩⟩

theorem Continues.trans {s s' s'' : State} (h : Continues s s') (h' : Continues s' s'') : Continues s s'' where
  observed := h'.observed.trans h.observed
  idle hnone := h'.idle (h.idle hnone)
  listing listing hlisting := by
    obtain ⟨listing', hlisting', hseen, htoAsk, hpages, hstanding⟩ := h.listing listing hlisting
    obtain ⟨listing'', hlisting'', hseen', htoAsk', hpages', hstanding'⟩ := h'.listing listing' hlisting'
    exact ⟨listing'', hlisting'', hseen'.trans hseen, htoAsk'.trans htoAsk, hpages'.trans hpages, List.Subset.trans hstanding' hstanding⟩

abbrev listingRules : Rules githubWorld where
  admits := staysAhead
  inv := Watched
  rely t s s' := t = .client → Continues s s'
  rely_refl _ s _ := .refl s
  rely_trans h h' ht := (h ht).trans (h' ht)
  rest t s := t = .client → s.listing = none
  rest_stable _ hr h ht := (hr ht).idle (h ht)

section Steps

variable {s : State} {t : Party}

theorem client_keeps {s' : State} (h : Watched s') : listingRules.Keeps .client s s' :=
  ⟨h, fun _ hu hclient => absurd hclient hu⟩

theorem mem_unfinished {id : Nat} : id ∈ s.unfinished ↔ ∃ run ∈ s.runs, run.id = id ∧ run.status ≠ .completed := by
  simp [State.unfinished, and_assoc, and_comm]

variable {status : WorkflowRunStatus}

theorem unfinished_asked (h : status ≠ .completed) : status ∈ unfinishedWorkflowRunStatuses := by
  cases status <;> simp_all [unfinishedWorkflowRunStatuses]

variable {later : List WorkflowRunStatus}

variable {listing : Listing}

variable {run : WorkflowRun}

theorem mem_ahead
    (htoAsk : listing.toAsk = status :: later) : run ∈ s.ahead listing ↔
      run ∈ (s.runsWith status).drop (listing.pages * runsPageSize) ∨ run ∈ s.runs ∧ run.status ∈ later := by
  simp [State.ahead, htoAsk]

theorem mem_ahead_first (hpages : listing.pages = 0) (hmem : run ∈ s.runs)
    (hstatus : run.status ∈ listing.toAsk) : run ∈ s.ahead listing := by
  cases htoAsk : listing.toAsk with
  | nil =>
    rw [htoAsk] at hstatus
    cases hstatus
  | cons status later =>
    rw [mem_ahead htoAsk, hpages, Nat.zero_mul, List.drop_zero]
    rw [htoAsk] at hstatus
    rcases List.mem_cons.mp hstatus with hfirst | hlater
    · exact .inl (List.mem_filter.mpr ⟨hmem, decide_eq_true hfirst⟩)
    · exact .inr ⟨hmem, hlater⟩

theorem begin_covers (s : State) : s.Covers s.begin := by
  intro id hid
  obtain ⟨run, hmem, rfl, hstatus⟩ := mem_unfinished.mp hid
  exact .inr (List.mem_map_of_mem (mem_ahead_first rfl hmem (unfinished_asked hstatus)))

theorem ahead_answered
    (htoAsk : listing.toAsk = status :: later) (h : run ∈ s.ahead listing) :
    run ∈ s.page status (listing.pages + 1) ∨ run ∈ s.ahead (listing.answered (s.page status (listing.pages + 1))) := by
  have hpage : s.page status (listing.pages + 1) = ((s.runsWith status).drop (listing.pages * runsPageSize)).take runsPageSize := rfl
  unfold Listing.answered
  rcases (mem_ahead htoAsk).mp h with hrest | ⟨hmem, hlater⟩
  · rw [← List.take_append_drop runsPageSize ((s.runsWith status).drop (listing.pages * runsPageSize)), ← hpage] at hrest
    rcases List.mem_append.mp hrest with hrow | hrest
    · exact .inl hrow
    · right
      have hfull : ¬ (s.page status (listing.pages + 1)).length < runsPageSize := by
        intro hshort
        have hsome := List.length_pos_of_mem hrest
        rw [hpage, List.length_take] at hshort
        rw [List.length_drop] at hsome
        omega
      rw [if_neg hfull]
      rw [List.drop_drop] at hrest
      simp only [State.ahead, htoAsk]
      apply List.mem_append_left
      rwa [Nat.succ_mul]
  · right
    split
    · apply mem_ahead_first rfl hmem
      simpa [htoAsk] using hlater
    · simp only [State.ahead, htoAsk]
      apply List.mem_append_right
      simpa using ⟨hmem, hlater⟩

theorem answered_seen (listing : Listing) (rows : List WorkflowRun) :
    (listing.answered rows).seen = listing.seen ++ rows.map (·.id) := by
  unfold Listing.answered
  split <;> rfl

theorem answered_standing (listing : Listing) (rows : List WorkflowRun) : (listing.answered rows).standing = listing.standing := by
  unfold Listing.answered
  split <;> rfl

theorem answered_covers
    (htoAsk : listing.toAsk = status :: later) (h : s.Covers listing) :
    s.Covers (listing.answered (s.page status (listing.pages + 1))) := by
  intro id hid
  rw [answered_standing] at hid
  rw [answered_seen, List.mem_append]
  rcases h id hid with hseen | hahead
  · exact .inl (.inl hseen)
  · obtain ⟨run, hrun, rfl⟩ := List.mem_map.mp hahead
    rcases ahead_answered htoAsk hrun with hrow | hahead
    · exact .inl (.inr (List.mem_map_of_mem hrow))
    · exact .inr (List.mem_map_of_mem hahead)

theorem getToken_watched (hi : Watched s) : Watched s.getToken.2 := by
  have hbegin : ∀ listing ∈ some (s.listing.getD s.begin), listing ∈ s.listing ∨ listing = s.begin := by
    intro listing hlisting
    cases hnow : s.listing with
    | none => exact .inr (by simpa [hnow, eq_comm] using hlisting)
    | some other => exact .inl (by simpa [hnow] using hlisting)
  refine ⟨hi.ids, fun listing hlisting id hid => ?_, fun listing hlisting => ?_, hi.returned⟩
  · rcases hbegin listing hlisting with hold | rfl
    · exact hi.standing listing hold id hid
    · exact mem_unfinished.mp hid
  · rcases hbegin listing hlisting with hold | rfl
    · exact hi.covers listing hold
    · exact begin_covers s

theorem listRuns_watched (hi : Watched s)
    (hlisting : s.listing = some listing) (htoAsk : listing.toAsk = status :: later) :
    Watched (s.listRuns status (listing.pages + 1)).2 := by
  have hanswered : ∀ listing' ∈ s.listing.map (·.answered (s.page status (listing.pages + 1))),
      listing' = listing.answered (s.page status (listing.pages + 1)) := by
    intro listing' h
    rw [hlisting] at h
    exact (Option.some.inj h).symm
  refine ⟨hi.ids, fun listing' hlisting' id hid => ?_, fun listing' hlisting' => ?_, hi.returned⟩
  · rw [hanswered listing' hlisting', answered_standing] at hid
    exact hi.standing listing hlisting id hid
  · rw [hanswered listing' hlisting']
    exact answered_covers htoAsk (hi.covers listing hlisting)

theorem getRun_watched (runId : Nat) (hi : Watched s) : Watched (s.getRun runId).2 := by
  unfold State.getRun
  split
  · exact hi
  · simp only []
    split
    · exact ⟨hi.ids, hi.standing, hi.covers, hi.returned⟩
    · exact hi

theorem ended_watched {outcome : Option (Except Exn Result)} (hi : Watched s)
    (hcomplete : ∀ result, outcome = some (.ok result) →
      Return.Complete ⟨result, (s.listing.map (·.standing)).getD [], s.observed⟩) : Watched (ended .client outcome s) := by
  refine ⟨hi.ids, nofun, nofun, fun r hr => ?_⟩
  unfold ended at hr
  simp only [] at hr
  split at hr
  · rcases List.mem_cons.mp hr with rfl | hr
    · exact hcomplete _ rfl
    · exact hi.returned r hr
  · exact hi.returned r hr

theorem setStatus_watched {id : Nat} {conclusion : Option String} (hi : Watched s)
    (hahead : ∀ listing ∈ ((Change.setStatus id status conclusion).apply s).listing,
      ((Change.setStatus id status conclusion).apply s).Covers listing) :
    Watched ((Change.setStatus id status conclusion).apply s) := by
  refine ⟨?_, fun listing hlisting other hother => ?_, hahead, hi.returned⟩
  · have hsame : ((Change.setStatus id status conclusion).apply s).runs.map (·.id) = s.runs.map (·.id) := by
      simp only [Change.apply, List.map_map]
      refine List.map_congr_left fun run _ => ?_
      simp only [Function.comp_apply]
      split <;> rfl
    exact hsame ▸ hi.ids
  · have hstill : ∃ listing ∈ s.listing, other ∈ listing.standing ∧ (status = .completed → other ≠ id) := by
      by_cases hstatus : status = .completed
      · simp only [Change.apply, if_pos hstatus] at hlisting
        obtain ⟨listing', hlisting', rfl⟩ := Option.map_eq_some_iff.mp hlisting
        obtain ⟨hother, hne⟩ := List.mem_filter.mp hother
        exact ⟨listing', hlisting', hother, fun _ => of_decide_eq_true hne⟩
      · simp only [Change.apply, if_neg hstatus] at hlisting
        exact ⟨listing, hlisting, hother, fun h => absurd h hstatus⟩
    obtain ⟨listing', hlisting', hother, hne⟩ := hstill
    obtain ⟨run, hmem, rfl, hunfinished⟩ := hi.standing listing' hlisting' other hother
    refine ⟨_, List.mem_map_of_mem hmem, ?_, ?_⟩
    · split <;> rfl
    · split
      · next hid => exact fun hcompleted => hne hcompleted hid
      · exact hunfinished

theorem create_watched (hi : Watched s)
    (hahead : ∀ listing ∈ ((Change.create run).apply s).listing, ((Change.create run).apply s).Covers listing) :
    Watched ((Change.create run).apply s) := by
  simp only [Change.apply] at hahead ⊢
  by_cases hnew : s.runs.any (·.id = run.id) = true
  · rwa [if_pos hnew]
  · rw [if_neg hnew] at hahead ⊢
    refine ⟨?_, fun listing hlisting other hother => ?_, hahead, hi.returned⟩
    · refine List.nodup_cons.mpr ⟨fun hmem => hnew ?_, hi.ids⟩
      obtain ⟨other, hother, hid⟩ := List.mem_map.mp hmem
      exact List.any_eq_true.mpr ⟨other, hother, decide_eq_true hid⟩
    · obtain ⟨other, hmem, hid, hunfinished⟩ := hi.standing listing hlisting other hother
      exact ⟨other, List.mem_cons_of_mem _ hmem, hid, hunfinished⟩

theorem change_continues (change : Change) (s : State) : Continues s (change.apply s) := by
  cases change with
  | setStatus id status conclusion =>
    refine ⟨rfl, fun hnone => ?_, fun listing hlisting => ?_⟩
    · simp [Change.apply, hnone]
    · simp only [Change.apply, hlisting, Option.map_some]
      split
      · exact ⟨_, rfl, rfl, rfl, rfl, fun _ h => (List.mem_filter.mp h).1⟩
      · exact ⟨listing, rfl, rfl, rfl, rfl, fun _ h => h⟩
  | create run =>
    simp only [Change.apply]
    split
    · exact .refl s
    · exact ⟨rfl, id, fun listing hlisting => ⟨listing, hlisting, rfl, rfl, rfl, fun _ h => h⟩⟩

theorem change_keeps {change : Change} (hi : Watched s)
    (hahead : ∀ listing ∈ (change.apply s).listing, (change.apply s).Covers listing) :
    listingRules.Keeps t s (change.apply s) where
  inv := by
    cases change with
    | setStatus id status conclusion => exact setStatus_watched hi hahead
    | create run => exact create_watched hi hahead
  rely _ _ _ := change_continues change s

end Steps

section Programs

variable {s : State} {workflow : Workflow}

/-- The listing has these statuses before it, has had so many pages of the first, and what it
has seen is in `byId`. -/
def Asking (toAsk : List WorkflowRunStatus) (pages : Nat) (byId : List ListedRun) (s : State) : Prop :=
  ∃ listing, s.listing = some listing ∧ listing.toAsk = toAsk ∧ listing.pages = pages ∧
    ∀ id ∈ listing.seen, id ∈ byId.map (·.id)

variable {byId : List ListedRun}

theorem Asking.continued {toAsk : List WorkflowRunStatus} {pages : Nat} {s s' : State}
    (h : Asking toAsk pages byId s) (hr : Continues s s') : Asking toAsk pages byId s' := by
  obtain ⟨listing, hlisting, htoAsk, hpages, hseen⟩ := h
  obtain ⟨listing', hlisting', hseen', htoAsk', hpages', _⟩ := hr.listing listing hlisting
  exact ⟨listing', hlisting', htoAsk'.trans htoAsk, hpages'.trans hpages, hseen' ▸ hseen⟩

theorem putRun_ids (byId : List ListedRun) (run : ListedRun) :
    ∀ id, id ∈ (putRun byId run).map (·.id) ↔ id ∈ byId.map (·.id) ∨ id = run.id := by
  intro id
  unfold putRun
  split
  · next hthere =>
    obtain ⟨other, hother, hid⟩ := List.any_eq_true.mp hthere
    have hsame : (byId.map fun other => if other.id = run.id then run else other).map (·.id) = byId.map (·.id) := by
      rw [List.map_map]
      refine List.map_congr_left fun other _ => ?_
      simp only [Function.comp_apply]
      split
      · next h => exact h.symm
      · rfl
    rw [hsame]
    refine ⟨.inl, ?_⟩
    rintro (hmem | rfl)
    · exact hmem
    · exact List.mem_map.mpr ⟨other, hother, of_decide_eq_true hid⟩
  · simp

theorem putRuns_ids (byId : List ListedRun) (rows : List WorkflowRun) (hrows : ∀ run ∈ rows, run.status ≠ .completed) :
    ∀ id, id ∈ (putRuns byId rows).map (·.id) ↔ id ∈ byId.map (·.id) ∨ id ∈ rows.map (·.id) := by
  unfold putRuns
  rw [List.filter_eq_self.mpr fun run hmem => decide_eq_true (hrows run hmem)]
  induction rows generalizing byId with
  | nil => simp
  | cons run rest ih =>
    intro id
    rw [List.foldl_cons, ih _ (fun other hmem => hrows other (List.mem_cons_of_mem _ hmem)), putRun_ids, List.map_cons, List.mem_cons,
      or_assoc]

variable {status : WorkflowRunStatus}

theorem page_unfinished (hstatus : status ≠ .completed) (number : Nat) :
    ∀ run ∈ s.page status number, run.status ≠ .completed := by
  intro run hmem
  have hmem := List.mem_of_mem_drop (List.mem_of_mem_take hmem)
  rw [of_decide_eq_true (List.mem_filter.mp hmem).2]
  exact hstatus

def afterPage (status : WorkflowRunStatus) (later : List WorkflowRunStatus) (pages : Nat) (rows : List WorkflowRun)
    (byId : List ListedRun) : State → Prop :=
  if rows.length < runsPageSize then Asking later 0 (putRuns byId rows)
  else Asking (status :: later) (pages + 1) (putRuns byId rows)

theorem listPage_yields {later : List WorkflowRunStatus} {pages : Nat}
    (hstatus : status ≠ .completed) (hi : Watched s) (h : Asking (status :: later) pages byId s) :
    listingRules.Yields .client (fun rows => afterPage status later pages rows byId) (listPage workflow status (pages + 1)) s := by
  refine Yields.handle hi ?_ fun e s _ => ?_
  · refine Yields.perform (fun _ _ => rfl) fun s' reply hi hr _ _ => ?_
    obtain ⟨listing, hlisting, htoAsk, rfl, hseen⟩ := h.continued (hr rfl)
    refine ⟨client_keeps (listRuns_watched hi hlisting htoAsk), fun rows heq => ?_⟩
    cases heq
    have hids : ∀ id ∈ (listing.answered (s'.page status (listing.pages + 1))).seen,
        id ∈ (putRuns byId (s'.page status (listing.pages + 1))).map (·.id) := by
      intro id hid
      rw [answered_seen, List.mem_append] at hid
      rw [putRuns_ids _ _ (page_unfinished hstatus _)]
      exact hid.imp_left (hseen id)
    have hafter : (s'.listRuns status (listing.pages + 1)).2.listing =
        some (listing.answered (s'.page status (listing.pages + 1))) := by
      simp only [State.listRuns, hlisting, Option.map_some]
    unfold afterPage
    split
    · next hshort => exact ⟨_, hafter, by simp [Listing.answered, hshort, htoAsk], by simp [Listing.answered, hshort], hids⟩
    · next hfull => exact ⟨_, hafter, by simp [Listing.answered, hfull, htoAsk], by simp [Listing.answered, hfull], hids⟩
  · split <;> exact Yields.raise

theorem listStatus_yields {later : List WorkflowRunStatus} (hstatus : status ≠ .completed)
    (left pages : Nat) (byId : List ListedRun) (hi : Watched s) (h : Asking (status :: later) pages byId s) :
    listingRules.Yields .client (fun byId => Asking later 0 byId) (listStatus workflow status left (pages + 1) byId) s := by
  induction left generalizing pages byId s with
  | zero => exact Yields.raise
  | succ left ih =>
    refine Yields.bind hi (listPage_yields hstatus hi h) fun rows s hi h => ?_
    unfold afterPage at h
    split
    · next hshort =>
      rw [if_pos hshort] at h
      exact Yields.ret h
    · next hfull =>
      rw [if_neg hfull] at h
      exact ih _ _ hi h

theorem listStatuses_yields (toAsk : List WorkflowRunStatus) (byId : List ListedRun) (hunfinished : .completed ∉ toAsk)
    (hi : Watched s) (h : Asking toAsk 0 byId s) :
    listingRules.Yields .client (fun byId => Asking [] 0 byId) (listStatuses workflow toAsk byId) s := by
  induction toAsk generalizing byId s with
  | nil => exact Yields.ret h
  | cons status later ih =>
    have hstatus : status ≠ .completed := fun h => hunfinished (h ▸ List.mem_cons_self)
    refine Yields.bind hi (listStatus_yields hstatus _ _ _ hi h) fun byId s hi h => ?_
    exact ih _ (fun h => hunfinished (List.mem_cons_of_mem _ h)) hi h

def Bounded (ids : List Nat) (s : State) : Prop := ∃ listing, s.listing = some listing ∧ listing.standing ⊆ ids

theorem Bounded.continued {ids : List Nat} {s s' : State} (h : Bounded ids s) (hr : Continues s s') : Bounded ids s' := by
  obtain ⟨listing, hlisting, hstanding⟩ := h
  obtain ⟨listing', hlisting', _, _, _, hless⟩ := hr.listing listing hlisting
  exact ⟨listing', hlisting', List.Subset.trans hless hstanding⟩

theorem Asking.bounded (hi : Watched s) (h : Asking [] 0 byId s) : Bounded (byId.map (·.id)) s := by
  obtain ⟨listing, hlisting, htoAsk, _, hseen⟩ := h
  refine ⟨listing, hlisting, fun id hid => ?_⟩
  rcases hi.covers listing hlisting id hid with hlisted | hahead
  · exact hseen id hlisted
  · simp [State.ahead, htoAsk] at hahead

theorem listUnfinished_yields (hi : Watched s) (hidle : s.listing = none) :
    listingRules.Yields .client (fun active => Bounded (active.map (·.id))) (listUnfinishedWorkflowRuns workflow) s := by
  refine Yields.bind hi (M := fun _ => Asking unfinishedWorkflowRunStatuses 0 []) ?_ fun _ s hi h => ?_
  · refine Yields.perform (fun _ _ => rfl) fun s' reply hi hr _ _ => ⟨client_keeps (getToken_watched hi), fun _ _ => ?_⟩
    refine ⟨s'.begin, ?_, rfl, rfl, nofun⟩
    simp only [State.getToken, (hr rfl).idle hidle, Option.getD_none]
  · exact (listStatuses_yields _ _ (by decide) hi h).conseq hi fun r s hi h active hactive => (h active hactive).bounded hi

def Stopping (rest fenced : List Nat) (s : State) : Prop := Bounded rest s ∧ ∀ id ∈ fenced, id ∈ s.observed

variable {rest fenced : List Nat}

theorem Stopping.continued {s s' : State} (h : Stopping rest fenced s) (hr : Continues s s') :
    Stopping rest fenced s' := ⟨h.1.continued hr, fun id hid => hr.observed ▸ h.2 id hid⟩

theorem serve_same {A : Type} {exec : State → Except Exn A × State} (fate : Fate Exn) (h : (exec s).2 = s) :
    (fate.serve exec s).2 = s := by
  cases fate with
  | unsent e => rfl
  | _ => exact h

def Op.isPlain : Op → Bool
  | .getToken | .cancelRun _ | .now | .sleep _ => true
  | _ => false

theorem run_plain {op : Op} (hop : op.isPlain = true) {listing : Listing} (hlisting : s.listing = some listing) (reply : Reply) :
    (run .client op reply s).2 = s := by
  cases op with
  | getToken =>
    refine serve_same _ ?_
    simp only [State.getToken, hlisting, Option.getD_some]
    rw [← hlisting]
  | cancelRun => exact serve_same _ rfl
  | now => rfl
  | sleep => exact serve_same _ rfl
  | _ => cases hop

theorem stopping_plain {op : Op} (hop : op.isPlain = true) :
    listingRules.Maintains .client (Stopping rest fenced) (Prog.perform op) :=
  .perform (fun _ _ _ hr h => h.continued (hr rfl)) fun s hi h reply _ => by
    obtain ⟨listing, hlisting, _⟩ := h.1
    change listingRules.Keeps .client s (run .client op reply s).2 ∧ Stopping rest fenced (run .client op reply s).2
    rw [run_plain hop hlisting]
    exact ⟨.refl _ hi, h⟩

theorem cancelWorkflowRun_stopping (runId : Nat) :
    listingRules.Maintains .client (Stopping rest fenced) (cancelWorkflowRun runId) := by
  refine .bind (stopping_plain rfl) fun _ => .handle (stopping_plain rfl) fun e => ?_
  split
  · exact .ret ()
  · exact .raise _

theorem getRun_yields {runId : Nat} (h : Stopping (runId :: rest) fenced s) :
    listingRules.Yields .client (fun seen s => if seen.status = .completed then Stopping rest (fenced ++ [runId]) s
      else Stopping (runId :: rest) fenced s) (getRun runId) s := by
  refine Yields.perform (fun _ _ => rfl) fun s' reply hi hr _ _ => ⟨client_keeps (getRun_watched runId hi), fun seen heq => ?_⟩
  obtain ⟨⟨listing, hlisting, hstanding⟩, hfenced⟩ := h.continued (hr rfl)
  unfold State.getRun at heq ⊢
  cases hfind : s'.runs.find? (·.id = runId) with
  | none => simp [hfind] at heq
  | some found =>
    simp only [hfind] at heq ⊢
    cases heq
    have hid : seen.id = runId := by simpa using List.find?_some hfind
    by_cases hcompleted : seen.status = .completed
    · simp only [if_pos hcompleted]
      refine ⟨⟨listing, hlisting, fun id hid' => ?_⟩, fun id hid' => ?_⟩
      · refine (List.mem_cons.mp (hstanding hid')).resolve_left fun hsame => ?_
        obtain ⟨other, hother, hother', hunfinished⟩ := hi.standing listing hlisting id hid'
        have hsole : other = seen :=
          List.inj_on_of_nodup_map hi.ids hother (List.mem_of_find?_eq_some hfind) (hother'.trans (hsame.trans hid.symm))
        exact hunfinished (hsole ▸ hcompleted)
      · rcases List.mem_append.mp hid' with hold | hnew
        · exact List.mem_cons_of_mem _ (hfenced id hold)
        · rw [List.mem_singleton.mp hnew, hid]
          exact List.mem_cons_self
    · simp only [if_neg hcompleted]
      exact ⟨⟨listing, hlisting, hstanding⟩, hfenced⟩

theorem pollTerminal_yields {runId pollInterval : Nat} {timeoutSeconds start : Int} (polls : Nat)
    (hi : Watched s) (h : Stopping (runId :: rest) fenced s) :
    listingRules.Yields .client (fun _ => Stopping rest (fenced ++ [runId]))
      (pollTerminal runId timeoutSeconds pollInterval start polls) s := by
  induction polls generalizing s with
  | zero => exact Yields.raise
  | succ polls ih =>
    refine Yields.bind hi (getRun_yields h) fun seen s hi h => ?_
    split
    · next hcompleted =>
      rw [if_pos hcompleted] at h
      exact Yields.ret h
    · next hunfinished =>
      rw [if_neg hunfinished] at h
      refine Yields.bind hi (.of_maintains (stopping_plain rfl) hi h) fun clock s hi h => ?_
      refine Yields.bind hi (.of_maintains (.ofExcept _) hi h) fun _ s hi h => ?_
      exact Yields.bind hi (.of_maintains (stopping_plain rfl) hi h) fun _ s hi h => ih hi h

variable {timeoutSeconds : Int}

theorem stopRun_yields {runId pollInterval polls : Nat}
    (hi : Watched s) (h : Stopping (runId :: rest) fenced s) :
    listingRules.Yields .client (fun _ => Stopping rest (fenced ++ [runId])) (stopRun runId timeoutSeconds pollInterval polls) s := by
  refine Yields.bind hi (.of_maintains (cancelWorkflowRun_stopping runId) hi h) fun _ s hi h => ?_
  refine Yields.bind hi (.of_maintains (stopping_plain rfl) hi h) fun _ s hi h => ?_
  exact Yields.bind hi (.of_maintains (stopping_plain rfl) hi h) fun start s hi h => pollTerminal_yields polls hi h

theorem unproven_yields {A : Type} {Q : A → State → Prop} {message : String} {p : Job A} (hi : Watched s)
    (h : listingRules.Yields .client Q p s) : listingRules.Yields .client Q (unproven message p) s := by
  refine Yields.handle hi h fun e s _ => ?_
  split <;> exact Yields.raise

theorem stopRuns_yields {pollInterval polls : Nat} (active : List ListedRun) (fenced : List Nat)
    (hi : Watched s) (h : Stopping (active.map (·.id)) fenced s) :
    listingRules.Yields .client (Stopping []) (stopRuns workflow timeoutSeconds pollInterval polls active fenced) s := by
  induction active generalizing fenced s with
  | nil => exact Yields.ret h
  | cons run rest ih =>
    exact Yields.bind hi (unproven_yields hi (stopRun_yields hi h)) fun _ s hi h => ih _ hi h

theorem fenceWorkflow_yields {pollInterval polls : Nat} (hi : Watched s) (hidle : s.listing = none) :
    listingRules.Yields .client (Stopping []) (fenceWorkflow workflow timeoutSeconds pollInterval polls) s :=
  Yields.bind hi (unproven_yields hi (listUnfinished_yields hi hidle)) fun active _ hi h =>
    stopRuns_yields active [] hi ⟨h, nofun⟩

theorem client_yields (call : Call) (hi : Watched s) (hidle : s.listing = none) :
    listingRules.Yields .client (fun result s => Return.Complete ⟨result, (s.listing.map (·.standing)).getD [], s.observed⟩)
      (client workflow call) s := by
  cases call with
  | listUnfinishedWorkflowRuns =>
    refine Yields.bind hi (listUnfinished_yields hi hidle) fun active s hi h => Yields.ret ?_
    obtain ⟨listing, hlisting, hstanding⟩ := h
    simp only [Return.Complete, hlisting, Option.map_some, Option.getD_some]
    exact fun id hid => hstanding hid
  | fenceWorkflow timeoutSeconds pollInterval polls =>
    refine Yields.bind hi (fenceWorkflow_yields hi hidle) fun ids s hi h => Yields.ret ?_
    obtain ⟨⟨listing, hlisting, hstanding⟩, hobserved⟩ := h
    simp only [Return.Complete, hlisting, Option.map_some, Option.getD_some]
    exact ⟨List.subset_nil.mp hstanding, hobserved⟩

theorem client_ended (outcome : Option (Except Exn Result)) (hi : Watched s)
    (hcomplete : ∀ result, outcome = some (.ok result) →
      Return.Complete ⟨result, (s.listing.map (·.standing)).getD [], s.observed⟩) : listingRules.Ends .client outcome s :=
  ⟨client_keeps (ended_watched hi hcomplete), fun _ => rfl⟩

theorem outside_ended {execution : Nat} (outcome : Option (Except Exn Result)) (hi : Watched s) :
    listingRules.Ends (.outside execution) outcome s :=
  ⟨.refl _ hi, nofun⟩

theorem body_safe {call : Call} (t : Party) (hi : Watched s) (hrest : listingRules.rest t s) :
    listingRules.Safe t (listingRules.Finishes t) (body workflow call t) s := by
  cases t with
  | client =>
    refine (client_yields call hi (hrest rfl)).conseq hi fun r s hi h => client_ended (some r) hi fun result heq => ?_
    cases heq
    exact h result rfl
  | outside n =>
    refine Safe.bind (M := fun _ _ => True) hi (Safe.perform fun s' hi hr reply hahead => ⟨change_keeps hi hahead, trivial⟩)
      (fun _ s hi _ => outside_ended _ hi) fun e s hi _ => outside_ended _ hi

end Programs

/-- However GitHub's runs change: so long as no run that is still to be listed gets where the
listing does not ask any more, a listing that returns has every run that was unfinished all
the while, and a fence that returns has seen each of its runs completed, and no run has been
unfinished since it began. -/
theorem listing_complete (workflow : Workflow) (call : Call) (start : State) (hids : (start.runs.map (·.id)).Nodup)
    (hidle : start.listing = none) (hreturned : start.returned = []) (c : Config githubWorld)
    (h : Reaches (body workflow call) staysAhead (Config.idle start) c) : ∀ r ∈ c.state.returned, r.Complete := by
  have hwatched : Watched start := by
    refine ⟨hids, ?_, ?_, ?_⟩
    · simp [hidle]
    · simp [hidle]
    · simp [hreturned]
  have hsound : listingRules.Sound (Config.idle start : Config githubWorld) := .idle hwatched fun _ _ => hidle
  refine (reaches_sound hsound (fun t s hi hrest _ => body_safe t hi hrest) (fun t s hi _ => ?_) h).inv.returned
  cases t with
  | client => exact client_ended none hi nofun
  | outside n => exact outside_ended none hi

def deployWorkflow : Workflow := ⟨"my-org", "my-repo", "deploy.yml"⟩

def withRun (status : WorkflowRunStatus) : State := ⟨[⟨7, status, none, some "abc"⟩], none, [], []⟩

def asks (n : Nat) : List (Turn githubWorld) := List.replicate n (.call .client fun _ => ⟨.served, 0, .create ⟨0, .completed, none, none⟩⟩)

def moves (execution : Nat) (status : WorkflowRunStatus) (conclusion : Option String) : List (Turn githubWorld) :=
  [.start (.outside execution), .call (.outside execution) fun _ => ⟨.served, 0, .setStatus 7 status conclusion⟩]

def fencedRun : List (Turn githubWorld) :=
  .start .client :: asks 2 ++ moves 0 .waiting none ++ asks 6 ++ moves 1 .completed (some "cancelled") ++ asks 3

theorem sample_listing_complete :
    (∀ r ∈ ((Config.idle (withRun .inProgress)).play (body deployWorkflow (.fenceWorkflow 300 5 3)) fencedRun).state.returned, r.Complete) ∧
      ((Config.idle (withRun .inProgress)).play (body deployWorkflow (.fenceWorkflow 300 5 3)) fencedRun).state.returned.map (·.result) =
        [.fenced [7]] :=
  ⟨listing_complete deployWorkflow (.fenceWorkflow 300 5 3) (withRun .inProgress) (by decide) rfl rfl _ (play_reaches (by decide +kernel)),
    by decide +kernel⟩

def approvedRun : List (Turn githubWorld) := .start .client :: asks 4 ++ moves 0 .queued none ++ asks 2

theorem run_missed : ¬ (∀ (workflow : Workflow) (call : Call) (start : State), (start.runs.map (·.id)).Nodup → start.listing = none →
    start.returned = [] → ∀ c : Config githubWorld, Reaches (body workflow call) anyMove (Config.idle start) c →
      ∀ r ∈ c.state.returned, r.Complete) ∧
      ((Config.idle (withRun .waiting)).play (body deployWorkflow (.fenceWorkflow 300 5 3)) approvedRun).state.returned.map
        (fun r => (r.result, r.standing)) = [(.fenced [], [7])] := by
  have hmissed : ((Config.idle (withRun .waiting)).play (body deployWorkflow (.fenceWorkflow 300 5 3)) approvedRun).state.returned.map
      (fun r => (r.result, r.standing)) = [(.fenced [], [7])] := by decide +kernel
  refine ⟨fun h => ?_, hmissed⟩
  obtain ⟨r, hr, hresult⟩ := List.mem_map.mp (hmissed ▸ List.mem_singleton_self _)
  have hcomplete := h deployWorkflow (.fenceWorkflow 300 5 3) (withRun .waiting) (by decide) rfl rfl _
    (play_reaches_anyMove _ _ approvedRun) r hr
  obtain ⟨hlisted, hstanding⟩ := Prod.mk.inj hresult
  unfold Return.Complete at hcomplete
  rw [hlisted] at hcomplete
  rw [hcomplete.1] at hstanding
  cases hstanding

end Orchestrator.Github
