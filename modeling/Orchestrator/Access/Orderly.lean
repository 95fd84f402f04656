import Mathlib.Data.List.Sort
import Orchestrator.Access.Escalations

/-!
The rows and the trace as the requests of the sweep leave them. Each request
rewrites one grant, and the trace tells what it did to it.
-/

namespace Orchestrator.Access

open Async Contracts
open Api (TemporaryAccessStatus TemporaryAccessEscalation)

def Event.grant : Event → Option String
  | .minted _ => none
  | .created grantId => some grantId
  | .moved grantId => some grantId
  | .escalated grantId => some grantId
  | .read _ before _ _ => some before.id
  | .failed grantId _ _ => some grantId

section Events

variable {event : Event} {trace : List Event} {grantId : String}

theorem disputed_other (h : event.grant ≠ some grantId) : disputed grantId (event :: trace) = disputed grantId trace := by
  cases event with
  | moved moved =>
    have hne : moved ≠ grantId := fun hsame => h (congrArg some hsame)
    simp [disputed, hne]
  | escalated escalated =>
    have hne : escalated ≠ grantId := fun hsame => h (congrArg some hsame)
    simp [disputed, hne]
  | read observation before after owned => exact if_neg fun hsame => h (congrArg some hsame)
  | _ => rfl

theorem escalations_other (h : event.grant ≠ some grantId) :
    escalations grantId (event :: trace) = escalations grantId trace := by
  cases event with
  | created created => exact if_neg fun hsame => h (congrArg some hsame)
  | escalated escalated =>
    have hne : escalated ≠ grantId := fun hsame => h (congrArg some hsame)
    simp [escalations, hne]
  | read observation before after owned =>
    have hne : before.id ≠ grantId := fun hsame => h (congrArg some hsame)
    simp [escalations, reopens, hne]
  | _ => rfl

theorem minted_grant (h : event.grant ≠ none) : minted (event :: trace) = minted trace := by
  cases event with
  | minted suffix => exact absurd rfl h
  | _ => rfl

end Events

/-- A reading that is not taken for the one before it, and that opens a closed
grant if it finds the value there and no other live grant has the slot. -/
structure Taken (observation : TemporaryAccessObservation) (before after : TemporaryAccessGrant) (owned : Bool) : Prop where
  new : before.observationId ≠ some observation.observationId
  reopened : before.status = .revoked → observation.present = true → owned = false → after.status = .revoking

structure Orderly (readings calls : Prop) (s : State) : Prop where
  rows : s.db.grants.Consistent
  counted : readings → ∀ grant ∈ s.db.grants, Counted s.trace grant
  taken : readings → ∀ observation before after owned,
    Event.read observation before after owned ∈ s.trace → Taken observation before after owned
  marked : calls → ∀ grant ∈ s.db.grants, Marked s.trace grant
  calledOnce : calls → CalledOnce s.trace

section Rows

variable {readings calls : Prop} {s s' : State} {old row : TemporaryAccessGrant} {event : Event}

theorem Marked.le_one {trace : List Event} (h : Marked trace row) : escalations row.id trace ≤ 1 := by
  rw [h]
  split <;> omega

theorem Marked.same {trace trace' : List Event} (h : Marked trace old) (hid : row.id = old.id)
    (hmark : row.escalatedAt.isSome = old.escalatedAt.isSome)
    (htrace : escalations row.id trace' = escalations row.id trace) : Marked trace' row := by
  unfold Marked
  rw [htrace, hid, hmark]
  exact h

theorem Grants.Consistent.find {grants : Grants} (h : grants.Consistent) (hmem : row ∈ grants) :
    grants.find row.id = some row := by
  cases hfind : grants.find row.id with
  | none =>
    have hnone := List.find?_eq_none.mp hfind row hmem
    simp at hnone
  | some found => rw [h.unique found (Grants.find_mem hfind) row hmem (Grants.find_id hfind)]

theorem Orderly.created {readings calls : Prop} (h : Orderly readings calls s) (hnew : s.db.grants.find row.id = none)
    (hgrants : s'.db.grants = s.db.grants ++ [row]) (htrace : s'.trace = .created row.id :: s.trace)
    (hfree : s.db.grants.slotFree row = true) (hcounted : readings → Counted s'.trace row)
    (hmark : row.escalatedAt = none) : Orderly readings calls s' := by
  have hother : ∀ grant ∈ s.db.grants, (Event.created row.id).grant ≠ some grant.id := by
    intro grant hmem hsame
    rw [Option.some.inj hsame, h.rows.find hmem] at hnew
    cases hnew
  have hself : escalations row.id (.created row.id :: s.trace) = 0 := if_pos rfl
  refine ⟨?_, fun hr grant hmem => ?_, fun hr observation before after owned hread => ?_, fun hc grant hmem => ?_,
    fun hc => ?_⟩
  · rw [hgrants]
    exact h.rows.append hnew fun _ => hfree
  · rw [hgrants, List.mem_append, List.mem_singleton] at hmem
    rcases hmem with hmem | rfl
    · rw [htrace]
      exact (h.counted hr grant hmem).mono (fun _ h => h) (disputed_other (hother grant hmem))
    · exact hcounted hr
  · rw [htrace] at hread
    exact h.taken hr observation before after owned ((List.mem_cons.mp hread).resolve_left nofun)
  · rw [hgrants, List.mem_append, List.mem_singleton] at hmem
    rw [htrace]
    rcases hmem with hmem | rfl
    · exact (h.marked hc grant hmem).same rfl rfl (escalations_other (hother grant hmem))
    · unfold Marked
      rw [hself, hmark]
      rfl
  · rw [htrace]
    refine (h.calledOnce hc).cons (fun grantId => ?_) nofun
    by_cases hid : grantId = row.id
    · rw [hid, hself]
      exact Nat.zero_le 1
    · have hother : (Event.created row.id).grant ≠ some grantId := fun hsame => hid (Option.some.inj hsame).symm
      rw [escalations_other hother]
      exact (h.calledOnce hc).le_one grantId

theorem Orderly.rewritten {event : Option Event} (h : Orderly readings calls s)
    (hgrants : s'.db.grants = s.db.grants.replace row) (hfree : row.live = true → s.db.grants.slotFree row = true)
    (htrace : s'.trace = event.toList ++ s.trace) (hevent : ∀ e ∈ event, e.grant = some row.id)
    (hfailed : ∀ grantId spent calls, event ≠ some (.failed grantId spent calls))
    (hcounted : readings → Counted s'.trace row)
    (htaken : readings → ∀ observation before after owned, event = some (.read observation before after owned) →
      Taken observation before after owned)
    (hmarked : calls → Marked s'.trace row) : Orderly readings calls s' := by
  have hother : ∀ grantId, grantId ≠ row.id → ∀ e ∈ event, e.grant ≠ some grantId := by
    intro grantId hne e he hsame
    exact hne (Option.some.inj (hsame.symm.trans (hevent e he)))
  have hminted : minted s'.trace = minted s.trace := by
    rw [htrace]
    cases event with
    | none => rfl
    | some e => exact minted_grant (by rw [hevent e rfl]; nofun)
  have hdisputed : ∀ grantId, grantId ≠ row.id → disputed grantId s'.trace = disputed grantId s.trace := by
    intro grantId hne
    rw [htrace]
    cases event with
    | none => rfl
    | some e => exact disputed_other (hother grantId hne e rfl)
  have hescalations : ∀ grantId, grantId ≠ row.id → escalations grantId s'.trace = escalations grantId s.trace := by
    intro grantId hne
    rw [htrace]
    cases event with
    | none => rfl
    | some e => exact escalations_other (hother grantId hne e rfl)
  refine ⟨?_, fun hr grant hmem => ?_, fun hr observation before after owned hread => ?_, fun hc grant hmem => ?_,
    fun hc => ?_⟩
  · rw [hgrants]
    exact h.rows.replace hfree
  · rw [hgrants] at hmem
    rcases Grants.Consistent.mem_replace hmem with rfl | ⟨hmem, hne⟩
    · exact hcounted hr
    · exact (h.counted hr grant hmem).mono (fun suffix hin => hminted ▸ hin) (hdisputed _ hne)
  · rw [htrace] at hread
    rcases List.mem_append.mp hread with hread | hread
    · exact htaken hr observation before after owned (Option.mem_toList.mp hread)
    · exact h.taken hr observation before after owned hread
  · rw [hgrants] at hmem
    rcases Grants.Consistent.mem_replace hmem with rfl | ⟨hmem, hne⟩
    · exact hmarked hc
    · exact (h.marked hc grant hmem).same rfl rfl (hescalations _ hne)
  · have hone := hmarked hc
    rw [htrace] at hone hescalations ⊢
    cases event with
    | none => exact h.calledOnce hc
    | some e =>
      refine (h.calledOnce hc).cons (fun grantId => ?_) fun grantId calls hsame => ?_
      · by_cases hid : grantId = row.id
        · rw [hid]
          exact hone.le_one
        · exact (hescalations grantId hid).trans_le ((h.calledOnce hc).le_one grantId)
      · exact absurd (congrArg some hsame) (hfailed _ _ _)

end Rows

theorem serve_cases (exec : State → Except Exn TemporaryAccessGrant × State) (s : State)
    {answer : Except HTTPException (TemporaryAccessGrant × Database QARunResult)}
    {event : TemporaryAccessGrant → Option Event} (hexec : exec s = s.serve answer event) (fate : Fate Exn) :
    ((fate.serve exec s).2 = s ∧ ∀ a, (fate.serve exec s).1 ≠ .ok a) ∨
      ∃ grant db, answer = .ok (grant, db) ∧ fate.carriedOut = true ∧
        (fate.serve exec s).2 = ⟨db, (event grant).toList ++ s.trace⟩ ∧
        ∀ a, (fate.serve exec s).1 = .ok a → a = grant := by
  cases answer with
  | error e =>
    refine .inl ?_
    have hrefused : exec s = (.error (.http e), s) := hexec
    cases fate with
    | unsent e => simp [Fate.serve]
    | _ => simp [Fate.serve, hrefused]
  | ok result =>
    have hserved : exec s = (.ok result.1, ⟨result.2, (event result.1).toList ++ s.trace⟩) := hexec
    cases fate with
    | served =>
      refine .inr ⟨result.1, result.2, rfl, rfl, by simp [Fate.serve, hserved], fun a h => ?_⟩
      simpa [Fate.serve, hserved] using h.symm
    | unheard e => exact .inr ⟨result.1, result.2, rfl, rfl, by simp [Fate.serve, hserved], by simp [Fate.serve]⟩
    | unsent e => exact .inl (by simp [Fate.serve])

structure Rewritten (readings calls : Prop) (grantId : String) (s s' : State) : Prop where
  orderly : Orderly readings calls s'
  other : ∀ otherId, otherId ≠ grantId → s'.db.grants.find otherId = s.db.grants.find otherId
  minted : ∀ suffix ∈ minted s.trace, suffix ∈ minted s'.trace

section Requests

variable {readings calls : Prop} {s : State} {old : TemporaryAccessGrant} {grantId : String} {reply : Reply}

theorem Rewritten.refl (h : Orderly readings calls s) : Rewritten readings calls grantId s s :=
  ⟨h, fun _ _ => rfl, fun _ h => h⟩

theorem Rewritten.of_replace {s' : State} {row : TemporaryAccessGrant} {event : Option Event}
    (h : Orderly readings calls s') (hid : row.id = grantId) (hgrants : s'.db.grants = s.db.grants.replace row)
    (htrace : s'.trace = event.toList ++ s.trace) (hevent : ∀ e ∈ event, e.grant = some row.id) :
    Rewritten readings calls grantId s s' := by
  refine ⟨h, fun otherId hne => ?_, fun suffix hmem => ?_⟩
  · rw [hgrants]
    exact Grants.find_replace_of_ne (hid ▸ hne)
  · rw [htrace]
    cases event with
    | none => exact hmem
    | some e =>
      rw [Option.toList_some, List.singleton_append, minted_grant (by rw [hevent e rfl]; nofun)]
      exact hmem

theorem updateGrant_rewritten {update : TemporaryAccessGrantUpdate} (h : Orderly readings calls s)
    (hold : s.db.grants.find grantId = some old) (hunmarked : update.escalated = false)
    (hupdate : readings → Quiet update ∨ ∃ suffix, update.revokeRunId = some (some (revokeRun suffix)) ∧
      suffix ∈ minted s.trace ∧ Unread old suffix) :
    Rewritten readings calls grantId s (run .sweep (.updateGrant grantId update) reply s).2 ∧
      ∃ row, (run .sweep (.updateGrant grantId update) reply s).2.db.grants.find grantId = some row ∧
        row.escalatedAt = old.escalatedAt := by
  have hself := Grants.find_id hold
  subst hself
  change Rewritten readings calls old.id s (reply.fate.serve (fun s => s.updateGrant old.id update reply) s).2 ∧
    ∃ row, (reply.fate.serve (fun s => s.updateGrant old.id update reply) s).2.db.grants.find old.id = some row ∧
      row.escalatedAt = old.escalatedAt
  have hcases := serve_cases (fun s => s.updateGrant old.id update reply) s rfl reply.fate
  generalize reply.fate.serve (fun s => s.updateGrant old.id update reply) s = result at hcases ⊢
  rcases hcases with ⟨hsame, _⟩ | ⟨row, db, hok, _, hstate, _⟩
  · rw [hsame]
    exact ⟨.refl h, old, hold, rfl⟩
  obtain ⟨found, hfound, hrow, hgrants, hfree⟩ := Database.updateGrant_ok hok
  cases hold.symm.trans hfound
  obtain ⟨_, hlive, hid, _⟩ := updateRow_keeps hrow
  have hmark : row.escalatedAt = old.escalatedAt := by
    rw [(updateRow_run hrow).2.2, hunmarked]
    rfl
  have hevent : ∀ e ∈ update.status.map fun _ => Event.moved old.id, e.grant = some row.id := by
    intro e he
    obtain ⟨status, _, rfl⟩ := Option.mem_map.mp he
    rw [hid]
    rfl
  rw [hstate]
  have horderly : Orderly readings calls ⟨db, (update.status.map fun _ => Event.moved old.id).toList ++ s.trace⟩ := by
    refine h.rewritten hgrants hfree rfl hevent (fun _ _ _ hsome => ?_) (fun hr => ?_) (fun _ _ _ _ _ hsome => ?_) fun hc => ?_
    · obtain ⟨_, _, hsame⟩ := Option.map_eq_some_iff.mp hsome
      cases hsame
    · have hm : ∀ suffix ∈ minted s.trace,
          suffix ∈ minted ((update.status.map fun _ => Event.moved old.id).toList ++ s.trace) := by
        cases update.status <;> exact fun _ h => h
      rcases hupdate hr with hquiet | ⟨suffix, hrun, hknown, hunread⟩
      · refine counted_quiet (h.counted hr old (Grants.find_mem hold)) hquiet hrow hm fun hnone => ?_
        rw [hnone]
        rfl
      · exact counted_revoking (h.counted hr old (Grants.find_mem hold)) hrun hknown hunread hrow hm
    · obtain ⟨_, _, hsame⟩ := Option.map_eq_some_iff.mp hsome
      cases hsame
    · refine (h.marked hc old (Grants.find_mem hold)).same hid (by rw [hmark]) ?_
      cases update.status <;> rfl
  have hself : db.grants.find old.id = some row := by
    rw [hgrants, ← hid]
    exact Grants.find_replace_self (hid ▸ hold)
  exact ⟨.of_replace horderly hid hgrants rfl hevent, row, hself, hmark⟩

theorem escalateGrant_rewritten {escalation : TemporaryAccessEscalation QARunResult} (h : Orderly readings calls s)
    (hold : s.db.grants.find grantId = some old) (hunmarked : calls → old.escalatedAt = none) :
    Rewritten readings calls grantId s (run .sweep (.escalateGrant grantId escalation) reply s).2 ∧
      ∃ row, (run .sweep (.escalateGrant grantId escalation) reply s).2.db.grants.find grantId = some row ∧
        row.id = grantId := by
  have hself := Grants.find_id hold
  subst hself
  change Rewritten readings calls old.id s (reply.fate.serve (fun s => s.escalateGrant old.id escalation reply) s).2 ∧
    ∃ row, (reply.fate.serve (fun s => s.escalateGrant old.id escalation reply) s).2.db.grants.find old.id = some row ∧
      row.id = old.id
  have hcases := serve_cases (fun s => s.escalateGrant old.id escalation reply) s rfl reply.fate
  generalize reply.fate.serve (fun s => s.escalateGrant old.id escalation reply) s = result at hcases ⊢
  rcases hcases with ⟨hsame, _⟩ | ⟨row, db, hok, _, hstate, _⟩
  · rw [hsame]
    exact ⟨.refl h, old, hold, rfl⟩
  obtain ⟨found, hfound, hrow, hgrants, hfree⟩ := Database.escalateGrant_ok hok
  cases hold.symm.trans hfound
  obtain ⟨hid, hmark, _⟩ := escalateRow_marked hrow
  have hevent : ∀ e ∈ some (Event.escalated old.id), e.grant = some row.id := by
    intro e he
    cases he
    rw [hid]
    rfl
  have hself : db.grants.find old.id = some row := by
    rw [hgrants, ← hid]
    exact Grants.find_replace_self (hid ▸ hold)
  rw [hstate]
  refine ⟨.of_replace ?_ hid hgrants rfl hevent, row, hself, hid⟩
  refine h.rewritten hgrants hfree rfl hevent (fun _ _ _ hsome => by cases hsome) (fun hr => ?_)
    (fun _ _ _ _ _ hsome => by cases hsome) fun hc => ?_
  · exact counted_escalated (h.counted hr old (Grants.find_mem hold)) hrow fun _ h => h
  · have hnone := h.marked hc old (Grants.find_mem hold)
    unfold Marked at hnone ⊢
    rw [hunmarked hc] at hnone
    rw [hmark, hid]
    simp only [Option.toList_some, List.singleton_append, escalations, hnone, ↓reduceIte, Option.isSome_none,
      Bool.false_eq_true]

variable {grants : Grants}

theorem owner_owned {held : TemporaryAccessGrant} (hclosed : old.status = .revoked)
    (hrows : grants.Consistent) (hmem : old ∈ grants) (h : grants.owner old.slot = .ok (some held)) :
    grants.owned old = true := by
  have hheld : held ∈ grants.filter fun grant => grant.live && grant.slot = old.slot := by
    unfold Grants.owner at h
    split at h
    · cases h
    · next hone =>
      cases h
      exact hone ▸ List.mem_singleton_self held
    · cases h
  obtain ⟨hin, hlive⟩ := List.mem_filter.mp hheld
  rw [Bool.and_eq_true, decide_eq_true_eq] at hlive
  have hne : held.id ≠ old.id := by
    intro hid
    have hsame := hrows.unique held hin old hmem hid
    rw [hsame, TemporaryAccessGrant.live, hclosed] at hlive
    exact absurd hlive.1 (by decide)
  exact List.any_eq_true.mpr ⟨held, hin, by simp [hne, hlive.1, hlive.2]⟩

theorem owner_free (h : grants.owner old.slot = .ok none) : grants.owned old = false := by
  refine List.any_eq_false.mpr fun other hmem => ?_
  have hslot := Grants.owner_none h other hmem
  cases hlive : other.live with
  | false => simp
  | true => simp [hslot hlive]

structure ReadsTo (trace : List Event) (observation : TemporaryAccessObservation) (owned : Bool)
    (old row : TemporaryAccessGrant) : Prop where
  id : row.id = old.id
  escalatedAt : row.escalatedAt = old.escalatedAt
  counted : Counted trace old → observation.observationId = observationRequestId old →
    disputed old.id trace = false → Counted (.read observation old row owned :: trace) row ∧ Taken observation old row owned
  marked : Marked trace old → (old.status = .revoked → observation.present = true → owned = false →
    old.escalatedAt = none) → Marked (.read observation old row owned :: trace) row

variable {observation : TemporaryAccessObservation}

variable {trace : List Event}

theorem ReadsTo.again {owned : Bool}
    (hreadable : requireReadable grantId observation old = .ok ())
    (hsame : old.observationId = some observation.observationId) : ReadsTo trace observation owned old old := by
  refine ⟨rfl, rfl, fun hcounted hname hdisputed => ?_, fun hmarked _ => hmarked.same rfl rfl ?_⟩
  · refine absurd (hsame.trans (congrArg some hname)) (hcounted.fresh ?_ hdisputed)
    by_cases hclosed : old.status = .revoked
    · exact .inr hclosed
    · exact .inl (requireReadable_revoking hreadable hclosed)
  · simp [escalations, reopens]

theorem ReadsTo.readOpen {owned : Bool}
    {row : TemporaryAccessGrant} {now : Time} (hreadable : requireReadable grantId observation old = .ok ())
    (hnew : old.observationId ≠ some observation.observationId) (hopen : old.status ≠ .revoked)
    (hrow : readOpenGrant grantId observation now old = .ok row) : ReadsTo trace observation owned old row := by
  have hid : row.id = old.id := by
    rcases readOpenGrant_cases hrow with ⟨_, rfl⟩ | ⟨_, rfl⟩ | ⟨_, _, rfl⟩
    · rfl
    · exact countClear_id ..
    · exact countClear_id now (stampReading observation now old)
  refine ⟨hid, readOpenGrant_escalatedAt hrow, fun hcounted hname _ => ⟨?_, ⟨hnew, ?_⟩⟩, fun hmarked _ => ?_⟩
  · exact counted_readOpen hcounted hname (requireReadable_revoking hreadable hopen) hrow
  · exact fun hclosed => absurd hclosed hopen
  · refine hmarked.same hid (by rw [readOpenGrant_escalatedAt hrow]) ?_
    simp [escalations, reopens, hopen]

theorem ReadsTo.readClosed
    {owner : Option TemporaryAccessGrant} {now : Time} (hrows : grants.Consistent) (hmem : old ∈ grants)
    (hnew : old.observationId ≠ some observation.observationId) (hclosed : old.status = .revoked)
    (howner : observation.present = true → grants.owner old.slot = .ok owner) :
    ReadsTo trace observation (grants.owned old) old (readClosedGrant observation now owner.isSome old) := by
  have hheld : observation.present = true → owner.isSome = true → grants.owned old = true := by
    intro hpresent hsome
    obtain ⟨held, rfl⟩ := Option.isSome_iff_exists.mp hsome
    exact owner_owned hclosed hrows hmem (howner hpresent)
  have hfree : observation.present = true → owner.isSome = false → grants.owned old = false := by
    intro hpresent hnone
    rw [Option.isSome_eq_false_iff, Option.isNone_iff_eq_none] at hnone
    exact owner_free (hnone ▸ howner hpresent)
  refine ⟨?_, readClosedGrant_escalatedAt .., fun hcounted hname _ => ⟨?_, ⟨hnew, ?_⟩⟩, fun hmarked hunmarked => ?_⟩
  · rcases readClosedGrant_cases observation now owner.isSome old with ⟨_, hr⟩ | ⟨_, _, hr⟩ | ⟨_, _, hr⟩ <;> rw [hr] <;> rfl
  · exact counted_readClosed hcounted hname hclosed hheld
  · intro _ hpresent howned
    rcases readClosedGrant_cases observation now owner.isSome old with ⟨habsent, _⟩ | ⟨_, hsome, _⟩ | ⟨_, _, hr⟩
    · cases habsent.symm.trans hpresent
    · cases howned.symm.trans (hheld hpresent hsome)
    · rw [hr]
      rfl
  · rcases readClosedGrant_cases observation now owner.isSome old with ⟨_, hr⟩ | ⟨_, _, hr⟩ | ⟨hpresent, hnone, hr⟩
    · rw [hr]
      exact hmarked.same rfl rfl (by simp [escalations, reopens, stampReading, hclosed])
    · rw [hr]
      exact hmarked.same rfl rfl (by simp [escalations, reopens, stampReading, hclosed])
    · have hunescalated := hunmarked hclosed hpresent (hfree hpresent hnone)
      rw [hr]
      simp [Marked, escalations, reopens, reopen, clearStreak, stampReading, hclosed, hunescalated]

theorem recordObservation_rewritten (h : Orderly readings calls s)
    (hold : s.db.grants.find grantId = some old)
    (hname : readings → observation.observationId = observationRequestId old)
    (hnew : readings → reply.fate.carriedOut = true → disputed grantId s.trace = false)
    (hunmarked : calls → reply.fate.carriedOut = true → old.status = .revoked → observation.present = true →
      s.db.grants.owned old = false → old.escalatedAt = none) :
    Rewritten readings calls grantId s (run .sweep (.recordObservation grantId observation) reply s).2 ∧
      ∃ row, (run .sweep (.recordObservation grantId observation) reply s).2.db.grants.find grantId = some row ∧
        row.escalatedAt = old.escalatedAt ∧
        ∀ settled, (run .sweep (.recordObservation grantId observation) reply s).1 = .ok settled → settled = row := by
  have hself := Grants.find_id hold
  subst hself
  have hmem := Grants.find_mem hold
  change Rewritten readings calls old.id s (reply.fate.serve (fun s => s.recordObservation old.id observation reply) s).2 ∧
    ∃ row, (reply.fate.serve (fun s => s.recordObservation old.id observation reply) s).2.db.grants.find old.id = some row ∧
      row.escalatedAt = old.escalatedAt ∧
      ∀ settled, (reply.fate.serve (fun s => s.recordObservation old.id observation reply) s).1 = .ok settled → settled = row
  have hcases := serve_cases (fun s => s.recordObservation old.id observation reply) s rfl reply.fate
  generalize reply.fate.serve (fun s => s.recordObservation old.id observation reply) s = result at hcases ⊢
  rcases hcases with ⟨hsame, hnone⟩ | ⟨row, db, hok, hcarried, hstate, hanswer⟩
  · rw [hsame]
    exact ⟨.refl h, old, hold, rfl, fun settled hsettled => absurd hsettled (hnone settled)⟩
  obtain ⟨found, hfound, hreadable, hread⟩ := Database.recordObservation_ok hok
  cases hold.symm.trans hfound
  rw [hold, Option.map_some] at hstate
  rw [hstate]
  obtain ⟨hgrants, hfree, hreads⟩ : db.grants = s.db.grants.replace row ∧
      (row.live = true → s.db.grants.slotFree row = true) ∧
      ReadsTo s.trace observation (s.db.grants.owned old) old row := by
    rcases hread with ⟨hsame, rfl, rfl⟩ | ⟨hnew, hgrants, hfree, hread⟩
    · exact ⟨(h.rows.replace_same hmem).symm, h.rows.slotFree hmem, .again hreadable hsame⟩
    · refine ⟨hgrants, hfree, ?_⟩
      rcases hread with ⟨hopen, hrow⟩ | ⟨hclosed, owner, howner, rfl⟩
      · exact .readOpen hreadable hnew hopen hrow
      · refine .readClosed h.rows hmem hnew hclosed fun hpresent => ?_
        rw [Database.ownerFor, if_pos hpresent] at howner
        exact howner
  have hevent : ∀ e ∈ some (Event.read observation old row (s.db.grants.owned old)), e.grant = some row.id := by
    intro e he
    cases he
    rw [hreads.id]
    rfl
  have hself : db.grants.find old.id = some row := by
    rw [hgrants, ← hreads.id]
    exact Grants.find_replace_self (hreads.id ▸ hold)
  have hcounted : readings → Counted (.read observation old row (s.db.grants.owned old) :: s.trace) row ∧
      Taken observation old row (s.db.grants.owned old) := fun hr =>
    hreads.counted (h.counted hr old hmem) (hname hr) (hnew hr hcarried)
  have horderly : Orderly readings calls ⟨db, (some (Event.read observation old row (s.db.grants.owned old))).toList ++ s.trace⟩ := by
    refine h.rewritten hgrants hfree rfl hevent (fun _ _ _ hsome => by cases hsome) (fun hr => (hcounted hr).1)
      (fun hr _ _ _ _ hsome => ?_) fun hc => ?_
    · cases hsome
      exact (hcounted hr).2
    · exact hreads.marked (h.marked hc old hmem) (hunmarked hc hcarried)
  exact ⟨.of_replace horderly hreads.id hgrants rfl hevent, row, hself, hreads.escalatedAt, hanswer⟩

end Requests

end Orchestrator.Access
