import Std.Data.String.ToNat
import Orchestrator.Access.Sweep
import Orchestrator.Access.Evidence

/-!
Whether a reading is new to the grant it is recorded against. The name of a
reading is made of the revoke run and of the length of the streak, so what has
to hold between two readings is that one of them has changed.
-/

namespace Orchestrator.Access

open Async Contracts
open Api (TemporaryAccessStatus TemporaryAccessEscalation)

section Names

theorem append_cons_inj {A : Type} {c : A} {xs ys as bs : List A} (hx : c ∉ xs) (hy : c ∉ ys)
    (h : xs ++ c :: as = ys ++ c :: bs) : xs = ys ∧ as = bs := by
  induction xs generalizing ys with
  | nil =>
    cases ys with
    | nil => exact ⟨rfl, (List.cons.inj h).2⟩
    | cons y ys => exact absurd ((List.cons.inj h).1 ▸ List.mem_cons_self) hy
  | cons x xs ih =>
    cases ys with
    | nil => exact absurd ((List.cons.inj h).1 ▸ List.mem_cons_self) hx
    | cons y ys =>
      obtain ⟨rfl, htail⟩ := List.cons.inj h
      obtain ⟨rfl, hrest⟩ :=
        ih (fun hc => hx (List.mem_cons_of_mem _ hc)) (fun hc => hy (List.mem_cons_of_mem _ hc)) htail
      exact ⟨rfl, hrest⟩

def readingName (run : String) (readings : Nat) : String := "envobs-" ++ run ++ "-" ++ toString readings

theorem dash_notMem_toString (n : Nat) : '-' ∉ (toString n).toList := by
  intro h
  have hdigit : ('-' : Char).isDigit = true :=
    Nat.isDigit_of_mem_toDigits (b := 10) (by decide) (by decide) (by simpa using h)
  cases hdigit

theorem readingName_inj {run run' : String} {n n' : Nat} (h : readingName run n = readingName run' n') :
    run = run' ∧ n = n' := by
  have hlist := congrArg (fun name : String => name.toList.reverse) h
  simp only [readingName, String.toList_append, List.reverse_append, List.append_assoc] at hlist
  have hsplit := append_cons_inj (c := '-') (by simpa using dash_notMem_toString n)
    (by simpa using dash_notMem_toString n') hlist
  refine ⟨?_, Nat.repr_inj.mp (String.toList_inj.mp (List.reverse_inj.mp hsplit.1))⟩
  have hrun : run.toList.reverse = run'.toList.reverse := List.append_cancel_right hsplit.2
  exact String.toList_inj.mp (List.reverse_inj.mp hrun)

end Names

def minted : List Event → List String
  | [] => []
  | .minted suffix :: older => suffix :: minted older
  | _ :: older => minted older

/-- The last reading recorded of the grant left its count as it was, and the
grant has not been moved since: the value was found with no clear reading before
it, or on a closed grant while another one owned its slot. -/
def disputed (grantId : String) : List Event → Bool
  | [] => false
  | .moved moved :: older => moved != grantId && disputed grantId older
  | .escalated escalated :: older => escalated != grantId && disputed grantId older
  | .read observation before _ owned :: older =>
    if before.id = grantId then
      observation.present && (before.status == .revoking && before.slotClearReadings == 0 || before.status == .revoked && owned)
    else disputed grantId older
  | _ :: older => disputed grantId older

def revokeRun (suffix : String) : String := "deploy-" ++ "revoke" ++ "-" ++ suffix

def Known (trace : List Event) (run : String) : Prop := run = "None" ∨ ∃ suffix ∈ minted trace, run = revokeRun suffix

structure Counted (trace : List Event) (grant : TemporaryAccessGrant) : Prop where
  streak : grant.slotClearSince = none → grant.slotClearReadings = 0
  closed : grant.status = .revoked → grant.slotClearReadings ≠ 0
  run : Known trace (grant.revokeRunId.getD "None")
  named : ∀ name, grant.observationId = some name → ∃ run n, name = readingName run n ∧ Known trace run
  fresh : grant.status = .revoking ∨ grant.status = .revoked → disputed grant.id trace = false →
    grant.observationId ≠ some (observationRequestId grant)

section Rows

variable {trace trace' : List Event} {grantId : String} {grant row : TemporaryAccessGrant} {now : Time}
  {observation : TemporaryAccessObservation}

theorem Known.mono {run : String} (h : Known trace run) (hm : ∀ suffix ∈ minted trace, suffix ∈ minted trace') :
    Known trace' run := by
  rcases h with h | ⟨suffix, hmem, h⟩
  · exact .inl h
  · exact .inr ⟨suffix, hm suffix hmem, h⟩

theorem Counted.mono (h : Counted trace grant) (hm : ∀ suffix ∈ minted trace, suffix ∈ minted trace')
    (hd : disputed grant.id trace' = disputed grant.id trace) : Counted trace' grant := by
  refine ⟨h.streak, h.closed, h.run.mono hm, fun name hname => ?_, fun hstatus hdisputed => ?_⟩
  · obtain ⟨run, n, hrun, hknown⟩ := h.named name hname
    exact ⟨run, n, hrun, hknown.mono hm⟩
  · exact h.fresh hstatus (hd ▸ hdisputed)

theorem counted_created (grantIn : TemporaryAccessGrantCreate) : Counted trace (grantIn.row now) :=
  ⟨fun _ => rfl, nofun, .inl rfl, nofun, nofun⟩

def Quiet (update : TemporaryAccessGrantUpdate) : Prop :=
  update.revokeRunId = none ∧ ∀ status ∈ update.status, status.val ≠ .revoking

theorem updateRow_run {update : TemporaryAccessGrantUpdate} (h : updateRow grantId update now grant = .ok row) :
    row.revokeRunId = update.revokeRunId.getD grant.revokeRunId ∧
      row.status = (update.status.map Subtype.val).getD grant.status ∧ row.escalatedAt =
        if update.escalated then grant.escalatedAt.or (some now) else grant.escalatedAt := by
  unfold updateRow at h
  split at h
  · cases h
  obtain ⟨_, _, h⟩ := bind_ok h
  obtain ⟨_, _, h⟩ := bind_ok h
  cases h
  exact ⟨rfl, rfl, rfl⟩

theorem counted_quiet {update : TemporaryAccessGrantUpdate} (h : Counted trace grant) (hquiet : Quiet update)
    (hrow : updateRow grantId update now grant = .ok row) (hm : ∀ suffix ∈ minted trace, suffix ∈ minted trace')
    (hd : update.status = none → disputed grant.id trace' = disputed grant.id trace) : Counted trace' row := by
  obtain ⟨_, hlive, hid, _, hlatest, hsince, hcount⟩ := updateRow_keeps hrow
  obtain ⟨hrun, hstatus, _⟩ := updateRow_run hrow
  rw [hquiet.1, Option.getD_none] at hrun
  refine ⟨fun hnone => ?_, fun hrevoked => absurd hrevoked hlive, ?_, fun name hname => ?_, fun hopen hdisputed => ?_⟩
  · rw [hcount]
    exact h.streak (hsince ▸ hnone)
  · rw [hrun]
    exact h.run.mono hm
  · obtain ⟨run, n, hname', hknown⟩ := h.named name (hlatest ▸ hname)
    exact ⟨run, n, hname', hknown.mono hm⟩
  · cases hset : update.status with
    | none =>
      rw [hset, Option.map_none, Option.getD_none] at hstatus
      rw [hid, hd hset] at hdisputed
      have hname : observationRequestId row = observationRequestId grant := by
        unfold observationRequestId
        rw [hrun, hcount]
      rw [hlatest, hname]
      exact h.fresh (hstatus ▸ hopen) hdisputed
    | some status =>
      rw [hset, Option.map_some, Option.getD_some] at hstatus
      rcases hopen with hopen | hopen
      · exact absurd (hstatus ▸ hopen) (hquiet.2 status hset)
      · exact absurd hopen hlive

def Unread (grant : TemporaryAccessGrant) (suffix : String) : Prop :=
  ∀ n, grant.observationId ≠ some (readingName (revokeRun suffix) n)

section

variable (h : Counted trace grant)

include h

theorem counted_unread {suffix : String} (hnew : suffix ∉ minted trace) :
    Unread grant suffix := by
  intro n hname
  obtain ⟨run, n', hsame, hknown⟩ := h.named _ hname
  obtain ⟨rfl, -⟩ := readingName_inj hsame
  rcases hknown with hnone | ⟨other, hmem, hother⟩
  · have hlist := congrArg String.toList hnone
    simp [revokeRun] at hlist
  · have hsuffix : suffix = other := by simpa [revokeRun] using hother
    exact hnew (hsuffix ▸ hmem)

theorem counted_revoking {update : TemporaryAccessGrantUpdate} {suffix : String}
    (hupdate : update.revokeRunId = some (some (revokeRun suffix))) (hknown : suffix ∈ minted trace)
    (hunread : Unread grant suffix) (hrow : updateRow grantId update now grant = .ok row)
    (hm : ∀ suffix ∈ minted trace, suffix ∈ minted trace') : Counted trace' row := by
  obtain ⟨_, hlive, _, _, hlatest, hsince, hcount⟩ := updateRow_keeps hrow
  obtain ⟨hrun, _, _⟩ := updateRow_run hrow
  rw [hupdate, Option.getD_some] at hrun
  refine ⟨fun hnone => ?_, fun hrevoked => absurd hrevoked hlive, ?_, fun name hname => ?_, fun _ _ => ?_⟩
  · rw [hcount]
    exact h.streak (hsince ▸ hnone)
  · rw [hrun]
    exact .inr ⟨suffix, hm suffix hknown, rfl⟩
  · obtain ⟨run, n, hname', hknown⟩ := h.named name (hlatest ▸ hname)
    exact ⟨run, n, hname', hknown.mono hm⟩
  · have hname : observationRequestId row = readingName (revokeRun suffix) row.slotClearReadings := by
      unfold observationRequestId
      rw [hrun]
      rfl
    rw [hlatest, hname]
    exact hunread _

theorem counted_escalated {error : String}
    (hrow : escalateRow grantId error now grant = .ok row) (hm : ∀ suffix ∈ minted trace, suffix ∈ minted trace') :
    Counted trace' row := by
  unfold escalateRow at hrow
  split at hrow
  · cases hrow
  cases hrow
  refine ⟨h.streak, nofun, h.run.mono hm, fun name hname => ?_, nofun⟩
  obtain ⟨run, n, hname', hknown⟩ := h.named name hname
  exact ⟨run, n, hname', hknown.mono hm⟩

section

variable (hname : observation.observationId = observationRequestId grant)

include hname

theorem counted_read
    (hm : ∀ suffix ∈ minted trace, suffix ∈ minted trace') (hlatest : row.observationId = some observation.observationId)
    (hrun : row.revokeRunId = grant.revokeRunId) (hstreak : row.slotClearSince = none → row.slotClearReadings = 0)
    (hclosed : row.status = .revoked → row.slotClearReadings ≠ 0)
    (hfresh : disputed row.id trace' = false → row.slotClearReadings ≠ grant.slotClearReadings) : Counted trace' row := by
  refine ⟨hstreak, hclosed, ?_, fun name hsome => ?_, fun _ hdisputed hsame => ?_⟩
  · rw [hrun]
    exact h.run.mono hm
  · rw [hlatest, Option.some.injEq, hname] at hsome
    exact ⟨_, _, hsome.symm, h.run.mono hm⟩
  · rw [hlatest, Option.some.injEq, hname] at hsame
    exact hfresh hdisputed (readingName_inj hsame).2.symm

theorem counted_readOpen {after : TemporaryAccessGrant} {owned : Bool}
    (hrevoking : grant.status = .revoking)
    (hrow : readOpenGrant grantId observation now grant = .ok row) :
    Counted (.read observation grant after owned :: trace) row := by
  have hm : ∀ suffix ∈ minted trace, suffix ∈ minted (.read observation grant after owned :: trace) := fun _ h => h
  have hd : ∀ row : TemporaryAccessGrant, row.id = grant.id →
      disputed row.id (.read observation grant after owned :: trace) =
        (observation.present && grant.slotClearReadings == 0) := by
    intro row hid
    simp [disputed, hid, hrevoking, show (TemporaryAccessStatus.revoking == .revoked) = false from rfl]
  have hclear : (countClear now (stampReading observation now grant)).slotClearReadings ≠ grant.slotClearReadings ∧
      (countClear now (stampReading observation now grant)).slotClearReadings ≠ 0 ∧
      (countClear now (stampReading observation now grant)).slotClearSince ≠ none ∧
      (countClear now (stampReading observation now grant)).revokeRunId = grant.revokeRunId := by
    unfold countClear stampReading
    cases hsince : grant.slotClearSince with
    | none => simp [h.streak hsince]
    | some since => simp
  rcases readOpenGrant_cases hrow with ⟨hpresent, rfl⟩ | ⟨_, rfl⟩ | ⟨_, _, rfl⟩
  · refine counted_read h hname hm rfl rfl (fun _ => rfl) (fun hrevoked => ?_) fun hdisputed => ?_
    · cases hrevoking.symm.trans hrevoked
    · rw [hd (clearStreak (stampReading observation now grant)) rfl, hpresent, Bool.true_and,
        beq_eq_false_iff_ne] at hdisputed
      exact hdisputed.symm
  · refine counted_read h hname hm (countClear_observationId ..) hclear.2.2.2 (fun hnone => absurd hnone hclear.2.2.1)
      (fun hrevoked => ?_) fun _ => hclear.1
    rw [countClear_status] at hrevoked
    cases hrevoking.symm.trans hrevoked
  · exact counted_read h hname hm (countClear_observationId now (stampReading observation now grant)) hclear.2.2.2
      (fun hnone => absurd hnone hclear.2.2.1) (fun _ => hclear.2.1) fun _ => hclear.1

theorem counted_readClosed {after : TemporaryAccessGrant} {owned held : Bool}
    (hclosed : grant.status = .revoked)
    (hheld : observation.present = true → owned = true → held = true) :
    Counted (.read observation grant after held :: trace) (readClosedGrant observation now owned grant) := by
  have hm : ∀ suffix ∈ minted trace, suffix ∈ minted (.read observation grant after held :: trace) := fun _ h => h
  have hcount := h.closed hclosed
  rcases readClosedGrant_cases observation now owned grant with ⟨_, hr⟩ | ⟨hpresent, howned, hr⟩ | ⟨_, _, hr⟩
  · rw [hr]
    refine counted_read h hname hm rfl rfl (fun hnone => absurd (h.streak hnone) hcount) (fun _ => ?_) fun _ => ?_
    · exact Nat.succ_ne_zero _
    · exact Nat.succ_ne_self _
  · rw [hr]
    refine counted_read h hname hm rfl rfl (fun hnone => absurd (h.streak hnone) hcount) (fun _ => hcount) fun hdisputed => ?_
    simp [disputed, stampReading, hpresent, hclosed, hheld hpresent howned] at hdisputed
  · rw [hr]
    exact counted_read h hname hm rfl rfl (fun _ => rfl) (by rintro ⟨⟩) fun _ => hcount.symm

end

end

end Rows

end Orchestrator.Access
