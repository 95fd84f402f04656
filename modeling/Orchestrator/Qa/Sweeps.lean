import Mathlib.Data.List.Nodup
import Mathlib.Data.Prod.Lex
import Mathlib.Data.String.Basic
import Orchestrator.Keyset
import Orchestrator.Qa.Target

/-!
One cycle of the sweep by itself: which records it hands on, whatever is answered to its requests.
-/

namespace Orchestrator.Qa

open Async Contracts

/-- What is answered to the requests of one reconciliation; the target's own doings stay on the target. -/
structure Replies where
  sshKey : Except Exn (Option String)
  revoke : Except Exn Completed
  write : Fate Exn
  outcome : Except Exn Unit

structure Answers where
  page : Nat → Fate Exn
  record : Nat → Replies

def Replies.reply (replies : Replies) (s : State) : (op : Op) → Except Exn op.Res × State
  | .getServerSshKey _ => (replies.sshKey, s)
  | .revokeGrant .. => (replies.revoke, s)
  | .patchGrant runId grant => replies.write.serve (fun s => s.patchGrant runId grant) s
  | .patchOutcome .. => (replies.outcome, s)
  -- a reconciliation makes no other request
  | _ => (.error .cancelledError, s)

def Replies.run {A : Type} (replies : Replies) : Job A → State → Except Exn A × State
  | .ret a, s => (.ok a, s)
  | .raise e, s => (.error e, s)
  | .call op next, s => replies.run (next (replies.reply s op).1) (replies.reply s op).2

/-- The page last asked for, and the record last begun with. -/
structure Asked where
  pages : Nat
  records : Nat

def Asked.count : Op → Asked → Asked
  | .listHolding .., asked => { asked with pages := asked.pages + 1 }
  | .getServerSshKey _, asked => { asked with records := asked.records + 1 }
  | _, asked => asked

def Answers.reply (answers : Answers) (asked : Asked) (s : State) : (op : Op) → Except Exn op.Res × State
  | .listHolding limit after => (answers.page asked.pages).serve (fun s => (.ok (s.listHolding limit after), s)) s
  | op => (answers.record asked.records).reply s op

def alone {A : Type} (answers : Answers) : Job A → Asked → State → Except Exn A × Asked × State
  | .ret a, asked, s => (.ok a, asked, s)
  | .raise e, asked, s => (.error e, asked, s)
  | .call op next, asked, s =>
    alone answers (next (answers.reply (asked.count op) s op).1) (asked.count op) (answers.reply (asked.count op) s op).2

structure Cycle where
  presented : List (RunRow × QASshGrant)
  counts : Counts
  db : State

def noCounts : Counts := ⟨0, 0, 0, 0, 0⟩

variable (answers : Answers)

def handle (holding : Holding) (c : Cycle) : Except Exn Unit × Cycle :=
  match holding.record with
  | .unreadable _ => (.ok (), { c with counts := { c.counts with unreadable := c.counts.unreadable + 1 } })
  | .grant grant =>
    if grant.held then
      match (answers.record (c.presented.length + 1)).run (reconcile holding.run.id grant) c.db with
      | (.ok verdict, s) => (.ok (), ⟨(holding.run, grant) :: c.presented, { c.counts with seen := c.counts.seen + 1 }.add verdict, s⟩)
      | (.error e, s) => (.error e, ⟨(holding.run, grant) :: c.presented, { c.counts with seen := c.counts.seen + 1 }, s⟩)
    else (.ok (), c)

def RunRow.position (run : RunRow) : Time ×ₗ String := toLex (run.createdAt, run.id)

def Holding.position (holding : Holding) : Time ×ₗ String := holding.run.position

def oldestFirst (rows : List Holding) : List Holding := rows.mergeSort fun holding other => !State.before other.run holding.run

def State.ordered (s : State) : List Holding := oldestFirst s.selected

def Answers.lost (answers : Answers) (n : Nat) : Option Exn :=
  match answers.page n with
  | .served => none
  | .unheard e => some e
  | .unsent e => some e

def sweep (page pages : Nat) (s : State) : Option (Except Exn Unit) × Cycle :=
  Keyset.walk Holding.position (fun c => c.db.ordered) (handle answers) answers.lost page pages 1 none ⟨[], noCounts, s⟩

def Holding.opened (holding : Holding) : Option (RunRow × QASshGrant) :=
  match holding.record with
  | .unreadable _ => none
  | .grant grant => if grant.held then some (holding.run, grant) else none

def State.openRecords (s : State) : List (RunRow × QASshGrant) := s.ordered.filterMap Holding.opened

def ProvenGone (answer : Except Exn Completed) : Prop := ∃ completed, answer = .ok completed ∧ completed.exitStatus = 0 ∧ completed.count = some 0

/-- The requests that a reconciliation cannot do without are answered. It can do without the revocation, and without the report
to a run that has its outcome. -/
def Settles (replies : Replies) (grant : QASshGrant) : Prop :=
  replies.write = .served ∧ ∃ key, replies.sshKey = .ok key ∧ (key.filter (· ≠ "") = none ∨
    replies.revoke ≠ .error .cancelledError ∧ (ProvenGone replies.revoke ∨ grant.revokeAttempts + 1 < grantSweepEscalateAfter ∨
      replies.outcome = .ok () ∨ replies.outcome = .error (.http 409)))

def AllSettle (first : Nat) (entries : List (RunRow × QASshGrant)) : Prop :=
  ∀ entry ∈ entries.zipIdx first, Settles (answers.record entry.2) entry.1.2

/-- Every open record with another behind it is settled, and every page is answered from which on there are open records. The
pages and the open records are numbered from `asked` and `first`. -/
def Undisturbed (page asked first : Nat) (rows : List Holding) : Prop :=
  AllSettle answers first (rows.filterMap Holding.opened).dropLast ∧
    ∀ n, (rows.drop (n * page)).filterMap Holding.opened ≠ [] → answers.page (asked + n) = .served

section Alone

variable {answers : Answers} {replies : Replies} {A B : Type} {p : Job A} {f : A → Job B} {asked asked' : Asked} {s s' : State} {a : A}
  {e : Exn}

theorem alone_bind_ok (h : alone answers p asked s = (.ok a, asked', s')) : alone answers (p.bind f) asked s = alone answers (f a) asked' s' := by
  induction p generalizing asked s with
  | ret b =>
    cases h
    rfl
  | raise e => cases h
  | call op next ih => exact ih _ h

theorem alone_bind_error (h : alone answers p asked s = (.error e, asked', s')) :
    alone answers (p.bind f) asked s = (.error e, asked', s') := by
  induction p generalizing asked s with
  | ret b => cases h
  | raise e' =>
    cases h
    rfl
  | call op next ih => exact ih _ h

def Apart (runId : String) (s s' : State) : Prop := s'.runs = s.runs ∧ ∀ other, other ≠ runId → s'.records other = s.records other

def Op.Concerns (runId : String) : Op → Prop
  | .patchGrant other _ => other = runId
  | .getServerSshKey _ => True
  | .revokeGrant .. => True
  | .patchOutcome .. => True
  | _ => False

def Op.Follows (runId : String) : Op → Prop
  | .getServerSshKey _ => False
  | op => op.Concerns runId

variable {runId : String} {op : Op}

theorem Apart.refl (runId : String) (s : State) : Apart runId s s := ⟨rfl, fun _ _ => rfl⟩

theorem Apart.trans {s'' : State} (h : Apart runId s s') (h' : Apart runId s' s'') : Apart runId s s'' :=
  ⟨h'.1.trans h.1, fun other hother => (h'.2 other hother).trans (h.2 other hother)⟩

theorem Apart.serve {fate : Fate Exn} {exec : State → Except Exn A × State} (h : Apart runId s (exec s).2) :
    Apart runId s (fate.serve exec s).2 := by
  cases fate with
  | unsent e => exact .refl runId s
  | _ => exact h

theorem patchGrant_apart (grant : QASshGrant) : Apart runId s (s.patchGrant runId grant).2 := by
  unfold State.patchGrant
  split
  · exact ⟨rfl, fun other hother => Function.update_of_ne hother ..⟩
  · exact .refl runId s

theorem reply_apart (h : op.Concerns runId) : Apart runId s (replies.reply s op).2 := by
  cases op with
  | patchGrant other grant =>
    obtain rfl : other = runId := h
    exact .serve (patchGrant_apart grant)
  | revokeGrant admin user marker | getServerSshKey handle | patchOutcome run result => exact .refl runId s
  | _ => exact h.elim

theorem run_apart (h : p.Uses (Op.Concerns runId)) : Apart runId s (replies.run p s).2 := by
  induction p generalizing s with
  | ret a | raise e => exact .refl runId s
  | call op next ih => exact (reply_apart h.1).trans (ih _ (h.2 _))

theorem alone_follows (h : p.Uses (Op.Follows runId)) : alone answers p asked s =
    (((answers.record asked.records).run p s).1, asked, ((answers.record asked.records).run p s).2) := by
  induction p generalizing s with
  | ret a | raise e => rfl
  | call op next ih =>
    cases op with
    | getServerSshKey handle => exact h.1.elim
    | patchGrant other grant | revokeGrant admin user marker | patchOutcome run result => exact ih _ (h.2 _)
    | _ => exact h.1.elim

/-- What follows the request for the key. -/
def settleKey (runId : String) (grant : QASshGrant) (key : Option String) : Job Verdict :=
  (key.filter (· ≠ "")).elim
    ((writeGrant runId (grant.failed s!"no server key for {grant.serverHandle}; the grant cannot be taken back")).bind fun _ => .ret .failed)
    fun sshKey => (sweepRevoke grant sshKey).bind (settleRevoke runId grant)

theorem reconcile_eq (runId : String) (grant : QASshGrant) : reconcile runId grant =
    (perform (.getServerSshKey grant.serverHandle)).bind (settleKey runId grant) := by
  unfold reconcile
  rw [Prog.bind_eq]
  congr 1
  funext key
  unfold settleKey
  cases key.filter (· ≠ "") <;> rfl

variable (runId) in
theorem settleKey_follows (grant : QASshGrant) : ∀ key, (settleKey runId grant key).Uses (Op.Follows runId) := by
  have hwrite : ∀ grant, (writeGrant runId grant).Uses (Op.Follows runId) := fun grant => .perform rfl
  have hreport : ∀ grant, (reportResidualAccess runId grant).Uses (Op.Follows runId) := by
    intro grant
    apply Prog.Uses.handle
    · exact (Prog.Uses.perform trivial).bind fun _ => trivial
    · intro e
      dsimp only
      split
      · trivial
      · trivial
  have hrevoke : ∀ sshKey, (sweepRevoke grant sshKey).Uses (Op.Follows runId) := by
    intro sshKey
    apply Prog.Uses.handle
    · apply (Prog.Uses.perform trivial).bind
      intro check
      dsimp only
      split
      · trivial
      · split
        · trivial
        · split
          · trivial
          · trivial
    · intro e
      split
      · trivial
      · trivial
  have hsettle : ∀ residual, (settleRevoke runId grant residual).Uses (Op.Follows runId) := by
    intro residual
    cases residual with
    | none => exact (hwrite _).bind fun _ => trivial
    | some residual =>
      apply (hwrite _).bind
      intro _
      split
      · exact (hreport _).bind fun _ => trivial
      · trivial
  intro key
  unfold settleKey
  cases key.filter (· ≠ "") with
  | none => exact (hwrite _).bind fun _ => trivial
  | some sshKey => exact (hrevoke _).bind fun residual => hsettle residual

variable (runId) in
theorem reconcile_concerns (grant : QASshGrant) : (reconcile runId grant).Uses (Op.Concerns runId) := by
  rw [reconcile_eq]
  refine (Prog.Uses.perform trivial).bind fun key => (settleKey_follows runId grant key).mono fun op hop => ?_
  cases op with
  | getServerSshKey handle => trivial
  | _ => exact hop

theorem perform_eq (op : Op) : perform op = .call (I := qaInterface) op Prog.ofExcept := by
  unfold perform Prog.perform
  congr 1
  funext r
  cases r <;> rfl

theorem reconcile_alone (grant : QASshGrant) : alone answers (reconcile runId grant) asked s =
    (((answers.record (asked.records + 1)).run (reconcile runId grant) s).1, ⟨asked.pages, asked.records + 1⟩,
      ((answers.record (asked.records + 1)).run (reconcile runId grant) s).2) := by
  have hcall : ∀ r, alone answers ((Prog.ofExcept (I := qaInterface) r).bind (settleKey runId grant)) ⟨asked.pages, asked.records + 1⟩ s =
      (((answers.record (asked.records + 1)).run ((Prog.ofExcept (I := qaInterface) r).bind (settleKey runId grant)) s).1,
        ⟨asked.pages, asked.records + 1⟩,
        ((answers.record (asked.records + 1)).run ((Prog.ofExcept (I := qaInterface) r).bind (settleKey runId grant)) s).2) := by
    rintro (e | key)
    · rfl
    · exact alone_follows (settleKey_follows runId grant key)
  rw [reconcile_eq, perform_eq]
  exact hcall _

theorem run_bind_ok (h : replies.run p s = (.ok a, s')) : replies.run (p.bind f) s = replies.run (f a) s' := by
  induction p generalizing s with
  | ret b =>
    cases h
    rfl
  | raise e => cases h
  | call op next ih => exact ih _ h

theorem run_bind_error (h : replies.run p s = (.error e, s')) : replies.run (p.bind f) s = (.error e, s') := by
  induction p generalizing s with
  | ret b => cases h
  | raise e' =>
    cases h
    rfl
  | call op next ih => exact ih _ h

theorem run_write {run : RunRow} (hrun : run ∈ s.runs) (grant : QASshGrant) :
    (replies.run (writeGrant run.id grant) s).1.isOk = true ↔ replies.write = .served := by
  have hany : (s.runs.any fun other => other.id == run.id) = true := List.any_eq_true.mpr ⟨run, hrun, beq_self_eq_true _⟩
  obtain ⟨sshKey, revoke, write, outcome⟩ := replies
  cases write with
  | served =>
    simp only [writeGrant, Prog.perform, Replies.run, Replies.reply, Fate.serve, State.patchGrant, if_pos hany]
    exact ⟨fun _ => trivial, fun _ => rfl⟩
  | _ => exact ⟨nofun, nofun⟩

theorem run_report (runId : String) (grant : QASshGrant) : (replies.run (reportResidualAccess runId grant) s).1.isOk = true ↔
    replies.outcome = .ok () ∨ replies.outcome = .error (.http 409) := by
  obtain ⟨sshKey, revoke, write, outcome⟩ := replies
  cases outcome with
  | ok u => exact ⟨fun _ => .inl rfl, fun _ => rfl⟩
  | error e =>
    have hrun : (⟨sshKey, revoke, write, .error e⟩ : Replies).run (reportResidualAccess runId grant) s =
        (⟨sshKey, revoke, write, .error e⟩ : Replies).run (if e = .http 409 then .ret false else .raise e) s := rfl
    rw [hrun]
    by_cases hconflict : e = .http 409
    · simp [hconflict, Replies.run, Except.isOk, Except.toBool]
    · simp [hconflict, Replies.run, Except.isOk, Except.toBool]

theorem run_sweepRevoke (grant : QASshGrant) (sshKey : String) :
    (ProvenGone replies.revoke ∧ replies.run (sweepRevoke grant sshKey) s = (.ok none, s)) ∨
      (replies.revoke ≠ .error .cancelledError ∧ ¬ ProvenGone replies.revoke ∧
        ∃ residual, replies.run (sweepRevoke grant sshKey) s = (.ok (some residual), s)) ∨
      (replies.revoke = .error .cancelledError ∧ ¬ ProvenGone replies.revoke ∧
        ∃ e, replies.run (sweepRevoke grant sshKey) s = (.error e, s)) := by
  obtain ⟨sshKey', revoke, write, outcome⟩ := replies
  cases revoke with
  | error e =>
    by_cases hcancelled : e = .cancelledError
    · subst hcancelled
      exact .inr (.inr ⟨rfl, nofun, _, rfl⟩)
    · have hexception : e.isException = true := by simpa [Exn.isException] using hcancelled
      refine .inr (.inl ⟨fun heq => hcancelled (Except.error.inj heq), nofun, s!"revocation failed: {e.text}", ?_⟩)
      have hrun : (⟨sshKey', .error e, write, outcome⟩ : Replies).run (sweepRevoke grant sshKey) s =
        (⟨sshKey', .error e, write, outcome⟩ : Replies).run
          (if e.isException = true then .ret (some s!"revocation failed: {e.text}") else .raise e) s := rfl
      rw [hrun, if_pos hexception]
      rfl
  | ok completed =>
    have hgone : ProvenGone (.ok completed) ↔ completed.exitStatus = 0 ∧ completed.count = some 0 :=
      ⟨fun ⟨_, heq, hgone⟩ => Except.ok.inj heq ▸ hgone, fun hgone => ⟨completed, rfl, hgone⟩⟩
    obtain ⟨exitStatus, count, output⟩ := completed
    rw [hgone]
    rcases count with _ | _ | count
    · exact .inr (.inl ⟨nofun, by simp, _, rfl⟩)
    · rcases exitStatus with _ | exitStatus
      · exact .inl ⟨⟨rfl, rfl⟩, rfl⟩
      · exact .inr (.inl ⟨nofun, by simp, _, rfl⟩)
    · rcases exitStatus with _ | exitStatus
      · exact .inr (.inl ⟨nofun, by simp, _, rfl⟩)
      · exact .inr (.inl ⟨nofun, by simp, _, rfl⟩)

theorem isOk_run_bind {P : Prop} (h : ∀ a s', (replies.run (f a) s').1.isOk = true ↔ P) :
    (replies.run (p.bind f) s).1.isOk = true ↔ (replies.run p s).1.isOk = true ∧ P := by
  cases hrun : replies.run p s with
  | mk r s' =>
    cases r with
    | error e =>
      rw [run_bind_error hrun]
      exact ⟨nofun, fun h => nomatch h.1⟩
    | ok a =>
      rw [run_bind_ok hrun, h a s']
      exact ⟨fun hp => ⟨rfl, hp⟩, And.right⟩

theorem settleRevoke_settles {run : RunRow} (hrun : run ∈ s.runs) (grant : QASshGrant) (residual : Option String) :
    (replies.run (settleRevoke run.id grant residual) s).1.isOk = true ↔ replies.write = .served ∧
      (residual = none ∨ grant.revokeAttempts + 1 < grantSweepEscalateAfter ∨
        replies.outcome = .ok () ∨ replies.outcome = .error (.http 409)) := by
  unfold settleRevoke
  cases residual with
  | none =>
    rw [← run_write hrun]
    exact isOk_run_bind fun _ _ => ⟨fun _ => .inl rfl, fun _ => rfl⟩
  | some residual =>
    rw [← run_write hrun]
    apply isOk_run_bind
    intro _ s'
    by_cases hescalate : grantSweepEscalateAfter ≤ grant.revokeAttempts + 1
    · rw [if_pos hescalate]
      refine (isOk_run_bind fun _ _ => ⟨fun _ => trivial, fun _ => rfl⟩).trans ?_
      rw [run_report]
      have hnot := Nat.not_lt.mpr hescalate
      simp [hnot]
    · rw [if_neg hescalate]
      exact ⟨fun _ => .inr (.inl (Nat.lt_of_not_le hescalate)), fun _ => rfl⟩

theorem run_reconcile (runId : String) (grant : QASshGrant) : replies.run (reconcile runId grant) s =
    replies.run ((Prog.ofExcept (I := qaInterface) replies.sshKey).bind (settleKey runId grant)) s := by
  rw [reconcile_eq, perform_eq]
  rfl

theorem reconcile_settles {run : RunRow} (hrun : run ∈ s.runs) (grant : QASshGrant) :
    (replies.run (reconcile run.id grant) s).1.isOk = true ↔ Settles replies grant := by
  rw [run_reconcile]
  unfold Settles
  cases hkey : replies.sshKey with
  | error e => exact ⟨nofun, nofun⟩
  | ok key =>
    have hsame : replies.run ((Prog.ofExcept (I := qaInterface) (.ok key)).bind (settleKey run.id grant)) s =
        replies.run (settleKey run.id grant key) s := rfl
    rw [hsame]
    simp only [Except.ok.injEq, exists_eq_left']
    unfold settleKey
    cases key.filter (· ≠ "") with
    | none =>
      rw [← run_write hrun]
      exact isOk_run_bind fun _ _ => ⟨fun _ => .inl rfl, fun _ => rfl⟩
    | some sshKey =>
      simp only [Option.elim_some, reduceCtorEq, false_or]
      rcases @run_sweepRevoke replies s grant sshKey with ⟨hgone, hrevoke⟩ | ⟨hheld, hnot, residual, hrevoke⟩ | ⟨hcancelled, hnot, e, hrevoke⟩
      · have hheld : replies.revoke ≠ .error .cancelledError := by
          obtain ⟨completed, heq, -⟩ := hgone
          rw [heq]
          exact nofun
        rw [run_bind_ok hrevoke, settleRevoke_settles hrun]
        simp [hgone, hheld]
      · rw [run_bind_ok hrevoke, settleRevoke_settles hrun]
        simp [hnot, hheld]
      · rw [run_bind_error hrevoke]
        simp [hcancelled, Except.isOk, Except.toBool]

end Alone

section Order

variable {s s' : State} {run other : RunRow} {holding : Holding} {cursor : Option (Time ×ₗ String)}

theorem before_iff : State.before run other = true ↔ run.position < other.position := by
  unfold State.before RunRow.position
  simp [Prod.Lex.toLex_lt_toLex]

theorem holding_run {found : Holding} (h : s.holding run = some found) : found.run = run := by
  unfold State.holding at h
  split at h
  · cases h
  · rw [← Option.some.inj h]
  · split at h
    · rw [← Option.some.inj h]
    · cases h

theorem mem_selected_runs (h : holding ∈ s.selected) : holding.run ∈ s.runs := by
  obtain ⟨run, hrun, hfound⟩ := List.mem_filterMap.mp h
  rw [holding_run hfound]
  exact hrun

theorem selected_ids_nodup (h : (s.runs.map (·.id)).Nodup) : (s.selected.map (·.run.id)).Nodup := by
  have hsub : (s.selected.map (·.run)).Sublist s.runs := by
    have hruns : s.selected.map (·.run) = s.runs.filter fun run => (s.holding run).isSome := by
      unfold State.selected
      induction s.runs with
      | nil => rfl
      | cons run rest ih =>
        cases hfound : s.holding run with
        | none => simpa [hfound] using ih
        | some found => simp [hfound, holding_run hfound, ih]
    rw [hruns]
    exact List.filter_sublist
  have hids := hsub.map (·.id)
  rw [List.map_map] at hids
  exact hids.nodup h

theorem oldestFirst_perm (rows : List Holding) : (oldestFirst rows).Perm rows := List.mergeSort_perm _ _

theorem mem_ordered : holding ∈ s.ordered ↔ holding ∈ s.selected := (oldestFirst_perm _).mem_iff

theorem sorted_strictly {rows : List Holding} (h : (rows.map (·.run.id)).Nodup) :
    Keyset.Ordered Holding.position (oldestFirst rows) := by
  have hsorted : (oldestFirst rows).Pairwise
      fun holding other => (!State.before other.run holding.run) = true := by
    apply List.pairwise_mergeSort
    · intro a b c hab hbc
      simp only [Bool.not_eq_true', ← Bool.not_eq_true, before_iff, not_lt] at hab hbc ⊢
      exact hab.trans hbc
    · intro a b
      simp only [Bool.or_eq_true, Bool.not_eq_true', ← Bool.not_eq_true, before_iff, not_lt]
      exact le_total _ _
  have hdistinct : (oldestFirst rows).Pairwise
      fun holding other => holding.run.id ≠ other.run.id := by
    have hnodup := ((oldestFirst_perm rows).map (·.run.id)).nodup_iff.mpr h
    exact List.pairwise_map.mp hnodup
  apply (hsorted.and hdistinct).imp
  rintro holding other ⟨hle, hne⟩
  simp only [Bool.not_eq_true', ← Bool.not_eq_true, before_iff, not_lt] at hle
  apply lt_of_le_of_ne hle
  intro hsame
  exact hne (Prod.mk.inj (toLex.injective hsame)).2

theorem ordered_strictly (h : (s.runs.map (·.id)).Nodup) : Keyset.Ordered Holding.position s.ordered :=
  sorted_strictly (selected_ids_nodup h)

theorem ahead_ordered (h : (s.runs.map (·.id)).Nodup) : Keyset.ahead Holding.position cursor s.ordered =
    oldestFirst (Keyset.ahead Holding.position cursor s.selected) := by
  have hfiltered : ((Keyset.ahead Holding.position cursor s.selected).map (·.run.id)).Nodup :=
    List.Nodup.sublist (List.filter_sublist.map _) (selected_ids_nodup h)
  have hperm : (Keyset.ahead Holding.position cursor s.ordered).Perm
      (oldestFirst (Keyset.ahead Holding.position cursor s.selected)) :=
    ((oldestFirst_perm s.selected).filter _).trans (oldestFirst_perm _).symm
  apply hperm.eq_of_pairwise _ (ordered_strictly h).ahead (sorted_strictly hfiltered)
  intro a b _ _ hab hba
  exact absurd hab hba.asymm

theorem listHolding_eq (h : (s.runs.map (·.id)).Nodup) (limit : Nat) (after : Option RunRow) :
    s.listHolding limit after = (Keyset.ahead Holding.position (after.map RunRow.position) s.ordered).take limit := by
  have hfilter : (s.selected.filter fun holding => after.all fun cursor => State.before cursor holding.run) =
      Keyset.ahead Holding.position (after.map RunRow.position) s.selected := by
    unfold Keyset.ahead
    apply List.filter_congr
    intro holding _
    cases after with
    | none => rfl
    | some cursor =>
      rw [Bool.eq_iff_iff]
      exact before_iff.trans decide_eq_true_iff.symm
  rw [ahead_ordered h, ← hfilter]
  rfl

theorem ahead_apart (hids : (s.runs.map (·.id)).Nodup) (hrun : run ∈ s.runs) {c : Time ×ₗ String} (hle : run.position ≤ c)
    (h : Apart run.id s s') :
    Keyset.ahead Holding.position (some c) s'.ordered = Keyset.ahead Holding.position (some c) s.ordered := by
  have hids' : (s'.runs.map (·.id)).Nodup := by
    rw [h.1]
    exact hids
  rw [ahead_ordered hids, ahead_ordered hids']
  congr 1
  unfold Keyset.ahead State.selected
  rw [h.1, List.filter_filterMap, List.filter_filterMap]
  apply List.filterMap_congr
  intro other hother
  by_cases hsame : other.id = run.id
  · have hrunOther : other = run := List.inj_on_of_nodup_map hids hother hrun hsame
    subst hrunOther
    have hpassed : ∀ s : State, (s.holding other).filter (fun holding => (some c).all fun c => decide (c < holding.position)) = none := by
      intro s
      cases hfound : s.holding other with
      | none => rfl
      | some found =>
        have hnot : ¬ c < found.position := by
          unfold Holding.position
          rw [holding_run hfound]
          exact hle.not_gt
        simpa using not_lt.mp hnot
    rw [hpassed, hpassed]
  · have hrecord := h.2 other.id hsame
    unfold State.holding
    rw [hrecord]

end Order

section Cycles

variable {answers : Answers} {holding : Holding} {c : Cycle} {rows : List Holding} {runs : List RunRow} {s : State}

theorem handle_skipped (h : holding.opened = none) : ∃ counts, handle answers holding c = (.ok (), { c with counts := counts }) := by
  unfold Holding.opened at h
  unfold handle
  split at h
  · exact ⟨_, rfl⟩
  · split at h
    · cases h
    · rename_i hheld
      simp only [if_neg hheld]
      exact ⟨_, rfl⟩

theorem handle_opened {run : RunRow} {grant : QASshGrant} (h : holding.opened = some (run, grant)) :
    holding.run = run ∧ ∃ counts, handle answers holding c =
      (((answers.record (c.presented.length + 1)).run (reconcile run.id grant) c.db).1.map fun _ => (),
        ⟨(run, grant) :: c.presented, counts, ((answers.record (c.presented.length + 1)).run (reconcile run.id grant) c.db).2⟩) := by
  unfold Holding.opened at h
  unfold handle
  split at h
  · cases h
  · rename_i grant' _
    split at h
    · rename_i hheld
      obtain ⟨rfl, rfl⟩ := Prod.mk.inj (Option.some.inj h)
      refine ⟨rfl, ?_⟩
      simp only [if_pos hheld]
      cases hrun : (answers.record (c.presented.length + 1)).run (reconcile holding.run.id grant') c.db with
      | mk r rest =>
        cases r with
        | ok verdict | error e => exact ⟨_, rfl⟩
    · cases h

theorem handle_apart : Apart holding.run.id c.db (handle answers holding c).2.db := by
  cases hopened : holding.opened with
  | none =>
    obtain ⟨counts, hhandle⟩ := handle_skipped hopened
    rw [hhandle]
    exact .refl _ _
  | some entry =>
    obtain ⟨hrun, counts, hhandle⟩ := handle_opened hopened
    rw [hhandle, hrun]
    exact run_apart (reconcile_concerns _ _)

variable (answers) in
theorem shrinking (hids : (runs.map (·.id)).Nodup) : Keyset.Shrinking Holding.position (fun c : Cycle => c.db.ordered)
    (handle answers) (fun c => c.db.runs = runs) (fun holding => holding.run ∈ runs) := by
  constructor
  · rintro c rfl
    exact ordered_strictly hids
  · rintro c rfl holding hmem
    exact mem_selected_runs (mem_ordered.mp hmem)
  · rintro holding c rfl _
    exact handle_apart.1
  · rintro holding c cursor rfl hrun hle
    exact ahead_apart hids hrun hle handle_apart

theorem allSettle_cons {first : Nat} {entry : RunRow × QASshGrant} {entries : List (RunRow × QASshGrant)} :
    AllSettle answers first (entry :: entries) ↔ Settles (answers.record first) entry.2 ∧ AllSettle answers (first + 1) entries := by
  unfold AllSettle
  rw [List.zipIdx_cons, List.forall_mem_cons]

@[simp] theorem allSettle_nil (first : Nat) : AllSettle answers first [] := nofun

theorem allSettle_append {first : Nat} {entries later : List (RunRow × QASshGrant)} : AllSettle answers first (entries ++ later) ↔
    AllSettle answers first entries ∧ AllSettle answers (first + entries.length) later := by
  unfold AllSettle
  rw [List.zipIdx_append, List.forall_mem_append]

theorem allSettle_dropLast_append {first : Nat} {entries later : List (RunRow × QASshGrant)} (h : AllSettle answers first entries) :
    AllSettle answers first (entries ++ later).dropLast ↔ AllSettle answers (first + entries.length) later.dropLast := by
  by_cases hlater : later = []
  · rw [hlater, List.append_nil]
    refine iff_of_true ?_ (allSettle_nil _)
    by_cases hentries : entries = []
    · rw [hentries]
      exact allSettle_nil _
    · rw [← List.dropLast_append_getLast hentries, allSettle_append] at h
      exact h.1
  · rw [List.dropLast_append_of_ne_nil hlater, allSettle_append]
    exact and_iff_right h

theorem opened_drop (h : rows.filterMap Holding.opened = []) (n : Nat) : (rows.drop n).filterMap Holding.opened = [] :=
  List.filterMap_eq_nil_iff.mpr fun holding hmem => List.filterMap_eq_nil_iff.mp h holding (List.mem_of_mem_drop hmem)

theorem lost_eq_none_iff {n : Nat} : answers.lost n = none ↔ answers.page n = .served := by
  unfold Answers.lost
  cases answers.page n <;> simp

variable (rows) in
theorem opened_split (page : Nat) : rows.filterMap Holding.opened =
    (rows.take page).filterMap Holding.opened ++ (rows.drop page).filterMap Holding.opened := by
  rw [← List.filterMap_append, List.take_append_drop]

theorem pages_split {page asked : Nat} (h : answers.page asked = .served) :
    (∀ n, (rows.drop (n * page)).filterMap Holding.opened ≠ [] → answers.page (asked + n) = .served) ↔
      ∀ n, ((rows.drop page).drop (n * page)).filterMap Holding.opened ≠ [] → answers.page (asked + 1 + n) = .served := by
  have hdrop : ∀ n, (rows.drop page).drop (n * page) = rows.drop ((n + 1) * page) := fun n => by
    rw [List.drop_drop, Nat.add_mul, Nat.one_mul, Nat.add_comm]
  constructor
  · intro hpages n hopen
    rw [hdrop] at hopen
    rw [Nat.add_assoc, Nat.add_comm 1]
    exact hpages (n + 1) hopen
  · rintro hpages (_ | n) hopen
    · exact h
    · have hpage := hpages n (hdrop n ▸ hopen)
      rwa [Nat.add_assoc, Nat.add_comm 1] at hpage

/-- Of the open records among the rows, those up to the first that is not settled are handed on. -/
theorem each_presents (hc : c.db.runs = runs) (hrows : ∀ holding ∈ rows, holding.run ∈ runs) : ∃ taken,
    (Keyset.each (handle answers) rows c).2.presented = taken.reverse ++ c.presented ∧ taken <+: rows.filterMap Holding.opened ∧
      ((Keyset.each (handle answers) rows c).1 = .ok () → taken = rows.filterMap Holding.opened ∧
        AllSettle answers (c.presented.length + 1) taken) ∧
      ((Keyset.each (handle answers) rows c).1 ≠ .ok () →
        ¬ AllSettle answers (c.presented.length + 1) (rows.filterMap Holding.opened)) ∧
      (taken = rows.filterMap Holding.opened ↔
        AllSettle answers (c.presented.length + 1) (rows.filterMap Holding.opened).dropLast) := by
  induction rows generalizing c with
  | nil => exact ⟨[], rfl, List.nil_prefix, by simp [Keyset.each], by simp [Keyset.each], by simp⟩
  | cons holding rest ih =>
    have hrest := fun holding hmem => hrows holding (List.mem_cons_of_mem _ hmem)
    unfold Keyset.each
    cases hopened : holding.opened with
    | none =>
      obtain ⟨counts, hhandle⟩ := @handle_skipped answers holding c hopened
      rw [hhandle, List.filterMap_cons_none hopened]
      exact ih (c := { c with counts := counts }) hc hrest
    | some entry =>
      obtain ⟨run, grant⟩ := entry
      obtain ⟨hrun, counts, hhandle⟩ := @handle_opened answers holding c run grant hopened
      have hmem : run ∈ c.db.runs := by
        rw [hc, ← hrun]
        exact hrows holding List.mem_cons_self
      have hsettles := @reconcile_settles (answers.record (c.presented.length + 1)) c.db run hmem grant
      have hruns := (@run_apart (answers.record (c.presented.length + 1)) _ _ c.db run.id (reconcile_concerns run.id grant)).1
      rw [hhandle, List.filterMap_cons_some hopened]
      cases hreconcile : (answers.record (c.presented.length + 1)).run (reconcile run.id grant) c.db with
      | mk r db =>
        rw [hreconcile] at hsettles hruns
        cases r with
        | error e =>
          have hnot : ¬ Settles (answers.record (c.presented.length + 1)) grant := fun h => nomatch hsettles.mpr h
          refine ⟨[(run, grant)], rfl, List.cons_prefix_cons.mpr ⟨rfl, List.nil_prefix⟩, nofun, fun _ hall => ?_, ?_⟩
          · exact hnot (allSettle_cons.mp hall).1
          · cases hfound : rest.filterMap Holding.opened with
            | nil => simp
            | cons next later =>
              rw [List.dropLast_cons_of_ne_nil (List.cons_ne_nil next later), allSettle_cons]
              exact ⟨fun heq => (nomatch (List.cons.inj heq).2), fun hall => (hnot hall.1).elim⟩
        | ok verdict =>
          have hholds : Settles (answers.record (c.presented.length + 1)) grant := hsettles.mp rfl
          obtain ⟨taken, hpresented, hbegins, hok, herror, hiff⟩ := ih (c := ⟨(run, grant) :: c.presented, counts, db⟩)
            (hruns.trans hc) hrest
          refine ⟨(run, grant) :: taken, ?_, List.cons_prefix_cons.mpr ⟨rfl, hbegins⟩, ?_, ?_, ?_⟩
          · simp only [Except.map, hpresented, List.reverse_cons, List.append_assoc, List.singleton_append]
          · intro hends
            obtain ⟨htaken, hall⟩ := hok hends
            exact ⟨congrArg _ htaken, allSettle_cons.mpr ⟨hholds, hall⟩⟩
          · exact fun hends hall => herror hends (allSettle_cons.mp hall).2
          · rw [List.cons_inj_right, hiff]
            exact (@allSettle_dropLast_append _ _ [(run, grant)] _ (allSettle_cons.mpr ⟨hholds, nofun⟩)).symm

theorem paged_presents {page pages asked : Nat} (hids : (runs.map (·.id)).Nodup) (hc : c.db.runs = runs)
    (hrows : ∀ holding ∈ rows, holding.run ∈ runs) (hpage : 0 < page) (hpages : rows.length < pages) : ∃ taken,
    (Keyset.paged (handle answers) answers.lost page pages asked rows c).2.presented = taken.reverse ++ c.presented ∧
      taken <+: rows.filterMap Holding.opened ∧
      (taken = rows.filterMap Holding.opened ↔ Undisturbed answers page asked (c.presented.length + 1) rows) := by
  induction pages generalizing asked rows c with
  | zero => omega
  | succ pages ih =>
    unfold Keyset.paged
    cases hlost : answers.lost asked with
    | some e =>
      refine ⟨[], rfl, List.nil_prefix, ?_⟩
      constructor
      · intro hnone
        refine ⟨by simp [← hnone], fun n hopen => absurd (opened_drop hnone.symm _) hopen⟩
      · rintro ⟨-, hanswered⟩
        by_contra hopen
        have hserved : answers.page asked = .served := hanswered 0 (by simpa [eq_comm] using hopen)
        rw [lost_eq_none_iff.mpr hserved] at hlost
        cases hlost
    | none =>
      have hserved := lost_eq_none_iff.mp hlost
      have htake : ∀ holding ∈ rows.take page, holding.run ∈ runs := fun holding hmem => hrows holding (List.mem_of_mem_take hmem)
      have hkept := (shrinking answers hids).each_keeps hc htake
      obtain ⟨taken, hpresented, hbegins, hok, herror, hiff⟩ := @each_presents answers c _ _ hc htake
      rw [Undisturbed, opened_split rows page, pages_split hserved]
      cases heach : Keyset.each (handle answers) (rows.take page) c with
      | mk r c' =>
        rw [heach] at hpresented hok herror hkept
        cases r with
        | error e =>
          refine ⟨taken, hpresented, hbegins.trans (List.prefix_append _ _), ?_⟩
          cases hrest : (rows.drop page).filterMap Holding.opened with
          | nil =>
            rw [List.append_nil, hiff]
            exact (and_iff_left fun n hopen => absurd (opened_drop hrest _) hopen).symm
          | cons next later =>
            constructor
            · intro htaken
              have hlength := hbegins.length_le
              rw [htaken, List.length_append, List.length_cons] at hlength
              omega
            · rintro ⟨hall, -⟩
              rw [List.dropLast_append_of_ne_nil (List.cons_ne_nil next later), allSettle_append] at hall
              exact (herror (by simp) hall.1).elim
        | ok u =>
          obtain ⟨rfl, hall⟩ := hok rfl
          rw [allSettle_dropLast_append hall]
          by_cases hshort : (rows.take page).length < page
          · simp only [if_pos hshort]
            have hdone : rows.drop page = [] := by
              rw [List.length_take] at hshort
              exact List.drop_eq_nil_of_le (by omega)
            refine ⟨_, hpresented, List.prefix_append _ _, ?_⟩
            simp [hdone]
          · simp only [if_neg hshort]
            rw [List.length_take] at hshort
            obtain ⟨later, hlater, hfollows, hrest⟩ := @ih c' (rows.drop page) (asked + 1) hkept
              (fun holding hmem => hrows holding (List.mem_of_mem_drop hmem)) (by rw [List.length_drop]; omega)
            refine ⟨(rows.take page).filterMap Holding.opened ++ later, ?_, (List.prefix_append_right_inj _).mpr hfollows, ?_⟩
            · rw [hlater, hpresented, List.reverse_append, List.append_assoc]
            · rw [List.append_right_inj, hrest, Undisturbed, hpresented, List.length_append, List.length_reverse]
              rw [Nat.add_comm _ c.presented.length, Nat.add_right_comm]

theorem opened_run {entry : RunRow × QASshGrant} (h : holding.opened = some entry) : entry.1 = holding.run := by
  unfold Holding.opened at h
  split at h
  · cases h
  · split at h
    · rw [← Option.some.inj h]
    · cases h

theorem openRecords_nodup (hids : (s.runs.map (·.id)).Nodup) : (s.openRecords.map (·.1.id)).Nodup := by
  have hordered : s.ordered.Pairwise fun holding other => holding.run.id ≠ other.run.id := by
    have hnodup := ((oldestFirst_perm s.selected).map (·.run.id)).nodup_iff.mpr (selected_ids_nodup hids)
    exact List.pairwise_map.mp hnodup
  apply List.pairwise_map.mpr
  apply List.pairwise_filterMap.mpr
  apply hordered.imp
  intro holding other hne entry hentry entry' hentry'
  rw [opened_run hentry, opened_run hentry']
  exact hne

theorem ordered_length : s.ordered.length ≤ s.runs.length := by
  have hselected : s.selected.length ≤ s.runs.length := List.length_filterMap_le _ _
  have hsorted : s.ordered.length = s.selected.length := (oldestFirst_perm s.selected).length_eq
  omega

variable (answers) in
theorem sweep_paged {page : Nat} (pages : Nat) (hids : (s.runs.map (·.id)).Nodup) (hpage : 0 < page) : sweep answers page pages s =
    Keyset.paged (handle answers) answers.lost page pages 1 s.ordered ⟨[], noCounts, s⟩ := by
  have hall : Keyset.ahead Holding.position none s.ordered = s.ordered := List.filter_eq_self.mpr fun _ _ => rfl
  have hwalk : sweep answers page pages s = Keyset.paged (handle answers) answers.lost page pages 1
      (Keyset.ahead Holding.position none s.ordered) ⟨[], noCounts, s⟩ := (shrinking answers hids).walk_eq rfl hpage
  rw [hwalk, hall]

/-- A cycle ends, whatever the size of its pages. It hands on the open records in their order, none twice; and all of them
exactly where nothing fails that an open record depends on. -/
theorem sweep_presents_all_iff (answers : Answers) (s : State) (page pages : Nat)
    (hids : (s.runs.map (·.id)).Nodup) (hpage : 0 < page) (hpages : s.runs.length < pages) :
    (sweep answers page pages s).1.isSome = true ∧
      (sweep answers page pages s).2.presented.reverse <+: s.openRecords ∧
      ((sweep answers page pages s).2.presented.map (·.1.id)).Nodup ∧
      ((sweep answers page pages s).2.presented.reverse = s.openRecords ↔ Undisturbed answers page 1 1 s.ordered) := by
  have hlength : s.ordered.length < pages := ordered_length.trans_lt hpages
  have hwalk := sweep_paged answers pages hids hpage
  have hruns : ∀ holding ∈ s.ordered, holding.run ∈ s.runs := fun holding hmem => mem_selected_runs (mem_ordered.mp hmem)
  obtain ⟨taken, hpresented, hbegins, hiff⟩ := @paged_presents answers ⟨[], noCounts, s⟩ _ s.runs page pages 1 hids rfl
    hruns hpage hlength
  have htaken : (sweep answers page pages s).2.presented.reverse = taken := by
    rw [hwalk, hpresented, List.append_nil, List.reverse_reverse]
  refine ⟨?_, htaken ▸ hbegins, ?_, htaken ▸ hiff⟩
  · rw [hwalk]
    exact Keyset.paged_ends hpage hlength
  · have hnodup := (hbegins.sublist.map (·.1.id)).nodup (openRecords_nodup hids)
    rw [← htaken, List.map_reverse] at hnodup
    exact List.nodup_reverse.mp hnodup

end Cycles

section Program

variable {answers : Answers}

def Cycle.ending (ends : Except Exn Unit) (asked : Asked) (c : Cycle) : Except Exn Counts × Asked × State :=
  (ends.map fun _ => c.counts, asked, c.db)

theorem reconcileEach_alone (rows : List Holding) (pages : Nat) (c : Cycle) :
    alone answers (reconcileEach rows c.counts) ⟨pages, c.presented.length⟩ c.db =
      (Keyset.each (handle answers) rows c).2.ending (Keyset.each (handle answers) rows c).1
        ⟨pages, (Keyset.each (handle answers) rows c).2.presented.length⟩ := by
  induction rows generalizing c with
  | nil => rfl
  | cons holding rest ih =>
    obtain ⟨run, record⟩ := holding
    cases record with
    | unreadable text => exact ih { c with counts := { c.counts with unreadable := c.counts.unreadable + 1 } }
    | grant grant =>
      simp only [reconcileEach, Keyset.each, handle]
      by_cases hheld : grant.held = true
      · have halone := @reconcile_alone answers ⟨pages, c.presented.length⟩ c.db run.id grant
        rw [if_pos hheld, if_pos hheld]
        cases hrun : (answers.record (c.presented.length + 1)).run (reconcile run.id grant) c.db with
        | mk r db =>
          rw [hrun] at halone
          cases r with
          | error e =>
            rw [alone_bind_error halone]
            rfl
          | ok verdict =>
            rw [alone_bind_ok halone]
            exact ih ⟨(run, grant) :: c.presented, { c.counts with seen := c.counts.seen + 1 }.add verdict, db⟩
      · rw [if_neg hheld, if_neg hheld]
        exact ih c

theorem advance_map (rows : List Holding) (after : Option RunRow) :
    Keyset.advance Holding.position rows (after.map RunRow.position) = ((rows.getLast?.map (·.run)).or after).map RunRow.position := by
  unfold Keyset.advance
  cases rows.getLast? with
  | none | some holding => rfl

theorem listing_alone {A : Type} (limit : Nat) (after : Option RunRow) (f : List Holding → Job A) (asked : Asked) (s : State) :
    alone answers ((perform (.listHolding limit after)).bind f) asked s =
      (answers.lost (asked.pages + 1)).elim (alone answers (f (s.listHolding limit after)) ⟨asked.pages + 1, asked.records⟩ s)
        fun e => (.error e, ⟨asked.pages + 1, asked.records⟩, s) := by
  have hcall : alone answers ((perform (.listHolding limit after)).bind f) asked s =
      alone answers ((Prog.ofExcept (I := qaInterface) (answers.reply ⟨asked.pages + 1, asked.records⟩ s (.listHolding limit after)).1).bind f)
        ⟨asked.pages + 1, asked.records⟩ (answers.reply ⟨asked.pages + 1, asked.records⟩ s (.listHolding limit after)).2 := by
    rw [perform_eq]
    rfl
  rw [hcall, Answers.lost]
  simp only [Answers.reply]
  cases answers.page (asked.pages + 1) <;> rfl

/-- The program of the sweep walks so. -/
theorem sweepQaSshGrants_alone {runs : List RunRow} (hids : (runs.map (·.id)).Nodup) (pages asked : Nat) (after : Option RunRow)
    (c : Cycle) (hc : c.db.runs = runs) : ∃ ends swept asked',
    Keyset.walk Holding.position (fun c : Cycle => c.db.ordered) (handle answers) answers.lost grantSweepPage pages (asked + 1)
      (after.map RunRow.position) c = (ends, swept) ∧
    alone answers (sweepQaSshGrants pages after c.counts) ⟨asked, c.presented.length⟩ c.db = swept.ending (ends.getD (.ok ())) asked' := by
  induction pages generalizing asked after c with
  | zero => exact ⟨none, c, _, rfl, rfl⟩
  | succ pages ih =>
    have hids' : (c.db.runs.map (·.id)).Nodup := hc ▸ hids
    have hpage := listHolding_eq hids' grantSweepPage after
    unfold sweepQaSshGrants Keyset.walk
    cases hlost : answers.lost (asked + 1) with
    | some e =>
      rw [listing_alone, hlost]
      exact ⟨some (.error e), c, ⟨asked + 1, c.presented.length⟩, rfl, rfl⟩
    | none =>
      have hrows := @reconcileEach_alone answers (c.db.listHolding grantSweepPage after) (asked + 1) c
      have hmem : ∀ holding ∈ c.db.listHolding grantSweepPage after, holding.run ∈ runs := by
        intro holding hholding
        rw [hpage] at hholding
        have hordered := (Keyset.mem_ahead.mp (List.mem_of_mem_take hholding)).1
        exact hc ▸ mem_selected_runs (mem_ordered.mp hordered)
      have hkept := (shrinking answers hids).each_keeps hc hmem
      rw [listing_alone, hlost, Option.elim_none]
      simp only [← hpage]
      cases heach : Keyset.each (handle answers) (c.db.listHolding grantSweepPage after) c with
      | mk r c' =>
        rw [heach] at hrows hkept
        cases r with
        | error e =>
          rw [alone_bind_error hrows]
          exact ⟨some (.error e), c', _, rfl, rfl⟩
        | ok u =>
          rw [alone_bind_ok hrows]
          by_cases hshort : (c.db.listHolding grantSweepPage after).length < grantSweepPage
          · simp only [if_pos hshort]
            exact ⟨some (.ok ()), c', _, rfl, rfl⟩
          · simp only [if_neg hshort, advance_map]
            exact ih (asked + 1) _ c' hkept

end Program

def leftGrant (marker : String) : QASshGrant := ⟨marker, "vps-1", "10.0.0.5", "root", "codegen-qa", .opened, 10, 0, none⟩

def twoGrants : State :=
  ⟨[⟨"qa-1", 1⟩, ⟨"qa-2", 2⟩], fun runId => if runId = "qa-1" then some (.grant (leftGrant "codegen-qa-run-5f1c"))
    else if runId = "qa-2" then some (.grant (leftGrant "codegen-qa-run-7a20")) else none, fun _ _ => .absent, []⟩

/-- Everything is answered, but for the key of one record. -/
def answering (lost : Nat) : Answers where
  page _ := .served
  record n := ⟨if n = lost then .error (.http 500) else .ok (some "fleet"), .ok ⟨0, some 0, "0"⟩, .served, .ok ()⟩

theorem twoGrants_ordered : twoGrants.ordered = twoGrants.selected := by
  apply List.mergeSort_of_pairwise
  decide +kernel

/-- The key of the first record cannot be asked for, and the second is not handed on. -/
theorem lost_key_ends_cycle : (sweep (answering 1) grantSweepPage 3 twoGrants).2.presented.map (·.1.id) = ["qa-1"] ∧
    twoGrants.openRecords.map (·.1.id) = ["qa-1", "qa-2"] ∧
    ¬ (sweep (answering 1) grantSweepPage 3 twoGrants).2.presented.reverse = twoGrants.openRecords := by
  rw [sweep_paged _ _ (by decide) (by decide), State.openRecords, twoGrants_ordered]
  decide +kernel

theorem two_grants_swept : (sweep (answering 2) 1 3 twoGrants).1.isSome = true ∧
    (sweep (answering 2) 1 3 twoGrants).2.presented.reverse <+: twoGrants.openRecords ∧
    ((sweep (answering 2) 1 3 twoGrants).2.presented.map (·.1.id)).Nodup ∧
    ((sweep (answering 2) 1 3 twoGrants).2.presented.reverse = twoGrants.openRecords ↔
      Undisturbed (answering 2) 1 1 1 twoGrants.ordered) :=
  sweep_presents_all_iff (answering 2) twoGrants 1 3 (by decide) (by decide) (by decide)

end Orchestrator.Qa
