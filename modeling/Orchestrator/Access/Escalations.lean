import Orchestrator.Access.Readings

/-!
How often the administrator is called for a grant. An episode of a grant starts
when it is recorded and again when a reading opens it after it was closed.
-/

namespace Orchestrator.Access

open Async Contracts
open Api (TemporaryAccessStatus TemporaryAccessEscalation)

def reopens (grantId : String) (before after : TemporaryAccessGrant) : Bool :=
  before.id == grantId && before.status == .revoked && after.status != .revoked

def escalations (grantId : String) : List Event → Nat
  | [] => 0
  | .created created :: older => if created = grantId then 0 else escalations grantId older
  | .escalated escalated :: older => escalations grantId older + if escalated = grantId then 1 else 0
  | .read _ before after _ :: older => if reopens grantId before after then 0 else escalations grantId older
  | _ :: older => escalations grantId older

def Marked (trace : List Event) (grant : TemporaryAccessGrant) : Prop :=
  escalations grant.id trace = if grant.escalatedAt.isSome then 1 else 0

/-- Within one episode of a grant an escalation is recorded at most once, and a
revoke that failed with its retries spent calls the administrator exactly if
none is. -/
structure CalledOnce (trace : List Event) : Prop where
  once : ∀ grantId newer older, trace = newer ++ older → escalations grantId older ≤ 1
  spent : ∀ grantId calls newer older, trace = newer ++ .failed grantId true calls :: older →
    escalations grantId older = if calls then 0 else 1

theorem CalledOnce.nil : CalledOnce [] := by
  refine ⟨fun grantId newer older h => ?_, fun grantId calls newer older h => ?_⟩
  · rw [(List.append_eq_nil_iff.mp h.symm).2]
    exact Nat.zero_le 1
  · simp at h

theorem CalledOnce.cons {trace : List Event} {event : Event} (h : CalledOnce trace)
    (honce : ∀ grantId, escalations grantId (event :: trace) ≤ 1)
    (hspent : ∀ grantId calls, event = .failed grantId true calls →
      escalations grantId trace = if calls then 0 else 1) : CalledOnce (event :: trace) := by
  refine ⟨fun grantId newer older hsplit => ?_, fun grantId calls newer older hsplit => ?_⟩
  · cases newer with
    | nil =>
      rw [List.nil_append] at hsplit
      rw [← hsplit]
      exact honce grantId
    | cons first newer => exact h.once grantId newer older (List.cons.inj hsplit).2
  · cases newer with
    | nil =>
      obtain ⟨rfl, rfl⟩ := List.cons.inj hsplit
      exact hspent grantId calls rfl
    | cons first newer => exact h.spent grantId calls newer older (List.cons.inj hsplit).2

theorem CalledOnce.le_one {trace : List Event} (h : CalledOnce trace) (grantId : String) :
    escalations grantId trace ≤ 1 := h.once grantId [] trace rfl

section Rows

variable {grantId : String} {grant row : TemporaryAccessGrant} {now : Time}
  {observation : TemporaryAccessObservation}

theorem escalateRow_marked {error : String} (h : escalateRow grantId error now grant = .ok row) :
    row.id = grant.id ∧ row.escalatedAt.isSome = true ∧ (grant.escalatedAt = none → grant.status ≠ .revoked) := by
  unfold escalateRow at h
  split at h
  · cases h
  next hstatus =>
  cases h
  refine ⟨rfl, ?_, fun _ => hstatus⟩
  cases grant.escalatedAt <;> rfl

theorem readOpenGrant_escalatedAt (h : readOpenGrant grantId observation now grant = .ok row) :
    row.escalatedAt = grant.escalatedAt := by
  have hcount : (countClear now (stampReading observation now grant)).escalatedAt = grant.escalatedAt := by
    unfold countClear stampReading
    cases grant.slotClearSince <;> rfl
  rcases readOpenGrant_cases h with ⟨_, rfl⟩ | ⟨_, rfl⟩ | ⟨_, _, rfl⟩
  · rfl
  · exact hcount
  · exact hcount

theorem readClosedGrant_escalatedAt (observation : TemporaryAccessObservation) (now : Time) (owned : Bool)
    (grant : TemporaryAccessGrant) : (readClosedGrant observation now owned grant).escalatedAt = grant.escalatedAt := by
  rcases readClosedGrant_cases observation now owned grant with ⟨_, h⟩ | ⟨_, _, h⟩ | ⟨_, _, h⟩ <;> rw [h] <;> rfl

end Rows

end Orchestrator.Access
