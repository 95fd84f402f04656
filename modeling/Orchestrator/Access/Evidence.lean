import Mathlib.Data.List.Infix
import Mathlib.Data.List.TakeWhile
import Orchestrator.Access.Requests

/-!
What closes a grant. Beside the rows a journal keeps every reading that was
recorded of each grant; the count and the moment that a row carries speak of
the clear readings at the top of that journal.
-/

namespace Orchestrator.Access

open Contracts
open Api (TemporaryAccessStatus TemporaryAccessEscalation)

structure Reading where
  observationId : String
  present : Bool
  moment : Time
deriving DecidableEq

def streak (readings : List Reading) : List Reading := readings.takeWhile fun reading => !reading.present

variable {J : Type} {reading : Reading} {readings : List Reading}

@[simp] theorem streak_present (h : reading.present = true) : streak (reading :: readings) = [] := by
  simp [streak, h]

@[simp] theorem streak_clear (h : reading.present = false) :
    streak (reading :: readings) = reading :: streak readings := by
  simp [streak, h]

theorem streak_clear_of_mem (h : reading ∈ streak readings) : reading.present = false := by
  simpa using List.mem_takeWhile_imp h

def recorded (before after : Grants) (now : Time) : Request J → Option (String × Reading)
  | .observe grantId observation =>
    if (before.find grantId).any (·.observationId ≠ some observation.observationId) ∧
        (after.find grantId).any (·.observationId = some observation.observationId) then
      some (grantId, ⟨observation.observationId, observation.present, now⟩)
    else none
  | _ => none

structure Journal (J : Type) where
  database : Database J
  readings : String → List Reading

namespace Journal

def opening (runs : String → Option (Api.Run J)) : Journal J := ⟨⟨runs, []⟩, fun _ => []⟩

def serve (journal : Journal J) (request : Request J) (now : Time) : Journal J where
  database := journal.database.serve request now
  readings := match recorded journal.database.grants (journal.database.serve request now).grants now request with
    | none => journal.readings
    | some (grantId, reading) => Function.update journal.readings grantId (reading :: journal.readings grantId)

def serveAll (journal : Journal J) (requests : List (Request J × Time)) : Journal J :=
  requests.foldl (fun journal served => journal.serve served.1 served.2) journal

/-- No clear reading of a grant that is being revoked repeats the name of one
its streak has counted. The latest is no matter: repeating it is not counted. -/
def Distinct (journal : Journal J) : Request J → Prop
  | .observe grantId observation => ∀ grant, journal.database.grants.find grantId = some grant →
      grant.status = .revoking → observation.present = false →
        observation.observationId ∉ (streak (journal.readings grantId)).tail.map (·.observationId)
  | _ => True

def AllDistinct (journal : Journal J) : List (Request J × Time) → Prop
  | [] => True
  | (request, now) :: requests => journal.Distinct request ∧ (journal.serve request now).AllDistinct requests

structure Confirms (run : List Reading) : Prop where
  clear : ∀ reading ∈ run, reading.present = false
  distinct : (run.map (·.observationId)).Nodup
  enough : revokeConfirmationReadings ≤ run.length
  apart : ∃ first ∈ run.getLast?, ∃ last ∈ run.head?, first.moment + revokeConfirmationWindow ≤ last.moment

structure Evidence (journal : Journal J) (request : Request J) (now : Time) : Prop where
  created : ∀ grantId new, journal.database.grants.find grantId = none →
    (journal.serve request now).database.grants.find grantId = some new → new.status ≠ .revoked
  closed : ∀ grantId old new, journal.database.grants.find grantId = some old →
    (journal.serve request now).database.grants.find grantId = some new → old.status ≠ .revoked →
    new.status = .revoked → ∃ observation, request = .observe grantId observation ∧ observation.present = false ∧
      ∃ run, run <+: (journal.serve request now).readings grantId ∧ Confirms run ∧
        run.head? = some ⟨observation.observationId, false, now⟩
  reopened : ∀ grantId old new, journal.database.grants.find grantId = some old →
    (journal.serve request now).database.grants.find grantId = some new → old.status = .revoked →
    new.status ≠ .revoked → ∃ observation, request = .observe grantId observation ∧ observation.present = true ∧
      ∀ other ∈ journal.database.grants, other.live = true → other.slot ≠ old.slot

end Journal

section Rows

variable {grantId : String} {now : Time} {grant row : TemporaryAccessGrant}
  {observation : TemporaryAccessObservation}

theorem requireReadable_revoking (h : requireReadable grantId observation grant = .ok ())
    (hopen : grant.status ≠ .revoked) : grant.status = .revoking := by
  unfold requireReadable at h
  split at h
  · cases h
  split at h
  · cases h
  split at h
  · cases h
  next hsettling =>
  by_contra hother
  exact hsettling ⟨hother, hopen⟩

theorem updateRow_keeps {update : TemporaryAccessGrantUpdate} (h : updateRow grantId update now grant = .ok row) :
    grant.status ≠ .revoked ∧ row.status ≠ .revoked ∧ row.id = grant.id ∧ row.slot = grant.slot ∧
      row.observationId = grant.observationId ∧ row.slotClearSince = grant.slotClearSince ∧
      row.slotClearReadings = grant.slotClearReadings := by
  unfold updateRow at h
  split at h
  · cases h
  next hstatus =>
  obtain ⟨grantRunId, _, h⟩ := bind_ok h
  obtain ⟨revokeAttempts, _, h⟩ := bind_ok h
  cases h
  refine ⟨hstatus, ?_, rfl, rfl, rfl, rfl, rfl⟩
  cases update.status with
  | none => exact hstatus
  | some status => exact status.property

theorem escalateRow_keeps {error : String} (h : escalateRow grantId error now grant = .ok row) :
    grant.status ≠ .revoked ∧ row.status ≠ .revoked ∧ row.id = grant.id ∧ row.slot = grant.slot ∧
      row.observationId = grant.observationId ∧ row.slotClearSince = grant.slotClearSince ∧
      row.slotClearReadings = grant.slotClearReadings := by
  unfold escalateRow at h
  split at h
  · cases h
  next hstatus =>
  cases h
  exact ⟨hstatus, nofun, rfl, rfl, rfl, rfl, rfl⟩

theorem readOpenGrant_cases (h : readOpenGrant grantId observation now grant = .ok row) :
    (observation.present = true ∧ row = clearStreak (stampReading observation now grant)) ∨
    (observation.present = false ∧ row = countClear now (stampReading observation now grant)) ∨
    (observation.present = false ∧ confirmed now (countClear now (stampReading observation now grant)) = true ∧
      row = { countClear now (stampReading observation now grant) with status := .revoked, revokedAt := some now }) := by
  unfold readOpenGrant at h
  split at h
  · next hpresent =>
    cases h
    exact .inl ⟨hpresent, rfl⟩
  next hclear =>
  rw [Bool.not_eq_true] at hclear
  dsimp only at h
  split at h
  · next hconfirmed =>
    split at h
    · cases h
    · cases h
      exact .inr (.inr ⟨hclear, hconfirmed, rfl⟩)
  · cases h
    exact .inr (.inl ⟨hclear, rfl⟩)

theorem readClosedGrant_cases (observation : TemporaryAccessObservation) (now : Time) (owned : Bool)
    (grant : TemporaryAccessGrant) :
    (observation.present = false ∧ readClosedGrant observation now owned grant =
      { stampReading observation now grant with slotClearReadings := grant.slotClearReadings + 1 }) ∨
    (observation.present = true ∧ owned = true ∧
      readClosedGrant observation now owned grant = stampReading observation now grant) ∨
    (observation.present = true ∧ owned = false ∧
      readClosedGrant observation now owned grant = reopen observation now (stampReading observation now grant)) := by
  unfold readClosedGrant
  cases observation.present <;> cases owned <;> simp [stampReading]

theorem countClear_id (now : Time) (grant : TemporaryAccessGrant) : (countClear now grant).id = grant.id := by
  unfold countClear
  split <;> rfl

theorem countClear_status (now : Time) (grant : TemporaryAccessGrant) :
    (countClear now grant).status = grant.status := by
  unfold countClear
  split <;> rfl

theorem countClear_observationId (now : Time) (grant : TemporaryAccessGrant) :
    (countClear now grant).observationId = grant.observationId := by
  unfold countClear
  split <;> rfl

theorem rewrites_id {db : Database J} {request : Request J} (h : db.Rewrites now request grantId grant row) :
    row.id = grant.id := by
  cases h with
  | update h => exact (updateRow_keeps h).2.2.1
  | escalate h => exact (escalateRow_keeps h).2.2.1
  | readOpen _ _ _ h =>
    rcases readOpenGrant_cases h with ⟨_, rfl⟩ | ⟨_, rfl⟩ | ⟨_, _, rfl⟩
    · rfl
    · exact countClear_id ..
    · exact countClear_id now (stampReading _ now grant)
  | @readClosed _ observation _ owner _ _ _ _ =>
    rcases readClosedGrant_cases observation now owner.isSome grant with ⟨_, h⟩ | ⟨_, _, h⟩ | ⟨_, _, h⟩ <;> rw [h] <;> rfl

theorem readOpenGrant_observationId (h : readOpenGrant grantId observation now grant = .ok row) :
    row.observationId = some observation.observationId := by
  rcases readOpenGrant_cases h with ⟨_, rfl⟩ | ⟨_, rfl⟩ | ⟨_, _, rfl⟩
  · rfl
  · exact countClear_observationId ..
  · exact countClear_observationId now (stampReading observation now grant)

theorem readClosedGrant_observationId (observation : TemporaryAccessObservation) (now : Time) (owned : Bool)
    (grant : TemporaryAccessGrant) :
    (readClosedGrant observation now owned grant).observationId = some observation.observationId := by
  rcases readClosedGrant_cases observation now owned grant with ⟨_, h⟩ | ⟨_, _, h⟩ | ⟨_, _, h⟩ <;> rw [h] <;> rfl

end Rows

namespace Journal

variable {journal : Journal J} {request : Request J} {now : Time}

inductive Turns (journal : Journal J) (request : Request J) (now : Time) (grantId : String) : Prop
  | kept (hrow : (journal.serve request now).database.grants.find grantId = journal.database.grants.find grantId)
      (hreadings : (journal.serve request now).readings grantId = journal.readings grantId)
  | created {grantIn : TemporaryAccessGrantCreate} (hnew : journal.database.grants.find grantId = none)
      (hrow : (journal.serve request now).database.grants.find grantId = some (grantIn.row now))
      (hreadings : (journal.serve request now).readings grantId = journal.readings grantId)
  | changed {grant row : TemporaryAccessGrant} (hgrant : journal.database.grants.find grantId = some grant)
      (hrow : (journal.serve request now).database.grants.find grantId = some row)
      (hbefore : grant.status ≠ .revoked) (hafter : row.status ≠ .revoked)
      (hlatest : row.observationId = grant.observationId) (hsince : row.slotClearSince = grant.slotClearSince)
      (hcount : row.slotClearReadings = grant.slotClearReadings)
      (hreadings : (journal.serve request now).readings grantId = journal.readings grantId)
  | readOpen {observation : TemporaryAccessObservation} {grant row : TemporaryAccessGrant}
      (hrequest : request = .observe grantId observation)
      (hgrant : journal.database.grants.find grantId = some grant)
      (hrow : (journal.serve request now).database.grants.find grantId = some row)
      (hreadable : requireReadable grantId observation grant = .ok ())
      (hnew : grant.observationId ≠ some observation.observationId) (hopen : grant.status ≠ .revoked)
      (h : readOpenGrant grantId observation now grant = .ok row)
      (hreadings : (journal.serve request now).readings grantId =
        ⟨observation.observationId, observation.present, now⟩ :: journal.readings grantId)
  | readClosed {observation : TemporaryAccessObservation} {grant : TemporaryAccessGrant}
      {owner : Option TemporaryAccessGrant} (hrequest : request = .observe grantId observation)
      (hgrant : journal.database.grants.find grantId = some grant)
      (hrow : (journal.serve request now).database.grants.find grantId =
        some (readClosedGrant observation now owner.isSome grant))
      (hclosed : grant.status = .revoked) (howner : journal.database.ownerFor observation grant = .ok owner)
      (hreadings : (journal.serve request now).readings grantId =
        ⟨observation.observationId, observation.present, now⟩ :: journal.readings grantId)

theorem serve_readings_of_none
    (h : recorded journal.database.grants (journal.serve request now).database.grants now request = none)
    (grantId : String) : (journal.serve request now).readings grantId = journal.readings grantId := by
  change (match recorded _ (journal.serve request now).database.grants now request with
    | none => journal.readings
    | some (grantId, reading) => Function.update journal.readings grantId (reading :: journal.readings grantId)) grantId = _
  rw [h]

theorem serve_readings_of_some {named : String} {reading : Reading}
    (h : recorded journal.database.grants (journal.serve request now).database.grants now request =
      some (named, reading)) (grantId : String) :
    (journal.serve request now).readings grantId =
      if grantId = named then reading :: journal.readings named else journal.readings grantId := by
  change (match recorded _ (journal.serve request now).database.grants now request with
    | none => journal.readings
    | some (grantId, reading) => Function.update journal.readings grantId (reading :: journal.readings grantId)) grantId = _
  rw [h]
  simp [Function.update_apply]

end Journal

theorem recorded_self (grants : Grants) (now : Time) (request : Request J) :
    recorded grants grants now request = none := by
  cases request with
  | observe grantId observation =>
    refine if_neg ?_
    rintro ⟨hnew, hold⟩
    cases h : grants.find grantId <;> simp_all
  | _ => rfl

theorem recorded_read {before after : Grants} {now : Time} {grantId : String} {grant row : TemporaryAccessGrant}
    {observation : TemporaryAccessObservation} (hgrant : before.find grantId = some grant)
    (hrow : after.find grantId = some row) (hnew : grant.observationId ≠ some observation.observationId)
    (htaken : row.observationId = some observation.observationId) :
    recorded before after now (.observe grantId observation : Request J) =
      some (grantId, ⟨observation.observationId, observation.present, now⟩) :=
  if_pos ⟨by simpa [hgrant] using hnew, by simp [hrow, htaken]⟩

namespace Journal

variable {journal : Journal J} {request : Request J} {now : Time}

theorem serve_turns (journal : Journal J) (request : Request J) (now : Time) (grantId : String) :
    journal.Turns request now grantId := by
  have hserved : journal.database.Served journal.database request now (journal.serve request now).database.grants :=
    Database.serve_served
  cases hserved with
  | unchanged h =>
    exact .kept (by rw [h]) (serve_readings_of_none (by rw [h]; exact recorded_self ..) grantId)
  | @created grantIn _ hrequest hnew _ h =>
    have hreadings : (journal.serve request now).readings grantId = journal.readings grantId :=
      serve_readings_of_none (by rw [hrequest]; rfl) grantId
    by_cases hid : grantId = grantIn.id
    · subst hid
      have hrow : Grants.find (journal.database.grants ++ [grantIn.row now]) grantIn.id = some (grantIn.row now) :=
        Grants.find_append_self hnew
      exact .created hnew (by rw [h, hrow]) hreadings
    · have hrow : Grants.find (journal.database.grants ++ [grantIn.row now]) grantId =
          journal.database.grants.find grantId := Grants.find_append_of_ne hid
      exact .kept (by rw [h, hrow]) hreadings
  | @rewritten named grant row hgrant hrow _ h =>
    have hnamed : row.id = named := (rewrites_id hrow).trans (Grants.find_id hgrant)
    have hself : (journal.serve request now).database.grants.find named = some row := by
      subst hnamed
      rw [h]
      exact Grants.find_replace_self hgrant
    have hother : grantId ≠ named →
        (journal.serve request now).database.grants.find grantId = journal.database.grants.find grantId := by
      intro hne
      rw [h]
      exact Grants.find_replace_of_ne (hnamed ▸ hne)
    cases hrow with
    | @update _ update _ _ hrow =>
      have hreadings : (journal.serve (.update named update) now).readings grantId = journal.readings grantId :=
        serve_readings_of_none rfl grantId
      by_cases hid : grantId = named
      · obtain ⟨hbefore, hafter, _, _, hlatest, hsince, hcount⟩ := updateRow_keeps hrow
        subst hid
        exact .changed hgrant hself hbefore hafter hlatest hsince hcount hreadings
      · exact .kept (hother hid) hreadings
    | @escalate _ escalation _ _ hrow =>
      have hreadings : (journal.serve (.escalate named escalation) now).readings grantId = journal.readings grantId :=
        serve_readings_of_none rfl grantId
      by_cases hid : grantId = named
      · obtain ⟨hbefore, hafter, _, _, hlatest, hsince, hcount⟩ := escalateRow_keeps hrow
        subst hid
        exact .changed hgrant hself hbefore hafter hlatest hsince hcount hreadings
      · exact .kept (hother hid) hreadings
    | readOpen hreadable hnew hopen hrow =>
      have hreadings := serve_readings_of_some (recorded_read hgrant hself hnew (readOpenGrant_observationId hrow)) grantId
      by_cases hid : grantId = named
      · subst hid
        exact .readOpen rfl hgrant hself hreadable hnew hopen hrow (by simpa using hreadings)
      · exact .kept (hother hid) (by simpa [hid] using hreadings)
    | readClosed hreadable hnew hclosed howner =>
      have hreadings := serve_readings_of_some
        (recorded_read hgrant hself hnew (readClosedGrant_observationId ..)) grantId
      by_cases hid : grantId = named
      · subst hid
        exact .readClosed rfl hgrant hself hclosed howner (by simpa using hreadings)
      · exact .kept (hother hid) (by simpa [hid] using hreadings)

structure Counts (grant : TemporaryAccessGrant) (readings : List Reading) : Prop where
  since : grant.slotClearSince = (streak readings).getLast?.map (·.moment)
  count : grant.slotClearReadings = (streak readings).length
  distinct : ((streak readings).map (·.observationId)).Nodup

structure Kept (journal : Journal J) : Prop where
  latest : ∀ grantId grant, journal.database.grants.find grantId = some grant →
    grant.observationId = (journal.readings grantId).head?.map (·.observationId)
  counts : ∀ grantId grant, journal.database.grants.find grantId = some grant → grant.status ≠ .revoked →
    Counts grant (journal.readings grantId)
  unread : ∀ grantId, journal.database.grants.find grantId = none → journal.readings grantId = []

theorem opening_find (runs : String → Option (Api.Run J)) (grantId : String) :
    (opening runs).database.grants.find grantId = none := rfl

theorem opening_kept (runs : String → Option (Api.Run J)) : (opening runs).Kept where
  latest grantId grant h := by rw [opening_find] at h; cases h
  counts grantId grant h := by rw [opening_find] at h; cases h
  unread _ _ := rfl

variable {grant : TemporaryAccessGrant}

variable {readings : List Reading}

theorem clearStreak_counts {reading : Reading}
    (hpresent : reading.present = true) (hsince : grant.slotClearSince = none) (hcount : grant.slotClearReadings = 0) :
    Counts grant (reading :: readings) := by
  have hnil : streak (reading :: readings) = [] := streak_present hpresent
  exact ⟨by rw [hnil, hsince]; rfl, by rw [hnil, hcount]; rfl, by rw [hnil]; exact .nil⟩

theorem countClear_counts {now : Time}
    {observation : TemporaryAccessObservation} (h : Counts grant readings)
    (hclear : observation.present = false)
    (hdistinct : observation.observationId ∉ (streak readings).map (·.observationId)) :
    Counts (countClear now (stampReading observation now grant))
      (⟨observation.observationId, observation.present, now⟩ :: readings) := by
  obtain ⟨hsince, hcount, hnodup⟩ := h
  have hcons : streak (⟨observation.observationId, observation.present, now⟩ :: readings) =
      ⟨observation.observationId, observation.present, now⟩ :: streak readings := streak_clear hclear
  refine ⟨?_, ?_, ?_⟩
  · rw [hcons]
    cases hs : streak readings with
    | nil => simp [countClear, stampReading, hsince, hs]
    | cons first rest => simp [countClear, stampReading, hsince, hs, List.getLast?_cons]
  · rw [hcons]
    cases hs : streak readings with
    | nil => simp [countClear, stampReading, hsince, hs]
    | cons first rest => simp [countClear, stampReading, hsince, hs, hcount, List.getLast?_cons]
  · rw [hcons, List.map_cons, List.nodup_cons]
    exact ⟨hdistinct, hnodup⟩

theorem notMem_streak {observationId : String}
    (hlatest : grant.observationId = readings.head?.map (·.observationId))
    (hnew : grant.observationId ≠ some observationId)
    (hdistinct : observationId ∉ (streak readings).tail.map (·.observationId)) :
    observationId ∉ (streak readings).map (·.observationId) := by
  cases readings with
  | nil => simp [streak]
  | cons first rest =>
    cases hpresent : first.present with
    | true => simp [streak_present hpresent]
    | false =>
      rw [streak_clear hpresent] at hdistinct ⊢
      rw [List.map_cons, List.mem_cons, not_or]
      refine ⟨?_, hdistinct⟩
      rintro rfl
      exact hnew hlatest

theorem serve_kept (h : journal.Kept) (hdistinct : journal.Distinct request) : (journal.serve request now).Kept := by
  refine ⟨fun grantId row hfind => ?_, fun grantId row hfind hlive => ?_, fun grantId hfind => ?_⟩
  · cases serve_turns journal request now grantId with
    | kept hrow hreadings =>
      rw [hreadings]
      exact h.latest grantId row (hrow ▸ hfind)
    | created hnew hrow hreadings =>
      cases hrow.symm.trans hfind
      rw [hreadings, h.unread grantId hnew]
      rfl
    | changed hgrant hrow _ _ hlatest _ _ hreadings =>
      cases hrow.symm.trans hfind
      rw [hreadings, hlatest]
      exact h.latest grantId _ hgrant
    | readOpen _ _ hrow _ _ _ hread hreadings =>
      cases hrow.symm.trans hfind
      rw [hreadings]
      exact readOpenGrant_observationId hread
    | readClosed _ _ hrow _ _ hreadings =>
      cases hrow.symm.trans hfind
      rw [hreadings]
      exact readClosedGrant_observationId ..
  · cases serve_turns journal request now grantId with
    | kept hrow hreadings =>
      rw [hreadings]
      exact h.counts grantId row (hrow ▸ hfind) hlive
    | created hnew hrow hreadings =>
      cases hrow.symm.trans hfind
      rw [hreadings, h.unread grantId hnew]
      exact ⟨rfl, rfl, .nil⟩
    | changed hgrant hrow hbefore _ _ hsince hcount hreadings =>
      cases hrow.symm.trans hfind
      obtain ⟨hs, hc, hd⟩ := h.counts grantId _ hgrant hbefore
      rw [hreadings]
      exact ⟨hsince.trans hs, hcount.trans hc, hd⟩
    | readOpen hrequest hgrant hrow hreadable hnew hopen hread hreadings =>
      cases hrow.symm.trans hfind
      rw [hreadings]
      rcases readOpenGrant_cases hread with ⟨hpresent, rfl⟩ | ⟨hclear, rfl⟩ | ⟨_, _, rfl⟩
      · exact clearStreak_counts hpresent rfl rfl
      · subst hrequest
        have hrevoking := requireReadable_revoking hreadable hopen
        exact countClear_counts (h.counts grantId _ hgrant hopen) hclear
          (notMem_streak (h.latest grantId _ hgrant) hnew (hdistinct _ hgrant hrevoking hclear))
      · exact absurd rfl hlive
    | @readClosed observation grant owner hrequest hgrant hrow hclosed howner hreadings =>
      cases hrow.symm.trans hfind
      rw [hreadings]
      rcases readClosedGrant_cases observation now owner.isSome grant with ⟨_, hr⟩ | ⟨_, _, hr⟩ | ⟨hpresent, _, hr⟩
      · rw [hr] at hlive
        exact absurd hclosed hlive
      · rw [hr] at hlive
        exact absurd hclosed hlive
      · rw [hr]
        exact clearStreak_counts hpresent rfl rfl
  · cases serve_turns journal request now grantId with
    | kept hrow hreadings =>
      rw [hreadings]
      exact h.unread grantId (hrow ▸ hfind)
    | created _ hrow _ => cases hrow.symm.trans hfind
    | changed _ hrow _ _ _ _ _ _ => cases hrow.symm.trans hfind
    | readOpen _ _ hrow _ _ _ _ _ => cases hrow.symm.trans hfind
    | readClosed _ _ hrow _ _ _ => cases hrow.symm.trans hfind

theorem confirmed_confirms {reading : Reading} {now : Time}
    (h : Counts grant (reading :: readings)) (hclear : reading.present = false) (hmoment : reading.moment = now)
    (hconfirmed : confirmed now grant = true) : Confirms (streak (reading :: readings)) := by
  obtain ⟨hsince, hcount, hdistinct⟩ := h
  simp only [confirmed, Bool.and_eq_true, decide_eq_true_eq] at hconfirmed
  obtain ⟨henough, hwindow⟩ := hconfirmed
  have hhead : (streak (reading :: readings)).head? = some reading := by rw [streak_clear hclear]; rfl
  refine ⟨fun _ hmem => streak_clear_of_mem hmem, hdistinct, hcount ▸ henough, ?_⟩
  rw [hsince] at hwindow
  cases hlast : (streak (reading :: readings)).getLast? with
  | none => simp [hlast] at hwindow
  | some first =>
    refine ⟨first, rfl, reading, hhead, ?_⟩
    rw [hmoment]
    simpa [hlast] using hwindow

theorem serve_evidence (h : journal.Kept) (hdistinct : journal.Distinct request) : journal.Evidence request now := by
  refine ⟨fun grantId new hnew hfind => ?_, fun grantId old new hold hfind hopen hrevoked => ?_,
    fun grantId old new hold hfind hclosed hopen => ?_⟩
  · cases serve_turns journal request now grantId with
    | kept hrow _ => cases hfind.symm.trans (hrow.trans hnew)
    | created _ hrow _ =>
      cases hrow.symm.trans hfind
      exact nofun
    | changed hgrant _ _ _ _ _ _ _ => cases hnew.symm.trans hgrant
    | readOpen _ hgrant _ _ _ _ _ _ => cases hnew.symm.trans hgrant
    | readClosed _ hgrant _ _ _ _ => cases hnew.symm.trans hgrant
  · cases serve_turns journal request now grantId with
    | kept hrow _ =>
      cases (hrow.trans hold).symm.trans hfind
      exact absurd hrevoked hopen
    | created hnew _ _ => cases hnew.symm.trans hold
    | changed _ hrow _ hafter _ _ _ _ =>
      cases hrow.symm.trans hfind
      exact absurd hrevoked hafter
    | @readOpen observation grant row hrequest hgrant hrow hreadable hnew _ hread hreadings =>
      cases hgrant.symm.trans hold
      cases hrow.symm.trans hfind
      have hrevoking := requireReadable_revoking hreadable hopen
      rcases readOpenGrant_cases hread with ⟨_, rfl⟩ | ⟨_, rfl⟩ | ⟨hclear, hconfirmed, rfl⟩
      · exact absurd hrevoked hopen
      · rw [countClear_status] at hrevoked
        exact absurd hrevoked hopen
      · subst hrequest
        have hcounts : Counts (countClear now (stampReading observation now old))
            (⟨observation.observationId, observation.present, now⟩ :: journal.readings grantId) :=
          countClear_counts (h.counts grantId _ hgrant hopen) hclear
            (notMem_streak (h.latest grantId _ hgrant) hnew (hdistinct _ hgrant hrevoking hclear))
        refine ⟨observation, rfl, hclear, _, ?_, confirmed_confirms hcounts hclear rfl hconfirmed, ?_⟩
        · rw [hreadings]
          exact List.takeWhile_prefix _
        · rw [streak_clear hclear, hclear]
          rfl
    | readClosed _ hgrant _ hclosed _ _ =>
      cases hgrant.symm.trans hold
      exact absurd hclosed hopen
  · cases serve_turns journal request now grantId with
    | kept hrow _ =>
      cases (hrow.trans hold).symm.trans hfind
      exact absurd hclosed hopen
    | created hnew _ _ => cases hnew.symm.trans hold
    | changed hgrant _ hbefore _ _ _ _ _ =>
      cases hgrant.symm.trans hold
      exact absurd hclosed hbefore
    | readOpen _ hgrant _ _ _ hbefore _ _ =>
      cases hgrant.symm.trans hold
      exact absurd hclosed hbefore
    | @readClosed observation grant owner hrequest hgrant hrow _ howner _ =>
      cases hgrant.symm.trans hold
      cases hrow.symm.trans hfind
      rcases readClosedGrant_cases observation now owner.isSome old with ⟨_, hr⟩ | ⟨_, _, hr⟩ | ⟨hpresent, hnone, _⟩
      · rw [hr] at hopen
        exact absurd hclosed hopen
      · rw [hr] at hopen
        exact absurd hclosed hopen
      · refine ⟨observation, hrequest, hpresent, Grants.owner_none ?_⟩
        rw [Database.ownerFor, if_pos hpresent] at howner
        rw [Option.isSome_eq_false_iff, Option.isNone_iff_eq_none] at hnone
        exact hnone ▸ howner

theorem serveAll_kept {requests : List (Request J × Time)} (h : journal.Kept) (hall : journal.AllDistinct requests) :
    (journal.serveAll requests).Kept := by
  induction requests generalizing journal with
  | nil => exact h
  | cons served requests ih => exact ih (serve_kept h hall.1) hall.2

theorem allDistinct_append {requests : List (Request J × Time)} {request : Request J} {now : Time} :
    journal.AllDistinct (requests ++ [(request, now)]) ↔
      journal.AllDistinct requests ∧ (journal.serveAll requests).Distinct request := by
  induction requests generalizing journal with
  | nil => simp [AllDistinct, serveAll]
  | cons served requests ih =>
    rw [List.cons_append, AllDistinct, AllDistinct, ih, and_assoc]
    rfl

/-- Whatever requests came before it, a request closes a grant only on
readings that confirm it, and opens one again only on a value nobody owns. -/
theorem opening_evidence (runs : String → Option (Api.Run J)) (requests : List (Request J × Time))
    (request : Request J) (now : Time) (h : (opening runs).AllDistinct (requests ++ [(request, now)])) :
    ((opening runs).serveAll requests).Evidence request now := by
  rw [allDistinct_append] at h
  exact serve_evidence (serveAll_kept (opening_kept runs) h.1) h.2

section Examples

def sampleGrant : TemporaryAccessGrantCreate :=
  ⟨"tempaccess-qa-1", "project", "TEST_USER_ID", "42", "0123", "qa-1", "deploy-grant-1", ⟨"story", 7, "qa-1"⟩⟩

def sampleRevoke : TemporaryAccessGrantUpdate :=
  { TemporaryAccessGrantUpdate.empty with
    status := some ⟨.revoking, nofun⟩
    revokeReason := some (some .runTerminal)
    revokeRunId := some (some "deploy-revoke-1") }

def clearReading (observationId : String) : Request Unit :=
  .observe sampleGrant.id ⟨observationId, 7, "server", "project", "TEST_USER_ID", false, 1⟩

def takenBack : List (Request Unit × Time) :=
  [(.create sampleGrant true, 0), (.update sampleGrant.id sampleRevoke, 1), (clearReading "reading-0", 100)]

def takenTwice : List (Request Unit × Time) := takenBack ++ [(clearReading "reading-1", 400)]

theorem opening_evidence_closes : ((opening fun _ => none).serveAll takenBack).Evidence (clearReading "reading-1") 700 ∧
    ((((opening fun _ => none).serveAll takenBack).serve (clearReading "reading-1") 700).database.grants.find
      sampleGrant.id).map (·.status) = some .revoked := by
  refine ⟨opening_evidence _ _ _ _ ⟨trivial, trivial, fun _ _ _ _ => ?_, fun _ _ _ _ => ?_, trivial⟩, ?_⟩
  all_goals decide +kernel

/-- The first reading, said again after the second, is counted a second time
and closes the grant. -/
theorem repeated_reading_closes : ¬∀ (runs : String → Option (Api.Run Unit)) requests request now,
    ((opening runs).serveAll requests).Evidence request now := by
  intro h
  have hold : (((opening fun _ => none).serveAll takenTwice).database.grants.find sampleGrant.id).map (·.status) =
      some .revoking := by decide +kernel
  have hnew : ((((opening fun _ => none).serveAll takenTwice).serve (clearReading "reading-0") 700).database.grants.find
      sampleGrant.id).map (·.status) = some .revoked := by decide +kernel
  have hreadings : (((opening fun _ => none).serveAll takenTwice).serve (clearReading "reading-0") 700).readings sampleGrant.id =
      [⟨"reading-0", false, 700⟩, ⟨"reading-1", false, 400⟩, ⟨"reading-0", false, 100⟩] := by decide +kernel
  obtain ⟨old, hold, hopen⟩ := Option.map_eq_some_iff.mp hold
  obtain ⟨new, hnew, hrevoked⟩ := Option.map_eq_some_iff.mp hnew
  obtain ⟨_, _, _, run, hbegins, ⟨_, hdistinct, _, first, hfirst, last, hlast, hapart⟩, _⟩ :=
    (h (fun _ => none) takenTwice (clearReading "reading-0") 700).closed sampleGrant.id old new hold hnew
      (by simp [hopen]) hrevoked
  rw [hreadings] at hbegins
  -- only the whole journal spans the window, and it names its first reading twice
  have hall : ∀ taken ∈ List.inits [(⟨"reading-0", false, 700⟩ : Reading), ⟨"reading-1", false, 400⟩,
      ⟨"reading-0", false, 100⟩], (List.map Reading.observationId taken).Nodup → ∀ first ∈ List.getLast? taken,
        ∀ last ∈ List.head? taken, ¬first.moment + revokeConfirmationWindow ≤ last.moment := by
    decide +kernel
  exact hall run ((List.mem_inits _ _).mpr hbegins) hdistinct first hfirst last hlast hapart

end Examples

end Journal

end Orchestrator.Access
