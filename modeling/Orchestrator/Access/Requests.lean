import Mathlib.Data.List.Nodup
import Orchestrator.Access.Grant
import Orchestrator.Results

/-!
The requests that write grants, each decided in one go against the stored rows.
A refused request leaves the rows as they were.
-/

namespace Orchestrator.Access

open Contracts
open Api (TemporaryAccessStatus TemporaryAccessEscalation)

abbrev Grants := List TemporaryAccessGrant

namespace Grants

def find (grants : Grants) (grantId : String) : Option TemporaryAccessGrant :=
  grants.find? fun grant => grant.id = grantId

def owner (grants : Grants) (slot : String × String) : Except HTTPException (Option TemporaryAccessGrant) :=
  match grants.filter fun grant => grant.live && grant.slot = slot with
  | [] => .ok none
  | [grant] => .ok (some grant)
  | _ => .error .internalServerError

def slotFree (grants : Grants) (row : TemporaryAccessGrant) : Bool :=
  !grants.any fun grant => grant.id != row.id && grant.live && grant.slot = row.slot

def replace (grants : Grants) (row : TemporaryAccessGrant) : Grants :=
  grants.map fun grant => if grant.id = row.id then row else grant

def insert (grants : Grants) (row : TemporaryAccessGrant) (referenced : Bool) : Except HTTPException Grants :=
  if referenced && row.storable && (grants.find row.id).isNone && (!row.live || grants.slotFree row) then
    .ok (grants ++ [row])
  else .error .internalServerError

def save (grants : Grants) (row : TemporaryAccessGrant) : Except HTTPException Grants :=
  if row.storable && (!row.live || grants.slotFree row) then .ok (grants.replace row)
  else .error .internalServerError

variable {grants grants' : Grants} {grant row : TemporaryAccessGrant} {grantId : String} {slot : String × String}

theorem find_id (h : grants.find grantId = some grant) : grant.id = grantId := by
  simpa using List.find?_some h

theorem find_mem (h : grants.find grantId = some grant) : grant ∈ grants := List.mem_of_find?_eq_some h

theorem find_append_self (h : grants.find row.id = none) : Grants.find (grants ++ [row]) row.id = some row := by
  rw [find, List.find?_append, show List.find? _ grants = none from h]
  simp

theorem find_append_of_ne (h : grantId ≠ row.id) : Grants.find (grants ++ [row]) grantId = grants.find grantId := by
  simp [find, List.find?_append, Ne.symm h]

theorem find_replace_self (h : grants.find row.id = some grant) : (grants.replace row).find row.id = some row := by
  induction grants with
  | nil => cases h
  | cons first rest ih =>
    by_cases hid : first.id = row.id
    · simp [replace, find, hid]
    · simp only [find, replace, List.map_cons, hid, ↓reduceIte, decide_false, Bool.false_eq_true,
        not_false_eq_true, List.find?_cons_of_neg] at h ⊢
      exact ih h

theorem find_replace_of_ne (h : grantId ≠ row.id) : (grants.replace row).find grantId = grants.find grantId := by
  induction grants with
  | nil => rfl
  | cons first rest ih =>
    simp only [find, replace, List.map_cons, List.find?_cons] at ih ⊢
    by_cases hid : first.id = row.id
    · simp only [hid, ↓reduceIte, Ne.symm h, decide_false]
      exact ih
    · simp only [hid, ↓reduceIte, ih]

theorem slotFree_iff : grants.slotFree row = true ↔
    ∀ grant ∈ grants, grant.id ≠ row.id → grant.live = true → grant.slot ≠ row.slot := by
  simp [slotFree]

theorem save_ok (h : grants.save row = .ok grants') :
    grants' = grants.replace row ∧ (row.live = true → grants.slotFree row = true) := by
  unfold save at h
  split at h
  · next hok =>
    simp only [Bool.and_eq_true, Bool.or_eq_true, Bool.not_eq_true'] at hok
    cases h
    exact ⟨rfl, fun hlive => hok.2.resolve_left (by simp [hlive])⟩
  · cases h

theorem insert_ok {referenced : Bool} (h : grants.insert row referenced = .ok grants') :
    grants' = grants ++ [row] ∧ grants.find row.id = none ∧ (row.live = true → grants.slotFree row = true) := by
  unfold insert at h
  split at h
  · next hok =>
    simp only [Bool.and_eq_true, Bool.or_eq_true, Bool.not_eq_true', Option.isNone_iff_eq_none] at hok
    cases h
    exact ⟨rfl, hok.1.2, fun hlive => hok.2.resolve_left (by simp [hlive])⟩
  · cases h

theorem owner_none (h : grants.owner slot = .ok none) : ∀ grant ∈ grants, grant.live = true → grant.slot ≠ slot := by
  intro grant hmem hlive hslot
  have hin : grant ∈ grants.filter fun grant => grant.live && grant.slot = slot := by simp [hmem, hlive, hslot]
  unfold owner at h
  split at h
  · next hnil => simp [hnil] at hin
  · cases h
  · cases h

end Grants

structure Grants.Consistent (grants : Grants) : Prop where
  ids : (grants.map (·.id)).Nodup
  owners : ∀ grant ∈ grants, ∀ other ∈ grants, grant.live = true → other.live = true →
    grant.slot = other.slot → grant.id = other.id

namespace Grants.Consistent

variable {grants : Grants} {row grant : TemporaryAccessGrant}

theorem unique (h : grants.Consistent) : ∀ grant ∈ grants, ∀ other ∈ grants, grant.id = other.id → grant = other :=
  fun _ hgrant _ hother hid => List.inj_on_of_nodup_map h.ids hgrant hother hid

theorem append (h : grants.Consistent) (hnew : grants.find row.id = none)
    (hfree : row.live = true → grants.slotFree row = true) : Consistent (grants ++ [row]) := by
  have hids : ∀ grant ∈ grants, grant.id ≠ row.id := by simpa [find] using hnew
  refine ⟨?_, ?_⟩
  · rw [List.map_append, List.nodup_append]
    refine ⟨h.ids, List.nodup_singleton _, ?_⟩
    rintro _ hleft _ hright
    obtain ⟨grant, hgrant, rfl⟩ := List.mem_map.mp hleft
    rw [List.map_singleton, List.mem_singleton] at hright
    exact hright ▸ hids grant hgrant
  · intro grant hgrant other hother hlive hlive' hslot
    rw [List.mem_append, List.mem_singleton] at hgrant hother
    rcases hgrant with hgrant | rfl
    · rcases hother with hother | rfl
      · exact h.owners grant hgrant other hother hlive hlive' hslot
      · exact absurd hslot (slotFree_iff.mp (hfree hlive') grant hgrant (hids grant hgrant) hlive)
    · rcases hother with hother | rfl
      · exact absurd hslot.symm (slotFree_iff.mp (hfree hlive) other hother (hids other hother) hlive')
      · rfl

theorem mem_replace (h : grant ∈ grants.replace row) : grant = row ∨ (grant ∈ grants ∧ grant.id ≠ row.id) := by
  obtain ⟨old, hold, rfl⟩ := List.mem_map.mp h
  by_cases hid : old.id = row.id
  · exact .inl (if_pos hid)
  · rw [if_neg hid]
    exact .inr ⟨hold, hid⟩

theorem replace_ids (grants : Grants) (row : TemporaryAccessGrant) :
    (grants.replace row).map (·.id) = grants.map (·.id) := by
  rw [Grants.replace, List.map_map]
  refine List.map_congr_left fun grant _ => ?_
  simp only [Function.comp_apply]
  split
  · next hid => exact hid.symm
  · rfl

theorem replace (h : grants.Consistent) (hfree : row.live = true → grants.slotFree row = true) :
    Consistent (grants.replace row) := by
  refine ⟨by rw [replace_ids]; exact h.ids, ?_⟩
  intro grant hgrant other hother hlive hlive' hslot
  rcases mem_replace hgrant with rfl | ⟨hin, hid⟩
  · rcases mem_replace hother with rfl | ⟨hin', hid'⟩
    · rfl
    · exact absurd hslot.symm (slotFree_iff.mp (hfree hlive) other hin' hid' hlive')
  · rcases mem_replace hother with rfl | ⟨hin', hid'⟩
    · exact absurd hslot (slotFree_iff.mp (hfree hlive') grant hin hid hlive)
    · exact h.owners grant hin other hin' hlive hlive' hslot

theorem replace_same (h : grants.Consistent) (hmem : row ∈ grants) : grants.replace row = grants := by
  have heach : ∀ grant ∈ grants, (if grant.id = row.id then row else grant) = id grant := by
    intro grant hgrant
    split
    · next hid => exact (h.unique grant hgrant row hmem hid).symm
    · rfl
  rw [Grants.replace, List.map_congr_left heach, List.map_id]

theorem slotFree (h : grants.Consistent) (hmem : row ∈ grants) (hlive : row.live = true) : grants.slotFree row = true :=
  slotFree_iff.mpr fun other hother hne hlive' hslot => hne (h.owners other hother row hmem hlive' hlive hslot)

end Grants.Consistent

variable {J : Type}

structure Database (J : Type) where
  runs : String → Option (Api.Run J)
  grants : Grants

namespace Database

def load (db : Database J) (grantId : String) : Except HTTPException TemporaryAccessGrant :=
  match db.grants.find grantId with
  | none => .error (.grantNotFound grantId)
  | some grant => .ok grant

def saveGrant (db : Database J) (row : TemporaryAccessGrant) : Except HTTPException (TemporaryAccessGrant × Database J) := do
  let grants ← db.grants.save row
  .ok (row, { db with grants := grants })

/-- `referenced` says whether the project and the run that the row names exist. -/
def createGrant (db : Database J) (grantIn : TemporaryAccessGrantCreate) (referenced : Bool) (now : Time) :
    Except HTTPException (TemporaryAccessGrant × Database J) :=
  match db.grants.find grantIn.id with
  | some existing => .ok (existing, db)
  | none => do
    let owner ← db.grants.owner (grantIn.projectId, grantIn.envKey)
    match owner with
    | some held => .error (.slotHeld grantIn.envKey held.id held.qaRunId held.status)
    | none =>
      let grants ← db.grants.insert (grantIn.row now) referenced
      .ok (grantIn.row now, { db with grants := grants })

def updateGrant (db : Database J) (grantId : String) (update : TemporaryAccessGrantUpdate) (now : Time) :
    Except HTTPException (TemporaryAccessGrant × Database J) := do
  let grant ← db.load grantId
  let row ← updateRow grantId update now grant
  db.saveGrant row

def escalateRun (db : Database J) (runId : String) (escalation : TemporaryAccessEscalation J) (now : Time) :
    Database J :=
  match db.runs runId with
  | none => db
  | some run =>
    let failed := Api.escalateRow escalation.runErrorMessage escalation.runResult now run
    { db with runs := Function.update db.runs runId (some failed) }

def escalateGrant (db : Database J) (grantId : String) (escalation : TemporaryAccessEscalation J) (now : Time) :
    Except HTTPException (TemporaryAccessGrant × Database J) := do
  let grant ← db.load grantId
  let row ← escalateRow grantId escalation.error now grant
  (db.escalateRun row.qaRunId escalation now).saveGrant row

def ownerFor (db : Database J) (observation : TemporaryAccessObservation) (grant : TemporaryAccessGrant) :
    Except HTTPException (Option TemporaryAccessGrant) :=
  if observation.present then db.grants.owner grant.slot else .ok none

def settleReading (db : Database J) (grantId : String) (observation : TemporaryAccessObservation) (now : Time)
    (grant : TemporaryAccessGrant) : Except HTTPException (TemporaryAccessGrant × Database J) :=
  if grant.observationId = some observation.observationId then .ok (grant, db)
  else if grant.status = .revoked then do
    let owner ← db.ownerFor observation grant
    db.saveGrant (readClosedGrant observation now owner.isSome grant)
  else do
    let row ← readOpenGrant grantId observation now grant
    db.saveGrant row

def recordObservation (db : Database J) (grantId : String) (observation : TemporaryAccessObservation) (now : Time) :
    Except HTTPException (TemporaryAccessGrant × Database J) := do
  let grant ← db.load grantId
  requireReadable grantId observation grant
  db.settleReading grantId observation now grant

end Database

inductive Request (J : Type) where
  | create (grantIn : TemporaryAccessGrantCreate) (referenced : Bool)
  | update (grantId : String) (update : TemporaryAccessGrantUpdate)
  | escalate (grantId : String) (escalation : TemporaryAccessEscalation J)
  | observe (grantId : String) (observation : TemporaryAccessObservation)

namespace Database

def answer (db : Database J) (now : Time) : Request J → Except HTTPException (TemporaryAccessGrant × Database J)
  | .create grantIn referenced => db.createGrant grantIn referenced now
  | .update grantId update => db.updateGrant grantId update now
  | .escalate grantId escalation => db.escalateGrant grantId escalation now
  | .observe grantId observation => db.recordObservation grantId observation now

def serve (db : Database J) (request : Request J) (now : Time) : Database J :=
  match db.answer now request with
  | .ok (_, db') => db'
  | .error _ => db

inductive Rewrites (db : Database J) (now : Time) :
    Request J → String → TemporaryAccessGrant → TemporaryAccessGrant → Prop
  | update {grantId : String} {update : TemporaryAccessGrantUpdate} {grant row : TemporaryAccessGrant}
      (h : updateRow grantId update now grant = .ok row) : Rewrites db now (.update grantId update) grantId grant row
  | escalate {grantId : String} {escalation : TemporaryAccessEscalation J} {grant row : TemporaryAccessGrant}
      (h : escalateRow grantId escalation.error now grant = .ok row) :
      Rewrites db now (.escalate grantId escalation) grantId grant row
  | readOpen {grantId : String} {observation : TemporaryAccessObservation} {grant row : TemporaryAccessGrant}
      (hreadable : requireReadable grantId observation grant = .ok ())
      (hnew : grant.observationId ≠ some observation.observationId) (hopen : grant.status ≠ .revoked)
      (h : readOpenGrant grantId observation now grant = .ok row) :
      Rewrites db now (.observe grantId observation) grantId grant row
  | readClosed {grantId : String} {observation : TemporaryAccessObservation} {grant : TemporaryAccessGrant}
      {owner : Option TemporaryAccessGrant} (hreadable : requireReadable grantId observation grant = .ok ())
      (hnew : grant.observationId ≠ some observation.observationId) (hclosed : grant.status = .revoked)
      (howner : db.ownerFor observation grant = .ok owner) :
      Rewrites db now (.observe grantId observation) grantId grant
        (readClosedGrant observation now owner.isSome grant)

/-- All that a request can do to the rows, where the owner of a slot was looked
for in the rows it has `seen`. -/
inductive Served (seen db : Database J) (request : Request J) (now : Time) (grants : Grants) : Prop
  | unchanged (h : grants = db.grants)
  | created {grantIn : TemporaryAccessGrantCreate} {referenced : Bool} (hrequest : request = .create grantIn referenced)
      (hnew : db.grants.find grantIn.id = none) (hfree : db.grants.slotFree (grantIn.row now) = true)
      (h : grants = db.grants ++ [grantIn.row now])
  | rewritten {grantId : String} {grant row : TemporaryAccessGrant} (hgrant : db.grants.find grantId = some grant)
      (hrow : seen.Rewrites now request grantId grant row)
      (hfree : row.live = true → db.grants.slotFree row = true) (h : grants = db.grants.replace row)

variable {db db' : Database J} {grantId : String} {grant row : TemporaryAccessGrant} {now : Time}
  {request : Request J}

theorem load_ok (h : db.load grantId = .ok grant) : db.grants.find grantId = some grant := by
  unfold load at h
  split at h
  · cases h
  · next hgrant => exact (Except.ok.inj h) ▸ hgrant

theorem saveGrant_ok (h : db.saveGrant row = .ok (grant, db')) :
    db'.grants = db.grants.replace row ∧ (row.live = true → db.grants.slotFree row = true) := by
  obtain ⟨grants, hsave, h⟩ := bind_ok h
  cases h
  exact Grants.save_ok hsave

@[simp] theorem escalateRun_grants (db : Database J) (runId : String) (escalation : TemporaryAccessEscalation J)
    (now : Time) : (db.escalateRun runId escalation now).grants = db.grants := by
  unfold escalateRun
  split <;> rfl

theorem updateGrant_ok {update : TemporaryAccessGrantUpdate} (h : db.updateGrant grantId update now = .ok (grant, db')) :
    ∃ old, db.grants.find grantId = some old ∧ updateRow grantId update now old = .ok grant ∧
      db'.grants = db.grants.replace grant ∧ (grant.live = true → db.grants.slotFree grant = true) := by
  obtain ⟨old, hold, h⟩ := bind_ok h
  obtain ⟨row, hrow, h⟩ := bind_ok h
  have hsame : row = grant := by
    obtain ⟨_, _, h⟩ := bind_ok h
    exact (Prod.mk.inj (Except.ok.inj h)).1
  subst hsame
  exact ⟨old, load_ok hold, hrow, saveGrant_ok h⟩

theorem escalateGrant_ok {escalation : TemporaryAccessEscalation J}
    (h : db.escalateGrant grantId escalation now = .ok (grant, db')) :
    ∃ old, db.grants.find grantId = some old ∧ escalateRow grantId escalation.error now old = .ok grant ∧
      db'.grants = db.grants.replace grant ∧ (grant.live = true → db.grants.slotFree grant = true) := by
  obtain ⟨old, hold, h⟩ := bind_ok h
  obtain ⟨row, hrow, h⟩ := bind_ok h
  have hsame : row = grant := by
    obtain ⟨_, _, h⟩ := bind_ok h
    exact (Prod.mk.inj (Except.ok.inj h)).1
  subst hsame
  have hsaved := saveGrant_ok h
  rw [escalateRun_grants] at hsaved
  exact ⟨old, load_ok hold, hrow, hsaved⟩

theorem recordObservation_ok {observation : TemporaryAccessObservation}
    (h : db.recordObservation grantId observation now = .ok (grant, db')) :
    ∃ old, db.grants.find grantId = some old ∧ requireReadable grantId observation old = .ok () ∧
      ((old.observationId = some observation.observationId ∧ grant = old ∧ db' = db) ∨
      (old.observationId ≠ some observation.observationId ∧ db'.grants = db.grants.replace grant ∧
        (grant.live = true → db.grants.slotFree grant = true) ∧
        ((old.status ≠ .revoked ∧ readOpenGrant grantId observation now old = .ok grant) ∨
        (old.status = .revoked ∧ ∃ owner, db.ownerFor observation old = .ok owner ∧
          grant = readClosedGrant observation now owner.isSome old)))) := by
  obtain ⟨old, hold, h⟩ := bind_ok h
  obtain ⟨_, hreadable, h⟩ := bind_ok h
  refine ⟨old, load_ok hold, hreadable, ?_⟩
  unfold settleReading at h
  split at h
  · next hsame =>
    cases h
    exact .inl ⟨hsame, rfl, rfl⟩
  next hnew =>
  split at h
  · next hclosed =>
    obtain ⟨owner, howner, h⟩ := bind_ok h
    have hrow : readClosedGrant observation now owner.isSome old = grant := by
      obtain ⟨_, _, h⟩ := bind_ok h
      exact (Prod.mk.inj (Except.ok.inj h)).1
    obtain ⟨hgrants, hfree⟩ := saveGrant_ok (hrow ▸ h)
    exact .inr ⟨hnew, hgrants, hfree, .inr ⟨hclosed, owner, howner, hrow.symm⟩⟩
  · next hopen =>
    obtain ⟨row, hrow, h⟩ := bind_ok h
    have hsame : row = grant := by
      obtain ⟨_, _, h⟩ := bind_ok h
      exact (Prod.mk.inj (Except.ok.inj h)).1
    obtain ⟨hgrants, hfree⟩ := saveGrant_ok (hsame ▸ h)
    exact .inr ⟨hnew, hgrants, hfree, .inl ⟨hopen, hsame ▸ hrow⟩⟩

theorem createGrant_ok {grantIn : TemporaryAccessGrantCreate} {referenced : Bool}
    (h : db.createGrant grantIn referenced now = .ok (grant, db')) :
    (db.grants.find grantIn.id = some grant ∧ db' = db) ∨
      (db.grants.find grantIn.id = none ∧ grant = grantIn.row now ∧ db'.grants = db.grants ++ [grant] ∧
        db.grants.slotFree grant = true) := by
  unfold createGrant at h
  split at h
  · next hfound =>
    cases h
    exact .inl ⟨hfound, rfl⟩
  · next hnew =>
    obtain ⟨owner, howner, h⟩ := bind_ok h
    cases owner with
    | some held => cases h
    | none =>
      obtain ⟨grants, hinsert, h⟩ := bind_ok h
      cases h
      obtain ⟨rfl, _, hfree⟩ := Grants.insert_ok hinsert
      exact .inr ⟨hnew, rfl, rfl, hfree rfl⟩

theorem createGrant_served {grantIn : TemporaryAccessGrantCreate} {referenced : Bool}
    (h : db.createGrant grantIn referenced now = .ok (grant, db')) :
    db.Served db (.create grantIn referenced) now db'.grants := by
  rcases createGrant_ok h with ⟨_, rfl⟩ | ⟨hnew, rfl, hgrants, hfree⟩
  · exact .unchanged rfl
  · exact .created rfl hnew hfree hgrants

theorem updateGrant_served {update : TemporaryAccessGrantUpdate}
    (h : db.updateGrant grantId update now = .ok (grant, db')) :
    db.Served db (.update grantId update) now db'.grants := by
  obtain ⟨_, hgrant, hrow, hgrants, hfree⟩ := updateGrant_ok h
  exact .rewritten hgrant (.update hrow) hfree hgrants

theorem escalateGrant_served {escalation : TemporaryAccessEscalation J}
    (h : db.escalateGrant grantId escalation now = .ok (grant, db')) :
    db.Served db (.escalate grantId escalation) now db'.grants := by
  obtain ⟨_, hgrant, hrow, hgrants, hfree⟩ := escalateGrant_ok h
  exact .rewritten hgrant (.escalate hrow) hfree hgrants

theorem recordObservation_served {observation : TemporaryAccessObservation}
    (h : db.recordObservation grantId observation now = .ok (grant, db')) :
    db.Served db (.observe grantId observation) now db'.grants := by
  obtain ⟨old, hold, hreadable, ⟨_, _, rfl⟩ | ⟨hnew, hgrants, hfree, hread⟩⟩ := recordObservation_ok h
  · exact .unchanged rfl
  · rcases hread with ⟨hopen, hrow⟩ | ⟨hclosed, owner, howner, rfl⟩
    · exact .rewritten hold (.readOpen hreadable hnew hopen hrow) hfree hgrants
    · exact .rewritten hold (.readClosed hreadable hnew hclosed howner) hfree hgrants

theorem serve_served : db.Served db request now (db.serve request now).grants := by
  unfold serve
  split
  · next answer db' h =>
    cases request with
    | create grantIn referenced => exact createGrant_served h
    | update grantId update => exact updateGrant_served h
    | escalate grantId escalation => exact escalateGrant_served h
    | observe grantId observation => exact recordObservation_served h
  · exact .unchanged rfl

end Database

end Orchestrator.Access
