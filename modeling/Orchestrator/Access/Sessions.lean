import Orchestrator.Access.Evidence
import Orchestrator.Async.Transactions

/-!
The same requests as they run beside each other: each is a handful of
statements, between which other requests are served. A request that decides
something from a grant has its row locked; one that makes a grant does not, and
the key and the index of live slots are what refuses it.
-/

namespace Orchestrator.Access

open Async Contracts
open Api (TemporaryAccessStatus TemporaryAccessEscalation)

variable {J : Type}

inductive Key where
  | grant (grantId : String)
  | run (runId : String)
deriving DecidableEq

inductive Query where
  | find (grantId : String)
  | lock (grantId : String)
  | lockRun (runId : String)
  | owner (slot : String × String)

inductive Write (J : Type) where
  | insert (row : TemporaryAccessGrant) (referenced : Bool)
  | update (row : TemporaryAccessGrant)
  | escalate (row : TemporaryAccessGrant) (run : Option (Api.Run J))

def Query.Result (J : Type) : Query → Type
  | .find _ => Option TemporaryAccessGrant
  | .lock _ => Option TemporaryAccessGrant
  | .lockRun _ => Option (Api.Run J)
  | .owner _ => Option TemporaryAccessGrant

namespace Database

def ask (db : Database J) : (query : Query) → Except HTTPException (query.Result J)
  | .find grantId => .ok (db.grants.find grantId)
  | .lock grantId => .ok (db.grants.find grantId)
  | .lockRun runId => .ok (db.runs runId)
  | .owner slot => db.grants.owner slot

def writeGrants (db : Database J) (grants : Except HTTPException Grants) : Except HTTPException (Database J) :=
  grants.map fun grants => { db with grants := grants }

def writeRun (db : Database J) (runId : String) : Option (Api.Run J) → Database J
  | none => db
  | some run => { db with runs := Function.update db.runs runId (some run) }

def write (db : Database J) : Write J → Except HTTPException (Database J)
  | .insert row referenced => db.writeGrants (db.grants.insert row referenced)
  | .update row => db.writeGrants (db.grants.save row)
  | .escalate row run => (db.writeRun row.qaRunId run).writeGrants (db.grants.save row)

end Database

def Query.locked : (query : Query) → query.Result J → Option Key
  | .lock grantId, some _ => some (.grant grantId)
  | .lockRun runId, some _ => some (.run runId)
  | _, _ => none

abbrev schema (J : Type) : Schema where
  Data := Database J
  Exn := HTTPException
  Key := Key
  Query := Query
  Result := Query.Result J
  answer query db := db.ask query
  locked := Query.locked
  Write := Write J
  write write db := db.write write

abbrev Handler (J A : Type) := Prog (schema J).interface A

def send (query : Query) : Handler J (query.Result J) := (schema J).query query

def commit (write : Write J) : Handler J Unit := (schema J).commit write

def loadForUpdate (grantId : String) : Handler J TemporaryAccessGrant :=
  (send (.lock grantId)).bind fun
    | none => .raise (.grantNotFound grantId)
    | some grant => .ret grant

def refresh (grantId : String) : Handler J TemporaryAccessGrant :=
  (send (.find grantId)).bind fun
    | none => .raise .internalServerError
    | some grant => .ret grant

namespace Session

def createGrant (grantIn : TemporaryAccessGrantCreate) (referenced : Bool) (now : Time) :
    Handler J TemporaryAccessGrant :=
  (send (.find grantIn.id)).bind fun
    | some existing => .ret existing
    | none => (send (.owner (grantIn.projectId, grantIn.envKey))).bind fun
      | some held => .raise (.slotHeld grantIn.envKey held.id held.qaRunId held.status)
      | none => do
        commit (.insert (grantIn.row now) referenced)
        refresh grantIn.id

def saveGrant (row : TemporaryAccessGrant) : Handler J TemporaryAccessGrant := do
  commit (.update row)
  refresh row.id

def updateGrant (grantId : String) (update : TemporaryAccessGrantUpdate) (now : Time) :
    Handler J TemporaryAccessGrant := do
  let grant ← loadForUpdate grantId
  let row ← Prog.ofExcept (updateRow grantId update now grant)
  saveGrant row

def escalateGrant (grantId : String) (escalation : TemporaryAccessEscalation J) (now : Time) :
    Handler J TemporaryAccessGrant := do
  let grant ← loadForUpdate grantId
  let row ← Prog.ofExcept (escalateRow grantId escalation.error now grant)
  let run ← send (.lockRun grant.qaRunId)
  commit (.escalate row (run.map (Api.escalateRow escalation.runErrorMessage escalation.runResult now)))
  refresh row.id

def readClosedGrant (observation : TemporaryAccessObservation) (now : Time) (grant : TemporaryAccessGrant) :
    Handler J TemporaryAccessGrant :=
  if observation.present then
    (send (.owner grant.slot)).bind fun owner => saveGrant (Access.readClosedGrant observation now owner.isSome grant)
  else saveGrant (Access.readClosedGrant observation now false grant)

def settleReading (grantId : String) (observation : TemporaryAccessObservation) (now : Time)
    (grant : TemporaryAccessGrant) : Handler J TemporaryAccessGrant :=
  if grant.observationId = some observation.observationId then .ret grant
  else if grant.status = .revoked then readClosedGrant observation now grant
  else do
    let row ← Prog.ofExcept (readOpenGrant grantId observation now grant)
    saveGrant row

def recordObservation (grantId : String) (observation : TemporaryAccessObservation) (now : Time) :
    Handler J TemporaryAccessGrant := do
  let grant ← loadForUpdate grantId
  Prog.ofExcept (requireReadable grantId observation grant)
  settleReading grantId observation now grant

end Session

def Request.handler (now : Time) : Request J → Handler J TemporaryAccessGrant
  | .create grantIn referenced => Session.createGrant grantIn referenced now
  | .update grantId fields => Session.updateGrant grantId fields now
  | .escalate grantId escalation => Session.escalateGrant grantId escalation now
  | .observe grantId observation => Session.recordObservation grantId observation now

section Solo

variable {db : Database J} {now : Time} {grantId : String} {row : TemporaryAccessGrant}

@[simp] theorem solo_send {A : Type} (query : Query) (f : query.Result J → Handler J A) (db : Database J) :
    Schema.solo ((send query).bind f) db = match db.ask query with
      | .ok answer => Schema.solo (f answer) db
      | .error e => (.error e, db) := by
  rw [send, Schema.solo_query (S := schema J), show (schema J).answer query db = db.ask query from rfl]
  cases db.ask query <;> rfl

@[simp] theorem solo_commit {A : Type} (write : Write J) (f : Unit → Handler J A) (db : Database J) :
    Schema.solo ((commit write).bind f) db = match db.write write with
      | .ok after => Schema.solo (f ()) after
      | .error e => (.error e, db) := by
  rw [commit, Schema.solo_commit (S := schema J), show (schema J).write write db = db.write write from rfl]
  cases db.write write <;> rfl

@[simp] theorem solo_ofExcept {A B : Type} (x : Except HTTPException B) (f : B → Handler J A) (db : Database J) :
    Schema.solo ((Prog.ofExcept x).bind f) db = match x with
      | .ok b => Schema.solo (f b) db
      | .error e => (.error e, db) := by
  cases x <;> rfl

theorem solo_refresh (h : db.grants.find grantId = some row) : Schema.solo (refresh grantId) db = (.ok row, db) := by
  unfold refresh
  rw [solo_send]
  simp only [Database.ask, h]
  rfl

@[simp] theorem solo_loadForUpdate {A : Type} (grantId : String) (f : TemporaryAccessGrant → Handler J A)
    (db : Database J) : Schema.solo ((loadForUpdate grantId).bind f) db = match db.grants.find grantId with
      | some grant => Schema.solo (f grant) db
      | none => (.error (.grantNotFound grantId), db) := by
  unfold loadForUpdate
  rw [Prog.bind_assoc, solo_send]
  simp only [Database.ask]
  cases db.grants.find grantId <;> rfl

variable {grant : TemporaryAccessGrant}

theorem escalateRow_qaRunId {error : String}
    (h : escalateRow grantId error now grant = .ok row) : row.qaRunId = grant.qaRunId := by
  unfold escalateRow at h
  split at h
  · cases h
  · cases h
    rfl

/-- What a request answers and leaves, where an error leaves the rows as they were -/
def concluded (db : Database J) : Except HTTPException (TemporaryAccessGrant × Database J) →
    Except HTTPException TemporaryAccessGrant × Database J
  | .ok (row, db') => (.ok row, db')
  | .error e => (.error e, db)

theorem solo_saveGrant (h : db.grants.find row.id = some grant) :
    Schema.solo (Session.saveGrant row) db = concluded db (db.saveGrant row) := by
  unfold Session.saveGrant
  rw [Prog.bind_eq, solo_commit]
  simp only [Database.write, Database.writeGrants, Database.saveGrant]
  cases hsave : db.grants.save row with
  | error e => rfl
  | ok grants =>
    apply solo_refresh
    rw [(Grants.save_ok hsave).1]
    exact Grants.find_replace_self h

theorem readClosedGrant_id (observation : TemporaryAccessObservation) (now : Time) (owned : Bool)
    (grant : TemporaryAccessGrant) : (Access.readClosedGrant observation now owned grant).id = grant.id := by
  rcases readClosedGrant_cases observation now owned grant with ⟨_, h⟩ | ⟨_, _, h⟩ | ⟨_, _, h⟩ <;> rw [h] <;> rfl

theorem readOpenGrant_id {observation : TemporaryAccessObservation}
    (h : readOpenGrant grantId observation now grant = .ok row) : row.id = grant.id := by
  rcases readOpenGrant_cases h with ⟨_, rfl⟩ | ⟨_, rfl⟩ | ⟨_, _, rfl⟩
  · rfl
  · exact countClear_id now _
  · exact countClear_id now _

theorem solo_settleReading (observation : TemporaryAccessObservation) (now : Time)
    (hgrant : db.grants.find grant.id = some grant) :
    Schema.solo (Session.settleReading grantId observation now grant) db =
      concluded db (db.settleReading grantId observation now grant) := by
  have hclosed (owned : Bool) : db.grants.find (Access.readClosedGrant observation now owned grant).id = some grant := by
    rw [readClosedGrant_id, hgrant]
  unfold Session.settleReading Database.settleReading
  split
  · rfl
  split
  · unfold Session.readClosedGrant Database.ownerFor
    split
    · rw [solo_send]
      simp only [Database.ask, solo_saveGrant (hclosed _)]
      cases db.grants.owner grant.slot <;> rfl
    · rw [solo_saveGrant (hclosed false)]
      rfl
  · simp only [Prog.bind_eq, solo_ofExcept]
    cases hrow : readOpenGrant grantId observation now grant with
    | error e => rfl
    | ok row =>
      apply solo_saveGrant
      rw [readOpenGrant_id hrow, hgrant]

/-- A handler that nothing interrupts answers as the request in one step does, and leaves its rows. -/
theorem solo_handler (request : Request J) (now : Time) (db : Database J) :
    Schema.solo (request.handler now) db = concluded db (db.answer now request) := by
  cases request with
  | create grantIn referenced =>
    simp only [Request.handler, Session.createGrant, solo_send, Database.ask, Database.answer, Database.createGrant]
    cases db.grants.find grantIn.id with
    | some existing => rfl
    | none =>
      simp only [solo_send, Database.ask]
      cases db.grants.owner (grantIn.projectId, grantIn.envKey) with
      | error e => rfl
      | ok owner =>
        cases owner with
        | some held => rfl
        | none =>
          simp only [Prog.bind_eq, solo_commit, Database.write, Database.writeGrants]
          cases hinsert : db.grants.insert (grantIn.row now) referenced with
          | error e => rfl
          | ok grants =>
            obtain ⟨rfl, hnew, -⟩ := Grants.insert_ok hinsert
            exact solo_refresh (Grants.find_append_self hnew)
  | update grantId fields =>
    simp only [Request.handler, Session.updateGrant, Prog.bind_eq, solo_loadForUpdate, solo_ofExcept,
      Database.answer, Database.updateGrant, Database.load]
    cases hgrant : db.grants.find grantId with
    | none => rfl
    | some grant =>
      dsimp only
      change _ = concluded db (updateRow grantId fields now grant >>= fun row => db.saveGrant row)
      cases hrow : updateRow grantId fields now grant with
      | error e => rfl
      | ok row =>
        apply solo_saveGrant
        rw [(updateRow_keeps hrow).2.2.1, Grants.find_id hgrant, hgrant]
  | escalate grantId escalation =>
    simp only [Request.handler, Session.escalateGrant, Prog.bind_eq, solo_loadForUpdate, solo_ofExcept,
      Database.answer, Database.escalateGrant, Database.load]
    cases hgrant : db.grants.find grantId with
    | none => rfl
    | some grant =>
      dsimp only
      change _ = concluded db (escalateRow grantId escalation.error now grant >>= fun row =>
        (db.escalateRun row.qaRunId escalation now).saveGrant row)
      cases hrow : escalateRow grantId escalation.error now grant with
      | error e => rfl
      | ok row =>
        have hrun : row.qaRunId = grant.qaRunId := escalateRow_qaRunId hrow
        have hcommit : db.write (.escalate row ((db.runs row.qaRunId).map
            (Api.escalateRow escalation.runErrorMessage escalation.runResult now))) =
            ((db.escalateRun row.qaRunId escalation now).saveGrant row).map Prod.snd := by
          unfold Database.write Database.escalateRun Database.saveGrant Database.writeGrants
          cases db.runs row.qaRunId <;> simp only [Option.map, Database.writeRun] <;> cases db.grants.save row <;> rfl
        change _ = concluded db ((db.escalateRun row.qaRunId escalation now).saveGrant row)
        simp only [solo_send, Database.ask, solo_commit, ← hrun, hcommit]
        cases hsave : (db.escalateRun row.qaRunId escalation now).saveGrant row with
        | error e => rfl
        | ok saved =>
          obtain ⟨grants, hgrants, hdone⟩ := bind_ok hsave
          cases hdone
          apply solo_refresh
          rw [(Grants.save_ok hgrants).1, Database.escalateRun_grants]
          apply Grants.find_replace_self
          rw [(escalateRow_keeps hrow).2.2.1, Grants.find_id hgrant, hgrant]
  | observe grantId observation =>
    simp only [Request.handler, Session.recordObservation, Prog.bind_eq, solo_loadForUpdate, solo_ofExcept,
      Database.answer, Database.recordObservation, Database.load]
    cases hgrant : db.grants.find grantId with
    | none => rfl
    | some grant =>
      dsimp only
      change _ = concluded db (requireReadable grantId observation grant >>= fun _ =>
        db.settleReading grantId observation now grant)
      cases requireReadable grantId observation grant with
      | error e => rfl
      | ok _ => exact solo_settleReading observation now (by rw [Grants.find_id hgrant, hgrant])

end Solo

end Orchestrator.Access
