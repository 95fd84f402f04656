import Orchestrator.Access.Sessions

/-!
One live owner for each slot, whatever the order in which requests are served.
The index of live slots is what a commit is checked against; the row locks are
what makes a reading decide from the grant as it is.
-/

namespace Orchestrator.Access

open Async Contracts
open Api (TemporaryAccessStatus TemporaryAccessEscalation)

variable {J : Type}

/-- What a request has made of the rows is one of the things it may do, with
the owner of the slot as some earlier rows had it. -/
def Lawful (request : Request J × Time) (before after : Database J) : Prop :=
  ∃ seen, Database.Served seen before request.1 request.2 after.grants

theorem Lawful.refl (request : Request J × Time) (db : Database J) : Lawful request db db := ⟨db, .unchanged rfl⟩

/-- A request to create a grant that is there already changes nothing, and once
it has heard of that grant it answers with it. -/
def Retried (grantIn : TemporaryAccessGrantCreate) (entries : List (schema J).Entry)
    (outcome : Option (Except HTTPException TemporaryAccessGrant)) : Prop :=
  ∀ first ∈ entries.head?, ∀ grant, first.before.grants.find grantIn.id = some grant →
    (∀ entry ∈ entries, entry.after.grants = entry.before.grants) ∧
      (first.heard = true → ∀ answer, outcome = some answer → answer = .ok grant)

def Fair (request : Request J × Time) (entries : List (schema J).Entry)
    (outcome : Option (Except HTTPException TemporaryAccessGrant)) : Prop :=
  ∀ grantIn referenced, request.1 = .create grantIn referenced → Retried grantIn entries outcome

def Steady : Key → Database J → Database J → Prop
  | .grant grantId, db, db' => ∀ grant, db.grants.find grantId = some grant → db'.grants.find grantId = some grant
  | .run runId, db, db' => ∀ run, db.runs runId = some run → db'.runs runId = some run

section Requests

variable {T : Type} [DecidableEq T] (request : T → Request J × Time)

def body (t : T) : Handler J TemporaryAccessGrant := (request t).1.handler (request t).2

abbrev discipline : Schema.Discipline (schema J) T TemporaryAccessGrant where
  admits := Schema.unblocked
  sound db := db.grants.Consistent
  lawful t := Lawful (request t)
  lawful_refl t := Lawful.refl (request t)
  steady := Steady
  steady_refl key db := by cases key <;> exact fun _ h => h
  steady_trans {key _ _ _} h h' := by cases key <;> exact fun x hx => h' x (h x hx)
  fair t := Fair (request t)
  fair_nil _ _ _ _ first hfirst := by cases hfirst

variable {request} {t : T} {s s' : (schema J).Tables T TemporaryAccessGrant}

def Settled (request : T → Request J × Time) (t : T) (s : (schema J).Tables T TemporaryAccessGrant) : Prop :=
  ∀ more outcome, Fair (request t) (s.entries t ++ more) outcome

omit [DecidableEq T] in
theorem Settled.of_not_create (h : ∀ grantIn referenced, (request t).1 ≠ .create grantIn referenced) :
    Settled request t s :=
  fun _ _ grantIn referenced hrequest => absurd hrequest (h grantIn referenced)

omit [DecidableEq T] in
theorem Settled.self (h : Settled request t s) (outcome : Option (Except HTTPException TemporaryAccessGrant)) :
    Fair (request t) (s.entries t) outcome := by
  have hfair := h [] outcome
  rwa [List.append_nil] at hfair

theorem Settled.fails {next : (schema J).Entry → Prop} (h : Settled request t s) :
    (discipline request).Fails t s next :=
  ⟨fun _ => h.self _, fun _ _ => h _ _, fun _ _ _ _ => h _ _⟩

theorem Settled.enter {entry : (schema J).Entry} (h : Settled request t s)
    (hentries : s'.entries t = s.entries t) : Settled request t (s'.enter t entry) := by
  intro more outcome
  simp only [Schema.Tables.enter, Function.update_self, hentries, List.append_assoc]
  exact h _ outcome

omit [DecidableEq T] in
theorem Settled.lock {key : Option Key} (h : Settled request t s) : Settled request t (s.lock t key) := by
  intro more outcome
  have hentries : (s.lock t key).entries = s.entries := by cases key <;> rfl
  rw [hentries]
  exact h more outcome

structure Locked (t : T) (grant : TemporaryAccessGrant) (s : (schema J).Tables T TemporaryAccessGrant) : Prop where
  lock : s.locks (.grant grant.id) = some t
  row : s.data.grants.find grant.id = some grant

theorem Locked.tolerates {grant : TemporaryAccessGrant} (h : Locked t grant s)
    (htol : (discipline request).Tolerates t s s') : Locked t grant s' :=
  ⟨(htol.locks _).mpr h.lock, htol.steady _ h.lock grant h.row⟩

theorem Locked.query {grant : TemporaryAccessGrant} {statement : (schema J).Statement} {key : Option Key}
    (h : Locked t grant s) : Locked t grant ((s.enter t ⟨statement, s.data, s.data, true⟩).lock t key) := by
  refine ⟨?_, by rw [Schema.Tables.lock_data]; exact h.row⟩
  cases key with
  | none => exact h.lock
  | some key =>
    by_cases hkey : Key.grant grant.id = key
    · simp [Schema.Tables.lock, hkey]
    · simp only [Schema.Tables.lock, Function.update_of_ne hkey]
      exact h.lock

theorem serves_send {query : Query} {f : query.Result J → Handler J TemporaryAccessGrant}
    (hsettled : Settled request t s)
    (h : ∀ s', (discipline request).Holds s' → (discipline request).Tolerates t s s' → ∀ answer,
      s'.data.ask query = .ok answer →
      (discipline request).Holds ((s'.enter t ⟨.query query, s'.data, s'.data, true⟩).lock t (query.locked answer)) →
      Settled request t ((s'.enter t ⟨.query query, s'.data, s'.data, true⟩).lock t (query.locked answer)) →
      (discipline request).Serves t (f answer)
        ((s'.enter t ⟨.query query, s'.data, s'.data, true⟩).lock t (query.locked answer))) :
    (discipline request).Serves t ((send query).bind f) s := by
  refine Schema.Discipline.serves_query (fun _ _ h => h) hsettled.fails (fun _ _ _ => hsettled _ _) ?_
  intro s' hholds htol answer hanswer hholds'
  exact h s' hholds htol answer hanswer hholds' (hsettled.enter htol.entries).lock

theorem serves_refresh {grantId : String} (hsettled : Settled request t s) :
    (discipline request).Serves t (refresh grantId) s := by
  refine serves_send hsettled fun s' _ _ answer _ hholds hsettled => ?_
  cases answer with
  | none => exact Schema.Discipline.serves_raise hholds (hsettled.self _)
  | some grant => exact Schema.Discipline.serves_ret hholds (hsettled.self _)

theorem serves_load {grantId : String} {f : TemporaryAccessGrant → Handler J TemporaryAccessGrant}
    (hsettled : Settled request t s)
    (h : ∀ s' grant, (discipline request).Holds s' → Settled request t s' → grant.id = grantId → Locked t grant s' →
      (discipline request).Serves t (f grant) s') :
    (discipline request).Serves t ((loadForUpdate grantId).bind f) s := by
  rw [loadForUpdate, Prog.bind_assoc]
  refine serves_send hsettled fun s' _ _ answer hanswer hholds hsettled => ?_
  cases answer with
  | none => exact Schema.Discipline.serves_raise hholds (hsettled.self _)
  | some grant =>
    have hfind : s'.data.grants.find grantId = some grant := Except.ok.inj hanswer
    have hid : grant.id = grantId := Grants.find_id hfind
    subst hid
    exact h _ grant hholds hsettled rfl ⟨by simp [Query.locked, Schema.Tables.lock], hfind⟩

theorem serves_ofExcept {A : Type} {x : Except HTTPException A} {f : A → Handler J TemporaryAccessGrant}
    (hholds : (discipline request).Holds s) (hsettled : Settled request t s)
    (h : ∀ a, x = .ok a → (discipline request).Serves t (f a) s) :
    (discipline request).Serves t ((Prog.ofExcept x).bind f) s := by
  cases x with
  | error e => exact Schema.Discipline.serves_raise hholds (hsettled.self _)
  | ok a => exact h a rfl

theorem writeGrants_ok {db after : Database J} {grants : Except HTTPException Grants} (h : db.writeGrants grants = .ok after) :
    ∃ rows, grants = .ok rows ∧ after = { db with grants := rows } := by
  cases grants with
  | error e => cases h
  | ok rows =>
    cases h
    exact ⟨rows, rfl, rfl⟩

def RunLocked (t : T) (runId : String) (run : Option (Api.Run J)) (s : (schema J).Tables T TemporaryAccessGrant) :
    Prop :=
  run.isSome = true → s.locks (.run runId) = some t

variable {grant row : TemporaryAccessGrant}

theorem serves_write {run : Option (Api.Run J)} {write : Write J}
    {seen : Database J} (hwrite : ∀ db : Database J, db.write write =
      (db.writeRun row.qaRunId run).writeGrants (db.grants.save row))
    (hsettled : Settled request t s) (hlocked : Locked t grant s) (hrun : RunLocked t row.qaRunId run s)
    (hrow : seen.Rewrites (request t).2 (request t).1 grant.id grant row) :
    (discipline request).Serves t ((commit write).bind fun _ => refresh row.id) s := by
  have hid : row.id = grant.id := rewrites_id hrow
  have hsave : ∀ s' : (schema J).Tables T TemporaryAccessGrant, ∀ after, s'.data.write write = .ok after →
      after.grants = s'.data.grants.replace row ∧ (row.live = true → s'.data.grants.slotFree row = true) ∧
        after.runs = (s'.data.writeRun row.qaRunId run).runs := by
    intro s' after hafter
    rw [hwrite] at hafter
    obtain ⟨rows, hsave, rfl⟩ := writeGrants_ok hafter
    obtain ⟨rfl, hfree⟩ := Grants.save_ok hsave
    exact ⟨rfl, hfree, rfl⟩
  refine Schema.Discipline.serves_commit hsettled.fails (fun _ _ _ => hsettled _ _) ?_ ?_
  · intro s' hholds htol after hafter
    obtain ⟨hgrants, hfree, hruns⟩ := hsave s' after hafter
    have hlocked' := hlocked.tolerates htol
    refine ⟨?_, ⟨seen, .rewritten hlocked'.row hrow hfree hgrants⟩, ?_⟩
    · change after.grants.Consistent
      rw [hgrants]
      exact hholds.sound.replace hfree
    · intro u hu key hkey
      cases key with
      | grant grantId =>
        intro other hother
        have hne : grantId ≠ row.id := by
          rintro rfl
          rw [hid, hlocked'.lock] at hkey
          exact hu (Option.some.inj hkey).symm
        rw [hgrants, Grants.find_replace_of_ne hne]
        exact hother
      | run runId =>
        intro other hother
        rw [hruns]
        cases run with
        | none => exact hother
        | some failed =>
          have hne : runId ≠ row.qaRunId := by
            rintro rfl
            rw [(htol.locks _).mpr (hrun rfl)] at hkey
            exact hu (Option.some.inj hkey).symm
          exact (Function.update_of_ne hne ..).trans hother
  · intro s' _ htol after _ _
    exact serves_refresh (hsettled.enter htol.entries)

theorem serves_saveGrant {seen : Database J} (hsettled : Settled request t s)
    (hlocked : Locked t grant s) (hrow : seen.Rewrites (request t).2 (request t).1 grant.id grant row) :
    (discipline request).Serves t (Session.saveGrant row) s :=
  have hrun : RunLocked t row.qaRunId none s := nofun
  serves_write (fun _ => rfl) hsettled hlocked hrun hrow

variable {grantId : String} {now : Time}

theorem serves_update {fields : TemporaryAccessGrantUpdate} (hrequest : request t = (.update grantId fields, now))
    (hsettled : Settled request t s) : (discipline request).Serves t (Session.updateGrant grantId fields now) s := by
  refine serves_load hsettled fun s' grant hholds hsettled hid hlocked => ?_
  refine serves_ofExcept hholds hsettled fun row hrow => ?_
  subst hid
  have hrewrites : s'.data.Rewrites (request t).2 (request t).1 grant.id grant row := by
    rw [hrequest]
    exact .update hrow
  exact serves_saveGrant hsettled hlocked hrewrites

theorem serves_escalate {escalation : TemporaryAccessEscalation J}
    (hrequest : request t = (.escalate grantId escalation, now)) (hsettled : Settled request t s) :
    (discipline request).Serves t (Session.escalateGrant grantId escalation now) s := by
  refine serves_load hsettled fun s' grant hholds hsettled hid hlocked => ?_
  refine serves_ofExcept hholds hsettled fun row hrow => ?_
  subst hid
  refine serves_send hsettled fun s'' _ htol run _ hholds hsettled => ?_
  have hrewrites : s''.data.Rewrites (request t).2 (request t).1 grant.id grant row := by
    rw [hrequest]
    exact .escalate hrow
  refine serves_write (fun _ => rfl) hsettled (hlocked.tolerates htol).query ?_ hrewrites
  intro hsome
  rw [escalateRow_qaRunId hrow]
  cases run with
  | none => cases hsome
  | some found => simp [Query.locked, Schema.Tables.lock]

theorem serves_observe {observation : TemporaryAccessObservation}
    (hrequest : request t = (.observe grantId observation, now)) (hsettled : Settled request t s) :
    (discipline request).Serves t (Session.recordObservation grantId observation now) s := by
  refine serves_load hsettled fun s' grant hholds hsettled hid hlocked => ?_
  refine serves_ofExcept hholds hsettled fun _ hreadable => ?_
  subst hid
  unfold Session.settleReading
  split
  · exact Schema.Discipline.serves_ret hholds (hsettled.self _)
  next hnew =>
  split
  · next hclosed =>
    unfold Session.readClosedGrant
    split
    · next hpresent =>
      refine serves_send hsettled fun s'' _ htol owner howner hholds hsettled => ?_
      have hasked : s''.data.ownerFor observation grant = .ok owner := by
        rw [Database.ownerFor, if_pos hpresent]
        exact howner
      have hrewrites : s''.data.Rewrites (request t).2 (request t).1 grant.id grant
          (readClosedGrant observation now owner.isSome grant) := by
        rw [hrequest]
        exact .readClosed hreadable hnew hclosed hasked
      exact serves_saveGrant hsettled (hlocked.tolerates htol).query hrewrites
    · next hclear =>
      have hasked : s'.data.ownerFor observation grant = .ok none := by rw [Database.ownerFor, if_neg hclear]
      have hrewrites : s'.data.Rewrites (request t).2 (request t).1 grant.id grant
          (readClosedGrant observation now false grant) := by
        rw [hrequest]
        exact .readClosed hreadable hnew hclosed hasked
      exact serves_saveGrant hsettled hlocked hrewrites
  · next hopen =>
    refine serves_ofExcept hholds hsettled fun row hrow => ?_
    have hrewrites : s'.data.Rewrites (request t).2 (request t).1 grant.id grant row := by
      rw [hrequest]
      exact .readOpen hreadable hnew hopen hrow
    exact serves_saveGrant hsettled hlocked hrewrites

omit [DecidableEq T] in
theorem Settled.of_missing {grantIn : TemporaryAccessGrantCreate} {referenced : Bool} {first : (schema J).Entry}
    (hrequest : (request t).1 = .create grantIn referenced) (hentries : s.entries t = [first])
    (hmissing : first.before.grants.find grantIn.id = none) : Settled request t s := by
  intro more outcome grantIn' referenced' hrequest' head hhead grant hgrant
  cases hrequest.symm.trans hrequest'
  rw [hentries, List.singleton_append, List.head?_cons, Option.mem_some_iff] at hhead
  subst hhead
  cases hmissing.symm.trans hgrant

variable {grantIn : TemporaryAccessGrantCreate}

theorem serves_insert {referenced : Bool}
    (hrequest : request t = (.create grantIn referenced, now)) (hsettled : Settled request t s) :
    (discipline request).Serves t
      ((commit (.insert (grantIn.row now) referenced)).bind fun _ => refresh grantIn.id) s := by
  refine Schema.Discipline.serves_commit hsettled.fails (fun _ _ _ => hsettled _ _) ?_ ?_
  · intro s' hholds _ after hafter
    obtain ⟨rows, hinsert, rfl⟩ := writeGrants_ok hafter
    obtain ⟨rfl, hnew, hfree⟩ := Grants.insert_ok hinsert
    refine ⟨hholds.sound.append hnew hfree, ⟨s'.data, ?_⟩, ?_⟩
    · rw [hrequest]
      exact .created rfl hnew (hfree rfl) rfl
    · intro u _ key _
      cases key with
      | run runId => exact fun run hrun => hrun
      | grant grantId =>
        intro grant hgrant
        have hne : grantId ≠ (grantIn.row now).id := by
          rintro rfl
          cases hnew.symm.trans hgrant
        exact (Grants.find_append_of_ne hne).trans hgrant
  · intro s' _ htol after _ _
    exact serves_refresh (hsettled.enter htol.entries)

theorem looked_fair {entry : (schema J).Entry}
    {outcome : Option (Except HTTPException TemporaryAccessGrant)} (hsame : entry.after = entry.before)
    (hanswer : entry.heard = true → ∀ grant, entry.before.grants.find grantIn.id = some grant →
      ∀ answer, outcome = some answer → answer = .ok grant) : Retried grantIn [entry] outcome := by
  intro first hfirst grant hgrant
  rw [List.head?_cons, Option.mem_some_iff] at hfirst
  subst hfirst
  refine ⟨fun other hother => ?_, fun hheard => hanswer hheard grant hgrant⟩
  rw [List.mem_singleton] at hother
  rw [hother, hsame]

theorem serves_create {referenced : Bool}
    (hrequest : request t = (.create grantIn referenced, now)) (hrests : Schema.Discipline.Rests t s) :
    (discipline request).Serves t (Session.createGrant grantIn referenced now) s := by
  have hfair {entry : (schema J).Entry} {outcome : Option (Except HTTPException TemporaryAccessGrant)}
      (h : Retried grantIn [entry] outcome) : Fair (request t) (s.entries t ++ [entry]) outcome := by
    intro grantIn' referenced' hrequest'
    rw [hrequest] at hrequest'
    cases hrequest'
    rw [hrests.1]
    exact h
  have hfails : (discipline request).Fails t s (Schema.Discipline.Reads (.find grantIn.id)) := by
    refine ⟨fun e => ?_, fun entry hreads => ?_, fun entry hreads hunheard e => ?_⟩
    · rw [hrests.1]
      exact fun _ _ _ _ hfirst => by cases hfirst
    · exact hfair (looked_fair hreads.2 fun _ _ _ _ hanswer => by cases hanswer)
    · exact hfair (looked_fair hreads.2 fun hheard => by simp [hunheard] at hheard)
  refine Schema.Discipline.serves_query (fun _ _ h => h) hfails (fun _ _ hrefused => by cases hrefused) ?_
  · intro s' _ htol existing hexisting hholds
    have hfind : s'.data.grants.find grantIn.id = existing := Except.ok.inj hexisting
    have hnil : s'.entries t = [] := htol.entries.trans hrests.1
    cases existing with
    | some existing =>
      refine Schema.Discipline.serves_ret hholds ?_
      have hlooked : Retried grantIn [⟨.query (.find grantIn.id), s'.data, s'.data, true⟩] (some (.ok existing)) := by
        refine looked_fair rfl fun _ grant hgrant answer hanswer => ?_
        cases hanswer
        rw [Option.some.inj (hfind.symm.trans hgrant)]
      have h := hfair hlooked
      rw [hrests.1] at h
      rw [Schema.Tables.lock_entries]
      simpa [Schema.Tables.enter, hnil] using h
    | none =>
      have hentries : ((s'.enter t ⟨.query (.find grantIn.id), s'.data, s'.data, true⟩).lock t
          (Query.locked (J := J) (.find grantIn.id) none)).entries t =
            [⟨.query (.find grantIn.id), s'.data, s'.data, true⟩] := by
        rw [Schema.Tables.lock_entries]
        simp [Schema.Tables.enter, hnil]
      have hsettled : Settled request t _ := .of_missing (by rw [hrequest]) hentries hfind
      refine serves_send hsettled fun s'' _ _ owner _ hholds hsettled => ?_
      cases owner with
      | some held => exact Schema.Discipline.serves_raise hholds (hsettled.self _)
      | none => exact serves_insert hrequest hsettled

theorem serves_body (t : T) (hrests : Schema.Discipline.Rests t s) :
    (discipline request).Serves t (body request t) s := by
  unfold body Request.handler
  cases hrequest : (request t).1 with
  | create grantIn referenced => exact serves_create (Prod.ext hrequest rfl) hrests
  | update grantId fields => exact serves_update (Prod.ext hrequest rfl) (.of_not_create (by rw [hrequest]; nofun))
  | escalate grantId escalation =>
    exact serves_escalate (Prod.ext hrequest rfl) (.of_not_create (by rw [hrequest]; nofun))
  | observe grantId observation =>
    exact serves_observe (Prod.ext hrequest rfl) (.of_not_create (by rw [hrequest]; nofun))

/-- What a request makes of a grant that is closed: it stays closed, and at most
a reading of it is kept, or a reading that finds the value opens it again while
no other live grant has its slot. -/
structure ClosedKept (request : Request J) (before after : Grants) : Prop where
  kept : ∀ grantId old new, before.find grantId = some old → after.find grantId = some new →
    old.status = .revoked → new.status = .revoked →
      { new with observationId := old.observationId, observedAt := old.observedAt,
                 slotClearReadings := old.slotClearReadings } = old
  reopened : ∀ grantId old new, before.find grantId = some old → after.find grantId = some new →
    old.status = .revoked → new.status ≠ .revoked →
      (∃ observation, request = .observe grantId observation ∧ observation.present = true) ∧
        ∀ other ∈ before, other.id ≠ grantId → other.live = true → other.slot ≠ old.slot

theorem rewrites_closed {db : Database J} {request : Request J}
    (h : db.Rewrites now request grantId grant row) (hclosed : grant.status = .revoked) :
    ∃ observation owned, request = .observe grantId observation ∧ row = readClosedGrant observation now owned grant := by
  cases h with
  | update h => exact absurd hclosed (updateRow_keeps h).1
  | escalate h => exact absurd hclosed (escalateRow_keeps h).1
  | readOpen _ _ hopen _ => exact absurd hclosed hopen
  | @readClosed _ observation _ owner _ _ _ _ => exact ⟨observation, owner.isSome, rfl, rfl⟩

section Rows

variable {grant : TemporaryAccessGrant} {observation : TemporaryAccessObservation} {owned : Bool}

theorem readClosedGrant_kept
    (h : (readClosedGrant observation now owned grant).status = .revoked) :
    { readClosedGrant observation now owned grant with
      observationId := grant.observationId, observedAt := grant.observedAt,
      slotClearReadings := grant.slotClearReadings } = grant := by
  rcases readClosedGrant_cases observation now owned grant with ⟨_, hr⟩ | ⟨_, _, hr⟩ | ⟨_, _, hr⟩
  · rw [hr]
    rfl
  · rw [hr]
    rfl
  · rw [hr] at h
    cases h

theorem readClosedGrant_reopened (hclosed : grant.status = .revoked)
    (h : (readClosedGrant observation now owned grant).status ≠ .revoked) :
    observation.present = true ∧ (readClosedGrant observation now owned grant).live = true ∧
      (readClosedGrant observation now owned grant).slot = grant.slot := by
  rcases readClosedGrant_cases observation now owned grant with ⟨_, hr⟩ | ⟨_, _, hr⟩ | ⟨hpresent, _, hr⟩
  · rw [hr] at h
    exact absurd hclosed h
  · rw [hr] at h
    exact absurd hclosed h
  · rw [hr]
    exact ⟨hpresent, rfl, rfl⟩

end Rows

theorem ClosedKept.of_same {before after : Grants} {request : Request J}
    (h : ∀ grantId old new, before.find grantId = some old → after.find grantId = some new → old.status = .revoked →
      new = old) : ClosedKept request before after := by
  refine ⟨fun grantId old new hold hnew hclosed _ => ?_, fun grantId old new hold hnew hclosed hopen => ?_⟩
  · rw [h grantId old new hold hnew hclosed]
  · rw [h grantId old new hold hnew hclosed] at hopen
    exact absurd hclosed hopen

theorem Lawful.closedKept {request : Request J × Time} {before after : Database J} (h : Lawful request before after) :
    ClosedKept request.1 before.grants after.grants := by
  obtain ⟨seen, hserved⟩ := h
  cases hserved with
  | unchanged h =>
    refine .of_same fun grantId old new hold hnew _ => ?_
    rw [h] at hnew
    exact Option.some.inj (hnew.symm.trans hold)
  | @created grantIn _ _ hmissing _ h =>
    refine .of_same fun grantId old new hold hnew _ => ?_
    have hne : grantId ≠ (grantIn.row request.2).id := by
      rintro rfl
      cases hmissing.symm.trans hold
    rw [h, Grants.find_append_of_ne hne] at hnew
    exact Option.some.inj (hnew.symm.trans hold)
  | @rewritten named grant row hgrant hrow hfree h =>
    have hnamed : row.id = named := (rewrites_id hrow).trans (Grants.find_id hgrant)
    subst hnamed
    have hfind : ∀ grantId old new, before.grants.find grantId = some old → after.grants.find grantId = some new →
        new = old ∨ (grantId = row.id ∧ old = grant ∧ new = row) := by
      intro grantId old new hold hnew
      by_cases hid : grantId = row.id
      · subst hid
        rw [h, Grants.find_replace_self hgrant] at hnew
        exact .inr ⟨rfl, Option.some.inj (hold.symm.trans hgrant), (Option.some.inj hnew).symm⟩
      · rw [h, Grants.find_replace_of_ne hid] at hnew
        exact .inl (Option.some.inj (hnew.symm.trans hold))
    by_cases hclosed : grant.status = .revoked
    · obtain ⟨observation, owned, hrequest, hread⟩ := rewrites_closed hrow hclosed
      refine ⟨fun grantId old new hold hnew _ hrevoked => ?_, fun grantId old new hold hnew hrevoked hopen => ?_⟩
      · rcases hfind grantId old new hold hnew with rfl | ⟨_, rfl, rfl⟩
        · rfl
        · rw [hread] at hrevoked ⊢
          exact readClosedGrant_kept hrevoked
      · rcases hfind grantId old new hold hnew with rfl | ⟨rfl, rfl, rfl⟩
        · exact absurd hrevoked hopen
        · rw [hread] at hopen
          obtain ⟨hpresent, hlive, hslot⟩ := readClosedGrant_reopened hclosed hopen
          rw [← hread] at hlive hslot
          refine ⟨⟨observation, hrequest, hpresent⟩, fun other hother hne hlive' => ?_⟩
          exact hslot ▸ Grants.slotFree_iff.mp (hfree hlive) other hother hne hlive'
    · refine .of_same fun grantId old new hold hnew hrevoked => ?_
      rcases hfind grantId old new hold hnew with hsame | ⟨_, rfl, _⟩
      · exact hsame
      · exact absurd hrevoked hclosed

/-- A statement served to `t`, in the request it is at or in one that is over. -/
def Entered (s : (schema J).Tables T TemporaryAccessGrant) (t : T) (entry : (schema J).Entry) : Prop :=
  entry ∈ s.entries t ∨ ∃ execution ∈ s.finished, execution.task = t ∧ entry ∈ execution.entries

structure SlotsOwned (request : T → Request J × Time) (s : (schema J).Tables T TemporaryAccessGrant) : Prop where
  oneOwner : s.data.grants.Consistent
  retried : ∀ execution ∈ s.finished, ∀ grantIn referenced,
    (request execution.task).1 = .create grantIn referenced → Retried grantIn execution.entries execution.outcome
  closed : ∀ t entry, Entered s t entry → ClosedKept (request t).1 entry.before.grants entry.after.grants

theorem reaches_slotsOwned {db : Database J} (hdb : db.grants.Consistent) {c : Config ((schema J).world T TemporaryAccessGrant)}
    (h : Reaches (body request) Schema.unblocked (.idle (Schema.Tables.opening db)) c) : SlotsOwned request c.state := by
  have hholds : (discipline request).Holds c.state :=
    Schema.Discipline.reaches_holds hdb (fun t s _ hrests => serves_body t hrests) h
  refine ⟨hholds.sound, fun execution hmem => (hholds.finished execution hmem).2, ?_⟩
  rintro t entry (hentry | ⟨execution, hmem, rfl, hentry⟩)
  · exact (hholds.lawful t entry hentry).closedKept
  · exact ((hholds.finished execution hmem).1 entry hentry).closedKept

end Requests

section Examples

theorem unblocked_alone (s : (schema J).Tables Unit TemporaryAccessGrant)
    (m : Move ((schema J).world Unit TemporaryAccessGrant)) : Schema.unblocked s m := by
  cases m with
  | call t op answer =>
    cases op with
    | commit write => trivial
    | query query =>
      intro _ key _ _
      cases s.locks key with
      | none => exact .inl rfl
      | some u => exact .inr rfl
  | _ => trivial

def sampleRows : Database Unit :=
  ((Journal.opening fun _ => none).serveAll (Journal.takenBack ++ [(Journal.clearReading "reading-1", 700),
    (.create { Journal.sampleGrant with id := "tempaccess-qa-2", qaRunId := "qa-2" } true, 800)])).database

def sampleReading : Unit → Request Unit × Time := fun _ =>
  (.observe Journal.sampleGrant.id ⟨"reading-2", 7, "server", "project", "TEST_USER_ID", true, 1⟩, 900)

abbrev sampleWorld : World (schema Unit).interface Unit TemporaryAccessGrant := (schema Unit).world Unit _

def sampleStart : Config sampleWorld := .idle (Schema.Tables.opening sampleRows)

def sampleRun : Config sampleWorld :=
  sampleStart.play (body sampleReading)
    [.start (), .call () fun _ => .served, .call () fun _ => .served, .call () fun _ => .served]

theorem sampleRows_consistent : sampleRows.grants.Consistent := ⟨by decide +kernel, by decide +kernel⟩

theorem sampleRun_reaches :
    Reaches (W := sampleWorld) (body sampleReading) Schema.unblocked sampleStart sampleRun :=
  Reaches.mono (play_reaches_anyMove _ _ _) fun s m _ => unblocked_alone s m

theorem sampleRun_slotsOwned : SlotsOwned sampleReading sampleRun.state ∧
    (sampleRun.state.data.grants.find Journal.sampleGrant.id).map (·.status) = some .revoked :=
  ⟨reaches_slotsOwned sampleRows_consistent sampleRun_reaches, by decide +kernel⟩

/-- A reading that finds the value on a closed grant whose slot has an owner is
kept, so it does not leave the rows as they were. -/
theorem owned_reading_is_kept : ¬∀ (T : Type) [DecidableEq T] (request : T → Request Unit × Time)
    (db : Database Unit) (c : Config ((schema Unit).world T TemporaryAccessGrant)), db.grants.Consistent →
    Reaches (body request) Schema.unblocked (.idle (Schema.Tables.opening db)) c →
    ∀ t entry, Entered c.state t entry → ∀ grantId observation, (request t).1 = .observe grantId observation →
      observation.present = true → ∀ old, entry.before.grants.find grantId = some old → old.status = .revoked →
        (∃ other ∈ entry.before.grants, other.live = true ∧ other.slot = old.slot) →
          entry.after.grants = entry.before.grants := by
  intro h
  have hchanged : (sampleRun.state.entries ()).getLast?.map
      (fun entry => decide (entry.after.grants = entry.before.grants)) = some false := by decide +kernel
  have howned : (sampleRun.state.entries ()).getLast?.map (fun entry =>
      (entry.before.grants.find Journal.sampleGrant.id).map fun old => (old.status,
        decide (∃ other ∈ entry.before.grants, other.live = true ∧ other.slot = old.slot))) =
      some (some (.revoked, true)) := by decide +kernel
  obtain ⟨entry, hentry, hchanged⟩ := Option.map_eq_some_iff.mp hchanged
  rw [hentry, Option.map_some, Option.some.injEq] at howned
  obtain ⟨old, hold, howned⟩ := Option.map_eq_some_iff.mp howned
  rw [Prod.mk.injEq, decide_eq_true_eq] at howned
  exact of_decide_eq_false hchanged (h Unit sampleReading sampleRows sampleRun sampleRows_consistent sampleRun_reaches
    () entry (.inl (List.mem_of_getLast? hentry)) _ _ rfl rfl old hold howned.1 howned.2)

end Examples

end Orchestrator.Access
