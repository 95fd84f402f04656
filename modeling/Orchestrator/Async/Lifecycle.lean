import Mathlib.Data.List.Chain
import Orchestrator.Async.Transactions

/-!
Rows with a status that requests move. A request reads a row, decides from the
status it has read what the row is moved to, and commits the move together with
the events that tell of it. Where a row is not moved between the two, the events
of a row are one walk from the status it was made with to the one it has.
-/

namespace Orchestrator.Async

structure Lifecycle where
  Status : Type
  Row : Type
  Note : Type
  Rest : Type
  Question : Type
  Answer : Question → Type
  Exn : Type
  next : Status → List Status
  status : Row → Status
  setStatus : Status → Row → Row
  status_setStatus : ∀ status' row, status (setStatus status' row) = status'
  answer : (question : Question) → Rest → Except Exn (Answer question)
  vanished : Exn
  duplicate : Exn

section Walks

variable {A : Type} {next : A → List A} {a b c : A} {step step' : A × A} {steps steps' : List (A × A)}

def Walk (next : A → List A) : A → List (A × A) → A → Prop
  | a, [], b => a = b
  | a, step :: steps, b => step.1 = a ∧ step.2 ∈ next a ∧ Walk next step.2 steps b

theorem Walk.append (h : Walk next a steps b) (h' : Walk next b steps' c) : Walk next a (steps ++ steps') c := by
  induction steps generalizing a with
  | nil =>
    cases h
    exact h'
  | cons step steps ih => exact ⟨h.1, h.2.1, ih h.2.2⟩

theorem Walk.split (h : Walk next a (steps ++ steps') c) : ∃ b, Walk next a steps b ∧ Walk next b steps' c := by
  induction steps generalizing a with
  | nil => exact ⟨a, rfl, h⟩
  | cons step steps ih =>
    obtain ⟨b, hfirst, hrest⟩ := ih h.2.2
    exact ⟨b, ⟨h.1, h.2.1, hfirst⟩, hrest⟩

theorem Walk.statuses (h : Walk next a steps b) : List.IsChain (fun x y => y ∈ next x) (a :: steps.map Prod.snd) := by
  induction steps generalizing a with
  | nil => exact .singleton a
  | cons step steps ih => exact .cons_cons h.2.1 (ih h.2.2)

theorem Walk.last (h : Walk next a steps b) : (a :: steps.map Prod.snd).getLast (by simp) = b := by
  induction steps generalizing a with
  | nil => exact h
  | cons step steps ih => exact (List.getLast_cons (by simp)).trans (ih h.2.2)

theorem Walk.chain (h : Walk next a steps b) : List.IsChain (fun step step' => step'.1 = step.2) steps := by
  induction steps generalizing a with
  | nil => exact .nil
  | cons step steps ih =>
    cases steps with
    | nil => exact .singleton step
    | cons step' steps => exact .cons_cons h.2.2.1 (ih h.2.2)

theorem Walk.arrives (h : Walk next a steps b) : b = a ∨ ∃ step ∈ steps, step.2 = b := by
  induction steps generalizing a with
  | nil => exact .inl h.symm
  | cons step steps ih =>
    rcases ih h.2.2 with hlast | ⟨step', hmem, hstep⟩
    · exact .inr ⟨step, List.mem_cons_self, hlast.symm⟩
    · exact .inr ⟨step', List.mem_cons_of_mem _ hmem, hstep⟩

theorem Walk.returns {older mid newer : List (A × A)} (h : Walk next a (older ++ step :: mid ++ step' :: newer) b) :
    ∃ back ∈ step :: mid, back.2 = step'.1 := by
  rw [List.append_assoc, List.cons_append] at h
  obtain ⟨_, _, h⟩ := h.split
  obtain ⟨c, hmid, hrest⟩ := h.2.2.split
  rw [hrest.1]
  rcases hmid.arrives with hsame | ⟨back, hmem, hback⟩
  · exact ⟨step, List.mem_cons_self, hsame.symm⟩
  · exact ⟨back, List.mem_cons_of_mem _ hmem, hback⟩

end Walks

namespace Lifecycle

variable {L : Lifecycle}

structure Event (L : Lifecycle) where
  rowId : String
  change : Option (L.Status × L.Status)
  note : L.Note

structure Store (L : Lifecycle) where
  rows : String → Option L.Row
  events : List L.Event
  created : String → Option L.Status
  rest : L.Rest

structure Change (L : Lifecycle) where
  status : Option L.Status
  assign : L.Row → L.Row
  events : List (Option (L.Status × L.Status) × L.Note)
  rest : L.Rest → L.Rest

def Change.move (fromStatus toStatus : L.Status) (note : L.Note) : L.Change :=
  ⟨some toStatus, id, [(some (fromStatus, toStatus), note)], id⟩

def Change.steps (change : L.Change) : List (L.Status × L.Status) := change.events.filterMap Prod.fst

def Change.apply (change : L.Change) (row : L.Row) : L.Row :=
  match change.status with
  | none => change.assign row
  | some status => L.setStatus status (change.assign row)

inductive Write (L : Lifecycle) where
  | insert (rowId : String) (row : L.Row) (refused : Option L.Exn)
  | update (rowId : String) (change : L.Change) (refused : Option L.Exn)

inductive Query (L : Lifecycle) where
  | find (rowId : String)
  | lock (rowId : String)
  | ask (question : L.Question)

def Query.Result : L.Query → Type
  | .find _ => Option L.Row
  | .lock _ => Option L.Row
  | .ask question => L.Answer question

namespace Store

def steps (store : L.Store) (rowId : String) : List (L.Status × L.Status) :=
  store.events.filterMap fun event => if event.rowId = rowId then event.change else none

def statusOf (store : L.Store) (rowId : String) : Option L.Status := (store.rows rowId).map L.status

def find (store : L.Store) : (query : L.Query) → Except L.Exn query.Result
  | .find rowId => .ok (store.rows rowId)
  | .lock rowId => .ok (store.rows rowId)
  | .ask question => L.answer question store.rest

def insert (store : L.Store) (rowId : String) (row : L.Row) : Except L.Exn L.Store :=
  match store.rows rowId with
  | some _ => .error L.duplicate
  | none => .ok { store with
      rows := Function.update store.rows rowId (some row)
      created := Function.update store.created rowId (some (L.status row)) }

def update (store : L.Store) (rowId : String) (change : L.Change) : Except L.Exn L.Store :=
  match store.rows rowId with
  | none => .error L.vanished
  | some row => .ok { store with
      rows := Function.update store.rows rowId (some (change.apply row))
      events := store.events ++ change.events.map fun event => ⟨rowId, event.1, event.2⟩
      rest := change.rest store.rest }

def write (store : L.Store) : L.Write → Except L.Exn L.Store
  | .insert rowId row none => store.insert rowId row
  | .update rowId change none => store.update rowId change
  | .insert _ _ (some e) => .error e
  | .update _ _ (some e) => .error e

end Store

def Query.locked : (query : L.Query) → Query.Result query → Option String
  | .lock rowId, (some _ : Option L.Row) => some rowId
  | _, _ => none

abbrev schema (L : Lifecycle) : Schema where
  Data := L.Store
  Exn := L.Exn
  Key := String
  Query := L.Query
  Result := Query.Result
  answer query store := store.find query
  locked := Query.locked
  Write := L.Write
  write write store := store.write write

abbrev Handler (L : Lifecycle) (A : Type) := Prog L.schema.interface A

def find (rowId : String) : L.Handler (Option L.Row) := L.schema.query (.find rowId)

def lock (rowId : String) : L.Handler (Option L.Row) := L.schema.query (.lock rowId)

def ask (question : L.Question) : L.Handler (L.Answer question) := L.schema.query (.ask question)

def load (rowId : String) (missing : L.Exn) : L.Handler L.Row :=
  (find rowId).bind fun
    | none => .raise missing
    | some row => .ret row

def make (rowId : String) (row : L.Row) (refused : Option L.Exn) : L.Handler L.Row := do
  L.schema.commit (.insert rowId row refused)
  load rowId L.vanished

def save (rowId : String) (change : L.Change) (refused : Option L.Exn) : L.Handler L.Row := do
  L.schema.commit (.update rowId change refused)
  load rowId L.vanished

def revise (rowId : String) (missing : L.Exn) (refused : Option L.Exn) (decide : L.Row → Except L.Exn L.Change) :
    L.Handler L.Row := do
  let row ← load rowId missing
  let change ← Prog.ofExcept (decide row)
  save rowId change refused

structure Coherent (store : L.Store) : Prop where
  walks : ∀ rowId row, store.rows rowId = some row →
    ∃ first, store.created rowId = some first ∧ Walk L.next first (store.steps rowId) (L.status row)
  unmade : ∀ rowId, store.rows rowId = none → store.steps rowId = []

structure Change.Lawful (change : L.Change) (status : L.Status) : Prop where
  keeps : ∀ row, L.status (change.assign row) = L.status row
  walks : Walk L.next status change.steps (change.status.getD status)
  quiet : change.status = none → change.steps = []

section Stores

variable {store store' : L.Store} {rowId : String} {row : L.Row} {change : L.Change} {status : L.Status}

theorem Change.lawful_move {toStatus : L.Status} {note : L.Note} (h : toStatus ∈ L.next status) :
    (Change.move status toStatus note).Lawful status :=
  ⟨fun _ => rfl, ⟨rfl, h, rfl⟩, fun hnone => by cases hnone⟩

theorem Change.Lawful.apply (h : change.Lawful status) (row : L.Row) :
    L.status (change.apply row) = change.status.getD (L.status row) := by
  unfold Change.apply
  cases change.status with
  | none => exact h.keeps row
  | some status => exact L.status_setStatus status _

theorem Store.insert_ok (h : store.insert rowId row = .ok store') :
    store.rows rowId = none ∧ store'.rows = Function.update store.rows rowId (some row) ∧
      store'.created = Function.update store.created rowId (some (L.status row)) ∧ store'.events = store.events := by
  unfold Store.insert at h
  split at h
  · cases h
  · next hnew =>
    cases h
    exact ⟨hnew, rfl, rfl, rfl⟩

theorem Store.update_ok (h : store.update rowId change = .ok store') :
    ∃ row, store.rows rowId = some row ∧ store'.rows = Function.update store.rows rowId (some (change.apply row)) ∧
      store'.created = store.created ∧
      ∀ otherId, store'.steps otherId = store.steps otherId ++ if rowId = otherId then change.steps else [] := by
  unfold Store.update at h
  split at h
  · cases h
  next row hrow =>
  cases h
  refine ⟨row, hrow, rfl, rfl, fun otherId => ?_⟩
  unfold Store.steps Change.steps
  rw [List.filterMap_append, List.filterMap_map]
  refine congrArg (store.steps otherId ++ ·) ?_
  by_cases hid : rowId = otherId
  · simp only [Function.comp_def, hid, if_true]
  · simp [hid]

theorem Coherent.insert (h : Coherent store) (hinsert : store.insert rowId row = .ok store') : Coherent store' := by
  obtain ⟨hnew, hrows, hcreated, hevents⟩ := Store.insert_ok hinsert
  have hsteps : ∀ otherId, store'.steps otherId = store.steps otherId := fun otherId => by
    unfold Store.steps
    rw [hevents]
  refine ⟨fun otherId other hother => ?_, fun otherId hother => ?_⟩
  · rw [hrows] at hother
    rw [hsteps, hcreated]
    by_cases hid : otherId = rowId
    · subst hid
      rw [Function.update_self, Option.some.injEq] at hother
      subst hother
      rw [h.unmade otherId hnew, Function.update_self]
      exact ⟨L.status row, rfl, rfl⟩
    · rw [Function.update_of_ne hid] at hother
      rw [Function.update_of_ne hid]
      exact h.walks otherId other hother
  · rw [hrows] at hother
    rw [hsteps]
    by_cases hid : otherId = rowId
    · exact hid ▸ h.unmade rowId hnew
    · rw [Function.update_of_ne hid] at hother
      exact h.unmade otherId hother

theorem Coherent.update (h : Coherent store) (hlawful : change.Lawful status)
    (hstatus : change.status.isSome = true → store.statusOf rowId = some status)
    (hupdate : store.update rowId change = .ok store') : Coherent store' := by
  obtain ⟨row, hrow, hrows, hcreated, hsteps⟩ := Store.update_ok hupdate
  refine ⟨fun otherId other hother => ?_, fun otherId hother => ?_⟩
  · rw [hrows] at hother
    rw [hcreated, hsteps]
    by_cases hid : otherId = rowId
    · subst hid
      rw [Function.update_self, Option.some.injEq] at hother
      subst hother
      obtain ⟨first, hfirst, hwalk⟩ := h.walks otherId row hrow
      refine ⟨first, hfirst, hwalk.append ?_⟩
      rw [if_pos rfl, hlawful.apply]
      cases hset : change.status with
      | none => exact (hlawful.quiet hset).symm ▸ rfl
      | some next =>
        have hread := hstatus (by rw [hset]; rfl)
        rw [Store.statusOf, hrow, Option.map_some, Option.some.injEq] at hread
        have hwalks := hlawful.walks
        rw [hset] at hwalks
        rw [hread]
        exact hwalks
    · rw [Function.update_of_ne hid] at hother
      rw [if_neg (Ne.symm hid), List.append_nil]
      exact h.walks otherId other hother
  · rw [hrows] at hother
    rw [hsteps]
    by_cases hid : otherId = rowId
    · subst hid
      rw [Function.update_self] at hother
      cases hother
    · rw [Function.update_of_ne hid] at hother
      rw [if_neg (Ne.symm hid), List.append_nil]
      exact h.unmade otherId hother

end Stores

section Runs

open Schema.Discipline Rules

variable {T R : Type} [DecidableEq T]

def readsRow (rowId : String) (entry : L.schema.Entry) : Bool :=
  match entry.statement with
  | .query (.find found) => found == rowId
  | _ => false

def undisturbed (s : L.schema.Tables T R) : Move (L.schema.world T R) → Prop
  | .call t (.commit (.update rowId change _)) fate => fate.carriedOut = true → change.status.isSome = true →
      ∀ entry ∈ s.entries t, readsRow rowId entry = true → entry.before.statusOf rowId = s.data.statusOf rowId
  | m => Schema.unblocked s m

instance [DecidableEq L.Status] (s : L.schema.Tables T R) (m : Move (L.schema.world T R)) : Decidable (undisturbed s m) := by
  unfold undisturbed
  split <;> infer_instance

def discipline : Schema.Discipline L.schema T R where
  admits := undisturbed
  sound := Coherent
  lawful _ _ _ := True
  lawful_refl _ _ := trivial
  steady _ _ _ := True
  steady_refl _ _ := trivial
  steady_trans _ _ := trivial
  fair _ _ _ := True
  fair_nil _ := trivial

def Seen (t : T) (rowId : String) (status : L.Status) (s : L.schema.Tables T R) : Prop :=
  ∃ entry ∈ s.entries t, readsRow rowId entry = true ∧ entry.before.statusOf rowId = some status

abbrev rules (L : Lifecycle) (T R : Type) [DecidableEq T] : Rules (L.schema.world T R) :=
  (discipline (L := L) (T := T) (R := R)).rules

variable {t : T} {s : L.schema.Tables T R} {rowId : String} {status : L.Status} {change : L.Change}

theorem Seen.run {statement : L.schema.Statement} {fate : Fate L.Exn} (h : Seen t rowId status s) :
    Seen t rowId status (Schema.Tables.run t statement fate s).2 := by
  obtain ⟨entry, hentry, hread⟩ := h
  exact ⟨entry, Schema.Tables.run_entries statement fate s hentry, hread⟩

theorem seen_stable : (L.rules T R).Stable t (Seen t rowId status) := by
  rintro s s' _ hr ⟨entry, hentry, hread⟩
  exact ⟨entry, hr.entries.symm ▸ hentry, hread⟩

theorem anywhere_stable : (L.rules T R).Stable t fun _ => True := fun _ _ _ _ _ => trivial

theorem query_serves {query : L.Query} {fate : Fate L.Exn} (hi : (L.rules T R).inv s)
    (hadm : (L.rules T R).admits s (.call t (.query query) fate)) :
    (L.rules T R).Keeps t s ((L.schema.world T R).run t (.query query) fate s).2 :=
  query_keeps hadm hi fun _ => trivial

theorem query_maintains (query : L.Query) : (L.rules T R).Maintains t (Seen t rowId status) (L.schema.query query) :=
  .perform seen_stable fun _ hi hseen _ hadm => ⟨query_serves hi hadm, hseen.run⟩

theorem query_anywhere (query : L.Query) : (L.rules T R).Maintains t (fun _ => True) (L.schema.query query) :=
  .perform anywhere_stable fun _ hi _ _ hadm => ⟨query_serves hi hadm, trivial⟩

theorem load_anywhere (rowId : String) (missing : L.Exn) :
    (L.rules T R).Maintains t (fun _ => True) (load rowId missing) := by
  refine .bind (query_anywhere _) fun found => ?_
  cases found with
  | none => exact .raise missing
  | some row => exact .ret row

theorem load_safe {missing : L.Exn} (hi : (L.rules T R).inv s) :
    (L.rules T R).Safe t (fun answer s => ∀ row, answer = .ok row → Seen t rowId (L.status row) s)
      (load rowId missing) s := by
  refine Safe.bind (M := fun answer s => ∀ row, answer = .ok (some row) → Seen t rowId (L.status row) s) hi
    (Safe.perform fun s' hi' _ fate hadm => ⟨query_serves hi' hadm, fun row hrow => ?_⟩) (fun found s _ h => ?_)
    fun _ _ _ _ _ hrow => by cases hrow
  · cases fate with
    | served =>
      have hfound : s'.data.rows rowId = some row := Except.ok.inj hrow
      refine ⟨⟨.query (.find rowId), s'.data, s'.data, true⟩, ?_, beq_self_eq_true rowId, ?_⟩
      · simp [Schema.Tables.run, Schema.Tables.serve, Store.find, Schema.Tables.enter]
      · exact congrArg (Option.map L.status) hfound
    | _ => cases hrow
  · cases found with
    | none => exact fun _ hrow => by cases hrow
    | some row =>
      intro row' hrow
      cases hrow
      exact h row rfl

variable {refused : Option L.Exn}

theorem save_safe (hlawful : change.Lawful status) (hseen : Seen t rowId status s)
    (hi : (L.rules T R).inv s) : (L.rules T R).Safe t (fun _ _ => True) (save rowId change refused) s := by
  refine Safe.bind (M := fun _ _ => True) hi (Safe.perform fun s' hi' hr fate hadm => ⟨?_, trivial⟩)
    (fun _ s hi _ => load_anywhere rowId L.vanished s hi trivial) fun _ _ _ _ => trivial
  obtain ⟨entry, hentry, hread, hstatus⟩ := seen_stable s s' hi' hr hseen
  refine commit_keeps hi' (fun _ _ => trivial) fun hcarried after hwrite => ⟨?_, trivial, fun _ _ _ _ => trivial⟩
  cases refused with
  | some e => cases hwrite
  | none =>
    refine Coherent.update hi'.sound hlawful (fun hset => ?_) hwrite
    rw [← hadm hcarried hset entry hentry hread]
    exact hstatus

theorem revise_safe {missing : L.Exn} {decide : L.Row → Except L.Exn L.Change}
    (hdecide : ∀ row change, decide row = .ok change → change.Lawful (L.status row)) (hi : (L.rules T R).inv s) :
    (L.rules T R).Safe t (fun _ _ => True) (revise rowId missing refused decide) s := by
  refine Safe.bind hi (load_safe hi) (fun row s hi hseen => ?_) fun _ _ _ _ => trivial
  cases hdecided : decide row with
  | error e => trivial
  | ok change => exact save_safe (hdecide row change hdecided) (hseen row rfl) hi

theorem make_safe {row : L.Row} (hi : (L.rules T R).inv s) :
    (L.rules T R).Safe t (fun _ _ => True) (make rowId row refused) s := by
  refine Safe.bind (M := fun _ _ => True) hi (Safe.perform fun s' hi' _ fate _ => ⟨?_, trivial⟩)
    (fun _ s hi _ => load_anywhere rowId L.vanished s hi trivial) fun _ _ _ _ => trivial
  refine commit_keeps hi' (fun _ _ => trivial) fun _ after hwrite => ⟨?_, trivial, fun _ _ _ _ => trivial⟩
  cases refused with
  | some e => cases hwrite
  | none => exact Coherent.insert hi'.sound hwrite

/-- The statuses of a row are a walk from the one it was made with to the one it
has, its transitions follow on each other, and of two transitions from one
status the row came back to it in between. -/
structure Linear (store : L.Store) (rowId : String) (status : L.Status) : Prop where
  statuses : ∃ first, store.created rowId = some first ∧
    List.IsChain (fun a b => b ∈ L.next a) (first :: (store.steps rowId).map Prod.snd) ∧
    (first :: (store.steps rowId).map Prod.snd).getLast (by simp) = status
  follows : List.IsChain (fun step step' => step'.1 = step.2) (store.steps rowId)
  exclusive : ∀ older step mid step' newer, store.steps rowId = older ++ step :: mid ++ step' :: newer →
    step.1 = step'.1 → ∃ back ∈ step :: mid, back.2 = step'.1

def Store.Linearized (store : L.Store) : Prop :=
  ∀ rowId status, store.statusOf rowId = some status → Linear store rowId status

theorem Coherent.linearized {store : L.Store} (h : Coherent store) : store.Linearized := by
  intro rowId status hstatus
  obtain ⟨row, hrow, rfl⟩ := Option.map_eq_some_iff.mp hstatus
  obtain ⟨first, hfirst, hwalk⟩ := h.walks rowId row hrow
  refine ⟨⟨first, hfirst, hwalk.statuses, hwalk.last⟩, hwalk.chain, fun older step mid step' newer hsteps _ => ?_⟩
  rw [hsteps] at hwalk
  exact hwalk.returns

def Store.opening (rest : L.Rest) : L.Store := ⟨fun _ => none, [], fun _ => none, rest⟩

theorem reaches_coherent {body : T → L.Handler R} {rest : L.Rest} {c : Config (L.schema.world T R)}
    (hbody : ∀ t s, (L.rules T R).inv s → (L.rules T R).Safe t (fun _ _ => True) (body t) s)
    (h : Reaches body undisturbed (.idle (Schema.Tables.opening (Store.opening rest))) c) : Coherent c.state.data := by
  have hopening : Coherent (Store.opening rest) := ⟨fun _ _ hrow => (by cases hrow), fun _ _ => rfl⟩
  refine (reaches_holds (D := discipline) hopening (fun t s hholds _ => ?_) h).sound
  exact (hbody t s hholds).conseq hholds fun _ _ hholds _ => ended_ends hholds trivial

end Runs

end Lifecycle

end Orchestrator.Async
