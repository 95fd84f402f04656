import Orchestrator.Async.Interference

/-!
Requests over one database. A request sends queries, each answered from the
rows as they are committed at that moment, and then commits once. A query may
lock a row, which keeps the row locked until the request commits or ends, and a
commit is refused when it breaks a constraint of the tables. Every statement
that is served is written down, with the rows before it and after it.
-/

namespace Orchestrator.Async

structure Schema where
  Data : Type
  Exn : Type
  Key : Type
  Query : Type
  Result : Query → Type
  answer : (query : Query) → Data → Except Exn (Result query)
  locked : (query : Query) → Result query → Option Key
  Write : Type
  write : Write → Data → Except Exn Data

namespace Schema

inductive Statement (S : Schema) where
  | query (query : S.Query)
  | commit (write : S.Write)

abbrev interface (S : Schema) : Interface where
  Op := S.Statement
  Res
    | .query query => S.Result query
    | .commit _ => Unit
  Exn := S.Exn

structure Entry (S : Schema) where
  statement : S.Statement
  before : S.Data
  after : S.Data
  heard : Bool

/-- A request that is over, with the statements of it that were served, oldest
first; one that was cut off has no outcome. -/
structure Execution (S : Schema) (T R : Type) where
  task : T
  entries : List S.Entry
  outcome : Option (Except S.Exn R)

structure Tables (S : Schema) (T R : Type) where
  data : S.Data
  locks : S.Key → Option T
  entries : T → List S.Entry
  finished : List (S.Execution T R)

variable {S : Schema} {T R : Type}

def Tables.opening (data : S.Data) : S.Tables T R := ⟨data, fun _ => none, fun _ => [], []⟩

def query (query : S.Query) : Prog S.interface (S.Result query) :=
  Prog.perform (I := S.interface) (.query query)

def commit (write : S.Write) : Prog S.interface Unit := Prog.perform (I := S.interface) (.commit write)

section Solo

variable {A : Type}

def solo : Prog S.interface A → S.Data → Except S.Exn A × S.Data
  | .ret a, data => (.ok a, data)
  | .raise e, data => (.error e, data)
  | .call (.query query) next, data => solo (next (S.answer query data)) data
  | .call (.commit write) next, data => match S.write write data with
    | .ok after => solo (next (.ok ())) after
    | .error e => solo (next (.error e)) data

@[simp] theorem solo_query (query : S.Query) (f : S.Result query → Prog S.interface A) (data : S.Data) :
    solo ((S.query query).bind f) data = match S.answer query data with
      | .ok answer => solo (f answer) data
      | .error e => (.error e, data) := by
  unfold Schema.query Prog.perform
  simp only [Prog.bind_call, solo]
  cases S.answer query data <;> rfl

@[simp] theorem solo_commit (write : S.Write) (f : Unit → Prog S.interface A) (data : S.Data) :
    solo ((S.commit write).bind f) data = match S.write write data with
      | .ok after => solo (f ()) after
      | .error e => (.error e, data) := by
  unfold Schema.commit Prog.perform
  simp only [Prog.bind_call, solo]
  cases S.write write data <;> rfl

end Solo

variable [DecidableEq T] [DecidableEq S.Key]

namespace Tables

def enter (s : S.Tables T R) (t : T) (entry : S.Entry) : S.Tables T R :=
  { s with data := entry.after, entries := Function.update s.entries t (s.entries t ++ [entry]) }

def lock (s : S.Tables T R) (t : T) : Option S.Key → S.Tables T R
  | none => s
  | some key => { s with locks := Function.update s.locks key (some t) }

omit [DecidableEq T] in
@[simp] theorem lock_data (s : S.Tables T R) (t : T) (key : Option S.Key) : (s.lock t key).data = s.data := by
  cases key <;> rfl

omit [DecidableEq T] in
@[simp] theorem lock_entries (s : S.Tables T R) (t : T) (key : Option S.Key) :
    (s.lock t key).entries = s.entries := by
  cases key <;> rfl

def release (s : S.Tables T R) (t : T) : S.Tables T R :=
  { s with locks := fun key => if s.locks key = some t then none else s.locks key }

def serve (t : T) (heard : Bool) : (statement : S.Statement) → S.Tables T R →
    Except S.Exn (S.interface.Res statement) × S.Tables T R
  | .query query, s => match S.answer query s.data with
    | .ok answer => (.ok answer, (s.enter t ⟨.query query, s.data, s.data, heard⟩).lock t (S.locked query answer))
    | .error e => (.error e, s.enter t ⟨.query query, s.data, s.data, heard⟩)
  | .commit write, s => match S.write write s.data with
    | .ok after => (.ok (), (s.enter t ⟨.commit write, s.data, after, heard⟩).release t)
    | .error e => (.error e, s.enter t ⟨.commit write, s.data, s.data, heard⟩)

def run (t : T) (statement : S.Statement) (fate : Fate S.Exn) (s : S.Tables T R) :
    Except S.Exn (S.interface.Res statement) × S.Tables T R :=
  match fate with
  | .served => serve t true statement s
  | .unheard e => (.error e, (serve t false statement s).2)
  | .unsent e => (.error e, s)

theorem run_entries {t : T} (statement : S.Statement) (fate : Fate S.Exn) (s : S.Tables T R) {entry : S.Entry}
    (h : entry ∈ s.entries t) : entry ∈ (run t statement fate s).2.entries t := by
  have hserve : ∀ heard, entry ∈ (serve t heard statement s).2.entries t := by
    intro heard
    cases statement with
    | query query =>
      simp only [serve]
      cases S.answer query s.data with
      | ok answer | error e => simp [enter, h]
    | commit write =>
      simp only [serve]
      cases S.write write s.data with
      | ok after => simp [enter, release, h]
      | error e => simp [enter, h]
  cases fate with
  | served => exact hserve true
  | unheard e => exact hserve false
  | unsent e => exact h

def ended (t : T) (outcome : Option (Except S.Exn R)) (s : S.Tables T R) : S.Tables T R :=
  { s.release t with
    entries := Function.update s.entries t []
    finished := ⟨t, s.entries t, outcome⟩ :: s.finished }

end Tables

abbrev world (S : Schema) (T R : Type) [DecidableEq T] [DecidableEq S.Key] : World S.interface T R where
  State := S.Tables T R
  Answer _ := Fate S.Exn
  run := Tables.run
  ended := Tables.ended

def unblocked (s : S.Tables T R) : Move (S.world T R) → Prop
  | .call t (.query query) _ => ∀ answer key, S.answer query s.data = .ok answer →
      S.locked query answer = some key → s.locks key = none ∨ s.locks key = some t
  | _ => True

instance (s : S.Tables T R) : (m : Move (S.world T R)) → Decidable (unblocked s m)
  | .start _ => .isTrue trivial
  | .stop _ => .isTrue trivial
  | .call _ (.commit _) _ => .isTrue trivial
  | .call t (.query query) _ =>
    match hanswer : S.answer query s.data with
    | .error e => .isTrue fun _ _ h => nomatch hanswer.symm.trans h
    | .ok answer =>
      match hlocked : S.locked query answer with
      | none => .isTrue fun _ _ h h' => by
          cases hanswer.symm.trans h
          cases hlocked.symm.trans h'
      | some key => decidable_of_iff (s.locks key = none ∨ s.locks key = some t)
          ⟨fun hfree _ _ h h' => by
            cases hanswer.symm.trans h
            cases hlocked.symm.trans h'
            exact hfree, fun hall => hall answer key hanswer hlocked⟩

/-- What the requests of a database promise each other. `steady` is what the
holder of a row's lock finds unchanged, `lawful` what a request may make of the
rows, and `fair` what the statements of one request and its outcome satisfy. -/
structure Discipline (S : Schema) (T R : Type) [DecidableEq T] [DecidableEq S.Key] where
  admits : S.Tables T R → Move (S.world T R) → Prop
  sound : S.Data → Prop
  lawful : T → S.Data → S.Data → Prop
  lawful_refl : ∀ t d, lawful t d d
  steady : S.Key → S.Data → S.Data → Prop
  steady_refl : ∀ key d, steady key d d
  steady_trans : ∀ {key d d' d''}, steady key d d' → steady key d' d'' → steady key d d''
  fair : T → List S.Entry → Option (Except S.Exn R) → Prop
  fair_nil : ∀ t, fair t [] none

namespace Discipline

variable (D : Discipline S T R)

structure Holds (s : S.Tables T R) : Prop where
  sound : D.sound s.data
  lawful : ∀ t, ∀ entry ∈ s.entries t, D.lawful t entry.before entry.after
  fair : ∀ t, D.fair t (s.entries t) none
  finished : ∀ execution ∈ s.finished,
    (∀ entry ∈ execution.entries, D.lawful execution.task entry.before entry.after) ∧
      D.fair execution.task execution.entries execution.outcome

structure Tolerates (t : T) (s s' : S.Tables T R) : Prop where
  entries : s'.entries t = s.entries t
  locks : ∀ key, s'.locks key = some t ↔ s.locks key = some t
  steady : ∀ key, s.locks key = some t → D.steady key s.data s'.data

def Rests (t : T) (s : S.Tables T R) : Prop := s.entries t = [] ∧ ∀ key, s.locks key ≠ some t

abbrev rules : Rules (S.world T R) where
  admits := D.admits
  inv := D.Holds
  rely := D.Tolerates
  rely_refl _ _ := ⟨rfl, fun _ => .rfl, fun _ _ => D.steady_refl _ _⟩
  rely_trans h h' := ⟨h'.entries.trans h.entries, fun key => (h'.locks key).trans (h.locks key),
    fun key hk => D.steady_trans (h.steady key hk) (h'.steady key ((h.locks key).mpr hk))⟩
  rest := Rests
  rest_stable := fun _ h hrest => ⟨h.entries.trans hrest.1, fun key hk => hrest.2 key ((h.locks key).mp hk)⟩

variable {D} {t : T} {s : S.Tables T R}

theorem enter_keeps {entry : S.Entry} (h : D.Holds s) (hbefore : entry.before = s.data) (hsound : D.sound entry.after)
    (hlawful : D.lawful t s.data entry.after)
    (hsteady : ∀ u, u ≠ t → ∀ key, s.locks key = some u → D.steady key s.data entry.after)
    (hfair : D.fair t (s.entries t ++ [entry]) none) : D.rules.Keeps t s (s.enter t entry) := by
  refine ⟨⟨hsound, fun u entry hentry => ?_, fun u => ?_, h.finished⟩, fun u hu => ⟨?_, fun _ => .rfl, hsteady u hu⟩⟩
  · by_cases hu : u = t
    · subst hu
      simp only [Tables.enter, Function.update_self, List.mem_append, List.mem_singleton] at hentry
      rcases hentry with hentry | rfl
      · exact h.lawful u _ hentry
      · rw [hbefore]
        exact hlawful
    · simp only [Tables.enter, Function.update_of_ne hu] at hentry
      exact h.lawful u entry hentry
  · by_cases hu : u = t
    · subst hu
      simpa only [Tables.enter, Function.update_self] using hfair
    · simpa only [Tables.enter, Function.update_of_ne hu] using h.fair u
  · simp only [Tables.enter, Function.update_of_ne hu]

theorem lock_keeps {key : Option S.Key} (h : D.Holds s)
    (hfree : ∀ k ∈ key, s.locks k = none ∨ s.locks k = some t) : D.rules.Keeps t s (s.lock t key) := by
  cases key with
  | none => exact .refl _ h
  | some k =>
    refine ⟨⟨h.sound, h.lawful, h.fair, h.finished⟩, fun u hu => ⟨rfl, fun key => ?_, fun _ _ => D.steady_refl _ _⟩⟩
    by_cases hk : key = k
    · subst hk
      simp only [Tables.lock, Function.update_self, Option.some.injEq, Ne.symm hu, false_iff]
      rcases hfree key rfl with hnone | hown
      · simp [hnone]
      · simp [hown, Ne.symm hu]
    · simp only [Tables.lock, Function.update_of_ne hk]

omit [DecidableEq S.Key] in
theorem release_locks (s : S.Tables T R) {t u : T} (hu : u ≠ t) (key : S.Key) :
    (s.release t).locks key = some u ↔ s.locks key = some u := by
  by_cases hk : s.locks key = some t
  · simpa [Tables.release, hk] using Ne.symm hu
  · simp [Tables.release, hk]

theorem release_keeps (h : D.Holds s) : D.rules.Keeps t s (s.release t) :=
  ⟨⟨h.sound, h.lawful, h.fair, h.finished⟩, fun _ hu =>
    ⟨rfl, fun key => release_locks s hu key, fun _ _ => D.steady_refl _ _⟩⟩

theorem keeps_trans {s' s'' : S.Tables T R} (h : D.rules.Keeps t s s') (h' : D.rules.Keeps t s' s'') :
    D.rules.Keeps t s s'' :=
  ⟨h'.inv, fun u hu => D.rules.rely_trans (h.rely u hu) (h'.rely u hu)⟩

theorem ended_ends {outcome : Option (Except S.Exn R)} (h : D.Holds s) (hfair : D.fair t (s.entries t) outcome) :
    D.rules.Ends t outcome s := by
  refine ⟨⟨⟨h.sound, fun u entry hentry => ?_, fun u => ?_, ?_⟩, fun u hu => ⟨?_, fun key => release_locks s hu key,
    fun _ _ => D.steady_refl _ _⟩⟩, ?_, fun key => ?_⟩
  · by_cases hu : u = t
    · simp [Tables.ended, hu] at hentry
    · exact h.lawful u entry (by simpa [Tables.ended, hu] using hentry)
  · by_cases hu : u = t
    · simpa [Tables.ended, hu] using D.fair_nil t
    · simpa [Tables.ended, hu] using h.fair u
  · rintro execution hmem
    rcases List.mem_cons.mp hmem with rfl | hmem
    · exact ⟨h.lawful t, hfair⟩
    · exact h.finished execution hmem
  · simp [Tables.ended, hu]
  · simp [Tables.ended]
  · by_cases hk : s.locks key = some t
    · simp [Tables.ended, Tables.release, hk]
    · simp [Tables.ended, Tables.release, hk]

abbrev Serves (D : Discipline S T R) (t : T) (p : Prog S.interface R) (s : S.Tables T R) : Prop :=
  D.rules.Safe t (D.rules.Finishes t) p s

theorem serves_ret {r : R} (h : D.Holds s) (hfair : D.fair t (s.entries t) (some (.ok r))) : D.Serves t (.ret r) s :=
  ended_ends h hfair

theorem serves_raise {e : S.Exn} (h : D.Holds s) (hfair : D.fair t (s.entries t) (some (.error e))) :
    D.Serves t (.raise e) s :=
  ended_ends h hfair

structure Fails (D : Discipline S T R) (t : T) (s : S.Tables T R) (next : S.Entry → Prop) : Prop where
  unsent : ∀ e, D.fair t (s.entries t) (some (.error e))
  cut : ∀ entry, next entry → D.fair t (s.entries t ++ [entry]) none
  unheard : ∀ entry, next entry → entry.heard = false → ∀ e, D.fair t (s.entries t ++ [entry]) (some (.error e))

def Reads (query : S.Query) (entry : S.Entry) : Prop :=
  entry.statement = .query query ∧ entry.after = entry.before

def Commits (write : S.Write) (entry : S.Entry) : Prop := entry.statement = .commit write

theorem query_keeps {query : S.Query} {fate : Fate S.Exn} (hunblocked : unblocked s (.call t (.query query) fate))
    (h : D.Holds s) (hfair : ∀ heard, D.fair t (s.entries t ++ [⟨.query query, s.data, s.data, heard⟩]) none) :
    D.rules.Keeps t s (Tables.run t (.query query) fate s).2 := by
  have henter (heard : Bool) : D.rules.Keeps t s (s.enter t ⟨.query query, s.data, s.data, heard⟩) :=
    enter_keeps h rfl h.sound (D.lawful_refl ..) (fun _ _ _ _ => D.steady_refl ..) (hfair heard)
  have hserve (heard : Bool) : D.rules.Keeps t s (Tables.serve t heard (.query query) s).2 := by
    simp only [Tables.serve]
    cases hanswer : S.answer query s.data with
    | error e => exact henter heard
    | ok answer =>
      exact keeps_trans (henter heard) (lock_keeps (henter heard).inv fun key hkey => hunblocked answer key hanswer hkey)
  cases fate with
  | served => exact hserve true
  | unheard e => exact hserve false
  | unsent e => exact .refl _ h

theorem commit_keeps {write : S.Write} {fate : Fate S.Exn} (h : D.Holds s)
    (hfair : ∀ after heard, D.fair t (s.entries t ++ [⟨.commit write, s.data, after, heard⟩]) none)
    (hsound : fate.carriedOut = true → ∀ after, S.write write s.data = .ok after → D.sound after ∧
      D.lawful t s.data after ∧ ∀ u, u ≠ t → ∀ key, s.locks key = some u → D.steady key s.data after) :
    D.rules.Keeps t s (Tables.run t (.commit write) fate s).2 := by
  have hserve (heard : Bool) (hcarried : fate.carriedOut = true) :
      D.rules.Keeps t s (Tables.serve t heard (.commit write) s).2 := by
    simp only [Tables.serve]
    cases hwrite : S.write write s.data with
    | error e => exact enter_keeps h rfl h.sound (D.lawful_refl ..) (fun _ _ _ _ => D.steady_refl ..) (hfair _ _)
    | ok after =>
      obtain ⟨hafter, hlawful, hsteady⟩ := hsound hcarried after hwrite
      have henter : D.rules.Keeps t s (s.enter t ⟨.commit write, s.data, after, heard⟩) :=
        enter_keeps h rfl hafter hlawful hsteady (hfair _ _)
      exact keeps_trans henter (release_keeps henter.inv)
  cases fate with
  | served => exact hserve true rfl
  | unheard e => exact hserve false rfl
  | unsent e => exact .refl _ h

theorem serves_query (hadmits : ∀ s m, D.admits s m → unblocked s m) {query : S.Query}
    {f : S.Result query → Prog S.interface R} (hfails : D.Fails t s (Reads query))
    (hrefused : ∀ data e, S.answer query data = .error e →
      D.fair t (s.entries t ++ [⟨.query query, data, data, true⟩]) (some (.error e)))
    (h : ∀ s', D.Holds s' → D.Tolerates t s s' → ∀ answer, S.answer query s'.data = .ok answer →
      D.Holds ((s'.enter t ⟨.query query, s'.data, s'.data, true⟩).lock t (S.locked query answer)) →
      D.Serves t (f answer) ((s'.enter t ⟨.query query, s'.data, s'.data, true⟩).lock t (S.locked query answer))) :
    D.Serves t ((S.query query).bind f) s := by
  intro s' hholds htol fate hadm
  have hentries : s'.entries t = s.entries t := htol.entries
  have hkeeps : D.rules.Keeps t s' (Tables.run t (.query query) fate s').2 := by
    refine query_keeps (hadmits _ _ hadm) hholds fun heard => ?_
    rw [hentries]
    exact hfails.cut _ ⟨rfl, rfl⟩
  cases fate with
  | unsent e =>
    have hunsent : D.fair t (s'.entries t) (some (.error e)) := hentries ▸ hfails.unsent e
    exact ⟨hkeeps, serves_raise hholds hunsent⟩
  | unheard e =>
    refine ⟨hkeeps, serves_raise hkeeps.inv ?_⟩
    have hentered : (Tables.serve t false (.query query) s').2.entries t =
        s.entries t ++ [⟨.query query, s'.data, s'.data, false⟩] := by
      simp only [Tables.serve]
      cases S.answer query s'.data <;> simp [Tables.enter, hentries]
    exact hentered ▸ hfails.unheard _ ⟨rfl, rfl⟩ rfl e
  | served =>
    refine ⟨hkeeps, ?_⟩
    generalize hresult : ((S.world T R).run t (Statement.query query) .served s').1 = r
    simp only [Tables.run, Tables.serve] at hresult hkeeps ⊢
    cases hanswer : S.answer query s'.data with
    | ok answer =>
      rw [hanswer] at hresult hkeeps
      subst hresult
      exact h s' hholds htol answer hanswer hkeeps.inv
    | error e =>
      rw [hanswer] at hresult hkeeps
      subst hresult
      refine serves_raise hkeeps.inv ?_
      have hfair := hrefused s'.data e hanswer
      simpa [Tables.enter, hentries] using hfair

theorem serves_commit {write : S.Write} {f : Unit → Prog S.interface R} (hfails : D.Fails t s (Commits write))
    (hrefused : ∀ data e, S.write write data = .error e →
      D.fair t (s.entries t ++ [⟨.commit write, data, data, true⟩]) (some (.error e)))
    (hsound : ∀ s', D.Holds s' → D.Tolerates t s s' → ∀ after, S.write write s'.data = .ok after →
      D.sound after ∧ D.lawful t s'.data after ∧
        ∀ u, u ≠ t → ∀ key, s'.locks key = some u → D.steady key s'.data after)
    (h : ∀ s', D.Holds s' → D.Tolerates t s s' → ∀ after, S.write write s'.data = .ok after →
      D.Holds ((s'.enter t ⟨.commit write, s'.data, after, true⟩).release t) →
      D.Serves t (f ()) ((s'.enter t ⟨.commit write, s'.data, after, true⟩).release t)) :
    D.Serves t ((S.commit write).bind f) s := by
  intro s' hholds htol fate _
  have hentries : s'.entries t = s.entries t := htol.entries
  have hkeeps : D.rules.Keeps t s' (Tables.run t (.commit write) fate s').2 := by
    refine commit_keeps hholds (fun after heard => ?_) fun _ => hsound s' hholds htol
    rw [hentries]
    exact hfails.cut _ rfl
  cases fate with
  | unsent e =>
    have hunsent : D.fair t (s'.entries t) (some (.error e)) := hentries ▸ hfails.unsent e
    exact ⟨hkeeps, serves_raise hholds hunsent⟩
  | unheard e =>
    refine ⟨hkeeps, serves_raise hkeeps.inv ?_⟩
    have hentered : ∃ after, (Tables.serve t false (.commit write) s').2.entries t =
        s.entries t ++ [⟨.commit write, s'.data, after, false⟩] := by
      simp only [Tables.serve]
      cases S.write write s'.data with
      | error _ => exact ⟨s'.data, by simp [Tables.enter, hentries]⟩
      | ok after => exact ⟨after, by simp [Tables.enter, Tables.release, hentries]⟩
    obtain ⟨after, hentered⟩ := hentered
    have hnext : Commits write ⟨.commit write, s'.data, after, false⟩ := rfl
    exact hentered ▸ hfails.unheard _ hnext rfl e
  | served =>
    refine ⟨hkeeps, ?_⟩
    generalize hresult : ((S.world T R).run t (Statement.commit write) .served s').1 = r
    simp only [Tables.run, Tables.serve] at hresult hkeeps ⊢
    cases hwrite : S.write write s'.data with
    | ok after =>
      rw [hwrite] at hresult hkeeps
      subst hresult
      exact h s' hholds htol after hwrite hkeeps.inv
    | error e =>
      rw [hwrite] at hresult hkeeps
      subst hresult
      refine serves_raise hkeeps.inv ?_
      have hfair := hrefused s'.data e hwrite
      simpa [Tables.enter, hentries] using hfair

theorem reaches_holds {body : T → Prog S.interface R} {data : S.Data} {c : Config (S.world T R)}
    (hsound : D.sound data) (hbody : ∀ t s, D.Holds s → Rests t s → D.Serves t (body t) s)
    (h : Reaches body D.admits (.idle (Tables.opening data)) c) : D.Holds c.state := by
  have hopening : D.Holds (Tables.opening data) :=
    ⟨hsound, nofun, D.fair_nil, nofun⟩
  refine (Rules.reaches_sound (G := D.rules) (.idle hopening fun t => ⟨rfl, nofun⟩) ?_ ?_ h).inv
  · intro t s hholds hrests _
    exact hbody t s hholds hrests
  · intro t s hholds _
    exact ended_ends hholds (hholds.fair t)

end Discipline

end Schema

end Orchestrator.Async
