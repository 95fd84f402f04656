import Orchestrator.Async.Transactions

/-!
Requests by what they have read. Where each commit of a request follows from
the answers it was given, and the row of an answer that locks it is found again
as it was, the commits may be studied one by one, over the rows they find.
-/

namespace Orchestrator.Async

namespace Schema

variable {S : Schema} {T R A B : Type}

abbrev Reading (S : Schema) : Type := (query : S.Query) × S.Result query

def Entry.reading (entry : S.Entry) : Option S.Reading :=
  match entry.statement with
  | .query query => match S.answer query entry.before with
    | .ok answer => some ⟨query, answer⟩
    | .error _ => none
  | .commit _ => none

def readings (entries : List S.Entry) : List S.Reading := entries.filterMap Entry.reading

theorem readings_append (entries entries' : List S.Entry) :
    readings (entries ++ entries') = readings entries ++ readings entries' := List.filterMap_append

def Settled : Prog S.interface A → Prop
  | .ret _ => True
  | .raise _ => True
  | .call (.query _) next => ∀ r, Settled (next r)
  | .call (.commit _) _ => False

def Asks : Prog S.interface A → Prop
  | .ret _ => True
  | .raise _ => True
  | .call (.query _) next => (∀ answer, Asks (next (.ok answer))) ∧ ∀ e, next (.error e) = .raise e
  | .call (.commit _) _ => False

def Justified (decides : List S.Reading → S.Write → Prop) : List S.Reading → Prog S.interface A → Prop
  | _, .ret _ => True
  | _, .raise _ => True
  | readings, .call (.query query) next =>
    (∀ answer, Justified decides (readings ++ [⟨query, answer⟩]) (next (.ok answer))) ∧ ∀ e, Settled (next (.error e))
  | readings, .call (.commit write) next => decides readings write ∧ ∀ r, Settled (next r)

section Programs

variable {decides : List S.Reading → S.Write → Prop} {readings : List S.Reading}

@[simp] theorem settled_raise (e : S.Exn) : Settled (.raise e : Prog S.interface A) := trivial

variable {query : S.Query}

@[simp] theorem settled_query {f : S.Result query → Prog S.interface A} :
    Settled ((S.query query).bind f) ↔ ∀ answer, Settled (f answer) := by
  constructor
  · intro h answer
    exact h (.ok answer)
  · intro h r
    cases r with
    | ok answer => exact h answer
    | error e => exact settled_raise e

variable {f : A → Prog S.interface B}

variable {p : Prog S.interface A}

theorem Settled.bind (hp : Settled p) (hf : ∀ a, Settled (f a)) :
    Settled (p.bind f) := by
  induction p with
  | ret a => exact hf a
  | raise e => trivial
  | call op next ih =>
    cases op with
    | query query => exact fun r => ih r (hp r)
    | commit write => exact hp

@[simp] theorem asks_query {f : S.Result query → Prog S.interface A} :
    Asks ((S.query query).bind f) ↔ ∀ answer, Asks (f answer) := by
  constructor
  · intro h answer
    exact h.1 answer
  · intro h
    exact ⟨fun answer => h answer, fun _ => rfl⟩

theorem Asks.bind (hp : Asks p) (hf : ∀ a, Asks (f a)) :
    Asks (p.bind f) := by
  induction p with
  | ret a => exact hf a
  | raise e => trivial
  | call op next ih =>
    cases op with
    | query query =>
      refine ⟨fun answer => ih _ (hp.1 answer), fun e => ?_⟩
      change (next (.error e)).bind f = _
      rw [hp.2 e]
      rfl
    | commit write => exact hp

@[simp] theorem justified_raise (e : S.Exn) : Justified decides readings (.raise e : Prog S.interface A) := trivial

@[simp] theorem justified_query {f : S.Result query → Prog S.interface A} :
    Justified decides readings ((S.query query).bind f) ↔
      ∀ answer, Justified decides (readings ++ [⟨query, answer⟩]) (f answer) := by
  constructor
  · intro h answer
    exact h.1 answer
  · intro h
    exact ⟨fun answer => h answer, fun e => settled_raise e⟩

@[simp] theorem justified_commit {write : S.Write} {f : Unit → Prog S.interface A} :
    Justified decides readings ((S.commit write).bind f) ↔ decides readings write ∧ Settled (f ()) := by
  constructor
  · intro h
    exact ⟨h.1, h.2 (.ok ())⟩
  · intro h
    refine ⟨h.1, fun r => ?_⟩
    cases r with
    | ok _ => exact h.2
    | error e => exact settled_raise e

@[simp] theorem justified_ofExcept {x : Except S.Exn A} :
    Justified decides readings ((Prog.ofExcept x).bind f) ↔ ∀ a, x = .ok a → Justified decides readings (f a) := by
  cases x with
  | ok a | error e => simp [Prog.ofExcept]

theorem Justified.ask (hp : Asks p)
    (hf : ∀ a more, Justified decides (readings ++ more) (f a)) : Justified decides readings (p.bind f) := by
  induction p generalizing readings with
  | ret a => simpa using hf a []
  | raise e => trivial
  | call op next ih =>
    cases op with
    | query query =>
      refine ⟨fun answer => ih _ (hp.1 answer) fun a more => ?_, fun e => ?_⟩
      · rw [List.append_assoc]
        exact hf a _
      · change Settled ((next (.error e)).bind f)
        rw [hp.2 e]
        trivial
    | commit write => exact hp.elim

theorem Justified.respond {f : A → B} (hp : Justified decides readings p) :
    Justified decides readings (p.bind fun a => .ret (f a)) := by
  have hsettled : ∀ p : Prog S.interface A, Settled p → Settled (p.bind fun a => .ret (f a)) :=
    fun p hp => hp.bind fun _ => trivial
  induction p generalizing readings with
  | ret a | raise e => trivial
  | call op next ih =>
    cases op with
    | query query => exact ⟨fun answer => ih _ (hp.1 answer), fun e => hsettled _ (hp.2 e)⟩
    | commit write => exact ⟨hp.1, fun r => hsettled _ (hp.2 r)⟩

end Programs

variable [DecidableEq T] [DecidableEq S.Key]

namespace Discipline

variable {D : Discipline S T R} {t : T} {s s' : S.Tables T R}

def Backed (D : Discipline S T R) (d : S.Data) (reading : S.Reading) : Prop :=
  ∃ before, D.sound before ∧ S.answer reading.1 before = .ok reading.2 ∧
    ∀ key, S.locked reading.1 reading.2 = some key → D.steady key before d

def Holding (D : Discipline S T R) (t : T) (s : S.Tables T R) : Prop :=
  ∀ entry ∈ s.entries t, D.sound entry.before ∧ ∀ query answer, entry.statement = .query query →
    S.answer query entry.before = .ok answer → ∀ key, S.locked query answer = some key →
      s.locks key = some t ∧ D.steady key entry.before s.data

theorem Holding.backed (h : D.Holding t s) : ∀ reading ∈ readings (s.entries t), D.Backed s.data reading := by
  intro reading hmem
  obtain ⟨entry, hentry, hreading⟩ := List.mem_filterMap.mp hmem
  obtain ⟨hsound, hlocked⟩ := h entry hentry
  unfold Entry.reading at hreading
  split at hreading
  · rename_i query hstatement
    split at hreading
    · rename_i answer hanswer
      cases hreading
      exact ⟨entry.before, hsound, hanswer, fun key hkey => (hlocked query answer hstatement hanswer key hkey).2⟩
    · cases hreading
  · cases hreading

theorem Holding.tolerates (h : D.Holding t s) (htol : D.Tolerates t s s') : D.Holding t s' := by
  intro entry hentry
  rw [htol.entries] at hentry
  obtain ⟨hsound, hlocked⟩ := h entry hentry
  refine ⟨hsound, fun query answer hstatement hanswer key hkey => ?_⟩
  obtain ⟨hown, hsteady⟩ := hlocked query answer hstatement hanswer key hkey
  exact ⟨(htol.locks key).mpr hown, D.steady_trans hsteady (htol.steady key hown)⟩

theorem Holding.enter (h : D.Holding t s) (hsound : D.sound s.data) {query : S.Query} {answer : S.Result query}
    (hanswer : S.answer query s.data = .ok answer) (heard : Bool) :
    D.Holding t ((s.enter t ⟨.query query, s.data, s.data, heard⟩).lock t (S.locked query answer)) := by
  have hkept : ∀ key, s.locks key = some t →
      ((s.enter t ⟨.query query, s.data, s.data, heard⟩).lock t (S.locked query answer)).locks key = some t := by
    intro key hkey
    cases S.locked query answer with
    | none => exact hkey
    | some own =>
      by_cases hown : key = own
      · simp [Tables.lock, hown]
      · simp only [Tables.lock, Function.update_of_ne hown]
        exact hkey
  intro entry hentry
  rw [Tables.lock_entries] at hentry
  simp only [Tables.enter, Function.update_self, List.mem_append, List.mem_singleton] at hentry
  rcases hentry with hentry | rfl
  · obtain ⟨hbefore, hlocked⟩ := h entry hentry
    refine ⟨hbefore, fun query' answer' hstatement hanswer' key hkey => ?_⟩
    obtain ⟨hown, hsteady⟩ := hlocked query' answer' hstatement hanswer' key hkey
    refine ⟨hkept key hown, ?_⟩
    rw [Tables.lock_data]
    exact hsteady
  · refine ⟨hsound, fun query' answer' hstatement hanswer' key hkey => ?_⟩
    cases hstatement
    cases hanswer.symm.trans hanswer'
    refine ⟨by simp [Tables.lock, hkey], ?_⟩
    rw [Tables.lock_data]
    exact D.steady_refl ..

section

variable (hunblocked : ∀ s m, D.admits s m → unblocked s m)

include hunblocked

section

variable (hfair : ∀ t entries outcome, D.fair t entries outcome)

include hfair

theorem serves_settled
    {p : Prog S.interface R} (hholds : D.Holds s) (hp : Settled p) : D.Serves t p s := by
  induction p generalizing s with
  | ret a | raise e => exact ended_ends hholds (hfair ..)
  | call op next ih =>
    cases op with
    | query query =>
      intro s' hi _ fate hadm
      have hkeeps : D.rules.Keeps t s' (Tables.run t (.query query) fate s').2 :=
        query_keeps (hunblocked _ _ hadm) hi fun _ => hfair ..
      exact ⟨hkeeps, ih _ hkeeps.inv (hp _)⟩
    | commit write => exact hp.elim

theorem serves_justified
    {decides : List S.Reading → S.Write → Prop}
    (hcommits : ∀ s write fate after, D.Holds s → D.admits s (.call t (.commit write) fate) →
      (∀ reading ∈ readings (s.entries t), D.Backed s.data reading) → decides (readings (s.entries t)) write →
        S.write write s.data = .ok after → D.sound after ∧ D.lawful t s.data after ∧
          ∀ u, u ≠ t → ∀ key, s.locks key = some u → D.steady key s.data after)
    {p : Prog S.interface R} (hholds : D.Holds s) (hholding : D.Holding t s)
    (hp : Justified decides (readings (s.entries t)) p) : D.Serves t p s := by
  induction p generalizing s with
  | ret a | raise e => exact ended_ends hholds (hfair ..)
  | call op next ih =>
    cases op with
    | query query =>
      intro s' hi htol fate hadm
      have hkeeps : D.rules.Keeps t s' (Tables.run t (.query query) fate s').2 :=
        query_keeps (hunblocked _ _ hadm) hi fun _ => hfair ..
      refine ⟨hkeeps, ?_⟩
      have hfails : ∀ e, (Tables.run t (Statement.query query) fate s').1 = .error e →
          D.Serves t (next (Tables.run t (Statement.query query) fate s').1) (Tables.run t (.query query) fate s').2 := by
        intro e he
        rw [he]
        exact serves_settled hunblocked hfair hkeeps.inv (hp.2 e)
      cases fate with
      | unsent e => exact hfails e rfl
      | unheard e => exact hfails e rfl
      | served =>
        cases hanswer : S.answer query s'.data with
        | error e => exact hfails e (by simp only [Tables.run, Tables.serve, hanswer])
        | ok answer =>
          have hrun : Tables.run t (.query query) .served s' = (.ok answer,
              (s'.enter t ⟨.query query, s'.data, s'.data, true⟩).lock t (S.locked query answer)) := by
            simp only [Tables.run, Tables.serve, hanswer]
          have hread : readings (((s'.enter t ⟨.query query, s'.data, s'.data, true⟩).lock t
              (S.locked query answer)).entries t) = readings (s.entries t) ++ [⟨query, answer⟩] := by
            rw [Tables.lock_entries, ← htol.entries]
            simp only [Tables.enter, Function.update_self, readings_append]
            simp [readings, Entry.reading, hanswer]
          have hkept := hkeeps.inv
          change D.Serves t (next (Tables.run t (Statement.query query) .served s').1) (Tables.run t (.query query) .served s').2
          rw [hrun] at hkept ⊢
          refine ih (.ok answer) hkept ((hholding.tolerates htol).enter hi.sound hanswer true) ?_
          rw [hread]
          exact hp.1 answer
    | commit write =>
      intro s' hi htol fate hadm
      have hentries : s'.entries t = s.entries t := htol.entries
      have hkeeps : D.rules.Keeps t s' (Tables.run t (.commit write) fate s').2 := by
        refine commit_keeps hi (fun _ _ => hfair ..) fun _ after hwrite => ?_
        refine hcommits s' write fate after hi hadm (hholding.tolerates htol).backed ?_ hwrite
        rw [hentries]
        exact hp.1
      exact ⟨hkeeps, serves_settled hunblocked hfair hkeeps.inv (hp.2 _)⟩

theorem reaches_justified {body : T → Prog S.interface R} {data : S.Data} {c : Config (S.world T R)}
    {decides : T → List S.Reading → S.Write → Prop} (hbody : ∀ t, Justified (decides t) [] (body t))
    (hcommits : ∀ t s write fate after, D.Holds s → D.admits s (.call t (.commit write) fate) →
      (∀ reading ∈ readings (s.entries t), D.Backed s.data reading) → decides t (readings (s.entries t)) write →
        S.write write s.data = .ok after → D.sound after ∧ D.lawful t s.data after ∧
          ∀ u, u ≠ t → ∀ key, s.locks key = some u → D.steady key s.data after)
    (hsound : D.sound data) (h : Reaches body D.admits (.idle (Tables.opening data)) c) : D.Holds c.state := by
  refine reaches_holds hsound (fun t s hholds hrests => ?_) h
  have hentries : s.entries t = [] := hrests.1
  refine serves_justified hunblocked hfair (hcommits t) hholds ?_ ?_
  · intro entry hentry
    rw [hentries] at hentry
    cases hentry
  · rw [hentries]
    exact hbody t

end

end

end Discipline

theorem step_data {body : T → Prog S.interface R} {admits : S.Tables T R → Move (S.world T R) → Prop}
    {c d : Config (S.world T R)} (h : Step body admits c d) : d.state.data = c.state.data ∨
      ∃ t entry, (entry ∈ d.state.entries t ∨ ∃ execution ∈ d.state.finished, execution.task = t ∧ entry ∈ execution.entries) ∧
        entry.before = c.state.data ∧ entry.after = d.state.data := by
  have hresume : ∀ (s : S.Tables T R) (task : T → Option (Waiting S.interface R)) (t : T) (p : Prog S.interface R),
      (Config.resume (W := S.world T R) ⟨s, task⟩ t p).state.data = s.data ∧ ∀ entry ∈ s.entries t,
        entry ∈ (Config.resume (W := S.world T R) ⟨s, task⟩ t p).state.entries t ∨
          ∃ execution ∈ (Config.resume (W := S.world T R) ⟨s, task⟩ t p).state.finished,
            execution.task = t ∧ entry ∈ execution.entries := by
    intro s task t p
    cases p with
    | call op next => exact ⟨rfl, fun entry hentry => .inl hentry⟩
    | _ => exact ⟨rfl, fun entry hentry => .inr ⟨_, List.mem_cons_self, rfl, hentry⟩⟩
  have hserve : ∀ (t : T) (statement : S.Statement) (s : S.Tables T R) heard,
      (Tables.serve t heard statement s).2.data = s.data ∨
        ∃ entry ∈ (Tables.serve t heard statement s).2.entries t, entry.before = s.data ∧
          entry.after = (Tables.serve t heard statement s).2.data := by
    intro t statement s heard
    cases statement with
    | query query =>
      simp only [Tables.serve]
      cases S.answer query s.data with
      | ok answer =>
        left
        rw [Tables.lock_data]
        rfl
      | error e => exact .inl rfl
    | commit write =>
      simp only [Tables.serve]
      cases S.write write s.data with
      | ok after =>
        refine .inr ⟨⟨.commit write, s.data, after, heard⟩, ?_, rfl, rfl⟩
        simp [Tables.enter, Tables.release]
      | error e => exact .inl rfl
  cases h with
  | start t hidle hok => exact .inl (hresume ..).1
  | stop t w hwait hok => exact .inl rfl
  | call t w hwait answer hok =>
    obtain ⟨hdata, hlogged⟩ := hresume (Tables.run t w.op answer c.state).2 c.task t (w.next (Tables.run t w.op answer c.state).1)
    have hrun : (Tables.run t w.op answer c.state).2.data = c.state.data ∨
        ∃ entry ∈ (Tables.run t w.op answer c.state).2.entries t, entry.before = c.state.data ∧
          entry.after = (Tables.run t w.op answer c.state).2.data := by
      cases answer with
      | served => exact hserve t w.op c.state true
      | unheard e => exact hserve t w.op c.state false
      | unsent e => exact .inl rfl
    rcases hrun with hsame | ⟨entry, hentry, hbefore, hafter⟩
    · exact .inl (hdata.trans hsame)
    · exact .inr ⟨t, entry, hlogged entry hentry, hbefore, hafter.trans hdata.symm⟩

end Schema

end Orchestrator.Async
