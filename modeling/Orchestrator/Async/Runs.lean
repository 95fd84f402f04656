import Mathlib.Data.List.Forall2
import Orchestrator.Async.Program

/-!
The finite runs of a program against services that may answer anything: the
calls it made, in their order, and what it came to. A predicate on calls names
the answers a program lets out: a strict program raises in exactly the runs in
which it met one, a quiet program never meets one.
-/

namespace Orchestrator.Async

structure Call (I : Interface) where
  op : I.Op
  answer : Except I.Exn (I.Res op)

def Call.failed {I : Interface} (call : Call I) : Bool :=
  match call.answer with
  | .ok _ => false
  | .error _ => true

namespace Prog

variable {I J : Interface} {A B : Type}

inductive Run : Prog I A → List (Call I) → Except I.Exn A → Prop
  | ret (a : A) : Run (.ret a) [] (.ok a)
  | raise (e : I.Exn) : Run (.raise e) [] (.error e)
  | call {op : I.Op} {next : Except I.Exn (I.Res op) → Prog I A} (answer : Except I.Exn (I.Res op))
      {calls : List (Call I)} {r : Except I.Exn A} (h : Run (next answer) calls r) :
      Run (.call op next) (⟨op, answer⟩ :: calls) r

def respond (env : (op : I.Op) → Except I.Exn (I.Res op)) : Prog I A → List (Call I) × Except I.Exn A
  | .ret a => ([], .ok a)
  | .raise e => ([], .error e)
  | .call op next => (⟨op, env op⟩ :: ((next (env op)).respond env).1, ((next (env op)).respond env).2)

variable {p : Prog I A} {f : A → Prog I B} {calls : List (Call I)}

theorem respond_run (env : (op : I.Op) → Except I.Exn (I.Res op)) (p : Prog I A) :
    p.Run (p.respond env).1 (p.respond env).2 := by
  induction p with
  | ret a => exact .ret a
  | raise e => exact .raise e
  | call op next ih => exact .call (env op) (ih (env op))

theorem Run.bind_cases {r : Except I.Exn B} (h : (p.bind f).Run calls r) :
    (∃ e, p.Run calls (.error e) ∧ r = .error e) ∨
      ∃ before after a, calls = before ++ after ∧ p.Run before (.ok a) ∧ (f a).Run after r := by
  induction p generalizing calls with
  | ret a => exact .inr ⟨[], calls, a, rfl, .ret a, h⟩
  | raise e =>
    cases h
    exact .inl ⟨e, .raise e, rfl⟩
  | call op next ih =>
    cases h with
    | call answer h =>
      obtain ⟨e, hp, hr⟩ | ⟨before, after, a, rfl, hp, hf⟩ := ih answer h
      · exact .inl ⟨e, .call answer hp, hr⟩
      · exact .inr ⟨_ :: before, after, a, rfl, .call answer hp, hf⟩

theorem Run.attempt_cases {r : Except I.Exn (Except I.Exn A)} (h : p.attempt.Run calls r) :
    ∃ outcome, r = .ok outcome ∧ p.Run calls outcome := by
  induction p generalizing calls with
  | ret a =>
    cases h
    exact ⟨.ok a, rfl, .ret a⟩
  | raise e =>
    cases h
    exact ⟨.error e, rfl, .raise e⟩
  | call op next ih =>
    cases h with
    | call answer h =>
      obtain ⟨outcome, hr, hp⟩ := ih answer h
      exact ⟨outcome, hr, .call answer hp⟩

theorem Run.handle_cases {handler : I.Exn → Prog I A} {r : Except I.Exn A} (h : (p.handle handler).Run calls r) :
    (∃ a, p.Run calls (.ok a) ∧ r = .ok a) ∨
      ∃ before after e, calls = before ++ after ∧ p.Run before (.error e) ∧ (handler e).Run after r := by
  obtain ⟨e, hp, hr⟩ | ⟨before, after, outcome, rfl, hp, hf⟩ := Run.bind_cases h
  · obtain ⟨_, h, _⟩ := hp.attempt_cases
    cases h
  · obtain ⟨outcome', h, hp⟩ := hp.attempt_cases
    cases h
    cases outcome with
    | ok a =>
      cases hf
      rw [List.append_nil]
      exact .inl ⟨a, hp, rfl⟩
    | error e => exact .inr ⟨before, after, e, rfl, hp, hf⟩

theorem Run.perform_cases {op : I.Op} {r : Except I.Exn (I.Res op)} (h : (perform op).Run calls r) :
    calls = [⟨op, r⟩] := by
  cases h with
  | call answer h => cases answer <;> cases h <;> rfl

variable {body : A → Prog I Unit}

theorem Run.forEach_ok {xs : List A} {u : Unit} (h : (forEach xs body).Run calls (.ok u)) :
    ∀ x ∈ xs, ∃ before own after, calls = before ++ own ++ after ∧ (body x).Run own (.ok ()) := by
  induction xs generalizing calls with
  | nil => exact fun x hx => absurd hx List.not_mem_nil
  | cons y xs ih =>
    obtain ⟨e, _, hr⟩ | ⟨own, rest, _, rfl, hy, hrest⟩ := Run.bind_cases h
    · cases hr
    · intro x hx
      rcases List.mem_cons.mp hx with rfl | hx
      · exact ⟨[], own, rest, rfl, hy⟩
      · obtain ⟨before, own', after, rfl, hown⟩ := ih hrest x hx
        exact ⟨own ++ before, own', after, by simp only [List.append_assoc], hown⟩

theorem Run.uses {allowed : I.Op → Prop} {r : Except I.Exn A} (h : p.Run calls r) (hp : p.Uses allowed) :
    ∀ answered ∈ calls, allowed answered.op := by
  induction h with
  | ret a | raise e => exact fun answered hmem => absurd hmem List.not_mem_nil
  | call answer _ ih =>
    intro answered hmem
    rcases List.mem_cons.mp hmem with rfl | hmem
    · exact hp.1
    · exact ih (hp.2 answer) answered hmem

variable {lets : Call I → Prop}

def Strict (lets : Call I → Prop) (p : Prog I A) : Prop :=
  ∀ calls r, p.Run calls r → ((∃ call ∈ calls, lets call) ↔ ∃ e, r = .error e)

def Quiet (lets : Call I → Prop) (p : Prog I A) : Prop :=
  ∀ calls r, p.Run calls r → ∀ call ∈ calls, ¬ lets call

theorem Strict.ret (a : A) : Strict lets (.ret a : Prog I A) := by
  intro calls r h
  cases h
  simp

theorem Strict.bind (hp : Strict lets p) (hf : ∀ a, Strict lets (f a)) : Strict lets (p.bind f) := by
  intro calls r h
  obtain ⟨e, hrun, rfl⟩ | ⟨before, after, a, rfl, hrun, hrest⟩ := h.bind_cases
  · exact ⟨fun _ => ⟨e, rfl⟩, fun _ => (hp _ _ hrun).mpr ⟨e, rfl⟩⟩
  · have hquiet : ¬ ∃ call ∈ before, lets call := fun hlet => by
      obtain ⟨e, he⟩ := (hp _ _ hrun).mp hlet
      cases he
    rw [← hf a _ _ hrest]
    simp only [List.mem_append, or_and_right, exists_or, hquiet, false_or]

theorem Strict.forEach {xs : List A} (h : ∀ x ∈ xs, Strict lets (body x)) :
    Strict lets (forEach xs body) := by
  induction xs with
  | nil => exact .ret ()
  | cons x xs ih =>
    exact (h x List.mem_cons_self).bind fun _ => ih fun y hy => h y (List.mem_cons_of_mem _ hy)

theorem Quiet.attempt (h : Quiet lets p) : Strict lets p.attempt := by
  intro calls r hrun
  obtain ⟨outcome, rfl, hbody⟩ := hrun.attempt_cases
  constructor
  · exact fun ⟨answered, hmem, hlet⟩ => absurd hlet (h _ _ hbody answered hmem)
  · exact fun ⟨e, he⟩ => nomatch he

theorem Quiet.handle {handler : I.Exn → Prog I A} (h : Quiet lets p) (hh : ∀ e, Strict lets (handler e)) :
    Strict lets (p.handle handler) := by
  refine h.attempt.bind fun outcome => ?_
  cases outcome with
  | ok a => exact .ret a
  | error e => exact hh e

theorem Strict.perform {op : I.Op} (hok : ∀ a, ¬ lets ⟨op, .ok a⟩) (hfail : ∀ e, lets ⟨op, .error e⟩) :
    Strict lets (perform op : Prog I (I.Res op)) := by
  intro calls r h
  rw [h.perform_cases]
  cases r with
  | ok a => simp [hok]
  | error e => simp [hfail]

theorem Quiet.ret (a : A) : Quiet lets (.ret a : Prog I A) := by
  intro calls r h
  cases h
  exact fun call hmem => absurd hmem List.not_mem_nil

theorem Quiet.bind (hp : Quiet lets p) (hf : ∀ a, Quiet lets (f a)) : Quiet lets (p.bind f) := by
  intro calls r h
  obtain ⟨e, hrun, rfl⟩ | ⟨before, after, a, rfl, hrun, hrest⟩ := h.bind_cases
  · exact hp _ _ hrun
  · intro call hmem
    rcases List.mem_append.mp hmem with hmem | hmem
    · exact hp _ _ hrun call hmem
    · exact hf a _ _ hrest call hmem

theorem Quiet.forEach {xs : List A} (h : ∀ x ∈ xs, Quiet lets (body x)) :
    Quiet lets (forEach xs body) := by
  induction xs with
  | nil => exact .ret ()
  | cons x xs ih =>
    exact (h x List.mem_cons_self).bind fun _ => ih fun y hy => h y (List.mem_cons_of_mem _ hy)

theorem Quiet.perform {op : I.Op} (h : ∀ r, ¬ lets ⟨op, r⟩) : Quiet lets (Prog.perform op : Prog I (I.Res op)) := by
  intro calls r hrun call hmem
  rw [hrun.perform_cases] at hmem
  rw [List.mem_singleton.mp hmem]
  exact h r

variable (tag : I.Op → J.Op) (ask : (op : I.Op) → Except J.Exn (J.Res (tag op)) → Except I.Exn (I.Res op))
  (exn : I.Exn → J.Exn)

def relabel : Prog I A → Prog J A
  | .ret a => .ret a
  | .raise e => .raise (exn e)
  | .call op next => .call (tag op) fun r => (next (ask op r)).relabel

theorem uses_relabel (p : Prog I A) : (p.relabel tag ask exn).Uses fun op => ∃ own, op = tag own := by
  induction p with
  | ret a | raise e => trivial
  | call op next ih => exact ⟨⟨op, rfl⟩, fun r => ih (ask op r)⟩

inductive Stands : Call J → Call I → Prop
  | intro (op : I.Op) (answer : Except J.Exn (J.Res (tag op))) : Stands ⟨tag op, answer⟩ ⟨op, ask op answer⟩

theorem Run.relabel_cases {r : Except J.Exn A} {calls : List (Call J)} (h : (p.relabel tag ask exn).Run calls r) :
    ∃ own outcome, p.Run own outcome ∧ r = outcome.mapError exn ∧ List.Forall₂ (Stands tag ask) calls own := by
  induction p generalizing calls with
  | ret a =>
    cases h
    exact ⟨[], .ok a, .ret a, rfl, .nil⟩
  | raise e =>
    cases h
    exact ⟨[], .error e, .raise e, rfl, .nil⟩
  | call op next ih =>
    cases h with
    | call answer h =>
      obtain ⟨own, outcome, hrun, hr, hown⟩ := ih (ask op answer) h
      exact ⟨_ :: own, outcome, .call (ask op answer) hrun, hr, .cons (.intro op answer) hown⟩

variable {lets' : Call J → Prop}

theorem exists_stands (hlets : ∀ op r, lets' ⟨tag op, r⟩ ↔ lets ⟨op, ask op r⟩)
    {calls : List (Call J)} {own : List (Call I)} (h : List.Forall₂ (Stands tag ask) calls own) :
    (∃ answered ∈ calls, lets' answered) ↔ ∃ answered ∈ own, lets answered := by
  induction h with
  | nil => simp
  | cons hstands _ ih =>
    cases hstands with
    | intro op answer => simp only [List.exists_mem_cons_iff, hlets, ih]

theorem Strict.relabel (hlets : ∀ op r, lets' ⟨tag op, r⟩ ↔ lets ⟨op, ask op r⟩)
    (hp : Strict lets p) : Strict lets' (p.relabel tag ask exn) := by
  intro calls r h
  obtain ⟨own, outcome, hrun, rfl, hown⟩ := h.relabel_cases
  rw [exists_stands tag ask hlets hown, hp _ _ hrun]
  cases outcome <;> simp [Except.mapError]

theorem Quiet.relabel (hlets : ∀ op r, lets' ⟨tag op, r⟩ ↔ lets ⟨op, ask op r⟩)
    (hp : Quiet lets p) : Quiet lets' (p.relabel tag ask exn) := by
  intro calls r h answered hmem hlet
  obtain ⟨own, outcome, hrun, _, hown⟩ := h.relabel_cases
  obtain ⟨met, hmet, hlet⟩ := (exists_stands tag ask hlets hown).mp ⟨answered, hmem, hlet⟩
  exact hp _ _ hrun met hmet hlet

end Prog

end Orchestrator.Async
