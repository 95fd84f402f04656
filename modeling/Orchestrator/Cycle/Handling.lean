import Orchestrator.Cycle.World

/-!
What a phase does with one item. A handling ends in an exception exactly where
one of its calls is let out; the body of a `try` that catches every exception
lets none out. Both are closed under sequence, so that a handling written with
the calls below needs no argument of its own.
-/

namespace Orchestrator.Cycle

open Async Contracts

def Handling (A : Type) := { p : Prog itemInterface A // p.Strict letsOut }

def Guarded (A : Type) := { p : Prog itemInterface A // p.Quiet letsOut }

instance : Monad Handling where
  pure a := ⟨.ret a, .ret a⟩
  bind p f := ⟨p.1.bind fun a => (f a).1, p.2.bind fun a => (f a).2⟩

instance : Monad Guarded where
  pure a := ⟨.ret a, .ret a⟩
  bind p f := ⟨p.1.bind fun a => (f a).1, p.2.bind fun a => (f a).2⟩

theorem bare_strict (request : Request) :
    (Prog.perform (I := itemInterface) (.request .bare request)).Strict letsOut := by
  apply Prog.Strict.perform
  · intro a
    simp [letsOut, ItemOp.letsOut]
  · intro e
    simp [letsOut, ItemOp.letsOut, Guard.catches]

theorem any_quiet (request : Request) :
    (Prog.perform (I := itemInterface) (.request .any request)).Quiet letsOut := by
  apply Prog.Quiet.perform
  intro r
  cases r <;> simp [letsOut, ItemOp.letsOut, Guard.catches]

/-- `try: … except Exception: …`. -/
def trying {A : Type} (body : Guarded A) (handler : Handling A) : Handling A :=
  ⟨body.1.handle fun _ => handler.1, body.2.handle fun _ => handler.2⟩

def caught {A : Type} (body : Guarded A) : Handling (Except Exn A) := ⟨body.1.attempt, body.2.attempt⟩

namespace Guarded

theorem handle_quiet {A : Type} (body handler : Guarded A) : (body.1.handle fun _ => handler.1).Quiet letsOut := by
  intro calls r h
  obtain ⟨a, hrun, _⟩ | ⟨before, after, e, rfl, hrun, hrest⟩ := h.handle_cases
  · exact body.2 _ _ hrun
  · intro answered hmem
    rcases List.mem_append.mp hmem with hmem | hmem
    · exact body.2 _ _ hrun answered hmem
    · exact handler.2 _ _ hrest answered hmem

def trying {A : Type} (body handler : Guarded A) : Guarded A := ⟨_, handle_quiet body handler⟩

end Guarded

class Calls (M : Type → Type) extends Monad M where
  ask : (request : Request) → M request.Answer
  bestEffort : Request → M Unit

instance : Calls Guarded where
  ask request := ⟨_, any_quiet request⟩
  bestEffort request := Guarded.trying (do let _ ← (⟨_, any_quiet request⟩ : Guarded _)) (pure ())

instance : Calls Handling where
  ask request := ⟨_, bare_strict request⟩
  bestEffort request := trying (do let _ ← (⟨_, any_quiet request⟩ : Guarded _)) (pure ())

export Calls (ask bestEffort)

variable {M : Type → Type} [Calls M]

def send (command : Command) : M Unit := ask (.send command)

def notifyAdmins (text : String) : M Unit := bestEffort (.send (.notifyAdmins text))

theorem refuse_strict {A : Type} (error : String) :
    (Prog.call (I := itemInterface) (.refused error) fun _ => (.raise (.exception error) : Prog itemInterface A)).Strict
      letsOut := by
  intro calls r h
  cases h with
  | call answer h =>
    cases h
    simp [letsOut, ItemOp.letsOut]

def refuse {A : Type} (error : String) : Handling A := ⟨_, refuse_strict error⟩

theorem parsed_strict {A : Type} (request : Request) (invalid : Handling A) (rest : request.Answer → Handling A) :
    ((Prog.perform (I := itemInterface) (.request .validation request)).attempt.bind fun
      | .ok a => (rest a).1
      | .error .validationError => invalid.1
      | .error e => .raise e).Strict letsOut := by
  intro calls r h
  obtain ⟨e, hrun, _⟩ | ⟨before, after, outcome, rfl, hrun, hrest⟩ := h.bind_cases
  · obtain ⟨_, h, _⟩ := hrun.attempt_cases
    cases h
  · obtain ⟨_, h, hrun⟩ := hrun.attempt_cases
    cases h
    rw [hrun.perform_cases]
    cases outcome with
    | ok a =>
      rw [← (rest a).2 _ _ hrest]
      simp [letsOut, ItemOp.letsOut]
    | error e =>
      cases e with
      | validationError =>
        rw [← invalid.2 _ _ hrest]
        simp [letsOut, ItemOp.letsOut, Guard.catches]
      | exception name =>
        cases hrest
        simp [letsOut, ItemOp.letsOut, Guard.catches]

def parsed {A : Type} (request : Request) (invalid : Handling A) (rest : request.Answer → Handling A) : Handling A :=
  ⟨_, parsed_strict request invalid rest⟩

def lentCall (op : Access.Op) : Prog itemInterface (Except Access.Exn op.Res) :=
  (Prog.perform (I := itemInterface) (.request .bare (.access op))).bind fun a => .ret (.ok a)

theorem lentCall_strict (op : Access.Op) : (lentCall op).Strict letsOut :=
  (bare_strict (.access op)).bind fun _ => .ret _

theorem lent_strict {A : Type} (p : Access.Sweep A) :
    (Prog.interp (I := Access.accessInterface) (J := itemInterface) lentCall p).Strict letsOut := by
  induction p with
  | ret a | raise e => exact .ret _
  | call op next ih => exact (lentCall_strict op).bind ih

def orRefuse {A : Type} : Except Access.Exn A → Handling A
  | .ok a => pure a
  | .error _ => refuse "temporary access"

def granting {A : Type} (p : Access.Sweep A) : Handling A :=
  bind (⟨_, lent_strict p⟩ : Handling (Except Access.Exn A)) orRefuse

def sweptCall (op : Access.Op) : Prog itemInterface (Except Access.Exn op.Res) :=
  (Prog.perform (I := itemInterface) (.request .any (.access op))).attempt.bind fun r =>
    .ret (r.mapError fun _ => .transport "request failed")

theorem sweptCall_quiet (op : Access.Op) : (sweptCall op).Quiet letsOut := by
  refine Prog.Quiet.bind ?_ fun r => .ret _
  intro calls r h
  obtain ⟨outcome, _, hrun⟩ := h.attempt_cases
  exact any_quiet (.access op) _ _ hrun

theorem swept_quiet {A : Type} (p : Access.Sweep A) :
    (Prog.interp (I := Access.accessInterface) (J := itemInterface) sweptCall p).Quiet letsOut := by
  induction p with
  | ret a | raise e => exact .ret _
  | call op next ih => exact (sweptCall_quiet op).bind ih

def swept {A : Type} (p : Access.Sweep A) : Guarded (Except Access.Exn A) := ⟨_, swept_quiet p⟩

end Orchestrator.Cycle
