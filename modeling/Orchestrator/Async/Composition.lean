import Orchestrator.Async.Interference
import Orchestrator.Async.Runs

/-!
Properties of programs that hold of a program if they hold of its parts.
-/

namespace Orchestrator.Async

variable {I : Interface} {A B : Type}

namespace Prog

structure Compositional (C : {A : Type} → Prog I A → Prop) : Prop where
  ret : ∀ {A : Type} (a : A), C (ret a)
  raise : ∀ {A : Type} (e : I.Exn), C (raise e : Prog I A)
  bind : ∀ {A B : Type} {p : Prog I A} {f : A → Prog I B}, C p → (∀ a, C (f a)) → C (p.bind f)
  attempt : ∀ {A : Type} {p : Prog I A}, C p → C p.attempt

namespace Compositional

variable {C : {A : Type} → Prog I A → Prop}

theorem ofExcept (h : Compositional C) (r : Except I.Exn A) : C (Prog.ofExcept r) := by
  cases r with
  | ok a => exact h.ret a
  | error e => exact h.raise e

theorem handle (h : Compositional C) {p : Prog I A} {handler : I.Exn → Prog I A} (hp : C p) (hh : ∀ e, C (handler e)) :
    C (p.handle handler) := by
  refine h.bind (h.attempt hp) fun r => ?_
  cases r with
  | ok a => exact h.ret a
  | error e => exact hh e

end Compositional

end Prog

theorem Rules.maintains_compositional {T R : Type} {W : World I T R} (G : Rules W) (t : T) (P : W.State → Prop) :
    Prog.Compositional (I := I) fun p => G.Maintains t P p where
  ret a := .ret a
  raise e := .raise e
  bind hp hf := .bind hp hf
  attempt hp := .attempt hp

end Orchestrator.Async
