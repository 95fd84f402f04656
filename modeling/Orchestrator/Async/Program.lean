import Mathlib.Logic.Function.Basic

/-!
Asynchronous programs that talk to services they do not control. A program is
a tree of awaited calls; between two calls it runs without interruption, and
every call may answer with an exception instead of a result.
-/

namespace Orchestrator.Async

structure Interface where
  Op : Type
  Res : Op → Type
  Exn : Type

inductive Prog (I : Interface) (α : Type) where
  | ret (value : α)
  | raise (error : I.Exn)
  | call (op : I.Op) (next : Except I.Exn (I.Res op) → Prog I α)

namespace Prog

variable {I : Interface} {α β γ : Type}

protected def bind : Prog I α → (α → Prog I β) → Prog I β
  | ret a, f => f a
  | raise e, _ => raise e
  | call op next, f => call op (fun r => (next r).bind f)

instance : Monad (Prog I) where
  pure := ret
  bind := Prog.bind

def perform (op : I.Op) : Prog I (I.Res op) :=
  call op (fun r => match r with
    | .ok a => ret a
    | .error e => raise e)

def attempt : Prog I α → Prog I (Except I.Exn α)
  | ret a => ret (.ok a)
  | raise e => ret (.error e)
  | call op next => call op (fun r => (next r).attempt)

def ofExcept : Except I.Exn α → Prog I α
  | .ok a => ret a
  | .error e => raise e

/-- `try … except`, for a handler that sees every exception. -/
def handle (p : Prog I α) (handler : I.Exn → Prog I α) : Prog I α :=
  p.attempt.bind (fun r => match r with
    | .ok a => ret a
    | .error e => handler e)

def ensuring (p : Prog I α) (cleanup : Prog I Unit) : Prog I α :=
  p.attempt.bind (fun r => cleanup.bind (fun _ => ofExcept r))

def forEach : List α → (α → Prog I Unit) → Prog I Unit
  | [], _ => ret ()
  | x :: xs, body => (body x).bind (fun _ => forEach xs body)

@[simp] theorem bind_ret (a : α) (f : α → Prog I β) : (ret a).bind f = f a := rfl

@[simp] theorem bind_raise (e : I.Exn) (f : α → Prog I β) : (raise e).bind f = raise e := rfl

@[simp] theorem bind_call (op : I.Op) (next : Except I.Exn (I.Res op) → Prog I α) (f : α → Prog I β) :
    (call op next).bind f = call op (fun r => (next r).bind f) := rfl

@[simp] theorem pure_eq (a : α) : (pure a : Prog I α) = ret a := rfl

@[simp] theorem bind_eq (p : Prog I α) (f : α → Prog I β) : (p >>= f) = p.bind f := rfl

@[simp] theorem attempt_ret (a : α) : (ret a : Prog I α).attempt = ret (.ok a) := rfl

@[simp] theorem attempt_raise (e : I.Exn) : (raise e : Prog I α).attempt = ret (.error e) := rfl

@[simp] theorem attempt_call (op : I.Op) (next : Except I.Exn (I.Res op) → Prog I α) :
    (call op next).attempt = call op (fun r => (next r).attempt) := rfl

theorem bind_assoc (p : Prog I α) (f : α → Prog I β) (g : β → Prog I γ) :
    (p.bind f).bind g = p.bind (fun a => (f a).bind g) := by
  induction p with
  | ret a | raise e => rfl
  | call op next ih =>
    simp only [bind_call]
    congr 1
    funext r
    exact ih r

def Uses (allowed : I.Op → Prop) : Prog I α → Prop
  | ret _ => True
  | raise _ => True
  | call op next => allowed op ∧ ∀ r, (next r).Uses allowed

variable {allowed : I.Op → Prop}

variable {p : Prog I α}

theorem Uses.bind {f : α → Prog I β}
    (hp : p.Uses allowed) (hf : ∀ a, (f a).Uses allowed) : (p.bind f).Uses allowed := by
  induction p with
  | ret a => exact hf a
  | raise e => trivial
  | call op next ih => exact ⟨hp.1, fun r => ih r (hp.2 r)⟩

theorem Uses.attempt (hp : p.Uses allowed) :
    p.attempt.Uses allowed := by
  induction p with
  | ret a | raise e => trivial
  | call op next ih => exact ⟨hp.1, fun r => ih r (hp.2 r)⟩

theorem Uses.perform {op : I.Op} (h : allowed op) :
    (perform op : Prog I _).Uses allowed := by
  refine ⟨h, fun r => ?_⟩
  cases r <;> trivial

theorem Uses.handle {handler : I.Exn → Prog I α}
    (hp : p.Uses allowed) (hh : ∀ e, (handler e).Uses allowed) : (p.handle handler).Uses allowed := by
  refine hp.attempt.bind fun r => ?_
  cases r with
  | ok a => trivial
  | error e => exact hh e

theorem Uses.forEach {xs : List α} {f : α → Prog I Unit}
    (hf : ∀ x ∈ xs, (f x).Uses allowed) : (forEach xs f).Uses allowed := by
  induction xs with
  | nil => trivial
  | cons x xs ih => exact (hf x List.mem_cons_self).bind fun _ => ih fun y hy => hf y (List.mem_cons_of_mem _ hy)

theorem Uses.mono {allowed wider : I.Op → Prop} (hp : p.Uses allowed)
    (h : ∀ op, allowed op → wider op) : p.Uses wider := by
  induction p with
  | ret a | raise e => trivial
  | call op next ih => exact ⟨h op hp.1, fun r => ih r (hp.2 r)⟩

end Prog

end Orchestrator.Async
