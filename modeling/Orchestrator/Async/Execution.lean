import Mathlib.Logic.Relation
import Orchestrator.Async.Program

/-!
Interleaved execution. A world says what each call does to the shared state
and what its environment may answer; a configuration holds the state and the
call every running task is waiting for. A step starts a task, answers one
waiting call, or stops a task between two calls, as a dying process does.
-/

namespace Orchestrator.Async

/-- What `Answer op` leaves to the environment is chosen anew for each call:
whether it is served, whether its reply arrives, what a service outside the
model says. `ended` is what the end of a task does to the state; a task that
is stopped ends with no outcome. -/
structure World (I : Interface) (T R : Type) where
  State : Type
  Answer : I.Op → Type
  run : T → (op : I.Op) → Answer op → State → Except I.Exn (I.Res op) × State
  ended : T → Option (Except I.Exn R) → State → State

inductive Fate (E : Type) where
  | served
  | unheard (error : E)
  | unsent (error : E)

def Fate.carriedOut {E : Type} : Fate E → Bool
  | .unsent _ => false
  | _ => true

def Fate.serve {E S A : Type} (fate : Fate E) (exec : S → Except E A × S) (s : S) : Except E A × S :=
  match fate with
  | .served => exec s
  | .unheard e => (.error e, (exec s).2)
  | .unsent e => (.error e, s)

theorem Fate.serve_ok {E S A : Type} {fate : Fate E} {exec : S → Except E A × S} {s s' : S} {a : A}
    (h : fate.serve exec s = (.ok a, s')) : exec s = (.ok a, s') := by
  cases fate with
  | served => exact h
  | _ => cases h

structure Waiting (I : Interface) (R : Type) where
  op : I.Op
  next : Except I.Exn (I.Res op) → Prog I R

variable {I : Interface} {T R : Type}

structure Config (W : World I T R) where
  state : W.State
  task : T → Option (Waiting I R)

inductive Move (W : World I T R) where
  | start (t : T)
  | call (t : T) (op : I.Op) (answer : W.Answer op)
  | stop (t : T)

variable {W : World I T R} [DecidableEq T]

namespace Config

def idle (s : W.State) : Config W := ⟨s, fun _ => none⟩

def resume (c : Config W) (t : T) : Prog I R → Config W
  | .ret a => ⟨W.ended t (some (.ok a)) c.state, Function.update c.task t none⟩
  | .raise e => ⟨W.ended t (some (.error e)) c.state, Function.update c.task t none⟩
  | .call op next => ⟨c.state, Function.update c.task t (some ⟨op, next⟩)⟩

def reply (c : Config W) (t : T) (w : Waiting I R) (answer : W.Answer w.op) : Config W :=
  resume ⟨(W.run t w.op answer c.state).2, c.task⟩ t (w.next (W.run t w.op answer c.state).1)

def abandon (c : Config W) (t : T) : Config W :=
  ⟨W.ended t none c.state, Function.update c.task t none⟩

end Config

/-- One step of the pool in which task `t` runs `body t`, among the moves that
`admits` allows in the current state. A finished task may be started again. -/
inductive Step (body : T → Prog I R) (admits : W.State → Move W → Prop) : Config W → Config W → Prop
  | start {c : Config W} (t : T) (hidle : c.task t = none) (hok : admits c.state (.start t)) :
      Step body admits c (c.resume t (body t))
  | call {c : Config W} (t : T) (w : Waiting I R) (hwait : c.task t = some w) (answer : W.Answer w.op)
      (hok : admits c.state (.call t w.op answer)) : Step body admits c (c.reply t w answer)
  | stop {c : Config W} (t : T) (w : Waiting I R) (hwait : c.task t = some w)
      (hok : admits c.state (.stop t)) : Step body admits c (c.abandon t)

def Reaches (body : T → Prog I R) (admits : W.State → Move W → Prop) : Config W → Config W → Prop :=
  Relation.ReflTransGen (Step body admits)

def anyMove : W.State → Move W → Prop := fun _ _ => True

variable {body : T → Prog I R}

variable {c d : Config W}

theorem Step.mono {admits wider : W.State → Move W → Prop}
    (h : Step body admits c d) (hw : ∀ s m, admits s m → wider s m) : Step body wider c d := by
  cases h with
  | start t hidle hok => exact .start t hidle (hw _ _ hok)
  | call t w hwait answer hok => exact .call t w hwait answer (hw _ _ hok)
  | stop t w hwait hok => exact .stop t w hwait (hw _ _ hok)

theorem Reaches.mono {admits wider : W.State → Move W → Prop}
    (h : Reaches body admits c d) (hw : ∀ s m, admits s m → wider s m) : Reaches body wider c d := by
  induction h with
  | refl => exact .refl
  | tail _ hs ih => exact ih.tail (hs.mono hw)

variable {P : W.State → Prop}

theorem Config.resume_state (hended : ∀ t outcome s, P s → P (W.ended t outcome s)) {c : Config W} (t : T)
    (p : Prog I R) (h : P c.state) : P (c.resume t p).state := by
  cases p with
  | call op next => exact h
  | _ => exact hended t _ _ h

variable {admits : W.State → Move W → Prop}

theorem Reaches.invariant
    (hcall : ∀ t op answer s, P s → admits s (.call t op answer) → P (W.run t op answer s).2)
    (hended : ∀ t outcome s, P s → P (W.ended t outcome s)) (h : Reaches body admits c d) (hc : P c.state) : P d.state := by
  induction h with
  | refl => exact hc
  | tail _ hs ih =>
    cases hs with
    | start t hidle hok => exact Config.resume_state hended t _ ih
    | call t w hwait answer hok => exact Config.resume_state hended t _ (hcall t w.op answer _ ih hok)
    | stop t w hwait hok => exact hended t none _ ih

/-- One turn of an executable schedule; `answers` is the environment's sheet of
answers, of which the call that is waiting reads its own. -/
inductive Turn (W : World I T R) where
  | start (t : T)
  | call (t : T) (answers : (op : I.Op) → W.Answer op)
  | stop (t : T)

def Config.turn (body : T → Prog I R) (c : Config W) : Turn W → Config W
  | .start t => match c.task t with
    | none => c.resume t (body t)
    | some _ => c
  | .call t answers => match c.task t with
    | none => c
    | some w => c.reply t w (answers w.op)
  | .stop t => match c.task t with
    | none => c
    | some _ => c.abandon t

def Config.play (body : T → Prog I R) (c : Config W) (turns : List (Turn W)) : Config W :=
  turns.foldl (Config.turn body) c

def Turn.Allowed (admits : W.State → Move W → Prop) (c : Config W) : Turn W → Prop
  | .start t => admits c.state (.start t)
  | .call t answers => ∀ w, c.task t = some w → admits c.state (.call t w.op (answers w.op))
  | .stop t => admits c.state (.stop t)

/-- Every turn of the schedule is a move that `admits` allows when its time comes. -/
def Config.Admitted (body : T → Prog I R) (admits : W.State → Move W → Prop) (c : Config W) : List (Turn W) → Prop
  | [] => True
  | m :: turns => m.Allowed admits c ∧ (c.turn body m).Admitted body admits turns

instance {admits : W.State → Move W → Prop} [∀ s m, Decidable (admits s m)] (c : Config W) :
    (m : Turn W) → Decidable (m.Allowed admits c)
  | .start t => inferInstanceAs (Decidable (admits c.state (.start t)))
  | .call t answers =>
    match h : c.task t with
    | none => .isTrue fun _ hw => nomatch h.symm.trans hw
    | some w => decidable_of_iff (admits c.state (.call t w.op (answers w.op)))
        ⟨fun hok _ hw => Option.some.inj (h.symm.trans hw) ▸ hok, fun hall => hall w h⟩
  | .stop t => inferInstanceAs (Decidable (admits c.state (.stop t)))

instance decidableAdmitted {body : T → Prog I R} {admits : W.State → Move W → Prop}
    [∀ s m, Decidable (admits s m)] : (c : Config W) → (turns : List (Turn W)) →
    Decidable (c.Admitted body admits turns)
  | _, [] => .isTrue trivial
  | c, m :: turns =>
    @instDecidableAnd (m.Allowed admits c) ((c.turn body m).Admitted body admits turns) _
      (decidableAdmitted (c.turn body m) turns)

theorem turn_reaches {c : Config W} {m : Turn W}
    (h : m.Allowed admits c) : Reaches body admits c (c.turn body m) := by
  cases m with
  | start t =>
    cases hw : c.task t with
    | none => simpa only [Config.turn, hw] using .single (Step.start t hw h)
    | some w => simpa only [Config.turn, hw] using .refl
  | call t answers =>
    cases hw : c.task t with
    | none => simpa only [Config.turn, hw] using .refl
    | some w => simpa only [Config.turn, hw] using .single (Step.call t w hw (answers w.op) (h w hw))
  | stop t =>
    cases hw : c.task t with
    | none => simpa only [Config.turn, hw] using .refl
    | some w => simpa only [Config.turn, hw] using .single (Step.stop t w hw h)

theorem play_reaches {c : Config W}
    {turns : List (Turn W)} (h : c.Admitted body admits turns) : Reaches body admits c (c.play body turns) := by
  induction turns generalizing c with
  | nil => exact .refl
  | cons m turns ih => exact (turn_reaches h.1).trans (ih h.2)

theorem play_reaches_anyMove (body : T → Prog I R) (c : Config W) (turns : List (Turn W)) :
    Reaches body anyMove c (c.play body turns) := by
  have hall : ∀ turns : List (Turn W), ∀ c : Config W, c.Admitted body anyMove turns := by
    intro turns
    induction turns with
    | nil => exact fun _ => trivial
    | cons m turns ih =>
      intro c
      refine ⟨?_, ih _⟩
      cases m with
      | call t answers => exact fun _ _ => trivial
      | _ => trivial
  exact play_reaches (hall turns c)

omit [DecidableEq T]

/-- The state one execution leaves by itself, its environment given as a sheet
of answers. Where the sheet has no answer, the process dies before the call. -/
def alone (W : World I T R) {A : Type} (t : T) (answers : (op : I.Op) → Option (W.Answer op)) :
    Prog I A → W.State → W.State
  | .ret _, s => s
  | .raise _, s => s
  | .call op next, s => match answers op with
    | none => s
    | some answer => alone W t answers (next (W.run t op answer s).1) (W.run t op answer s).2

variable {answers : (op : I.Op) → Option (W.Answer op)}

variable {s : W.State}

variable {t : T}

variable {A : Type}

variable {op : I.Op}

theorem alone_step
    {next : Except I.Exn (I.Res op) → Prog I A} : alone W t answers (.call op next) s = match answers op with
      | none => s
      | some answer => alone W t answers (next (W.run t op answer s).1) (W.run t op answer s).2 := by
  rw [alone]

theorem alone_call
    {next : Except I.Exn (I.Res op) → Prog I A} {answer : W.Answer op} (h : answers op = some answer) :
    alone W t answers (.call op next) s =
      alone W t answers (next (W.run t op answer s).1) (W.run t op answer s).2 := by
  rw [alone_step, h]

theorem alone_last
    {answer : W.Answer op} (h : answers op = some answer) (a : A) :
    alone W t answers ((Prog.perform op).bind fun _ => .ret a) s = (W.run t op answer s).2 := by
  refine (alone_call h).trans ?_
  cases hr : (W.run t op answer s).1 with
  | ok _ | error _ => rfl

theorem alone_bind {A B : Type} {p : Prog I A}
    {f : A → Prog I B} (hp : P (alone W t answers p s))
    (hf : ∀ a s', P s' → P (alone W t answers (f a) s')) : P (alone W t answers (p.bind f) s) := by
  induction p generalizing s with
  | ret a => exact hf a s hp
  | raise e => exact hp
  | call op next ih =>
    simp only [Prog.bind_call, alone_step] at hp ⊢
    cases h : answers op with
    | none =>
      rw [h] at hp
      exact hp
    | some answer =>
      rw [h] at hp
      exact ih _ hp

theorem alone_perform
    (h : P s) (hrun : ∀ answer, P (W.run t op answer s).2) :
    P (alone W t answers (Prog.perform op) s) := by
  unfold Prog.perform
  simp only [alone_step]
  cases answers op with
  | none => exact h
  | some answer =>
    have hstate := hrun answer
    dsimp only
    generalize (W.run t op answer s).1 = r
    cases r with
    | ok _ | error _ => exact hstate

theorem alone_attempt {p : Prog I A}
    : alone W t answers p.attempt s = alone W t answers p s := by
  induction p generalizing s with
  | ret a | raise e => rfl
  | call op next ih =>
    simp only [Prog.attempt_call, alone_step]
    cases answers op with
    | none => rfl
    | some answer => exact ih _

theorem alone_handle {p : Prog I A}
    {handler : I.Exn → Prog I A} (hp : P (alone W t answers p s))
    (hh : ∀ e s', P s' → P (alone W t answers (handler e) s')) : P (alone W t answers (p.handle handler) s) := by
  refine alone_bind (by rw [alone_attempt]; exact hp) fun r s' hs' => ?_
  cases r with
  | ok a => exact hs'
  | error e => exact hh e s' hs'

end Orchestrator.Async
