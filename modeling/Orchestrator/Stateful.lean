import Mathlib.Logic.Basic

/-!
Computations over a state that outlives what they raise, and the awaited steps
they are made of: of such a step only its answer is known, and what others say
while it is awaited.
-/

namespace Orchestrator

variable {S E A B R V : Type}

structure Awaited (R E A : Type) where
  heard : List R
  ends : Except E A

namespace Awaited

protected def bind (x : Awaited R E A) (f : A → Awaited R E B) : Awaited R E B :=
  match x.ends with
  | .ok a => ⟨x.heard ++ (f a).heard, (f a).ends⟩
  | .error e => ⟨x.heard, .error e⟩

instance : Monad (Awaited R E) where
  pure a := ⟨[], .ok a⟩
  bind := Awaited.bind

def ofExcept (r : Except E A) : Awaited R E A := ⟨[], r⟩

@[simp] theorem heard_ofExcept (r : Except E A) : (ofExcept r : Awaited R E A).heard = [] := rfl

@[simp] theorem ends_ofExcept (r : Except E A) : (ofExcept r : Awaited R E A).ends = r := rfl

theorem bind_ok {x : Awaited R E A} {a : A} (h : x.ends = .ok a) (f : A → Awaited R E B) :
    x >>= f = ⟨x.heard ++ (f a).heard, (f a).ends⟩ := by
  show x.bind f = _
  simp only [Awaited.bind, h]

theorem bind_error {x : Awaited R E A} {e : E} (h : x.ends = .error e) (f : A → Awaited R E B) :
    x >>= f = ⟨x.heard, .error e⟩ := by
  show x.bind f = _
  simp only [Awaited.bind, h]

end Awaited

def Act (S E A : Type) := S → Except E A × S

namespace Act

protected def bind (x : Act S E A) (f : A → Act S E B) : Act S E B := fun s =>
  match x s with
  | (.ok a, s') => f a s'
  | (.error e, s') => (.error e, s')

instance : Monad (Act S E) where
  pure a := fun s => (.ok a, s)
  bind := Act.bind

def raise (e : E) : Act S E A := fun s => (.error e, s)

def ofExcept (r : Except E A) : Act S E A := fun s => (r, s)

def look (f : S → A) : Act S E A := fun s => (.ok (f s), s)

def update (f : S → S) : Act S E Unit := fun s => (.ok (), f s)

def await (hear : S → R → S) (x : Awaited R E A) : Act S E A := fun s => (x.ends, x.heard.foldl hear s)

def attempt (x : Act S E A) : Act S E (Except E A) := fun s => (.ok (x s).1, (x s).2)

def ensuring (x : Act S E A) (cleanup : Act S E Unit) : Act S E A := fun s =>
  match cleanup (x s).2 with
  | (.ok _, s') => ((x s).1, s')
  | (.error e, s') => (.error e, s')

variable {x : Act S E A} {f : A → Act S E B} {s s' : S} {a : A} {e : E}

theorem bind_ok (h : x s = (.ok a, s')) : (x >>= f) s = f a s' := by
  show x.bind f s = _
  simp only [Act.bind, h]

theorem bind_error (h : x s = (.error e, s')) : (x >>= f) s = (.error e, s') := by
  show x.bind f s = _
  simp only [Act.bind, h]

@[simp] theorem pure_apply (a : A) (s : S) : (pure a : Act S E A) s = (.ok a, s) := rfl

@[simp] theorem ofExcept_apply (r : Except E A) (s : S) : (ofExcept r : Act S E A) s = (r, s) := rfl

@[simp] theorem look_bind (g : S → A) (f : A → Act S E B) (s : S) : (look g >>= f) s = f (g s) s := rfl

@[simp] theorem update_bind (g : S → S) (f : Unit → Act S E B) (s : S) : (update g >>= f) s = f () (g s) := rfl

@[simp] theorem await_apply (hear : S → R → S) (x : Awaited R E A) (s : S) :
    await hear x s = (x.ends, x.heard.foldl hear s) := rfl

@[simp] theorem attempt_bind (x : Act S E A) (f : Except E A → Act S E B) (s : S) :
    (x.attempt >>= f) s = f (x s).1 (x s).2 := rfl

theorem ensuring_state (x : Act S E A) (cleanup : Act S E Unit) (s : S) :
    (x.ensuring cleanup s).2 = (cleanup (x s).2).2 := by
  unfold ensuring
  cases h : cleanup (x s).2 with
  | mk r s' => cases r <;> rfl

def Untouched (view : S → V) (x : Act S E A) : Prop := ∀ s, view (x s).2 = view s

namespace Untouched

variable {view : S → V}

theorem pure (a : A) : Untouched view (Pure.pure a : Act S E A) := fun _ => rfl

theorem raise (e : E) : Untouched view (Act.raise e : Act S E A) := fun _ => rfl

theorem ofExcept (r : Except E A) : Untouched view (Act.ofExcept r : Act S E A) := fun _ => rfl

theorem update {g : S → S} (h : ∀ s, view (g s) = view s) : Untouched view (Act.update g : Act S E Unit) := h

theorem bind (hx : Untouched view x) (hf : ∀ a, Untouched view (f a)) : Untouched view (x >>= f) := by
  intro s
  cases h : x s with
  | mk r s' =>
    have hs : view s' = view s := by simpa only [h] using hx s
    cases r with
    | ok a =>
      rw [bind_ok h]
      exact (hf a s').trans hs
    | error e =>
      rw [bind_error h]
      exact hs

theorem await {hear : S → R → S} (h : ∀ s r, view (hear s r) = view s) (x : Awaited R E A) :
    Untouched view (Act.await hear x) := by
  intro s
  rw [await_apply]
  induction x.heard generalizing s with
  | nil => rfl
  | cons r rest ih => exact (ih (hear s r)).trans (h s r)

end Untouched

/-- From a state in which `pre` holds the computation leaves one in which `inv` holds, however it
ends; and where it ends with a value, `post` holds too. -/
def Ensures (pre : S → Prop) (x : Act S E A) (inv : S → Prop) (post : A → S → Prop) : Prop :=
  ∀ s, pre s → inv (x s).2 ∧ ∀ a, (x s).1 = .ok a → post a (x s).2

namespace Ensures

variable {pre inv : S → Prop} {mid : A → S → Prop} {post : B → S → Prop} {b : B}

theorem pure (h : ∀ s, pre s → inv s ∧ post b s) : Ensures pre (Pure.pure b : Act S E B) inv post := by
  intro s hpre
  obtain ⟨hinv, hpost⟩ := h s hpre
  refine ⟨hinv, fun b' hb => ?_⟩
  obtain rfl := Except.ok.inj hb
  exact hpost

theorem raise (h : ∀ s, pre s → inv s) : Ensures pre (Act.raise e : Act S E B) inv post :=
  fun s hpre => ⟨h s hpre, nofun⟩

theorem ofExcept {r : Except E B} (hinv : ∀ s, pre s → inv s) (hpost : ∀ b, r = .ok b → ∀ s, pre s → post b s) :
    Ensures pre (Act.ofExcept r) inv post :=
  fun s hpre => ⟨hinv s hpre, fun b hb => hpost b hb s hpre⟩

theorem look {g : S → B} (hinv : ∀ s, pre s → inv s) (hpost : ∀ s, pre s → post (g s) s) :
    Ensures pre (Act.look g : Act S E B) inv post := by
  refine fun s hpre => ⟨hinv s hpre, fun b hb => ?_⟩
  obtain rfl := Except.ok.inj hb
  exact hpost s hpre

theorem await {hear : S → R → S} {x : Awaited R E B} (hinv : ∀ s, pre s → inv s) (hhear : ∀ s r, pre s → pre (hear s r))
    (hpost : ∀ b, x.ends = .ok b → ∀ s, pre s → post b s) : Ensures pre (Act.await hear x) inv post := by
  have hheard : ∀ (heard : List R) s, pre s → pre (heard.foldl hear s) := by
    intro heard
    induction heard with
    | nil => exact fun s h => h
    | cons r rest ih => exact fun s h => ih _ (hhear s r h)
  intro s hpre
  have hafter := hheard x.heard s hpre
  exact ⟨hinv _ hafter, fun b hb => hpost b hb _ hafter⟩

theorem bind (hx : Ensures pre x inv mid) (hf : ∀ a, Ensures (mid a) (f a) inv post) : Ensures pre (x >>= f) inv post := by
  intro s hpre
  obtain ⟨hinv, hmid⟩ := hx s hpre
  cases h : x s with
  | mk r s' =>
    simp only [h] at hinv hmid
    cases r with
    | ok a =>
      rw [bind_ok h]
      exact hf a s' (hmid a rfl)
    | error e =>
      rw [bind_error h]
      exact ⟨hinv, nofun⟩

end Ensures

end Act

end Orchestrator
