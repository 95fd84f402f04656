import Orchestrator.Async.Interference

/-!
Programs whose calls are programs over another interface.
-/

namespace Orchestrator.Async

variable {I J : Interface} {A B : Type}

namespace Prog

variable (f : (op : I.Op) → Prog J (Except I.Exn (I.Res op)))

def interp : Prog I A → Prog J (Except I.Exn A)
  | ret a => ret (.ok a)
  | raise e => ret (.error e)
  | call op next => (f op).bind fun r => (next r).interp

theorem interp_call (op : I.Op) (next : Except I.Exn (I.Res op) → Prog I A) :
    (call op next).interp f = (f op).bind fun r => (next r).interp f := rfl

theorem interp_bind (p : Prog I A) (q : A → Prog I B) :
    (p.bind q).interp f = (p.interp f).bind fun r => match r with
      | .ok a => (q a).interp f
      | .error e => ret (.error e) := by
  induction p with
  | ret a | raise e => rfl
  | call op next ih =>
    simp only [bind_call, interp_call, bind_assoc]
    congr 1
    funext r
    exact ih r

theorem interp_attempt (p : Prog I A) : p.attempt.interp f = (p.interp f).bind fun r => ret (.ok r) := by
  induction p with
  | ret a | raise e => rfl
  | call op next ih =>
    simp only [attempt_call, interp_call, bind_assoc]
    congr 1
    funext r
    exact ih r

theorem interp_perform (op : I.Op) : (perform op).interp f = (f op).bind fun r => ret r := by
  simp only [perform, interp_call]
  congr 1
  funext r
  cases r <;> rfl

end Prog

namespace Rules

variable {T R : Type} {W : World J T R} (G : Rules W) (f : (op : I.Op) → Prog J (Except I.Exn (I.Res op)))

def Runs (t : T) (post : Except I.Exn A → W.State → Prop) (p : Prog I A) (s : W.State) : Prop :=
  G.Safe t (fun r s => ∃ r', r = .ok r' ∧ post r' s) (p.interp f) s

variable {G} {f} {t : T} {s : W.State} {post post' : Except I.Exn A → W.State → Prop}

variable {p : Prog I A}

theorem Runs.conseq (hi : G.inv s) (h : G.Runs f t post p s) (hpost : ∀ r s, G.inv s → post r s → post' r s) :
    G.Runs f t post' p s := by
  refine Safe.conseq hi h ?_
  rintro r s hi ⟨r', rfl, hr⟩
  exact ⟨r', rfl, hpost r' s hi hr⟩

theorem Runs.ret {a : A} (h : post (.ok a) s) : G.Runs f t post (.ret a) s := ⟨_, rfl, h⟩

theorem Runs.raise {e : I.Exn} (h : post (.error e) s) : G.Runs f t post (.raise e) s := ⟨_, rfl, h⟩

theorem Runs.perform {op : I.Op} {post : Except I.Exn (I.Res op) → W.State → Prop} (hi : G.inv s)
    (h : G.Safe t (fun r s => ∃ r', r = .ok r' ∧ post r' s) (f op) s) : G.Runs f t post (Prog.perform op) s := by
  unfold Runs
  rw [Prog.interp_perform]
  refine Safe.bind hi h (fun _ _ _ h => h) ?_
  rintro e s _ ⟨_, heq, _⟩
  cases heq

theorem Runs.ofExcept {r : Except I.Exn A} (h : post r s) : G.Runs f t post (Prog.ofExcept r) s := by
  cases r with
  | ok a => exact .ret h
  | error e => exact .raise h

theorem Runs.bind {p : Prog I B} {q : B → Prog I A} {M : Except I.Exn B → W.State → Prop} (hi : G.inv s)
    (hp : G.Runs f t M p s) (hok : ∀ b s, G.inv s → M (.ok b) s → G.Runs f t post (q b) s)
    (herr : ∀ e s, G.inv s → M (.error e) s → post (.error e) s) : G.Runs f t post (p.bind q) s := by
  unfold Runs
  rw [Prog.interp_bind]
  refine Safe.bind hi hp ?_ ?_
  · rintro r s hi ⟨_, ⟨⟩, hr⟩
    cases r with
    | ok b => exact hok b s hi hr
    | error e => exact ⟨_, rfl, herr e s hi hr⟩
  · rintro e s _ ⟨_, heq, _⟩
    cases heq

theorem Runs.attempt {post : Except I.Exn (Except I.Exn A) → W.State → Prop} (hi : G.inv s)
    (h : G.Runs f t (fun r s => post (.ok r) s) p s) : G.Runs f t post p.attempt s := by
  unfold Runs
  rw [Prog.interp_attempt]
  refine Safe.bind hi h ?_ ?_
  · rintro r s _ ⟨_, ⟨⟩, hr⟩
    exact ⟨_, rfl, hr⟩
  · rintro e s _ ⟨_, heq, _⟩
    cases heq

theorem Runs.handle {handler : I.Exn → Prog I A} {M : Except I.Exn A → W.State → Prop} (hi : G.inv s)
    (hp : G.Runs f t M p s) (hok : ∀ a s, G.inv s → M (.ok a) s → post (.ok a) s)
    (herr : ∀ e s, G.inv s → M (.error e) s → G.Runs f t post (handler e) s) : G.Runs f t post (p.handle handler) s := by
  refine Runs.bind (M := fun r s => ∃ r', r = .ok r' ∧ M r' s) hi
    (Runs.attempt hi (hp.conseq hi fun r s _ h => ⟨r, rfl, h⟩)) ?_ ?_
  · rintro r s hi ⟨_, ⟨⟩, hr⟩
    cases r with
    | ok a => exact Runs.ret (hok a s hi hr)
    | error e => exact herr e s hi hr
  · rintro e s _ ⟨_, heq, _⟩
    cases heq

theorem Runs.ensuring {cleanup : Prog I Unit} {M : Except I.Exn A → W.State → Prop} (hi : G.inv s)
    (hp : G.Runs f t M p s) (hclean : ∀ r s, G.inv s → M r s → G.Runs f t (fun d s => match d with
      | .ok _ => post r s
      | .error e => post (.error e) s) cleanup s) : G.Runs f t post (p.ensuring cleanup) s := by
  refine Runs.bind (M := fun r s => ∃ r', r = .ok r' ∧ M r' s) hi
    (Runs.attempt hi (hp.conseq hi fun r s _ h => ⟨r, rfl, h⟩)) ?_ ?_
  · rintro r s hi ⟨_, ⟨⟩, hr⟩
    exact Runs.bind hi (hclean r s hi hr) (fun _ _ _ h => Runs.ofExcept h) fun _ _ _ h => h
  · rintro e s _ ⟨_, heq, _⟩
    cases heq

end Rules

end Orchestrator.Async
