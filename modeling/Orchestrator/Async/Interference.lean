import Orchestrator.Async.Execution

/-!
Reasoning about one task at a time. A task is safe when, at each of its calls,
whatever the others may have done to the state meanwhile, the call keeps the
invariant and does nothing the others do not tolerate, and its continuation is
safe again. Tasks that are safe alone are safe together (`Rules.reaches_sound`).
-/

namespace Orchestrator.Async

variable {I : Interface} {T R : Type}

/-- `admits` bounds the moves under study, `rely t` is what `t` tolerates from the
other tasks while it waits, and `rest t` what holds while `t` does not run. -/
structure Rules (W : World I T R) where
  admits : W.State → Move W → Prop
  inv : W.State → Prop
  rely : T → W.State → W.State → Prop
  rely_refl : ∀ t s, rely t s s
  rely_trans : ∀ {t s s' s''}, rely t s s' → rely t s' s'' → rely t s s''
  rest : T → W.State → Prop
  rest_stable : ∀ {t s s'}, inv s' → rely t s s' → rest t s → rest t s'

namespace Rules

variable {W : World I T R} (G : Rules W)

structure Keeps (t : T) (s s' : W.State) : Prop where
  inv : G.inv s'
  rely : ∀ u, u ≠ t → G.rely u s s'

theorem Keeps.refl {t : T} {s : W.State} (h : G.inv s) : G.Keeps t s s :=
  ⟨h, fun u _ => G.rely_refl u s⟩

variable {G} in
theorem Keeps.trans {t : T} {s s' s'' : W.State} (h : G.Keeps t s s') (h' : G.Keeps t s' s'') : G.Keeps t s s'' :=
  ⟨h'.inv, fun u hu => G.rely_trans (h.rely u hu) (h'.rely u hu)⟩

def Safe {α : Type} (t : T) (post : Except I.Exn α → W.State → Prop) : Prog I α → W.State → Prop
  | .ret a, s => post (.ok a) s
  | .raise e, s => post (.error e) s
  | .call op next, s => ∀ s', G.inv s' → G.rely t s s' → ∀ answer, G.admits s' (.call t op answer) →
      G.Keeps t s' (W.run t op answer s').2 ∧
        Safe t post (next (W.run t op answer s').1) (W.run t op answer s').2

def Ends (t : T) (r : Option (Except I.Exn R)) (s : W.State) : Prop :=
  G.Keeps t s (W.ended t r s) ∧ G.rest t (W.ended t r s)

def Finishes (t : T) (r : Except I.Exn R) (s : W.State) : Prop := G.Ends t (some r) s

structure Sound (c : Config W) : Prop where
  inv : G.inv c.state
  rest : ∀ t, c.task t = none → G.rest t c.state
  safe : ∀ t w, c.task t = some w → G.Safe t (G.Finishes t) (.call w.op w.next) c.state

variable {G}

theorem Safe.tolerates {α : Type} {t : T} {post : Except I.Exn α → W.State → Prop} {op : I.Op}
    {next : Except I.Exn (I.Res op) → Prog I α} {s s' : W.State}
    (h : G.Safe t post (.call op next) s) (hr : G.rely t s s') : G.Safe t post (.call op next) s' :=
  fun s'' hi hr' answer hok => h s'' hi (G.rely_trans hr hr') answer hok

theorem Sound.idle {s : W.State} (h : G.inv s) (hrest : ∀ t, G.rest t s) : G.Sound (Config.idle s : Config W) :=
  ⟨h, fun t _ => hrest t, fun _ _ hw => nomatch hw⟩

section Pool

variable [DecidableEq T]

theorem Sound.resume {c : Config W} {t : T} {s : W.State} {p : Prog I R} (hc : G.Sound c)
    (hk : G.Keeps t c.state s) (hp : G.Safe t (G.Finishes t) p s) :
    G.Sound (Config.resume (W := W) ⟨s, c.task⟩ t p) := by
  have others : ∀ s', (∀ u, u ≠ t → G.rely u s s') → ∀ u w, u ≠ t → c.task u = some w →
      G.Safe u (G.Finishes u) (.call w.op w.next) s' := fun s' hr u w hu hw =>
    ((hc.safe u w hw).tolerates (hk.rely u hu)).tolerates (hr u hu)
  have resting : ∀ u, u ≠ t → c.task u = none → G.rest u s := fun u hu hw =>
    G.rest_stable hk.inv (hk.rely u hu) (hc.rest u hw)
  have done : ∀ s', G.Keeps t s s' ∧ G.rest t s' → G.Sound (⟨s', Function.update c.task t none⟩ : Config W) := by
    rintro s' ⟨hs, hrest⟩
    refine ⟨hs.inv, fun u hw => ?_, fun u w hw => ?_⟩
    · by_cases hu : u = t
      · exact hu ▸ hrest
      · exact G.rest_stable hs.inv (hs.rely u hu) (resting u hu (by simpa [hu] using hw))
    · by_cases hu : u = t
      · simp [hu] at hw
      · exact others s' hs.rely u w hu (by simpa [hu] using hw)
  cases p with
  | call op next =>
    refine ⟨hk.inv, fun u hw => ?_, fun u w hw => ?_⟩
    · by_cases hu : u = t
      · simp [Config.resume, hu] at hw
      · exact resting u hu (by simpa [Config.resume, hu] using hw)
    · by_cases hu : u = t
      · subst hu
        simp only [Config.resume, Function.update_self, Option.some.injEq] at hw
        subst hw
        exact hp
      · exact others s (fun v _ => G.rely_refl v s) u w hu (by simpa [Config.resume, hu] using hw)
  | _ => exact done _ hp

theorem Sound.step {body : T → Prog I R} {c d : Config W} (hc : G.Sound c)
    (start : ∀ t s, G.inv s → G.rest t s → G.admits s (.start t) → G.Safe t (G.Finishes t) (body t) s)
    (stop : ∀ t s, G.inv s → G.admits s (.stop t) → G.Ends t none s)
    (h : Step body G.admits c d) : G.Sound d := by
  cases h with
  | start t hidle hok => exact hc.resume (.refl G hc.inv) (start t c.state hc.inv (hc.rest t hidle) hok)
  | call t w hwait answer hok =>
    obtain ⟨hk, hn⟩ := hc.safe t w hwait c.state hc.inv (G.rely_refl t _) answer hok
    exact hc.resume hk hn
  | stop t w hwait hok =>
    obtain ⟨hk, hrest⟩ := stop t c.state hc.inv hok
    refine ⟨hk.inv, fun u hv => ?_, fun u v hv => ?_⟩
    · by_cases hu : u = t
      · exact hu ▸ hrest
      · exact G.rest_stable hk.inv (hk.rely u hu) (hc.rest u (by simpa [Config.abandon, hu] using hv))
    · by_cases hu : u = t
      · simp [Config.abandon, hu] at hv
      · exact (hc.safe u v (by simpa [Config.abandon, hu] using hv)).tolerates (hk.rely u hu)

theorem reaches_sound {body : T → Prog I R} {c d : Config W} (hc : G.Sound c)
    (start : ∀ t s, G.inv s → G.rest t s → G.admits s (.start t) → G.Safe t (G.Finishes t) (body t) s)
    (stop : ∀ t s, G.inv s → G.admits s (.stop t) → G.Ends t none s)
    (h : Reaches body G.admits c d) : G.Sound d := by
  induction h with
  | refl => exact hc
  | tail _ hs ih => exact ih.step start stop hs

end Pool

section Composition

variable {α β : Type} {t : T} {s : W.State} {post post' : Except I.Exn α → W.State → Prop}

variable {p : Prog I α}

theorem Safe.conseq (hi : G.inv s) (h : G.Safe t post p s)
    (hpost : ∀ r s, G.inv s → post r s → post' r s) : G.Safe t post' p s := by
  induction p generalizing s with
  | ret a | raise e => exact hpost _ _ hi h
  | call op next ih =>
    intro s' hi' hr answer hok
    obtain ⟨hk, hn⟩ := h s' hi' hr answer hok
    exact ⟨hk, ih _ hk.inv hn⟩

theorem Safe.bind {p : Prog I β} {f : β → Prog I α} {M : Except I.Exn β → W.State → Prop}
    (hi : G.inv s) (hp : G.Safe t M p s)
    (hok : ∀ b s, G.inv s → M (.ok b) s → G.Safe t post (f b) s)
    (herr : ∀ e s, G.inv s → M (.error e) s → post (.error e) s) : G.Safe t post (p.bind f) s := by
  induction p generalizing s with
  | ret b => exact hok b s hi hp
  | raise e => exact herr e s hi hp
  | call op next ih =>
    intro s' hi' hr answer hadm
    obtain ⟨hk, hn⟩ := hp s' hi' hr answer hadm
    exact ⟨hk, ih _ hk.inv hn⟩

theorem Safe.attempt {post : Except I.Exn (Except I.Exn α) → W.State → Prop}
    (h : G.Safe t (fun r s => post (.ok r) s) p s) : G.Safe t post p.attempt s := by
  induction p generalizing s with
  | ret a | raise e => exact h
  | call op next ih =>
    intro s' hi hr answer hok
    obtain ⟨hk, hn⟩ := h s' hi hr answer hok
    exact ⟨hk, ih _ hn⟩

theorem Safe.ofExcept {r : Except I.Exn α} (h : post r s) : G.Safe t post (Prog.ofExcept r) s := by
  cases r <;> exact h

theorem Safe.handle {handler : I.Exn → Prog I α}
    {M : Except I.Exn α → W.State → Prop} (hi : G.inv s) (hp : G.Safe t M p s)
    (hok : ∀ a s, G.inv s → M (.ok a) s → post (.ok a) s)
    (herr : ∀ e s, G.inv s → M (.error e) s → G.Safe t post (handler e) s) :
    G.Safe t post (p.handle handler) s := by
  refine Safe.bind (M := fun r s => ∃ r', r = .ok r' ∧ M r' s) hi
    (Safe.attempt (hp.conseq hi fun r s _ h => ⟨r, rfl, h⟩)) ?_ ?_
  · rintro r s hi ⟨_, ⟨⟩, h⟩
    cases r with
    | ok a => exact hok a s hi h
    | error e => exact herr e s hi h
  · rintro e s hi ⟨_, h, _⟩
    cases h

theorem Safe.ensuring {cleanup : Prog I Unit}
    {M : Except I.Exn α → W.State → Prop} (hi : G.inv s) (hp : G.Safe t M p s)
    (hclean : ∀ r s, G.inv s → M r s → G.Safe t (fun d s => match d with
      | .ok _ => post r s
      | .error e => post (.error e) s) cleanup s) : G.Safe t post (p.ensuring cleanup) s := by
  refine Safe.bind (M := fun r s => ∃ r', r = .ok r' ∧ M r' s) hi
    (Safe.attempt (hp.conseq hi fun r s _ h => ⟨r, rfl, h⟩)) ?_ ?_
  · rintro r s hi ⟨_, ⟨⟩, h⟩
    exact Safe.bind hi (hclean r s hi h) (fun _ s _ h => Safe.ofExcept h) (fun _ _ _ h => h)
  · rintro e s hi ⟨_, h, _⟩
    cases h

theorem Safe.perform {op : I.Op} {post : Except I.Exn (I.Res op) → W.State → Prop}
    (h : ∀ s', G.inv s' → G.rely t s s' → ∀ answer, G.admits s' (.call t op answer) →
      G.Keeps t s' (W.run t op answer s').2 ∧ post (W.run t op answer s').1 (W.run t op answer s').2) :
    G.Safe t post (Prog.perform op) s := by
  intro s' hi hr answer hok
  obtain ⟨hk, hp⟩ := h s' hi hr answer hok
  refine ⟨hk, ?_⟩
  generalize (W.run t op answer s').1 = r at hp ⊢
  cases r <;> exact hp

end Composition

section Assertions

variable (G)

def Stable (t : T) (P : W.State → Prop) : Prop := ∀ s s', G.inv s' → G.rely t s s' → P s → P s'

def Leaves (t : T) (P : W.State → Prop) (op : I.Op) : Prop :=
  ∀ s, G.inv s → P s → ∀ answer, G.admits s (.call t op answer) →
    G.Keeps t s (W.run t op answer s).2 ∧ P (W.run t op answer s).2

def Maintains {α : Type} (t : T) (P : W.State → Prop) (p : Prog I α) : Prop :=
  ∀ s, G.inv s → P s → G.Safe t (fun _ => P) p s

variable {G} {α β : Type} {t : T} {P : W.State → Prop}

theorem Maintains.ret (a : α) : G.Maintains t P (.ret a) := fun _ _ h => h

theorem Maintains.raise (e : I.Exn) : G.Maintains t P (.raise e : Prog I α) := fun _ _ h => h

theorem Maintains.ofExcept (r : Except I.Exn α) : G.Maintains t P (Prog.ofExcept r) := by
  cases r with
  | ok a => exact .ret a
  | error e => exact .raise e

theorem Maintains.perform {op : I.Op} (hst : G.Stable t P) (h : G.Leaves t P op) :
    G.Maintains t P (Prog.perform op) :=
  fun s _ hP => Safe.perform fun s' hi' hr answer hok => h s' hi' (hst s s' hi' hr hP) answer hok

theorem Maintains.bind {p : Prog I β} {f : β → Prog I α} (hp : G.Maintains t P p)
    (hf : ∀ b, G.Maintains t P (f b)) : G.Maintains t P (p.bind f) :=
  fun s hi h => Safe.bind hi (hp s hi h) (fun b s hi h => hf b s hi h) (fun _ _ _ h => h)

variable {p : Prog I α}

theorem Maintains.attempt (hp : G.Maintains t P p) : G.Maintains t P p.attempt :=
  fun s hi h => Safe.attempt (hp s hi h)

theorem Maintains.handle {handler : I.Exn → Prog I α} (hp : G.Maintains t P p)
    (hh : ∀ e, G.Maintains t P (handler e)) : G.Maintains t P (p.handle handler) :=
  fun s hi h => Safe.handle hi (hp s hi h) (fun _ _ _ h => h) (fun e s hi h => hh e s hi h)

theorem Maintains.ensuring {cleanup : Prog I Unit} (hp : G.Maintains t P p)
    (hc : G.Maintains t P cleanup) : G.Maintains t P (p.ensuring cleanup) :=
  .bind hp.attempt fun r => .bind hc fun _ => .ofExcept r

theorem Maintains.forEach {xs : List α} {body : α → Prog I Unit} (hb : ∀ x ∈ xs, G.Maintains t P (body x)) :
    G.Maintains t P (Prog.forEach xs body) := by
  induction xs with
  | nil => exact .ret ()
  | cons x xs ih =>
    exact .bind (hb x List.mem_cons_self) fun _ => ih fun y hy => hb y (List.mem_cons_of_mem x hy)

theorem Safe.leaves (hst : G.Stable t P) (hp : p.Uses (G.Leaves t P)) : G.Maintains t P p := by
  induction p with
  | ret a => exact .ret a
  | raise e => exact .raise e
  | call op next ih =>
    intro s hi h s' hi' hr answer hok
    obtain ⟨hk, hn⟩ := hp.1 s' hi' (hst s s' hi' hr h) answer hok
    exact ⟨hk, ih _ (hp.2 _) _ hk.inv hn⟩

theorem Leaves.serve {op : I.Op} {fate : W.Answer op → Fate I.Exn} {exec : W.Answer op → W.State → Except I.Exn (I.Res op) × W.State}
    (hrun : ∀ answer s, W.run t op answer s = (fate answer).serve (exec answer) s)
    (h : ∀ s answer, G.inv s → P s → G.admits s (.call t op answer) → (fate answer).carriedOut = true →
      G.Keeps t s (exec answer s).2 ∧ P (exec answer s).2) : G.Leaves t P op := by
  intro s hi hP answer hok
  have hserved := h s answer hi hP hok
  rw [hrun answer s]
  generalize fate answer = fate at hserved ⊢
  cases fate with
  | unsent e => exact ⟨.refl G hi, hP⟩
  | _ => exact hserved rfl

end Assertions

section Results

variable (G) {α β : Type} {t : T} {s : W.State}

abbrev Yields (t : T) (Q : α → W.State → Prop) (p : Prog I α) (s : W.State) : Prop :=
  G.Safe t (fun r s => ∀ a, r = .ok a → Q a s) p s

variable {G} {Q : α → W.State → Prop}

theorem Yields.ret {a : α} (h : Q a s) : G.Yields t Q (.ret a) s := fun _ heq => by
  cases heq
  exact h

theorem Yields.raise {e : I.Exn} : G.Yields t Q (.raise e : Prog I α) s := fun _ heq => nomatch heq

theorem Yields.bind {p : Prog I β} {f : β → Prog I α} {M : β → W.State → Prop} (hi : G.inv s) (hp : G.Yields t M p s)
    (hf : ∀ b s, G.inv s → M b s → G.Yields t Q (f b) s) : G.Yields t Q (p.bind f) s :=
  Safe.bind hi hp (fun b s hi h => hf b s hi (h b rfl)) fun _ _ _ _ _ h => nomatch h

theorem Yields.handle {p : Prog I α} {handler : I.Exn → Prog I α} (hi : G.inv s) (hp : G.Yields t Q p s)
    (hh : ∀ e s, G.inv s → G.Yields t Q (handler e) s) : G.Yields t Q (p.handle handler) s :=
  Safe.handle hi hp (fun _ _ _ h => h) fun e s hi _ => hh e s hi

theorem Yields.of_maintains {P : W.State → Prop} {p : Prog I α} (hp : G.Maintains t P p) (hi : G.inv s) (h : P s) :
    G.Yields t (fun _ => P) p s := (hp s hi h).conseq hi fun _ _ _ h _ _ => h

theorem Yields.perform {op : I.Op} {fate : W.Answer op → Fate I.Exn}
    {exec : W.Answer op → W.State → Except I.Exn (I.Res op) × W.State} {Q : I.Res op → W.State → Prop}
    (hrun : ∀ answer s, W.run t op answer s = (fate answer).serve (exec answer) s)
    (h : ∀ s' answer, G.inv s' → G.rely t s s' → G.admits s' (.call t op answer) → (fate answer).carriedOut = true →
      G.Keeps t s' (exec answer s').2 ∧ ∀ a, (exec answer s').1 = .ok a → Q a (exec answer s').2) :
    G.Yields t Q (Prog.perform op) s := by
  refine Safe.perform fun s' hi hr answer hok => ?_
  have hserved := h s' answer hi hr hok
  rw [hrun answer s']
  generalize fate answer = fate at hserved ⊢
  cases fate with
  | served => exact hserved rfl
  | unheard e => exact ⟨(hserved rfl).1, fun _ h => nomatch h⟩
  | unsent e => exact ⟨.refl G hi, fun _ h => nomatch h⟩

end Results

end Rules

end Orchestrator.Async
