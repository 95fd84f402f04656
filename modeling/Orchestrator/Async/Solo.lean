import Orchestrator.Async.Interference

/-!
One execution by itself, together with what it ends with.
-/

namespace Orchestrator.Async

variable {I : Interface} {T R A B : Type} {t : T}

def Fate.isServed {E : Type} : Fate E → Bool
  | .served => true
  | _ => false

def Fate.told {E : Type} : Fate E → Option E
  | .served => none
  | .unheard e => some e
  | .unsent e => some e

def solo (W : World I T R) (t : T) (answers : (op : I.Op) → Option (W.Answer op)) :
    Prog I A → W.State → Option (Except I.Exn A) × W.State
  | .ret a, s => (some (.ok a), s)
  | .raise e, s => (some (.error e), s)
  | .call op next, s => match answers op with
    | none => (none, s)
    | some answer => solo W t answers (next (W.run t op answer s).1) (W.run t op answer s).2

variable {W : World I T R} {answers : (op : I.Op) → Option (W.Answer op)} {p : Prog I A} {f : A → Prog I B}
  {handler : I.Exn → Prog I A} {op : I.Op} {answer : W.Answer op} {s s' : W.State} {a : A} {e : I.Exn}

theorem solo_call {next : Except I.Exn (I.Res op) → Prog I A} : solo W t answers (.call op next) s = match answers op with
    | none => (none, s)
    | some answer => solo W t answers (next (W.run t op answer s).1) (W.run t op answer s).2 := by
  rw [solo]

theorem solo_bind_ok (h : solo W t answers p s = (some (.ok a), s')) :
    solo W t answers (p.bind f) s = solo W t answers (f a) s' := by
  induction p generalizing s with
  | ret b => cases h; rfl
  | raise e => cases h
  | call op next ih =>
    simp only [Prog.bind_call, solo_call] at h ⊢
    cases ho : answers op with
    | none => rw [ho] at h; cases h
    | some answer => rw [ho] at h; exact ih _ h

theorem solo_bind_error (h : solo W t answers p s = (some (.error e), s')) :
    solo W t answers (p.bind f) s = (some (.error e), s') := by
  induction p generalizing s with
  | ret b => cases h
  | raise e => cases h; rfl
  | call op next ih =>
    simp only [Prog.bind_call, solo_call] at h ⊢
    cases ho : answers op with
    | none => rw [ho] at h; cases h
    | some answer => rw [ho] at h; exact ih _ h

theorem solo_bind_dead (h : solo W t answers p s = (none, s')) : solo W t answers (p.bind f) s = (none, s') := by
  induction p generalizing s with
  | ret b | raise e => cases h
  | call op next ih =>
    simp only [Prog.bind_call, solo_call] at h ⊢
    cases ho : answers op with
    | none => rw [ho] at h; cases h; rfl
    | some answer => rw [ho] at h; exact ih _ h

theorem solo_perform (h : answers op = some answer) :
    solo W t answers (Prog.perform op) s = (some (W.run t op answer s).1, (W.run t op answer s).2) := by
  unfold Prog.perform
  simp only [solo_call, h]
  generalize (W.run t op answer s).1 = r
  cases r <;> rfl

theorem solo_perform_dead (h : answers op = none) : solo W t answers (Prog.perform op) s = (none, s) := by
  unfold Prog.perform
  simp only [solo_call, h]

theorem solo_attempt : solo W t answers p.attempt s = ((solo W t answers p s).1.map .ok, (solo W t answers p s).2) := by
  induction p generalizing s with
  | ret a | raise e => rfl
  | call op next ih =>
    simp only [Prog.attempt_call, solo_call]
    cases answers op with
    | none => rfl
    | some answer => exact ih _

theorem solo_handle_ok (h : solo W t answers p s = (some (.ok a), s')) :
    solo W t answers (p.handle handler) s = (some (.ok a), s') := by
  have ha : solo W t answers p.attempt s = (some (.ok (.ok a)), s') := by rw [solo_attempt, h]; rfl
  exact solo_bind_ok ha

theorem solo_handle_error (h : solo W t answers p s = (some (.error e), s')) :
    solo W t answers (p.handle handler) s = solo W t answers (handler e) s' := by
  have ha : solo W t answers p.attempt s = (some (.ok (.error e)), s') := by rw [solo_attempt, h]; rfl
  exact solo_bind_ok ha

theorem solo_handle_dead (h : solo W t answers p s = (none, s')) : solo W t answers (p.handle handler) s = (none, s') := by
  have ha : solo W t answers p.attempt s = (none, s') := by rw [solo_attempt, h]; rfl
  exact solo_bind_dead ha

theorem solo_uses {allowed : I.Op → Prop} {P : W.State → Prop} (hp : p.Uses allowed)
    (hkeeps : ∀ op answer s, allowed op → P s → P (W.run t op answer s).2) (hs : P s) : P (solo W t answers p s).2 := by
  induction p generalizing s with
  | ret a | raise e => exact hs
  | call op next ih =>
    simp only [solo_call]
    cases answers op with
    | none => exact hs
    | some answer => exact ih _ (hp.2 _) (hkeeps op answer s hp.1 hs)

theorem solo_keeps {P : W.State → Prop} (hkeeps : ∀ op answer s, answers op = some answer → P s → P (W.run t op answer s).2)
    (hs : P s) : P (solo W t answers p s).2 := by
  induction p generalizing s with
  | ret a | raise e => exact hs
  | call op next ih =>
    simp only [solo_call]
    cases ho : answers op with
    | none => exact hs
    | some answer => exact ih _ (hkeeps op answer s ho hs)

def follow (W : World I T R) (t : T) : Prog I A → List ((op : I.Op) → W.Answer op) → W.State →
    Option (Except I.Exn A) × W.State
  | .ret a, _, s => (some (.ok a), s)
  | .raise e, _, s => (some (.error e), s)
  | .call _ _, [], s => (none, s)
  | .call op next, sheet :: sheets, s => follow W t (next (W.run t op (sheet op) s).1) sheets (W.run t op (sheet op) s).2

theorem exists_follow (sheet : (op : I.Op) → W.Answer op) (p : Prog I A) (s : W.State) :
    ∃ n, follow W t p (List.replicate n sheet) s = solo W t (fun op => some (sheet op)) p s := by
  induction p generalizing s with
  | ret a | raise e => exact ⟨0, rfl⟩
  | call op next ih =>
    obtain ⟨n, hn⟩ := ih (W.run t op (sheet op) s).1 (W.run t op (sheet op) s).2
    exact ⟨n + 1, hn⟩

theorem Rules.Safe.follow {G : Rules W} {post : Except I.Exn A → W.State → Prop} {p : Prog I A} (hi : G.inv s)
    (h : G.Safe t post p s) {sheets : List ((op : I.Op) → W.Answer op)}
    (hok : ∀ sheet ∈ sheets, ∀ op s, G.admits s (.call t op (sheet op))) :
    G.inv (follow W t p sheets s).2 ∧ ∀ r, (follow W t p sheets s).1 = some r → post r (follow W t p sheets s).2 := by
  induction p generalizing s sheets with
  | ret a =>
    refine ⟨hi, fun r hr => ?_⟩
    cases hr
    exact h
  | raise e =>
    refine ⟨hi, fun r hr => ?_⟩
    cases hr
    exact h
  | call op next ih =>
    cases sheets with
    | nil => exact ⟨hi, fun r hr => nomatch hr⟩
    | cons sheet sheets =>
      obtain ⟨hk, hn⟩ := h s hi (G.rely_refl t s) (sheet op) (hok sheet List.mem_cons_self op s)
      exact ih _ hk.inv hn fun other hmem => hok other (List.mem_cons_of_mem sheet hmem)

end Orchestrator.Async
