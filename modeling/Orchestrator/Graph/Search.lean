import Mathlib.Data.Finset.Card
import Mathlib.Data.Finset.SDiff
import Mathlib.Logic.Relation

/-!
A depth-first walk over a graph whose nodes may fail to say where they lead.
The walk stops at the first failure, and is given fuel for its depth.
-/

namespace Orchestrator.Graph

variable {E N : Type}

def walkAll {L : Type} (visit : L → List N → Option (Except E (List N))) : List L → List N → Option (Except E (List N))
  | [], seen => some (.ok seen)
  | lead :: rest, seen =>
    match visit lead seen with
    | some (.ok seen) => walkAll visit rest seen
    | stopped => stopped

theorem walkAll_map {L M : Type} {visit : M → List N → Option (Except E (List N))} {f : L → M} {nodes : List L}
    {seen : List N} : walkAll visit (nodes.map f) seen = walkAll (fun lead => visit (f lead)) nodes seen := by
  induction nodes generalizing seen with
  | nil => rfl
  | cons lead rest ih =>
    simp only [List.map_cons, walkAll]
    split
    · exact ih
    · rfl

def walk [DecidableEq N] (leads : N → Except E (List (Except E N))) : Nat → Except E N → List N → Option (Except E (List N))
  | 0, _, _ => none
  | _ + 1, .error e, _ => some (.error e)
  | fuel + 1, .ok node, seen =>
    if node ∈ seen then some (.ok seen)
    else match leads node with
      | .error e => some (.error e)
      | .ok nodes => walkAll (walk leads fuel) nodes (node :: seen)

def Edge (leads : N → Except E (List (Except E N))) (n n' : N) : Prop :=
  ∃ nodes, leads n = .ok nodes ∧ .ok n' ∈ nodes

abbrev Reach (leads : N → Except E (List (Except E N))) : N → N → Prop := Relation.ReflTransGen (Edge leads)

def Sound (leads : N → Except E (List (Except E N))) (n : N) : Prop :=
  ∃ nodes, leads n = .ok nodes ∧ ∀ lead ∈ nodes, ∃ n', lead = .ok n'

variable {leads : N → Except E (List (Except E N))} {lead : Except E N} {fuel : Nat} {seen seen' later : List N}

structure Explored (leads : N → Except E (List (Except E N))) (seen seen' : List N) : Prop where
  keeps : seen ⊆ seen'
  sound : ∀ n ∈ seen', n ∉ seen → Sound leads n
  closed : ∀ n ∈ seen', n ∉ seen → ∀ n', Edge leads n n' → n' ∈ seen'

theorem Explored.refl : Explored leads seen seen :=
  ⟨fun _ h => h, fun _ h hn => absurd h hn, fun _ h hn => absurd h hn⟩

theorem Explored.trans (h : Explored leads seen seen') (h' : Explored leads seen' later) :
    Explored leads seen later := by
  refine ⟨fun n hn => h'.keeps (h.keeps hn), fun n hn hnew => ?_, fun n hn hnew n' he => ?_⟩
  · by_cases hmid : n ∈ seen'
    · exact h.sound n hmid hnew
    · exact h'.sound n hn hmid
  · by_cases hmid : n ∈ seen'
    · exact h'.keeps (h.closed n hmid hnew n' he)
    · exact h'.closed n hn hmid n' he

variable {nodes : List (Except E N)}

variable {visit : Except E N → List N → Option (Except E (List N))}

theorem walkAll_explored
    (hv : ∀ lead seen seen', visit lead seen = some (.ok seen') →
      Explored leads seen seen' ∧ ∃ n ∈ seen', lead = .ok n)
    (h : walkAll visit nodes seen = some (.ok seen')) :
    Explored leads seen seen' ∧ ∀ lead ∈ nodes, ∃ n ∈ seen', lead = .ok n := by
  induction nodes generalizing seen with
  | nil =>
    cases h
    exact ⟨.refl, fun _ hmem => nomatch hmem⟩
  | cons lead rest ih =>
    simp only [walkAll] at h
    split at h
    · next mid hmid =>
      obtain ⟨hfirst, n, hn, hlead⟩ := hv _ _ _ hmid
      obtain ⟨hrest, hall⟩ := ih h
      refine ⟨hfirst.trans hrest, fun l hl => ?_⟩
      rcases List.mem_cons.mp hl with heq | hmem
      · exact ⟨n, hrest.keeps hn, heq.trans hlead⟩
      · exact hall l hmem
    · next hstop => exact absurd h (hstop seen')

theorem walk_explored [DecidableEq N] (h : walk leads fuel lead seen = some (.ok seen')) :
    Explored leads seen seen' ∧ ∃ n ∈ seen', lead = .ok n := by
  induction fuel generalizing lead seen seen' with
  | zero => cases h
  | succ fuel ih =>
    cases lead with
    | error e => cases h
    | ok node =>
      simp only [walk] at h
      split at h
      · next hmem =>
        cases h
        exact ⟨.refl, node, hmem, rfl⟩
      · next hnew =>
        split at h
        · cases h
        · next nodes hnodes =>
          obtain ⟨hrest, hall⟩ := walkAll_explored (fun _ _ _ => ih) h
          have hsound : Sound leads node := ⟨nodes, hnodes, fun l hl => (hall l hl).imp fun _ hn => hn.2⟩
          refine ⟨⟨fun n hn => hrest.keeps (List.mem_cons_of_mem _ hn), fun n hn hfresh => ?_,
            fun n hn hfresh n' he => ?_⟩, node, hrest.keeps List.mem_cons_self, rfl⟩
          · by_cases heq : n = node
            · exact heq ▸ hsound
            · exact hrest.sound n hn fun hm => (List.mem_cons.mp hm).elim heq hfresh
          · by_cases heq : n = node
            · subst heq
              obtain ⟨nodes', hnodes', hmem⟩ := he
              rw [hnodes] at hnodes'
              cases hnodes'
              obtain ⟨m, hm, heq⟩ := hall _ hmem
              cases heq
              exact hm
            · exact hrest.closed n hn (fun hm => (List.mem_cons.mp hm).elim heq hfresh) n' he

def From (leads : N → Except E (List (Except E N))) (lead : Except E N) (n : N) : Prop :=
  ∃ root, lead = .ok root ∧ Reach leads root n

theorem From.step {node : N} (hnodes : leads node = .ok nodes) (hmem : lead ∈ nodes)
    {n : N} (h : From leads lead n) : From leads (.ok node) n := by
  obtain ⟨root, rfl, hreach⟩ := h
  exact ⟨node, rfl, .head ⟨nodes, hnodes, hmem⟩ hreach⟩

theorem walkAll_within
    (hv : ∀ lead seen seen', visit lead seen = some (.ok seen') → ∀ n ∈ seen', n ∈ seen ∨ From leads lead n)
    (h : walkAll visit nodes seen = some (.ok seen')) :
    ∀ n ∈ seen', n ∈ seen ∨ ∃ lead ∈ nodes, From leads lead n := by
  induction nodes generalizing seen with
  | nil =>
    cases h
    exact fun n hn => .inl hn
  | cons lead rest ih =>
    simp only [walkAll] at h
    split at h
    · next mid hmid =>
      intro n hn
      rcases ih h n hn with hold | ⟨l, hl, hfrom⟩
      · exact (hv _ _ _ hmid n hold).imp id fun hfrom => ⟨lead, List.mem_cons_self, hfrom⟩
      · exact .inr ⟨l, List.mem_cons_of_mem _ hl, hfrom⟩
    · next hstop => exact absurd h (hstop seen')

theorem walk_within [DecidableEq N] (h : walk leads fuel lead seen = some (.ok seen')) :
    ∀ n ∈ seen', n ∈ seen ∨ From leads lead n := by
  induction fuel generalizing lead seen seen' with
  | zero => cases h
  | succ fuel ih =>
    cases lead with
    | error e => cases h
    | ok node =>
      simp only [walk] at h
      split at h
      · cases h
        exact fun n hn => .inl hn
      · split at h
        · cases h
        · next nodes hnodes =>
          intro n hn
          rcases walkAll_within (fun _ _ _ => ih) h n hn with hold | ⟨l, hl, hfrom⟩
          · rcases List.mem_cons.mp hold with heq | hmem
            · exact .inr ⟨node, rfl, heq ▸ .refl⟩
            · exact .inl hmem
          · exact .inr (hfrom.step hnodes hl)

theorem walkAll_error {e : E}
    (hv : ∀ lead seen, visit lead seen = some (.error e) →
      (∃ e, lead = .error e) ∨ ∃ n, From leads lead n ∧ ¬ Sound leads n)
    (h : walkAll visit nodes seen = some (.error e)) :
    ∃ lead ∈ nodes, (∃ e, lead = .error e) ∨ ∃ n, From leads lead n ∧ ¬ Sound leads n := by
  induction nodes generalizing seen with
  | nil => cases h
  | cons lead rest ih =>
    simp only [walkAll] at h
    split at h
    · obtain ⟨l, hl, hwhy⟩ := ih h
      exact ⟨l, List.mem_cons_of_mem _ hl, hwhy⟩
    · exact ⟨lead, List.mem_cons_self, hv _ _ h⟩

theorem walk_error [DecidableEq N] {e : E} (h : walk leads fuel lead seen = some (.error e)) :
    (∃ e, lead = .error e) ∨ ∃ n, From leads lead n ∧ ¬ Sound leads n := by
  induction fuel generalizing lead seen with
  | zero => cases h
  | succ fuel ih =>
    cases lead with
    | error e => exact .inl ⟨e, rfl⟩
    | ok node =>
      right
      simp only [walk] at h
      split at h
      · cases h
      · split at h
        · next e' hfails =>
          refine ⟨node, ⟨node, rfl, .refl⟩, fun hsound => ?_⟩
          obtain ⟨nodes, hnodes, -⟩ := hsound
          rw [hfails] at hnodes
          cases hnodes
        · next nodes hnodes =>
          obtain ⟨l, hl, hwhy⟩ := walkAll_error (fun _ _ => ih) h
          rcases hwhy with ⟨e', he'⟩ | ⟨n, hfrom, hbad⟩
          · refine ⟨node, ⟨node, rfl, .refl⟩, fun hsound => ?_⟩
            obtain ⟨nodes', hnodes', hall⟩ := hsound
            rw [hnodes] at hnodes'
            cases hnodes'
            obtain ⟨n', hn'⟩ := hall l hl
            exact nomatch he'.symm.trans hn'
          · exact ⟨n, hfrom.step hnodes hl, hbad⟩

theorem walkAll_more {L : Type} {visit visit' : L → List N → Option (Except E (List N))} {r : Except E (List N)}
    (hv : ∀ lead seen r, visit lead seen = some r → visit' lead seen = some r)
    {nodes : List L} (h : walkAll visit nodes seen = some r) : walkAll visit' nodes seen = some r := by
  induction nodes generalizing seen with
  | nil => exact h
  | cons lead rest ih =>
    simp only [walkAll] at h ⊢
    split at h
    · next mid hmid =>
      rw [hv _ _ _ hmid]
      exact ih h
    · next hstop =>
      rw [hv _ _ _ h]
      cases r with
      | ok mid => exact absurd h (hstop mid)
      | error e => rfl

theorem walk_more [DecidableEq N] {more : Nat} {r : Except E (List N)} (h : walk leads fuel lead seen = some r) (hle : fuel ≤ more) :
    walk leads more lead seen = some r := by
  induction fuel generalizing lead seen r more with
  | zero => cases h
  | succ fuel ih =>
    obtain ⟨more, rfl⟩ : ∃ m, more = m + 1 := ⟨more - 1, by omega⟩
    cases lead with
    | error e => exact h
    | ok node =>
      simp only [walk] at h ⊢
      split
      · next hmem => simpa only [if_pos hmem] using h
      · next hnew =>
        rw [if_neg hnew] at h
        split
        · next e hfails => simpa only [hfails] using h
        · next nodes hnodes =>
          simp only [hnodes] at h
          exact walkAll_more (fun _ _ _ hsome => ih hsome (by omega)) h

def unseen [DecidableEq N] (all seen : List N) : Nat := (all.toFinset \ seen.toFinset).card

theorem unseen_le [DecidableEq N] {all : List N} (h : seen ⊆ seen') : unseen all seen' ≤ unseen all seen := by
  apply Finset.card_le_card
  intro n hn
  rw [Finset.mem_sdiff, List.mem_toFinset, List.mem_toFinset] at hn ⊢
  exact ⟨hn.1, fun hmem => hn.2 (h hmem)⟩

theorem unseen_le_length [DecidableEq N] {all : List N} : unseen all seen ≤ all.length :=
  (Finset.card_le_card Finset.sdiff_subset).trans (List.toFinset_card_le all)

theorem unseen_cons [DecidableEq N] {all : List N} {node : N} (hall : node ∈ all) (hnew : node ∉ seen) :
    unseen all (node :: seen) < unseen all seen := by
  apply Finset.card_lt_card
  refine Finset.ssubset_iff_subset_ne.mpr ⟨fun n hn => ?_, fun heq => ?_⟩
  · simp only [Finset.mem_sdiff, List.mem_toFinset, List.mem_cons, not_or] at hn ⊢
    exact ⟨hn.1, hn.2.2⟩
  · have hnode : node ∈ all.toFinset \ seen.toFinset := by simp [hall, hnew]
    rw [← heq] at hnode
    simp at hnode

section Termination

variable [DecidableEq N] {all : List N} {Arises : N → Prop}

theorem walkAll_isSome
    (hv : ∀ lead seen, (∀ n, lead = .ok n → Arises n) → unseen all seen < fuel → (walk leads fuel lead seen).isSome)
    {nodes : List (Except E N)} (harises : ∀ lead ∈ nodes, ∀ n, lead = .ok n → Arises n)
    (hfuel : unseen all seen < fuel) : (walkAll (walk leads fuel) nodes seen).isSome := by
  induction nodes generalizing seen with
  | nil => rfl
  | cons lead rest ih =>
    simp only [walkAll]
    split
    · next mid hmid =>
      apply ih fun l hl => harises l (List.mem_cons_of_mem _ hl)
      exact Nat.lt_of_le_of_lt (unseen_le (walk_explored hmid).1.keeps) hfuel
    · exact hv _ _ (harises _ List.mem_cons_self) hfuel

theorem walk_isSome (all : List N) (Arises : N → Prop)
    (hstep : ∀ n n', Arises n → Edge leads n n' → Arises n')
    (hall : ∀ n nodes, Arises n → leads n = .ok nodes → n ∈ all)
    (harises : ∀ n, lead = .ok n → Arises n) (hfuel : unseen all seen < fuel) :
    (walk leads fuel lead seen).isSome := by
  induction fuel generalizing lead seen with
  | zero => omega
  | succ fuel ih =>
    cases lead with
    | error e => rfl
    | ok node =>
      simp only [walk]
      split
      · rfl
      · next hnew =>
        split
        · rfl
        · next nodes hnodes =>
          have hnode := harises node rfl
          apply walkAll_isSome fun _ _ => ih
          · rintro l hl n rfl
            exact hstep node n hnode ⟨nodes, hnodes, hl⟩
          · have := unseen_cons (hall node nodes hnode hnodes) hnew
            omega

end Termination

theorem walk_ok [DecidableEq N] {root : N} (h : walk leads fuel (.ok root) [] = some (.ok seen)) (n : N) :
    (n ∈ seen ↔ Reach leads root n) ∧ (n ∈ seen → Sound leads n) := by
  obtain ⟨hexplored, root', hroot, heq⟩ := walk_explored h
  cases heq
  refine ⟨⟨fun hn => ?_, fun hreach => ?_⟩, fun hn => hexplored.sound n hn List.not_mem_nil⟩
  · rcases walk_within h n hn with hold | ⟨root', heq, hreach⟩
    · exact absurd hold List.not_mem_nil
    · cases heq
      exact hreach
  · induction hreach with
    | refl => exact hroot
    | tail _ he ih => exact hexplored.closed _ ih List.not_mem_nil _ he

theorem walk_fails [DecidableEq N] {root : N} {e : E} (h : walk leads fuel (.ok root) [] = some (.error e)) :
    ∃ n, Reach leads root n ∧ ¬ Sound leads n := by
  rcases walk_error h with ⟨e', he'⟩ | ⟨n, ⟨root', heq, hreach⟩, hbad⟩
  · cases he'
  · cases heq
    exact ⟨n, hreach, hbad⟩

end Orchestrator.Graph
