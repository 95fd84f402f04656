import Mathlib.Data.List.Perm.Basic
import Orchestrator.Diagnostics.Redaction
import Orchestrator.Replacement.Marks

/-!
When masking leaves nothing of a secret behind. Each secret is masked in the text that the
secrets before it have left, so an occurrence that one of these has cut into is not found.
-/

namespace Orchestrator.Diagnostics

open Python Replacement

section Runs

variable {A B : Type} {l : Letters A} {l' : Letters B} {f : A → B}

structure Erases (l : Letters A) (l' : Letters B) (f : A → B) : Prop where
  view : ∀ a, l'.view (f a) = l.view a
  write : ∀ c, f (l.write c) = l'.write c

theorem erases_traced : Erases traced plain Prod.fst := ⟨fun _ => rfl, fun _ => rfl⟩

theorem map_trace (text : List Char) : (trace text).map Prod.fst = text := by
  unfold trace
  rw [List.map_map]
  exact List.zipIdx_map_fst 0 text

theorem Erases.mark (h : Erases l l' f) : l.mark.map f = l'.mark := by
  unfold Letters.mark
  rw [List.map_map]
  exact List.map_congr_left fun c _ => h.write c

theorem Erases.maskSecrets (h : Erases l l' f) (secrets : List (List Char)) (text : List A) :
    (Diagnostics.maskSecrets l secrets text).map f = Diagnostics.maskSecrets l' secrets (text.map f) := by
  unfold Diagnostics.maskSecrets
  rw [map_replaceEach h.view, h.mark]

theorem Erases.substituteFrom (h : Erases l l' f) (pattern : Pattern) (template : List A) (n : Nat) (text : List A) :
    (Diagnostics.substituteFrom l pattern template n text).map f =
      Diagnostics.substituteFrom l' pattern (template.map f) n (text.map f) := by
  have hview : l'.view ∘ f = l.view := funext h.view
  induction text generalizing n with
  | nil => rfl
  | cons a rest ih =>
    cases n with
    | succ n => exact ih n
    | zero =>
      have hsame : ((a :: rest).map f).map l'.view = (a :: rest).map l.view := by rw [List.map_map, hview]
      rw [List.map_cons, Diagnostics.substituteFrom, Diagnostics.substituteFrom, ← List.map_cons, hsame]
      cases (pattern ((a :: rest).map l.view)).head? with
      | none => exact congrArg _ (ih 0)
      | some found =>
        dsimp only
        rw [List.map_append, List.map_append, ih, List.map_take, List.length_map, List.length_map]

theorem Erases.redactDiagnostic (h : Erases l l' f) (secrets : List (List Char)) (text : List A) :
    (Diagnostics.redactDiagnostic l secrets text).map f = Diagnostics.redactDiagnostic l' secrets (text.map f) := by
  unfold Diagnostics.redactDiagnostic
  dsimp only
  rw [h.substituteFrom, h.substituteFrom, h.maskSecrets, List.map_append, h.mark, List.map_singleton, h.write]

theorem Erases.boundedTail (h : Erases l l' f) (raw : List A) (environment : List (List Char × List Char)) :
    (Diagnostics.boundedTail l raw environment).map f = Diagnostics.boundedTail l' (raw.map f) environment := by
  unfold Diagnostics.boundedTail
  dsimp only
  rw [← h.redactDiagnostic, List.length_map]
  split
  · rw [List.map_drop]
  · rfl

theorem mem_substituteFrom {pattern : Pattern} {template : List A} {n : Nat} {text : List A} {a : A}
    (h : a ∈ substituteFrom l pattern template n text) : a ∈ text ∨ a ∈ template := by
  induction text generalizing n with
  | nil => cases h
  | cons x rest ih =>
    cases n with
    | succ n => exact (ih h).imp_left (List.mem_cons_of_mem _)
    | zero =>
      rw [substituteFrom] at h
      split at h
      · rcases List.mem_cons.mp h with rfl | h
        · exact Or.inl List.mem_cons_self
        · exact (ih h).imp_left (List.mem_cons_of_mem _)
      · rcases List.mem_append.mp h with h | h
        · rcases List.mem_append.mp h with h | h
          · exact Or.inl (List.mem_of_mem_take h)
          · exact Or.inr h
        · exact (ih h).imp_left (List.mem_cons_of_mem _)

theorem mem_redactDiagnostic {secrets : List (List Char)} {text : List A} {a : A} (h : a ∈ redactDiagnostic l secrets text) :
    a ∈ maskSecrets l secrets text ∨ a ∈ l.mark ∨ a = l.write '@' := by
  rcases mem_substituteFrom h with h | h
  · rcases mem_substituteFrom h with h | h
    · exact Or.inl h
    · rcases List.mem_append.mp h with h | h
      · exact Or.inr (Or.inl h)
      · exact Or.inr (Or.inr (List.mem_singleton.mp h))
  · exact Or.inr (Or.inl h)

theorem mem_boundedTail {raw : List A} {environment : List (List Char × List Char)} {a : A}
    (h : a ∈ boundedTail l raw environment) : a ∈ redactDiagnostic l (secretEnvValues environment) raw := by
  unfold boundedTail at h
  dsimp only at h
  split at h
  · exact List.mem_of_mem_drop h
  · exact h

end Runs

def Covered (secrets : List (List Char)) (text : List Char) (p : Nat) : Prop :=
  ∃ secret ∈ secrets, ∃ i, secret <+: text.drop i ∧ i ≤ p ∧ p < i + secret.length

/-- From the place `i` on, a text with every covered character turned into mask, some at a time,
and every other one left unchanged. -/
inductive Masks (covered : Nat → Prop) : Nat → List Char → List (Char × Option Nat) → Prop where
  | done {i : Nat} : Masks covered i [] []
  | keep {i : Nat} {c : Char} {text : List Char} {result : List (Char × Option Nat)} :
      ¬ covered i → Masks covered (i + 1) text result → Masks covered i (c :: text) ((c, some i) :: result)
  | mask {i : Nat} {block text : List Char} {result : List (Char × Option Nat)} :
      block ≠ [] → (∀ p, i ≤ p → p < i + block.length → covered p) → Masks covered (i + block.length) text result →
        Masks covered i (block ++ text) (traced.mark ++ result)

/-- In any order of the secrets, every covered character becomes mask and no other one changes, what
stands where does not depend on the order, and neither the redacted text nor the tail of a worker
with these secrets holds a covered character. -/
structure Masked (secrets : List (List Char)) (text : List Char) : Prop where
  complete : ∀ order, order.Perm secrets → Masks (Covered secrets text) 0 text (maskSecrets traced order (trace text))
  same : ∀ order, order.Perm secrets → maskSecrets traced order (trace text) = maskSecrets traced secrets (trace text)
  sameText : ∀ order, order.Perm secrets → maskSecrets plain order text = maskSecrets plain secrets text
  clean : ∀ order, order.Perm secrets → ∀ c p, (c, some p) ∈ redactDiagnostic traced order (trace text) → ¬ Covered secrets text p
  cleanTail : ∀ environment, (secretEnvValues environment).Perm (secrets.filter fun secret => !secret.isEmpty) →
    ∀ c p, (c, some p) ∈ boundedTail traced (trace text) environment → ¬ Covered secrets text p

open Classical in
/-- In any order of the secrets, every covered place lies in an occurrence that is masked at its
turn, and left of any other place as many occurrences are masked as in any other order. -/
def Separable (secrets : List (List Char)) (text : List Char) : Prop :=
  ∀ order, order.Perm secrets →
    (∀ p, Covered secrets text p → maskedBy text (fun _ => False) order p) ∧
      ∀ p, p ≤ text.length → ¬ Covered secrets text p →
        Nat.count (takenBy text (fun _ => False) order) p = Nat.count (takenBy text (fun _ => False) secrets) p

def Unlike (secrets : List (List Char)) : Prop := ∀ secret ∈ secrets, secret ≠ [] → Apart redacted secret

theorem Unlike.of_perm {secrets order : List (List Char)} (h : Unlike secrets) (hperm : order.Perm secrets) : Unlike order :=
  fun secret hmem => h secret (hperm.mem_iff.mp hmem)

theorem Unlike.of_all {secrets : List (List Char)} (h : (secrets.all fun secret => secret.all fun c => !redacted.contains c) = true) :
    Unlike secrets := by
  intro secret hmem hne
  apply apart_of_disjoint (List.cons_ne_nil _ _) hne
  intro c hc hmark
  have hfree := List.all_eq_true.mp (List.all_eq_true.mp h secret hmem) c hc
  have hcontains : redacted.contains c = true := List.contains_iff_mem.mpr hmark
  rw [hcontains] at hfree
  cases hfree

section Pieces

variable {secrets : List (List Char)} {text : List Char}

def pieces (secrets : List (List Char)) (text : List Char) : List (Piece Char) := takeEach secrets (untouched text)

theorem pieces_places (secrets : List (List Char)) (text : List Char) :
    source (pieces secrets text) = text ∧ (∀ p, masked 0 (pieces secrets text) p ↔ maskedBy text (fun _ => False) secrets p) ∧
      ∀ p, starts 0 (pieces secrets text) p ↔ takenBy text (fun _ => False) secrets p := by
  have hnone : ∀ p, False ↔ masked 0 (untouched text) p := fun p => iff_of_false (fun h => h) (not_masked_untouched text 0 p)
  obtain ⟨hsource, hmasked, hstarts⟩ := takeEach_places secrets (source_untouched text) hnone
  exact ⟨hsource, hmasked, fun p => (hstarts p).trans (or_iff_right (not_starts_untouched text 0 p))⟩

theorem render_untouched_traced (mark : List (Char × Option Nat)) (i : Nat) (text : List Char) :
    render (fun i c => (c, some i)) mark i (untouched text) = (text.zipIdx i).map fun entry => (entry.1, some entry.2) := by
  induction text generalizing i with
  | nil => rfl
  | cons c rest ih => exact congrArg ((c, some i) :: ·) (ih (i + 1))

theorem traced_mark_ne_nil : traced.mark ≠ [] := List.cons_ne_nil _ _

theorem traced_mark_none : ∀ a ∈ traced.mark, a.2 = none := by
  intro a ha
  obtain ⟨c, -, rfl⟩ := List.mem_map.mp ha
  rfl

theorem maskSecrets_traced (h : Unlike secrets) (text : List Char) :
    maskSecrets traced secrets (trace text) = render (fun i c => (c, some i)) traced.mark 0 (pieces secrets text) := by
  have hmark : traced.mark.map traced.view = redacted := erases_traced.mark.trans (List.map_id _)
  have hapart : ∀ secret ∈ secrets, secret ≠ [] → Apart (traced.mark.map traced.view) secret :=
    fun secret hmem hne => hmark.symm ▸ h secret hmem hne
  have hrender : replaceEach traced.view traced.mark secrets (render (fun i c => (c, some i)) traced.mark 0 (untouched text)) =
      render (fun i c => (c, some i)) traced.mark 0 (pieces secrets text) :=
    replaceEach_render (fun _ _ => rfl) traced_mark_ne_nil hapart (untouched text)
  rw [render_untouched_traced] at hrender
  exact hrender

theorem covered_of_maskedBy {hidden : Nat → Prop} (hhidden : ∀ p, hidden p → Covered secrets text p) {words : List (List Char)}
    (hwords : ∀ secret ∈ words, secret ∈ secrets) {p : Nat} (h : maskedBy text hidden words p) : Covered secrets text p := by
  induction words generalizing hidden with
  | nil => exact hhidden p h
  | cons secret rest ih =>
    obtain ⟨hmem, hrest⟩ := List.forall_mem_cons.mp hwords
    apply ih _ hrest h
    rintro q (hq | ⟨i, htaken, hle, hlt⟩)
    · exact hhidden q hq
    · exact ⟨secret, hmem, i, htaken.free.1, hle, hlt⟩

theorem Covered.lt {p : Nat} (h : Covered secrets text p) : p < text.length := by
  obtain ⟨secret, -, i, hbegins, hle, hlt⟩ := h
  have := hbegins.length_le
  rw [List.length_drop] at this
  omega

end Pieces

theorem maskSecrets_plain (order : List (List Char)) (text : List Char) :
    (maskSecrets traced order (trace text)).map Prod.fst = maskSecrets plain order text := by
  rw [erases_traced.maskSecrets, map_trace]

variable {parts : List (Piece Char)}

theorem masks_of_pieces {covered : Nat → Prop} {i : Nat}
    (h : ∀ p, i ≤ p → p < i + (source parts).length → (masked i parts p ↔ covered p)) :
    Masks covered i (source parts) (render (fun i c => (c, some i)) traced.mark i parts) := by
  induction parts generalizing i with
  | nil => exact .done
  | cons piece rest ih =>
    cases piece with
    | kept c =>
      have hlength : (source (Piece.kept c :: rest)).length = (source rest).length + 1 := rfl
      apply Masks.keep
      · intro hcovered
        have hrest : masked (i + 1) rest i := (h i (le_refl i) (by omega)).mpr hcovered
        have := le_of_masked hrest
        omega
      · exact ih fun p hle hlt => h p (by omega) (by omega)
    | block first others =>
      have hlength : (source (Piece.block first others :: rest)).length = others.length + 1 + (source rest).length := by
        show ((first :: others) ++ source rest).length = _
        rw [List.length_append, List.length_cons]
      apply Masks.mask (List.cons_ne_nil first others)
      · intro p hle hlt
        rw [List.length_cons] at hlt
        exact (h p hle (by omega)).mp (Or.inl ⟨hle, hlt⟩)
      · rw [List.length_cons]
        apply ih
        intro p hle hlt
        rw [← h p (by omega) (by omega)]
        exact (or_iff_right fun h => by omega).symm

theorem Masks.not_covered {covered : Nat → Prop} {i : Nat} {text : List Char} {result : List (Char × Option Nat)}
    (h : Masks covered i text result) {c : Char} {p : Nat} (hmem : (c, some p) ∈ result) : ¬ covered p := by
  induction h with
  | done => cases hmem
  | keep hfree _ ih =>
    rcases List.mem_cons.mp hmem with heq | hmem
    · obtain rfl := Option.some.inj (Prod.mk.inj heq).2
      exact hfree
    · exact ih hmem
  | mask _ _ _ ih =>
    rcases List.mem_append.mp hmem with hmem | hmem
    · cases traced_mark_none _ hmem
    · exact ih hmem

theorem mem_render_traced {mark : List (Char × Option Nat)} (hmark : ∀ a ∈ mark, a.2 = none) {i : Nat}
    {c : Char} {p : Nat} (h : (c, some p) ∈ render (fun i c => (c, some i)) mark i parts) : i ≤ p ∧ ¬ masked i parts p := by
  induction parts generalizing i with
  | nil => cases h
  | cons piece rest ih =>
    cases piece with
    | kept c' =>
      rcases List.mem_cons.mp h with heq | h
      · obtain rfl := Option.some.inj (Prod.mk.inj heq).2
        refine ⟨le_refl p, fun hmasked => ?_⟩
        have hrest : masked (p + 1) rest p := hmasked
        have := le_of_masked hrest
        omega
      · obtain ⟨hle, hfree⟩ := ih h
        exact ⟨by omega, hfree⟩
    | block first others =>
      rcases List.mem_append.mp h with h | h
      · cases hmark _ h
      · obtain ⟨hle, hfree⟩ := ih h
        refine ⟨by omega, ?_⟩
        rintro (hmasked | hmasked)
        · omega
        · exact hfree hmasked

theorem exists_mem_render {mark : List (Char × Option Nat)} {i p : Nat} (hle : i ≤ p)
    (hlt : p < i + (source parts).length) (hfree : ¬ masked i parts p) :
    ∃ c, (c, some p) ∈ render (fun i c => (c, some i)) mark i parts := by
  induction parts generalizing i with
  | nil =>
    have : (source ([] : List (Piece Char))).length = 0 := rfl
    omega
  | cons piece rest ih =>
    cases piece with
    | kept c =>
      have hlength : (source (Piece.kept c :: rest)).length = (source rest).length + 1 := rfl
      rcases Nat.lt_or_eq_of_le hle with hlater | rfl
      · obtain ⟨c', hc'⟩ := ih (i := i + 1) hlater (by omega) hfree
        exact ⟨c', List.mem_cons_of_mem _ hc'⟩
      · exact ⟨c, List.mem_cons_self⟩
    | block first others =>
      have hlength : (source (Piece.block first others :: rest)).length = others.length + 1 + (source rest).length := by
        show ((first :: others) ++ source rest).length = _
        rw [List.length_append, List.length_cons]
      obtain ⟨hout, hrest⟩ := not_or.mp hfree
      obtain ⟨c, hc⟩ := ih (i := i + (others.length + 1)) (by omega) (by omega) hrest
      exact ⟨c, List.mem_append_right _ hc⟩

section Settling

variable {secrets : List (List Char)} {text : List Char}

theorem masks_iff {order : List (List Char)} (h : Unlike secrets) (hperm : order.Perm secrets) :
    Masks (Covered secrets text) 0 text (maskSecrets traced order (trace text)) ↔
      ∀ p, Covered secrets text p → maskedBy text (fun _ => False) order p := by
  obtain ⟨hsource, hmasked, -⟩ := pieces_places order text
  rw [maskSecrets_traced (h.of_perm hperm) text]
  constructor
  · intro hmasks p hcovered
    by_contra hfree
    have hlt : p < 0 + (source (pieces order text)).length := by
      rw [hsource, Nat.zero_add]
      exact hcovered.lt
    obtain ⟨c, hc⟩ : ∃ c, (c, some p) ∈ render (fun i c => (c, some i)) traced.mark 0 (pieces order text) :=
      exists_mem_render (Nat.zero_le p) hlt ((hmasked p).not.mpr hfree)
    exact hmasks.not_covered hc hcovered
  · intro hall
    have hbelow : ∀ p, maskedBy text (fun _ => False) order p → Covered secrets text p := fun p hp =>
      covered_of_maskedBy (fun _ hfalse => hfalse.elim) (fun secret hmem => hperm.mem_iff.mp hmem) hp
    have hcovered : ∀ p, masked 0 (pieces order text) p ↔ Covered secrets text p := fun p => (hmasked p).trans ⟨hbelow p, hall p⟩
    have hmasks := masks_of_pieces (i := 0) fun p _ _ => hcovered p
    rwa [hsource] at hmasks

theorem traced_eq_iff {order other : List (List Char)} (h : Unlike order) (h' : Unlike other) :
    maskSecrets traced order (trace text) = maskSecrets traced other (trace text) ↔
      marks 0 (pieces order text) = marks 0 (pieces other text) := by
  rw [maskSecrets_traced h, maskSecrets_traced h']
  constructor
  · intro heq
    have hmark : traced.mark.map Prod.snd = List.replicate (9 + 1) none := rfl
    have hrender (parts : List (Piece Char)) : (render (fun i c => (c, some i)) traced.mark 0 parts).map Prod.snd =
        (marks 0 parts).flatMap (spread 9) := by
      apply map_render _ hmark
      intro i c
      rfl
    have hmap := congrArg (List.map Prod.snd) heq
    rw [hrender, hrender] at hmap
    exact spread_injective hmap
  · intro heq
    rw [render_eq_shown (i := 0) (pieces_places order text).1, render_eq_shown (i := 0) (pieces_places other text).1, heq]

theorem not_maskedBy_of_mem {order : List (List Char)} (h : Unlike order) {c : Char} {p : Nat}
    (hmem : (c, some p) ∈ redactDiagnostic traced order (trace text)) : ¬ maskedBy text (fun _ => False) order p := by
  rcases mem_redactDiagnostic hmem with hmem | hmem | hmem
  · rw [maskSecrets_traced h] at hmem
    rw [← (pieces_places order text).2.1]
    exact (mem_render_traced traced_mark_none hmem).2
  · cases traced_mark_none _ hmem
  · cases hmem

theorem maskSecrets_append_empty {A : Type} (l : Letters A) (order : List (List Char)) {empty : List (List Char)}
    (h : ∀ secret ∈ empty, secret.isEmpty = true) (text : List A) : maskSecrets l (order ++ empty) text = maskSecrets l order text := by
  unfold maskSecrets replaceEach
  rw [List.foldl_append]
  induction empty generalizing text with
  | nil => rfl
  | cons secret rest ih =>
    obtain ⟨hsecret, hrest⟩ := List.forall_mem_cons.mp h
    rw [List.foldl_cons, if_pos hsecret]
    exact ih hrest text

/-- Whatever the order, every covered character is turned into mask and no order differs from
another exactly if the secrets can be told apart in the text. -/
theorem masked_iff_separable (secrets : List (List Char)) (text : List Char) (h : Unlike secrets) :
    Masked secrets text ↔ Separable secrets text := by
  have hstarts : ∀ order, starts 0 (pieces order text) = takenBy text (fun _ => False) order := fun order =>
    funext fun p => propext ((pieces_places order text).2.2 p)
  have hcovered : ∀ order, order.Perm secrets → (∀ p, Covered secrets text p → maskedBy text (fun _ => False) order p) →
      ∀ p, masked 0 (pieces order text) p ↔ Covered secrets text p := fun order hperm hall p =>
    ((pieces_places order text).2.1 p).trans
      ⟨covered_of_maskedBy (fun _ hfalse => hfalse.elim) (fun secret hmem => hperm.mem_iff.mp hmem), hall p⟩
  have hmarks : ∀ order, order.Perm secrets → (∀ p, Covered secrets text p → maskedBy text (fun _ => False) order p) →
      (∀ p, Covered secrets text p → maskedBy text (fun _ => False) secrets p) →
      (maskSecrets traced order (trace text) = maskSecrets traced secrets (trace text) ↔
        ∀ p, p ≤ text.length → ¬ Covered secrets text p →
          @Nat.count (takenBy text (fun _ => False) order) (Classical.decPred _) p =
            @Nat.count (takenBy text (fun _ => False) secrets) (Classical.decPred _) p) := by
    intro order hperm hall hall'
    have hsource := (pieces_places order text).1
    have hiff := marks_eq_iff (hsource.trans (pieces_places secrets text).1.symm) fun p =>
      (hcovered order hperm hall p).trans (hcovered secrets (List.Perm.refl secrets) hall' p).symm
    rw [hsource, hstarts, hstarts] at hiff
    rw [traced_eq_iff (h.of_perm hperm) h, hiff]
    apply forall_congr'
    intro p
    rw [hcovered order hperm hall p]
  constructor
  · intro hmasked order hperm
    have hall := (masks_iff h hperm).mp (hmasked.complete order hperm)
    have hall' := (masks_iff h (List.Perm.refl secrets)).mp (hmasked.complete secrets (List.Perm.refl secrets))
    exact ⟨hall, (hmarks order hperm hall hall').mp (hmasked.same order hperm)⟩
  · intro hseparable
    have hall' := (hseparable secrets (List.Perm.refl secrets)).1
    have hsame : ∀ order, order.Perm secrets → maskSecrets traced order (trace text) = maskSecrets traced secrets (trace text) :=
      fun order hperm => (hmarks order hperm (hseparable order hperm).1 hall').mpr (hseparable order hperm).2
    constructor
    · exact fun order hperm => (masks_iff h hperm).mpr (hseparable order hperm).1
    · exact hsame
    · intro order hperm
      rw [← maskSecrets_plain, ← maskSecrets_plain, hsame order hperm]
    · intro order hperm c p hmem hp
      exact not_maskedBy_of_mem (h.of_perm hperm) hmem ((hseparable order hperm).1 p hp)
    · intro environment hvalues c p hmem hp
      have hempty : ∀ secret ∈ secrets.filter (fun secret => !!secret.isEmpty), secret.isEmpty = true := by
        intro secret hsecret
        simpa using (List.mem_filter.mp hsecret).2
      have hperm : (secretEnvValues environment ++ secrets.filter fun secret => !!secret.isEmpty).Perm secrets :=
        (hvalues.append_right _).trans (List.filter_append_perm _ secrets)
      have hmem' := mem_boundedTail hmem
      unfold redactDiagnostic at hmem'
      rw [← maskSecrets_append_empty traced _ hempty] at hmem'
      exact not_maskedBy_of_mem (h.of_perm hperm) hmem' ((hseparable _ hperm).1 p hp)

end Settling

section Parting

variable {secrets done order : List (List Char)} {text : List Char}

/-- No two of the places where secrets stand overlap. -/
def Parted (secrets : List (List Char)) (text : List Char) : Prop :=
  ∀ secret ∈ secrets, ∀ other ∈ secrets, ∀ i j, secret <+: text.drop i → other <+: text.drop j → i ≤ j → other ≠ [] →
    (i = j ∧ secret = other) ∨ i + secret.length ≤ j

theorem Parted.taken_iff (h : Parted secrets text) (hdone : ∀ other ∈ done, other ∈ secrets) {secret : List Char}
    (hmem : secret ∈ secrets) (hne : secret ≠ []) (i : Nat) :
    Taken text (Covered done text) secret i ↔ secret <+: text.drop i ∧ secret ∉ done := by
  constructor
  · intro htaken
    refine ⟨htaken.free.1, fun hagain => ?_⟩
    have hlength := List.length_pos_iff.mpr hne
    exact htaken.free.2 i (le_refl i) (by omega) ⟨secret, hagain, i, htaken.free.1, le_refl i, by omega⟩
  · rintro ⟨hbegins, hnot⟩
    rw [Taken]
    refine ⟨⟨hbegins, ?_⟩, fun j hj htaken => ?_⟩
    · rintro p hle hlt ⟨other, hother, j, hbegins', hle', hlt'⟩
      have hother' : other ≠ [] := by
        rintro rfl
        exact absurd hlt' (not_lt.mpr hle')
      rcases Nat.le_total i j with hij | hji
      · rcases h secret hmem other (hdone other hother) i j hbegins hbegins' hij hother' with ⟨-, rfl⟩ | hend
        · exact hnot hother
        · omega
      · rcases h other (hdone other hother) secret hmem j i hbegins' hbegins hji hne with ⟨-, rfl⟩ | hend
        · exact hnot hother
        · omega
    · rcases h secret hmem secret hmem j i htaken.free.1 hbegins hj.le hne with ⟨rfl, -⟩ | hend
      · exact absurd hj (lt_irrefl j)
      · exact hend

theorem Parted.places (h : Parted secrets text) (hdone : ∀ other ∈ done, other ∈ secrets) (horder : ∀ secret ∈ order, secret ∈ secrets) :
    (∀ p, Covered (done ++ order) text p → maskedBy text (Covered done text) order p) ∧
      ∀ i, takenBy text (Covered done text) order i ↔ ∃ secret ∈ order, secret ≠ [] ∧ secret <+: text.drop i ∧ secret ∉ done := by
  induction order generalizing done with
  | nil => exact ⟨fun p hp => by rwa [List.append_nil] at hp, fun i => by simp [takenBy]⟩
  | cons secret rest ih =>
    obtain ⟨hmem, hrest⟩ := List.forall_mem_cons.mp horder
    have hnext : (fun p => Covered done text p ∨ ∃ i, Taken text (Covered done text) secret i ∧ i ≤ p ∧ p < i + secret.length) =
        Covered (done ++ [secret]) text := by
      funext p
      apply propext
      constructor
      · rintro (⟨other, hother, hcovers⟩ | ⟨i, htaken, hcovers⟩)
        · exact ⟨other, List.mem_append_left _ hother, hcovers⟩
        · exact ⟨secret, List.mem_append_right _ (List.mem_singleton_self secret), i, htaken.free.1, hcovers⟩
      · rintro ⟨other, hother, i, hbegins, hle, hlt⟩
        by_cases hagain : other ∈ done
        · exact Or.inl ⟨other, hagain, i, hbegins, hle, hlt⟩
        · obtain rfl := List.mem_singleton.mp ((List.mem_append.mp hother).resolve_left hagain)
          have hne : other ≠ [] := by
            rintro rfl
            exact absurd hlt (not_lt.mpr hle)
          exact Or.inr ⟨i, (h.taken_iff hdone hmem hne i).mpr ⟨hbegins, hagain⟩, hle, hlt⟩
    have hdone' : ∀ other ∈ done ++ [secret], other ∈ secrets := fun other hother =>
      (List.mem_append.mp hother).elim (hdone other) fun hother => List.mem_singleton.mp hother ▸ hmem
    obtain ⟨hmasked, htaken⟩ := ih hdone' hrest
    rw [maskedBy, takenBy, hnext]
    refine ⟨fun p hp => hmasked p (List.append_cons done secret rest ▸ hp), fun i => ?_⟩
    dsimp only
    rw [htaken]
    constructor
    · rintro (⟨hne, hfirst⟩ | ⟨other, hother, hne, hbegins, hnot⟩)
      · exact ⟨secret, List.mem_cons_self, hne, (h.taken_iff hdone hmem hne i).mp hfirst⟩
      · exact ⟨other, List.mem_cons_of_mem _ hother, hne, hbegins, fun hagain => hnot (List.mem_append_left _ hagain)⟩
    · rintro ⟨other, hother, hne, hbegins, hnot⟩
      by_cases hsame : other = secret
      · subst hsame
        exact Or.inl ⟨hne, (h.taken_iff hdone hmem hne i).mpr ⟨hbegins, hnot⟩⟩
      · exact Or.inr ⟨other, (List.mem_cons.mp hother).resolve_left hsame, hne, hbegins, by simp [hnot, hsame]⟩

theorem Parted.separable (h : Parted secrets text) : Separable secrets text := by
  intro order hperm
  have hnone : (fun _ => False) = Covered [] text := funext fun p => by simp [Covered]
  obtain ⟨hmasked, htaken⟩ := @Parted.places secrets [] order text h nofun fun secret hmem => hperm.mem_iff.mp hmem
  obtain ⟨-, htaken'⟩ := @Parted.places secrets [] secrets text h nofun fun secret hmem => hmem
  have hsame : takenBy text (Covered [] text) order = takenBy text (Covered [] text) secrets := by
    funext i
    simp only [htaken, htaken', hperm.mem_iff]
  rw [hnone]
  refine ⟨fun p ⟨secret, hmem, hcovers⟩ => hmasked p ⟨secret, hperm.mem_iff.mpr hmem, hcovers⟩, fun p _ _ => ?_⟩
  congr 1

end Parting

/-- Secrets that touch and share their first characters, but of which no two overlap. -/
theorem touching_secrets_masked : Unlike ["ws".toList, "vu".toList, "wx".toList] ∧
    Masked ["ws".toList, "vu".toList, "wx".toList] "zwsvuwx".toList := by
  have hunlike : Unlike ["ws".toList, "vu".toList, "wx".toList] := Unlike.of_all (by decide)
  have hplaces : ∀ i < 7, ∀ secret ∈ ["ws".toList, "vu".toList, "wx".toList], secret <+: "zwsvuwx".toList.drop i →
      i = 1 ∧ secret = "ws".toList ∨ i = 3 ∧ secret = "vu".toList ∨ i = 5 ∧ secret = "wx".toList := by decide
  have hlengths : ∀ secret ∈ ["ws".toList, "vu".toList, "wx".toList], secret ≠ [] ∧ secret.length = 2 := by decide
  have hstands : ∀ secret ∈ ["ws".toList, "vu".toList, "wx".toList], ∀ i, secret <+: "zwsvuwx".toList.drop i →
      i = 1 ∧ secret = "ws".toList ∨ i = 3 ∧ secret = "vu".toList ∨ i = 5 ∧ secret = "wx".toList := by
    intro secret hmem i hbegins
    apply hplaces i _ secret hmem hbegins
    by_contra hlong
    rw [List.drop_eq_nil_of_le (not_lt.mp hlong)] at hbegins
    exact (hlengths secret hmem).1 (List.prefix_nil.mp hbegins)
  refine ⟨hunlike, (masked_iff_separable _ _ hunlike).mpr (Parted.separable ?_)⟩
  intro secret hmem other hmem' i j hbegins hbegins' hle _
  rw [(hlengths secret hmem).2]
  rcases hstands secret hmem i hbegins with ⟨rfl, rfl⟩ | ⟨rfl, rfl⟩ | ⟨rfl, rfl⟩ <;>
    rcases hstands other hmem' j hbegins' with ⟨rfl, rfl⟩ | ⟨rfl, rfl⟩ | ⟨rfl, rfl⟩ <;> first | exact Or.inl ⟨rfl, rfl⟩ | omega

/-- The shorter secret comes first, and the last character of the longer one is left. -/
theorem prefix_secret_leaves_fragment : ¬ ∀ (secrets : List (List Char)) (text : List Char), Unlike secrets → Masked secrets text := by
  intro hall
  have hunlike : Unlike ["xy".toList, "xyz".toList] := Unlike.of_all (by decide)
  have hmasks := (hall _ "xyz".toList hunlike).complete _ (List.Perm.refl _)
  have hleft : ('z', some 2) ∈ maskSecrets traced ["xy".toList, "xyz".toList] (trace "xyz".toList) := by decide
  exact hmasks.not_covered hleft ⟨"xyz".toList, by simp, 0, List.prefix_refl _, by decide, by decide⟩

end Orchestrator.Diagnostics
