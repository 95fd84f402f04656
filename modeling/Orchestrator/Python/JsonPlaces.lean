import Mathlib.Data.List.TakeWhile
import Orchestrator.Python.Json

/-!
In and out of the strings of a document. What stands in a string of one document
and is a document itself has only strings of the code points that stand outside
strings there.
-/

namespace Orchestrator.Json

inductive Place where
  | outside
  | inside
  | escaped

def isStructural (c : Nat) : Bool := (text "{}[],: \t\n\r0123456789+-.eEnulltruefalseNaNInfinity").contains c

def Place.next : Place → Nat → Option Place
  | .outside, c => if c = 0x22 then some .inside else if isStructural c then some .outside else none
  | .inside, c => if c = 0x22 then some .outside else if c = 0x5c then some .escaped else some .inside
  | .escaped, _ => some .inside

def walk : Place → Text → Option Place
  | place, [] => some place
  | place, c :: rest => (place.next c).bind fun next => walk next rest

theorem walk_append (place : Place) (first second : Text) :
    walk place (first ++ second) = (walk place first).bind fun next => walk next second := by
  induction first generalizing place with
  | nil => rfl
  | cons c rest ih =>
    simp only [List.cons_append, walk]
    cases place.next c with
    | none => rfl
    | some next => exact ih next

theorem hexValue_plain {c v : Nat} (h : hexValue c = some v) : c ≠ 0x22 ∧ c ≠ 0x5c := by
  constructor
  all_goals
    rintro rfl
    revert h
    decide +revert

@[simp] theorem outside_next (c : Nat) :
    Place.outside.next c = if c = 0x22 then some .inside else if isStructural c then some .outside else none := rfl

@[simp] theorem inside_next (c : Nat) :
    Place.inside.next c = if c = 0x22 then some .outside else if c = 0x5c then some .escaped else some .inside := rfl

@[simp] theorem escaped_next (c : Nat) : Place.escaped.next c = some .inside := rfl

variable {c : Nat}

theorem inside_plain (h : c ≠ 0x22 ∧ c ≠ 0x5c) : Place.inside.next c = some .inside := by
  rw [inside_next, if_neg h.1, if_neg h.2]

theorem hexUnit_plain {a b c d u : Nat} (h : hexUnit a b c d = some u) (rest : Text) :
    walk .inside (0x5c :: 0x75 :: a :: b :: c :: d :: rest) = walk .inside rest := by
  unfold hexUnit at h
  simp only [Option.bind_eq_bind, Option.bind_eq_some_iff] at h
  obtain ⟨va, ha, vb, hb, vc, hc, vd, hd, -⟩ := h
  have hback : Place.inside.next 0x5c = some .escaped := rfl
  simp only [walk, hback, Option.bind_some, escaped_next, inside_plain (hexValue_plain ha),
    inside_plain (hexValue_plain hb), inside_plain (hexValue_plain hc), inside_plain (hexValue_plain hd)]

theorem prepend_eq_some {c consumed n : Nat} {s : Text} {scanned : Option (Text × Nat)}
    (h : prepend c consumed scanned = some (s, n)) :
    ∃ s' n', scanned = some (s', n') ∧ s = c :: s' ∧ n = n' + consumed := by
  unfold prepend at h
  obtain ⟨found, hfound, heq⟩ := Option.map_eq_some_iff.mp h
  cases heq
  exact ⟨found.1, found.2, hfound, rfl, rfl⟩

variable {rest : Text}

theorem lowHalf_escape {a b c d e f low : Nat} (h : lowHalf (a :: b :: c :: d :: e :: f :: rest) = some low) :
    a = 0x5c ∧ b = 0x75 ∧ (hexUnit c d e f).isSome = true := by
  unfold lowHalf at h
  split at h
  · rename_i heq
    simp only [List.cons.injEq] at heq
    obtain ⟨rfl, rfl, rfl, rfl, rfl, rfl, rfl⟩ := heq
    refine ⟨rfl, rfl, ?_⟩
    cases hu : hexUnit c d e f with
    | none => rw [hu] at h; cases h
    | some u => rfl
  · cases h

theorem scanString_walk {document s : Text} {n : Nat} (h : scanString document = some (s, n)) :
    walk .inside (document.take n) = some .outside := by
  fun_induction scanString document generalizing s n with
  | case1 => cases h
  | case2 tail =>
    cases h
    rfl
  | case3 a b c d rest hunit => cases h
  | case4 a b c d u hunit low x y e f g k after hhigh hlow ih =>
    simp only [hhigh, hlow] at h
    obtain ⟨s', n', hscan, -, rfl⟩ := prepend_eq_some h
    obtain ⟨rfl, rfl, hsome⟩ := lowHalf_escape hlow
    obtain ⟨v, hv⟩ := Option.isSome_iff_exists.mp hsome
    change walk .inside (0x5c :: 0x75 :: a :: b :: c :: d :: 0x5c :: 0x75 :: e :: f :: g :: k :: after.take n') = _
    rw [hexUnit_plain hunit, hexUnit_plain hv]
    exact ih hscan
  | case5 a b c d u hunit rest hunpaired ih =>
    have hsingle : prepend u 6 (scanString rest) = some (s, n) := by
      split at h
      · rename_i hhigh hlow
        exact (hunpaired _ _ _ _ _ _ _ _ hhigh hlow rfl).elim
      · exact h
    obtain ⟨s', n', hscan, -, rfl⟩ := prepend_eq_some hsingle
    change walk .inside (0x5c :: 0x75 :: a :: b :: c :: d :: rest.take n') = _
    rw [hexUnit_plain hunit]
    exact ih hscan
  | case6 c rest _ hescape => cases h
  | case7 c rest _ u hescape ih =>
    obtain ⟨s', n', hscan, -, rfl⟩ := prepend_eq_some h
    exact ih hscan
  | case8 c rest _ _ _ hbad => cases h
  | case9 c rest hquote _ _ hplain ih =>
    obtain ⟨s', n', hscan, -, rfl⟩ := prepend_eq_some h
    have hback : c ≠ 0x5c := by
      rintro rfl
      exact hplain (by simp)
    change (Place.inside.next c).bind (fun next => walk next (rest.take n')) = _
    rw [inside_plain ⟨hquote, hback⟩]
    exact ih hscan

theorem scanString_structural {document s : Text} {n : Nat} {place : Place} (h : scanString document = some (s, n))
    (hwalk : walk .outside (document.take n) = some place) : place = .inside ∧ ∀ c ∈ s, isStructural c = true := by
  fun_induction scanString document generalizing s n with
  | case1 => cases h
  | case2 tail =>
    cases h
    cases hwalk
    exact ⟨rfl, by simp⟩
  | case3 a b c d rest hunit => cases h
  | case4 a b c d u hunit low x y e f g k after hhigh hlow ih =>
    simp only [hhigh, hlow] at h
    obtain ⟨s', n', hscan, -, rfl⟩ := prepend_eq_some h
    cases hwalk
  | case5 a b c d u hunit rest hunpaired ih =>
    have hsingle : prepend u 6 (scanString rest) = some (s, n) := by
      split at h
      · rename_i hhigh hlow
        exact (hunpaired _ _ _ _ _ _ _ _ hhigh hlow rfl).elim
      · exact h
    obtain ⟨s', n', hscan, -, rfl⟩ := prepend_eq_some hsingle
    cases hwalk
  | case6 c rest _ hescape => cases h
  | case7 c rest _ u hescape ih =>
    obtain ⟨s', n', hscan, -, rfl⟩ := prepend_eq_some h
    cases hwalk
  | case8 c rest _ _ _ hbad => cases h
  | case9 c rest hquote _ _ hplain ih =>
    obtain ⟨s', n', hscan, rfl, rfl⟩ := prepend_eq_some h
    change (Place.outside.next c).bind (fun next => walk next (rest.take n')) = _ at hwalk
    cases hs : isStructural c with
    | false =>
      rw [outside_next, if_neg hquote, hs] at hwalk
      cases hwalk
    | true =>
      rw [outside_next, if_neg hquote, hs] at hwalk
      obtain ⟨hplace, hall⟩ := ih hscan hwalk
      exact ⟨hplace, fun x hx => (List.mem_cons.mp hx).elim (fun h => h ▸ hs) (hall x)⟩

theorem isStructural_of_isDigit (h : isDigit c = true) : isStructural c = true := by
  have hdigits : ∀ c ∈ List.range 0x3a, isDigit c = true → isStructural c = true := by decide
  unfold isDigit at h
  have hlt : c < 0x3a := by simp at h; omega
  exact hdigits c (List.mem_range.mpr hlt) (by unfold isDigit; exact h)

theorem take_takeWhile_structural (text : Text) :
    ∀ c ∈ text.take (text.takeWhile isDigit).length, isStructural c = true := by
  rw [← List.prefix_iff_eq_take.mp (List.takeWhile_prefix isDigit)]
  exact fun c hc => isStructural_of_isDigit (List.mem_takeWhile_imp hc)

theorem mem_take_add {k m c : Nat} {text : Text} (h : c ∈ text.take (k + m)) : c ∈ text.take k ∨ c ∈ (text.drop k).take m := by
  rw [List.take_add, List.mem_append] at h
  exact h

theorem fraction_structural (text : Text) : ∀ c ∈ text.take (fractionLength text), isStructural c = true := by
  unfold fractionLength
  split
  · rename_i rest
    split
    · simp
    · intro c hc
      rcases mem_take_add hc with hpoint | hdigits
      · rw [List.mem_singleton.mp hpoint]
        rfl
      · exact take_takeWhile_structural rest c hdigits
  · simp

theorem sign_structural (text : Text) : ∀ c ∈ text.take (signLength text), isStructural c = true := by
  cases text with
  | nil => simp
  | cons sign rest =>
    simp only [signLength]
    split
    · rename_i h
      intro c hc
      rw [List.mem_singleton.mp hc]
      rcases h with rfl | rfl <;> rfl
    · simp

theorem exponent_structural (text : Text) : ∀ c ∈ text.take (exponentLength text), isStructural c = true := by
  cases text with
  | nil => simp
  | cons e rest =>
    intro c hc
    simp only [exponentLength] at hc
    split at hc
    · rename_i he
      split at hc
      · simp at hc
      · rcases mem_take_add hc with hfirst | hlater
        · rw [List.mem_singleton.mp hfirst]
          rcases he with rfl | rfl <;> rfl
        · rcases mem_take_add hlater with hsign | hdigits
          · exact sign_structural rest c hsign
          · exact take_takeWhile_structural _ c hdigits
    · simp at hc

theorem minus_structural (text : Text) : ∀ c ∈ text.take (minusLength text), isStructural c = true := by
  unfold minusLength
  cases text with
  | nil => simp
  | cons first rest =>
    split
    · rename_i h
      intro c hc
      rw [List.mem_singleton.mp hc, Option.some.inj h]
      rfl
    · simp

theorem integer_structural (text : Text) : ∀ c ∈ text.take (integerDigits text).length, isStructural c = true := by
  unfold integerDigits
  split
  · rename_i h
    cases text with
    | nil => simp
    | cons first rest =>
      intro c hc
      rw [List.mem_singleton.mp hc, Option.some.inj h]
      rfl
  · exact take_takeWhile_structural text

variable {limits : Limits}

variable {document : Text}

theorem scanNumber_structural (h : (scanNumber limits document).1 ≠ .bad) :
    0 < (scanNumber limits document).2 ∧ ∀ c ∈ document.take (scanNumber limits document).2, isStructural c = true := by
  have hall : ∀ c ∈ document.take (minusLength document + (integerDigits (document.drop (minusLength document))).length +
      fractionLength (document.drop (minusLength document + (integerDigits (document.drop (minusLength document))).length)) +
      exponentLength (document.drop (minusLength document + (integerDigits (document.drop (minusLength document))).length +
        fractionLength (document.drop (minusLength document +
          (integerDigits (document.drop (minusLength document))).length))))), isStructural c = true := by
    intro c hc
    rcases mem_take_add hc with hc | hexponent
    · rcases mem_take_add hc with hc | hfraction
      · rcases mem_take_add hc with hminus | hinteger
        · exact minus_structural document c hminus
        · exact integer_structural _ c hinteger
      · exact fraction_structural _ c hfraction
    · exact exponent_structural _ c hexponent
  unfold scanNumber at h ⊢
  simp only at h ⊢
  cases hempty : (integerDigits (document.drop (minusLength document))).isEmpty with
  | true => simp [hempty] at h
  | false =>
    have hpos : 0 < (integerDigits (document.drop (minusLength document))).length := by
      rw [List.length_pos_iff]
      rintro hnil
      simp [hnil] at hempty
    simp only [Bool.false_eq_true, if_false]
    split
    · exact ⟨by simp only; omega, hall⟩
    · split
      · exact ⟨by simp only; omega, hall⟩
      · exact ⟨by simp only; omega, hall⟩

theorem isStructural_plain (h : isStructural c = true) : c ≠ 0x22 ∧ c ≠ 0x5c := by
  constructor
  all_goals
    rintro rfl
    cases h

theorem walk_outside_structural (h : ∀ c ∈ document, isStructural c = true) :
    walk .outside document = some .outside := by
  induction document with
  | nil => rfl
  | cons c rest ih =>
    have hc := h c List.mem_cons_self
    have hnext : Place.outside.next c = some .outside := by rw [outside_next, if_neg (isStructural_plain hc).1, if_pos hc]
    simp only [walk, hnext, Option.bind_some]
    exact ih fun x hx => h x (List.mem_cons_of_mem _ hx)

def Plain (document : Text) : Prop := ∀ c ∈ document, c ≠ 0x22 ∧ c ≠ 0x5c

theorem walk_inside_plain (h : Plain document) : walk .inside document = some .inside := by
  induction document with
  | nil => rfl
  | cons c rest ih =>
    simp only [walk, inside_plain (h c List.mem_cons_self), Option.bind_some]
    exact ih fun x hx => h x (List.mem_cons_of_mem _ hx)

theorem walk_inside_structural (h : ∀ c ∈ document, isStructural c = true) :
    walk .inside document = some .inside := by
  apply walk_inside_plain
  intro c hc
  exact isStructural_plain (h c hc)

theorem isStructural_of_isWhitespace (h : isWhitespace c = true) : isStructural c = true := by
  unfold isWhitespace at h
  simp only [Bool.or_eq_true, beq_iff_eq] at h
  rcases h with ((rfl | rfl) | rfl) | rfl <;> rfl

theorem punctuation_structural : ∀ mark ∈ punctuation, isStructural mark.1 = true := by decide

theorem words_structural : ∀ word ∈ words, 0 < word.1.length ∧ ∀ c ∈ word.1, isStructural c = true := by
  simp only [words, List.forall_mem_cons]
  decide

theorem scan_structural (hquote : c ≠ 0x22)
    (h : (scan limits c rest).1 ≠ .bad) : ∀ x ∈ c :: rest.take (scan limits c rest).2, isStructural x = true := by
  unfold scan at h ⊢
  rw [if_neg hquote] at h ⊢
  cases hp : punctuation.find? fun mark => mark.1 = c with
  | some mark =>
    have hmark : decide (mark.1 = c) = true := by simpa using List.find?_some hp
    intro x hx
    rw [List.mem_singleton.mp hx, ← of_decide_eq_true hmark]
    exact punctuation_structural mark (List.mem_of_find?_eq_some hp)
  | none =>
    rw [hp] at h
    cases hw : words.find? fun word => word.1.isPrefixOf (c :: rest) with
    | some word =>
      obtain ⟨hpos, hall⟩ := words_structural word (List.mem_of_find?_eq_some hw)
      have hfound : word.1.isPrefixOf (c :: rest) = true := by simpa using List.find?_some hw
      have hbegins : word.1 <+: c :: rest := List.isPrefixOf_iff_prefix.mp hfound
      have hword : c :: rest.take (word.1.length - 1) = word.1 := by
        rw [← List.take_succ_cons, Nat.sub_add_cancel hpos]
        exact (List.prefix_iff_eq_take.mp hbegins).symm
      intro x hx
      exact hall x (hword ▸ hx)
    | none =>
      simp only [hw] at h
      obtain ⟨hpos, hall⟩ := scanNumber_structural h
      have htake : c :: rest.take ((scanNumber limits (c :: rest)).2 - 1) =
          (c :: rest).take (scanNumber limits (c :: rest)).2 := by
        rw [← List.take_succ_cons, Nat.sub_add_cancel hpos]
      intro x hx
      exact hall x (htake ▸ hx)

theorem scanNumber_no_text (limits : Limits) (document s : Text) : (scanNumber limits document).1 ≠ .text s := by
  unfold scanNumber
  simp only
  split
  · simp
  · split
    · simp
    · split <;> simp

theorem scan_no_text (hquote : c ≠ 0x22) (s : Text) :
    (scan limits c rest).1 ≠ .text s := by
  unfold scan
  rw [if_neg hquote]
  cases hp : punctuation.find? fun mark => mark.1 = c with
  | some mark =>
    have hmarks : ∀ mark ∈ punctuation, mark.2 ≠ .text s := by simp [punctuation]
    exact hmarks mark (List.mem_of_find?_eq_some hp)
  | none =>
    cases hw : words.find? fun word => word.1.isPrefixOf (c :: rest) with
    | some word =>
      have hwords : ∀ word ∈ words, word.2 ≠ .text s := by simp [words]
      exact hwords word (List.mem_of_find?_eq_some hw)
    | none => exact scanNumber_no_text limits _ s

theorem scan_text (h : (scan limits 0x22 rest).1 ≠ .bad) :
    ∃ s n, scanString rest = some (s, n) ∧ scan limits 0x22 rest = (.text s, n) := by
  unfold scan at h ⊢
  rw [if_pos rfl] at h ⊢
  cases hs : scanString rest with
  | none => simp [hs] at h
  | some found => exact ⟨found.1, found.2, rfl, rfl⟩

theorem walk_of_tokens (skip : Nat)
    (h : ∀ token ∈ tokensFrom limits skip document, token ≠ .bad) :
    walk .outside (document.drop skip) = some .outside := by
  induction document generalizing skip with
  | nil => rw [List.drop_nil]; rfl
  | cons c rest ih =>
    cases skip with
    | succ skip => exact ih skip h
    | zero =>
      rw [List.drop_zero]
      by_cases hspace : isWhitespace c = true
      · have hs := isStructural_of_isWhitespace hspace
        simp only [tokensFrom, hspace, if_true] at h
        have hrest := ih 0 h
        simp only [walk, outside_next, if_neg (isStructural_plain hs).1, if_pos hs, Option.bind_some]
        exact hrest
      · simp only [tokensFrom, hspace, Bool.false_eq_true, if_false, List.forall_mem_cons] at h
        obtain ⟨hgood, hlater⟩ := h
        have hrest := ih _ hlater
        by_cases hquote : c = 0x22
        · subst hquote
          obtain ⟨s, n, hscan, heq⟩ := scan_text hgood
          rw [heq] at hrest
          have hsplit : walk .outside (0x22 :: rest) = walk .inside (rest.take n ++ rest.drop n) := by
            rw [List.take_append_drop]
            rfl
          rw [hsplit, walk_append, scanString_walk hscan]
          exact hrest
        · have hsplit : c :: rest = (c :: rest.take (scan limits c rest).2) ++ rest.drop (scan limits c rest).2 := by
            rw [List.cons_append, List.take_append_drop]
          rw [hsplit, walk_append, walk_outside_structural (scan_structural hquote hgood)]
          exact hrest

theorem text_structural_of_inside {place : Place} (skip : Nat)
    (h : ∀ token ∈ tokensFrom limits skip document, token ≠ .bad)
    (hinside : walk .inside (document.drop skip) = some place) :
    ∀ s, .text s ∈ tokensFrom limits skip document → ∀ c ∈ s, isStructural c = true := by
  induction document generalizing skip with
  | nil => simp [tokensFrom]
  | cons c rest ih =>
    cases skip with
    | succ skip => exact ih skip h hinside
    | zero =>
      rw [List.drop_zero] at hinside
      by_cases hspace : isWhitespace c = true
      · have hs := isStructural_plain (isStructural_of_isWhitespace hspace)
        simp only [walk, inside_plain hs, Option.bind_some] at hinside
        simp only [tokensFrom, hspace, if_true] at h ⊢
        exact ih 0 h hinside
      · simp only [tokensFrom, hspace, Bool.false_eq_true, if_false, List.forall_mem_cons] at h ⊢
        obtain ⟨hgood, hlater⟩ := h
        by_cases hquote : c = 0x22
        · subst hquote
          obtain ⟨t, n, hscan, heq⟩ := scan_text hgood
          rw [heq] at hlater ⊢
          have hsplit : walk .outside (rest.take n ++ rest.drop n) = some place := by
            rw [List.take_append_drop]
            exact hinside
          rw [walk_append] at hsplit
          obtain ⟨p, hp, hafter⟩ := Option.bind_eq_some_iff.mp hsplit
          obtain ⟨rfl, hstructural⟩ := scanString_structural hscan hp
          intro s hs
          rcases List.mem_cons.mp hs with hhead | htail
          · cases hhead
            exact hstructural
          · exact ih n hlater hafter s htail
        · have hsplit : walk .inside ((c :: rest.take (scan limits c rest).2) ++ rest.drop (scan limits c rest).2) =
              some place := by
            rw [List.cons_append, List.take_append_drop]
            exact hinside
          have hplain := scan_structural hquote hgood
          rw [walk_append, walk_inside_structural hplain, Option.bind_some] at hsplit
          intro s hs
          rcases List.mem_cons.mp hs with hhead | htail
          · exact absurd hhead.symm (scan_no_text hquote s)
          · exact ih _ hlater hsplit s htail

theorem step_bad (limits : Limits) (state : Mode × List Frame) : step limits state .bad = .error .decodeError := by
  obtain ⟨mode, frames⟩ := state
  unfold step
  cases mode with
  | firstItem => rcases frames with - | ⟨items | ⟨entries, key⟩, frames⟩ <;> first | rfl | cases items <;> rfl
  | done value => rcases frames with - | ⟨items | ⟨entries, key⟩, frames⟩ <;> rfl
  | _ => rfl

variable {state : Mode × List Frame}

theorem readTokens_good {tokens : List Token} {value : Value}
    (h : readTokens limits state tokens = .ok value) : ∀ token ∈ tokens, token ≠ .bad := by
  induction tokens generalizing state with
  | nil => simp
  | cons token rest ih =>
    unfold readTokens at h
    cases hs : step limits state token with
    | error e =>
      rw [hs] at h
      cases h
    | ok next =>
      rw [hs] at h
      refine List.forall_mem_cons.mpr ⟨?_, ih h⟩
      rintro rfl
      rw [step_bad] at hs
      cases hs

def EntriesKeyed (P : Text → Prop) (entries : Entries) : Prop := ∀ entry ∈ entries, P entry.1

def Frame.Keyed (P : Text → Prop) : Frame → Prop
  | .list _ => True
  | .object entries key => EntriesKeyed P entries ∧ P key

def Mode.Keyed (P : Text → Prop) : Mode → Prop
  | .key entries => EntriesKeyed P entries
  | .colon entries pending => EntriesKeyed P entries ∧ P pending
  | .done v => ∀ entries, v = .object entries → EntriesKeyed P entries
  | _ => True

variable {P : Text → Prop}

variable {entries : Entries}

theorem setEntry_keyed {key : Text} (value : Value) (h : EntriesKeyed P entries) (hkey : P key) :
    EntriesKeyed P (setEntry entries key value) := by
  induction entries with
  | nil =>
    intro entry hentry
    rw [List.mem_singleton.mp hentry]
    exact hkey
  | cons first rest ih =>
    obtain ⟨hfirst, hrest⟩ := List.forall_mem_cons.mp h
    unfold setEntry
    split
    · exact List.forall_mem_cons.mpr ⟨hkey, hrest⟩
    · exact List.forall_mem_cons.mpr ⟨hfirst, ih hrest⟩

theorem beginValue_keyed {frames : List Frame} {token : Token}
    (h : beginValue limits frames token = .ok state) (hframes : ∀ frame ∈ frames, frame.Keyed P) :
    state.1.Keyed P ∧ ∀ frame ∈ state.2, frame.Keyed P := by
  unfold beginValue at h
  cases token with
  | openList =>
    simp only at h
    split at h
    · cases h
    · cases h
      exact ⟨trivial, List.forall_mem_cons.mpr ⟨trivial, hframes⟩⟩
  | openObject =>
    simp only at h
    split at h
    · cases h
    · cases h
      exact ⟨trivial, hframes⟩
  | text _ | null | bool _ | int _ | float _ =>
    cases h
    exact ⟨nofun, hframes⟩
  | _ => cases h

theorem step_keyed {state next : Mode × List Frame} {token : Token}
    (h : step limits state token = .ok next) (htoken : ∀ s, token = .text s → P s) (hmode : state.1.Keyed P)
    (hframes : ∀ frame ∈ state.2, frame.Keyed P) : next.1.Keyed P ∧ ∀ frame ∈ next.2, frame.Keyed P := by
  obtain ⟨mode, frames⟩ := state
  unfold step at h
  simp only at h hmode hframes
  split at h
  · exact beginValue_keyed h hframes
  · cases h
    exact ⟨nofun, (List.forall_mem_cons.mp hframes).2⟩
  · exact beginValue_keyed h hframes
  · cases h
    exact ⟨fun entries he => by (cases he; exact fun _ h => by cases h), hframes⟩
  · cases h
    exact ⟨⟨nofun, htoken _ rfl⟩, hframes⟩
  · cases h
    exact ⟨⟨hmode, htoken _ rfl⟩, hframes⟩
  · cases h
    exact ⟨trivial, List.forall_mem_cons.mpr ⟨hmode, hframes⟩⟩
  · cases h
    exact ⟨trivial, List.forall_mem_cons.mpr ⟨trivial, (List.forall_mem_cons.mp hframes).2⟩⟩
  · cases h
    exact ⟨nofun, (List.forall_mem_cons.mp hframes).2⟩
  · cases h
    obtain ⟨hframe, hlater⟩ := List.forall_mem_cons.mp hframes
    exact ⟨setEntry_keyed _ hframe.1 hframe.2, hlater⟩
  · cases h
    obtain ⟨hframe, hlater⟩ := List.forall_mem_cons.mp hframes
    exact ⟨fun entries he => by (cases he; exact setEntry_keyed _ hframe.1 hframe.2), hlater⟩
  · cases h

theorem readTokens_keyed {tokens : List Token}
    (h : readTokens limits state tokens = .ok (.object entries)) (htokens : ∀ s, .text s ∈ tokens → P s)
    (hmode : state.1.Keyed P) (hframes : ∀ frame ∈ state.2, frame.Keyed P) : EntriesKeyed P entries := by
  induction tokens generalizing state with
  | nil =>
    obtain ⟨mode, frames⟩ := state
    unfold readTokens at h
    split at h
    · rename_i value heq
      cases heq
      cases h
      exact hmode entries rfl
    · cases h
  | cons token rest ih =>
    unfold readTokens at h
    cases hs : step limits state token with
    | error e =>
      rw [hs] at h
      cases h
    | ok next =>
      rw [hs] at h
      obtain ⟨hnext, hlater⟩ := step_keyed hs (fun s he => htokens s (he ▸ List.mem_cons_self)) hmode hframes
      exact ih h (fun s hmem => htokens s (List.mem_cons_of_mem _ hmem)) hnext hlater

theorem keys_structural_of_inside {outer before inner after : Text} {value : Value}
    (houter : loads limits outer = .ok value) (hsplit : outer = before ++ inner ++ after)
    (hinside : walk .outside before = some .inside) (hinner : loads limits inner = .ok (.object entries)) :
    ∀ entry ∈ entries, ∀ c ∈ entry.1, isStructural c = true := by
  have hwalk : walk .outside outer = some .outside := walk_of_tokens 0 (readTokens_good houter)
  rw [hsplit, List.append_assoc, walk_append, hinside, Option.bind_some, walk_append] at hwalk
  obtain ⟨place, hplace, -⟩ := Option.bind_eq_some_iff.mp hwalk
  have htexts := text_structural_of_inside 0 (readTokens_good hinner) hplace
  exact readTokens_keyed hinner htexts trivial (by simp)

end Orchestrator.Json
