import Orchestrator.VariableNames

/-!
Which variables a Compose file interpolates, as the scanner finds them and as Compose reads them.
-/

namespace Orchestrator.Usage

/-- What `str.isalpha` and `str.isalnum` say of a character, as far as a scanner relies on it. -/
structure CharacterClasses where
  isAlpha : Char → Bool
  isAlnum : Char → Bool
  alnum_of_alpha : ∀ c, isAlpha c = true → isAlnum c = true
  ascii_alpha : ∀ c, c.toNat < 128 → isAlpha c = c.isAlpha
  ascii_alnum : ∀ c, c.toNat < 128 → isAlnum c = c.isAlphanum

variable (classes : CharacterClasses)

def CharacterClasses.opensName : List Char → Bool
  | [] => false
  | c :: _ => classes.isAlpha c || c == '_'

def CharacterClasses.inName (c : Char) : Bool := classes.isAlnum c || c == '_'

def operatorChars : List Char := ['}', ':', '?', '+', '-']

def startsWithOneOf (chars : List Char) : List Char → Bool
  | [] => false
  | c :: _ => chars.contains c

def interpolationReferences : List Char → List (List Char)
  | [] => []
  | '$' :: '$' :: rest => interpolationReferences rest
  | '$' :: '{' :: rest =>
    if classes.opensName rest && startsWithOneOf operatorChars (rest.dropWhile classes.inName) then
      rest.takeWhile classes.inName :: interpolationReferences (rest.dropWhile classes.inName)
    else interpolationReferences ('{' :: rest)
  | '$' :: rest =>
    if classes.opensName rest then rest.takeWhile classes.inName :: interpolationReferences (rest.dropWhile classes.inName)
    else interpolationReferences rest
  | _ :: rest => interpolationReferences rest
termination_by text => text.length
decreasing_by
  all_goals simp only [List.length_cons]
  all_goals first
    | omega
    | exact Nat.lt_of_le_of_lt (List.dropWhile_suffix _).length_le (by omega)

section Compose

/-- What follows each `$` that is not written twice. -/
def sites : List Char → List (List Char)
  | [] => []
  | '$' :: '$' :: rest => sites rest
  | '$' :: rest => rest :: sites rest
  | _ :: rest => sites rest

def closes : Nat → List Char → Bool
  | _, [] => false
  | depth, '$' :: '$' :: rest => closes depth rest
  | depth, '$' :: '{' :: rest => closes (depth + 1) rest
  | 0, '}' :: _ => true
  | depth + 1, '}' :: rest => closes depth rest
  | depth, _ :: rest => closes depth rest

/-- `}`, or one of `:-`, `-`, `:?`, `?`, `:+`, `+` and a word up to its brace. -/
def endsReference : List Char → Bool
  | '}' :: _ => true
  | ':' :: rest => startsWithOneOf ['-', '?', '+'] rest && closes 0 rest
  | rest => startsWithOneOf ['-', '?', '+'] rest && closes 0 rest

def reference (text : List Char) : Option (List Char) :=
  match text with
  | '{' :: rest =>
    if leadingName rest ≠ [] ∧ endsReference (rest.drop (leadingName rest).length) = true then some (leadingName rest) else none
  | rest => if leadingName rest ≠ [] then some (leadingName rest) else none

def expandedReferences (text : List Char) : List (List Char) := (sites text).filterMap reference

end Compose

def found (text : List Char) : Option (List Char) :=
  match text with
  | '{' :: rest =>
    if classes.opensName rest && startsWithOneOf operatorChars (rest.dropWhile classes.inName) then some (rest.takeWhile classes.inName)
    else none
  | rest => if classes.opensName rest then some (rest.takeWhile classes.inName) else none

theorem inName_dollar : classes.inName '$' = false := by
  rw [CharacterClasses.inName, classes.ascii_alnum _ (by decide)]
  rfl

variable {c : Char}

theorem sites_cons_of_ne (h : c ≠ '$') (rest : List Char) : sites (c :: rest) = sites rest := by
  rw [sites]
  · exact fun _ hc => absurd hc h
  · exact h

variable {text : List Char}

theorem sites_append_of_no_dollar (h : ∀ c ∈ text, c ≠ '$') (rest : List Char) : sites (text ++ rest) = sites rest := by
  induction text with
  | nil => rfl
  | cons c text ih =>
    rw [List.cons_append, sites_cons_of_ne (h c List.mem_cons_self)]
    exact ih fun c' hc' => h c' (List.mem_cons_of_mem _ hc')

theorem sites_dropWhile (text : List Char) : sites (text.dropWhile classes.inName) = sites text := by
  have hname : ∀ c ∈ text.takeWhile classes.inName, c ≠ '$' := by
    rintro c hc rfl
    have hin := List.mem_takeWhile_imp hc
    rw [inName_dollar] at hin
    cases hin
  calc sites (text.dropWhile classes.inName)
    _ = sites (text.takeWhile classes.inName ++ text.dropWhile classes.inName) := (sites_append_of_no_dollar hname _).symm
    _ = sites text := by rw [List.takeWhile_append_dropWhile]

theorem interpolationReferences_eq (text : List Char) :
    interpolationReferences classes text = (sites text).filterMap (found classes) := by
  fun_induction interpolationReferences classes text with
  | case1 => rfl
  | case2 rest ih => rw [sites, ih]
  | case3 rest hfound ih =>
    rw [sites, sites_cons_of_ne (by decide), List.filterMap_cons, found, if_pos hfound, ih, sites_dropWhile]
    simp
  | case4 rest hfound ih =>
    rw [sites, List.filterMap_cons, found, if_neg hfound, ih]
    simp
  | case5 rest hdollar hbrace hopens ih =>
    rw [sites, List.filterMap_cons, found, if_pos hopens, ih, sites_dropWhile]
    · exact fun rest' => hbrace rest'
    · exact fun rest' => hdollar rest'
  | case6 rest hdollar hbrace hopens ih =>
    rw [sites, List.filterMap_cons, found, if_neg hopens, ih]
    · exact fun rest' => hbrace rest'
    · exact fun rest' => hdollar rest'
  | case7 c rest _ _ hc ih => rw [sites_cons_of_ne hc, ih]

/-- What the scanner reads as a name is one: it is ASCII, and in braces an operator follows and the brace is closed. -/
def Faithful (text : List Char) : Prop :=
  match text with
  | '{' :: rest => classes.opensName rest = true → startsWithOneOf operatorChars (rest.dropWhile classes.inName) = true →
    (∀ c ∈ rest.takeWhile classes.inName, c.toNat < 128) ∧ endsReference (rest.dropWhile classes.inName) = true
  | rest => classes.opensName rest = true → ∀ c ∈ rest.takeWhile classes.inName, c.toNat < 128

theorem ascii_of_isNameChar (h : isNameChar c = true) : c.toNat < 128 := by
  change (decide (c.val ≥ 'A'.val ∧ c.val ≤ 'Z'.val) || decide (c.val ≥ 'a'.val) && decide (c.val ≤ 'z'.val) ||
    c == '_' || decide (c.val ≥ '0'.val) && decide (c.val ≤ '9'.val)) = true at h
  simp only [Bool.or_eq_true, beq_iff_eq, Bool.and_eq_true, decide_eq_true_eq, ge_iff_le] at h
  have hbelow : ∀ top : Char, top.toNat < 128 → c.val ≤ top.val → c.toNat < 128 := fun top htop hle =>
    Nat.lt_of_le_of_lt (UInt32.le_iff_toNat_le.mp hle) htop
  rcases h with ((h | h) | rfl) | h
  · exact hbelow 'Z' (by decide) h.2
  · exact hbelow 'z' (by decide) h.2
  · decide
  · exact hbelow '9' (by decide) h.2

theorem inName_of_ascii (h : c.toNat < 128) : classes.inName c = isNameChar c := by
  rw [CharacterClasses.inName, classes.ascii_alnum c h, isNameChar, isNameStart, Char.isAlphanum, Bool.or_right_comm]

theorem inName_of_isNameChar (h : isNameChar c = true) : classes.inName c = true := by
  rw [inName_of_ascii classes (ascii_of_isNameChar h)]
  exact h

theorem isNameChar_of_isNameStart (h : isNameStart c = true) : isNameChar c = true := by
  rw [isNameChar, h, Bool.true_or]

theorem opensName_iff_of_ascii (h : c.toNat < 128) (rest : List Char) :
    classes.opensName (c :: rest) = isNameStart c := by
  rw [CharacterClasses.opensName, classes.ascii_alpha c h, isNameStart]

theorem opensName_of_leadingName (h : leadingName text ≠ []) : classes.opensName text = true := by
  cases text with
  | nil => exact absurd rfl h
  | cons c rest =>
    by_cases hc : isNameStart c = true
    · rw [opensName_iff_of_ascii classes (ascii_of_isNameChar (isNameChar_of_isNameStart hc)), hc]
    · rw [leadingName, if_neg hc] at h
      exact absurd rfl h

theorem leadingName_eq_takeWhile (h : leadingName text ≠ []) : leadingName text = text.takeWhile isNameChar := by
  cases text with
  | nil => rfl
  | cons c rest =>
    by_cases hc : isNameStart c = true
    · rw [leadingName, if_pos hc, List.takeWhile_cons, if_pos (isNameChar_of_isNameStart hc)]
    · rw [leadingName, if_neg hc] at h
      exact absurd rfl h

theorem takeWhile_inName (h : ∀ c ∈ text.takeWhile classes.inName, c.toNat < 128) :
    text.takeWhile classes.inName = text.takeWhile isNameChar := by
  induction text with
  | nil => rfl
  | cons c rest ih =>
    by_cases hin : classes.inName c = true
    · rw [List.takeWhile_cons, if_pos hin] at h ⊢
      have hc : isNameChar c = true := by
        rw [← inName_of_ascii classes (h c List.mem_cons_self)]
        exact hin
      rw [List.takeWhile_cons, if_pos hc, ih fun c' hc' => h c' (List.mem_cons_of_mem _ hc')]
    · have hc : ¬ isNameChar c = true := fun hc => hin (inName_of_isNameChar classes hc)
      rw [List.takeWhile_cons, if_neg hin, List.takeWhile_cons, if_neg hc]

variable {rest : List Char}

theorem inName_of_opensName (h : classes.opensName (c :: rest) = true) : classes.inName c = true := by
  rcases Bool.or_eq_true_iff.mp h with halpha | hunder
  · exact Bool.or_eq_true_iff.mpr (.inl (classes.alnum_of_alpha c halpha))
  · exact Bool.or_eq_true_iff.mpr (.inr hunder)

theorem leadingName_eq_iff (hopens : classes.opensName text = true) :
    leadingName text = text.takeWhile classes.inName ↔ ∀ c ∈ text.takeWhile classes.inName, c.toNat < 128 := by
  cases text with
  | nil => cases hopens
  | cons first rest =>
    have hfirst := inName_of_opensName classes hopens
    constructor
    · intro h c hc
      rw [← h] at hc
      have hname : leadingName (first :: rest) ≠ [] := List.ne_nil_of_mem hc
      exact ascii_of_isNameChar (isNameChar_of_isName (isName_leadingName hname) c hc)
    · intro h
      have hascii : first.toNat < 128 := h first (by rw [List.takeWhile_cons, if_pos hfirst]; exact List.mem_cons_self)
      have hstart : isNameStart first = true := by
        rw [← opensName_iff_of_ascii classes hascii rest]
        exact hopens
      rw [takeWhile_inName classes h, leadingName, if_pos hstart, List.takeWhile_cons, if_pos (isNameChar_of_isNameStart hstart)]

theorem startsWithOneOf_of_endsReference (h : endsReference text = true) :
    startsWithOneOf operatorChars text = true := by
  unfold endsReference at h
  split at h
  · rfl
  · rfl
  · rename_i hbrace hcolon
    cases text with
    | nil => cases h
    | cons c rest =>
      obtain ⟨hc, -⟩ := Bool.and_eq_true_iff.mp h
      simp only [startsWithOneOf, operatorChars, List.contains_iff_mem, List.mem_cons, List.not_mem_nil, or_false] at hc ⊢
      grind

theorem inName_operator (h : c ∈ operatorChars) : classes.inName c = false := by
  simp only [operatorChars, List.mem_cons, List.not_mem_nil, or_false] at h
  rcases h with rfl | rfl | rfl | rfl | rfl <;> exact inName_of_ascii classes (by decide)

theorem takeWhile_of_operator (h : startsWithOneOf operatorChars (text.dropWhile isNameChar) = true) :
    text.takeWhile classes.inName = text.takeWhile isNameChar := by
  induction text with
  | nil => rfl
  | cons c rest ih =>
    by_cases hc : isNameChar c = true
    · rw [List.dropWhile_cons, if_pos hc] at h
      rw [List.takeWhile_cons, if_pos (inName_of_isNameChar classes hc), List.takeWhile_cons, if_pos hc, ih h]
    · rw [List.dropWhile_cons, if_neg hc] at h
      have hin := inName_operator classes (List.contains_iff_mem.mp h)
      rw [List.takeWhile_cons, if_neg (Bool.eq_false_iff.mp hin), List.takeWhile_cons, if_neg hc]

theorem drop_takeWhile_length (p : Char → Bool) (text : List Char) : text.drop (text.takeWhile p).length = text.dropWhile p := by
  induction text with
  | nil => rfl
  | cons c rest ih =>
    by_cases hc : p c = true
    · simpa [List.takeWhile_cons, List.dropWhile_cons, hc] using ih
    · simp [hc]

theorem leadingName_ne_nil_of_opens (hopens : classes.opensName text = true)
    (hascii : ∀ c ∈ text.takeWhile classes.inName, c.toNat < 128) : leadingName text ≠ [] := by
  rw [(leadingName_eq_iff classes hopens).mpr hascii]
  cases text with
  | nil => cases hopens
  | cons first rest =>
    have hfirst := inName_of_opensName classes hopens
    rw [List.takeWhile_cons, if_pos hfirst]
    simp

theorem dropWhile_of_operator (h : startsWithOneOf operatorChars (text.dropWhile isNameChar) = true) :
    text.dropWhile classes.inName = text.dropWhile isNameChar := by
  rw [← drop_takeWhile_length, ← drop_takeWhile_length, takeWhile_of_operator classes h]

theorem found_of_braced (hname : leadingName rest ≠ [])
    (hends : endsReference (rest.drop (leadingName rest).length) = true) :
    classes.opensName rest = true ∧ startsWithOneOf operatorChars (rest.dropWhile classes.inName) = true ∧
      rest.takeWhile classes.inName = leadingName rest := by
  have hoperator := startsWithOneOf_of_endsReference hends
  rw [leadingName_eq_takeWhile hname, drop_takeWhile_length] at hoperator
  have hsame := takeWhile_of_operator classes hoperator
  refine ⟨opensName_of_leadingName classes hname, ?_, ?_⟩
  · rw [dropWhile_of_operator classes hoperator]
    exact hoperator
  · rw [hsame, leadingName_eq_takeWhile hname]

theorem found_of_reference (h : (reference text).isSome = true) : (found classes text).isSome = true := by
  unfold reference at h
  split at h
  · rename_i rest
    split at h
    · rename_i hreference
      obtain ⟨hopens, hoperator, -⟩ := found_of_braced classes hreference.1 hreference.2
      simp [found, hopens, hoperator]
    · cases h
  · rename_i hbrace
    split at h
    · rename_i hname
      rw [found, if_pos (opensName_of_leadingName classes hname)]
      · rfl
      · exact hbrace
    · cases h

theorem reference_eq_found_iff (text : List Char) : found classes text = reference text ↔ Faithful classes text := by
  unfold found reference Faithful
  split
  · rename_i rest
    by_cases hseen : (classes.opensName rest && startsWithOneOf operatorChars (rest.dropWhile classes.inName)) = true
    · obtain ⟨hopens, hoperator⟩ := Bool.and_eq_true_iff.mp hseen
      rw [if_pos hseen]
      constructor
      · intro h _ _
        split at h
        · rename_i hreference
          have hascii := (leadingName_eq_iff classes hopens).mp (Option.some.inj h).symm
          refine ⟨hascii, ?_⟩
          have hends := hreference.2
          rw [← Option.some.inj h, drop_takeWhile_length] at hends
          exact hends
        · cases h
      · intro h
        obtain ⟨hascii, hends⟩ := h hopens hoperator
        have hsame := (leadingName_eq_iff classes hopens).mpr hascii
        have hname := leadingName_ne_nil_of_opens classes hopens hascii
        rw [← drop_takeWhile_length, ← hsame] at hends
        rw [if_pos ⟨hname, hends⟩, hsame]
    · rw [if_neg hseen, if_neg]
      · constructor
        · intro _ hopens hoperator
          exact absurd (Bool.and_eq_true_iff.mpr ⟨hopens, hoperator⟩) hseen
        · exact fun _ => rfl
      · rintro ⟨hname, hends⟩
        obtain ⟨hopens, hoperator, -⟩ := found_of_braced classes hname hends
        exact hseen (Bool.and_eq_true_iff.mpr ⟨hopens, hoperator⟩)
  · rename_i hbrace
    by_cases hopens : classes.opensName text = true
    · rw [if_pos hopens]
      constructor
      · intro h _
        split at h
        · exact (leadingName_eq_iff classes hopens).mp (Option.some.inj h).symm
        · cases h
      · intro h
        rw [if_pos (leadingName_ne_nil_of_opens classes hopens (h hopens)), (leadingName_eq_iff classes hopens).mpr (h hopens)]
    · rw [if_neg hopens, if_neg]
      · exact ⟨fun _ h => absurd h hopens, fun _ => rfl⟩
      · exact fun hname => hopens (opensName_of_leadingName classes hname)

theorem length_filterMap_le {α β : Type} {f g : α → Option β} {l : List α} (h : ∀ x ∈ l, (f x).isSome = true → (g x).isSome = true) :
    (l.filterMap f).length ≤ (l.filterMap g).length := by
  rw [List.length_filterMap_eq_countP, List.length_filterMap_eq_countP]
  exact List.countP_mono_left h

theorem filterMap_eq_iff {α β : Type} {f g : α → Option β} {l : List α} (h : ∀ x ∈ l, (f x).isSome = true → (g x).isSome = true) :
    l.filterMap g = l.filterMap f ↔ ∀ x ∈ l, g x = f x := by
  induction l with
  | nil => simp
  | cons x rest ih =>
    have hrest := fun y hy => h y (List.mem_cons_of_mem _ hy)
    rw [List.forall_mem_cons, ← ih hrest]
    cases hg : g x with
    | none =>
      have hf : f x = none := by
        rw [← Option.not_isSome_iff_eq_none]
        intro hsome
        have hfound := h x List.mem_cons_self hsome
        rw [hg] at hfound
        cases hfound
      simp [hf, hg]
    | some y =>
      cases hf : f x with
      | none =>
        have hle := length_filterMap_le hrest
        constructor
        · intro heq
          simp only [List.filterMap_cons, hg, hf] at heq
          have hlength := congrArg List.length heq
          rw [List.length_cons] at hlength
          omega
        · rintro ⟨hne, -⟩
          cases hne
      | some z => simp [hf, hg]

/-- The scanner finds the references that Compose sees, in order, exactly if every site is read faithfully. -/
theorem interpolation_exact_iff (text : List Char) :
    interpolationReferences classes text = expandedReferences text ↔ ∀ site ∈ sites text, Faithful classes site := by
  rw [interpolationReferences_eq, expandedReferences, filterMap_eq_iff fun _ _ => found_of_reference classes]
  simp only [reference_eq_found_iff]

theorem not_faithful_of_unended (hname : leadingName rest ≠ [])
    (hoperator : startsWithOneOf operatorChars (rest.dropWhile isNameChar) = true)
    (hends : endsReference (rest.dropWhile isNameChar) = false) : ¬ Faithful classes ('{' :: rest) := by
  intro h
  have hdrop := dropWhile_of_operator classes hoperator
  have hended := (h (opensName_of_leadingName classes hname) (hdrop ▸ hoperator)).2
  rw [hdrop, hends] at hended
  cases hended

/-- A name that is not ASCII, a brace that is never closed, and a colon that begins no operator. -/
theorem malformed_references_found :
    (∀ classes : CharacterClasses, classes.isAlpha 'é' = true →
      interpolationReferences classes "$é".toList ≠ expandedReferences "$é".toList) ∧
    (∀ classes : CharacterClasses, interpolationReferences classes "$\x7bFOO:-bar".toList ≠ expandedReferences "$\x7bFOO:-bar".toList) ∧
    ∀ classes : CharacterClasses, interpolationReferences classes "$\x7bFOO:bar\x7d".toList ≠ expandedReferences "$\x7bFOO:bar\x7d".toList := by
  refine ⟨?_, ?_, ?_⟩
  · intro classes halpha h
    have hsite : Faithful classes ['é'] := (interpolation_exact_iff classes _).mp h "é".toList (by decide)
    have hopens : classes.opensName ['é'] = true := Bool.or_eq_true_iff.mpr (.inl halpha)
    have hname : 'é' ∈ ['é'].takeWhile classes.inName := by
      rw [List.takeWhile_cons, if_pos (inName_of_opensName classes hopens)]
      exact List.mem_cons_self
    exact absurd (hsite hopens 'é' hname) (by decide)
  · intro classes h
    have hsite := (interpolation_exact_iff classes _).mp h "\x7bFOO:-bar".toList (by decide)
    exact not_faithful_of_unended classes (show leadingName "FOO:-bar".toList ≠ [] by decide) (by decide) (by decide) hsite
  · intro classes h
    have hsite := (interpolation_exact_iff classes _).mp h "\x7bFOO:bar\x7d".toList (by decide)
    exact not_faithful_of_unended classes (show leadingName "FOO:bar\x7d".toList ≠ [] by decide) (by decide) (by decide) hsite

end Orchestrator.Usage
