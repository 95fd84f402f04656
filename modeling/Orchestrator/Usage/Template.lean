import Orchestrator.Usage.Agreement

/-!
The interpolation syntax as a grammar: what is read from the text of a template is what the template refers to.
-/

namespace Orchestrator.Usage

inductive Operator where
  | default
  | error
  | alternative

def Operator.char : Operator → Char
  | default => '-'
  | error => '?'
  | alternative => '+'

inductive Template where
  | done
  | char (c : Char) (rest : Template)
  | dollar (rest : Template)
  | named (name : List Char) (rest : Template)
  | braced (name : List Char) (rest : Template)
  | worded (name : List Char) (colon : Bool) (operator : Operator) (word rest : Template)

namespace Template

def render : Template → List Char
  | done => []
  | char c rest => c :: rest.render
  | dollar rest => '$' :: '$' :: rest.render
  | named name rest => '$' :: (name ++ rest.render)
  | braced name rest => '$' :: '{' :: (name ++ '}' :: rest.render)
  | worded name colon operator word rest =>
    '$' :: '{' :: (name ++ ((if colon then [':'] else []) ++ operator.char :: (word.render ++ '}' :: rest.render)))

def names : Template → List (List Char)
  | done => []
  | char _ rest => rest.names
  | dollar rest => rest.names
  | named name rest => name :: rest.names
  | braced name rest => name :: rest.names
  | worded name _ _ word rest => name :: (word.names ++ rest.names)

/-- Names are names, no more name characters follow one that is not in braces, and inside of
braces none is closed but by the syntax. -/
def WellFormed (inName : Char → Bool) (inside : Bool) : Template → Prop
  | done => True
  | char c rest => c ≠ '$' ∧ (inside = true → c ≠ '}') ∧ rest.WellFormed inName inside
  | dollar rest => rest.WellFormed inName inside
  | named name rest => isName name = true ∧ (∀ c ∈ rest.render.head?, inName c = false) ∧ rest.WellFormed inName inside
  | braced name rest => isName name = true ∧ rest.WellFormed inName inside
  | worded name _ _ word rest => isName name = true ∧ word.WellFormed inName true ∧ rest.WellFormed inName inside

theorem WellFormed.mono {inName inName' : Char → Bool} (hle : ∀ c, inName c = true → inName' c = true) {inside : Bool}
    {t : Template} (h : t.WellFormed inName' inside) : t.WellFormed inName inside := by
  induction t generalizing inside with
  | done => trivial
  | char c rest ih => exact ⟨h.1, h.2.1, ih h.2.2⟩
  | dollar rest ih => exact ih h
  | named name rest ih =>
    refine ⟨h.1, fun c hc => ?_, ih h.2.2⟩
    by_contra hin
    have hnot := h.2.1 c hc
    rw [hle c (by simpa using hin)] at hnot
    cases hnot
  | braced name rest ih => exact ⟨h.1, ih h.2⟩
  | worded name colon operator word rest ihword ihrest => exact ⟨h.1, ihword h.2.1, ihrest h.2.2⟩

end Template

variable {inName : Char → Bool}

def Inert (c : Char) : Prop := c ≠ '$' ∧ c ≠ '}'

variable {c : Char}

theorem inert_of_isNameChar (h : isNameChar c = true) : Inert c := by
  constructor
  · rintro rfl
    exact absurd h (by decide)
  · rintro rfl
    exact absurd h (by decide)

theorem not_brace_of_isNameChar (h : isNameChar c = true) : c ≠ '{' := by
  rintro rfl
  exact absurd h (by decide)

theorem closes_cons (h : Inert c) (depth : Nat) (rest : List Char) : closes depth (c :: rest) = closes depth rest := by
  rw [closes]
  · exact fun _ hc => absurd hc h.1
  · exact fun _ hc => absurd hc h.1
  · exact fun _ hc => h.2 hc
  · exact fun _ _ hc => h.2 hc

theorem closes_append {text : List Char} (h : ∀ c ∈ text, Inert c) (depth : Nat) (rest : List Char) :
    closes depth (text ++ rest) = closes depth rest := by
  induction text with
  | nil => rfl
  | cons c text ih =>
    rw [List.cons_append, closes_cons (h c List.mem_cons_self)]
    exact ih fun c' hc' => h c' (List.mem_cons_of_mem _ hc')

theorem closes_name {name : List Char} (h : isName name = true) (depth : Nat) (rest : List Char) :
    closes depth (name ++ rest) = closes depth rest :=
  closes_append (fun c hc => inert_of_isNameChar (isNameChar_of_isName h c hc)) depth rest

theorem closes_dollar (hc : isNameChar c = true) (depth : Nat) (rest : List Char) :
    closes depth ('$' :: c :: rest) = closes depth (c :: rest) := by
  have hdollar := (inert_of_isNameChar hc).1
  have hbrace := not_brace_of_isNameChar hc
  rw [closes]
  · rintro rest' - heq
    exact hdollar (List.cons.inj heq).1
  · rintro rest' - heq
    exact hbrace (List.cons.inj heq).1
  · exact fun _ hc => absurd hc (by decide)
  · exact fun _ _ hc => absurd hc (by decide)

theorem sites_dollar (hc : isNameChar c = true) (rest : List Char) :
    sites ('$' :: c :: rest) = (c :: rest) :: sites (c :: rest) := by
  rw [sites]
  rintro rest' heq
  exact (inert_of_isNameChar hc).1 (List.cons.inj heq).1

theorem sites_name {name : List Char} (h : isName name = true) (rest : List Char) : sites (name ++ rest) = sites rest :=
  sites_append_of_no_dollar (fun c hc => (inert_of_isNameChar (isNameChar_of_isName h c hc)).1) rest

theorem operator_inert (operator : Operator) : Inert operator.char := by
  cases operator <;> exact ⟨by decide, by decide⟩

theorem Template.closes_render {t : Template} (h : t.WellFormed inName true) (depth : Nat) (after : List Char) :
    closes depth (t.render ++ after) = closes depth after := by
  induction t generalizing depth after with
  | done => rfl
  | char c rest ih =>
    rw [render, List.cons_append, closes_cons ⟨h.1, h.2.1 rfl⟩, ih h.2.2]
  | dollar rest ih => rw [render, List.cons_append, List.cons_append, closes, ih h]
  | named name rest ih =>
    obtain ⟨hname, -, hrest⟩ := h
    cases name with
    | nil => cases hname
    | cons first name =>
      have hskip := closes_dollar (isNameChar_of_isName hname first List.mem_cons_self) depth (name ++ (rest.render ++ after))
      have hpast := closes_name hname depth (rest.render ++ after)
      simp only [render, List.cons_append, List.append_assoc] at hpast ⊢
      rw [hskip, hpast, ih hrest]
  | braced name rest ih =>
    obtain ⟨hname, hrest⟩ := h
    rw [render, List.cons_append, List.cons_append, closes, List.append_assoc, closes_name hname, List.cons_append, closes, ih hrest]
  | worded name colon operator word rest ihword ihrest =>
    obtain ⟨hname, hword, hrest⟩ := h
    have hcolon : ∀ c ∈ if colon then [':'] else [], Inert c := by
      cases colon
      · simp
      · simp [Inert]
    simp only [render, List.cons_append, List.append_assoc]
    rw [closes, closes_name hname, closes_append hcolon, closes_cons (operator_inert operator), ihword hword, closes, ihrest hrest]

def Apart (inName : Char → Bool) (after : List Char) : Prop := ∀ c ∈ after.head?, inName c = false

theorem Apart.append {text after : List Char} (htext : Apart inName text) (hafter : Apart inName after) :
    Apart inName (text ++ after) := by
  cases text with
  | nil => exact hafter
  | cons c rest => exact htext

theorem reference_named {name after : List Char} (h : isName name = true) (hafter : Apart isNameChar after) :
    reference (name ++ after) = some name := by
  have hname := leadingName_append h hafter
  have hne : name ≠ [] := by
    rintro rfl
    cases h
  unfold reference
  split
  · rename_i rest heq
    cases name with
    | nil => cases h
    | cons first name =>
      exact absurd (List.cons.inj heq).1 (not_brace_of_isNameChar (isNameChar_of_isName h first List.mem_cons_self))
  · rw [hname, if_pos hne]

theorem reference_braced {name after : List Char} (h : isName name = true) (hafter : Apart isNameChar after) (hends : endsReference after = true) :
    reference ('{' :: (name ++ after)) = some name := by
  have hname := leadingName_append h hafter
  have hne : name ≠ [] := by
    rintro rfl
    cases h
  rw [reference, hname, List.drop_left, if_pos ⟨hne, hends⟩]

theorem endsReference_worded {text : List Char} (colon : Bool) (operator : Operator) (h : closes 0 text = true) :
    endsReference ((if colon then [':'] else []) ++ operator.char :: text) = true := by
  cases colon <;> cases operator <;> exact h

/-- What a reading of names does at a `$`: it takes the name that follows, in braces or not, and
no character that can end one. -/
structure Reads (inName : Char → Bool) (read : List Char → Option (List Char)) : Prop where
  operators : ∀ c ∈ operatorChars, inName c = false
  named : ∀ {name after : List Char}, isName name = true → Apart inName after → read (name ++ after) = some name
  braced : ∀ {name after : List Char}, isName name = true → Apart inName after → endsReference after = true →
    read ('{' :: (name ++ after)) = some name

theorem apart_of_operator (h : ∀ c ∈ operatorChars, inName c = false) (hc : c ∈ operatorChars) (text : List Char) :
    Apart inName (c :: text) := by
  simpa [Apart] using h c hc

theorem apart_worded (h : ∀ c ∈ operatorChars, inName c = false) (text : List Char) (colon : Bool) (operator : Operator) :
    Apart inName ((if colon then [':'] else []) ++ operator.char :: text) := by
  cases colon <;> cases operator <;> exact apart_of_operator h (by decide) _

theorem Template.reads {read : List Char → Option (List Char)} (hread : Reads inName read) {inside : Bool} {t : Template}
    (h : t.WellFormed inName inside) {after : List Char} (hafter : Apart inName after) :
    (sites (t.render ++ after)).filterMap read = t.names ++ (sites after).filterMap read := by
  induction t generalizing inside after with
  | done => rfl
  | char c rest ih => rw [render, List.cons_append, sites_cons_of_ne h.1, ih h.2.2 hafter, names]
  | dollar rest ih => rw [render, List.cons_append, List.cons_append, sites, ih h hafter, names]
  | named name rest ih =>
    obtain ⟨hname, hrun, hrest⟩ := h
    have hreference := hread.named hname (Apart.append hrun hafter)
    have hpast := sites_name hname (rest.render ++ after)
    cases name with
    | nil => cases hname
    | cons first name =>
      have hsites := sites_dollar (isNameChar_of_isName hname first List.mem_cons_self) (name ++ (rest.render ++ after))
      simp only [render, List.cons_append, List.append_assoc] at hreference hpast ⊢
      rw [hsites, List.filterMap_cons_some hreference, hpast, ih hrest hafter, names, List.cons_append]
  | braced name rest ih =>
    obtain ⟨hname, hrest⟩ := h
    have hreference : read ('{' :: (name ++ '}' :: (rest.render ++ after))) = some name :=
      hread.braced hname (apart_of_operator hread.operators (by decide) _) rfl
    simp only [render, List.cons_append, List.append_assoc]
    rw [sites, List.filterMap_cons_some hreference, sites_cons_of_ne (by decide), sites_name hname, sites_cons_of_ne (by decide),
      ih hrest hafter, names, List.cons_append]
    exact fun _ heq => absurd (List.cons.inj heq).1 (by decide)
  | worded name colon operator word rest ihword ihrest =>
    obtain ⟨hname, hword, hrest⟩ := h
    have hclosed : closes 0 (word.render ++ '}' :: (rest.render ++ after)) = true := closes_render hword 0 _
    have hreference := hread.braced hname (apart_worded hread.operators _ colon operator) (endsReference_worded colon operator hclosed)
    have hpast : ∀ text, sites ((if colon then [':'] else []) ++ text) = sites text := by
      cases colon <;> exact fun _ => rfl
    have hclose : sites ('}' :: (rest.render ++ after)) = sites (rest.render ++ after) := rfl
    simp only [render, List.cons_append, List.append_assoc]
    rw [sites, List.filterMap_cons_some hreference, sites_cons_of_ne (by decide), sites_name hname, hpast,
      sites_cons_of_ne (operator_inert operator).1, ihword hword (apart_of_operator hread.operators (by decide) _), hclose,
      ihrest hrest hafter, names, List.cons_append, List.append_assoc]
    exact fun _ heq => absurd (List.cons.inj heq).1 (by decide)

theorem Template.names_read {read : List Char → Option (List Char)} (hread : Reads inName read) {t : Template}
    (h : t.WellFormed inName false) : (sites t.render).filterMap read = t.names := by
  have hreads := Template.reads hread h (show Apart inName [] by simp [Apart])
  rw [List.append_nil] at hreads
  rw [hreads]
  exact List.append_nil _

theorem reference_reads : Reads isNameChar reference where
  operators c hc := by
    have hall : operatorChars.all (fun c => !isNameChar c) = true := by decide
    simpa using List.all_eq_true.mp hall c hc
  named hname hafter := reference_named hname hafter
  braced hname hafter hends := reference_braced hname hafter hends

section Scanner

variable (classes : CharacterClasses)

theorem takeWhile_name {name after : List Char} (h : isName name = true) (hafter : Apart classes.inName after) :
    (name ++ after).takeWhile classes.inName = name ∧ (name ++ after).dropWhile classes.inName = after := by
  have hname : ∀ c ∈ name, classes.inName c = true := fun c hc => inName_of_isNameChar classes (isNameChar_of_isName h c hc)
  rw [List.takeWhile_append_of_pos hname, List.dropWhile_append_of_pos hname]
  cases after with
  | nil => simp
  | cons c rest =>
    have hc : classes.inName c = false := hafter c rfl
    simp [hc]

theorem opensName_name {name after : List Char} (h : isName name = true) : classes.opensName (name ++ after) = true := by
  cases name with
  | nil => cases h
  | cons first name =>
    have hfirst := ascii_of_isNameChar (isNameChar_of_isName h first List.mem_cons_self)
    rw [List.cons_append, opensName_iff_of_ascii classes hfirst]
    exact (Bool.and_eq_true_iff.mp h).1

theorem found_reads : Reads classes.inName (found classes) where
  operators _ := inName_operator classes
  named {name after} hname hafter := by
    have hopens : classes.opensName (name ++ after) = true := opensName_name classes hname
    unfold found
    split
    · next rest heq =>
      cases name with
      | nil => cases hname
      | cons first name =>
        exact absurd (List.cons.inj heq).1 (not_brace_of_isNameChar (isNameChar_of_isName hname first List.mem_cons_self))
    · rw [if_pos hopens, (takeWhile_name classes hname hafter).1]
  braced {name after} hname hafter hends := by
    obtain ⟨htake, hdrop⟩ := takeWhile_name classes hname hafter
    rw [found, opensName_name classes hname, hdrop, startsWithOneOf_of_endsReference hends, htake]
    rfl

/-- Of the text of any template, nested words and doubled dollars included, the scanner finds
the names the template refers to, in their order, and so does Compose. -/
theorem scanner_reads_template (t : Template) (h : t.WellFormed classes.inName false) :
    interpolationReferences classes t.render = t.names ∧ expandedReferences t.render = t.names := by
  constructor
  · rw [interpolationReferences_eq]
    exact Template.names_read (found_reads classes) h
  · exact Template.names_read reference_reads (h.mono fun _ hc => inName_of_isNameChar classes hc)

end Scanner

def nestedTemplate : Template :=
  .worded ['A'] true .default (.dollar (.char 'x' (.braced ['B'] .done))) (.named ['C'] .done)

theorem nested_names_scanned : interpolationReferences asciiClasses nestedTemplate.render = [['A'], ['B'], ['C']] ∧
    expandedReferences nestedTemplate.render = [['A'], ['B'], ['C']] :=
  scanner_reads_template asciiClasses nestedTemplate
    ⟨by decide, ⟨by decide, fun _ => by decide, by decide, trivial⟩, by decide, by simp [Template.render], trivial⟩

end Orchestrator.Usage
