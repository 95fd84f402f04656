import Orchestrator.Usage.Shell

/-!
What the shell expands in a line, and what the line seems to say once its quoting is passed over.
-/

namespace Orchestrator.Usage

open Python

inductive Context where
  | bare (depth : Nat)
  | single (depth : Nat)
  | double (outer inner : Nat)

def expansionOperators : List Char := ['}', ':', '-', '=', '?', '+', '%', '#', '/', '^', ',', '@', '[']

def otherExpansions : List Char :=
  ['@', '*', '#', '?', '-', '$', '!', '(', '[', '0', '1', '2', '3', '4', '5', '6', '7', '8', '9']

def separators : List Char := [' ', '\t', ';', '&', '|', '(', ')', '<', '>']

/-- The variable that a `$` before `text` expands, if any; nothing is said of other expansions. -/
def expansion (quote : Quote) (text : List Char) : Option (Option (List Char)) :=
  match text with
  | '{' :: rest =>
    if leadingName rest ≠ [] ∧ startsWithOneOf expansionOperators (rest.drop (leadingName rest).length) = true then
      some (some (leadingName rest))
    else none
  | rest =>
    if leadingName rest ≠ [] then some (some (leadingName rest))
    else if startsWithOneOf otherExpansions rest = true ∨ (quote = .none ∧ startsWithOneOf ['\x27'] rest = true) then none
    else some none

def opened (text : List Char) : Nat := if startsWithOneOf ['{'] text then 1 else 0

def seen (c : Char) (reading : Option (List Char)) (later : List (Option (List Char))) : List (Option (List Char)) :=
  if c = '$' then reading :: later else later

def silent (text : List Char) : List (Option (List Char)) := List.replicate (text.count '$') none

/-- What the shell expands at each `$` of a text. Nothing is said of a text outside the fragment: one that
does not close its quotes and braces, or that holds other expansions, commands in back quotes, or quote
marks inside braces inside double quotes, which shells read differently. -/
def expandsAt : Context → Bool → List Char → Option (List (Option (List Char)))
  | .bare depth, _, [] => if depth = 0 then some [] else none
  | .single _, _, [] => none
  | .double _ _, _, [] => none
  | .single depth, _, c :: rest =>
    (expandsAt (if c = '\x27' then .bare depth else .single depth) false rest).map (seen c none)
  | .bare depth, start, c :: rest =>
    if c = '\\' then match rest with
      | [] => none
      | escaped :: rest => (expandsAt (.bare depth) false rest).map (seen escaped none)
    else if c = '$' then (expansion .none rest).bind fun name => (expandsAt (.bare (depth + opened rest)) false rest).map (name :: ·)
    else if c = '\x27' then expandsAt (.single depth) false rest
    else if c = '"' then expandsAt (.double depth 0) false rest
    else if c = '\x60' then none
    else if c = '#' ∧ start = true ∧ depth = 0 then some (silent rest)
    else expandsAt (.bare (if c = '}' then depth - 1 else depth)) (separators.contains c) rest
  | .double outer inner, _, c :: rest =>
    if c = '\\' then match rest with
      | [] => none
      | escaped :: rest => (expandsAt (.double outer inner) false rest).map (seen escaped none)
    else if c = '$' then
      (expansion .double rest).bind fun name => (expandsAt (.double outer (inner + opened rest)) false rest).map (name :: ·)
    else if c = '"' then if inner = 0 then expandsAt (.bare outer) false rest else none
    else if c = '\x60' ∨ (c = '\x27' ∧ inner ≠ 0) then none
    else expandsAt (.double outer (if c = '}' then inner - 1 else inner)) false rest

def expandsIn (line : List Char) : Option (List (Option (List Char))) := expandsAt (.bare 0) true line

/-- The text with its quote marks, its escaped characters and its single-quoted parts passed over. -/
def unquoted : Quote → List Char → List Char
  | _, [] => []
  | .single, c :: rest => unquoted (if c = '\x27' then .none else .single) rest
  | .double, c :: rest =>
    if c = '\\' then match rest with
      | [] => []
      | _ :: rest => unquoted .double rest
    else if c = '"' then unquoted .none rest
    else c :: unquoted .double rest
  | .none, c :: rest =>
    if c = '\\' then match rest with
      | [] => []
      | _ :: rest => unquoted .none rest
    else if c = '\x27' then unquoted .single rest
    else if c = '"' then unquoted .double rest
    else c :: unquoted .none rest

def runOn (quote : Quote) (text : List Char) : List Char := (unquoted quote text).takeWhile isNameChar

/-- What a `$` before `text` seems to expand with the quoting passed over: a name in braces shows only before an
operator that the pattern knows, any other name runs on into what follows it, and a `$` that expands nothing
shows the name that comes to stand behind it. -/
def seems (quote : Quote) (text : List Char) : Option (List Char) :=
  match expansion quote text with
  | some (some name) =>
    if startsWithOneOf ['{'] text then
      if startsWithOneOf operatorChars (text.drop (name.length + 1)) then some name else none
    else some (name ++ runOn quote (text.drop name.length))
  | _ => shellReference (unquoted quote text)

/-- What each `$` of a text seems to expand. A `#` at the beginning or after white space ends the text. -/
def seemsAt : Quote → Option Char → List Char → List (Option (List Char))
  | _, _, [] => []
  | .single, _, c :: rest => seen c none (seemsAt (if c = '\x27' then .none else .single) (some c) rest)
  | .double, _, c :: rest =>
    if c = '\\' then match rest with
      | [] => []
      | escaped :: rest => seen escaped none (seemsAt .double (some escaped) rest)
    else if c = '"' then seemsAt .none (some c) rest
    else seen c (seems .double rest) (seemsAt .double (some c) rest)
  | .none, previous, c :: rest =>
    if c = '\\' then match rest with
      | [] => []
      | escaped :: rest => seen escaped none (seemsAt .none (some escaped) rest)
    else if c = '\x27' then seemsAt .single (some c) rest
    else if c = '"' then seemsAt .double (some c) rest
    else if c = '#' ∧ previous.all isSpace = true then silent rest
    else seen c (seems .none rest) (seemsAt .none (some c) rest)

def seemsIn (line : List Char) : List (Option (List Char)) := seemsAt .none none line

def namesOf (readings : List (Option (List Char))) : List (List Char) := readings.filterMap id

variable {name : List Char}

theorem mem_namesOf {readings : List (Option (List Char))} : name ∈ namesOf readings ↔ some name ∈ readings := by
  simp [namesOf]

section Unfolding

variable {c : Char} (hescape : c ≠ '\\') (previous : Option Char) (rest : List Char)

include hescape

theorem expandableFrom_double : expandableFrom .double previous (c :: rest) =
    if c = '"' then expandableFrom .none (some c) rest else c :: expandableFrom .double (some c) rest := by
  cases rest <;> simp [expandableFrom, hescape]

theorem expandableFrom_none : expandableFrom .none previous (c :: rest) =
    if c = '\x27' then expandableFrom .single (some c) rest
    else if c = '"' then expandableFrom .double (some c) rest
    else if c = '#' ∧ previous.all isSpace = true then []
    else c :: expandableFrom .none (some c) rest := by
  cases rest <;> simp [expandableFrom, hescape]

end Unfolding


section Unquoted

variable {quote : Quote} (hquote : quote ≠ .single)

include hquote

theorem unquoted_keep {c : Char} (hescape : c ≠ '\\') (hsingle : c ≠ '\x27') (hdouble : c ≠ '"') (rest : List Char) :
    unquoted quote (c :: rest) = c :: unquoted quote rest := by
  cases quote with
  | single => exact absurd rfl hquote
  | double => cases rest <;> simp [unquoted, hescape, hdouble]
  | none => cases rest <;> simp [unquoted, hescape, hsingle, hdouble]

theorem unquoted_chars {text : List Char} (h : ∀ c ∈ text, isNameChar c = true) (rest : List Char) :
    unquoted quote (text ++ rest) = text ++ unquoted quote rest := by
  induction text with
  | nil => rfl
  | cons c text ih =>
    have hc := h c List.mem_cons_self
    rw [List.cons_append, unquoted_keep hquote, ih fun c' hc' => h c' (List.mem_cons_of_mem _ hc'), List.cons_append]
    all_goals
      rintro rfl
      exact absurd hc (by decide)

theorem unquoted_braced {name : List Char} (hname : isName name = true) {c : Char} (hc : c ∈ expansionOperators)
    (rest : List Char) : unquoted quote ('{' :: (name ++ c :: rest)) = '{' :: (name ++ c :: unquoted quote rest) := by
  rw [unquoted_keep hquote (by decide) (by decide) (by decide), unquoted_chars hquote (isNameChar_of_isName hname), unquoted_keep hquote]
  all_goals
    rintro rfl
    exact absurd hc (by decide)

end Unquoted

theorem leadingName_split {text : List Char} : text = leadingName text ++ text.drop (leadingName text).length := by
  by_cases h : leadingName text = []
  · rw [h]
    rfl
  · rw [leadingName_eq_takeWhile h, drop_takeWhile_length, List.takeWhile_append_dropWhile]

theorem not_nameChar_of_operator {c : Char} (h : c ∈ expansionOperators) : isNameChar c = false := by
  simp only [expansionOperators, List.mem_cons, List.not_mem_nil, or_false] at h
  rcases h with rfl | rfl | rfl | rfl | rfl | rfl | rfl | rfl | rfl | rfl | rfl | rfl | rfl <;> decide

theorem shellReference_braced (hname : isName name = true) {c : Char} (hc : c ∈ expansionOperators)
    (rest : List Char) : shellReference ('{' :: (name ++ c :: rest)) = if operatorChars.contains c then some name else none := by
  have hne : name ≠ [] := by
    rintro rfl
    cases hname
  have hleading : leadingName (name ++ c :: rest) = name :=
    leadingName_append hname (by simpa using not_nameChar_of_operator hc)
  rw [shellReference, hleading, List.drop_left, startsWithOneOf]
  simp [hne]

theorem leadingName_append_takeWhile (h : isName name = true) (rest : List Char) :
    leadingName (name ++ rest) = name ++ rest.takeWhile isNameChar := by
  cases name with
  | nil => cases h
  | cons first name =>
    obtain ⟨hfirst, hname⟩ := Bool.and_eq_true_iff.mp h
    rw [List.cons_append, leadingName, if_pos hfirst, List.takeWhile_append_of_pos (List.all_eq_true.mp hname), List.cons_append]

theorem startsWithBrace_of_isName (h : isName name = true) (rest : List Char) :
    startsWithOneOf ['{'] (name ++ rest) = false := by
  cases name with
  | nil => cases h
  | cons first name =>
    have hfirst := isNameChar_of_isName h first List.mem_cons_self
    rw [List.cons_append, startsWithOneOf, Bool.eq_false_iff]
    intro hbrace
    rw [List.mem_singleton.mp (List.contains_iff_mem.mp hbrace)] at hfirst
    exact absurd hfirst (by decide)

theorem shellReference_bare {text : List Char} (h : startsWithOneOf ['{'] text = false) :
    shellReference text = if leadingName text ≠ [] then some (leadingName text) else none := by
  unfold shellReference
  split
  · cases h
  · rfl

theorem shellReference_named (h : isName name = true) (rest : List Char) :
    shellReference (name ++ rest) = some (name ++ rest.takeWhile isNameChar) := by
  rw [shellReference_bare (startsWithBrace_of_isName h rest), leadingName_append_takeWhile h rest, if_pos]
  intro heq
  rw [(List.append_eq_nil_iff.mp heq).1] at h
  cases h

theorem shellReference_unquoted {quote : Quote} (hquote : quote ≠ .single) (text : List Char) :
    shellReference (unquoted quote text) = seems quote text := by
  unfold seems
  split
  · rename_i name h
    unfold expansion at h
    split at h
    · rename_i rest
      split at h
      · rename_i hbrace
        cases h
        have hsplit : rest = leadingName rest ++ rest.drop (leadingName rest).length := leadingName_split
        cases hdrop : rest.drop (leadingName rest).length with
        | nil =>
          rw [hdrop] at hbrace
          exact absurd hbrace.2 (by decide)
        | cons c tail =>
          have hoperator := hbrace.2
          rw [hdrop] at hoperator hsplit
          have hname := isName_leadingName hbrace.1
          have hc : c ∈ expansionOperators := List.contains_iff_mem.mp hoperator
          have hread := shellReference_braced hname hc (unquoted quote tail)
          rw [← unquoted_braced hquote hname hc, ← hsplit] at hread
          rw [hread, if_pos (show startsWithOneOf ['{'] ('{' :: rest) = true from rfl), List.drop_succ_cons, hdrop, startsWithOneOf]
      · cases h
    · split at h
      · rename_i hne
        cases h
        have hname := isName_leadingName hne
        have hbrace := startsWithBrace_of_isName hname (text.drop (leadingName text).length)
        rw [← leadingName_split] at hbrace
        have hread := unquoted_chars hquote (isNameChar_of_isName hname) (text.drop (leadingName text).length)
        rw [← leadingName_split] at hread
        rw [hbrace, if_neg Bool.false_ne_true, hread, shellReference_named hname, runOn]
      · split at h <;> cases h
  · rfl

/-- The scanner drops what follows a comment mark, and a comment mark ends every reference. -/
theorem expandableFrom_cut (quote : Quote) (previous : Option Char) (text : List Char) :
    expandableFrom quote previous text = unquoted quote text ∨
      ∃ comment, unquoted quote text = expandableFrom quote previous text ++ '#' :: comment := by
  fun_induction unquoted quote text generalizing previous with
  | case1 => exact .inl rfl
  | case2 c rest ih => simpa only [expandableFrom] using ih (some c)
  | case3 => exact .inl rfl
  | case4 escaped rest ih => simpa [expandableFrom] using ih (some escaped)
  | case5 rest hescape ih =>
    rw [expandableFrom_double hescape, if_pos rfl]
    exact ih _
  | case6 c rest hescape hquote ih =>
    rw [expandableFrom_double hescape, if_neg hquote]
    simpa only [List.cons_append, List.cons.injEq, true_and] using ih (some c)
  | case7 => exact .inl rfl
  | case8 escaped rest ih => simpa [expandableFrom] using ih (some escaped)
  | case9 rest hescape ih =>
    rw [expandableFrom_none hescape, if_pos rfl]
    exact ih _
  | case10 rest hescape hsingle ih =>
    rw [expandableFrom_none hescape, if_neg hsingle, if_pos rfl]
    exact ih _
  | case11 c rest hescape hsingle hdouble ih =>
    rw [expandableFrom_none hescape, if_neg hsingle, if_neg hdouble]
    by_cases hhash : c = '#' ∧ previous.all isSpace = true
    · rw [if_pos hhash, hhash.1]
      exact .inr ⟨_, rfl⟩
    · rw [if_neg hhash]
      simpa only [List.cons_append, List.cons.injEq, true_and] using ih (some c)

theorem leadingName_comment (text comment : List Char) : leadingName (text ++ '#' :: comment) = leadingName text := by
  cases text with
  | nil => rfl
  | cons c text =>
    have htake : (text ++ '#' :: comment).takeWhile isNameChar = text.takeWhile isNameChar := by
      induction text with
      | nil => rfl
      | cons c' text ih => rw [List.cons_append, List.takeWhile_cons, List.takeWhile_cons, ih]
    rw [List.cons_append, leadingName, leadingName, htake]

theorem shellReference_comment (text comment : List Char) : shellReference (text ++ '#' :: comment) = shellReference text := by
  have hstarts : ∀ (chars rest : List Char), '#' ∉ chars →
      startsWithOneOf chars (rest ++ '#' :: comment) = startsWithOneOf chars rest := by
    rintro chars (_ | ⟨c, rest⟩) hhash
    · exact Bool.eq_false_iff.mpr fun hmem => hhash (List.contains_iff_mem.mp hmem)
    · rfl
  have hlength : ∀ rest : List Char, (leadingName rest).length ≤ rest.length := fun rest => by
    have hsplit := congrArg List.length (@leadingName_split rest)
    rw [List.length_append] at hsplit
    omega
  by_cases hbrace : startsWithOneOf ['{'] text = true
  · cases text with
    | nil => cases hbrace
    | cons c rest =>
      rw [List.mem_singleton.mp (List.contains_iff_mem.mp hbrace)]
      simp only [List.cons_append, shellReference, leadingName_comment, List.drop_append_of_le_length (hlength rest),
        hstarts operatorChars _ (by decide)]
  · have hbare := Bool.eq_false_iff.mpr hbrace
    rw [shellReference_bare hbare, shellReference_bare ((hstarts _ _ (by decide)).trans hbare), leadingName_comment]

theorem shellReference_expandableFrom {quote : Quote} (hquote : quote ≠ .single) (previous : Option Char) (text : List Char) :
    shellReference (expandableFrom quote previous text) = seems quote text := by
  rw [← shellReference_unquoted hquote]
  rcases expandableFrom_cut quote previous text with heq | ⟨comment, heq⟩
  · rw [heq]
  · rw [heq, shellReference_comment]

end Orchestrator.Usage
