import Orchestrator.Yaml.Literal

/-!
The data file that hands a task description to copier, and which descriptions copier reads out of it.
-/

namespace Orchestrator.Scaffold

open Python Yaml

def dataFile (descText : List Char) : List Char :=
  let indented :=
    if descText.isEmpty then "  \"\"".toList
    else ['\n'].intercalate ((splitlines descText).map fun line => ' ' :: ' ' :: line)
  "task_description: |\n".toList ++ indented ++ ['\n']

def taskDescription : List Char := "task_description".toList

def SameUpToNewline (text text' : List Char) : Prop := text = text' ∨ text = text' ++ ['\n'] ∨ text' = text ++ ['\n']

def Survives {v : Version} (loader : Loader v taskDescription) (text : List Char) : Prop :=
  ∃ value, loader.load (dataFile text) = some (.mapping [("task_description", .text (String.ofList value))]) ∧
    SameUpToNewline value (normalise v.newline text)

/-- The description is not empty, holds only what can be read and no line separator that is not a
newline character, does not begin with a space after its first line breaks, and does not end in
two empty lines. -/
structure Faithful (v : Version) (text : List Char) : Prop where
  ne_nil : text ≠ []
  readable : ∀ c ∈ text, v.readable c = true
  newlines : ∀ c ∈ text, isBoundary c = true → v.newline c = true
  flush : (text.filter fun c => !isBoundary c).head? ≠ some ' '
  ending : ¬ [[], []] <:+ splitlines text

section Lines

def indent (lines : List (List Char)) : List (List Char) := lines.map fun line => ' ' :: ' ' :: line

variable {lines : List (List Char)}

theorem intercalate_feed (h : lines ≠ []) : ['\n'].intercalate lines ++ ['\n'] = unlines lines := by
  induction lines with
  | nil => exact absurd rfl h
  | cons line rest ih =>
    cases rest with
    | nil => simp [List.intercalate, unlines]
    | cons next rest =>
      rw [List.intercalate_cons_cons, List.append_assoc, ih (List.cons_ne_nil _ _), unlines_cons line, List.append_assoc]
      rfl

theorem dataFile_eq {text : List Char} (h : text ≠ []) : dataFile text = literalBlock taskDescription (indent (splitlines text)) := by
  have hlines : indent (splitlines text) ≠ [] := by
    rw [indent, ne_eq, List.map_eq_nil_iff]
    exact splitFrom_ne_nil h
  have hempty : text.isEmpty = false := by simpa using h
  unfold dataFile literalBlock
  rw [hempty, ← intercalate_feed hlines]
  rfl

theorem indentOf_indent (line : List Char) : indentOf (' ' :: ' ' :: line) = indentOf line + 2 := rfl

theorem detect_indent_of_space (h : lines.flatten.head? = some ' ') : 3 ≤ detect (indent lines) := by
  induction lines with
  | nil => cases h
  | cons line rest ih =>
    rw [indent, List.map_cons, detect]
    cases line with
    | nil =>
      have hrest := ih h
      rw [if_pos (show isBlank [' ', ' '] = true from rfl)]
      exact le_max_of_le_right hrest
    | cons c line =>
      obtain rfl := Option.some.inj h
      split
      · apply le_max_of_le_left
        simp only [List.length_cons]
        omega
      · rw [indentOf_indent]
        show 3 ≤ indentOf line + 1 + 2
        omega

theorem detect_indent (hne : lines ≠ []) (h : lines.flatten.head? ≠ some ' ') : detect (indent lines) = 2 := by
  induction lines with
  | nil => exact absurd rfl hne
  | cons line rest ih =>
    rw [indent, List.map_cons, detect]
    cases line with
    | nil =>
      rw [if_pos (show isBlank [' ', ' '] = true from rfl)]
      by_cases hrest : rest = []
      · subst hrest
        rfl
      · have := ih hrest h
        rw [indent] at this
        rw [this]
        rfl
    | cons c line =>
      have hc : c ≠ ' ' := fun hc => h (congrArg some hc)
      have hblank : isBlank (' ' :: ' ' :: c :: line) = false := by simp [isBlank, hc]
      have hindent : indentOf (c :: line) = 0 := by simp [indentOf, hc]
      rw [if_neg (by simp [hblank]), indentOf_indent, hindent]

theorem taken_indent (lines : List (List Char)) : taken 2 (indent lines) = lines := by
  induction lines with
  | nil => rfl
  | cons line rest ih =>
    have hindent : (isBlank (' ' :: ' ' :: line) || decide (2 ≤ indentOf (' ' :: ' ' :: line))) = true := by
      rw [indentOf_indent]
      simp
    rw [indent, List.map_cons, taken, if_pos hindent]
    exact congrArg (line :: ·) ih

theorem count_drop_le (n : Nat) (line : List Char) : (line.drop n).count ' ' ≤ line.count ' ' :=
  (List.drop_sublist n line).count_le ' '

theorem count_taken_le {n : Nat} (hn : 2 ≤ n) (lines : List (List Char)) :
    (taken n (indent lines)).flatten.count ' ' ≤ lines.flatten.count ' ' := by
  obtain ⟨m, rfl⟩ := Nat.exists_eq_add_of_le' hn
  induction lines with
  | nil => exact le_refl _
  | cons line rest ih =>
    rw [indent, List.map_cons, taken]
    split
    · rw [List.flatten_cons, List.flatten_cons, List.count_append, List.count_append]
      exact Nat.add_le_add (count_drop_le m line) ih
    · exact Nat.zero_le _

theorem count_taken_lt {n : Nat} (hn : 3 ≤ n) (h : lines.flatten.head? = some ' ') :
    (taken n (indent lines)).flatten.count ' ' < lines.flatten.count ' ' := by
  obtain ⟨m, rfl⟩ := Nat.exists_eq_add_of_le' hn
  induction lines with
  | nil => cases h
  | cons line rest ih =>
    have hrest := count_taken_le (n := m + 3) (by omega) rest
    rw [indent, List.map_cons, taken]
    cases line with
    | nil =>
      rw [if_pos (show (isBlank [' ', ' '] || decide (m + 3 ≤ indentOf [' ', ' '])) = true from rfl)]
      exact ih h
    | cons c line =>
      obtain rfl := Option.some.inj h
      rw [List.flatten_cons, List.count_append, List.count_cons_self]
      split
      · have hline := count_drop_le m line
        rw [List.flatten_cons, List.count_append]
        show (line.drop m).count ' ' + (taken (m + 3) (indent rest)).flatten.count ' ' < _
        omega
      · show 0 < _
        omega

end Lines

section Reading

variable {v : Version} {text : List Char}

variable {c : Char}

theorem mem_of_mem_line {line : List Char} (hline : line ∈ splitlines text) (hc : c ∈ line) :
    c ∈ text ∧ isBoundary c = false := by
  have hmem : c ∈ (splitlines text).flatten := List.mem_flatten.mpr ⟨line, hline, hc⟩
  rw [flatten_splitlines, List.mem_filter] at hmem
  exact ⟨hmem.1, by simpa using hmem.2⟩

theorem boundary_of_break (h : isBreak c = true) : isBoundary c = true := by
  unfold isBreak at h
  simp only [Bool.or_eq_true, beq_iff_eq] at h
  rcases h with (((rfl | rfl) | rfl) | rfl) | rfl <;> rfl

theorem plain_indent (text : List Char) : Plain (indent (splitlines text)) := by
  intro line hline
  obtain ⟨l, hl, rfl⟩ := List.mem_map.mp hline
  refine ⟨?_, Or.inr rfl⟩
  intro c hc
  rcases List.mem_cons.mp hc with rfl | hc
  · rfl
  · rcases List.mem_cons.mp hc with rfl | hc
    · rfl
    · have hboundary := (mem_of_mem_line hl hc).2
      by_contra hbreak
      rw [boundary_of_break (by simpa using hbreak)] at hboundary
      cases hboundary

variable {lines : List (List Char)}

theorem mem_unlines (h : c ∈ unlines lines) : c = '\n' ∨ ∃ line ∈ lines, c ∈ line := by
  obtain ⟨line, hline, hc⟩ := List.mem_flatMap.mp h
  rcases List.mem_append.mp hc with hc | hc
  · exact Or.inr ⟨line, hline, hc⟩
  · exact Or.inl (List.mem_singleton.mp hc)

theorem readable_header (v : Version) : ∀ c ∈ header taskDescription, v.readable c = true :=
  List.all_eq_true.mp (by cases v <;> decide)

theorem readable_feed (v : Version) : v.readable '\n' = true := by cases v <;> decide

theorem readable_space (v : Version) : v.readable ' ' = true := by cases v <;> decide

theorem readable_newline (h : v.newline c = true) : v.readable c = true := by
  have hc : c = '\n' ∨ c = '\r' ∨ c = '\u0085' := by
    cases v <;> simp [Version.newline] at h <;> tauto
  rcases hc with rfl | rfl | rfl <;> cases v <;> decide

theorem readable_literalBlock (h : ∀ c ∈ text, v.readable c = true) :
    ∀ c ∈ literalBlock taskDescription (indent (splitlines text)), v.readable c = true := by
  intro c hc
  rcases List.mem_append.mp hc with hc | hc
  · exact readable_header v c hc
  · rcases mem_unlines hc with rfl | ⟨line, hline, hc⟩
    · exact readable_feed v
    · obtain ⟨l, hl, rfl⟩ := List.mem_map.mp hline
      rcases List.mem_cons.mp hc with rfl | hc
      · exact readable_space v
      · rcases List.mem_cons.mp hc with rfl | hc
        · exact readable_space v
        · exact h c (mem_of_mem_line hl hc).1

theorem contents_flush (hne : text ≠ []) (hflush : (text.filter fun c => !isBoundary c).head? ≠ some ' ') :
    contents (indent (splitlines text)) = splitlines text := by
  have hlines : splitlines text ≠ [] := splitFrom_ne_nil hne
  rw [contents, detect_indent hlines (by rwa [flatten_splitlines])]
  exact taken_indent _

section Endings

variable {lines : List (List Char)}

theorem exists_rdropWhile (lines : List (List Char)) : ∃ e, lines = lines.rdropWhile List.isEmpty ++ List.replicate e [] := by
  induction lines using List.reverseRecOn with
  | nil => exact ⟨0, rfl⟩
  | append_singleton lines line ih =>
    by_cases hline : line.isEmpty = true
    · obtain ⟨e, he⟩ := ih
      obtain rfl := List.isEmpty_iff.mp hline
      refine ⟨e + 1, ?_⟩
      rw [List.rdropWhile_concat_pos _ _ _ hline, List.replicate_succ', ← List.append_assoc, ← he]
    · rw [List.rdropWhile_concat_neg _ _ _ hline]
      exact ⟨0, (List.append_nil _).symm⟩

theorem last_rdropWhile (lines : List (List Char)) : ¬ [[]] <:+ lines.rdropWhile List.isEmpty := by
  rintro ⟨before, hbefore⟩
  have hne : lines.rdropWhile List.isEmpty ≠ [] := by
    rw [← hbefore]
    exact List.append_ne_nil_of_right_ne_nil _ (List.cons_ne_nil _ _)
  apply List.rdropWhile_last_not List.isEmpty lines hne
  simp only [← hbefore, List.getLast_append_singleton, List.isEmpty_nil]

theorem two_empty_iff {kept : List (List Char)} (hkept : ¬ [[]] <:+ kept) (e : Nat) :
    [[], []] <:+ kept ++ List.replicate e [] ↔ 2 ≤ e := by
  constructor
  · intro h
    by_contra hlt
    obtain rfl | rfl : e = 0 ∨ e = 1 := by omega
    · rw [List.replicate_zero, List.append_nil] at h
      exact hkept ((List.suffix_cons [] [[]]).trans h)
    · obtain ⟨before, hbefore⟩ := h
      have hsplit : (before ++ [[]]) ++ [[]] = kept ++ [[]] := by
        rw [List.append_assoc]
        exact hbefore
      exact hkept ⟨before, List.append_cancel_right hsplit⟩
  · intro hle
    obtain ⟨m, rfl⟩ := Nat.exists_eq_add_of_le' hle
    rw [List.replicate_add, ← List.append_assoc]
    exact List.suffix_append _ _

theorem unlines_append (lines lines' : List (List Char)) : unlines (lines ++ lines') = unlines lines ++ unlines lines' := List.flatMap_append

theorem unlines_replicate (e : Nat) : unlines (List.replicate e []) = List.replicate e '\n' := by
  induction e with
  | zero => rfl
  | succ e ih =>
    rw [List.replicate_succ, unlines_cons, ih]
    rfl

theorem sameUpToNewline_iff {normal tail : List Char} (hlines : unlines lines = normal ++ tail) (hclosed : Closed lines tail) :
    SameUpToNewline (unlines (lines.rdropWhile List.isEmpty)) normal ↔ ¬ [[], []] <:+ lines := by
  obtain ⟨e, he⟩ := exists_rdropWhile lines
  have hlast := last_rdropWhile lines
  generalize lines.rdropWhile List.isEmpty = kept at he hlast
  subst he
  rw [two_empty_iff hlast]
  rw [unlines_append, unlines_replicate] at hlines
  rcases hclosed with rfl | ⟨rfl, hfull⟩
  · rw [List.append_nil] at hlines
    have hlength := congrArg List.length hlines
    rw [List.length_append, List.length_replicate] at hlength
    constructor
    · rintro (h | h | h)
      · have := congrArg List.length h
        omega
      · have := congrArg List.length h
        rw [List.length_append, List.length_singleton] at this
        omega
      · have := congrArg List.length h
        rw [List.length_append, List.length_singleton] at this
        omega
    · intro hlt
      obtain rfl | rfl : e = 0 ∨ e = 1 := by omega
      · exact Or.inl (by rw [← hlines, List.replicate_zero, List.append_nil])
      · exact Or.inr (Or.inr hlines.symm)
  · obtain rfl : e = 0 := by
      by_contra hne
      obtain ⟨m, rfl⟩ := Nat.exists_eq_add_of_le' (Nat.pos_of_ne_zero hne)
      apply hfull
      rw [List.replicate_succ', ← List.append_assoc]
      exact List.suffix_append _ _
    rw [List.replicate_zero, List.append_nil] at hlines
    exact iff_of_true (Or.inr (Or.inl hlines)) (by omega)

end Endings

section Counting

theorem count_unlines (lines : List (List Char)) : (unlines lines).count ' ' = lines.flatten.count ' ' := by
  induction lines with
  | nil => rfl
  | cons line rest ih =>
    rw [unlines_cons, List.count_append, List.count_cons_of_ne (by decide), ih, List.flatten_cons, List.count_append]

theorem count_rdropWhile_le (lines : List (List Char)) : (lines.rdropWhile List.isEmpty).flatten.count ' ' ≤ lines.flatten.count ' ' := by
  obtain ⟨rest, hrest⟩ := List.rdropWhile_prefix List.isEmpty lines
  conv_rhs => rw [← hrest]
  rw [List.flatten_append, List.count_append]
  exact Nat.le_add_right _ _

theorem SameUpToNewline.count {value normal : List Char} (h : SameUpToNewline value normal) : value.count ' ' = normal.count ' ' := by
  rcases h with rfl | rfl | rfl
  · rfl
  · rw [List.count_append]
    rfl
  · rw [List.count_append]
    rfl

theorem SameUpToNewline.mem {value normal : List Char} (h : SameUpToNewline value normal) {c : Char} (hc : c ∈ normal) :
    c ∈ value ∨ c = '\n' := by
  rcases h with rfl | rfl | rfl
  · exact Or.inl hc
  · exact Or.inl (List.mem_append_left _ hc)
  · exact (List.mem_append.mp hc).imp_right List.mem_singleton.mp

end Counting

theorem mem_taken {n : Nat} {line : List Char} (h : line ∈ taken n lines) (hc : c ∈ line) :
    ∃ l ∈ lines, c ∈ l := by
  induction lines with
  | nil => cases h
  | cons l rest ih =>
    rw [taken] at h
    split at h
    · rcases List.mem_cons.mp h with rfl | h
      · exact ⟨l, List.mem_cons_self, List.mem_of_mem_drop hc⟩
      · obtain ⟨l', hl', hc'⟩ := ih h
        exact ⟨l', List.mem_cons_of_mem _ hl', hc'⟩
    · cases h

theorem not_boundary_of_mem_literal (h : c ∈ literal (indent (splitlines text))) : c = '\n' ∨ isBoundary c = false := by
  rcases mem_unlines h with rfl | ⟨line, hline, hc⟩
  · exact Or.inl rfl
  · obtain ⟨l, hl, hc⟩ := mem_taken ((List.rdropWhile_prefix List.isEmpty _).subset hline) hc
    obtain ⟨l', hl', rfl⟩ := List.mem_map.mp hl
    rcases List.mem_cons.mp hc with rfl | hc
    · exact Or.inr rfl
    · rcases List.mem_cons.mp hc with rfl | hc
      · exact Or.inr rfl
      · exact Or.inr (mem_of_mem_line hl' hc).2

theorem ofList_taskDescription : String.ofList taskDescription = "task_description" := String.ofList_toList

theorem value_of_load {loader : Loader v taskDescription} (hplain : Plain lines) {value : List Char}
    (h : loader.load (literalBlock taskDescription lines) = some (.mapping [("task_description", .text (String.ofList value))])) :
    value = literal lines := by
  obtain ⟨entries, hentries, hlookup⟩ := loader.reads lines hplain _ h
  obtain rfl := Value.mapping.inj hentries
  rw [ofList_taskDescription, List.lookup_cons_self] at hlookup
  have htext := congrArg String.toList (Value.text.inj (Option.some.inj hlookup))
  rwa [String.toList_ofList, String.toList_ofList] at htext

theorem not_survives_nil (loader : Loader v taskDescription) : ¬ Survives loader [] := by
  rintro ⟨value, hload, hsame⟩
  have hplain : Plain ["  \"\"".toList] := by
    intro line hline
    obtain rfl := List.mem_singleton.mp hline
    refine ⟨fun c hc => ?_, Or.inr rfl⟩
    have hall : ("  \"\"".toList.all fun c => !isBreak c) = true := by decide
    simpa using List.all_eq_true.mp hall c hc
  have hvalue := value_of_load hplain hload
  have hliteral : literal ["  \"\"".toList] = ['"', '"', '\n'] := by decide
  rw [hvalue, hliteral] at hsame
  rcases hsame with h | h | h <;> simp [normalise] at h

theorem newlines_of_same {value : List Char} (hvalue : value = literal (indent (splitlines text)))
    (hsame : SameUpToNewline value (normalise v.newline text)) : ∀ c ∈ text, isBoundary c = true → v.newline c = true := by
  intro c hc hboundary
  by_contra hnewline
  have hnewline : v.newline c = false := by simpa using hnewline
  have hnormal := mem_normalise hc hnewline v.newline_feed v.newline_return
  have hfeed : c ≠ '\n' := by
    rintro rfl
    rw [v.newline_feed] at hnewline
    cases hnewline
  rcases hsame.mem hnormal with hmem | heq
  · rcases not_boundary_of_mem_literal (hvalue ▸ hmem) with heq | hnot
    · exact hfeed heq
    · rw [hboundary] at hnot
      cases hnot
  · exact hfeed heq

theorem readable_of_load {loader : Loader v taskDescription} {value : Value}
    (hload : loader.load (literalBlock taskDescription (indent (splitlines text))) = some value)
    (hnewlines : ∀ c ∈ text, isBoundary c = true → v.newline c = true) : ∀ c ∈ text, v.readable c = true := by
  intro c hc
  by_cases hboundary : isBoundary c = true
  · exact readable_newline (hnewlines c hc hboundary)
  · by_contra hreadable
    have hmem : c ∈ (splitlines text).flatten := by
      rw [flatten_splitlines]
      exact List.mem_filter.mpr ⟨hc, by simpa using hboundary⟩
    obtain ⟨line, hline, hcline⟩ := List.mem_flatten.mp hmem
    have hfile : c ∈ literalBlock taskDescription (indent (splitlines text)) := by
      apply List.mem_append_right
      apply List.mem_flatMap.mpr
      exact ⟨' ' :: ' ' :: line, List.mem_map_of_mem hline, by simp [hcline]⟩
    rw [loader.refuses _ c hfile (by simpa using hreadable)] at hload
    cases hload

theorem unlines_splitlines (hnewlines : ∀ c ∈ text, isBoundary c = true → v.newline c = true) :
    ∃ tail, unlines (splitlines text) = normalise v.newline text ++ tail ∧ Closed (splitlines text) tail :=
  unlines_splitFrom (fun _ => Version.boundary_of_newline) hnewlines

theorem flush_of_same (hnewlines : ∀ c ∈ text, isBoundary c = true → v.newline c = true)
    (hsame : SameUpToNewline (literal (indent (splitlines text))) (normalise v.newline text)) :
    (text.filter fun c => !isBoundary c).head? ≠ some ' ' := by
  intro hspace
  rw [← flatten_splitlines] at hspace
  have hdetect := detect_indent_of_space hspace
  have hlost := count_taken_lt (n := max 1 (detect (indent (splitlines text)))) (le_max_of_le_right hdetect) hspace
  have hclipped := count_rdropWhile_le (contents (indent (splitlines text)))
  have hcount := hsame.count
  rw [literal, count_unlines] at hcount
  obtain ⟨tail, hlines, hclosed⟩ := unlines_splitlines hnewlines
  have htail : tail.count ' ' = 0 := by
    rcases hclosed with rfl | ⟨rfl, -⟩ <;> rfl
  have hall := congrArg (List.count ' ') hlines
  rw [List.count_append, htail, count_unlines] at hall
  rw [contents] at hclipped hcount
  omega

/-- Exactly the faithful descriptions come out of the data file, whatever loader that keeps to YAML's
rules reads it. -/
theorem description_survives_iff (v : Version) (loader : Loader v taskDescription) (text : List Char) :
    Survives loader text ↔ Faithful v text := by
  constructor
  · intro hsurvives
    have hne : text ≠ [] := by
      rintro rfl
      exact not_survives_nil loader hsurvives
    obtain ⟨value, hload, hsame⟩ := hsurvives
    rw [dataFile_eq hne] at hload
    have hvalue := value_of_load (plain_indent text) hload
    have hnewlines := newlines_of_same hvalue hsame
    rw [hvalue] at hsame
    have hflush := flush_of_same hnewlines hsame
    obtain ⟨tail, hlines, hclosed⟩ := unlines_splitlines hnewlines
    rw [literal, contents_flush hne hflush] at hsame
    exact ⟨hne, readable_of_load hload hnewlines, hnewlines, hflush, (sameUpToNewline_iff hlines hclosed).mp hsame⟩
  · intro hfaithful
    have hcontents := contents_flush hfaithful.ne_nil hfaithful.flush
    have hwhole : Whole (indent (splitlines text)) := by
      rw [Whole, hcontents, indent, List.length_map]
    refine ⟨literal (indent (splitlines text)), ?_, ?_⟩
    · rw [dataFile_eq hfaithful.ne_nil, loader.accepts _ (plain_indent text) (readable_literalBlock hfaithful.readable) hwhole,
        ofList_taskDescription]
    · obtain ⟨tail, hlines, hclosed⟩ := unlines_splitlines hfaithful.newlines
      rw [literal, hcontents]
      exact (sameUpToNewline_iff hlines hclosed).mpr hfaithful.ending

/-- A description of two lines, read by the loader that knows nothing but these rules. -/
theorem two_lines_survive : Faithful .v1_1 "Build a bot\n  # fast: yes".toList ∧
    Survives (reference .v1_1 taskDescription) "Build a bot\n  # fast: yes".toList := by
  have hfaithful : Faithful .v1_1 "Build a bot\n  # fast: yes".toList := by
    refine ⟨by decide, List.all_eq_true.mp (by decide), fun c hc hboundary => ?_, by decide, by decide⟩
    have hall : ("Build a bot\n  # fast: yes".toList.all fun c => !isBoundary c || Version.newline .v1_1 c) = true := by decide
    simpa [hboundary] using List.all_eq_true.mp hall c hc
  exact ⟨hfaithful, (description_survives_iff .v1_1 (reference .v1_1 taskDescription) _).mpr hfaithful⟩

theorem empty_description_lost : ¬ ∀ (v : Version) (loader : Loader v taskDescription) (text : List Char), Survives loader text :=
  fun hall => not_survives_nil _ (hall .v1_1 (reference .v1_1 taskDescription) [])

end Reading

end Orchestrator.Scaffold
