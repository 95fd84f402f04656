import Orchestrator.Dotenv.Builder

/-!
Which variables Compose reads back from the `.env` file as they were written.
-/

namespace Orchestrator.Dotenv

def opensReference (c : Char) : Bool := c == '$' || c == '{' || isNameStart c

def HasReference : List Char → Prop
  | [] => False
  | c :: rest => (c = '$' ∧ rest.head?.any opensReference = true) ∨ HasReference rest

variable {text : List Char}

theorem reading_plain (h : text.head?.any opensReference = false) : reading text = .plain := by
  cases text with
  | nil => rfl
  | cons c rest =>
    simp only [List.head?_cons, Option.any_some, opensReference, Bool.or_eq_false_iff, beq_eq_false_iff_ne] at h
    obtain ⟨⟨hdollar, hbrace⟩, hname⟩ := h
    unfold reading
    split
    · next heq => exact absurd (List.cons.inj heq).1 hdollar
    · next heq => exact absurd (List.cons.inj heq).1 hbrace
    · rw [leadingName, hname]
      rfl

theorem operation_ne_plain (name : List Char) (colon : Bool) (text : List Char) : operation name colon text ≠ .plain := by
  unfold operation
  split
  · rintro ⟨⟩
  split
  · split <;> rintro ⟨⟩
  · rintro ⟨⟩

theorem reading_ne_plain (h : text.head?.any opensReference = true) : reading text ≠ .plain := by
  cases text with
  | nil => cases h
  | cons c rest =>
    simp only [List.head?_cons, Option.any_some, opensReference, Bool.or_eq_true, beq_iff_eq] at h
    unfold reading
    split
    · rintro ⟨⟩
    · unfold braced
      split <;> split
      all_goals first | exact operation_ne_plain _ _ _ | rintro ⟨⟩
    · next hdollar hbrace =>
      have hname : isNameStart c = true := by
        rcases h with (rfl | rfl) | hname
        · exact absurd rfl (hdollar rest)
        · exact absurd rfl (hbrace rest)
        · exact hname
      rw [leadingName, if_pos hname]
      simp

theorem substitute_of_no_reference (look : List Char → Option (List Char)) {fuel : Nat} (h : ¬ HasReference text)
    (hfuel : text.length ≤ fuel) : substitute look fuel text = some text := by
  induction text generalizing fuel with
  | nil => cases fuel <;> rfl
  | cons c rest ih =>
    cases fuel with
    | zero => cases hfuel
    | succ fuel =>
      simp only [HasReference, not_or, not_and, Bool.not_eq_true] at h
      have hrest := ih h.2 (Nat.le_of_succ_le_succ hfuel)
      rw [substitute]
      split
      · next hdollar =>
        rw [reading_plain (h.1 hdollar)]
        simp only [hrest, Option.map_some]
      · rw [hrest, Option.map_some]

theorem splitWord_length {depth : Nat} {text word after : List Char} (h : splitWord depth text = some (word, after)) :
    word.length + after.length < text.length := by
  fun_induction splitWord depth text generalizing word after with
  | case1 => cases h
  | case4 =>
    cases h
    simp
  | case2 _ _ ih | case3 _ _ ih | case5 _ _ ih | case6 _ _ _ _ _ _ _ ih =>
    obtain ⟨split, hsplit, heq⟩ := Option.map_eq_some_iff.mp h
    cases heq
    have hlength := ih hsplit
    simp only [List.length_cons]
    omega

/-- What a reference that ends before `after` takes of `text` -/
def Takes (text : List Char) (after : List Char) : Reference → Prop
  | .dollar => 1 + after.length ≤ text.length
  | .variable _ => True
  | .operated _ _ _ word => word.length + after.length < text.length

variable {reference : Reference}

theorem operation_takes {name : List Char} {colon : Bool} {text after : List Char}
    (h : operation name colon text = .refers reference after) : Takes text after reference := by
  unfold operation at h
  split at h
  · cases h
  split at h
  · split at h
    · next hsplit =>
      cases h
      have hlength := splitWord_length hsplit
      simp only [Takes, List.length_cons]
      omega
    · cases h
  · cases h

theorem Takes.longer {text text' after : List Char} (h : Takes text after reference)
    (hlonger : text.length ≤ text'.length) : Takes text' after reference := by
  cases reference with
  | dollar => exact Nat.le_trans h hlonger
  | «variable» => trivial
  | operated => exact Nat.lt_of_lt_of_le h hlonger

theorem braced_takes {name text after : List Char} (h : braced name text = .refers reference after) :
    Takes text after reference := by
  unfold braced at h
  split at h
  · split at h
    · cases h
    · cases h
      trivial
  · split at h
    · cases h
    · exact (operation_takes h).longer (by simp)
  · split at h
    · cases h
    · exact operation_takes h

theorem reading_takes {text after : List Char} (h : reading text = .refers reference after) :
    Takes text after reference := by
  unfold reading at h
  split at h
  · cases h
    simp [Takes, Nat.add_comm]
  · apply (braced_takes h).longer
    simp only [List.length_drop, List.length_cons]
    omega
  · split at h
    · cases h
    · cases h
      trivial

/-- Where every variable is long, a text with a reference gets longer than it can be, or shorter than it was. -/
def Altered (bound : Nat) (text out : List Char) : Prop :=
  bound ≤ out.length ∨ out.length ≤ text.length ∧ (HasReference text → out.length < text.length)

theorem value_of_long {bound : Nat} {long : List Char} (hlong : bound ≤ long.length) (hsome : long ≠ [])
    {expand : List Char → Option (List Char)} {value : List Char}
    (h : reference.value (fun _ => some long) expand = some value) :
    bound ≤ value.length ∨ (reference = .dollar ∧ value = ['$']) ∨
      ∃ name colon operator word, reference = .operated name colon operator word ∧ expand word = some value := by
  cases reference with
  | dollar =>
    cases h
    exact .inr (.inl ⟨rfl, rfl⟩)
  | «variable» name =>
    cases h
    exact .inl hlong
  | operated name colon operator word =>
    obtain ⟨found, hfound, h⟩ := Option.bind_eq_some_iff.mp h
    have hkeeps : (!(colon && long.isEmpty)) = true := by simp [hsome]
    simp only [Option.filter_some, hkeeps, if_true, Option.some.injEq] at h
    split at h
    · cases h
      exact .inr (.inr ⟨name, colon, operator, word, rfl, hfound⟩)
    · cases h
      exact .inl hlong

theorem substitute_altered {bound : Nat} {long : List Char} (hlong : bound ≤ long.length) (hsome : long ≠ []) {fuel : Nat}
    {text out : List Char} (h : substitute (fun _ => some long) fuel text = some out) : Altered bound text out := by
  induction fuel generalizing text out with
  | zero =>
    cases text with
    | nil =>
      cases h
      exact .inr ⟨Nat.le_refl _, fun href => href.elim⟩
    | cons c rest => cases h
  | succ fuel ih =>
    cases text with
    | nil =>
      cases h
      exact .inr ⟨Nat.le_refl _, fun href => href.elim⟩
    | cons c rest =>
      have hkept {out : List Char} (hhead : c = '$' → reading rest = .plain)
          (h : (substitute (fun _ => some long) fuel rest).map (c :: ·) = some out) : Altered bound (c :: rest) out := by
        obtain ⟨tail, htail, rfl⟩ := Option.map_eq_some_iff.mp h
        rcases ih htail with hbound | ⟨hle, hlt⟩
        · exact .inl (Nat.le_succ_of_le hbound)
        · refine .inr ⟨Nat.succ_le_succ hle, ?_⟩
          rintro (⟨hdollar, hopens⟩ | href)
          · exact absurd (hhead hdollar) (reading_ne_plain hopens)
          · exact Nat.succ_lt_succ (hlt href)
      rw [substitute] at h
      split at h
      · next hdollar =>
        cases hreading : reading rest with
        | plain =>
          rw [hreading] at h
          exact hkept (fun _ => hreading) h
        | invalid =>
          rw [hreading] at h
          cases h
        | refers reference after =>
          rw [hreading] at h
          have htakes := reading_takes hreading
          obtain ⟨value, hvalue, h⟩ := Option.bind_eq_some_iff.mp h
          obtain ⟨tail, htail, h⟩ := Option.bind_eq_some_iff.mp h
          cases h
          simp only [Altered, List.length_append, List.length_cons]
          have hafter := ih htail
          rcases value_of_long hlong hsome hvalue with hbound | ⟨rfl, rfl⟩ | ⟨name, colon, operator, word, rfl, hword⟩
          · exact .inl (by omega)
          · simp only [Takes] at htakes
            rcases hafter with hbound | ⟨hle, -⟩
            · exact .inl (by simp only [List.length_singleton]; omega)
            · exact .inr (by simp only [List.length_singleton]; omega)
          · simp only [Takes] at htakes
            rcases ih hword with hbound | ⟨hle, -⟩
            · exact .inl (by omega)
            rcases hafter with hbound | ⟨hle', -⟩
            · exact .inl (by omega)
            · exact .inr (by omega)
      · next hother => exact hkept (fun hdollar => absurd hdollar hother) h

theorem not_special {value : List Char} (h : needsQuoting value = false) : ∀ c ∈ value, c ∉ specials := by
  intro c hc hspecial
  have hquoting : needsQuoting value = true := List.any_eq_true.mpr ⟨c, hspecial, List.contains_iff_mem.mpr hc⟩
  rw [h] at hquoting
  cases hquoting

theorem escaped_cons (c : Char) (value : List Char) :
    escaped (c :: value) = (if c = '\\' ∨ c = '"' then ['\\', c] else [c]) ++ escaped value := by
  by_cases hslash : c = '\\'
  · subst hslash
    simp [escaped, replace]
  · by_cases hquote : c = '"'
    · subst hquote
      simp [escaped, replace]
    · simp [escaped, replace, hslash, hquote]

variable (environment : String → Option String) (entries : List (String × String))

theorem run_name (h : ∀ c ∈ text, isNameChar c = true) (read : List Char) :
    text.foldl (Reader.step environment) ⟨entries, .name read⟩ = ⟨entries, .name (read ++ text)⟩ := by
  induction text generalizing read with
  | nil => simp
  | cons c rest ih =>
    have hc := h c List.mem_cons_self
    have heq : c ≠ '=' := by
      rintro rfl
      cases hc
    have hline : c ≠ '\n' := by
      rintro rfl
      cases hc
    have hrest := ih (fun c' hc' => h c' (List.mem_cons_of_mem _ hc')) (read ++ [c])
    rw [List.append_assoc, List.singleton_append] at hrest
    simpa only [List.foldl_cons, Reader.step, if_neg heq, if_neg hline] using hrest

theorem run_double (name value read : List Char) :
    (escaped value).foldl (Reader.step environment) ⟨entries, .double name read⟩ = ⟨entries, .double name (read ++ value)⟩ := by
  induction value generalizing read with
  | nil => simp [escaped, replace]
  | cons c rest ih =>
    have hrest := ih (read ++ [c])
    rw [List.append_assoc, List.singleton_append] at hrest
    rw [escaped_cons, List.foldl_append, ← hrest]
    by_cases hc : c = '\\' ∨ c = '"'
    · rcases hc with rfl | rfl <;> rfl
    · obtain ⟨hslash, hquote⟩ := not_or.mp hc
      simp only [if_neg hc, List.foldl_cons, List.foldl_nil, Reader.step, if_neg hslash, if_neg hquote]

theorem run_bare (h : ∀ c ∈ text, c ∉ specials) (name read : List Char) :
    text.foldl (Reader.step environment) ⟨entries, .bare name read⟩ = ⟨entries, .bare name (read ++ text)⟩ := by
  induction text generalizing read with
  | nil => simp
  | cons c rest ih =>
    have hc := h c List.mem_cons_self
    simp only [specials, List.mem_cons, List.not_mem_nil, or_false, not_or] at hc
    have hrest := ih (fun c' hc' => h c' (List.mem_cons_of_mem _ hc')) (read ++ [c])
    rw [List.append_assoc, List.singleton_append] at hrest
    rw [← hrest, List.foldl_cons]
    simp [Reader.step, Reader.bareStep, hc]

theorem run_failed (text : List Char) : text.foldl (Reader.step environment) ⟨entries, .failed⟩ = ⟨entries, .failed⟩ := by
  induction text with
  | nil => rfl
  | cons c rest ih => exact ih

def readBack (value : List Char) : Option (List Char) :=
  expand environment entries (if needsQuoting value then value else trim value)

theorem run_unquoted (h : needsQuoting text = false) (name : List Char) :
    (text ++ ['\n']).foldl (Reader.step environment) ⟨entries, .value name⟩ =
      Reader.closeWith ⟨entries, .value name⟩ name (readBack environment entries text) (.name []) := by
  have hspecial := not_special h
  cases text with
  | nil => rfl
  | cons c rest =>
    have hc := hspecial c List.mem_cons_self
    simp only [specials, List.mem_cons, List.not_mem_nil, or_false, not_or] at hc
    have hfirst : Reader.step environment ⟨entries, .value name⟩ c = ⟨entries, .bare name [c]⟩ := by
      simp [Reader.step, Reader.bareStep, hc]
    have hrest := run_bare environment entries (fun c' hc' => hspecial c' (List.mem_cons_of_mem _ hc')) name [c]
    rw [List.cons_append, List.foldl_cons, hfirst, List.foldl_append, hrest, readBack, h]
    simp only [List.singleton_append, List.foldl_cons, List.foldl_nil, Reader.step, Reader.bareStep, if_true, Bool.false_eq_true,
      if_false]
    unfold Reader.closeWith
    split <;> rfl

theorem run_line {key : String} (hkey : isName key.toList = true) (value : String) :
    (line key value ++ ['\n']).foldl (Reader.step environment) ⟨entries, .name []⟩ =
      Reader.closeWith ⟨entries, .name []⟩ key.toList (readBack environment entries value.toList) (.name []) := by
  have hname := run_name environment entries (isNameChar_of_isName hkey) []
  unfold line
  by_cases h : needsQuoting value.toList = true
  · have hquoted := run_double environment entries key.toList value.toList []
    have hopen : Reader.step environment (Reader.step environment ⟨entries, .name key.toList⟩ '=') '"' =
        ⟨entries, .double key.toList []⟩ := rfl
    rw [if_pos h]
    simp only [List.append_assoc, List.foldl_append, List.foldl_cons, hname, List.nil_append, hopen, hquoted]
    simp only [List.foldl_nil, Reader.step, if_true, readBack, h]
    unfold Reader.closeWith
    cases expand environment entries value.toList <;> rfl
  · have hbare := run_unquoted environment entries (Bool.not_eq_true _ ▸ h) key.toList
    have hopen : Reader.step environment ⟨entries, .name key.toList⟩ '=' = ⟨entries, .value key.toList⟩ := rfl
    rw [if_neg h, List.append_assoc, List.foldl_append, hname, List.cons_append, List.foldl_cons, List.nil_append, hopen, hbare]
    unfold Reader.closeWith
    split <;> rfl

theorem run_lines {written : List (String × String)} (h : ∀ entry ∈ written, isName entry.1.toList = true) :
    ((written.flatMap fun entry => line entry.1 entry.2 ++ ['\n']).foldl (Reader.step environment) ⟨entries, .name []⟩).outcome =
      written.foldlM (fun held entry =>
        ((readBack environment held entry.2.toList).map String.ofList).map (put held entry.1)) entries := by
  induction written generalizing entries with
  | nil => rfl
  | cons entry rest ih =>
    rw [List.flatMap_cons, List.foldl_append, run_line environment entries (h entry List.mem_cons_self), List.foldlM_cons]
    cases readBack environment entries entry.2.toList with
    | none =>
      rw [Reader.closeWith, run_failed]
      rfl
    | some value =>
      rw [Reader.closeWith, String.ofList_toList]
      exact ih _ fun e he => h e (List.mem_cons_of_mem _ he)

theorem intercalate_append {α : Type} (separator : List α) {lines : List (List α)} (h : lines ≠ []) :
    separator.intercalate lines ++ separator = lines.flatMap (· ++ separator) := by
  induction lines with
  | nil => exact absurd rfl h
  | cons line rest ih =>
    cases rest with
    | nil => simp
    | cons next rest =>
      rw [List.intercalate_cons_cons, List.append_assoc, ih (by simp)]
      simp only [List.flatMap_cons, List.append_assoc]

theorem Secrets.sorted_perm (secrets : Secrets) : secrets.sorted.Perm secrets.entries := List.perm_insertionSort _ _

theorem readDotenv_buildDotenv (secrets : Secrets) :
    readDotenv environment (buildDotenv secrets) = secrets.sorted.foldlM (fun held entry =>
      ((readBack environment held entry.2.toList).map String.ofList).map (put held entry.1)) [] := by
  have hnamed : ∀ entry ∈ secrets.sorted, isName entry.1.toList = true := fun entry h =>
    secrets.named entry (secrets.sorted_perm.mem_iff.mp h)
  unfold readDotenv buildDotenv
  by_cases h : secrets.sorted = []
  · rw [h]
    rfl
  · rw [intercalate_append _ (by simpa using h), List.flatMap_map, run_lines environment [] hnamed]

def Survives (value : String) : Prop :=
  ¬ HasReference value.toList ∧ (needsQuoting value.toList = true ∨ trim value.toList = value.toList)

theorem readBack_of_survives {value : String} (h : Survives value) :
    readBack environment entries value.toList = some value.toList := by
  obtain ⟨href, hquoted | htrim⟩ := h
  · rw [readBack, if_pos hquoted]
    exact substitute_of_no_reference _ href (Nat.le_refl _)
  · rw [readBack, htrim, ite_self]
    exact substitute_of_no_reference _ href (Nat.le_refl _)

theorem trim_length (text : List Char) : (trim text).length ≤ text.length := by
  unfold trim
  rw [List.length_reverse]
  calc ((text.dropWhile isBlank).reverse.dropWhile isBlank).length
    _ ≤ (text.dropWhile isBlank).reverse.length := (List.dropWhile_suffix _).length_le
    _ = (text.dropWhile isBlank).length := List.length_reverse
    _ ≤ text.length := (List.dropWhile_suffix _).length_le

theorem readBack_ne_of_not_survives {value : String} (h : ¬ Survives value) :
    readBack (fun _ => some (String.ofList (List.replicate (value.toList.length + 1) 'x'))) entries value.toList ≠
      some value.toList := by
  intro hback
  by_cases href : HasReference (if needsQuoting value.toList then value.toList else trim value.toList)
  · simp only [readBack, expand, Option.some_or, Option.map_some, String.toList_ofList] at hback
    have hshort : (if needsQuoting value.toList then value.toList else trim value.toList).length ≤ value.toList.length := by
      split
      · exact Nat.le_refl _
      · exact trim_length _
    rcases @substitute_altered (value.toList.length + 1) _ (by simp) (by simp) _ _ _ hback with hlong | ⟨-, hless⟩
    · omega
    · have hless' := hless href
      omega
  · rw [readBack, expand, substitute_of_no_reference _ href (Nat.le_refl _)] at hback
    rw [Option.some.inj hback] at href
    apply h
    refine ⟨href, ?_⟩
    by_cases hquoted : needsQuoting value.toList = true
    · exact .inl hquoted
    · rw [if_neg hquoted] at hback
      exact .inr (Option.some.inj hback)

theorem Secrets.lookup_sorted (secrets : Secrets) (key : String) : secrets.sorted.lookup key = secrets.entries.lookup key := by
  have hnodup : (secrets.sorted.map (·.1)).Nodup := (secrets.sorted_perm.map _).nodup_iff.mpr secrets.nodup
  apply Option.ext
  intro value
  rw [lookup_iff_mem hnodup, lookup_iff_mem secrets.nodup]
  exact secrets.sorted_perm.mem_iff

/-- Every reader gets the variables that were written exactly if all their values survive. -/
theorem dotenv_decodes_iff (secrets : Secrets) :
    (∀ environment, ∃ entries, readDotenv environment (buildDotenv secrets) = some entries ∧
      ∀ key, entries.lookup key = secrets.entries.lookup key) ↔ ∀ entry ∈ secrets.entries, Survives entry.2 := by
  have hnodup : (secrets.sorted.map (·.1)).Nodup := (secrets.sorted_perm.map _).nodup_iff.mpr secrets.nodup
  constructor
  · intro h entry hentry
    by_contra hsurvives
    have hmem := secrets.sorted_perm.mem_iff.mpr hentry
    obtain ⟨entries, hread, hsame⟩ := h fun _ => some (String.ofList (List.replicate (entry.2.toList.length + 1) 'x'))
    rw [readDotenv_buildDotenv] at hread
    obtain ⟨before, value, hvalue, hlookup⟩ := lookup_foldlM_put_of_mem hnodup hmem hread
    rw [hsame, lookup_of_mem secrets.nodup hentry] at hlookup
    cases hlookup
    obtain ⟨text, htext, hback⟩ := Option.map_eq_some_iff.mp hvalue
    rw [← String.toList_ofList (l := text), hback] at htext
    exact readBack_ne_of_not_survives before hsurvives htext
  · intro hsurvive environment
    have hback : ∀ held, ∀ entry ∈ secrets.sorted,
        (readBack environment held entry.2.toList).map String.ofList = some entry.2 := by
      intro held entry hmem
      rw [readBack_of_survives environment held (hsurvive entry (secrets.sorted_perm.mem_iff.mp hmem)), Option.map_some,
        String.ofList_toList]
    obtain ⟨entries, hentries⟩ := foldlM_put_of_read [] fun held entry hmem => ⟨_, hback held entry hmem⟩
    refine ⟨entries, (readDotenv_buildDotenv environment secrets).trans hentries, fun key => ?_⟩
    rw [← secrets.lookup_sorted]
    by_cases hkey : key ∈ secrets.sorted.map (·.1)
    · obtain ⟨entry, hmem, rfl⟩ := List.mem_map.mp hkey
      obtain ⟨before, value, hvalue, hlookup⟩ := lookup_foldlM_put_of_mem hnodup hmem hentries
      rw [hback before entry hmem] at hvalue
      cases hvalue
      rw [hlookup, lookup_of_mem hnodup hmem]
    · have hnone : secrets.sorted.lookup key = none := by
        rw [← Option.not_isSome_iff_eq_none, lookup_isSome_iff_mem]
        exact hkey
      rw [lookup_foldlM_put_of_notMem hkey hentries, hnone]
      rfl

def dollarSecrets : Secrets where
  entries := [("PASSWORD", "pa$word"), ("TOKEN", "\tabc")]
  nodup := by decide
  named := by decide

/-- An unquoted dollar is expanded, and a leading tab is trimmed. -/
theorem dollar_and_tab_lost :
    readDotenv (fun _ => none) (buildDotenv dollarSecrets) = some [("PASSWORD", "pa"), ("TOKEN", "abc")] := by
  decide +kernel

end Orchestrator.Dotenv
