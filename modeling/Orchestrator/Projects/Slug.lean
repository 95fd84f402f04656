import Mathlib.Data.List.DropRight
import Orchestrator.Python.Json

/-!
The slugs of projects. A slug has the words of the title, as many as fit, and the
project's UUID.
-/

namespace Orchestrator.ProjectSlug

open Json (Text text)

variable {bad : Nat → Bool} {t s rest : Text}

def isLetter (c : Nat) : Bool := 0x61 ≤ c && c ≤ 0x7a

def isSlugChar (c : Nat) : Bool := isLetter c || (0x30 ≤ c && c ≤ 0x39)

def dash : Nat := 0x2d

/-- `title.lower()` up to the characters that are no slug characters either way: beyond ASCII, only
the Kelvin sign and a dotted capital I have an ASCII letter in lower case. -/
def lower (title : Text) : Text := title.flatMap fun c =>
  if 0x41 ≤ c && c ≤ 0x5a then [c + 0x20]
  else if c = 0x212a then [0x6b]
  else if c = 0x130 then [0x69, 0x307]
  else [c]

def subRuns (bad : Nat → Bool) : Bool → Text → Text
  | _, [] => []
  | true, c :: rest => if bad c then subRuns bad true rest else c :: subRuns bad false rest
  | false, c :: rest => if bad c then dash :: subRuns bad true rest else c :: subRuns bad false rest

def stripDashes (slug : Text) : Text := (slug.dropWhile (· = dash)).rdropWhile (· = dash)

def slugifyProjectTitle (title : Text) : Text :=
  stripDashes (subRuns (· = dash) false (subRuns (fun c => !isSlugChar c) false (lower title)))

abbrev UUID := Fin (2 ^ 128)

def hexChar (d : Nat) : Nat := if d < 10 then 0x30 + d else 0x61 + (d - 10)

def hexDigits : Nat → Nat → Text
  | 0, _ => []
  | k + 1, n => hexDigits k (n / 16) ++ [hexChar (n % 16)]

def UUID.hex (id : UUID) : Text := hexDigits 32 id.val

def matchesPattern : Text → Bool
  | [] => false
  | c :: rest => isLetter c && rest.all fun c => isSlugChar c || c = dash

def maxLength : Nat := 40

def generateProjectSlug (title : Text) (id : UUID) : Except Unit Text :=
  let suffix := id.hex
  let base := slugifyProjectTitle title
  let lead := if (base.head?.any isLetter) then [] else text "p"
  let reserved := suffix.length + 1 + (if lead.isEmpty then 0 else lead.length + (if base.isEmpty then 0 else 1))
  let base := stripDashes (base.take (maxLength - reserved))
  let slug :=
    if !lead.isEmpty && !base.isEmpty then lead ++ [dash] ++ base ++ [dash] ++ suffix
    else if !lead.isEmpty then lead ++ [dash] ++ suffix
    else base ++ [dash] ++ suffix
  if matchesPattern slug then .ok slug else .error ()

def removeSuffix (slug suffix : Text) : Text :=
  if suffix.isSuffixOf slug then slug.take (slug.length - suffix.length) else slug

def projectSlugPrefix (titlePrefix : Text) : Except Unit Text :=
  (generateProjectSlug titlePrefix 0).map fun slug => removeSuffix slug (UUID.hex 0)

/-! ## Titles as words -/

def words : Text → List Text
  | [] => []
  | c :: rest =>
    if isSlugChar c then
      match words rest with
      | [] => [[c]]
      | word :: more => if rest.head?.any isSlugChar then (c :: word) :: more else [c] :: word :: more
    else words rest

def joined : List Text → Text
  | [] => []
  | [word] => word
  | word :: more => word ++ dash :: joined more

variable {ws : List Text}

theorem joined_cons (word : Text) (h : ws ≠ []) : joined (word :: ws) = word ++ dash :: joined ws := by
  obtain ⟨first, more, rfl⟩ := List.exists_cons_of_ne_nil h
  rfl

theorem joined_append {ws us : List Text} (hws : ws ≠ []) (hus : us ≠ []) :
    joined (ws ++ us) = joined ws ++ dash :: joined us := by
  induction ws with
  | nil => exact absurd rfl hws
  | cons word more ih =>
    by_cases hmore : more = []
    · subst hmore
      exact joined_cons word hus
    · have happend : more ++ us ≠ [] := by simp [hmore]
      rw [List.cons_append, joined_cons word happend, joined_cons word hmore, ih hmore]
      simp

theorem words_of_head (h : t.head?.any isSlugChar = true) : words t ≠ [] := by
  cases t with
  | nil => cases h
  | cons c rest =>
    have hc : isSlugChar c = true := by simpa using h
    unfold words
    rw [if_pos hc]
    split
    · simp
    · split <;> simp

theorem words_good {w : Text} (h : w ∈ words t) : w ≠ [] ∧ ∀ c ∈ w, isSlugChar c = true := by
  induction t generalizing w with
  | nil => cases h
  | cons c rest ih =>
    unfold words at h
    split at h
    · rename_i hc
      split at h
      · rw [List.mem_singleton.mp h]
        simp [hc]
      · rename_i word more hrest
        rw [hrest] at ih
        split at h
        · rcases List.mem_cons.mp h with rfl | hlater
          · have hword := (ih List.mem_cons_self).2
            exact ⟨by simp, List.forall_mem_cons.mpr ⟨hc, hword⟩⟩
          · exact ih (List.mem_cons_of_mem _ hlater)
        · rcases List.mem_cons.mp h with rfl | hlater
          · simp [hc]
          · exact ih hlater
    · exact ih h

theorem words_append (s t : Text) : words (s ++ dash :: t) = words s ++ words t := by
  have hdash : isSlugChar dash = false := rfl
  induction s with
  | nil => simp [words, hdash]
  | cons c rest ih =>
    rw [List.cons_append, words, words, ih]
    by_cases hc : isSlugChar c = true
    · rw [if_pos hc, if_pos hc]
      cases hrest : words rest with
      | nil =>
        have hhead : (rest ++ dash :: t).head?.any isSlugChar = false := by
          cases rest with
          | nil => simp [hdash]
          | cons d more =>
            by_contra hd
            exact words_of_head (by simpa using hd) hrest
        rw [List.nil_append, hhead]
        cases words t <;> simp
      | cons word more =>
        have hhead : (rest ++ dash :: t).head? = rest.head? := by
          cases rest with
          | nil => cases hrest
          | cons d more => rfl
        rw [List.cons_append, hhead]
        split <;> rename_i heq
        · cases heq
        · cases heq
          split <;> simp
    · rw [if_neg hc, if_neg hc]

theorem subRuns_split (bad : Nat → Bool) (t : Text) :
    ∃ front, subRuns bad false t = front ++ subRuns bad true t ∧ (front = [] ∨ front = [dash]) := by
  cases t with
  | nil => exact ⟨[], rfl, Or.inl rfl⟩
  | cons c rest =>
    unfold subRuns
    by_cases hc : bad c = true
    · rw [if_pos hc, if_pos hc]
      exact ⟨[dash], rfl, Or.inr rfl⟩
    · rw [if_neg hc, if_neg hc]
      exact ⟨[], rfl, Or.inl rfl⟩

theorem subRuns_words (t : Text) :
    ∃ back, subRuns (fun c => !isSlugChar c) true t = joined (words t) ++ back ∧ (back = [] ∨ back = [dash]) ∧
      (words t = [] → back = []) := by
  induction t with
  | nil => exact ⟨[], rfl, Or.inl rfl, fun _ => rfl⟩
  | cons c rest ih =>
    obtain ⟨back, hback, hdash, hnone⟩ := ih
    unfold subRuns words
    by_cases hc : isSlugChar c = true
    · rw [if_pos hc, if_neg (by simp [hc])]
      by_cases hhead : rest.head?.any isSlugChar = true
      · obtain ⟨word, more, hwords⟩ := List.exists_cons_of_ne_nil (words_of_head hhead)
        have hsame : subRuns (fun c => !isSlugChar c) false rest = subRuns (fun c => !isSlugChar c) true rest := by
          cases rest with
          | nil => rfl
          | cons d more =>
            have hd : isSlugChar d = true := by simpa using hhead
            simp [subRuns, hd]
        refine ⟨back, ?_, hdash, ?_⟩
        · rw [hsame, hback, hwords]
          simp only [hhead, if_true]
          cases more <;> simp [joined]
        · rw [hwords]
          simp [hhead]
      · cases rest with
        | nil => exact ⟨[], rfl, Or.inl rfl, fun _ => rfl⟩
        | cons d more =>
          have hd : isSlugChar d = false := by simpa using hhead
          have hsplit : subRuns (fun c => !isSlugChar c) false (d :: more) =
              dash :: subRuns (fun c => !isSlugChar c) true (d :: more) := by
            simp [subRuns, hd]
          rw [hsplit, hback]
          cases hwords : words (d :: more) with
          | nil =>
            rw [hnone hwords]
            exact ⟨[dash], rfl, Or.inr rfl, by simp⟩
          | cons word later =>
            refine ⟨back, ?_, hdash, by simp [hd]⟩
            simp [hd, joined]
    · rw [if_neg hc, if_pos (by simp [hc])]
      exact ⟨back, hback, hdash, hnone⟩

def Spaced (t : Text) : Prop := List.IsChain (fun a b => ¬ (a = dash ∧ b = dash)) t

theorem spaced_subRuns {bad : Nat → Bool} (hbad : ∀ c, bad c = false → c ≠ dash) (running : Bool) (t : Text) :
    Spaced (subRuns bad running t) ∧ (running = true → (subRuns bad running t).head? ≠ some dash) := by
  induction t generalizing running with
  | nil => cases running <;> simp [subRuns, Spaced]
  | cons c rest ih =>
    by_cases hc : bad c = true
    · obtain ⟨hspaced, hhead⟩ := ih true
      cases running with
      | true =>
        simp only [subRuns, hc, if_true]
        exact ⟨hspaced, fun _ => hhead rfl⟩
      | false =>
        simp only [subRuns, hc, if_true]
        refine ⟨List.isChain_cons.mpr ⟨?_, hspaced⟩, nofun⟩
        rintro d hd ⟨-, rfl⟩
        exact hhead rfl hd
    · have hne : c ≠ dash := hbad c (by simpa using hc)
      have hspaced : Spaced (c :: subRuns bad false rest) := by
        refine List.isChain_cons.mpr ⟨?_, (ih false).1⟩
        rintro d - ⟨hdash, -⟩
        exact hne hdash
      cases running <;> simp only [subRuns, hc, Bool.false_eq_true, if_false] <;>
        exact ⟨hspaced, fun _ h => hne (by simpa using h)⟩

theorem subRuns_spaced {t : Text} (h : Spaced t) :
    subRuns (· = dash) false t = t ∧ (t.head? ≠ some dash → subRuns (· = dash) true t = t) := by
  induction t with
  | nil => exact ⟨rfl, fun _ => rfl⟩
  | cons c rest ih =>
    obtain ⟨hhead, hrest⟩ := List.isChain_cons.mp h
    obtain ⟨hfalse, htrue⟩ := ih hrest
    by_cases hc : c = dash
    · subst hc
      have hnext : rest.head? ≠ some dash := fun heq => hhead dash heq ⟨rfl, rfl⟩
      refine ⟨?_, fun hne => absurd rfl hne⟩
      simp only [subRuns, decide_true, if_true, htrue hnext]
    · have hsame : ∀ running, subRuns (· = dash) running (c :: rest) = c :: subRuns (· = dash) false rest := by
        intro running
        cases running <;> simp [subRuns, hc]
      rw [hsame, hsame, hfalse]
      exact ⟨rfl, fun _ => rfl⟩

def Trimmed (t : Text) : Prop := t.head? ≠ some dash ∧ t.getLast? ≠ some dash

theorem rdropWhile_dashes {t back : Text} (hback : ∀ c ∈ back, c = dash) (hlast : t.getLast? ≠ some dash) :
    (t ++ back).rdropWhile (· = dash) = t := by
  have hdashes : ∀ c ∈ back.reverse, decide (c = dash) = true := by
    intro c hc
    exact decide_eq_true (hback c (List.mem_reverse.mp hc))
  have hdrop : (t ++ back).rdropWhile (· = dash) = t.rdropWhile (· = dash) := by
    unfold List.rdropWhile
    rw [List.reverse_append, List.dropWhile_append_of_pos hdashes]
  rw [hdrop, List.rdropWhile_eq_self_iff]
  intro hne heq
  exact hlast (by rw [List.getLast?_eq_some_getLast hne, of_decide_eq_true heq])

theorem stripDashes_of_head {t : Text} (h : t.head? ≠ some dash) : stripDashes t = t.rdropWhile (· = dash) := by
  unfold stripDashes
  cases t with
  | nil => rfl
  | cons c rest =>
    have hc : c ≠ dash := fun heq => h (by rw [heq]; rfl)
    rw [List.dropWhile_cons_of_neg (by simpa using hc)]

theorem stripDashes_edges {front t back : Text} (h : Trimmed t) (hfront : ∀ c ∈ front, c = dash) (hback : ∀ c ∈ back, c = dash) :
    stripDashes (front ++ t ++ back) = t := by
  have hdrop : stripDashes (front ++ t ++ back) = stripDashes (t ++ back) := by
    unfold stripDashes
    rw [List.append_assoc, List.dropWhile_append_of_pos (by simpa using hfront)]
  rw [hdrop]
  cases t with
  | nil =>
    unfold stripDashes
    rw [List.nil_append, List.dropWhile_eq_nil_iff.mpr (by simpa using hback), List.rdropWhile_nil]
  | cons c rest =>
    have hhead : (c :: rest ++ back).head? ≠ some dash := h.1
    rw [stripDashes_of_head hhead]
    exact rdropWhile_dashes hback h.2

variable {c : Nat}

theorem ne_dash_of_slugChar (h : isSlugChar c = true) : c ≠ dash := by
  rintro rfl
  cases h

theorem joined_ends (hws : ws ≠ []) (hgood : ∀ w ∈ ws, w ≠ [] ∧ ∀ c ∈ w, isSlugChar c = true) :
    (∃ c, (joined ws).head? = some c ∧ isSlugChar c = true) ∧ ∃ c, (joined ws).getLast? = some c ∧ isSlugChar c = true := by
  induction ws with
  | nil => exact absurd rfl hws
  | cons word more ih =>
    obtain ⟨⟨hword, hchars⟩, hmore⟩ := List.forall_mem_cons.mp hgood
    have hfirst : ∃ c, word.head? = some c ∧ isSlugChar c = true := by
      obtain ⟨c, rest, rfl⟩ := List.exists_cons_of_ne_nil hword
      exact ⟨c, rfl, hchars c List.mem_cons_self⟩
    by_cases hnone : more = []
    · subst hnone
      exact ⟨hfirst, _, List.getLast?_eq_some_getLast hword, hchars _ (List.getLast_mem hword)⟩
    · obtain ⟨c, hc, hslug⟩ := hfirst
      obtain ⟨d, hd, hlast⟩ := (ih hnone hmore).2
      have hjoined : joined more ≠ [] := by
        intro hnil
        rw [hnil] at hd
        cases hd
      rw [joined_cons word hnone]
      refine ⟨⟨c, by rw [List.head?_append, hc]; rfl, hslug⟩, d, ?_, hlast⟩
      rw [List.getLast?_append, List.getLast?_cons_of_ne_nil hjoined, hd]
      rfl

theorem joined_trimmed (hgood : ∀ w ∈ ws, w ≠ [] ∧ ∀ c ∈ w, isSlugChar c = true) : Trimmed (joined ws) := by
  by_cases hws : ws = []
  · subst hws
    exact ⟨nofun, nofun⟩
  · obtain ⟨⟨c, hc, hfirst⟩, d, hd, hlast⟩ := joined_ends hws hgood
    constructor
    · rw [hc]
      exact fun heq => ne_dash_of_slugChar hfirst (Option.some.inj heq)
    · rw [hd]
      exact fun heq => ne_dash_of_slugChar hlast (Option.some.inj heq)

theorem mem_joined (hgood : ∀ w ∈ ws, w ≠ [] ∧ ∀ c ∈ w, isSlugChar c = true) (hc : c ∈ joined ws) :
    isSlugChar c = true ∨ c = dash := by
  induction ws with
  | nil => cases hc
  | cons word more ih =>
    obtain ⟨⟨-, hchars⟩, hmore⟩ := List.forall_mem_cons.mp hgood
    by_cases hnone : more = []
    · subst hnone
      exact Or.inl (hchars c hc)
    · rw [joined_cons word hnone, List.mem_append, List.mem_cons] at hc
      rcases hc with hword | hdash | hlater
      · exact Or.inl (hchars c hword)
      · exact Or.inr hdash
      · exact ih hmore hlater

theorem slugify_eq_joined (title : Text) : slugifyProjectTitle title = joined (words (lower title)) := by
  have hbad : ∀ c, (fun c => !isSlugChar c) c = false → c ≠ dash := by
    intro c hc
    exact ne_dash_of_slugChar (by simpa using hc)
  obtain ⟨front, hfront, hlead⟩ := subRuns_split (fun c => !isSlugChar c) (lower title)
  obtain ⟨back, hback, htrail, -⟩ := subRuns_words (lower title)
  unfold slugifyProjectTitle
  rw [(subRuns_spaced (spaced_subRuns hbad false (lower title)).1).1, hfront, hback, ← List.append_assoc]
  apply stripDashes_edges (joined_trimmed fun w hw => words_good hw)
  · rcases hlead with rfl | rfl <;> simp
  · rcases htrail with rfl | rfl <;> simp

theorem lower_append (s t : Text) : lower (s ++ t) = lower s ++ lower t := List.flatMap_append

theorem slugify_append {title rest : Text} (h : slugifyProjectTitle title ≠ []) :
    ∃ more, slugifyProjectTitle (title ++ dash :: rest) = slugifyProjectTitle title ++ more ∧
      (more = [] ∨ ∃ later, more = dash :: later ∧ later ≠ [] ∧ later.head? ≠ some dash) := by
  have hdash : lower (title ++ dash :: rest) = lower title ++ dash :: lower rest := lower_append title (dash :: rest)
  rw [slugify_eq_joined] at h
  rw [slugify_eq_joined, slugify_eq_joined, hdash, words_append]
  have hwords : words (lower title) ≠ [] := by
    intro hnil
    rw [hnil] at h
    exact h rfl
  by_cases hrest : words (lower rest) = []
  · exact ⟨[], by simp [hrest], Or.inl rfl⟩
  · refine ⟨dash :: joined (words (lower rest)), joined_append hwords hrest, Or.inr ⟨_, rfl, ?_, ?_⟩⟩
    · obtain ⟨⟨c, hc, -⟩, -⟩ := joined_ends hrest fun w hw => words_good hw
      intro hnil
      rw [hnil] at hc
      cases hc
    · exact (joined_trimmed fun w hw => words_good hw).1

theorem hexDigits_length (k n : Nat) : (hexDigits k n).length = k := by
  induction k generalizing n with
  | zero => rfl
  | succ k ih => simp [hexDigits, ih]

theorem hexChar_injective {a b : Nat} (ha : a < 16) (hb : b < 16) (h : hexChar a = hexChar b) : a = b := by
  unfold hexChar at h
  split at h <;> split at h <;> omega

theorem hexChar_slug {d : Nat} (hd : d < 16) : isSlugChar (hexChar d) = true := by
  unfold isSlugChar isLetter hexChar
  split <;> simp <;> omega

theorem hexDigits_injective {k a b : Nat} (ha : a < 16 ^ k) (hb : b < 16 ^ k) (h : hexDigits k a = hexDigits k b) : a = b := by
  induction k generalizing a b with
  | zero => omega
  | succ k ih =>
    have hlength : (hexDigits k (a / 16)).length = (hexDigits k (b / 16)).length := by rw [hexDigits_length, hexDigits_length]
    obtain ⟨hhigh, hlow⟩ := List.append_inj h hlength
    have hdiv : a / 16 = b / 16 := ih (by rw [Nat.pow_succ] at ha; omega) (by rw [Nat.pow_succ] at hb; omega) hhigh
    have hmod : a % 16 = b % 16 :=
      hexChar_injective (Nat.mod_lt _ (by omega)) (Nat.mod_lt _ (by omega)) (List.cons.inj hlow).1
    omega

theorem hexDigits_slug (k n : Nat) : ∀ c ∈ hexDigits k n, isSlugChar c = true := by
  induction k generalizing n with
  | zero => nofun
  | succ k ih =>
    intro c hc
    rcases List.mem_append.mp hc with hhigh | hlow
    · exact ih _ c hhigh
    · rw [List.mem_singleton.mp hlow]
      exact hexChar_slug (Nat.mod_lt _ (by omega))

theorem UUID.hex_length (id : UUID) : id.hex.length = 32 := hexDigits_length 32 id.val

theorem UUID.hex_injective {id other : UUID} (h : id.hex = other.hex) : id = other := by
  apply Fin.ext
  exact hexDigits_injective id.isLt other.isLt h

/-- What precedes the UUID in a slug: a `p` where the base does not begin with a letter, and as much of
the base as fits. -/
def front (base : Text) : Text :=
  if base.head?.any isLetter then stripDashes (base.take 7) ++ [dash]
  else if base.isEmpty then text "p-"
  else text "p-" ++ stripDashes (base.take 5) ++ [dash]

theorem stripDashes_length (t : Text) : (stripDashes t).length ≤ t.length := by
  unfold stripDashes
  have hback := (List.rdropWhile_prefix (· = dash) (t.dropWhile (· = dash))).length_le
  have hfront := (List.dropWhile_suffix (l := t) (· = dash)).length_le
  omega

theorem mem_stripDashes {t : Text} (hc : c ∈ stripDashes t) : c ∈ t := by
  have hback := (List.rdropWhile_prefix (· = dash) (t.dropWhile (· = dash))).subset hc
  exact (List.dropWhile_suffix (l := t) (· = dash)).subset hback

theorem rdropWhile_keeps {s t : Text} (h : s.getLast? ≠ some dash) : s <+: (s ++ t).rdropWhile (· = dash) := by
  induction t using List.reverseRecOn with
  | nil =>
    have hsame : (s ++ []).rdropWhile (· = dash) = s := rdropWhile_dashes (by simp) h
    rw [hsame]
  | append_singleton t c ih =>
    rw [← List.append_assoc, List.rdropWhile_concat]
    split
    · exact ih
    · rw [List.append_assoc]
      exact List.prefix_append _ _

theorem cut_head {base : Text} {n : Nat} (hc : base.head? = some c) (hdash : c ≠ dash) :
    (stripDashes (base.take (n + 1))).head? = some c := by
  cases base with
  | nil => cases hc
  | cons d rest =>
    cases hc
    rw [List.take_succ_cons, stripDashes_of_head fun heq => hdash (by simpa using heq)]
    have hkept : [c] <+: ([c] ++ rest.take n).rdropWhile (· = dash) := rdropWhile_keeps (by simpa using hdash)
    rw [List.singleton_append] at hkept
    obtain ⟨more, hmore⟩ := hkept
    rw [← hmore]
    rfl

variable {title : Text}

theorem slugify_chars (hc : c ∈ slugifyProjectTitle title) : isSlugChar c = true ∨ c = dash := by
  rw [slugify_eq_joined] at hc
  exact mem_joined (fun w hw => words_good hw) hc

theorem slugify_head (h : slugifyProjectTitle title ≠ []) :
    ∃ c, (slugifyProjectTitle title).head? = some c ∧ isSlugChar c = true := by
  rw [slugify_eq_joined] at h ⊢
  refine (joined_ends ?_ fun w hw => words_good hw).1
  intro hnil
  rw [hnil] at h
  exact h rfl

theorem slugify_trimmed (title : Text) : Trimmed (slugifyProjectTitle title) := by
  rw [slugify_eq_joined]
  exact joined_trimmed fun w hw => words_good hw

theorem cut_ne_nil (h : slugifyProjectTitle title ≠ []) (n : Nat) :
    stripDashes ((slugifyProjectTitle title).take (n + 1)) ≠ [] := by
  obtain ⟨c, hc, hslug⟩ := slugify_head h
  intro hnil
  have hhead := cut_head (n := n) hc (ne_dash_of_slugChar hslug)
  rw [hnil] at hhead
  cases hhead

theorem front_chars (hc : c ∈ front (slugifyProjectTitle title)) : isSlugChar c = true ∨ c = dash := by
  have hcut : ∀ n, c ∈ stripDashes ((slugifyProjectTitle title).take n) → isSlugChar c = true ∨ c = dash := by
    intro n hmem
    exact slugify_chars (List.take_subset _ _ (mem_stripDashes hmem))
  have hp : c ∈ text "p-" → isSlugChar c = true ∨ c = dash := by
    intro hmem
    rcases List.mem_cons.mp hmem with rfl | hmem
    · exact Or.inl rfl
    · exact Or.inr (List.mem_singleton.mp hmem)
  unfold front at hc
  split at hc
  · rcases List.mem_append.mp hc with hmem | hmem
    · exact hcut 7 hmem
    · exact Or.inr (List.mem_singleton.mp hmem)
  · split at hc
    · exact hp hc
    · rw [List.append_assoc, List.mem_append, List.mem_append] at hc
      rcases hc with hmem | hmem | hmem
      · exact hp hmem
      · exact hcut 5 hmem
      · exact Or.inr (List.mem_singleton.mp hmem)

theorem front_head (title : Text) : ∃ c rest, front (slugifyProjectTitle title) = c :: rest ∧ isLetter c = true := by
  unfold front
  split
  · rename_i hletter
    obtain ⟨c, hc, hl⟩ := Option.any_eq_true _ _ |>.mp hletter
    have hslug : isSlugChar c = true := by simp [isSlugChar, hl]
    obtain ⟨rest, hrest⟩ := List.head?_eq_some_iff.mp (cut_head (n := 6) hc (ne_dash_of_slugChar hslug))
    exact ⟨c, rest ++ [dash], by rw [hrest]; rfl, hl⟩
  · split
    · exact ⟨0x70, [dash], rfl, rfl⟩
    · exact ⟨0x70, dash :: (stripDashes ((slugifyProjectTitle title).take 5) ++ [dash]), rfl, rfl⟩

theorem front_length (base : Text) : (front base).length ≤ 8 := by
  have h7 := stripDashes_length (base.take 7)
  have h5 := stripDashes_length (base.take 5)
  rw [List.length_take] at h7 h5
  unfold front
  split
  · rw [List.length_append, List.length_singleton]
    omega
  · split
    · decide
    · rw [List.length_append, List.length_append, List.length_singleton, show (text "p-").length = 2 from rfl]
      omega

theorem slug_matches (title : Text) (id : UUID) : matchesPattern (front (slugifyProjectTitle title) ++ id.hex) = true := by
  obtain ⟨c, rest, hfront, hletter⟩ := front_head title
  have hall : ∀ d ∈ front (slugifyProjectTitle title) ++ id.hex, isSlugChar d = true ∨ d = dash := by
    intro d hd
    rcases List.mem_append.mp hd with hmem | hmem
    · exact front_chars hmem
    · exact Or.inl (hexDigits_slug 32 id.val d hmem)
  rw [hfront] at hall ⊢
  simp only [List.cons_append, matchesPattern, hletter, Bool.true_and, List.all_eq_true, Bool.or_eq_true, decide_eq_true_eq]
  intro d hd
  exact hall d (List.mem_cons_of_mem _ hd)

theorem generate_eq (title : Text) (id : UUID) :
    generateProjectSlug title id = .ok (front (slugifyProjectTitle title) ++ id.hex) := by
  have hslug : ∀ slug, slug = front (slugifyProjectTitle title) ++ id.hex →
      (if matchesPattern slug then Except.ok slug else Except.error ()) =
        (.ok (front (slugifyProjectTitle title) ++ id.hex) : Except Unit Text) := by
    rintro slug rfl
    rw [if_pos (slug_matches title id)]
  unfold generateProjectSlug
  apply hslug
  unfold front
  by_cases hletter : (slugifyProjectTitle title).head?.any isLetter = true
  · simp [hletter, UUID.hex_length, maxLength]
  · by_cases hbase : slugifyProjectTitle title = []
    · simp [hbase, UUID.hex_length, stripDashes, text]
      rfl
    · have hcut := cut_ne_nil hbase 4
      simp [hletter, hbase, UUID.hex_length, maxLength, text, hcut]
      rfl

theorem slug_length (title : Text) (id : UUID) : (front (slugifyProjectTitle title) ++ id.hex).length ≤ 40 := by
  have h := front_length (slugifyProjectTitle title)
  rw [List.length_append, UUID.hex_length]
  omega

theorem slug_injective {title title' : Text} {id id' : UUID}
    (h : front (slugifyProjectTitle title) ++ id.hex = front (slugifyProjectTitle title') ++ id'.hex) : id = id' := by
  apply UUID.hex_injective
  exact (List.append_inj' h (by rw [UUID.hex_length, UUID.hex_length])).2

theorem prefix_eq (title : Text) : projectSlugPrefix title = .ok (front (slugifyProjectTitle title)) := by
  unfold projectSlugPrefix removeSuffix
  rw [generate_eq]
  have hsuffix : (UUID.hex 0).isSuffixOf (front (slugifyProjectTitle title) ++ UUID.hex 0) = true :=
    List.isSuffixOf_iff_suffix.mpr (List.suffix_append _ _)
  simp [Except.map, hsuffix]

theorem cut_append {base more : Text} {n : Nat} (hne : base ≠ []) (hbase : Trimmed base)
    (hmore : more = [] ∨ ∃ later, more = dash :: later ∧ later ≠ [] ∧ later.head? ≠ some dash) :
    stripDashes (base.take n) ++ [dash] <+: stripDashes ((base ++ more).take n) ++ [dash] := by
  by_cases hcut : n ≤ base.length
  · rw [List.take_append_of_le_length hcut]
  · have hshort : base.take n = base := List.take_of_length_le (by omega)
    have hwhole : ∀ back, (∀ c ∈ back, c = dash) → stripDashes (base ++ back) = base := by
      intro back hback
      have hnone : ∀ c ∈ ([] : Text), c = dash := nofun
      exact stripDashes_edges hbase hnone hback
    rcases hmore with rfl | ⟨later, rfl, hlater, hhead⟩
    · rw [List.append_nil]
    · obtain ⟨k, hk⟩ : ∃ k, n = base.length + (k + 1) := ⟨n - base.length - 1, by omega⟩
      have htake : (base ++ dash :: later).take n = base ++ dash :: later.take k := by
        rw [hk, List.take_length_add_append, List.take_succ_cons]
      have hshorter : stripDashes base = base := by simpa using hwhole [] (by simp)
      rw [hshort, hshorter, htake]
      by_cases hnone : later.take k = []
      · rw [hnone, hwhole [dash] (by simp)]
      · have hfirst : (base ++ dash :: later.take k).head? ≠ some dash := by
          obtain ⟨c, rest, rfl⟩ := List.exists_cons_of_ne_nil hne
          exact hbase.1
        obtain ⟨d, rest, hlater'⟩ := List.exists_cons_of_ne_nil hnone
        have hd : d ≠ dash := by
          rintro rfl
          cases later with
          | nil => exact hlater rfl
          | cons e tail =>
            cases k with
            | zero => exact hnone rfl
            | succ k =>
              cases hlater'
              exact hhead rfl
        have hkept : base ++ [dash, d] <+: (base ++ [dash, d] ++ rest).rdropWhile (· = dash) :=
          rdropWhile_keeps (by simpa using hd)
        have hwhole' : base ++ dash :: later.take k = base ++ [dash, d] ++ rest := by
          rw [hlater']
          simp
        rw [stripDashes_of_head hfirst, hwhole']
        have hstart : base ++ [dash] <+: base ++ [dash, d] := (List.prefix_append_right_inj base).mpr (by simp)
        exact (hstart.trans hkept).trans (List.prefix_append _ _)

theorem front_append {title rest : Text} (h : slugifyProjectTitle title ≠ []) :
    front (slugifyProjectTitle title) <+: front (slugifyProjectTitle (title ++ dash :: rest)) := by
  obtain ⟨more, hsplit, hmore⟩ := @slugify_append title rest h
  have htrimmed := slugify_trimmed title
  rw [hsplit]
  generalize slugifyProjectTitle title = base at h htrimmed
  have hhead : (base ++ more).head? = base.head? := by
    obtain ⟨c, tail, rfl⟩ := List.exists_cons_of_ne_nil h
    rfl
  have hbase : base.isEmpty = false := by simpa using h
  have hwhole : (base ++ more).isEmpty = false := by simp [h]
  unfold front
  rw [hhead, hbase, hwhole]
  split
  · exact cut_append h htrimmed hmore
  · rw [if_neg (by simp), if_neg (by simp), List.append_assoc, List.append_assoc]
    exact (List.prefix_append_right_inj _).mpr (cut_append h htrimmed hmore)

/-- Slugs match the pattern and fit, belong to one project each, and begin with what the sweepers look for. -/
theorem project_slugs (title : Text) (id : UUID) :
    (∃ slug, generateProjectSlug title id = .ok slug ∧ matchesPattern slug = true ∧ slug.length ≤ 40) ∧
    (∀ title' id', id ≠ id' → generateProjectSlug title id ≠ generateProjectSlug title' id') ∧
    ∀ rest, slugifyProjectTitle title ≠ [] →
      ∃ slug start, generateProjectSlug (title ++ dash :: rest) id = .ok slug ∧ projectSlugPrefix title = .ok start ∧
        start <+: slug := by
  refine ⟨⟨_, generate_eq title id, slug_matches title id, slug_length title id⟩, fun title' id' hne heq => ?_, fun rest h => ?_⟩
  · rw [generate_eq, generate_eq] at heq
    exact hne (slug_injective (Except.ok.inj heq))
  · refine ⟨_, _, generate_eq _ id, prefix_eq title, ?_⟩
    exact (front_append h).trans (List.prefix_append _ _)

theorem live_test_slugs :
    (∃ slug start, generateProjectSlug (text "live-test" ++ dash :: text "abc") 7 = .ok slug ∧
      projectSlugPrefix (text "live-test") = .ok start ∧ start <+: slug) ∧
    generateProjectSlug (text "live-test") 7 ≠ generateProjectSlug (text "live") 8 :=
  ⟨(project_slugs (text "live-test") 7).2.2 (text "abc") (by decide +kernel),
    (project_slugs (text "live-test") 7).2.1 (text "live") 8 (by decide)⟩

end Orchestrator.ProjectSlug
