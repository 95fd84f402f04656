import Orchestrator.Qa.Verdicts

/-!
When the reading of a QA verdict is faithful and fails closed.
-/

namespace Orchestrator.QaRunner

open Json

variable (limits : Limits) (raw : Text)

def Consistent (verdict : Entries) : Prop :=
  payloadProblem verdict = none ∧
    (passOf verdict = true → ∀ check ∈ checksOf verdict, ∀ entries, check = .object entries →
      isTrue (get? entries (text "pass")) = true)

def Obtained (verdict : Entries) : Prop :=
  ∃ document, verdictText limits raw = .ok document ∧ loads limits document = .ok (.object verdict)

/-- A result is returned: the message's own verdict where it is one, passed only on a consistent
verdict that passes, and blocked where no verdict is obtained. -/
def Faithful : Prop :=
  ∃ result, parseQaResult limits raw = .ok result ∧
    (∀ verdict, loads limits (strip raw) = .ok (.object verdict) → Consistent verdict →
      result.passed = passOf verdict ∧ result.checks = checksOf verdict ∧ result.summary = summaryOf verdict ∧
        result.blocker = none) ∧
    (result.passed = true → ∃ verdict, Obtained limits raw verdict ∧ Consistent verdict ∧ passOf verdict = true) ∧
    ((∀ verdict, Obtained limits raw verdict → payloadProblem verdict ≠ none) →
      result.passed = false ∧ result.blocker.isSome = true)

def HasTwoFences (document : Text) : Prop := ∃ before middle after, document = before ++ fence ++ middle ++ fence ++ after

structure Sound : Prop where
  loaded : ∀ e, loads limits (strip raw) = .error e → e = .decodeError
  unwraps : ∀ wrapper value, loads limits (strip raw) = .ok (.object wrapper) → isResultWrapper wrapper = true →
    get? wrapper (text "result") = some value → ∃ s, value = .text s
  decoded : ∀ document e, verdictText limits raw = .ok document → loads limits document = .error e → e = .decodeError
  consistent : ∀ verdict, Obtained limits raw verdict → payloadProblem verdict = none → Consistent verdict
  unfenced : ∀ verdict, loads limits (strip raw) = .ok (.object verdict) → Consistent verdict → ¬ HasTwoFences (strip raw)

variable {limits raw}

theorem optional_literal_split {word document rest : Text} (h : rest ∈ Regex.optional (Regex.literal word) document) :
    ∃ taken, document = taken ++ rest ∧ (taken = word ∨ taken = []) := by
  rcases Regex.mem_optional.mp h with htaken | rfl
  · exact ⟨word, Regex.mem_literal.mp htaken, Or.inl rfl⟩
  · exact ⟨[], rfl, Or.inr rfl⟩

theorem plain_append {first second : Text} (hfirst : Plain first) (hsecond : Plain second) : Plain (first ++ second) := by
  intro c hc
  rcases List.mem_append.mp hc with h | h
  · exact hfirst c h
  · exact hsecond c h

theorem plain_of_spaces {document : Text} (h : ∀ c ∈ document, isSpace c = true) : Plain document := by
  intro c hc
  have hspace := h c hc
  constructor
  all_goals
    rintro rfl
    revert hspace
    decide

theorem plain_taken {word taken : Text} (hword : Plain word) (h : taken = word ∨ taken = []) : Plain taken := by
  rcases h with rfl | rfl
  · exact hword
  · simp [Plain]

theorem mem_fencedGroups {document group : Text} (h : group ∈ fencedGroups document) :
    ∃ lead trail after, document = fence ++ lead ++ group ++ trail ++ fence ++ after ∧ Plain lead := by
  unfold fencedGroups at h
  simp only [List.bind_eq_flatMap, List.mem_flatMap, List.pure_def, List.mem_singleton] at h
  obtain ⟨r1, h1, r2, h2, r3, h3, r4, h4, split, h5, r6, h6, r7, h7, rfl⟩ := h
  obtain ⟨json, hjson, htag⟩ := optional_literal_split h2
  obtain ⟨spaces, hspaces, hall⟩ := Regex.greedy_taken h3
  obtain ⟨line, hline, hbreak⟩ := optional_literal_split h4
  obtain ⟨line', hline', -⟩ := optional_literal_split h6
  have hgroup : r4 = split.1 ++ split.2 := Regex.mem_lazily.mp h5
  refine ⟨json ++ spaces ++ line, line', r7, ?_, ?_⟩
  · rw [Regex.mem_literal.mp h1, hjson, hspaces, hline, hgroup, hline', Regex.mem_literal.mp h7]
    simp only [List.append_assoc]
  · apply plain_append
    · apply plain_append
      · exact plain_taken (by unfold Plain; decide) htag
      · exact plain_of_spaces hall
    · exact plain_taken (by unfold Plain; decide) hbreak

theorem fencedGroups_of_fences (middle after : Text) : fencedGroups (fence ++ middle ++ fence ++ after) ≠ [] := by
  apply List.ne_nil_of_mem (a := middle)
  unfold fencedGroups
  simp only [List.bind_eq_flatMap, List.mem_flatMap, List.pure_def, List.mem_singleton]
  refine ⟨middle ++ fence ++ after, ?_, middle ++ fence ++ after, ?_, middle ++ fence ++ after, ?_,
    middle ++ fence ++ after, ?_, (middle, fence ++ after), ?_, fence ++ after, ?_, after, ?_, rfl⟩
  · simp [Regex.mem_literal]
  · exact Regex.mem_optional.mpr (Or.inr rfl)
  · exact Regex.self_mem_greedy _ _
  · exact Regex.mem_optional.mpr (Or.inr rfl)
  · simp [Regex.mem_lazily]
  · exact Regex.mem_optional.mpr (Or.inr rfl)
  · exact Regex.mem_literal.mpr rfl

theorem fencedBlock_isSome_iff (document : Text) : (fencedBlock document).isSome = true ↔ HasTwoFences document := by
  constructor
  · intro h
    obtain ⟨group, hgroup⟩ := Option.isSome_iff_exists.mp h
    obtain ⟨before, rest, rfl, hmem⟩ := Regex.search_some hgroup
    obtain ⟨lead, trail, after, rfl, -⟩ := mem_fencedGroups hmem
    exact ⟨before, lead ++ group ++ trail, after, by simp only [List.append_assoc]⟩
  · rintro ⟨before, middle, after, rfl⟩
    rw [Option.isSome_iff_ne_none]
    intro hnone
    have hsplit : before ++ fence ++ middle ++ fence ++ after = before ++ (fence ++ middle ++ fence ++ after) := by
      simp only [List.append_assoc]
    unfold fencedBlock at hnone
    rw [hsplit] at hnone
    exact fencedGroups_of_fences middle after (Regex.search_none hnone)

theorem strip_split (document : Text) :
    ∃ lead trail, document = lead ++ strip document ++ trail ∧ Plain lead := by
  have hlead := List.takeWhile_append_dropWhile (p := isSpace) (l := document)
  have htrail := List.takeWhile_append_dropWhile (p := isSpace) (l := (document.dropWhile isSpace).reverse)
  refine ⟨document.takeWhile isSpace, ((document.dropWhile isSpace).reverse.takeWhile isSpace).reverse, ?_, ?_⟩
  · unfold strip
    rw [List.append_assoc, ← List.reverse_append, htrail, List.reverse_reverse, hlead]
  · apply plain_of_spaces
    intro c hc
    exact List.mem_takeWhile_imp hc

variable {value : Value}

theorem walk_fence {document before after : Text} (h : loads limits document = .ok value)
    (hsplit : document = before ++ fence ++ after) : walk .outside (before ++ fence) = some .inside := by
  have hwalk : walk .outside document = some .outside := walk_of_tokens 0 (readTokens_good h)
  rw [hsplit, walk_append, walk_append] at hwalk
  obtain ⟨place, hplace, -⟩ := Option.bind_eq_some_iff.mp hwalk
  rw [walk_append, hplace]
  obtain ⟨start, hstart, hfence⟩ := Option.bind_eq_some_iff.mp hplace
  cases start with
  | outside =>
    rw [show walk .outside fence = none from rfl] at hfence
    cases hfence
  | inside =>
    rw [show walk .inside fence = some .inside from rfl] at hfence
    exact hfence.symm
  | escaped =>
    rw [show walk .escaped fence = some .inside from rfl] at hfence
    exact hfence.symm

theorem get?_mem {entries : Entries} {key : Text} (h : get? entries key = some value) :
    ∃ entry ∈ entries, entry.1 = key := by
  unfold get? at h
  obtain ⟨entry, hfind, -⟩ := Option.map_eq_some_iff.mp h
  exact ⟨entry, List.mem_of_find?_eq_some hfind, by simpa using List.find?_some hfind⟩

variable {verdict : Entries}

theorem payload_fields (h : payloadProblem verdict = none) :
    hasFields verdict requiredFields = true ∧ onlyFields verdict allowedFields = true := by
  unfold payloadProblem at h
  split at h
  · cases h
  · rename_i hfields
    simpa using hfields

theorem pass_of_payload (h : payloadProblem verdict = none) :
    (get? verdict (text "pass")).isSome = true := by
  have hfields := (payload_fields h).1
  unfold hasFields at hfields
  exact List.all_eq_true.mp hfields _ (by simp [requiredFields])

theorem not_wrapper_of_payload (h : payloadProblem verdict = none) : isResultWrapper verdict = false := by
  have honly := (payload_fields h).2
  unfold isResultWrapper
  cases htype : get? verdict (text "type") with
  | none => rfl
  | some value =>
    obtain ⟨entry, hentry, hkey⟩ := get?_mem htype
    have hallowed := List.all_eq_true.mp honly entry hentry
    rw [hkey] at hallowed
    exact absurd hallowed (by decide)

theorem block_of_document {document group : Text} {entries : Entries}
    (houter : loads limits document = .ok value) (hblock : fencedBlock document = some group)
    (hinner : loads limits (strip group) = .ok (.object entries)) : payloadProblem entries ≠ none := by
  obtain ⟨before, rest, hdocument, hmem⟩ := Regex.search_some hblock
  obtain ⟨lead, trail, after, hrest, hlead⟩ := mem_fencedGroups hmem
  obtain ⟨spaces, spaces', hgroup, hspaces⟩ := strip_split group
  have hwhole : document = before ++ fence ++ (lead ++ group ++ trail ++ fence ++ after) := by
    rw [hdocument, hrest]
    simp only [List.append_assoc]
  have hfence := walk_fence houter hwhole
  have hinside : walk .outside (before ++ fence ++ (lead ++ spaces)) = some .inside := by
    rw [walk_append, hfence]
    exact walk_inside_plain (plain_append hlead hspaces)
  have hsplit : document = before ++ fence ++ (lead ++ spaces) ++ strip group ++ (spaces' ++ trail ++ fence ++ after) := by
    rw [hwhole]
    nth_rewrite 1 [hgroup]
    simp only [List.append_assoc]
  have hkeys := keys_structural_of_inside houter hsplit hinside hinner
  intro hproblem
  obtain ⟨passed, hpass⟩ := Option.isSome_iff_exists.mp (pass_of_payload hproblem)
  obtain ⟨entry, hentry, hkey⟩ := get?_mem hpass
  have hp : isStructural 0x70 = true := hkeys entry hentry 0x70 (by rw [hkey]; decide)
  exact absurd hp (by decide)

theorem readVerdict_cases (limits : Limits) (raw document : Text) :
    (∃ e, loads limits document = .error e ∧ e ≠ .decodeError ∧ readVerdict limits raw document = .error (.loads e)) ∨
    (∃ verdict, loads limits document = .ok (.object verdict) ∧ payloadProblem verdict = none ∧
      readVerdict limits raw document = .ok ⟨passOf verdict, checksOf verdict, summaryOf verdict, raw, none⟩) ∨
    ((∀ verdict, loads limits document = .ok (.object verdict) → payloadProblem verdict ≠ none) ∧
      (∀ e, loads limits document = .error e → e = .decodeError) ∧
      ∃ summary attempted, readVerdict limits raw document = .ok (blocked raw summary attempted (raw.take 2000))) := by
  unfold readVerdict
  cases hloads : loads limits document with
  | error e =>
    cases e with
    | decodeError => exact Or.inr (Or.inr ⟨nofun, fun e he => by cases he; rfl, _, _, rfl⟩)
    | valueError => exact Or.inl ⟨.valueError, rfl, nofun, rfl⟩
    | recursionError => exact Or.inl ⟨.recursionError, rfl, nofun, rfl⟩
  | ok value =>
    cases value with
    | object verdict =>
      cases hproblem : payloadProblem verdict with
      | none => exact Or.inr (Or.inl ⟨verdict, rfl, hproblem, by simp only [hproblem]⟩)
      | some reason =>
        refine Or.inr (Or.inr ⟨?_, nofun, _, _, by simp only [hproblem]; rfl⟩)
        intro other hother
        cases hother
        rw [hproblem]
        nofun
    | _ => exact Or.inr (Or.inr ⟨nofun, nofun, _, _, rfl⟩)

variable {message : Text}

theorem unwrapped_raises {e : LoadsError} (h : loads limits message = .error e) (he : e ≠ .decodeError) :
    unwrapped limits message = .error (.loads e) := by
  unfold unwrapped
  rw [h]
  cases e with
  | decodeError => exact absurd rfl he
  | _ => rfl

theorem unwrapped_wrapper {wrapper : Entries} (h : loads limits message = .ok (.object wrapper))
    (hwrapper : isResultWrapper wrapper = true) :
    unwrapped limits message = .ok ((get? wrapper (text "result")).getD (.text [])) := by
  unfold unwrapped
  rw [h]
  simp only [hwrapper, if_true]

theorem unwrapped_plain (hloads : ∀ e, loads limits message = .error e → e = .decodeError)
    (hplain : ∀ wrapper, loads limits message = .ok (.object wrapper) → isResultWrapper wrapper = false) :
    unwrapped limits message = .ok (.text message) := by
  unfold unwrapped
  cases h : loads limits message with
  | error e =>
    rw [hloads e h]
  | ok value =>
    cases value with
    | object wrapper => simp only [hplain wrapper h, Bool.false_eq_true, if_false]
    | _ => rfl

theorem parseQaResult_of_document {document : Text} (hraw : strip raw ≠ []) (h : verdictText limits raw = .ok document) :
    parseQaResult limits raw = readVerdict limits raw document := by
  unfold parseQaResult
  rw [if_neg (by simpa using hraw), h]
  rfl

theorem parseQaResult_raises {e : Raised} (hraw : strip raw ≠ []) (h : verdictText limits raw = .error e) :
    parseQaResult limits raw = .error e := by
  unfold parseQaResult
  rw [if_neg (by simpa using hraw), h]
  rfl

theorem verdictText_of_text (h : unwrapped limits (strip raw) = .ok (.text message)) :
    verdictText limits raw = .ok (((fencedBlock message).map strip).getD message) := by
  unfold verdictText
  rw [h]
  rfl

theorem verdictText_of_other (h : unwrapped limits (strip raw) = .ok value)
    (hother : ∀ s, value ≠ .text s) : verdictText limits raw = .error .typeError := by
  unfold verdictText
  rw [h]
  cases value with
  | text s => exact absurd rfl (hother s)
  | _ => rfl

theorem verdictText_raises {e : Raised} (h : unwrapped limits (strip raw) = .error e) :
    verdictText limits raw = .error e := by
  unfold verdictText
  rw [h]
  rfl

theorem verdictText_of_own (h : loads limits (strip raw) = .ok (.object verdict))
    (hproblem : payloadProblem verdict = none) :
    verdictText limits raw = .ok (((fencedBlock (strip raw)).map strip).getD (strip raw)) := by
  apply verdictText_of_text
  apply unwrapped_plain
  · intro e he
    rw [h] at he
    cases he
  · intro wrapper hwrapper
    rw [h] at hwrapper
    cases hwrapper
    exact not_wrapper_of_payload hproblem

theorem document_of_sound (h : Sound limits raw) : ∃ document, verdictText limits raw = .ok document := by
  by_cases hwrapped : ∃ wrapper, loads limits (strip raw) = .ok (.object wrapper) ∧ isResultWrapper wrapper = true
  · obtain ⟨wrapper, hloads, hwrapper⟩ := hwrapped
    have hunwrapped := unwrapped_wrapper hloads hwrapper
    cases hresult : get? wrapper (text "result") with
    | none =>
      rw [hresult] at hunwrapped
      exact ⟨_, verdictText_of_text hunwrapped⟩
    | some value =>
      obtain ⟨s, rfl⟩ := h.unwraps wrapper value hloads hwrapper hresult
      rw [hresult] at hunwrapped
      exact ⟨_, verdictText_of_text hunwrapped⟩
  · push Not at hwrapped
    have hplain := unwrapped_plain h.loaded fun wrapper hw => by simpa using hwrapped wrapper hw
    exact ⟨_, verdictText_of_text hplain⟩

theorem own_document (h : Sound limits raw) {own : Entries} (hown : loads limits (strip raw) = .ok (.object own))
    (hconsistent : Consistent own) : verdictText limits raw = .ok (strip raw) := by
  have hblock : fencedBlock (strip raw) = none := by
    have hfences := h.unfenced own hown hconsistent
    rw [← fencedBlock_isSome_iff] at hfences
    simpa using hfences
  rw [verdictText_of_own hown hconsistent.1, hblock, Option.map_none, Option.getD_none]

theorem obtained_unique {first second : Entries} (hfirst : Obtained limits raw first)
    (hsecond : Obtained limits raw second) : first = second := by
  obtain ⟨document, hdocument, hloads⟩ := hfirst
  obtain ⟨other, hother, hloads'⟩ := hsecond
  rw [hdocument] at hother
  cases hother
  rw [hloads] at hloads'
  cases hloads'
  rfl

theorem faithful_of_sound (hraw : strip raw ≠ []) (h : Sound limits raw) : Faithful limits raw := by
  obtain ⟨document, hdocument⟩ := document_of_sound h
  have hparse := parseQaResult_of_document hraw hdocument
  rcases readVerdict_cases limits raw document with ⟨e, hloads, he, -⟩ | ⟨verdict, hloads, hproblem, hread⟩ |
    ⟨hnone, -, summary, attempted, hread⟩
  · exact absurd (h.decoded document e hdocument hloads) he
  · have hobtained : Obtained limits raw verdict := ⟨document, hdocument, hloads⟩
    refine ⟨_, hparse.trans hread, ?_, ?_, ?_⟩
    · intro own hown hconsistent
      have hsame := own_document h hown hconsistent
      rw [hdocument] at hsame
      cases hsame
      rw [hown] at hloads
      cases hloads
      exact ⟨rfl, rfl, rfl, rfl⟩
    · intro hpassed
      exact ⟨verdict, hobtained, h.consistent verdict hobtained hproblem, hpassed⟩
    · intro hnone
      exact absurd hproblem (hnone verdict hobtained)
  · have hnothing : ∀ verdict, Obtained limits raw verdict → payloadProblem verdict ≠ none := by
      rintro verdict ⟨other, hother, hloads⟩
      rw [hdocument] at hother
      cases hother
      exact hnone verdict hloads
    refine ⟨_, hparse.trans hread, ?_, by rintro ⟨⟩, fun _ => ⟨rfl, rfl⟩⟩
    intro own hown hconsistent
    exact absurd hconsistent.1 (hnothing own ⟨_, own_document h hown hconsistent, hown⟩)

theorem sound_of_faithful (hraw : strip raw ≠ []) (h : Faithful limits raw) : Sound limits raw := by
  obtain ⟨result, hresult, hown, hpassed, hclosed⟩ := h
  have hreturns : ∀ e, parseQaResult limits raw ≠ .error e := by
    intro e he
    rw [hresult] at he
    cases he
  have hread : ∀ document, verdictText limits raw = .ok document → readVerdict limits raw document = .ok result := by
    intro document hdocument
    rw [← parseQaResult_of_document hraw hdocument]
    exact hresult
  constructor
  · intro e hloads
    by_contra he
    exact hreturns _ (parseQaResult_raises hraw (verdictText_raises (unwrapped_raises hloads he)))
  · intro wrapper value hloads hwrapper hvalue
    by_contra hother
    push Not at hother
    have hunwrapped := unwrapped_wrapper hloads hwrapper
    rw [hvalue] at hunwrapped
    exact hreturns _ (parseQaResult_raises hraw (verdictText_of_other hunwrapped hother))
  · intro document e hdocument hloads
    have hok := hread document hdocument
    rcases readVerdict_cases limits raw document with ⟨e', -, -, herror⟩ | ⟨verdict, hverdict, -⟩ | ⟨-, hdecode, -⟩
    · rw [herror] at hok
      cases hok
    · rw [hloads] at hverdict
      cases hverdict
    · exact hdecode e hloads
  · intro verdict hobtained hproblem
    refine ⟨hproblem, fun hpass => ?_⟩
    obtain ⟨document, hdocument, hverdict⟩ := hobtained
    have hok := hread document hdocument
    unfold readVerdict at hok
    simp only [hverdict, hproblem] at hok
    cases hok
    obtain ⟨found, hfound, hconsistent, -⟩ := hpassed hpass
    rw [obtained_unique hfound ⟨document, hdocument, hverdict⟩] at hconsistent
    exact hconsistent.2 hpass
  · intro verdict hverdict hconsistent hfences
    obtain ⟨group, hgroup⟩ := Option.isSome_iff_exists.mp ((fencedBlock_isSome_iff _).mpr hfences)
    have hdocument := verdictText_of_own hverdict hconsistent.1
    rw [hgroup, Option.map_some, Option.getD_some] at hdocument
    have hok := hread (strip group) hdocument
    rcases readVerdict_cases limits raw (strip group) with ⟨e, -, -, herror⟩ | ⟨found, hfound, hproblem, -⟩ |
      ⟨-, -, summary, attempted, hblocked⟩
    · rw [herror] at hok
      cases hok
    · exact block_of_document hverdict hgroup hfound hproblem
    · rw [hblocked] at hok
      cases hok
      cases (hown verdict hverdict hconsistent).2.2.2

theorem faithful_of_blank (hraw : strip raw = []) : Faithful limits raw := by
  have hparse : parseQaResult limits raw =
      .ok (blocked raw (text "QA produced no output") (text "parse QA agent result") (text "empty output")) := by
    unfold parseQaResult
    rw [hraw]
    rfl
  refine ⟨_, hparse, ?_, nofun, fun _ => ⟨rfl, rfl⟩⟩
  intro verdict hverdict
  rw [hraw] at hverdict
  cases hverdict

/-- Reading a verdict is faithful and fails closed on a blank message, and on a sound one. -/
theorem parse_faithful_iff (limits : Limits) (raw : Text) : Faithful limits raw ↔ strip raw = [] ∨ Sound limits raw := by
  constructor
  · intro h
    by_cases hraw : strip raw = []
    · exact Or.inl hraw
    · exact Or.inr (sound_of_faithful hraw h)
  · rintro (hraw | hsound)
    · exact faithful_of_blank hraw
    · by_cases hraw : strip raw = []
      · exact faithful_of_blank hraw
      · exact faithful_of_sound hraw hsound

/-- A verdict whose summary quotes a fenced command is blocked. -/
theorem quoted_fences_blocked :
    ¬ Faithful ⟨1000, 4300⟩
      (text "\x7b\"pass\": true, \"checks\": [], \"summary\": \"Ran ```curl /health``` and got 200\"\x7d") := by
  intro h
  have hsound := sound_of_faithful (by decide +kernel) h
  apply hsound.unfenced [(text "pass", .bool true), (text "checks", .list []),
    (text "summary", .text (text "Ran ```curl /health``` and got 200"))]
  · rfl
  · refine ⟨rfl, fun _ check hcheck => ?_⟩
    cases hcheck
  · exact (fencedBlock_isSome_iff _).mp (by decide +kernel)

end Orchestrator.QaRunner
