import Orchestrator.Keyed
import Orchestrator.Projects.Config

/-!
Where a bot token may hide in a configuration that was accepted.
-/

namespace Orchestrator.Projects

open Python

mutual

def leaves : Value → List String
  | .text s => [s]
  | .list items => leavesOfItems items
  | .mapping entries => leavesOfEntries entries
  | _ => []

def leavesOfItems : List Value → List String
  | [] => []
  | item :: rest => leaves item ++ leavesOfItems rest

def leavesOfEntries : Mapping → List String
  | [] => []
  | (_, value) :: rest => leaves value ++ leavesOfEntries rest

end

mutual

def names : Value → List String
  | .list items => namesOfItems items
  | .mapping entries => namesOfEntries entries
  | _ => []

def namesOfItems : List Value → List String
  | [] => []
  | item :: rest => names item ++ namesOfItems rest

def namesOfEntries : Mapping → List String
  | [] => []
  | (key, value) :: rest => key :: names value ++ namesOfEntries rest

end

def KeysPlain (v : Value) : Prop := ∀ key ∈ names v, looksLikeBotToken key = false

structure TokenFree (v : Value) : Prop where
  leaves : ∀ s ∈ leaves v, looksLikeBotToken s = false
  keys : KeysPlain v
  unnamed : telegramTokenKey ∉ names v

def HintsFree : Value → Prop
  | .mapping hints => ∀ hint ∈ hints, looksLikeBotToken hint.1 = false ∧ TokenFree hint.2
  | v => TokenFree v

def HidesNoToken (config : Mapping) : Prop :=
  ∀ key, hasKey config key = true → key ≠ "secrets" → looksLikeBotToken key = false ∧
    if key = "env_hints" then HintsFree (valueAt config key)
    else key ≠ telegramTokenKey ∧ TokenFree (valueAt config key)

def HintsPlain : Value → Prop
  | .mapping hints => ∀ hint ∈ hints, looksLikeBotToken hint.1 = false ∧ KeysPlain hint.2
  | v => TokenFree v

def otherOverrides : Value → Value
  | .mapping entries => .mapping (entries.eraseP fun entry => botAllowedIdsKey == entry.1)
  | v => v

/-- What the scan does not look at: the keys of dictionaries, hints that are no dictionary,
and what is stored already. -/
structure Unhidden (stored config : Mapping) : Prop where
  keys : ∀ key, hasKey config key = true → key ∉ ["secrets", "env_hints", "bot_access", "env_overrides"] →
    looksLikeBotToken key = false ∧ KeysPlain (valueAt config key)
  hints : HintsPlain (valueAt config "env_hints")
  overrides : KeysPlain (otherOverrides (valueAt config "env_overrides"))
  access : TokenFree (valueAt stored "bot_access")
  audience : TokenFree (storedAudience stored)
  agentType : (valueAt config "agent_type").isNone = true → TokenFree (valueAt stored "agent_type")

section Trees

variable {s key path : String} {entries entries' : Mapping} {items : List Value} {v value : Value}

theorem mem_leavesOfEntries : s ∈ leavesOfEntries entries ↔ ∃ entry ∈ entries, s ∈ leaves entry.2 := by
  induction entries with
  | nil => simp [leavesOfEntries]
  | cons entry rest ih => simp [leavesOfEntries, ih]

theorem mem_namesOfEntries : s ∈ namesOfEntries entries ↔ ∃ entry ∈ entries, s = entry.1 ∨ s ∈ names entry.2 := by
  induction entries with
  | nil => simp [namesOfEntries]
  | cons entry rest ih => simp [namesOfEntries, ih, or_assoc]

def Scanned (v : Value) : Prop := (∀ s ∈ leaves v, looksLikeBotToken s = false) ∧ telegramTokenKey ∉ names v

theorem tokenFree_iff : TokenFree v ↔ Scanned v ∧ KeysPlain v :=
  ⟨fun h => ⟨⟨h.leaves, h.unnamed⟩, h.keys⟩, fun h => ⟨h.1.1, h.2, h.1.2⟩⟩

theorem Scanned.free_iff (h : Scanned v) : TokenFree v ↔ KeysPlain v := by
  rw [tokenFree_iff]
  exact and_iff_right h

mutual

theorem findBotTokenMaterial_none : (v : Value) → (path : String) → (findBotTokenMaterial v path = none ↔ Scanned v)
  | .mapping entries, path => by
    rw [findBotTokenMaterial, findInEntries_none entries path]
    rfl
  | .list items, path => by
    rw [findBotTokenMaterial, findInItems_none items 0 path]
    rfl
  | .text s, path => by simp [findBotTokenMaterial, Scanned, leaves, names]
  | .none, _ => by simp [findBotTokenMaterial, Scanned, leaves, names]
  | .bool _, _ => by simp [findBotTokenMaterial, Scanned, leaves, names]
  | .int _, _ => by simp [findBotTokenMaterial, Scanned, leaves, names]
  | .float _, _ => by simp [findBotTokenMaterial, Scanned, leaves, names]

theorem findInEntries_none : (entries : Mapping) → (path : String) → (findInEntries entries path = none ↔
    (∀ s ∈ leavesOfEntries entries, looksLikeBotToken s = false) ∧ telegramTokenKey ∉ namesOfEntries entries)
  | [], _ => by simp [findInEntries, leavesOfEntries, namesOfEntries]
  | (key, value) :: rest, path => by
    have hvalue := findBotTokenMaterial_none value s!"{path}.{key}"
    have hrest := findInEntries_none rest path
    unfold findInEntries
    by_cases hkey : key = telegramTokenKey
    · simp [hkey, namesOfEntries]
    · rw [if_neg hkey]
      cases hfound : findBotTokenMaterial value s!"{path}.{key}" with
      | some found =>
        have hunscanned : ¬ Scanned value := fun h => by
          rw [hvalue.mpr h] at hfound
          cases hfound
        simp only [reduceCtorEq, false_iff]
        rintro ⟨hleaves, hnames⟩
        apply hunscanned
        constructor
        · exact fun s hs => hleaves s (List.mem_append_left _ hs)
        · exact fun hname => hnames (List.mem_append_left _ (List.mem_cons_of_mem _ hname))
      | none =>
        have hscanned : Scanned value := hvalue.mp hfound
        simp only [hrest, leavesOfEntries, namesOfEntries, List.mem_append, List.mem_cons, not_or, or_imp, forall_and]
        constructor
        · rintro ⟨hleaves, hnames⟩
          exact ⟨⟨hscanned.1, hleaves⟩, ⟨Ne.symm hkey, hscanned.2⟩, hnames⟩
        · rintro ⟨⟨-, hleaves⟩, -, hnames⟩
          exact ⟨hleaves, hnames⟩

theorem findInItems_none : (items : List Value) → (index : Nat) → (path : String) → (findInItems items index path = none ↔
    (∀ s ∈ leavesOfItems items, looksLikeBotToken s = false) ∧ telegramTokenKey ∉ namesOfItems items)
  | [], _, _ => by simp [findInItems, leavesOfItems, namesOfItems]
  | item :: rest, index, path => by
    have hitem := findBotTokenMaterial_none item s!"{path}[{index}]"
    have hrest := findInItems_none rest (index + 1) path
    unfold findInItems
    cases hfound : findBotTokenMaterial item s!"{path}[{index}]" with
    | some found =>
      have hunscanned : ¬ Scanned item := fun h => by
        rw [hitem.mpr h] at hfound
        cases hfound
      simp only [reduceCtorEq, false_iff]
      rintro ⟨hleaves, hnames⟩
      apply hunscanned
      constructor
      · exact fun s hs => hleaves s (List.mem_append_left _ hs)
      · exact fun hname => hnames (List.mem_append_left _ hname)
    | none =>
      have hscanned : Scanned item := hitem.mp hfound
      simp only [hrest, leavesOfItems, namesOfItems, List.mem_append, not_or, or_imp, forall_and]
      constructor
      · rintro ⟨hleaves, hnames⟩
        exact ⟨⟨hscanned.1, hleaves⟩, hscanned.2, hnames⟩
      · rintro ⟨⟨-, hleaves⟩, -, hnames⟩
        exact ⟨hleaves, hnames⟩

end

theorem mem_leavesOfItems : s ∈ leavesOfItems items ↔ ∃ item ∈ items, s ∈ leaves item := by
  induction items with
  | nil => simp [leavesOfItems]
  | cons item rest ih => simp [leavesOfItems, ih]

theorem mem_namesOfItems : s ∈ namesOfItems items ↔ ∃ item ∈ items, s ∈ names item := by
  induction items with
  | nil => simp [namesOfItems]
  | cons item rest ih => simp [namesOfItems, ih]

theorem scanned_none : Scanned .none := by simp [Scanned, leaves, names]

theorem keysPlain_none : KeysPlain .none := by simp [KeysPlain, names]

theorem scanned_of_lookup (h : findInEntries entries path = none) (hvalue : entries.lookup key = some value) :
    key ≠ telegramTokenKey ∧ Scanned value := by
  obtain ⟨hleaves, hnames⟩ := (findInEntries_none entries path).mp h
  have hmem := mem_of_lookup hvalue
  refine ⟨?_, ?_, ?_⟩
  · rintro rfl
    exact hnames (mem_namesOfEntries.mpr ⟨_, hmem, Or.inl rfl⟩)
  · exact fun s hs => hleaves s (mem_leavesOfEntries.mpr ⟨_, hmem, hs⟩)
  · exact fun hname => hnames (mem_namesOfEntries.mpr ⟨_, hmem, Or.inr hname⟩)

theorem scanned_of_subset (h : Scanned (.mapping entries)) (hsubset : entries' ⊆ entries) : Scanned (.mapping entries') := by
  constructor
  · intro s hs
    obtain ⟨entry, hentry, hs⟩ := mem_leavesOfEntries.mp hs
    exact h.1 s (mem_leavesOfEntries.mpr ⟨entry, hsubset hentry, hs⟩)
  · intro hname
    obtain ⟨entry, hentry, hname⟩ := mem_namesOfEntries.mp hname
    exact h.2 (mem_namesOfEntries.mpr ⟨entry, hsubset hentry, hname⟩)

theorem mem_setKey (entries : Mapping) (key : String) (value : Value) (entry : String × Value) :
    entry ∈ setKey entries key value ↔ entry = (key, value) ∨ entry ∈ entries.eraseP fun old => key == old.1 := by
  induction entries with
  | nil => simp [setKey]
  | cons old rest ih =>
    obtain ⟨k, v⟩ := old
    by_cases hk : key = k
    · subst hk
      simp [setKey]
    · have hne : (key == k) = false := by simpa using hk
      simp only [setKey, hne, Bool.false_eq_true, if_false, List.eraseP_cons, cond_false, List.mem_cons, ih]
      exact or_left_comm

theorem tokenFree_entries : TokenFree (.mapping entries) ↔
    ∀ entry ∈ entries, looksLikeBotToken entry.1 = false ∧ entry.1 ≠ telegramTokenKey ∧ TokenFree entry.2 := by
  constructor
  · intro h entry hentry
    refine ⟨?_, ?_, ?_, ?_, ?_⟩
    · exact h.keys entry.1 (mem_namesOfEntries.mpr ⟨entry, hentry, Or.inl rfl⟩)
    · exact fun hname => h.unnamed (mem_namesOfEntries.mpr ⟨entry, hentry, Or.inl hname.symm⟩)
    · exact fun s hs => h.leaves s (mem_leavesOfEntries.mpr ⟨entry, hentry, hs⟩)
    · exact fun key hkey => h.keys key (mem_namesOfEntries.mpr ⟨entry, hentry, Or.inr hkey⟩)
    · exact fun hname => h.unnamed (mem_namesOfEntries.mpr ⟨entry, hentry, Or.inr hname⟩)
  · intro h
    refine ⟨?_, ?_, ?_⟩
    · intro s hs
      obtain ⟨entry, hentry, hs⟩ := mem_leavesOfEntries.mp hs
      exact (h entry hentry).2.2.leaves s hs
    · intro key hkey
      obtain ⟨entry, hentry, rfl | hkey⟩ := mem_namesOfEntries.mp hkey
      · exact (h entry hentry).1
      · exact (h entry hentry).2.2.keys key hkey
    · intro hname
      obtain ⟨entry, hentry, hname | hname⟩ := mem_namesOfEntries.mp hname
      · exact (h entry hentry).2.1 hname.symm
      · exact (h entry hentry).2.2.unnamed hname

end Trees

section Vetting

variable {config vetted : Mapping} {project : Option ProjectRow} {key : String}

theorem vet_scanned (h : vetConfigWrite config project = .ok vetted) : tokenMaterial config = none := by
  unfold vetConfigWrite at h
  obtain ⟨_, _, h⟩ := bind_eq_ok.mp h
  obtain ⟨_, hscan, h⟩ := bind_eq_ok.mp h
  simpa using refuseIf_ok.mp hscan

variable (key) in
theorem scanned_at (h : tokenMaterial config = none) (hsecrets : key ≠ "secrets") (hhints : key ≠ "env_hints") :
    Scanned (valueAt config key) ∧ (hasKey config key = true → key ≠ telegramTokenKey) := by
  have hfound : findInEntries (popKey (popKey config "secrets") "env_hints") "config" = none := by
    unfold tokenMaterial at h
    cases hfound : findInEntries (popKey (popKey config "secrets") "env_hints") "config" with
    | none => rfl
    | some found => simp [hfound] at h
  have hkept : (popKey (popKey config "secrets") "env_hints").lookup key = config.lookup key := by
    rw [lookup_popKey_of_ne _ hhints, lookup_popKey_of_ne _ hsecrets]
  cases hlookup : config.lookup key with
  | none =>
    constructor
    · simpa [valueAt, hlookup] using scanned_none
    · simp [hasKey, hlookup]
  | some value =>
    obtain ⟨hkey, hscanned⟩ := scanned_of_lookup hfound (hkept.trans hlookup)
    constructor
    · simpa [valueAt, hlookup] using hscanned
    · exact fun _ => hkey

theorem hints_scanned {hints : Mapping} (h : tokenMaterial config = none) (hhints : valueAt config "env_hints" = .mapping hints) :
    ∀ hint ∈ hints, Scanned hint.2 := by
  have hfound : findInItems (hints.map (·.2)) 0 "config.env_hints" = none := by
    unfold tokenMaterial at h
    split at h
    · cases h
    · simpa [hhints] using h
  obtain ⟨hleaves, hnames⟩ := (findInItems_none _ _ _).mp hfound
  intro hint hmem
  have hitem : hint.2 ∈ hints.map (·.2) := List.mem_map_of_mem hmem
  constructor
  · exact fun s hs => hleaves s (mem_leavesOfItems.mpr ⟨_, hitem, hs⟩)
  · exact fun hname => hnames (mem_namesOfItems.mpr ⟨_, hitem, hname⟩)

theorem hints_free_iff (h : tokenMaterial config = none) :
    HintsFree (valueAt config "env_hints") ↔ HintsPlain (valueAt config "env_hints") := by
  cases hhints : valueAt config "env_hints" with
  | mapping hints =>
    have hscanned := hints_scanned h hhints
    simp only [HintsFree, HintsPlain]
    constructor
    · exact fun hfree hint hmem => ⟨(hfree hint hmem).1, (hfree hint hmem).2.keys⟩
    · exact fun hplain hint hmem => ⟨(hplain hint hmem).1, (hscanned hint hmem).free_iff.mpr (hplain hint hmem).2⟩
  | _ => rfl

theorem vet_envOverrides (h : vetConfigWrite config project = .ok vetted) :
    ((storedAudience (storedConfig project)).isNone = true ∧ valueAt vetted "env_overrides" = valueAt config "env_overrides" ∧
        otherOverrides (valueAt config "env_overrides") = valueAt config "env_overrides") ∨
      ∃ entries, incomingOverrides config = .mapping entries ∧
        valueAt vetted "env_overrides" = .mapping (setKey entries botAllowedIdsKey (storedAudience (storedConfig project))) := by
  obtain ⟨accessed, haudience, -, hothers⟩ := vet_steps h
  have hkept : accessed.lookup "env_overrides" = config.lookup "env_overrides" := by
    rw [hothers _ (by decide), kept_lookup config project (by decide) (by decide)]
  unfold vetAudience at haudience
  split at haudience
  · rename_i hstored
    left
    have hsame : accessed = vetted := by
      split at haudience
      · split at haudience
        · cases haudience
        · exact Except.ok.inj haudience
      · exact Except.ok.inj haudience
    refine ⟨hstored, by rw [← hsame, valueAt_congr hkept], ?_⟩
    cases hoverrides : valueAt config "env_overrides" with
    | mapping entries =>
      have hincoming : incomingOverrides config = .mapping entries := by
        unfold valueAt at hoverrides
        unfold incomingOverrides
        cases hlookup : config.lookup "env_overrides" with
        | none => simp [hlookup] at hoverrides
        | some value => simpa [hlookup] using hoverrides
      simp only [hincoming] at haudience
      split at haudience
      · cases haudience
      · rename_i habsent
        have hnone : entries.lookup botAllowedIdsKey = none := Option.not_isSome_iff_eq_none.mp habsent
        simp only [otherOverrides, Value.mapping.injEq]
        apply List.eraseP_of_forall_not
        intro entry hentry
        simpa using List.lookup_eq_none_iff.mp hnone entry hentry
    | _ => rfl
  · right
    split at haudience
    · rename_i entries hincoming
      dsimp only at haudience
      split at haudience
      · cases haudience
      · obtain rfl := Except.ok.inj haudience
        exact ⟨entries, hincoming, valueAt_setKey_self ..⟩
    · cases haudience

theorem otherOverrides_scanned (h : tokenMaterial config = none) : Scanned (otherOverrides (valueAt config "env_overrides")) := by
  have hscanned := (scanned_at "env_overrides" h (by decide) (by decide)).1
  cases hoverrides : valueAt config "env_overrides" with
  | mapping entries =>
    rw [hoverrides] at hscanned
    exact scanned_of_subset hscanned List.eraseP_subset
  | _ =>
    rw [hoverrides] at hscanned
    exact hscanned

theorem overrides_free_iff (h : vetConfigWrite config project = .ok vetted) :
    TokenFree (valueAt vetted "env_overrides") ↔
      KeysPlain (otherOverrides (valueAt config "env_overrides")) ∧ TokenFree (storedAudience (storedConfig project)) := by
  have hscanned := otherOverrides_scanned (vet_scanned h)
  rcases vet_envOverrides h with ⟨hstored, hvetted, hothers⟩ | ⟨entries, hincoming, hvetted⟩
  · have hnone : TokenFree (storedAudience (storedConfig project)) := by
      rw [Value.eq_none_of_isNone hstored]
      exact scanned_none.free_iff.mpr keysPlain_none
    rw [hvetted]
    rw [hothers] at hscanned ⊢
    exact hscanned.free_iff.trans (and_iff_left hnone).symm
  · have hother : otherOverrides (valueAt config "env_overrides") =
        .mapping (entries.eraseP fun entry => botAllowedIdsKey == entry.1) ∨
        (otherOverrides (valueAt config "env_overrides") = .none ∧ entries = []) := by
      unfold incomingOverrides at hincoming
      unfold valueAt
      cases hlookup : config.lookup "env_overrides" with
      | none =>
        rw [hlookup] at hincoming
        exact Or.inr ⟨rfl, (Value.mapping.inj hincoming).symm⟩
      | some value =>
        rw [hlookup] at hincoming
        left
        obtain rfl : value = .mapping entries := hincoming
        rfl
    have hentries : TokenFree (.mapping (entries.eraseP fun entry => botAllowedIdsKey == entry.1)) ↔
        KeysPlain (otherOverrides (valueAt config "env_overrides")) := by
      rcases hother with hother | ⟨hother, rfl⟩
      · rw [← hother]
        exact hscanned.free_iff
      · rw [hother]
        simp [tokenFree_entries, keysPlain_none]
    have hkey : looksLikeBotToken botAllowedIdsKey = false ∧ botAllowedIdsKey ≠ telegramTokenKey := by decide +kernel
    rw [hvetted, ← hentries, tokenFree_entries, tokenFree_entries]
    constructor
    · intro h
      constructor
      · exact fun entry hentry => h entry ((mem_setKey ..).mpr (Or.inr hentry))
      · exact (h _ ((mem_setKey ..).mpr (Or.inl rfl))).2.2
    · rintro ⟨hothers, haudience⟩ entry hentry
      rcases (mem_setKey ..).mp hentry with rfl | hentry
      · exact ⟨hkey.1, hkey.2, haudience⟩
      · exact hothers entry hentry

theorem agentType_free_iff (h : vetConfigWrite config project = .ok vetted) :
    TokenFree (valueAt vetted "agent_type") ↔ KeysPlain (valueAt config "agent_type") ∧
      ((valueAt config "agent_type").isNone = true → TokenFree (valueAt (storedConfig project) "agent_type")) := by
  rw [(vet_preserves h).1.agentType]
  have hscanned := (scanned_at "agent_type" (vet_scanned h) (by decide) (by decide)).1
  by_cases hnone : (valueAt config "agent_type").isNone = true
  · rw [if_pos hnone, Value.eq_none_of_isNone hnone]
    simp [keysPlain_none, Value.isNone]
  · rw [if_neg hnone, hscanned.free_iff]
    simp [hnone]

theorem HidesNoToken.free (h : HidesNoToken config) (hsecrets : key ≠ "secrets") (hhints : key ≠ "env_hints") :
    TokenFree (valueAt config key) := by
  cases hkey : hasKey config key with
  | true =>
    have hentry := (h key hkey hsecrets).2
    rw [if_neg hhints] at hentry
    exact hentry.2
  | false =>
    have hnone : config.lookup key = none := by simpa [hasKey] using hkey
    have hvalue : valueAt config key = .none := by simp [valueAt, hnone]
    rw [hvalue]
    exact scanned_none.free_iff.mpr keysPlain_none

theorem HidesNoToken.hints (h : HidesNoToken config) : HintsFree (valueAt config "env_hints") := by
  cases hkey : hasKey config "env_hints" with
  | true => exact (h "env_hints" hkey (by decide)).2
  | false =>
    have hnone : config.lookup "env_hints" = none := by simpa [hasKey] using hkey
    have hvalue : valueAt config "env_hints" = .none := by simp [valueAt, hnone]
    rw [hvalue]
    exact scanned_none.free_iff.mpr keysPlain_none

/-- What is stored of an accepted configuration hides no token exactly where nothing that the
scan leaves out does. -/
theorem accepted_hides_no_token_iff (h : vetConfigWrite config project = .ok vetted) :
    HidesNoToken vetted ↔ Unhidden (storedConfig project) config := by
  have hscan := vet_scanned h
  obtain ⟨hpreserves, hsame⟩ := vet_preserves h
  have hsameValue : ∀ key, key ∉ ["secrets", "agent_type", "bot_access", "env_overrides"] →
      valueAt vetted key = valueAt config key := fun key hkey => valueAt_congr (hsame key hkey)
  have hhints := hsameValue "env_hints" (by decide)
  constructor
  · intro hfree
    have haccess : TokenFree (valueAt vetted "bot_access") := hfree.free (by decide) (by decide)
    have hoverrides := (overrides_free_iff h).mp (hfree.free (by decide) (by decide))
    have hagent := (agentType_free_iff h).mp (hfree.free (by decide) (by decide))
    refine ⟨fun key hkey hother => ?_, ?_, hoverrides.1, hpreserves.access ▸ haccess, hoverrides.2, hagent.2⟩
    · simp only [List.mem_cons, List.not_mem_nil, or_false, not_or] at hother
      by_cases hagentKey : key = "agent_type"
      · subst hagentKey
        exact ⟨by decide +kernel, hagent.1⟩
      · have hmem : key ∉ ["secrets", "agent_type", "bot_access", "env_overrides"] := by
          simp [hother, hagentKey]
        have hvetted : hasKey vetted key = true := by
          unfold hasKey
          rw [hsame key hmem]
          exact hkey
        have hentry := hfree key hvetted hother.1
        rw [if_neg hother.2.1, hsameValue key hmem] at hentry
        exact ⟨hentry.1, hentry.2.2.keys⟩
    · rw [← hints_free_iff hscan, ← hhints]
      exact hfree.hints
  · intro hunhidden key hkey hsecrets
    by_cases hhintsKey : key = "env_hints"
    · subst hhintsKey
      rw [if_pos rfl, hhints]
      exact ⟨by decide +kernel, (hints_free_iff hscan).mpr hunhidden.hints⟩
    rw [if_neg hhintsKey]
    by_cases haccess : key = "bot_access"
    · subst haccess
      rw [hpreserves.access]
      exact ⟨by decide +kernel, by decide, hunhidden.access⟩
    by_cases hoverrides : key = "env_overrides"
    · subst hoverrides
      exact ⟨by decide +kernel, by decide, (overrides_free_iff h).mpr ⟨hunhidden.overrides, hunhidden.audience⟩⟩
    by_cases hagent : key = "agent_type"
    · subst hagent
      refine ⟨by decide +kernel, by decide, (agentType_free_iff h).mpr ⟨?_, hunhidden.agentType⟩⟩
      cases hconfig : hasKey config "agent_type" with
      | true => exact (hunhidden.keys _ hconfig (by decide)).2
      | false =>
        have hnone : config.lookup "agent_type" = none := by simpa [hasKey] using hconfig
        simpa [valueAt, hnone] using keysPlain_none
    · have hmem : key ∉ ["secrets", "agent_type", "bot_access", "env_overrides"] := by
        simp [hsecrets, hagent, haccess, hoverrides]
      have hconfig : hasKey config key = true := by
        unfold hasKey
        rw [← hsame key hmem]
        exact hkey
      have hplain := hunhidden.keys key hconfig (by simp [hsecrets, hhintsKey, haccess, hoverrides])
      obtain ⟨hscanned, hname⟩ := scanned_at key hscan hsecrets hhintsKey
      rw [hsameValue key hmem]
      exact ⟨hplain.1, hname hconfig, hscanned.free_iff.mpr hplain.2⟩

end Vetting

def listedHints : Mapping := [("env_hints", .list [.text "123456789:AAAAAAAAAAAAAAAAAAAAAAAAAAAAAAAAAAA"])]

/-- A token among hints that are a list is stored as it came. -/
theorem listed_hints_stored : vetConfigWrite listedHints none = .ok listedHints ∧ ¬ HidesNoToken listedHints := by
  constructor
  · decide +kernel
  · intro h
    have hhints := h.hints.leaves "123456789:AAAAAAAAAAAAAAAAAAAAAAAAAAAAAAAAAAA" (by decide +kernel)
    revert hhints
    decide +kernel

/-- A project's hint may describe the token under its name. -/
theorem described_token_unhidden :
    HidesNoToken [("env_hints", .mapping [(telegramTokenKey, .text "the bot's token")])] ↔
      Unhidden (storedConfig none) [("env_hints", .mapping [(telegramTokenKey, .text "the bot's token")])] :=
  accepted_hides_no_token_iff (by decide +kernel)

end Orchestrator.Projects
