import Orchestrator.Environment.Fragments

/-!
When the merge of fragments depends on nothing but what they declare.
-/

namespace Orchestrator.Environment

variable {fragments others : List EnvContractFragment} {contract : DeclaredEnvContract}

def Agree (f g : EnvContractFragment) : Prop :=
  ∀ key entry entry', f.entries.lookup key = some entry → g.entries.lookup key = some entry' → entry.eq entry' = true

instance : Std.Symm Agree where
  symm _ _ h key entry entry' hg hf := EnvDeclaration.eq_symm _ _ (h key entry' entry hf hg)

theorem entries_compatible (f : EnvContractFragment) : f.entries.Pairwise (Compatible EnvDeclaration.eq) :=
  (List.pairwise_map.mp f.nodup).imp fun hne heq => absurd heq hne

theorem agree_iff {f g : EnvContractFragment} :
    Agree f g ↔ ∀ entry ∈ f.entries, ∀ entry' ∈ g.entries, Compatible EnvDeclaration.eq entry entry' := by
  constructor
  · intro h entry hentry entry' hentry' hkey
    apply h entry.1 entry.2 entry'.2
    · exact lookup_of_mem f.nodup hentry
    · rw [hkey]
      exact lookup_of_mem g.nodup hentry'
  · intro h key entry entry' hf hg
    exact h (key, entry) (mem_of_lookup hf) (key, entry') (mem_of_lookup hg) rfl

theorem pairwise_agree :
    ((sortedByOwner fragments).flatMap (·.entries)).Pairwise (Compatible EnvDeclaration.eq) ↔ fragments.Pairwise Agree := by
  have hperm : (sortedByOwner fragments).Perm fragments := List.perm_insertionSort _ _
  rw [List.pairwise_flatMap, ← hperm.pairwise_iff fun h => symm h]
  simp only [agree_iff]
  exact ⟨fun h => h.2, fun h => ⟨fun f _ => entries_compatible f, h⟩⟩

theorem merge_ok (h : mergeEnvContractFragments fragments = .ok contract) :
    fragments.Pairwise Agree ∧ Holds contract.entries ((sortedByOwner fragments).flatMap (·.entries)) := by
  unfold mergeEnvContractFragments at h
  split at h
  · cases h
  · rename_i entries hmerge
    cases h
    obtain ⟨hpair, hholds⟩ := mergeAll_iff EnvDeclaration.eq_symm EnvDeclaration.eq_trans hmerge
    exact ⟨pairwise_agree.mp hpair, hholds⟩

theorem merge_isOk (h : fragments.Pairwise Agree) : ∃ contract, mergeEnvContractFragments fragments = .ok contract := by
  have hnil : Holds ([] : List (String × EnvDeclaration)) [] := fun _ => rfl
  have hok : ∃ entries, mergeAll EnvDeclaration.eq ((sortedByOwner fragments).flatMap (·.entries)) [] = .ok entries :=
    mergeAll_isOk EnvDeclaration.eq_symm EnvDeclaration.eq_trans hnil (pairwise_agree.mpr h)
  obtain ⟨entries, hmerge⟩ := hok
  unfold mergeEnvContractFragments
  split
  · rename_i key herror
    rw [hmerge] at herror
    cases herror
  · exact ⟨_, rfl⟩

def Declares (fragments : List EnvContractFragment) (key : String) (entry : EnvDeclaration) : Prop :=
  ∃ f ∈ fragments, f.entries.lookup key = some entry

variable {entry : EnvDeclaration}

variable {key : String}

theorem declares_iff :
    Declares fragments key entry ↔ (key, entry) ∈ (sortedByOwner fragments).flatMap (·.entries) := by
  have hperm : (sortedByOwner fragments).Perm fragments := List.perm_insertionSort _ _
  rw [List.mem_flatMap]
  constructor
  · rintro ⟨f, hf, hlookup⟩
    exact ⟨f, hperm.mem_iff.mpr hf, mem_of_lookup hlookup⟩
  · rintro ⟨f, hf, hmem⟩
    exact ⟨f, hperm.mem_iff.mp hf, lookup_of_mem f.nodup hmem⟩

theorem merge_declared (h : mergeEnvContractFragments fragments = .ok contract)
    (hlookup : contract.entries.lookup key = some entry) : Declares fragments key entry := by
  rw [(merge_ok h).2 key] at hlookup
  exact declares_iff.mpr (List.mem_reverse.mp (mem_of_lookup hlookup))

theorem merge_covers (h : mergeEnvContractFragments fragments = .ok contract)
    (hdeclares : Declares fragments key entry) : ∃ held, contract.entries.lookup key = some held := by
  rw [← Option.isSome_iff_exists, (merge_ok h).2 key, lookup_isSome_iff_mem, List.map_reverse, List.mem_reverse]
  exact List.mem_map_of_mem (declares_iff.mp hdeclares)

/-- No key has two definitions. -/
def Consistent (fragments : List EnvContractFragment) : Prop :=
  ∀ key entry entry', Declares fragments key entry → Declares fragments key entry' → entry.definition = entry'.definition

/-- No key has two declarations that Python's comparison tells apart. -/
def Agreed (fragments : List EnvContractFragment) : Prop :=
  ∀ key entry entry', Declares fragments key entry → Declares fragments key entry' → entry.eq entry' = true

def Uniform (fragments : List EnvContractFragment) : Prop :=
  ∀ key entry entry', Declares fragments key entry → Declares fragments key entry' → entry = entry'

theorem uniform_of_consistent (hc : Consistent fragments) (ha : Agreed fragments) : Uniform fragments :=
  fun key entry entry' h h' => EnvDeclaration.eq_of_definition (ha key entry entry' h h') (hc key entry entry' h h')

theorem agreed_iff : Agreed fragments ↔ fragments.Pairwise Agree := by
  constructor
  · intro h
    apply List.pairwise_of_forall_mem_list
    intro f hf g hg key entry entry' hentry hentry'
    exact h key entry entry' ⟨f, hf, hentry⟩ ⟨g, hg, hentry'⟩
  · rintro h key entry entry' ⟨f, hf, hentry⟩ ⟨g, hg, hentry'⟩
    by_cases hsame : f = g
    · subst hsame
      obtain rfl : entry = entry' := Option.some.inj (hentry.symm.trans hentry')
      exact entry.eq_self
    · exact h.forall hf hg hsame key entry entry' hentry hentry'

theorem merge_isOk_iff : (∃ contract, mergeEnvContractFragments fragments = .ok contract) ↔ Agreed fragments :=
  ⟨fun ⟨_, h⟩ => agreed_iff.mpr (merge_ok h).1, fun h => merge_isOk (agreed_iff.mp h)⟩

def Represents (contract : DeclaredEnvContract) (fragments : List EnvContractFragment) : Prop :=
  ∀ key entry, contract.entries.lookup key = some entry ↔ Declares fragments key entry

theorem merge_represents (hu : Uniform fragments) :
    ∃ contract, mergeEnvContractFragments fragments = .ok contract ∧ Represents contract fragments := by
  have hagreed : Agreed fragments := fun key entry entry' h h' => hu key entry entry' h h' ▸ entry.eq_self
  obtain ⟨contract, h⟩ := merge_isOk_iff.mpr hagreed
  refine ⟨contract, h, fun key entry => ⟨merge_declared h, fun hdeclares => ?_⟩⟩
  obtain ⟨held, hheld⟩ := merge_covers h hdeclares
  rw [hheld, hu key held entry (merge_declared h hheld) hdeclares]

def Same : Except EnvContractMergeError DeclaredEnvContract → Except EnvContractMergeError DeclaredEnvContract → Prop
  | .ok contract, .ok contract' => ∀ key,
      (contract.entries.lookup key).map (·.definition) = (contract'.entries.lookup key).map (·.definition)
  | .error _, .error _ => True
  | _, _ => False

theorem Represents.same (h : Represents contract fragments) {contract' : DeclaredEnvContract} (h' : Represents contract' others)
    (hdeclares : ∀ key entry, Declares others key entry ↔ Declares fragments key entry) :
    Same (.ok contract') (.ok contract) := by
  intro key
  refine congrArg _ (Option.ext fun entry => ?_)
  rw [h' key entry, h key entry, hdeclares key entry]

theorem merge_same (hu : Uniform fragments)
    (hdeclares : ∀ key entry, Declares others key entry ↔ Declares fragments key entry) :
    Same (mergeEnvContractFragments others) (mergeEnvContractFragments fragments) := by
  have hu' : Uniform others := fun key entry entry' h h' =>
    hu key entry entry' ((hdeclares _ _).mp h) ((hdeclares _ _).mp h')
  obtain ⟨contract, h, hrep⟩ := merge_represents hu
  obtain ⟨contract', h', hrep'⟩ := merge_represents hu'
  rw [h, h']
  exact hrep.same hrep' hdeclares

/-- The merge succeeds exactly on consistent fragments, holds the union of their keys, and does not
depend on order, on repetition, on grouping or on merging again. -/
structure OrderFree (fragments : List EnvContractFragment) : Prop where
  succeeds : (∃ contract, mergeEnvContractFragments fragments = .ok contract) ↔ Consistent fragments
  union : ∀ contract, mergeEnvContractFragments fragments = .ok contract → ∀ key,
    (contract.entries.lookup key).isSome = true ↔ ∃ f ∈ fragments, (f.entries.lookup key).isSome = true
  rearranged : ∀ others : List EnvContractFragment, (∀ f, f ∈ others ↔ f ∈ fragments) →
    Same (mergeEnvContractFragments others) (mergeEnvContractFragments fragments)
  idempotent : ∀ contract, mergeEnvContractFragments fragments = .ok contract → ∀ owner h, ∀ f ∈ fragments,
    Same (mergeEnvContractFragments [contract.fragment owner h, f]) (.ok contract) ∧
      Same (mergeEnvContractFragments [f, contract.fragment owner h]) (.ok contract)
  grouped : ∀ first rest : List EnvContractFragment, (first ++ rest).Perm fragments → match mergeEnvContractFragments first with
    | .ok contract => ∀ owner h, Same (mergeEnvContractFragments (contract.fragment owner h :: rest)) (mergeEnvContractFragments fragments)
    | .error e => Same (mergeEnvContractFragments fragments) (.error e)

theorem union_of_ok (h : mergeEnvContractFragments fragments = .ok contract) (key : String) :
    (contract.entries.lookup key).isSome = true ↔ ∃ f ∈ fragments, (f.entries.lookup key).isSome = true := by
  simp only [Option.isSome_iff_exists]
  constructor
  · rintro ⟨entry, hlookup⟩
    obtain ⟨f, hf, hentry⟩ := merge_declared h hlookup
    exact ⟨f, hf, entry, hentry⟩
  · rintro ⟨f, hf, entry, hentry⟩
    exact merge_covers h ⟨f, hf, hentry⟩

theorem declares_congr (h : ∀ f, f ∈ others ↔ f ∈ fragments) (key : String) (entry : EnvDeclaration) :
    Declares others key entry ↔ Declares fragments key entry := by
  simp only [Declares, h]

theorem declares_append {first rest : List EnvContractFragment} :
    Declares (first ++ rest) key entry ↔ Declares first key entry ∨ Declares rest key entry := by
  simp only [Declares, List.mem_append, or_and_right, exists_or]

theorem declares_cons {f : EnvContractFragment} :
    Declares (f :: fragments) key entry ↔ f.entries.lookup key = some entry ∨ Declares fragments key entry := by
  simp [Declares]

theorem orderFree_of_uniform (hu : Uniform fragments) : OrderFree fragments where
  succeeds := by
    obtain ⟨contract, h, -⟩ := merge_represents hu
    exact ⟨fun _ key entry entry' h h' => congrArg _ (hu key entry entry' h h'), fun _ => ⟨contract, h⟩⟩
  union contract h := union_of_ok h
  rearranged others h := merge_same hu (declares_congr h)
  idempotent contract h owner howner f hf := by
    obtain ⟨contract', h', hrep⟩ := merge_represents hu
    obtain rfl : contract = contract' := Except.ok.inj (h.symm.trans h')
    have hsub : ∀ key entry, f.entries.lookup key = some entry → contract.entries.lookup key = some entry :=
      fun key entry hentry => (hrep key entry).mpr ⟨f, hf, hentry⟩
    rw [← h]
    constructor
    · apply merge_same hu
      intro key entry
      rw [declares_cons, declares_cons, ← hrep key entry]
      simpa [Declares, DeclaredEnvContract.fragment] using hsub key entry
    · apply merge_same hu
      intro key entry
      rw [declares_cons, declares_cons, ← hrep key entry]
      simpa [Declares, DeclaredEnvContract.fragment] using hsub key entry
  grouped first rest hperm := by
    have hdeclares : ∀ key entry, Declares (first ++ rest) key entry ↔ Declares fragments key entry :=
      declares_congr fun f => hperm.mem_iff
    have hfirst : ∀ key entry, Declares first key entry → Declares fragments key entry :=
      fun key entry h => (hdeclares key entry).mp (declares_append.mpr (.inl h))
    have hu' : Uniform first := fun key entry entry' h h' => hu key entry entry' (hfirst _ _ h) (hfirst _ _ h')
    obtain ⟨contract, h, hrep⟩ := merge_represents hu'
    rw [h]
    intro owner howner
    apply merge_same hu
    intro key entry
    rw [declares_cons, ← hdeclares key entry, declares_append, ← hrep key entry]
    rfl

theorem fails_of_not_agreed (h : ¬ Agreed fragments) : ∃ e, mergeEnvContractFragments fragments = .error e := by
  cases hmerge : mergeEnvContractFragments fragments with
  | error e => exact ⟨e, rfl⟩
  | ok contract => exact absurd (merge_isOk_iff.mp ⟨contract, hmerge⟩) h

theorem Agreed.mono (h : Agreed others) (hsub : ∀ f ∈ fragments, f ∈ others) : Agreed fragments := by
  rintro key entry entry' ⟨f, hf, hentry⟩ ⟨g, hg, hentry'⟩
  exact h key entry entry' ⟨f, hsub f hf, hentry⟩ ⟨g, hsub g hg, hentry'⟩

theorem Agreed.of_grouped {first rest : List EnvContractFragment} {owner : String} {howner : owner ≠ ""}
    (hfirst : mergeEnvContractFragments first = .ok contract) (h : Agreed (contract.fragment owner howner :: rest)) :
    Agreed (first ++ rest) := by
  -- what the merged contract holds of a key stands for all that was merged into it
  have hstands : ∀ key entry, Declares (first ++ rest) key entry →
      ∃ held, Declares (contract.fragment owner howner :: rest) key held ∧ held.eq entry = true := by
    intro key entry hdeclares
    rcases declares_append.mp hdeclares with hentry | hentry
    · obtain ⟨held, hheld⟩ := merge_covers hfirst hentry
      have hagreed := merge_isOk_iff.mp ⟨contract, hfirst⟩
      exact ⟨held, declares_cons.mpr (.inl hheld), hagreed key held entry (merge_declared hfirst hheld) hentry⟩
    · exact ⟨entry, declares_cons.mpr (.inr hentry), entry.eq_self⟩
  intro key entry entry' hentry hentry'
  obtain ⟨held, hheld, heq⟩ := hstands key entry hentry
  obtain ⟨held', hheld', heq'⟩ := hstands key entry' hentry'
  have hmiddle := EnvDeclaration.eq_trans _ _ _ (h key held held' hheld hheld') heq'
  exact EnvDeclaration.eq_trans _ _ _ (EnvDeclaration.eq_symm _ _ heq) hmiddle

theorem orderFree_of_disagreed (hc : ¬ Consistent fragments) (h : ¬ Agreed fragments) : OrderFree fragments := by
  obtain ⟨e, he⟩ := fails_of_not_agreed h
  constructor
  · constructor
    · rintro ⟨contract, hok⟩
      rw [he] at hok
      cases hok
    · exact fun hconsistent => absurd hconsistent hc
  · intro contract hok
    rw [he] at hok
    cases hok
  · intro others hmem
    obtain ⟨e', he'⟩ := fails_of_not_agreed fun hothers => h (hothers.mono fun f hf => (hmem f).mpr hf)
    rw [he, he']
    trivial
  · intro contract hok
    rw [he] at hok
    cases hok
  · intro first rest hperm
    rw [he]
    split
    · rename_i contract hfirst
      intro owner howner
      obtain ⟨e', he'⟩ := fails_of_not_agreed fun hgrouped =>
        h ((hgrouped.of_grouped hfirst).mono fun f hf => hperm.mem_iff.mpr hf)
      rw [he']
      trivial
    · trivial

/-- The merge is order-free exactly where Python's comparison tells the declarations of some key apart
if and only if some key has two definitions. -/
theorem merge_orderFree_iff (fragments : List EnvContractFragment) :
    OrderFree fragments ↔ (Consistent fragments ∧ Agreed fragments) ∨ (¬ Consistent fragments ∧ ¬ Agreed fragments) := by
  constructor
  · intro h
    have hsame := h.succeeds.symm.trans merge_isOk_iff
    by_cases hc : Consistent fragments
    · exact .inl ⟨hc, hsame.mp hc⟩
    · exact .inr ⟨hc, mt hsame.mpr hc⟩
  · rintro (⟨hc, ha⟩ | ⟨hc, ha⟩)
    · exact orderFree_of_uniform (uniform_of_consistent hc ha)
    · exact orderFree_of_disagreed hc ha

def replicas (owner : String) (howner : owner ≠ "") (value : EnvLiteralValue) : EnvContractFragment where
  owner := owner
  entries := [("REPLICAS", ⟨⟨.literal value, ["production"], true⟩, [], none, by simp, by simp⟩)]
  owner_ne := howner
  nodup := by simp

/-- The literals `1` and `true` of one key merge, and the owner that comes last has its way. -/
theorem one_and_true_merge :
    ¬ OrderFree [replicas "backend" (by simp) (.int 1), replicas "frontend" (by simp) (.bool true)] := by
  intro h
  have hok : ∃ contract, mergeEnvContractFragments
      [replicas "backend" (by simp) (.int 1), replicas "frontend" (by simp) (.bool true)] = .ok contract := ⟨_, rfl⟩
  have hone := h.succeeds.mp hok "REPLICAS" _ _ ⟨_, List.mem_cons_self, rfl⟩ ⟨_, List.mem_cons_of_mem _ List.mem_cons_self, rfl⟩
  cases hone

end Orchestrator.Environment
