import Orchestrator.Environment.Resolver
import Orchestrator.Projects.Writes

/-!
What becomes of one variable of a contract depends on its entry and on the deploy, not on the
other variables. So each is settled in one way, and once more in the same way when the secrets
generated for it have been kept.
-/

namespace Orchestrator.Environment

open Python Contracts
open Projects (Settings bind_eq_ok map_eq_ok updateKeys lookup_updateKeys texts valueAt_congr)

inductive Outcome where
  | secret (value : Value)
  | nonSecret (value : Value)
  | generated
  | missing (description : String)
  | skipped

def Outcome.apply (outcome : Outcome) (draws : Nat → String) (key : String) (resolved : ResolvedValues) : ResolvedValues :=
  match outcome with
  | .secret value => resolved.storeSecret key value
  | .nonSecret value => { resolved with nonSecretValues := setKey resolved.nonSecretValues key value }
  | .generated => (resolved.generate key (draws resolved.generated.length)).storeSecret key (.text (draws resolved.generated.length))
  | .missing description => resolved.miss key description
  | .skipped => resolved

def Outcome.stored (value : Value) (sensitive : Bool) : Outcome := if sensitive then .secret value else .nonSecret value

def allocationOutcome (found : Except Exn (Option (String × Int))) (name : String) (sensitive : Bool) : Except Exn Outcome :=
  match found with
  | .error e => .error e
  | .ok none => .error (.typedSecretResolutionError .allocationMissing s!"Missing allocation for {name}")
  | .ok (some allocation) => .ok (.stored (.text (toString allocation.2)) sensitive)

def sourceOutcome (platform : Platform) (context : ResolutionContext) (key : String) (entry : EnvContractEntry) : Except Exn Outcome :=
  match entry.source with
  | .userSecret description => match userSecret context key with
    | .none => .ok (if entry.required then .missing description else .skipped)
    | value => .ok (.secret (.text (value.str platform.settings.render)))
  | .generatedSecret => match valueAt context.configSecrets key with
    | .none => .ok .generated
    | value => .ok (.secret (.text (value.str platform.settings.render)))
  | .allocation selector _ =>
      allocationOutcome (findAllocation platform context.state selector.name) selector.name entry.sensitive
  | .derived => (computeSecret platform key context).map fun value => .stored (.text value) entry.sensitive
  | .literal value => .ok (.stored (literalValue platform key value context) entry.sensitive)

def entryOutcome (platform : Platform) (context : ResolutionContext) (key : String) (entry : EnvContractEntry) : Except Exn Outcome :=
  match sourceOutcome platform context key entry with
  | .ok outcome => .ok outcome
  | .error (.unknownDerivedKeyError key) =>
      if !entry.required then .ok .skipped
      else .error (.typedSecretResolutionError .environmentResolutionFailed (Exn.message (.unknownDerivedKeyError key)))
  | .error (.secretResolutionError message) => .error (.typedSecretResolutionError .environmentResolutionFailed message)
  | .error e => .error e

@[ext] structure View where
  secret : Option Value
  nonSecret : Option Value
  generated : Option String
  missing : Bool
deriving DecidableEq

def ResolvedValues.view (resolved : ResolvedValues) (key : String) : View where
  secret := resolved.secretValues.lookup key
  nonSecret := resolved.nonSecretValues.lookup key
  generated := resolved.generated.lookup key
  missing := resolved.missingUser.any (·.key == key)

def View.unseen : View := ⟨none, none, none, false⟩

def Outcome.view (outcome : Outcome) (token : String) : View :=
  match outcome with
  | .secret value => ⟨some value, none, none, false⟩
  | .nonSecret value => ⟨none, some value, none, false⟩
  | .generated => ⟨some (.text token), none, some token, false⟩
  | .missing _ => ⟨none, none, none, true⟩
  | .skipped => .unseen

section

variable {platform : Platform} {draws draws' : Nat → String} {context context' : ResolutionContext} {key other : String}
  {entry : EnvContractEntry} {resolved resolved' : ResolvedValues} {entries : List (String × EnvContractEntry)}

theorem stored_apply (value : Value) (sensitive : Bool) :
    (Outcome.stored value sensitive).apply draws key resolved = resolved.store key value sensitive := by
  cases sensitive <;> rfl

theorem resolveEntry_eq : resolveEntry platform draws key entry context resolved =
    (sourceOutcome platform context key entry).map fun outcome => outcome.apply draws key resolved := by
  unfold resolveEntry sourceOutcome
  cases entry.source with
  | userSecret description =>
    simp only [resolveUserSecret]
    cases userSecret context key with
    | none => cases entry.required <;> rfl
    | _ => rfl
  | generatedSecret =>
    simp only [resolveGeneratedSecret]
    cases valueAt context.configSecrets key <;> rfl
  | allocation selector sensitive =>
    simp only [resolveAllocation, allocationOutcome]
    cases findAllocation platform context.state selector.name with
    | error e => rfl
    | ok allocation => cases allocation with
      | none => rfl
      | some allocation => exact congrArg Except.ok (stored_apply _ _).symm
  | derived =>
    simp only
    cases computeSecret platform key context with
    | error e => rfl
    | ok value => exact congrArg Except.ok (stored_apply _ _).symm
  | literal value => exact congrArg Except.ok (stored_apply _ _).symm

theorem resolveOrSkip_eq : resolveOrSkip platform draws key entry context resolved =
    (entryOutcome platform context key entry).map fun outcome => outcome.apply draws key resolved := by
  unfold resolveOrSkip entryOutcome
  rw [resolveEntry_eq]
  cases sourceOutcome platform context key entry with
  | ok outcome => rfl
  | error e => cases e with
    | unknownDerivedKeyError key => cases entry.required <;> rfl
    | _ => rfl

theorem view_storeSecret (value : Value) :
    (resolved.storeSecret key value).view key = { resolved.view key with secret := some value } := by
  simp only [ResolvedValues.view, ResolvedValues.storeSecret, lookup_setKey_self]

theorem apply_view (outcome : Outcome) (hunseen : resolved.view key = .unseen) :
    (outcome.apply draws key resolved).view key = outcome.view (draws resolved.generated.length) := by
  obtain ⟨hsecret, hnonSecret, hgenerated, hmissing⟩ := View.mk.inj hunseen
  cases outcome with
  | secret value =>
    rw [Outcome.apply, view_storeSecret, hunseen]
    rfl
  | nonSecret value =>
    simp only [Outcome.apply, ResolvedValues.view, lookup_setKey_self, hsecret, hgenerated, hmissing]
    rfl
  | generated =>
    rw [Outcome.apply, view_storeSecret]
    simp only [ResolvedValues.generate, ResolvedValues.view, List.lookup_append, hgenerated, hnonSecret, hmissing]
    simp [Outcome.view]
  | missing description =>
    simp only [Outcome.apply, ResolvedValues.miss, ResolvedValues.view, hsecret, hnonSecret, hgenerated]
    simp [Outcome.view]
  | skipped => exact hunseen

theorem apply_others (outcome : Outcome) (hne : other ≠ key) : (outcome.apply draws key resolved).view other = resolved.view other := by
  cases outcome with
  | secret value => simp only [Outcome.apply, ResolvedValues.storeSecret, ResolvedValues.view, lookup_setKey_of_ne _ _ hne]
  | nonSecret value => simp only [Outcome.apply, ResolvedValues.view, lookup_setKey_of_ne _ _ hne]
  | generated =>
    have hkey : (other == key) = false := by simpa using hne
    have hgenerated : ∀ value, ([(key, value)] : List (String × String)).lookup other = none := fun value => by
      simp [List.lookup_cons, hkey]
    simp only [Outcome.apply, ResolvedValues.generate, ResolvedValues.storeSecret, ResolvedValues.view, lookup_setKey_of_ne _ _ hne,
      List.lookup_append, hgenerated, Option.or_none]
  | missing description =>
    have hmissing : (key == other) = false := by simpa using hne.symm
    simp only [Outcome.apply, ResolvedValues.miss, ResolvedValues.view, List.any_append, List.any_cons, List.any_nil, hmissing,
      Bool.or_false]
  | skipped => rfl

theorem resolveEntries_cons (h : resolveEntries platform draws context ((key, entry) :: entries) resolved = .ok resolved') :
    (entry.inProduction = false ∧ resolveEntries platform draws context entries resolved = .ok resolved') ∨
      ∃ outcome, entry.inProduction = true ∧ entryOutcome platform context key entry = .ok outcome ∧
        resolveEntries platform draws context entries (outcome.apply draws key resolved) = .ok resolved' := by
  unfold resolveEntries at h
  cases hproduction : entry.inProduction with
  | false => exact .inl ⟨rfl, by simpa [hproduction] using h⟩
  | true =>
    rw [if_pos hproduction, resolveOrSkip_eq] at h
    obtain ⟨next, hnext, h⟩ := bind_eq_ok.mp h
    obtain ⟨outcome, houtcome, rfl⟩ := map_eq_ok.mp hnext
    exact .inr ⟨outcome, rfl, houtcome, h⟩

theorem resolveEntries_others (h : resolveEntries platform draws context entries resolved = .ok resolved')
    (hother : ∀ entry, (other, entry) ∈ entries → entry.inProduction = false) : resolved'.view other = resolved.view other := by
  induction entries generalizing resolved with
  | nil =>
    cases h
    rfl
  | cons head rest ih =>
    obtain ⟨key, entry⟩ := head
    have hrest : ∀ entry, (other, entry) ∈ rest → entry.inProduction = false := fun entry hmem => hother entry (List.mem_cons_of_mem _ hmem)
    rcases resolveEntries_cons h with ⟨_, h⟩ | ⟨outcome, hproduction, _, h⟩
    · exact ih h hrest
    · have hne : other ≠ key := by
        rintro rfl
        exact Bool.noConfusion (hproduction.symm.trans (hother entry List.mem_cons_self))
      rw [ih h hrest, apply_others outcome hne]

theorem resolveEntries_view (h : resolveEntries platform draws context entries resolved = .ok resolved')
    (hnodup : (entries.map (·.1)).Nodup) (hmem : (key, entry) ∈ entries) (hproduction : entry.inProduction = true)
    (hunseen : resolved.view key = .unseen) :
    ∃ outcome token, entryOutcome platform context key entry = .ok outcome ∧ resolved'.view key = outcome.view token := by
  induction entries generalizing resolved with
  | nil => cases hmem
  | cons head rest ih =>
    obtain ⟨headKey, headEntry⟩ := head
    obtain ⟨hhead, hnodup⟩ := List.nodup_cons.mp hnodup
    rcases List.mem_cons.mp hmem with heq | hlater
    · obtain ⟨rfl, rfl⟩ := Prod.mk.inj heq
      rcases resolveEntries_cons h with ⟨hnot, _⟩ | ⟨outcome, _, houtcome, h⟩
      · exact Bool.noConfusion (hproduction.symm.trans hnot)
      · refine ⟨outcome, draws resolved.generated.length, houtcome, ?_⟩
        rw [resolveEntries_others h fun entry hmem => absurd (List.mem_map_of_mem hmem) hhead]
        exact apply_view outcome hunseen
    · have hne : key ≠ headKey := by
        rintro rfl
        exact hhead (List.mem_map.mpr ⟨_, hlater, rfl⟩)
      rcases resolveEntries_cons h with ⟨_, h⟩ | ⟨outcome, _, _, h⟩
      · exact ih h hnodup hlater hunseen
      · exact ih h hnodup hlater ((apply_others outcome hne).trans hunseen)

def Outcome.again (outcome : Outcome) (token : String) : Outcome :=
  match outcome with
  | .generated => .secret (.text token)
  | outcome => outcome

def ResolvedValues.kept (resolved : ResolvedValues) : ResolvedValues := { resolved with generated := [] }

theorem again_apply (outcome : Outcome) :
    (outcome.again (draws resolved.generated.length)).apply draws' key resolved.kept = (outcome.apply draws key resolved).kept := by
  cases outcome <;> rfl

theorem resolveEntries_again (h : resolveEntries platform draws context entries resolved = .ok resolved')
    (hnodup : (entries.map (·.1)).Nodup) (hunseen : ∀ key entry, (key, entry) ∈ entries → resolved.view key = .unseen)
    (hagain : ∀ key entry outcome token, (key, entry) ∈ entries → entryOutcome platform context key entry = .ok outcome →
      resolved'.view key = outcome.view token → entryOutcome platform context' key entry = .ok (outcome.again token)) :
    resolveEntries platform draws' context' entries resolved.kept = .ok resolved'.kept := by
  induction entries generalizing resolved with
  | nil =>
    cases h
    rfl
  | cons head rest ih =>
    obtain ⟨key, entry⟩ := head
    obtain ⟨hhead, hnodup⟩ := List.nodup_cons.mp hnodup
    have hrest : ∀ key entry outcome token, (key, entry) ∈ rest → entryOutcome platform context key entry = .ok outcome →
        resolved'.view key = outcome.view token → entryOutcome platform context' key entry = .ok (outcome.again token) :=
      fun key entry outcome token hmem => hagain key entry outcome token (List.mem_cons_of_mem _ hmem)
    unfold resolveEntries
    rcases resolveEntries_cons h with ⟨hnot, h⟩ | ⟨outcome, hproduction, houtcome, h⟩
    · rw [if_neg (by simp [hnot])]
      exact ih h hnodup (fun key entry hmem => hunseen key entry (List.mem_cons_of_mem _ hmem)) hrest
    · have hview : resolved'.view key = outcome.view (draws resolved.generated.length) := by
        rw [resolveEntries_others h fun entry hmem => absurd (List.mem_map_of_mem hmem) hhead]
        exact apply_view outcome (hunseen key entry List.mem_cons_self)
      have hsecond := hagain key entry outcome _ List.mem_cons_self houtcome hview
      rw [if_pos hproduction, resolveOrSkip_eq, hsecond]
      show resolveEntries platform draws' context' rest
        ((outcome.again (draws resolved.generated.length)).apply draws' key resolved.kept) = .ok resolved'.kept
      rw [again_apply]
      refine ih h hnodup (fun other otherEntry hmem => ?_) hrest
      have hne : other ≠ key := by
        rintro rfl
        exact hhead (List.mem_map.mpr ⟨_, hmem, rfl⟩)
      exact (apply_others outcome hne).trans (hunseen other otherEntry (List.mem_cons_of_mem _ hmem))

end

section

variable {platform : Platform} {projectSpec projectSpec' config config' secrets secrets' overrides : Mapping} {state : DevOpsState}
  {key : String} {entry : EnvContractEntry}

theorem computeSecret_again (hslug : valueAt projectSpec' "slug" = valueAt projectSpec "slug")
    (hmodules : config'.lookup "modules" = config.lookup "modules") :
    computeSecret platform key ⟨projectSpec', config', { state with projectSpec := some projectSpec' }, secrets', overrides⟩ =
      computeSecret platform key ⟨projectSpec, config, state, secrets, overrides⟩ := by
  unfold computeSecret projectSpecRuntimeSlug enabledModules
  simp only [hslug, hmodules]
  rfl

def Kept (generated : List (String × String)) (secrets secrets' : Mapping) : Prop :=
  ∀ key, valueAt secrets' key = match generated.lookup key with
    | some token => .text token
    | none => valueAt secrets key

theorem stored_again (value : Value) (sensitive : Bool) (token : String) :
    (Outcome.stored value sensitive).again token = .stored value sensitive := by
  cases sensitive <;> rfl

theorem allocationOutcome_again (found : Except Exn (Option (String × Int))) {name : String} {sensitive : Bool} {token : String} :
    (allocationOutcome found name sensitive).map (fun outcome => outcome.again token) = allocationOutcome found name sensitive := by
  cases found with
  | error e => rfl
  | ok allocation => cases allocation with
    | none => rfl
    | some allocation => exact congrArg Except.ok (stored_again ..)

theorem sourceOutcome_again (platform : Platform) (state : DevOpsState) (overrides : Mapping) (key : String) (entry : EnvContractEntry)
    (token : String) {generated : List (String × String)}
    (hslug : valueAt projectSpec' "slug" = valueAt projectSpec "slug")
    (hmodules : config'.lookup "modules" = config.lookup "modules") (hkept : Kept generated secrets secrets')
    (hview : ∀ outcome, sourceOutcome platform ⟨projectSpec, config, state, secrets, overrides⟩ key entry = .ok outcome →
      generated.lookup key = (outcome.view token).generated) :
    sourceOutcome platform ⟨projectSpec', config', { state with projectSpec := some projectSpec' }, secrets', overrides⟩ key entry =
      (sourceOutcome platform ⟨projectSpec, config, state, secrets, overrides⟩ key entry).map fun outcome => outcome.again token := by
  have hsecret := hkept key
  unfold sourceOutcome at hview ⊢
  cases hsource : entry.source with
  | userSecret description =>
    simp only [hsource] at hview ⊢
    have hsame : generated.lookup key = none → userSecret ⟨projectSpec', config', { state with projectSpec := some projectSpec' },
        secrets', overrides⟩ key = userSecret ⟨projectSpec, config, state, secrets, overrides⟩ key := fun hnone => by
      rw [hnone] at hsecret
      simp only [userSecret, hsecret]
    cases hvalue : userSecret ⟨projectSpec, config, state, secrets, overrides⟩ key with
    | none =>
      rw [hvalue] at hview
      have hnone : generated.lookup key = none := by
        have hlookup := hview _ rfl
        cases hrequired : entry.required with
        | true =>
          rw [hrequired] at hlookup
          exact hlookup
        | false =>
          rw [hrequired] at hlookup
          exact hlookup
      rw [hsame hnone, hvalue]
      cases entry.required <;> rfl
    | _ =>
      rw [hvalue] at hview
      rw [hsame (hview _ rfl), hvalue]
      rfl
  | generatedSecret =>
    simp only [hsource] at hview ⊢
    cases hvalue : valueAt secrets key with
    | none =>
      rw [hvalue] at hview
      rw [hview _ rfl] at hsecret
      simp only [hsecret]
      rfl
    | _ =>
      rw [hvalue] at hview
      rw [hview _ rfl] at hsecret
      simp only [hsecret, Outcome.view, hvalue]
      rfl
  | allocation selector sensitive => exact (allocationOutcome_again (findAllocation platform state selector.name)).symm
  | derived =>
    dsimp only
    rw [computeSecret_again hslug hmodules]
    cases computeSecret platform key ⟨projectSpec, config, state, secrets, overrides⟩ with
    | error e => rfl
    | ok value => exact congrArg Except.ok (stored_again ..).symm
  | literal value => exact congrArg Except.ok (stored_again ..).symm

theorem entryOutcome_again {generated : List (String × String)} {outcome : Outcome} {token : String}
    (hslug : valueAt projectSpec' "slug" = valueAt projectSpec "slug")
    (hmodules : config'.lookup "modules" = config.lookup "modules") (hkept : Kept generated secrets secrets')
    (hview : generated.lookup key = (outcome.view token).generated)
    (h : entryOutcome platform ⟨projectSpec, config, state, secrets, overrides⟩ key entry = .ok outcome) :
    entryOutcome platform ⟨projectSpec', config', { state with projectSpec := some projectSpec' }, secrets', overrides⟩ key entry =
      .ok (outcome.again token) := by
  have hagain := sourceOutcome_again platform state overrides key entry token hslug hmodules hkept
  unfold entryOutcome at h ⊢
  cases hsource : sourceOutcome platform ⟨projectSpec, config, state, secrets, overrides⟩ key entry with
  | ok settled =>
    rw [hsource] at h
    obtain rfl := Except.ok.inj h
    rw [hagain fun outcome houtcome => by
      obtain rfl := Except.ok.inj (hsource.symm.trans houtcome)
      exact hview, hsource]
    rfl
  | error e =>
    rw [hsource] at h
    rw [hagain (fun outcome houtcome => nomatch hsource.symm.trans houtcome), hsource]
    cases e with
    | unknownDerivedKeyError unknown =>
      cases hrequired : entry.required with
      | true => simp [hrequired] at h
      | false =>
        simp only [hrequired] at h
        obtain rfl := Except.ok.inj h
        rfl
    | _ => cases h

end

section

variable {platform : Platform} {draws draws' : Nat → String} {saves saves' : List (String × String) → Bool} {state state' : DevOpsState}
  {resolved : ResolvedValues}

structure Resolves (platform : Platform) (draws : Nat → String) (saves : List (String × String) → Bool) (state : DevOpsState)
    (resolved : ResolvedValues) (context : ResolutionContext) (contract : CanonicalEnvContract) : Prop where
  project : ∃ projectId, validatedProjectContext state = .ok (projectId, context.projectSpec)
  given : context.state = state
  valid : environmentContract state = .ok contract
  config : configOf context.projectSpec = .ok context.config
  secrets : configSecrets platform.settings context.config = .ok context.configSecrets
  overrides : environmentOverrides context.config context.configSecrets state contract = .ok context.envOverrides
  declared : rejectUndeclaredOverrides context.envOverrides contract = .ok ()
  audience : validateBotAudience context.config context.configSecrets context.envOverrides contract = .ok ()
  entries : resolveEntries platform draws context contract.entries ⟨[], [], [], []⟩ = .ok resolved
  saved : saveSecretsToProject saves resolved.generated = .ok ()

theorem resolveContract_iff : resolveContract platform draws saves state = .ok resolved ↔
    ∃ context contract, Resolves platform draws saves state resolved context contract := by
  constructor
  · intro h
    obtain ⟨⟨projectId, projectSpec⟩, hproject, h⟩ := bind_eq_ok.mp h
    obtain ⟨contract, hcontract, h⟩ := bind_eq_ok.mp h
    obtain ⟨config, hconfig, h⟩ := bind_eq_ok.mp h
    obtain ⟨secrets, hsecrets, h⟩ := bind_eq_ok.mp h
    obtain ⟨overrides, hoverrides, h⟩ := bind_eq_ok.mp h
    obtain ⟨_, hdeclared, h⟩ := bind_eq_ok.mp h
    obtain ⟨_, haudience, h⟩ := bind_eq_ok.mp h
    obtain ⟨_, hentries, h⟩ := bind_eq_ok.mp h
    obtain ⟨_, hsaved, h⟩ := bind_eq_ok.mp h
    cases h
    exact ⟨⟨projectSpec, config, state, secrets, overrides⟩, contract, ⟨projectId, hproject⟩, rfl, hcontract, hconfig, hsecrets,
      hoverrides, hdeclared, haudience, hentries, hsaved⟩
  · rintro ⟨⟨projectSpec, config, state', secrets, overrides⟩, contract, ⟨projectId, hproject⟩, rfl, hcontract, hconfig, hsecrets,
      hoverrides, hdeclared, haudience, hentries, hsaved⟩
    exact bind_eq_ok.mpr ⟨_, hproject, bind_eq_ok.mpr ⟨_, hcontract, bind_eq_ok.mpr ⟨_, hconfig, bind_eq_ok.mpr ⟨_, hsecrets,
      bind_eq_ok.mpr ⟨_, hoverrides, bind_eq_ok.mpr ⟨_, hdeclared, bind_eq_ok.mpr ⟨_, haudience, bind_eq_ok.mpr ⟨_, hentries,
        bind_eq_ok.mpr ⟨_, hsaved, rfl⟩⟩⟩⟩⟩⟩⟩⟩⟩

def nextDeploy (settings : Settings) (iv : Nat) (generated : List (String × String)) (state : DevOpsState) :
    Except Projects.HTTPException DevOpsState :=
  if generated.isEmpty then .ok state
  else match state.projectSpec with
    | none => .error .projectNotFound
    | some projectSpec => do
      Projects.rejectBotTokenWrites generated
      Projects.rejectLegacyBotAccessWrites generated
      let (config, _) ← Projects.mergeSecretsIntoConfig settings iv generated none
        (Projects.entriesOf (valueAt projectSpec "config"))
      .ok { state with projectSpec := some (setKey projectSpec "config" (.mapping config)) }

inductive Bucket where
  | secret | nonSecret | missing | skipped

def Skipped (platform : Platform) (context : ResolutionContext) (key : String) (entry : EnvContractEntry) : Prop :=
  entry.required = false ∧ ((∃ description, entry.source = .userSecret description) ∧ userSecret context key = .none ∨
    entry.source = .derived ∧ ∃ unknown, computeSecret platform key context = .error (.unknownDerivedKeyError unknown))

def EndsIn (platform : Platform) (context : ResolutionContext) (resolved : ResolvedValues) (key : String) (entry : EnvContractEntry) :
    Bucket → Prop
  | .secret => hasKey resolved.secretValues key = true
  | .nonSecret => hasKey resolved.nonSecretValues key = true
  | .missing => resolved.missingUser.any (·.key == key) = true
  | .skipped => Skipped platform context key entry

variable {context : ResolutionContext} {contract : CanonicalEnvContract} {key : String} {entry : EnvContractEntry} {outcome : Outcome}

theorem checkAllocation_error {serviceName : String} {alloc : Mapping} {e : Exn} (h : checkAllocation platform serviceName alloc = .error e) :
    ∃ message, e = .secretResolutionError message := by
  unfold checkAllocation at h
  split at h
  · cases h
    exact ⟨_, rfl⟩
  · split at h
    · cases h
      exact ⟨_, rfl⟩
    · unfold allocatedPort at h
      split at h
      · split at h
        · cases h
        · cases h
          exact ⟨_, rfl⟩
      · cases h
        exact ⟨_, rfl⟩

theorem findAllocation_error {serviceName : String} {e : Exn} (h : findAllocation platform state serviceName = .error e) :
    ∃ message, e = .secretResolutionError message := by
  unfold findAllocation at h
  split at h
  · cases h
  next alloc _ =>
    cases hcheck : checkAllocation platform serviceName alloc with
    | ok allocation => simp [hcheck, Except.map] at h
    | error e' =>
      rw [hcheck] at h
      cases h
      exact checkAllocation_error hcheck
  · cases h
    exact ⟨_, rfl⟩

theorem stored_ne_skipped (value : Value) (sensitive : Bool) : Outcome.stored value sensitive ≠ .skipped := by
  cases sensitive <;> exact nofun

theorem entryOutcome_skipped (h : entryOutcome platform context key entry = .ok outcome) :
    outcome = .skipped ↔ Skipped platform context key entry := by
  unfold entryOutcome sourceOutcome at h
  unfold Skipped
  cases hsource : entry.source with
  | userSecret description =>
    simp only [hsource] at h
    cases hvalue : userSecret context key with
    | none =>
      cases hrequired : entry.required <;>
      · rw [hvalue, hrequired] at h
        obtain rfl := Except.ok.inj h
        simp
    | _ =>
      rw [hvalue] at h
      obtain rfl := Except.ok.inj h
      simp
  | generatedSecret =>
    simp only [hsource] at h
    cases hvalue : valueAt context.configSecrets key <;>
    · rw [hvalue] at h
      obtain rfl := Except.ok.inj h
      simp
  | allocation selector sensitive =>
    simp only [hsource] at h
    cases hfound : findAllocation platform context.state selector.name with
    | error e =>
      obtain ⟨message, rfl⟩ := findAllocation_error hfound
      rw [hfound] at h
      cases h
    | ok allocation => cases allocation with
      | none =>
        rw [hfound] at h
        cases h
      | some allocation =>
        rw [hfound] at h
        obtain rfl := Except.ok.inj h
        simp [stored_ne_skipped]
  | derived =>
    simp only [hsource] at h
    cases hvalue : computeSecret platform key context with
    | ok value =>
      rw [hvalue] at h
      obtain rfl := Except.ok.inj h
      simp [stored_ne_skipped]
    | error e => cases e with
      | unknownDerivedKeyError unknown =>
        cases hrequired : entry.required with
        | true =>
          rw [hvalue, hrequired] at h
          cases h
        | false =>
          rw [hvalue, hrequired] at h
          obtain rfl := Except.ok.inj h
          simp
      | _ =>
        rw [hvalue] at h
        cases h
  | literal value =>
    simp only [hsource] at h
    obtain rfl := Except.ok.inj h
    simp [stored_ne_skipped]

theorem entryOutcome_nonSecret {value : Value} (h : entryOutcome platform context key entry = .ok (.nonSecret value)) :
    entry.sensitive = false := by
  unfold entryOutcome sourceOutcome at h
  unfold EnvContractEntry.sensitive at h ⊢
  cases hsource : entry.source with
  | userSecret description =>
    simp only [hsource] at h
    cases hvalue : userSecret context key with
    | none => cases hrequired : entry.required <;> simp [hvalue, hrequired] at h
    | _ => simp [hvalue] at h
  | generatedSecret =>
    simp only [hsource] at h
    cases hvalue : valueAt context.configSecrets key <;> simp [hvalue] at h
  | allocation selector sensitive =>
    simp only [hsource] at h ⊢
    cases hfound : findAllocation platform context.state selector.name with
    | error e =>
      obtain ⟨message, rfl⟩ := findAllocation_error hfound
      simp [hfound, allocationOutcome] at h
    | ok allocation => cases allocation with
      | none => simp [hfound, allocationOutcome] at h
      | some allocation => cases sensitive with
        | true => simp [hfound, allocationOutcome, Outcome.stored] at h
        | false => rfl
  | _ => rfl

def Outcome.bucket : Outcome → Bucket
  | .secret _ | .generated => .secret
  | .nonSecret _ => .nonSecret
  | .missing _ => .missing
  | .skipped => .skipped

theorem endsIn_iff {token : String} (h : entryOutcome platform context key entry = .ok outcome)
    (hview : resolved.view key = outcome.view token) (bucket : Bucket) :
    EndsIn platform context resolved key entry bucket ↔ outcome.bucket = bucket := by
  obtain ⟨hsecret, hnonSecret, _, hmissing⟩ := View.mk.inj hview
  cases bucket with
  | secret =>
    rw [EndsIn, hasKey, hsecret]
    cases outcome <;> simp [Outcome.bucket, View.unseen]
  | nonSecret =>
    rw [EndsIn, hasKey, hnonSecret]
    cases outcome <;> simp [Outcome.bucket, View.unseen]
  | missing =>
    rw [EndsIn, hmissing]
    cases outcome <;> simp [Outcome.bucket, View.unseen]
  | skipped =>
    rw [EndsIn, ← entryOutcome_skipped h]
    cases outcome <;> simp [Outcome.bucket]

section

variable (h : Resolves platform draws saves state resolved context contract)

include h

theorem Resolves.settled (hmem : (key, entry) ∈ contract.entries)
    (hproduction : entry.inProduction = true) :
    ∃ outcome token, entryOutcome platform context key entry = .ok outcome ∧ resolved.view key = outcome.view token :=
  resolveEntries_view h.entries contract.nodup hmem hproduction rfl

theorem Resolves.unseen
    (hother : ∀ entry, (key, entry) ∈ contract.entries → entry.inProduction = false) : resolved.view key = .unseen :=
  resolveEntries_others h.entries hother

theorem Resolves.withheld (hmem : (key, entry) ∈ contract.entries)
    (hsensitive : entry.sensitive = true) : hasKey resolved.nonSecretValues key = false := by
  by_cases hproduction : entry.inProduction = true
  · obtain ⟨outcome, token, houtcome, hview⟩ := h.settled hmem hproduction
    rw [hasKey, show resolved.nonSecretValues.lookup key = (outcome.view token).nonSecret from congrArg View.nonSecret hview]
    cases outcome with
    | nonSecret value => exact Bool.noConfusion (hsensitive.symm.trans (entryOutcome_nonSecret houtcome))
    | _ => rfl
  · have hview : resolved.view key = .unseen := h.unseen fun other hother => by
      have hsame := List.inj_on_of_nodup_map contract.nodup hother hmem rfl
      rw [(Prod.mk.inj hsame).2]
      exact Bool.not_eq_true _ ▸ hproduction
    rw [hasKey, show resolved.nonSecretValues.lookup key = View.unseen.nonSecret from congrArg View.nonSecret hview]
    rfl

end

variable {projectSpec' config' secrets' : Mapping}

theorem environmentOverrides_again {config secrets : Mapping} (hconfig : ∀ key, key ≠ "secrets" → config'.lookup key = config.lookup key)
    (hlegacy : secrets'.lookup Projects.legacyBotAudienceKey = secrets.lookup Projects.legacyBotAudienceKey)
    (hstate : state'.envOverrides = state.envOverrides) :
    environmentOverrides config' secrets' state' contract = environmentOverrides config secrets state contract := by
  unfold environmentOverrides vetMessageAudience migrateLegacyAudience Projects.incomingOverrides
  rw [hconfig "env_overrides" (by decide), valueAt_congr (hconfig "bot_access" (by decide)), hstate,
    valueAt_congr hlegacy, hasKey, hlegacy]
  rfl

theorem validateBotAudience_again {config secrets overrides : Mapping} (hconfig : ∀ key, key ≠ "secrets" → config'.lookup key = config.lookup key)
    (hlegacy : secrets'.lookup Projects.legacyBotAudienceKey = secrets.lookup Projects.legacyBotAudienceKey) :
    validateBotAudience config' secrets' overrides contract = validateBotAudience config secrets overrides contract := by
  unfold validateBotAudience isTgBotProject
  rw [valueAt_congr (hconfig "bot_access" (by decide)), valueAt_congr (hconfig "modules" (by decide)), hasKey, hlegacy]
  rfl

theorem validated_again {projectSpec : Mapping} {projectId : String} (h : validatedProjectContext state = .ok (projectId, projectSpec))
    (hslug : valueAt projectSpec' "slug" = valueAt projectSpec "slug") :
    validatedProjectContext { state with projectSpec := some projectSpec' } = .ok (projectId, projectSpec') ∧
      state.projectSpec = some projectSpec := by
  unfold validatedProjectContext at h ⊢
  cases hid : state.projectId.filter fun projectId => strip projectId.toList ≠ [] && projectId ≠ "unknown" with
  | none =>
    rw [hid] at h
    cases h
  | some projectId' =>
    rw [hid] at h
    cases hspec : state.projectSpec with
    | none =>
      rw [hspec] at h
      cases h
    | some projectSpec'' =>
      rw [hspec] at h
      cases hpresent : presentText (valueAt projectSpec'' "slug") with
      | none =>
        simp only [hpresent] at h
        cases h
      | some slug =>
        simp only [hpresent, Except.ok.injEq, Prod.mk.injEq] at h
        obtain ⟨rfl, rfl⟩ := h
        simp only [hslug, hpresent]
        exact ⟨trivial, trivial⟩

theorem Resolves.again (h : Resolves platform draws saves state resolved context contract) (draws' : Nat → String)
    (saves' : List (String × String) → Bool)
    (hslug : valueAt projectSpec' "slug" = valueAt context.projectSpec "slug") (hconfigOf : configOf projectSpec' = .ok config')
    (hconfig : ∀ key, key ≠ "secrets" → config'.lookup key = context.config.lookup key)
    (hsecrets : configSecrets platform.settings config' = .ok secrets')
    (hkept : Kept resolved.generated context.configSecrets secrets')
    (hlegacy : secrets'.lookup Projects.legacyBotAudienceKey = context.configSecrets.lookup Projects.legacyBotAudienceKey) :
    Resolves platform draws' saves' { state with projectSpec := some projectSpec' } resolved.kept
      ⟨projectSpec', config', { state with projectSpec := some projectSpec' }, secrets', context.envOverrides⟩ contract := by
  obtain ⟨projectSpec, config, given, secrets, overrides⟩ := context
  obtain rfl : given = state := h.given
  obtain ⟨projectId, hproject⟩ := h.project
  refine ⟨⟨projectId, (validated_again hproject hslug).1⟩, rfl, h.valid, hconfigOf, hsecrets, ?_, h.declared, ?_, ?_, rfl⟩
  · rw [environmentOverrides_again hconfig hlegacy rfl]
    exact h.overrides
  · rw [validateBotAudience_again hconfig hlegacy]
    exact h.audience
  · refine resolveEntries_again h.entries contract.nodup (fun _ _ _ => rfl) ?_
    intro key entry outcome token hmem houtcome hview
    exact entryOutcome_again hslug (hconfig "modules" (by decide)) hkept (congrArg View.generated hview) houtcome

theorem lookup_texts (entries : List (String × String)) (key : String) : (texts entries).lookup key = (entries.lookup key).map .text := by
  induction entries with
  | nil => rfl
  | cons entry rest ih =>
    obtain ⟨k, v⟩ := entry
    by_cases h : key = k
    · subst h
      simp [texts]
    · have hne : (key == k) = false := by simpa using h
      simpa [texts, List.lookup_cons, hne] using ih

theorem entriesOf_config {projectSpec config : Mapping} (h : configOf projectSpec = .ok config) :
    Projects.entriesOf (valueAt projectSpec "config") = config := by
  unfold configOf at h
  unfold valueAt
  cases hlookup : projectSpec.lookup "config" with
  | none =>
    rw [hlookup] at h
    exact Except.ok.inj h
  | some value => cases value with
    | mapping entries =>
      rw [hlookup] at h
      exact Except.ok.inj h
    | _ =>
      rw [hlookup] at h
      cases h

theorem configSecrets_existing {settings : Settings} {config secrets : Mapping} :
    configSecrets settings config = .ok secrets ↔ Projects.existingSecrets settings config = .ok secrets := by
  unfold configSecrets
  cases Projects.existingSecrets settings config <;> simp

theorem Resolves.next {iv : Nat} (hciphers : platform.settings.Ciphers) (h : Resolves platform draws saves state resolved context contract)
    (hnext : nextDeploy platform.settings iv resolved.generated state = .ok state') (draws' : Nat → String)
    (saves' : List (String × String) → Bool) :
    ∃ context', Resolves platform draws' saves' state' resolved.kept context' contract := by
  obtain ⟨projectId, hproject⟩ := h.project
  have hspec := (validated_again hproject rfl).2
  unfold nextDeploy at hnext
  by_cases hnone : resolved.generated = []
  · rw [if_pos (by simp [hnone])] at hnext
    obtain rfl := Except.ok.inj hnext
    have hsame : { state with projectSpec := some context.projectSpec } = state := by rw [← hspec]
    have hagain := h.again draws' saves' rfl h.config (fun _ _ => rfl) h.secrets
      (fun key => by rw [hnone]; rfl) rfl
    rw [hsame] at hagain
    exact ⟨_, hagain⟩
  · rw [if_neg (by simpa using hnone), hspec] at hnext
    obtain ⟨_, _, hnext⟩ := bind_eq_ok.mp hnext
    obtain ⟨_, hreject, hnext⟩ := bind_eq_ok.mp hnext
    obtain ⟨⟨config', keys⟩, hmerged, hnext⟩ := bind_eq_ok.mp hnext
    obtain rfl := Except.ok.inj hnext
    rw [entriesOf_config h.config] at hmerged
    obtain ⟨existing, hexisting, hmerged⟩ := bind_eq_ok.mp hmerged
    obtain ⟨blob, hblob, hmerged⟩ := bind_eq_ok.mp hmerged
    obtain ⟨_, hhints, hmerged⟩ := bind_eq_ok.mp hmerged
    obtain rfl := Except.ok.inj hhints
    obtain ⟨rfl, rfl⟩ := Prod.mk.inj (Except.ok.inj hmerged)
    obtain rfl : existing = context.configSecrets :=
      Except.ok.inj (hexisting.symm.trans (configSecrets_existing.mp h.secrets))
    have hlookup : ∀ key, (updateKeys context.configSecrets (texts resolved.generated)).lookup key =
        ((resolved.generated.lookup key).map .text).or (context.configSecrets.lookup key) := fun key => by
      rw [lookup_updateKeys, lookup_texts]
    have hsecrets : configSecrets platform.settings (setKey context.config "secrets" blob) = .ok _ :=
      configSecrets_existing.mpr (Projects.existingSecrets_setKey hciphers hblob)
    refine ⟨_, h.again draws' saves' (valueAt_setKey_of_ne _ _ (by decide)) ?_ (fun key hkey => lookup_setKey_of_ne _ _ hkey) hsecrets
      ?_ ?_⟩
    · unfold configOf
      rw [lookup_setKey_self]
      rfl
    · intro key
      unfold valueAt
      rw [hlookup]
      cases resolved.generated.lookup key <;> rfl
    · have hlegacy : (texts resolved.generated).lookup Projects.legacyBotAudienceKey = none := by
        have hwithout := Projects.refuseIf_ok.mp hreject
        unfold hasKey at hwithout
        exact Option.not_isSome_iff_eq_none.mp (by simp [hwithout])
      rw [lookup_texts] at hlegacy
      rw [hlookup, hlegacy]
      rfl

/-- Every variable for production ends in one place, a sensitive one not among the values that
are no secrets, and another variable nowhere; and the deploy after this one, with the generated
secrets kept, comes to the same values and generates none. -/
theorem resolution_partitions (h : resolveContract platform draws saves state = .ok resolved) :
    ∃ context contract, Resolves platform draws saves state resolved context contract ∧
      (∀ key entry, (key, entry) ∈ contract.entries → entry.inProduction = true →
        ∃! bucket, EndsIn platform context resolved key entry bucket) ∧
      (∀ key entry, (key, entry) ∈ contract.entries → entry.sensitive = true → hasKey resolved.nonSecretValues key = false) ∧
      (∀ key, (∀ entry, (key, entry) ∈ contract.entries → entry.inProduction = false) → resolved.view key = .unseen) ∧
      ∀ iv state' draws' saves', platform.settings.Ciphers → nextDeploy platform.settings iv resolved.generated state = .ok state' →
        resolveContract platform draws' saves' state' = .ok resolved.kept ∧
          run platform draws' saves' state' = run platform draws saves state := by
  obtain ⟨context, contract, hresolves⟩ := resolveContract_iff.mp h
  refine ⟨context, contract, hresolves, ?_, fun key entry => hresolves.withheld, fun key => hresolves.unseen, ?_⟩
  · intro key entry hmem hproduction
    obtain ⟨outcome, token, houtcome, hview⟩ := hresolves.settled hmem hproduction
    refine ⟨outcome.bucket, (endsIn_iff houtcome hview _).mpr rfl, fun bucket hbucket => ?_⟩
    exact ((endsIn_iff houtcome hview bucket).mp hbucket).symm
  · intro iv state' draws' saves' hciphers hnext
    obtain ⟨context', hagain⟩ := hresolves.next hciphers hnext draws' saves'
    have hsecond := resolveContract_iff.mpr ⟨context', contract, hagain⟩
    refine ⟨hsecond, ?_⟩
    unfold run
    rw [h, hsecond]
    rfl

end

def samplePlatform : Platform where
  settings := Projects.sampleSettings
  upper s := s
  lower s := s
  isIpAddress _ := true
  getenv _ := some "registry"
  urlparse _ := none

def sampleContract : CanonicalEnvContract where
  entries := [
    ("APP_SECRET", ⟨.generatedSecret, ["production"], true⟩),
    ("USER_TOKEN", ⟨.userSecret "Token", ["production"], true⟩),
    ("MOTTO", ⟨.derived, ["production"], false⟩),
    ("API_PORT", ⟨.allocation ⟨some "backend", none, rfl⟩ false, ["production"], true⟩),
    ("DEBUG", ⟨.literal (.bool false), ["production"], true⟩),
    ("TRACE", ⟨.literal (.bool true), ["local"], true⟩)]
  nodup := by decide

def sampleState : DevOpsState where
  projectId := some "p"
  projectSpec := some [("slug", .text "demo"), ("config", .mapping [])]
  allocatedResources := [("vps-1:backend", .mapping [("service_name", .text "backend"), ("server_ip", .text "10.0.0.1"), ("port", .int 8001)])]
  repoInfo := none
  providedSecrets := []
  envOverrides := .none
  environmentContract := some sampleContract

def sampleResolved : ResolvedValues where
  secretValues := [("APP_SECRET", .text "first")]
  nonSecretValues := [("API_PORT", .text "8001"), ("DEBUG", .text "false")]
  generated := [("APP_SECRET", "first")]
  missingUser := [⟨"USER_TOKEN", "Token"⟩]

theorem sample_partitions : ∃ state', nextDeploy Projects.sampleSettings 0 sampleResolved.generated sampleState = .ok state' ∧
    resolveContract samplePlatform (fun _ => "second") (fun _ => false) state' = .ok sampleResolved.kept := by
  have h : resolveContract samplePlatform (fun _ => "first") (fun _ => true) sampleState = .ok sampleResolved := by decide +kernel
  have hsaved : (nextDeploy Projects.sampleSettings 0 sampleResolved.generated sampleState).isOk = true := by decide +kernel
  cases hnext : nextDeploy Projects.sampleSettings 0 sampleResolved.generated sampleState with
  | error e => simp [hnext, Except.isOk, Except.toBool] at hsaved
  | ok state' =>
    obtain ⟨_, _, _, _, _, _, hagain⟩ := resolution_partitions h
    exact ⟨state', rfl, (hagain 0 state' _ _ Projects.sample_ciphers hnext).1⟩

end Orchestrator.Environment
