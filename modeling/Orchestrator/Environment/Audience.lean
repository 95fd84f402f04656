import Orchestrator.Environment.Partition

/-!
The audience of a bot that is not public, from the project's configuration to the environment the
deploy gives the bot.
-/

namespace Orchestrator.Environment

open Python Contracts
open Projects (bind_eq_ok updateKeys lookup_updateKeys text_eq namesTelegramId botAllowedIdsKey legacyBotAudienceKey)

def configuredAudience (context : ResolutionContext) : Value :=
  match valueAt context.config "bot_access" with
  | .mapping access => valueAt access "allowed_telegram_ids"
  | _ => valueAt context.configSecrets legacyBotAudienceKey

def NotPublic (context : ResolutionContext) : Prop :=
  match valueAt context.config "bot_access" with
  | .mapping access => (valueAt access "mode").eq (.text "public") = false
  | _ => isTgBotProject context.config = true ∨ hasKey context.configSecrets legacyBotAudienceKey = true

section

variable {platform : Platform} {draws : Nat → String} {saves : List (String × String) → Bool} {state : DevOpsState}
  {resolved : ResolvedValues} {context : ResolutionContext} {contract : CanonicalEnvContract} {config secrets message overrides : Mapping}
  {audience : String}

theorem refuseIf_ok {wrong : Bool} {text : String} {u : Unit} (h : refuseIf wrong text = .ok u) : wrong = false := by
  cases wrong with
  | false => rfl
  | true => cases h

theorem privateAudience_some {value : Value} (h : privateAudience value = some audience) :
    value = .text audience ∧ namesTelegramId audience = true := by
  unfold privateAudience at h
  obtain ⟨htext, hnames⟩ := Option.filter_eq_some_iff.mp h
  cases value with
  | text s =>
    obtain rfl := Option.some.inj htext
    exact ⟨rfl, hnames⟩
  | _ => cases htext

theorem overridden_false {value : Value} (h : overridden overrides value = false) (hkey : hasKey overrides botAllowedIdsKey = true) :
    (valueAt overrides botAllowedIdsKey).eq value = true := by
  unfold overridden at h
  rw [hkey, Bool.true_and, Bool.not_eq_false'] at h
  exact h

theorem hasKey_of_text {entries : Mapping} {key text : String} (h : valueAt entries key = .text text) : hasKey entries key = true := by
  unfold hasKey
  cases hlookup : entries.lookup key with
  | none =>
    rw [valueAt, hlookup] at h
    cases h
  | some value => rfl

theorem mem_of_lookup {A : Type} {entries : List (String × A)} {key : String} {entry : A} (h : entries.lookup key = some entry) :
    (key, entry) ∈ entries := by
  induction entries with
  | nil => cases h
  | cons head rest ih =>
    obtain ⟨k, e⟩ := head
    by_cases hkey : key = k
    · subst hkey
      rw [List.lookup_cons_self] at h
      obtain rfl := Option.some.inj h
      exact List.mem_cons_self
    · rw [List.lookup_cons, show (key == k) = false by simpa using hkey] at h
      exact List.mem_cons_of_mem _ (ih h)

theorem lookup_of_mem {key : String} {entry : EnvContractEntry} (h : (key, entry) ∈ contract.entries) :
    contract.entries.lookup key = some entry := by
  cases hlookup : contract.entries.lookup key with
  | none => exact absurd (List.lookup_eq_none_iff.mp hlookup _ h) (by simp)
  | some other =>
    have hsame := List.inj_on_of_nodup_map contract.nodup (mem_of_lookup hlookup) h rfl
    rw [(Prod.mk.inj hsame).2]

theorem migrate_audience (h : migrateLegacyAudience secrets overrides message contract = .ok config)
    (hlegacy : hasKey secrets legacyBotAudienceKey = true) (hdeclared : contract.declares botAllowedIdsKey = true) :
    ∃ audience, valueAt secrets legacyBotAudienceKey = .text audience ∧ namesTelegramId audience = true ∧
      valueAt config botAllowedIdsKey = .text audience ∧
      (hasKey message botAllowedIdsKey = true → valueAt message botAllowedIdsKey = .text audience) := by
  unfold migrateLegacyAudience at h
  rw [hlegacy, hdeclared, Bool.true_and, if_pos rfl] at h
  cases hprivate : privateAudience (valueAt secrets legacyBotAudienceKey) with
  | none =>
    rw [hprivate] at h
    cases h
  | some audience =>
    rw [hprivate] at h
    obtain ⟨htext, hnames⟩ := privateAudience_some hprivate
    cases hmessage : overridden message (.text audience) with
    | true => simp [hmessage, refuse] at h
    | false =>
      cases hoverrides : overridden overrides (.text audience) with
      | true => simp [hmessage, hoverrides, refuse] at h
      | false =>
        simp only [hmessage, hoverrides, Bool.false_eq_true, if_false] at h
        refine ⟨audience, htext, hnames, ?_, fun hkey => text_eq (overridden_false hmessage hkey)⟩
        split at h
        next hkey =>
          obtain rfl := Except.ok.inj h
          exact text_eq (overridden_false hoverrides hkey)
        next =>
          obtain rfl := Except.ok.inj h
          exact valueAt_setKey_self ..

theorem vetBotAccess_audience {access : Mapping} (h : vetBotAccess access overrides contract = .ok ())
    (hmode : (valueAt access "mode").eq (.text "public") = false) :
    ∃ audience, valueAt access "allowed_telegram_ids" = .text audience ∧ namesTelegramId audience = true ∧
      valueAt overrides botAllowedIdsKey = .text audience := by
  obtain ⟨mode, hknown, h⟩ := bind_eq_ok.mp h
  obtain ⟨_, _, h⟩ := bind_eq_ok.mp h
  obtain ⟨_, hselected, h⟩ := bind_eq_ok.mp h
  have hprivate : mode ≠ "public" := by
    rintro rfl
    unfold accessMode at hknown
    split at hknown
    · cases hknown
    · split at hknown
      · cases hknown
      next htext =>
        obtain rfl := Except.ok.inj hknown
        cases hvalue : valueAt access "mode" with
        | text s =>
          rw [hvalue] at htext hmode
          obtain rfl := Option.some.inj (Option.filter_eq_some_iff.mp htext).1
          simp [Value.eq, Value.scalarEq] at hmode
        | _ =>
          rw [hvalue] at htext
          cases htext
  unfold vetSelectedAudience at hselected
  rw [if_neg hprivate] at hselected
  obtain ⟨audience, haudience⟩ := Option.isSome_iff_exists.mp (by simpa using refuseIf_ok hselected)
  obtain ⟨htext, hnames⟩ := privateAudience_some haudience
  have heffective := refuseIf_ok h
  rw [htext, Bool.not_eq_false'] at heffective
  exact ⟨audience, htext, hnames, text_eq heffective⟩

section

variable (h : Resolves platform draws saves state resolved context contract)

include h

theorem Resolves.audience_agreed (hprivate : NotPublic context)
    (hdeclared : contract.declares botAllowedIdsKey = true) :
    ∃ audience, configuredAudience context = .text audience ∧ namesTelegramId audience = true ∧
      valueAt context.envOverrides botAllowedIdsKey = .text audience ∧
      ∀ message, Projects.orEmpty state.envOverrides = .mapping message → hasKey message botAllowedIdsKey = true →
        valueAt message botAllowedIdsKey = .text audience := by
  have haudience := h.audience
  obtain ⟨⟨configured, message⟩, hmappings, hoverrides⟩ := bind_eq_ok.mp h.overrides
  obtain ⟨_, hvetted, hmigrated⟩ := bind_eq_ok.mp hoverrides
  have hmessage : ∀ message', Projects.orEmpty state.envOverrides = .mapping message' → message' = message := fun message' heq => by
    unfold overrideMappings at hmappings
    rw [heq] at hmappings
    split at hmappings
    next hentries =>
      obtain ⟨_, rfl⟩ := Prod.mk.inj (Except.ok.inj hmappings)
      exact Value.mapping.inj hentries
    · cases hmappings
  unfold validateBotAudience at haudience
  unfold NotPublic at hprivate
  unfold configuredAudience
  unfold vetMessageAudience at hvetted
  cases haccess : valueAt context.config "bot_access" with
  | mapping access =>
    rw [haccess] at haudience hprivate hvetted
    obtain ⟨audience, htext, hnames, heffective⟩ := vetBotAccess_audience haudience hprivate
    refine ⟨audience, htext, hnames, heffective, fun message' heq hkey => ?_⟩
    obtain rfl := hmessage message' heq
    simp only [htext] at hvetted
    exact text_eq (overridden_false (refuseIf_ok hvetted) hkey)
  | none =>
    rw [haccess] at haudience hprivate
    have hlegacy : hasKey context.configSecrets legacyBotAudienceKey = true := by
      have hgiven := refuseIf_ok haudience
      rw [hdeclared, Bool.and_true] at hgiven
      rcases hprivate with hbot | hlegacy
      · simpa [hbot] using hgiven
      · exact hlegacy
    obtain ⟨audience, htext, hnames, heffective, hkept⟩ := migrate_audience hmigrated hlegacy hdeclared
    refine ⟨audience, htext, hnames, heffective, fun message' heq hkey => ?_⟩
    obtain rfl := hmessage message' heq
    exact hkept hkey
  | _ =>
    rw [haccess] at haudience
    cases haudience

theorem Resolves.override_resolved {key : String} {entry : EnvContractEntry}
    (hmem : (key, entry) ∈ contract.entries) (hproduction : entry.inProduction = true)
    (hoverride : valueAt context.envOverrides key = .text audience) :
    resolved.view key = ⟨none, some (.text audience), none, false⟩ := by
  have hliteral : entry.isLiteral = true := by
    have hdeclared := refuseIf_ok h.declared
    rw [Bool.not_eq_false', List.isEmpty_iff] at hdeclared
    have hkey : key ∈ Projects.sortedKeys context.envOverrides := by
      refine List.mem_mergeSort.mpr (List.mem_map.mpr ?_)
      obtain ⟨value, hlookup⟩ := hasKey_iff.mp (hasKey_of_text hoverride)
      exact ⟨(key, value), mem_of_lookup hlookup, rfl⟩
    have hkept := List.filter_eq_nil_iff.mp hdeclared key hkey
    rw [Bool.not_eq_true, Bool.not_eq_false', declaredLiteral, lookup_of_mem hmem] at hkept
    exact hkept
  obtain ⟨outcome, token, houtcome, hview⟩ := h.settled hmem hproduction
  rw [hview]
  unfold EnvContractEntry.isLiteral at hliteral
  cases hsource : entry.source with
  | literal value =>
    have hvalue : literalValue platform key value context = .text audience := by
      unfold literalValue
      rw [hoverride]
    have hplain : entry.sensitive = false := by
      unfold EnvContractEntry.sensitive
      rw [hsource]
    unfold entryOutcome sourceOutcome at houtcome
    simp only [hsource, hvalue, hplain] at houtcome
    obtain rfl := Except.ok.inj houtcome
    rfl
  | _ =>
    rw [hsource] at hliteral
    cases hliteral

theorem Resolves.audience_declared
    (hbot : valueAt context.config "bot_access" ≠ .none ∨ isTgBotProject context.config = true) :
    contract.declares botAllowedIdsKey = true := by
  have haudience := h.audience
  unfold validateBotAudience at haudience
  cases haccess : valueAt context.config "bot_access" with
  | mapping access =>
    rw [haccess] at haudience
    obtain ⟨mode, _, haudience⟩ := bind_eq_ok.mp haudience
    obtain ⟨_, hdeclared, _⟩ := bind_eq_ok.mp haudience
    simpa using refuseIf_ok hdeclared
  | none =>
    rw [haccess] at haudience hbot
    have hmodule : isTgBotProject context.config = true := hbot.resolve_left fun hne => hne rfl
    have hgiven := refuseIf_ok haudience
    rw [hmodule, Bool.true_and, Bool.not_eq_false', Bool.and_eq_true] at hgiven
    exact hgiven.2
  | _ =>
    rw [haccess] at haudience
    cases haudience

end

theorem effective_message (h : Projects.effectiveEnvOverrides config (.mapping message) = .ok overrides)
    (hkey : hasKey message botAllowedIdsKey = true) : hasKey overrides botAllowedIdsKey = true ∧
      valueAt overrides botAllowedIdsKey = valueAt message botAllowedIdsKey := by
  unfold Projects.effectiveEnvOverrides at h
  split at h
  · cases h
  · cases h
  next configured given _ hgiven =>
    have hsame : (if message.all (fun entry => Projects.isText entry.2) then some message else none) = some given := hgiven
    obtain rfl : message = given := by
      split at hsame
      · exact Option.some.inj hsame
      · cases hsame
    split at h
    · cases h
    split at h
    · cases h
    obtain rfl := Except.ok.inj h
    obtain ⟨value, hvalue⟩ := hasKey_iff.mp hkey
    unfold hasKey valueAt
    rw [lookup_updateKeys, hvalue]
    exact ⟨rfl, rfl⟩

theorem orEmpty_mapping (entries : Mapping) : Projects.orEmpty (.mapping entries) = .mapping entries := by
  cases entries <;> rfl

/-- Where the variable is declared for production, a bot that is not public is deployed with the
audience that is configured, which enables somebody, and with no other that a deploy's message
may name. -/
theorem private_audience_deployed (h : resolveContract platform draws saves state = .ok resolved) :
    ∃ context contract, Resolves platform draws saves state resolved context contract ∧
      (valueAt context.config "bot_access" ≠ .none ∨ isTgBotProject context.config = true →
        contract.declares botAllowedIdsKey = true) ∧
      (NotPublic context → ∀ entry, (botAllowedIdsKey, entry) ∈ contract.entries → entry.inProduction = true →
        ∃ audience, configuredAudience context = .text audience ∧ namesTelegramId audience = true ∧
          resolved.view botAllowedIdsKey = ⟨none, some (.text audience), none, false⟩ ∧
          ∀ message overrides, Projects.effectiveEnvOverrides context.config (.mapping message) = .ok overrides →
            state.envOverrides = .mapping overrides → hasKey message botAllowedIdsKey = true →
              valueAt message botAllowedIdsKey = .text audience) := by
  obtain ⟨context, contract, hresolves⟩ := resolveContract_iff.mp h
  refine ⟨context, contract, hresolves, hresolves.audience_declared, fun hprivate entry hmem hproduction => ?_⟩
  have hdeclared : contract.declares botAllowedIdsKey = true := by
    unfold CanonicalEnvContract.declares
    rw [lookup_of_mem hmem]
    rfl
  obtain ⟨audience, hconfigured, hnames, hoverride, hmessages⟩ := hresolves.audience_agreed hprivate hdeclared
  refine ⟨audience, hconfigured, hnames, hresolves.override_resolved hmem hproduction hoverride, ?_⟩
  intro message overrides heffective hstate hkey
  obtain ⟨hthere, hsame⟩ := effective_message heffective hkey
  rw [← hsame]
  exact hmessages overrides (by rw [hstate, orEmpty_mapping]) hthere

end

def botState (config : Mapping) (environments : List String) : DevOpsState where
  projectId := some "p"
  projectSpec := some [("slug", .text "demo"), ("config", .mapping config)]
  allocatedResources := []
  repoInfo := none
  providedSecrets := []
  envOverrides := .mapping []
  environmentContract := some ⟨[(botAllowedIdsKey, ⟨.literal (.text ""), environments, false⟩)], by simp⟩

def selectedConfig (audience : String) : Mapping :=
  [("modules", .list [.text "tg_bot"]), ("env_overrides", .mapping [(botAllowedIdsKey, .text audience)]),
    ("bot_access", .mapping [("mode", .text "custom"), ("allowed_telegram_ids", .text audience)])]

theorem selected_audience_deployed : ∃ resolved audience,
    resolveContract samplePlatform (fun _ => "") (fun _ => true) (botState (selectedConfig "42") ["production"]) = .ok resolved ∧
      namesTelegramId audience = true ∧ resolved.view botAllowedIdsKey = ⟨none, some (.text audience), none, false⟩ := by
  have h : resolveContract samplePlatform (fun _ => "") (fun _ => true) (botState (selectedConfig "42") ["production"]) =
      .ok ⟨[], [(botAllowedIdsKey, .text "42")], [], []⟩ := by decide +kernel
  obtain ⟨context, contract, hresolves, _, haudience⟩ := private_audience_deployed h
  obtain ⟨projectId, hproject⟩ := hresolves.project
  have hspec := Option.some.inj (validated_again hproject rfl).2
  have hconfig : selectedConfig "42" = context.config := Except.ok.inj ((congrArg configOf hspec).trans hresolves.config)
  have hprivate : NotPublic context := by
    unfold NotPublic
    rw [← hconfig]
    rfl
  obtain rfl := Except.ok.inj hresolves.valid
  obtain ⟨audience, _, hnames, hview, _⟩ := haudience hprivate _ List.mem_cons_self rfl
  exact ⟨_, audience, h, hnames, hview⟩

/-- A part that is no ID stays in a list that has others; a repository from before the variable
deploys a legacy bot without it; and so does one that declares it for development only. -/
theorem audience_not_deployed :
    resolveContract samplePlatform (fun _ => "") (fun _ => true) (botState (selectedConfig "42,abc") ["production"]) =
        .ok ⟨[], [(botAllowedIdsKey, .text "42,abc")], [], []⟩ ∧
      Projects.readsAsInt "abc".toList = false ∧
      resolveContract samplePlatform (fun _ => "") (fun _ => true)
        { botState [("secrets", .mapping [(legacyBotAudienceKey, .text "enc 42")])] [] with
          environmentContract := some ⟨[], by simp⟩ } = .ok ⟨[], [], [], []⟩ ∧
      resolveContract samplePlatform (fun _ => "") (fun _ => true) (botState (selectedConfig "42") ["local"]) =
        .ok ⟨[], [], [], []⟩ := by
  refine ⟨by decide +kernel, by decide +kernel, by decide +kernel, by decide +kernel⟩

end Orchestrator.Environment
