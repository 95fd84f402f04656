import Orchestrator.Projects.Requests

/-!
The audience that is selected for a project's bot is the one that its deploys are given.
-/

namespace Orchestrator.Projects

open Async Python

def projectBotAudience (config : Mapping) : String :=
  match valueAt config "bot_access" with
  | .mapping access => match valueAt access "allowed_telegram_ids" with
    | .text audience => audience
    | _ => ""
  | _ => ""

def isText : Value → Bool
  | .text _ => true
  | _ => false

def stringMapping : Value → Option Mapping
  | .mapping entries => if entries.all fun entry => isText entry.2 then some entries else none
  | _ => none

def overridesAudience (config overrides : Mapping) : Bool :=
  match valueAt config "bot_access" with
  | .mapping access => hasKey overrides botAllowedIdsKey &&
      !(valueAt overrides botAllowedIdsKey).eq (valueAt access "allowed_telegram_ids")
  | _ => false

def overridesLegacyAudience (config overrides : Mapping) : Bool :=
  match valueAt config "bot_access", (config.lookup "secrets").getD (.mapping []) with
  | .mapping _, _ => false
  | _, .mapping secrets => hasKey secrets legacyBotAudienceKey && hasKey overrides botAllowedIdsKey
  | _, _ => false

def effectiveEnvOverrides (config : Mapping) (message : Value) : Except Raised Mapping :=
  match stringMapping (incomingOverrides config), stringMapping message with
  | none, _ => .error (.valueError "project env_overrides must be a string mapping")
  | some _, none => .error (.valueError "deploy env_overrides must be a string mapping")
  | some configured, some overrides =>
    if overridesAudience config overrides then .error (.valueError "deploy cannot override the configured bot audience")
    else if overridesLegacyAudience config overrides then
      .error (.valueError "deploy cannot override the legacy private bot audience")
    else .ok (updateKeys configured overrides)

def AudienceSelected (config : Mapping) : Prop :=
  valueAt config "bot_access" ≠ .none → ∃ access audience, valueAt config "bot_access" = .mapping access ∧
    valueAt access "allowed_telegram_ids" = .text audience ∧ storedAudience config = .text audience

section Configs

variable {config config' : Mapping} {settings : Settings} {iv : Nat}

theorem text_eq {v : Value} {s : String} (h : v.eq (.text s) = true) : v = .text s := by
  cases v with
  | text s' =>
    simp only [Value.eq, Value.scalarEq, beq_iff_eq] at h
    rw [h]
  | _ => simp [Value.eq, Value.scalarEq, Value.number] at h

theorem storedAudience_incoming (config : Mapping) :
    storedAudience config = valueAt (entriesOf (incomingOverrides config)) botAllowedIdsKey :=
  storedAudience_of_incoming rfl

theorem effective_audience {message : Value} {overrides : Mapping} (h : AudienceSelected config)
    (haccess : valueAt config "bot_access" ≠ .none) (heffective : effectiveEnvOverrides config message = .ok overrides) :
    valueAt overrides botAllowedIdsKey = .text (projectBotAudience config) := by
  obtain ⟨access, audience, hmapping, hids, hstored⟩ := h haccess
  have hchosen : projectBotAudience config = audience := by
    unfold projectBotAudience
    rw [hmapping]
    dsimp only
    rw [hids]
  rw [hchosen]
  unfold effectiveEnvOverrides at heffective
  split at heffective
  · cases heffective
  · cases heffective
  · rename_i configured given hconfigured hgiven
    split at heffective
    · cases heffective
    · rename_i hallowed
      split at heffective
      · cases heffective
      · cases heffective
        have hentries : entriesOf (incomingOverrides config) = configured := by
          unfold stringMapping at hconfigured
          split at hconfigured
          · rename_i entries hincoming
            split at hconfigured
            · rw [hincoming]
              exact Option.some.inj hconfigured
            · cases hconfigured
          · cases hconfigured
        rw [storedAudience_incoming, hentries] at hstored
        unfold valueAt at hstored ⊢
        rw [lookup_updateKeys]
        cases hlookup : given.lookup botAllowedIdsKey with
        | none => exact hstored
        | some value =>
          unfold overridesAudience at hallowed
          rw [hmapping] at hallowed
          dsimp only at hallowed
          rw [hids, valueAt_of_lookup hlookup, hasKey_iff.mpr ⟨value, hlookup⟩] at hallowed
          simpa using text_eq (by simpa using hallowed)

theorem selected_congr (haccess : valueAt config' "bot_access" = valueAt config "bot_access")
    (haudience : storedAudience config' = storedAudience config) (h : AudienceSelected config) : AudienceSelected config' := by
  unfold AudienceSelected
  rw [haccess, haudience]
  exact h

theorem selected_of_lookup (haccess : config'.lookup "bot_access" = config.lookup "bot_access")
    (hoverrides : config'.lookup "env_overrides" = config.lookup "env_overrides") (h : AudienceSelected config) :
    AudienceSelected config' := by
  refine selected_congr (valueAt_congr haccess) ?_ h
  unfold storedAudience envOverrides
  rw [valueAt_congr hoverrides]

theorem setKey_selected {key : String} (value : Value) (haccess : key ≠ "bot_access") (hoverrides : key ≠ "env_overrides")
    (h : AudienceSelected config) : AudienceSelected (setKey config key value) :=
  selected_of_lookup (lookup_setKey_of_ne _ _ haccess.symm) (lookup_setKey_of_ne _ _ hoverrides.symm) h

theorem vet_selected {project : Option ProjectRow} (h : AudienceSelected (storedConfig project))
    (hvetted : vetConfigWrite config project = .ok config') : AudienceSelected config' := by
  obtain ⟨hpreserves, _⟩ := vet_preserves hvetted
  exact selected_congr hpreserves.access hpreserves.audience h

theorem mergeSecrets_selected {secrets : List (String × String)} {envHints : Option (List (String × String))}
    {keys : List String} (h : AudienceSelected config)
    (hmerged : mergeSecretsIntoConfig settings iv secrets envHints config = .ok (config', keys)) : AudienceSelected config' := by
  unfold mergeSecretsIntoConfig at hmerged
  obtain ⟨existing, _, hmerged⟩ := bind_eq_ok.mp hmerged
  obtain ⟨blob, _, hmerged⟩ := bind_eq_ok.mp hmerged
  obtain ⟨hinted, hhints, hmerged⟩ := bind_eq_ok.mp hmerged
  cases hmerged
  have hsecrets : AudienceSelected (setKey config "secrets" blob) := setKey_selected _ (by decide) (by decide) h
  unfold mergeHints at hhints
  split at hhints
  · cases hhints
    exact hsecrets
  · split at hhints
    · cases hhints
      exact setKey_selected _ (by decide) (by decide) hsecrets
    · cases hhints

theorem deleteSecret_selected {key : String} {keys : List String} (h : AudienceSelected config)
    (hdeleted : deleteSecretFromConfig settings iv key config = .ok (config', keys)) : AudienceSelected config' := by
  unfold deleteSecretFromConfig at hdeleted
  obtain ⟨existing, _, hdeleted⟩ := bind_eq_ok.mp hdeleted
  obtain ⟨_, _, hdeleted⟩ := bind_eq_ok.mp hdeleted
  obtain ⟨_, _, hdeleted⟩ := bind_eq_ok.mp hdeleted
  obtain ⟨blob, _, hdeleted⟩ := bind_eq_ok.mp hdeleted
  cases hdeleted
  exact setKey_selected _ (by decide) (by decide) h

theorem selectBotAccess_selected {body : BotAccessRequest} (hselected : selectBotAccess settings iv body config = .ok config') :
    AudienceSelected config' := by
  unfold selectBotAccess at hselected
  obtain ⟨overrides, _, hselected⟩ := bind_eq_ok.mp hselected
  have hchosen : AudienceSelected (setKey (setKey config "env_overrides"
      (.mapping (setKey overrides botAllowedIdsKey (.text body.allowedTelegramIds)))) "bot_access" body.access) := by
    intro _
    refine ⟨_, body.allowedTelegramIds, valueAt_setKey_self .., rfl, ?_⟩
    unfold storedAudience envOverrides
    rw [valueAt_setKey_of_ne _ _ (by decide), valueAt_setKey_self]
    exact valueAt_setKey_self ..
  unfold dropLegacyAudience at hselected
  obtain ⟨existing, _, hselected⟩ := bind_eq_ok.mp hselected
  split at hselected
  · obtain ⟨blob, _, hselected⟩ := bind_eq_ok.mp hselected
    cases hselected
    exact setKey_selected _ (by decide) (by decide) hchosen
  · cases hselected
    exact hchosen

theorem released_selected {release : Release} {repositories : List RepositoryRow} (h : AudienceSelected config)
    (hreleased : releaseBotBinding settings iv config repositories = .ok release) :
    ∀ config' ∈ release.config, AudienceSelected config' := by
  unfold releaseBotBinding at hreleased
  obtain ⟨released, hconfig, hreleased⟩ := bind_eq_ok.mp hreleased
  cases hreleased
  intro config' hconfig'
  cases hconfig'
  unfold releasedConfig at hconfig
  obtain ⟨secrets, _, hconfig⟩ := bind_eq_ok.mp hconfig
  split at hconfig
  · obtain ⟨blob, _, hconfig⟩ := bind_eq_ok.mp hconfig
    cases hconfig
    exact setKey_selected _ (by decide) (by decide) h
  · cases hconfig

end Configs

def AllSelected (d : Data) : Prop := ∀ projectId row, d.projects projectId = some row → AudienceSelected row.config

section Commits

variable {T : Type} [DecidableEq T] {settings : Settings} {iv : Nat} {d d' : Data} {readings : List Reading}

abbrev audience : Schema.Discipline schema T Response where
  admits := admitted
  sound := AllSelected
  lawful _ _ _ := True
  lawful_refl _ _ := trivial
  steady := steady
  steady_refl := steady_refl
  steady_trans := steady_trans
  fair _ _ _ := True
  fair_nil _ := trivial

theorem change_selected {project : Option (String × ProjectChange)} {repositories : List (String × Option String)}
    {applications : List (Int × ApplicationChange)} (hall : AllSelected d)
    (hchange : ∀ changed change config, project = some (changed, change) → change.config = some config → AudienceSelected config)
    (h : d.write (.change project repositories applications) = .ok d') : AllSelected d' := by
  intro projectId row hrow
  rw [write_projects h] at hrow
  cases project with
  | none => exact hall projectId row hrow
  | some project =>
    obtain ⟨changed, change⟩ := project
    dsimp only at hrow
    split at hrow
    · obtain ⟨old, hold, rfl⟩ := Option.map_eq_some_iff.mp hrow
      have hold' : AudienceSelected old.config := hall changed old hold
      cases hconfig : change.config with
      | none => simpa only [ProjectChange.apply, hconfig, Option.getD_none] using hold'
      | some config => simpa only [ProjectChange.apply, hconfig, Option.getD_some] using hchange _ _ config rfl hconfig
    · exact hall projectId row hrow

theorem backed_selected {reading : Reading} (h : (audience (T := T)).Backed d reading) {projectId : String} {row : ProjectRow}
    (hreading : reading = ⟨.findProject projectId, some row⟩ ∨ reading = ⟨.lockProject projectId, some row⟩) :
    AudienceSelected row.config := by
  obtain ⟨before, hall, hanswer, _⟩ := h
  rcases hreading with rfl | rfl
  · exact hall projectId row (Except.ok.inj hanswer)
  · exact hall projectId row (Except.ok.inj hanswer)

theorem archived_selected {projectId : String} {row : ProjectRow} {release : Release} (hrow : AudienceSelected row.config)
    (h : ReleasesArchived settings iv readings projectId row release) : ∀ config ∈ release.config, AudienceSelected config := by
  rcases h with ⟨_, rfl⟩ | ⟨_, repositories, _, hrelease⟩
  · intro config hconfig
    cases hconfig
  · exact released_selected hrow hrelease

theorem revise_selected {projectIn : ProjectUpdate} {project row : ProjectRow} (h : AudienceSelected project.config)
    (hrow : projectIn.revise project = .ok row) : AudienceSelected row.config := by
  unfold ProjectUpdate.revise at hrow
  obtain ⟨config, hconfig, hrow⟩ := bind_eq_ok.mp hrow
  cases hrow
  unfold ProjectUpdate.revisedConfig at hconfig
  split at hconfig
  · cases hconfig
    exact h
  · exact vet_selected (show AudienceSelected (storedConfig (some project)) from h) hconfig

theorem getD_selected {release : Option Mapping} {config : Mapping} (hconfig : AudienceSelected config)
    (hrelease : ∀ config' ∈ release, AudienceSelected config') : AudienceSelected (release.getD config) := by
  cases release with
  | none => exact hconfig
  | some released => exact hrelease released rfl

theorem decides_selected {request : Request} {write : Write} (hall : AllSelected d)
    (hbacked : ∀ reading ∈ readings, (audience (T := T)).Backed d reading) (h : Decides settings iv readings request write)
    (hwrite : d.write write = .ok d') : AllSelected d' := by
  have hlocked : ∀ {projectId : String} {row : ProjectRow}, Read readings (.lockProject projectId) (some row) →
      AudienceSelected row.config := fun hread => backed_selected (hbacked _ hread) (.inr rfl)
  have hproject : ∀ {projectId : String} {projectIn : ProjectUpdate},
      WritesProject settings iv readings projectId projectIn write → AllSelected d' := by
    rintro projectId projectIn ⟨project, row, release, hread, hrevise, hrelease, rfl⟩
    have hrow : AudienceSelected row.config := revise_selected (hlocked hread) hrevise
    refine change_selected hall ?_ hwrite
    rintro _ _ config ⟨⟩ hconfig
    cases hconfig
    exact getD_selected hrow (archived_selected hrow hrelease)
  have hconfig : ∀ {A : Type} {projectId : String} {f : Mapping → Except HTTPException (Mapping × A)},
      (∀ config config' a, AudienceSelected config → f config = .ok (config', a) → AudienceSelected config') →
        WritesConfig readings projectId f write → AllSelected d' := by
    rintro A projectId f hf ⟨project, config, a, hread, hdone, rfl⟩
    refine change_selected hall ?_ hwrite
    rintro _ _ config' ⟨⟩ hconfig'
    cases hconfig'
    exact hf _ _ _ (hlocked hread) hdone
  have hteardown : ∀ {projectId : String} {stalled : Int → Option String}
      {stage : List ApplicationRow → List ApplicationRow × List Int × List (Int × ApplicationChange)},
      TearsDown settings iv readings projectId stalled stage write → AllSelected d' := by
    rintro projectId stalled stage ⟨project, repositories, applications, state, release, hread, _, _, hstate, rfl⟩
    cases release with
    | none =>
      refine change_selected hall ?_ hwrite
      rintro _ _ _ ⟨⟩
    | some release =>
      refine change_selected hall ?_ hwrite
      rintro _ _ config ⟨⟩ hconfig
      cases hconfig
      unfold teardownState at hstate
      dsimp only at hstate
      split at hstate
      · cases hstate
      · split at hstate
        · obtain ⟨released, hreleased, hpair⟩ := map_eq_ok.mp hstate
          cases hpair
          exact getD_selected (hlocked hread) (released_selected (hlocked hread) hreleased)
        · cases hstate
  cases request with
  | create generated xTelegramId projectIn =>
    obtain ⟨projectId, initial, config, owner, _, hvetted, rfl⟩ := h
    have hnothing : AudienceSelected (storedConfig none) := fun haccess => absurd rfl haccess
    have hnew : AudienceSelected config := vet_selected hnothing hvetted
    simp only [Data.write] at hwrite
    split at hwrite
    · cases hwrite
    · cases hwrite
      intro other row hrow
      dsimp only at hrow
      by_cases hother : other = projectId
      · subst hother
        rw [Function.update_self] at hrow
        cases hrow
        exact hnew
      · rw [Function.update_of_ne hother] at hrow
        exact hall other row hrow
  | mergeSecrets projectId caller secrets envHints => exact hconfig (fun _ _ _ => mergeSecrets_selected) h.2.2
  | setBotAccess projectId caller body =>
    refine hconfig (f := fun config => (selectBotAccess settings iv body config).map (·, ())) (fun config config' a _ hdone => ?_) h
    obtain ⟨selected, hselected, hpair⟩ := map_eq_ok.mp hdone
    cases hpair
    exact selectBotAccess_selected hselected
  | deleteSecret projectId caller key => exact hconfig (fun _ _ _ => deleteSecret_selected) h
  | bindTelegramToken projectId caller token telegram =>
    obtain ⟨project, botUsername, repo, config, keys, hread, _, _, _, hmerged, rfl⟩ := h
    refine change_selected hall ?_ hwrite
    rintro _ _ config' ⟨⟩ hconfig'
    cases hconfig'
    exact mergeSecrets_selected (hlocked hread) hmerged
  | updateApplication applicationId fields =>
    obtain ⟨application, projectId, release, _, hrelease, rfl⟩ := h
    refine change_selected hall ?_ hwrite
    intro changed change config hchange hconfig'
    obtain ⟨released, hreleased, hpair⟩ := Option.map_eq_some_iff.mp hchange
    cases hpair
    cases hconfig'
    rcases hrelease with rfl | ⟨_, _, _, _, project, repositories, _, _, hread, _, _, hdone⟩
    · cases hreleased
    · exact released_selected (backed_selected (hbacked _ hread) (.inl rfl)) hdone _ hreleased
  | teardown projectId caller stalled | teardownStatus projectId caller stalled => exact hteardown h
  | scaffolded projectId scaffold =>
    obtain ⟨_, _, hwrites⟩ := h
    exact hproject hwrites
  | notifyWorkspaceDeleted repoId =>
    obtain ⟨repo, seen, _, hread, rfl⟩ := h
    unfold clearedWrite at hwrite
    split at hwrite
    · refine change_selected hall ?_ hwrite
      rintro _ _ config ⟨⟩ hconfig'
      cases hconfig'
      apply selected_of_lookup (lookup_popKey_of_ne _ (by decide)) (lookup_popKey_of_ne _ (by decide))
      exact backed_selected (hbacked _ hread) (.inl rfl)
    · refine change_selected hall ?_ hwrite
      rintro _ _ _ ⟨⟩
  | _ => exact hproject h

end Commits

def Data.opening (repositories : List RepositoryRow) (applications : List ApplicationRow) (users : Int → Option User) : Data :=
  ⟨fun _ => none, repositories, applications, users, []⟩

section Runs

variable {T : Type} [DecidableEq T] {settings : Settings} {iv : T → Nat} {request : T → Request} {data : Data}
variable {repositories : List RepositoryRow} {applications : List ApplicationRow} {users : Int → Option User}

theorem reaches_selected {c : Config (schema.world T Response)} (hall : AllSelected data)
    (h : Reaches (fun t => handler settings (iv t) (request t)) admitted (.idle (Schema.Tables.opening data)) c) :
    AllSelected c.state.data := by
  have hholds : (audience (T := T)).Holds c.state := by
    refine Schema.Discipline.reaches_justified (fun _ _ => admitted_unblocked) (fun _ _ _ => trivial)
      (fun t => handler_justified settings (iv t) (request t)) ?_ hall h
    intro t s write fate after hi hadm hbacked hdecides hwrite
    exact ⟨decides_selected hi.sound hbacked hdecides hwrite, trivial, fun u hu key hkey => write_steady hadm hwrite hu hkey⟩
  exact hholds.sound

/-- A whole-configuration write keeps what others own of a configuration; and whatever requests
are served beside each other, deploys of a project with bot access are given its audience. -/
theorem protected_state_kept {c : Config (schema.world T Response)}
    (h : Reaches (fun t => handler settings (iv t) (request t)) admitted
      (.idle (Schema.Tables.opening (Data.opening repositories applications users))) c) :
    (∀ config project vetted, vetConfigWrite config project = .ok vetted → Preserves (storedConfig project) config vetted) ∧
      ∀ projectId row, c.state.data.projects projectId = some row → valueAt row.config "bot_access" ≠ .none →
        storedAudience row.config = .text (projectBotAudience row.config) ∧
          ∀ message overrides, effectiveEnvOverrides row.config message = .ok overrides →
            valueAt overrides botAllowedIdsKey = .text (projectBotAudience row.config) := by
  refine ⟨fun config project vetted hvetted => (vet_preserves hvetted).1, fun projectId row hrow haccess => ?_⟩
  have hopening : AllSelected (Data.opening repositories applications users) := fun _ _ hnone => nomatch hnone
  have hselected : AudienceSelected row.config := reaches_selected hopening h projectId row hrow
  refine ⟨?_, fun message overrides heffective => effective_audience hselected haccess heffective⟩
  obtain ⟨access, audience, hmapping, hids, hstored⟩ := hselected haccess
  unfold projectBotAudience
  rw [hmapping]
  dsimp only
  rw [hids, hstored]

end Runs

def sampleSettings : Settings where
  defaultAgentType := .claude
  encrypt _ s := .ok ("enc " ++ s)
  decrypt s := .ok (String.ofList (s.toList.drop 4))
  render _ := ""

def served (t n : Nat) : List (Turn (schema.world Nat Response)) := .start t :: List.replicate n (.call t fun _ => .served)

def play (request : Nat → Request) (data : Data) (turns : List (Turn (schema.world Nat Response))) : Config (schema.world Nat Response) :=
  (Config.idle (Schema.Tables.opening data)).play (fun t => handler sampleSettings t (request t)) turns

def sampleRequest : Nat → Request
  | 0 => .create "p" (some 7) ⟨none, "Bot", .draft, [], "run"⟩
  | 1 => .setBotAccess "p" scaffolder ⟨"only_me", "42", by decide⟩
  | _ => .patch "p" scaffolder (configUpdate [("tree", .text "src")])

def samplePlay : Config (schema.world Nat Response) :=
  play sampleRequest (.opening [] [] fun _ => some ⟨1, false⟩) (served 0 3 ++ served 1 2 ++ served 2 3)

theorem replaced_config_kept : ∃ row, samplePlay.state.data.projects "p" = some row ∧ storedAudience row.config = .text "42" := by
  have hreaches : Reaches (fun t => handler sampleSettings t (sampleRequest t)) admitted
      (.idle (Schema.Tables.opening (Data.opening [] [] fun _ => some ⟨1, false⟩))) samplePlay := play_reaches (by decide +kernel)
  have hchosen : (samplePlay.state.data.projects "p").map (projectBotAudience ·.config) = some "42" := by decide +kernel
  have haccess : (samplePlay.state.data.projects "p").map (fun row => (valueAt row.config "bot_access").isNone) = some false := by
    decide +kernel
  cases hrow : samplePlay.state.data.projects "p" with
  | none =>
    rw [hrow] at hchosen
    cases hchosen
  | some row =>
    rw [hrow] at hchosen haccess
    refine ⟨row, rfl, ?_⟩
    rw [← Option.some.inj hchosen]
    refine ((protected_state_kept hreaches).2 "p" row hrow ?_).1
    intro hnone
    rw [Option.map_some, hnone] at haccess
    cases haccess

end Orchestrator.Projects
