import Orchestrator.Projects.Audience

/-!
Which parts of a configuration a request writes, and that it leaves the others as they are.
-/

namespace Orchestrator.Projects

open Async Python
open Placement (ApplicationStatus)

inductive ConfigKey where
  | secret (key : String)
  | hint (key : String)
  | override (key : String)
  | key (key : String)
deriving DecidableEq

def readKey (settings : Settings) (config : Mapping) : ConfigKey → Value
  | .secret key => match existingSecrets settings config with
    | .ok secrets => valueAt secrets key
    | .error _ => .none
  | .hint key => valueAt (entriesOf (valueAt config "env_hints")) key
  | .override key => valueAt (envOverrides config) key
  | .key key =>
    if key = "secrets" then .none
    else if key = "env_hints" ∨ key = "env_overrides" then hollow (valueAt config key)
    else valueAt config key

def ConfigKey.isSecret : ConfigKey → Bool
  | .secret _ => true
  | _ => false

def ConfigKey.ofBot (c : ConfigKey) : Bool := c == .secret telegramTokenKey || c == .secret telegramUsernameKey

def namedByConfig (config : Mapping) : ConfigKey → Bool
  | .secret _ => false
  | .hint _ => true
  | .override key => key != botAllowedIdsKey
  | .key key => key != "bot_access" && (key != "agent_type" || !(valueAt config "agent_type").isNone)

def ProjectUpdate.names (projectIn : ProjectUpdate) (row : ProjectRow) (c : ConfigKey) : Bool :=
  (decide (projectIn.status.getD row.status = .archived) && c.ofBot) ||
    match projectIn.config with
    | none => false
    | some config => namedByConfig config c

def namesSecrets (secrets : List (String × String)) (envHints : List (String × String)) : ConfigKey → Bool
  | .secret key => hasKey (texts secrets) key
  | .hint key => hasKey (texts envHints) key
  | .override _ => false
  | .key key => key == "env_hints" && !envHints.isEmpty

def isMapping : Value → Bool
  | .mapping _ => true
  | _ => false

def namesAccess (config : Mapping) : ConfigKey → Bool
  | .secret key => key == legacyBotAudienceKey
  | .hint _ => false
  | .override key => key == botAllowedIdsKey || !isMapping (orEmpty (valueAt config "env_overrides"))
  | .key key => key == "bot_access" || key == "env_overrides"

def Scaffold.names : Scaffold → ConfigKey → Bool
  | .success _ serviceTemplate specsSummary, .key key =>
    key == "tree" || key == "workspace_ready" || key == "scaffold_error" ||
      (key == "service_template" && serviceTemplate.isSome) || (key == "specs_summary" && specsSummary.truthy)
  | .failed _, .key key => key == "scaffold_error"
  | _, _ => false

structure Shape where
  repositories : List (String × String)
  applications : List (Int × String)

def Data.shape (d : Data) : Shape :=
  ⟨d.repositories.map fun repo => (repo.id, repo.projectId), d.applications.map fun application => (application.id, application.repoId)⟩

def Shape.Belongs (shape : Shape) (applicationId : Int) (projectId : String) : Prop :=
  ∃ repoId, (applicationId, repoId) ∈ shape.applications ∧ (repoId, projectId) ∈ shape.repositories

def Request.Names (shape : Shape) (request : Request) (projectId : String) (row : ProjectRow) (c : ConfigKey) : Prop :=
  match request with
  | .create .. => False
  | .update named _ projectIn | .patch named _ projectIn => projectId = named ∧ projectIn.names row c = true
  | .mergeSecrets named _ secrets envHints => projectId = named ∧ namesSecrets secrets (envHints.getD []) c = true
  | .setBotAccess named _ _ => projectId = named ∧ namesAccess row.config c = true
  | .deleteSecret named _ key => projectId = named ∧ c = .secret key
  | .bindTelegramToken named _ token telegram => projectId = named ∧ ∃ botUsername, telegram = .ok botUsername ∧
      namesSecrets (bindingSecrets token botUsername) bindingHints c = true
  | .updateApplication applicationId fields => shape.Belongs applicationId projectId ∧ fields.status = some .notDeployed ∧ c.ofBot = true
  | .teardown named _ _ | .teardownStatus named _ _ => projectId = named ∧ c.ofBot = true
  | .scaffolded named scaffold =>
      projectId = named ∧ (scaffold.names c = true ∨ row.status = .archived ∧ c.ofBot = true)
  | .notifyWorkspaceDeleted repoId => (repoId, projectId) ∈ shape.repositories ∧ c = .key "workspace_ready"

section Configs

variable {settings : Settings} {iv : Nat} {config config' : Mapping} {c : ConfigKey}

def Settings.Ciphers (settings : Settings) : Prop :=
  ∀ iv s ciphertext, settings.encrypt iv s = .ok ciphertext → ciphertext ≠ "" ∧ settings.decrypt ciphertext = .ok s

theorem decrypt_encrypt (hciphers : settings.Ciphers) {secrets blob : Mapping}
    (h : mapValues (encryptValue settings iv) secrets = .ok blob) : mapValues (decryptValue settings) blob = .ok secrets := by
  induction secrets generalizing blob with
  | nil =>
    cases h
    rfl
  | cons entry rest ih =>
    obtain ⟨key, value⟩ := entry
    obtain ⟨encrypted, hvalue, h⟩ := bind_eq_ok.mp h
    obtain ⟨others, hrest, h⟩ := bind_eq_ok.mp h
    cases h
    have hdecrypted : decryptValue settings encrypted = .ok value := by
      cases value with
      | text s =>
        obtain ⟨ciphertext, hcipher, rfl⟩ := map_eq_ok.mp hvalue
        obtain ⟨hne, hdecrypt⟩ := hciphers iv s ciphertext hcipher
        simp [decryptValue, Value.truthy, hne, hdecrypt, Except.map]
      | _ => cases hvalue
    exact bind_eq_ok.mpr ⟨value, hdecrypted, bind_eq_ok.mpr ⟨rest, ih hrest, rfl⟩⟩

theorem existingSecrets_setKey (hciphers : settings.Ciphers) {secrets : Mapping} {blob : Value}
    (h : encryptDict settings iv secrets = .ok blob) : existingSecrets settings (setKey config "secrets" blob) = .ok secrets := by
  obtain ⟨entries, hentries, rfl⟩ := map_eq_ok.mp h
  have hdecrypted : decryptDict settings (.mapping entries) = .ok secrets := decrypt_encrypt hciphers hentries
  unfold existingSecrets secretsOf
  rw [valueAt_setKey_self]
  cases entries with
  | nil | cons entry rest => exact hdecrypted

theorem readKey_others (hsecret : c.isSecret = false)
    (hlookup : ∀ key, key ≠ "secrets" → config'.lookup key = config.lookup key) :
    readKey settings config' c = readKey settings config c := by
  cases c with
  | secret key => cases hsecret
  | hint key =>
    unfold readKey
    rw [valueAt_congr (hlookup "env_hints" (by decide))]
  | override key =>
    unfold readKey envOverrides
    rw [valueAt_congr (hlookup "env_overrides" (by decide))]
  | key key =>
    simp only [readKey]
    by_cases hkey : key = "secrets"
    · rw [if_pos hkey, if_pos hkey]
    · rw [valueAt_congr (hlookup key hkey)]

theorem readKey_setSecrets (hciphers : settings.Ciphers) {existing secrets : Mapping} {blob : Value}
    (hexisting : existingSecrets settings config = .ok existing) (h : encryptDict settings iv secrets = .ok blob)
    (hsame : ∀ key, c = .secret key → valueAt secrets key = valueAt existing key) :
    readKey settings (setKey config "secrets" blob) c = readKey settings config c := by
  cases c with
  | secret key =>
    unfold readKey
    rw [existingSecrets_setKey hciphers h, hexisting]
    exact hsame key rfl
  | _ => exact readKey_others rfl fun key hkey => lookup_setKey_of_ne _ _ hkey

theorem valueAt_updateKeys {entries more : Mapping} {key : String} (h : hasKey more key = false) :
    valueAt (updateKeys entries more) key = valueAt entries key := by
  have hnone : more.lookup key = none := Option.not_isSome_iff_eq_none.mp (by rw [hasKey] at h; simp [h])
  unfold valueAt
  rw [lookup_updateKeys, hnone]
  rfl

theorem entriesOf_orEmpty {v : Value} {entries : Mapping} (h : orEmpty v = .mapping entries) : entriesOf v = entries := by
  unfold orEmpty at h
  split at h
  · rw [h]
    rfl
  · rename_i hfalsy
    cases h
    cases v with
    | mapping entries => cases entries with
      | nil => rfl
      | cons entry rest => exact absurd rfl hfalsy
    | _ => rfl

theorem readKey_of_lookup {written : String} (hwritten : written ∉ ["secrets", "env_hints", "env_overrides"])
    (hc : c ≠ .key written) (hlookup : ∀ key, key ≠ written → config'.lookup key = config.lookup key) :
    readKey settings config' c = readKey settings config c := by
  simp only [List.mem_cons, List.not_mem_nil, or_false, not_or] at hwritten
  cases c with
  | secret key =>
    simp only [readKey, existingSecrets, secretsOf]
    rw [valueAt_congr (hlookup _ (Ne.symm hwritten.1))]
  | hint key =>
    simp only [readKey]
    rw [valueAt_congr (hlookup _ (Ne.symm hwritten.2.1))]
  | override key =>
    simp only [readKey, envOverrides]
    rw [valueAt_congr (hlookup _ (Ne.symm hwritten.2.2))]
  | key key =>
    have hne : key ≠ written := fun heq => hc (heq ▸ rfl)
    simp only [readKey]
    rw [valueAt_congr (hlookup key hne)]

theorem mergeHints_others {envHints : Option (List (String × String))} (h : mergeHints envHints config = .ok config')
    (hhint : ∀ key, c = .hint key → hasKey (texts (envHints.getD [])) key = false)
    (hkey : c = .key "env_hints" → envHints.getD [] = []) : readKey settings config' c = readKey settings config c := by
  unfold mergeHints at h
  split at h
  · cases h
    rfl
  · rename_i hints hne
    split at h
    · rename_i merged hmerged
      cases h
      cases c with
      | secret key =>
        simp only [readKey, existingSecrets, secretsOf]
        rw [valueAt_setKey_of_ne _ _ (by decide)]
      | hint key =>
        simp only [readKey]
        rw [valueAt_setKey_self, entriesOf_orEmpty hmerged]
        exact valueAt_updateKeys (hhint key rfl)
      | override key =>
        simp only [readKey, envOverrides]
        rw [valueAt_setKey_of_ne _ _ (by decide)]
      | key key =>
        have hother : key ≠ "env_hints" := by
          rintro rfl
          exact hne (hkey rfl)
        simp only [readKey]
        rw [valueAt_setKey_of_ne _ _ hother]
    · cases h

section

variable (hciphers : settings.Ciphers)

include hciphers

theorem mergeSecrets_others {secrets : List (String × String)}
    {envHints : Option (List (String × String))} {keys : List String}
    (h : mergeSecretsIntoConfig settings iv secrets envHints config = .ok (config', keys))
    (hnames : namesSecrets secrets (envHints.getD []) c = false) : readKey settings config' c = readKey settings config c := by
  unfold mergeSecretsIntoConfig at h
  obtain ⟨existing, hexisting, h⟩ := bind_eq_ok.mp h
  obtain ⟨blob, hblob, h⟩ := bind_eq_ok.mp h
  obtain ⟨hinted, hhints, h⟩ := bind_eq_ok.mp h
  cases h
  have hsecrets : readKey settings (setKey config "secrets" blob) c = readKey settings config c := by
    apply readKey_setSecrets hciphers hexisting hblob
    rintro key rfl
    exact valueAt_updateKeys hnames
  rw [← hsecrets]
  apply mergeHints_others hhints
  · rintro key rfl
    exact hnames
  · rintro rfl
    simpa [namesSecrets] using hnames

theorem dropLegacy_others (h : dropLegacyAudience settings iv config = .ok config')
    (hc : c ≠ .secret legacyBotAudienceKey) : readKey settings config' c = readKey settings config c := by
  unfold dropLegacyAudience at h
  obtain ⟨existing, hexisting, h⟩ := bind_eq_ok.mp h
  split at h
  · obtain ⟨blob, hblob, h⟩ := bind_eq_ok.mp h
    cases h
    apply readKey_setSecrets hciphers hexisting hblob
    rintro key rfl
    exact valueAt_popKey_of_ne _ fun heq => hc (heq ▸ rfl)
  · cases h
    rfl

theorem selectBotAccess_others {body : BotAccessRequest}
    (h : selectBotAccess settings iv body config = .ok config') (hnames : namesAccess config c = false) :
    readKey settings config' c = readKey settings config c := by
  unfold selectBotAccess at h
  obtain ⟨overrides, hoverrides, h⟩ := bind_eq_ok.mp h
  refine (dropLegacy_others hciphers h ?_).trans ?_
  · rintro rfl
    simp [namesAccess] at hnames
  · cases c with
    | secret key =>
      simp only [readKey, existingSecrets, secretsOf]
      rw [valueAt_setKey_of_ne _ _ (by decide), valueAt_setKey_of_ne _ _ (by decide)]
    | hint key =>
      simp only [readKey]
      rw [valueAt_setKey_of_ne _ _ (by decide), valueAt_setKey_of_ne _ _ (by decide)]
    | override key =>
      simp only [namesAccess, Bool.or_eq_false_iff, beq_eq_false_iff_ne, Bool.not_eq_false'] at hnames
      simp only [readKey, envOverrides]
      rw [valueAt_setKey_of_ne _ _ (by decide), valueAt_setKey_self]
      cases hold : orEmpty (valueAt config "env_overrides") with
      | mapping entries =>
        rw [hold] at hoverrides
        cases hoverrides
        rw [entriesOf_orEmpty hold]
        exact valueAt_setKey_of_ne _ _ hnames.1
      | _ =>
        rw [hold] at hnames
        cases hnames.2
    | key key =>
      simp only [namesAccess, Bool.or_eq_false_iff, beq_eq_false_iff_ne] at hnames
      simp only [readKey]
      rw [valueAt_setKey_of_ne _ _ hnames.1, valueAt_setKey_of_ne _ _ hnames.2]

theorem deleteSecret_others {key : String} {keys : List String}
    (h : deleteSecretFromConfig settings iv key config = .ok (config', keys)) (hc : c ≠ .secret key) :
    readKey settings config' c = readKey settings config c := by
  unfold deleteSecretFromConfig at h
  obtain ⟨existing, hexisting, h⟩ := bind_eq_ok.mp h
  obtain ⟨_, _, h⟩ := bind_eq_ok.mp h
  obtain ⟨_, _, h⟩ := bind_eq_ok.mp h
  obtain ⟨blob, hblob, h⟩ := bind_eq_ok.mp h
  cases h
  apply readKey_setSecrets hciphers hexisting hblob
  rintro other rfl
  exact valueAt_popKey_of_ne _ fun heq => hc (heq ▸ rfl)

theorem released_others (h : releasedConfig settings iv config = .ok (some config'))
    (hc : c.ofBot = false) : readKey settings config' c = readKey settings config c := by
  simp only [ConfigKey.ofBot, Bool.or_eq_false_iff, beq_eq_false_iff_ne] at hc
  unfold releasedConfig at h
  obtain ⟨secrets, hsecrets, h⟩ := bind_eq_ok.mp h
  split at h
  · obtain ⟨blob, hblob, h⟩ := bind_eq_ok.mp h
    cases h
    apply readKey_setSecrets hciphers hsecrets hblob
    rintro key rfl
    have htoken : key ≠ telegramTokenKey := fun heq => hc.1 (heq ▸ rfl)
    have husername : key ≠ telegramUsernameKey := fun heq => hc.2 (heq ▸ rfl)
    rw [valueAt_popKey_of_ne _ husername, valueAt_popKey_of_ne _ htoken]
  · cases h

theorem release_others {repositories : List RepositoryRow} {release : Release}
    (h : releaseBotBinding settings iv config repositories = .ok release) (hc : c.ofBot = false) :
    readKey settings (release.config.getD config) c = readKey settings config c := by
  unfold releaseBotBinding at h
  obtain ⟨released, hreleased, h⟩ := bind_eq_ok.mp h
  cases h
  cases released with
  | none => rfl
  | some config' => exact released_others hciphers hreleased hc

end

theorem vet_others {project : Option ProjectRow} (h : vetConfigWrite config project = .ok config')
    (hnames : namedByConfig config c = false) :
    readKey settings config' c = readKey settings (storedConfig project) c := by
  obtain ⟨hpreserves, hrest⟩ := vet_preserves h
  cases c with
  | secret key =>
    simp only [readKey, existingSecrets]
    rw [hpreserves.secrets]
  | hint key => cases hnames
  | override key =>
    have hkey : key = botAllowedIdsKey := by simpa [namedByConfig] using hnames
    rw [hkey]
    exact hpreserves.audience
  | key key =>
    have hkey : key = "bot_access" ∨ key = "agent_type" ∧ (valueAt config "agent_type").isNone = true := by
      by_cases haccess : key = "bot_access"
      · exact .inl haccess
      · right
        simpa [namedByConfig, haccess] using hnames
    rcases hkey with rfl | ⟨rfl, hnone⟩
    · exact hpreserves.access
    · have hagent := hpreserves.agentType
      rw [if_pos hnone] at hagent
      exact hagent

theorem vet_named {project : Option ProjectRow} (h : vetConfigWrite config project = .ok config')
    (hnames : namedByConfig config c = true) : readKey settings config' c = readKey settings config c := by
  obtain ⟨hpreserves, hrest⟩ := vet_preserves h
  obtain ⟨hoverrides, hshape⟩ := vet_overrides h
  cases c with
  | secret key => cases hnames
  | hint key =>
    simp only [readKey]
    rw [valueAt_congr (hrest _ (by decide))]
  | override key =>
    have hkey : key ≠ botAllowedIdsKey := by simpa [namedByConfig] using hnames
    exact hoverrides key hkey
  | key key =>
    simp only [readKey]
    by_cases hsecrets : key = "secrets"
    · rw [if_pos hsecrets, if_pos hsecrets]
    rw [if_neg hsecrets, if_neg hsecrets]
    by_cases hentries : key = "env_overrides"
    · subst hentries
      exact hshape
    by_cases hagent : key = "agent_type"
    · subst hagent
      have hset : (valueAt config "agent_type").isNone = false := by simpa [namedByConfig] using hnames
      have hvalue := hpreserves.agentType
      rw [hset, if_neg Bool.false_ne_true] at hvalue
      rw [hvalue]
    have haccess : key ≠ "bot_access" := by
      rintro rfl
      cases hnames
    have hsame : config'.lookup key = config.lookup key := by
      apply hrest
      simp [hsecrets, hentries, hagent, haccess]
    rw [valueAt_congr hsame]

section Scaffolds

variable (settings : Settings) (config : Mapping)

theorem setKey_others {key : String} (value : Value) (hkey : key ∉ ["secrets", "env_hints", "env_overrides"]) (hc : c ≠ .key key) :
    readKey settings (setKey config key value) c = readKey settings config c :=
  readKey_of_lookup hkey hc fun _ hne => lookup_setKey_of_ne _ _ hne

theorem stamp_others {serviceTemplate : Option Mapping} (h : c = .key "service_template" → serviceTemplate = none) :
    readKey settings (stamp serviceTemplate config) c = readKey settings config c := by
  cases serviceTemplate with
  | none => rfl
  | some template => exact setKey_others settings config _ (by decide) fun hc => nomatch h hc

theorem success_others {tree specsSummary : Value} {serviceTemplate : Option Mapping}
    (hnames : (Scaffold.success tree serviceTemplate specsSummary).names c = false) :
    readKey settings ((Scaffold.success tree serviceTemplate specsSummary).config config) c = readKey settings config c := by
  have hne : ∀ key, c = .key key → key ≠ "tree" ∧ key ≠ "workspace_ready" ∧ key ≠ "scaffold_error" ∧
      (key = "service_template" → serviceTemplate = none) ∧ (key = "specs_summary" → specsSummary.truthy = false) := by
    rintro key rfl
    simpa [Scaffold.names, and_assoc] using hnames
  have hother : ∀ key, key ∈ ["tree", "workspace_ready", "scaffold_error"] → c ≠ .key key := by
    rintro key hkey rfl
    obtain ⟨htree, hready, herror, _⟩ := hne key rfl
    simp [htree, hready, herror] at hkey
  have hpop : ∀ config : Mapping, readKey settings (popKey config "scaffold_error") c = readKey settings config c :=
    fun config => readKey_of_lookup (by decide) (hother _ (by decide)) fun _ hne => lookup_popKey_of_ne _ hne
  have hspecs : specsSummary.truthy = true → c ≠ .key "specs_summary" := by
    rintro htruthy rfl
    have hfalsy := (hne _ rfl).2.2.2.2 rfl
    rw [htruthy] at hfalsy
    cases hfalsy
  have hpopped : readKey settings (popKey (stamp serviceTemplate (setKey (setKey config "tree" tree) "workspace_ready" (.bool true)))
      "scaffold_error") c = readKey settings config c := by
    rw [hpop, stamp_others _ _ fun hc => (hne _ hc).2.2.2.1 rfl, setKey_others _ _ _ (by decide) (hother _ (by decide)),
      setKey_others _ _ _ (by decide) (hother _ (by decide))]
  unfold Scaffold.config
  dsimp only
  split
  · rename_i htruthy
    rw [setKey_others _ _ _ (by decide) (hspecs htruthy), hpopped]
  · exact hpopped

theorem scaffold_others {scaffold : Scaffold} (hnames : scaffold.names c = false) :
    readKey settings (scaffold.config config) c = readKey settings config c := by
  cases scaffold with
  | success tree serviceTemplate specsSummary => exact success_others settings config hnames
  | failed error =>
    apply setKey_others settings config _ (by decide)
    rintro rfl
    cases hnames

end Scaffolds

end Configs

structure Spares (settings : Settings) (shape : Shape) (request : Request) (d d' : Data) : Prop where
  rows : ∀ projectId, (d.projects projectId).isSome = true → (d'.projects projectId).isSome = true
  keys : ∀ projectId row row' c, d.projects projectId = some row → d'.projects projectId = some row' →
    ¬ request.Names shape projectId row c → readKey settings row'.config c = readKey settings row.config c

def Write.project : Write → Option (String × ProjectChange)
  | .create .. => none
  | .change project _ _ => project

def Current (settings : Settings) (request : Request) (readings : List Reading) (d : Data) (write : Write) : Prop :=
  match request with
  | .updateApplication .. => ∀ projectId change seen row, write.project = some (projectId, change) →
      Read readings (.findProject projectId) (some seen) → d.projects projectId = some row →
        ∀ c, c.ofBot = false → readKey settings seen.config c = readKey settings row.config c
  | .scaffolded projectId scaffold => ∀ seen row, Read readings (.findProject projectId) (some seen) →
      d.projects projectId = some row → ∀ c, namedByConfig (scaffold.config seen.config) c = true → scaffold.names c = false →
        readKey settings seen.config c = readKey settings row.config c
  | .notifyWorkspaceDeleted _ => ∀ projectId change seen row, write.project = some (projectId, change) →
      Read readings (.findProject projectId) (some seen) → d.projects projectId = some row →
        ∀ c, c ≠ .key "workspace_ready" → readKey settings seen.config c = readKey settings row.config c
  | _ => True

section Commits

variable {T : Type} [DecidableEq T] {settings : Settings} {iv : Nat} {shape : Shape} {d d' : Data} {readings : List Reading}
variable {request : Request} {write : Write}

theorem Spares.refl (settings : Settings) (shape : Shape) (request : Request) (d : Data) :
    Spares settings shape request d d := by
  refine ⟨fun _ h => h, fun projectId row row' c hrow hrow' _ => ?_⟩
  rw [hrow] at hrow'
  rw [Option.some.inj hrow']

theorem change_spares {project : Option (String × ProjectChange)} {repositories : List (String × Option String)}
    {applications : List (Int × ApplicationChange)} (hwrite : d.write (.change project repositories applications) = .ok d')
    (h : ∀ changed change row c, project = some (changed, change) → d.projects changed = some row →
      ¬ request.Names shape changed row c →
        readKey settings (change.config.getD row.config) c = readKey settings row.config c) :
    Spares settings shape request d d' := by
  constructor
  · intro projectId hrow
    rw [write_projects hwrite]
    cases project with
    | none => exact hrow
    | some project =>
      dsimp only
      split
      · rename_i heq
        subst heq
        simpa using hrow
      · exact hrow
  · intro projectId row row' c hrow hrow' hnames
    rw [write_projects hwrite] at hrow'
    cases project with
    | none =>
      rw [hrow] at hrow'
      rw [Option.some.inj hrow']
    | some project =>
      obtain ⟨changed, change⟩ := project
      dsimp only at hrow'
      split at hrow'
      · rename_i heq
        subst heq
        rw [hrow] at hrow'
        cases hrow'
        exact h _ change row c rfl hrow hnames
      · rw [hrow] at hrow'
        rw [Option.some.inj hrow']

variable {projectId : String}

theorem archived_others (hciphers : settings.Ciphers) {row : ProjectRow} {release : Release}
    (h : ReleasesArchived settings iv readings projectId row release) {c : ConfigKey}
    (hc : row.status = .archived → c.ofBot = false) :
    readKey settings (release.config.getD row.config) c = readKey settings row.config c := by
  rcases h with ⟨_, rfl⟩ | ⟨harchived, repositories, _, hrelease⟩
  · rfl
  · exact release_others hciphers hrelease (hc harchived)

variable {projectIn : ProjectUpdate}

theorem revise_status {project row : ProjectRow} (h : projectIn.revise project = .ok row) :
    row.status = projectIn.status.getD project.status ∧ projectIn.revisedConfig project = .ok row.config := by
  unfold ProjectUpdate.revise at h
  obtain ⟨config, hconfig, h⟩ := bind_eq_ok.mp h
  cases h
  exact ⟨rfl, hconfig⟩

theorem writesProject_spares (hciphers : settings.Ciphers)
    (hlocked : ∀ row, Read readings (.lockProject projectId) (some row) → d.projects projectId = some row)
    (h : WritesProject settings iv readings projectId projectIn write) (hwrite : d.write write = .ok d')
    (hkeys : ∀ row row' c, d.projects projectId = some row → projectIn.revise row = .ok row' →
      ¬ request.Names shape projectId row c →
        readKey settings row'.config c = readKey settings row.config c ∧ (row'.status = .archived → c.ofBot = false)) :
    Spares settings shape request d d' := by
  obtain ⟨project, row, release, hread, hrevise, hrelease, rfl⟩ := h
  apply change_spares hwrite
  rintro changed change old c ⟨⟩ hold hnames
  rw [hlocked _ hread] at hold
  cases hold
  obtain ⟨hsame, hbot⟩ := hkeys project row c (hlocked _ hread) hrevise hnames
  simp only [Option.getD_some]
  rw [archived_others hciphers hrelease hbot, hsame]

theorem update_others {row row' : ProjectRow} {c : ConfigKey}
    (hrevise : projectIn.revise row = .ok row') (hnames : projectIn.names row c = false) :
    readKey settings row'.config c = readKey settings row.config c ∧ (row'.status = .archived → c.ofBot = false) := by
  obtain ⟨hstatus, hconfig⟩ := revise_status hrevise
  unfold ProjectUpdate.names at hnames
  rw [Bool.or_eq_false_iff] at hnames
  constructor
  · unfold ProjectUpdate.revisedConfig at hconfig
    cases hgiven : projectIn.config with
    | none =>
      rw [hgiven] at hconfig
      rw [Except.ok.inj hconfig]
    | some config =>
      rw [hgiven] at hconfig hnames
      exact vet_others hconfig hnames.2
  · intro harchived
    rw [hstatus] at harchived
    simpa [harchived] using hnames.1

theorem writesConfig_spares {A : Type} {f : Mapping → Except HTTPException (Mapping × A)}
    (hlocked : ∀ row, Read readings (.lockProject projectId) (some row) → d.projects projectId = some row)
    (h : WritesConfig readings projectId f write) (hwrite : d.write write = .ok d')
    (hkeys : ∀ row config a c, f row.config = .ok (config, a) → ¬ request.Names shape projectId row c →
      readKey settings config c = readKey settings row.config c) : Spares settings shape request d d' := by
  obtain ⟨project, config, a, hread, hdone, rfl⟩ := h
  apply change_spares hwrite
  rintro changed change old c ⟨⟩ hold hnames
  rw [hlocked _ hread] at hold
  cases hold
  exact hkeys project config a c hdone hnames

theorem tearsDown_spares (hciphers : settings.Ciphers) {stalled : Int → Option String}
    {stage : List ApplicationRow → List ApplicationRow × List Int × List (Int × ApplicationChange)}
    (hlocked : ∀ row, Read readings (.lockProject projectId) (some row) → d.projects projectId = some row)
    (h : TearsDown settings iv readings projectId stalled stage write) (hwrite : d.write write = .ok d')
    (hnames : ∀ row c, ¬ request.Names shape projectId row c → c.ofBot = false) : Spares settings shape request d d' := by
  obtain ⟨project, repositories, applications, state, release, hread, _, _, hstate, rfl⟩ := h
  cases release with
  | none =>
    apply change_spares hwrite
    rintro _ _ _ _ ⟨⟩
  | some release =>
    apply change_spares hwrite
    rintro changed change old c ⟨⟩ hold hunnamed
    rw [hlocked _ hread] at hold
    cases hold
    unfold teardownState at hstate
    dsimp only at hstate
    split at hstate
    · cases hstate
    · split at hstate
      · obtain ⟨released, hreleased, hpair⟩ := map_eq_ok.mp hstate
        cases hpair
        exact release_others hciphers hreleased (hnames _ c hunnamed)
      · cases hstate

theorem find_repository {repoId : String} {repo : RepositoryRow} (h : d.ask (.findRepository repoId) = some repo) :
    (repoId, repo.projectId) ∈ d.shape.repositories := by
  have hfound : d.repositories.find? (·.id == repoId) = some repo := h
  have hid : repo.id = repoId := by simpa using List.find?_some hfound
  exact List.mem_map.mpr ⟨repo, List.mem_of_find?_eq_some hfound, by rw [hid]⟩

theorem find_application {applicationId : Int} {application : ApplicationRow}
    (h : d.ask (.findApplication applicationId) = some application) :
    (applicationId, application.repoId) ∈ d.shape.applications := by
  have hfound : d.applications.find? (·.id == applicationId) = some application := h
  have hid : application.id = applicationId := by simpa using List.find?_some hfound
  exact List.mem_map.mpr ⟨application, List.mem_of_find?_eq_some hfound, by rw [hid]⟩

theorem write_shape (h : d.write write = .ok d') : d'.shape = d.shape := by
  cases write with
  | create projectId row =>
    simp only [Data.write] at h
    split at h
    · cases h
    · cases h
      rfl
  | change project repositories applications =>
    cases h
    have hproject : (d.changeProject project).repositories = d.repositories ∧
        (d.changeProject project).applications = d.applications := by
      cases project <;> exact ⟨rfl, rfl⟩
    simp only [Data.shape, Data.changeApplications, Data.changeRepositories, List.map_map, hproject, Shape.mk.injEq]
    constructor
    · apply List.map_congr_left
      intro repo _
      simp only [Function.comp_apply]
      split <;> rfl
    · apply List.map_congr_left
      intro application _
      simp only [Function.comp_apply]
      split <;> rfl

theorem decides_spares (hciphers : settings.Ciphers)
    (hlocked : ∀ projectId row, Read readings (.lockProject projectId) (some row) → d.projects projectId = some row)
    (hshape : ∀ query answer, Read readings query answer → ∃ before : Data, before.shape = shape ∧ before.ask query = answer)
    (hcurrent : Current settings request readings d write) (h : Decides settings iv readings request write)
    (hwrite : d.write write = .ok d') : Spares settings shape request d d' := by
  cases request with
  | create generated xTelegramId projectIn =>
    obtain ⟨projectId, initial, config, owner, _, _, rfl⟩ := h
    simp only [Data.write] at hwrite
    split at hwrite
    · cases hwrite
    · rename_i hfree
      cases hwrite
      have hother : ∀ other row, d.projects other = some row → other ≠ projectId := by
        rintro other row hrow rfl
        cases hrow.symm.trans hfree
      constructor
      · intro other hsome
        obtain ⟨row, hrow⟩ := Option.isSome_iff_exists.mp hsome
        simpa [Function.update_of_ne (hother other row hrow)] using hsome
      · intro other row row' c hrow hrow' _
        simp only [Function.update_of_ne (hother other row hrow)] at hrow'
        rw [hrow] at hrow'
        rw [Option.some.inj hrow']
  | update projectId | patch projectId =>
    apply writesProject_spares hciphers (hlocked projectId) h hwrite
    intro row row' c _ hrevise hnames
    apply update_others hrevise
    simpa [Request.Names] using hnames
  | mergeSecrets projectId caller secrets envHints =>
    apply writesConfig_spares (hlocked projectId) h.2.2 hwrite
    intro row config keys c hdone hnames
    apply mergeSecrets_others hciphers hdone
    simpa [Request.Names] using hnames
  | setBotAccess projectId caller body =>
    apply writesConfig_spares (f := fun config => (selectBotAccess settings iv body config).map (·, ())) (hlocked projectId) h hwrite
    intro row config _ c hdone hnames
    obtain ⟨selected, hselected, hpair⟩ := map_eq_ok.mp hdone
    cases hpair
    apply selectBotAccess_others hciphers hselected
    simpa [Request.Names] using hnames
  | deleteSecret projectId caller key =>
    apply writesConfig_spares (hlocked projectId) h hwrite
    intro row config keys c hdone hnames
    apply deleteSecret_others hciphers hdone
    simpa [Request.Names] using hnames
  | bindTelegramToken projectId caller token telegram =>
    obtain ⟨project, botUsername, repo, config, keys, hread, htelegram, _, _, hmerged, rfl⟩ := h
    apply change_spares hwrite
    rintro changed change old c ⟨⟩ hold hnames
    rw [hlocked _ _ hread] at hold
    cases hold
    apply mergeSecrets_others hciphers hmerged
    simpa [Request.Names, htelegram] using hnames
  | updateApplication applicationId fields =>
    obtain ⟨application, projectId, release, hread, hrelease, rfl⟩ := h
    apply change_spares hwrite
    intro changed change row c hchange hrow hnames
    obtain ⟨config, hconfig, hpair⟩ := Option.map_eq_some_iff.mp hchange
    cases hpair
    rcases hrelease with rfl | ⟨status, hstatus, rfl, repo, project, repositories, hrepo, rfl, hproject, _, _, hdone⟩
    · cases hconfig
    · obtain ⟨before, rfl, hfound⟩ := hshape _ _ hread
      obtain ⟨before', hsame, hfound'⟩ := hshape _ _ hrepo
      have hbelongs : before.shape.Belongs applicationId repo.projectId :=
        ⟨application.repoId, find_application hfound, hsame ▸ find_repository hfound'⟩
      have hbot : c.ofBot = false := by
        cases hc : c.ofBot with
        | false => rfl
        | true => exact absurd ⟨hbelongs, hstatus, hc⟩ hnames
      have hreleased := release_others hciphers hdone hbot
      rw [hconfig, Option.getD_some] at hreleased
      simp only [Option.getD_some]
      rw [hreleased]
      exact hcurrent _ _ project row hchange hproject hrow c hbot
  | teardown projectId | teardownStatus projectId =>
    apply tearsDown_spares hciphers (hlocked projectId) h hwrite
    intro row c hnames
    simpa [Request.Names] using hnames
  | scaffolded projectId scaffold =>
    obtain ⟨seen, hseen, hwrites⟩ := h
    apply writesProject_spares hciphers (hlocked projectId) hwrites hwrite
    intro row row' c hrow hrevise hnames
    simp only [Request.Names, true_and, not_or, Bool.not_eq_true, not_and] at hnames
    obtain ⟨hstatus, hconfig⟩ := revise_status hrevise
    constructor
    · have hvetted : vetConfigWrite (scaffold.config seen.config) (some row) = .ok row'.config := hconfig
      cases hnamed : namedByConfig (scaffold.config seen.config) c with
      | false => exact vet_others hvetted hnamed
      | true =>
        rw [vet_named hvetted hnamed, scaffold_others settings seen.config hnames.1]
        exact hcurrent seen row hseen hrow c hnamed hnames.1
    · intro harchived
      rw [hstatus] at harchived
      exact hnames.2 harchived
  | notifyWorkspaceDeleted repoId =>
    obtain ⟨repo, seen, hrepo, hseen, rfl⟩ := h
    obtain ⟨before, rfl, hfound⟩ := hshape _ _ hrepo
    by_cases hready : hasKey seen.config "workspace_ready" = true
    · rw [clearedWrite, if_pos hready] at hwrite hcurrent
      apply change_spares hwrite
      rintro changed change row c ⟨⟩ hrow hnames
      have hc : c ≠ .key "workspace_ready" := fun heq => hnames ⟨find_repository hfound, heq⟩
      rw [Option.getD_some, readKey_of_lookup (by decide) hc fun key hkey => lookup_popKey_of_ne _ hkey]
      exact hcurrent _ _ seen row rfl hseen hrow c hc
    · rw [clearedWrite, if_neg hready] at hwrite
      apply change_spares hwrite
      rintro _ _ _ _ ⟨⟩

def orderly (settings : Settings) (request : T → Request) (s : Tables T) : Move (schema.world T Response) → Prop
  | .call t (.commit write) fate => admitted s (.call t (.commit write) fate) ∧
      Current settings (request t) (Schema.readings (s.entries t)) s.data write
  | m => admitted s m

theorem orderly_admitted {settings : Settings} {request : T → Request} {s : Tables T} {m : Move (schema.world T Response)}
    (h : orderly settings request s m) : admitted s m := by
  cases m with
  | call t statement fate => cases statement with
    | query query => exact h
    | commit write => exact h.1
  | _ => exact h

abbrev sparing (settings : Settings) (request : T → Request) (shape : Shape) : Schema.Discipline schema T Response where
  admits := orderly settings request
  sound d := d.shape = shape
  lawful t := Spares settings shape (request t)
  lawful_refl t := Spares.refl settings shape (request t)
  steady := steady
  steady_refl := steady_refl
  steady_trans := steady_trans
  fair _ _ _ := True
  fair_nil _ := trivial

end Commits

def Commits {T : Type} [DecidableEq T] (t : T) (c d : Config (schema.world T Response)) : Prop :=
  ∃ entry : Schema.Entry schema, (entry ∈ d.state.entries t ∨
    ∃ execution ∈ d.state.finished, execution.task = t ∧ entry ∈ execution.entries) ∧
      entry.before = c.state.data ∧ entry.after = d.state.data

section Runs

variable {T : Type} [DecidableEq T] {settings : Settings} {iv : T → Nat} {request : T → Request} {data : Data}
variable {c d : Config (schema.world T Response)}

theorem reaches_spares (hciphers : settings.Ciphers)
    (h : Reaches (fun t => handler settings (iv t) (request t)) (orderly settings request) (.idle (Schema.Tables.opening data)) c) :
    (sparing settings request data.shape).Holds c.state := by
  refine Schema.Discipline.reaches_justified (fun _ _ h => admitted_unblocked (orderly_admitted h)) (fun _ _ _ => trivial)
    (fun t => handler_justified settings (iv t) (request t)) ?_ rfl h
  intro t s write fate after hi hadm hbacked hdecides hwrite
  have hshape : s.data.shape = data.shape := hi.sound
  refine ⟨(write_shape hwrite).trans hshape, ?_, fun u hu key hkey => write_steady hadm.1 hwrite hu hkey⟩
  refine decides_spares hciphers (fun projectId row hread => backed_locked rfl (hbacked _ hread)) ?_ hadm.2 hdecides hwrite
  intro query answer hread
  obtain ⟨before, hsound, hanswer, _⟩ := hbacked _ hread
  exact ⟨before, hsound, Except.ok.inj hanswer⟩

theorem step_spares (hholds : (sparing settings request data.shape).Holds d.state)
    (h : Step (fun t => handler settings (iv t) (request t)) (orderly settings request) c d) :
    d.state.data = c.state.data ∨ ∃ t, Commits t c d ∧ Spares settings data.shape (request t) c.state.data d.state.data := by
  rcases Schema.step_data h with hsame | ⟨t, entry, hlogged, hbefore, hafter⟩
  · exact .inl hsame
  · refine .inr ⟨t, ⟨entry, hlogged, hbefore, hafter⟩, ?_⟩
    rw [← hbefore, ← hafter]
    rcases hlogged with hentry | ⟨execution, hexecution, rfl, hentry⟩
    · exact hholds.lawful t entry hentry
    · exact (hholds.finished execution hexecution).1 entry hentry

theorem rows_kept (hciphers : settings.Ciphers)
    (h : Reaches (fun t => handler settings (iv t) (request t)) (orderly settings request) (.idle (Schema.Tables.opening data)) c)
    (h' : Reaches (fun t => handler settings (iv t) (request t)) (orderly settings request) c d) {projectId : String}
    (hrow : (c.state.data.projects projectId).isSome = true) : (d.state.data.projects projectId).isSome = true := by
  induction h' with
  | refl => exact hrow
  | tail hmid hstep ih =>
    rcases step_spares (reaches_spares hciphers ((h.trans hmid).tail hstep)) hstep with hsame | ⟨t, _, hspares⟩
    · rw [hsame]
      exact ih
    · exact hspares.rows projectId ih

/-- A key of a configuration changes only where a request that names it commits. -/
theorem config_writes_kept (hciphers : settings.Ciphers)
    (h : Reaches (fun t => handler settings (iv t) (request t)) (orderly settings request) (.idle (Schema.Tables.opening data)) c)
    (h' : Reaches (fun t => handler settings (iv t) (request t)) (orderly settings request) c d)
    {projectId : String} {row row' : ProjectRow} {key : ConfigKey} (hrow : c.state.data.projects projectId = some row)
    (hrow' : d.state.data.projects projectId = some row')
    (hchanged : readKey settings row'.config key ≠ readKey settings row.config key) :
    ∃ t mid mid' old new, Reaches (fun t => handler settings (iv t) (request t)) (orderly settings request) c mid ∧
      Commits t mid mid' ∧ Reaches (fun t => handler settings (iv t) (request t)) (orderly settings request) mid' d ∧
      mid.state.data.projects projectId = some old ∧ mid'.state.data.projects projectId = some new ∧
      readKey settings new.config key ≠ readKey settings old.config key ∧ (request t).Names data.shape projectId old key := by
  induction h' generalizing row' with
  | refl =>
    rw [hrow] at hrow'
    cases hrow'
    exact absurd rfl hchanged
  | @tail mid last hmid hstep ih =>
    obtain ⟨between, hbetween⟩ := Option.isSome_iff_exists.mp (rows_kept hciphers h hmid (by rw [hrow]; rfl))
    by_cases hsame : readKey settings between.config key = readKey settings row.config key
    · rcases step_spares (reaches_spares hciphers ((h.trans hmid).tail hstep)) hstep with hdata | ⟨t, hcommits, hspares⟩
      · rw [hdata, hbetween] at hrow'
        cases hrow'
        exact absurd hsame hchanged
      · have hdiffers : readKey settings row'.config key ≠ readKey settings between.config key := by
          rw [hsame]
          exact hchanged
        refine ⟨t, mid, last, between, row', hmid, hcommits, .refl, hbetween, hrow', hdiffers, ?_⟩
        by_contra hnames
        exact hdiffers (hspares.keys projectId between row' key hbetween hrow' hnames)
    · obtain ⟨t, first, second, old, new, hfirst, hcommits, hsecond, hold, hnew, hdiffers, hnames⟩ := ih hbetween hsame
      exact ⟨t, first, second, old, new, hfirst, hcommits, hsecond.tail hstep, hold, hnew, hdiffers, hnames⟩

end Runs

def sampleProject : ProjectRow where
  title := "Bot"
  status := .active
  config := [("secrets", .mapping [(telegramTokenKey, .text "enc token"), (telegramUsernameKey, .text "enc bot")])]
  projectSpec := none
  ownerId := 1
  initiatingRunId := "run"

def sampleData (status : ApplicationStatus) : Data where
  projects := Function.update (fun _ => none) "p" (some sampleProject)
  repositories := [⟨"r", "p", .primary, some "bot"⟩]
  applications := [⟨5, "r", status, noHealth⟩]
  users _ := some ⟨1, false⟩
  projectIds := ["p"]

def textAt (c : Config (schema.world Nat Response)) (key : ConfigKey) : Option String :=
  (c.state.data.projects "p").bind fun row => match readKey sampleSettings row.config key with
    | .text s => some s
    | _ => none

theorem textAt_of_row {c : Config (schema.world Nat Response)} {row : ProjectRow} {key : ConfigKey}
    (hrow : c.state.data.projects "p" = some row) : textAt c key = match readKey sampleSettings row.config key with
      | .text s => some s
      | _ => none := by
  unfold textAt
  rw [hrow]
  rfl

def secretRequest : Nat → Request
  | 0 => .mergeSecrets "p" scaffolder [("KEY", "v")] none
  | _ => .deleteSecret "p" scaffolder "KEY"

def secretSet : Config (schema.world Nat Response) := play secretRequest (sampleData .running) (served 0 2)

def secretGone : Config (schema.world Nat Response) :=
  secretSet.play (fun t => handler sampleSettings t (secretRequest t)) (served 1 2)

theorem sample_ciphers : sampleSettings.Ciphers := by
  intro iv s ciphertext h
  cases h
  have hlist : ("enc " ++ s).toList = ['e', 'n', 'c', ' '] ++ s.toList := by rw [String.toList_append]; rfl
  constructor
  · intro hempty
    rw [hempty] at hlist
    cases hlist
  · change Except.ok (String.ofList (("enc " ++ s).toList.drop 4)) = Except.ok s
    rw [hlist]
    simp

theorem secret_orderly {c d : Config (schema.world Nat Response)}
    (h : Reaches (fun t => handler sampleSettings t (secretRequest t)) admitted c d) :
    Reaches (fun t => handler sampleSettings t (secretRequest t)) (orderly sampleSettings secretRequest) c d := by
  refine h.mono fun s m hadm => ?_
  cases m with
  | call t statement fate => cases statement with
    | query query => exact hadm
    | commit write =>
      refine ⟨hadm, ?_⟩
      cases t <;> trivial
  | _ => exact hadm

theorem secret_deleted : ∃ t mid mid' old new,
    Reaches (fun t => handler sampleSettings t (secretRequest t)) (orderly sampleSettings secretRequest) secretSet mid ∧
      Commits t mid mid' ∧
      Reaches (fun t => handler sampleSettings t (secretRequest t)) (orderly sampleSettings secretRequest) mid' secretGone ∧
      mid.state.data.projects "p" = some old ∧ mid'.state.data.projects "p" = some new ∧
      readKey sampleSettings new.config (.secret "KEY") ≠ readKey sampleSettings old.config (.secret "KEY") ∧
      (secretRequest t).Names (sampleData .running).shape "p" old (.secret "KEY") := by
  have hset : textAt secretSet (.secret "KEY") = some "v" := by decide +kernel
  have hgone : textAt secretGone (.secret "KEY") = none := by decide +kernel
  have hrow : (secretSet.state.data.projects "p").isSome = true := by decide +kernel
  have hrow' : (secretGone.state.data.projects "p").isSome = true := by decide +kernel
  obtain ⟨row, hrow⟩ := Option.isSome_iff_exists.mp hrow
  obtain ⟨row', hrow'⟩ := Option.isSome_iff_exists.mp hrow'
  refine config_writes_kept sample_ciphers (secret_orderly (play_reaches (by decide +kernel)))
    (secret_orderly (play_reaches (by decide +kernel))) hrow hrow' ?_
  intro hsame
  rw [textAt_of_row hrow] at hset
  rw [textAt_of_row hrow', hsame, hset] at hgone
  cases hgone

def staleRequest : Nat → Request
  | 0 => .updateApplication 5 ⟨some .notDeployed, noHealth⟩
  | _ => .mergeSecrets "p" scaffolder [("KEY", "v")] none

def staleBefore : Config (schema.world Nat Response) :=
  play staleRequest (sampleData .undeploying) (served 0 6 ++ served 1 2)

def staleAfter : Config (schema.world Nat Response) :=
  staleBefore.play (fun t => handler sampleSettings t (staleRequest t)) (List.replicate 2 (.call 0 fun _ => .served))

theorem release_reverts_secret :
    Reaches (fun t => handler sampleSettings t (staleRequest t)) admitted
        (.idle (Schema.Tables.opening (sampleData .undeploying))) staleBefore ∧
      Reaches (fun t => handler sampleSettings t (staleRequest t)) admitted staleBefore staleAfter ∧
      textAt staleBefore (.secret "KEY") = some "v" ∧ textAt staleAfter (.secret "KEY") = none ∧
      ∀ row, ¬ (staleRequest 0).Names (sampleData .undeploying).shape "p" row (.secret "KEY") := by
  refine ⟨play_reaches (by decide +kernel), play_reaches (by decide +kernel), by decide +kernel, by decide +kernel, ?_⟩
  intro row hnames
  have hbot : (ConfigKey.secret "KEY").ofBot = true := hnames.2.2
  cases hbot

end Orchestrator.Projects
