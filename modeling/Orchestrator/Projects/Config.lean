import Orchestrator.Placement.World
import Orchestrator.Tasks.World

/-!
The configuration of a project and what the requests that write it make of it.
-/

namespace Orchestrator.Projects

open Python
open Placement (ApplicationStatus)
open Tasks (ProjectStatus)

inductive HTTPException where
  | secretsWrite
  | telegramToken (found : Option String)
  | botAccessWrite
  | unsupportedAgentType (agentType : String)
  | secretsEmpty
  | projectNotFound
  | projectExists
  | telegramIdRequired
  | userNotFound (telegramId : Int)
  | authenticationRequired
  | accessDenied
  | secretNotFound (key : String)
  | noPrimaryRepository (projectId : String)
  | applicationNotFound
  | repositoryNotFound (repoId : String)
  | linkedProjectNotFound (projectId : String)
  | internalServerError
deriving DecidableEq

def HTTPException.statusCode : HTTPException → Nat
  | .projectExists | .telegramIdRequired => 400
  | .authenticationRequired => 401
  | .accessDenied => 403
  | .projectNotFound | .userNotFound _ | .secretNotFound _ | .applicationNotFound | .repositoryNotFound _ | .linkedProjectNotFound _ => 404
  | .noPrimaryRepository _ => 409
  | .internalServerError => 500
  | _ => 422

def telegramTokenKey : String := "TELEGRAM_BOT_TOKEN"
def telegramUsernameKey : String := "TELEGRAM_BOT_USERNAME"
def botAllowedIdsKey : String := "TG_BOT_ALLOWED_TELEGRAM_IDS"
def legacyBotAudienceKey : String := "ADMIN_TELEGRAM_ID"

def telegramTokenDetail : String :=
  telegramTokenKey ++ " cannot be set directly — " ++
    "POST the token to /api/projects/\x7bproject_id\x7d/telegram/token so it is validated first"

def HTTPException.detail : HTTPException → String
  | .secretsWrite =>
      "config.secrets is not writable through this endpoint — " ++
        "use /config/secrets to set and /config/secrets/\x7bkey\x7d to delete"
  | .telegramToken none => telegramTokenDetail
  | .telegramToken (some found) => s!"{telegramTokenDetail} (found at {found})"
  | .botAccessWrite => "bot access is managed through /config/bot-access"
  | .unsupportedAgentType agentType => s!"Unsupported agent_type: {agentType}"
  | .secretsEmpty => "secrets must not be empty"
  | .projectNotFound => "Project not found"
  | .projectExists => "Project with this ID already exists"
  | .telegramIdRequired => "X-Telegram-ID header is required"
  | .userNotFound telegramId => s!"User with telegram_id {telegramId} not found"
  | .authenticationRequired => "Authentication required"
  | .accessDenied => "Access denied: not project owner"
  | .secretNotFound key => "Secret key '" ++ key ++ "' not found"
  | .noPrimaryRepository projectId => s!"Project {projectId} has no primary repository — cannot bind a bot token"
  | .applicationNotFound => "Application not found"
  | .repositoryNotFound repoId => s!"Repository {repoId} not found"
  | .linkedProjectNotFound projectId => s!"Project {projectId} not found"
  | .internalServerError => "Internal Server Error"

inductive AgentType where
  | claude | factory | codex | noop
deriving DecidableEq

def AgentType.value : AgentType → String
  | .claude => "claude"
  | .factory => "factory"
  | .codex => "codex"
  | .noop => "noop"

def AgentType.ofValue : Value → Option AgentType
  | .text s => [.claude, .factory, .codex, .noop].find? fun agentType => agentType.value == s
  | _ => none

/-- What the service is set up with. `encrypt` and `decrypt` are the cipher's, the former with
the number that makes its answer unlike any before; `render` is `str` of what is not text. -/
structure Settings where
  defaultAgentType : AgentType
  encrypt : Nat → String → Except HTTPException String
  decrypt : String → Except HTTPException String
  render : Value → String

structure ProjectRow where
  title : String
  status : ProjectStatus
  config : Mapping
  projectSpec : Option Mapping
  ownerId : Int
  initiatingRunId : String
deriving DecidableEq

def refuseIf (wrong : Bool) (e : HTTPException) : Except HTTPException Unit :=
  if wrong then .error e else .ok ()

@[simp] theorem refuseIf_ok {wrong : Bool} {e : HTTPException} {u : Unit} : refuseIf wrong e = .ok u ↔ wrong = false := by
  cases wrong <;> simp [refuseIf]

section Secrets

variable (settings : Settings)

def encryptValue (iv : Nat) : Value → Except HTTPException Value
  | .text s => (settings.encrypt iv s).map .text
  | _ => .error .internalServerError

def decryptValue (v : Value) : Except HTTPException Value :=
  if !v.truthy then .ok v
  else match v with
    | .text s => (settings.decrypt s).map .text
    | _ => .error .internalServerError

def mapValues (f : Value → Except HTTPException Value) : Mapping → Except HTTPException Mapping
  | [] => .ok []
  | (key, value) :: rest => do
    let value ← f value
    let rest ← mapValues f rest
    .ok ((key, value) :: rest)

def encryptDict (iv : Nat) (secrets : Mapping) : Except HTTPException Value :=
  (mapValues (encryptValue settings iv) secrets).map .mapping

def decryptDict : Value → Except HTTPException Mapping
  | .mapping entries => mapValues (decryptValue settings) entries
  | _ => .error .internalServerError

def orEmpty (v : Value) : Value := if v.truthy then v else .mapping []

def secretsOf (config : Mapping) : Value := orEmpty (valueAt config "secrets")

def existingSecrets (config : Mapping) : Except HTTPException Mapping := decryptDict settings (secretsOf config)

end Secrets

def sortedKeys (entries : Mapping) : List String := (entries.map (·.1)).mergeSort (· ≤ ·)

def updateKeys (entries more : Mapping) : Mapping :=
  entries.map (fun entry => (entry.1, (more.lookup entry.1).getD entry.2)) ++ more.filter fun entry => !hasKey entries entry.1

theorem lookup_updateKeys (entries more : Mapping) (key : String) :
    (updateKeys entries more).lookup key = (more.lookup key).or (entries.lookup key) := by
  have hkept : ∀ entries : Mapping, (entries.map fun entry => (entry.1, (more.lookup entry.1).getD entry.2)).lookup key =
      (entries.lookup key).map fun value => (more.lookup key).getD value := by
    intro entries
    induction entries with
    | nil => rfl
    | cons entry rest ih =>
      obtain ⟨k, v⟩ := entry
      by_cases h : key = k
      · subst h; simp
      · have hne : (key == k) = false := by simpa using h
        simp only [List.map_cons, List.lookup_cons, hne, ih]
  have hadded : ∀ more : Mapping, (more.filter fun entry => !hasKey entries entry.1).lookup key =
      if hasKey entries key then none else more.lookup key := by
    intro more
    induction more with
    | nil => simp
    | cons entry rest ih =>
      obtain ⟨k, v⟩ := entry
      by_cases h : key = k
      · subst h
        cases hkey : hasKey entries key with
        | true => simpa [hkey] using ih
        | false => simp [hkey]
      · have hne : (key == k) = false := by simpa using h
        cases hk : hasKey entries k with
        | true | false => simpa [hk, List.lookup_cons, hne] using ih
  unfold updateKeys
  rw [List.lookup_append, hkept, hadded]
  cases hlookup : entries.lookup key with
  | none => cases more.lookup key <;> simp [hasKey, hlookup]
  | some value => cases more.lookup key <;> simp

def isTokenChar (c : Char) : Bool := c.isAlphanum || c == '_' || c == '-'

def looksLikeBotToken (value : String) : Bool :=
  let stripped := strip value.toList
  let digits := stripped.takeWhile fun c => (digitValue c).isSome
  match stripped.drop digits.length with
  | ':' :: secret => decide (5 ≤ digits.length) && decide (30 ≤ secret.length) && secret.all isTokenChar
  | _ => false

mutual

def findBotTokenMaterial : Value → String → Option String
  | .mapping entries, path => findInEntries entries path
  | .list items, path => findInItems items 0 path
  | .text s, path => if looksLikeBotToken s then some path else none
  | _, _ => none

def findInEntries : Mapping → String → Option String
  | [], _ => none
  | (key, value) :: rest, path =>
    if key = telegramTokenKey then some s!"{path}.{key}"
    else match findBotTokenMaterial value s!"{path}.{key}" with
      | some found => some found
      | none => findInEntries rest path

def findInItems : List Value → Nat → String → Option String
  | [], _, _ => none
  | item :: rest, index, path => match findBotTokenMaterial item s!"{path}[{index}]" with
    | some found => some found
    | none => findInItems rest (index + 1) path

end

/-- The names of environment variables in `env_hints` may be the token's; its values are scanned. -/
def tokenMaterial (config : Mapping) : Option String :=
  match findInEntries (popKey (popKey config "secrets") "env_hints") "config" with
  | some found => some found
  | none => match valueAt config "env_hints" with
    | .mapping hints => findInItems (hints.map (·.2)) 0 "config.env_hints"
    | _ => none

def entriesOf : Value → Mapping
  | .mapping entries => entries
  | _ => []

def envOverrides (config : Mapping) : Mapping := entriesOf (valueAt config "env_overrides")

def storedAudience (config : Mapping) : Value := valueAt (envOverrides config) botAllowedIdsKey

def incomingOverrides (config : Mapping) : Value := (config.lookup "env_overrides").getD (.mapping [])

def vetAudience (stored : Value) (incoming : Value) (vetted : Mapping) : Except HTTPException Mapping :=
  if stored.isNone then
    match incoming with
    | .mapping entries => if hasKey entries botAllowedIdsKey then .error .botAccessWrite else .ok vetted
    | _ => .ok vetted
  else match incoming with
    | .mapping entries =>
      let audience := valueAt entries botAllowedIdsKey
      if !audience.isNone && !audience.eq stored then .error .botAccessWrite
      else .ok (setKey vetted "env_overrides" (.mapping (setKey entries botAllowedIdsKey stored)))
    | _ => .error .botAccessWrite

def vetAccess (stored incoming : Value) (vetted : Mapping) : Except HTTPException Mapping :=
  if stored.isNone then
    if incoming.isNone then .ok vetted else .error .botAccessWrite
  else if !incoming.isNone && !incoming.eq stored then .error .botAccessWrite
  else .ok (setKey vetted "bot_access" stored)

def keepSecrets (stored : Value) (vetted : Mapping) : Mapping :=
  if stored.truthy then setKey vetted "secrets" stored else vetted

def keepAgentType (stored : Value) (vetted : Mapping) : Mapping :=
  if !stored.isNone && (valueAt vetted "agent_type").isNone then setKey vetted "agent_type" stored else vetted

def storedConfig : Option ProjectRow → Mapping
  | some project => project.config
  | none => []

def storedSecretsBlob (project : Option ProjectRow) : Value := secretsOf (storedConfig project)

def vetConfigWrite (config : Mapping) (project : Option ProjectRow) : Except HTTPException Mapping := do
  let stored := storedSecretsBlob project
  let incoming := valueAt config "secrets"
  refuseIf (!incoming.isNone && !incoming.eq stored) .secretsWrite
  refuseIf (tokenMaterial config).isSome (.telegramToken (tokenMaterial config))
  let vetted := keepSecrets stored (popKey config "secrets")
  let vetted := keepAgentType (valueAt (storedConfig project) "agent_type") vetted
  let vetted ← vetAccess (valueAt (storedConfig project) "bot_access") (valueAt config "bot_access") vetted
  vetAudience (storedAudience (storedConfig project)) (incomingOverrides config) vetted

def initialProjectConfig (settings : Settings) (config : Mapping) : Except HTTPException Mapping :=
  let explicit := valueAt config "agent_type"
  if explicit.isNone then .ok (setKey config "agent_type" (.text settings.defaultAgentType.value))
  else match AgentType.ofValue explicit with
    | some agentType => .ok (setKey config "agent_type" (.text agentType.value))
    | none => .error (.unsupportedAgentType (explicit.str settings.render))

def texts (entries : List (String × String)) : Mapping := entries.map fun entry => (entry.1, .text entry.2)

def mergeHints (envHints : Option (List (String × String))) (config : Mapping) : Except HTTPException Mapping :=
  match envHints.getD [] with
  | [] => .ok config
  | hints => match orEmpty (valueAt config "env_hints") with
    | .mapping merged => .ok (setKey config "env_hints" (.mapping (updateKeys merged (texts hints))))
    | _ => .error .internalServerError

/-- `_merge_secrets_into_project`, with all keys of the secrets. -/
def mergeSecretsIntoConfig (settings : Settings) (iv : Nat) (secrets : List (String × String))
    (envHints : Option (List (String × String))) (config : Mapping) : Except HTTPException (Mapping × List String) := do
  let existing ← existingSecrets settings config
  let existing := updateKeys existing (texts secrets)
  let blob ← encryptDict settings iv existing
  let config ← mergeHints envHints (setKey config "secrets" blob)
  .ok (config, sortedKeys existing)

def rejectBotTokenWrites (secrets : List (String × String)) : Except HTTPException Unit :=
  refuseIf (secrets.any fun entry => entry.1 == telegramTokenKey || looksLikeBotToken entry.2) (.telegramToken none)

def rejectLegacyBotAccessWrites (secrets : List (String × String)) : Except HTTPException Unit :=
  refuseIf (hasKey (texts secrets) legacyBotAudienceKey) .botAccessWrite

def deleteSecretFromConfig (settings : Settings) (iv : Nat) (key : String) (config : Mapping) :
    Except HTTPException (Mapping × List String) := do
  let existing ← existingSecrets settings config
  refuseIf (!hasKey existing key) (.secretNotFound key)
  refuseIf (key == legacyBotAudienceKey) .botAccessWrite
  let blob ← encryptDict settings iv (popKey existing key)
  .ok (setKey config "secrets" blob, sortedKeys (popKey existing key))

/-- The configuration without the token and its username; `none` where it holds neither. -/
def releasedConfig (settings : Settings) (iv : Nat) (config : Mapping) : Except HTTPException (Option Mapping) := do
  let secrets ← existingSecrets settings config
  if hasKey secrets telegramTokenKey || hasKey secrets telegramUsernameKey then
    let blob ← encryptDict settings iv (popKey (popKey secrets telegramTokenKey) telegramUsernameKey)
    .ok (some (setKey config "secrets" blob))
  else .ok none

def hashable : Value → Bool
  | .list _ | .mapping _ => false
  | _ => true

def pairOf : Value → Option (Value × Value)
  | .list [key, value] => if hashable key then some (key, value) else none
  | .text s => match s.toList with
    | [key, value] => some (.text (String.ofList [key]), .text (String.ofList [value]))
    | _ => none
  | .mapping [(key, _), (value, _)] => some (.text key, .text value)
  | _ => none

def insertPair (pairs : List (Value × Value)) (pair : Value × Value) : List (Value × Value) :=
  if pairs.any fun old => old.1.eq pair.1 then pairs.map fun old => if old.1.eq pair.1 then (old.1, pair.2) else old
  else pairs ++ [pair]

def dumpKey (render : Value → String) : Value → String
  | .text s => s
  | .none => "null"
  | .bool b => if b then "true" else "false"
  | v => render v

def dictOf (render : Value → String) : Value → Except HTTPException Mapping
  | .mapping entries => .ok entries
  | .list items => match items.mapM pairOf with
    | some pairs => .ok ((pairs.foldl insertPair []).foldl (fun entries pair => setKey entries (dumpKey render pair.1) pair.2) [])
    | none => .error .internalServerError
  | _ => .error .internalServerError

def readsAsInt (text : List Char) : Bool :=
  let text := match text with
    | '+' :: rest => rest
    | '-' :: rest => rest
    | _ => text
  match digitRun text with
  | (digits, []) => decide (0 < digits.length) && decide (digits.length ≤ 4300)
  | _ => false

def namesTelegramId (value : String) : Bool := (value.toList.splitOn ',').any fun chunk => readsAsInt (strip chunk)

def validBotAccess (mode allowedTelegramIds : String) : Bool :=
  (mode == "public" && allowedTelegramIds == "") || ((mode == "only_me" || mode == "custom") && namesTelegramId allowedTelegramIds)

structure BotAccessRequest where
  mode : String
  allowedTelegramIds : String
  valid : validBotAccess mode allowedTelegramIds = true

def BotAccessRequest.access (body : BotAccessRequest) : Value :=
  .mapping [("mode", .text body.mode), ("allowed_telegram_ids", .text body.allowedTelegramIds)]

def dropLegacyAudience (settings : Settings) (iv : Nat) (config : Mapping) : Except HTTPException Mapping := do
  let existing ← existingSecrets settings config
  if hasKey existing legacyBotAudienceKey then
    let blob ← encryptDict settings iv (popKey existing legacyBotAudienceKey)
    .ok (setKey config "secrets" blob)
  else .ok config

def selectBotAccess (settings : Settings) (iv : Nat) (body : BotAccessRequest) (config : Mapping) :
    Except HTTPException Mapping := do
  let overrides ← dictOf settings.render (orEmpty (valueAt config "env_overrides"))
  let overrides := setKey overrides botAllowedIdsKey (.text body.allowedTelegramIds)
  let config := setKey config "env_overrides" (.mapping overrides)
  dropLegacyAudience settings iv (setKey config "bot_access" body.access)

section Vetting

variable {stored config vetted : Mapping}

theorem bind_eq_ok {ε α β : Type} {x : Except ε α} {f : α → Except ε β} {b : β} :
    x.bind f = .ok b ↔ ∃ a, x = .ok a ∧ f a = .ok b := by
  cases x with
  | ok a | error e => simp [Except.bind]

theorem map_eq_ok {ε α β : Type} {x : Except ε α} {f : α → β} {b : β} :
    x.map f = .ok b ↔ ∃ a, x = .ok a ∧ f a = b := by
  cases x with
  | ok a | error e => simp [Except.map]

structure Preserves (stored config vetted : Mapping) : Prop where
  secrets : secretsOf vetted = secretsOf stored
  access : valueAt vetted "bot_access" = valueAt stored "bot_access"
  audience : storedAudience vetted = storedAudience stored
  agentType : valueAt vetted "agent_type" =
    if (valueAt config "agent_type").isNone then valueAt stored "agent_type" else valueAt config "agent_type"

variable {key : String}

theorem valueAt_congr {entries entries' : Mapping} (h : entries.lookup key = entries'.lookup key) :
    valueAt entries key = valueAt entries' key := by
  unfold valueAt
  rw [h]

theorem keepSecrets_of_ne (stored : Value) (vetted : Mapping) (h : key ≠ "secrets") :
    (keepSecrets stored vetted).lookup key = vetted.lookup key := by
  unfold keepSecrets
  split
  · exact lookup_setKey_of_ne _ _ h
  · rfl

theorem keepAgentType_of_ne (stored : Value) (vetted : Mapping) (h : key ≠ "agent_type") :
    (keepAgentType stored vetted).lookup key = vetted.lookup key := by
  unfold keepAgentType
  split
  · exact lookup_setKey_of_ne _ _ h
  · rfl

theorem keepAgentType_self (stored : Value) (vetted : Mapping) : valueAt (keepAgentType stored vetted) "agent_type" =
    if (valueAt vetted "agent_type").isNone then stored else valueAt vetted "agent_type" := by
  unfold keepAgentType
  by_cases hvetted : (valueAt vetted "agent_type").isNone = true
  · cases hstored : stored.isNone with
    | true =>
      simpa [hvetted, Value.eq_none_of_isNone hstored] using Value.eq_none_of_isNone hvetted
    | false => simp [hvetted, valueAt_setKey_self]
  · simp [hvetted]

variable {before : Mapping}

theorem vetAccess_ok {old incoming : Value} (hbefore : valueAt before "bot_access" = incoming)
    (h : vetAccess old incoming before = .ok vetted) :
    valueAt vetted "bot_access" = old ∧ ∀ key, key ≠ "bot_access" → vetted.lookup key = before.lookup key := by
  unfold vetAccess at h
  split at h
  · rename_i hold
    split at h
    · rename_i hincoming
      cases h
      rw [hbefore, Value.eq_none_of_isNone hold, Value.eq_none_of_isNone hincoming]
      exact ⟨rfl, fun _ _ => rfl⟩
    · cases h
  · split at h
    · cases h
    · cases h
      exact ⟨valueAt_setKey_self .., fun key hkey => lookup_setKey_of_ne _ _ hkey⟩

theorem storedAudience_setKey (config overrides : Mapping) :
    storedAudience (setKey config "env_overrides" (.mapping overrides)) = valueAt overrides botAllowedIdsKey := by
  unfold storedAudience envOverrides
  rw [valueAt_setKey_self]
  rfl

theorem storedAudience_of_incoming (h : before.lookup "env_overrides" = config.lookup "env_overrides") :
    storedAudience before = valueAt (entriesOf (incomingOverrides config)) botAllowedIdsKey := by
  unfold storedAudience envOverrides incomingOverrides valueAt
  rw [h]
  cases config.lookup "env_overrides" <;> rfl

theorem vetAudience_ok {old : Value}
    (hbefore : before.lookup "env_overrides" = config.lookup "env_overrides")
    (h : vetAudience old (incomingOverrides config) before = .ok vetted) :
    storedAudience vetted = old ∧ ∀ key, key ≠ "env_overrides" → vetted.lookup key = before.lookup key := by
  unfold vetAudience at h
  split at h
  · rename_i hold
    have haudience := storedAudience_of_incoming hbefore
    rw [Value.eq_none_of_isNone hold]
    split at h
    · rename_i entries hincoming
      split at h
      · cases h
      · rename_i habsent
        cases h
        refine ⟨haudience.trans ?_, fun _ _ => rfl⟩
        rw [hincoming]
        have hnone : entries.lookup botAllowedIdsKey = none := Option.not_isSome_iff_eq_none.mp habsent
        simp only [entriesOf, valueAt, hnone, Option.getD_none]
    · rename_i hother
      cases h
      refine ⟨haudience.trans ?_, fun _ _ => rfl⟩
      cases hincoming : incomingOverrides config with
      | mapping entries => exact absurd hincoming (hother entries)
      | _ => rfl
  · split at h
    · dsimp only at h
      split at h
      · cases h
      · cases h
        refine ⟨?_, fun key hkey => lookup_setKey_of_ne _ _ hkey⟩
        rw [storedAudience_setKey, valueAt_setKey_self]
    · cases h

def hollow : Value → Value
  | .mapping _ => .none
  | v => v

theorem envOverrides_setKey (config overrides : Mapping) :
    envOverrides (setKey config "env_overrides" (.mapping overrides)) = overrides := by
  unfold envOverrides
  rw [valueAt_setKey_self]
  rfl

theorem vetAudience_others {old : Value}
    (hbefore : before.lookup "env_overrides" = config.lookup "env_overrides")
    (h : vetAudience old (incomingOverrides config) before = .ok vetted) :
    (∀ key, key ≠ botAllowedIdsKey → valueAt (envOverrides vetted) key = valueAt (envOverrides config) key) ∧
      hollow (valueAt vetted "env_overrides") = hollow (valueAt config "env_overrides") := by
  have hsame : envOverrides before = envOverrides config ∧
      hollow (valueAt before "env_overrides") = hollow (valueAt config "env_overrides") := by
    unfold envOverrides
    rw [valueAt_congr hbefore]
    exact ⟨rfl, rfl⟩
  unfold vetAudience at h
  split at h
  · have hkept : before = vetted := by
      split at h
      · split at h
        · cases h
        · exact Except.ok.inj h
      · exact Except.ok.inj h
    rw [← hkept]
    exact ⟨fun key _ => by rw [hsame.1], hsame.2⟩
  · split at h
    · rename_i entries hincoming
      dsimp only at h
      split at h
      · cases h
      · cases h
        have hentries : envOverrides config = entries ∧ hollow (valueAt config "env_overrides") = .none := by
          unfold incomingOverrides at hincoming
          unfold envOverrides valueAt
          cases hlookup : config.lookup "env_overrides" with
          | none =>
            rw [hlookup] at hincoming
            cases hincoming
            exact ⟨rfl, rfl⟩
          | some value =>
            rw [hlookup] at hincoming
            have hvalue : value = .mapping entries := hincoming
            rw [hvalue]
            exact ⟨rfl, rfl⟩
        constructor
        · intro key hkey
          rw [envOverrides_setKey, hentries.1, valueAt_setKey_of_ne _ _ hkey]
        · rw [hentries.2, valueAt_setKey_self]
          rfl
    · cases h

theorem secretsOf_orEmpty (stored : Value) {vetted : Mapping} (h : valueAt vetted "secrets" = .none) :
    secretsOf (keepSecrets (orEmpty stored) vetted) = orEmpty stored := by
  unfold secretsOf keepSecrets
  by_cases hstored : (orEmpty stored).truthy = true
  · rw [if_pos hstored, valueAt_setKey_self, orEmpty, if_pos hstored]
  · rw [if_neg hstored, h]
    unfold orEmpty at hstored ⊢
    by_cases htruthy : stored.truthy = true
    · rw [if_pos htruthy] at hstored
      exact absurd htruthy hstored
    · rw [if_neg htruthy]
      rfl

variable {project : Option ProjectRow}

theorem vet_steps (h : vetConfigWrite config project = .ok vetted) :
    ∃ accessed, vetAudience (storedAudience (storedConfig project)) (incomingOverrides config) accessed = .ok vetted ∧
      valueAt accessed "bot_access" = valueAt (storedConfig project) "bot_access" ∧
      ∀ key, key ≠ "bot_access" → accessed.lookup key =
        (keepAgentType (valueAt (storedConfig project) "agent_type")
          (keepSecrets (storedSecretsBlob project) (popKey config "secrets"))).lookup key := by
  unfold vetConfigWrite at h
  obtain ⟨_, _, h⟩ := bind_eq_ok.mp h
  obtain ⟨_, _, h⟩ := bind_eq_ok.mp h
  obtain ⟨accessed, haccess, h⟩ := bind_eq_ok.mp h
  have hbefore : valueAt (keepAgentType (valueAt (storedConfig project) "agent_type")
      (keepSecrets (storedSecretsBlob project) (popKey config "secrets"))) "bot_access" = valueAt config "bot_access" := by
    apply valueAt_congr
    rw [keepAgentType_of_ne _ _ (by decide), keepSecrets_of_ne _ _ (by decide), lookup_popKey_of_ne _ (by decide)]
  obtain ⟨hself, hothers⟩ := vetAccess_ok hbefore haccess
  exact ⟨accessed, h, hself, hothers⟩

theorem kept_lookup (config : Mapping) (project : Option ProjectRow) (hsecrets : key ≠ "secrets")
    (hagent : key ≠ "agent_type") : (keepAgentType (valueAt (storedConfig project) "agent_type")
      (keepSecrets (storedSecretsBlob project) (popKey config "secrets"))).lookup key = config.lookup key := by
  rw [keepAgentType_of_ne _ _ hagent, keepSecrets_of_ne _ _ hsecrets, lookup_popKey_of_ne _ hsecrets]

theorem vet_overrides (h : vetConfigWrite config project = .ok vetted) :
    (∀ key, key ≠ botAllowedIdsKey → valueAt (envOverrides vetted) key = valueAt (envOverrides config) key) ∧
      hollow (valueAt vetted "env_overrides") = hollow (valueAt config "env_overrides") := by
  obtain ⟨accessed, haudience, _, hothers⟩ := vet_steps h
  refine vetAudience_others ?_ haudience
  rw [hothers _ (by decide), kept_lookup config project (by decide) (by decide)]

theorem vet_preserves (h : vetConfigWrite config project = .ok vetted) :
    Preserves (storedConfig project) config vetted ∧
      ∀ key, key ∉ ["secrets", "agent_type", "bot_access", "env_overrides"] → vetted.lookup key = config.lookup key := by
  obtain ⟨accessed, h, hself, hothers⟩ := vet_steps h
  have hoverrides : accessed.lookup "env_overrides" = config.lookup "env_overrides" := by
    rw [hothers _ (by decide), kept_lookup config project (by decide) (by decide)]
  obtain ⟨haudience, hrest⟩ := vetAudience_ok hoverrides h
  refine ⟨⟨?_, ?_, haudience, ?_⟩, ?_⟩
  · have hsecrets : vetted.lookup "secrets" =
        (keepSecrets (storedSecretsBlob project) (popKey config "secrets")).lookup "secrets" := by
      rw [hrest _ (by decide), hothers _ (by decide), keepAgentType_of_ne _ _ (by decide)]
    have hblob := secretsOf_orEmpty (valueAt (storedConfig project) "secrets") (valueAt_popKey_self config "secrets")
    rw [← show storedSecretsBlob project = orEmpty (valueAt (storedConfig project) "secrets") from rfl] at hblob
    unfold secretsOf at hblob ⊢
    rw [valueAt_congr hsecrets, hblob]
    rfl
  · rw [← hself]
    exact valueAt_congr (hrest _ (by decide))
  · have hagent : vetted.lookup "agent_type" = _ := (hrest _ (by decide)).trans (hothers _ (by decide))
    rw [valueAt_congr hagent, keepAgentType_self]
    have hvalue : valueAt (keepSecrets (storedSecretsBlob project) (popKey config "secrets")) "agent_type" =
        valueAt config "agent_type" := by
      apply valueAt_congr
      rw [keepSecrets_of_ne _ _ (by decide), lookup_popKey_of_ne _ (by decide)]
    rw [hvalue]
  · intro key hkey
    simp only [List.mem_cons, List.not_mem_nil, or_false, not_or] at hkey
    rw [hrest _ hkey.2.2.2, hothers _ hkey.2.2.1, kept_lookup config project hkey.1 hkey.2.1]

end Vetting

end Orchestrator.Projects
