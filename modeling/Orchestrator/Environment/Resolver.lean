import Orchestrator.Environment.Contract
import Orchestrator.Projects.Audience

/-!
Resolving the environment contract of a deploy: which of its variables are secrets, which are not,
and which a user still has to give.
-/

namespace Orchestrator.Environment

open Python Contracts
open Projects (Settings updateKeys existingSecrets namesTelegramId botAllowedIdsKey legacyBotAudienceKey hashable)

inductive Exn where
  | secretResolutionError (message : String)
  | unknownDerivedKeyError (key : String)
  | typedSecretResolutionError (outcome : DeployOutcome) (message : String)
  | other
deriving DecidableEq

def Exn.message : Exn → String
  | .secretResolutionError message => message
  | .unknownDerivedKeyError key => "Unknown computed secret: " ++ key
  | .typedSecretResolutionError _ message => message
  | .other => ""

structure Url where
  scheme : String
  netloc : String
  path : String

structure Platform where
  settings : Settings
  upper : String → String
  lower : String → String
  isIpAddress : String → Bool
  getenv : String → Option String
  urlparse : String → Option Url

structure DevOpsState where
  projectId : Option String
  projectSpec : Option Mapping
  allocatedResources : Mapping
  repoInfo : Option Mapping
  providedSecrets : Mapping
  envOverrides : Value
  environmentContract : Option CanonicalEnvContract

structure ResolvedValues where
  secretValues : Mapping
  nonSecretValues : Mapping
  generated : List (String × String)
  missingUser : List MissingUserSecret
deriving DecidableEq

namespace ResolvedValues

def storeSecret (resolved : ResolvedValues) (key : String) (value : Value) : ResolvedValues :=
  { resolved with secretValues := setKey resolved.secretValues key value }

def store (resolved : ResolvedValues) (key : String) (value : Value) (sensitive : Bool) : ResolvedValues :=
  if sensitive then resolved.storeSecret key value
  else { resolved with nonSecretValues := setKey resolved.nonSecretValues key value }

def generate (resolved : ResolvedValues) (key value : String) : ResolvedValues :=
  { resolved with generated := resolved.generated ++ [(key, value)] }

def miss (resolved : ResolvedValues) (key description : String) : ResolvedValues :=
  { resolved with missingUser := resolved.missingUser ++ [⟨key, description⟩] }

end ResolvedValues

structure ResolutionContext where
  projectSpec : Mapping
  config : Mapping
  state : DevOpsState
  configSecrets : Mapping
  envOverrides : Mapping

def refuse {A : Type} (message : String) : Except Exn A := .error (.typedSecretResolutionError .environmentContractInvalid message)

def refuseIf (wrong : Bool) (message : String) : Except Exn Unit := if wrong then refuse message else .ok ()

def presentText : Value → Option String
  | .text s => if strip s.toList = [] then none else some s
  | _ => none

def validatedProjectContext (state : DevOpsState) : Except Exn (String × Mapping) :=
  match state.projectId.filter fun projectId => strip projectId.toList ≠ [] && projectId ≠ "unknown" with
  | none => .error (.secretResolutionError "project_id is required for secret resolution")
  | some projectId => match state.projectSpec with
    | none => .error (.secretResolutionError "project context is required for secret resolution")
    | some projectSpec => match presentText (valueAt projectSpec "slug") with
      | none => .error (.secretResolutionError "project slug is required for secret resolution")
      | some _ => .ok (projectId, projectSpec)

def environmentContract (state : DevOpsState) : Except Exn CanonicalEnvContract :=
  match state.environmentContract with
  | none => refuse "environment contract is invalid"
  | some contract => .ok contract

def configOf (projectSpec : Mapping) : Except Exn Mapping :=
  match (projectSpec.lookup "config").getD (.mapping []) with
  | .mapping config => .ok config
  | _ => .error .other

def configSecrets (settings : Settings) (config : Mapping) : Except Exn Mapping :=
  match existingSecrets settings config with
  | .ok secrets => .ok secrets
  | .error _ => .error .other

def textOf : Value → Option String
  | .text s => some s
  | _ => none

def privateAudience (audience : Value) : Option String := (textOf audience).filter namesTelegramId

def overridden (overrides : Mapping) (value : Value) : Bool :=
  hasKey overrides botAllowedIdsKey && !(valueAt overrides botAllowedIdsKey).eq value

def migrateLegacyAudience (configSecrets overrides message : Mapping) (contract : CanonicalEnvContract) : Except Exn Mapping :=
  if hasKey configSecrets legacyBotAudienceKey && contract.declares botAllowedIdsKey then
    match privateAudience (valueAt configSecrets legacyBotAudienceKey) with
    | none => refuse "legacy private bot audience contains no Telegram IDs"
    | some legacyAudience =>
      if overridden message (.text legacyAudience) then refuse "deploy cannot override the legacy private bot audience"
      else if overridden overrides (.text legacyAudience) then
        refuse "effective bot audience differs from legacy private bot audience"
      else if hasKey overrides botAllowedIdsKey then .ok overrides
      else .ok (setKey overrides botAllowedIdsKey (.text legacyAudience))
  else .ok overrides

/-- `value or {}` has to be a mapping, and `value` one that is there. -/
def overrideMappings (configured message : Value) : Except Exn (Mapping × Mapping) :=
  match configured, Projects.orEmpty message with
  | .mapping configured, .mapping message => .ok (configured, message)
  | _, _ => refuse "project and deploy env_overrides must be mappings"

def vetMessageAudience (config message : Mapping) : Except Exn Unit :=
  match valueAt config "bot_access" with
  | .mapping access => refuseIf (overridden message (valueAt access "allowed_telegram_ids"))
      "deploy cannot override the configured bot audience"
  | _ => .ok ()

def environmentOverrides (config configSecrets : Mapping) (state : DevOpsState) (contract : CanonicalEnvContract) :
    Except Exn Mapping := do
  let (configured, message) ← overrideMappings (Projects.incomingOverrides config) state.envOverrides
  vetMessageAudience config message
  migrateLegacyAudience configSecrets (updateKeys configured message) message contract

def declaredLiteral (contract : CanonicalEnvContract) (key : String) : Bool := (contract.entries.lookup key).any (·.isLiteral)

def undeclared (overrides : Mapping) (contract : CanonicalEnvContract) : List String :=
  (Projects.sortedKeys overrides).filter fun key => !declaredLiteral contract key

def rejectUndeclaredOverrides (overrides : Mapping) (contract : CanonicalEnvContract) : Except Exn Unit :=
  refuseIf (!(undeclared overrides contract).isEmpty)
    ("environment overrides are not declared as contract literals: " ++ ", ".intercalate (undeclared overrides contract))

def isTgBotProject (config : Mapping) : Bool :=
  match valueAt config "modules" with
  | .list modules => modules.any fun module => module.eq (.text "tg_bot")
  | _ => false

def botAccessModes : List String := ["only_me", "public", "custom"]

/-- `mode not in {...}` raises for what cannot be in a set. -/
def accessMode (mode : Value) : Except Exn String :=
  if !hashable mode then .error .other
  else match (textOf mode).filter botAccessModes.contains with
    | none => refuse "bot_access mode is invalid"
    | some mode => .ok mode

def vetSelectedAudience (mode : String) (selected : Value) : Except Exn Unit :=
  if mode = "public" then refuseIf (!selected.eq (.text "")) "public bot audience must be empty"
  else refuseIf (privateAudience selected).isNone "private bot audience contains no Telegram IDs"

def vetBotAccess (access overrides : Mapping) (contract : CanonicalEnvContract) : Except Exn Unit := do
  let mode ← accessMode (valueAt access "mode")
  refuseIf (!contract.declares botAllowedIdsKey) ("bot access requires contract literal " ++ botAllowedIdsKey)
  let selectedAudience := valueAt access "allowed_telegram_ids"
  vetSelectedAudience mode selectedAudience
  refuseIf (!(valueAt overrides botAllowedIdsKey).eq selectedAudience)
    "effective bot audience differs from configured bot audience"

def validateBotAudience (config configSecrets overrides : Mapping) (contract : CanonicalEnvContract) : Except Exn Unit :=
  match valueAt config "bot_access" with
  | .none => refuseIf
      (isTgBotProject config && !(hasKey configSecrets legacyBotAudienceKey && contract.declares botAllowedIdsKey))
      "tg_bot projects require explicit bot_access"
  | .mapping access => vetBotAccess access overrides contract
  | _ => refuse "bot_access must be a mapping"

def allocationFor (serviceName : String) : Value → Option Mapping
  | .mapping alloc => if (valueAt alloc "service_name").eq (.text serviceName) then some alloc else none
  | _ => none

def maxTcpPort : Int := 65535

def allocatedPort (serviceName : String) : Value → Except Exn Int
  | .int port =>
      if 1 ≤ port ∧ port ≤ maxTcpPort then .ok port
      else .error (.secretResolutionError s!"Invalid allocation for service {serviceName}: port is required")
  | _ => .error (.secretResolutionError s!"Invalid allocation for service {serviceName}: port is required")

def checkAllocation (platform : Platform) (serviceName : String) (alloc : Mapping) : Except Exn (String × Int) :=
  match (presentText (valueAt alloc "server_ip")).filter fun ip => platform.lower ip ≠ "localhost" with
  | none => .error (.secretResolutionError s!"Invalid allocation for service {serviceName}: server_ip is required")
  | some ip =>
    if !platform.isIpAddress ip then
      .error (.secretResolutionError s!"Invalid allocation for service {serviceName}: server_ip is invalid")
    else (allocatedPort serviceName (valueAt alloc "port")).map fun port => (ip, port)

def findAllocation (platform : Platform) (state : DevOpsState) (serviceName : String) : Except Exn (Option (String × Int)) :=
  match state.allocatedResources.filterMap fun resource => allocationFor serviceName resource.2 with
  | [] => .ok none
  | [alloc] => (checkAllocation platform serviceName alloc).map some
  | _ => .error (.secretResolutionError s!"Ambiguous allocation for service {serviceName}")

def staticSecrets : List (String × String) :=
  [("APP_ENV", "production"), ("ENVIRONMENT", "production"), ("DEBUG", "false"), ("POSTGRES_HOST", "db"),
    ("POSTGRES_PORT", "5432"), ("POSTGRES_REQUIRE_SSL", "false"), ("BACKEND_API_URL", "http://backend:8000"),
    ("API_URL", "http://backend:8000"), ("API_BASE_URL", "http://backend:8000"), ("BACKEND_URL", "http://backend:8000")]

def portServiceMap : List (String × String) :=
  [("BACKEND_PORT", "backend"), ("FRONTEND_PORT", "frontend"), ("TG_BOT_PORT", "tg_bot"), ("POSTGRES_HOST_PORT", "postgres"),
    ("REDIS_HOST_PORT", "redis")]

def projectSpecRuntimeSlug (projectSpec : Mapping) : Except Exn String :=
  match (textOf (valueAt projectSpec "slug")).filter (· ≠ "") with
  | none => .error .other
  | some slug => .ok slug

def enabledModules (config : Mapping) : Except Exn String :=
  match (config.lookup "modules").getD (.list []) with
  | .list modules => match modules.mapM textOf with
    | some names => .ok (",".intercalate names)
    | none => .error (.secretResolutionError "project modules are invalid")
  | _ => .error (.secretResolutionError "project modules are invalid")

def resolvePort (platform : Platform) (state : DevOpsState) (service : String) : Except Exn String :=
  match findAllocation platform state service with
  | .error e => .error e
  | .ok none => .error (.secretResolutionError s!"Missing allocation for service {service}")
  | .ok (some alloc) => .ok (toString alloc.2)

def replaceChar (text : String) (old new : Char) : String := String.ofList (text.toList.map fun c => if c = old then new else c)

def partsOf (text : String) (separator : Char) : List String :=
  ((text.toList.splitOn separator).filter (· ≠ [])).map String.ofList

def endsWith (text ending : String) : Bool := ending.toList.isSuffixOf text.toList

def removeSuffix (text ending : String) : String :=
  if endsWith text ending then String.ofList (text.toList.take (text.toList.length - ending.toList.length)) else text

def resolveDockerImage (platform : Platform) (state : DevOpsState) (keyUpper : String) : Except Exn String :=
  match (platform.getenv "ORCHESTRATOR_HOSTNAME").filter (· ≠ "") with
  | none => .error (.secretResolutionError "ORCHESTRATOR_HOSTNAME is not set")
  | some registryHost => match textOf (valueAt (state.repoInfo.getD []) "html_url") with
    | none => .error (.secretResolutionError "repository metadata is required for Docker image resolution")
    | some repoUrl => match platform.urlparse repoUrl with
      | none => .error .other
      | some url => match ["http", "https"].contains url.scheme && url.netloc ≠ "", partsOf url.path '/' with
        | true, [owner, repo] => .ok (registryHost ++ "/" ++ owner ++ "/" ++ repo ++ "-" ++
            replaceChar (platform.lower (removeSuffix keyUpper "_IMAGE")) '_' '-' ++ ":latest")
        | _, _ => .error (.secretResolutionError "repository metadata is malformed for Docker image resolution")

def computeSecret (platform : Platform) (key : String) (context : ResolutionContext) : Except Exn String :=
  let keyUpper := platform.upper key
  match staticSecrets.lookup keyUpper with
  | some value => .ok value
  | none =>
    if ["APP_NAME", "PROJECT_NAME", "COMPOSE_PROJECT_NAME"].contains keyUpper then projectSpecRuntimeSlug context.projectSpec
    else if keyUpper = "POSTGRES_DB" then
      .ok ("db_" ++ platform.lower (replaceChar (context.state.projectId.getD "") '-' '_'))
    else if keyUpper = "ENABLED_MODULES" then enabledModules context.config
    else match portServiceMap.lookup keyUpper with
      | some service => resolvePort platform context.state service
      | none =>
        if endsWith keyUpper "_IMAGE" then resolveDockerImage platform context.state keyUpper
        else .error (.unknownDerivedKeyError key)

def dotenvValue (render : Value → String) : EnvLiteralValue → String
  | .bool true => "true"
  | .bool false => "false"
  | .text s => s
  | .int n => toString n
  | .float .negativeZero => "-0.0"
  | .float x => render (.float x.number)

def userSecret (context : ResolutionContext) (key : String) : Value :=
  (context.state.providedSecrets.lookup key).getD (valueAt context.configSecrets key)

def resolveUserSecret (platform : Platform) (key : String) (entry : EnvContractEntry) (description : String)
    (context : ResolutionContext) (resolved : ResolvedValues) : ResolvedValues :=
  match userSecret context key with
  | .none => if entry.required then resolved.miss key description else resolved
  | value => resolved.storeSecret key (.text (value.str platform.settings.render))

/-- `draws` are the tokens the generator gives. -/
def resolveGeneratedSecret (platform : Platform) (draws : Nat → String) (key : String) (context : ResolutionContext)
    (resolved : ResolvedValues) : ResolvedValues :=
  match valueAt context.configSecrets key with
  | .none => (resolved.generate key (draws resolved.generated.length)).storeSecret key (.text (draws resolved.generated.length))
  | value => resolved.storeSecret key (.text (value.str platform.settings.render))

def resolveAllocation (platform : Platform) (key : String) (entry : EnvContractEntry) (selector : AllocationSelector)
    (context : ResolutionContext) (resolved : ResolvedValues) : Except Exn ResolvedValues :=
  match findAllocation platform context.state selector.name with
  | .error e => .error e
  | .ok none => .error (.typedSecretResolutionError .allocationMissing s!"Missing allocation for {selector.name}")
  | .ok (some allocation) => .ok (resolved.store key (.text (toString allocation.2)) entry.sensitive)

def literalValue (platform : Platform) (key : String) (value : EnvLiteralValue) (context : ResolutionContext) : Value :=
  match valueAt context.envOverrides key with
  | .none => .text (dotenvValue platform.settings.render value)
  | override => override

def resolveEntry (platform : Platform) (draws : Nat → String) (key : String) (entry : EnvContractEntry)
    (context : ResolutionContext) (resolved : ResolvedValues) : Except Exn ResolvedValues :=
  match entry.source with
  | .userSecret description => .ok (resolveUserSecret platform key entry description context resolved)
  | .generatedSecret => .ok (resolveGeneratedSecret platform draws key context resolved)
  | .allocation selector _ => resolveAllocation platform key entry selector context resolved
  | .derived => (computeSecret platform key context).map fun value => resolved.store key (.text value) entry.sensitive
  | .literal value => .ok (resolved.store key (literalValue platform key value context) entry.sensitive)

def resolveOrSkip (platform : Platform) (draws : Nat → String) (key : String) (entry : EnvContractEntry)
    (context : ResolutionContext) (resolved : ResolvedValues) : Except Exn ResolvedValues :=
  match resolveEntry platform draws key entry context resolved with
  | .ok resolved => .ok resolved
  | .error (.unknownDerivedKeyError key) =>
      if !entry.required then .ok resolved
      else .error (.typedSecretResolutionError .environmentResolutionFailed (Exn.message (.unknownDerivedKeyError key)))
  | .error (.secretResolutionError message) => .error (.typedSecretResolutionError .environmentResolutionFailed message)
  | .error e => .error e

def resolveEntries (platform : Platform) (draws : Nat → String) (context : ResolutionContext) :
    List (String × EnvContractEntry) → ResolvedValues → Except Exn ResolvedValues
  | [], resolved => .ok resolved
  | (key, entry) :: rest, resolved =>
    if entry.inProduction then do
      let resolved ← resolveOrSkip platform draws key entry context resolved
      resolveEntries platform draws context rest resolved
    else resolveEntries platform draws context rest resolved

/-- `saves` is whether the API takes what is to be kept. -/
def saveSecretsToProject (saves : List (String × String) → Bool) (generated : List (String × String)) : Except Exn Unit :=
  if generated.isEmpty || saves generated then .ok ()
  else .error (.typedSecretResolutionError .environmentResolutionFailed "Failed to persist generated secrets")

def resolveContract (platform : Platform) (draws : Nat → String) (saves : List (String × String) → Bool) (state : DevOpsState) :
    Except Exn ResolvedValues := do
  let (_, projectSpec) ← validatedProjectContext state
  let contract ← environmentContract state
  let config ← configOf projectSpec
  let secrets ← configSecrets platform.settings config
  let overrides ← environmentOverrides config secrets state contract
  rejectUndeclaredOverrides overrides contract
  validateBotAudience config secrets overrides contract
  let resolved ← resolveEntries platform draws ⟨projectSpec, config, state, secrets, overrides⟩ contract.entries ⟨[], [], [], []⟩
  saveSecretsToProject saves resolved.generated
  .ok resolved

structure Resolution where
  secretValues : Mapping
  nonSecretValues : Mapping
  missingUserSecrets : List MissingUserSecret
  resolutionOutcome : Option DeployOutcome

def ResolvedValues.report (resolved : ResolvedValues) : Resolution where
  secretValues := resolved.secretValues
  nonSecretValues := resolved.nonSecretValues
  missingUserSecrets := resolved.missingUser
  resolutionOutcome := if resolved.missingUser.isEmpty then none else some .waitingForUserSecret

def run (platform : Platform) (draws : Nat → String) (saves : List (String × String) → Bool) (state : DevOpsState) : Except Exn Resolution :=
  (resolveContract platform draws saves state).map ResolvedValues.report

end Orchestrator.Environment
