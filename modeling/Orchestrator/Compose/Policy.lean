import Orchestrator.Python.Value
import Orchestrator.Compose.CommandLine

/-!
The policy for a Compose project that `docker compose config` has resolved:
the identities, limits and ports the manager writes into it, and the checks it
has to pass before it is run.
-/

namespace Orchestrator.Compose

open Python

abbrev Findings := Except Raised (List String)

namespace Findings

def all : List Findings → Findings
  | [] => .ok []
  | check :: rest => do return (← check) ++ (← all rest)

def report (bad : Bool) (error : String) : Findings := .ok (if bad then [error] else [])

def refuse (bad : Except Raised Bool) (error : String) : Findings := do report (← bad) error

def Clean (check : Findings) : Prop := check = .ok []

theorem clean_all {checks : List Findings} : (all checks).Clean ↔ ∀ check ∈ checks, check.Clean := by
  induction checks with
  | nil => simp [all, Clean]
  | cons check rest ih =>
    rw [List.forall_mem_cons, ← ih]
    unfold Clean
    cases check with
    | error e => simp [all, bind, Except.bind]
    | ok errors =>
      cases h : all rest with
      | error e => simp [all, h, bind, Except.bind]
      | ok more => simp [all, h, bind, Except.bind, pure, Except.pure, List.append_eq_nil_iff]

variable {error : String}

theorem clean_report {bad : Bool} : (report bad error).Clean ↔ bad = false := by
  cases bad <;> simp [report, Clean]

theorem clean_refuse {bad : Except Raised Bool} : (refuse bad error).Clean ↔ bad = .ok false := by
  cases bad with
  | error e => simp [refuse, Clean, bind, Except.bind]
  | ok b => cases b <;> simp [refuse, report, Clean, bind, Except.bind]

theorem not_clean_error {errors : List String} : ¬ Clean (.ok (error :: errors)) := by
  intro h
  cases h

end Findings

open Findings

/-- What the policy takes from its process: `sha256(...).hexdigest()`, `str()` of
what is not text, and what the file system resolves a path to. -/
structure Machine where
  sha256 : String → String
  render : Value → String
  resolve : PurePath → Except Raised PurePath

def maxCpuLimit : ℚ := 3

def maxMemoryLimitBytes : Int := 4 * 1024 * 1024 * 1024

def defaultCpuLimit : String := "1.0"

def defaultMemoryLimit : String := "512MiB"

def permittedBuildKeys : List String := ["context", "dockerfile", "args"]

variable (m : Machine)

def buildImage (workerId serviceName : String) : String :=
  let workerScope := String.ofList ((m.sha256 workerId).toList.take 16)
  let serviceScope := String.ofList ((m.sha256 serviceName).toList.take 16)
  s!"codegen-project-{workerScope}-{serviceScope}:generated"

def identifyService (workerId name : String) (service : Mapping) : Mapping :=
  if (valueAt service "build").isNone then service else setKey service "image" (.text (buildImage m workerId name))

def identifyVolume : Value → Value
  | .mapping volume => .mapping (popKey volume "name")
  | volume => volume

def defaultLimits : Mapping := [("cpus", .text defaultCpuLimit), ("memory", .text defaultMemoryLimit)]

def overrideResources : Value → Value
  | .mapping resources =>
    .mapping (if (valueAt resources "limits").isNone then setKey resources "limits" (.mapping defaultLimits) else resources)
  | resources => resources

def overrideDeploy : Value → Value
  | .mapping deploy =>
    .mapping (setKey deploy "resources" (overrideResources ((deploy.lookup "resources").getD (.mapping []))))
  | deploy => deploy

def overrideService (service : Mapping) : Mapping :=
  setKey (setKey service "ports" (.list [])) "deploy" (overrideDeploy ((service.lookup "deploy").getD (.mapping [])))

def overrideEntry (workerId : String) : String × Value → Except Raised (String × Value)
  | (name, .mapping service) => .ok (name, .mapping (overrideService (identifyService m workerId name service)))
  | (name, _) => .error (.valueError s!"Service '{name}' must be a mapping")

def applyEffectiveOverrides (data : Mapping) (workerId : String) : Except Raised Mapping := do
  match valueAt data "services" with
  | .mapping services =>
    let services ← services.mapM (overrideEntry m workerId)
    let data := setKey data "services" (.mapping services)
    match valueAt data "volumes" with
    | .mapping volumes =>
      return setKey data "volumes" (.mapping (volumes.map fun entry => (entry.1, identifyVolume entry.2)))
    | _ => return data
  | _ => .error (.valueError "Resolved Compose configuration must contain services")

/-- The characters whose lower case is in `docker.sock` or `compose.sock`. -/
def lowerChar (c : Char) : Char := if c = Char.ofNat 0x212a then 'k' else c.toLower

def isSocketPath (path : String) : Bool :=
  let lowered := String.ofList (path.toList.map lowerChar)
  contains lowered "docker.sock" || contains lowered "compose.sock"

def volumeParts : Value → String × String × String
  | .text volume => match volume.toList.splitOn ':' with
    | source :: target :: _ => (String.ofList source, String.ofList target, "bind")
    | _ => ("", "", "bind")
  | .mapping volume =>
    (((volume.lookup "source").getD (.text "")).str m.render, ((volume.lookup "target").getD (.text "")).str m.render,
      ((volume.lookup "type").getD (.text "volume")).str m.render)
  | _ => ("", "", "")

def isWithinWorkspace (source : PurePath) (workspace : PurePath) : Except Raised Bool :=
  match (do let path ← m.resolve source; path.relativeTo (← m.resolve workspace)) with
  | .ok _ => .ok true
  | .error (.osError _) => .ok false
  | .error (.valueError _) => .ok false
  | .error e => .error e

def isInside (workspace : Option PurePath) (source : PurePath) : Except Raised Bool :=
  match workspace with
  | none => .ok false
  | some workspace => isWithinWorkspace m source workspace

def validateMount (name : String) (workspace : Option PurePath) (source target kind : String) : Findings :=
  all [
    report (isSocketPath source || isSocketPath target)
      s!"Service '{name}': Docker or Compose socket mount is not allowed",
    if kind != "bind" then .ok []
    else if !startsWith source "/" then
      .ok [s!"Service '{name}': absolute bind mount source '{source}' is not allowed"]
    else refuse (not <$> isInside m workspace (.ofText source))
      s!"Service '{name}': absolute bind mount source '{source}' is not allowed"]

def validateVolume (name : String) (workspace : Option PurePath) (volume : Value) : Findings :=
  validateMount m name workspace (volumeParts m volume).1 (volumeParts m volume).2.1 (volumeParts m volume).2.2

def validateVolumes (name : String) (service : Mapping) (workspace : Option PurePath) : Findings :=
  match (service.lookup "volumes").getD (.list []) with
  | .list volumes => all (volumes.map (validateVolume m name workspace))
  | _ => .ok [s!"Service '{name}': volumes must be a list"]

def isText (value : Value) (text : String) : Bool :=
  match value with
  | .text s => s == text
  | _ => false

def validateNamedVolume : String × Value → Findings
  | (_, .none) => .ok []
  | (name, .mapping volume) => all [
      report (valueAt volume "external").truthy s!"Volume '{name}': external volumes are not allowed",
      report (!isText ((volume.lookup "driver").getD (.text "local")) "local")
        s!"Volume '{name}': only the default local driver is allowed",
      report (valueAt volume "driver_opts").truthy s!"Volume '{name}': driver_opts are not allowed"]
  | (name, _) => .ok [s!"Volume '{name}' must be a mapping"]

def validateNamedVolumes (data : Mapping) : Findings :=
  match (data.lookup "volumes").getD (.mapping []) with
  | .none => .ok []
  | .mapping volumes => all (volumes.map validateNamedVolume)
  | _ => .ok ["Resolved Compose volumes must be a mapping"]

/-- `str.title()` of the two kinds of definitions with files. -/
def titled (kind : String) : String := if kind = "secrets" then "Secrets" else "Configs"

def validateSource (workspace : Option PurePath) (source : Value) (error : String) : Findings :=
  if !source.truthy then .ok []
  else match source with
    | .text path => refuse (not <$> isInside m workspace (.ofText path)) error
    | _ => .ok [error]

def validateFileSource (kind : String) (workspace : Option PurePath) : String × Value → Findings
  | (name, .mapping definition) => all [
      report (valueAt definition "external").truthy s!"{titled kind} '{name}': external sources are not allowed",
      validateSource m workspace (valueAt definition "file")
        s!"{titled kind} '{name}': file source must remain within the worker workspace"]
  | (name, _) => .ok [s!"{titled kind} '{name}' must be a mapping"]

def validateFileSources (kind : String) (definitions : Value) (workspace : Option PurePath) : Findings :=
  match definitions with
  | .none => .ok []
  | .mapping definitions => all (definitions.map (validateFileSource m kind workspace))
  | _ => .ok [s!"Resolved Compose {kind} must be a mapping"]

def unsupportedBuildKeys (build : Mapping) : List String :=
  ((build.map Prod.fst).dedup.filter fun key => !permittedBuildKeys.contains key).mergeSort

def validateDockerfile (name : String) (context : Value) (dockerfile : Value) (workspace : Option PurePath) : Findings :=
  let error := s!"Service '{name}': build.dockerfile must remain within the worker workspace"
  if !dockerfile.truthy then .ok []
  else match dockerfile, workspace with
    | .text file, some workspace =>
      if (PurePath.ofText file).isAbsolute then refuse (not <$> isWithinWorkspace m (.ofText file) workspace) error
      else match context with
        | .text context =>
          refuse (not <$> isWithinWorkspace m ((PurePath.ofText context).join (.ofText file)) workspace) error
        | _ => .ok [error]
    | _, _ => .ok [error]

def validateBuildMapping (name : String) (build : Mapping) (workspace : Option PurePath) : Findings := all [
  .ok ((unsupportedBuildKeys build).map fun key => s!"Service '{name}': build.{key} is not supported"),
  validateSource m workspace (valueAt build "context")
    s!"Service '{name}': build.context must remain within the worker workspace",
  validateDockerfile m name (valueAt build "context") (valueAt build "dockerfile") workspace]

def validateBuild (name : String) (service : Mapping) (workspace : Option PurePath) : Findings :=
  match valueAt service "build" with
  | .none => .ok []
  | .text context => validateBuildMapping m name [("context", .text context)] workspace
  | .mapping build => validateBuildMapping m name build workspace
  | _ => .ok [s!"Service '{name}': build must be a mapping"]

def memoryFactor (unit : List Char) : Option Int :=
  match String.ofList (lowerAscii unit) with
  | "" => some 1
  | "k" => some 1000
  | "kb" => some 1000
  | "m" => some (1000 ^ 2)
  | "mb" => some (1000 ^ 2)
  | "g" => some (1000 ^ 3)
  | "gb" => some (1000 ^ 3)
  | "t" => some (1000 ^ 4)
  | "tb" => some (1000 ^ 4)
  | "ki" => some 1024
  | "kib" => some 1024
  | "mi" => some (1024 ^ 2)
  | "mib" => some (1024 ^ 2)
  | "gi" => some (1024 ^ 3)
  | "gib" => some (1024 ^ 3)
  | "ti" => some (1024 ^ 4)
  | "tib" => some (1024 ^ 4)
  | _ => none

def isMemoryUnit : List Char → Bool
  | [] => true
  | prefixLetter :: rest =>
    "kKmMgGtT".toList.contains prefixLetter &&
      (["", "i", "b", "B", "ib", "iB"].map String.toList).contains rest

def isDecimal (c : Char) : Bool := (digitValue c).isSome

def memoryMatch (text : List Char) : Option (List Char × List Char) :=
  let (whole, rest) := text.span isDecimal
  let (amount, unit) := match rest with
    | '.' :: rest => match rest.span isDecimal with
      | ([], _) => (whole, '.' :: rest)
      | (part, unit) => (whole ++ '.' :: part, unit)
    | rest => (whole, rest)
  if whole.isEmpty || !isMemoryUnit unit then none else some (amount, unit)

def scaled (amount : Float64) (factor : Int) : Except Raised Int :=
  match amount with
  | .finite q => match toFloat64 (q * factor) with
    | .finite bytes => .ok (if 0 ≤ bytes then ⌊bytes⌋ else ⌈bytes⌉)
    | _ => .error .overflowError
  | .infinite _ => .error .overflowError
  | .nan => .error (.valueError "cannot convert float NaN to integer")

def memoryBytes : Value → Except Raised (Option Int)
  | .int n => .ok (if 0 < n then some n else none)
  | .text text => match memoryMatch (strip text.toList) with
    | none => .ok none
    | some (amount, unit) => match floatOfText (String.ofList amount) with
      | none => .error (.valueError s!"could not convert string to float: '{String.ofList amount}'")
      | some (.finite q) => if q ≤ 0 then .ok none else match memoryFactor unit with
        | none => .ok none
        | some factor => some <$> scaled (.finite q) factor
      | some amount => match memoryFactor unit with
        | none => .ok none
        | some factor => some <$> scaled amount factor
  | _ => .ok none

def cpuLimit : Value → Except Raised Float64
  | .bool b => .ok (.finite (if b then 1 else 0))
  | .int n => match toFloat64 n with
    | .infinite _ => .error .overflowError
    | x => .ok x
  | .float x => .ok x
  | .text text => .ok ((floatOfText text).getD (.finite 0))
  | _ => .ok (.finite 0)

def cpuLimitRefused : Float64 → Bool
  | .finite q => q ≤ 0 || maxCpuLimit < q
  | _ => true

def memoryLimitRefused : Option Int → Bool
  | none => true
  | some bytes => maxMemoryLimitBytes < bytes

def limitsOf : Value → Option Value
  | .mapping resources => resources.lookup "limits"
  | _ => none

def deployLimits : Value → Option Value
  | .mapping deploy => (deploy.lookup "resources").bind limitsOf
  | _ => none

/-- `service["deploy"]["resources"]["limits"]`; `none` where a key is missing or
what carries it is no mapping. -/
def resourceLimits (service : Mapping) : Option Value := (service.lookup "deploy").bind deployLimits

def validateResourceLimits (name : String) (service : Mapping) : Findings :=
  match resourceLimits service with
  | none => .ok [s!"Service '{name}': deploy.resources.limits with CPU and memory limits is required"]
  | some (.mapping limits) => all [
      refuse (cpuLimitRefused <$> cpuLimit (valueAt limits "cpus"))
        s!"Service '{name}': CPU limit must be greater than 0 and at most 3.0",
      refuse (memoryLimitRefused <$> memoryBytes (valueAt limits "memory"))
        s!"Service '{name}': memory limit must be a positive value at most 4294967296 bytes"]
  | some _ => .ok [s!"Service '{name}': deploy.resources.limits must be a mapping"]

def validateIdentity (workerId : String) : String × Value → Findings
  | (name, .mapping service) =>
    let expected := buildImage m workerId name
    all [
      report (hasKey service "container_name") s!"Service '{name}': container_name is not allowed",
      report (!(valueAt service "build").isNone && !isText (valueAt service "image") expected)
        s!"Service '{name}': build image must be '{expected}'"]
  | _ => .ok []

def validateVolumeName : String × Value → Findings
  | (name, .mapping volume) => report (hasKey volume "name") s!"Volume '{name}': name is not allowed"
  | _ => .ok []

def validateIdentities (data : Mapping) (workerId : String) : Findings := all [
  match valueAt data "services" with
    | .mapping services => all (services.map (validateIdentity m workerId))
    | _ => .ok [],
  match valueAt data "volumes" with
    | .mapping volumes => all (volumes.map validateVolumeName)
    | _ => .ok []]

def namespaceFields : List String := ["network_mode", "pid", "ipc", "uts", "userns_mode", "cgroup"]

def capabilityFields : List String := ["devices", "device_cgroup_rules", "cap_add"]

def unsupportedFields : List String := ["volumes_from", "security_opt"]

/-- The names in a `networks` entry, as a set; a member that cannot be hashed raises. -/
def networkNames : Value → Except Raised (List Value)
  | .mapping entries => .ok (entries.map fun entry => .text entry.1)
  | .list items =>
    if items.any fun item => match item with
      | .list _ => true
      | .mapping _ => true
      | _ => false
    then .error .typeError else .ok items
  | _ => .ok []

def onlyDefault (names : List Value) : Bool := !names.isEmpty && names.all fun name => isText name "default"

def validateService (workspace : Option PurePath) : String × Value → Findings
  | (name, .mapping service) => all [
      report (valueAt service "privileged").truthy s!"Service '{name}': privileged is not allowed",
      all (namespaceFields.map fun field =>
        report (!(valueAt service field).isNone) s!"Service '{name}': {field} is not allowed"),
      all (capabilityFields.map fun field =>
        report (valueAt service field).truthy s!"Service '{name}': {field} is not allowed"),
      all (unsupportedFields.map fun field =>
        report (valueAt service field).truthy s!"Service '{name}': {field} is not allowed"),
      validateBuild m name service workspace,
      validateVolumes m name service workspace,
      refuse ((fun names => !onlyDefault names) <$> networkNames (valueAt service "networks"))
        s!"Service '{name}': only the worker default network is allowed",
      validateResourceLimits name service]
  | (name, _) => .ok [s!"Service '{name}' must be a mapping"]

def networkName (workerId : String) : String := s!"dev_proj_{workerId}"

def validateNetworks (data : Mapping) (workerId : String) : Findings :=
  let expected := networkName workerId
  let refused : Findings := .ok [s!"Resolved Compose default network must be external '{expected}'"]
  match valueAt data "networks" with
  | .mapping networks =>
    if !onlyDefault (networks.map fun entry => .text entry.1) then
      .ok ["Resolved Compose configuration may use only the worker default network"]
    else match valueAt networks "default" with
      | .mapping network => if isText (valueAt network "name") expected && (valueAt network "external").truthy then .ok [] else refused
      | _ => refused
  | _ => .ok ["Resolved Compose configuration may use only the worker default network"]

def effectiveFindings (data services : Mapping) (workerId : String) (workspace : Option PurePath) : Findings := all [
  validateNetworks data workerId,
  validateNamedVolumes data,
  validateIdentities m data workerId,
  validateFileSources m "secrets" (valueAt data "secrets") workspace,
  validateFileSources m "configs" (valueAt data "configs") workspace,
  all (services.map (validateService m workspace))]

def validateEffectiveCompose (data : Value) (workerId : String) (workspace : Option PurePath) :
    Except Raised ValidationResult :=
  match data with
  | .mapping data => match valueAt data "services" with
    | .mapping (entry :: services) => do
      let errors ← effectiveFindings m data (entry :: services) workerId workspace
      return ⟨errors.isEmpty, errors⟩
    | _ => .ok ⟨false, ["Resolved Compose configuration must contain services"]⟩
  | _ => .ok ⟨false, ["Resolved Compose configuration must be a mapping"]⟩

end Orchestrator.Compose
