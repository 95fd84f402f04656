import Orchestrator.Compose.Runner
import Orchestrator.Graph.Search

/-!
The policy for the Compose files a worker selects, before Compose reads them:
the directives that name other files, and the walk over the files that
`extends` leads to.
-/

namespace Orchestrator.Compose

open Python Findings

/-- The machine with the files on it. A path is resolved one component after the
other, from wherever its start leads. -/
structure Disk extends Machine where
  readText : PurePath → Except Raised String
  safeLoad : String → Except String Value
  files : List PurePath
  readable : ∀ {path : PurePath} {text : String}, readText path = .ok text → path ∈ files
  resolve_join : ∀ {base real : PurePath} (path : PurePath), resolve base = .ok real →
    resolve (base.join path) = resolve (real.join path)

def allowedDirectives : List String :=
  ["env_file", "extends.file", "build.context", "build.dockerfile", "build.args", "secrets.*.file", "configs.*.file"]

def isNameStart (c : Char) : Bool := c == '_' || c.isAlpha

def interpolated : List Char → Bool
  | [] => false
  | '$' :: rest =>
    (match rest with
      | '{' :: inner => inner.contains '}'
      | c :: _ => isNameStart c
      | [] => false) || interpolated rest
  | _ :: rest => interpolated rest

variable (disk : Disk)

def sourcePath (base workspace : PurePath) (label : String) : Value → Findings
  | .text path =>
    if path = "" then .ok [s!"{label} must be a non-empty workspace path"]
    else if interpolated path.toList then .ok [s!"{label} must not use Compose interpolation"]
    else refuse (not <$> isWithinWorkspace disk.toMachine (base.join (.ofText path)) workspace)
      s!"{label} must remain within the worker workspace"
  | _ => .ok [s!"{label} must be a non-empty workspace path"]

def entryPath : Value → Value
  | .mapping entry => valueAt entry "path"
  | value => value

def sourcePathValues (base workspace : PurePath) (label : String) : Value → Findings
  | .text path => sourcePath disk base workspace label (.text path)
  | .list items => all (items.map fun item => sourcePath disk base workspace label (entryPath item))
  | _ => .ok [s!"{label} must be a workspace path or list of workspace paths"]

def admitSourceDirective (directive label : String) (base workspace : PurePath) (value : Value) : Findings :=
  if !allowedDirectives.contains directive then .ok [s!"{label} is not supported"]
  else sourcePath disk base workspace label value

def admitSourceDirectives (directive label : String) (base workspace : PurePath) (value : Value) : Findings :=
  if !allowedDirectives.contains directive then .ok [s!"{label} is not supported"]
  else sourcePathValues disk base workspace label value

def validateSourceDockerfile (name : String) (base workspace : PurePath) (context : Value) (build : Mapping) : Findings :=
  if !hasKey build "dockerfile" then .ok []
  else match context, valueAt build "dockerfile" with
    | .text context, .text dockerfile =>
      admitSourceDirective disk "build.dockerfile" s!"Service '{name}': build dockerfile" base workspace
        (.text ((PurePath.ofText context).join (.ofText dockerfile)).text)
    | _, _ => .ok [s!"Service '{name}': build dockerfile must be a workspace path"]

def validateSourceBuild (name : String) (base workspace : PurePath) (service : Mapping) : Findings :=
  let check := admitSourceDirective disk "build.context" s!"Service '{name}': build context" base workspace
  match valueAt service "build" with
  | .none => .ok []
  | .text context => check (.text context)
  | .mapping build =>
    let context := (build.lookup "context").getD (.text ".")
    all [
      .ok ((unsupportedBuildKeys build).map fun key => s!"Service '{name}': build {key} is not supported"),
      check context,
      validateSourceDockerfile disk name base workspace context build]
  | _ => .ok [s!"Service '{name}': build must be a mapping"]

def validateSourceVolumes (name : String) (service : Mapping) : Findings :=
  match (service.lookup "volumes").getD (.list []) with
  | .list volumes => all (volumes.map fun volume =>
      let (source, target, kind) := volumeParts disk.toMachine volume
      all [
        report (isSocketPath source || isSocketPath target)
          s!"Service '{name}': Docker or Compose socket mount is not allowed",
        report (kind == "bind" && startsWith source "/")
          s!"Service '{name}': absolute bind mount source '{source}' is not allowed"])
  | _ => .ok [s!"Service '{name}': volumes must be a list"]

def fieldOf (service : Mapping) (directive field : String) : Option Value :=
  match valueAt service directive with
  | .mapping entries => entries.lookup field
  | _ => none

def validateExtends (name : String) (base workspace : PurePath) (service : Mapping) : Findings :=
  match valueAt service "extends" with
  | .mapping fields => match fields.lookup "file" with
    | some file => admitSourceDirective disk "extends.file" s!"Service '{name}': extends file" base workspace file
    | none => .ok []
  | .none => .ok []
  | _ => .ok [s!"Service '{name}': extends must be a mapping"]

def optional (check : Value → Findings) : Option Value → Findings
  | some value => check value
  | none => .ok []

def sourceDirectives (name : String) (base workspace : PurePath) (service : Mapping) : Findings := all [
  optional (admitSourceDirectives disk "env_file" s!"Service '{name}': env_file" base workspace)
    (service.lookup "env_file"),
  optional (admitSourceDirectives disk "label_file" s!"Service '{name}': label_file" base workspace)
    (service.lookup "label_file"),
  validateExtends disk name base workspace service,
  validateSourceBuild disk name base workspace service,
  optional (admitSourceDirective disk "credential_spec.file" s!"Service '{name}': credential_spec file" base workspace)
    (fieldOf service "credential_spec" "file"),
  optional (admitSourceDirectives disk "develop.watch.path" s!"Service '{name}': develop watch path" base workspace)
    (fieldOf service "develop" "watch")]

def sourceScope (sourceFile workspace projectDirectory : Option PurePath) : Option (PurePath × PurePath) :=
  match sourceFile, workspace with
  | some file, some workspace => some (projectDirectory.getD file.parent, workspace)
  | _, _ => none

def validateSourceService (scope : Option (PurePath × PurePath)) : String × Value → Findings
  | (name, .mapping service) => all [
      validateSourceVolumes disk name service,
      match scope with
        | some (base, workspace) => sourceDirectives disk name base workspace service
        | none => .ok []]
  | (name, _) => .ok [s!"Service '{name}' must be a mapping"]

def validateDefinition (kind : String) (base workspace : PurePath) : String × Value → Findings
  | (name, .mapping definition) => all [
      report (valueAt definition "external").truthy s!"{titled kind} '{name}': external sources are not allowed",
      optional (admitSourceDirective disk (kind ++ ".*.file") s!"{titled kind} '{name}': file" base workspace)
        (definition.lookup "file")]
  | (name, _) => .ok [s!"{titled kind} '{name}' must be a mapping"]

def validateDefinitions (kind : String) (base workspace : PurePath) (data : Mapping) : Findings :=
  match (data.lookup kind).getD (.mapping []) with
  | .mapping definitions => all (definitions.map (validateDefinition disk kind base workspace))
  | _ => .ok [s!"{titled kind} must be a mapping"]

def projectDirectives (base workspace : PurePath) (data : Mapping) : Findings := all [
  optional (admitSourceDirectives disk "include" "Compose include" base workspace) (data.lookup "include"),
  validateDefinitions disk "secrets" base workspace data,
  validateDefinitions disk "configs" base workspace data]

def validateSourceIdentities (data services : Mapping) : Findings := all [
  all (services.map fun entry => match entry.2 with
    | .mapping service =>
      report (hasKey service "container_name") s!"Service '{entry.1}': container_name is not allowed"
    | _ => .ok []),
  match valueAt data "volumes" with
    | .none => .ok []
    | .mapping volumes => all (volumes.map validateVolumeName)
    | _ => .ok ["Compose volumes must be a mapping"]]

def sourceFindings (scope : Option (PurePath × PurePath)) (data services : Mapping) : Findings := all [
  validateSourceIdentities data services,
  all (services.map (validateSourceService disk scope)),
  match scope with
    | some (base, workspace) => projectDirectives disk base workspace data
    | none => .ok []]

def validateComposeFile (content : String) (sourceFile workspace projectDirectory : Option PurePath) :
    Except Raised ValidationResult :=
  match disk.safeLoad content with
  | .error text => .ok ⟨false, [s!"Invalid YAML: {text}"]⟩
  | .ok (.mapping data) => match (data.lookup "services").getD (.mapping []) with
    | .mapping services => do
      let errors ← sourceFindings disk (sourceScope sourceFile workspace projectDirectory) data services
      return ⟨errors.isEmpty, errors⟩
    | _ => .ok ⟨false, ["'services' must be a mapping"]⟩
  | .ok _ => .ok ⟨false, ["Compose file must be a YAML mapping"]⟩

structure Context where
  source : PurePath
  base : PurePath
  deriving DecidableEq, Repr

def enter (workspace source base : PurePath) : Except Raised Context := do
  let path ← sayInstead s!"Compose source cannot be resolved: {source.text}" (disk.resolve source)
  let _ ← sayInstead s!"Compose source cannot be resolved: {path.text}" (path.relativeTo workspace)
  return ⟨path, ← disk.resolve base⟩

def sayWhile {A : Type} (source : PurePath) : Except Raised A → Except Raised A
  | .error (.valueError exc) => .error (refused s!"Compose source cannot be resolved: {source.text}: {exc}")
  | .error (.osError exc) => .error (refused s!"Compose source cannot be resolved: {source.text}: {exc}")
  | result => result

def readSource (workspace source base : PurePath) : Except Raised Value := do
  let (result, data) ← sayWhile source do
    let content ← disk.readText source
    let result ← validateComposeFile disk content (some source) (some workspace) (some base)
    return (result, ← (disk.safeLoad content).mapError Raised.valueError)
  if result.valid then return data else throw (refused (String.intercalate "; " result.errors))

def extendedFile : Value → Option String
  | .mapping service => match fieldOf service "extends" "file" with
    | some (.text file) => some file
    | _ => none
  | _ => none

def extendedFiles : Value → List String
  | .mapping data => match (data.lookup "services").getD (.mapping []) with
    | .mapping services => services.filterMap fun entry => extendedFile entry.2
    | _ => []
  | _ => []

/-- `_validate_source_tree`, with fuel for the depth of its recursion; what it
returns is its set of seen contexts. -/
def validateSourceTree (workspace : PurePath) : Nat → PurePath → PurePath → List Context →
    Option (Except Raised (List Context))
  | 0, _, _, _ => none
  | fuel + 1, source, base, seen =>
    match enter disk workspace source base with
    | .error e => some (.error e)
    | .ok context =>
      if context ∈ seen then some (.ok seen)
      else match readSource disk workspace context.source base with
        | .error e => some (.error e)
        | .ok data =>
          Graph.walkAll (fun file seen => match disk.resolve (base.join (.ofText file)) with
            | .error e => some (.error e)
            | .ok target => validateSourceTree workspace fuel target target.parent seen)
            (extendedFiles data) (context :: seen)

end Orchestrator.Compose
