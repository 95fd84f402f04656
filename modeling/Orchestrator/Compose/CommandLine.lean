import Orchestrator.Python.Text

/-!
The Compose commands a worker may ask for, and the scans of their arguments:
the validator's, and those of the runner that executes what the validator let
through.
-/

namespace Orchestrator.Compose

open Python

def allowedCommands : List String := ["up", "down", "build", "run", "ps", "logs", "stop"]

def containerCreatingCommands : List String := ["up", "build", "run"]

def valueFlags : List String :=
  ["-f", "--file", "--project-directory", "--project-name", "--env-file", "-p", "--profile"]

def scopeOverrideFlags : List String := ["--project-directory", "--project-name", "--env-file", "-p", "--network"]

def globalFileFlags : List String := ["-f", "--file"]

def safeCommandFlags : String → List String
  | "up" => ["-d", "--detach", "--wait", "--build", "--no-build"]
  | "build" => ["--no-cache", "--pull"]
  | "down" => ["-v", "--volumes", "--remove-orphans"]
  | "ps" => ["-a", "--all", "--quiet", "-q"]
  | "logs" => ["-f", "--follow", "--no-color", "--timestamps"]
  | _ => []

def safeValueCommandFlags : String → List String
  | "up" => ["--wait-timeout"]
  | "logs" => ["--tail", "--since", "--until"]
  | _ => []

def flagIsSet (arg flag : String) : Bool :=
  arg == flag || startsWith arg (flag ++ "=") || (flag == "-p" && startsWith arg "-p" && arg != "-p")

def allowedCommandsText : String := "['build', 'down', 'logs', 'ps', 'run', 'stop', 'up']"

def globalFlagError (arg : String) : String :=
  if scopeOverrideFlags.any (flagIsSet arg) then s!"Flag '{arg}' cannot override the worker Compose scope"
  else if startsWith arg "--file=" || (startsWith arg "-f" && arg != "-f") then
    s!"Flag '{arg}' must use a separate Compose file path"
  else s!"Global flag '{arg}' is not allowed"

/-- The scan up to the subcommand: the errors met, and the subcommand with the
arguments after it. A file flag without its path ends the scan. -/
def scanGlobal : List String → List String × Option (String × List String)
  | [] => ([], none)
  | arg :: rest =>
    if arg ∈ globalFileFlags then
      match rest with
      | [] => (["Compose file flag requires a separate path"], none)
      | value :: after =>
        if startsWith value "-" then (["Compose file flag requires a separate path"], none) else scanGlobal after
    else if startsWith arg "-" then
      let (errors, found) := scanGlobal rest
      (globalFlagError arg :: errors, found)
    else ([], some (arg, rest))

def scanFlags (subcommand : String) : List String → List String
  | [] => []
  | arg :: rest =>
    if !startsWith arg "-" then scanFlags subcommand rest
    else if arg ∈ safeCommandFlags subcommand then scanFlags subcommand rest
    else if arg ∈ safeValueCommandFlags subcommand then
      match rest with
      | [] => [s!"Flag '{arg}' requires a value"]
      | value :: after =>
        if startsWith value "-" then s!"Flag '{arg}' requires a value" :: scanFlags subcommand after
        else scanFlags subcommand after
    else if (safeValueCommandFlags subcommand).any fun flag => startsWith arg (flag ++ "=") then
      scanFlags subcommand rest
    else if scopeOverrideFlags.any (flagIsSet arg) then
      s!"Flag '{arg}' cannot override the worker Compose scope" :: scanFlags subcommand rest
    else s!"Flag '{arg}' is not allowed for '{subcommand}'" :: scanFlags subcommand rest

structure ValidationResult where
  valid : Bool
  errors : List String
  deriving DecidableEq, Repr

def validateCommand (args : List String) : ValidationResult :=
  match scanGlobal args with
  | (errors, none) => ⟨false, errors ++ ["No subcommand found in args"]⟩
  | (errors, some (subcommand, rest)) =>
    if subcommand ∉ allowedCommands then
      ⟨false, errors ++ [s!"Command '{subcommand}' is not allowed. Allowed: {allowedCommandsText}"]⟩
    else
      let errors := errors ++ scanFlags subcommand rest
      ⟨errors.isEmpty, errors⟩

def subcommandAt : List String → Option (String × List String)
  | [] => none
  | arg :: rest =>
    if arg ∈ valueFlags then
      match rest with
      | [] => none
      | _ :: after => subcommandAt after
    else if startsWith arg "-" then subcommandAt rest
    else some (arg, rest)

def subcommand (args : List String) : Option String := (subcommandAt args).map Prod.fst

def withoutFileFlags : List String → List String
  | [] => []
  | arg :: rest =>
    if arg ∈ globalFileFlags then
      match rest with
      | [] => []
      | _ :: after => withoutFileFlags after
    else arg :: withoutFileFlags rest

def hasGlobalFileSelection : List String → Bool
  | [] => false
  | arg :: rest =>
    if arg ∈ globalFileFlags then true
    else if arg ∈ valueFlags then
      match rest with
      | [] => false
      | _ :: after => hasGlobalFileSelection after
    else if startsWith arg "-" then hasGlobalFileSelection rest
    else false

/-- The loop of `_prepare_invocation` that takes the file flags with their paths
out of the arguments: the pairs it took, and what it left. -/
def takeFileFlags : List String → Except String (List (String × String) × List String)
  | [] => .ok ([], [])
  | arg :: rest =>
    if arg ∈ globalFileFlags then
      match rest with
      | [] => .error "Compose file flag requires a path"
      | path :: after => do
        let (files, left) ← takeFileFlags after
        return ((arg, path) :: files, left)
    else do
      let (files, left) ← takeFileFlags rest
      return (files, arg :: left)

def filePairs (files : List (String × String)) : List String := files.flatMap fun file => [file.1, file.2]

def FileSelection (file : String × String) : Prop :=
  file.1 ∈ globalFileFlags ∧ startsWith file.2 "-" = false

theorem scanGlobal_ok {args rest : List String} {sub : String} (h : scanGlobal args = ([], some (sub, rest))) :
    ∃ files, args = filePairs files ++ sub :: rest ∧ (∀ file ∈ files, FileSelection file) ∧
      startsWith sub "-" = false ∧ sub ∉ globalFileFlags := by
  induction args using scanGlobal.induct with
  | case1 => simp [scanGlobal] at h
  | case2 arg harg => simp [scanGlobal, harg] at h
  | case3 arg harg value after hvalue => simp [scanGlobal, harg, hvalue] at h
  | case4 arg harg value after hvalue ih =>
    simp only [scanGlobal, harg, if_true, hvalue, Bool.false_eq_true, if_false] at h
    obtain ⟨files, rfl, hfiles, hsub⟩ := ih h
    refine ⟨(arg, value) :: files, rfl, ?_, hsub⟩
    intro file hmem
    rcases List.mem_cons.mp hmem with rfl | hmem
    · exact ⟨harg, by simpa using hvalue⟩
    · exact hfiles file hmem
  | case5 arg rest harg hdash errors found heq ih =>
    unfold scanGlobal at h
    simp [harg, hdash] at h
  | case6 arg rest harg hdash =>
    unfold scanGlobal at h
    simp only [if_neg harg, if_neg hdash, Prod.mk.injEq, Option.some.injEq, true_and] at h
    obtain ⟨rfl, rfl⟩ := h
    exact ⟨[], rfl, nofun, by simpa using hdash, harg⟩

theorem validateCommand_valid {args : List String} (h : (validateCommand args).valid = true) :
    ∃ files sub rest, args = filePairs files ++ sub :: rest ∧ (∀ file ∈ files, FileSelection file) ∧
      startsWith sub "-" = false ∧ sub ∉ globalFileFlags ∧ sub ∈ allowedCommands ∧ scanFlags sub rest = [] := by
  unfold validateCommand at h
  split at h
  · cases h
  · rename_i errors sub rest hscan
    split at h
    · cases h
    · rename_i hallowed
      have hempty : errors ++ scanFlags sub rest = [] := List.isEmpty_iff.mp h
      obtain ⟨rfl, hflags⟩ := List.append_eq_nil_iff.mp hempty
      obtain ⟨files, hargs, hfiles, hdash, hfile⟩ := scanGlobal_ok hscan
      refine ⟨files, sub, rest, hargs, hfiles, hdash, hfile, ?_, hflags⟩
      simpa using hallowed

end Orchestrator.Compose
