import Orchestrator.Options
import Orchestrator.Compose.Runner
import Orchestrator.Results

/-!
The scans of one accepted argument list agree: the validator, the runner and
`docker compose` read the same occurrence of the same subcommand, and the
command that is run is a fixed beginning with the arguments after it.
-/

namespace Orchestrator.Compose

open Python

variable {files : List (String × String)} {args rest : List String} {sub : String}

theorem fileFlag_value {flag : String} (h : flag ∈ globalFileFlags) : flag ∈ valueFlags := by
  revert flag
  decide

theorem valueFlag_dash {flag : String} (h : flag ∈ valueFlags) : startsWith flag "-" = true := by
  revert flag
  decide

theorem command_not_fileFlag (h : startsWith sub "-" = false) : sub ∉ globalFileFlags := by
  intro hmem
  rw [valueFlag_dash (fileFlag_value hmem)] at h
  cases h

theorem filePairs_cons (file : String × String) (files : List (String × String)) (words : List String) :
    filePairs (file :: files) ++ words = file.1 :: file.2 :: (filePairs files ++ words) := rfl

section

variable (hfiles : ∀ file ∈ files, FileSelection file)

include hfiles

theorem scanGlobal_filePairs (hsub : startsWith sub "-" = false) :
    scanGlobal (filePairs files ++ sub :: rest) = ([], some (sub, rest)) := by
  induction files with
  | nil =>
    have hfile := command_not_fileFlag hsub
    unfold filePairs scanGlobal
    simp [hfile, hsub]
  | cons file files ih =>
    obtain ⟨hflag, hpath⟩ := hfiles file List.mem_cons_self
    rw [filePairs_cons]
    unfold scanGlobal
    rw [if_pos hflag]
    simp only [hpath, Bool.false_eq_true, if_false]
    exact ih fun other hother => hfiles other (List.mem_cons_of_mem _ hother)

theorem subcommandAt_filePairs (hsub : startsWith sub "-" = false) :
    subcommandAt (filePairs files ++ sub :: rest) = some (sub, rest) := by
  induction files with
  | nil =>
    have hvalue : sub ∉ valueFlags := fun hmem => by rw [valueFlag_dash hmem] at hsub; cases hsub
    unfold filePairs subcommandAt
    simp [hvalue, hsub]
  | cons file files ih =>
    obtain ⟨hflag, _⟩ := hfiles file List.mem_cons_self
    rw [filePairs_cons]
    unfold subcommandAt
    rw [if_pos (fileFlag_value hflag)]
    exact ih fun other hother => hfiles other (List.mem_cons_of_mem _ hother)

theorem hasGlobalFileSelection_filePairs
    (hsub : startsWith sub "-" = false) :
    hasGlobalFileSelection (filePairs files ++ sub :: rest) = !files.isEmpty := by
  cases files with
  | nil =>
    have hvalue : sub ∉ valueFlags := fun hmem => by rw [valueFlag_dash hmem] at hsub; cases hsub
    have hfile := command_not_fileFlag hsub
    unfold filePairs hasGlobalFileSelection
    simp [hvalue, hfile, hsub]
  | cons file files =>
    obtain ⟨hflag, _⟩ := hfiles file List.mem_cons_self
    rw [filePairs_cons]
    unfold hasGlobalFileSelection
    rw [if_pos hflag]
    rfl

end

theorem withoutFileFlags_self (h : ∀ arg ∈ rest, arg ∉ globalFileFlags) : withoutFileFlags rest = rest := by
  induction rest with
  | nil => rfl
  | cons arg rest ih =>
    unfold withoutFileFlags
    rw [if_neg (h arg List.mem_cons_self), ih fun other hother => h other (List.mem_cons_of_mem _ hother)]

theorem withoutFileFlags_filePairs (hfiles : ∀ file ∈ files, FileSelection file) (hsub : startsWith sub "-" = false)
    (hrest : ∀ arg ∈ rest, arg ∉ globalFileFlags) :
    withoutFileFlags (filePairs files ++ sub :: rest) = sub :: rest := by
  induction files with
  | nil =>
    refine withoutFileFlags_self ?_
    intro arg harg
    rcases List.mem_cons.mp harg with rfl | harg
    · exact command_not_fileFlag hsub
    · exact hrest arg harg
  | cons file files ih =>
    obtain ⟨hflag, _⟩ := hfiles file List.mem_cons_self
    rw [filePairs_cons]
    unfold withoutFileFlags
    rw [if_pos hflag]
    exact ih fun other hother => hfiles other (List.mem_cons_of_mem _ hother)

theorem takeFileFlags_self (h : ∀ arg ∈ rest, arg ∉ globalFileFlags) : takeFileFlags rest = .ok ([], rest) := by
  induction rest with
  | nil => rfl
  | cons arg rest ih =>
    unfold takeFileFlags
    rw [if_neg (h arg List.mem_cons_self), ih fun other hother => h other (List.mem_cons_of_mem _ hother)]
    rfl

theorem takeFileFlags_filePairs (hfiles : ∀ file ∈ files, FileSelection file) (hsub : startsWith sub "-" = false)
    (hrest : ∀ arg ∈ rest, arg ∉ globalFileFlags) :
    takeFileFlags (filePairs files ++ sub :: rest) = .ok (files, sub :: rest) := by
  induction files with
  | nil =>
    refine takeFileFlags_self ?_
    intro arg harg
    rcases List.mem_cons.mp harg with rfl | harg
    · exact command_not_fileFlag hsub
    · exact hrest arg harg
  | cons file files ih =>
    obtain ⟨hflag, _⟩ := hfiles file List.mem_cons_self
    rw [filePairs_cons]
    unfold takeFileFlags
    rw [if_pos hflag]
    simp only [ih fun other hother => hfiles other (List.mem_cons_of_mem _ hother)]
    rfl

def SafeFlag (sub arg : String) : Prop :=
  arg ∈ safeCommandFlags sub ∨ arg ∈ safeValueCommandFlags sub ∨
    ∃ flag ∈ safeValueCommandFlags sub, startsWith arg (flag ++ "=") = true

theorem scanFlags_clean (h : scanFlags sub rest = []) : ∀ arg ∈ rest, startsWith arg "-" = true → SafeFlag sub arg := by
  induction rest using scanFlags.induct sub with
  | case1 => nofun
  | case2 arg rest hplain ih =>
    unfold scanFlags at h
    rw [if_pos hplain] at h
    intro other hother hdash
    rcases List.mem_cons.mp hother with rfl | hother
    · simp [hdash] at hplain
    · exact ih h other hother hdash
  | case3 arg rest hdashed hsafe ih =>
    unfold scanFlags at h
    rw [if_neg hdashed, if_pos hsafe] at h
    intro other hother hdash
    rcases List.mem_cons.mp hother with rfl | hother
    · exact .inl hsafe
    · exact ih h other hother hdash
  | case4 arg hdashed hsafe hvalue =>
    unfold scanFlags at h
    rw [if_neg hdashed, if_neg hsafe, if_pos hvalue] at h
    cases h
  | case5 arg hdashed hsafe hvalue value after hvdash ih =>
    unfold scanFlags at h
    rw [if_neg hdashed, if_neg hsafe, if_pos hvalue] at h
    simp [hvdash] at h
  | case6 arg hdashed hsafe hvalue value after hvdash ih =>
    unfold scanFlags at h
    rw [if_neg hdashed, if_neg hsafe, if_pos hvalue] at h
    simp only [if_neg hvdash] at h
    intro other hother hdash
    rcases List.mem_cons.mp hother with rfl | hother
    · exact .inr (.inl hvalue)
    rcases List.mem_cons.mp hother with rfl | hother
    · exact absurd hdash hvdash
    · exact ih h other hother hdash
  | case7 arg rest hdashed hsafe hvalue hattached ih =>
    unfold scanFlags at h
    rw [if_neg hdashed, if_neg hsafe, if_neg hvalue, if_pos hattached] at h
    intro other hother hdash
    rcases List.mem_cons.mp hother with rfl | hother
    · exact .inr (.inr (List.any_eq_true.mp hattached))
    · exact ih h other hother hdash
  | case8 arg rest hdashed hsafe hvalue hattached hscope ih =>
    unfold scanFlags at h
    rw [if_neg hdashed, if_neg hsafe, if_neg hvalue, if_neg hattached, if_pos hscope] at h
    cases h
  | case9 arg rest hdashed hsafe hvalue hattached hscope ih =>
    unfold scanFlags at h
    rw [if_neg hdashed, if_neg hsafe, if_neg hvalue, if_neg hattached, if_neg hscope] at h
    cases h

/-- The global options of `docker` and `docker compose` that choose project,
directory, profile, environment file, Compose file or daemon. -/
def scopeFlags : List String :=
  ["--project-name", "-p", "--project-directory", "--profile", "--env-file", "--file", "--host", "-H", "--context", "-c"]

def sets (arg option : String) : Bool :=
  arg == option || startsWith arg (option ++ "=") || (option.length == 2 && startsWith arg option)

theorem startsWith_comparable {text first second : String} (hf : startsWith text first = true)
    (hs : startsWith text second = true) : startsWith first second = true ∨ startsWith second first = true := by
  rcases Nat.le_total first.toList.length second.toList.length with hle | hle
  · exact .inr (startsWith_of_length_le hf hs hle)
  · exact .inl (startsWith_of_length_le hs hf hle)

theorem safeFlag_scope {arg : String} (hsub : sub ∈ allowedCommands) (h : SafeFlag sub arg) :
    ∀ option ∈ scopeFlags, sets arg option = false := by
  have hplain : ∀ sub ∈ allowedCommands, ∀ arg ∈ safeCommandFlags sub ++ safeValueCommandFlags sub,
      ∀ option ∈ scopeFlags, sets arg option = false := by decide +kernel
  have hequal : ∀ sub ∈ allowedCommands, ∀ flag ∈ safeValueCommandFlags sub, ∀ option ∈ scopeFlags,
      startsWith option (flag ++ "=") = false := by decide +kernel
  have hattached : ∀ sub ∈ allowedCommands, ∀ flag ∈ safeValueCommandFlags sub, ∀ option ∈ scopeFlags,
      startsWith (flag ++ "=") (option ++ "=") = false ∧ startsWith (option ++ "=") (flag ++ "=") = false ∧
        (option.length = 2 → startsWith (flag ++ "=") option = false) := by decide +kernel
  intro option hoption
  rcases h with h | h | ⟨flag, hflag, h⟩
  · exact hplain sub hsub arg (List.mem_append_left _ h) option hoption
  · exact hplain sub hsub arg (List.mem_append_right _ h) option hoption
  · obtain ⟨h₁, h₂, h₃⟩ := hattached sub hsub flag hflag option hoption
    have hlong := hequal sub hsub flag hflag option hoption
    by_contra hsets
    rcases Bool.or_eq_true _ _ |>.mp (Bool.eq_true_of_not_eq_false hsets) with hsets | hshort
    · rcases Bool.or_eq_true _ _ |>.mp hsets with heq | hvalue
      · rw [beq_iff_eq.mp heq, hlong] at h
        cases h
      · rcases startsWith_comparable h hvalue with hc | hc
        · rw [h₁] at hc; cases hc
        · rw [h₂] at hc; cases hc
    · obtain ⟨hlength, hshort⟩ := Bool.and_eq_true _ _ |>.mp hshort
      rcases startsWith_comparable h hshort with hc | hc
      · rw [h₃ (beq_iff_eq.mp hlength)] at hc; cases hc
      · rw [hlong] at hc; cases hc

theorem safeFlag_file {arg : String} (hsub : sub ∈ allowedCommands) (h : SafeFlag sub arg)
    (hfile : arg ∈ globalFileFlags) : sub = "logs" := by
  have hplain : ∀ sub ∈ allowedCommands, ∀ arg ∈ safeCommandFlags sub ++ safeValueCommandFlags sub,
      arg ∈ globalFileFlags → sub = "logs" := by decide
  have hattached : ∀ sub ∈ allowedCommands, ∀ flag ∈ safeValueCommandFlags sub, ∀ file ∈ globalFileFlags,
      startsWith file (flag ++ "=") = false := by decide
  rcases h with h | h | ⟨flag, hflag, h⟩
  · exact hplain sub hsub arg (List.mem_append_left _ h) hfile
  · exact hplain sub hsub arg (List.mem_append_right _ h) hfile
  · rw [hattached sub hsub flag hflag arg hfile] at h
    cases h

structure Accepted (args : List String) (files : List (String × String)) (sub : String) (rest : List String) : Prop where
  arguments : args = filePairs files ++ sub :: rest
  selections : ∀ file ∈ files, FileSelection file
  command : startsWith sub "-" = false
  allowed : sub ∈ allowedCommands
  flags : ∀ arg ∈ rest, startsWith arg "-" = true → SafeFlag sub arg

theorem validateCommand_accepted (h : (validateCommand args).valid = true) :
    ∃ files sub rest, Accepted args files sub rest := by
  obtain ⟨files, sub, rest, hargs, hfiles, hdash, _, hallowed, hflags⟩ := validateCommand_valid h
  exact ⟨files, sub, rest, hargs, hfiles, hdash, hallowed, scanFlags_clean hflags⟩

namespace Accepted

section

variable (h : Accepted args files sub rest)

include h

theorem scanned : scanGlobal args = ([], some (sub, rest)) := by
  rw [h.arguments]
  exact scanGlobal_filePairs h.selections h.command

theorem found : subcommandAt args = some (sub, rest) := by
  rw [h.arguments]
  exact subcommandAt_filePairs h.selections h.command

theorem subcommand_eq : subcommand args = some sub := by
  unfold subcommand
  rw [h.found]
  rfl

theorem createsContainers_iff :
    createsContainers args = true ↔ sub ∈ containerCreatingCommands := by
  unfold createsContainers
  rw [h.subcommand_eq]
  exact List.contains_iff_mem

theorem scope {arg : String} (harg : arg ∈ rest) :
    ∀ option ∈ scopeFlags, sets arg option = false := by
  by_cases hdash : startsWith arg "-" = true
  · exact safeFlag_scope h.allowed (h.flags arg harg hdash)
  · have hdashed : ∀ option ∈ scopeFlags, startsWith option "-" = true ∧ startsWith (option ++ "=") "-" = true := by decide
    intro option hoption
    obtain ⟨hword, hvalue⟩ := hdashed option hoption
    by_contra hsets
    rcases Bool.or_eq_true _ _ |>.mp (Bool.eq_true_of_not_eq_false hsets) with hsets | hshort
    · rcases Bool.or_eq_true _ _ |>.mp hsets with heq | hattached
      · rw [beq_iff_eq.mp heq] at hdash
        exact hdash hword
      · exact hdash (startsWith_trans hattached hvalue)
    · exact hdash (startsWith_trans (Bool.and_eq_true _ _ |>.mp hshort).2 hword)

theorem follow {arg : String} (harg : arg ∈ rest) (hfile : arg ∈ globalFileFlags) :
    sub = "logs" :=
  safeFlag_file h.allowed (h.flags arg harg (valueFlag_dash (fileFlag_value hfile))) hfile

theorem no_fileFlag (hcreates : sub ∈ containerCreatingCommands) :
    ∀ arg ∈ rest, arg ∉ globalFileFlags := by
  intro arg harg hfile
  rw [h.follow harg hfile] at hcreates
  revert hcreates
  decide

theorem taken (hcreates : sub ∈ containerCreatingCommands) :
    takeFileFlags args = .ok (files, sub :: rest) := by
  rw [h.arguments]
  exact takeFileFlags_filePairs h.selections h.command (h.no_fileFlag hcreates)

theorem withoutFiles (hcreates : sub ∈ containerCreatingCommands) :
    withoutFileFlags args = sub :: rest := by
  rw [h.arguments]
  exact withoutFileFlags_filePairs h.selections h.command (h.no_fileFlag hcreates)

theorem no_selection (hselection : hasGlobalFileSelection args = false) :
    files = [] := by
  rw [h.arguments, hasGlobalFileSelection_filePairs h.selections h.command] at hselection
  simpa using hselection

end

end Accepted

variable {host : Host} {workerId cwd : String} {env : List (String × String)} {workspaceDir : Option String}
  {invocation : ComposeInvocation}

theorem requireValid_ok (h : requireValid args = .ok ()) : (validateCommand args).valid = true := by
  unfold requireValid at h
  by_contra hvalid
  rw [if_neg hvalid] at h
  cases h

theorem prepareInvocation_ok (h : prepareInvocation host workerId args cwd env workspaceDir = .ok invocation) :
    (validateCommand args).valid = true ∧ invocation.projectName = projectNameOf workerId ∧
      invocation.snapshotPath = some ((planDirectory host workerId).join (.ofText "compose.resolved.yml")) ∧
      ∃ files left, takeFileFlags args = .ok (files, left) ∧ invocation.sourceFiles = sourceFilesOf files := by
  unfold prepareInvocation at h
  obtain ⟨_, hvalid, h⟩ := bind_ok h
  obtain ⟨_, _, h⟩ := bind_ok h
  obtain ⟨_, _, h⟩ := bind_ok h
  obtain ⟨_, _, h⟩ := bind_ok h
  obtain ⟨⟨files, left⟩, htaken, h⟩ := bind_ok h
  obtain ⟨_, _, h⟩ := bind_ok h
  obtain ⟨_, _, h⟩ := bind_ok h
  obtain ⟨_, _, h⟩ := bind_ok h
  have htake : takeFileFlags args = .ok (files, left) := by
    cases ht : takeFileFlags args with
    | error e => rw [ht] at htaken; cases htaken
    | ok taken =>
      rw [ht] at htaken
      cases htaken
      rfl
  cases h
  exact ⟨requireValid_ok hvalid, rfl, rfl, files, left, htake, rfl⟩

theorem prepareRecoveryInvocation_ok (h : prepareRecoveryInvocation host workerId args workspaceDir = .ok invocation) :
    (validateCommand args).valid = true ∧ hasGlobalFileSelection args = false ∧
      invocation.command = [host.docker, "compose"] ++
        scopeArgs (projectNameOf workerId) (planDirectory host workerId).text ++ args := by
  unfold prepareRecoveryInvocation at h
  obtain ⟨_, hvalid, h⟩ := bind_ok h
  obtain ⟨_, hselection, h⟩ := bind_ok h
  obtain ⟨_, _, h⟩ := bind_ok h
  obtain ⟨_, _, h⟩ := bind_ok h
  refine ⟨requireValid_ok hvalid, ?_, ?_⟩
  · unfold requireNoSelection at hselection
    by_contra hfiles
    rw [if_pos (Bool.eq_true_of_not_eq_false hfiles)] at hselection
    cases hselection
  · cases h
    rfl

theorem parent_join_file (path : PurePath) (name : String) (h : PurePath.ofText name = ⟨"", [name]⟩) :
    (path.join (.ofText name)).parent = path := by
  rw [h]
  simp [PurePath.join, PurePath.parent, PurePath.isAbsolute]

def snapshotOf (host : Host) (workerId : String) : PurePath :=
  (planDirectory host workerId).join (.ofText "compose.resolved.yml")

theorem writeSnapshot_ok {prepared : ComposeInvocation} {data : Mapping} {commandArgs : List String}
    (h : writeSnapshot host prepared data commandArgs = .ok invocation)
    (hpath : prepared.snapshotPath = some (snapshotOf host workerId)) :
    invocation.command = [host.docker, "compose"] ++ scopeArgs prepared.projectName prepared.projectDirectory.text ++
        ["-f", (snapshotOf host workerId).text] ++ commandArgs ∧
      invocation.sourceFiles = prepared.sourceFiles := by
  unfold writeSnapshot at h
  obtain ⟨_, _, h⟩ := bind_ok h
  obtain ⟨_, _, h⟩ := bind_ok h
  obtain ⟨_, _, h⟩ := bind_ok h
  obtain ⟨directory, hdirectory, h⟩ := bind_ok h
  have hplan : directory = planDirectory host workerId := by
    unfold requirePlanDirectory at hdirectory
    rw [hpath] at hdirectory
    cases hdirectory
    exact parent_join_file _ _ rfl
  rw [hplan] at h
  cases h
  exact ⟨rfl, rfl⟩

/-- The global options of the command that is run: the worker's project, a
directory, and the plan where the command creates containers. -/
def runOptions (host : Host) (workerId sub directory : String) : List (String × String) :=
  [("--project-name", projectNameOf workerId), ("--project-directory", directory)] ++
    if sub ∈ containerCreatingCommands then [("-f", (snapshotOf host workerId).text)] else []

/-- Validator, runner and `docker compose`, which reads its options by `table`,
agree on the command line. A word is told from its equals by what follows it. -/
structure ReadAlike (host : Host) (table : OptionTable) (workerId : String) (args : List String)
    (invocation : ComposeInvocation) (files : List (String × String)) (sub : String) (rest : List String)
    (directory : String) : Prop where
  arguments : args = filePairs files ++ sub :: rest
  selections : ∀ file ∈ files, FileSelection file
  validator : scanGlobal args = ([], some (sub, rest))
  runner : subcommandAt args = some (sub, rest)
  command : invocation.command =
    [host.docker, "compose"] ++ OptionTable.words (runOptions host workerId sub directory) ++ sub :: rest
  compose : table.read (invocation.command.drop 2) =
    some ⟨(runOptions host workerId sub directory).map fun o => (o.1, some o.2), sub, rest⟩
  recovery : sub ∉ containerCreatingCommands → files = []
  sources : sub ∈ containerCreatingCommands → invocation.sourceFiles = sourceFilesOf files
  scope : ∀ arg ∈ rest, ∀ option ∈ scopeFlags, sets arg option = false
  follow : ∀ arg ∈ rest, arg ∈ globalFileFlags → sub = "logs"

theorem Accepted.readAlike {table : OptionTable} {directory : String} (h : Accepted args files sub rest)
    (hname : table.takesValue "--project-name" = true) (hdirectory : table.takesValue "--project-directory" = true)
    (hfile : table.takesValue "-f" = true)
    (hcommand : invocation.command =
      [host.docker, "compose"] ++ OptionTable.words (runOptions host workerId sub directory) ++ sub :: rest)
    (hrecovery : sub ∉ containerCreatingCommands → files = [])
    (hsources : sub ∈ containerCreatingCommands → invocation.sourceFiles = sourceFilesOf files) :
    ReadAlike host table workerId args invocation files sub rest directory where
  arguments := h.arguments
  selections := h.selections
  validator := h.scanned
  runner := h.found
  command := hcommand
  compose := by
    rw [hcommand]
    refine OptionTable.read_words ?_ h.command rest
    intro o ho
    unfold runOptions at ho
    split at ho
    · simp only [List.cons_append, List.nil_append, List.mem_cons, List.not_mem_nil, or_false] at ho
      rcases ho with rfl | rfl | rfl
      · exact hname
      · exact hdirectory
      · exact hfile
    · simp only [List.append_nil, List.mem_cons, List.not_mem_nil, or_false] at ho
      rcases ho with rfl | rfl
      · exact hname
      · exact hdirectory
  recovery := hrecovery
  sources := hsources
  scope := fun _ harg => h.scope harg
  follow := fun _ harg => h.follow harg

theorem inspect_readAlike {table : OptionTable} {data : Mapping} (hname : table.takesValue "--project-name" = true)
    (hdirectory : table.takesValue "--project-directory" = true) (hfile : table.takesValue "-f" = true)
    (hcreates : createsContainers args = true)
    (h : inspect host workerId args cwd env workspaceDir = .ok (data, invocation)) :
    ∃ files sub rest directory, ReadAlike host table workerId args invocation files sub rest directory := by
  unfold inspect at h
  obtain ⟨prepared, hprepared, h⟩ := bind_ok h
  obtain ⟨resolved, _, h⟩ := bind_ok h
  rw [if_pos hcreates] at h
  obtain ⟨plan, _, h⟩ := bind_ok h
  obtain ⟨written, hwritten, h⟩ := bind_ok h
  cases h
  obtain ⟨hvalid, hproject, hpath, files, left, htaken, hsources⟩ := prepareInvocation_ok hprepared
  obtain ⟨files', sub, rest, haccepted⟩ := validateCommand_accepted hvalid
  have hsub : sub ∈ containerCreatingCommands := haccepted.createsContainers_iff.mp hcreates
  have hsame : files' = files := by
    have heq := (haccepted.taken hsub).symm.trans htaken
    cases heq
    rfl
  obtain ⟨hcommand, hfiles⟩ := writeSnapshot_ok hwritten hpath
  refine ⟨files', sub, rest, prepared.projectDirectory.text, haccepted.readAlike hname hdirectory hfile ?_ ?_ ?_⟩
  · rw [hcommand, haccepted.withoutFiles hsub, hproject]
    simp [runOptions, hsub, scopeArgs, OptionTable.words]
  · exact fun hnot => absurd hsub hnot
  · intro _
    rw [hfiles, hsources, hsame]

/-- Whatever `run` executes, once it comes to that, is read alike by everybody
who reads it. -/
theorem run_readAlike {table : OptionTable} {prepared : Option ComposeInvocation}
    (hname : table.takesValue "--project-name" = true) (hdirectory : table.takesValue "--project-directory" = true)
    (hfile : table.takesValue "-f" = true)
    (hprepared : ∀ inspected, prepared = some inspected →
      ∃ data, inspect host workerId args cwd env workspaceDir = .ok (data, inspected))
    (h : run host workerId args cwd env workspaceDir prepared = .ok invocation) :
    ∃ files sub rest directory, ReadAlike host table workerId args invocation files sub rest directory := by
  unfold run at h
  by_cases hcreates : createsContainers args = true
  · rw [if_pos hcreates] at h
    cases hp : prepared with
    | some inspected =>
      rw [hp] at h
      cases h
      obtain ⟨data, hdata⟩ := hprepared _ hp
      exact inspect_readAlike hname hdirectory hfile hcreates hdata
    | none =>
      rw [hp] at h
      cases hi : inspect host workerId args cwd env workspaceDir with
      | error e => rw [hi] at h; cases h
      | ok result =>
        obtain ⟨data, inspected⟩ := result
        rw [hi] at h
        cases h
        exact inspect_readAlike hname hdirectory hfile hcreates hi
  · rw [if_neg hcreates] at h
    obtain ⟨hvalid, hselection, hcommand⟩ := prepareRecoveryInvocation_ok h
    obtain ⟨files, sub, rest, haccepted⟩ := validateCommand_accepted hvalid
    have hsub : sub ∉ containerCreatingCommands := fun hmem => hcreates (haccepted.createsContainers_iff.mpr hmem)
    have hnone := haccepted.no_selection hselection
    refine ⟨files, sub, rest, (planDirectory host workerId).text,
      haccepted.readAlike hname hdirectory hfile ?_ (fun _ => hnone) fun hmem => absurd hmem hsub⟩
    rw [hcommand, haccepted.arguments, hnone]
    simp [runOptions, hsub, scopeArgs, OptionTable.words, filePairs]

def composeValueOptions : List String :=
  ["--ansi", "--env-file", "-f", "--file", "--parallel", "--profile", "--progress", "--project-directory", "-p",
    "--project-name", "--workdir"]

def composeOptions : OptionTable where
  takesValue word := composeValueOptions.contains word
  switch word := ["--all-resources", "--compatibility", "--dry-run", "--verbose", "--version", "-v", "--help",
    "-h"].contains word
  attached word := (composeValueOptions.find? fun option => startsWith word (option ++ "=")).map fun option =>
    (option, String.ofList (word.toList.drop (option.length + 1)))
  valueDashed := by
    intro word h
    have hall : ∀ option ∈ composeValueOptions, startsWith option "-" = true := by decide
    exact hall word (List.contains_iff_mem.mp h)
  switchDashed := by
    intro word h
    have hall : ∀ option ∈ ["--all-resources", "--compatibility", "--dry-run", "--verbose", "--version", "-v", "--help",
      "-h"], startsWith option "-" = true := by decide
    exact hall word (List.contains_iff_mem.mp h)
  attachedDashed := by
    intro word h
    have hall : ∀ option ∈ composeValueOptions, startsWith (option ++ "=") "-" = true := by decide
    rw [Option.isSome_map, List.find?_isSome] at h
    obtain ⟨option, hoption, hword⟩ := h
    exact startsWith_trans hword (hall option hoption)

def exampleHost : Host where
  sha256 := id
  render _ := "None"
  resolve := .ok
  docker := "/usr/bin/docker"
  workspaceBasePath := .ofText "/data"
  isDir _ := true
  isFile _ := true
  pathExists _ := false
  validateSourceTree _ _ _ := .ok ()
  config _ := .ok (0, "resolved", "")
  safeLoad _ := .ok (.mapping [
    ("networks", .mapping [("default", .mapping [("name", .text "dev_proj_w1"), ("external", .bool true)])]),
    ("services", .mapping [("db", .mapping [("image", .text "postgres"), ("networks", .mapping [("default", .none)])])])])
  environ _ := none

def exampleUp : ComposeInvocation where
  command := ["/usr/bin/docker", "compose", "--project-name", "worker_w1", "--project-directory", "/data/w1/workspace",
    "-f", "/data/.compose-plans/w1/compose.resolved.yml", "up", "-d", "db"]
  configCommand := ["/usr/bin/docker", "compose", "--project-name", "worker_w1", "--project-directory",
    "/data/w1/workspace", "-f", "compose.yml", "-f", "/data/.compose-plans/w1/.codegen-network.yml", "config",
    "--format", "json"]
  cwd := .ofText "/data/w1/workspace"
  env := [("HOST_UID", "1000"), ("HOST_GID", "1000")]
  sourceFiles := ["compose.yml"]
  workspacePath := .ofText "/data/w1/workspace"
  projectDirectory := .ofText "/data/w1/workspace"
  projectName := "worker_w1"
  snapshotPath := some (.ofText "/data/.compose-plans/w1/compose.resolved.yml")
  workerId := "w1"

theorem run_readAlike_up : ∃ files sub rest directory,
    ReadAlike exampleHost composeOptions "w1" ["-f", "compose.yml", "up", "-d", "db"] exampleUp files sub rest directory :=
  have h : run exampleHost "w1" ["-f", "compose.yml", "up", "-d", "db"] "." [] none none = .ok exampleUp := by
    decide +kernel
  run_readAlike rfl rfl rfl (fun _ h => by cases h) h

end Orchestrator.Compose
