import Orchestrator.Compose.Policy

/-!
What a project the policy accepts can reach: the worker's own network, paths
inside its workspace, volumes of its own, and the resources of one worker.
-/

namespace Orchestrator.Compose

open Python Findings

/-- The path resolves to a place in the resolved workspace. A socket of the
daemon, which stands outside every workspace, is no such place. -/
def Inside (m : Machine) (workspace path : PurePath) : Prop :=
  ∃ resolved base, m.resolve path = .ok resolved ∧ m.resolve workspace = .ok base ∧ resolved.Under base

variable (m : Machine) (workspace : PurePath) (workerId : String)

def SourceInside (source : Value) : Prop :=
  source.truthy = true → ∃ path, source = .text path ∧ Inside m workspace (.ofText path)

structure VolumeSandboxed (volume : Value) : Prop where
  source : isSocketPath (volumeParts m volume).1 = false
  target : isSocketPath (volumeParts m volume).2.1 = false
  bind : (volumeParts m volume).2.2 = "bind" →
    startsWith (volumeParts m volume).1 "/" = true ∧ Inside m workspace (.ofText (volumeParts m volume).1)

structure BuildSandboxed (build : Mapping) : Prop where
  keys : ∀ key ∈ build.map Prod.fst, key ∈ permittedBuildKeys
  context : SourceInside m workspace (valueAt build "context")
  dockerfile : (valueAt build "dockerfile").truthy = true → ∃ file, valueAt build "dockerfile" = .text file ∧
    (Inside m workspace (.ofText file) ∧ (PurePath.ofText file).isAbsolute = true ∨
      ∃ context, valueAt build "context" = .text context ∧
        Inside m workspace ((PurePath.ofText context).join (.ofText file)))

def BuildOf (service build : Mapping) : Prop :=
  valueAt service "build" = .mapping build ∨
    ∃ context, valueAt service "build" = .text context ∧ build = [("context", .text context)]

structure ServiceSandboxed (name : String) (service : Mapping) : Prop where
  networks : ∃ names, networkNames (valueAt service "networks") = .ok names ∧ onlyDefault names = true
  namespaces : ∀ field ∈ namespaceFields, (valueAt service field).isNone = true
  unprivileged : (valueAt service "privileged").truthy = false
  capabilities : ∀ field ∈ capabilityFields ++ unsupportedFields, (valueAt service field).truthy = false
  volumes : ∃ volumes, (service.lookup "volumes").getD (.list []) = .list volumes ∧
    ∀ volume ∈ volumes, VolumeSandboxed m workspace volume
  built : (valueAt service "build").isNone = false → ∃ build, BuildOf service build
  build : ∀ build, BuildOf service build → BuildSandboxed m workspace build
  image : (valueAt service "build").isNone = false → valueAt service "image" = .text (buildImage m workerId name)
  unnamed : hasKey service "container_name" = false
  ports : valueAt service "ports" = .list []
  cpu : ∃ limits q, resourceLimits service = some (.mapping limits) ∧ cpuLimit (valueAt limits "cpus") = .ok (.finite q) ∧
    0 < q ∧ q ≤ maxCpuLimit
  memory : ∃ limits bytes, resourceLimits service = some (.mapping limits) ∧
    memoryBytes (valueAt limits "memory") = .ok (some bytes) ∧ 0 < bytes ∧ bytes ≤ maxMemoryLimitBytes

/-- A volume the project declares: nothing said of it, or a local one of the
project's own with the name Compose derives. -/
def NamedVolumeSandboxed (volume : Value) : Prop :=
  volume.isNone = true ∨ ∃ entries, volume = .mapping entries ∧ (valueAt entries "external").truthy = false ∧
    (entries.lookup "driver").getD (.text "local") = .text "local" ∧ (valueAt entries "driver_opts").truthy = false ∧
    hasKey entries "name" = false

def DefinitionSandboxed (definition : Value) : Prop :=
  ∃ entries, definition = .mapping entries ∧ (valueAt entries "external").truthy = false ∧
    SourceInside m workspace (valueAt entries "file")

structure Sandboxed (plan : Mapping) : Prop where
  network : ∃ networks network, valueAt plan "networks" = .mapping networks ∧ (∀ entry ∈ networks, entry.1 = "default") ∧
    valueAt networks "default" = .mapping network ∧ valueAt network "name" = .text (networkName workerId) ∧
    (valueAt network "external").truthy = true
  services : ∃ services, valueAt plan "services" = .mapping services ∧
    ∀ entry ∈ services, ∃ service, entry.2 = .mapping service ∧ ServiceSandboxed m workspace workerId entry.1 service
  volumes : (valueAt plan "volumes").isNone = true ∨ ∃ volumes, valueAt plan "volumes" = .mapping volumes ∧
    ∀ entry ∈ volumes, NamedVolumeSandboxed entry.2
  files : ∀ kind ∈ ["secrets", "configs"], (valueAt plan kind).isNone = true ∨
    ∃ definitions, valueAt plan kind = .mapping definitions ∧ ∀ entry ∈ definitions, DefinitionSandboxed m workspace entry.2

def LimitsMemory (data : Mapping) : Prop :=
  ∀ services, valueAt data "services" = .mapping services → ∀ name service, (name, Value.mapping service) ∈ services →
    ∀ limits, resourceLimits service = some (.mapping limits) → memoryBytes (valueAt limits "memory") ≠ .ok (some 0)

variable {m workspace workerId} {name : String} {service build : Mapping} {path : PurePath} {value volume : Value}

theorem isText_iff {text : String} : isText value text = true ↔ value = .text text := by
  cases value <;> simp [isText]

theorem not_map_ok {x : Except Raised Bool} : not <$> x = .ok false ↔ x = .ok true := by
  cases x with
  | error e => simp [Functor.map, Except.map]
  | ok b => cases b <;> simp [Functor.map, Except.map]

theorem map_ok {A B : Type} {f : A → B} {x : Except Raised A} {b : B} : f <$> x = .ok b ↔ ∃ a, x = .ok a ∧ f a = b := by
  cases x <;> simp [Functor.map, Except.map]

theorem isWithinWorkspace_inside (h : isWithinWorkspace m path workspace = .ok true) : Inside m workspace path := by
  unfold isWithinWorkspace at h
  cases hp : m.resolve path with
  | error e =>
    rw [hp] at h
    cases e <;> simp [bind, Except.bind] at h
  | ok resolved =>
    cases hw : m.resolve workspace with
    | error e =>
      rw [hp, hw] at h
      cases e <;> simp [bind, Except.bind] at h
    | ok base =>
      refine ⟨resolved, base, hp, hw, ?_⟩
      by_contra hunder
      rw [hp, hw] at h
      simp [bind, Except.bind, PurePath.relativeTo, hunder] at h

theorem validateSource_clean {error : String} (h : (validateSource m (some workspace) value error).Clean) :
    SourceInside m workspace value := by
  intro htruthy
  unfold validateSource at h
  rw [htruthy] at h
  cases value with
  | text path => exact ⟨path, rfl, isWithinWorkspace_inside (not_map_ok.mp (clean_refuse.mp h))⟩
  | none => cases htruthy
  | _ => exact absurd h not_clean_error

theorem validateVolume_clean (h : (validateVolume m name (some workspace) volume).Clean) :
    VolumeSandboxed m workspace volume := by
  unfold validateVolume validateMount at h
  have hchecks := clean_all.mp h
  have hsocket := clean_report.mp (hchecks _ List.mem_cons_self)
  have hbind := hchecks _ (List.mem_cons_of_mem _ List.mem_cons_self)
  rw [Bool.or_eq_false_iff] at hsocket
  refine ⟨hsocket.1, hsocket.2, fun hkind => ?_⟩
  rw [hkind] at hbind
  simp only [bne_self_eq_false, Bool.false_eq_true, if_false] at hbind
  by_cases hslash : startsWith (volumeParts m volume).1 "/" = true
  · rw [hslash] at hbind
    exact ⟨hslash, isWithinWorkspace_inside (not_map_ok.mp (clean_refuse.mp hbind))⟩
  · rw [if_pos (by simpa using hslash)] at hbind
    exact absurd hbind not_clean_error

theorem validateVolumes_clean (h : (validateVolumes m name service (some workspace)).Clean) :
    ∃ volumes, (service.lookup "volumes").getD (.list []) = .list volumes ∧
      ∀ volume ∈ volumes, VolumeSandboxed m workspace volume := by
  unfold validateVolumes at h
  split at h
  · rename_i volumes heq
    refine ⟨volumes, heq, fun volume hvolume => ?_⟩
    exact validateVolume_clean (clean_all.mp h _ (List.mem_map_of_mem hvolume))
  · exact absurd h not_clean_error

theorem unsupportedBuildKeys_nil (h : unsupportedBuildKeys build = []) : ∀ key ∈ build.map Prod.fst, key ∈ permittedBuildKeys := by
  intro key hkey
  by_contra hnot
  have hmem : key ∈ unsupportedBuildKeys build := by
    unfold unsupportedBuildKeys
    rw [List.mem_mergeSort, List.mem_filter, List.mem_dedup]
    exact ⟨hkey, by simpa using hnot⟩
  rw [h] at hmem
  cases hmem

theorem validateDockerfile_clean {context dockerfile : Value}
    (h : (validateDockerfile m name context dockerfile (some workspace)).Clean) (htruthy : dockerfile.truthy = true) :
    ∃ file, dockerfile = .text file ∧ (Inside m workspace (.ofText file) ∧ (PurePath.ofText file).isAbsolute = true ∨
      ∃ text, context = .text text ∧ Inside m workspace ((PurePath.ofText text).join (.ofText file))) := by
  unfold validateDockerfile at h
  simp only [htruthy, Bool.not_true, Bool.false_eq_true, if_false] at h
  cases dockerfile with
  | text file =>
    refine ⟨file, rfl, ?_⟩
    dsimp only at h
    by_cases habsolute : (PurePath.ofText file).isAbsolute = true
    · rw [if_pos habsolute] at h
      exact .inl ⟨isWithinWorkspace_inside (not_map_ok.mp (clean_refuse.mp h)), habsolute⟩
    · rw [if_neg habsolute] at h
      cases context with
      | text text => exact .inr ⟨text, rfl, isWithinWorkspace_inside (not_map_ok.mp (clean_refuse.mp h))⟩
      | _ => exact absurd h not_clean_error
  | none => cases htruthy
  | _ => exact absurd h not_clean_error

theorem validateBuildMapping_clean (h : (validateBuildMapping m name build (some workspace)).Clean) :
    BuildSandboxed m workspace build := by
  unfold validateBuildMapping at h
  have hchecks := clean_all.mp h
  have hkeys := hchecks _ List.mem_cons_self
  have hcontext := hchecks _ (List.mem_cons_of_mem _ List.mem_cons_self)
  have hdockerfile := hchecks _ (List.mem_cons_of_mem _ (List.mem_cons_of_mem _ List.mem_cons_self))
  refine ⟨unsupportedBuildKeys_nil ?_, validateSource_clean hcontext, validateDockerfile_clean hdockerfile⟩
  exact List.map_eq_nil_iff.mp (Except.ok.inj hkeys)

theorem validateBuild_clean (h : (validateBuild m name service (some workspace)).Clean) :
    ((valueAt service "build").isNone = false → ∃ build, BuildOf service build) ∧
      ∀ build, BuildOf service build → BuildSandboxed m workspace build := by
  unfold validateBuild at h
  split at h
  · rename_i hbuild
    refine ⟨fun hsome => ?_, ?_⟩
    · rw [hbuild] at hsome
      cases hsome
    · rintro build (hmapping | ⟨context, htext, _⟩)
      · rw [hbuild] at hmapping; cases hmapping
      · rw [hbuild] at htext; cases htext
  · rename_i context hbuild
    refine ⟨fun _ => ⟨_, .inr ⟨context, hbuild, rfl⟩⟩, ?_⟩
    rintro build (hmapping | ⟨context', htext, rfl⟩)
    · rw [hbuild] at hmapping; cases hmapping
    · rw [hbuild] at htext
      cases htext
      exact validateBuildMapping_clean h
  · rename_i entries hbuild
    refine ⟨fun _ => ⟨entries, .inl hbuild⟩, ?_⟩
    rintro build (hmapping | ⟨context, htext, _⟩)
    · rw [hbuild] at hmapping
      cases hmapping
      exact validateBuildMapping_clean h
    · rw [hbuild] at htext; cases htext
  · exact absurd h not_clean_error

theorem cpuLimitRefused_false {x : Float64} (h : cpuLimitRefused x = false) :
    ∃ q, x = .finite q ∧ 0 < q ∧ q ≤ maxCpuLimit := by
  cases x with
  | finite q =>
    simp only [cpuLimitRefused, Bool.or_eq_false_iff, decide_eq_false_iff_not, not_le, not_lt] at h
    exact ⟨q, rfl, h.1, h.2⟩
  | _ => cases h

theorem memoryLimitRefused_false {bytes : Option Int} (h : memoryLimitRefused bytes = false) :
    ∃ n, bytes = some n ∧ n ≤ maxMemoryLimitBytes := by
  cases bytes with
  | none => cases h
  | some n =>
    simp only [memoryLimitRefused, decide_eq_false_iff_not, not_lt] at h
    exact ⟨n, rfl, h⟩

theorem validateResourceLimits_clean (h : (validateResourceLimits name service).Clean) :
    ∃ limits q bytes, resourceLimits service = some (.mapping limits) ∧
      cpuLimit (valueAt limits "cpus") = .ok (.finite q) ∧ 0 < q ∧ q ≤ maxCpuLimit ∧
      memoryBytes (valueAt limits "memory") = .ok (some bytes) ∧ bytes ≤ maxMemoryLimitBytes := by
  unfold validateResourceLimits at h
  split at h
  · exact absurd h not_clean_error
  · rename_i limits hlimits
    have hchecks := clean_all.mp h
    have hcpu := hchecks _ List.mem_cons_self
    have hmemory := hchecks _ (List.mem_cons_of_mem _ List.mem_cons_self)
    obtain ⟨x, hx, hrefused⟩ := map_ok.mp (clean_refuse.mp hcpu)
    obtain ⟨n, hn, hover⟩ := map_ok.mp (clean_refuse.mp hmemory)
    obtain ⟨q, rfl, hpos, hmax⟩ := cpuLimitRefused_false hrefused
    obtain ⟨bytes, rfl, hbytes⟩ := memoryLimitRefused_false hover
    exact ⟨limits, q, bytes, hlimits, hx, hpos, hmax, hn, hbytes⟩
  · exact absurd h not_clean_error

theorem validateIdentity_clean (h : (validateIdentity m workerId (name, .mapping service)).Clean) :
    hasKey service "container_name" = false ∧
      ((valueAt service "build").isNone = false → valueAt service "image" = .text (buildImage m workerId name)) := by
  have hchecks := clean_all.mp h
  have hname := clean_report.mp (hchecks _ List.mem_cons_self)
  have himage := clean_report.mp (hchecks _ (List.mem_cons_of_mem _ List.mem_cons_self))
  refine ⟨hname, fun hbuild => ?_⟩
  rw [hbuild] at himage
  exact isText_iff.mp (by simpa using himage)

theorem onlyDefault_names {networks : Mapping} (h : onlyDefault (networks.map fun entry => .text entry.1) = true) :
    ∀ entry ∈ networks, entry.1 = "default" := by
  intro entry hentry
  unfold onlyDefault at h
  have hall := List.all_eq_true.mp (Bool.and_eq_true _ _ |>.mp h).2 _ (List.mem_map_of_mem hentry)
  exact Value.text.inj (isText_iff.mp hall)

theorem validateNetworks_clean {plan : Mapping} (h : (validateNetworks plan workerId).Clean) :
    ∃ networks network, valueAt plan "networks" = .mapping networks ∧ (∀ entry ∈ networks, entry.1 = "default") ∧
      valueAt networks "default" = .mapping network ∧ valueAt network "name" = .text (networkName workerId) ∧
      (valueAt network "external").truthy = true := by
  unfold validateNetworks at h
  dsimp only at h
  split at h
  · rename_i networks hnetworks
    split at h
    · exact absurd h not_clean_error
    · rename_i honly
      split at h
      · rename_i network hnetwork
        split at h
        · rename_i hok
          obtain ⟨hname, hexternal⟩ := Bool.and_eq_true _ _ |>.mp hok
          exact ⟨networks, network, hnetworks, onlyDefault_names (by simpa using honly), hnetwork,
            isText_iff.mp hname, hexternal⟩
        · exact absurd h not_clean_error
      · exact absurd h not_clean_error
  · exact absurd h not_clean_error

theorem validateNamedVolume_clean {entry : String × Value} (h : (validateNamedVolume entry).Clean)
    (hname : (validateVolumeName entry).Clean) : NamedVolumeSandboxed entry.2 := by
  obtain ⟨name, value⟩ := entry
  cases value with
  | none => exact .inl rfl
  | mapping entries =>
    have hchecks := clean_all.mp h
    have hexternal := clean_report.mp (hchecks _ List.mem_cons_self)
    have hdriver := clean_report.mp (hchecks _ (List.mem_cons_of_mem _ List.mem_cons_self))
    have hoptions := clean_report.mp (hchecks _ (List.mem_cons_of_mem _ (List.mem_cons_of_mem _ List.mem_cons_self)))
    exact .inr ⟨entries, rfl, hexternal, isText_iff.mp (by simpa using hdriver), hoptions, clean_report.mp hname⟩
  | _ => exact absurd h not_clean_error

theorem validateNamedVolumes_clean {plan : Mapping} (h : (validateNamedVolumes plan).Clean)
    (hnames : (match valueAt plan "volumes" with
      | .mapping volumes => all (volumes.map validateVolumeName)
      | _ => .ok []).Clean) :
    (valueAt plan "volumes").isNone = true ∨ ∃ volumes, valueAt plan "volumes" = .mapping volumes ∧
      ∀ entry ∈ volumes, NamedVolumeSandboxed entry.2 := by
  unfold validateNamedVolumes at h
  cases hv : plan.lookup "volumes" with
  | none =>
    left
    unfold valueAt
    rw [hv]
    rfl
  | some value =>
    rw [hv] at h
    rw [valueAt_of_lookup hv] at hnames ⊢
    cases value with
    | none => exact .inl rfl
    | mapping volumes =>
      refine .inr ⟨volumes, rfl, fun entry hentry => ?_⟩
      exact validateNamedVolume_clean (clean_all.mp h _ (List.mem_map_of_mem hentry))
        (clean_all.mp hnames _ (List.mem_map_of_mem hentry))
    | _ => exact absurd h not_clean_error

theorem validateFileSource_clean {kind : String} {entry : String × Value}
    (h : (validateFileSource m kind (some workspace) entry).Clean) : DefinitionSandboxed m workspace entry.2 := by
  obtain ⟨name, value⟩ := entry
  cases value with
  | mapping entries =>
    have hchecks := clean_all.mp h
    have hexternal := clean_report.mp (hchecks _ List.mem_cons_self)
    have hfile := hchecks _ (List.mem_cons_of_mem _ List.mem_cons_self)
    exact ⟨entries, rfl, hexternal, validateSource_clean hfile⟩
  | _ => exact absurd h not_clean_error

theorem validateFileSources_clean {kind : String} {definitions : Value}
    (h : (validateFileSources m kind definitions (some workspace)).Clean) : definitions.isNone = true ∨
      ∃ entries, definitions = .mapping entries ∧ ∀ entry ∈ entries, DefinitionSandboxed m workspace entry.2 := by
  unfold validateFileSources at h
  split at h
  · exact .inl rfl
  · rename_i entries
    refine .inr ⟨entries, rfl, fun entry hentry => ?_⟩
    exact validateFileSource_clean (clean_all.mp h _ (List.mem_map_of_mem hentry))
  · exact absurd h not_clean_error

theorem scaled_nonneg {q : ℚ} {factor n : Int} (hq : 0 ≤ q) (hfactor : 0 ≤ factor)
    (h : scaled (.finite q) factor = .ok n) : 0 ≤ n := by
  unfold scaled at h
  split at h
  · rename_i q' heq
    cases heq
    split at h
    · rename_i bytes hbytes
      have hnonneg : 0 ≤ bytes := toFloat64_nonneg (mul_nonneg hq (by exact_mod_cast hfactor)) hbytes
      rw [if_pos hnonneg] at h
      cases h
      exact Int.floor_nonneg.mpr hnonneg
    · cases h
  · cases h
  · cases h

theorem memoryFactor_pos {unit : List Char} {factor : Int} (h : memoryFactor unit = some factor) : 0 ≤ factor := by
  unfold memoryFactor at h
  split at h <;> cases h <;> decide

theorem memoryBytes_nonneg {n : Int} (h : memoryBytes value = .ok (some n)) : 0 ≤ n := by
  unfold memoryBytes at h
  split at h
  · rename_i i
    split at h
    · rename_i hpos
      cases h
      exact hpos.le
    · cases h
  · split at h
    · cases h
    · split at h
      · cases h
      · rename_i q _
        split at h
        · cases h
        · rename_i hq
          split at h
          · cases h
          · rename_i factor hfactor
            obtain ⟨bytes, hbytes, heq⟩ := map_ok.mp h
            cases heq
            exact scaled_nonneg (not_le.mp hq).le (memoryFactor_pos hfactor) hbytes
      · rename_i amount hnot _
        split at h
        · cases h
        · obtain ⟨bytes, hbytes, heq⟩ := map_ok.mp h
          cases amount with
          | finite q => exact absurd rfl (hnot q)
          | _ => cases hbytes
  · cases h

theorem defaultLimits_memory : memoryBytes (valueAt defaultLimits "memory") = .ok (some 536870912) := by decide +kernel

theorem overrideService_ports : valueAt (overrideService service) "ports" = .list [] := by
  unfold overrideService
  rw [valueAt_setKey_of_ne _ _ (by decide), valueAt_setKey_self]

variable {limits : Mapping}

theorem overrideResources_limits (h : limitsOf (overrideResources value) = some (.mapping limits)) :
    limitsOf value = some (.mapping limits) ∨ limits = defaultLimits := by
  cases value with
  | mapping resources =>
    dsimp only [overrideResources] at h
    by_cases hnone : (valueAt resources "limits").isNone = true
    · rw [if_pos hnone] at h
      simp only [limitsOf, lookup_setKey_self, Option.some.injEq, Value.mapping.injEq] at h
      exact .inr h.symm
    · rw [if_neg hnone] at h
      exact .inl h
  | _ => cases h

theorem overrideDeploy_limits (h : deployLimits (overrideDeploy value) = some (.mapping limits)) :
    deployLimits value = some (.mapping limits) ∨ limits = defaultLimits := by
  cases value with
  | mapping deploy =>
    simp only [deployLimits, overrideDeploy, lookup_setKey_self, Option.bind_some] at h ⊢
    rcases overrideResources_limits h with hl | hl
    · cases hr : deploy.lookup "resources" with
      | none => rw [hr] at hl; cases hl
      | some resources => rw [hr] at hl; exact .inl hl
    · exact .inr hl
  | _ => cases h

theorem overrideService_limits (h : resourceLimits (overrideService service) = some (.mapping limits)) :
    resourceLimits service = some (.mapping limits) ∨ limits = defaultLimits := by
  simp only [resourceLimits, overrideService, lookup_setKey_self, Option.bind_some] at h ⊢
  rcases overrideDeploy_limits h with hl | hl
  · cases hd : service.lookup "deploy" with
    | none => rw [hd] at hl; cases hl
    | some deploy => rw [hd] at hl; exact .inl hl
  · exact .inr hl

theorem overrideService_keeps_limits (h : resourceLimits service = some (.mapping limits)) :
    resourceLimits (overrideService service) = some (.mapping limits) := by
  unfold resourceLimits at h
  obtain ⟨deployValue, hdeploy, h⟩ := Option.bind_eq_some_iff.mp h
  cases deployValue with
  | mapping deploy =>
    obtain ⟨resourcesValue, hresources, h⟩ := Option.bind_eq_some_iff.mp h
    cases resourcesValue with
    | mapping resources =>
      have hset : (valueAt resources "limits").isNone = false := by
        rw [valueAt_of_lookup h]
        rfl
      simp only [resourceLimits, overrideService, lookup_setKey_self, Option.bind_some, hdeploy, Option.getD_some,
        overrideDeploy, deployLimits, hresources, overrideResources, hset, Bool.false_eq_true, if_false]
      exact h
    | _ => cases h
  | _ => cases h

theorem resourceLimits_setKey {key : String} (h : key ≠ "deploy") :
    resourceLimits (setKey service key value) = resourceLimits service := by
  unfold resourceLimits
  rw [lookup_setKey_of_ne _ _ (Ne.symm h)]

theorem identifyService_limits : resourceLimits (identifyService m workerId name service) = resourceLimits service := by
  unfold identifyService
  split
  · rfl
  · exact resourceLimits_setKey (by decide)

theorem mapM_ok {A B : Type} {f : A → Except Raised B} {xs : List A} {ys : List B} (h : xs.mapM f = .ok ys) :
    (∀ y ∈ ys, ∃ x ∈ xs, f x = .ok y) ∧ ∀ x ∈ xs, ∃ y ∈ ys, f x = .ok y := by
  induction xs generalizing ys with
  | nil =>
    cases h
    exact ⟨(List.forall_mem_nil _), (List.forall_mem_nil _)⟩
  | cons x xs ih =>
    rw [List.mapM_cons] at h
    cases hx : f x with
    | error e => rw [hx] at h; cases h
    | ok y =>
      cases hxs : xs.mapM f with
      | error e => rw [hx, hxs] at h; cases h
      | ok rest =>
        rw [hx, hxs] at h
        cases h
        obtain ⟨hback, hforth⟩ := ih hxs
        refine ⟨fun y' hy' => ?_, fun x' hx' => ?_⟩
        · rcases List.mem_cons.mp hy' with rfl | hy'
          · exact ⟨x, List.mem_cons_self, hx⟩
          · obtain ⟨x', hx', hf⟩ := hback y' hy'
            exact ⟨x', List.mem_cons_of_mem _ hx', hf⟩
        · rcases List.mem_cons.mp hx' with rfl | hx'
          · exact ⟨y, List.mem_cons_self, hx⟩
          · obtain ⟨y', hy', hf⟩ := hforth x' hx'
            exact ⟨y', List.mem_cons_of_mem _ hy', hf⟩

theorem overrideEntry_ok {entry result : String × Value} (h : overrideEntry m workerId entry = .ok result) :
    ∃ name service, entry = (name, .mapping service) ∧
      result = (name, .mapping (overrideService (identifyService m workerId name service))) := by
  obtain ⟨name, value⟩ := entry
  cases value with
  | mapping service =>
    cases h
    exact ⟨name, service, rfl, rfl⟩
  | _ => cases h

theorem applyEffectiveOverrides_ok {data plan : Mapping} (h : applyEffectiveOverrides m data workerId = .ok plan) :
    ∃ services overridden, valueAt data "services" = .mapping services ∧
      services.mapM (overrideEntry m workerId) = .ok overridden ∧ valueAt plan "services" = .mapping overridden := by
  unfold applyEffectiveOverrides at h
  split at h
  · rename_i services hservices
    cases hmap : services.mapM (overrideEntry m workerId) with
    | error e => rw [hmap] at h; cases h
    | ok overridden =>
      rw [hmap] at h
      refine ⟨services, overridden, hservices, hmap, ?_⟩
      simp only [bind, Except.bind] at h
      split at h
      · cases h
        rw [valueAt_setKey_of_ne _ _ (by decide), valueAt_setKey_self]
      · cases h
        rw [valueAt_setKey_self]
  · cases h

theorem validateService_clean (h : (validateService m (some workspace)
      (name, .mapping (overrideService service))).Clean)
    (hidentity : (validateIdentity m workerId (name, .mapping (overrideService service))).Clean) :
    ServiceSandboxed m workspace workerId name (overrideService service) ↔
      ∀ limits, resourceLimits (overrideService service) = some (.mapping limits) →
        memoryBytes (valueAt limits "memory") ≠ .ok (some 0) := by
  have hchecks := clean_all.mp h
  simp only [List.forall_mem_cons, List.not_mem_nil, false_implies, implies_true, and_true] at hchecks
  obtain ⟨hprivileged, hnamespaces, hcapabilities, hunsupported, hbuild, hvolumes, hnetworks, hlimits⟩ := hchecks
  obtain ⟨limits, q, bytes, hl, hcpu, hpos, hmax, hmemory, hbytes⟩ := validateResourceLimits_clean hlimits
  constructor
  · intro hs limits' hl' hzero
    obtain ⟨limits'', bytes', hl'', hmemory', hpos', _⟩ := hs.memory
    have heq := hl''.symm.trans hl'
    cases heq
    rw [hzero] at hmemory'
    cases hmemory'
    exact absurd hpos' (lt_irrefl 0)
  · intro hzero
    obtain ⟨names, hnames, hdefault⟩ := map_ok.mp (clean_refuse.mp hnetworks)
    have hfield : ∀ fields : List String, (all (fields.map fun field =>
        report (valueAt (overrideService service) field).truthy s!"Service '{name}': {field} is not allowed")).Clean →
        ∀ field ∈ fields, (valueAt (overrideService service) field).truthy = false := by
      intro fields hclean field hfield
      exact clean_report.mp (clean_all.mp hclean _ (List.mem_map_of_mem hfield))
    have hidentified := validateIdentity_clean hidentity
    have hbuilt := validateBuild_clean hbuild
    exact {
      networks := ⟨names, hnames, by simpa using hdefault⟩
      namespaces := fun field hf => by
        simpa using clean_report.mp (clean_all.mp hnamespaces _ (List.mem_map_of_mem hf))
      unprivileged := clean_report.mp hprivileged
      capabilities := fun field hf => (List.mem_append.mp hf).elim (hfield _ hcapabilities field)
        (hfield _ hunsupported field)
      volumes := validateVolumes_clean hvolumes
      built := hbuilt.1
      build := hbuilt.2
      image := hidentified.2
      unnamed := hidentified.1
      ports := overrideService_ports
      cpu := ⟨limits, q, hl, hcpu, hpos, hmax⟩
      memory := ⟨limits, bytes, hl, hmemory,
        lt_of_le_of_ne (memoryBytes_nonneg hmemory) fun heq => hzero limits hl (heq ▸ hmemory), hbytes⟩ }

/-- Which projects the policy accepts and what it then keeps: all that is asked
of a sandbox, just when no service names a memory limit below one byte. -/
theorem accepted_sandboxed {data plan : Mapping} {result : ValidationResult}
    (hplan : applyEffectiveOverrides m data workerId = .ok plan)
    (hresult : validateEffectiveCompose m (.mapping plan) workerId (some workspace) = .ok result)
    (hvalid : result.valid = true) : Sandboxed m workspace workerId plan ↔ LimitsMemory data := by
  obtain ⟨services, overridden, hservices, hmap, hplanned⟩ := applyEffectiveOverrides_ok hplan
  obtain ⟨hback, hforth⟩ := mapM_ok hmap
  have hclean : (effectiveFindings m plan overridden workerId (some workspace)).Clean := by
    unfold validateEffectiveCompose at hresult
    dsimp only at hresult
    rw [hplanned] at hresult
    cases overridden with
    | nil =>
      cases hresult
      cases hvalid
    | cons entry rest =>
      dsimp only at hresult
      cases herrors : effectiveFindings m plan (entry :: rest) workerId (some workspace) with
      | error e => rw [herrors] at hresult; cases hresult
      | ok errors =>
        rw [herrors] at hresult
        cases hresult
        exact congrArg Except.ok (List.isEmpty_iff.mp hvalid)
  unfold effectiveFindings at hclean
  have hchecks := clean_all.mp hclean
  simp only [List.forall_mem_cons, List.not_mem_nil, false_implies, implies_true, and_true] at hchecks
  obtain ⟨hnetworks, hvolumes, hidentities, hsecrets, hconfigs, hall⟩ := hchecks
  unfold validateIdentities at hidentities
  rw [hplanned] at hidentities
  have hidentities := clean_all.mp hidentities
  simp only [List.forall_mem_cons, List.not_mem_nil, false_implies, implies_true, and_true] at hidentities
  have hservice : ∀ name service, (name, Value.mapping service) ∈ services →
      (ServiceSandboxed m workspace workerId name (overrideService (identifyService m workerId name service)) ↔
        ∀ limits, resourceLimits (overrideService (identifyService m workerId name service)) = some (.mapping limits) →
          memoryBytes (valueAt limits "memory") ≠ .ok (some 0)) := by
    intro name service hmem
    obtain ⟨entry, hentry, hok⟩ := hforth _ hmem
    cases hok
    exact validateService_clean (clean_all.mp hall _ (List.mem_map_of_mem hentry))
      (clean_all.mp hidentities.1 _ (List.mem_map_of_mem hentry))
  constructor
  · intro hsandboxed services' hservices' name service hmem limits hlimits
    rw [hservices] at hservices'
    cases hservices'
    obtain ⟨planned, hp, heach⟩ := hsandboxed.services
    rw [hplanned] at hp
    cases hp
    obtain ⟨entry, hentry, hok⟩ := hforth _ hmem
    cases hok
    obtain ⟨service', heq, hs⟩ := heach _ hentry
    cases heq
    exact (hservice name service hmem).mp hs limits
      (overrideService_keeps_limits (identifyService_limits.trans hlimits))
  · intro hlimits
    refine ⟨validateNetworks_clean hnetworks, ⟨overridden, hplanned, fun entry hentry => ?_⟩, ?_, ?_⟩
    · obtain ⟨source, hsource, hok⟩ := hback entry hentry
      obtain ⟨name, service, rfl, rfl⟩ := overrideEntry_ok hok
      refine ⟨_, rfl, (hservice name service hsource).mpr fun limits hl hzero => ?_⟩
      rcases overrideService_limits hl with hl | hl
      · exact hlimits services hservices name service hsource limits (identifyService_limits.symm.trans hl) hzero
      · rw [hl, defaultLimits_memory] at hzero
        cases hzero
    · exact validateNamedVolumes_clean hvolumes hidentities.2
    · intro kind hkind
      simp only [List.mem_cons, List.not_mem_nil, or_false] at hkind
      rcases hkind with rfl | rfl
      · exact validateFileSources_clean hsecrets
      · exact validateFileSources_clean hconfigs

def exampleMachine : Machine where
  sha256 := id
  render _ := "None"
  resolve := .ok

def exampleProject (deploy : Mapping) : Mapping :=
  [("networks", .mapping [("default", .mapping [("name", .text "dev_proj_w1"), ("external", .bool true)])]),
    ("services", .mapping [("db", .mapping ([("image", .text "postgres"), ("networks", .mapping [("default", .none)]),
      ("ports", .list [])] ++ deploy))])]

def exampleDeploy (memory : String) : Mapping :=
  [("deploy", .mapping [("resources", .mapping [("limits", .mapping [("cpus", .text "1.0"), ("memory", .text memory)])])])]

theorem accepted_sandboxed_default :
    Sandboxed exampleMachine (.ofText "/ws") "w1" (exampleProject (exampleDeploy "512MiB")) ↔
      LimitsMemory (exampleProject []) :=
  have hplan : applyEffectiveOverrides exampleMachine (exampleProject []) "w1" =
    .ok (exampleProject (exampleDeploy "512MiB")) := rfl
  have hresult : validateEffectiveCompose exampleMachine (.mapping (exampleProject (exampleDeploy "512MiB"))) "w1"
    (some (.ofText "/ws")) = .ok ⟨true, []⟩ := by decide +kernel
  accepted_sandboxed hplan hresult rfl

/-- Half a byte is accepted, and is a limit of zero bytes. -/
theorem accepted_unlimited : ∃ (m : Machine) (workspace : PurePath) (workerId : String) (data plan : Mapping)
    (result : ValidationResult), applyEffectiveOverrides m data workerId = .ok plan ∧
      validateEffectiveCompose m (.mapping plan) workerId (some workspace) = .ok result ∧ result.valid = true ∧
      ¬ Sandboxed m workspace workerId plan := by
  have hplan : applyEffectiveOverrides exampleMachine (exampleProject (exampleDeploy "0.5")) "w1" =
      .ok (exampleProject (exampleDeploy "0.5")) := rfl
  have hresult : validateEffectiveCompose exampleMachine (.mapping (exampleProject (exampleDeploy "0.5"))) "w1"
      (some (.ofText "/ws")) = .ok ⟨true, []⟩ := by decide +kernel
  refine ⟨_, _, _, _, _, _, hplan, hresult, rfl, fun hsandboxed => ?_⟩
  obtain ⟨services, hservices, heach⟩ := hsandboxed.services
  cases hservices
  obtain ⟨service, hservice, hs⟩ := heach _ List.mem_cons_self
  cases hservice
  obtain ⟨limits, bytes, hlimits, hmemory, hpos, _⟩ := hs.memory
  cases hlimits
  have hzero : memoryBytes (.text "0.5") = .ok (some 0) := by decide +kernel
  have heq : memoryBytes (.text "0.5") = .ok (some bytes) := hmemory
  rw [hzero] at heq
  cases heq
  exact absurd hpos (lt_irrefl 0)

end Orchestrator.Compose
