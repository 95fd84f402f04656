import Orchestrator.Compose.Sources
import Orchestrator.Results

/-!
The walk over Compose sources against what Compose loads: it ends whatever the
references are, and it checks what the references lead to as they are written.
Compose reads a reference after interpolation and joins it to a directory by
name, so that is all it loads only where neither makes a difference to where the
references lead.
-/

namespace Orchestrator.Compose

open Python Findings Orchestrator.Graph

variable (disk : Disk) (workspace : PurePath)

def extend (base : PurePath) (file : String) : Except Raised Context := do
  let target ← disk.resolve (base.join (.ofText file))
  enter disk workspace target target.parent

def leads (context : Context) : Except Raised (List (Except Raised Context)) :=
  (fun data => (extendedFiles data).map (extend disk workspace context.base)) <$>
    readSource disk workspace context.source context.base

def Reached (selected project : PurePath) (context : Context) : Prop :=
  ∃ root, enter disk workspace selected project = .ok root ∧ Reach (leads disk workspace) root context

def Acceptable (selected project : PurePath) : Prop :=
  (∃ root, enter disk workspace selected project = .ok root) ∧
    ∀ context, Reached disk workspace selected project context → Sound (leads disk workspace) context

/-- How Compose reads a reference and what path it makes of it. It interpolates
what has a dollar, and cleans a path by name, which leaves a real one as it is. -/
structure Loader where
  interpolate : String → Option String
  locate : PurePath → PurePath → PurePath
  interpolate_plain : ∀ {text : String}, '$' ∉ text.toList → interpolate text = some text
  locate_real : ∀ {base path : PurePath}, disk.resolve (base.join path) = .ok (base.join path) → locate base path = base.join path

/-- What Compose loads for a file selected with its project directory, by the
names it has for it: the paths of an extended file are taken from the directory
in that file's name. -/
inductive Loads (disk : Disk) (loader : Loader disk) (selected project : PurePath) : Context → Prop
  | selected {source : PurePath} {text : String} : disk.resolve selected = .ok source → disk.readText source = .ok text →
      Loads disk loader selected project ⟨selected, project⟩
  | extended {loaded : Context} {content text file read : String} {data : Value} {source target : PurePath} :
      Loads disk loader selected project loaded → disk.resolve loaded.source = .ok source →
      disk.readText source = .ok content → disk.safeLoad content = .ok data → file ∈ extendedFiles data →
      loader.interpolate file = some read → disk.resolve (loader.locate loaded.base (.ofText read)) = .ok target →
      disk.readText target = .ok text →
      Loads disk loader selected project
        ⟨loader.locate loaded.base (.ofText read), (loader.locate loaded.base (.ofText read)).parent⟩

structure At (disk : Disk) (loaded context : Context) : Prop where
  source : disk.resolve loaded.source = .ok context.source
  base : disk.resolve loaded.base = .ok context.base

def Checked (context : Context) : Prop :=
  ∃ content, disk.readText context.source = .ok content ∧
    validateComposeFile disk content (some context.source) (some workspace) (some context.base) = .ok ⟨true, []⟩

variable {disk workspace} {base real source : PurePath}

section

variable (h : disk.resolve base = .ok real)

include h

theorem resolve_again : disk.resolve real = .ok real := by
  have hempty (path : PurePath) : path.join ⟨"", []⟩ = path := by simp [PurePath.join, PurePath.isAbsolute]
  have := disk.resolve_join ⟨"", []⟩ h
  rw [hempty, hempty] at this
  rw [← this, h]

theorem sourcePath_real : sourcePath disk base = sourcePath disk real := by
  funext workspace label value
  cases value with
  | text path => simp only [sourcePath, isWithinWorkspace, disk.resolve_join (.ofText path) h]
  | _ => rfl

theorem validateComposeFile_real (content : String) (file : PurePath) :
    validateComposeFile disk content (some file) (some workspace) (some base) =
      validateComposeFile disk content (some file) (some workspace) (some real) := by
  have hvalues : sourcePathValues disk base = sourcePathValues disk real := by
    funext workspace label value
    cases value <;> simp only [sourcePathValues, sourcePath_real h]
  have hone (directive label : String) :
      admitSourceDirective disk directive label base = admitSourceDirective disk directive label real := by
    funext workspace value
    simp only [admitSourceDirective, sourcePath_real h]
  have hmany (directive label : String) :
      admitSourceDirectives disk directive label base = admitSourceDirectives disk directive label real := by
    funext workspace value
    simp only [admitSourceDirectives, hvalues]
  have hbuild (name : String) : validateSourceBuild disk name base = validateSourceBuild disk name real := by
    have hdockerfile : validateSourceDockerfile disk name base = validateSourceDockerfile disk name real := by
      funext workspace context build
      unfold validateSourceDockerfile
      rw [hone]
    funext workspace service
    unfold validateSourceBuild
    rw [hone, hdockerfile]
  have hdirectives (name : String) : sourceDirectives disk name base = sourceDirectives disk name real := by
    funext workspace service
    unfold sourceDirectives validateExtends
    rw [hmany, hmany, hmany, hone, hone, hbuild]
  have hservice : validateSourceService disk (some (base, workspace)) = validateSourceService disk (some (real, workspace)) := by
    funext ⟨name, service⟩
    cases service with
    | mapping service =>
      show all [validateSourceVolumes disk name service, sourceDirectives disk name base workspace service] =
        all [validateSourceVolumes disk name service, sourceDirectives disk name real workspace service]
      rw [hdirectives]
    | _ => rfl
  have hdefinition (kind : String) :
      validateDefinition disk kind base workspace = validateDefinition disk kind real workspace := by
    funext ⟨name, definition⟩
    cases definition with
    | mapping definition =>
      simp only [validateDefinition]
      rw [hone]
    | _ => rfl
  have hproject : projectDirectives disk base workspace = projectDirectives disk real workspace := by
    funext data
    unfold projectDirectives validateDefinitions
    rw [hmany, hdefinition, hdefinition]
  unfold validateComposeFile sourceScope sourceFindings
  simp only [Option.getD_some, hservice, hproject]

theorem readSource_real (file : PurePath) :
    readSource disk workspace file base = readSource disk workspace file real := by
  simp only [readSource, validateComposeFile_real h]

end

theorem sayInstead_ok {A : Type} {text : String} {x : Except Raised A} {a : A} (h : sayInstead text x = .ok a) :
    x = .ok a := by
  cases x with
  | error e => cases e <;> cases h
  | ok b => exact h

theorem sayWhile_ok {A : Type} {x : Except Raised A} {a : A} (h : sayWhile source x = .ok a) : x = .ok a := by
  cases x with
  | error e => cases e <;> cases h
  | ok b => exact h

variable {context : Context}

theorem enter_ok (h : enter disk workspace source base = .ok context) :
    disk.resolve source = .ok context.source ∧ disk.resolve base = .ok context.base := by
  obtain ⟨path, hpath, h⟩ := bind_ok h
  obtain ⟨_, -, h⟩ := bind_ok h
  obtain ⟨real, hreal, h⟩ := bind_ok h
  cases h
  exact ⟨sayInstead_ok hpath, hreal⟩

theorem validateComposeFile_valid {content : String} {file scope project : Option PurePath} {result : ValidationResult}
    (h : validateComposeFile disk content file scope project = .ok result) (hvalid : result.valid = true) :
    result = ⟨true, []⟩ := by
  unfold validateComposeFile at h
  split at h
  · cases h
    cases hvalid
  · split at h
    · obtain ⟨errors, -, h⟩ := bind_ok h
      cases h
      rw [List.isEmpty_iff.mp hvalid]
      rfl
    · cases h
      cases hvalid
  · cases h
    cases hvalid

theorem readSource_ok {data : Value} (h : readSource disk workspace source base = .ok data) :
    ∃ content, disk.readText source = .ok content ∧ disk.safeLoad content = .ok data ∧
      validateComposeFile disk content (some source) (some workspace) (some base) = .ok ⟨true, []⟩ := by
  obtain ⟨⟨result, loaded⟩, hread, h⟩ := bind_ok h
  obtain ⟨content, hcontent, hread⟩ := bind_ok (sayWhile_ok hread)
  obtain ⟨checked, hchecked, hread⟩ := bind_ok hread
  obtain ⟨value, hvalue, hread⟩ := bind_ok hread
  cases hread
  dsimp only at h
  split at h
  swap
  · cases h
  next hvalid =>
  cases h
  refine ⟨content, hcontent, ?_, validateComposeFile_valid hchecked hvalid ▸ hchecked⟩
  cases hload : disk.safeLoad content with
  | error text => rw [hload] at hvalue; cases hvalue
  | ok value => rw [hload] at hvalue; cases hvalue; rfl

theorem validateSourceTree_walk {fuel : Nat} {seen : List Context} {result : Except Raised (List Context)}
    (h : walk (leads disk workspace) fuel (enter disk workspace source base) seen = some result) :
    validateSourceTree disk workspace fuel source base seen = some result := by
  induction fuel generalizing source base seen result with
  | zero => cases h
  | succ fuel ih =>
    simp only [validateSourceTree]
    cases henter : enter disk workspace source base with
    | error e => rw [henter] at h; exact h
    | ok context =>
      obtain ⟨-, hbase⟩ := enter_ok henter
      rw [henter] at h
      simp only [walk, leads] at h
      simp only [readSource_real hbase]
      split
      · next hmem => simpa only [if_pos hmem] using h
      · next hnew =>
        rw [if_neg hnew] at h
        cases hread : readSource disk workspace context.source context.base with
        | error e => rw [hread] at h; exact h
        | ok data =>
          simp only [hread, Functor.map, Except.map, walkAll_map] at h
          refine walkAll_more (fun file seen r hr => ?_) h
          rw [disk.resolve_join (.ofText file) hbase]
          unfold extend at hr
          cases hresolve : disk.resolve (context.base.join (.ofText file)) with
          | error e =>
            rw [hresolve] at hr
            cases fuel with
            | zero => cases hr
            | succ fuel => exact hr
          | ok target =>
            rw [hresolve] at hr
            exact ih hr

theorem extend_ok {file : String} (h : extend disk workspace base file = .ok context) :
    disk.resolve (base.join (.ofText file)) = .ok context.source ∧
      disk.resolve context.source.parent = .ok context.base := by
  obtain ⟨target, htarget, h⟩ := bind_ok h
  obtain ⟨hsource, hbase⟩ := enter_ok h
  have heq : target = context.source := by
    have := resolve_again htarget
    rw [hsource] at this
    cases this
    rfl
  rw [← heq]
  exact ⟨htarget, hbase⟩

theorem leads_ok {nodes : List (Except Raised Context)}
    (h : leads disk workspace context = .ok nodes) :
    ∃ data, readSource disk workspace context.source context.base = .ok data ∧
      nodes = (extendedFiles data).map (extend disk workspace context.base) := by
  unfold leads at h
  cases hread : readSource disk workspace context.source context.base with
  | error e => rw [hread] at h; cases h
  | ok data =>
    rw [hread] at h
    cases h
    exact ⟨data, rfl, rfl⟩

def sites (disk : Disk) (project : PurePath) : List Context :=
  disk.files.flatMap fun path => match disk.resolve path.parent with
    | .ok own => [⟨path, project⟩, ⟨path, own⟩]
    | .error _ => [⟨path, project⟩]

theorem sites_length {project : PurePath} : (sites disk project).length ≤ 2 * disk.files.length := by
  unfold sites
  induction disk.files with
  | nil => simp
  | cons path rest ih =>
    rw [List.flatMap_cons, List.length_append, List.length_cons]
    have : (match disk.resolve path.parent with
      | .ok own => [(⟨path, project⟩ : Context), ⟨path, own⟩]
      | .error _ => [⟨path, project⟩]).length ≤ 2 := by
      split <;> simp
    omega

def Arises (disk : Disk) (project : PurePath) (context : Context) : Prop :=
  context.base = project ∨ disk.resolve context.source.parent = .ok context.base

theorem Arises.site {project : PurePath} (h : Arises disk project context)
    (hread : context.source ∈ disk.files) : context ∈ sites disk project := by
  refine List.mem_flatMap.mpr ⟨context.source, hread, ?_⟩
  rcases h with rfl | hown
  · split <;> exact List.mem_cons_self
  · rw [hown]
    exact List.mem_cons_of_mem _ (List.mem_singleton_self _)

theorem walk_ends (disk : Disk) (workspace selected project : PurePath) {fuel : Nat}
    (hfuel : 2 * disk.files.length < fuel) :
    (walk (leads disk workspace) fuel (enter disk workspace selected project) []).isSome := by
  cases henter : enter disk workspace selected project with
  | error e => cases fuel with
    | zero => omega
    | succ fuel => rfl
  | ok root =>
    apply walk_isSome (sites disk root.base) (Arises disk root.base)
    · rintro context next - ⟨nodes, hnodes, hmem⟩
      obtain ⟨data, -, rfl⟩ := leads_ok hnodes
      obtain ⟨file, -, hfile⟩ := List.mem_map.mp hmem
      exact .inr (extend_ok hfile).2
    · intro context nodes harises hnodes
      obtain ⟨data, hread, -⟩ := leads_ok hnodes
      obtain ⟨content, hcontent, -⟩ := readSource_ok hread
      exact harises.site (disk.readable hcontent)
    · rintro context heq
      cases heq
      exact .inl rfl
    · exact Nat.lt_of_le_of_lt (unseen_le_length.trans sites_length) hfuel

theorem Sound.checked (h : Sound (leads disk workspace) context) :
    Checked disk workspace context := by
  obtain ⟨nodes, hnodes, -⟩ := h
  obtain ⟨data, hread, -⟩ := leads_ok hnodes
  obtain ⟨content, hcontent, -, hvalid⟩ := readSource_ok hread
  exact ⟨content, hcontent, hvalid⟩

/-- The walk ends whatever the references are. When it ends well, it has checked
all that Compose loads if and only if the references lead, as they are written,
to all that they lead Compose to. -/
theorem source_walk_complete_iff (disk : Disk) (loader : Loader disk) (workspace selected project : PurePath) :
    ∃ result, (∀ fuel, 2 * disk.files.length < fuel →
        validateSourceTree disk workspace fuel selected project [] = some result) ∧
      ((∀ seen, result = .ok seen → ∀ loaded, Loads disk loader selected project loaded →
          ∃ context ∈ seen, At disk loaded context ∧ Checked disk workspace context) ↔
        (Acceptable disk workspace selected project → ∀ loaded, Loads disk loader selected project loaded →
          ∃ context, At disk loaded context ∧ Reached disk workspace selected project context)) := by
  obtain ⟨result, hresult⟩ := Option.isSome_iff_exists.mp
    (walk_ends disk workspace selected project (Nat.lt_succ_self _))
  refine ⟨result, fun fuel hfuel => validateSourceTree_walk (walk_more hresult hfuel), ?_⟩
  cases henter : enter disk workspace selected project with
  | error e =>
    rw [henter] at hresult
    cases hresult
    refine ⟨fun _ haccept => ?_, fun _ seen hseen => nomatch hseen⟩
    obtain ⟨⟨root, hroot⟩, -⟩ := haccept
    exact nomatch henter.symm.trans hroot
  | ok root =>
    rw [henter] at hresult
    have hreached (context : Context) : Reached disk workspace selected project context ↔
        Reach (leads disk workspace) root context := by
      refine ⟨fun ⟨root', hroot, hreach⟩ => ?_, fun hreach => ⟨root, henter, hreach⟩⟩
      cases henter.symm.trans hroot
      exact hreach
    constructor
    · intro hchecked haccept loaded hloads
      cases result with
      | error e =>
        obtain ⟨bad, hreach, hbad⟩ := walk_fails hresult
        exact absurd (haccept.2 bad ((hreached bad).mpr hreach)) hbad
      | ok seen =>
        obtain ⟨context, hseen, hat, -⟩ := hchecked seen rfl loaded hloads
        exact ⟨context, hat, (hreached context).mpr ((walk_ok hresult context).1.mp hseen)⟩
    · rintro hcondition seen rfl loaded hloads
      have hsound (bad : Context) (hreach : Reach (leads disk workspace) root bad) : Sound (leads disk workspace) bad :=
        (walk_ok hresult bad).2 ((walk_ok hresult bad).1.mpr hreach)
      have haccept : Acceptable disk workspace selected project :=
        ⟨⟨root, henter⟩, fun bad hbad => hsound bad ((hreached bad).mp hbad)⟩
      obtain ⟨context, hat, hreach⟩ := hcondition haccept loaded hloads
      have hreach := (hreached context).mp hreach
      exact ⟨context, (walk_ok hresult context).1.mpr hreach, hat, Sound.checked (hsound context hreach)⟩

/-- A reference with no dollar to a file that is, with its directory, where its
path says. -/
structure Plain (disk : Disk) (context : Context) (file : String) : Prop where
  dollar : '$' ∉ file.toList
  real : disk.resolve (context.base.join (.ofText file)) = .ok (context.base.join (.ofText file))
  directory : disk.resolve (context.base.join (.ofText file)).parent = .ok (context.base.join (.ofText file)).parent

/-- Where all references are plain, Compose loads what they lead to as they are written. -/
theorem loads_reached {loader : Loader disk} {selected project : PurePath} (hselected : disk.resolve selected = .ok selected)
    (hproject : disk.resolve project = .ok project) (haccept : Acceptable disk workspace selected project)
    (hplain : ∀ context, Reached disk workspace selected project context → ∀ content data,
      disk.readText context.source = .ok content → disk.safeLoad content = .ok data →
      ∀ file ∈ extendedFiles data, Plain disk context file)
    {loaded : Context} (h : Loads disk loader selected project loaded) :
    Reached disk workspace selected project loaded ∧ At disk loaded loaded := by
  induction h with
  | selected _ _ =>
    obtain ⟨root, hroot⟩ := haccept.1
    obtain ⟨hsource, hbase⟩ := enter_ok hroot
    cases hselected.symm.trans hsource
    cases hproject.symm.trans hbase
    exact ⟨⟨root, hroot, .refl⟩, hsource, hbase⟩
  | @extended loaded content text file read data source target _ hsource hcontent hdata hfile hread htarget _ ih =>
    obtain ⟨hreached, hat⟩ := ih
    cases hat.source.symm.trans hsource
    obtain ⟨nodes, hnodes, hall⟩ := haccept.2 loaded hreached
    obtain ⟨data', hsources, rfl⟩ := leads_ok hnodes
    obtain ⟨content', hcontent', hdata', -⟩ := readSource_ok hsources
    cases hcontent.symm.trans hcontent'
    cases hdata.symm.trans hdata'
    obtain ⟨hdollar, hreal, hdirectory⟩ := hplain loaded hreached content data hcontent hdata file hfile
    cases (loader.interpolate_plain hdollar).symm.trans hread
    rw [loader.locate_real hreal]
    obtain ⟨next, hnext⟩ := hall _ (List.mem_map_of_mem hfile)
    obtain ⟨htarget', hbase⟩ := extend_ok hnext
    have hname : next = ⟨loaded.base.join (.ofText file), (loaded.base.join (.ofText file)).parent⟩ := by
      obtain ⟨nextSource, nextBase⟩ := next
      cases hreal.symm.trans htarget'
      cases hdirectory.symm.trans hbase
      rfl
    obtain ⟨root, hroot, hreach⟩ := hreached
    exact ⟨⟨root, hroot, hreach.tail ⟨_, hnodes, hname ▸ hnext ▸ List.mem_map_of_mem hfile⟩⟩, hreal, hdirectory⟩

/-- What Compose makes of a text without variables: `$$` stands for `$`. -/
def unescape : List Char → Option (List Char)
  | [] => some []
  | '$' :: '$' :: rest => ('$' :: ·) <$> unescape rest
  | '$' :: _ => none
  | c :: rest => (c :: ·) <$> unescape rest

def oneService (service : Mapping) : Value := .mapping [("services", .mapping [("db", .mapping service)])]

def escapedSources : List (String × Value) := [
  ("/ws/infra/compose.base.yml",
    oneService [("extends", .mapping [("file", .text "db$$.yml"), ("service", .text "db")])]),
  ("/ws/infra/db$$.yml", oneService [("image", .text "postgres:16")]),
  ("/ws/infra/db$.yml", oneService [("env_file", .text "/etc/passwd")])]

def escapedDisk : Disk where
  sha256 := id
  render _ := ""
  resolve := .ok
  readText path := match escapedSources.find? fun source => PurePath.ofText source.1 = path with
    | some source => .ok source.1
    | none => .error (.osError "No such file or directory")
  safeLoad text := match escapedSources.lookup text with
    | some data => .ok data
    | none => .error "no document"
  files := escapedSources.map fun source => .ofText source.1
  readable := by
    intro path text h
    split at h
    · next source hfind =>
      exact List.mem_map.mpr ⟨source, List.mem_of_find?_eq_some hfind, by simpa using List.find?_some hfind⟩
    · cases h
  resolve_join := by
    intro base real path h
    cases h
    rfl

theorem unescape_plain {text : List Char} (h : '$' ∉ text) : unescape text = some text := by
  induction text with
  | nil => rfl
  | cons c rest ih =>
    obtain ⟨hc, hrest⟩ := not_or.mp (mt List.mem_cons.mpr h)
    unfold unescape
    split
    · contradiction
    · next heq => exact absurd (List.cons.inj heq).1.symm (hc ·)
    · next heq => exact absurd (List.cons.inj heq).1.symm (hc ·)
    · next heq =>
      obtain ⟨rfl, rfl⟩ := List.cons.inj heq
      rw [ih hrest]
      rfl

def escapedLoader : Loader escapedDisk where
  interpolate text := (unescape text.toList).map String.ofList
  locate := PurePath.join
  interpolate_plain h := by rw [unescape_plain h, Option.map_some, String.ofList_toList]
  locate_real _ := rfl

theorem source_walk_incomplete : ∃ (disk : Disk) (loader : Loader disk) (workspace selected project : PurePath) (fuel : Nat)
    (seen : List Context), validateSourceTree disk workspace fuel selected project [] = some (.ok seen) ∧
      ∃ loaded, Loads disk loader selected project loaded ∧
        ∀ context, At disk loaded context → context ∉ seen ∧ ¬ Checked disk workspace context := by
  refine ⟨escapedDisk, escapedLoader, .ofText "/ws", .ofText "/ws/infra/compose.base.yml", .ofText "/ws/infra", 3,
    [⟨.ofText "/ws/infra/db$$.yml", .ofText "/ws/infra"⟩, ⟨.ofText "/ws/infra/compose.base.yml", .ofText "/ws/infra"⟩],
    by decide +kernel, ⟨.ofText "/ws/infra/db$.yml", .ofText "/ws/infra"⟩, ?_, ?_⟩
  · have hcontent : escapedDisk.readText (.ofText "/ws/infra/compose.base.yml") = .ok "/ws/infra/compose.base.yml" := by
      decide +kernel
    have hselected : Loads escapedDisk escapedLoader (.ofText "/ws/infra/compose.base.yml") (.ofText "/ws/infra")
        ⟨.ofText "/ws/infra/compose.base.yml", .ofText "/ws/infra"⟩ := .selected rfl hcontent
    have hdata : escapedDisk.safeLoad "/ws/infra/compose.base.yml" =
        .ok (oneService [("extends", .mapping [("file", .text "db$$.yml"), ("service", .text "db")])]) := rfl
    have hfile : "db$$.yml" ∈ extendedFiles
        (oneService [("extends", .mapping [("file", .text "db$$.yml"), ("service", .text "db")])]) := by decide +kernel
    have hread : escapedLoader.interpolate "db$$.yml" = some "db$.yml" := by decide +kernel
    have htext : escapedDisk.readText (escapedLoader.locate (.ofText "/ws/infra") (.ofText "db$.yml")) =
        .ok "/ws/infra/db$.yml" := by decide +kernel
    have hname : escapedLoader.locate (.ofText "/ws/infra") (.ofText "db$.yml") = .ofText "/ws/infra/db$.yml" := by
      decide +kernel
    have hloads := Loads.extended hselected rfl hcontent hdata hfile hread rfl htext
    rw [hname] at hloads
    exact hloads
  · rintro context hat
    obtain ⟨hsource, hbase⟩ := hat
    obtain ⟨source, base⟩ := context
    cases hsource
    cases hbase
    refine ⟨by decide +kernel, ?_⟩
    rintro ⟨content, hcontent, hvalid⟩
    have htext : escapedDisk.readText (.ofText "/ws/infra/db$.yml") = .ok "/ws/infra/db$.yml" := by decide +kernel
    cases htext.symm.trans hcontent
    revert hvalid
    decide +kernel

end Orchestrator.Compose
