import Orchestrator.Projects.World

/-!
What each request commits, by the answers it was given.
-/

namespace Orchestrator.Projects

open Async Python
open Placement (ApplicationStatus)

abbrev Reading := Schema.Reading schema

def Read (readings : List Reading) (query : Query) (answer : query.Result) : Prop := (⟨query, answer⟩ : Reading) ∈ readings

section Decisions

variable (settings : Settings) (iv : Nat) (readings : List Reading)

def ReleasesArchived (projectId : String) (project : ProjectRow) (release : Release) : Prop :=
  (project.status ≠ .archived ∧ release = .none) ∨ (project.status = .archived ∧ ∃ repositories,
    Read readings (.repositoriesOf projectId) repositories ∧
      releaseBotBinding settings iv project.config repositories = .ok release)

def WritesProject (projectId : String) (projectIn : ProjectUpdate) (write : Write) : Prop :=
  ∃ project row release, Read readings (.lockProject projectId) (some project) ∧ projectIn.revise project = .ok row ∧
    ReleasesArchived settings iv readings projectId row release ∧ write = projectWrite projectId row release

def WritesConfig {A : Type} (projectId : String) (f : Mapping → Except HTTPException (Mapping × A)) (write : Write) : Prop :=
  ∃ project config a, Read readings (.lockProject projectId) (some project) ∧ f project.config = .ok (config, a) ∧
    write = configWrite projectId config

def ReleasesUndeployed (application : ApplicationRow) (status : ApplicationStatus) (projectId : String) (release : Release) :
    Prop :=
  status = .notDeployed ∧ ∃ repo project repositories, Read readings (.findRepository application.repoId) (some repo) ∧
    projectId = repo.projectId ∧ Read readings (.findProject projectId) (some project) ∧
    Read readings (.stillUp projectId (if status != application.status then some application.id else none)) none ∧
    Read readings (.repositoriesOf projectId) repositories ∧
    releaseBotBinding settings iv project.config repositories = .ok release

def WritesApplication (applicationId : Int) (update : ApplicationUpdate) (write : Write) : Prop :=
  ∃ application projectId release, Read readings (.findApplication applicationId) (some application) ∧
    (release = .none ∨ ∃ status ∈ update.status, ReleasesUndeployed settings iv readings application status projectId release) ∧
    write = applicationWrite projectId release applicationId (update.change application)

def TearsDown (projectId : String) (stalled : Int → Option String)
    (stage : List ApplicationRow → List ApplicationRow × List Int × List (Int × ApplicationChange)) (write : Write) : Prop :=
  ∃ project repositories applications state release, Read readings (.lockProject projectId) (some project) ∧
    Read readings (.repositoriesOf projectId) repositories ∧
    Read readings (.applicationsOf (repositories.map (·.id))) applications ∧
    teardownState settings iv stalled project repositories (stage applications).1 (stage applications).2.1 =
      .ok (state, release) ∧
    write = teardownWrite projectId project release (stage applications).2.2

def Decides : Request → Write → Prop
  | .create _ _ projectIn, write => ∃ projectId initial config owner, initialProjectConfig settings projectIn.config = .ok initial ∧
      vetConfigWrite initial none = .ok config ∧
      write = .create projectId ⟨projectIn.title, projectIn.status, config, none, owner, projectIn.initiatingRunId⟩
  | .update projectId _ projectIn, write => WritesProject settings iv readings projectId projectIn write
  | .patch projectId _ projectIn, write => WritesProject settings iv readings projectId projectIn write
  | .mergeSecrets projectId _ secrets envHints, write => rejectBotTokenWrites secrets = .ok () ∧
      rejectLegacyBotAccessWrites secrets = .ok () ∧
      WritesConfig readings projectId (mergeSecretsIntoConfig settings iv secrets envHints) write
  | .setBotAccess projectId _ body, write =>
      WritesConfig readings projectId (fun config => (selectBotAccess settings iv body config).map (·, ())) write
  | .deleteSecret projectId _ key, write => WritesConfig readings projectId (deleteSecretFromConfig settings iv key) write
  | .bindTelegramToken projectId _ token telegram, write =>
      ∃ project botUsername repo config keys, Read readings (.lockProject projectId) (some project) ∧
        telegram = .ok botUsername ∧ Read readings (.holders botUsername projectId) [] ∧
        Read readings (.primaryRepository projectId) (some repo) ∧
        mergeSecretsIntoConfig settings iv (bindingSecrets token botUsername) (some bindingHints) project.config =
          .ok (config, keys) ∧
        write = bindWrite projectId config repo botUsername
  | .updateApplication applicationId fields, write => WritesApplication settings iv readings applicationId fields write
  | .teardown projectId _ stalled, write => TearsDown settings iv readings projectId stalled (fun applications =>
      (staged stalled applications, (applications.filter (goesDown stalled)).map (·.id), stagedChanges stalled applications)) write
  | .teardownStatus projectId _ stalled, write =>
      TearsDown settings iv readings projectId stalled (fun applications => (applications, [], [])) write
  | .scaffolded projectId scaffold, write => ∃ seen, Read readings (.findProject projectId) (some seen) ∧
      WritesProject settings iv readings projectId (configUpdate (scaffold.config seen.config)) write
  | .notifyWorkspaceDeleted repoId, write => ∃ repo seen, Read readings (.findRepository repoId) (some repo) ∧
      Read readings (.findProject repo.projectId) (some seen) ∧ write = clearedWrite repo.projectId seen.config

end Decisions

section Justification

variable {settings : Settings} {iv : Nat} {A : Type} {decides : List Reading → Write → Prop} {readings : List Reading}

@[simp] theorem justified_send {query : Query} {f : query.Result → Handler A} :
    Schema.Justified decides readings ((send query).bind f) ↔
      ∀ answer, Schema.Justified decides (readings ++ [⟨query, answer⟩]) (f answer) := Schema.justified_query

@[simp] theorem justified_write {write : Write} {f : Unit → Handler A} :
    Schema.Justified decides readings ((commit write).bind f) ↔ decides readings write ∧ Schema.Settled (f ()) :=
  Schema.justified_commit

theorem checkProjectAccess_asks (project : ProjectRow) (caller : Caller) : Schema.Asks (checkProjectAccess project caller) := by
  have hactor : Schema.Asks (resolveActor caller) := by
    unfold resolveActor
    cases caller.telegramId with
    | none => cases caller.isInternal <;> trivial
    | some telegramId =>
      refine Schema.asks_query.mpr fun answer => ?_
      cases answer <;> trivial
  refine hactor.bind fun actor => ?_
  cases actor with
  | none => trivial
  | some actor =>
    dsimp only
    split <;> trivial

theorem refresh_settled (projectId : String) : Schema.Settled (refresh projectId) := by
  refine Schema.settled_query.mpr fun answer => ?_
  cases answer <;> trivial

theorem refreshApplication_settled (applicationId : Int) : Schema.Settled (refreshApplication applicationId) := by
  refine Schema.settled_query.mpr fun answer => ?_
  cases answer <;> trivial

variable {projectId : String}

variable {caller : Caller}

theorem justified_locked {f : ProjectRow → Handler A}
    (h : ∀ project more, Read (readings ++ more) (.lockProject projectId) (some project) →
      Schema.Justified decides (readings ++ more) (f project)) :
    Schema.Justified decides readings ((loadLockedProject projectId).bind fun project =>
      (checkProjectAccess project caller).bind fun _ => f project) := by
  unfold loadLockedProject
  rw [Prog.bind_assoc, justified_send]
  intro answer
  cases answer with
  | none => trivial
  | some project =>
    simp only [Prog.bind_ret]
    refine Schema.Justified.ask (checkProjectAccess_asks project caller) fun _ more => ?_
    rw [List.append_assoc]
    apply h
    simp [Read]

theorem writeProject_justified {projectIn : ProjectUpdate}
    (h : ∀ more write, WritesProject settings iv (readings ++ more) projectId projectIn write → decides (readings ++ more) write) :
    Schema.Justified decides readings (writeProject settings iv projectId caller projectIn) := by
  unfold writeProject
  simp only [Prog.bind_eq]
  refine justified_locked fun project more hproject => ?_
  refine Schema.justified_ofExcept.mpr fun row hrow => ?_
  unfold releaseBotIfArchived
  split
  · rename_i harchived
    rw [Prog.bind_assoc, justified_send]
    intro repositories
    refine Schema.justified_ofExcept.mpr fun release hrelease => ?_
    refine justified_write.mpr ⟨?_, refresh_settled projectId⟩
    rw [List.append_assoc]
    refine h _ _ ⟨project, row, release, ?_, hrow, .inr ⟨harchived, repositories, ?_, hrelease⟩, rfl⟩
    · exact List.append_assoc .. ▸ List.mem_append_left _ hproject
    · simp [Read]
  · rename_i hopen
    exact justified_write.mpr ⟨h _ _ ⟨project, row, .none, hproject, hrow, .inl ⟨hopen, rfl⟩, rfl⟩, refresh_settled projectId⟩

theorem read_append {query : Query} {answer : query.Result} (h : Read readings query answer) (more : List Reading) :
    Read (readings ++ more) query answer := List.mem_append_left _ h

theorem read_last (readings : List Reading) (query : Query) (answer : query.Result) :
    Read (readings ++ [⟨query, answer⟩]) query answer := List.mem_append_right _ (List.mem_singleton.mpr rfl)

theorem createProject_justified {generated : String} {xTelegramId : Option Int} {projectIn : ProjectCreate} :
    Schema.Justified (fun readings write => Decides settings iv readings (.create generated xTelegramId projectIn) write)
      readings (createProject settings generated xTelegramId projectIn) := by
  have habsent : ∀ projectId, Schema.Asks (requireAbsent projectId) := by
    intro projectId
    cases projectId with
    | none => trivial
    | some projectId =>
      refine Schema.asks_query.mpr fun answer => ?_
      cases answer <;> trivial
  unfold createProject
  refine Schema.Justified.ask (habsent _) fun _ more => ?_
  cases xTelegramId.filter (· != 0) with
  | none => trivial
  | some telegramId =>
    refine justified_send.mpr fun answer => ?_
    cases answer with
    | none => trivial
    | some owner =>
      refine Schema.justified_ofExcept.mpr fun initial hinitial => ?_
      refine Schema.justified_ofExcept.mpr fun config hconfig => ?_
      exact justified_write.mpr ⟨⟨_, initial, config, owner.id, hinitial, hconfig, rfl⟩, refresh_settled _⟩

theorem mergeSecrets_justified {secrets : List (String × String)}
    {envHints : Option (List (String × String))} :
    Schema.Justified (fun readings write => Decides settings iv readings (.mergeSecrets projectId caller secrets envHints) write)
      readings (mergeSecrets settings iv projectId caller secrets envHints) := by
  unfold mergeSecrets
  refine Schema.justified_ofExcept.mpr fun _ _ => ?_
  refine Schema.justified_ofExcept.mpr fun _ htoken => ?_
  refine Schema.justified_ofExcept.mpr fun _ hlegacy => ?_
  refine justified_locked fun project more hproject => ?_
  refine Schema.justified_ofExcept.mpr ?_
  rintro ⟨config, keys⟩ hconfig
  exact justified_write.mpr ⟨⟨htoken, hlegacy, project, config, keys, hproject, hconfig, rfl⟩, trivial⟩

theorem setBotAccess_justified {body : BotAccessRequest} :
    Schema.Justified (fun readings write => Decides settings iv readings (.setBotAccess projectId caller body) write)
      readings (setBotAccess settings iv projectId caller body) := by
  unfold setBotAccess
  refine justified_locked fun project more hproject => ?_
  refine Schema.justified_ofExcept.mpr fun config hconfig => ?_
  exact justified_write.mpr ⟨⟨project, config, (), hproject, by dsimp only; rw [hconfig]; rfl, rfl⟩, trivial⟩

theorem deleteSecret_justified {key : String} :
    Schema.Justified (fun readings write => Decides settings iv readings (.deleteSecret projectId caller key) write)
      readings (deleteSecret settings iv projectId caller key) := by
  unfold deleteSecret
  refine justified_locked fun project more hproject => ?_
  refine Schema.justified_ofExcept.mpr ?_
  rintro ⟨config, keys⟩ hconfig
  exact justified_write.mpr ⟨⟨project, config, keys, hproject, hconfig, rfl⟩, trivial⟩

theorem boundElsewhere_ok {ownerId : Int} {botUsername accepted : String} {holders : List Holder}
    (h : boundElsewhere ownerId botUsername holders = .ok accepted) : holders = [] ∧ accepted = botUsername := by
  cases holders with
  | nil => exact ⟨rfl, (TelegramTokenVerdict.ok.inj h).symm⟩
  | cons own rest =>
    simp only [boundElsewhere] at h
    split at h <;> cases h

theorem bindTelegramToken_justified {projectId token : String}
    {telegram : Except TokenRejectionReason String} :
    Schema.Justified (fun readings write => Decides settings iv readings (.bindTelegramToken projectId caller token telegram) write)
      readings (bindTelegramToken settings iv projectId caller token telegram) := by
  unfold bindTelegramToken
  refine justified_locked fun project more hproject => ?_
  unfold validateTelegramToken
  split
  · trivial
  · cases telegram with
    | error reason => trivial
    | ok botUsername =>
      simp only [Prog.bind_eq, Prog.bind_assoc, Prog.bind_ret]
      refine justified_send.mpr fun holders => ?_
      cases hverdict : boundElsewhere project.ownerId botUsername holders with
      | rejected reason conflict => trivial
      | ok accepted =>
        obtain ⟨rfl, rfl⟩ := boundElsewhere_ok hverdict
        unfold bindToken
        refine justified_send.mpr fun answer => ?_
        cases answer with
        | none => trivial
        | some repo =>
          refine Schema.justified_ofExcept.mpr ?_
          rintro ⟨config, keys⟩ hconfig
          refine justified_write.mpr ⟨⟨project, accepted, repo, config, keys, ?_, rfl, ?_, ?_, hconfig, rfl⟩, trivial⟩
          · exact read_append (read_append hproject _) _
          · exact read_append (read_last ..) _
          · exact read_last ..

theorem releaseFor_justified {application : ApplicationRow} {status : Option ApplicationStatus}
    {f : String × Release → Handler A}
    (h : ∀ more projectId release, (release = .none ∨ ∃ new ∈ status,
        ReleasesUndeployed settings iv (readings ++ more) application new projectId release) →
      Schema.Justified decides (readings ++ more) (f (projectId, release))) :
    Schema.Justified decides readings ((releaseFor settings iv application status).bind f) := by
  have hnone : ∀ more projectId, Schema.Justified decides (readings ++ more) (f (projectId, .none)) :=
    fun more projectId => h more projectId .none (.inl rfl)
  cases status with
  | none => simpa [releaseFor] using hnone [] ""
  | some new =>
    unfold releaseFor releaseBotIfUndeployed
    dsimp only
    split
    · rename_i hdown
      have hflush : Schema.Asks (flushStatus application.id (new != application.status)) := by
        unfold flushStatus
        cases new != application.status with
        | true => exact ⟨fun _ => trivial, fun _ => rfl⟩
        | false => trivial
      simp only [Prog.bind_eq, Prog.bind_assoc]
      refine Schema.Justified.ask hflush fun _ flushed => ?_
      refine justified_send.mpr fun repo => ?_
      cases repo with
      | none => trivial
      | some repo =>
        simp only [Prog.bind_assoc]
        refine justified_send.mpr fun project => ?_
        refine justified_send.mpr fun up => ?_
        cases up with
        | some applicationId =>
          simpa only [Prog.bind_ret, List.append_assoc] using hnone _ repo.projectId
        | none =>
          simp only [Prog.bind_assoc]
          refine justified_send.mpr fun repositories => ?_
          refine Schema.justified_ofExcept.mpr fun release hrelease => ?_
          cases project with
          | none => cases hrelease
          | some project =>
            simp only [Prog.bind_ret, List.append_assoc]
            refine h _ _ _ (.inr ⟨new, rfl, hdown, repo, project, repositories, ?_, rfl, ?_, ?_, ?_, hrelease⟩) <;> simp [Read]
    · simpa using hnone [] ""

theorem updateApplication_justified {applicationId : Int} {fields : ApplicationUpdate} :
    Schema.Justified (fun readings write => Decides settings iv readings (.updateApplication applicationId fields) write)
      readings (updateApplication settings iv applicationId fields) := by
  unfold updateApplication
  refine justified_send.mpr fun answer => ?_
  cases answer with
  | none => trivial
  | some application =>
    refine releaseFor_justified fun more projectId release hrelease => ?_
    refine justified_write.mpr ⟨⟨application, projectId, release, ?_, hrelease, rfl⟩, refreshApplication_settled _⟩
    exact read_append (read_last ..) _

theorem loadForTeardown_justified
    {f : ProjectRow × List RepositoryRow × List ApplicationRow → Handler A}
    (h : ∀ more project repositories applications, Read (readings ++ more) (.lockProject projectId) (some project) →
      Read (readings ++ more) (.repositoriesOf projectId) repositories →
      Read (readings ++ more) (.applicationsOf (repositories.map (·.id))) applications →
      Schema.Justified decides (readings ++ more) (f (project, repositories, applications))) :
    Schema.Justified decides readings ((loadForTeardown projectId caller).bind f) := by
  unfold loadForTeardown
  simp only [Prog.bind_eq, Prog.bind_assoc, Prog.bind_ret]
  refine justified_locked fun project more hproject => ?_
  refine justified_send.mpr fun repositories => ?_
  refine justified_send.mpr fun applications => ?_
  simp only [List.append_assoc]
  refine h _ _ _ _ ?_ ?_ ?_
  · simpa only [List.append_assoc] using read_append hproject _
  · simp [Read]
  · simp [Read]

theorem teardownProject_justified {stalled : Int → Option String} :
    Schema.Justified (fun readings write => Decides settings iv readings (.teardown projectId caller stalled) write)
      readings (teardownProject settings iv projectId caller stalled) := by
  unfold teardownProject
  refine loadForTeardown_justified fun more project repositories applications hproject hrepositories happlications => ?_
  refine Schema.justified_ofExcept.mpr ?_
  rintro ⟨state, release⟩ hstate
  exact justified_write.mpr
    ⟨⟨project, repositories, applications, state, release, hproject, hrepositories, happlications, hstate, rfl⟩, trivial⟩

theorem getTeardownStatus_justified {stalled : Int → Option String} :
    Schema.Justified (fun readings write => Decides settings iv readings (.teardownStatus projectId caller stalled) write)
      readings (getTeardownStatus settings iv projectId caller stalled) := by
  unfold getTeardownStatus
  refine loadForTeardown_justified fun more project repositories applications hproject hrepositories happlications => ?_
  refine Schema.justified_ofExcept.mpr ?_
  rintro ⟨state, release⟩ hstate
  exact justified_write.mpr
    ⟨⟨project, repositories, applications, state, release, hproject, hrepositories, happlications, hstate, rfl⟩, trivial⟩

theorem scaffolded_justified {scaffold : Scaffold} :
    Schema.Justified (fun readings write => Decides settings iv readings (.scaffolded projectId scaffold) write)
      readings (updateProjectAfterScaffold settings iv projectId scaffold) := by
  unfold updateProjectAfterScaffold getProject
  simp only [Prog.bind_eq, Prog.bind_assoc]
  refine justified_send.mpr fun answer => ?_
  cases answer with
  | none => trivial
  | some seen =>
    simp only [Prog.bind_assoc, Prog.bind_ret]
    refine Schema.Justified.ask (checkProjectAccess_asks seen scaffolder) fun _ more => ?_
    refine writeProject_justified fun rest write hwrites => ⟨seen, ?_, hwrites⟩
    simp [Read]

theorem notifyWorkspaceDeleted_justified {repoId : String} :
    Schema.Justified (fun readings write => Decides settings iv readings (.notifyWorkspaceDeleted repoId) write)
      readings (notifyWorkspaceDeleted repoId) := by
  unfold notifyWorkspaceDeleted
  refine justified_send.mpr fun answer => ?_
  cases answer with
  | none => trivial
  | some repo =>
    refine justified_send.mpr fun answer => ?_
    cases answer with
    | none => trivial
    | some seen => exact justified_write.mpr ⟨⟨repo, seen, read_append (read_last ..) _, read_last .., rfl⟩, trivial⟩

theorem handler_justified (settings : Settings) (iv : Nat) (request : Request) :
    Schema.Justified (fun readings write => Decides settings iv readings request write) [] (handler settings iv request) := by
  cases request with
  | create generated xTelegramId projectIn => exact createProject_justified.respond
  | mergeSecrets projectId caller secrets envHints => exact mergeSecrets_justified.respond
  | setBotAccess projectId caller body => exact setBotAccess_justified.respond
  | deleteSecret projectId caller key => exact deleteSecret_justified.respond
  | bindTelegramToken projectId caller token telegram => exact bindTelegramToken_justified.respond
  | updateApplication applicationId fields => exact updateApplication_justified.respond
  | teardown projectId caller stalled => exact teardownProject_justified.respond
  | teardownStatus projectId caller stalled => exact getTeardownStatus_justified.respond
  | scaffolded projectId scaffold => exact scaffolded_justified.respond
  | notifyWorkspaceDeleted repoId => exact notifyWorkspaceDeleted_justified.respond
  | _ => exact (writeProject_justified fun _ _ h => h).respond

end Justification

section Locks

variable {T : Type} [DecidableEq T]

def Write.rows : Write → List Key
  | .create .. => []
  | .change project _ applications =>
    (project.toList.map fun change => .project change.1) ++ applications.map fun change => .application change.1

abbrev Tables (T : Type) := Schema.Tables schema T Response

def admitted (s : Tables T) : Move (schema.world T Response) → Prop
  | .call t (.commit write) fate => Schema.unblocked s (.call t (.commit write) fate) ∧
      ∀ key ∈ write.rows, s.locks key = none ∨ s.locks key = some t
  | m => Schema.unblocked s m

instance (s : Tables T) (m : Move (schema.world T Response)) : Decidable (admitted s m) := by
  unfold admitted
  split <;> infer_instance

theorem admitted_unblocked {s : Tables T} {m : Move (schema.world T Response)} (h : admitted s m) : Schema.unblocked s m := by
  cases m with
  | call t statement fate => cases statement with
    | query query => exact h
    | commit write => exact h.1
  | _ => exact h

def steady : Key → Data → Data → Prop
  | .project projectId, d, d' => ∀ row, d.projects projectId = some row → d'.projects projectId = some row
  | .application _, _, _ => True

theorem steady_refl (key : Key) (d : Data) : steady key d d := by
  cases key with
  | project projectId => exact fun _ h => h
  | application applicationId => trivial

theorem steady_trans {key : Key} {d d' d'' : Data} (h : steady key d d') (h' : steady key d' d'') : steady key d d'' := by
  cases key with
  | project projectId => exact fun row hrow => h' row (h row hrow)
  | application applicationId => trivial

variable {d d' : Data} {write : Write} {projectId : String}

theorem changeRepositories_projects (d : Data) (changes : List (String × Option String)) :
    (d.changeRepositories changes).projects = d.projects := rfl

theorem changeApplications_projects (d : Data) (changes : List (Int × ApplicationChange)) :
    (d.changeApplications changes).projects = d.projects := rfl

theorem write_projects {project : Option (String × ProjectChange)} {repositories : List (String × Option String)}
    {applications : List (Int × ApplicationChange)} (h : d.write (.change project repositories applications) = .ok d')
    (projectId : String) : d'.projects projectId = match project with
      | some (changed, change) => if projectId = changed then (d.projects changed).map change.apply else d.projects projectId
      | none => d.projects projectId := by
  cases h
  rw [changeApplications_projects, changeRepositories_projects]
  cases project with
  | none => rfl
  | some project =>
    obtain ⟨changed, change⟩ := project
    simp only [Data.changeProject, Function.update_apply]

theorem write_steady {t : T} {s : Tables T} {fate : Fate HTTPException} (hadm : admitted s (.call t (.commit write) fate))
    (h : d.write write = .ok d') {u : T} (hu : u ≠ t) {key : Key} (hkey : s.locks key = some u) : steady key d d' := by
  cases key with
  | application applicationId => trivial
  | project projectId =>
    intro row hrow
    cases write with
    | create created new =>
      simp only [Data.write] at h
      split at h
      · cases h
      · rename_i hfree
        cases h
        have hne : projectId ≠ created := fun heq => nomatch (heq ▸ hrow).symm.trans hfree
        simpa [Function.update_of_ne hne] using hrow
    | change project repositories applications =>
      rw [write_projects h]
      cases project with
      | none => exact hrow
      | some project =>
        obtain ⟨changed, change⟩ := project
        have hne : projectId ≠ changed := by
          rintro rfl
          have hown := hadm.2 (.project projectId) (by simp [Write.rows])
          rw [hkey] at hown
          rcases hown with hnone | hown
          · cases hnone
          · exact hu (Option.some.inj hown)
        simpa [hne] using hrow

theorem backed_locked {D : Schema.Discipline schema T Response} (hsteady : D.steady = steady) {row : ProjectRow}
    (h : D.Backed d ⟨.lockProject projectId, some row⟩) : d.projects projectId = some row := by
  obtain ⟨before, _, hanswer, hkept⟩ := h
  have hrow : before.projects projectId = some row := Except.ok.inj hanswer
  have hsame := hkept (.project projectId) rfl
  rw [hsteady] at hsame
  exact hsame row hrow

end Locks

end Orchestrator.Projects
