import Orchestrator.Async.Readings
import Orchestrator.Projects.Config

/-!
The requests that write projects, their repositories' bots and their applications' statuses, as
they run beside each other, and the scaffolder that reads a configuration and writes it back.
-/

namespace Orchestrator.Projects

open Async Python
open Placement (ApplicationStatus)
open Tasks (ProjectStatus)

inductive RepositoryRole where
  | primary | dependency
deriving DecidableEq

structure RepositoryRow where
  id : String
  projectId : String
  role : RepositoryRole
  botUsername : Option String
deriving DecidableEq

structure Health where
  lastHealthCheck : Option Int
  responseTimeMs : Option Int
  sslExpiresAt : Option Int
  uptimePct24h : Option Float64
deriving DecidableEq

structure ApplicationRow where
  id : Int
  repoId : String
  status : ApplicationStatus
  health : Health
deriving DecidableEq

structure User where
  id : Int
  isAdmin : Bool
deriving DecidableEq

structure Holder where
  id : String
  title : String
  ownerId : Int
deriving DecidableEq

structure Data where
  projects : String → Option ProjectRow
  repositories : List RepositoryRow
  applications : List ApplicationRow
  users : Int → Option User
  projectIds : List String

inductive Key where
  | project (projectId : String)
  | application (applicationId : Int)
deriving DecidableEq

inductive Query where
  | user (telegramId : Int)
  | findProject (projectId : String)
  | lockProject (projectId : String)
  | findRepository (repoId : String)
  | repositoriesOf (projectId : String)
  | primaryRepository (projectId : String)
  | findApplication (applicationId : Int)
  | applicationsOf (repoIds : List String)
  | flushStatus (applicationId : Int)
  | stillUp (projectId : String) (flushed : Option Int)
  | holders (botUsername projectId : String)

def Query.Result : Query → Type
  | .user _ => Option User
  | .findProject _ | .lockProject _ => Option ProjectRow
  | .findRepository _ | .primaryRepository _ => Option RepositoryRow
  | .repositoriesOf _ => List RepositoryRow
  | .findApplication _ => Option ApplicationRow
  | .applicationsOf _ => List ApplicationRow
  | .flushStatus _ => Unit
  | .stillUp .. => Option Int
  | .holders .. => List Holder

structure ProjectChange where
  title : Option String := none
  status : Option ProjectStatus := none
  config : Option Mapping := none
  projectSpec : Option Mapping := none

structure ApplicationChange where
  status : Option ApplicationStatus
  health : Health

inductive Write where
  | create (projectId : String) (row : ProjectRow)
  | change (project : Option (String × ProjectChange)) (repositories : List (String × Option String))
      (applications : List (Int × ApplicationChange))

def ProjectChange.apply (change : ProjectChange) (row : ProjectRow) : ProjectRow where
  title := change.title.getD row.title
  status := change.status.getD row.status
  config := change.config.getD row.config
  projectSpec := change.projectSpec.or row.projectSpec
  ownerId := row.ownerId
  initiatingRunId := row.initiatingRunId

def Health.update (health update : Health) : Health where
  lastHealthCheck := update.lastHealthCheck.or health.lastHealthCheck
  responseTimeMs := update.responseTimeMs.or health.responseTimeMs
  sslExpiresAt := update.sslExpiresAt.or health.sslExpiresAt
  uptimePct24h := update.uptimePct24h.or health.uptimePct24h

def ApplicationChange.apply (change : ApplicationChange) (row : ApplicationRow) : ApplicationRow :=
  { row with status := change.status.getD row.status, health := row.health.update change.health }

namespace Data

def projectOf (d : Data) (repoId : String) : Option String :=
  (d.repositories.find? (·.id == repoId)).map (·.projectId)

def isUp (d : Data) (projectId : String) (flushed : Option Int) (application : ApplicationRow) : Bool :=
  d.projectOf application.repoId == some projectId && application.status != .notDeployed && some application.id != flushed

def holder (d : Data) (botUsername projectId other : String) : Option Holder := do
  let row ← d.projects other
  if other != projectId && row.status != .archived &&
      d.repositories.any fun repo => repo.projectId == other && repo.botUsername == some botUsername
  then some ⟨other, row.title, row.ownerId⟩ else none

def ask (d : Data) : (query : Query) → query.Result
  | .user telegramId => d.users telegramId
  | .findProject projectId | .lockProject projectId => d.projects projectId
  | .findRepository repoId => d.repositories.find? (·.id == repoId)
  | .repositoriesOf projectId => d.repositories.filter (·.projectId == projectId)
  | .primaryRepository projectId => d.repositories.find? fun repo => repo.projectId == projectId && repo.role == .primary
  | .findApplication applicationId => d.applications.find? (·.id == applicationId)
  | .applicationsOf repoIds => d.applications.filter fun application => repoIds.contains application.repoId
  | .flushStatus _ => ()
  | .stillUp projectId flushed => (d.applications.find? (d.isUp projectId flushed)).map (·.id)
  | .holders botUsername projectId => d.projectIds.filterMap (d.holder botUsername projectId)

def changeProject (d : Data) : Option (String × ProjectChange) → Data
  | none => d
  | some (projectId, change) =>
    { d with projects := Function.update d.projects projectId ((d.projects projectId).map change.apply) }

def changeRepositories (d : Data) (changes : List (String × Option String)) : Data :=
  { d with repositories := d.repositories.map fun repo => match changes.lookup repo.id with
    | some botUsername => { repo with botUsername := botUsername }
    | none => repo }

def changeApplications (d : Data) (changes : List (Int × ApplicationChange)) : Data :=
  { d with applications := d.applications.map fun application => match changes.lookup application.id with
    | some change => change.apply application
    | none => application }

def write (d : Data) : Write → Except HTTPException Data
  | .create projectId row => match d.projects projectId with
    | some _ => .error .internalServerError
    | none => .ok { d with
        projects := Function.update d.projects projectId (some row)
        projectIds := d.projectIds ++ [projectId] }
  | .change project repositories applications =>
    .ok (((d.changeProject project).changeRepositories repositories).changeApplications applications)

end Data

def Query.locked : (query : Query) → query.Result → Option Key
  | .lockProject projectId, some _ => some (.project projectId)
  | .flushStatus applicationId, _ => some (.application applicationId)
  | _, _ => none

abbrev schema : Schema where
  Data := Data
  Exn := HTTPException
  Key := Key
  Query := Query
  Result := Query.Result
  answer query d := .ok (d.ask query)
  locked := Query.locked
  Write := Write
  write write d := d.write write

abbrev Handler (A : Type) := Prog schema.interface A

def send (query : Query) : Handler query.Result := schema.query query

def commit (write : Write) : Handler Unit := schema.commit write

structure Caller where
  telegramId : Option Int
  isInternal : Bool

def resolveActor (caller : Caller) : Handler (Option User) :=
  match caller.telegramId with
  | none => if caller.isInternal then .ret none else .raise .authenticationRequired
  | some telegramId => (send (.user telegramId)).bind fun
    | none => .raise (.userNotFound telegramId)
    | some user => .ret (some user)

def checkProjectAccess (project : ProjectRow) (caller : Caller) : Handler Unit :=
  (resolveActor caller).bind fun
    | none => .ret ()
    | some actor => if actor.isAdmin || project.ownerId == actor.id then .ret () else .raise .accessDenied

def loadLockedProject (projectId : String) : Handler ProjectRow :=
  (send (.lockProject projectId)).bind fun
    | none => .raise .projectNotFound
    | some project => .ret project

def getProject (projectId : String) (caller : Caller) : Handler ProjectRow :=
  (send (.findProject projectId)).bind fun
    | none => .raise .projectNotFound
    | some project => do
      checkProjectAccess project caller
      .ret project

def refresh (projectId : String) : Handler ProjectRow :=
  (send (.findProject projectId)).bind fun
    | none => .raise .internalServerError
    | some project => .ret project

inductive TokenRejectionReason where
  | malformed | telegramUnreachable | invalidToken | noUsername | webhookActive | pollerActive
  | boundElsewhere | boundToOwnProject

inductive TelegramTokenVerdict where
  | rejected (reason : TokenRejectionReason) (conflictProjectId : Option String)
  | ok (botUsername : String)

inductive TeardownStatus where
  | pending | completed | failed

structure ProjectTeardownResult where
  status : TeardownStatus
  projectStatus : ProjectStatus
  pendingApplicationIds : List Int
  releasedBotUsername : Option String
  error : Option String

inductive Response where
  | project (row : ProjectRow)
  | keys (keys : List String)
  | botAccess (mode allowedTelegramIds : String)
  | verdict (verdict : TelegramTokenVerdict)
  | application (row : ApplicationRow)
  | teardown (result : ProjectTeardownResult)
  | workspaceDeleted (projectId : String)

structure ProjectCreate where
  id : Option String
  title : String
  status : ProjectStatus
  config : Mapping
  initiatingRunId : String

structure ProjectUpdate where
  title : Option String
  status : Option ProjectStatus
  config : Option Mapping
  projectSpec : Option Mapping

section Handlers

variable (settings : Settings) (iv : Nat)

def insertProject (projectId : String) (projectIn : ProjectCreate) (owner : User) : Handler ProjectRow := do
  let initial ← Prog.ofExcept (initialProjectConfig settings projectIn.config)
  let config ← Prog.ofExcept (vetConfigWrite initial none)
  commit (.create projectId ⟨projectIn.title, projectIn.status, config, none, owner.id, projectIn.initiatingRunId⟩)
  refresh projectId

def requireAbsent : Option String → Handler Unit
  | none => .ret ()
  | some projectId => (send (.findProject projectId)).bind fun
    | none => .ret ()
    | some _ => .raise .projectExists

/-- `generated` is the id of a project that is given none. -/
def createProject (generated : String) (xTelegramId : Option Int) (projectIn : ProjectCreate) : Handler ProjectRow := do
  requireAbsent projectIn.id
  match xTelegramId.filter (· != 0) with
  | none => .raise .telegramIdRequired
  | some telegramId => (send (.user telegramId)).bind fun
    | none => .raise (.userNotFound telegramId)
    | some owner => insertProject settings (projectIn.id.getD generated) projectIn owner

/-- What becomes of a project's hold on its bot: the new configuration, if it changes, and the
repositories that are unbound. -/
structure Release where
  config : Option Mapping
  repositories : List String
  released : Option String

def Release.none : Release := ⟨Option.none, [], Option.none⟩

def Release.unbound (release : Release) : List (String × Option String) :=
  release.repositories.map fun repoId => (repoId, Option.none)

def releaseBotBinding (config : Mapping) (repositories : List RepositoryRow) : Except HTTPException Release := do
  let bound := repositories.filter (·.botUsername.isSome)
  let config ← releasedConfig settings iv config
  .ok ⟨config, bound.map (·.id), (bound.getLast?).bind (·.botUsername)⟩

def releaseBotIfArchived (projectId : String) (project : ProjectRow) : Handler Release :=
  if project.status = .archived then
    (send (.repositoriesOf projectId)).bind fun repositories =>
      Prog.ofExcept (releaseBotBinding settings iv project.config repositories)
  else .ret .none

def ProjectUpdate.revisedConfig (projectIn : ProjectUpdate) (project : ProjectRow) : Except HTTPException Mapping :=
  match projectIn.config with
  | none => .ok project.config
  | some config => vetConfigWrite config (some project)

def ProjectUpdate.revise (projectIn : ProjectUpdate) (project : ProjectRow) : Except HTTPException ProjectRow := do
  let config ← projectIn.revisedConfig project
  .ok { project with
    title := projectIn.title.getD project.title
    status := projectIn.status.getD project.status
    config := config
    projectSpec := projectIn.projectSpec.or project.projectSpec }

def projectWrite (projectId : String) (project : ProjectRow) (release : Release) : Write :=
  .change (some (projectId,
    { title := some project.title
      status := some project.status
      config := some (release.config.getD project.config)
      projectSpec := project.projectSpec })) release.unbound []

def configWrite (projectId : String) (config : Mapping) : Write := .change (some (projectId, { config := some config })) [] []

def writeProject (projectId : String) (caller : Caller) (projectIn : ProjectUpdate) : Handler ProjectRow := do
  let project ← loadLockedProject projectId
  checkProjectAccess project caller
  let project ← Prog.ofExcept (projectIn.revise project)
  let release ← releaseBotIfArchived settings iv projectId project
  commit (projectWrite projectId project release)
  refresh projectId

def updateProject : String → Caller → ProjectUpdate → Handler ProjectRow := writeProject settings iv

def patchProject : String → Caller → ProjectUpdate → Handler ProjectRow := writeProject settings iv

def mergeSecrets (projectId : String) (caller : Caller) (secrets : List (String × String))
    (envHints : Option (List (String × String))) : Handler (List String) := do
  Prog.ofExcept (refuseIf secrets.isEmpty .secretsEmpty)
  Prog.ofExcept (rejectBotTokenWrites secrets)
  Prog.ofExcept (rejectLegacyBotAccessWrites secrets)
  let project ← loadLockedProject projectId
  checkProjectAccess project caller
  let (config, keys) ← Prog.ofExcept (mergeSecretsIntoConfig settings iv secrets envHints project.config)
  commit (configWrite projectId config)
  .ret keys

def setBotAccess (projectId : String) (caller : Caller) (body : BotAccessRequest) : Handler BotAccessRequest := do
  let project ← loadLockedProject projectId
  checkProjectAccess project caller
  let config ← Prog.ofExcept (selectBotAccess settings iv body project.config)
  commit (configWrite projectId config)
  .ret body

def deleteSecret (projectId : String) (caller : Caller) (key : String) : Handler (List String) := do
  let project ← loadLockedProject projectId
  checkProjectAccess project caller
  let (config, keys) ← Prog.ofExcept (deleteSecretFromConfig settings iv key project.config)
  commit (configWrite projectId config)
  .ret keys

def boundElsewhere (ownerId : Int) (botUsername : String) (holders : List Holder) : TelegramTokenVerdict :=
  match holders with
  | [] => .ok botUsername
  | own :: _ =>
    if holders.any (·.ownerId != ownerId) then .rejected .boundElsewhere none
    else .rejected .boundToOwnProject (some own.id)

/-- `telegram` is what Telegram's own layers say of the token: its bot, or why it is refused. -/
def validateTelegramToken (projectId : String) (project : ProjectRow) (token : String)
    (telegram : Except TokenRejectionReason String) : Handler TelegramTokenVerdict :=
  if !looksLikeBotToken token then .ret (.rejected .malformed none)
  else match telegram with
    | .error reason => .ret (.rejected reason none)
    | .ok botUsername => (send (.holders botUsername projectId)).bind fun holders =>
      .ret (boundElsewhere project.ownerId botUsername holders)

def bindingSecrets (token botUsername : String) : List (String × String) :=
  [(telegramTokenKey, String.ofList (strip token.toList)), (telegramUsernameKey, botUsername)]

def bindingHints : List (String × String) :=
  [(telegramTokenKey, "Telegram bot token from @BotFather"),
    (telegramUsernameKey, "Bot username (without @) for building t.me links and smoke tests")]

def bindWrite (projectId : String) (config : Mapping) (repo : RepositoryRow) (botUsername : String) : Write :=
  .change (some (projectId, { config := some config })) [(repo.id, some botUsername)] []

def bindToken (projectId token botUsername : String) (project : ProjectRow) : Handler TelegramTokenVerdict :=
  (send (.primaryRepository projectId)).bind fun
    | none => .raise (.noPrimaryRepository projectId)
    | some repo => do
      let (config, _) ← Prog.ofExcept
        (mergeSecretsIntoConfig settings iv (bindingSecrets token botUsername) (some bindingHints) project.config)
      commit (bindWrite projectId config repo botUsername)
      .ret (.ok botUsername)

def bindTelegramToken (projectId : String) (caller : Caller) (token : String)
    (telegram : Except TokenRejectionReason String) : Handler TelegramTokenVerdict := do
  let project ← loadLockedProject projectId
  checkProjectAccess project caller
  let verdict ← validateTelegramToken projectId project token telegram
  match verdict with
  | .rejected reason conflict => .ret (.rejected reason conflict)
  | .ok botUsername => bindToken settings iv projectId token botUsername project

def flushStatus (applicationId : Int) (changed : Bool) : Handler Unit :=
  if changed then send (.flushStatus applicationId) else .ret ()

def releaseOf : Option ProjectRow → List RepositoryRow → Except HTTPException Release
  | none, _ => .error .internalServerError
  | some project, repositories => releaseBotBinding settings iv project.config repositories

def releaseBotIfUndeployed (application : ApplicationRow) (status : ApplicationStatus) : Handler (String × Release) :=
  if status = .notDeployed then do
    let changed := status != application.status
    flushStatus application.id changed
    (send (.findRepository application.repoId)).bind fun
      | none => .raise .internalServerError
      | some repo => (send (.findProject repo.projectId)).bind fun project =>
        (send (.stillUp repo.projectId (if changed then some application.id else none))).bind fun
          | some _ => .ret (repo.projectId, .none)
          | none => (send (.repositoriesOf repo.projectId)).bind fun repositories =>
            (Prog.ofExcept (releaseOf settings iv project repositories)).bind fun release =>
              .ret (repo.projectId, release)
  else .ret ("", .none)

structure ApplicationUpdate where
  status : Option ApplicationStatus
  health : Health

def ApplicationUpdate.change (update : ApplicationUpdate) (application : ApplicationRow) : ApplicationChange where
  status := update.status.filter (· != application.status)
  health := update.health

def refreshApplication (applicationId : Int) : Handler ApplicationRow :=
  (send (.findApplication applicationId)).bind fun
    | none => .raise .internalServerError
    | some application => .ret application

def applicationWrite (projectId : String) (release : Release) (applicationId : Int) (change : ApplicationChange) : Write :=
  .change (release.config.map fun config => (projectId, { config := some config })) release.unbound [(applicationId, change)]

def releaseFor (application : ApplicationRow) : Option ApplicationStatus → Handler (String × Release)
  | none => .ret ("", .none)
  | some status => releaseBotIfUndeployed settings iv application status

def updateApplication (applicationId : Int) (update : ApplicationUpdate) : Handler ApplicationRow :=
  (send (.findApplication applicationId)).bind fun
    | none => .raise .applicationNotFound
    | some application => do
      let (projectId, release) ← releaseFor settings iv application update.status
      commit (applicationWrite projectId release applicationId (update.change application))
      refreshApplication applicationId

def undeployable : ApplicationStatus → Bool
  | .running | .stopped | .down | .degraded => true
  | _ => false

def goesDown (stalled : Int → Option String) (application : ApplicationRow) : Bool :=
  undeployable application.status || (application.status == .undeploying && (stalled application.id).isSome)

def loadForTeardown (projectId : String) (caller : Caller) :
    Handler (ProjectRow × List RepositoryRow × List ApplicationRow) := do
  let project ← loadLockedProject projectId
  checkProjectAccess project caller
  (send (.repositoriesOf projectId)).bind fun repositories =>
    (send (.applicationsOf (repositories.map (·.id)))).bind fun applications =>
      .ret (project, repositories, applications)

def teardownState (stalled : Int → Option String) (project : ProjectRow) (repositories : List RepositoryRow)
    (applications : List ApplicationRow) (justStaged : List Int) :
    Except HTTPException (ProjectTeardownResult × Option Release) :=
  let pending := (applications.filter (·.status != .notDeployed)).map (·.id)
  match (pending.filter fun id => !justStaged.contains id).findSome? stalled with
  | some error => .ok (⟨.failed, project.status, pending, none, some error⟩, none)
  | none =>
    if pending.isEmpty then
      (releaseBotBinding settings iv project.config repositories).map fun release =>
        (⟨.completed, .archived, [], release.released, none⟩, some release)
    else .ok (⟨.pending, project.status, pending, none, none⟩, none)

def staged (stalled : Int → Option String) (applications : List ApplicationRow) : List ApplicationRow :=
  applications.map fun application => if goesDown stalled application then { application with status := .undeploying } else application

def noHealth : Health := ⟨none, none, none, none⟩

def stagedChanges (stalled : Int → Option String) (applications : List ApplicationRow) : List (Int × ApplicationChange) :=
  (applications.filter fun application => goesDown stalled application && application.status != .undeploying).map
    fun application => (application.id, ⟨some .undeploying, noHealth⟩)

def teardownWrite (projectId : String) (project : ProjectRow) (release : Option Release)
    (changes : List (Int × ApplicationChange)) : Write :=
  match release with
  | none => .change none [] changes
  | some release => .change (some (projectId, { status := some .archived, config := some (release.config.getD project.config) }))
      release.unbound changes

def teardownProject (projectId : String) (caller : Caller) (stalled : Int → Option String) : Handler ProjectTeardownResult := do
  let (project, repositories, applications) ← loadForTeardown projectId caller
  let justStaged := (applications.filter (goesDown stalled)).map (·.id)
  let (state, release) ← Prog.ofExcept
    (teardownState settings iv stalled project repositories (staged stalled applications) justStaged)
  commit (teardownWrite projectId project release (stagedChanges stalled applications))
  .ret state

def getTeardownStatus (projectId : String) (caller : Caller) (stalled : Int → Option String) :
    Handler ProjectTeardownResult := do
  let (project, repositories, applications) ← loadForTeardown projectId caller
  let (state, release) ← Prog.ofExcept (teardownState settings iv stalled project repositories applications [])
  commit (teardownWrite projectId project release [])
  .ret state

inductive Scaffold where
  | success (tree : Value) (serviceTemplate : Option Mapping) (specsSummary : Value)
  | failed (error : Option String)

def stamp (serviceTemplate : Option Mapping) (config : Mapping) : Mapping :=
  match serviceTemplate with
  | some template => setKey config "service_template" (.mapping template)
  | none => config

def Scaffold.config : Scaffold → Mapping → Mapping
  | .success tree serviceTemplate specsSummary, config =>
    let config := setKey config "tree" tree
    let config := setKey config "workspace_ready" (.bool true)
    let config := popKey (stamp serviceTemplate config) "scaffold_error"
    if specsSummary.truthy then setKey config "specs_summary" specsSummary else config
  | .failed error, config =>
    setKey config "scaffold_error" (.text ((error.filter (· ≠ "")).getD "unknown error"))

def scaffolder : Caller := ⟨none, true⟩

def configUpdate (config : Mapping) : ProjectUpdate := ⟨none, none, some config, none⟩

def updateProjectAfterScaffold (projectId : String) (scaffold : Scaffold) : Handler ProjectRow := do
  let project ← getProject projectId scaffolder
  patchProject settings iv projectId scaffolder (configUpdate (scaffold.config project.config))

/-- A configuration without the key is assigned as it was, and no row is written. -/
def clearedWrite (projectId : String) (config : Mapping) : Write :=
  if hasKey config "workspace_ready" then configWrite projectId (popKey config "workspace_ready") else .change none [] []

def notifyWorkspaceDeleted (repoId : String) : Handler String :=
  (send (.findRepository repoId)).bind fun
    | none => .raise (.repositoryNotFound repoId)
    | some repo => (send (.findProject repo.projectId)).bind fun
      | none => .raise (.linkedProjectNotFound repo.projectId)
      | some project => do
        commit (clearedWrite repo.projectId project.config)
        .ret repo.projectId

inductive Request where
  | create (generated : String) (xTelegramId : Option Int) (projectIn : ProjectCreate)
  | update (projectId : String) (caller : Caller) (projectIn : ProjectUpdate)
  | patch (projectId : String) (caller : Caller) (projectIn : ProjectUpdate)
  | mergeSecrets (projectId : String) (caller : Caller) (secrets : List (String × String))
      (envHints : Option (List (String × String)))
  | setBotAccess (projectId : String) (caller : Caller) (body : BotAccessRequest)
  | deleteSecret (projectId : String) (caller : Caller) (key : String)
  | bindTelegramToken (projectId : String) (caller : Caller) (token : String)
      (telegram : Except TokenRejectionReason String)
  | updateApplication (applicationId : Int) (update : ApplicationUpdate)
  | teardown (projectId : String) (caller : Caller) (stalled : Int → Option String)
  | teardownStatus (projectId : String) (caller : Caller) (stalled : Int → Option String)
  | scaffolded (projectId : String) (scaffold : Scaffold)
  | notifyWorkspaceDeleted (repoId : String)

def responding {A : Type} (f : A → Response) (p : Handler A) : Handler Response := p.bind fun a => .ret (f a)

def handler : Request → Handler Response
  | .create generated xTelegramId projectIn => responding .project (createProject settings generated xTelegramId projectIn)
  | .update projectId caller projectIn => responding .project (updateProject settings iv projectId caller projectIn)
  | .patch projectId caller projectIn => responding .project (patchProject settings iv projectId caller projectIn)
  | .mergeSecrets projectId caller secrets envHints =>
      responding .keys (mergeSecrets settings iv projectId caller secrets envHints)
  | .setBotAccess projectId caller body =>
      responding (fun body => .botAccess body.mode body.allowedTelegramIds) (setBotAccess settings iv projectId caller body)
  | .deleteSecret projectId caller key => responding .keys (deleteSecret settings iv projectId caller key)
  | .bindTelegramToken projectId caller token telegram =>
      responding .verdict (bindTelegramToken settings iv projectId caller token telegram)
  | .updateApplication applicationId fields =>
      responding .application (updateApplication settings iv applicationId fields)
  | .teardown projectId caller stalled => responding .teardown (teardownProject settings iv projectId caller stalled)
  | .teardownStatus projectId caller stalled =>
      responding .teardown (getTeardownStatus settings iv projectId caller stalled)
  | .scaffolded projectId scaffold => responding .project (updateProjectAfterScaffold settings iv projectId scaffold)
  | .notifyWorkspaceDeleted repoId => responding .workspaceDeleted (notifyWorkspaceDeleted repoId)

end Handlers

end Orchestrator.Projects
