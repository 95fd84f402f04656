import Orchestrator.Projects.Writes

/-!
Who holds a bot: one live project at a time, with the secrets that go with it.
-/

namespace Orchestrator.Projects

open Async Python
open Placement (ApplicationStatus)

def HoldsBot (d : Data) (projectId botUsername : String) : Prop :=
  ∃ repo ∈ d.repositories, repo.projectId = projectId ∧ repo.botUsername = some botUsername

def Data.primary (d : Data) (projectId : String) : Option RepositoryRow :=
  d.repositories.find? fun repo => repo.projectId == projectId && repo.role == .primary

def botOf (d : Data) (projectId : String) : Option String := (d.primary projectId).bind (·.botUsername)

def SecretsName (settings : Settings) (config : Mapping) (botUsername : String) : Prop :=
  readKey settings config (.secret telegramTokenKey) ≠ .none ∧
    readKey settings config (.secret telegramUsernameKey) = .text botUsername

structure Bound (settings : Settings) (d : Data) : Prop where
  exclusive : ∀ p p' row row' botUsername, d.projects p = some row → row.status ≠ .archived →
    d.projects p' = some row' → row'.status ≠ .archived → HoldsBot d p botUsername → HoldsBot d p' botUsername → p = p'
  coherent : ∀ p row botUsername, d.projects p = some row → (botOf d p = some botUsername ↔ SecretsName settings row.config botUsername)
  archived : ∀ p row botUsername, d.projects p = some row → row.status = .archived → ¬ HoldsBot d p botUsername
  listed : ∀ p row, d.projects p = some row → p ∈ d.projectIds
  owned : ∀ repo ∈ d.repositories, (d.projects repo.projectId).isSome = true
  ids : (d.repositories.map (·.id)).Nodup

section Rows

variable {settings : Settings} {d d' : Data} {projectId botUsername : String}

theorem holds_of_botOf (h : botOf d projectId = some botUsername) : HoldsBot d projectId botUsername := by
  unfold botOf Data.primary at h
  obtain ⟨repo, hfound, hbot⟩ := Option.bind_eq_some_iff.mp h
  have hproject := List.find?_some hfound
  simp only [Bool.and_eq_true, beq_iff_eq] at hproject
  exact ⟨repo, List.mem_of_find?_eq_some hfound, hproject.1, hbot⟩

def renamed (name : RepositoryRow → Option String) (repositories : List RepositoryRow) : List RepositoryRow :=
  repositories.map fun repo => { repo with botUsername := name repo }

variable {name : RepositoryRow → Option String}

section

variable (h : d'.repositories = renamed name d.repositories)

include h

theorem holds_renamed :
    HoldsBot d' projectId botUsername ↔ ∃ repo ∈ d.repositories, repo.projectId = projectId ∧ name repo = some botUsername := by
  unfold HoldsBot
  rw [h]
  constructor
  · rintro ⟨_, hmem, hproject, hbot⟩
    obtain ⟨repo, hrepo, rfl⟩ := List.mem_map.mp hmem
    exact ⟨repo, hrepo, hproject, hbot⟩
  · rintro ⟨repo, hrepo, hproject, hbot⟩
    exact ⟨_, List.mem_map.mpr ⟨repo, hrepo, rfl⟩, hproject, hbot⟩

theorem botOf_renamed (projectId : String) :
    botOf d' projectId = (d.primary projectId).bind name := by
  unfold botOf Data.primary renamed at *
  rw [h, List.find?_map]
  cases hfound : d.repositories.find? ((fun repo => repo.projectId == projectId && repo.role == .primary) ∘
      fun repo : RepositoryRow => { repo with botUsername := name repo }) with
  | none =>
    have hnone : d.repositories.find? (fun repo => repo.projectId == projectId && repo.role == .primary) = none := hfound
    rw [hnone]
    rfl
  | some repo =>
    have hsome : d.repositories.find? (fun repo => repo.projectId == projectId && repo.role == .primary) = some repo := hfound
    rw [hsome]
    rfl

theorem ids_renamed :
    d'.repositories.map (·.id) = d.repositories.map (·.id) := by
  rw [h, renamed, List.map_map]
  rfl

end

theorem botOf_congr (h : d'.repositories = d.repositories) (projectId : String) : botOf d' projectId = botOf d projectId := by
  unfold botOf Data.primary
  rw [h]

variable {repo : RepositoryRow}

theorem primary_project (h : d.primary projectId = some repo) :
    repo ∈ d.repositories ∧ repo.projectId = projectId := by
  have hfound := List.find?_some h
  simp only [Bool.and_eq_true, beq_iff_eq] at hfound
  exact ⟨List.mem_of_find?_eq_some h, hfound.1⟩

def unbound (projectId : String) (repo : RepositoryRow) : Option String :=
  if repo.projectId = projectId then none else repo.botUsername

theorem botOf_unbound (h : d'.repositories = renamed (unbound projectId) d.repositories) (other : String) :
    botOf d' other = if other = projectId then none else botOf d other := by
  rw [botOf_renamed h]
  unfold botOf
  cases hprimary : d.primary other with
  | none => split <;> rfl
  | some repo => simp only [Option.bind_some, unbound, (primary_project hprimary).2]

theorem same_id (hids : (d.repositories.map (·.id)).Nodup) {repo repo' : RepositoryRow} (hrepo : repo ∈ d.repositories)
    (hrepo' : repo' ∈ d.repositories) (h : repo.id = repo'.id) : repo = repo' :=
  List.inj_on_of_nodup_map hids hrepo hrepo' h

def boundTo (repo : RepositoryRow) (botUsername : String) (other : RepositoryRow) : Option String :=
  if other.id = repo.id then some botUsername else other.botUsername

theorem botOf_boundTo (hids : (d.repositories.map (·.id)).Nodup) (hprimary : d.primary projectId = some repo)
    (h : d'.repositories = renamed (boundTo repo botUsername) d.repositories) (other : String) :
    botOf d' other = if other = projectId then some botUsername else botOf d other := by
  rw [botOf_renamed h]
  by_cases hother : other = projectId
  · rw [if_pos hother, hother, hprimary]
    simp [boundTo]
  · rw [if_neg hother]
    unfold botOf
    cases hfound : d.primary other with
    | none => rfl
    | some found =>
      obtain ⟨hmem, hproject⟩ := primary_project hfound
      have hne : found.id ≠ repo.id := by
        intro hid
        rw [same_id hids hmem (primary_project hprimary).1 hid, (primary_project hprimary).2] at hproject
        exact hother hproject.symm
      simp [boundTo, hne]

theorem Bound.keep (h : Bound settings d) (hrepositories : d'.repositories = d.repositories)
    (hlisted : ∀ p row, d'.projects p = some row → p ∈ d'.projectIds)
    (hsome : ∀ p, (d.projects p).isSome = true → (d'.projects p).isSome = true)
    (hrows : ∀ p row', d'.projects p = some row' →
      (∃ row, d.projects p = some row ∧ (row'.status = .archived → row.status = .archived) ∧
        ∀ botUsername, SecretsName settings row'.config botUsername ↔ SecretsName settings row.config botUsername) ∨
      (d.projects p = none ∧ ∀ botUsername, ¬ SecretsName settings row'.config botUsername)) : Bound settings d' := by
  have hholds : ∀ p botUsername, HoldsBot d' p botUsername ↔ HoldsBot d p botUsername := by
    intro p botUsername
    unfold HoldsBot
    rw [hrepositories]
  have hunowned : ∀ p botUsername, d.projects p = none → ¬ HoldsBot d p botUsername := by
    rintro p botUsername hnone ⟨repo, hrepo, rfl, _⟩
    have hrow := h.owned repo hrepo
    rw [hnone] at hrow
    cases hrow
  have hlive : ∀ p row' botUsername, d'.projects p = some row' → HoldsBot d p botUsername →
      ∃ row, d.projects p = some row ∧ row.status ≠ .archived := by
    intro p row' botUsername hrow' hheld
    rcases hrows p row' hrow' with ⟨row, hrow, _, _⟩ | ⟨hnone, _⟩
    · exact ⟨row, hrow, fun harchived => h.archived p row botUsername hrow harchived hheld⟩
    · exact absurd hheld (hunowned p botUsername hnone)
  refine ⟨?_, ?_, ?_, hlisted, ?_, ?_⟩
  · intro p p' row row' botUsername hrow _ hrow' _ hp hp'
    rw [hholds] at hp hp'
    obtain ⟨old, hold, hopen⟩ := hlive p row botUsername hrow hp
    obtain ⟨old', hold', hopen'⟩ := hlive p' row' botUsername hrow' hp'
    exact h.exclusive p p' old old' botUsername hold hopen hold' hopen' hp hp'
  · intro p row' botUsername hrow'
    rw [botOf_congr hrepositories]
    rcases hrows p row' hrow' with ⟨row, hrow, _, hsame⟩ | ⟨hnone, hfree⟩
    · exact (h.coherent p row botUsername hrow).trans (hsame botUsername).symm
    · constructor
      · intro hbound
        exact absurd (holds_of_botOf hbound) (hunowned p botUsername hnone)
      · intro hnamed
        exact absurd hnamed (hfree botUsername)
  · intro p row' botUsername hrow' harchived hheld
    rw [hholds] at hheld
    rcases hrows p row' hrow' with ⟨row, hrow, hstatus, _⟩ | ⟨hnone, _⟩
    · exact h.archived p row botUsername hrow (hstatus harchived) hheld
    · exact hunowned p botUsername hnone hheld
  · intro repo hrepo
    rw [hrepositories] at hrepo
    exact hsome _ (h.owned repo hrepo)
  · rw [hrepositories]
    exact h.ids

theorem Bound.release (h : Bound settings d)
    (hrepositories : d'.repositories = renamed (unbound projectId) d.repositories)
    (hlisted : ∀ p row, d'.projects p = some row → p ∈ d'.projectIds)
    (hsome : ∀ p, (d.projects p).isSome = true → (d'.projects p).isSome = true)
    (hrows : ∀ p row', d'.projects p = some row' → ∃ row, d.projects p = some row ∧
      (p ≠ projectId → row' = row) ∧ (p = projectId → ∀ botUsername, ¬ SecretsName settings row'.config botUsername)) :
    Bound settings d' := by
  have hholds : ∀ p botUsername, HoldsBot d' p botUsername ↔ p ≠ projectId ∧ HoldsBot d p botUsername := by
    intro p botUsername
    rw [holds_renamed hrepositories]
    constructor
    · rintro ⟨repo, hrepo, rfl, hbot⟩
      unfold unbound at hbot
      split at hbot
      · cases hbot
      · rename_i hne
        exact ⟨hne, repo, hrepo, rfl, hbot⟩
    · rintro ⟨hne, repo, hrepo, rfl, hbot⟩
      exact ⟨repo, hrepo, rfl, by rw [unbound, if_neg hne, hbot]⟩
  refine ⟨?_, ?_, ?_, hlisted, ?_, ?_⟩
  · intro p p' row row' botUsername hrow hopen hrow' hopen' hp hp'
    obtain ⟨hne, hp⟩ := (hholds p botUsername).mp hp
    obtain ⟨hne', hp'⟩ := (hholds p' botUsername).mp hp'
    obtain ⟨old, hold, hsame, _⟩ := hrows p row hrow
    obtain ⟨old', hold', hsame', _⟩ := hrows p' row' hrow'
    exact h.exclusive p p' old old' botUsername hold (hsame hne ▸ hopen) hold' (hsame' hne' ▸ hopen') hp hp'
  · intro p row' botUsername hrow'
    obtain ⟨row, hrow, hsame, hfree⟩ := hrows p row' hrow'
    rw [botOf_unbound hrepositories]
    by_cases hp : p = projectId
    · rw [if_pos hp]
      constructor
      · intro hbound
        cases hbound
      · intro hnamed
        exact absurd hnamed (hfree hp botUsername)
    · rw [if_neg hp, hsame hp]
      exact h.coherent p row botUsername hrow
  · intro p row' botUsername hrow' harchived hheld
    obtain ⟨hne, hheld⟩ := (hholds p botUsername).mp hheld
    obtain ⟨row, hrow, hsame, _⟩ := hrows p row' hrow'
    exact h.archived p row botUsername hrow (hsame hne ▸ harchived) hheld
  · intro repo hrepo
    rw [hrepositories] at hrepo
    obtain ⟨old, hold, rfl⟩ := List.mem_map.mp hrepo
    exact hsome _ (h.owned old hold)
  · rw [ids_renamed hrepositories]
    exact h.ids

theorem Bound.bind (h : Bound settings d) (hprimary : d.primary projectId = some repo)
    (hrepositories : d'.repositories = renamed (boundTo repo botUsername) d.repositories)
    (hlisted : ∀ p row, d'.projects p = some row → p ∈ d'.projectIds)
    (hsome : ∀ p, (d.projects p).isSome = true → (d'.projects p).isSome = true)
    (hfree : ∀ p row, p ≠ projectId → d.projects p = some row → row.status ≠ .archived → ¬ HoldsBot d p botUsername)
    (hrows : ∀ p row', d'.projects p = some row' → ∃ row, d.projects p = some row ∧ (p ≠ projectId → row' = row) ∧
      (p = projectId → row'.status ≠ .archived ∧ row.status ≠ .archived ∧
        ∀ other, SecretsName settings row'.config other ↔ other = botUsername)) :
    Bound settings d' := by
  obtain ⟨hmem, hproject⟩ := primary_project hprimary
  have hholds : ∀ p other, HoldsBot d' p other → (p = projectId ∧ other = botUsername) ∨ HoldsBot d p other := by
    intro p other hheld
    obtain ⟨held, hmem', rfl, hbot⟩ := (holds_renamed hrepositories).mp hheld
    unfold boundTo at hbot
    split at hbot
    · rename_i hid
      rw [same_id h.ids hmem' hmem hid]
      exact .inl ⟨hproject, (Option.some.inj hbot).symm⟩
    · exact .inr ⟨held, hmem', rfl, hbot⟩
  have hopen : ∀ p row', d'.projects p = some row' → row'.status ≠ .archived →
      ∃ row, d.projects p = some row ∧ row.status ≠ .archived := by
    intro p row' hrow' hlive
    obtain ⟨row, hrow, hsame, hown⟩ := hrows p row' hrow'
    by_cases hp : p = projectId
    · exact ⟨row, hrow, (hown hp).2.1⟩
    · exact ⟨row, hrow, hsame hp ▸ hlive⟩
  refine ⟨?_, ?_, ?_, hlisted, ?_, ?_⟩
  · intro p p' row row' other hrow hlive hrow' hlive' hp hp'
    obtain ⟨old, hold, hold'⟩ := hopen p row hrow hlive
    obtain ⟨old', holdrow', hold''⟩ := hopen p' row' hrow' hlive'
    rcases hholds p other hp with ⟨rfl, rfl⟩ | hp
    · rcases hholds p' other hp' with ⟨rfl, _⟩ | hp'
      · rfl
      · by_contra hne
        exact hfree p' old' (Ne.symm hne) holdrow' hold'' hp'
    · rcases hholds p' other hp' with ⟨rfl, rfl⟩ | hp'
      · by_contra hne
        exact hfree p old hne hold hold' hp
      · exact h.exclusive p p' old old' other hold hold' holdrow' hold'' hp hp'
  · intro p row' other hrow'
    obtain ⟨row, hrow, hsame, hown⟩ := hrows p row' hrow'
    rw [botOf_boundTo h.ids hprimary hrepositories]
    by_cases hp : p = projectId
    · rw [if_pos hp, (hown hp).2.2]
      constructor
      · intro heq
        exact (Option.some.inj heq).symm
      · rintro rfl
        rfl
    · rw [if_neg hp, hsame hp]
      exact h.coherent p row other hrow
  · intro p row' other hrow' harchived hheld
    obtain ⟨row, hrow, hsame, hown⟩ := hrows p row' hrow'
    by_cases hp : p = projectId
    · exact (hown hp).1 harchived
    · rcases hholds p other hheld with ⟨heq, _⟩ | hheld
      · exact hp heq
      · exact h.archived p row other hrow (hsame hp ▸ harchived) hheld
  · intro other hother
    rw [hrepositories] at hother
    obtain ⟨old, hold, rfl⟩ := List.mem_map.mp hother
    exact hsome _ (h.owned old hold)
  · rw [ids_renamed hrepositories]
    exact h.ids

end Rows

section Configs

variable {settings : Settings} {iv : Nat} {config config' : Mapping} {botUsername : String}

theorem secretsName_congr (h : ∀ c, c.ofBot = true → readKey settings config' c = readKey settings config c) :
    SecretsName settings config' botUsername ↔ SecretsName settings config botUsername := by
  unfold SecretsName
  rw [h (.secret telegramTokenKey) rfl, h (.secret telegramUsernameKey) rfl]

theorem ofBot_secret {c : ConfigKey} (h : c.ofBot = true) :
    c = .secret telegramTokenKey ∨ c = .secret telegramUsernameKey := by
  simpa [ConfigKey.ofBot] using h

theorem not_secretsName_of_token (h : readKey settings config (.secret telegramTokenKey) = .none) :
    ¬ SecretsName settings config botUsername :=
  fun hnames => hnames.1 h

theorem readKey_secret {secrets : Mapping} (h : existingSecrets settings config = .ok secrets) (key : String) :
    readKey settings config (.secret key) = valueAt secrets key := by
  simp only [readKey, h]

theorem released_token (hciphers : settings.Ciphers) {repositories : List RepositoryRow} {release : Release}
    (h : releaseBotBinding settings iv config repositories = .ok release) :
    readKey settings (release.config.getD config) (.secret telegramTokenKey) = .none := by
  unfold releaseBotBinding at h
  obtain ⟨released, hreleased, h⟩ := bind_eq_ok.mp h
  cases h
  unfold releasedConfig at hreleased
  obtain ⟨secrets, hsecrets, hreleased⟩ := bind_eq_ok.mp hreleased
  split at hreleased
  · obtain ⟨blob, hblob, hreleased⟩ := bind_eq_ok.mp hreleased
    cases hreleased
    rw [Option.getD_some, readKey_secret (existingSecrets_setKey hciphers hblob), valueAt_popKey_of_ne _ (by decide),
      valueAt_popKey_self]
  · rename_i hneither
    cases hreleased
    rw [Option.getD_none, readKey_secret hsecrets]
    have hnone : secrets.lookup telegramTokenKey = none := by
      simp only [hasKey, Bool.or_eq_true, not_or, Bool.not_eq_true, Option.isSome_eq_false_iff, Option.isNone_iff_eq_none] at hneither
      exact hneither.1
    unfold valueAt
    rw [hnone]
    rfl

theorem merged_names (hciphers : settings.Ciphers) {token other : String} {keys : List String}
    (h : mergeSecretsIntoConfig settings iv (bindingSecrets token botUsername) (some bindingHints) config = .ok (config', keys)) :
    SecretsName settings config' other ↔ other = botUsername := by
  unfold mergeSecretsIntoConfig at h
  obtain ⟨existing, hexisting, h⟩ := bind_eq_ok.mp h
  obtain ⟨blob, hblob, h⟩ := bind_eq_ok.mp h
  obtain ⟨hinted, hhints, h⟩ := bind_eq_ok.mp h
  cases h
  have hread : ∀ key, readKey settings config' (.secret key) =
      valueAt (updateKeys existing (texts (bindingSecrets token botUsername))) key := by
    intro key
    rw [mergeHints_others (c := .secret key) hhints (by rintro _ ⟨⟩) (by rintro ⟨⟩), readKey_secret (existingSecrets_setKey hciphers hblob)]
  have hgiven : ∀ key value, (texts (bindingSecrets token botUsername)).lookup key = some value →
      readKey settings config' (.secret key) = value := by
    intro key value hvalue
    rw [hread, valueAt, lookup_updateKeys, hvalue]
    rfl
  unfold SecretsName
  rw [hgiven telegramTokenKey _ rfl, hgiven telegramUsernameKey (.text botUsername) rfl]
  simp [eq_comm]

theorem initial_unnamed (h : vetConfigWrite config none = .ok config') : ¬ SecretsName settings config' botUsername := by
  apply not_secretsName_of_token
  exact vet_others (c := .secret telegramTokenKey) h rfl

end Configs

section Tables

variable {settings : Settings} {iv : Nat} {d d' : Data} {projectId botUsername : String}
variable {project : Option (String × ProjectChange)} {repositories : List (String × Option String)}
variable {applications : List (Int × ApplicationChange)}

theorem write_projectIds (h : d.write (.change project repositories applications) = .ok d') : d'.projectIds = d.projectIds := by
  cases h
  cases project <;> rfl

theorem write_repositories (h : d.write (.change project repositories applications) = .ok d') :
    d'.repositories = renamed (fun repo => (repositories.lookup repo.id).getD repo.botUsername) d.repositories := by
  cases h
  have hproject : (d.changeProject project).repositories = d.repositories := by cases project <;> rfl
  unfold renamed
  simp only [Data.changeApplications, Data.changeRepositories, hproject]
  apply List.map_congr_left
  intro repo _
  cases repositories.lookup repo.id <;> rfl

theorem write_unchanged (h : d.write (.change project [] applications) = .ok d') : d'.repositories = d.repositories := by
  rw [write_repositories h]
  exact List.map_id' _

theorem lookup_unbound (release : Release) (repoId : String) :
    release.unbound.lookup repoId = if repoId ∈ release.repositories then some none else none := by
  unfold Release.unbound
  induction release.repositories with
  | nil => rfl
  | cons first rest ih =>
    by_cases h : repoId = first
    · simp [h]
    · have hne : (repoId == first) = false := by simpa using h
      simp only [List.map_cons, List.lookup_cons, hne, ih, List.mem_cons, h, false_or]

theorem write_released (hids : (d.repositories.map (·.id)).Nodup) {config : Mapping} {release : Release}
    (hrelease : releaseBotBinding settings iv config (d.ask (.repositoriesOf projectId)) = .ok release)
    (h : d.write (.change project release.unbound applications) = .ok d') :
    d'.repositories = renamed (unbound projectId) d.repositories := by
  rw [write_repositories h]
  apply List.map_congr_left
  intro repo hrepo
  have hlisted : repo.id ∈ release.repositories ↔ repo.projectId = projectId ∧ repo.botUsername.isSome = true := by
    unfold releaseBotBinding at hrelease
    obtain ⟨_, _, hrelease⟩ := bind_eq_ok.mp hrelease
    cases hrelease
    simp only [Data.ask, List.mem_map, List.mem_filter, beq_iff_eq]
    constructor
    · rintro ⟨bound, ⟨⟨hmem, hproject⟩, hsome⟩, hid⟩
      rw [← same_id hids hmem hrepo hid]
      exact ⟨hproject, hsome⟩
    · rintro ⟨hproject, hsome⟩
      exact ⟨repo, ⟨⟨hrepo, hproject⟩, hsome⟩, rfl⟩
  dsimp only
  rw [lookup_unbound, unbound]
  by_cases hproject : repo.projectId = projectId
  · rw [if_pos hproject]
    cases hbot : repo.botUsername with
    | none => split <;> simp
    | some held =>
      rw [if_pos (hlisted.mpr ⟨hproject, by rw [hbot]; rfl⟩)]
      rfl
  · rw [if_neg hproject, if_neg fun hmem => hproject (hlisted.mp hmem).1]
    rfl

theorem write_bound {repo : RepositoryRow} (h : d.write (.change project [(repo.id, some botUsername)] applications) = .ok d') :
    d'.repositories = renamed (boundTo repo botUsername) d.repositories := by
  rw [write_repositories h]
  apply List.map_congr_left
  intro other _
  unfold boundTo
  by_cases hid : other.id = repo.id
  · simp [hid]
  · have hne : (other.id == repo.id) = false := by simpa using hid
    simp [List.lookup_cons, hne, hid]

theorem change_row (h : d.write (.change project repositories applications) = .ok d') {row' : ProjectRow}
    (hrow' : d'.projects projectId = some row') : ∃ row, d.projects projectId = some row ∧
      ((∃ change, project = some (projectId, change) ∧ row' = change.apply row) ∨
        ((∀ change, project ≠ some (projectId, change)) ∧ row' = row)) := by
  rw [write_projects h] at hrow'
  cases project with
  | none => exact ⟨row', hrow', .inr ⟨nofun, rfl⟩⟩
  | some project =>
    obtain ⟨changed, change⟩ := project
    dsimp only at hrow'
    split at hrow'
    · rename_i heq
      subst heq
      obtain ⟨row, hrow, rfl⟩ := Option.map_eq_some_iff.mp hrow'
      exact ⟨row, hrow, .inl ⟨change, rfl, rfl⟩⟩
    · rename_i hne
      refine ⟨row', hrow', .inr ⟨?_, rfl⟩⟩
      rintro _ ⟨⟩
      exact hne rfl

theorem change_some (h : d.write (.change project repositories applications) = .ok d') (projectId : String)
    (hsome : (d.projects projectId).isSome = true) : (d'.projects projectId).isSome = true := by
  rw [write_projects h]
  cases project with
  | none => exact hsome
  | some project =>
    dsimp only
    split
    · rename_i heq
      subst heq
      simpa using hsome
    · exact hsome

theorem Bound.change_listed (hbound : Bound settings d) (h : d.write (.change project repositories applications) = .ok d')
    (projectId : String) (row' : ProjectRow) (hrow' : d'.projects projectId = some row') : projectId ∈ d'.projectIds := by
  obtain ⟨row, hrow, _⟩ := change_row h hrow'
  rw [write_projectIds h]
  exact hbound.listed projectId row hrow

theorem Bound.releases_change (hbound : Bound settings d) {config : Mapping} {release : Release}
    (hrelease : releaseBotBinding settings iv config (d.ask (.repositoriesOf projectId)) = .ok release)
    (h : d.write (.change project release.unbound applications) = .ok d')
    (hproject : ∀ changed change, project = some (changed, change) → changed = projectId)
    (htoken : ∀ row', d'.projects projectId = some row' → readKey settings row'.config (.secret telegramTokenKey) = .none) :
    Bound settings d' := by
  apply hbound.release (write_released hbound.ids hrelease h) (hbound.change_listed h) (change_some h)
  intro p row' hrow'
  obtain ⟨row, hrow, hcases⟩ := change_row h hrow'
  refine ⟨row, hrow, ?_, ?_⟩
  · intro hne
    rcases hcases with ⟨change, hchange, _⟩ | ⟨_, hsame⟩
    · exact absurd (hproject p change hchange) hne
    · exact hsame
  · rintro rfl botUsername
    exact not_secretsName_of_token (htoken row' hrow')

end Tables

def Request.Archives : Request → String → Prop
  | .update named _ projectIn, projectId | .patch named _ projectIn, projectId =>
      projectId = named ∧ projectIn.status = some .archived
  | _, _ => False

def Data.Down (d : Data) (projectId : String) : Prop :=
  ∀ application ∈ d.applications, d.projectOf application.repoId = some projectId → application.status = .notDeployed

def ReleasesDown (request : Request) (d d' : Data) : Prop :=
  ∀ projectId botUsername, botOf d projectId = some botUsername → botOf d' projectId = none →
    request.Archives projectId ∨ d'.Down projectId

def Tidy (d : Data) : Request → Prop
  | .mergeSecrets _ _ secrets _ => hasKey (texts secrets) telegramUsernameKey = false
  | .deleteSecret _ _ key => (ConfigKey.secret key).ofBot = false
  | .bindTelegramToken projectId .. => ∀ row ∈ d.projects projectId, row.status ≠ .archived
  | _ => True

def Request.relies : Request → Query → Bool
  | .scaffolded .., .findProject _ => false
  | _, _ => true

def Fresh (request : Request) (readings : List Reading) (d : Data) : Prop :=
  ∀ reading ∈ readings, request.relies reading.1 = true → d.ask reading.1 = reading.2

section Commits

variable {settings : Settings} {iv : Nat} {d d' : Data} {readings : List Reading} {request : Request} {write : Write}
variable {projectId : String}

theorem releasesDown_of_botOf (h : ∀ projectId, botOf d' projectId = botOf d projectId) : ReleasesDown request d d' := by
  intro projectId botUsername hbefore hafter
  rw [h, hbefore] at hafter
  cases hafter

theorem releasesDown_of_unbound (h : d'.repositories = renamed (unbound projectId) d.repositories)
    (hdown : botOf d projectId ≠ none → request.Archives projectId ∨ d'.Down projectId) : ReleasesDown request d d' := by
  intro other botUsername hbefore hafter
  rw [botOf_unbound h] at hafter
  split at hafter
  · rename_i heq
    subst heq
    apply hdown
    rw [hbefore]
    nofun
  · rw [hbefore] at hafter
    cases hafter

theorem keeps_bound {project : Option (String × ProjectChange)} {applications : List (Int × ApplicationChange)}
    (hbound : Bound settings d) (h : d.write (.change project [] applications) = .ok d')
    (hproject : ∀ changed change row, project = some (changed, change) → d.projects changed = some row →
      ((change.apply row).status = .archived → row.status = .archived) ∧
        ∀ c : ConfigKey, c.ofBot = true → readKey settings (change.apply row).config c = readKey settings row.config c) :
    Bound settings d' ∧ ReleasesDown request d d' := by
  refine ⟨hbound.keep (write_unchanged h) (hbound.change_listed h) (change_some h) ?_,
    releasesDown_of_botOf (botOf_congr (write_unchanged h))⟩
  intro p row' hrow'
  left
  obtain ⟨row, hrow, ⟨change, hchange, rfl⟩ | ⟨_, rfl⟩⟩ := change_row h hrow'
  · obtain ⟨hstatus, hkeys⟩ := hproject p change row hchange hrow
    exact ⟨row, hrow, hstatus, fun _ => secretsName_congr hkeys⟩
  · exact ⟨row', hrow, id, fun _ => Iff.rfl⟩

theorem Fresh.read (h : Fresh request readings d) {query : Query} {answer : query.Result} (hread : Read readings query answer)
    (hrelies : request.relies query = true) : d.ask query = answer := h _ hread hrelies

theorem archived_unheld (hbound : Bound settings d) {row : ProjectRow} (hrow : d.projects projectId = some row)
    (harchived : row.status = .archived) : botOf d projectId = none := by
  cases hbot : botOf d projectId with
  | none => rfl
  | some botUsername => exact absurd (holds_of_botOf hbot) (hbound.archived projectId row botUsername hrow harchived)

theorem revise_secrets {projectIn : ProjectUpdate} {row row' : ProjectRow} (h : projectIn.revise row = .ok row') {c : ConfigKey}
    (hc : c.ofBot = true) : readKey settings row'.config c = readKey settings row.config c := by
  obtain ⟨_, hconfig⟩ := revise_status h
  unfold ProjectUpdate.revisedConfig at hconfig
  split at hconfig
  · rw [Except.ok.inj hconfig]
  · rcases ofBot_secret hc with rfl | rfl
    · exact vet_others hconfig rfl
    · exact vet_others hconfig rfl

theorem released_bound (hciphers : settings.Ciphers) (hbound : Bound settings d) {config : Mapping} {release : Release}
    {change : ProjectChange} {applications : List (Int × ApplicationChange)}
    (hrelease : releaseBotBinding settings iv config (d.ask (.repositoriesOf projectId)) = .ok release)
    (hwrite : d.write (.change (some (projectId, change)) release.unbound applications) = .ok d')
    (hchange : change.config = some (release.config.getD config)) : Bound settings d' := by
  apply hbound.releases_change hrelease hwrite
  · rintro changed change ⟨⟩
    rfl
  · intro row' hrow'
    obtain ⟨old, hold, ⟨written, hwritten, rfl⟩ | ⟨hother, _⟩⟩ := change_row hwrite hrow'
    · cases hwritten
      rw [ProjectChange.apply, hchange]
      exact released_token hciphers hrelease
    · exact absurd rfl (hother _)

theorem writesProject_bound (hciphers : settings.Ciphers) (hbound : Bound settings d) {projectIn : ProjectUpdate}
    (hlocked : ∀ row, Read readings (.lockProject projectId) (some row) → d.projects projectId = some row)
    (hrepositories : ∀ repositories, Read readings (.repositoriesOf projectId) repositories →
      d.ask (.repositoriesOf projectId) = repositories)
    (h : WritesProject settings iv readings projectId projectIn write) (hwrite : d.write write = .ok d')
    (harchives : projectIn.status = some .archived → request.Archives projectId) :
    Bound settings d' ∧ ReleasesDown request d d' := by
  obtain ⟨project, row, release, hread, hrevise, hrelease, rfl⟩ := h
  have hproject := hlocked project hread
  obtain ⟨hstatus, _⟩ := revise_status hrevise
  rcases hrelease with ⟨hopen, rfl⟩ | ⟨harchived, repositories, hfound, hrelease⟩
  · apply keeps_bound hbound hwrite
    rintro changed change old ⟨⟩ hold
    rw [hproject] at hold
    cases hold
    refine ⟨fun h => absurd h hopen, fun c hc => ?_⟩
    exact revise_secrets hrevise hc
  · rw [← hrepositories _ hfound] at hrelease
    refine ⟨released_bound hciphers hbound hrelease hwrite rfl, ?_⟩
    · apply releasesDown_of_unbound (write_released hbound.ids hrelease hwrite)
      intro hheld
      left
      rw [hstatus] at harchived
      cases hgiven : projectIn.status with
      | none =>
        rw [hgiven] at harchived
        exact absurd (archived_unheld hbound hproject harchived) hheld
      | some status =>
        rw [hgiven] at harchived
        apply harchives
        rw [hgiven, ← harchived]
        rfl

theorem writesConfig_bound {A : Type} (hbound : Bound settings d) {f : Mapping → Except HTTPException (Mapping × A)}
    (hlocked : ∀ row, Read readings (.lockProject projectId) (some row) → d.projects projectId = some row)
    (h : WritesConfig readings projectId f write) (hwrite : d.write write = .ok d')
    (hkeys : ∀ (row : ProjectRow) config a (c : ConfigKey), f row.config = .ok (config, a) → c.ofBot = true →
      readKey settings config c = readKey settings row.config c) : Bound settings d' ∧ ReleasesDown request d d' := by
  obtain ⟨project, config, a, hread, hdone, rfl⟩ := h
  apply keeps_bound hbound hwrite
  rintro changed change old ⟨⟩ hold
  rw [hlocked _ hread] at hold
  cases hold
  exact ⟨id, fun c hc => hkeys project config a c hdone hc⟩

theorem write_applications {project : Option (String × ProjectChange)} {repositories : List (String × Option String)}
    {applications : List (Int × ApplicationChange)} (h : d.write (.change project repositories applications) = .ok d') :
    d'.applications = d.applications.map fun application => match applications.lookup application.id with
      | some change => change.apply application
      | none => application := by
  cases h
  cases project <;> rfl

theorem projectOf_renamed {name : RepositoryRow → Option String} (h : d'.repositories = renamed name d.repositories)
    (repoId : String) : d'.projectOf repoId = d.projectOf repoId := by
  unfold Data.projectOf renamed at *
  rw [h, List.find?_map, Option.map_map]
  rfl

theorem bind_bound (hciphers : settings.Ciphers) (hbound : Bound settings d) {token : String} {caller : Caller}
    {telegram : Except TokenRejectionReason String}
    (hlocked : ∀ row, Read readings (.lockProject projectId) (some row) → d.projects projectId = some row)
    (hfresh : Fresh (.bindTelegramToken projectId caller token telegram) readings d)
    (hopen : ∀ row ∈ d.projects projectId, row.status ≠ .archived)
    (h : Decides settings iv readings (.bindTelegramToken projectId caller token telegram) write)
    (hwrite : d.write write = .ok d') :
    Bound settings d' ∧ ReleasesDown (.bindTelegramToken projectId caller token telegram) d d' := by
  obtain ⟨project, botUsername, repo, config, keys, hread, _, hholders, hrepo, hmerged, rfl⟩ := h
  have hproject := hlocked project hread
  have hprimary : d.primary projectId = some repo := hfresh.read hrepo rfl
  have hnobody : d.projectIds.filterMap (d.holder botUsername projectId) = [] := hfresh.read hholders rfl
  constructor
  · apply hbound.bind hprimary (write_bound hwrite) (hbound.change_listed hwrite) (change_some hwrite)
    · rintro other row hne hrow hlive ⟨held, hheld, hheldProject, hbot⟩
      have hnone : d.holder botUsername projectId other = none :=
        List.filterMap_eq_nil_iff.mp hnobody other (hbound.listed other row hrow)
      have hany : (d.repositories.any fun repo => repo.projectId == other && repo.botUsername == some botUsername) = true :=
        List.any_eq_true.mpr ⟨held, hheld, by simp [hheldProject, hbot]⟩
      simp [Data.holder, hrow, hne, hlive, hany] at hnone
    · intro other row' hrow'
      obtain ⟨row, hrow, ⟨change, hchange, rfl⟩ | ⟨hother, rfl⟩⟩ := change_row hwrite hrow'
      · cases hchange
        rw [hproject] at hrow
        cases hrow
        refine ⟨project, hproject, fun h => absurd rfl h, fun _ => ⟨hopen project hproject, hopen project hproject, fun name => ?_⟩⟩
        exact merged_names hciphers hmerged
      · refine ⟨row', hrow, fun _ => rfl, fun heq => ?_⟩
        exact absurd (by rw [heq]) (hother { config := some config })
  · intro other held hbefore hafter
    rw [botOf_boundTo hbound.ids hprimary (write_bound hwrite)] at hafter
    split at hafter
    · cases hafter
    · rw [hbefore] at hafter
      cases hafter

theorem undeployed_down {applicationId : Int} {application : ApplicationRow} {update : ApplicationUpdate}
    {project : Option (String × ProjectChange)} {repositories : List (String × Option String)}
    (hid : application.id = applicationId) (hstatus : update.status = some .notDeployed)
    (hnone : d.ask (.stillUp projectId (if ApplicationStatus.notDeployed != application.status then some application.id else none)) = none)
    (hwrite : d.write (.change project repositories [(applicationId, update.change application)]) = .ok d') :
    d'.Down projectId := by
  have hdown : ∀ other ∈ d.applications, d.projectOf other.repoId = some projectId → other.status ≠ .notDeployed →
      other.id = applicationId ∧ application.status ≠ .notDeployed := by
    intro other hother hproject hup
    have hfound := List.find?_eq_none.mp (Option.map_eq_none_iff.mp hnone) other hother
    simp only [Data.isUp, hproject, Bool.and_eq_true, bne_iff_ne, ne_eq, hup, not_false_eq_true, beq_self_eq_true, true_and,
      Decidable.not_not] at hfound
    split at hfound
    · rename_i hchanged
      exact ⟨(Option.some.inj hfound).trans hid, fun h => hchanged h.symm⟩
    · cases hfound
  intro application' hmem hproject
  rw [projectOf_renamed (write_repositories hwrite)] at hproject
  rw [write_applications hwrite] at hmem
  obtain ⟨other, hother, rfl⟩ := List.mem_map.mp hmem
  by_cases hchanged : other.id = applicationId
  · simp only [List.lookup_cons, hchanged, beq_self_eq_true] at hproject ⊢
    change (((update.change application).status.getD other.status) = .notDeployed)
    simp only [ApplicationUpdate.change, hstatus, Option.filter_some, bne_iff_ne, ne_eq]
    split
    · rfl
    · rename_i hsame
      by_contra hup
      exact hsame fun h => (hdown other hother hproject hup).2 h.symm
  · have hne : (other.id == applicationId) = false := by simpa using hchanged
    simp only [List.lookup_cons, hne, List.lookup_nil] at hproject ⊢
    by_contra hup
    exact hchanged (hdown other hother hproject hup).1

theorem updateApplication_bound (hciphers : settings.Ciphers) (hbound : Bound settings d) {applicationId : Int}
    {fields : ApplicationUpdate} (hfresh : Fresh (.updateApplication applicationId fields) readings d)
    (h : WritesApplication settings iv readings applicationId fields write) (hwrite : d.write write = .ok d') :
    Bound settings d' ∧ ReleasesDown (.updateApplication applicationId fields) d d' := by
  obtain ⟨application, projectId, release, hread, hrelease, rfl⟩ := h
  rcases hrelease with rfl | ⟨status, hstatus, rfl, repo, project, repositories, _, rfl, hproject, hup, hrepositories, hrelease⟩
  · apply keeps_bound hbound hwrite
    rintro _ _ _ ⟨⟩
  · have hfound : d.applications.find? (·.id == applicationId) = some application := hfresh.read hread rfl
    have hid : application.id = applicationId := by simpa using List.find?_some hfound
    have hrow : d.projects repo.projectId = some project := hfresh.read hproject rfl
    rw [← hfresh.read hrepositories rfl] at hrelease
    constructor
    · apply hbound.releases_change hrelease hwrite
      · intro changed change hchange
        obtain ⟨config, _, hpair⟩ := Option.map_eq_some_iff.mp hchange
        cases hpair
        rfl
      · intro row' hrow'
        have htoken := released_token hciphers hrelease
        obtain ⟨row, hrow'', ⟨change, hchange, rfl⟩ | ⟨hother, rfl⟩⟩ := change_row hwrite hrow'
        · obtain ⟨config, hconfig, hpair⟩ := Option.map_eq_some_iff.mp hchange
          cases hpair
          rw [hconfig] at htoken
          exact htoken
        · rw [hrow] at hrow''
          cases hrow''
          cases hconfig : release.config with
          | none =>
            rw [hconfig] at htoken
            exact htoken
          | some config => exact absurd (by rw [hconfig]; rfl) (hother { config := some config })
    · apply releasesDown_of_unbound (write_released hbound.ids hrelease hwrite)
      intro _
      right
      exact undeployed_down hid hstatus (hfresh.read hup rfl) hwrite

theorem tearsDown_bound (hciphers : settings.Ciphers) (hbound : Bound settings d) {stalled : Int → Option String}
    {stage : List ApplicationRow → List ApplicationRow × List Int × List (Int × ApplicationChange)}
    (hfresh : ∀ (query : Query) (answer : query.Result), Read readings query answer → d.ask query = answer)
    (hstage : ∀ applications, (∀ application ∈ (stage applications).1, application.status = .notDeployed) →
      (∀ application ∈ applications, application.status = .notDeployed) ∧ (stage applications).2.2 = [])
    (h : TearsDown settings iv readings projectId stalled stage write) (hwrite : d.write write = .ok d') :
    Bound settings d' ∧ ReleasesDown request d d' := by
  obtain ⟨project, repositories, applications, state, release, hread, hrepositories, happlications, hstate, rfl⟩ := h
  cases release with
  | none =>
    apply keeps_bound hbound hwrite
    rintro _ _ _ ⟨⟩
  | some release =>
    have hdone : releaseBotBinding settings iv project.config repositories = .ok release ∧
        ∀ application ∈ (stage applications).1, application.status = .notDeployed := by
      unfold teardownState at hstate
      dsimp only at hstate
      split at hstate
      · cases hstate
      · split at hstate
        · rename_i hpending
          obtain ⟨released, hreleased, hpair⟩ := map_eq_ok.mp hstate
          cases hpair
          refine ⟨hreleased, fun application hmem => ?_⟩
          rw [List.isEmpty_iff, List.map_eq_nil_iff, List.filter_eq_nil_iff] at hpending
          simpa using hpending application hmem
        · cases hstate
    obtain ⟨hrelease, hpending⟩ := hdone
    obtain ⟨hdown, hchanges⟩ := hstage applications hpending
    have hask := hfresh _ _ hrepositories
    rw [← hask] at hrelease happlications
    refine ⟨released_bound hciphers hbound hrelease hwrite rfl, ?_⟩
    · apply releasesDown_of_unbound (write_released hbound.ids hrelease hwrite)
      intro _
      right
      intro application hmem hproject
      rw [projectOf_renamed (write_repositories hwrite)] at hproject
      rw [write_applications hwrite, hchanges] at hmem
      simp only [List.lookup_nil, List.map_id'] at hmem
      apply hdown
      rw [← hfresh _ _ happlications]
      obtain ⟨repo, hfound, hrepo⟩ := Option.map_eq_some_iff.mp hproject
      have hid : repo.id = application.repoId := by simpa using List.find?_some hfound
      simp only [Data.ask, List.mem_filter, List.contains_eq_mem, List.mem_map, decide_eq_true_eq, beq_iff_eq]
      exact ⟨hmem, repo, ⟨List.mem_of_find?_eq_some hfound, hrepo⟩, hid⟩

theorem staged_down (stalled : Int → Option String) {applications : List ApplicationRow}
    (h : ∀ application ∈ staged stalled applications, application.status = .notDeployed) :
    (∀ application ∈ applications, application.status = .notDeployed) ∧ stagedChanges stalled applications = [] := by
  have hdown : ∀ application ∈ applications, goesDown stalled application = false ∧ application.status = .notDeployed := by
    intro application hmem
    have hstatus := h _ (List.mem_map.mpr ⟨application, hmem, rfl⟩)
    split at hstatus
    · cases hstatus
    · rename_i hgoes
      exact ⟨by simpa using hgoes, hstatus⟩
  refine ⟨fun application hmem => (hdown application hmem).2, ?_⟩
  unfold stagedChanges
  rw [List.map_eq_nil_iff, List.filter_eq_nil_iff]
  intro application hmem
  simp [(hdown application hmem).1]

theorem create_bound (hbound : Bound settings d) {row : ProjectRow}
    (hrow : ∀ botUsername, ¬ SecretsName settings row.config botUsername)
    (hwrite : d.write (.create projectId row) = .ok d') : Bound settings d' ∧ ReleasesDown request d d' := by
  simp only [Data.write] at hwrite
  split at hwrite
  · cases hwrite
  · rename_i hfree
    cases hwrite
    have hother : ∀ p old, d.projects p = some old → p ≠ projectId := by
      rintro p old hold rfl
      cases hold.symm.trans hfree
    constructor
    · apply hbound.keep
      · rfl
      · intro p row' hrow'
        by_cases hp : p = projectId
        · simp [hp]
        · simp only [Function.update_of_ne hp] at hrow'
          exact List.mem_append_left _ (hbound.listed p row' hrow')
      · intro p hsome
        obtain ⟨old, hold⟩ := Option.isSome_iff_exists.mp hsome
        simp only [Function.update_of_ne (hother p old hold)]
        exact hsome
      · intro p row' hrow'
        by_cases hp : p = projectId
        · subst hp
          simp only [Function.update_self] at hrow'
          cases hrow'
          exact .inr ⟨hfree, hrow⟩
        · simp only [Function.update_of_ne hp] at hrow'
          exact .inl ⟨row', hrow', id, fun _ => Iff.rfl⟩
    · exact releasesDown_of_botOf fun _ => rfl

theorem decides_bound (hciphers : settings.Ciphers) (hbound : Bound settings d)
    (hlocked : ∀ projectId row, Read readings (.lockProject projectId) (some row) → d.projects projectId = some row)
    (htidy : Tidy d request) (hfresh : Fresh request readings d) (h : Decides settings iv readings request write)
    (hwrite : d.write write = .ok d') : Bound settings d' ∧ ReleasesDown request d d' := by
  have hread : ∀ (projectId : String) (repositories : List RepositoryRow), Read readings (.repositoriesOf projectId) repositories →
      d.ask (.repositoriesOf projectId) = repositories := by
    intro projectId repositories hmem
    apply hfresh.read hmem
    cases request <;> rfl
  cases request with
  | create generated xTelegramId projectIn =>
    obtain ⟨projectId, initial, config, owner, _, hvetted, rfl⟩ := h
    exact create_bound hbound (fun _ => initial_unnamed hvetted) hwrite
  | update projectId caller projectIn =>
    exact writesProject_bound hciphers hbound (hlocked projectId) (hread projectId) h hwrite fun hgiven => ⟨rfl, hgiven⟩
  | patch projectId caller projectIn =>
    exact writesProject_bound hciphers hbound (hlocked projectId) (hread projectId) h hwrite fun hgiven => ⟨rfl, hgiven⟩
  | mergeSecrets projectId caller secrets envHints =>
    apply writesConfig_bound hbound (hlocked projectId) h.2.2 hwrite
    intro row config keys c hdone hc
    apply mergeSecrets_others hciphers hdone
    have htoken : hasKey (texts secrets) telegramTokenKey = false := by
      have hplain := h.1
      simp only [rejectBotTokenWrites, refuseIf_ok, List.any_eq_false, Bool.or_eq_true, beq_iff_eq, not_or] at hplain
      rw [hasKey, Option.isSome_eq_false_iff, Option.isNone_iff_eq_none, List.lookup_eq_none_iff]
      intro entry hmem
      obtain ⟨secret, hsecret, rfl⟩ := List.mem_map.mp hmem
      simpa using fun heq => (hplain secret hsecret).1 heq.symm
    rcases ofBot_secret hc with rfl | rfl
    · exact htoken
    · exact htidy
  | setBotAccess projectId caller body =>
    apply writesConfig_bound (f := fun config => (selectBotAccess settings iv body config).map (·, ())) hbound
      (hlocked projectId) h hwrite
    intro row config _ c hdone hc
    obtain ⟨selected, hselected, hpair⟩ := map_eq_ok.mp hdone
    cases hpair
    apply selectBotAccess_others hciphers hselected
    rcases ofBot_secret hc with rfl | rfl <;> rfl
  | deleteSecret projectId caller key =>
    apply writesConfig_bound hbound (hlocked projectId) h hwrite
    intro row config keys c hdone hc
    apply deleteSecret_others hciphers hdone
    rintro rfl
    have hplain : (ConfigKey.secret key).ofBot = false := htidy
    rw [hc] at hplain
    cases hplain
  | bindTelegramToken projectId caller token telegram =>
    exact bind_bound hciphers hbound (hlocked projectId) hfresh htidy h hwrite
  | updateApplication applicationId fields => exact updateApplication_bound hciphers hbound hfresh h hwrite
  | teardown projectId caller stalled =>
    exact tearsDown_bound hciphers hbound (fun _ _ hmem => hfresh.read hmem rfl) (fun _ hdown => staged_down stalled hdown) h hwrite
  | teardownStatus projectId caller stalled =>
    exact tearsDown_bound hciphers hbound (fun _ _ hmem => hfresh.read hmem rfl) (fun _ hdown => ⟨hdown, rfl⟩) h hwrite
  | scaffolded projectId scaffold =>
    obtain ⟨seen, _, hwrites⟩ := h
    exact writesProject_bound hciphers hbound (hlocked projectId) (hread projectId) hwrites hwrite (by rintro ⟨⟩)
  | notifyWorkspaceDeleted repoId =>
    obtain ⟨repo, seen, _, hseen, rfl⟩ := h
    have hrow : d.projects repo.projectId = some seen := hfresh.read hseen rfl
    unfold clearedWrite at hwrite
    split at hwrite
    · apply keeps_bound hbound hwrite
      rintro changed change old ⟨⟩ hold
      rw [hrow] at hold
      cases hold
      refine ⟨id, fun c hc => readKey_of_lookup (by decide) ?_ fun key hkey => lookup_popKey_of_ne _ hkey⟩
      rintro rfl
      cases hc
    · apply keeps_bound hbound hwrite
      rintro _ _ _ ⟨⟩

end Commits

instance : (query : Query) → DecidableEq query.Result
  | .user _ => inferInstanceAs (DecidableEq (Option User))
  | .findProject _ | .lockProject _ => inferInstanceAs (DecidableEq (Option ProjectRow))
  | .findRepository _ | .primaryRepository _ => inferInstanceAs (DecidableEq (Option RepositoryRow))
  | .repositoriesOf _ => inferInstanceAs (DecidableEq (List RepositoryRow))
  | .findApplication _ => inferInstanceAs (DecidableEq (Option ApplicationRow))
  | .applicationsOf _ => inferInstanceAs (DecidableEq (List ApplicationRow))
  | .flushStatus _ => inferInstanceAs (DecidableEq Unit)
  | .stillUp .. => inferInstanceAs (DecidableEq (Option Int))
  | .holders .. => inferInstanceAs (DecidableEq (List Holder))

instance (request : Request) (readings : List Reading) (d : Data) : Decidable (Fresh request readings d) :=
  inferInstanceAs (Decidable (∀ reading ∈ readings, request.relies reading.1 = true → d.ask reading.1 = reading.2))

instance (d : Data) (request : Request) : Decidable (Tidy d request) := by
  unfold Tidy
  split <;> infer_instance

section Runs

variable {T : Type} [DecidableEq T]

def serial (request : T → Request) (s : Tables T) : Move (schema.world T Response) → Prop
  | .call t (.commit write) fate => admitted s (.call t (.commit write) fate) ∧
      Fresh (request t) (Schema.readings (s.entries t)) s.data ∧ Tidy s.data (request t)
  | m => admitted s m

instance (request : T → Request) (s : Tables T) (m : Move (schema.world T Response)) : Decidable (serial request s m) := by
  rcases m with _ | ⟨_, ⟨⟩, reply⟩ | _ <;> dsimp only [serial] <;> infer_instance

variable {settings : Settings} {iv : T → Nat} {request : T → Request} {data : Data}
variable {c d : Config (schema.world T Response)}

theorem serial_admitted {s : Tables T} {m : Move (schema.world T Response)} (h : serial request s m) : admitted s m := by
  cases m with
  | call t statement fate => cases statement with
    | query query => exact h
    | commit write => exact h.1
  | _ => exact h

abbrev binding (settings : Settings) (request : T → Request) : Schema.Discipline schema T Response where
  admits := serial request
  sound := Bound settings
  lawful t := ReleasesDown (request t)
  lawful_refl _ _ := releasesDown_of_botOf fun _ => rfl
  steady := steady
  steady_refl := steady_refl
  steady_trans := steady_trans
  fair _ _ _ := True
  fair_nil _ := trivial

theorem reaches_bound (hciphers : settings.Ciphers) (hbound : Bound settings data)
    (h : Reaches (fun t => handler settings (iv t) (request t)) (serial request) (.idle (Schema.Tables.opening data)) c) :
    (binding settings request).Holds c.state := by
  refine Schema.Discipline.reaches_justified (fun _ _ h => admitted_unblocked (serial_admitted h)) (fun _ _ _ => trivial)
    (fun t => handler_justified settings (iv t) (request t)) ?_ hbound h
  intro t s write fate after hi hadm hbacked hdecides hwrite
  obtain ⟨hadm, hfresh, htidy⟩ := hadm
  obtain ⟨hkept, hlawful⟩ := decides_bound hciphers hi.sound
    (fun projectId row hread => backed_locked rfl (hbacked _ hread)) htidy hfresh hdecides hwrite
  exact ⟨hkept, hlawful, fun u hu key hkey => write_steady hadm hwrite hu hkey⟩

/-- A bot has one live project, which has its secrets, until that is archived or has nothing up. -/
theorem bots_bound (hciphers : settings.Ciphers) (hbound : Bound settings data)
    (h : Reaches (fun t => handler settings (iv t) (request t)) (serial request) (.idle (Schema.Tables.opening data)) c) :
    Bound settings c.state.data ∧
      ∀ d, Step (fun t => handler settings (iv t) (request t)) (serial request) c d →
        ∀ projectId botUsername, botOf c.state.data projectId = some botUsername → botOf d.state.data projectId = none →
          ∃ t, Commits t c d ∧ ((request t).Archives projectId ∨ d.state.data.Down projectId) := by
  refine ⟨(reaches_bound hciphers hbound h).sound, ?_⟩
  intro d hstep projectId botUsername hbefore hafter
  have hholds := reaches_bound hciphers hbound (h.tail hstep)
  rcases Schema.step_data hstep with hsame | ⟨t, entry, hlogged, hentry, hentry'⟩
  · rw [hsame, hbefore] at hafter
    cases hafter
  · have hlawful : ReleasesDown (request t) entry.before entry.after := by
      rcases hlogged with hentry | ⟨execution, hexecution, rfl, hentry⟩
      · exact hholds.lawful t entry hentry
      · exact (hholds.finished execution hexecution).1 entry hentry
    rw [hentry, hentry'] at hlawful
    exact ⟨t, ⟨entry, hlogged, hentry, hentry'⟩, hlawful projectId botUsername hbefore hafter⟩

end Runs

def vacantProject : ProjectRow := { sampleProject with config := [] }

def vacantData : Data where
  projects projectId := if projectId = "p" ∨ projectId = "q" then some vacantProject else none
  repositories := [⟨"r", "p", .primary, none⟩, ⟨"s", "q", .primary, none⟩]
  applications := [⟨5, "r", .running, noHealth⟩]
  users _ := some ⟨1, false⟩
  projectIds := ["p", "q"]

theorem vacant_bound : Bound sampleSettings vacantData := by
  have hheld : ∀ p botUsername, ¬ HoldsBot vacantData p botUsername := by
    rintro p botUsername ⟨repo, hrepo, _, hbot⟩
    simp only [vacantData, List.mem_cons, List.not_mem_nil, or_false] at hrepo
    rcases hrepo with rfl | rfl <;> cases hbot
  have hrow : ∀ p row, vacantData.projects p = some row → row = vacantProject ∧ (p = "p" ∨ p = "q") := by
    intro p row h
    simp only [vacantData] at h
    split at h
    · rename_i hp
      cases h
      exact ⟨rfl, hp⟩
    · cases h
  constructor
  · intro p _ _ _ botUsername _ _ _ _ hp _
    exact absurd hp (hheld p botUsername)
  · intro p row botUsername h
    obtain ⟨rfl, _⟩ := hrow p row h
    constructor
    · intro hbot
      exact absurd (holds_of_botOf hbot) (hheld p botUsername)
    · intro hnamed
      exact absurd hnamed (not_secretsName_of_token rfl)
  · intro p _ botUsername _ _
    exact hheld p botUsername
  · intro p row h
    simpa [vacantData] using (hrow p row h).2
  · decide
  · decide

def sampleToken : String := "12345:abcdefghijklmnopqrstuvwxyz-_0123"

def bindRequest : Nat → Request
  | 0 => .bindTelegramToken "p" scaffolder sampleToken (.ok "bot")
  | 1 => .bindTelegramToken "q" scaffolder sampleToken (.ok "bot")
  | _ => .patch "p" scaffolder ⟨none, some .archived, none, none⟩

def boundOnce : Config (schema.world Nat Response) := play bindRequest vacantData (served 0 4 ++ served 1 2)

theorem once_bound : Bound sampleSettings boundOnce.state.data ∧
    ∀ d, Step (fun t => handler sampleSettings t (bindRequest t)) (serial bindRequest) boundOnce d →
      ∀ projectId botUsername, botOf boundOnce.state.data projectId = some botUsername → botOf d.state.data projectId = none →
        ∃ t, Commits t boundOnce d ∧ ((bindRequest t).Archives projectId ∨ d.state.data.Down projectId) :=
  bots_bound sample_ciphers vacant_bound (play_reaches (by decide +kernel))

def boundTwice : Config (schema.world Nat Response) :=
  play bindRequest vacantData (served 0 3 ++ served 1 4 ++ [.call 0 fun _ => .served])

def archivedUp : Config (schema.world Nat Response) := boundOnce.play (fun t => handler sampleSettings t (bindRequest t)) (served 2 4)

theorem bots_unbound :
    Reaches (fun t => handler sampleSettings t (bindRequest t)) admitted (.idle (Schema.Tables.opening vacantData)) boundOnce ∧
      Reaches (fun t => handler sampleSettings t (bindRequest t)) admitted boundOnce archivedUp ∧
      botOf boundOnce.state.data "p" = some "bot" ∧ botOf archivedUp.state.data "p" = none ∧
      ¬ archivedUp.state.data.Down "p" ∧
      Reaches (fun t => handler sampleSettings t (bindRequest t)) admitted (.idle (Schema.Tables.opening vacantData)) boundTwice ∧
      ¬ Bound sampleSettings boundTwice.state.data := by
  refine ⟨play_reaches (by decide +kernel), play_reaches (by decide +kernel), by decide +kernel, by decide +kernel, ?_,
    play_reaches (by decide +kernel), ?_⟩
  · have hup : archivedUp.state.data.applications = [⟨5, "r", .running, noHealth⟩] := by decide +kernel
    have hproject : archivedUp.state.data.projectOf "r" = some "p" := by decide +kernel
    intro hdown
    have hstatus := hdown ⟨5, "r", .running, noHealth⟩ (by rw [hup]; exact List.mem_singleton.mpr rfl) hproject
    cases hstatus
  · intro hbound
    have hlive : (boundTwice.state.data.projects "p").map (·.status) = some .active ∧
        (boundTwice.state.data.projects "q").map (·.status) = some .active := by decide +kernel
    obtain ⟨row, hrow, hstatus⟩ := Option.map_eq_some_iff.mp hlive.1
    obtain ⟨row', hrow', hstatus'⟩ := Option.map_eq_some_iff.mp hlive.2
    have hsame := hbound.exclusive "p" "q" row row' "bot" hrow (by rw [hstatus]; nofun) hrow' (by rw [hstatus']; nofun)
      (holds_of_botOf (by decide +kernel)) (holds_of_botOf (by decide +kernel))
    exact absurd hsame (by decide)

end Orchestrator.Projects
