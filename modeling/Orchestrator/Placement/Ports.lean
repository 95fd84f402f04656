import Mathlib.Data.List.Nodup
import Orchestrator.Placement.Allocations

/-!
One port for each module of an application, as long as the calls for one repository
follow one another and a server has ports left.
-/

namespace Orchestrator.Placement

open Async Async.Rules

def Application.site (app : Application) : Nat × String × String := (app.id, app.repoId, app.serverHandle)

namespace State

def sites (s : State) : List (Nat × String × String) := s.applications.map Application.site

def sitesOf (s : State) (repoId : String) : List (Nat × String × String) := s.sites.filter (·.2.1 = repoId)

def allocationsOf (s : State) (applicationId : Nat) : List PortAllocation :=
  s.allocations.filter (·.applicationId = applicationId)

end State

structure OnePortEach (modules : List String) (allocated : List Allocated) : Prop where
  each : ∀ module ∈ modules, ∃ entry, allocated.filter (·.serviceName = module) = [entry]
  apart : (allocated.map (·.serviceName)).Nodup
  unambiguous : ∀ isIpAddress serviceName, findAllocation isIpAddress allocated serviceName ≠ .error (.ambiguousAllocation serviceName)
  together : ∀ entry ∈ allocated, ∀ other ∈ allocated, entry.serverHandle = other.serverHandle
  valid : ∀ entry ∈ allocated, 1 ≤ entry.port ∧ entry.port ≤ maxTcpPort

structure Allotted (fleet : Fleet) (s : State) : Prop where
  numbered : ∀ site ∈ s.sites, site.1 ≠ 0 ∧ site.1 < s.nextId
  started : s.nextId ≠ 0
  ids : (s.sites.map (·.1)).Nodup
  repos : (s.sites.map (·.2.1)).Nodup
  sited : ∀ allocation ∈ s.allocations, ∃ repoId, (allocation.applicationId, repoId, allocation.serverHandle) ∈ s.sites
  ports : ∀ allocation ∈ s.allocations, 1 ≤ allocation.port ∧ allocation.port ≤ maxTcpPort
  held : (s.allocations.map fun allocation => (allocation.serverHandle, allocation.port)).Nodup
  modules : (s.allocations.map fun allocation => (allocation.applicationId, allocation.serviceName)).Nodup
  returned : ∀ call ∈ s.returned, OnePortEach (fleet.requests call.1).modules call.2

/-- What the others leave alone of a repository that `t` is at work for. -/
structure Spares (t : Party) (s s' : State) : Prop where
  busy : ∀ repoId, s.busy repoId = some t → s'.busy repoId = some t
  sites : ∀ repoId, s.busy repoId = some t → s'.sitesOf repoId = s.sitesOf repoId
  allocations : ∀ repoId, s.busy repoId = some t → ∀ site ∈ s.sitesOf repoId, s'.allocationsOf site.1 = s.allocationsOf site.1

theorem Spares.refl (t : Party) (s : State) : Spares t s s := ⟨fun _ h => h, fun _ _ => rfl, fun _ _ _ _ => rfl⟩

theorem Spares.trans {t : Party} {s s' s'' : State} (h : Spares t s s') (h' : Spares t s' s'') : Spares t s s'' where
  busy repoId hbusy := h'.busy repoId (h.busy repoId hbusy)
  sites repoId hbusy := (h'.sites repoId (h.busy repoId hbusy)).trans (h.sites repoId hbusy)
  allocations repoId hbusy site hsite := by
    have hsite' : site ∈ s'.sitesOf repoId := by rw [h.sites repoId hbusy]; exact hsite
    exact (h'.allocations repoId (h.busy repoId hbusy) site hsite').trans (h.allocations repoId hbusy site hsite)

def State.hasPort (s : State) (serverHandle : String) : Bool :=
  (List.range' startPort (maxTcpPort + 1 - startPort)).any fun port => !(s.portsOf serverHandle).contains port

def oneAtATime : State → Move placementWorld → Prop
  | s, .call _ (.listApplications (some repoId) none) reply => reply.fate.carriedOut = true → s.busy repoId = none
  | s, .call _ (.portsOf serverHandle) reply => reply.fate.carriedOut = true → s.hasPort serverHandle = true
  | _, _ => True

instance (s : State) (m : Move placementWorld) : Decidable (oneAtATime s m) := by
  unfold oneAtATime
  split <;> infer_instance

abbrev portRules (fleet : Fleet) : Rules placementWorld where
  admits := oneAtATime
  inv := Allotted fleet
  rely := Spares
  rely_refl := Spares.refl
  rely_trans := Spares.trans
  rest _ _ := True
  rest_stable _ _ _ := trivial

section Search

theorem nextPort_le (taken : List Nat) (fuel port : Nat) : port ≤ nextPort taken fuel port := by
  induction fuel generalizing port with
  | zero => exact Nat.le_refl port
  | succ fuel ih =>
    unfold nextPort
    split
    · have := ih (port + 1)
      omega
    · exact Nat.le_refl port

theorem nextPort_le_of_free {taken : List Nat} {port : Nat} (hfree : port ∉ taken) (fuel : Nat) {first : Nat} (hfirst : first ≤ port) :
    nextPort taken fuel first ≤ port := by
  induction fuel generalizing first with
  | zero => exact hfirst
  | succ fuel ih =>
    unfold nextPort
    split
    · next htaken =>
      apply ih
      have hne : first ≠ port := by
        rintro rfl
        exact hfree (List.contains_iff_mem.mp htaken)
      omega
    · exact hfirst

theorem nextPort_valid {s : State} {serverHandle : String} (h : s.hasPort serverHandle = true) (fuel : Nat) :
    1 ≤ nextPort (s.portsOf serverHandle) fuel startPort ∧ nextPort (s.portsOf serverHandle) fuel startPort ≤ maxTcpPort := by
  obtain ⟨port, hrange, hfree⟩ := List.any_eq_true.mp h
  obtain ⟨hlow, hhigh⟩ := List.mem_range'_1.mp hrange
  have hfree : port ∉ s.portsOf serverHandle := by simpa using hfree
  have hfirst := nextPort_le (s.portsOf serverHandle) fuel startPort
  have hlast := nextPort_le_of_free hfree fuel hlow
  unfold startPort maxTcpPort at *
  omega

end Search

section Steps

variable {fleet : Fleet} {t : Party} {s s' : State} {repoId : String}

structure Aside (s s' : State) : Prop where
  sites : s'.sites = s.sites
  nextId : s'.nextId = s.nextId
  allocations : s'.allocations = s.allocations
  busy : s'.busy = s.busy
  returned : s'.returned = s.returned

theorem Aside.refl (s : State) : Aside s s := ⟨rfl, rfl, rfl, rfl, rfl⟩

theorem Aside.keeps (h : Aside s s') (hi : Allotted fleet s) : (portRules fleet).Keeps t s s' where
  inv := by
    obtain ⟨hsites, hnextId, hallocations, _, hreturned⟩ := h
    refine ⟨?_, ?_, ?_, ?_, ?_, ?_, ?_, ?_, ?_⟩
    · rw [hsites, hnextId]; exact hi.numbered
    · rw [hnextId]; exact hi.started
    · rw [hsites]; exact hi.ids
    · rw [hsites]; exact hi.repos
    · rw [hsites, hallocations]; exact hi.sited
    · rw [hallocations]; exact hi.ports
    · rw [hallocations]; exact hi.held
    · rw [hallocations]; exact hi.modules
    · rw [hreturned]; exact hi.returned
  rely u _ := by
    refine ⟨fun _ hbusy => by rwa [h.busy], fun _ _ => ?_, fun _ _ _ _ => ?_⟩
    · simp only [State.sitesOf, h.sites]
    · simp only [State.allocationsOf, h.allocations]

theorem setStatus_sites (id : Nat) (status : ApplicationStatus) (s : State) :
    (s.setStatus id status).map Application.site = s.sites := by
  simp only [State.setStatus, State.sites, List.map_map]
  refine List.map_congr_left fun app _ => ?_
  simp only [Function.comp_apply]
  split <;> rfl

theorem change_aside (change : OutsideChange) : Aside s (change.apply s) := by
  cases change with
  | applicationStatus id status =>
    have hsites := setStatus_sites id status s
    simp only [OutsideChange.apply, State.changeStatus]
    split <;> exact ⟨hsites, rfl, rfl, rfl, rfl⟩
  | _ => exact ⟨rfl, rfl, rfl, rfl, rfl⟩

theorem mem_sitesOf {site : Nat × String × String} : site ∈ s.sitesOf repoId ↔ site ∈ s.sites ∧ site.2.1 = repoId := by
  simp [State.sitesOf]

theorem site_unique (hi : Allotted fleet s) {site other : Nat × String × String} (hsite : site ∈ s.sites) (hother : other ∈ s.sites)
    (hid : site.1 = other.1) : site = other := List.inj_on_of_nodup_map hi.ids hsite hother hid

theorem busy_other {other : String} {u : Party} (hbusy : s.busy repoId = some t) (hu : u ≠ t) (h : s.busy other = some u) :
    other ≠ repoId := by
  rintro rfl
  exact hu (Option.some.inj (h.symm.trans hbusy))

theorem claim_keeps (hi : Allotted fleet s) (hfree : s.busy repoId = none) :
    (portRules fleet).Keeps t s { s with busy := Function.update s.busy repoId (some t) } where
  inv := ⟨hi.numbered, hi.started, hi.ids, hi.repos, hi.sited, hi.ports, hi.held, hi.modules, hi.returned⟩
  rely u _ := by
    refine ⟨fun other h => ?_, fun _ _ => rfl, fun _ _ _ _ => rfl⟩
    have hother : other ≠ repoId := by
      rintro rfl
      cases hfree.symm.trans h
    simp [Function.update_of_ne hother, h]

theorem create_keeps {app : Application} (hi : Allotted fleet s) (hbusy : s.busy app.repoId = some t)
    (hnone : s.sitesOf app.repoId = []) (hid : app.id = s.nextId) (hs' : s'.sites = s.sites ++ [app.site])
    (hnextId : s'.nextId = s.nextId + 1) (hsame : s'.allocations = s.allocations ∧ s'.busy = s.busy ∧ s'.returned = s.returned) :
    (portRules fleet).Keeps t s s' where
  inv := by
    obtain ⟨hallocations, _, hreturned⟩ := hsame
    refine ⟨?_, ?_, ?_, ?_, ?_, ?_, ?_, ?_, ?_⟩
    · rw [hs', hnextId]
      intro site hsite
      rcases List.mem_append.mp hsite with hsite | hsite
      · have := hi.numbered site hsite
        omega
      · obtain rfl := List.mem_singleton.mp hsite
        have := hi.started
        simp only [Application.site, hid]
        omega
    · rw [hnextId]
      omega
    · rw [hs', List.map_append, List.nodup_append]
      refine ⟨hi.ids, List.nodup_singleton _, ?_⟩
      rintro id hmem other hother rfl
      obtain ⟨site, hsite, rfl⟩ := List.mem_map.mp hmem
      have hlt := (hi.numbered site hsite).2
      simp only [List.map_cons, List.map_nil, List.mem_singleton, Application.site, hid] at hother
      omega
    · rw [hs', List.map_append, List.nodup_append]
      refine ⟨hi.repos, List.nodup_singleton _, ?_⟩
      rintro repo hmem other hother rfl
      obtain ⟨site, hsite, rfl⟩ := List.mem_map.mp hmem
      simp only [List.map_cons, List.map_nil, List.mem_singleton, Application.site] at hother
      have hmem : site ∈ s.sitesOf app.repoId := mem_sitesOf.mpr ⟨hsite, hother⟩
      rw [hnone] at hmem
      cases hmem
    · rw [hs', hallocations]
      intro allocation hmem
      obtain ⟨repo, hsite⟩ := hi.sited allocation hmem
      exact ⟨repo, List.mem_append_left _ hsite⟩
    · rw [hallocations]; exact hi.ports
    · rw [hallocations]; exact hi.held
    · rw [hallocations]; exact hi.modules
    · rw [hreturned]; exact hi.returned
  rely u hu := by
    obtain ⟨hallocations, hbusy', _⟩ := hsame
    refine ⟨fun other h => by rwa [hbusy'], fun other h => ?_, fun _ _ _ _ => ?_⟩
    · have hother := busy_other hbusy hu h
      simp only [State.sitesOf, hs', List.filter_append]
      simp [Application.site, Ne.symm hother]
    · simp only [State.allocationsOf, hallocations]

theorem insert_keeps {allocation : PortAllocation} (hi : Allotted fleet s) (hbusy : s.busy repoId = some t)
    (hsite : (allocation.applicationId, repoId, allocation.serverHandle) ∈ s.sites)
    (hvalid : 1 ≤ allocation.port ∧ allocation.port ≤ maxTcpPort) (hport : allocation.port ∉ s.portsOf allocation.serverHandle)
    (hmodule : allocation.serviceName ∉ (s.allocationsOf allocation.applicationId).map (·.serviceName)) :
    (portRules fleet).Keeps t s { s with allocations := s.allocations ++ [allocation] } where
  inv := by
    refine ⟨hi.numbered, hi.started, hi.ids, hi.repos, ?_, ?_, ?_, ?_, hi.returned⟩
    · intro other hmem
      rcases List.mem_append.mp hmem with hmem | hmem
      · exact hi.sited other hmem
      · obtain rfl := List.mem_singleton.mp hmem
        exact ⟨repoId, hsite⟩
    · intro other hmem
      rcases List.mem_append.mp hmem with hmem | hmem
      · exact hi.ports other hmem
      · obtain rfl := List.mem_singleton.mp hmem
        exact hvalid
    · rw [List.map_append, List.nodup_append]
      refine ⟨hi.held, List.nodup_singleton _, ?_⟩
      rintro key hmem other hother rfl
      obtain ⟨held, hheld, hkey⟩ := List.mem_map.mp hmem
      simp only [List.map_cons, List.map_nil, List.mem_singleton] at hother
      obtain ⟨hhandle, hsame⟩ := Prod.mk.inj (hkey.trans hother)
      exact hport (List.mem_map.mpr ⟨held, List.mem_filter.mpr ⟨hheld, by simpa using hhandle⟩, hsame⟩)
    · rw [List.map_append, List.nodup_append]
      refine ⟨hi.modules, List.nodup_singleton _, ?_⟩
      rintro key hmem other hother rfl
      obtain ⟨held, hheld, hkey⟩ := List.mem_map.mp hmem
      simp only [List.map_cons, List.map_nil, List.mem_singleton] at hother
      obtain ⟨hid, hsame⟩ := Prod.mk.inj (hkey.trans hother)
      exact hmodule (List.mem_map.mpr ⟨held, List.mem_filter.mpr ⟨hheld, by simpa using hid⟩, hsame⟩)
  rely u hu := by
    refine ⟨fun _ h => h, fun _ _ => rfl, fun other h site hmem => ?_⟩
    obtain ⟨hmem, hrepo⟩ := mem_sitesOf.mp hmem
    have hid : allocation.applicationId ≠ site.1 := by
      intro hid
      have hsame := site_unique hi hsite hmem hid
      exact busy_other hbusy hu h (hrepo.symm.trans (congrArg (·.2.1) hsame.symm))
    simp [State.allocationsOf, List.filter_append, hid]

theorem ended_keeps (outcome : Option (Except Exn (List Allocated))) (hi : Allotted fleet s)
    (hreturns : ∀ n allocated, t = .ensure n → outcome = some (.ok allocated) → OnePortEach (fleet.requests n).modules allocated) :
    (portRules fleet).Keeps t s (ended t outcome s) where
  inv := by
    refine ⟨hi.numbered, hi.started, hi.ids, hi.repos, hi.sited, hi.ports, hi.held, hi.modules, ?_⟩
    unfold ended
    split
    · next n allocated =>
      intro call hmem
      rcases List.mem_cons.mp hmem with rfl | hmem
      · exact hreturns n allocated rfl rfl
      · exact hi.returned call hmem
    · exact hi.returned
  rely u hu := by
    refine ⟨fun repoId hbusy => ?_, fun _ _ => rfl, fun _ _ _ _ => rfl⟩
    have hother : s.busy repoId ≠ some t := fun h => hu (Option.some.inj (hbusy.symm.trans h))
    simp only [ended, if_neg hother]
    exact hbusy

end Steps

section Programs

variable {fleet : Fleet} {t : Party} {s s' : State} {repoId : String} {sites : List (Nat × String × String)}

/-- `t` is at work for the repository, whose applications are `sites`. -/
def At (t : Party) (repoId : String) (sites : List (Nat × String × String)) (s : State) : Prop :=
  s.busy repoId = some t ∧ s.sitesOf repoId = sites

/-- And `allocations` are those of the application it works on. -/
def Holding (t : Party) (repoId : String) (site : Nat × String × String) (allocations : List PortAllocation) (s : State) : Prop :=
  At t repoId [site] s ∧ s.allocationsOf site.1 = allocations

theorem At.spared (h : At t repoId sites s) (hr : Spares t s s') : At t repoId sites s' :=
  ⟨hr.busy repoId h.1, (hr.sites repoId h.1).trans h.2⟩

variable {site : Nat × String × String}

variable {allocations : List PortAllocation}

theorem Holding.spared (h : Holding t repoId site allocations s)
    (hr : Spares t s s') : Holding t repoId site allocations s' := by
  refine ⟨h.1.spared hr, (hr.allocations repoId h.1.1 site ?_).trans h.2⟩
  rw [h.1.2]
  exact List.mem_singleton_self site

theorem At.aside (h : At t repoId sites s) (haside : Aside s s') : At t repoId sites s' := by
  obtain ⟨hbusy, hsites⟩ := h
  refine ⟨by rwa [haside.busy], ?_⟩
  simpa only [State.sitesOf, haside.sites] using hsites

theorem Holding.aside (h : Holding t repoId site allocations s)
    (haside : Aside s s') : Holding t repoId site allocations s' := by
  refine ⟨h.1.aside haside, ?_⟩
  simpa only [State.allocationsOf, haside.allocations] using h.2

def Op.isRead : Op → Bool
  | .listApplications (some _) none | .createApplication _ | .insertAllocation _ => false
  | _ => true

variable {op : Op}

theorem serve_aside {exec : State → Except Exn (Op.Res op) × State} (fate : Fate Exn) (h : Aside s (exec s).2) :
    Aside s (fate.serve exec s).2 := by
  cases fate with
  | unsent e => exact .refl s
  | _ => exact h

theorem getServer_aside (handle : String) : Aside s (State.getServer handle s).2 := by
  unfold State.getServer
  split <;> exact .refl s

theorem run_aside (hop : op.isRead = true) (reply : Reply) : Aside s (run t op reply s).2 := by
  cases op with
  | getServer handle => exact serve_aside _ (getServer_aside handle)
  | listApplications repoId serverHandle =>
    refine serve_aside _ ?_
    cases repoId with
    | none => cases serverHandle <;> exact ⟨rfl, rfl, rfl, rfl, rfl⟩
    | some repoId => cases serverHandle with
      | none => cases hop
      | some handle => exact .refl s
  | createApplication | insertAllocation => cases hop
  | now => exact .refl s
  | outside => exact change_aside reply.change
  | _ => exact serve_aside _ (.refl s)

theorem read_maintains {P : State → Prop} (hop : op.isRead = true) (hst : (portRules fleet).Stable t P)
    (hP : ∀ s s', Aside s s' → P s → P s') : (portRules fleet).Maintains t P (Prog.perform op) :=
  .perform hst fun _ hi h reply _ =>
    have haside := run_aside hop reply
    ⟨haside.keeps hi, hP _ _ haside h⟩

theorem at_read (hop : op.isRead = true) :
    (portRules fleet).Maintains t (At t repoId sites) (Prog.perform op) :=
  read_maintains hop (fun _ _ _ hr h => h.spared hr) fun _ _ haside h => h.aside haside

theorem holding_read (hop : op.isRead = true) :
    (portRules fleet).Maintains t (Holding t repoId site allocations) (Prog.perform op) :=
  read_maintains hop (fun _ _ _ hr h => h.spared hr) fun _ _ haside h => h.aside haside

theorem weighServer_maintains (settings : Settings) (requiredRamMb minDiskMb : Int) (handles : List String) (server : Server)
    (search : Search) : (portRules fleet).Maintains t (At t repoId sites)
      (weighServer settings requiredRamMb minDiskMb handles server search) := by
  unfold weighServer
  split
  · exact .ret _
  · split
    · exact .ret _
    · refine .bind (at_read rfl) fun applications => ?_
      split
      · exact .ret _
      · exact .bind (at_read rfl) fun clock => .ret _

theorem weighServers_maintains (settings : Settings) (requiredRamMb minDiskMb : Int) (handles : List String) (servers : List Server)
    (search : Search) : (portRules fleet).Maintains t (At t repoId sites)
      (weighServers settings requiredRamMb minDiskMb handles servers search) := by
  induction servers generalizing search with
  | nil => exact .ret search
  | cons server rest ih => exact .bind (weighServer_maintains _ _ _ _ _ _) fun search => ih search

theorem findSuitableServer_maintains (settings : Settings) (minRamMb minDiskMb : Int) :
    (portRules fleet).Maintains t (At t repoId sites) (findSuitableServer settings minRamMb minDiskMb) := by
  refine .bind (at_read rfl) fun servers => .bind (at_read rfl) fun incidents => .bind (weighServers_maintains _ _ _ _ _ _) fun search => ?_
  unfold chooseServer
  split
  · exact .ret _
  · exact .raise _

theorem sitesOf_eq (s : State) (repoId : String) :
    s.sitesOf repoId = (s.applications.filter (·.repoId = repoId)).map Application.site := by
  simp only [State.sitesOf, State.sites, List.filter_map]
  rfl

theorem sitesOf_length (hi : Allotted fleet s) (repoId : String) : (s.sitesOf repoId).length ≤ 1 := by
  have hnodup : ((s.sitesOf repoId).map (·.2.1)).Nodup := (List.filter_sublist.map _).nodup hi.repos
  have hsame : (s.sitesOf repoId).map (·.2.1) = List.replicate (s.sitesOf repoId).length repoId := by
    apply List.eq_replicate_iff.mpr
    refine ⟨List.length_map _, fun repo hmem => ?_⟩
    obtain ⟨site, hsite, rfl⟩ := List.mem_map.mp hmem
    exact (mem_sitesOf.mp hsite).2
  rw [hsame] at hnodup
  exact List.nodup_replicate.mp hnodup

theorem findApplications_sites (hi : Allotted fleet s) (repoId : String) :
    (s.findApplications (some repoId) none).map Application.site = s.sitesOf repoId := by
  have hperm : ((s.findApplications (some repoId) none).map Application.site).Perm (s.sitesOf repoId) := by
    rw [sitesOf_eq]
    refine ((List.perm_insertionSort _ _).trans ?_).map _
    simp
  have hlength := sitesOf_length hi repoId
  match hsites : s.sitesOf repoId with
  | [] => rw [hsites] at hperm; exact List.perm_nil.mp hperm
  | [site] => rw [hsites] at hperm; exact List.perm_singleton.mp hperm
  | _ :: _ :: _ => simp [hsites] at hlength

theorem listExisting_yields : (portRules fleet).Yields t (fun apps => At t repoId (apps.map Application.site))
    (listApplications (some repoId) none) s := by
  refine Yields.perform (fun _ _ => rfl) fun s' reply hi _ hseen hcarried => ⟨claim_keeps hi (hseen hcarried), fun apps heq => ?_⟩
  cases heq
  exact ⟨Function.update_self .., (findApplications_sites hi repoId).symm⟩

theorem getOrCreate_yields {handle serviceName : String} {reservedRamMb : Int} (hi : Allotted fleet s) (h : At t repoId [] s) :
    (portRules fleet).Yields t (fun app s => At t repoId [app.site] s ∧ app.repoId = repoId ∧ app.serverHandle = handle)
      (getOrCreateApplication ⟨repoId, handle, serviceName, reservedRamMb⟩) s := by
  refine Yields.bind hi (M := fun apps s => apps = [] ∧ At t repoId [] s) ?_ fun apps s hi h => ?_
  · refine Yields.perform (fun _ _ => rfl) fun s' reply hi hr _ _ => ⟨.refl _ hi, fun apps heq => ?_⟩
    have hat := h.spared hr
    cases heq
    refine ⟨List.eq_nil_iff_forall_not_mem.mpr fun app hmem => ?_, hat⟩
    have hmem := (List.mem_insertionSort _).mp hmem
    have hsite : app.site ∈ s'.sitesOf repoId := by
      rw [sitesOf_eq]
      apply List.mem_map_of_mem
      simp only [List.mem_filter, Option.all_some, Bool.and_eq_true, decide_eq_true_eq] at hmem ⊢
      exact ⟨hmem.1, hmem.2.1⟩
    rw [hat.2] at hsite
    cases hsite
  · obtain ⟨rfl, h⟩ := h
    refine Yields.perform (fun _ _ => rfl) fun s' reply hi hr _ _ => ?_
    have hat := h.spared hr
    unfold State.createApplication
    split
    · exact ⟨.refl _ hi, nofun⟩
    · let app : Application := ⟨s'.nextId, repoId, handle, serviceName, reservedRamMb.toNat, .notDeployed⟩
      have hsites : (s'.applications ++ [app]).map Application.site = s'.sites ++ [app.site] := List.map_append
      refine ⟨create_keeps hi (show s'.busy app.repoId = some t from hat.1) hat.2 rfl hsites rfl ⟨rfl, rfl, rfl⟩, fun app' heq => ?_⟩
      cases heq
      refine ⟨⟨hat.1, ?_⟩, rfl, rfl⟩
      change ((s'.applications ++ [app]).map Application.site).filter _ = _
      rw [hsites, List.filter_append]
      change s'.sitesOf repoId ++ _ = _
      rw [hat.2]
      simp [Application.site, app]

variable {request : EnsureRequest}

variable {settings : Settings}

theorem reuse_yields {app : Application} (hi : Allotted fleet s)
    (h : At t repoId [app.site] s) :
    (portRules fleet).Yields t (fun r s => r.2 = app ∧ At t repoId [app.site] s) (reuse settings request app) s := by
  refine Yields.bind hi (.of_maintains (at_read rfl) hi h) fun server s hi h => ?_
  refine Yields.bind hi (.of_maintains (at_read rfl) hi h) fun incidents s hi h => ?_
  refine Yields.bind hi (M := fun _ => At t repoId [app.site]) ?_ fun _ s hi h => Yields.ret ⟨rfl, h⟩
  unfold refuseInadmissibleTarget
  split
  · exact Yields.ret h
  · exact Yields.raise

theorem place_yields {existing : List Application} (hi : Allotted fleet s)
    (h : At t request.repoId (existing.map Application.site) s) :
    (portRules fleet).Yields t (fun r s => At t request.repoId [r.2.site] s ∧ handleOf existing r.1 = r.2.serverHandle)
      (place settings request existing) s := by
  match existing with
  | [] =>
    refine Yields.bind hi (.of_maintains (findSuitableServer_maintains _ _ _) hi h) fun server s hi h => ?_
    exact Yields.bind hi (getOrCreate_yields hi h) fun app s hi h => Yields.ret ⟨h.1, h.2.2.symm⟩
  | [app] =>
    refine (reuse_yields hi h).conseq hi fun r s _ h a ha => ?_
    obtain ⟨hsame, hat⟩ := h a ha
    rw [hsame]
    exact ⟨hat, rfl⟩
  | first :: second :: rest =>
    have hlength := sitesOf_length hi request.repoId
    rw [h.2] at hlength
    simp at hlength

def Allocated.allocation (entry : Allocated) : PortAllocation :=
  ⟨entry.serverHandle, entry.port, entry.serviceName, entry.applicationId⟩

def PortAllocation.place (allocation : PortAllocation) : String × Nat := (allocation.serverHandle, allocation.port)

variable {allocated : List Allocated}

theorem putAllocated_append {entry : Allocated}
    (h : entry.allocation.place ∉ (allocated.map Allocated.allocation).map PortAllocation.place) :
    putAllocated allocated entry = allocated ++ [entry] := by
  unfold putAllocated
  congr 1
  apply List.filter_eq_self.mpr
  intro other hmem
  by_contra hsame
  simp only [Bool.not_eq_true, Bool.not_eq_false', Bool.and_eq_true, decide_eq_true_eq] at hsame
  apply h
  rw [List.map_map]
  exact List.mem_map.mpr ⟨other, hmem, Prod.ext hsame.1 hsame.2⟩

theorem Holding.places (hi : Allotted fleet s)
    (h : Holding t repoId site allocations s) : (allocations.map PortAllocation.place).Nodup := by
  rw [← h.2]
  exact (List.filter_sublist.map _).nodup hi.held

theorem Holding.services (hi : Allotted fleet s)
    (h : Holding t repoId site allocations s) : (allocations.map (·.serviceName)).Nodup := by
  have hnodup : (allocations.map fun allocation => (allocation.applicationId, allocation.serviceName)).Nodup := by
    rw [← h.2]
    exact (List.filter_sublist.map _).nodup hi.modules
  have hids (allocation : PortAllocation) (hmem : allocation ∈ allocations) : allocation.applicationId = site.1 := by
    rw [← h.2] at hmem
    simpa using (List.mem_filter.mp hmem).2
  refine List.Nodup.of_map (fun service => (site.1, service)) ?_
  rw [List.map_map]
  refine (List.map_congr_left fun allocation hmem => ?_) ▸ hnodup
  rw [hids allocation hmem]
  rfl

theorem describeAllocations_yields
    (hplaces : (allocations.map PortAllocation.place).Nodup) (hids : ∀ allocation ∈ allocations, allocation.applicationId = site.1)
    (rest : List PortAllocation) (allocated : List Allocated) (hsplit : allocated.map Allocated.allocation ++ rest = allocations)
    (hi : Allotted fleet s) (h : Holding t repoId site allocations s) :
    (portRules fleet).Yields t (fun r s => r.map Allocated.allocation = allocations ∧ Holding t repoId site allocations s)
      (describeAllocations site.1 rest allocated) s := by
  induction rest generalizing allocated s with
  | nil => exact Yields.ret ⟨(List.append_nil _).symm.trans hsplit, h⟩
  | cons allocation rest ih =>
    refine Yields.bind hi (.of_maintains (holding_read rfl) hi h) fun server s hi h => ?_
    have hid : allocation.applicationId = site.1 := hids allocation (hsplit ▸ by simp)
    have hput : putAllocated allocated ⟨allocation.port, allocation.serverHandle, server.publicIp, allocation.serviceName, site.1⟩ =
        allocated ++ [⟨allocation.port, allocation.serverHandle, server.publicIp, allocation.serviceName, site.1⟩] := by
      apply putAllocated_append
      rw [← hsplit, List.map_append, List.nodup_append] at hplaces
      intro hmem
      exact hplaces.2.2 _ hmem _ (List.mem_map_of_mem List.mem_cons_self) rfl
    apply ih _ _ hi h
    rw [hput, List.map_append, List.append_assoc, ← hsplit, ← hid]
    rfl

theorem allocateNextPort_yields {module : String}
    (hsite : site.2.1 = repoId) (hmodule : module ∉ allocations.map (·.serviceName)) (attempts : Nat) (hi : Allotted fleet s)
    (h : Holding t repoId site allocations s) :
    (portRules fleet).Yields t (fun port => Holding t repoId site (allocations ++ [⟨site.2.2, port, module, site.1⟩]))
      (allocateNextPort site.2.2 module site.1 attempts) s := by
  induction attempts generalizing s with
  | zero => exact Yields.raise
  | succ attempts ih =>
    refine Yields.bind hi (M := fun taken s => Holding t repoId site allocations s ∧
      1 ≤ nextPort taken taken.length startPort ∧ nextPort taken taken.length startPort ≤ maxTcpPort) ?_ fun taken s hi h => ?_
    · refine Yields.perform (fun _ _ => rfl) fun s' reply hi hr hseen hcarried => ⟨.refl _ hi, fun taken heq => ?_⟩
      cases heq
      exact ⟨h.spared hr, nextPort_valid (hseen hcarried) _⟩
    · obtain ⟨h, hvalid⟩ := h
      refine Yields.bind hi (M := fun inserted s => Holding t repoId site (if inserted then
        allocations ++ [⟨site.2.2, nextPort taken taken.length startPort, module, site.1⟩] else allocations) s) ?_ fun inserted s hi h => ?_
      · refine Yields.perform (fun _ _ => rfl) fun s' reply hi hr _ _ => ?_
        have hholding := h.spared hr
        unfold State.insertAllocation
        split
        · exact ⟨.refl _ hi, fun inserted heq => by cases heq; exact hholding⟩
        · next hfree =>
          have hown : site ∈ s'.sites := (mem_sitesOf.mp (hholding.1.2 ▸ List.mem_singleton_self site)).1
          have hown : (site.1, repoId, site.2.2) ∈ s'.sites := hsite ▸ hown
          refine ⟨insert_keeps hi hholding.1.1 hown hvalid ?_ ?_, fun inserted heq => ?_⟩
          · simpa using hfree
          · rw [hholding.2]
            exact hmodule
          · cases heq
            refine ⟨hholding.1, ?_⟩
            rw [← hholding.2]
            simp [State.allocationsOf, List.filter_append]
      · cases inserted with
        | true => exact Yields.ret h
        | false => exact ih hi h

theorem allocateModules_yields {serverIp : String} (hsite : site.2.1 = repoId) (modules : List String)
    (allocated : List Allocated) (hnodup : modules.Nodup) (hmissing : ∀ module ∈ modules, module ∉ allocated.map (·.serviceName))
    (hi : Allotted fleet s) (h : Holding t repoId site (allocated.map Allocated.allocation) s) :
    (portRules fleet).Yields t (fun r s => Holding t repoId site (r.map Allocated.allocation) s ∧
      ∀ module, module ∈ modules ∨ module ∈ allocated.map (·.serviceName) → module ∈ r.map (·.serviceName))
      (allocateModules site.2.2 serverIp site.1 modules allocated) s := by
  induction modules generalizing allocated s with
  | nil => exact Yields.ret ⟨h, fun module hmodule => hmodule.elim nofun id⟩
  | cons module rest ih =>
    obtain ⟨hfirst, hrest⟩ := List.nodup_cons.mp hnodup
    have hnew : module ∉ (allocated.map Allocated.allocation).map (·.serviceName) := by
      rw [List.map_map]
      exact hmissing module List.mem_cons_self
    refine Yields.bind hi (allocateNextPort_yields hsite hnew _ hi h) fun port s hi h => ?_
    have hput : putAllocated allocated ⟨port, site.2.2, serverIp, module, site.1⟩ =
        allocated ++ [⟨port, site.2.2, serverIp, module, site.1⟩] := by
      apply putAllocated_append
      have hplaces := h.places hi
      rw [List.map_append, List.nodup_append] at hplaces
      intro hmem
      exact hplaces.2.2 _ hmem _ (List.mem_map_of_mem (List.mem_singleton_self _)) rfl
    simp only [hput]
    refine (ih (allocated ++ [⟨port, site.2.2, serverIp, module, site.1⟩]) hrest ?_ hi ?_).conseq hi fun r s _ h r' heq => ?_
    · intro other hother hmem
      rw [List.map_append] at hmem
      rcases List.mem_append.mp hmem with hmem | hmem
      · exact hmissing other (List.mem_cons_of_mem _ hother) hmem
      · obtain rfl := List.mem_singleton.mp hmem
        exact hfirst hother
    · rw [List.map_append]
      exact h
    · obtain ⟨hholding, hall⟩ := h r' heq
      refine ⟨hholding, fun other hother => hall other ?_⟩
      rw [List.map_append, List.mem_append]
      rcases hother with hother | hother
      · rcases List.mem_cons.mp hother with rfl | hother
        · exact .inr (.inr (List.mem_singleton_self _))
        · exact .inl hother
      · exact .inr (.inl hother)

theorem nodup_eraseDups (modules : List String) : modules.eraseDups.Nodup := by
  induction hlength : modules.length using Nat.strong_induction_on generalizing modules with
  | _ n ih =>
    cases modules with
    | nil => exact List.nodup_nil
    | cons module rest =>
      rw [List.eraseDups_cons, List.nodup_cons]
      refine ⟨?_, ih _ ?_ _ rfl⟩
      · rw [List.mem_eraseDups]
        simp
      · have := List.length_filter_le (fun other => !other == module) rest
        simp only [List.length_cons] at hlength
        omega

theorem filter_singleton {module : String} (hnodup : (allocated.map (·.serviceName)).Nodup)
    (hmem : module ∈ allocated.map (·.serviceName)) : ∃ entry, allocated.filter (·.serviceName = module) = [entry] := by
  induction allocated with
  | nil => cases hmem
  | cons entry rest ih =>
    obtain ⟨hfirst, hrest⟩ := List.nodup_cons.mp hnodup
    by_cases hentry : entry.serviceName = module
    · refine ⟨entry, ?_⟩
      rw [List.filter_cons_of_pos (by simpa using hentry)]
      congr 1
      apply List.filter_eq_nil_iff.mpr
      intro other hother hsame
      exact hfirst (List.mem_map.mpr ⟨other, hother, (of_decide_eq_true hsame).trans hentry.symm⟩)
    · rw [List.filter_cons_of_neg (by simpa using hentry)]
      exact ih hrest ((List.mem_cons.mp hmem).resolve_left (Ne.symm hentry))

theorem checkAllocation_unambiguous (isIpAddress : String → Bool) (alloc : Allocated) (serviceName : String) :
    checkAllocation isIpAddress alloc serviceName ≠ .error (.ambiguousAllocation serviceName) := by
  unfold checkAllocation
  split
  · simp
  · split
    · simp
    · split <;> simp

theorem findAllocation_unambiguous (hnodup : (allocated.map (·.serviceName)).Nodup)
    (isIpAddress : String → Bool) (serviceName : String) :
    findAllocation isIpAddress allocated serviceName ≠ .error (.ambiguousAllocation serviceName) := by
  unfold findAllocation
  by_cases hmem : serviceName ∈ allocated.map (·.serviceName)
  · obtain ⟨entry, hentry⟩ := filter_singleton hnodup hmem
    rw [hentry]
    have hcheck := checkAllocation_unambiguous isIpAddress entry serviceName
    simp only [Except.map]
    split
    · next e heq => simpa [heq] using hcheck
    · simp
  · have hnone : allocated.filter (·.serviceName = serviceName) = [] := by
      refine List.filter_eq_nil_iff.mpr fun entry hentry hsame => hmem ?_
      exact List.mem_map.mpr ⟨entry, hentry, of_decide_eq_true hsame⟩
    rw [hnone]
    simp

theorem onePortEach_of_holding {modules : List String}
    (hi : Allotted fleet s) (h : Holding t repoId site (allocated.map Allocated.allocation) s)
    (hall : ∀ module ∈ modules, module ∈ allocated.map (·.serviceName)) : OnePortEach modules allocated := by
  have hnodup : (allocated.map (·.serviceName)).Nodup := by
    have hservices := h.services hi
    rwa [List.map_map] at hservices
  have hstored (entry : Allocated) (hmem : entry ∈ allocated) : entry.allocation ∈ s.allocations ∧ entry.applicationId = site.1 := by
    have hmem : entry.allocation ∈ s.allocationsOf site.1 := h.2 ▸ List.mem_map_of_mem hmem
    simpa [State.allocationsOf, Allocated.allocation] using hmem
  have hhandle (entry : Allocated) (hmem : entry ∈ allocated) : entry.serverHandle = site.2.2 := by
    obtain ⟨hstored, hid⟩ := hstored entry hmem
    obtain ⟨repo, hsite⟩ := hi.sited _ hstored
    have hown : site ∈ s.sites := (mem_sitesOf.mp (h.1.2 ▸ List.mem_singleton_self site)).1
    exact congrArg (·.2.2) (site_unique hi hsite hown hid)
  exact {
    each := fun module hmodule => filter_singleton hnodup (hall module hmodule)
    apart := hnodup
    unambiguous := findAllocation_unambiguous hnodup
    together := fun entry hentry other hother => (hhandle entry hentry).trans (hhandle other hother).symm
    valid := fun entry hentry => hi.ports _ (hstored entry hentry).1 }

theorem ensureProjectAllocations_yields (hi : Allotted fleet s) :
    (portRules fleet).Yields t (fun allocated _ => OnePortEach request.modules allocated)
      (ensureProjectAllocations settings request) s := by
  refine Yields.bind hi listExisting_yields fun existing s hi h => ?_
  refine Yields.bind hi (place_yields hi h) fun placed s hi h => ?_
  obtain ⟨server, app⟩ := placed
  obtain ⟨hat, hhandle⟩ := h
  have hown {s : State} (hat : At t request.repoId [app.site] s) : app.site ∈ s.sites ∧ app.repoId = request.repoId :=
    mem_sitesOf.mp (hat.2 ▸ List.mem_singleton_self app.site)
  refine Yields.bind hi (M := fun existing s => Holding t request.repoId app.site existing s) ?_ fun allocations s hi h => ?_
  · refine Yields.perform (fun _ _ => rfl) fun s' reply hi hr _ _ => ⟨.refl _ hi, fun allocations heq => ?_⟩
    have hat := hat.spared hr
    cases heq
    refine ⟨hat, ?_⟩
    have hid : app.id ≠ 0 := (hi.numbered app.site (hown hat).1).1
    refine List.filter_congr fun allocation _ => ?_
    simp only [Application.site, hid, decide_false, Bool.false_or]
    rfl
  · have hids (allocation : PortAllocation) (hmem : allocation ∈ allocations) : allocation.applicationId = app.site.1 := by
      rw [← h.2] at hmem
      simpa using (List.mem_filter.mp hmem).2
    refine Yields.bind hi (describeAllocations_yields (h.places hi) hids allocations [] rfl hi h) fun allocated s hi h => ?_
    obtain ⟨rfl, h⟩ := h
    simp only [hhandle]
    have hmissing : ∀ module ∈ missingModules request.modules allocated, module ∉ allocated.map (·.serviceName) := by
      intro module hmem
      simpa using (List.mem_filter.mp hmem).2
    refine (allocateModules_yields (hown h.1).2 _ _ ((nodup_eraseDups _).filter _) hmissing hi h).conseq hi
      fun r s hi hr result heq => ?_
    obtain ⟨hholding, hall⟩ := hr result heq
    refine onePortEach_of_holding hi hholding fun module hmodule => hall module ?_
    by_cases hthere : module ∈ allocated.map (·.serviceName)
    · exact .inr hthere
    · exact .inl (List.mem_filter.mpr ⟨List.mem_eraseDups.mpr hmodule, by simpa using hthere⟩)

end Programs

theorem ports_start (fleet : Fleet) (t : Party) {s : State} (hi : Allotted fleet s) :
    (portRules fleet).Safe t ((portRules fleet).Finishes t) (body fleet t) s := by
  cases t with
  | ensure n =>
    refine Safe.conseq hi (ensureProjectAllocations_yields hi) fun r s hi h => ⟨ended_keeps _ hi ?_, trivial⟩
    rintro _ allocated ⟨⟩ ⟨⟩
    exact h allocated rfl
  | scheduler => exact ⟨ended_keeps (some (.ok [])) hi (fun _ _ h => nomatch h), trivial⟩
  | outside n =>
    have houtside : (portRules fleet).Maintains (.outside n) (fun _ => True) (body fleet (.outside n)) :=
      .bind (read_maintains rfl (fun _ _ _ _ h => h) fun _ _ _ h => h) fun _ => .ret _
    exact (houtside s hi trivial).conseq hi fun r s hi _ => ⟨ended_keeps (some r) hi (fun _ _ h => nomatch h), trivial⟩

/-- As long as the calls for one repository follow one another and ports are left, every
call that returns has one valid port for each of its modules, all on one server, and
neither a port nor a module of an application is allocated twice. -/
theorem one_port_per_module (fleet : Fleet) (start : State) (hstart : Allotted fleet start) (c : Config placementWorld)
    (h : Reaches (body fleet) oneAtATime (Config.idle start) c) : Allotted fleet c.state := by
  have hidle : (portRules fleet).Sound (Config.idle start : Config placementWorld) := .idle hstart fun _ => trivial
  exact (reaches_sound hidle (fun t s hi _ _ => ports_start fleet t hi)
    (fun t s hi _ => ⟨ended_keeps none hi (fun _ _ _ h => nomatch h), trivial⟩) h).inv

def sampleServer : Server where
  handle := "vps-1"
  publicIp := "192.0.2.1"
  status := .active
  isManaged := true
  labels := [("provisioning_phase", .text "complete")]
  capacityRamMb := 4096
  capacityDiskMb := 40960
  usedRamMb := 500
  lastHealthCheck := some ⟨0, none⟩

def sampleFleetState : State where
  servers := [sampleServer]
  incidents := []
  applications := []
  nextId := 1
  allocations := []
  clock := 1000000
  readings := []
  fresh := []
  busy _ := none
  returned := []

def sampleFleet : Fleet where
  settings := ⟨256, 300⟩
  requests n := ⟨"r", "app", if n = 0 then ["backend"] else ["backend", "tg_bot"], 512, 1024⟩

theorem sampleFleetState_allotted : Allotted sampleFleet sampleFleetState := by
  refine ⟨?_, ?_, ?_, ?_, ?_, ?_, ?_, ?_, ?_⟩ <;> simp [sampleFleetState, State.sites]

def served : Reply := ⟨.served, .tick 1000000⟩

def calls (n : Nat) (t : Party) : List (Turn placementWorld) := List.replicate n (.call t fun _ => served)

def redelivered : List (Turn placementWorld) :=
  .start (.ensure 0) :: calls 8 (.ensure 0) ++ [.stop (.ensure 0)] ++ .start (.ensure 1) :: calls 12 (.ensure 1)

theorem sample_one_port_per_module :
    Allotted sampleFleet ((Config.idle sampleFleetState).play (body sampleFleet) redelivered).state ∧
      ((Config.idle sampleFleetState).play (body sampleFleet) redelivered).state.allocations =
        [⟨"vps-1", 8000, "backend", 1⟩, ⟨"vps-1", 8001, "tg_bot", 1⟩] :=
  ⟨one_port_per_module sampleFleet sampleFleetState sampleFleetState_allotted _ (play_reaches (by decide +kernel)), by decide +kernel⟩

def overlapping : List (Turn placementWorld) :=
  .start (.ensure 0) :: calls 8 (.ensure 0) ++ .start (.ensure 1) :: calls 4 (.ensure 1) ++ calls 4 (.ensure 0) ++ calls 6 (.ensure 1)

theorem module_allocated_twice : ¬ (∀ (fleet : Fleet) (start : State), Allotted fleet start → ∀ c : Config placementWorld,
    Reaches (body fleet) anyMove (Config.idle start) c → Allotted fleet c.state) ∧
      ((Config.idle sampleFleetState).play (body sampleFleet) overlapping).state.allocations =
        [⟨"vps-1", 8000, "backend", 1⟩, ⟨"vps-1", 8001, "backend", 1⟩, ⟨"vps-1", 8002, "tg_bot", 1⟩] := by
  have htwice : ((Config.idle sampleFleetState).play (body sampleFleet) overlapping).state.allocations =
      [⟨"vps-1", 8000, "backend", 1⟩, ⟨"vps-1", 8001, "backend", 1⟩, ⟨"vps-1", 8002, "tg_bot", 1⟩] := by decide +kernel
  refine ⟨fun h => ?_, htwice⟩
  have hallotted := h sampleFleet sampleFleetState sampleFleetState_allotted _ (play_reaches_anyMove _ _ overlapping)
  have hmodules := hallotted.modules
  rw [htwice] at hmodules
  exact absurd hmodules (by decide)

end Orchestrator.Placement
