import Orchestrator.Placement.Ports

/-!
What the applications on a server have reserved stays within its capacity, as long as an
application that starts to count either was placed there on a reading that still holds,
or finds room.
-/

namespace Orchestrator.Placement

open Async Async.Rules

namespace State

def reserved (s : State) (serverHandle : String) : Nat := reservedRam (s.applicationsOn serverHandle)

def capacities (s : State) : List (String × Int) := s.servers.map fun server => (server.handle, server.capacityRamMb)

def Room (s : State) (serverHandle : String) (ramMb : Int) : Prop :=
  ∀ entry ∈ s.capacities, entry.1 = serverHandle → s.reserved serverHandle + ramMb ≤ entry.2

instance (s : State) (serverHandle : String) (ramMb : Int) : Decidable (s.Room serverHandle ramMb) :=
  inferInstanceAs (Decidable (∀ entry ∈ s.capacities, entry.1 = serverHandle → s.reserved serverHandle + ramMb ≤ entry.2))

def Fits (s : State) : Prop := ∀ serverHandle, s.Room serverHandle 0

def mayStart (s : State) (id : Nat) : Prop :=
  id ∈ s.fresh ∨ ∀ app ∈ s.application? id, s.Room app.serverHandle app.reservedRamMb

instance (s : State) (id : Nat) : Decidable (s.mayStart id) :=
  inferInstanceAs (Decidable (id ∈ s.fresh ∨ ∀ app ∈ s.application? id, s.Room app.serverHandle app.reservedRamMb))

structure Keyed (s : State) : Prop where
  handles : (s.capacities.map (·.1)).Nodup
  ids : (s.applications.map (·.id)).Nodup
  numbered : ∀ app ∈ s.applications, app.id < s.nextId

end State

def startsInRoom : State → Move placementWorld → Prop
  | s, .call _ .outside reply => match reply.change with
    | .applicationStatus id status => s.starts id status = true → s.mayStart id
    | _ => True
  | _, _ => True

instance (s : State) (m : Move placementWorld) : Decidable (startsInRoom s m) := by
  rcases m with _ | ⟨_, ⟨⟩, ⟨_, ⟨⟩⟩⟩ | _ <;> dsimp only [startsInRoom] <;> infer_instance

structure Roomy (s : State) : Prop where
  keyed : s.Keyed
  fits : s.Fits
  fresh : ∀ id ∈ s.fresh, ∃ app ∈ s.applications, app.id = id ∧ s.Room app.serverHandle app.reservedRamMb

structure Reads (t : Party) (s s' : State) : Prop where
  capacities : s'.capacities = s.capacities
  readings : ∀ serverHandle, (t, serverHandle) ∈ s'.readings →
    (t, serverHandle) ∈ s.readings ∧ s'.reserved serverHandle ≤ s.reserved serverHandle

theorem Reads.refl (t : Party) (s : State) : Reads t s s := ⟨rfl, fun _ h => ⟨h, Nat.le_refl _⟩⟩

theorem Reads.trans {t : Party} {s s' s'' : State} (h : Reads t s s') (h' : Reads t s' s'') : Reads t s s'' where
  capacities := h'.capacities.trans h.capacities
  readings serverHandle hmem := by
    obtain ⟨hmem', hle'⟩ := h'.readings serverHandle hmem
    obtain ⟨hmem, hle⟩ := h.readings serverHandle hmem'
    exact ⟨hmem, hle'.trans hle⟩

abbrev roomRules : Rules placementWorld where
  admits := startsInRoom
  inv := Roomy
  rely := Reads
  rely_refl := Reads.refl
  rely_trans := Reads.trans
  rest _ _ := True
  rest_stable _ _ _ := trivial

section Reservations

def Application.load (app : Application) : Nat := if app.holdsRamReservation then app.reservedRamMb else 0

theorem reservedRam_eq (apps : List Application) : reservedRam apps = (apps.map Application.load).sum := by
  induction apps with
  | nil => rfl
  | cons app rest ih =>
    unfold reservedRam at ih ⊢
    rw [List.filter_cons, List.map_cons, List.sum_cons, ← ih]
    unfold Application.load
    split <;> simp

theorem reservedRam_append (apps apps' : List Application) :
    reservedRam (apps ++ apps') = reservedRam apps + reservedRam apps' := by
  simp [reservedRam]

theorem reservedRam_map_le {apps : List Application} {f : Application → Application} {id ram : Nat}
    (hnodup : (apps.map (·.id)).Nodup) (hsame : ∀ app ∈ apps, app.id ≠ id → f app = app)
    (hgrows : ∀ app ∈ apps, app.id = id → (f app).load ≤ app.load + ram) :
    reservedRam (apps.map f) ≤ reservedRam apps + ram := by
  rw [reservedRam_eq, reservedRam_eq]
  induction apps with
  | nil => simp
  | cons app rest ih =>
    rw [List.map_cons, List.nodup_cons] at hnodup
    simp only [List.map_cons, List.sum_cons]
    by_cases hid : app.id = id
    · have hother (other : Application) (hmem : other ∈ rest) : f other = other := by
        apply hsame other (List.mem_cons_of_mem _ hmem)
        intro hsame
        exact hnodup.1 (List.mem_map.mpr ⟨other, hmem, hsame.trans hid.symm⟩)
      have hrest : rest.map f = rest := (List.map_congr_left hother).trans (List.map_id' rest)
      have hfirst := hgrows app List.mem_cons_self hid
      rw [hrest]
      omega
    · have hfirst := hsame app List.mem_cons_self hid
      have hrest := ih hnodup.2 (fun other hmem => hsame other (List.mem_cons_of_mem _ hmem))
        fun other hmem => hgrows other (List.mem_cons_of_mem _ hmem)
      rw [hfirst]
      omega

theorem reserved_findApplications (s : State) (serverHandle : String) :
    reservedRam (s.findApplications none (some serverHandle)) = s.reserved serverHandle := by
  refine reservedRam_perm ((List.perm_insertionSort _ _).trans ?_)
  simp [State.applicationsOn]

end Reservations

section Steps

variable {t : Party} {s s' : State} {id : Nat} {status : ApplicationStatus} {serverHandle : String} {ramMb : Int}

theorem room_mono (hcapacities : s'.capacities = s.capacities) (hle : s'.reserved serverHandle ≤ s.reserved serverHandle)
    (h : s.Room serverHandle ramMb) : s'.Room serverHandle ramMb := by
  intro entry hmem hhandle
  rw [hcapacities] at hmem
  have hroom := h entry hmem hhandle
  omega

structure Calm (s s' : State) : Prop where
  capacities : s'.capacities = s.capacities
  applications : s'.applications = s.applications
  nextId : s'.nextId = s.nextId
  fresh : s'.fresh = s.fresh

theorem Calm.refl (s : State) : Calm s s := ⟨rfl, rfl, rfl, rfl⟩

theorem Calm.reserved (h : Calm s s') (serverHandle : String) : s'.reserved serverHandle = s.reserved serverHandle := by
  simp only [State.reserved, State.applicationsOn, h.applications]

theorem Calm.roomy (h : Calm s s') (hi : Roomy s) : Roomy s' where
  keyed := by
    obtain ⟨hhandles, hids, hnumbered⟩ := hi.keyed
    refine ⟨?_, ?_, ?_⟩
    · rwa [h.capacities]
    · rwa [h.applications]
    · rwa [h.applications, h.nextId]
  fits serverHandle := room_mono h.capacities (h.reserved serverHandle).le (hi.fits serverHandle)
  fresh other hmem := by
    rw [h.fresh] at hmem
    obtain ⟨app, hmem, hid, hroom⟩ := hi.fresh other hmem
    exact ⟨app, h.applications ▸ hmem, hid, room_mono h.capacities (h.reserved _).le hroom⟩

theorem Calm.keeps (h : Calm s s') (hi : Roomy s) (hreadings : ∀ u, u ≠ t → ∀ handle, (u, handle) ∈ s'.readings → (u, handle) ∈ s.readings) :
    roomRules.Keeps t s s' where
  inv := h.roomy hi
  rely u hu := ⟨h.capacities, fun handle hmem => ⟨hreadings u hu handle hmem, (h.reserved handle).le⟩⟩

theorem application_unique (hi : Roomy s) {app other : Application} (hmem : app ∈ s.applications) (hother : other ∈ s.applications)
    (hid : app.id = other.id) : app = other := List.inj_on_of_nodup_map hi.keyed.ids hmem hother hid

variable {app : Application}

theorem application?_eq (hi : Roomy s) (hmem : app ∈ s.applications) : s.application? app.id = some app := by
  unfold State.application?
  cases hfind : s.applications.find? (·.id = app.id) with
  | none => simpa using List.find?_eq_none.mp hfind app hmem
  | some other =>
    have hid := List.find?_some hfind
    rw [application_unique hi (List.mem_of_find?_eq_some hfind) hmem (of_decide_eq_true hid)]

theorem reserved_setStatus_le (hi : Roomy s) {ram : Nat}
    (hgrows : ∀ app ∈ s.applications, app.id = id → app.serverHandle = serverHandle →
      Application.load { app with status := status } ≤ app.load + ram) :
    reservedRam ((s.setStatus id status).filter (·.serverHandle = serverHandle)) ≤ s.reserved serverHandle + ram := by
  unfold State.setStatus State.reserved State.applicationsOn
  rw [List.filter_map]
  have hfilter : s.applications.filter ((fun app : Application => decide (app.serverHandle = serverHandle)) ∘
      fun app => if app.id = id then { app with status := status } else app) =
      s.applications.filter (·.serverHandle = serverHandle) := by
    refine List.filter_congr fun app _ => ?_
    simp only [Function.comp_apply]
    split <;> rfl
  rw [hfilter]
  refine @reservedRam_map_le _ _ id ram ?_ ?_ ?_
  · exact (List.filter_sublist.map _).nodup hi.keyed.ids
  · intro app _ hid
    rw [if_neg hid]
  · intro app hmem hid
    rw [if_pos hid]
    have hmem := List.mem_filter.mp hmem
    exact hgrows app hmem.1 hid (of_decide_eq_true hmem.2)

theorem setStatus_keyed (hi : Roomy s) (hcapacities : s'.capacities = s.capacities)
    (happlications : s'.applications = s.setStatus id status) (hnextId : s'.nextId = s.nextId) : s'.Keyed where
  handles := hcapacities ▸ hi.keyed.handles
  ids := by
    have hsame : (s.setStatus id status).map (·.id) = s.applications.map (·.id) := by
      simp only [State.setStatus, List.map_map]
      refine List.map_congr_left fun app _ => ?_
      simp only [Function.comp_apply]
      split <;> rfl
    rw [happlications, hsame]
    exact hi.keyed.ids
  numbered := by
    intro app hmem
    rw [happlications] at hmem
    rw [hnextId]
    obtain ⟨other, hother, rfl⟩ := List.mem_map.mp hmem
    have hlt := hi.keyed.numbered other hother
    split <;> exact hlt

theorem setStatus_fresh (hi : Roomy s) {other : Nat} (hother : other ∈ s.fresh)
    (hle : ∀ app ∈ s.applications, app.id = other →
      reservedRam ((s.setStatus id status).filter (·.serverHandle = app.serverHandle)) ≤ s.reserved app.serverHandle) :
    ∃ app ∈ s.setStatus id status, app.id = other ∧
      ({ s with applications := s.setStatus id status } : State).Room app.serverHandle app.reservedRamMb := by
  obtain ⟨app, hmem, hid, hroom⟩ := hi.fresh other hother
  have hroom' : ({ s with applications := s.setStatus id status } : State).Room app.serverHandle app.reservedRamMb :=
    room_mono (s := s) rfl (hle app hmem hid) hroom
  refine ⟨_, List.mem_map_of_mem hmem, ?_, ?_⟩
  · split
    · exact hid
    · exact hid
  · split <;> exact hroom'

theorem load_le_of_not_starts (hi : Roomy s) (hstarts : s.starts id status = false) (hmem : app ∈ s.applications)
    (hid : app.id = id) : Application.load { app with status := status } ≤ app.load := by
  subst hid
  unfold State.starts at hstarts
  rw [application?_eq hi hmem] at hstarts
  simp only [Option.any_some, Bool.and_eq_false_iff, Bool.not_eq_false'] at hstarts
  unfold Application.load
  rcases hstarts with hcounts | hnot
  · rw [if_pos hcounts]
    split
    · exact Nat.le_refl _
    · exact Nat.zero_le _
  · rw [hnot]
    exact Nat.zero_le _

theorem load_le_add (app : Application) (status : ApplicationStatus) :
    Application.load { app with status := status } ≤ app.load + app.reservedRamMb := by
  have hram : ({ app with status := status } : Application).reservedRamMb = app.reservedRamMb := rfl
  unfold Application.load
  split
  · omega
  · omega

theorem quietStatus_keeps (hi : Roomy s) (hstarts : s.starts id status = false) :
    roomRules.Keeps t s { s with applications := s.setStatus id status } := by
  have hle (serverHandle : String) :
      ({ s with applications := s.setStatus id status } : State).reserved serverHandle ≤ s.reserved serverHandle := by
    change _ ≤ s.reserved serverHandle + 0
    exact reserved_setStatus_le hi fun app hmem hid _ => load_le_of_not_starts hi hstarts hmem hid
  exact {
    inv := {
      keyed := setStatus_keyed hi rfl rfl rfl
      fits := fun serverHandle => room_mono (s := s) rfl (hle serverHandle) (hi.fits serverHandle)
      fresh := fun other hother => setStatus_fresh hi hother fun app _ _ => hle app.serverHandle }
    rely := fun u _ => ⟨rfl, fun serverHandle hmem => ⟨hmem, hle serverHandle⟩⟩ }

theorem start_keeps (hi : Roomy s) (happ : s.application? id = some app) (hmay : s.mayStart id) :
    roomRules.Keeps t s { s with
      applications := s.setStatus id status
      readings := s.readings.filter (·.2 ≠ app.serverHandle)
      fresh := s.fresh.filter fun other => (s.application? other).any (·.serverHandle ≠ app.serverHandle) } := by
  have hmem : app ∈ s.applications := List.mem_of_find?_eq_some happ
  have hid : app.id = id := by simpa using List.find?_some happ
  have hsole (other : Application) (hother : other ∈ s.applications) (hsame : other.id = id) : other = app :=
    application_unique hi hother hmem (hsame.trans hid.symm)
  have hroom : s.Room app.serverHandle app.reservedRamMb := by
    rcases hmay with hfresh | hroom
    · obtain ⟨other, hother, hsame, hroom⟩ := hi.fresh id hfresh
      rwa [hsole other hother hsame] at hroom
    · exact hroom app happ
  have hother {serverHandle : String} (hne : serverHandle ≠ app.serverHandle) :
      reservedRam ((s.setStatus id status).filter (·.serverHandle = serverHandle)) ≤ s.reserved serverHandle := by
    change _ ≤ s.reserved serverHandle + 0
    refine reserved_setStatus_le hi fun other hother hsame hhandle => ?_
    rw [hsole other hother hsame] at hhandle
    exact absurd hhandle.symm hne
  have hown : reservedRam ((s.setStatus id status).filter (·.serverHandle = app.serverHandle)) ≤
      s.reserved app.serverHandle + app.reservedRamMb := by
    refine reserved_setStatus_le hi fun other hother hsame _ => ?_
    rw [hsole other hother hsame]
    exact load_le_add app status
  refine ⟨⟨?_, ?_, ?_⟩, fun u _ => ⟨rfl, ?_⟩⟩
  · exact setStatus_keyed hi rfl rfl rfl
  · intro serverHandle
    by_cases hhandle : serverHandle = app.serverHandle
    · subst hhandle
      intro entry hentry hsame
      have hfits := hroom entry hentry hsame
      change (reservedRam ((s.setStatus id status).filter (·.serverHandle = app.serverHandle)) : Int) + 0 ≤ entry.2
      omega
    · exact room_mono (s := s) rfl (hother hhandle) (hi.fits serverHandle)
  · intro other hfresh
    obtain ⟨hfresh, helsewhere⟩ := List.mem_filter.mp hfresh
    refine setStatus_fresh hi hfresh fun placed hplaced hsame => hother ?_
    rw [← hsame, application?_eq hi hplaced] at helsewhere
    simpa using helsewhere
  · intro serverHandle hreading
    obtain ⟨hreading, helsewhere⟩ := List.mem_filter.mp hreading
    exact ⟨hreading, hother (of_decide_eq_true helsewhere)⟩

theorem changeStatus_keeps (hi : Roomy s) (hmay : s.starts id status = true → s.mayStart id) :
    roomRules.Keeps t s (s.changeStatus id status) := by
  unfold State.changeStatus
  cases hstarts : s.starts id status with
  | false =>
    have hnone : (s.application? id).filter (fun _ => false) = none := by cases s.application? id <;> rfl
    simp only [hnone]
    exact quietStatus_keeps hi hstarts
  | true =>
    cases happ : s.application? id with
    | none =>
      unfold State.starts at hstarts
      rw [happ] at hstarts
      cases hstarts
    | some app =>
      simp only [Option.filter_some, if_true]
      exact start_keeps hi happ (hmay hstarts)

theorem change_keeps {change : OutsideChange} (hi : Roomy s)
    (hmay : ∀ id status, change = .applicationStatus id status → s.starts id status = true → s.mayStart id) :
    roomRules.Keeps t s (change.apply s) := by
  have hedit (serverHandle : String) (f : Server → Server) (hf : ∀ server, (f server).handle = server.handle ∧
      (f server).capacityRamMb = server.capacityRamMb) : roomRules.Keeps t s (s.editServer serverHandle f) := by
    refine Calm.keeps ⟨?_, rfl, rfl, rfl⟩ hi fun _ _ _ h => h
    simp only [State.capacities, State.editServer, List.map_map]
    refine List.map_congr_left fun server _ => ?_
    simp only [Function.comp_apply]
    split
    · exact Prod.ext (hf server).1 (hf server).2
    · rfl
  cases change with
  | applicationStatus id status => exact changeStatus_keeps hi (hmay id status rfl)
  | writeIncidents | tick => exact Calm.keeps ⟨rfl, rfl, rfl, rfl⟩ hi fun _ _ _ h => h
  | _ => exact hedit _ _ fun _ => ⟨rfl, rfl⟩

theorem create_room_keeps (hi : Roomy s) (hid : app.id = s.nextId) (hidle : app.holdsRamReservation = false)
    (hroom : (t, app.serverHandle) ∈ s.readings → s.Room app.serverHandle app.reservedRamMb) :
    roomRules.Keeps t s { s with
      applications := s.applications ++ [app]
      nextId := s.nextId + 1
      fresh := if s.readings.contains (t, app.serverHandle) then s.nextId :: s.fresh else s.fresh } := by
  have hreserved (serverHandle : String) :
      reservedRam ((s.applications ++ [app]).filter (·.serverHandle = serverHandle)) = s.reserved serverHandle := by
    rw [List.filter_append, reservedRam_append]
    have hnone : reservedRam ([app].filter (·.serverHandle = serverHandle)) = 0 := by
      by_cases hhandle : app.serverHandle = serverHandle
      · simp [hhandle, reservedRam, hidle]
      · simp [hhandle, reservedRam]
    rw [hnone]
    rfl
  refine ⟨⟨⟨hi.keyed.handles, ?_, ?_⟩, ?_, ?_⟩, fun u _ => ⟨rfl, fun serverHandle hmem => ⟨hmem, (hreserved serverHandle).le⟩⟩⟩
  · rw [List.map_append, List.nodup_append]
    refine ⟨hi.keyed.ids, List.nodup_singleton _, ?_⟩
    rintro id hmem other hother rfl
    obtain ⟨placed, hplaced, rfl⟩ := List.mem_map.mp hmem
    have hlt := hi.keyed.numbered placed hplaced
    simp only [List.map_cons, List.map_nil, List.mem_singleton] at hother
    omega
  · intro placed hmem
    rcases List.mem_append.mp hmem with hmem | hmem
    · exact Nat.lt_succ_of_lt (hi.keyed.numbered placed hmem)
    · rw [List.mem_singleton.mp hmem, hid]
      exact Nat.lt_succ_self s.nextId
  · exact fun serverHandle => room_mono (s := s) rfl (hreserved serverHandle).le (hi.fits serverHandle)
  · have hold : ∀ other ∈ s.fresh, ∃ placed ∈ s.applications ++ [app], placed.id = other ∧ State.Room { s with
        applications := s.applications ++ [app]
        nextId := s.nextId + 1
        fresh := if s.readings.contains (t, app.serverHandle) then s.nextId :: s.fresh else s.fresh }
        placed.serverHandle placed.reservedRamMb := by
      intro other hother
      obtain ⟨placed, hmem, hsame, hroom⟩ := hi.fresh other hother
      exact ⟨placed, List.mem_append_left _ hmem, hsame, room_mono (s := s) rfl (hreserved _).le hroom⟩
    intro other hother
    split at hother
    · next hread =>
      rcases List.mem_cons.mp hother with rfl | hother
      · refine ⟨app, by simp, hid, room_mono (s := s) rfl (hreserved _).le (hroom ?_)⟩
        simpa using hread
      · exact hold other hother
    · exact hold other hother

theorem ended_room_keeps (outcome : Option (Except Exn (List Allocated))) (hi : Roomy s) :
    roomRules.Keeps t s (ended t outcome s) :=
  Calm.keeps ⟨rfl, rfl, rfl, rfl⟩ hi fun _ _ _ hmem => (List.mem_filter.mp hmem).1

end Steps

section Programs

variable {t : Party} {s s' : State} {requiredRamMb : Int}

/-- As far as `t`'s reading of the server still holds, the server has room for so much. -/
structure Seen (t : Party) (requiredRamMb : Int) (server : Server) (s : State) : Prop where
  known : (server.handle, server.capacityRamMb) ∈ s.capacities
  room : (t, server.handle) ∈ s.readings → s.reserved server.handle + requiredRamMb ≤ server.capacityRamMb

variable {server : Server}

theorem Seen.kept (h : Seen t requiredRamMb server s) (hr : Reads t s s') : Seen t requiredRamMb server s' where
  known := hr.capacities ▸ h.known
  room hmem := by
    obtain ⟨hmem, hle⟩ := hr.readings server.handle hmem
    have hroom := h.room hmem
    omega

structure Searched (t : Party) (requiredRamMb : Int) (rest : List Server) (search : Search) (s : State) : Prop where
  found : ∀ candidate ∈ search.suitable, Seen t requiredRamMb candidate.1 s
  ahead : ∀ server ∈ rest, (server.handle, server.capacityRamMb) ∈ s.capacities
  apart : (search.suitable.map (·.1.handle) ++ rest.map (·.handle)).Nodup

variable {rest : List Server}

variable {search : Search}

theorem Searched.kept (h : Searched t requiredRamMb rest search s) (hr : Reads t s s') :
    Searched t requiredRamMb rest search s' where
  found candidate hmem := (h.found candidate hmem).kept hr
  ahead server hmem := hr.capacities ▸ h.ahead server hmem
  apart := h.apart

theorem Searched.passed {search search' : Search}
    (h : Searched t requiredRamMb (server :: rest) search s) (hsame : search'.suitable = search.suitable) :
    Searched t requiredRamMb rest search' s where
  found := hsame ▸ h.found
  ahead other hmem := h.ahead other (List.mem_cons_of_mem _ hmem)
  apart := by
    rw [hsame]
    exact h.apart.sublist (List.Sublist.append_left (List.sublist_cons_self _ _) _)

theorem Searched.accepted
    (h : Searched t requiredRamMb (server :: rest) search s) (hseen : Seen t requiredRamMb server s) (slack : Int) :
    Searched t requiredRamMb rest (search.accept server slack) s where
  found candidate hmem := by
    rcases List.mem_append.mp hmem with hmem | hmem
    · exact h.found candidate hmem
    · rw [List.mem_singleton.mp hmem]
      exact hseen
  ahead other hmem := h.ahead other (List.mem_cons_of_mem _ hmem)
  apart := by
    have hsplit : (search.accept server slack).suitable.map (·.1.handle) ++ rest.map (·.handle) =
        search.suitable.map (·.1.handle) ++ (server :: rest).map (·.handle) := by simp [Search.accept]
    rw [hsplit]
    exact h.apart

def Op.isQuiet : Op → Bool
  | .listApplications none (some _) | .createApplication _ | .outside => false
  | _ => true

theorem serve_calm {op : Op} {exec : State → Except Exn (Op.Res op) × State} (fate : Fate Exn)
    (h : Calm s (exec s).2 ∧ (exec s).2.readings = s.readings) :
    Calm s (fate.serve exec s).2 ∧ (fate.serve exec s).2.readings = s.readings := by
  cases fate with
  | unsent e => exact ⟨.refl s, rfl⟩
  | _ => exact h

theorem run_calm {op : Op} (hop : op.isQuiet = true) (reply : Reply) :
    Calm s (run t op reply s).2 ∧ (run t op reply s).2.readings = s.readings := by
  cases op with
  | getServer handle =>
    refine serve_calm _ ?_
    unfold State.getServer
    split <;> exact ⟨.refl s, rfl⟩
  | listApplications repoId serverHandle =>
    refine serve_calm _ ?_
    cases repoId with
    | none => cases serverHandle with
      | none => exact ⟨.refl s, rfl⟩
      | some handle => cases hop
    | some repoId => cases serverHandle <;> exact ⟨⟨rfl, rfl, rfl, rfl⟩, rfl⟩
  | createApplication => cases hop
  | insertAllocation =>
    refine serve_calm _ ?_
    unfold State.insertAllocation
    split
    · exact ⟨.refl s, rfl⟩
    · exact ⟨⟨rfl, rfl, rfl, rfl⟩, rfl⟩
  | now => exact ⟨.refl s, rfl⟩
  | outside => cases hop
  | _ => exact serve_calm _ ⟨.refl s, rfl⟩

theorem quiet_maintains {op : Op} {P : State → Prop} (hop : op.isQuiet = true) (hP : ∀ s s', Reads t s s' → P s → P s') :
    roomRules.Maintains t P (Prog.perform op) :=
  .perform (fun s s' _ => hP s s') fun s hi h reply _ => by
    obtain ⟨hcalm, hreadings⟩ := run_calm hop reply
    refine ⟨hcalm.keeps hi fun _ _ _ hmem => hreadings ▸ hmem, hP _ _ ⟨hcalm.capacities, fun handle hmem => ?_⟩ h⟩
    exact ⟨hreadings ▸ hmem, (hcalm.reserved handle).le⟩

theorem searched_quiet {op : Op} (hop : op.isQuiet = true) :
    roomRules.Maintains t (Searched t requiredRamMb rest search) (Prog.perform op) :=
  quiet_maintains hop fun _ _ hr h => h.kept hr

theorem readServer_yields
    (h : Searched t requiredRamMb (server :: rest) search s) :
    roomRules.Yields t (fun apps s => Searched t requiredRamMb (server :: rest) search s ∧
      ((t, server.handle) ∈ s.readings → s.reserved server.handle ≤ reservedRam apps))
      (listApplications none (some server.handle)) s := by
  refine Yields.perform (fun _ _ => rfl) fun s' reply hi hr _ _ => ?_
  have h := h.kept hr
  refine ⟨Calm.keeps ⟨rfl, rfl, rfl, rfl⟩ hi fun u hu handle hmem => ?_, fun apps heq => ?_⟩
  · rcases List.mem_cons.mp hmem with hsame | hmem
    · exact absurd (congrArg (·.1) hsame) hu
    · exact hmem
  · cases heq
    refine ⟨⟨fun candidate hmem => ⟨(h.found candidate hmem).known, fun hread => ?_⟩, h.ahead, h.apart⟩, fun _ => ?_⟩
    · rcases List.mem_cons.mp hread with hsame | hread
      · have hhandle : candidate.1.handle = server.handle := congrArg (·.2) hsame
        have hapart := (List.nodup_append.mp h.apart).2.2 _ (List.mem_map_of_mem hmem) server.handle (by simp)
        exact absurd hhandle hapart
      · exact (h.found candidate hmem).room hread
    · rw [reserved_findApplications]
      exact Nat.le_refl _

variable {settings : Settings}

theorem weighMetrics_searched {reservedRamMb : Nat}
    (clock : Int) (h : Searched t requiredRamMb (server :: rest) search s) (hseen : Seen t requiredRamMb server s) :
    Searched t requiredRamMb rest (weighMetrics settings requiredRamMb server reservedRamMb clock search) s := by
  unfold weighMetrics
  split
  · exact h.passed rfl
  · split
    · exact h.passed rfl
    · exact h.accepted hseen _

theorem weighServer_yields {minDiskMb : Int} {handles : List String}
    (hi : Roomy s) (h : Searched t requiredRamMb (server :: rest) search s) :
    roomRules.Yields t (Searched t requiredRamMb rest) (weighServer settings requiredRamMb minDiskMb handles server search) s := by
  unfold weighServer
  split
  · exact Yields.ret (h.passed rfl)
  · split
    · exact Yields.ret (h.passed rfl)
    · refine Yields.bind hi (readServer_yields h) fun apps s hi h => ?_
      obtain ⟨h, hreads⟩ := h
      split
      · exact Yields.ret (h.passed rfl)
      · next henough =>
        have hseen : Seen t requiredRamMb server s := by
          refine ⟨h.ahead server List.mem_cons_self, fun hread => ?_⟩
          have hle := hreads hread
          omega
        have hnow : roomRules.Maintains t (fun s => Searched t requiredRamMb (server :: rest) search s ∧ Seen t requiredRamMb server s)
            now := quiet_maintains rfl fun _ _ hr h => ⟨h.1.kept hr, h.2.kept hr⟩
        exact Yields.bind hi (.of_maintains hnow hi ⟨h, hseen⟩) fun clock s hi h => Yields.ret (weighMetrics_searched clock h.1 h.2)

theorem weighServers_yields {minDiskMb : Int} {handles : List String} {servers : List Server}
    (hi : Roomy s) (h : Searched t requiredRamMb servers search s) :
    roomRules.Yields t (Searched t requiredRamMb []) (weighServers settings requiredRamMb minDiskMb handles servers search) s := by
  induction servers generalizing search s with
  | nil => exact Yields.ret h
  | cons server rest ih => exact Yields.bind hi (weighServer_yields hi h) fun search s hi h => ih hi h

theorem roomiest_mem {candidates : List (Server × Int)} {candidate : Server × Int} (h : roomiest candidates = some candidate) :
    candidate ∈ candidates := by
  induction candidates generalizing candidate with
  | nil => cases h
  | cons first rest ih =>
    unfold roomiest at h
    split at h
    · cases h
      exact List.mem_cons_self
    · next other hother =>
      split at h
      · cases h
        exact List.mem_cons_of_mem _ (ih hother)
      · cases h
        exact List.mem_cons_self

theorem findSuitableServer_yields {minRamMb minDiskMb : Int} (hi : Roomy s) :
    roomRules.Yields t (Seen t (allocationRequiredRamMb settings minRamMb)) (findSuitableServer settings minRamMb minDiskMb) s := by
  refine Yields.bind hi (M := fun servers s => Searched t (allocationRequiredRamMb settings minRamMb) servers .empty s) ?_
    fun servers s hi h => ?_
  · refine Yields.perform (fun _ _ => rfl) fun s' reply hi _ _ _ => ⟨.refl _ hi, fun servers heq => ?_⟩
    cases heq
    refine ⟨fun _ hmem => absurd hmem List.not_mem_nil, fun server hmem => ?_, ?_⟩
    · exact List.mem_map_of_mem (List.mem_of_mem_filter hmem)
    · have hhandles : (s'.servers.map (·.handle)).Nodup := by
        have hhandles := hi.keyed.handles
        rwa [State.capacities, List.map_map] at hhandles
      exact (List.filter_sublist.map _).nodup hhandles
  · refine Yields.bind hi (.of_maintains (searched_quiet rfl) hi h) fun incidents s hi h => ?_
    refine Yields.bind hi (weighServers_yields hi h) fun search s hi h => ?_
    unfold chooseServer
    split
    · next candidate hbest => exact Yields.ret (h.found candidate (roomiest_mem hbest))
    · exact Yields.raise

theorem getOrCreate_room {repoId serviceName : String} {minRamMb : Int} (hi : Roomy s)
    (h : Seen t (allocationRequiredRamMb settings minRamMb) server s) :
    roomRules.Yields t (fun _ _ => True) (getOrCreateApplication ⟨repoId, server.handle, serviceName, minRamMb⟩) s := by
  refine Yields.bind hi (.of_maintains (quiet_maintains rfl fun _ _ hr h => Seen.kept h hr) hi h) fun apps s hi h => ?_
  cases apps with
  | cons app rest => exact Yields.ret trivial
  | nil =>
    refine Yields.perform (fun _ _ => rfl) fun s' reply hi hr _ _ => ⟨?_, fun _ _ => trivial⟩
    have h := h.kept hr
    unfold State.createApplication
    split
    · exact .refl _ hi
    · next hvalid =>
      have hram : (minRamMb.toNat : Int) = minRamMb := by
        simp only [Bool.or_eq_true, decide_eq_true_eq, not_or] at hvalid
        omega
      refine @create_room_keeps t s' ⟨s'.nextId, repoId, server.handle, serviceName, minRamMb.toNat, .notDeployed⟩ hi rfl rfl ?_
      intro hread entry hmem hhandle
      have hentry : entry = (server.handle, server.capacityRamMb) :=
        List.inj_on_of_nodup_map hi.keyed.handles hmem h.known hhandle
      have hroom := h.room hread
      unfold allocationRequiredRamMb at hroom
      rw [hentry, hram]
      change (s'.reserved server.handle : Int) + minRamMb ≤ server.capacityRamMb
      omega

theorem place_room {request : EnsureRequest} (existing : List Application) (hi : Roomy s) :
    roomRules.Yields t (fun _ _ => True) (place settings request existing) s := by
  have hquiet {op : Op} (hop : op.isQuiet = true) : roomRules.Maintains t (fun _ => True) (Prog.perform op) :=
    quiet_maintains hop fun _ _ _ h => h
  cases existing with
  | cons app rest =>
    refine .of_maintains (.bind (hquiet rfl) fun server => .bind (hquiet rfl) fun incidents => .bind ?_ fun _ => .ret _) hi trivial
    unfold refuseInadmissibleTarget
    split
    · exact .ret _
    · exact .raise _
  | nil =>
    refine Yields.bind hi (findSuitableServer_yields hi) fun server s hi h => ?_
    exact Yields.bind hi (getOrCreate_room hi h) fun app s hi _ => Yields.ret trivial

theorem describeAllocations_room (applicationId : Nat) (rest : List PortAllocation) (allocated : List Allocated) :
    roomRules.Maintains t (fun _ => True) (describeAllocations applicationId rest allocated) := by
  induction rest generalizing allocated with
  | nil => exact .ret _
  | cons allocation rest ih => exact .bind (quiet_maintains rfl fun _ _ _ h => h) fun server => ih _

theorem allocateNextPort_room (serverHandle serviceName : String) (applicationId attempts : Nat) :
    roomRules.Maintains t (fun _ => True) (allocateNextPort serverHandle serviceName applicationId attempts) := by
  induction attempts with
  | zero => exact .raise _
  | succ attempts ih =>
    refine .bind (quiet_maintains rfl fun _ _ _ h => h) fun taken => .bind (quiet_maintains rfl fun _ _ _ h => h) fun inserted => ?_
    cases inserted with
    | true => exact .ret _
    | false => exact ih

theorem allocateModules_room (serverHandle serverIp : String) (applicationId : Nat) (modules : List String)
    (allocated : List Allocated) :
    roomRules.Maintains t (fun _ => True) (allocateModules serverHandle serverIp applicationId modules allocated) := by
  induction modules generalizing allocated with
  | nil => exact .ret _
  | cons module rest ih => exact .bind (allocateNextPort_room _ _ _ _) fun port => ih _

theorem ensureProjectAllocations_room {request : EnsureRequest} (hi : Roomy s) :
    roomRules.Yields t (fun _ _ => True) (ensureProjectAllocations settings request) s := by
  have hquiet {op : Op} (hop : op.isQuiet = true) : roomRules.Maintains t (fun _ => True) (Prog.perform op) :=
    quiet_maintains hop fun _ _ _ h => h
  refine Yields.bind hi (.of_maintains (hquiet rfl) hi trivial) fun existing s hi _ => ?_
  refine Yields.bind hi (place_room existing hi) fun placed s hi _ => ?_
  refine .of_maintains (.bind (hquiet rfl) fun allocations => .bind (describeAllocations_room _ _ _) fun allocated => ?_) hi trivial
  exact allocateModules_room _ _ _ _ _

theorem room_start (fleet : Fleet) (t : Party) (hi : Roomy s) :
    roomRules.Safe t (roomRules.Finishes t) (body fleet t) s := by
  have hends {s : State} (hi : Roomy s) (r : Except Exn (List Allocated)) : roomRules.Finishes t r s :=
    ⟨ended_room_keeps (some r) hi, trivial⟩
  cases t with
  | ensure n => exact (ensureProjectAllocations_room hi).conseq hi fun r s hi _ => hends hi r
  | scheduler => exact hends hi _
  | outside n =>
    refine Safe.bind (M := fun _ _ => True) hi (Safe.perform fun s' hi hr reply hmay => ⟨?_, trivial⟩)
      (fun _ s hi _ => hends hi _) fun e s hi _ => hends hi _
    obtain ⟨fate, applied⟩ : Reply := reply
    refine change_keeps hi fun id status hchange => ?_
    cases hchange
    exact hmay

end Programs

/-- From a fleet that fits, with nothing under way, no server is ever overcommitted: so
long as each application that starts to count was placed on a reading that still holds, or
has room. -/
theorem never_overcommitted (fleet : Fleet) (start : State) (hkeyed : start.Keyed) (hfits : start.Fits) (hfresh : start.fresh = [])
    (c : Config placementWorld) (h : Reaches (body fleet) startsInRoom (Config.idle start) c) :
    ∀ server ∈ c.state.servers, c.state.reserved server.handle ≤ server.capacityRamMb := by
  have hidle : roomRules.Sound (Config.idle start : Config placementWorld) := by
    refine .idle ⟨hkeyed, hfits, ?_⟩ fun _ => trivial
    rw [hfresh]
    exact nofun
  have hroomy := (reaches_sound hidle (fun t s hi _ _ => room_start fleet t hi)
    (fun t s hi _ => ⟨ended_room_keeps none hi, trivial⟩) h).inv
  intro server hmem
  have hroom := hroomy.fits server.handle (server.handle, server.capacityRamMb) (List.mem_map_of_mem hmem) rfl
  simpa using hroom

def crowdedFleet : Fleet where
  settings := ⟨256, 300⟩
  requests n := ⟨if n = 0 then "r" else "q", "app", ["backend"], 3000, 1024⟩

def runs (execution id : Nat) : List (Turn placementWorld) :=
  [.start (.outside execution), .call (.outside execution) fun _ => ⟨.served, .applicationStatus id .running⟩]

def oneAfterTheOther : List (Turn placementWorld) :=
  .start (.ensure 0) :: calls 10 (.ensure 0) ++ runs 0 1 ++ .start (.ensure 1) :: calls 5 (.ensure 1)

theorem sampleFleetState_keyed : sampleFleetState.Keyed := ⟨by decide, by decide, by decide⟩

theorem sampleFleetState_fits : sampleFleetState.Fits := by
  intro serverHandle entry hmem _
  simp only [State.capacities, sampleFleetState, List.map_cons, List.map_nil, List.mem_singleton] at hmem
  rw [hmem]
  change ((0 : Nat) : Int) + 0 ≤ 4096
  decide

theorem sample_never_overcommitted :
    (∀ server ∈ ((Config.idle sampleFleetState).play (body crowdedFleet) oneAfterTheOther).state.servers,
      ((Config.idle sampleFleetState).play (body crowdedFleet) oneAfterTheOther).state.reserved server.handle ≤ server.capacityRamMb) ∧
      ((Config.idle sampleFleetState).play (body crowdedFleet) oneAfterTheOther).state.applications =
        [⟨1, "r", "vps-1", "app", 3000, .running⟩] :=
  ⟨never_overcommitted crowdedFleet sampleFleetState sampleFleetState_keyed sampleFleetState_fits rfl _
    (play_reaches (by decide +kernel)), by decide +kernel⟩

def bothPlaced : List (Turn placementWorld) :=
  .start (.ensure 0) :: calls 10 (.ensure 0) ++ .start (.ensure 1) :: calls 10 (.ensure 1) ++ runs 0 1 ++ runs 1 2

theorem server_overcommitted : ¬ (∀ (fleet : Fleet) (start : State), start.Keyed → start.Fits → start.fresh = [] →
    ∀ c : Config placementWorld, Reaches (body fleet) anyMove (Config.idle start) c →
      ∀ server ∈ c.state.servers, c.state.reserved server.handle ≤ server.capacityRamMb) ∧
      ((Config.idle sampleFleetState).play (body crowdedFleet) bothPlaced).state.reserved "vps-1" = 6000 := by
  have hover : ((Config.idle sampleFleetState).play (body crowdedFleet) bothPlaced).state.reserved "vps-1" = 6000 := by
    decide +kernel
  have hservers : ((Config.idle sampleFleetState).play (body crowdedFleet) bothPlaced).state.servers = [sampleServer] := by rfl
  refine ⟨fun h => ?_, hover⟩
  have hfits := h crowdedFleet sampleFleetState sampleFleetState_keyed sampleFleetState_fits rfl _
    (play_reaches_anyMove _ _ bothPlaced) sampleServer (hservers ▸ List.mem_singleton_self _)
  change ((_ : Nat) : Int) ≤ 4096 at hfits
  rw [show sampleServer.handle = "vps-1" from rfl, hover] at hfits
  exact absurd hfits (by decide)

end Orchestrator.Placement
