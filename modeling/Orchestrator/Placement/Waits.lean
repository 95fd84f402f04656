import Orchestrator.Async.Solo
import Orchestrator.Placement.Allocations

/-!
The scheduler's question agrees with the allocator's search on every fleet.
-/

namespace Orchestrator.Placement

open Async

def SameFleet (s s' : State) : Prop :=
  s'.servers = s.servers ∧ s'.incidents = s.incidents ∧ s'.applications = s.applications ∧ s'.clock = s.clock

theorem SameFleet.refl (s : State) : SameFleet s s := ⟨rfl, rfl, rfl, rfl⟩

theorem SameFleet.trans {s s' s'' : State} (h : SameFleet s s') (h' : SameFleet s' s'') : SameFleet s s'' :=
  ⟨h'.1.trans h.1, h'.2.1.trans h.2.1, h'.2.2.1.trans h.2.2.1, h'.2.2.2.trans h.2.2.2⟩

def undisturbed : Reply := ⟨.served, .tick 0⟩

def answered (op : Op) : Option (placementWorld.Answer op) := some undisturbed

def Evaluates {A : Type} (t : Party) (s : State) (p : Job A) (r : Except Exn A) : Prop :=
  ∀ s', SameFleet s s' → ∃ s'', solo placementWorld t answered p s' = (some r, s'') ∧ SameFleet s s''

section Evaluation

variable {A B : Type} {t : Party} {s : State}

theorem Evaluates.ret (a : A) : Evaluates t s (.ret a) (.ok a) := fun s' h => ⟨s', rfl, h⟩

theorem Evaluates.raise (e : Exn) : Evaluates t s (.raise e : Job A) (.error e) := fun s' h => ⟨s', rfl, h⟩

theorem Evaluates.outcome {p : Job A} {r : Except Exn A} (h : Evaluates t s p r) :
    (solo placementWorld t answered p s).1 = some r := by
  obtain ⟨s', hrun, _⟩ := h s (.refl s)
  rw [hrun]

theorem Evaluates.bind {p : Job A} {f : A → Job B} {a : A} {r : Except Exn B} (hp : Evaluates t s p (.ok a))
    (hf : Evaluates t s (f a) r) : Evaluates t s (p.bind f) r := by
  intro s' h
  obtain ⟨mid, hrun, hsame⟩ := hp s' h
  obtain ⟨last, hrun', hsame'⟩ := hf mid hsame
  exact ⟨last, (solo_bind_ok hrun).trans hrun', hsame'⟩

theorem Evaluates.perform {op : Op} {r : Except Exn (Op.Res op)}
    (hrun : ∀ s', SameFleet s s' → (run t op undisturbed s').1 = r ∧ SameFleet s' (run t op undisturbed s').2) :
    Evaluates t s (perform op) r := by
  intro s' h
  obtain ⟨hr, hsame⟩ := hrun s' h
  have hanswer : answered op = some undisturbed := rfl
  refine ⟨(run t op undisturbed s').2, ?_, h.trans hsame⟩
  rw [solo_perform hanswer]
  change (some (run t op undisturbed s').1, (run t op undisturbed s').2) = _
  rw [hr]

theorem listServers_evaluates (isManaged : Option Bool) :
    Evaluates t s (listServers isManaged) (.ok (s.listServers isManaged)) := by
  refine .perform fun s' h => ⟨?_, .refl s'⟩
  change Except.ok (s'.listServers isManaged) = _
  simp only [State.listServers, h.1]

theorem listActiveIncidents_evaluates : Evaluates t s listActiveIncidents (.ok s.listActiveIncidents) := by
  refine .perform fun s' h => ⟨?_, .refl s'⟩
  change Except.ok s'.listActiveIncidents = _
  simp only [State.listActiveIncidents, h.2.1]

theorem now_evaluates : Evaluates t s now (.ok s.clock) := .perform fun s' h => ⟨congrArg Except.ok h.2.2.2, .refl s'⟩

theorem listApplications_evaluates (handle : Option String) :
    Evaluates t s (listApplications none handle) (.ok (s.findApplications none handle)) := by
  refine .perform fun s' h => ⟨?_, by cases handle <;> exact ⟨rfl, rfl, rfl, rfl⟩⟩
  change Except.ok (s'.findApplications none handle) = _
  simp only [State.findApplications, h.2.2.1]

end Evaluation

def State.reservedOn (s : State) (handle : String) : Nat := reservedRam (s.findApplications none (some handle))

def State.roomFor (s : State) (freshnessSeconds requiredRamMb minDiskMb : Int) (server : Server) : Bool :=
  serverAdmitsApplication server (provisioningFailedServerHandles s.listActiveIncidents) &&
    minDiskMb ≤ server.capacityDiskMb && hasFreshMetrics s.clock server.lastHealthCheck freshnessSeconds &&
      max (s.reservedOn server.handle : Int) server.usedRamMb + requiredRamMb ≤ server.capacityRamMb

/-- The room of a server as the scheduler sees it: whom it asks about a server without a handle answers with the
applications of all. -/
def State.waitRoomFor (s : State) (freshnessSeconds requiredRamMb minDiskMb : Int) (server : Server) : Bool :=
  serverAdmitsApplication server (provisioningFailedServerHandles s.listActiveIncidents) &&
    minDiskMb ≤ server.capacityDiskMb && hasFreshMetrics s.clock server.lastHealthCheck freshnessSeconds &&
      max (reservedRam (s.findApplications none (askedFor server.handle)) : Int) server.usedRamMb + requiredRamMb ≤
        server.capacityRamMb

/-- A server without a handle that has room is not the only one, unless it has room for all applications. -/
def RoomShows (freshnessSeconds requiredRamMb minDiskMb : Int) (s : State) : Prop :=
  ∀ server ∈ s.servers, server.handle = "" → s.roomFor freshnessSeconds requiredRamMb minDiskMb server = true →
    ∃ other ∈ s.servers, s.roomFor freshnessSeconds requiredRamMb minDiskMb other = true ∧
      (other.handle ≠ "" ∨ max (reservedRam s.applications : Int) other.usedRamMb + requiredRamMb ≤ other.capacityRamMb)

section Agreement

variable {t : Party} {s : State} {settings : Settings} {requiredRamMb minDiskMb freshnessSeconds : Int} {server : Server}
  {search : Search}

theorem roomFor_managed (h : s.roomFor freshnessSeconds requiredRamMb minDiskMb server = true) : server.isManaged = true := by
  cases hmanaged : server.isManaged with
  | true => rfl
  | false => simp [State.roomFor, serverAdmitsApplication, serverAdmissionRejection, hmanaged] at h

theorem rejects_iff {capacity reserved used : Int} (h : capacity < reserved + requiredRamMb) :
    ¬ max reserved used + requiredRamMb ≤ capacity := by omega

variable (t s settings requiredRamMb minDiskMb server search) in
theorem weighServer_evaluates : ∃ search',
    Evaluates t s (weighServer settings requiredRamMb minDiskMb (provisioningFailedServerHandles s.listActiveIncidents) server search)
      (.ok search') ∧
    (search'.suitable.isEmpty = false ↔ search.suitable.isEmpty = false ∨
      s.roomFor settings.allocationMetricsFreshnessSeconds requiredRamMb minDiskMb server = true) := by
  unfold weighServer
  cases hadmission : serverAdmissionRejection server (provisioningFailedServerHandles s.listActiveIncidents) with
  | some rejection =>
    refine ⟨_, .ret _, ?_⟩
    simp [State.roomFor, serverAdmitsApplication, hadmission, Search.rejectAdmission]
  | none =>
    by_cases hdisk : server.capacityDiskMb < minDiskMb
    · simp only [if_pos hdisk]
      refine ⟨_, .ret _, ?_⟩
      simp [State.roomFor, Search.reject, Int.not_le.mpr hdisk]
    · simp only [if_neg hdisk]
      by_cases hreserved : server.capacityRamMb < (s.reservedOn server.handle : Int) + requiredRamMb
      · refine ⟨search.reject .insufficientReservedMemory,
          (listApplications_evaluates (some server.handle)).bind ?_, ?_⟩
        · simp only [State.reservedOn] at hreserved
          simp only [if_pos hreserved]
          exact .ret _
        · simp [State.roomFor, Search.reject, rejects_iff hreserved]
      · refine ⟨weighMetrics settings requiredRamMb server (s.reservedOn server.handle) s.clock search,
          (listApplications_evaluates (some server.handle)).bind ?_, ?_⟩
        · simp only [State.reservedOn] at hreserved
          simp only [if_neg hreserved]
          exact now_evaluates.bind (.ret _)
        · unfold weighMetrics
          by_cases hfresh : hasFreshMetrics s.clock server.lastHealthCheck settings.allocationMetricsFreshnessSeconds = true
          · by_cases hfree : server.capacityRamMb < max (s.reservedOn server.handle : Int) server.usedRamMb + requiredRamMb
            · simp [State.roomFor, Search.reject, hfresh, hfree, Int.not_le.mpr hfree]
            · simp [State.roomFor, Search.accept, serverAdmitsApplication, hadmission, hfresh, hfree, Int.not_lt.mp hdisk,
                Int.not_lt.mp hfree]
          · simp [State.roomFor, Search.reject, hfresh]

variable (t s settings requiredRamMb minDiskMb) in
theorem weighServers_evaluates (servers : List Server) (search : Search) : ∃ search',
    Evaluates t s (weighServers settings requiredRamMb minDiskMb (provisioningFailedServerHandles s.listActiveIncidents) servers search)
      (.ok search') ∧
    (search'.suitable.isEmpty = false ↔ search.suitable.isEmpty = false ∨
      servers.any (s.roomFor settings.allocationMetricsFreshnessSeconds requiredRamMb minDiskMb) = true) := by
  induction servers generalizing search with
  | nil => exact ⟨search, .ret _, by simp⟩
  | cons server rest ih =>
    obtain ⟨search', hserver, hsuitable⟩ := weighServer_evaluates t s settings requiredRamMb minDiskMb server search
    obtain ⟨search'', hrest, hsuitable'⟩ := ih search'
    refine ⟨search'', hserver.bind hrest, ?_⟩
    rw [hsuitable', hsuitable, List.any_cons, Bool.or_eq_true, or_assoc]

theorem roomiest_isSome (candidates : List (Server × Int)) : (roomiest candidates).isSome = !candidates.isEmpty := by
  cases candidates with
  | nil => rfl
  | cons candidate rest =>
    unfold roomiest
    split
    · rfl
    · split <;> rfl

theorem managed_any : (s.listServers (some true)).any (s.roomFor freshnessSeconds requiredRamMb minDiskMb) =
    s.servers.any (s.roomFor freshnessSeconds requiredRamMb minDiskMb) := by
  rw [Bool.eq_iff_iff, List.any_eq_true, List.any_eq_true]
  constructor
  · rintro ⟨server, hmem, hroom⟩
    exact ⟨server, (List.mem_filter.mp hmem).1, hroom⟩
  · rintro ⟨server, hmem, hroom⟩
    exact ⟨server, List.mem_filter.mpr ⟨hmem, by simp [roomFor_managed hroom]⟩, hroom⟩

variable (t s settings minDiskMb) in
theorem findSuitableServer_evaluates (minRamMb : Int) : ∃ r,
    Evaluates t s (findSuitableServer settings minRamMb minDiskMb) r ∧
    ((∃ server, r = .ok server) ↔ s.servers.any (s.roomFor settings.allocationMetricsFreshnessSeconds
      (allocationRequiredRamMb settings minRamMb) minDiskMb) = true) ∧
    ∀ e, r = .error e → ∃ reason, e = .allocationError ⟨reason, allocationRequiredRamMb settings minRamMb, minDiskMb⟩ := by
  obtain ⟨search, hsearch, hsuitable⟩ := weighServers_evaluates t s settings
    (allocationRequiredRamMb settings minRamMb) minDiskMb (s.listServers (some true)) Search.empty
  rw [managed_any] at hsuitable
  have hroom : search.suitable.isEmpty = false ↔ s.servers.any (s.roomFor settings.allocationMetricsFreshnessSeconds
      (allocationRequiredRamMb settings minRamMb) minDiskMb) = true := by
    simpa [Search.empty] using hsuitable
  have hfound : ∃ r, Evaluates t s (chooseServer (s.listServers (some true)) (allocationRequiredRamMb settings minRamMb) minDiskMb search) r ∧
      ((∃ server, r = .ok server) ↔ search.suitable.isEmpty = false) ∧
      ∀ e, r = .error e → ∃ reason, e = .allocationError ⟨reason, allocationRequiredRamMb settings minRamMb, minDiskMb⟩ := by
    have hsome := roomiest_isSome search.suitable
    unfold chooseServer
    cases hbest : roomiest search.suitable with
    | some candidate =>
      rw [hbest] at hsome
      exact ⟨_, .ret _, by simpa using hsome.symm, nofun⟩
    | none =>
      rw [hbest] at hsome
      refine ⟨_, .raise _, by simpa using hsome, fun e he => ?_⟩
      cases he
      exact ⟨_, rfl⟩
  obtain ⟨r, hr, hok, herror⟩ := hfound
  refine ⟨r, ?_, hok.trans hroom, herror⟩
  exact (listServers_evaluates _).bind (listActiveIncidents_evaluates.bind (hsearch.bind hr))

theorem takesRequest_evaluates : Evaluates t s
    (takesRequest freshnessSeconds requiredRamMb minDiskMb (provisioningFailedServerHandles s.listActiveIncidents) s.clock server)
    (.ok (s.waitRoomFor freshnessSeconds requiredRamMb minDiskMb server)) := by
  unfold takesRequest
  by_cases hadmits : serverAdmitsApplication server (provisioningFailedServerHandles s.listActiveIncidents) = true
  swap
  · simp only [State.waitRoomFor, hadmits]
    exact .ret _
  by_cases hcapacity : server.capacityRamMb < requiredRamMb ∨ server.capacityDiskMb < minDiskMb
  · -- With nothing reserved there is no room either.
    have hroom : s.waitRoomFor freshnessSeconds requiredRamMb minDiskMb server = false := by
      rcases hcapacity with hram | hdisk
      · have hnone : ¬ max (reservedRam (s.findApplications none (askedFor server.handle)) : Int) server.usedRamMb +
            requiredRamMb ≤ server.capacityRamMb := by
          have hreserved : 0 ≤ (reservedRam (s.findApplications none (askedFor server.handle)) : Int) := Int.natCast_nonneg _
          omega
        simp [State.waitRoomFor, hnone]
      · simp [State.waitRoomFor, Int.not_le.mpr hdisk]
    rw [hroom]
    simp only [hadmits, hcapacity, Bool.not_true, Bool.false_eq_true, if_false, Bool.or_eq_true, decide_eq_true_eq, if_true]
    exact .ret _
  by_cases hfresh : hasFreshMetrics s.clock server.lastHealthCheck freshnessSeconds = true
  · rw [not_or] at hcapacity
    simp only [hadmits, hcapacity.1, hcapacity.2, hfresh, Bool.not_true, Bool.false_eq_true, if_false, Bool.or_false,
      decide_false]
    unfold getApplications
    refine (listApplications_evaluates _).bind ?_
    simp only [State.waitRoomFor, hadmits, hfresh, Int.not_lt.mp hcapacity.2, Bool.true_and, decide_true]
    exact .ret _
  · simp only [State.waitRoomFor, hadmits, hcapacity, hfresh, Bool.not_true, Bool.false_eq_true, if_false, Bool.not_false, if_true,
      Bool.or_eq_true, decide_eq_true_eq, Bool.and_false, Bool.false_and]
    exact .ret _

theorem anyTakesRequest_evaluates (servers : List Server) : Evaluates t s
    (anyTakesRequest freshnessSeconds requiredRamMb minDiskMb (provisioningFailedServerHandles s.listActiveIncidents) s.clock servers)
    (.ok (servers.any (s.waitRoomFor freshnessSeconds requiredRamMb minDiskMb))) := by
  induction servers with
  | nil => exact .ret false
  | cons server rest ih =>
    refine takesRequest_evaluates.bind ?_
    rw [List.any_cons]
    cases s.waitRoomFor freshnessSeconds requiredRamMb minDiskMb server with
    | true => exact .ret true
    | false => exact ih

variable (t s freshnessSeconds requiredRamMb minDiskMb) in
theorem admissibleTargetExists_evaluates : Evaluates t s
    (admissibleTargetExists freshnessSeconds requiredRamMb minDiskMb)
    (.ok (s.servers.any (s.waitRoomFor freshnessSeconds requiredRamMb minDiskMb))) := by
  refine now_evaluates.bind (listActiveIncidents_evaluates.bind ((listServers_evaluates none).bind ?_))
  have hall : s.listServers none = s.servers := List.filter_eq_self.mpr fun _ _ => rfl
  rw [hall]
  exact anyTakesRequest_evaluates s.servers

theorem reservedOn_le (handle : String) : s.reservedOn handle ≤ reservedRam s.applications := by
  unfold State.reservedOn State.findApplications
  rw [reservedRam_perm (List.perm_insertionSort _ _)]
  exact ((List.filter_sublist.filter _).map _).sum_le_sum (by simp)

theorem reservedRam_all : reservedRam (s.findApplications none none) = reservedRam s.applications := by
  unfold State.findApplications
  rw [reservedRam_perm (List.perm_insertionSort _ _)]
  simp

/-- What the scheduler counts on a server -/
theorem reservedRam_asked (handle : String) : reservedRam (s.findApplications none (askedFor handle)) =
    if handle = "" then reservedRam s.applications else s.reservedOn handle := by
  unfold askedFor
  split
  · exact reservedRam_all
  · rfl

theorem waitRoomFor_iff : s.waitRoomFor freshnessSeconds requiredRamMb minDiskMb server = true ↔
    s.roomFor freshnessSeconds requiredRamMb minDiskMb server = true ∧
      (server.handle = "" → max (reservedRam s.applications : Int) server.usedRamMb + requiredRamMb ≤ server.capacityRamMb) := by
  have hle : (s.reservedOn server.handle : Int) ≤ reservedRam s.applications := Int.ofNat_le.mpr (reservedOn_le _)
  unfold State.waitRoomFor State.roomFor
  rw [reservedRam_asked]
  by_cases hhandle : server.handle = ""
  · simp only [hhandle, if_true, Bool.and_eq_true, decide_eq_true_eq, forall_const] at hle ⊢
    constructor
    · rintro ⟨hadmits, hroom⟩
      exact ⟨⟨hadmits, by omega⟩, hroom⟩
    · rintro ⟨⟨hadmits, -⟩, hroom⟩
      exact ⟨hadmits, hroom⟩
  · simp [hhandle]

theorem rooms_agree_iff : (s.servers.any (s.waitRoomFor freshnessSeconds requiredRamMb minDiskMb) = true ↔
    s.servers.any (s.roomFor freshnessSeconds requiredRamMb minDiskMb) = true) ↔
      RoomShows freshnessSeconds requiredRamMb minDiskMb s := by
  simp only [List.any_eq_true, waitRoomFor_iff]
  constructor
  · intro h server hmem _ hroom
    obtain ⟨other, hother, hseen, hall⟩ := h.mpr ⟨server, hmem, hroom⟩
    exact ⟨other, hother, hseen, (em (other.handle = "")).symm.imp_right hall⟩
  · intro h
    constructor
    · rintro ⟨server, hmem, hroom, -⟩
      exact ⟨server, hmem, hroom⟩
    · rintro ⟨server, hmem, hroom⟩
      by_cases hhandle : server.handle = ""
      · obtain ⟨other, hother, hseen, hnamed | hall⟩ := h server hmem hhandle hroom
        · exact ⟨other, hother, hseen, fun hnone => absurd hnone hnamed⟩
        · exact ⟨other, hother, hseen, fun _ => hall⟩
      · exact ⟨server, hmem, hroom, fun hnone => absurd hnone hhandle⟩

end Agreement

def outcome {A : Type} (t : Party) (p : Job A) (s : State) : Option (Except Exn A) := (solo placementWorld t answered p s).1

/-- The scheduler lets go of those who wait for a budget exactly where the search would find a server for them, and
of whoever was refused exactly where it would find one for the budget that the refusal records, if and only if the
room of a server without a handle shows. -/
theorem wait_agrees_iff (settings : Settings) (minRamMb minDiskMb : Int) (n : Nat) (s : State) :
    ((outcome .scheduler (admissibleTargetExists settings.allocationMetricsFreshnessSeconds
        (allocationRequiredRamMb settings minRamMb) minDiskMb) s = some (.ok true) ↔
      ∃ server, outcome (.ensure n) (findSuitableServer settings minRamMb minDiskMb) s = some (.ok server)) ↔
        RoomShows settings.allocationMetricsFreshnessSeconds (allocationRequiredRamMb settings minRamMb) minDiskMb s) ∧
    ∀ refused error, outcome (.ensure n) (findSuitableServer settings minRamMb minDiskMb) refused = some (.error error) →
      ∃ budget, error = .allocationError budget ∧
        ((outcome .scheduler (resourcesAvailable settings.allocationMetricsFreshnessSeconds (some budget.requiredRamMb)
            (some budget.minDiskMb)) s = some (.ok true) ↔
          ∃ server, outcome (.ensure n) (findSuitableServer settings minRamMb minDiskMb) s = some (.ok server)) ↔
            RoomShows settings.allocationMetricsFreshnessSeconds (allocationRequiredRamMb settings minRamMb) minDiskMb s) := by
  have hagrees : (outcome .scheduler (admissibleTargetExists settings.allocationMetricsFreshnessSeconds
        (allocationRequiredRamMb settings minRamMb) minDiskMb) s = some (.ok true) ↔
      ∃ server, outcome (.ensure n) (findSuitableServer settings minRamMb minDiskMb) s = some (.ok server)) ↔
        RoomShows settings.allocationMetricsFreshnessSeconds (allocationRequiredRamMb settings minRamMb) minDiskMb s := by
    obtain ⟨r, hfound, hroom, _⟩ := findSuitableServer_evaluates (.ensure n) s settings minDiskMb minRamMb
    have hwait := admissibleTargetExists_evaluates .scheduler s (allocationRequiredRamMb settings minRamMb) minDiskMb
      settings.allocationMetricsFreshnessSeconds
    simp only [outcome, hwait.outcome, hfound.outcome, Option.some.injEq, Except.ok.injEq]
    rw [hroom]
    exact rooms_agree_iff
  refine ⟨hagrees, fun refused error herror => ?_⟩
  obtain ⟨r, hfound, _, hbudget⟩ := findSuitableServer_evaluates (.ensure n) refused settings minDiskMb minRamMb
  obtain rfl : r = .error error := by simpa only [outcome, hfound.outcome, Option.some.injEq] using herror
  obtain ⟨reason, rfl⟩ := hbudget error rfl
  exact ⟨_, rfl, hagrees⟩

def namelessServer : Server where
  handle := ""
  publicIp := "192.0.2.1"
  status := .active
  isManaged := true
  labels := [("provisioning_phase", .text "complete")]
  capacityRamMb := 4096
  capacityDiskMb := 40960
  usedRamMb := 500
  lastHealthCheck := some ⟨0, none⟩

/-- The only application runs on another server, which the allocator does not manage. -/
def namelessFleet : State where
  servers := [namelessServer]
  incidents := []
  applications := [⟨1, "r", "vps-1", "app", 4000, .running⟩]
  nextId := 2
  allocations := []
  clock := 1000000
  readings := []
  fresh := []
  busy _ := none
  returned := []

/-- The search takes the server without a handle, and those who wait for one go on waiting. -/
theorem nameless_waits : outcome .scheduler (admissibleTargetExists 300 (allocationRequiredRamMb ⟨256, 300⟩ 512) 1024)
      namelessFleet = some (.ok false) ∧
    ∃ server, outcome (.ensure 0) (findSuitableServer ⟨256, 300⟩ 512 1024) namelessFleet = some (.ok server) := by
  refine ⟨by decide +kernel, ?_⟩
  obtain ⟨r, hfound, hroom, _⟩ := findSuitableServer_evaluates (.ensure 0) namelessFleet ⟨256, 300⟩ 1024 512
  obtain ⟨server, rfl⟩ := hroom.mpr (by decide +kernel)
  exact ⟨server, hfound.outcome⟩

end Orchestrator.Placement
