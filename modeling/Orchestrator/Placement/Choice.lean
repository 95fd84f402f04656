import Orchestrator.Placement.Waits

/-!
The server that the search returns, and what its refusal says of the fleet.
-/

namespace Orchestrator.Placement

open Async Contracts

variable {t : Party} {s : State} {settings : Settings} {requiredRamMb minDiskMb : Int} {server other : Server}
  {reason : RejectionReason} {candidates : List (Server × Int)} {candidate : Server × Int}

namespace State

def admission (s : State) (server : Server) : Option ServerAdmissionRejection :=
  serverAdmissionRejection server (provisioningFailedServerHandles s.listActiveIncidents)

def rejection (s : State) (settings : Settings) (requiredRamMb minDiskMb : Int) (server : Server) : Option RejectionReason :=
  if (s.admission server).isSome then none
  else if server.capacityDiskMb < minDiskMb then some .insufficientCapacity
  else if server.capacityRamMb < s.reservedOn server.handle + requiredRamMb then some .insufficientReservedMemory
  else if !hasFreshMetrics s.clock server.lastHealthCheck settings.allocationMetricsFreshnessSeconds then some .noFreshMetrics
  else if server.capacityRamMb < max (s.reservedOn server.handle : Int) server.usedRamMb + requiredRamMb then
    some .insufficientFreeMemory
  else none

def slack (s : State) (server : Server) : Int := server.capacityRamMb - max (s.reservedOn server.handle : Int) server.usedRamMb

def suits (s : State) (settings : Settings) (requiredRamMb minDiskMb : Int) (server : Server) : Bool :=
  s.roomFor settings.allocationMetricsFreshnessSeconds requiredRamMb minDiskMb server

end State

def weighed (s : State) (settings : Settings) (requiredRamMb minDiskMb : Int) (server : Server) (search : Search) : Search :=
  ⟨search.suitable ++ (if s.suits settings requiredRamMb minDiskMb server then [(server, s.slack server)] else []),
    search.rejectionReasons ++ (s.rejection settings requiredRamMb minDiskMb server).toList,
    search.admissionRejections ++ (s.admission server).toList⟩

variable (s settings requiredRamMb server) in
theorem weighMetrics_weighed (search : Search) :
    weighMetrics settings requiredRamMb server (s.reservedOn server.handle) s.clock search =
      ⟨search.suitable ++ (if hasFreshMetrics s.clock server.lastHealthCheck settings.allocationMetricsFreshnessSeconds = true ∧
          max (s.reservedOn server.handle : Int) server.usedRamMb + requiredRamMb ≤ server.capacityRamMb
        then [(server, s.slack server)] else []),
      search.rejectionReasons ++
        (if hasFreshMetrics s.clock server.lastHealthCheck settings.allocationMetricsFreshnessSeconds = false then some .noFreshMetrics
        else if server.capacityRamMb < max (s.reservedOn server.handle : Int) server.usedRamMb + requiredRamMb then
          some .insufficientFreeMemory
        else none).toList,
      search.admissionRejections⟩ := by
  unfold weighMetrics
  by_cases hfresh : hasFreshMetrics s.clock server.lastHealthCheck settings.allocationMetricsFreshnessSeconds = true
  · by_cases hfree : server.capacityRamMb < max (s.reservedOn server.handle : Int) server.usedRamMb + requiredRamMb
    · simp [hfresh, hfree, Int.not_le.mpr hfree, Search.reject]
    · simp [hfresh, hfree, Int.not_lt.mp hfree, Search.accept, State.slack]
  · simp [hfresh, Search.reject]

variable (t s settings requiredRamMb minDiskMb server) in
theorem weighServer_weighs (search : Search) :
    Evaluates t s (weighServer settings requiredRamMb minDiskMb (provisioningFailedServerHandles s.listActiveIncidents) server search)
      (.ok (weighed s settings requiredRamMb minDiskMb server search)) := by
  unfold weighServer weighed State.suits State.roomFor State.rejection State.admission
  cases hadmission : serverAdmissionRejection server (provisioningFailedServerHandles s.listActiveIncidents) with
  | some rejection =>
    simp [serverAdmitsApplication, hadmission]
    exact .ret _
  | none =>
    by_cases hdisk : server.capacityDiskMb < minDiskMb
    · simp [serverAdmitsApplication, hadmission, hdisk, Int.not_le.mpr hdisk]
      exact .ret _
    · simp only [if_neg hdisk]
      apply (listApplications_evaluates (some server.handle)).bind
      change Evaluates t s (if server.capacityRamMb < (s.reservedOn server.handle : Int) + requiredRamMb then
          return search.reject .insufficientReservedMemory
        else do
          let clock ← now
          return weighMetrics settings requiredRamMb server (s.reservedOn server.handle) clock search) _
      by_cases hreserved : server.capacityRamMb < (s.reservedOn server.handle : Int) + requiredRamMb
      · have hroom : ¬ max (s.reservedOn server.handle : Int) server.usedRamMb + requiredRamMb ≤ server.capacityRamMb :=
          rejects_iff hreserved
        simp [serverAdmitsApplication, hadmission, hreserved, hroom]
        exact .ret _
      · rw [if_neg hreserved]
        apply now_evaluates.bind
        rw [weighMetrics_weighed]
        simp [serverAdmitsApplication, hadmission, hreserved, Int.not_lt.mp hdisk]
        exact .ret _

variable (t s settings requiredRamMb minDiskMb) in
theorem weighServers_weighs (servers : List Server) (search : Search) :
    Evaluates t s (weighServers settings requiredRamMb minDiskMb (provisioningFailedServerHandles s.listActiveIncidents) servers search)
      (.ok ⟨search.suitable ++ (servers.filter (s.suits settings requiredRamMb minDiskMb)).map fun server => (server, s.slack server),
        search.rejectionReasons ++ servers.filterMap (s.rejection settings requiredRamMb minDiskMb),
        search.admissionRejections ++ servers.filterMap s.admission⟩) := by
  induction servers generalizing search with
  | nil =>
    simp only [List.filter_nil, List.map_nil, List.filterMap_nil, List.append_nil]
    exact .ret search
  | cons server rest ih =>
    apply (weighServer_weighs t s settings requiredRamMb minDiskMb server search).bind
    have hrest := ih (weighed s settings requiredRamMb minDiskMb server search)
    have hsuitable : (weighed s settings requiredRamMb minDiskMb server search).suitable ++
        (rest.filter (s.suits settings requiredRamMb minDiskMb)).map (fun server => (server, s.slack server)) =
        search.suitable ++ ((server :: rest).filter (s.suits settings requiredRamMb minDiskMb)).map
          (fun server => (server, s.slack server)) := by
      by_cases hsuits : s.suits settings requiredRamMb minDiskMb server = true
      · simp [weighed, hsuits]
      · simp [weighed, hsuits]
    have hreasons : (weighed s settings requiredRamMb minDiskMb server search).rejectionReasons ++
        rest.filterMap (s.rejection settings requiredRamMb minDiskMb) =
        search.rejectionReasons ++ (server :: rest).filterMap (s.rejection settings requiredRamMb minDiskMb) := by
      cases hreason : s.rejection settings requiredRamMb minDiskMb server with
      | none | some reason => simp [weighed, hreason]
    have hadmissions : (weighed s settings requiredRamMb minDiskMb server search).admissionRejections ++
        rest.filterMap s.admission = search.admissionRejections ++ (server :: rest).filterMap s.admission := by
      cases hadmission : s.admission server with
      | none | some rejection => simp [weighed, hadmission]
    rw [hsuitable, hreasons, hadmissions] at hrest
    exact hrest

theorem roomiest_spec (h : roomiest candidates = some candidate) :
    candidate ∈ candidates ∧ ∀ other ∈ candidates, other.2 ≤ candidate.2 := by
  induction candidates generalizing candidate with
  | nil => simp [roomiest] at h
  | cons first rest ih =>
    unfold roomiest at h
    cases hbest : roomiest rest with
    | none =>
      have hempty : rest = [] := by
        have hsome := roomiest_isSome rest
        rw [hbest] at hsome
        simpa using hsome
      rw [hbest] at h
      obtain rfl := Option.some.inj h
      simp [hempty]
    | some best =>
      obtain ⟨hmem, hmax⟩ := ih hbest
      rw [hbest] at h
      by_cases hless : first.2 < best.2
      · simp only [if_pos hless, Option.some.injEq] at h
        subst h
        constructor
        · exact List.mem_cons_of_mem _ hmem
        · intro other hother
          rcases List.mem_cons.mp hother with rfl | hother
          · omega
          · exact hmax other hother
      · simp only [if_neg hless, Option.some.injEq] at h
        subst h
        constructor
        · exact List.mem_cons_self
        · intro other hother
          rcases List.mem_cons.mp hother with rfl | hother
          · omega
          · have := hmax other hother
            omega

structure Suitable (s : State) (settings : Settings) (requiredRamMb minDiskMb : Int) (server : Server) : Prop where
  admitted : s.admission server = none
  disk : minDiskMb ≤ server.capacityDiskMb
  fresh : hasFreshMetrics s.clock server.lastHealthCheck settings.allocationMetricsFreshnessSeconds = true
  reserved : s.reservedOn server.handle + requiredRamMb ≤ server.capacityRamMb
  observed : server.usedRamMb + requiredRamMb ≤ server.capacityRamMb

theorem suits_iff : s.suits settings requiredRamMb minDiskMb server = true ↔ Suitable s settings requiredRamMb minDiskMb server := by
  simp only [State.suits, State.roomFor, serverAdmitsApplication, Bool.and_eq_true, Option.isNone_iff_eq_none, decide_eq_true_eq]
  constructor
  · rintro ⟨⟨⟨hadmitted, hdisk⟩, hfresh⟩, hroom⟩
    exact ⟨hadmitted, hdisk, hfresh, by omega, by omega⟩
  · rintro ⟨hadmitted, hdisk, hfresh, hreserved, hobserved⟩
    exact ⟨⟨⟨hadmitted, hdisk⟩, hfresh⟩, by omega⟩

theorem suitable_of_unrejected (hadmitted : s.admission server = none)
    (h : s.rejection settings requiredRamMb minDiskMb server = none) : Suitable s settings requiredRamMb minDiskMb server := by
  unfold State.rejection at h
  simp only [hadmitted, Option.isSome_none, Bool.false_eq_true, if_false] at h
  by_cases hdisk : server.capacityDiskMb < minDiskMb
  · simp [hdisk] at h
  by_cases hreserved : server.capacityRamMb < s.reservedOn server.handle + requiredRamMb
  · simp [hdisk, hreserved] at h
  by_cases hfresh : hasFreshMetrics s.clock server.lastHealthCheck settings.allocationMetricsFreshnessSeconds = true
  · by_cases hfree : server.capacityRamMb < max (s.reservedOn server.handle : Int) server.usedRamMb + requiredRamMb
    · simp [hdisk, hreserved, hfresh, hfree] at h
    · exact ⟨hadmitted, by omega, hfresh, by omega, by omega⟩
  · simp [hdisk, hreserved, hfresh] at h

theorem disk_of_rejection (h : s.rejection settings requiredRamMb minDiskMb server = some .insufficientCapacity) :
    server.capacityDiskMb < minDiskMb := by
  unfold State.rejection at h
  split_ifs at h with hadmission hdisk
  · exact hdisk
  all_goals cases h

def Fits (s : State) (requiredRamMb minDiskMb : Int) : Prop :=
  ∃ server ∈ s.listServers (some true), requiredRamMb ≤ server.capacityRamMb ∧ minDiskMb ≤ server.capacityDiskMb

def Refused (s : State) : Prop := ∃ server ∈ s.listServers (some true), (s.admission server).isSome

def Rejected (s : State) (settings : Settings) (requiredRamMb minDiskMb : Int) (reason : RejectionReason) : Prop :=
  ∃ server ∈ s.listServers (some true), s.admission server = none ∧
    s.rejection settings requiredRamMb minDiskMb server = some reason

theorem requestExceedsEveryServer_iff :
    requestExceedsEveryServer (s.listServers (some true)) requiredRamMb minDiskMb = true ↔ ¬ Fits s requiredRamMb minDiskMb := by
  simp [requestExceedsEveryServer, Fits]

variable (s settings requiredRamMb minDiskMb) in
def searched : Search :=
  ⟨((s.listServers (some true)).filter (s.suits settings requiredRamMb minDiskMb)).map fun server => (server, s.slack server),
    (s.listServers (some true)).filterMap (s.rejection settings requiredRamMb minDiskMb),
    (s.listServers (some true)).filterMap s.admission⟩

theorem searched_refused : (searched s settings requiredRamMb minDiskMb).admissionRejections.isEmpty = false ↔ Refused s := by
  simp only [searched, Refused, ← Bool.not_eq_true, List.isEmpty_iff, List.filterMap_eq_nil_iff, not_forall,
    Option.isSome_iff_ne_none, exists_prop]

theorem searched_rejected (hadmitted : ¬ Refused s) :
    (searched s settings requiredRamMb minDiskMb).rejectionReasons.contains reason = true ↔
      Rejected s settings requiredRamMb minDiskMb reason := by
  simp only [searched, Rejected, List.contains_iff_mem, List.mem_filterMap]
  constructor
  · rintro ⟨server, hmem, hreason⟩
    have hnone : s.admission server = none := by
      by_contra hsome
      exact hadmitted ⟨server, hmem, Option.isSome_iff_ne_none.mpr hsome⟩
    exact ⟨server, hmem, hnone, hreason⟩
  · rintro ⟨server, hmem, -, hreason⟩
    exact ⟨server, hmem, hreason⟩

theorem memory_rejected (hnone : ∀ server ∈ s.listServers (some true), ¬ Suitable s settings requiredRamMb minDiskMb server)
    (hfits : Fits s requiredRamMb minDiskMb) (hadmitted : ¬ Refused s)
    (hfresh : ¬ Rejected s settings requiredRamMb minDiskMb .noFreshMetrics)
    (hreserved : ¬ Rejected s settings requiredRamMb minDiskMb .insufficientReservedMemory) :
    Rejected s settings requiredRamMb minDiskMb .insufficientFreeMemory := by
  obtain ⟨server, hmem, -, hdisk⟩ := hfits
  have hadmission : s.admission server = none := by
    by_contra hsome
    exact hadmitted ⟨server, hmem, Option.isSome_iff_ne_none.mpr hsome⟩
  cases hreason : s.rejection settings requiredRamMb minDiskMb server with
  | none => exact absurd (suitable_of_unrejected hadmission hreason) (hnone server hmem)
  | some reason =>
    cases reason with
    | insufficientCapacity =>
      have := disk_of_rejection hreason
      omega
    | insufficientReservedMemory => exact absurd ⟨server, hmem, hadmission, hreason⟩ hreserved
    | noFreshMetrics => exact absurd ⟨server, hmem, hadmission, hreason⟩ hfresh
    | insufficientFreeMemory => exact ⟨server, hmem, hadmission, hreason⟩

structure Truthful (s : State) (settings : Settings) (requiredRamMb minDiskMb : Int) (reason : AllocationFailureReason) : Prop where
  impossible : reason = .impossibleCapacity ↔ ¬ Fits s requiredRamMb minDiskMb
  unprovisioned : Fits s requiredRamMb minDiskMb → (reason = .serverNotProvisioned ↔ Refused s)
  stale : Fits s requiredRamMb minDiskMb → ¬ Refused s →
    (reason = .noFreshMetrics ↔ Rejected s settings requiredRamMb minDiskMb .noFreshMetrics)
  memory : Fits s requiredRamMb minDiskMb → ¬ Refused s → ¬ Rejected s settings requiredRamMb minDiskMb .noFreshMetrics →
    (reason = .insufficientReservedMemory ∧ Rejected s settings requiredRamMb minDiskMb .insufficientReservedMemory) ∨
      (reason = .insufficientFreeMemory ∧ Rejected s settings requiredRamMb minDiskMb .insufficientFreeMemory)

theorem refusalReason_truthful (hnone : ∀ server ∈ s.listServers (some true), ¬ Suitable s settings requiredRamMb minDiskMb server) :
    Truthful s settings requiredRamMb minDiskMb
      (refusalReason (s.listServers (some true)) requiredRamMb minDiskMb (searched s settings requiredRamMb minDiskMb)) := by
  unfold refusalReason
  by_cases hfits : Fits s requiredRamMb minDiskMb
  swap
  · rw [if_pos (requestExceedsEveryServer_iff.mpr hfits)]
    constructor <;> simp [hfits]
  rw [if_neg fun hexceeds => requestExceedsEveryServer_iff.mp hexceeds hfits]
  by_cases hrefused : Refused s
  · rw [if_pos (by simpa using searched_refused.mpr hrefused)]
    constructor <;> simp [hfits, hrefused, admissionFailureReason]
  rw [if_neg (by simpa using fun hempty => hrefused (searched_refused.mp hempty))]
  by_cases hstale : Rejected s settings requiredRamMb minDiskMb .noFreshMetrics
  · rw [if_pos ((searched_rejected hrefused).mpr hstale)]
    constructor <;> simp [hfits, hrefused, hstale]
  rw [if_neg (mt (searched_rejected hrefused).mp hstale)]
  by_cases hreserved : Rejected s settings requiredRamMb minDiskMb .insufficientReservedMemory
  · rw [if_pos ((searched_rejected hrefused).mpr hreserved)]
    constructor <;> simp [hfits, hrefused, hstale, hreserved]
  · rw [if_neg (mt (searched_rejected hrefused).mp hreserved)]
    have hfree := memory_rejected hnone hfits hrefused hstale hreserved
    constructor <;> simp [hfits, hrefused, hstale, hfree]

structure Best (s : State) (settings : Settings) (requiredRamMb minDiskMb : Int) (server : Server) : Prop where
  managed : server ∈ s.listServers (some true)
  suitable : Suitable s settings requiredRamMb minDiskMb server
  roomiest : ∀ other ∈ s.listServers (some true), Suitable s settings requiredRamMb minDiskMb other → s.slack other ≤ s.slack server

theorem mem_searched : candidate ∈ (searched s settings requiredRamMb minDiskMb).suitable ↔
    candidate.1 ∈ s.listServers (some true) ∧ Suitable s settings requiredRamMb minDiskMb candidate.1 ∧
      s.slack candidate.1 = candidate.2 := by
  simp only [searched, List.mem_map, List.mem_filter, suits_iff]
  constructor
  · rintro ⟨server, ⟨hmem, hsuitable⟩, rfl⟩
    exact ⟨hmem, hsuitable, rfl⟩
  · rintro ⟨hmem, hsuitable, hslack⟩
    exact ⟨candidate.1, ⟨hmem, hsuitable⟩, by rw [hslack]⟩

theorem roomiest_best (h : roomiest (searched s settings requiredRamMb minDiskMb).suitable = some candidate) :
    Best s settings requiredRamMb minDiskMb candidate.1 := by
  obtain ⟨hmem, hmax⟩ := roomiest_spec h
  obtain ⟨hmanaged, hsuitable, hslack⟩ := mem_searched.mp hmem
  refine ⟨hmanaged, hsuitable, fun other hother hroom => ?_⟩
  have hless := hmax (other, s.slack other) (mem_searched.mpr ⟨hother, hroom, rfl⟩)
  rw [hslack]
  exact hless

theorem unsuitable_of_roomiest (h : roomiest (searched s settings requiredRamMb minDiskMb).suitable = none) :
    ∀ server ∈ s.listServers (some true), ¬ Suitable s settings requiredRamMb minDiskMb server := by
  intro server hmem hsuitable
  have hnone := roomiest_isSome (searched s settings requiredRamMb minDiskMb).suitable
  rw [h] at hnone
  have hempty : (searched s settings requiredRamMb minDiskMb).suitable = [] := by simpa using hnone
  have hfound : (server, s.slack server) ∈ (searched s settings requiredRamMb minDiskMb).suitable :=
    mem_searched.mpr ⟨hmem, hsuitable, rfl⟩
  simp [hempty] at hfound

/-- On every fleet the search ends. It returns a server exactly where one is suitable, and
then the roomiest of those; otherwise its reason is what the fleet says. -/
theorem choice_optimal_and_truthful (settings : Settings) (minRamMb minDiskMb : Int) (n : Nat) (s : State) :
    ∃ r, outcome (.ensure n) (findSuitableServer settings minRamMb minDiskMb) s = some r ∧
      ((∃ server, r = .ok server) ↔ ∃ server ∈ s.listServers (some true),
        Suitable s settings (allocationRequiredRamMb settings minRamMb) minDiskMb server) ∧
      (∀ server, r = .ok server → Best s settings (allocationRequiredRamMb settings minRamMb) minDiskMb server) ∧
      ∀ error, r = .error error → ∃ reason,
        error = .allocationError ⟨reason, allocationRequiredRamMb settings minRamMb, minDiskMb⟩ ∧
          Truthful s settings (allocationRequiredRamMb settings minRamMb) minDiskMb reason := by
  set requiredRamMb := allocationRequiredRamMb settings minRamMb with hrequired
  have hsearch : Evaluates (.ensure n) s (weighServers settings requiredRamMb minDiskMb
      (provisioningFailedServerHandles s.listActiveIncidents) (s.listServers (some true)) .empty)
      (.ok (searched s settings requiredRamMb minDiskMb)) := by
    simpa [Search.empty, searched] using
      weighServers_weighs (.ensure n) s settings requiredRamMb minDiskMb (s.listServers (some true)) .empty
  have hends : ∀ {r}, Evaluates (.ensure n) s (chooseServer (s.listServers (some true)) requiredRamMb minDiskMb
      (searched s settings requiredRamMb minDiskMb)) r →
      outcome (.ensure n) (findSuitableServer settings minRamMb minDiskMb) s = some r := fun hchosen =>
    ((listServers_evaluates _).bind (listActiveIncidents_evaluates.bind (hsearch.bind hchosen))).outcome
  cases hbest : roomiest (searched s settings requiredRamMb minDiskMb).suitable with
  | some candidate =>
    have hspec := roomiest_best hbest
    refine ⟨.ok candidate.1, hends ?_, ?_, ?_, ?_⟩
    · simp only [chooseServer, hbest]
      exact .ret candidate.1
    · simp only [Except.ok.injEq, exists_eq', true_iff]
      exact ⟨candidate.1, hspec.managed, hspec.suitable⟩
    · rintro server hserver
      obtain rfl := Except.ok.inj hserver
      exact hspec
    · rintro _ ⟨⟩
  | none =>
    have hnone := unsuitable_of_roomiest hbest
    refine ⟨.error (.allocationError ⟨refusalReason (s.listServers (some true)) requiredRamMb minDiskMb
      (searched s settings requiredRamMb minDiskMb), requiredRamMb, minDiskMb⟩), hends ?_, ?_, ?_, ?_⟩
    · simp only [chooseServer, hbest]
      exact .raise _
    · simp only [reduceCtorEq, exists_false, false_iff, not_exists, not_and]
      exact hnone
    · rintro _ ⟨⟩
    · rintro error herror
      obtain rfl := Except.error.inj herror
      exact ⟨_, rfl, refusalReason_truthful hnone⟩

end Orchestrator.Placement
