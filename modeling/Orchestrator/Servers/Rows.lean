import Orchestrator.Placement.World

/-!
The row of a server, and the requests on one row: the fields a caller may write, and the attempts
at provisioning it, which are counted in episodes.
-/

namespace Orchestrator.Servers

open Placement (ServerStatus)

structure Server where
  handle : String
  host : String
  publicIp : String
  status : ServerStatus
  isManaged : Bool
  labels : Python.Mapping
  provisioningStartedAt : Option Int
  provisioningAttempts : Nat
  provisioningEpisodeId : Option String

inductive Exn where
  | notFound | runtimeError | transport

structure ProvisioningAttemptReservation where
  maxAttempts : Nat
  maxAttempts_pos : 0 < maxAttempts

structure ProvisioningAttemptReservationResult where
  reserved : Bool
  provisioningAttempts : Nat
  episodeId : Option String

structure ProvisioningAttemptReset where
  attemptNumber : Nat
  episodeId : String
  attemptNumber_pos : 0 < attemptNumber
  episodeId_nonempty : episodeId ≠ ""

structure ProvisioningAttemptResetResult where
  reset : Bool
  provisioningAttempts : Nat
  episodeId : Option String

def Server.reserved (server : Server) (newEpisodeId : String) : Server :=
  { server with
    provisioningAttempts := server.provisioningAttempts + 1
    provisioningEpisodeId := if server.provisioningAttempts = 0 then some newEpisodeId else server.provisioningEpisodeId }

def Server.closed (server : Server) : Server :=
  { server with provisioningAttempts := 0, provisioningEpisodeId := none, status := .ready }

def reserveProvisioningAttempt (request : ProvisioningAttemptReservation) (newEpisodeId : String) (row : Option Server) :
    Except Exn ProvisioningAttemptReservationResult × Option Server :=
  match row with
  | none => (.error .notFound, none)
  | some server =>
    if server.provisioningAttempts < request.maxAttempts then
      match (server.reserved newEpisodeId).provisioningEpisodeId with
      | none => (.error .runtimeError, some server)
      | some episodeId =>
          (.ok ⟨true, server.provisioningAttempts + 1, some episodeId⟩, some (server.reserved newEpisodeId))
    else (.ok ⟨false, server.provisioningAttempts, server.provisioningEpisodeId⟩, some server)

def resetProvisioningAttempts (request : ProvisioningAttemptReset) (row : Option Server) :
    Except Exn ProvisioningAttemptResetResult × Option Server :=
  match row with
  | none => (.error .notFound, none)
  | some server =>
    if server.provisioningAttempts = request.attemptNumber ∧ server.provisioningEpisodeId = some request.episodeId then
      (.ok ⟨true, 0, none⟩, some server.closed)
    else (.ok ⟨false, server.provisioningAttempts, server.provisioningEpisodeId⟩, some server)

theorem reserve_cases {request : ProvisioningAttemptReservation} {newEpisodeId : String} {row row' : Option Server}
    {r : Except Exn ProvisioningAttemptReservationResult} (h : reserveProvisioningAttempt request newEpisodeId row = (r, row')) :
    (row' = row ∧ ∀ result, r = .ok result → result.reserved = false) ∨
      ∃ server episodeId, row = some server ∧ server.provisioningAttempts < request.maxAttempts ∧
        (server.reserved newEpisodeId).provisioningEpisodeId = some episodeId ∧
        r = .ok ⟨true, server.provisioningAttempts + 1, some episodeId⟩ ∧ row' = some (server.reserved newEpisodeId) := by
  cases row with
  | none =>
    obtain ⟨rfl, rfl⟩ := Prod.mk.inj h
    exact .inl ⟨rfl, nofun⟩
  | some server =>
    by_cases hroom : server.provisioningAttempts < request.maxAttempts
    · cases hepisode : (server.reserved newEpisodeId).provisioningEpisodeId with
      | none =>
        simp only [reserveProvisioningAttempt, if_pos hroom, hepisode, Prod.mk.injEq] at h
        exact .inl ⟨h.2.symm, fun result hr => nomatch h.1.trans hr⟩
      | some episodeId =>
        simp only [reserveProvisioningAttempt, if_pos hroom, hepisode, Prod.mk.injEq] at h
        exact .inr ⟨server, episodeId, rfl, hroom, hepisode, h.1.symm, h.2.symm⟩
    · simp only [reserveProvisioningAttempt, if_neg hroom, Prod.mk.injEq] at h
      refine .inl ⟨h.2.symm, fun result hr => ?_⟩
      rw [← Except.ok.inj (h.1.trans hr)]

theorem reset_cases {request : ProvisioningAttemptReset} {row row' : Option Server} {r : Except Exn ProvisioningAttemptResetResult}
    (h : resetProvisioningAttempts request row = (r, row')) :
    (row' = row ∧ ∀ result, r = .ok result → result.reset = false) ∨
      ∃ server, row = some server ∧ server.provisioningAttempts = request.attemptNumber ∧
        server.provisioningEpisodeId = some request.episodeId ∧ r = .ok ⟨true, 0, none⟩ ∧ row' = some server.closed := by
  cases row with
  | none =>
    obtain ⟨rfl, rfl⟩ := Prod.mk.inj h
    exact .inl ⟨rfl, nofun⟩
  | some server =>
    by_cases hcurrent : server.provisioningAttempts = request.attemptNumber ∧ server.provisioningEpisodeId = some request.episodeId
    · simp only [resetProvisioningAttempts, if_pos hcurrent, Prod.mk.injEq] at h
      exact .inr ⟨server, rfl, hcurrent.1, hcurrent.2, h.1.symm, h.2.symm⟩
    · simp only [resetProvisioningAttempts, if_neg hcurrent, Prod.mk.injEq] at h
      refine .inl ⟨h.2.symm, fun result hr => ?_⟩
      rw [← Except.ok.inj (h.1.trans hr)]

end Orchestrator.Servers
