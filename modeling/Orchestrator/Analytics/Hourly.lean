import Orchestrator.Analytics.Metrics
import Orchestrator.Stateful
import Orchestrator.Keyed

/-!
The hourly aggregation of a project, over the two tables its API calls change. A call
may fail before it takes effect or after, and what ends the process ends it at a call.
-/

namespace Orchestrator.Analytics

open Python

abbrev Time := Nat

structure HourlyKey where
  projectId : String
  serviceName : String
  bucket : Time
  deriving DecidableEq

structure KnownUserKey where
  projectId : String
  userIdHash : String
  deriving DecidableEq

structure Seen where
  firstSeen : Time
  lastSeen : Time

structure Store where
  hourly : Table HourlyKey Metrics
  knownUsers : Table KnownUserKey Seen

namespace Store

def empty : Store := ⟨Table.empty, Table.empty⟩

variable (s : Store) (projectId : String)

def upsertHourly (key : HourlyKey) (values : Metrics) : Store := { s with hourly := s.hourly.upsert key values }

/-- A conflict leaves `first_seen` as it is. -/
def upsertKnownUser (user : String × Seen) : Store :=
  let firstSeen := ((s.knownUsers.get ⟨projectId, user.1⟩).map Seen.firstSeen).getD user.2.firstSeen
  { s with knownUsers := s.knownUsers.upsert ⟨projectId, user.1⟩ ⟨firstSeen, user.2.lastSeen⟩ }

def batchUpsertKnownUsers (users : List (String × Seen)) : Store :=
  users.foldl (fun s user => s.upsertKnownUser projectId user) s

def knownUserHashes : Finset String :=
  ((s.knownUsers.entries.filter fun entry => entry.1.projectId = projectId).map fun entry => entry.1.userIdHash).toFinset

def newUsersStored : Nat :=
  ((s.hourly.entries.filter fun entry => entry.1.projectId = projectId).map fun entry => entry.2.newUsers).sum

end Store

inductive Exn where
  | api
  | loki
  | metrics (raised : Raised)

/-- How a call to the API ends: `unheard` took effect all the same. -/
inductive Fate where
  | answered
  | unheard
  | refused
  deriving DecidableEq

def call (effect : Store → Store) : Fate → Act Store Exn Unit
  | .answered => Act.update effect
  | .unheard => fun s => (.error .api, effect s)
  | .refused => Act.raise .api

def fetch {A : Type} (answer : Store → A) : Fate → Act Store Exn A
  | .answered => Act.look answer
  | _ => Act.raise .api

/-- One aggregation of a project: the services in the order the set yields them, what Loki
answers for each, and how each call to the API ends. -/
structure Aggregation where
  projectId : String
  services : List String
  nodup : services.Nodup
  bucketStart : Time
  bucketEnd : Time
  logs : String → Option (List Mapping)
  listed : Fate
  stored : String → Fate
  recorded : String → Fate

def Aggregation.key (a : Aggregation) (service : String) : HourlyKey := ⟨a.projectId, service, a.bucketStart⟩

section Aggregating

variable (render : Value → String) (hashUserId : String → String) (sorted : List Float64 → List Float64) (a : Aggregation)

def aggregateServices : List String → Finset String → Act Store Exn Unit
  | [], _ => pure ()
  | service :: rest, known => do
    let logs ← Act.ofExcept (match a.logs service with
      | some logs => .ok logs
      | none => .error .loki)
    if logs.isEmpty then aggregateServices rest known
    else
      let metrics ← Act.ofExcept ((computeHourlyMetrics render hashUserId sorted logs known).mapError .metrics)
      call (fun s => s.upsertHourly (a.key service) metrics.toMetrics) (a.stored service)
      if metrics.seenUsers.isEmpty then aggregateServices rest known
      else
        let payload := metrics.seenUsers.map fun h => (h, (⟨a.bucketEnd, a.bucketEnd⟩ : Seen))
        call (fun s => s.batchUpsertKnownUsers a.projectId payload) (a.recorded service)
        aggregateServices rest (known ∪ metrics.seenUsers.toFinset)

def aggregateProjectHourly : Act Store Exn Unit := do
  let known ← fetch (fun s => s.knownUserHashes a.projectId) a.listed
  aggregateServices render hashUserId sorted a a.services known

def Store.after (s : Store) (runs : List Aggregation) : Store :=
  runs.foldl (fun s a => (aggregateProjectHourly render hashUserId sorted a s).2) s

end Aggregating

end Orchestrator.Analytics
