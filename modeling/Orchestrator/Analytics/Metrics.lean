import Mathlib.Data.Finset.Card
import Mathlib.Data.Finset.Sort
import Mathlib.Data.String.Basic
import Orchestrator.Python.Value

/-!
The metrics of one service and hour, computed from the parsed lines of its request log.
-/

namespace Orchestrator.Analytics

open Python

def round2 : Float64 → Float64
  | .finite q => toFloat64 (roundHalfEven (q * 100) / 100)
  | x => x

/-- `sorted` is Python's, which promises no order for a list with NaN. -/
def percentile (sorted : List Float64 → List Float64) (values : List Float64) (pct : Nat) : Option Float64 :=
  let sortedVals := sorted values
  let idx := min (sortedVals.length * pct / 100) (sortedVals.length - 1)
  sortedVals[idx]?.map round2

def durationOf : Value → Except Raised (Option Float64)
  | .bool b => .ok (some (.finite (if b then 1 else 0)))
  | .int n => match toFloat64 n with
    | .infinite _ => .error .overflowError
    | x => .ok (some x)
  | .float x => .ok (some x)
  | _ => .ok none

def httpServerErrorThreshold : Int := 500

def isServerError : Value → Bool
  | .int n => httpServerErrorThreshold ≤ n
  | _ => false

def isRequest (entry : Mapping) : Bool := valueAt entry "event" = .text "request"

def isError (entry : Mapping) : Bool := isServerError (valueAt entry "status_code") || valueAt entry "level" = .text "error"

def endpointOf (entry : Mapping) : Value :=
  if (valueAt entry "path").truthy then valueAt entry "path" else valueAt entry "command"

def hashable : Value → Bool
  | .list _ => false
  | .mapping _ => false
  | _ => true

def sameKey (v v' : Value) : Bool := v = v' || v.eq v'

def tally : List (Value × Nat) → Value → List (Value × Nat)
  | [], path => [(path, 1)]
  | (key, count) :: rest, path => if sameKey key path then (key, count + 1) :: rest else (key, count) :: tally rest path

def mostCommon (n : Nat) (counter : List (Value × Nat)) : List (Value × Nat) :=
  (counter.insertionSort fun endpoint other => other.2 ≤ endpoint.2).take n

structure Tallies where
  totalRequests : Nat
  errorCount : Nat
  durations : List Float64
  userIds : Finset String
  endpointCounter : List (Value × Nat)

def Tallies.none : Tallies := ⟨0, 0, [], ∅, []⟩

variable (render : Value → String)

def userOf (entry : Mapping) : Option String :=
  if (valueAt entry "user_id").truthy then some ((valueAt entry "user_id").str render) else none

def countEndpoint (counter : List (Value × Nat)) (path : Value) : Except Raised (List (Value × Nat)) :=
  if path.truthy then if hashable path then .ok (tally counter path) else .error .typeError else .ok counter

def Tallies.count (t : Tallies) (entry : Mapping) : Except Raised Tallies :=
  if isRequest entry then do
    let duration ← durationOf (valueAt entry "duration_ms")
    let endpointCounter ← countEndpoint t.endpointCounter (endpointOf entry)
    .ok {
      totalRequests := t.totalRequests + 1
      errorCount := if isError entry then t.errorCount + 1 else t.errorCount
      durations := t.durations ++ duration.toList
      userIds := t.userIds ∪ (userOf render entry).toFinset
      endpointCounter := endpointCounter }
  else .ok t

structure Metrics where
  totalRequests : Nat
  errorCount : Nat
  uniqueUsers : Nat
  newUsers : Nat
  p50Ms : Option Float64
  p95Ms : Option Float64
  p99Ms : Option Float64
  topEndpoints : List (Value × Nat)

structure HourlyMetrics extends Metrics where
  seenUsers : List String

variable (hashUserId : String → String) (sorted : List Float64 → List Float64)

def sortedUsers (users : Finset String) : List String := users.sort

def computeHourlyMetrics (logs : List Mapping) (knownUserHashes : Finset String) : Except Raised HourlyMetrics := do
  let t ← logs.foldlM (Tallies.count render) Tallies.none
  let userHashes := t.userIds.image hashUserId
  .ok {
    totalRequests := t.totalRequests
    errorCount := t.errorCount
    uniqueUsers := userHashes.card
    newUsers := (userHashes \ knownUserHashes).card
    p50Ms := percentile sorted t.durations 50
    p95Ms := percentile sorted t.durations 95
    p99Ms := percentile sorted t.durations 99
    topEndpoints := mostCommon 5 t.endpointCounter
    seenUsers := userHashes.sort }

def countable (entry : Mapping) : Bool :=
  !isRequest entry ||
    (durationOf (valueAt entry "duration_ms")).isOk && (!(endpointOf entry).truthy || hashable (endpointOf entry))

def usersOf (logs : List Mapping) : Finset String :=
  (((logs.filter isRequest).filterMap (userOf render)).toFinset).image hashUserId

theorem count_of_countable {t : Tallies} {entry : Mapping} (h : countable entry = true) :
    ∃ t', t.count render entry = .ok t' ∧
      t'.userIds = t.userIds ∪ (([entry].filter isRequest).filterMap (userOf render)).toFinset := by
  unfold countable at h
  unfold Tallies.count
  by_cases hrequest : isRequest entry = true
  · simp only [hrequest, Bool.not_true, Bool.false_or, Bool.and_eq_true] at h
    obtain ⟨hduration, hendpoint⟩ := h
    cases hd : durationOf (valueAt entry "duration_ms") with
    | error e => simp [hd, Except.isOk, Except.toBool] at hduration
    | ok duration =>
      have hcounter : ∃ counter, countEndpoint t.endpointCounter (endpointOf entry) = .ok counter := by
        unfold countEndpoint
        cases htruthy : (endpointOf entry).truthy with
        | false => exact ⟨t.endpointCounter, rfl⟩
        | true =>
          simp only [htruthy, Bool.not_true, Bool.false_or] at hendpoint
          exact ⟨tally t.endpointCounter (endpointOf entry), by simp only [hendpoint, if_true]⟩
      obtain ⟨counter, hcounter⟩ := hcounter
      rw [if_pos hrequest, hcounter]
      refine ⟨_, rfl, ?_⟩
      simp only [List.filter_cons, hrequest, if_true, List.filter_nil]
      cases huser : userOf render entry <;> simp [huser]
  · rw [if_neg hrequest]
    exact ⟨t, rfl, by simp [hrequest]⟩

theorem count_of_not_countable {t : Tallies} {entry : Mapping} (h : countable entry = false) :
    ∃ e, t.count render entry = .error e := by
  unfold countable at h
  unfold Tallies.count
  simp only [Bool.or_eq_false_iff, Bool.not_eq_false'] at h
  obtain ⟨hrequest, h⟩ := h
  rw [if_pos hrequest]
  cases hd : durationOf (valueAt entry "duration_ms") with
  | error e => exact ⟨e, rfl⟩
  | ok duration =>
    simp only [hd, Except.isOk, Except.toBool, Bool.true_and, Bool.or_eq_false_iff, Bool.not_eq_false'] at h
    refine ⟨.typeError, ?_⟩
    simp only [countEndpoint, h.1, h.2, if_true]
    rfl

variable {logs : List Mapping}

theorem foldlM_of_countable (h : logs.all countable = true) (t : Tallies) :
    ∃ t', logs.foldlM (Tallies.count render) t = .ok t' ∧
      t'.userIds = t.userIds ∪ ((logs.filter isRequest).filterMap (userOf render)).toFinset := by
  induction logs generalizing t with
  | nil => exact ⟨t, rfl, by simp⟩
  | cons entry rest ih =>
    obtain ⟨hentry, hrest⟩ := Bool.and_eq_true_iff.mp (List.all_cons.symm.trans h)
    obtain ⟨t₁, hcount, husers⟩ := count_of_countable render (t := t) hentry
    obtain ⟨t₂, hfold, husers'⟩ := ih hrest t₁
    refine ⟨t₂, ?_, ?_⟩
    · rw [List.foldlM_cons, hcount]
      exact hfold
    · rw [husers', husers, Finset.union_assoc, ← List.toFinset_append, ← List.filterMap_append, ← List.filter_append]
      rfl

theorem foldlM_of_not_countable (h : logs.all countable = false) (t : Tallies) :
    ∃ e, logs.foldlM (Tallies.count render) t = .error e := by
  induction logs generalizing t with
  | nil => cases h
  | cons entry rest ih =>
    rw [List.foldlM_cons]
    cases hentry : countable entry with
    | false =>
      obtain ⟨e, he⟩ := count_of_not_countable render (t := t) hentry
      rw [he]
      exact ⟨e, rfl⟩
    | true =>
      obtain ⟨t₁, hcount, -⟩ := count_of_countable render (t := t) hentry
      rw [List.all_cons, hentry, Bool.true_and] at h
      rw [hcount]
      exact ih h t₁

theorem computeHourlyMetrics_of_countable (h : logs.all countable = true) (known : Finset String) :
    ∃ m, computeHourlyMetrics render hashUserId sorted logs known = .ok m ∧
      m.seenUsers = (usersOf render hashUserId logs).sort ∧
      m.newUsers = (usersOf render hashUserId logs \ known).card := by
  obtain ⟨t, hfold, husers⟩ := foldlM_of_countable render h Tallies.none
  have himage : t.userIds.image hashUserId = usersOf render hashUserId logs := by
    rw [husers, Tallies.none, Finset.empty_union]
    rfl
  unfold computeHourlyMetrics
  rw [hfold, ← himage]
  exact ⟨_, rfl, rfl, rfl⟩

theorem computeHourlyMetrics_of_not_countable (h : logs.all countable = false) (known : Finset String) :
    ∃ e, computeHourlyMetrics render hashUserId sorted logs known = .error e := by
  obtain ⟨e, he⟩ := foldlM_of_not_countable render h Tallies.none
  unfold computeHourlyMetrics
  rw [he]
  exact ⟨e, rfl⟩

end Orchestrator.Analytics
