import Orchestrator.Analytics.Hourly

/-!
What an aggregation does to the number of new users stored and to the number of users
known, and when the two stay equal.
-/

namespace Orchestrator.Analytics

open Python

def weight (projectId : String) (key : HourlyKey) (m : Metrics) : Nat := if key.projectId = projectId then m.newUsers else 0

namespace Store

variable {s : Store} {p q : String}

def newUsersAt (s : Store) (key : HourlyKey) : Nat := ((s.hourly.get key).map Metrics.newUsers).getD 0

theorem newUsersStored_eq_total (s : Store) (p : String) : s.newUsersStored p = s.hourly.total (weight p) := by
  unfold newUsersStored Table.total
  induction s.hourly.entries with
  | nil => rfl
  | cons entry rest ih =>
    by_cases hproject : entry.1.projectId = p
    · simp [weight, hproject, ih]
    · simp [weight, hproject, ih]

variable {key : HourlyKey}

theorem weightAt_eq_newUsersAt (s : Store) (h : key.projectId = p) :
    s.hourly.weightAt (weight p) key = s.newUsersAt key := by
  unfold newUsersAt
  cases hget : s.hourly.get key with
  | none => rw [Table.weightAt_of_get_none _ hget, Option.map_none, Option.getD_none]
  | some m => rw [Table.weightAt_of_get _ hget, weight, if_pos h, Option.map_some, Option.getD_some]

theorem newUsersStored_upsertHourly (s : Store) (m : Metrics) (h : key.projectId = p) :
    (s.upsertHourly key m).newUsersStored p + s.newUsersAt key = s.newUsersStored p + m.newUsers := by
  have htotal := s.hourly.total_upsert (weight p) key m
  rw [weightAt_eq_newUsersAt s h] at htotal
  rw [weight, if_pos h] at htotal
  rw [newUsersStored_eq_total, newUsersStored_eq_total]
  exact htotal

theorem newUsersStored_upsertHourly_of_ne (s : Store) (m : Metrics) (h : key.projectId ≠ p) :
    (s.upsertHourly key m).newUsersStored p = s.newUsersStored p := by
  have htotal := s.hourly.total_upsert (weight p) key m
  have hold : s.hourly.weightAt (weight p) key = 0 := by
    cases hget : s.hourly.get key with
    | none => exact Table.weightAt_of_get_none _ hget
    | some m => rw [Table.weightAt_of_get _ hget, weight, if_neg h]
  rw [hold, weight, if_neg h] at htotal
  rw [newUsersStored_eq_total, newUsersStored_eq_total]
  exact htotal

theorem newUsersAt_upsertHourly_of_ne (s : Store) {key other : HourlyKey} (m : Metrics) (h : other ≠ key) :
    (s.upsertHourly key m).newUsersAt other = s.newUsersAt other := by
  unfold newUsersAt upsertHourly
  rw [Table.get_upsert, if_neg h]

theorem mem_knownUserHashes {hash : String} : hash ∈ s.knownUserHashes p ↔ (s.knownUsers.get ⟨p, hash⟩).isSome = true := by
  unfold knownUserHashes Table.get
  rw [lookup_isSome_iff_mem]
  simp only [List.mem_toFinset, List.mem_map, List.mem_filter, decide_eq_true_eq]
  constructor
  · rintro ⟨entry, ⟨hmem, hproject⟩, hhash⟩
    exact ⟨entry, hmem, by rw [← hproject, ← hhash]⟩
  · rintro ⟨entry, hmem, hkey⟩
    exact ⟨entry, ⟨hmem, by rw [hkey]⟩, by rw [hkey]⟩

theorem knownUserHashes_upsertKnownUser (s : Store) (user : String × Seen) :
    (s.upsertKnownUser q user).knownUserHashes p = if q = p then insert user.1 (s.knownUserHashes p) else s.knownUserHashes p := by
  ext hash
  rw [mem_knownUserHashes]
  unfold upsertKnownUser
  simp only [Table.get_upsert, KnownUserKey.mk.injEq]
  by_cases hproject : q = p
  · subst hproject
    rw [if_pos rfl, Finset.mem_insert, mem_knownUserHashes]
    by_cases hhash : hash = user.1 <;> simp [hhash]
  · rw [if_neg hproject, mem_knownUserHashes, if_neg (fun h => hproject h.1.symm)]

theorem knownUserHashes_batchUpsert (s : Store) (users : List (String × Seen)) :
    (s.batchUpsertKnownUsers p users).knownUserHashes p = s.knownUserHashes p ∪ (users.map Prod.fst).toFinset := by
  induction users generalizing s with
  | nil => simp [batchUpsertKnownUsers]
  | cons user rest ih =>
    have hrest := ih (s.upsertKnownUser p user)
    rw [knownUserHashes_upsertKnownUser, if_pos rfl] at hrest
    rw [batchUpsertKnownUsers, List.foldl_cons]
    rw [batchUpsertKnownUsers] at hrest
    rw [hrest, List.map_cons, List.toFinset_cons, Finset.insert_union, Finset.union_insert]

theorem knownUserHashes_batchUpsert_of_ne (s : Store) (users : List (String × Seen)) (h : q ≠ p) :
    (s.batchUpsertKnownUsers q users).knownUserHashes p = s.knownUserHashes p := by
  induction users generalizing s with
  | nil => rfl
  | cons user rest ih =>
    have hrest := ih (s.upsertKnownUser q user)
    rw [knownUserHashes_upsertKnownUser, if_neg h] at hrest
    exact hrest

theorem hourly_batchUpsert (s : Store) (users : List (String × Seen)) : (s.batchUpsertKnownUsers p users).hourly = s.hourly := by
  induction users generalizing s with
  | nil => rfl
  | cons user rest ih => exact ih (s.upsertKnownUser p user)

end Store

/-- How far an aggregation gets with a service: `rowOnly` stores the row and not the users, and
`cut` stores both and goes no further. -/
inductive Outcome where
  | silent
  | failed
  | counted
  | rowOnly
  | cut

section Aggregating

variable (render : Value → String) (hashUserId : String → String) (sorted : List Float64 → List Float64) (a : Aggregation)

namespace Aggregation

def users (service : String) : Finset String := usersOf render hashUserId ((a.logs service).getD [])

def outcome (service : String) : Outcome :=
  match a.logs service with
  | none => .failed
  | some logs =>
    if logs.isEmpty then .silent
    else if logs.all countable then
      match a.stored service with
      | .refused => .failed
      | .unheard => .rowOnly
      | .answered =>
        if a.users render hashUserId service = ∅ then .counted
        else match a.recorded service with
          | .answered => .counted
          | .unheard => .cut
          | .refused => .rowOnly
    else .failed

def replacedIn (s : Store) : List String → Nat
  | [] => 0
  | service :: rest => match a.outcome render hashUserId service with
    | .silent => replacedIn s rest
    | .failed => 0
    | .counted => s.newUsersAt (a.key service) + replacedIn s rest
    | .rowOnly | .cut => s.newUsersAt (a.key service)

def unrecordedIn (known : Finset String) : List String → Nat
  | [] => 0
  | service :: rest => match a.outcome render hashUserId service with
    | .silent => unrecordedIn known rest
    | .failed | .cut => 0
    | .counted => unrecordedIn (known ∪ a.users render hashUserId service) rest
    | .rowOnly => (a.users render hashUserId service \ known).card

def replaced (s : Store) : Nat := if a.listed = .answered then a.replacedIn render hashUserId s a.services else 0

def unrecorded (s : Store) : Nat :=
  if a.listed = .answered then a.unrecordedIn render hashUserId (s.knownUserHashes a.projectId) a.services else 0

end Aggregation

def storing (m : Metrics) (service : String) (s : Store) : Store := s.upsertHourly (a.key service) m

def recording (m : Metrics) (service : String) (s : Store) : Store :=
  (storing a m service s).batchUpsertKnownUsers a.projectId
    ((sortedUsers (a.users render hashUserId service)).map fun h => (h, ⟨a.bucketEnd, a.bucketEnd⟩))

variable {render hashUserId sorted a}

theorem store_and_record {m : HourlyMetrics} {service : String} (hseen : m.seenUsers = (a.users render hashUserId service).sort)
    (rest : List String) (known : Finset String) (s : Store) :
    ((do
      call (fun s => s.upsertHourly (a.key service) m.toMetrics) (a.stored service)
      if m.seenUsers.isEmpty then aggregateServices render hashUserId sorted a rest known
      else
        let payload := m.seenUsers.map fun h => (h, (⟨a.bucketEnd, a.bucketEnd⟩ : Seen))
        call (fun s => s.batchUpsertKnownUsers a.projectId payload) (a.recorded service)
        aggregateServices render hashUserId sorted a rest (known ∪ m.seenUsers.toFinset) : Act Store Exn Unit) s).2 =
      match a.stored service with
      | .refused => s
      | .unheard => storing a m.toMetrics service s
      | .answered =>
        if a.users render hashUserId service = ∅ then (aggregateServices render hashUserId sorted a rest known (storing a m.toMetrics service s)).2
        else match a.recorded service with
          | .answered => (aggregateServices render hashUserId sorted a rest (known ∪ a.users render hashUserId service)
              (recording render hashUserId a m.toMetrics service s)).2
          | .unheard => recording render hashUserId a m.toMetrics service s
          | .refused => storing a m.toMetrics service s := by
  cases a.stored service with
  | answered =>
    rw [call, Act.update_bind, hseen]
    dsimp only
    by_cases husers : a.users render hashUserId service = ∅
    · rw [if_pos husers, husers, Finset.sort_empty]
      rfl
    · have hsome : ¬ (a.users render hashUserId service).sort.isEmpty = true := by
        intro hempty
        apply husers
        rw [← Finset.sort_toFinset (a.users render hashUserId service) (· ≤ ·), List.isEmpty_iff.mp hempty]
        rfl
      rw [if_neg hsome, if_neg husers, Finset.sort_toFinset]
      cases a.recorded service <;> rfl
  | _ => rfl

variable (render hashUserId sorted) in
theorem aggregateServices_cons (service : String) (rest : List String) (known : Finset String) (s : Store) :
    ∃ m : Metrics, m.newUsers = (a.users render hashUserId service \ known).card ∧
      (aggregateServices render hashUserId sorted a (service :: rest) known s).2 =
        match a.outcome render hashUserId service with
        | .silent => (aggregateServices render hashUserId sorted a rest known s).2
        | .failed => s
        | .counted => (aggregateServices render hashUserId sorted a rest (known ∪ a.users render hashUserId service)
            (recording render hashUserId a m service s)).2
        | .rowOnly => storing a m service s
        | .cut => recording render hashUserId a m service s := by
  have none : ∃ m : Metrics, m.newUsers = (a.users render hashUserId service \ known).card :=
    ⟨⟨0, 0, 0, _, .none, .none, .none, []⟩, rfl⟩
  unfold Aggregation.outcome
  rw [aggregateServices]
  cases hlogs : a.logs service with
  | none =>
    obtain ⟨m, hm⟩ := none
    exact ⟨m, hm, rfl⟩
  | some logs =>
    have husers : a.users render hashUserId service = usersOf render hashUserId logs := by
      rw [Aggregation.users, hlogs, Option.getD_some]
    dsimp only
    rw [Act.bind_ok (Act.ofExcept_apply _ _)]
    by_cases hempty : logs.isEmpty = true
    · obtain ⟨m, hm⟩ := none
      rw [if_pos hempty, if_pos hempty]
      exact ⟨m, hm, rfl⟩
    · rw [if_neg hempty, if_neg hempty]
      cases hall : logs.all countable with
      | false =>
        obtain ⟨m, hm⟩ := none
        obtain ⟨e, he⟩ := computeHourlyMetrics_of_not_countable render hashUserId sorted hall known
        rw [he]
        exact ⟨m, hm, rfl⟩
      | true =>
        obtain ⟨m, hmetrics, hseen, hnew⟩ := computeHourlyMetrics_of_countable render hashUserId sorted hall known
        rw [← husers] at hseen hnew
        refine ⟨m.toMetrics, hnew, ?_⟩
        rw [hmetrics, Except.mapError, Act.bind_ok (Act.ofExcept_apply _ _), store_and_record hseen]
        cases a.stored service with
        | answered =>
          by_cases hnone : a.users render hashUserId service = ∅
          · simp only [if_true, recording, sortedUsers, hnone, Finset.sort_empty, List.map_nil, Finset.union_empty]
            rfl
          · simp only [if_true, if_neg hnone]
            cases a.recorded service <;> rfl
        | _ => rfl

theorem knownUserHashes_recording (m : Metrics) (service : String) (s : Store) :
    (recording render hashUserId a m service s).knownUserHashes a.projectId =
      s.knownUserHashes a.projectId ∪ a.users render hashUserId service := by
  rw [recording, sortedUsers, Store.knownUserHashes_batchUpsert, List.map_map]
  have hfst : (a.users render hashUserId service).sort.map (Prod.fst ∘ fun h => (h, (⟨a.bucketEnd, a.bucketEnd⟩ : Seen))) =
      (a.users render hashUserId service).sort := List.map_id _
  rw [hfst, Finset.sort_toFinset]
  rfl

theorem newUsersAt_recording (m : Metrics) (s : Store) {service other : String} (h : other ≠ service) :
    (recording render hashUserId a m service s).newUsersAt (a.key other) = s.newUsersAt (a.key other) := by
  have hkey : a.key other ≠ a.key service := fun heq => h (HourlyKey.mk.inj heq).2.1
  rw [← Store.newUsersAt_upsertHourly_of_ne s m hkey]
  unfold Store.newUsersAt recording
  rw [Store.hourly_batchUpsert, storing]

theorem replacedIn_recording (m : Metrics) (s : Store) {service : String} {rest : List String} (h : service ∉ rest) :
    a.replacedIn render hashUserId (recording render hashUserId a m service s) rest = a.replacedIn render hashUserId s rest := by
  induction rest with
  | nil => rfl
  | cons other rest ih =>
    obtain ⟨hne, hrest⟩ := not_or.mp (List.mem_cons.not.mp h)
    rw [Aggregation.replacedIn, Aggregation.replacedIn, newUsersAt_recording m s (Ne.symm hne), ih hrest]

theorem aggregateServices_ledger (s : Store) {known : Finset String} (hknown : s.knownUserHashes a.projectId = known)
    {services : List String} (hnodup : services.Nodup) :
    (aggregateServices render hashUserId sorted a services known s).2.newUsersStored a.projectId +
        a.replacedIn render hashUserId s services + known.card =
      s.newUsersStored a.projectId +
        ((aggregateServices render hashUserId sorted a services known s).2.knownUserHashes a.projectId).card +
        a.unrecordedIn render hashUserId known services := by
  induction services generalizing s known with
  | nil =>
    rw [aggregateServices, Act.pure_apply, Aggregation.replacedIn, Aggregation.unrecordedIn]
    dsimp only
    rw [hknown]
    omega
  | cons service rest ih =>
    obtain ⟨hservice, hrest⟩ := List.nodup_cons.mp hnodup
    obtain ⟨m, hnew, hstate⟩ := aggregateServices_cons render hashUserId sorted (a := a) service rest known s
    rw [Aggregation.replacedIn, Aggregation.unrecordedIn, hstate]
    have hrow : (storing a m service s).newUsersStored a.projectId + s.newUsersAt (a.key service) =
        s.newUsersStored a.projectId + (a.users render hashUserId service \ known).card :=
      hnew ▸ Store.newUsersStored_upsertHourly s m rfl
    have hunion : (known ∪ a.users render hashUserId service).card = known.card + (a.users render hashUserId service \ known).card := by
      rw [← Finset.union_sdiff_self_eq_union, Finset.card_union_of_disjoint Finset.disjoint_sdiff]
    have hrecorded : (recording render hashUserId a m service s).knownUserHashes a.projectId = known ∪ a.users render hashUserId service :=
      hknown ▸ knownUserHashes_recording m service s
    have hrows : (recording render hashUserId a m service s).newUsersStored a.projectId = (storing a m service s).newUsersStored a.projectId := by
      unfold Store.newUsersStored recording
      rw [Store.hourly_batchUpsert]
    cases a.outcome render hashUserId service with
    | silent => exact ih s hknown hrest
    | failed =>
      dsimp only
      rw [hknown]
      omega
    | rowOnly =>
      have hsame : (storing a m service s).knownUserHashes a.projectId = known := hknown
      dsimp only
      rw [hsame]
      omega
    | cut =>
      dsimp only
      rw [hrecorded, hrows]
      omega
    | counted =>
      have hlater := ih (recording render hashUserId a m service s) hrecorded hrest
      rw [hrows, replacedIn_recording m s hservice] at hlater
      dsimp only
      omega

variable (render hashUserId sorted) in
theorem aggregateProjectHourly_ledger (s : Store) :
    (aggregateProjectHourly render hashUserId sorted a s).2.newUsersStored a.projectId + a.replaced render hashUserId s +
        (s.knownUserHashes a.projectId).card =
      s.newUsersStored a.projectId + ((aggregateProjectHourly render hashUserId sorted a s).2.knownUserHashes a.projectId).card +
        a.unrecorded render hashUserId s := by
  unfold aggregateProjectHourly Aggregation.replaced Aggregation.unrecorded
  cases a.listed with
  | answered => exact aggregateServices_ledger s rfl a.nodup
  | unheard | refused =>
    show s.newUsersStored _ + 0 + _ = s.newUsersStored _ + (s.knownUserHashes _).card + 0
    omega

def Store.counts (p : String) (s : Store) : Nat × Finset String := (s.newUsersStored p, s.knownUserHashes p)

theorem call_untouched {p : String} {effect : Store → Store} (h : ∀ s, (effect s).counts p = s.counts p) (fate : Fate) :
    Act.Untouched (Store.counts p) (call effect fate) := by
  cases fate with
  | answered => exact Act.Untouched.update h
  | unheard => exact h
  | refused => exact Act.Untouched.raise _

theorem fetch_untouched {A : Type} (p : String) (answer : Store → A) (fate : Fate) :
    Act.Untouched (Store.counts p) (fetch answer fate) := by
  cases fate <;> exact fun _ => rfl

theorem aggregateServices_untouched {p : String} (h : a.projectId ≠ p) (services : List String) (known : Finset String) :
    Act.Untouched (Store.counts p) (aggregateServices render hashUserId sorted a services known) := by
  induction services generalizing known with
  | nil => exact Act.Untouched.pure _
  | cons service rest ih =>
    rw [aggregateServices]
    apply (Act.Untouched.ofExcept _).bind
    intro logs
    split
    · exact ih known
    · apply (Act.Untouched.ofExcept _).bind
      intro m
      apply Act.Untouched.bind
      · apply call_untouched
        intro s
        exact Prod.ext (Store.newUsersStored_upsertHourly_of_ne s m.toMetrics h) rfl
      · intro _
        split
        · exact ih known
        · apply Act.Untouched.bind
          · apply call_untouched
            intro s
            refine Prod.ext ?_ (Store.knownUserHashes_batchUpsert_of_ne s _ h)
            show Store.newUsersStored _ p = _
            unfold Store.newUsersStored
            rw [Store.hourly_batchUpsert]
            rfl
          · exact fun _ => ih _

variable (render hashUserId sorted) in
theorem aggregateProjectHourly_untouched {p : String} (h : a.projectId ≠ p) :
    Act.Untouched (Store.counts p) (aggregateProjectHourly render hashUserId sorted a) :=
  (fetch_untouched p _ _).bind fun known => aggregateServices_untouched h a.services known

def Store.CountedOnce (s : Store) (p : String) : Prop := s.newUsersStored p = (s.knownUserHashes p).card

variable (render hashUserId sorted) in
/-- The users that an aggregation takes out of the stored counts are as many as those it counts
without recording them. -/
def Aggregation.Balanced (a : Aggregation) (s : Store) : Prop := a.replaced render hashUserId s = a.unrecorded render hashUserId s

theorem countedOnce_step_iff {p : String} {s : Store} (h : s.CountedOnce p) :
    (aggregateProjectHourly render hashUserId sorted a s).2.CountedOnce p ↔ (a.projectId = p → a.Balanced render hashUserId s) := by
  unfold Store.CountedOnce Aggregation.Balanced at *
  by_cases hproject : a.projectId = p
  · subst hproject
    have hledger := aggregateProjectHourly_ledger render hashUserId sorted (a := a) s
    constructor
    · intro _ _
      omega
    · intro hbalanced
      have := hbalanced rfl
      omega
  · have hcounts := aggregateProjectHourly_untouched render hashUserId sorted hproject s
    obtain ⟨hstored, hknown⟩ := Prod.mk.inj hcounts
    rw [hstored, hknown]
    exact iff_of_true h fun heq => absurd heq hproject

theorem after_append (s : Store) (before : List Aggregation) (a : Aggregation) :
    s.after render hashUserId sorted (before ++ [a]) =
      (aggregateProjectHourly render hashUserId sorted a (s.after render hashUserId sorted before)).2 := by
  rw [Store.after, List.foldl_append]
  rfl

variable (render hashUserId sorted) in
/-- Along a run, the rows of a project always count its known users exactly if no aggregation of it
takes more or fewer users out of the counts than it leaves unrecorded. -/
theorem users_counted_once_iff (p : String) (runs : List Aggregation) :
    (∀ before, before <+: runs → (Store.empty.after render hashUserId sorted before).CountedOnce p) ↔
      ∀ before a, before ++ [a] <+: runs → a.projectId = p → a.Balanced render hashUserId (Store.empty.after render hashUserId sorted before) := by
  constructor
  · intro hall before a hbegins
    have hbefore := hall before ((List.prefix_append before [a]).trans hbegins)
    have hafter := hall (before ++ [a]) hbegins
    rw [after_append] at hafter
    exact (countedOnce_step_iff hbefore).mp hafter
  · intro hbalanced before
    induction before using List.reverseRecOn with
    | nil => exact fun _ => rfl
    | append_singleton before a ih =>
      intro hbegins
      rw [after_append]
      exact (countedOnce_step_iff (ih ((List.prefix_append before [a]).trans hbegins))).mpr (hbalanced before a hbegins)

end Aggregating

def interrupted : Aggregation where
  projectId := "p"
  services := ["backend"]
  nodup := List.nodup_singleton _
  bucketStart := 0
  bucketEnd := 3600
  logs := fun _ => some [[("event", .text "request"), ("user_id", .text "u1")]]
  listed := .answered
  stored := fun _ => .answered
  recorded := fun _ => .refused

theorem interrupted_outcome (render : Value → String) (hashUserId : String → String) :
    interrupted.outcome render hashUserId "backend" = .rowOnly := by
  have husers : interrupted.users render hashUserId "backend" = {hashUserId "u1"} := rfl
  unfold Aggregation.outcome
  rw [husers, if_neg (Finset.singleton_ne_empty _)]
  rfl

theorem interrupted_miscounts (render : Value → String) (hashUserId : String → String) (sorted : List Float64 → List Float64) :
    ¬ (Store.empty.after render hashUserId sorted [interrupted]).CountedOnce "p" := by
  intro hcounted
  have hstep : (aggregateProjectHourly render hashUserId sorted interrupted Store.empty).2.CountedOnce "p" := hcounted
  have hempty : Store.empty.CountedOnce "p" := rfl
  have hbalanced := (countedOnce_step_iff hempty).mp hstep rfl
  have hreplaced : interrupted.replaced render hashUserId Store.empty = 0 := by
    show interrupted.replacedIn render hashUserId Store.empty ["backend"] = 0
    rw [Aggregation.replacedIn, interrupted_outcome]
    rfl
  have hunrecorded : interrupted.unrecorded render hashUserId Store.empty = 1 := by
    show interrupted.unrecordedIn render hashUserId ∅ ["backend"] = 1
    rw [Aggregation.unrecordedIn, interrupted_outcome]
    rfl
  rw [Aggregation.Balanced, hreplaced, hunrecorded] at hbalanced
  cases hbalanced

theorem interrupted_bucket_miscounts : ¬ ∀ (render : Value → String) (hashUserId : String → String)
    (sorted : List Float64 → List Float64) (p : String)
    (runs : List Aggregation), (Store.empty.after render hashUserId sorted runs).CountedOnce p := by
  intro hall
  exact interrupted_miscounts (fun _ => "") id id (hall _ _ _ "p" [interrupted])

end Orchestrator.Analytics
