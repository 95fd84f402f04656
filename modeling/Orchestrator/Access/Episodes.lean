import Orchestrator.Access.Settling

/-!
What the sweep makes of one grant over its whole life: every reading of it
counts, and the administrator is called once in every episode.
-/

namespace Orchestrator.Access

open Async Async.Rules Contracts
open Api (TemporaryAccessStatus TemporaryAccessEscalation)

def noGrants (runs : String → Option (Api.Run QARunResult)) : Config accessWorld := .idle ⟨⟨runs, []⟩, []⟩

section Samples

def sampleConfig : SupervisorConfig := ⟨60, 60, 1, 10, 600, 60, 24⟩

def sampleHandoffs : Nat → Handoff := fun _ => ⟨"project", "TEST_USER_ID", "7", "sha", ⟨"story", 7, "qa-1"⟩⟩

def sampleServices (now : Time) (run : Option RunDTO) (present : Option Bool) : (call : ServiceCall) → Except Exn call.Res
  | .clock => .ok (now : Time)
  | .getRun _ => .ok (run : Option RunDTO)
  | .createRun _ => .ok ()
  | .publishDeploy _ => .ok ()
  | .publishQA _ => .ok ()
  | .publishObservation .. => .ok ()
  | .withdrawDispatch .. => .ok (none : Option Time)
  | .supersedeDispatch .. => .ok true
  | .recordRunOutcome .. => .ok true
  | .getResult _ => .ok (present.map fun present => ⟨.observed present, 1⟩ : Option EnvObservationResult)
  | .deleteResult _ => .ok ()
  | .setPending _ => .ok true
  | .setSlotAudit .. => .ok true
  | .getApplication _ => .ok (some ⟨7, "repo", "server", true⟩ : Option Application)
  | .getRepositories _ => .ok ["repo"]
  | .getProject _ => .ok (some "project" : Option String)
  | .notifyAdmins _ => .ok ()

def sampleSheet (now : Time) (suffix : String) (run : Option RunDTO) (present : Option Bool) : (op : Op) → op.Answer
  | .service call => sampleServices now run present call
  | .newSuffix => suffix
  | .logRevokeFailed .. => ()
  | .listUnderWatch .. => ⟨.served, now, true⟩
  | .createGrant _ => ⟨.served, now, true⟩
  | .updateGrant .. => ⟨.served, now, true⟩
  | .escalateGrant .. => ⟨.served, now, true⟩
  | .recordObservation .. => ⟨.served, now, true⟩

def deployed : Option RunDTO := some ⟨"deploy", .completed, 0, some .success, false⟩

def deployFailed : Option RunDTO := some ⟨"deploy", .failed, 0, none, false⟩

def sampleTick (calls : Nat) (now : Time) (suffix : String) (run : Option RunDTO) (present : Option Bool) :
    List (Turn accessWorld) :=
  .start .sweep :: List.replicate calls (.call .sweep (sampleSheet now suffix run present))

def sampleObserved (now : Time) (suffix : String) (present : Bool) : List (Turn accessWorld) :=
  sampleTick 20 now suffix deployed none ++ sampleTick 20 (now + 30) suffix deployed (some present)

def sampleHandoff : List (Turn accessWorld) :=
  .start (.handoff 0) :: List.replicate 20 (.call (.handoff 0) (sampleSheet 0 "0" none none))

def sampleExpiry : List (Turn accessWorld) := sampleHandoff ++ sampleTick 20 10000 "1" none none

end Samples

/-- Where the update that follows a reading is not lost, every reading the sweep
records is one the grant has not taken yet, and the next question of a grant has
a name of its own. -/
theorem readings_taken (config : SupervisorConfig) (handoffs : Nat → Handoff)
    (runs : String → Option (Api.Run QARunResult)) (c : Config accessWorld)
    (h : Reaches (party config handoffs) readingsMoved (noGrants runs) c) :
    (∀ observation before after owned, Event.read observation before after owned ∈ c.state.trace →
      Taken observation before after owned) ∧
    ∀ grant ∈ c.state.db.grants, grant.status = .revoking ∨ grant.status = .revoked →
      disputed grant.id c.state.trace = false → grant.observationId ≠ some (observationRequestId grant) := by
  have hreach : Reaches (party config handoffs) (settlingRules True False).admits (noGrants runs) c :=
    h.mono fun s m hok => ⟨fun _ => hok, fun hfalse => hfalse.elim⟩
  have horderly := reaches_orderly hreach
  exact ⟨horderly.taken trivial, fun grant hmem => (horderly.counted trivial grant hmem).fresh⟩

instance decidableUnminted (trace : List Event) (suffix : String) : Decidable (suffix ∉ minted trace) := inferInstance

instance (s : State) (m : Move accessWorld) : Decidable (readingsMoved s m) := by
  unfold readingsMoved
  (repeat' split) <;> first | infer_instance | exact decidableUnminted _ _

def sampleReadings : List (Turn accessWorld) :=
  sampleExpiry ++ sampleObserved 10100 "2" false ++ sampleObserved 10800 "2" false ++ sampleObserved 11500 "2" true

theorem sampleReadings_taken :
    (∀ observation before after owned,
      Event.read observation before after owned ∈
        ((noGrants fun _ => none).play (party sampleConfig sampleHandoffs) sampleReadings).state.trace →
      Taken observation before after owned) ∧
    ((noGrants fun _ => none).play (party sampleConfig sampleHandoffs) sampleReadings).state.db.grants.map
      (fun grant => (grant.status, grant.observationId)) = [(.revoking, some "envobs-deploy-revoke-1-2")] := by
  have hreach : Reaches (party sampleConfig sampleHandoffs) readingsMoved (noGrants fun _ => none)
      ((noGrants fun _ => none).play (party sampleConfig sampleHandoffs) sampleReadings) :=
    play_reaches (by decide +kernel)
  exact ⟨(readings_taken sampleConfig sampleHandoffs (fun _ => none) _ hreach).1, by decide +kernel⟩

def sampleLostUpdate : List (Turn accessWorld) :=
  sampleExpiry ++ sampleTick 20 10100 "2" deployed none ++ sampleTick 9 10130 "2" deployed (some true) ++
    .stop .sweep :: sampleObserved 10800 "2" true

theorem lost_update_drops_reading : ¬∀ config handoffs runs (c : Config accessWorld),
    Reaches (party config handoffs) anyMove (noGrants runs) c → ∀ observation before after owned,
      Event.read observation before after owned ∈ c.state.trace → before.observationId ≠ some observation.observationId := by
  intro h
  have hdropped : ((noGrants fun _ => none).play (party sampleConfig sampleHandoffs) sampleLostUpdate).state.trace.any
      (fun event => match event with
        | .read observation before _ _ => decide (before.observationId = some observation.observationId)
        | _ => false) = true := by decide +kernel
  obtain ⟨event, hmem, hevent⟩ := List.any_eq_true.mp hdropped
  cases event with
  | read observation before after owned =>
    exact h sampleConfig sampleHandoffs (fun _ => none) _ (play_reaches_anyMove _ _ _) observation before after owned hmem
      (of_decide_eq_true hevent)
  | _ => cases hevent

/-- A failure with the attempts used up, of a grant with no call on record,
puts the call on record if the API takes the request. -/
def CallRecorded (config : SupervisorConfig) (s : State) : Prop :=
  ∀ (grant row : TemporaryAccessGrant) (error : String) (db : Database QARunResult) (reply : Reply)
    (answers : (op : Op) → Option op.Answer), config.maxRevokeAttempts ≤ grant.revokeAttempts →
    grant.escalatedAt = none → (∀ op, (answers op).isSome = true) →
    answers (.escalateGrant grant.id (cleanupFailure grant error)) = some reply → reply.fate.carriedOut = true →
    s.db.escalateGrant grant.id (cleanupFailure grant error) reply.now = .ok (row, db) →
      (alone accessWorld .sweep answers (recordRevokeFailure config grant error) s).trace =
        .escalated grant.id :: .failed grant.id true true :: s.trace

theorem alone_notifyAdmins {A : Type} {message : String} {answers : (op : Op) → Option op.Answer} {f : Unit → Sweep A}
    {s : State} (h : (answers (.service (.notifyAdmins message))).isSome = true) :
    alone accessWorld .sweep answers ((notifyAdmins message).bind f) s = alone accessWorld .sweep answers (f ()) s := by
  obtain ⟨told, htold⟩ := Option.isSome_iff_exists.mp h
  refine (alone_call htold).trans ?_
  cases told with
  | ok _ | error _ => rfl

theorem callRecorded (config : SupervisorConfig) (s : State) : CallRecorded config s := by
  intro grant row error db reply answers hspent hunmarked hlives hescalate hcarried hok
  obtain ⟨logged, hlog⟩ := Option.isSome_iff_exists.mp (hlives (.logRevokeFailed grant.id true true))
  unfold recordRevokeFailure retriesAreSpent
  rw [if_pos hspent, hunmarked]
  refine (congrArg State.trace (alone_call hlog)).trans ?_
  refine (congrArg State.trace (alone_notifyAdmins (hlives _))).trans ?_
  refine (congrArg State.trace (alone_last hescalate ())).trans ?_
  have hserved : (accessWorld.run .sweep (.escalateGrant grant.id (cleanupFailure grant error)) reply
      (s.record (.failed grant.id true true))).2.trace = .escalated grant.id :: .failed grant.id true true :: s.trace := by
    have hrecord : (s.record (.failed grant.id true true)).escalateGrant grant.id (cleanupFailure grant error) reply =
        (.ok row, ⟨db, .escalated grant.id :: .failed grant.id true true :: s.trace⟩) := by
      unfold State.escalateGrant State.serve
      rw [show (s.record (.failed grant.id true true)).db.escalateGrant grant.id (cleanupFailure grant error) reply.now =
        .ok (row, db) from hok]
      rfl
    change (reply.fate.serve (fun s => s.escalateGrant grant.id (cleanupFailure grant error) reply)
      (s.record (.failed grant.id true true))).2.trace = _
    cases hfate : reply.fate with
    | unsent e =>
      rw [hfate] at hcarried
      cases hcarried
    | _ => simp [Fate.serve, hrecord]
  exact hserved

/-- Where no grant with a call on record is opened again, every episode of a
grant has at most one call on record, and a failure that finds the retries spent
calls exactly if its episode has none. -/
theorem called_once (config : SupervisorConfig) (handoffs : Nat → Handoff) (runs : String → Option (Api.Run QARunResult))
    (c : Config accessWorld) (h : Reaches (party config handoffs) reopeningsUnmarked (noGrants runs) c) :
    CalledOnce c.state.trace ∧ CallRecorded config c.state := by
  have hreach : Reaches (party config handoffs) (settlingRules False True).admits (noGrants runs) c :=
    h.mono fun s m hok => ⟨fun hfalse => hfalse.elim, fun _ => hok⟩
  exact ⟨(reaches_orderly hreach).calledOnce trivial, callRecorded config c.state⟩

def sampleCall : List (Turn accessWorld) :=
  sampleExpiry ++ sampleTick 20 10100 "2" deployFailed none ++ sampleTick 20 10200 "3" none none ++
    sampleObserved 10300 "4" false ++ sampleObserved 11000 "4" false

def sampleReturn : List (Turn accessWorld) :=
  sampleCall ++ sampleObserved 11700 "4" true ++ sampleTick 20 11800 "5" deployFailed none

instance (s : State) (m : Move accessWorld) : Decidable (reopeningsUnmarked s m) := by
  unfold reopeningsUnmarked
  (repeat' split) <;> infer_instance

theorem sampleCall_once : CalledOnce ((noGrants fun _ => none).play (party sampleConfig sampleHandoffs) sampleCall).state.trace ∧
    escalations "tempaccess-qa-1" ((noGrants fun _ => none).play (party sampleConfig sampleHandoffs) sampleCall).state.trace = 1 := by
  have hreach : Reaches (party sampleConfig sampleHandoffs) reopeningsUnmarked (noGrants fun _ => none)
      ((noGrants fun _ => none).play (party sampleConfig sampleHandoffs) sampleCall) := play_reaches (by decide +kernel)
  exact ⟨(called_once sampleConfig sampleHandoffs (fun _ => none) _ hreach).1, by decide +kernel⟩

theorem earlier_call_suppresses : ¬∀ config handoffs runs (c : Config accessWorld),
    Reaches (party config handoffs) anyMove (noGrants runs) c → ∀ grantId newer older,
      c.state.trace = newer ++ .failed grantId true false :: older → escalations grantId older = 1 := by
  intro h
  have htrace : ∃ newer older,
      ((noGrants fun _ => none).play (party sampleConfig sampleHandoffs) sampleReturn).state.trace =
        newer ++ .failed "tempaccess-qa-1" true false :: older ∧ escalations "tempaccess-qa-1" older = 0 := by
    refine ⟨_, ((noGrants fun _ => none).play (party sampleConfig sampleHandoffs) sampleReturn).state.trace.drop 2,
      (List.take_append_drop 1 _).symm.trans (congrArg _ ?_), ?_⟩ <;> decide +kernel
  obtain ⟨newer, older, htrace, hnone⟩ := htrace
  cases (h sampleConfig sampleHandoffs (fun _ => none) _ (play_reaches_anyMove _ _ _) _ newer older htrace).symm.trans hnone

end Orchestrator.Access
