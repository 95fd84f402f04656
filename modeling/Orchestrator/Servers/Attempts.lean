import Orchestrator.Async.Histories
import Orchestrator.Servers.Rows

/-!
Any number of jobs that reserve attempts at provisioning one server and reset them, whatever
else they do. An attempt is a token, of which a job holds those it was told; the episodes are
counted from one, each by its own jobs, and only the token last given out closes an episode.
-/

namespace Orchestrator.Servers

open Async

structure Token where
  attemptNumber : Nat
  episodeId : String
deriving DecidableEq

def ProvisioningAttemptReset.token (request : ProvisioningAttemptReset) : Token := ⟨request.attemptNumber, request.episodeId⟩

structure RowChange where
  server : Server

def RowChange.apply (change : RowChange) (row : Option Server) : Server :=
  match row with
  | none => { change.server with provisioningAttempts := 0, provisioningEpisodeId := none }
  | some server => { change.server with
      provisioningAttempts := server.provisioningAttempts
      provisioningEpisodeId := server.provisioningEpisodeId }

inductive Op where
  | reserve (request : ProvisioningAttemptReservation)
  | reset (request : ProvisioningAttemptReset)
  | outside

def Op.Res : Op → Type
  | reserve _ => ProvisioningAttemptReservationResult
  | reset _ => ProvisioningAttemptResetResult
  | outside => Unit

abbrev attemptInterface : Interface := ⟨Op, Op.Res, Exn⟩

inductive Event where
  | reserved (job : Nat) (token : Token)
  | closed (job : Nat) (token : Token)
  | refused (job : Nat) (token : Token)
deriving DecidableEq

/-- No request reads the last three: the ids drawn, the tokens the jobs were told, and what
happened, the latest event first. -/
structure State where
  row : Option Server
  minted : List String
  told : List (Nat × Token)
  log : List Event

structure Reply where
  fate : Fate Exn
  newEpisodeId : String
  change : RowChange

namespace State

def learn (s : State) (job : Nat) (token : Token) : State := { s with told := (job, token) :: s.told }

def record (s : State) (event : Event) : State := { s with log := event :: s.log }

def reserve (job : Nat) (request : ProvisioningAttemptReservation) (newEpisodeId : String) (s : State) :
    Except Exn ProvisioningAttemptReservationResult × State :=
  let drawn := { s with minted := newEpisodeId :: s.minted }
  match reserveProvisioningAttempt request newEpisodeId s.row with
  | (.ok ⟨true, attempts, some episodeId⟩, row) =>
      (.ok ⟨true, attempts, some episodeId⟩, { drawn with row := row }.record (.reserved job ⟨attempts, episodeId⟩))
  | (r, row) => (r, { drawn with row := row })

def reset (job : Nat) (request : ProvisioningAttemptReset) (s : State) : Except Exn ProvisioningAttemptResetResult × State :=
  match resetProvisioningAttempts request s.row with
  | (.ok ⟨true, attempts, episodeId⟩, row) =>
      (.ok ⟨true, attempts, episodeId⟩, { s with row := row }.record (.closed job request.token))
  | (r, row) => (r, { s with row := row }.record (.refused job request.token))

def hear (job : Nat) (answer : Except Exn ProvisioningAttemptReservationResult × State) :
    Except Exn ProvisioningAttemptReservationResult × State :=
  match answer with
  | (.ok ⟨true, attempts, some episodeId⟩, s) => (.ok ⟨true, attempts, some episodeId⟩, s.learn job ⟨attempts, episodeId⟩)
  | other => other

end State

def run (job : Nat) (op : Op) (reply : Reply) (s : State) : Except Exn (Op.Res op) × State :=
  match op with
  | .reserve request => State.hear job (reply.fate.serve (State.reserve job request reply.newEpisodeId) s)
  | .reset request => reply.fate.serve (State.reset job request) s
  | .outside => (.ok (), { s with row := some (reply.change.apply s.row) })

abbrev attemptWorld : World attemptInterface Nat Unit := ⟨State, fun _ => Reply, run, fun _ _ s => s⟩

def fenced (maxAttempts : Nat) (s : State) : Move attemptWorld → Prop
  | .call _ (.reserve request) reply => request.maxAttempts = maxAttempts ∧ reply.newEpisodeId ∉ s.minted
  | .call job (.reset request) _ => (job, request.token) ∈ s.told
  | _ => True

instance (maxAttempts : Nat) (s : State) (m : Move attemptWorld) : Decidable (fenced maxAttempts s m) := by
  unfold fenced
  split <;> infer_instance

def opening (row : Option Server) : State := ⟨row, [], [], []⟩

def attemptsOf (episodeId : String) (log : List Event) : List Nat :=
  log.filterMap fun
    | .reserved _ token => if token.episodeId = episodeId then some token.attemptNumber else none
    | _ => none

def latest : List Event → Option (Nat × Token)
  | [] => none
  | .reserved job token :: _ => some (job, token)
  | .closed .. :: _ => none
  | .refused .. :: older => latest older

def Due : Event → List Event → Prop
  | .reserved _ token, older => match latest older with
    | none => token.attemptNumber = 1 ∧ ∀ job token', .reserved job token' ∈ older → token'.episodeId ≠ token.episodeId
    | some (_, token') => token = ⟨token'.attemptNumber + 1, token'.episodeId⟩
  | .closed job token, older => latest older = some (job, token)
  | .refused _ token, older => ∀ job, latest older ≠ some (job, token)

def Counts (row : Option Server) : Option (Nat × Token) → Prop
  | none => ∀ server, row = some server → server.provisioningAttempts = 0 ∧ server.provisioningEpisodeId = none
  | some (_, token) => 0 < token.attemptNumber ∧ ∃ server, row = some server ∧
      server.provisioningAttempts = token.attemptNumber ∧ server.provisioningEpisodeId = some token.episodeId

structure Numbered (maxAttempts : Nat) (log : List Event) : Prop where
  consecutive : ∀ episodeId, (attemptsOf episodeId log).reverse = List.range' 1 (attemptsOf episodeId log).length
  bounded : ∀ episodeId, (attemptsOf episodeId log).length ≤ maxAttempts
  current : ∀ job token, latest log = some (job, token) → (attemptsOf token.episodeId log).length = token.attemptNumber

structure Inv (maxAttempts : Nat) (s : State) : Prop where
  counts : Counts s.row (latest s.log)
  numbered : Numbered maxAttempts s.log
  minted : ∀ job token, .reserved job token ∈ s.log → token.episodeId ∈ s.minted
  told : ∀ job token, (job, token) ∈ s.told → .reserved job token ∈ s.log
  single : ∀ job job' token, .reserved job token ∈ s.log → .reserved job' token ∈ s.log → job = job'
  clean : Clean Due s.log

section

variable {maxAttempts : Nat} {s : State} {log : List Event} {job : Nat} {token : Token}

theorem attemptsOf_reserved (episodeId : String) : attemptsOf episodeId (.reserved job token :: log) =
    if token.episodeId = episodeId then token.attemptNumber :: attemptsOf episodeId log else attemptsOf episodeId log := by
  unfold attemptsOf
  rw [List.filterMap_cons]
  by_cases h : token.episodeId = episodeId
  · simp [h]
  · simp [h]

theorem mem_attemptsOf (h : .reserved job token ∈ log) : token.attemptNumber ∈ attemptsOf token.episodeId log :=
  List.mem_filterMap.mpr ⟨_, h, if_pos rfl⟩

theorem attemptsOf_eq_nil {episodeId : String} (h : ∀ job token, .reserved job token ∈ log → token.episodeId ≠ episodeId) :
    attemptsOf episodeId log = [] := by
  refine List.filterMap_eq_nil_iff.mpr fun event hevent => ?_
  cases event with
  | reserved job token => exact if_neg (h job token hevent)
  | _ => rfl

theorem mem_of_latest (h : latest log = some (job, token)) : .reserved job token ∈ log := by
  induction log with
  | nil => cases h
  | cons event older ih =>
    cases event with
    | reserved job' token' =>
      obtain ⟨rfl, rfl⟩ := Prod.mk.inj (Option.some.inj h)
      exact List.mem_cons_self
    | closed job' token' => cases h
    | refused job' token' => exact List.mem_cons_of_mem _ (ih h)

section

variable (h : Numbered maxAttempts log)

include h

theorem Numbered.attempt_le (hmem : .reserved job token ∈ log) :
    token.attemptNumber ≤ (attemptsOf token.episodeId log).length := by
  have hrange : token.attemptNumber ∈ (attemptsOf token.episodeId log).reverse := List.mem_reverse.mpr (mem_attemptsOf hmem)
  rw [h.consecutive, List.mem_range'_1] at hrange
  omega

theorem Numbered.reserved
    (hnext : token.attemptNumber = (attemptsOf token.episodeId log).length + 1) (hmax : token.attemptNumber ≤ maxAttempts) :
    Numbered maxAttempts (.reserved job token :: log) where
  consecutive episodeId := by
    rw [attemptsOf_reserved]
    by_cases he : token.episodeId = episodeId
    · subst he
      rw [if_pos rfl, List.reverse_cons, h.consecutive, List.length_cons, List.range'_concat, hnext]
      congr 2
      omega
    · rw [if_neg he]
      exact h.consecutive episodeId
  bounded episodeId := by
    rw [attemptsOf_reserved]
    by_cases he : token.episodeId = episodeId
    · subst he
      rw [if_pos rfl, List.length_cons, ← hnext]
      exact hmax
    · rw [if_neg he]
      exact h.bounded episodeId
  current job' token' hlatest := by
    obtain ⟨rfl, rfl⟩ := Prod.mk.inj (Option.some.inj hlatest)
    rw [attemptsOf_reserved, if_pos rfl, List.length_cons, hnext]

theorem Numbered.closed : Numbered maxAttempts (.closed job token :: log) :=
  ⟨h.consecutive, h.bounded, nofun⟩

theorem Numbered.refused : Numbered maxAttempts (.refused job token :: log) :=
  ⟨h.consecutive, h.bounded, h.current⟩

end

section

variable (h : Inv maxAttempts s)

include h

theorem Inv.next {server : Server} {newEpisodeId episodeId : String} (job : Nat) (hrow : s.row = some server)
    (hfresh : newEpisodeId ∉ s.minted) (hepisode : (server.reserved newEpisodeId).provisioningEpisodeId = some episodeId) :
    Due (.reserved job ⟨server.provisioningAttempts + 1, episodeId⟩) s.log ∧
      server.provisioningAttempts = (attemptsOf episodeId s.log).length ∧ (episodeId = newEpisodeId ∨ episodeId ∈ s.minted) := by
  have hcounts := h.counts
  cases hlatest : latest s.log with
  | none =>
    rw [hlatest] at hcounts
    have hzero := (hcounts server hrow).1
    have hnew : episodeId = newEpisodeId := by simpa [Server.reserved, hzero, eq_comm] using hepisode
    subst hnew
    have hnever : ∀ job token, .reserved job token ∈ s.log → token.episodeId ≠ episodeId :=
      fun job token hmem heq => hfresh (heq ▸ h.minted job token hmem)
    refine ⟨?_, ?_, .inl rfl⟩
    · simp only [Due, hlatest, hzero]
      exact ⟨trivial, hnever⟩
    · rw [attemptsOf_eq_nil hnever]
      exact hzero
  | some last =>
    obtain ⟨holder, token⟩ := last
    rw [hlatest] at hcounts
    obtain ⟨hpos, server', hrow', hattempts, hkept⟩ := hcounts
    obtain rfl : server' = server := Option.some.inj (hrow'.symm.trans hrow)
    have hsame : episodeId = token.episodeId := by
      have hne : server'.provisioningAttempts ≠ 0 := by omega
      simpa [Server.reserved, hne, hkept, eq_comm] using hepisode
    subst hsame
    refine ⟨?_, ?_, .inr ?_⟩
    · simp only [Due, hlatest, hattempts]
    · rw [hattempts]
      exact (h.numbered.current holder token hlatest).symm
    · exact h.minted holder token (mem_of_latest hlatest)

theorem Inv.draw {newEpisodeId : String} : Inv maxAttempts { s with minted := newEpisodeId :: s.minted } :=
  ⟨h.counts, h.numbered, fun job token hmem => List.mem_cons_of_mem _ (h.minted job token hmem), h.told, h.single, h.clean⟩

theorem Inv.reserved {server : Server} {newEpisodeId episodeId : String} (hrow : s.row = some server)
    (hfresh : newEpisodeId ∉ s.minted) (hroom : server.provisioningAttempts < maxAttempts)
    (hepisode : (server.reserved newEpisodeId).provisioningEpisodeId = some episodeId) :
    Inv maxAttempts (State.record ⟨some (server.reserved newEpisodeId), newEpisodeId :: s.minted, s.told, s.log⟩
      (.reserved job ⟨server.provisioningAttempts + 1, episodeId⟩)) := by
  obtain ⟨hdue, hlength, hminted⟩ := h.next job hrow hfresh hepisode
  refine ⟨⟨Nat.succ_pos _, _, rfl, rfl, hepisode⟩, h.numbered.reserved (by simp only [hlength]) hroom, ?_, ?_, ?_, hdue, h.clean⟩
  · intro holder token hmem
    rcases List.mem_cons.mp hmem with heq | hmem
    · obtain ⟨rfl, rfl⟩ := Event.reserved.inj heq
      rcases hminted with rfl | hminted
      · exact List.mem_cons_self
      · exact List.mem_cons_of_mem _ hminted
    · exact List.mem_cons_of_mem _ (h.minted holder token hmem)
  · exact fun holder token htold => List.mem_cons_of_mem _ (h.told holder token htold)
  · -- The token is new: its number is one more than those of its episode that were given out.
    have hnew : ∀ holder, .reserved holder ⟨server.provisioningAttempts + 1, episodeId⟩ ∉ s.log := fun holder hmem => by
      have hle := h.numbered.attempt_le hmem
      simp only [← hlength] at hle
      omega
    intro holder holder' token hmem hmem'
    rcases List.mem_cons.mp hmem with heq | hold
    · obtain ⟨rfl, rfl⟩ := Event.reserved.inj heq
      rcases List.mem_cons.mp hmem' with heq' | hold'
      · exact (Event.reserved.inj heq').1.symm
      · exact absurd hold' (hnew holder')
    · rcases List.mem_cons.mp hmem' with heq' | hold'
      · obtain ⟨rfl, rfl⟩ := Event.reserved.inj heq'
        exact absurd hold (hnew holder)
      · exact h.single holder holder' token hold hold'

theorem Inv.reserve {request : ProvisioningAttemptReservation} {newEpisodeId : String} (job : Nat)
    (hmax : request.maxAttempts = maxAttempts) (hfresh : newEpisodeId ∉ s.minted) :
    Inv maxAttempts (State.reserve job request newEpisodeId s).2 ∧ ∀ attempts episodeId,
      (State.reserve job request newEpisodeId s).1 = .ok ⟨true, attempts, some episodeId⟩ →
        .reserved job ⟨attempts, episodeId⟩ ∈ (State.reserve job request newEpisodeId s).2.log := by
  unfold State.reserve
  rcases hserved : reserveProvisioningAttempt request newEpisodeId s.row with ⟨r, row'⟩
  rcases reserve_cases hserved with ⟨rfl, hkept⟩ | ⟨server, episodeId, hrow, hroom, hepisode, rfl, rfl⟩
  · have hplain : ∀ attempts episodeId, r ≠ .ok ⟨true, attempts, some episodeId⟩ :=
      fun attempts episodeId hr => Bool.noConfusion (hkept _ hr)
    split
    next attempts episodeId row heq => exact absurd (Prod.mk.inj heq).1 (hplain attempts episodeId)
    next heq =>
      obtain ⟨rfl, rfl⟩ := Prod.mk.inj heq
      exact ⟨h.draw, fun attempts episodeId hr => absurd hr (hplain attempts episodeId)⟩
  · refine ⟨h.reserved hrow hfresh (hmax ▸ hroom) hepisode, fun attempts episodeId' hr => ?_⟩
    injection hr with hr
    injection hr with _ hattempts hsame
    injection hsame with hsame
    subst hattempts hsame
    exact List.mem_cons_self

theorem Inv.learn (hmem : .reserved job token ∈ s.log) : Inv maxAttempts (s.learn job token) := by
  refine ⟨h.counts, h.numbered, h.minted, fun holder held htold => ?_, h.single, h.clean⟩
  rcases List.mem_cons.mp htold with heq | htold
  · obtain ⟨rfl, rfl⟩ := Prod.mk.inj heq
    exact hmem
  · exact h.told holder held htold

end

theorem Inv.hear {answer : Except Exn ProvisioningAttemptReservationResult × State} (h : Inv maxAttempts answer.2)
    (hgiven : ∀ attempts episodeId, answer.1 = .ok ⟨true, attempts, some episodeId⟩ →
      .reserved job ⟨attempts, episodeId⟩ ∈ answer.2.log) : Inv maxAttempts (State.hear job answer).2 := by
  unfold State.hear
  split
  next attempts episodeId s' => exact h.learn (hgiven attempts episodeId rfl)
  next => exact h

section

variable (h : Inv maxAttempts s)

include h

variable {request : ProvisioningAttemptReset}

theorem Inv.reset_keeps
    (hstale : ∀ holder, latest s.log ≠ some (holder, request.token)) : (resetProvisioningAttempts request s.row).2 = s.row ∧
      ∀ result, (resetProvisioningAttempts request s.row).1 = .ok result → result.reset = false := by
  rcases hserved : resetProvisioningAttempts request s.row with ⟨r, row'⟩
  rcases reset_cases hserved with ⟨rfl, hkept⟩ | ⟨server, hrow, hnumber, hepisode, _, _⟩
  · exact ⟨rfl, hkept⟩
  · have hcounts := h.counts
    cases hlatest : latest s.log with
    | none =>
      rw [hlatest] at hcounts
      exact absurd (hepisode.symm.trans (hcounts server hrow).2) nofun
    | some last =>
      obtain ⟨holder, token⟩ := last
      rw [hlatest] at hcounts
      obtain ⟨_, server', hrow', hattempts, hkept⟩ := hcounts
      obtain rfl : server' = server := Option.some.inj (hrow'.symm.trans hrow)
      have htoken : token = request.token := by
        obtain ⟨number, episodeId⟩ := token
        obtain rfl : number = request.attemptNumber := hattempts.symm.trans hnumber
        obtain rfl : episodeId = request.episodeId := Option.some.inj (hkept.symm.trans hepisode)
        rfl
      exact absurd (htoken ▸ hlatest) (hstale holder)

theorem Inv.reset_closes {holder : Nat}
    (hlatest : latest s.log = some (holder, request.token)) :
    ∃ server, s.row = some server ∧ resetProvisioningAttempts request s.row = (.ok ⟨true, 0, none⟩, some server.closed) := by
  have hcounts := h.counts
  rw [hlatest] at hcounts
  obtain ⟨_, server, hrow, hattempts, hkept⟩ := hcounts
  refine ⟨server, hrow, ?_⟩
  rw [hrow]
  exact if_pos ⟨hattempts, hkept⟩

theorem Inv.observe {event : Event} {row' : Option Server} (hplain : ∀ job token, event ≠ .reserved job token)
    (hcounts : Counts row' (latest (event :: s.log))) (hnumbered : Numbered maxAttempts (event :: s.log)) (hdue : Due event s.log) :
    Inv maxAttempts (State.record { s with row := row' } event) := by
  have hold : ∀ {job token}, .reserved job token ∈ event :: s.log → .reserved job token ∈ s.log := fun hmem =>
    List.mem_of_ne_of_mem (hplain _ _).symm hmem
  refine ⟨hcounts, hnumbered, ?_, ?_, ?_, hdue, h.clean⟩
  · exact fun holder token hmem => h.minted holder token (hold hmem)
  · exact fun holder token htold => List.mem_cons_of_mem _ (h.told holder token htold)
  · exact fun holder holder' token hmem hmem' => h.single holder holder' token (hold hmem) (hold hmem')

theorem Inv.reset (hheld : (job, request.token) ∈ s.told) :
    Inv maxAttempts (State.reset job request s).2 := by
  by_cases hlatest : ∃ holder, latest s.log = some (holder, request.token)
  · obtain ⟨holder, hlatest⟩ := hlatest
    obtain rfl : holder = job := h.single holder job request.token (mem_of_latest hlatest) (h.told job request.token hheld)
    obtain ⟨server, hrow, hserved⟩ := h.reset_closes hlatest
    simp only [State.reset, hserved]
    refine h.observe (fun _ _ => nofun) ?_ h.numbered.closed hlatest
    intro server' hrow'
    obtain rfl := Option.some.inj hrow'
    exact ⟨rfl, rfl⟩
  · have hstale : ∀ holder, latest s.log ≠ some (holder, request.token) := fun holder hl => hlatest ⟨holder, hl⟩
    obtain ⟨hrow, hkept⟩ := h.reset_keeps hstale
    unfold State.reset
    split
    next attempts episodeId row' hserved =>
      rw [hserved] at hkept
      exact Bool.noConfusion (hkept _ rfl)
    next r row' _ hserved =>
      rw [hserved] at hrow
      subst hrow
      exact h.observe (fun _ _ => nofun) h.counts h.numbered.refused hstale

theorem Inv.outside {change : RowChange} : Inv maxAttempts { s with row := some (change.apply s.row) } := by
  refine ⟨?_, h.numbered, h.minted, h.told, h.single, h.clean⟩
  have hcounts := h.counts
  cases hrow : s.row with
  | none =>
    cases hlatest : latest s.log with
    | none =>
      intro server hserver
      obtain rfl := Option.some.inj hserver
      exact ⟨rfl, rfl⟩
    | some last =>
      rw [hlatest, hrow] at hcounts
      obtain ⟨_, server, hserver, _⟩ := hcounts
      cases hserver
  | some row =>
    cases hlatest : latest s.log with
    | none =>
      rw [hlatest] at hcounts
      intro server hserver
      obtain rfl := Option.some.inj hserver
      exact hcounts row hrow
    | some last =>
      rw [hlatest] at hcounts
      obtain ⟨hpos, server, hserver, hattempts, hepisode⟩ := hcounts
      obtain rfl : server = row := Option.some.inj (hserver.symm.trans hrow)
      exact ⟨hpos, _, rfl, hattempts, hepisode⟩

theorem Inv.run {op : Op} {reply : Reply} (hok : fenced maxAttempts s (.call job op reply)) :
    Inv maxAttempts (run job op reply s).2 := by
  cases op with
  | reserve request =>
    obtain ⟨hmax, hfresh⟩ := hok
    obtain ⟨hinv, hgiven⟩ := h.reserve job hmax hfresh
    simp only [Servers.run]
    cases reply.fate with
    | served => exact hinv.hear hgiven
    | unheard e => exact hinv
    | unsent e => exact h
  | reset request =>
    simp only [Servers.run]
    cases reply.fate with
    | unsent e => exact h
    | _ => exact h.reset hok
  | outside => exact h.outside

end

theorem opening_inv {row : Option Server}
    (hrow : ∀ server, row = some server → server.provisioningAttempts = 0 ∧ server.provisioningEpisodeId = none) :
    Inv maxAttempts (opening row) :=
  ⟨hrow, ⟨fun _ => rfl, fun _ => Nat.zero_le _, nofun⟩, nofun, nofun, nofun, trivial⟩

/-- However the requests of any number of jobs come one after the other, the attempts of an
episode are given out as 1, 2, ... up to the maximum; an episode is closed by the job that holds
its latest attempt, and other resets leave the row as it is; and the attempt after that opens an
episode that no attempt given out before belongs to. -/
theorem attempts_fenced {body : Nat → Prog attemptInterface Unit} {row : Option Server} {c : Config attemptWorld}
    (hrow : ∀ server, row = some server → server.provisioningAttempts = 0 ∧ server.provisioningEpisodeId = none)
    (h : Reaches body (fenced maxAttempts) (Config.idle (opening row)) c) :
    (∀ episodeId, (attemptsOf episodeId c.state.log).reverse = List.range' 1 (attemptsOf episodeId c.state.log).length ∧
      (attemptsOf episodeId c.state.log).length ≤ maxAttempts) ∧
    (∀ job token newer older, c.state.log = newer ++ .closed job token :: older → latest older = some (job, token)) ∧
    (∀ request : ProvisioningAttemptReset, (∀ job, latest c.state.log ≠ some (job, request.token)) →
      (resetProvisioningAttempts request c.state.row).2 = c.state.row ∧
        ∀ result, (resetProvisioningAttempts request c.state.row).1 = .ok result → result.reset = false) ∧
    (∀ job token newer older, c.state.log = newer ++ .reserved job token :: older → latest older = none →
      token.attemptNumber = 1 ∧ ∀ holder held, .reserved holder held ∈ older → held.episodeId ≠ token.episodeId) ∧
    (∀ job token, (job, token) ∈ c.state.told → .reserved job token ∈ c.state.log) := by
  have hinv : Inv maxAttempts c.state :=
    h.invariant (fun _ _ _ _ hi hok => hi.run hok) (fun _ _ _ hi => hi) (opening_inv hrow)
  refine ⟨fun episodeId => ⟨hinv.numbered.consecutive episodeId, hinv.numbered.bounded episodeId⟩, ?_, ?_, ?_, hinv.told⟩
  · intro job token newer older hlog
    exact (Clean.split (hlog ▸ hinv.clean : Clean Due (newer ++ .closed job token :: older))).1
  · exact fun request hstale => hinv.reset_keeps hstale
  · intro job token newer older hlog hclosed
    have hdue := (Clean.split (hlog ▸ hinv.clean : Clean Due (newer ++ .reserved job token :: older))).1
    simpa only [Due, hclosed] using hdue

end

def reserveThenReset (request : ProvisioningAttemptReservation) : Prog attemptInterface Unit := do
  let result : ProvisioningAttemptReservationResult ← Prog.perform (I := attemptInterface) (.reserve request)
  match result.episodeId with
  | none => .ret ()
  | some episodeId =>
    if h : 0 < result.provisioningAttempts ∧ episodeId ≠ "" then do
      let _ : ProvisioningAttemptResetResult ←
        Prog.perform (I := attemptInterface) (.reset ⟨result.provisioningAttempts, episodeId, h.1, h.2⟩)
      .ret ()
    else .ret ()

def freshServer : Server :=
  { handle := "vps-1", host := "h", publicIp := "10.0.0.1", status := .provisioning, isManaged := true, labels := [],
    provisioningStartedAt := none, provisioningAttempts := 0, provisioningEpisodeId := none }

def threeAttempts : Config attemptWorld :=
  let reply (newEpisodeId : String) : (op : Op) → Reply := fun _ => ⟨.served, newEpisodeId, ⟨freshServer⟩⟩
  (Config.idle (opening (some freshServer))).play (fun _ => reserveThenReset ⟨3, by decide⟩)
    [.start 0, .call 0 (reply "e1"), .start 1, .call 1 (reply "e2"), .call 0 (reply ""), .call 1 (reply ""),
      .start 0, .call 0 (reply "e3")]

theorem threeAttempts_fenced :
    threeAttempts.state.log = [.reserved 0 ⟨1, "e3"⟩, .closed 1 ⟨2, "e1"⟩, .refused 0 ⟨1, "e1"⟩, .reserved 1 ⟨2, "e1"⟩,
        .reserved 0 ⟨1, "e1"⟩] ∧
      latest [.refused 0 ⟨1, "e1"⟩, .reserved 1 ⟨2, "e1"⟩, .reserved 0 ⟨1, "e1"⟩] = some (1, ⟨2, "e1"⟩) := by
  have hlog : threeAttempts.state.log = [.reserved 0 ⟨1, "e3"⟩] ++ .closed 1 ⟨2, "e1"⟩ :: [.refused 0 ⟨1, "e1"⟩,
      .reserved 1 ⟨2, "e1"⟩, .reserved 0 ⟨1, "e1"⟩] := by decide +kernel
  have hrow : ∀ server, some freshServer = some server → server.provisioningAttempts = 0 ∧ server.provisioningEpisodeId = none := by
    intro server hserver
    obtain rfl := Option.some.inj hserver
    exact ⟨rfl, rfl⟩
  have hreaches : Reaches (fun _ => reserveThenReset ⟨3, by decide⟩) (fenced 3) (.idle (opening (some freshServer))) threeAttempts :=
    play_reaches (by decide +kernel)
  exact ⟨hlog, (attempts_fenced hrow hreaches).2.1 1 ⟨2, "e1"⟩ _ _ hlog⟩

end Orchestrator.Servers
