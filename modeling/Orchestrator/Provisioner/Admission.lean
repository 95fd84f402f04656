import Orchestrator.Provisioner.Node

/-!
Which servers may host an application: where the sync returns to service no
server whose completion label is older than its latest provisioning, a server
that is admitted is one whose latest provisioning ran its software phase to
success.
-/

namespace Orchestrator.Provisioning

open Async Python
open Placement (Incident ServerStatus admittingServerStatuses provisioningComplete serverAdmissionRejection provisioningFailedServerHandles)
open Servers (Server)

def current (handle : String) : List Event → Bool
  | [] => true
  | .started other :: older => other != handle && current handle older
  | .installed other :: older => other == handle || current handle older

def inService (row : Server) : Bool := admittingServerStatuses.contains row.status && provisioningComplete row.labels

def broken (incidents : List Incident) (handle : String) : Bool := (provisioningFailedServerHandles incidents).contains handle

/-- A row with a completion label is put back into service only where no provisioning of it is open or
its failure still is, and no such failure is closed from outside. -/
def repaired (s : State) : Move provisioningWorld → Prop
  | .call _ (.sync (.updateServer handle update)) _ => update.status.any (admittingServerStatuses.contains ·) = true →
      ∀ row ∈ s.rows, row.handle = handle → provisioningComplete row.labels = true →
        inService row = true ∨ row.provisioningAttempts = 0 ∨ broken s.incidents handle = true
  | .call _ .outside ⟨_, _, _, _, _, .setIncidents incidents⟩ => ∀ row ∈ s.rows, inService row = true →
      row.provisioningAttempts ≠ 0 → broken s.incidents row.handle = true → broken incidents row.handle = true
  | _ => True

instance (s : State) (m : Move provisioningWorld) : Decidable (repaired s m) := by
  unfold repaired
  split <;> infer_instance

structure Fit (trace : List Event) (incidents : List Incident) (row : Server) : Prop where
  served : inService row = true → current row.handle trace = true ∨ broken incidents row.handle = true
  settled : row.provisioningAttempts = 0 → provisioningComplete row.labels = true → current row.handle trace = true

structure Consistent (s : State) : Prop where
  fits : ∀ row ∈ s.rows, Fit s.trace s.incidents row
  rows : ∀ handle, .started handle ∈ s.trace → ∃ row ∈ s.rows, row.handle = handle

structure Reserved (s : State) (handle : String) : Prop where
  known : ∃ row ∈ s.rows, row.handle = handle
  open_ : ∀ row ∈ s.rows, row.handle = handle → row.provisioningAttempts ≠ 0

structure Apart (s s' : State) : Prop where
  trace : s'.trace = s.trace
  reserved : ∀ handle, Reserved s handle → Reserved s' handle

theorem Apart.of_rows {s s' : State} (hrows : s'.rows = s.rows) (htrace : s'.trace = s.trace) : Apart s s' :=
  ⟨htrace, fun _ h => ⟨hrows ▸ h.known, hrows ▸ h.open_⟩⟩

abbrev admission : Rules provisioningWorld where
  admits := repaired
  inv := Consistent
  rely t s s' := t = .provisioner → Apart s s'
  rely_refl _ _ _ := .of_rows rfl rfl
  rely_trans h h' ht := ⟨(h' ht).trace.trans (h ht).trace, fun handle hr => (h' ht).reserved handle ((h ht).reserved handle hr)⟩
  rest _ _ := True
  rest_stable _ _ _ := trivial

def Done (done : Option String) (s : State) : Prop := ∀ handle ∈ done, current handle s.trace = true

section Rows

variable {s : State} {handle : String} {trace : List Event} {incidents : List Incident} {row : Server}

theorem Consistent.of_rows {s' : State} (hi : Consistent s) (hrows : s'.rows = s.rows) (htrace : s'.trace = s.trace)
    (hincidents : s'.incidents = s.incidents) : Consistent s' := by
  refine ⟨fun row hrow => ?_, fun handle hstarted => ?_⟩
  · rw [htrace, hincidents]
    exact hi.fits row (hrows ▸ hrow)
  · rw [hrows]
    exact hi.rows handle (htrace ▸ hstarted)

variable {f : Server → Server}

theorem Consistent.rewrite (hi : Consistent s) (hhandle : ∀ row, (f row).handle = row.handle)
    (h : ∀ row ∈ s.rows, Fit s.trace s.incidents row → Fit s.trace s.incidents (f row)) : Consistent (s.rewrite f) := by
  refine ⟨fun written hwritten => ?_, fun handle hstarted => ?_⟩
  · obtain ⟨row, hrow, rfl⟩ := List.mem_map.mp hwritten
    exact h row hrow (hi.fits row hrow)
  · obtain ⟨row, hrow, heq⟩ := hi.rows handle hstarted
    exact ⟨f row, List.mem_map_of_mem hrow, (hhandle row).trans heq⟩

theorem onHandle_handle (f : Server → Server) (h : ∀ row, row.handle = handle → (f row).handle = row.handle) (row : Server) :
    (State.onHandle handle f row).handle = row.handle := by
  unfold State.onHandle
  split
  · next heq => exact h row heq
  · rfl

theorem Consistent.onHandle (hi : Consistent s)
    (hhandle : ∀ row, row.handle = handle → (f row).handle = row.handle)
    (h : ∀ row ∈ s.rows, row.handle = handle → Fit s.trace s.incidents row → Fit s.trace s.incidents (f row)) :
    Consistent (s.rewrite (State.onHandle handle f)) := by
  refine hi.rewrite (onHandle_handle f hhandle) fun row hrow hfit => ?_
  unfold State.onHandle
  split
  · next heq => exact h row hrow heq hfit
  · exact hfit

variable {other : String}

theorem Reserved.onHandle (hr : Reserved s handle)
    (hhandle : ∀ row, row.handle = other → (f row).handle = row.handle)
    (hattempts : ∀ row, (f row).provisioningAttempts = row.provisioningAttempts) :
    Reserved (s.rewrite (State.onHandle other f)) handle := by
  have hsame (row : Server) : (State.onHandle other f row).handle = row.handle := onHandle_handle f hhandle row
  refine ⟨?_, fun written hwritten heq => ?_⟩
  · obtain ⟨row, hrow, heq⟩ := hr.known
    exact ⟨_, List.mem_map_of_mem hrow, (hsame row).trans heq⟩
  · obtain ⟨row, hrow, rfl⟩ := List.mem_map.mp hwritten
    have hopen := hr.open_ row hrow ((hsame row).symm.trans heq)
    unfold State.onHandle
    split
    · rw [hattempts]
      exact hopen
    · exact hopen

theorem current_started {older : List Event} (h : other ≠ handle) :
    current other (.started handle :: older) = current other older := by
  rw [current, bne_iff_ne.mpr (Ne.symm h), Bool.true_and]

variable {status : ServerStatus}

theorem inService_withStatus {row : Server} (h : admittingServerStatuses.contains status = false) :
    inService (State.withStatus status row) = false := by
  rw [inService, State.withStatus, h, Bool.false_and]

theorem Fit.withStatus (hfit : Fit trace incidents row) (h : admittingServerStatuses.contains status = false) :
    Fit trace incidents (State.withStatus status row) :=
  ⟨fun hservice => absurd ((inService_withStatus h).symm.trans hservice) (by decide), hfit.settled⟩

theorem Fit.of_current (h : current row.handle trace = true) : Fit trace incidents row := ⟨fun _ => .inl h, fun _ _ => h⟩

theorem Consistent.withStatus (hi : Consistent s) (h : admittingServerStatuses.contains status = false) :
    Consistent (s.rewrite (State.onHandle handle (State.withStatus status))) :=
  hi.onHandle (fun _ _ => rfl) fun _ _ _ hfit => hfit.withStatus h

theorem Consistent.started (hi : Consistent s) (hr : Reserved s handle) :
    Consistent { s.rewrite (State.onHandle handle (State.withStatus .provisioning)) with trace := .started handle :: s.trace } := by
  obtain ⟨known, hknown, heq⟩ := hr.known
  have hrewritten : Consistent (s.rewrite (State.onHandle handle (State.withStatus .provisioning))) := hi.withStatus rfl
  have hsame (row : Server) : (State.onHandle handle (State.withStatus .provisioning) row).handle = row.handle :=
    onHandle_handle (State.withStatus .provisioning) (fun _ _ => rfl) row
  refine ⟨fun written hwritten => ?_, fun other hstarted => ?_⟩
  · by_cases hother : written.handle = handle
    · -- the row being provisioned is neither in service nor without an open provisioning
      obtain ⟨row, hrow, hmapped⟩ := List.mem_map.mp hwritten
      have hrow' : row.handle = handle := by rw [← hsame row, hmapped, hother]
      rw [State.onHandle, if_pos hrow'] at hmapped
      rw [← hmapped]
      exact ⟨fun hservice => absurd ((inService_withStatus rfl).symm.trans hservice) (by decide),
        fun hzero => absurd hzero (hr.open_ row hrow hrow')⟩
    · obtain ⟨hserved, hsettled⟩ := hrewritten.fits written hwritten
      refine ⟨?_, ?_⟩
      · rw [current_started hother]
        exact hserved
      · rw [current_started hother]
        exact hsettled
  · rcases List.mem_cons.mp hstarted with heq' | hstarted
    · cases heq'
      exact ⟨_, List.mem_map_of_mem hknown, (hsame known).trans heq⟩
    · exact hrewritten.rows other hstarted

theorem current_installed {older : List Event} (h : current other older = true) :
    current other (.installed handle :: older) = true := by
  rw [current, h, Bool.or_true]

theorem Consistent.installed (hi : Consistent s) : Consistent { s with trace := .installed handle :: s.trace } := by
  refine ⟨fun row hrow => ?_, fun other hstarted => ?_⟩
  · obtain ⟨hserved, hsettled⟩ := hi.fits row hrow
    exact ⟨fun hservice => (hserved hservice).imp_left current_installed,
      fun hzero hcomplete => current_installed (hsettled hzero hcomplete)⟩
  · exact hi.rows other ((List.mem_cons.mp hstarted).resolve_left nofun)

theorem Consistent.of_incidents (hi : Consistent s) (h : ∀ row ∈ s.rows, inService row = true →
      current row.handle s.trace = true ∨ broken s.incidents row.handle = true →
      current row.handle s.trace = true ∨ broken incidents row.handle = true) : Consistent { s with incidents := incidents } :=
  ⟨fun row hrow => ⟨fun hservice => h row hrow hservice ((hi.fits row hrow).served hservice), (hi.fits row hrow).settled⟩, hi.rows⟩

theorem current_of_fresh {trace : List Event} (h : .started handle ∉ trace) : current handle trace = true := by
  induction trace with
  | nil => rfl
  | cons event older ih =>
    have holder := ih fun hmem => h (List.mem_cons_of_mem _ hmem)
    cases event with
    | started other =>
      have hother : handle ≠ other := fun heq => h (heq ▸ List.mem_cons_self)
      rw [current_started hother]
      exact holder
    | installed other => exact current_installed holder

end Rows

section Sync

variable {s : State}

theorem createServer_consistent {server : Server} (hi : Consistent s) :
    Consistent { s with sync := (ServerSync.State.createServer server s.sync).2 } := by
  unfold ServerSync.State.createServer
  by_cases hknown : (s.sync.rows.any (·.handle = server.handle)) = true
  · rw [if_pos hknown]
    exact hi
  · rw [if_neg hknown]
    refine ⟨fun row hrow => ?_, fun handle hstarted => ?_⟩
    · rcases List.mem_cons.mp hrow with rfl | hrow
      · -- a server that is new has never been provisioned
        have hfresh : .started row.handle ∉ s.trace := fun hmem => by
          obtain ⟨known, hmem, heq⟩ := hi.rows row.handle hmem
          exact hknown (List.any_eq_true.mpr ⟨known, hmem, by simpa using heq⟩)
        exact .of_current (current_of_fresh hfresh)
      · exact hi.fits row hrow
    · obtain ⟨row, hrow, heq⟩ := hi.rows handle hstarted
      exact ⟨row, List.mem_cons_of_mem _ hrow, heq⟩

theorem provisioningComplete_apply (update : ServerSync.ServerUpdate) (row : Server) :
    provisioningComplete (update.apply row).labels = provisioningComplete row.labels := by
  unfold ServerSync.ServerUpdate.apply
  cases update.providerId with
  | none => rfl
  | some id =>
    have hphase := valueAt_setKey_of_ne row.labels (.text id) (show "provisioning_phase" ≠ "provider_id" by decide)
    dsimp only
    unfold provisioningComplete
    rw [hphase]

theorem updateServer_consistent {handle : String} {update : ServerSync.ServerUpdate} (hi : Consistent s)
    (hok : update.status.any (admittingServerStatuses.contains ·) = true →
      ∀ row ∈ s.rows, row.handle = handle → provisioningComplete row.labels = true →
        inService row = true ∨ row.provisioningAttempts = 0 ∨ broken s.incidents handle = true) :
    Consistent { s with sync := (ServerSync.State.updateServer handle update s.sync).2 } := by
  unfold ServerSync.State.updateServer
  split
  · have hwritten : Consistent (s.rewrite (State.onHandle handle update.apply)) := by
      refine hi.onHandle (fun _ _ => rfl) fun row hrow heq hfit => ⟨fun hservice => ?_, fun hzero hcomplete => ?_⟩
      · rw [inService, Bool.and_eq_true, provisioningComplete_apply] at hservice
        obtain ⟨hstatus, hcomplete⟩ := hservice
        cases hupdate : update.status with
        | none =>
          have hbefore : admittingServerStatuses.contains row.status = true := by
            simpa only [ServerSync.ServerUpdate.apply, hupdate, Option.getD_none] using hstatus
          exact hfit.served (by rw [inService, hbefore, hcomplete, Bool.and_true])
        | some status =>
          have hnew : admittingServerStatuses.contains status = true := by
            simpa only [ServerSync.ServerUpdate.apply, hupdate, Option.getD_some] using hstatus
          rcases hok (by rw [hupdate]; exact hnew) row hrow heq hcomplete with hbefore | hzero | hbroken
          · exact hfit.served hbefore
          · exact .inl (hfit.settled hzero hcomplete)
          · exact .inr (heq ▸ hbroken)
      · rw [provisioningComplete_apply] at hcomplete
        exact hfit.settled hzero hcomplete
    exact hwritten.of_rows rfl rfl rfl
  · exact hi

theorem sync_consistent {t : Party} {op : ServerSync.Op} {reply : Reply} (hi : Consistent s)
    (hok : repaired s (.call t (.sync op) reply)) : Consistent (run t (.sync op) reply s).2 := by
  have hserve {A : Type} {exec : ServerSync.State → Except Exn A × ServerSync.State}
      (h : Consistent { s with sync := (exec s.sync).2 }) : Consistent { s with sync := (reply.sync.fate.serve exec s.sync).2 } := by
    cases hfate : reply.sync.fate with
    | unsent e => exact hi
    | _ => exact h
  cases op with
  | getServers status => exact hserve hi
  | getServer handle =>
    refine hserve (hi.of_rows ?_ rfl rfl)
    unfold ServerSync.State.getServer
    split <;> rfl
  | updateServer handle update => exact hserve (updateServer_consistent hi hok)
  | createServer server => exact hserve (createServer_consistent hi)
  | vet server =>
    have hrows : (s.sync.vet server).2.rows = s.sync.rows := by
      unfold ServerSync.State.vet
      split
      · split <;> rfl
      · rfl
    exact hi.of_rows hrows rfl rfl
  | publish handle => exact hserve (hi.of_rows rfl rfl rfl)
  | _ => exact hi

theorem sync_apart {t : Party} {op : ServerSync.Op} {reply : Reply} : Apart s (run t (.sync op) reply s).2 := by
  have hserve {A : Type} {exec : ServerSync.State → Except Exn A × ServerSync.State}
      (h : Apart s { s with sync := (exec s.sync).2 }) : Apart s { s with sync := (reply.sync.fate.serve exec s.sync).2 } := by
    cases hfate : reply.sync.fate with
    | unsent e => exact .of_rows rfl rfl
    | _ => exact h
  cases op with
  | getServers status => exact hserve (.of_rows rfl rfl)
  | getServer handle =>
    refine hserve (.of_rows ?_ rfl)
    unfold ServerSync.State.getServer
    split <;> rfl
  | updateServer handle update =>
    refine hserve ⟨rfl, fun other hr => ?_⟩
    unfold ServerSync.State.updateServer
    split
    · have hwritten : Reserved (s.rewrite (State.onHandle handle update.apply)) other := hr.onHandle (fun _ _ => rfl) fun _ => rfl
      exact ⟨hwritten.known, hwritten.open_⟩
    · exact hr
  | createServer server =>
    refine hserve ⟨rfl, fun other hr => ?_⟩
    unfold ServerSync.State.createServer
    split
    · exact hr
    · next hknown =>
      -- a row that is added has another handle
      obtain ⟨known, hmem, heq⟩ := hr.known
      refine ⟨⟨known, List.mem_cons_of_mem _ hmem, heq⟩, fun row hrow hother => ?_⟩
      rcases List.mem_cons.mp hrow with rfl | hrow
      · exact absurd (List.any_eq_true.mpr ⟨known, hmem, by simpa using heq.trans hother.symm⟩) hknown
      · exact hr.open_ row hrow hother
  | vet server =>
    refine .of_rows ?_ rfl
    change (s.sync.vet server).2.rows = s.sync.rows
    unfold ServerSync.State.vet
    split
    · split <;> rfl
    · rfl
  | publish handle => exact hserve (.of_rows rfl rfl)
  | _ => exact .of_rows rfl rfl

end Sync

section Calls

variable {s : State} {t : Party} {done : Option String} {handle : String}

theorem done_none : Done none s := nofun

theorem done_stable : admission.Stable .provisioner (Done done) := fun _ _ _ hr h handle hmem => by
  rw [(hr rfl).trace]
  exact h handle hmem

theorem reserved_stable : admission.Stable .provisioner (Reserved · handle) := fun _ _ _ hr h => (hr rfl).reserved handle h

theorem keeps {s' : State} (hi : Consistent s') (h : Apart s s') : admission.Keeps t s s' := ⟨hi, fun _ _ _ => h⟩

theorem provisioner_keeps {s' : State} (hi : Consistent s') : admission.Keeps .provisioner s s' :=
  ⟨hi, fun _ hu ht => absurd ht hu⟩

/-- A call that writes no row, no event and no incident leaves everything the states are asked for. -/
theorem silent_leaves {op : Op} {P : State → Prop} (hP : ∀ {s s' : State}, s'.rows = s.rows → s'.trace = s.trace → P s → P s')
    (hrows : ∀ reply s, (run t op reply s).2.rows = s.rows) (htrace : ∀ reply s, (run t op reply s).2.trace = s.trace)
    (hincidents : ∀ reply s, (run t op reply s).2.incidents = s.incidents) : admission.Leaves t P op := by
  intro s hi h reply _
  refine ⟨keeps (hi.of_rows (hrows reply s) (htrace reply s) (hincidents reply s)) (.of_rows (hrows reply s) (htrace reply s)), ?_⟩
  exact hP (hrows reply s) (htrace reply s) h

theorem done_of_trace {s' : State} (_ : s'.rows = s.rows) (htrace : s'.trace = s.trace) (h : Done done s) : Done done s' :=
  fun handle hmem => htrace ▸ h handle hmem

theorem serve_state {A : Type} {fate : Fate Exn} {exec : State → Except Exn A × State} {P : State → Prop} (h : P s)
    (hexec : P (exec s).2) : P (fate.serve exec s).2 := by
  cases fate with
  | unsent e => exact h
  | _ => exact hexec

theorem ask_maintains (call : ServiceCall) : admission.Maintains .provisioner (Done done) (ask call) :=
  .perform done_stable (silent_leaves done_of_trace (fun _ _ => rfl) (fun _ _ => rfl) fun _ _ => rfl)

theorem ask_reserved (call : ServiceCall) : admission.Maintains .provisioner (Reserved · handle) (ask call) :=
  .perform reserved_stable (silent_leaves (fun hrows htrace h => (Apart.of_rows hrows htrace).reserved _ h)
    (fun _ _ => rfl) (fun _ _ => rfl) fun _ _ => rfl)

theorem getServer_maintains (handle : String) : admission.Maintains .provisioner (Done done) (getServer handle) := by
  have hread (s : State) : (State.getServer handle s).2 = s := by
    unfold State.getServer
    split <;> rfl
  refine .perform done_stable (silent_leaves done_of_trace (fun reply s => ?_) (fun reply s => ?_) fun reply s => ?_)
  · exact serve_state (P := fun s' => s'.rows = s.rows) rfl (by rw [hread])
  · exact serve_state (P := fun s' => s'.trace = s.trace) rfl (by rw [hread])
  · exact serve_state (P := fun s' => s'.incidents = s.incidents) rfl (by rw [hread])

theorem incidents_leaves {op : Op} {exec : State → Except Exn (Op.Res op) × State} (hrun : ∀ reply s, run t op reply s = reply.fate.serve exec s)
    (hexec : ∀ s, Consistent s → Done done s → ∃ incidents, (exec s).2 = { s with incidents := incidents } ∧
      ∀ row ∈ s.rows, inService row = true → current row.handle s.trace = true ∨ broken s.incidents row.handle = true →
        current row.handle s.trace = true ∨ broken incidents row.handle = true) : admission.Leaves t (Done done) op := by
  refine .serve hrun fun s reply hi hdone _ _ => ?_
  obtain ⟨incidents, heq, h⟩ := hexec s hi hdone
  rw [heq]
  exact ⟨keeps (hi.of_incidents h) (.of_rows rfl rfl), hdone⟩

theorem createIncident_maintains (handle : String) :
    admission.Maintains .provisioner (Done done) (perform (.createIncident handle)) := by
  refine .perform done_stable (incidents_leaves (fun _ _ => rfl) fun s _ _ => ?_)
  unfold State.createIncident
  split
  · exact ⟨s.incidents, rfl, fun _ _ _ h => h⟩
  · refine ⟨_, rfl, fun row _ _ h => h.imp_right fun hbroken => ?_⟩
    change (handle :: provisioningFailedServerHandles s.incidents).contains row.handle = true
    rw [List.contains_cons, show (provisioningFailedServerHandles s.incidents).contains row.handle = true from hbroken, Bool.or_true]

theorem broken_filter {incidents : List Incident} {other : String} (hother : other ≠ handle) (h : broken incidents other = true) :
    broken (incidents.filter fun incident =>
      ¬ (incident.serverHandle = some handle ∧ incident.incidentType = .provisioningFailed)) other = true := by
  simp only [broken, provisioningFailedServerHandles, List.contains_iff_mem, List.mem_filterMap, List.mem_filter] at h ⊢
  obtain ⟨incident, ⟨hmem, htype⟩, hhandle⟩ := h
  refine ⟨incident, ⟨⟨hmem, ?_⟩, htype⟩, hhandle⟩
  simp [hhandle, hother]

theorem resolveActiveIncidents_maintains (h : handle ∈ done) :
    admission.Maintains .provisioner (Done done) (perform (.resolveActiveIncidents handle)) := by
  refine .perform done_stable (incidents_leaves (fun _ _ => rfl) fun s _ hdone => ⟨_, rfl, fun row _ _ hserved => ?_⟩)
  by_cases hrow : row.handle = handle
  · exact .inl (hrow ▸ hdone handle h)
  · exact hserved.imp_right (broken_filter hrow)

theorem write_leaves {op : Op} {exec : Reply → State → Except Exn (Op.Res op) × State}
    (hrun : ∀ reply s, run .provisioner op reply s = reply.fate.serve (exec reply) s)
    (hexec : ∀ s reply, Consistent s → Done done s → Consistent (exec reply s).2 ∧ (exec reply s).2.trace = s.trace) :
    admission.Leaves .provisioner (Done done) op := by
  refine .serve hrun fun s reply hi hdone _ _ => ?_
  obtain ⟨hi', htrace⟩ := hexec s reply hi hdone
  refine ⟨provisioner_keeps hi', fun handle hmem => ?_⟩
  rw [htrace]
  exact hdone handle hmem

theorem updateStatus_consistent {status : ServerStatus} (hstatus : admittingServerStatuses.contains status = false)
    (hstart : status ≠ .provisioning) (hi : Consistent s) :
    Consistent (State.updateStatus handle status s).2 ∧ Apart s (State.updateStatus handle status s).2 := by
  unfold State.updateStatus
  rw [if_neg hstart]
  split
  · exact ⟨hi.withStatus hstatus, rfl, fun _ hr => hr.onHandle (fun _ _ => rfl) fun _ => rfl⟩
  · exact ⟨hi, .of_rows rfl rfl⟩

theorem updateStatus_leaves {status : ServerStatus} (hstatus : admittingServerStatuses.contains status = false)
    (hstart : status ≠ .provisioning) : admission.Leaves t (Done done) (.updateStatus handle status) := by
  refine .serve (fun _ _ => rfl) fun s _ hi hdone _ _ => ?_
  obtain ⟨hi', hapart⟩ := @updateStatus_consistent s handle _ hstatus hstart hi
  exact ⟨keeps hi' hapart, fun handle hmem => hapart.trace ▸ hdone handle hmem⟩

theorem startProvisioning_safe (hr : Reserved s handle) :
    admission.Safe .provisioner (fun _ => Done none) (updateServerStatus handle .provisioning) s := by
  refine Rules.Safe.perform fun s' hi' hrely reply _ => ⟨provisioner_keeps ?_, done_none⟩
  have hr' := (hrely rfl).reserved handle hr
  obtain ⟨known, hknown, heq⟩ := hr'.known
  have hexec : Consistent (State.updateStatus handle .provisioning s').2 := by
    unfold State.updateStatus
    rw [if_pos (List.any_eq_true.mpr ⟨known, hknown, by simpa using heq⟩)]
    exact hi'.started hr'
  exact serve_state hi' hexec

theorem patchLabels_leaves {labels : Mapping} (h : provisioningComplete labels = true → handle ∈ done) :
    admission.Leaves .provisioner (Done done) (.patchLabels handle labels) := by
  refine write_leaves (fun _ _ => rfl) fun s _ hi hdone => ?_
  unfold State.patchLabels
  split
  · refine ⟨hi.onHandle (fun _ _ => rfl) fun row _ heq _ => ⟨fun hservice => ?_, fun _ hcomplete => ?_⟩, rfl⟩
    · rw [inService, Bool.and_eq_true] at hservice
      exact .inl (heq ▸ hdone handle (h hservice.2))
    · exact heq ▸ hdone handle (h hcomplete)
  · exact ⟨hi, rfl⟩

theorem onRow_leaves {op : Op} (request : Reply → Option Server → Except Servers.Exn op.Res × Option Server)
    (hrun : ∀ reply s, run .provisioner op reply s = reply.fate.serve (State.onRow handle (request reply)) s)
    (hrequest : ∀ {trace incidents} reply server, server.handle = handle → (∀ handle ∈ done, current handle trace = true) →
      Fit trace incidents server → ∀ row, (request reply (some server)).2 = some row →
        Fit trace incidents { row with handle := handle })
    (hnone : ∀ reply, (request reply none).2 = none) : admission.Leaves .provisioner (Done done) op := by
  refine write_leaves hrun fun s reply hi hdone => ?_
  unfold State.onRow
  cases hfind : s.rows.find? (·.handle = handle) with
  | none =>
    have hanswer := hnone reply
    generalize request reply none = answer at hanswer ⊢
    obtain ⟨answer, row⟩ := answer
    cases hanswer
    exact ⟨hi, rfl⟩
  | some server =>
    have hhandle : server.handle = handle := by simpa using List.find?_some hfind
    have hanswer := hrequest reply server hhandle hdone (hi.fits server (List.mem_of_find?_eq_some hfind))
    generalize request reply (some server) = answer at hanswer ⊢
    obtain ⟨answer, row⟩ := answer
    cases row with
    | none => exact ⟨hi, rfl⟩
    | some row => exact ⟨hi.onHandle (fun _ heq => heq.symm) fun _ _ _ _ => hanswer row rfl, rfl⟩

theorem Fit.reserved {server row : Server} {request : Servers.ProvisioningAttemptReservation} {newEpisodeId : String}
    {trace : List Event} {incidents : List Incident} (hfit : Fit trace incidents server) (hhandle : server.handle = handle)
    (h : (Servers.reserveProvisioningAttempt request newEpisodeId (some server)).2 = some row) :
    Fit trace incidents { row with handle := handle } := by
  generalize hanswer : Servers.reserveProvisioningAttempt request newEpisodeId (some server) = answer at h
  obtain ⟨result, row'⟩ := answer
  cases h
  subst hhandle
  rcases Servers.reserve_cases hanswer with ⟨hsame, -⟩ | ⟨found, _, hfound, -, -, -, hreserved⟩
  · cases hsame
    exact hfit
  · cases hfound
    cases hreserved
    exact ⟨hfit.served, nofun⟩

theorem resetAttempts_leaves {request : Servers.ProvisioningAttemptReset} (h : handle ∈ done) :
    admission.Leaves .provisioner (Done done) (.resetAttempts handle request) :=
  onRow_leaves (fun _ => Servers.resetProvisioningAttempts request) (fun _ _ => rfl)
    (fun _ _ _ hdone _ _ _ => .of_current (hdone handle h)) fun _ => rfl

theorem reserveAttempt_safe {request : Servers.ProvisioningAttemptReservation} :
    admission.Safe .provisioner (fun r s' => ∀ result, r = .ok result → result.reserved = true → Reserved s' handle)
      (perform (.reserveAttempt handle request)) s := by
  refine Rules.Safe.perform fun s' hi' hrely reply hadm => ?_
  have hleaves : admission.Leaves .provisioner (Done none) (.reserveAttempt handle request) :=
    onRow_leaves (fun reply => Servers.reserveProvisioningAttempt request reply.newEpisodeId) (fun _ _ => rfl)
      (fun _ _ hhandle _ hfit _ hrow => hfit.reserved hhandle hrow) fun _ => rfl
  refine ⟨(hleaves s' hi' done_none reply hadm).1, fun result hresult hreserved => ?_⟩
  have hexec : State.onRow handle (Servers.reserveProvisioningAttempt request reply.newEpisodeId) s' =
      (.ok result, (run .provisioner (.reserveAttempt handle request) reply s').2) := Fate.serve_ok (Prod.ext hresult rfl)
  generalize (run .provisioner (.reserveAttempt handle request) reply s').2 = after at hexec ⊢
  unfold State.onRow at hexec
  cases hfind : s'.rows.find? (·.handle = handle) with
  | none =>
    rw [hfind] at hexec
    cases hexec
  | some server =>
    rw [hfind] at hexec
    generalize hanswer : Servers.reserveProvisioningAttempt request reply.newEpisodeId (some server) = answer at hexec
    obtain ⟨answer, row⟩ := answer
    rcases Servers.reserve_cases hanswer with ⟨rfl, hrefused⟩ | ⟨found, _, hfound, -, -, rfl, rfl⟩
    · obtain ⟨hok, -⟩ := Prod.mk.inj hexec
      cases answer with
      | error e => cases hok
      | ok given =>
        cases hok
        exact absurd hreserved (by rw [hrefused _ rfl]; nofun)
    · cases hfound
      obtain ⟨-, rfl⟩ := Prod.mk.inj hexec
      have hhandle : server.handle = handle := by simpa using List.find?_some hfind
      have hmem := List.mem_of_find?_eq_some hfind
      have hsame (row : Server) : (State.onHandle handle (fun _ => { server.reserved reply.newEpisodeId with handle := handle }) row).handle =
          row.handle := by
        refine onHandle_handle _ (fun _ heq => ?_) row
        exact heq.symm
      refine ⟨⟨_, List.mem_map_of_mem hmem, (hsame server).trans hhandle⟩, fun written hwritten heq => ?_⟩
      obtain ⟨row, hrow, rfl⟩ := List.mem_map.mp hwritten
      rw [State.onHandle, if_pos ((hsame row).symm.trans heq)]
      exact Nat.succ_ne_zero _

end Calls

section Node

variable {s : State} {done : Option String} {handle : String}

theorem serverIsAllowed_maintains (providerId : Int) : admission.Maintains .provisioner (Done done) (serverIsAllowed providerId) :=
  .perform done_stable (silent_leaves done_of_trace (fun _ _ => rfl) (fun _ _ => rfl) fun _ _ => rfl)

theorem authorizedServerId_maintains (server : Server) : admission.Maintains .provisioner (Done done) (authorizedServerId server) :=
  .perform done_stable (silent_leaves done_of_trace (fun _ _ => rfl) (fun _ _ => rfl) fun _ _ => rfl)

theorem updateServerStatus_maintains (status : ServerStatus) (hstatus : admittingServerStatuses.contains status = false)
    (hstart : status ≠ .provisioning) : admission.Maintains .provisioner (Done done) (updateServerStatus handle status) :=
  .perform done_stable (updateStatus_leaves hstatus hstart)

theorem updateServerLabels_maintains {labels : Mapping}
    (h : ∀ merged, provisioningComplete (mergeLabels merged labels) = true → handle ∈ done) :
    admission.Maintains .provisioner (Done done) (updateServerLabels handle labels) :=
  (getServer_maintains handle).bind fun server => .perform done_stable (patchLabels_leaves (h server.labels))

theorem softwareInstallation_incomplete (merged : Mapping) :
    provisioningComplete (mergeLabels merged softwareInstallationLabels) = false := by
  have hphase := valueAt_setKey_self merged "provisioning_phase" (.text "software_installation")
  change provisioningComplete (setKey merged "provisioning_phase" (.text "software_installation")) = false
  unfold provisioningComplete
  rw [hphase]
  rfl

theorem fail_maintains : admission.Maintains .provisioner (Done done) (fail handle) :=
  (updateServerStatus_maintains .error rfl nofun).bind fun _ => (createIncident_maintains handle).bind fun _ => .ret _

theorem handleDenial_maintains (denial : ProvisioningDenied) :
    admission.Maintains .provisioner (Done done) (handleDenial handle denial) := by
  refine .bind ?_ fun _ => .ret _
  split
  · exact updateServerStatus_maintains .error rfl nofun
  · exact .ret _

theorem softwarePlaybook_yields : admission.Yields .provisioner
    (fun installed s => installed = true → Done (some handle) s) (softwarePlaybook handle) s := by
  refine Rules.Safe.perform fun s' hi' _ reply _ => ?_
  change admission.Keeps .provisioner s' (State.softwarePlaybook handle reply.installed s').2 ∧ ∀ installed,
    (State.softwarePlaybook handle reply.installed s').1 = .ok installed → installed = true →
      Done (some handle) (State.softwarePlaybook handle reply.installed s').2
  unfold State.softwarePlaybook
  split
  · refine ⟨provisioner_keeps hi'.installed, ?_⟩
    rintro installed - - other ⟨⟩
    change (handle == handle || current handle s'.trace) = true
    rw [beq_self_eq_true, Bool.true_or]
  · next hother =>
    refine ⟨provisioner_keeps hi', fun installed heq hinstalled => ?_⟩
    rw [hinstalled] at heq
    exact absurd heq hother

theorem installSoftware_yields (hi : Consistent s) : admission.Yields .provisioner
    (fun installed s => installed = true → Done (some handle) s) (installSoftware handle) s := by
  have hlabels : admission.Maintains .provisioner (Done none) (updateServerLabels handle softwareInstallationLabels) :=
    updateServerLabels_maintains fun merged h => nomatch (softwareInstallation_incomplete merged).symm.trans h
  refine Rules.Yields.bind hi (.of_maintains hlabels hi done_none) fun _ s₁ hi₁ _ => ?_
  refine Rules.Yields.bind hi₁ softwarePlaybook_yields fun installed s₂ hi₂ hinstalled => ?_
  cases installed with
  | true =>
    have hcomplete : admission.Maintains .provisioner (Done (some handle)) (markProvisioningComplete handle) :=
      updateServerLabels_maintains fun _ _ => rfl
    exact Rules.Yields.bind hi₂ (.of_maintains hcomplete hi₂ (hinstalled rfl)) fun _ _ _ hdone => Rules.Yields.ret fun _ => hdone
  | false => exact Rules.Yields.ret nofun

variable {target : AuthorizedServer}

theorem reinstall_yields (hi : Consistent s) : admission.Yields .provisioner
    (fun installed s => installed = true → Done (some handle) s) (reinstall handle target) s := by
  have hasked (call : ServiceCall) : admission.Maintains .provisioner (Done none) (ask call) := ask_maintains call
  refine Rules.Yields.bind hi (.of_maintains (hasked _) hi done_none) fun _ s₁ hi₁ _ => ?_
  refine Rules.Yields.bind hi₁ (.of_maintains (hasked _) hi₁ done_none) fun extracted s₂ hi₂ _ => ?_
  have hpassword : admission.Maintains .provisioner (Done none) (orReset target.providerId extracted) := by
    cases extracted with
    | some password => exact .ret _
    | none => exact hasked _
  refine Rules.Yields.bind hi₂ (.of_maintains hpassword hi₂ done_none) fun password s₃ hi₃ _ => ?_
  split
  · refine Rules.Yields.bind hi₃ (.of_maintains (hasked _) hi₃ done_none) fun (accessed : Bool) s₄ hi₄ _ => ?_
    split
    · exact installSoftware_yields hi₄
    · exact Rules.Yields.ret nofun
  · exact Rules.Yields.ret nofun

theorem reinstallAndProvision_yields (hi : Consistent s) : admission.Yields .provisioner
    (fun installed s => installed = true → Done (some handle) s) (reinstallAndProvision handle target) s := by
  refine Rules.Yields.bind (M := fun _ => Done none) hi (.of_maintains (serverIsAllowed_maintains _) hi done_none)
    fun permitted s₁ hi₁ _ => ?_
  split
  · refine Rules.Yields.bind (M := fun _ => Done none) hi₁ (.of_maintains (ask_maintains _) hi₁ done_none)
      fun (same : Bool) s₂ hi₂ _ => ?_
    split
    · exact Rules.Yields.handle hi₂ (reinstall_yields hi₂) fun _ _ _ => Rules.Yields.ret nofun
    · exact Rules.Yields.ret nofun
  · exact Rules.Yields.ret nofun

theorem persistServerSshKey_maintains : admission.Maintains .provisioner (Done done) (persistServerSshKey handle) := by
  refine .bind (ask_maintains _) fun key => ?_
  split
  · exact .ret _
  · exact .handle ((ask_maintains _).bind fun _ => .ret _) fun _ => .ret _

theorem resetProvisioningAttempts_maintains (attempt : Attempt) (h : handle ∈ done) :
    admission.Maintains .provisioner (Done done) (resetProvisioningAttempts handle attempt) := by
  unfold resetProvisioningAttempts
  split
  · exact .bind (.perform done_stable (resetAttempts_leaves h)) fun _ => .ret _
  · exact .raise _

theorem recoverServices_maintains {ip : String} {isRecovery : Bool} :
    admission.Maintains .provisioner (Done done) (recoverServices handle ip isRecovery) := by
  cases isRecovery with
  | true => exact ask_maintains _
  | false => exact .ret _

theorem handleProvisioningSuccess_maintains {isRecovery : Bool} (attempt : Attempt) (h : handle ∈ done) :
    admission.Maintains .provisioner (Done done) (handleProvisioningSuccess handle target attempt isRecovery) := by
  refine .bind persistServerSshKey_maintains fun kept => ?_
  split
  · refine .bind (resetProvisioningAttempts_maintains attempt h) fun reset => ?_
    unfold finishProvisioning
    split
    · exact .bind (.handle (resolveActiveIncidents_maintains h) fun _ => .ret _) fun _ =>
        .bind recoverServices_maintains fun _ => .ret _
    · exact .ret _
  · exact fail_maintains

variable {job : ProvisionerMessage}

theorem settled_yields {attempt : Attempt} {installed : Bool} (hi : Consistent s)
    (hinstalled : installed = true → Done (some job.serverHandle) s) : admission.Yields .provisioner (fun _ => Done none)
    (if installed then handleProvisioningSuccess job.serverHandle target attempt job.isRecovery else fail job.serverHandle) s := by
  cases installed with
  | true =>
    have hsuccess : admission.Maintains .provisioner (Done (some job.serverHandle))
        (handleProvisioningSuccess job.serverHandle target attempt job.isRecovery) :=
      handleProvisioningSuccess_maintains attempt rfl
    exact Rules.Safe.conseq hi (Rules.Yields.of_maintains hsuccess hi (hinstalled rfl)) fun _ _ _ _ _ _ => done_none
  | false => exact Rules.Yields.of_maintains fail_maintains hi done_none

theorem provisionServer_yields {attempt : Attempt} (hi : Consistent s)
    (hr : Reserved s job.serverHandle) : admission.Yields .provisioner (fun _ => Done none) (provisionServer job target attempt) s := by
  have hstart : admission.Yields .provisioner (fun _ => Done none) (updateServerStatus job.serverHandle .provisioning) s :=
    Rules.Safe.conseq hi (startProvisioning_safe hr) fun _ _ _ h _ _ => h
  refine Rules.Yields.bind hi hstart fun _ s₁ hi₁ _ => ?_
  split
  · exact Rules.Yields.bind hi₁ (reinstallAndProvision_yields hi₁) fun installed s₂ hi₂ h => settled_yields hi₂ h
  · refine Rules.Yields.bind (M := fun _ => Done none) hi₁ (.of_maintains (ask_maintains _) hi₁ done_none)
      fun (accessed : Bool) s₂ hi₂ _ => ?_
    split
    · exact Rules.Yields.bind hi₂ (installSoftware_yields hi₂) fun installed s₃ hi₃ h => settled_yields hi₃ h
    · exact Rules.Yields.of_maintains fail_maintains hi₂ done_none

theorem initTime4vpsClient_reserved (target : AuthorizedServer) :
    admission.Maintains .provisioner (Reserved · handle) (initTime4vpsClient target) := by
  refine .bind (ask_reserved _) fun (credentials : Bool) => ?_
  split
  · exact .bind (ask_reserved _) fun _ => .ret _
  · exact .ret _

theorem attemptProvisioning_yields (reservation : Except Exn (Option Attempt))
    (hi : Consistent s) (hr : ∀ attempt, reservation = .ok (some attempt) → Reserved s job.serverHandle) : admission.Yields .provisioner (fun _ => Done none) (attemptProvisioning job target reservation) s := by
  match reservation with
  | .error _ =>
    exact Rules.Yields.of_maintains ((updateServerStatus_maintains .error rfl nofun).bind fun _ => .ret _) hi done_none
  | .ok none => exact Rules.Yields.of_maintains fail_maintains hi done_none
  | .ok (some attempt) =>
    refine Rules.Yields.bind hi (.of_maintains (initTime4vpsClient_reserved target) hi (hr attempt rfl)) fun denial s₁ hi₁ hr₁ => ?_
    cases denial with
    | some denial => exact Rules.Yields.of_maintains (handleDenial_maintains denial) hi₁ done_none
    | none => exact provisionServer_yields hi₁ hr₁

theorem reserveProvisioningAttempt_safe {request : Servers.ProvisioningAttemptReservation} (hi : Consistent s) :
    admission.Safe .provisioner (fun r s' => ∀ attempt, r = .ok (some attempt) → Reserved s' handle)
      (reserveProvisioningAttempt handle request) s := by
  refine Rules.Safe.bind hi reserveAttempt_safe (fun reservation s' _ h => ?_) fun _ _ _ _ => nofun
  split
  · next hreserved =>
    have hrow := h reservation rfl hreserved
    split
    · exact fun _ _ => hrow
    · nofun
  · nofun

theorem runNode_yields {request : Servers.ProvisioningAttemptReservation} (hi : Consistent s) :
    admission.Yields .provisioner (fun _ => Done none) (runNode request job) s := by
  have htarget : admission.Maintains .provisioner (Done none) (getAndValidateServerInfo job.serverHandle) :=
    (getServer_maintains _).bind fun server => (authorizedServerId_maintains server).bind fun _ => .ret _
  refine Rules.Yields.bind hi (.of_maintains htarget hi done_none) fun target s₁ hi₁ _ => ?_
  cases target with
  | error denial => exact Rules.Yields.of_maintains (handleDenial_maintains denial) hi₁ done_none
  | ok target =>
    have hreserve : admission.Yields .provisioner (fun reservation s' => ∀ attempt, reservation = .ok (some attempt) →
        Reserved s' job.serverHandle) (reserveProvisioningAttempt job.serverHandle request).attempt s₁ := by
      refine Rules.Safe.attempt (Rules.Safe.conseq hi₁ (reserveProvisioningAttempt_safe hi₁) fun r s' _ h => ?_)
      rintro _ ⟨⟩
      exact h
    exact Rules.Yields.bind hi₁ hreserve fun reservation s₂ hi₂ hr₂ => attemptProvisioning_yields reservation hi₂ hr₂

end Node


section Runs

variable {request : Servers.ProvisioningAttemptReservation} {stuckTimeout cooldown : Int} {c : Config provisioningWorld}

def opening (rows : List Server) (allowlist : Option String) (incidents : List Placement.Incident) : State :=
  ⟨⟨rows, allowlist, []⟩, incidents, []⟩

theorem scheduling_maintains : admission.Maintains .scheduler (Done none) (scheduling stuckTimeout cooldown) := by
  refine Rules.Safe.leaves (fun _ _ _ _ _ => done_none) ?_
  refine (Prog.uses_relabel _ _ _ _).mono fun op hop => ?_
  obtain ⟨own, rfl⟩ := hop
  intro s hi _ reply hok
  exact ⟨keeps (sync_consistent hi hok) (sync_apart (t := .scheduler)), done_none⟩

theorem listening_maintains (result : ProvisionerResult) :
    admission.Maintains .listener (Done none) (processProvisionerResult result) := by
  unfold processProvisionerResult
  split
  · exact .handle (.perform (fun _ _ _ _ _ => done_none) (updateStatus_leaves rfl nofun)) fun _ => .ret _
  · exact .ret _

theorem outside_consistent {s : State} {execution : Nat} (reply : Reply) (hi : Consistent s)
    (hok : repaired s (.call (.outside execution) .outside reply)) : Consistent (reply.change.apply s) ∧ Apart s (reply.change.apply s) := by
  obtain ⟨fate, sync, service, installed, newEpisodeId, change⟩ := reply
  cases change with
  | setAllowlist raw => exact ⟨hi.of_rows rfl rfl rfl, .of_rows rfl rfl⟩
  | setIncidents incidents =>
    refine ⟨⟨fun row hrow => ?_, hi.rows⟩, .of_rows rfl rfl⟩
    have hfit := hi.fits row hrow
    refine ⟨fun hservice => ?_, hfit.settled⟩
    have hcomplete := (Bool.and_eq_true_iff.mp hservice).2
    by_cases hzero : row.provisioningAttempts = 0
    · exact .inl (hfit.settled hzero hcomplete)
    · exact (hfit.served hservice).imp_right (hok row hrow hservice hzero)
  | forceRebuild handle =>
    refine ⟨hi.onHandle (fun row _ => ?_) fun row _ _ hfit => ?_, rfl, fun _ hr => hr.onHandle (fun row _ => ?_) fun row => ?_⟩
    · split <;> rfl
    · split
      · exact hfit.withStatus rfl
      · exact hfit
    · split <;> rfl
    · split <;> rfl

theorem outside_maintains {execution : Nat} : admission.Maintains (.outside execution) (Done none) (perform .outside) := by
  refine .perform (fun _ _ _ _ _ => done_none) fun s hi _ reply hok => ?_
  obtain ⟨hi', hapart⟩ := outside_consistent reply hi hok
  exact ⟨keeps hi' hapart, done_none⟩

theorem body_maintains {s : State} (t : Party) (hi : Consistent s) :
    admission.Safe t (fun _ _ => True) (body request stuckTimeout cooldown t) s := by
  have htrue {p : Job Unit} (h : admission.Maintains t (Done none) p) : admission.Safe t (fun _ _ => True) p s :=
    Rules.Safe.conseq hi (h s hi done_none) fun _ _ _ _ => trivial
  cases t with
  | provisioner =>
    have hyields : admission.Yields .provisioner (fun _ => Done none) (nextJob.bind (processProvisionerJob request)) s := by
      refine Rules.Yields.bind hi (.of_maintains (ask_maintains _) hi done_none) fun job s₁ hi₁ _ => ?_
      refine Rules.Yields.bind hi₁ (Rules.Yields.handle hi₁ (runNode_yields hi₁) fun _ _ _ => Rules.Yields.ret done_none)
        fun _ _ _ _ => Rules.Yields.ret done_none
    exact Rules.Safe.conseq hi hyields fun _ _ _ _ => trivial
  | scheduler => exact htrue (scheduling_maintains.bind fun _ => .ret _)
  | listener =>
    refine htrue (.bind (.perform (fun _ _ _ _ _ => done_none) ?_) listening_maintains)
    exact silent_leaves (fun _ _ _ => done_none) (fun _ _ => rfl) (fun _ _ => rfl) fun _ _ => rfl
  | outside execution => exact htrue outside_maintains

theorem reaches_consistent {s : State} (hi : Consistent s)
    (h : Reaches (body request stuckTimeout cooldown) repaired (.idle s) c) : Consistent c.state := by
  refine (Rules.reaches_sound (G := admission) (.idle hi fun _ => trivial) (fun t s hi _ _ => ?_) (fun t s hi _ => ?_) h).inv
  · exact Rules.Safe.conseq hi (body_maintains t hi) fun _ _ hi' _ => ⟨keeps hi' (.of_rows rfl rfl), trivial⟩
  · exact ⟨keeps hi (.of_rows rfl rfl), trivial⟩

theorem opening_consistent (rows : List Server) (allowlist : Option String) (incidents : List Placement.Incident) :
    Consistent (opening rows allowlist incidents) := ⟨fun _ _ => .of_current rfl, nofun⟩

structure Shows (server : Placement.Server) (row : Server) : Prop where
  handle : server.handle = row.handle
  isManaged : server.isManaged = row.isManaged
  status : server.status = row.status
  labels : server.labels = row.labels

theorem inService_of_admitted {server : Placement.Server} {row : Server} {incidents : List Incident} (hshows : Shows server row)
    (h : serverAdmissionRejection server (provisioningFailedServerHandles incidents) = none) :
    inService row = true ∧ broken incidents row.handle = false := by
  unfold serverAdmissionRejection at h
  split at h
  · cases h
  split at h
  · cases h
  split at h
  · cases h
  next hstatus hcomplete =>
    split at h
    · cases h
    next hbroken =>
      refine ⟨?_, ?_⟩
      · rw [inService, ← hshows.status, ← hshows.labels, Bool.and_eq_true]
        exact ⟨by simpa using hstatus, by simpa using hcomplete⟩
      · rw [broken, ← hshows.handle]
        simpa using hbroken

/-- A server that is admitted is one whose latest provisioning ran its software phase to success. -/
theorem admitted_provisioned {rows : List Server} {allowlist : Option String} {incidents : List Placement.Incident}
    (h : Reaches (body request stuckTimeout cooldown) repaired (.idle (opening rows allowlist incidents)) c)
    {row : Server} (hrow : row ∈ c.state.rows) {server : Placement.Server} (hshows : Shows server row)
    (hadmitted : serverAdmissionRejection server (provisioningFailedServerHandles c.state.incidents) = none) :
    current row.handle c.state.trace = true := by
  obtain ⟨hservice, hbroken⟩ := inService_of_admitted hshows hadmitted
  have hfit := (reaches_consistent (opening_consistent rows allowlist incidents) h).fits row hrow
  refine (hfit.served hservice).resolve_right fun h => ?_
  rw [hbroken] at h
  cases h

end Runs

def sampleLabels : Mapping := [("provider_id", .text "1"), ("provisioning_phase", .text "complete")]

def sampleRow (status : ServerStatus) : Server := ⟨"vps-1", "host", "10.0.0.1", status, true, sampleLabels, none, 0, none⟩

def sampleShown (row : Server) : Placement.Server :=
  ⟨"vps-1", row.publicIp, row.status, row.isManaged, row.labels, 0, 0, 0, none⟩

theorem sampleAttempts_pos : 0 < 3 := by decide

def sampleRequest : Servers.ProvisioningAttemptReservation := ⟨3, sampleAttempts_pos⟩

def sampleService : (call : ServiceCall) → Except Exn call.Res
  | .nextJob => .ok ⟨"vps-1", false⟩
  | .nextResult => .ok ⟨"vps-1", .failed⟩
  | .hasCredentials | .identityMatches .. | .accessPlaybook .. => .ok true
  | .waitForTask _ | .resetServerPassword _ | .privateKey => .ok (some "secret")
  | .reinstallServer _ | .saveServerSshKey .. | .redeployAllServices .. => .ok ()

def sampleSync (listed : Bool) : (call : ServerSync.ServiceCall) → Except Exn call.Res
  | .next => .ok .cycle
  | .getTime4vpsClient => .ok true
  | .getProviderServers => .ok (if listed then [⟨1, "10.0.0.1", "host"⟩] else [])
  | .detailsDue | .getServerDetails _ => .ok false
  | .now => .ok (0 : Int)
  | .recordProviderOutage | .resolveProviderOutage | .notifyAdmins _ | .reconcileProvisioningIncidents => .ok ()

def sampleReply (listed : Bool) : Reply :=
  ⟨.served, ⟨.served, sampleSync listed, .setAllowlist (some "1")⟩, sampleService, .ok true, "episode", .forceRebuild "vps-1"⟩

def turn (t : Party) (listed : Bool) : Turn provisioningWorld := .call t fun _ => sampleReply listed

/-- The calls of a reinstallation up to `calls`, of which there are twenty-one. -/
def reinstallation (calls : Nat) : List (Turn provisioningWorld) := .start .provisioner :: List.replicate calls (turn .provisioner true)

def cycle (listed : Bool) (calls : Nat) : List (Turn provisioningWorld) := .start .scheduler :: List.replicate calls (turn .scheduler listed)

def played (turns : List (Turn provisioningWorld)) : Config provisioningWorld :=
  (Config.idle (opening [sampleRow .forceRebuild] (some "1") [])).play (body sampleRequest 600 60) turns

theorem sampleShown_shows (row : Server) (h : row.handle = "vps-1") : Shows (sampleShown row) row := ⟨h.symm, rfl, rfl, rfl⟩

def reappeared : Server := { sampleRow .active with labels := sampleLabels ++ [("qa_ssh_user", .text "qa-observer")] }

/-- The reinstallation succeeds, a cycle misses the server and the next returns it to service. -/
theorem reappeared_admitted : current "vps-1" (played (reinstallation 21 ++ cycle false 20 ++ cycle true 20)).state.trace = true := by
  have hreaches : Reaches (body sampleRequest 600 60) repaired (.idle (opening [sampleRow .forceRebuild] (some "1") []))
      (played (reinstallation 21 ++ cycle false 20 ++ cycle true 20)) := play_reaches (by decide +kernel)
  have hrows : (played (reinstallation 21 ++ cycle false 20 ++ cycle true 20)).state.rows = [reappeared] := rfl
  exact admitted_provisioned hreaches (hrows ▸ List.mem_cons_self) (sampleShown_shows reappeared rfl) (by decide +kernel)

def waiting : Server := { sampleRow .active with provisioningAttempts := 1, provisioningEpisodeId := some "episode" }

def interrupted : Config provisioningWorld := played (reinstallation 9 ++ cycle false 20 ++ cycle true 20)

theorem reinstalling_admitted : ∃ (c : Config provisioningWorld) (row : Server) (server : Placement.Server),
    Reaches (body sampleRequest 600 60) anyMove (.idle (opening [sampleRow .forceRebuild] (some "1") [])) c ∧ row ∈ c.state.rows ∧
      Shows server row ∧ serverAdmissionRejection server (provisioningFailedServerHandles c.state.incidents) = none ∧
      current row.handle c.state.trace = false := by
  have hrows : interrupted.state.rows = [waiting] := rfl
  refine ⟨interrupted, waiting, sampleShown waiting, play_reaches_anyMove _ _ _, hrows ▸ List.mem_cons_self,
    sampleShown_shows _ rfl, ?_, ?_⟩ <;> decide +kernel

end Orchestrator.Provisioning
