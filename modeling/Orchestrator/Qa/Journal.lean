import Orchestrator.Qa.Target

/-!
The runs beside the sweeps. A run writes its record before it installs its key
and releases it after a read-back; a sweep works from a record it has listed.
What the two do to each other is bounded by three conditions on their moves.
-/

namespace Orchestrator.Qa

open Async Async.Rules

def QASshGrant.key (grant : QASshGrant) : String × String × String := (grant.marker, grant.serverIp, grant.qaSshUser)

def minted (trace : List Event) : List String := trace.filterMap fun event => match event with
  | .minted _ marker => some marker
  | _ => none

def installedSince (trace : List Event) (party : Party) (grant : QASshGrant) : Bool :=
  decide (.installed grant.marker ∈
    trace.takeWhile fun event => event != .readGone party grant.serverIp grant.qaSshUser grant.marker)

/-- A key is installed while the record of its run is of this key and not
released; a record gives way to one of another key while its own is not on the
target; a sweep releases a record when the key was not installed since the
revocation that it goes by. No marker comes twice. -/
def journalKept (s : State) : Move qaWorld → Prop
  | .call _ .newHex hex => markerOf hex ∉ minted s.trace
  | .call (.qa delivery) (.installGrant _ _ entry) script =>
      script.fate.carriedOut = true → script.brokenOff = none →
        ∃ grant ∈ s.grantOf delivery.runId, grant.held = true ∧ grant.marker = entry.marker
  | .call party (.patchGrant runId grant) fate => fate.carriedOut = true →
      (∀ old ∈ s.grantOf runId, old.marker ≠ grant.marker →
        s.present old.serverIp old.qaSshUser old.marker = false) ∧
      match party with
      | .qa _ => True
      | .sweep .. => grant.held = false → installedSince s.trace party grant = false
  | _ => True

section Accounts

variable {account : Account} {entry : KeyEntry} {marker other : String}

theorem Account.present_iff {lines : List Line} :
    (Account.keys lines).present marker = true ↔ ∃ entry, .key entry ∈ lines ∧ entry.marker = marker := by
  unfold Account.present
  rw [List.any_eq_true]
  constructor
  · rintro ⟨line, hmem, hline⟩
    cases line with
    | key entry => exact ⟨entry, hmem, eq_of_beq hline⟩
    | other text => cases hline
  · rintro ⟨entry, hmem, rfl⟩
    exact ⟨.key entry, hmem, beq_self_eq_true _⟩

theorem Account.revoke_present (h : (account.revoke marker).2.present other = true) : account.present other = true := by
  cases account with
  | keys lines =>
    unfold Account.revoke at h
    obtain ⟨entry, hmem, hmarker⟩ := Account.present_iff.mp h
    refine Account.present_iff.mpr ⟨entry, ?_, hmarker⟩
    split at hmem
    · exact hmem
    · exact List.mem_of_mem_filter hmem
  | _ => exact h

theorem Account.revoke_gone (h : (account.revoke marker).1.count = some 0) :
    (account.revoke marker).2.present marker = false := by
  cases account with
  | keys lines =>
    unfold Account.revoke at h ⊢
    dsimp only at h ⊢
    rw [Option.some.injEq, List.length_eq_zero_iff, List.filter_eq_nil_iff] at h
    rw [Bool.eq_false_iff]
    intro hpresent
    obtain ⟨entry, hmem, rfl⟩ := Account.present_iff.mp hpresent
    exact h _ hmem (Python.contains_append _ _)
  | _ => rfl

theorem Account.install_present (h : (account.install entry).2.present other = true) :
    account.present other = true ∨ other = entry.marker ∧ (account.install entry).1.exitStatus = 0 := by
  cases account with
  | keys lines =>
    obtain ⟨found, hmem, hmarker⟩ := Account.present_iff.mp h
    rcases List.mem_append.mp hmem with hmem | hmem
    · exact .inl (Account.present_iff.mpr ⟨found, hmem, hmarker⟩)
    · cases List.mem_singleton.mp hmem
      exact .inr ⟨hmarker.symm, rfl⟩
  | _ => exact .inl h

theorem State.present_setAccount {s : State} {serverIp qaSshUser ip user : String}
    (h : (s.setAccount serverIp qaSshUser account).present ip user marker = true) :
    ip = serverIp ∧ user = qaSshUser ∧ account.present marker = true ∨ s.present ip user marker = true := by
  unfold State.present State.setAccount at h
  dsimp only at h
  by_cases hip : ip = serverIp
  · by_cases huser : user = qaSshUser
    · subst hip huser
      rw [Function.update_self, Function.update_self] at h
      exact .inl ⟨rfl, rfl, h⟩
    · subst hip
      rw [Function.update_self, Function.update_of_ne huser] at h
      exact .inr h
  · rw [Function.update_of_ne hip] at h
    exact .inr h

theorem State.present_setAccount_self {s : State} {serverIp qaSshUser : String} :
    (s.setAccount serverIp qaSshUser account).present serverIp qaSshUser marker = account.present marker := by
  unfold State.present State.setAccount
  dsimp only
  rw [Function.update_self, Function.update_self]

end Accounts

structure Sound (s : State) : Prop where
  once : ∀ {marker party other}, .minted party marker ∈ s.trace → .minted other marker ∈ s.trace → party = other
  known : ∀ {runId grant}, .wrote runId grant ∈ s.trace → grant.marker ∈ minted s.trace
  same : ∀ {runId otherId grant other}, .wrote runId grant ∈ s.trace → .wrote otherId other ∈ s.trace →
    grant.marker = other.marker → runId = otherId ∧ grant.key = other.key
  recorded : ∀ {runId grant}, s.grantOf runId = some grant →
    .wrote runId grant ∈ s.trace ∧ ∃ run ∈ s.runs, run.id = runId
  keys : ∀ {serverIp qaSshUser marker}, s.present serverIp qaSshUser marker = true →
    ∃ delivery grant, .minted (.qa delivery) marker ∈ s.trace ∧ s.grantOf delivery.runId = some grant ∧
      grant.held = true ∧ grant.key = (marker, serverIp, qaSshUser)
  gone : ∀ {party grant}, .readGone party grant.serverIp grant.qaSshUser grant.marker ∈ s.trace →
    installedSince s.trace party grant = false → s.present grant.serverIp grant.qaSshUser grant.marker = false

/-- What the others leave to a party: what has happened stays, and the markers
it was given are written and installed by nobody before it. -/
structure Tolerates (t : Party) (s s' : State) : Prop where
  trace : s.trace ⊆ s'.trace
  unwritten : ∀ marker, .minted t marker ∈ s.trace → (∀ runId grant, .wrote runId grant ∈ s.trace → grant.marker ≠ marker) →
    ∀ runId grant, .wrote runId grant ∈ s'.trace → grant.marker ≠ marker
  absent : ∀ marker, .minted t marker ∈ s.trace → ∀ serverIp qaSshUser,
    s.present serverIp qaSshUser marker = false → s'.present serverIp qaSshUser marker = false

theorem Tolerates.refl (t : Party) (s : State) : Tolerates t s s :=
  ⟨fun _ h => h, fun _ _ h => h, fun _ _ _ _ h => h⟩

theorem Tolerates.trans {t : Party} {s s' s'' : State} (h : Tolerates t s s') (h' : Tolerates t s' s'') :
    Tolerates t s s'' :=
  ⟨fun _ he => h'.trace (h.trace he),
    fun marker hm hnone => h'.unwritten marker (h.trace hm) (h.unwritten marker hm hnone),
    fun marker hm serverIp qaSshUser habsent =>
      h'.absent marker (h.trace hm) serverIp qaSshUser (h.absent marker hm serverIp qaSshUser habsent)⟩

abbrev journalRules : Rules qaWorld where
  admits := journalKept
  inv := Sound
  rely := Tolerates
  rely_refl := Tolerates.refl
  rely_trans := Tolerates.trans
  rest _ _ := True
  rest_stable _ _ h := h

section Traces

variable {trace : List Event} {event : Event} {party : Party} {grant : QASshGrant} {marker : String}

theorem mem_minted : marker ∈ minted trace ↔ ∃ party, .minted party marker ∈ trace := by
  unfold minted
  rw [List.mem_filterMap]
  constructor
  · rintro ⟨event, hmem, hevent⟩
    cases event with
    | minted party marker =>
      cases hevent
      exact ⟨party, hmem⟩
    | _ => cases hevent
  · rintro ⟨party, hmem⟩
    exact ⟨_, hmem, rfl⟩

theorem minted_cons (h : marker ∈ minted trace) : marker ∈ minted (event :: trace) := by
  obtain ⟨party, hmem⟩ := mem_minted.mp h
  exact mem_minted.mpr ⟨party, List.mem_cons_of_mem _ hmem⟩

theorem installedSince_cons (hgone : event ≠ .readGone party grant.serverIp grant.qaSshUser grant.marker)
    (h : installedSince (event :: trace) party grant = false) :
    event ≠ .installed grant.marker ∧ installedSince trace party grant = false := by
  unfold installedSince at *
  rw [decide_eq_false_iff_not, List.takeWhile_cons, if_pos (bne_iff_ne.mpr hgone), List.mem_cons, not_or] at h
  exact ⟨fun he => h.1 he.symm, decide_eq_false_iff_not.mpr h.2⟩

end Traces

section Calls

variable {t : Party} {s : State} {runId : String} {grant : QASshGrant} {delivery : Delivery}

theorem run_trace (op : Op) (answer : op.Answer) : s.trace ⊆ (run t op answer s).2.trace := by
  have patch (runId : String) (grant : QASshGrant) : s.trace ⊆ (s.patchGrant runId grant).2.trace := by
    unfold State.patchGrant
    split
    · exact List.subset_cons_self _ _
    · exact fun _ h => h
  have install (admin : Admin) (user : String) (entry : KeyEntry) (brokenOff : Option (Nat × String)) :
      s.trace ⊆ (s.installGrant admin user entry brokenOff).2.trace := by
    unfold State.installGrant
    cases brokenOff with
    | some broken => exact fun _ h => h
    | none =>
      dsimp only
      split
      · exact List.subset_cons_self _ _
      · exact fun _ h => h
  have revoke (admin : Admin) (user marker : String) (brokenOff : Option (Nat × String)) :
      s.trace ⊆ (s.revokeGrant t admin user marker brokenOff).2.trace := by
    unfold State.revokeGrant
    cases brokenOff with
    | some broken => exact fun _ h => h
    | none =>
      dsimp only
      split
      · exact List.subset_cons_self _ _
      · exact fun _ h => h
  cases op with
  | newHex => exact List.subset_cons_self _ _
  | patchGrant runId grant => cases answer <;> first | exact patch runId grant | exact fun _ h => h
  | installGrant admin user entry =>
    obtain ⟨fate, brokenOff⟩ := answer
    cases fate <;> first | exact install admin user entry brokenOff | exact fun _ h => h
  | revokeGrant admin user marker =>
    obtain ⟨fate, brokenOff⟩ := answer
    cases fate <;> first | exact revoke admin user marker brokenOff | exact fun _ h => h
  | listHolding limit after => cases answer <;> exact fun _ h => h
  | _ => exact fun _ h => h

theorem mint_keeps {hex : String} (hi : Sound s) (hfresh : markerOf hex ∉ minted s.trace) :
    journalRules.Keeps t s (s.record (.minted t (markerOf hex))) := by
  have old {event : Event} (h : event ∈ (s.record (.minted t (markerOf hex))).trace)
      (hne : ∀ party marker, event ≠ .minted party marker) : event ∈ s.trace := by
    rcases List.mem_cons.mp h with rfl | h
    · exact absurd rfl (hne _ _)
    · exact h
  refine ⟨⟨?_, fun h => ?_, fun h h' => ?_, fun h => ?_, fun h => ?_, fun h hsince => ?_⟩, fun u _ => ⟨?_, ?_, ?_⟩⟩
  · intro marker party other h h'
    rcases List.mem_cons.mp h with he | h
    · cases he
      rcases List.mem_cons.mp h' with he' | h'
      · cases he'
        rfl
      · exact absurd (mem_minted.mpr ⟨_, h'⟩) hfresh
    · rcases List.mem_cons.mp h' with he' | h'
      · cases he'
        exact absurd (mem_minted.mpr ⟨_, h⟩) hfresh
      · exact hi.once h h'
  · exact minted_cons (hi.known (old h fun _ _ he => by cases he))
  · exact hi.same (old h fun _ _ he => by cases he) (old h' fun _ _ he => by cases he)
  · obtain ⟨hwrote, hrun⟩ := hi.recorded h
    exact ⟨List.mem_cons_of_mem _ hwrote, hrun⟩
  · obtain ⟨delivery, grant, hminted, hgrant⟩ := hi.keys h
    exact ⟨delivery, grant, List.mem_cons_of_mem _ hminted, hgrant⟩
  · exact hi.gone (old h fun _ _ he => by cases he) (installedSince_cons (fun he => by cases he) hsince).2
  · exact List.subset_cons_self _ _
  · exact fun marker _ hnone runId grant h => hnone runId grant (old h fun _ _ he => by cases he)
  · exact fun _ _ _ _ habsent => habsent

def Writable (t : Party) (runId : String) (grant : QASshGrant) (s : State) : Prop :=
  (∃ old, .wrote runId old ∈ s.trace ∧ old.key = grant.key) ∨
    .minted t grant.marker ∈ s.trace ∧ ∀ otherId other, .wrote otherId other ∈ s.trace → other.marker ≠ grant.marker

theorem key_marker {grant other : QASshGrant} (h : grant.key = other.key) : grant.marker = other.marker :=
  congrArg Prod.fst h

theorem Writable.same {otherId : String} {other : QASshGrant} (hw : Writable t runId grant s) (hi : Sound s)
    (h : .wrote otherId other ∈ s.trace) (hmarker : other.marker = grant.marker) : otherId = runId ∧ other.key = grant.key := by
  rcases hw with ⟨old, hold, hkey⟩ | ⟨_, hnone⟩
  · obtain ⟨hid, hother⟩ := hi.same h hold (hmarker.trans (key_marker hkey).symm)
    exact ⟨hid, hother.trans hkey⟩
  · exact absurd hmarker (hnone otherId other h)

theorem Writable.minted (hw : Writable t runId grant s) (hi : Sound s) : grant.marker ∈ minted s.trace := by
  rcases hw with ⟨old, hold, hkey⟩ | ⟨hminted, _⟩
  · exact key_marker hkey ▸ hi.known hold
  · exact mem_minted.mpr ⟨t, hminted⟩

def State.rewrite (s : State) (runId : String) (grant : QASshGrant) : State :=
  { s with records := Function.update s.records runId (some (.grant grant)), trace := .wrote runId grant :: s.trace }

theorem rewrite_grantOf_self : (s.rewrite runId grant).grantOf runId = some grant := by
  unfold State.rewrite State.grantOf
  dsimp only
  rw [Function.update_self]

theorem rewrite_grantOf_of_ne {otherId : String} (h : otherId ≠ runId) :
    (s.rewrite runId grant).grantOf otherId = s.grantOf otherId := by
  unfold State.rewrite State.grantOf
  dsimp only
  rw [Function.update_of_ne h]

theorem rewrite_sound (hi : Sound s) (hrun : ∃ run ∈ s.runs, run.id = runId) (hw : Writable t runId grant s)
    (hold : ∀ old ∈ s.grantOf runId, old.marker ≠ grant.marker → s.present old.serverIp old.qaSshUser old.marker = false)
    (hreleased : grant.held = false → s.present grant.serverIp grant.qaSshUser grant.marker = false) :
    Sound (s.rewrite runId grant) := by
  refine ⟨fun h h' => ?_, fun h => ?_, fun h h' hmarker => ?_, fun {otherId other} h => ?_, fun {ip user marker} h => ?_,
    fun h hsince => ?_⟩
  · rcases List.mem_cons.mp h with he | h
    · cases he
    · rcases List.mem_cons.mp h' with he | h'
      · cases he
      · exact hi.once h h'
  · rcases List.mem_cons.mp h with he | h
    · cases he
      exact minted_cons (hw.minted hi)
    · exact minted_cons (hi.known h)
  · rcases List.mem_cons.mp h with he | h
    · cases he
      rcases List.mem_cons.mp h' with he' | h'
      · cases he'
        exact ⟨rfl, rfl⟩
      · obtain ⟨hid, hkey⟩ := hw.same hi h' hmarker.symm
        exact ⟨hid.symm, hkey.symm⟩
    · rcases List.mem_cons.mp h' with he' | h'
      · cases he'
        exact hw.same hi h hmarker
      · exact hi.same h h' hmarker
  · by_cases hid : otherId = runId
    · subst hid
      rw [rewrite_grantOf_self, Option.some.injEq] at h
      subst h
      exact ⟨List.mem_cons_self, hrun⟩
    · rw [rewrite_grantOf_of_ne hid] at h
      obtain ⟨hwrote, hrow⟩ := hi.recorded h
      exact ⟨List.mem_cons_of_mem _ hwrote, hrow⟩
  · obtain ⟨delivery, found, hminted, hfound, hheld, hkey⟩ := hi.keys h
    refine ⟨delivery, ?_⟩
    by_cases hid : delivery.runId = runId
    · have hpresent : s.present found.serverIp found.qaSshUser found.marker = true := by
        cases hkey
        exact h
      -- the key that is there is the one the new record is of
      have hmarker : found.marker = grant.marker := by
        by_contra hne
        rw [hold found (hid ▸ hfound) hne] at hpresent
        cases hpresent
      have hsame := (hw.same hi (hi.recorded hfound).1 hmarker).2
      refine ⟨grant, List.mem_cons_of_mem _ hminted, ?_, ?_, hsame.symm.trans hkey⟩
      · rw [hid]
        exact rewrite_grantOf_self
      · by_contra hnot
        have habsent := hreleased (Bool.eq_false_iff.mpr hnot)
        have hat : (grant.marker, grant.serverIp, grant.qaSshUser) = (found.marker, found.serverIp, found.qaSshUser) :=
          hsame.symm
        simp only [Prod.mk.injEq] at hat
        rw [hat.1, hat.2.1, hat.2.2, hpresent] at habsent
        cases habsent
    · refine ⟨found, List.mem_cons_of_mem _ hminted, ?_, hheld, hkey⟩
      rw [rewrite_grantOf_of_ne hid]
      exact hfound
  · rcases List.mem_cons.mp h with he | h
    · cases he
    · exact hi.gone h (installedSince_cons (fun he => by cases he) hsince).2

theorem rewrite_tolerates {u : Party} (hi : Sound s) (hu : u ≠ t) (hw : Writable t runId grant s) :
    Tolerates u s (s.rewrite runId grant) := by
  refine ⟨List.subset_cons_self _ _, fun marker hm hnone otherId other h => ?_, fun _ _ _ _ habsent => habsent⟩
  rcases List.mem_cons.mp h with he | h
  · cases he
    rcases hw with ⟨old, hold, hkey⟩ | ⟨hminted, _⟩
    · exact key_marker hkey ▸ hnone runId old hold
    · intro hmarker
      exact hu (hi.once hm (hmarker ▸ hminted))
  · exact hnone otherId other h

theorem patch_keeps {fate : Fate Exn} (hi : Sound s) (hadm : journalKept s (.call t (.patchGrant runId grant) fate))
    (hw : Writable t runId grant s)
    (hreleased : fate.carriedOut = true → grant.held = false → s.present grant.serverIp grant.qaSshUser grant.marker = false) :
    journalRules.Keeps t s (run t (.patchGrant runId grant) fate s).2 ∧
      ((run t (.patchGrant runId grant) fate s).1 = .ok () →
        .wrote runId grant ∈ (run t (.patchGrant runId grant) fate s).2.trace) := by
  have hpatch (hcarried : fate.carriedOut = true) : journalRules.Keeps t s (s.patchGrant runId grant).2 ∧
      ((s.patchGrant runId grant).1 = .ok () → .wrote runId grant ∈ (s.patchGrant runId grant).2.trace) := by
    unfold State.patchGrant
    split
    · next hrun =>
      obtain ⟨run, hmem, hid⟩ := List.any_eq_true.mp hrun
      have hsound := rewrite_sound hi ⟨run, hmem, eq_of_beq hid⟩ hw (hadm hcarried).1 (hreleased hcarried)
      exact ⟨⟨hsound, fun u hu => rewrite_tolerates hi hu hw⟩, fun _ => List.mem_cons_self⟩
    · exact ⟨.refl _ hi, fun h => by cases h⟩
  cases fate with
  | served => exact hpatch rfl
  | unheard e => exact ⟨(hpatch rfl).1, fun h => by cases h⟩
  | unsent e => exact ⟨.refl _ hi, fun h => by cases h⟩

section Scripts

variable {admin : Admin} {user marker ip otherUser other : String} {entry : KeyEntry} {first : QASshGrant}

theorem installGrant_present (h : (s.installGrant admin user entry none).2.present ip otherUser other = true) :
    s.present ip otherUser other = true ∨
      (entry.marker, admin.serverIp, user) = (other, ip, otherUser) ∧
        ((s.accounts admin.serverIp user).install entry).1.exitStatus = 0 := by
  have hpresent : (s.setAccount admin.serverIp user ((s.accounts admin.serverIp user).install entry).2).present
      ip otherUser other = true := by
    unfold State.installGrant at h
    dsimp only at h
    split at h
    · exact h
    · exact h
  rcases State.present_setAccount hpresent with ⟨rfl, rfl, hin⟩ | hold
  · rcases Account.install_present hin with hold | ⟨rfl, hexit⟩
    · exact .inl hold
    · exact .inr ⟨rfl, hexit⟩
  · exact .inl hold

theorem installGrant_trace : (s.installGrant admin user entry none).2.trace =
    if ((s.accounts admin.serverIp user).install entry).1.exitStatus = 0 then .installed entry.marker :: s.trace
    else s.trace := by
  unfold State.installGrant
  dsimp only
  split
  · rfl
  · rfl

theorem installGrant_rest (s : State) (admin : Admin) (user : String) (entry : KeyEntry) :
    (s.installGrant admin user entry none).2.records = s.records ∧
    (s.installGrant admin user entry none).2.runs = s.runs := by
  unfold State.installGrant
  dsimp only
  split
  · exact ⟨rfl, rfl⟩
  · exact ⟨rfl, rfl⟩

theorem grantOf_congr {s' : State} (h : s'.records = s.records) : s'.grantOf runId = s.grantOf runId := by
  unfold State.grantOf
  rw [h]

theorem install_sound (hi : Sound s) (hminted : .minted (.qa delivery) entry.marker ∈ s.trace)
    (hwrote : .wrote delivery.runId first ∈ s.trace) (hkey : first.key = (entry.marker, admin.serverIp, user))
    (hrecord : ∃ grant ∈ s.grantOf delivery.runId, grant.held = true ∧ grant.marker = entry.marker) :
    Sound (s.installGrant admin user entry none).2 := by
  obtain ⟨hrecords, hruns⟩ := installGrant_rest s admin user entry
  have grown {event : Event} (h : event ∈ s.trace) : event ∈ (s.installGrant admin user entry none).2.trace := by
    rw [installGrant_trace]
    split
    · exact List.mem_cons_of_mem _ h
    · exact h
  have old {event : Event} (h : event ∈ (s.installGrant admin user entry none).2.trace)
      (hne : ∀ marker, event ≠ .installed marker) : event ∈ s.trace := by
    rw [installGrant_trace] at h
    split at h
    · rcases List.mem_cons.mp h with rfl | h
      · exact absurd rfl (hne _)
      · exact h
    · exact h
  refine ⟨fun h h' => ?_, fun h => ?_, fun h h' => ?_, fun h => ?_, fun h => ?_, fun {party grant} h hsince => ?_⟩
  · exact hi.once (old h fun _ he => by cases he) (old h' fun _ he => by cases he)
  · obtain ⟨party, hmem⟩ := mem_minted.mp (hi.known (old h fun _ he => by cases he))
    exact mem_minted.mpr ⟨party, grown hmem⟩
  · exact hi.same (old h fun _ he => by cases he) (old h' fun _ he => by cases he)
  · rw [grantOf_congr hrecords] at h
    rw [hruns]
    exact ⟨grown (hi.recorded h).1, (hi.recorded h).2⟩
  · rcases installGrant_present h with hold | ⟨hentry, _⟩
    · obtain ⟨delivery, grant, hminted, hgrant, hheld, hkey⟩ := hi.keys hold
      exact ⟨delivery, grant, grown hminted, (grantOf_congr hrecords).trans hgrant, hheld, hkey⟩
    · obtain ⟨grant, hgrant, hheld, hmarker⟩ := hrecord
      refine ⟨delivery, grant, ?_, (grantOf_congr hrecords).trans hgrant, hheld, ?_⟩
      · cases hentry
        exact grown hminted
      · rw [(hi.same (hi.recorded hgrant).1 hwrote (hmarker.trans (congrArg Prod.fst hkey).symm)).2, hkey, hentry]
  · rw [Bool.eq_false_iff]
    intro hpresent
    have hgone : .readGone party grant.serverIp grant.qaSshUser grant.marker ∈ s.trace := old h fun _ he => by cases he
    rw [installGrant_trace] at hsince
    rcases installGrant_present hpresent with hold | ⟨hentry, hexit⟩
    · split at hsince
      · rw [hi.gone hgone (installedSince_cons (fun he => by cases he) hsince).2] at hold
        cases hold
      · rw [hi.gone hgone hsince] at hold
        cases hold
    · rw [if_pos hexit] at hsince
      exact (installedSince_cons (fun he => by cases he) hsince).1 (congrArg Event.installed (congrArg Prod.fst hentry))

theorem install_keeps {script : Script} (hi : Sound s)
    (hadm : journalKept s (.call (.qa delivery) (.installGrant admin user entry) script))
    (hminted : .minted (.qa delivery) entry.marker ∈ s.trace) (hwrote : .wrote delivery.runId first ∈ s.trace)
    (hkey : first.key = (entry.marker, admin.serverIp, user)) :
    journalRules.Keeps (.qa delivery) s (run (.qa delivery) (.installGrant admin user entry) script s).2 := by
  have hinstall (hcarried : script.fate.carriedOut = true) :
      journalRules.Keeps (.qa delivery) s (s.installGrant admin user entry script.brokenOff).2 := by
    cases hbroken : script.brokenOff with
    | some broken => exact .refl _ hi
    | none =>
      refine ⟨install_sound hi hminted hwrote hkey (hadm hcarried hbroken), fun u hu => ⟨?_, ?_, ?_⟩⟩
      · have hgrown := run_trace (t := .qa delivery) (s := s) (.installGrant admin user entry) ⟨.served, none⟩
        exact hgrown
      · intro marker _ hnone runId grant h
        rw [installGrant_trace] at h
        split at h
        · rcases List.mem_cons.mp h with he | h
          · cases he
          · exact hnone runId grant h
        · exact hnone runId grant h
      · intro marker hm ip otherUser habsent
        rw [Bool.eq_false_iff]
        intro hpresent
        rcases installGrant_present hpresent with hold | ⟨hentry, _⟩
        · rw [habsent] at hold
          cases hold
        · cases hentry
          exact hu (hi.once hm hminted)
  obtain ⟨fate, brokenOff⟩ := script
  cases fate with
  | unsent e => exact .refl _ hi
  | _ => exact hinstall rfl

theorem revokeGrant_present (h : (s.revokeGrant t admin user marker none).2.present ip otherUser other = true) :
    s.present ip otherUser other = true := by
  have hpresent : (s.setAccount admin.serverIp user ((s.accounts admin.serverIp user).revoke marker).2).present
      ip otherUser other = true := by
    unfold State.revokeGrant at h
    dsimp only at h
    split at h
    · exact h
    · exact h
  rcases State.present_setAccount hpresent with ⟨rfl, rfl, hin⟩ | hold
  · exact Account.revoke_present hin
  · exact hold

theorem revokeGrant_trace : (s.revokeGrant t admin user marker none).2.trace =
    if ((s.accounts admin.serverIp user).revoke marker).1.count = some 0 then
      .readGone t admin.serverIp user marker :: s.trace
    else s.trace := by
  unfold State.revokeGrant
  dsimp only
  split
  · rfl
  · rfl

theorem revokeGrant_rest (t : Party) (s : State) (admin : Admin) (user marker : String) :
    (s.revokeGrant t admin user marker none).2.records = s.records ∧
    (s.revokeGrant t admin user marker none).2.runs = s.runs := by
  unfold State.revokeGrant
  dsimp only
  split
  · exact ⟨rfl, rfl⟩
  · exact ⟨rfl, rfl⟩

theorem revokeGrant_gone (h : ((s.accounts admin.serverIp user).revoke marker).1.count = some 0) :
    (s.revokeGrant t admin user marker none).2.present admin.serverIp user marker = false := by
  have habsent : (s.setAccount admin.serverIp user ((s.accounts admin.serverIp user).revoke marker).2).present
      admin.serverIp user marker = false := State.present_setAccount_self.trans (Account.revoke_gone h)
  unfold State.revokeGrant
  dsimp only
  rw [if_pos h]
  exact habsent

theorem revoke_sound (hi : Sound s) : Sound (s.revokeGrant t admin user marker none).2 := by
  obtain ⟨hrecords, hruns⟩ := revokeGrant_rest t s admin user marker
  have grown {event : Event} (h : event ∈ s.trace) : event ∈ (s.revokeGrant t admin user marker none).2.trace := by
    rw [revokeGrant_trace]
    split
    · exact List.mem_cons_of_mem _ h
    · exact h
  have old {event : Event} (h : event ∈ (s.revokeGrant t admin user marker none).2.trace)
      (hne : ∀ party ip user marker, event ≠ .readGone party ip user marker) : event ∈ s.trace := by
    rw [revokeGrant_trace] at h
    split at h
    · rcases List.mem_cons.mp h with rfl | h
      · exact absurd rfl (hne _ _ _ _)
      · exact h
    · exact h
  refine ⟨fun h h' => ?_, fun h => ?_, fun h h' => ?_, fun h => ?_, fun h => ?_, fun {party grant} h hsince => ?_⟩
  · exact hi.once (old h fun _ _ _ _ he => by cases he) (old h' fun _ _ _ _ he => by cases he)
  · obtain ⟨party, hmem⟩ := mem_minted.mp (hi.known (old h fun _ _ _ _ he => by cases he))
    exact mem_minted.mpr ⟨party, grown hmem⟩
  · exact hi.same (old h fun _ _ _ _ he => by cases he) (old h' fun _ _ _ _ he => by cases he)
  · rw [grantOf_congr hrecords] at h
    rw [hruns]
    exact ⟨grown (hi.recorded h).1, (hi.recorded h).2⟩
  · obtain ⟨delivery, grant, hminted, hgrant, hheld, hkey⟩ := hi.keys (revokeGrant_present h)
    exact ⟨delivery, grant, grown hminted, (grantOf_congr hrecords).trans hgrant, hheld, hkey⟩
  · have habsent : s.present grant.serverIp grant.qaSshUser grant.marker = false →
        (s.revokeGrant t admin user marker none).2.present grant.serverIp grant.qaSshUser grant.marker = false := by
      intro habsent
      rw [Bool.eq_false_iff]
      intro hpresent
      rw [revokeGrant_present hpresent] at habsent
      cases habsent
    rw [revokeGrant_trace] at h hsince
    split at h
    · next hcount =>
      rw [if_pos hcount] at hsince
      by_cases hself : Event.readGone t admin.serverIp user marker =
          .readGone party grant.serverIp grant.qaSshUser grant.marker
      · rw [Event.readGone.injEq] at hself
        rw [← hself.2.1, ← hself.2.2.1, ← hself.2.2.2]
        exact revokeGrant_gone hcount
      · rcases List.mem_cons.mp h with he | h
        · exact absurd he.symm hself
        · exact habsent (hi.gone h (installedSince_cons hself hsince).2)
    · next hcount =>
      rw [if_neg hcount] at hsince
      exact habsent (hi.gone h hsince)

theorem revoke_keeps (admin : Admin) (user marker : String) (script : Script) (hi : Sound s) :
    journalRules.Keeps t s (run t (.revokeGrant admin user marker) script s).2 ∧
      ∀ completed : Completed, (run t (.revokeGrant admin user marker) script s).1 = .ok completed →
        completed.exitStatus = 0 → completed.count = some 0 →
        .readGone t admin.serverIp user marker ∈ (run t (.revokeGrant admin user marker) script s).2.trace ∧
          (run t (.revokeGrant admin user marker) script s).2.present admin.serverIp user marker = false := by
  have hrevoke (brokenOff : Option (Nat × String)) :
      journalRules.Keeps t s (s.revokeGrant t admin user marker brokenOff).2 := by
    cases brokenOff with
    | some broken => exact .refl _ hi
    | none =>
      refine ⟨revoke_sound hi, fun u _ => ⟨?_, ?_, ?_⟩⟩
      · have hgrown := run_trace (t := t) (s := s) (.revokeGrant admin user marker) ⟨.served, none⟩
        exact hgrown
      · intro marker _ hnone runId grant h
        rw [revokeGrant_trace] at h
        split at h
        · rcases List.mem_cons.mp h with he | h
          · cases he
          · exact hnone runId grant h
        · exact hnone runId grant h
      · intro other _ ip otherUser habsent
        rw [Bool.eq_false_iff]
        intro hpresent
        rw [revokeGrant_present hpresent] at habsent
        cases habsent
  obtain ⟨fate, brokenOff⟩ := script
  cases fate with
  | served =>
    refine ⟨hrevoke brokenOff, fun completed h hexit hcount => ?_⟩
    cases brokenOff with
    | some broken =>
      cases h
      cases hexit
    | none =>
      cases h
      have hgone : ((s.accounts admin.serverIp user).revoke marker).1.count = some 0 := hcount
      refine ⟨?_, revokeGrant_gone hgone⟩
      have htrace := (revokeGrant_trace (t := t) (s := s)).trans (if_pos hgone)
      exact htrace.symm ▸ List.mem_cons_self
  | unheard e => exact ⟨hrevoke brokenOff, fun _ h => by cases h⟩
  | unsent e => exact ⟨.refl _ hi, fun _ h => by cases h⟩

end Scripts

end Calls

end Orchestrator.Qa
