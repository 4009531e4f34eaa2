import PortageEngine.Ledger.Load

/-!
# Claimed phases and the phases of reservations

A project's phase limits are checked against the `phase` column of its reservations.  They bound the
claimed phase items too, as long as an attempt that works on an item stands in that item's phase.
Everything except starting an attempt, moving one into a phase and finishing a phase eases the load:
it makes it lighter, and no attempt works or stands anywhere that it did not before.
-/

namespace PortageEngine.Ledger

open Library Library.Rows

variable {l l' : Ledger}

/-- The attempt has a claimed item of this phase. -/
def working (l : Ledger) (a : AttemptId) (phase : Phase) : Prop :=
  ∃ i ∈ l.items, i.attempt = a ∧ i.phase = phase ∧ i.state = .claimed

/-- The attempt has an active reservation in this phase. -/
def occupies (l : Ledger) (a : AttemptId) (slot : ReservationPhase) : Prop :=
  ∃ r ∈ l.reservations, r.attempt = a ∧ r.phase = slot ∧ r.active = true

def InPhase (l : Ledger) : Prop :=
  ∀ a phase slot, working l a phase → occupies l a slot → slot = phase.reservation

theorem inPhase_empty {policies : List Policy} : InPhase (empty policies) := by
  rintro a phase slot ⟨i, hi, _⟩
  cases hi

/-! ## Updates -/

variable {a attempt : AttemptId} {now : Time}

variable {p : PhaseItem → Bool} {phase : Phase} {rows : List PhaseItem} {claim : PhaseClaim}
  {detail : String} {state : Status} {at_ : Time}

variable {f : PhaseItem → PhaseItem} {reason : String} {slot : ReservationPhase}
  {status : BuildStatus} {outcome : PhaseOutcome}

theorem working_update
    (hf : ∀ i, (f i).attempt = i.attempt ∧ (f i).phase = i.phase)
    (hclaims : ∀ i, p i = true → (f i).state = .claimed → i.state = .claimed)
    (h : ∃ i ∈ update p f rows, i.attempt = a ∧ i.phase = phase ∧ i.state = .claimed) :
    ∃ i ∈ rows, i.attempt = a ∧ i.phase = phase ∧ i.state = .claimed := by
  rcases exists_update.mp h with ⟨i, hi, ha, hphase, hclaimed⟩
  by_cases hp : p i = true
  · rw [if_pos hp] at ha hphase hclaimed
    exact ⟨i, hi, (hf i).1 ▸ ha, (hf i).2 ▸ hphase, hclaims i hp hclaimed⟩
  · rw [if_neg hp] at ha hphase hclaimed
    exact ⟨i, hi, ha, hphase, hclaimed⟩

theorem working_close {state : ItemState} (hstate : state ≠ .claimed)
    (h : ∃ i ∈ update p (closeItem state detail) rows,
      i.attempt = a ∧ i.phase = phase ∧ i.state = .claimed) :
    ∃ i ∈ rows, i.attempt = a ∧ i.phase = phase ∧ i.state = .claimed :=
  working_update (by intro _; exact ⟨rfl, rfl⟩)
    (by intro _ _ hclaimed; exact absurd hclaimed hstate) h

theorem working_cancelDependants {position : Nat} (h : ∃ i ∈ cancelDependants attempt position rows,
      i.attempt = a ∧ i.phase = phase ∧ i.state = .claimed) :
    ∃ i ∈ rows, i.attempt = a ∧ i.phase = phase ∧ i.state = .claimed :=
  working_update (by intro _; exact ⟨rfl, rfl⟩) (by intro _ _ hclaimed; cases hclaimed) h

theorem working_cancel (h : ∃ i ∈ update p (cancelItem reason) rows,
      i.attempt = a ∧ i.phase = phase ∧ i.state = .claimed) :
    ∃ i ∈ rows, i.attempt = a ∧ i.phase = phase ∧ i.state = .claimed :=
  working_update (by intro _; exact ⟨rfl, rfl⟩) (by intro _ _ hclaimed; cases hclaimed) h

theorem occupies_update {p : Reservation → Bool} {f : Reservation → Reservation}
    {rows : List Reservation} (hoff : ∀ r, (f r).active = false)
    (h : ∃ r ∈ update p f rows, r.attempt = a ∧ r.phase = slot ∧ r.active = true) :
    ∃ r ∈ rows, r.attempt = a ∧ r.phase = slot ∧ r.active = true := by
  rcases exists_update.mp h with ⟨r, hr, ha, hslot, hactive⟩
  by_cases hp : p r = true
  · rw [if_pos hp, hoff] at hactive
    cases hactive
  · rw [if_neg hp] at ha hslot hactive
    exact ⟨r, hr, ha, hslot, hactive⟩

theorem items_updateResourceReservationPhase
    (hok : updateResourceReservationPhase l attempt state = .ok l') : l'.items = l.items := by
  rcases updateResourceReservationPhase_frame hok with ⟨_, _, rfl⟩
  rfl

/-- After a phase change the attempt stands in the new phase, and the others where they stood. -/
theorem occupies_moved (hkeyed : Keyed Reservation.attempt l.reservations)
    {phase : ReservationPhase} (hphase : reservationPhase state = some phase)
    (hok : updateResourceReservationPhase l attempt state = .ok l')
    (ho : occupies l' a slot) :
    (a = attempt ∧ slot = phase) ∨ (a ≠ attempt ∧ occupies l a slot) := by
  rcases updateResourceReservationPhase_ok hok with ⟨hnone, _⟩ | ⟨phase', r, p, hsome, hfind, _, hcases⟩
  · rw [hphase] at hnone
    cases hnone
  rw [hphase] at hsome
  cases hsome
  have hr := List.mem_of_find?_eq_some hfind
  have hattempt : r.attempt = attempt ∧ r.active = true := by simpa using List.find?_some hfind
  rcases hcases with ⟨hthere, rfl⟩ | ⟨_, _, rfl⟩
  · by_cases ha : a = attempt
    · rcases ho with ⟨x, hx, hxa, hslot, _⟩
      have hxr : x = r := hkeyed.eq hx hr (by rw [hxa, ha, hattempt.1])
      exact .inl ⟨ha, by rw [← hslot, hxr, hthere]⟩
    · exact .inr ⟨ha, ho⟩
  · rcases exists_update.mp ho with ⟨x, hx, hxa, hslot, hactive⟩
    by_cases hsel : (decide (x.attempt = attempt) && x.active && decide (x.phase ≠ phase)) = true
    · rw [if_pos hsel] at hxa hslot
      have hx' : x.attempt = attempt := by
        simp only [Bool.and_eq_true, decide_eq_true_eq] at hsel
        exact hsel.1.1
      exact .inl ⟨hxa.symm.trans hx', hslot.symm⟩
    · rw [if_neg hsel] at hxa hslot hactive
      by_cases ha : a = attempt
      · refine .inl ⟨ha, ?_⟩
        by_contra hne
        refine hsel ?_
        simp [hxa, ha, hactive, hslot, hne]
      · exact .inr ⟨ha, x, hx, hxa, hslot, hactive⟩

/-! ## Transactions that ease the load -/

structure Eases (l l' : Ledger) : Prop extends Lighter l l' where
  works : ∀ a phase, working l' a phase → working l a phase
  stands : ∀ a slot, occupies l' a slot → occupies l a slot

theorem Eases.trans {l₁ l₂ l₃ : Ledger} (h : Eases l₁ l₂) (h' : Eases l₂ l₃) : Eases l₁ l₃ :=
  ⟨h.toLighter.trans h'.toLighter, fun a phase hw => h.works a phase (h'.works a phase hw),
    fun a slot ho => h.stands a slot (h'.stands a slot ho)⟩

theorem InPhase.eases (h : InPhase l) (he : Eases l l') : InPhase l' :=
  fun a phase slot hw ho => h a phase slot (he.works a phase hw) (he.stands a slot ho)

theorem eases_of_items
    (hf : ∀ i, (f i).attempt = i.attempt ∧ (f i).phase = i.phase)
    (hclaims : ∀ i, p i = true → (f i).state = .claimed → i.state = .claimed)
    (hitems : l'.items = update p f l.items) (hr : l'.reservations = l.reservations)
    (hu : l'.usages = l.usages) (hp : l'.policies.map Policy.limits = l.policies.map Policy.limits) :
    Eases l l' := by
  refine ⟨lighter_of_same hr hu hp, ?_, ?_⟩
  · intro a phase hw
    unfold working at hw
    rw [hitems] at hw
    exact working_update hf hclaims hw
  · unfold occupies
    rw [hr]
    exact fun _ _ ho => ho

theorem eases_of_same (hitems : l'.items = l.items) (hr : l'.reservations = l.reservations)
    (hu : l'.usages = l.usages) (hp : l'.policies.map Policy.limits = l.policies.map Policy.limits) :
    Eases l l' :=
  eases_of_items (p := fun _ => false) (fun _ => ⟨rfl, rfl⟩) (by intro _ hnot; cases hnot)
    (hitems.trans (update_eq_self fun _ _ => rfl).symm) hr hu hp

/-- The rows of some attempts are released. -/
theorem eases_of_release {q : Reservation → Bool} {u : Usage → Bool}
    (hworks : ∀ a phase, working l' a phase → working l a phase)
    (hr : l'.reservations = update q (fun r => { r with active := false }) l.reservations)
    (hu : l'.usages = update (fun x => u x && x.active) (settle at_) l.usages)
    (hp : l'.policies.map Policy.limits = l.policies.map Policy.limits) : Eases l l' := by
  refine ⟨lighter_of_release loosens_off (cheaper_settle) hr hu hp, hworks, ?_⟩
  intro a slot ho
  unfold occupies at ho
  rw [hr] at ho
  exact occupies_update (by intro _; rfl) ho

theorem eases_closeAttempt (l : Ledger) (attempt : AttemptId) (terminalState : Status)
    (reason : String) (at_ : Time) : Eases l (closeAttempt l attempt terminalState reason at_) := by
  rcases closeAttempt_eq with ⟨jobs, policies, heq, _, hp⟩
  rw [heq]
  exact eases_of_release (fun _ _ => working_cancel) rfl rfl hp

theorem eases_markAttemptCloudStarted :
    Eases l (markAttemptCloudStarted l attempt at_) := by
  have hcheaper : Cheaper (fun u => u.attempt = attempt && u.active)
      (fun u => { u with cloudStartedAt := some (u.cloudStartedAt.getD at_) }) :=
    fun u _ => ⟨rfl, rfl, Nat.le_refl _, Nat.le_refl _⟩
  have hrows : l.reservations =
      update (fun _ => false) (fun r => { r with active := false }) l.reservations :=
    (update_eq_self fun _ _ => rfl).symm
  exact ⟨lighter_of_release loosens_off hcheaper hrows rfl rfl, fun _ _ hw => hw, fun _ _ ho => ho⟩

/-- What is left of a report is the move into the phase that it names. -/
theorem eases_recordTransition {previous : Option BuildStatus} {current : BuildStatus}
    {fresh : AttemptId} (hattempt : current.attemptId = some attempt)
    (hok : recordTransition l previous current now fresh = .ok l') :
    Eases l l' ∨ ∃ l₁, Eases l l₁ ∧ l₁.items = l.items ∧ l₁.reservations = l.reservations ∧
      updateResourceReservationPhase l₁ attempt current.status = .ok l' := by
  rcases recordTransition_fenced_ok hattempt hok with rfl | ⟨_, hrecord⟩
  · exact .inl (eases_of_same rfl rfl rfl rfl)
  have hreported : Eases l (reportAttempt (reportJob l current now) current attempt now) :=
    eases_of_same rfl rfl rfl rfl
  rcases recordAttemptTransition_ok hrecord with ⟨_, rfl⟩ | ⟨_, hmove⟩
  · exact .inl (hreported.trans (eases_closeAttempt _ attempt current.status _ now))
  refine .inr ⟨_, ?_, ?_, ?_, hmove⟩
  · split
    · exact hreported.trans (eases_markAttemptCloudStarted)
    · exact hreported
  · split <;> rfl
  · split <;> rfl

theorem eases_recoverExpired (l : Ledger) (now : Time) (locked : AttemptId → Bool) (limit : Nat) :
    Eases l (recoverExpired l now locked limit) := by
  unfold recoverExpired
  generalize loadExpiredLeases l now locked limit = rows
  induction rows generalizing l with
  | nil => exact eases_of_same rfl rfl rfl rfl
  | cons row rows ih =>
    have hexpired : Eases l (expireAttempt l row.attempt (expiredLeaseOutcome row).2 now) :=
      eases_of_same rfl rfl rfl rfl
    have hclosed := hexpired.trans (eases_closeAttempt _ row.attempt .expired "lease_expired" now)
    have hrecovered : Eases l (recoverExpiredLease now l row) :=
      hclosed.trans (eases_of_same rfl rfl rfl rfl)
    exact hrecovered.trans (ih _)

theorem eases_closeJob {job : JobId} : Eases l (closeJob l job at_) := by
  rcases settleJobAttemptUsage_eq with ⟨jobs, policies, heq, _, hp⟩
  unfold closeJob
  rw [heq]
  exact eases_of_release (fun _ _ => working_cancel) rfl rfl hp

theorem eases_cancelJob {job : JobId}
    (hok : cancelJob l job reason now = .ok (l', status)) : Eases l l' := by
  rcases cancelJob_ok hok with ⟨_, _, _, _, rfl, _⟩
  refine Eases.trans ?_ (eases_closeJob)
  exact eases_of_same rfl rfl rfl rfl

theorem eases_activatePhasePlan
    (hok : activatePhasePlan l status now = .ok l') : Eases l l' := by
  rcases activatePhasePlan_ok hok with ⟨attempt, rfl⟩
  exact eases_of_items (by intro _; exact ⟨rfl, rfl⟩) (by intro _ _ hclaimed; exact hclaimed) rfl rfl
    rfl rfl

theorem eases_reclaimExpired (l : Ledger) (now : Time) : Eases l (reclaimExpired l now) :=
  eases_of_items (by intro _; exact ⟨rfl, rfl⟩) (by intro _ _ hclaimed; cases hclaimed) rfl rfl rfl
    rfl

theorem eases_renewPhaseWork {lease : Time}
    (hok : renewPhaseWork l claim lease now = .ok l') : Eases l l' := by
  rcases renewPhaseWork_ok hok with ⟨u, _, rfl⟩
  exact eases_of_items (by intro _; exact ⟨rfl, rfl⟩) (by intro _ _ hclaimed; exact hclaimed) rfl rfl
    rfl rfl

theorem eases_finishPhaseAttempt {status : StoredStatus}
    (hok : finishPhaseAttempt l claim status detail at_ = .ok l') : Eases l l' := by
  rcases finishPhaseAttempt_ok hok with ⟨_, rfl⟩
  rcases releasePhaseAttempt_eq
    with ⟨jobs, policies, heq, _, hp⟩
  rw [heq]
  exact eases_of_release (fun _ _ hw => hw) rfl rfl hp

theorem eases_finalizePhaseWork {previous completed : BuildStatus}
    (hok : finalizePhaseWork l claim previous completed now at_ = .ok l') : Eases l l' := by
  rcases finalizePhaseWork_ok hok with ⟨_, _, _, hfinish⟩
  have hitems : Eases l { l with
      items := update (fun i => i.id = claim.id) (closeItem .completed "") l.items } :=
    eases_of_items (by intro _; exact ⟨rfl, rfl⟩) (by intro _ _ hclaimed; cases hclaimed) rfl rfl rfl
      rfl
  exact hitems.trans (eases_finishPhaseAttempt hfinish)

theorem eases_failPhaseWorkAndJob {previous : BuildStatus}
    (hok : failPhaseWorkAndJob l claim previous detail now at_ = .ok l') :
    Eases l l' := by
  rcases failPhaseWorkAndJob_ok hok with ⟨_, failed, _, hfinish⟩
  have hitems : Eases l { l with
      items := cancelDependants claim.attempt claim.sequence
        (update (fun i => i.id = claim.id) (closeItem .failed (phaseFailureDetail detail))
          l.items) } := by
    refine ⟨lighter_of_same rfl rfl rfl, ?_, fun _ _ ho => ho⟩
    intro a phase hw
    exact working_close (by intro hstate; cases hstate) (working_cancelDependants hw)
  exact hitems.trans (eases_finishPhaseAttempt hfinish)

/-! ## Other transactions -/

theorem InPhase.start (h : InPhase l) (hp : Planned l) {call : ClaimCall} {j : Job}
    {charge : Charge} {attemptNo fence : Nat}
    (hstart : ClaimStarted l call j charge attemptNo fence) :
    InPhase (startAttempt l call j charge attemptNo fence) := by
  rintro a phase slot ⟨i, hi, ha, hphase, hclaimed⟩ ⟨r, hr, hra, hslot, hactive⟩
  have hold : i ∈ l.items := by
    rcases List.mem_append.mp hi with hnew | hold
    · rcases mem_phaseWorkPlan.mp hnew with ⟨planned, rfl⟩
      cases planned <;> cases hclaimed
    · exact hold
  rcases List.mem_cons.mp hr with rfl | hr
  · -- the identifier of the new attempt is fresh
    have hheld := (hp.refs.items_held i.ref (List.mem_map.mpr ⟨i, hold, rfl⟩)).1
    rcases attemptOf_iff.mpr hheld with ⟨x, hx, hid, _⟩
    exact absurd (hid.trans (ha.trans hra.symm)) ((freshIds_spec hstart.fresh).1 x hx)
  · exact h a phase slot ⟨i, hold, ha, hphase, hclaimed⟩ ⟨r, hr, hra, hslot, hactive⟩

/-- A phase change keeps attempts in place if what the attempt works on is in the new phase. -/
theorem InPhase.move (h : InPhase l) (hkeyed : Keyed Reservation.attempt l.reservations)
    (hmatches : ∀ phase slot, working l attempt phase → reservationPhase state = some slot →
      slot = phase.reservation) (hok : updateResourceReservationPhase l attempt state = .ok l') :
    InPhase l' := by
  intro a phase slot hw ho
  have hw' : working l a phase := by
    unfold working at hw
    rw [items_updateResourceReservationPhase hok] at hw
    exact hw
  cases hphase : reservationPhase state with
  | none =>
    rcases updateResourceReservationPhase_ok hok with ⟨_, rfl⟩ | ⟨_, _, _, hsome, _⟩
    · exact h a phase slot hw' ho
    · rw [hphase] at hsome
      cases hsome
  | some slot' =>
    rcases occupies_moved hkeyed hphase hok ho with ⟨rfl, rfl⟩ | ⟨_, ho'⟩
    · exact hmatches phase slot hw' hphase
    · exact h a phase slot hw' ho'

theorem InPhase.claimPhaseWork (h : InPhase l) (hp : Planned l) {call : PhaseCall}
    {claim : Option PhaseClaim} (hok : claimPhaseWork l call = .ok (l', claim)) : InPhase l' := by
  have hreclaimed := h.eases (eases_reclaimExpired l call.now)
  have hplanned := (hp.reclaimExpired call.now).planned
  rcases claimPhaseWork_ok hok with ⟨rfl, _⟩ | ⟨item, at_, _, rfl⟩ |
    ⟨call', c, l₁, hfind, hphase, rfl, _⟩
  · exact hreclaimed
  · exact hreclaimed.eases (eases_of_items (by intro _; exact ⟨rfl, rfl⟩)
      (by intro _ _ hclaimed; exact hclaimed) rfl rfl rfl rfl)
  have hitem := List.mem_of_find?_eq_some (phaseCandidate?_some hfind).1
  have hready := (phaseCandidate?_some hfind).2.2.2.1
  have hitems := items_updateResourceReservationPhase hphase
  have hkeys := hplanned.refs.planKeys
  intro a phase slot hw ho
  have hmoved := occupies_moved hplanned.refs.reservations_keyed
    (reservationPhase_phaseWorkState) hphase ho
  rcases exists_update.mp hw with ⟨i, hi, ha, hiphase, hclaimed⟩
  rw [hitems] at hi
  by_cases hsel : (decide (i.id = c.item.id) && decide (i.state = .ready)) = true
  · -- the item that was taken
    rw [if_pos hsel] at ha hiphase
    have hic : i = c.item := by
      simp only [Bool.and_eq_true, decide_eq_true_eq] at hsel
      exact hkeys.id i hi c.item hitem hsel.1
    subst hic
    rcases hmoved with ⟨_, hslot⟩ | ⟨hne, _⟩
    · rw [hslot, ← hiphase]
      rfl
    · exact absurd ha.symm hne
  · -- an item of another attempt: this one had a ready item
    rw [if_neg hsel] at ha hiphase hclaimed
    rcases hmoved with ⟨hattempt, _⟩ | ⟨_, ho'⟩
    · have hic := hplanned.plan.running_unique hkeys hi hitem (ha.trans hattempt)
        (.inr hclaimed) (.inl hready)
      rw [hic, hready] at hclaimed
      cases hclaimed
    · exact hreclaimed a phase slot ⟨i, hi, ha, hiphase, hclaimed⟩ ho'

theorem working_finishItems {items : List PhaseItem} (hplan : PlanOrdered items)
    (hkeys : PlanKeys items) {c : PhaseItem} (hc : c ∈ items) (hclaimed : c.state = .claimed) (h : ∃ i ∈ finishItems c outcome now items,
      i.attempt = a ∧ i.phase = phase ∧ i.state = .claimed) :
    a ≠ c.attempt ∧ ∃ i ∈ items, i.attempt = a ∧ i.phase = phase ∧ i.state = .claimed := by
  have hcut := hplan.close hkeys hc hclaimed outcome.state outcome.detail
  have hnot : outcome.state ≠ .claimed := by
    cases outcome <;> intro heq <;> cases heq
  have hwoken := working_update (by intro _; exact ⟨rfl, rfl⟩)
    (by intro _ _ hclaimed; exact hclaimed) h
  have hclosed : ∃ i ∈ update (fun k => decide (k.id = c.id))
      (closeItem outcome.state outcome.detail) items,
      i.attempt = a ∧ i.phase = phase ∧ i.state = .claimed := by
    cases outcome with
    | completed =>
      exact working_update (by intro _; exact ⟨rfl, rfl⟩) (by intro _ _ hclaimed; cases hclaimed)
        hwoken
    | failed detail => exact working_cancelDependants hwoken
  refine ⟨?_, working_close hnot hclosed⟩
  rintro rfl
  rcases hclosed with ⟨i, hi, ha, _, hi'⟩
  rcases Nat.lt_trichotomy i.sequence c.sequence with hlt | heq | hgt
  · rw [hcut.before i hi ha hlt] at hi'
    cases hi'
  · exact hnot ((hcut.here i hi ha heq).symm.trans hi')
  · rw [hcut.after i hi ha hgt] at hi'
    cases hi'

theorem InPhase.finishPhaseWork (h : InPhase l) (hp : Planned l) (hok : finishPhaseWork l claim outcome now = .ok l') :
    InPhase l' := by
  rcases finishPhaseWork_ok hok with ⟨c, hc, hclaims, rfl⟩
  intro a phase slot hw ho
  rcases working_finishItems hp.plan hp.refs.planKeys hc (claimsItem_claimed hclaims).2 hw with
    ⟨hne, hw'⟩
  refine h a phase slot hw' ?_
  rcases exists_update.mp ho with ⟨r, hr, hra, hslot, hactive⟩
  by_cases hsel : (decide (r.attempt = c.attempt) && r.active) = true
  · rw [if_pos hsel] at hra
    have hr' : r.attempt = c.attempt := by
      simp only [Bool.and_eq_true, decide_eq_true_eq] at hsel
      exact hsel.1
    exact absurd (hra.symm.trans hr') hne
  · rw [if_neg hsel] at hra hslot hactive
    exact ⟨r, hr, hra, hslot, hactive⟩

end PortageEngine.Ledger
