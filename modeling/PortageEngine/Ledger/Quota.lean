import PortageEngine.Ledger.Bookkeeping
import PortageEngine.Ledger.Occupancy

/-!
# Project quotas

Every run keeps each project within its policy, as long as attempts report active states that match
the phase they are working on, and no claim straddles midnight UTC.
-/

namespace PortageEngine.Ledger

open List Library Library.Rows Library.Runs

variable {busy : Job → Bool} {l l' : Ledger} {policies : List Policy} {p : Policy}

/-! ## Limits on the tables -/

structure WithinLimits (l : Ledger) (p : Policy) : Prop where
  vcpus : reservedVCPUs l p.project ≤ p.maxVCPUs
  memory : reservedMemory l p.project ≤ p.maxMemoryMiB
  disk : reservedDisk l p.project ≤ p.maxDiskGiB
  attempts : reservedTotal l (fun _ => 1) p.project ≤ p.maxActiveJobs
  phases : ∀ phase limit, p.phaseLimit phase = some limit →
    phaseReservations l p.project phase ≤ limit
  seconds : ∀ day, dailySeconds l p.project day ≤ p.maxDailyBuildSeconds
  cost : ∀ day, dailyCost l p.project day ≤ p.maxDailyCloudCost

theorem withinLimits_empty :
    WithinLimits (empty policies) p := by
  constructor <;> intros <;> exact Nat.zero_le _

variable {phase : ReservationPhase} {attempt : AttemptId}

theorem ne_waiting_of_phaseLimit {limit : Nat} (h : p.phaseLimit phase = some limit) :
    phase ≠ .waiting := by
  rintro rfl
  cases h

theorem WithinLimits.lighter (h : WithinLimits l p) (hl : Lighter l l') : WithinLimits l' p where
  vcpus := (hl.reserved Reservation.vcpus p.project fun _ _ => rfl).trans h.vcpus
  memory := (hl.reserved Reservation.memoryMiB p.project fun _ _ => rfl).trans h.memory
  disk := (hl.reserved Reservation.diskGiB p.project fun _ _ => rfl).trans h.disk
  attempts := (hl.reserved (fun _ => 1) p.project fun _ _ => rfl).trans h.attempts
  phases := fun phase limit hlimit =>
    (hl.phases p.project phase (ne_waiting_of_phaseLimit hlimit)).trans (h.phases phase limit hlimit)
  seconds := fun day => (hl.seconds p.project day).trans (h.seconds day)
  cost := fun day => (hl.cost p.project day).trans (h.cost day)

theorem policy_limits (hlimits : l.policies.map Policy.limits = policies.map Policy.limits)
    (hkeyed : Keyed Policy.project policies) (hp : p ∈ policies) {q : Policy}
    (hq : l.policy? p.project = some q) : q.limits = p.limits := by
  have hproject : q.project = p.project := by simpa using find?_some hq
  have hmem : q.limits ∈ policies.map Policy.limits := by
    rw [← hlimits]
    exact mem_map.mpr ⟨q, mem_of_find?_eq_some hq, rfl⟩
  rcases mem_map.mp hmem with ⟨p', hp', heq⟩
  have hproject' : p'.project = p.project := by
    have := congrArg Policy.project heq
    exact this.trans hproject
  rw [← heq, hkeyed.eq hp' hp hproject']

theorem limits_eq {q : Policy} (h : q.limits = p.limits) :
    q.maxActiveJobs = p.maxActiveJobs ∧ q.maxClaimed = p.maxClaimed ∧ q.maxVCPUs = p.maxVCPUs ∧
      q.maxMemoryMiB = p.maxMemoryMiB ∧ q.maxDiskGiB = p.maxDiskGiB ∧
      q.maxDailyBuildSeconds = p.maxDailyBuildSeconds ∧
      q.maxDailyCloudCost = p.maxDailyCloudCost := by
  simp only [Policy.limits, Policy.mk.injEq] at h
  simp [h]

/-! ## Moving an attempt to another phase -/

/-- The reservations after an attempt has moved. -/
def moveTo (attempt : AttemptId) (phase : ReservationPhase) (rows : List Reservation) :
    List Reservation :=
  update (fun r => r.attempt = attempt && r.active && r.phase ≠ phase)
    (fun r => { r with phase := phase }) rows

variable {project : ProjectId} {phase' : ReservationPhase} {call : ClaimCall}
  {claim : Option PhaseClaim} {op : Op}

theorem reservedTotal_moveTo (hr : l'.reservations = moveTo attempt phase l.reservations)
    {weight : Reservation → Nat} (hw : Weight weight) :
    reservedTotal l' weight project ≤ reservedTotal l weight project := by
  unfold reservedTotal
  rw [hr]
  refine total_update_le ?_
  intro r _ _
  rw [hw]

theorem phaseReservations_moveTo_of_ne
    (hr : l'.reservations = moveTo attempt phase l.reservations) (hne : phase' ≠ phase) :
    phaseReservations l' project phase' ≤ phaseReservations l project phase' := by
  unfold phaseReservations Rows.count
  rw [hr]
  refine total_update_le ?_
  simp [Ne.symm hne]

theorem phaseReservations_moveTo (h : Keyed Reservation.attempt l.reservations)
    (hr : l'.reservations = moveTo attempt phase l.reservations) (project : ProjectId) :
    phaseReservations l' project phase ≤ phaseUsed l project phase attempt + 1 := by
  have hkeyed : Keyed Reservation.attempt l'.reservations := by
    rw [hr]
    exact h.update fun _ => rfl
  -- the attempt's own row is one; the others have not moved
  have hothers : count (fun r => (r.project = project && r.active && r.phase = phase) &&
      decide (r.attempt ≠ attempt)) l'.reservations ≤ phaseUsed l project phase attempt := by
    rw [hr]
    refine total_update_le ?_
    intro r _ hsel
    have hattempt : r.attempt = attempt := by
      simp only [Bool.and_eq_true, decide_eq_true_eq] at hsel
      exact hsel.1.1
    simp [hattempt]
  have hown : count (fun r => (r.project = project && r.active && r.phase = phase) &&
      !decide (r.attempt ≠ attempt)) l'.reservations ≤ 1 := by
    refine hkeyed.count_le_one (k := attempt) ?_
    intro r _ hsel
    simp only [Bool.and_eq_true, Bool.not_eq_true', decide_eq_false_iff_not, ne_eq,
      not_not] at hsel
    exact hsel.2
  have hsplit := @count_split Reservation
    (fun r => r.project = project && r.active && r.phase = phase) l'.reservations
    (fun r => decide (r.attempt ≠ attempt))
  unfold phaseReservations
  omega

theorem phaseReservations_moveTo_of_project {r : Reservation}
    (h : Keyed Reservation.attempt l.reservations) (hmem : r ∈ l.reservations)
    (hattempt : r.attempt = attempt) (hr : l'.reservations = moveTo attempt phase l.reservations) (hne : r.project ≠ project) :
    phaseReservations l' project phase' ≤ phaseReservations l project phase' := by
  unfold phaseReservations Rows.count
  rw [hr]
  refine total_update_le ?_
  intro x hx hsel
  have hxr : x = r := by
    simp only [Bool.and_eq_true, decide_eq_true_eq] at hsel
    exact h.eq hx hmem (hsel.1.1.trans hattempt.symm)
  simp [hxr, hne]

theorem policies_updateResourceReservationPhase {state : Status}
    (hok : updateResourceReservationPhase l attempt state = .ok l') : l'.policies = l.policies := by
  rcases updateResourceReservationPhase_frame hok with ⟨_, _, rfl⟩
  rfl

theorem WithinLimits.move (h : WithinLimits l p)
    (hrkeyed : Keyed Reservation.attempt l.reservations)
    (hlimits : l.policies.map Policy.limits = policies.map Policy.limits)
    (hkeyed : Keyed Policy.project policies) (hp : p ∈ policies) {state : Status}
    (hok : updateResourceReservationPhase l attempt state = .ok l') :
    WithinLimits l' p := by
  rcases updateResourceReservationPhase_ok hok with ⟨_, rfl⟩ | ⟨phase, r, q, _, hfind, hq, hcases⟩
  · exact h
  rcases hcases with ⟨_, rfl⟩ | ⟨_, hroom, hl'⟩
  · exact h
  have hr : l'.reservations = moveTo attempt phase l.reservations := by
    rw [hl']
    rfl
  have husages : l'.usages = l.usages := by rw [hl']
  have hmem := mem_of_find?_eq_some hfind
  have hattempt : r.attempt = attempt := by
    have := find?_some hfind
    simp only [Bool.and_eq_true, decide_eq_true_eq] at this
    exact this.1
  refine ⟨?_, ?_, ?_, ?_, ?_, ?_, ?_⟩
  · exact (reservedTotal_moveTo hr (by intro _ _; rfl)).trans h.vcpus
  · exact (reservedTotal_moveTo hr (by intro _ _; rfl)).trans h.memory
  · exact (reservedTotal_moveTo hr (by intro _ _; rfl)).trans h.disk
  · exact (reservedTotal_moveTo hr (by intro _ _; rfl)).trans h.attempts
  · intro phase' limit hlimit
    by_cases hsame : phase' = phase
    · subst hsame
      by_cases hproject : r.project = p.project
      · have hgained := phaseReservations_moveTo hrkeyed hr p.project
        have hq' : q.limits = p.limits :=
          policy_limits hlimits hkeyed hp (by rw [← hproject]; exact hq)
        have hqlimit : q.phaseLimit phase' = some limit := by
          have hphase : q.limits.phaseLimit phase' = p.limits.phaseLimit phase' := by rw [hq']
          have heq : ∀ x : Policy, x.limits.phaseLimit phase' = x.phaseLimit phase' := by
            intro x
            cases phase' <;> rfl
          rw [heq, heq] at hphase
          rw [hphase, hlimit]
        rw [hqlimit, hproject] at hroom
        have : phaseUsed l p.project phase' attempt < limit := hroom
        omega
      · exact (phaseReservations_moveTo_of_project hrkeyed hmem hattempt hr hproject).trans (h.phases phase' limit hlimit)
    · exact (phaseReservations_moveTo_of_ne hr hsame).trans
        (h.phases phase' limit hlimit)
  · intro day
    rw [dailySeconds, husages]
    exact h.seconds day
  · intro day
    rw [dailyCost, husages]
    exact h.cost day

/-! ## Starting an attempt -/

def Job.active (j : Job) : Bool :=
  isActiveState j.state && j.visible

theorem busy_active : Busy Job.active := by
  refine ⟨fun _ => rfl, ?_, ?_, ?_⟩
  · intro j snapshot _ hvisible
    simp [Job.active, claimJobRow, isActiveState, hvisible]
  · intro j hqueued
    simp [Job.active, hqueued, isActiveState]
  · intro j hended
    cases hstate : j.state <;> simp [Job.active, hstate, isActiveState, isLedgerTerminal] at hended ⊢

theorem reservations_le_activeJobs (h : Balanced Job.active l) {j : Job} (hj : j ∈ l.jobs)
    (hqueued : j.state = .queued) (project : ProjectId) :
    reservedTotal l (fun _ => 1) project ≤ activeJobs l project (some j.id) := by
  have hkeyed := h.refs.reservations_keyed
  have hholds : ∀ r ∈ l.reservations, r.active = true →
      (Ledger.custody Job.active l).holds .reservation r.attempt ∧ attemptOf l r.attempt r.job := by
    intro r hr hactive
    refine ⟨⟨r, hr, rfl, hactive⟩, attemptOf_iff.mpr ?_⟩
    exact (h.refs.reservations_held r.ref (mem_map.mpr ⟨r, hr, rfl⟩)).1
  refine @count_le_count Reservation Job JobId _ _ _ _ Reservation.job Job.id ?_ ?_
  · -- two active reservations of one job are of one attempt
    have hnodup : (l.reservations.filter fun r => r.project = project && r.active).Nodup :=
      (List.Nodup.of_map _ hkeyed).filter _
    refine hnodup.map_on ?_
    intro r hr r' hr' hjob
    rcases mem_filter.mp hr with ⟨hr, hsel⟩
    rcases mem_filter.mp hr' with ⟨hr', hsel'⟩
    simp only [Bool.and_eq_true, decide_eq_true_eq] at hsel hsel'
    rcases hholds r hr hsel.2 with ⟨hheld, hof⟩
    rcases hholds r' hr' hsel'.2 with ⟨hheld', hof'⟩
    have hattempt := h.custody.single .reservation r.attempt r'.attempt r.job hheld hheld' hof
      (hjob ▸ hof')
    exact hkeyed.eq hr hr' hattempt
  · intro r hr hsel
    simp only [Bool.and_eq_true, decide_eq_true_eq] at hsel
    rcases hholds r hr hsel.2 with ⟨hheld, hof⟩
    rcases h.custody.atWork .reservation r.attempt r.job hheld hof with ⟨x, hx, hid, hbusy⟩
    refine ⟨x, hx, ?_, hid⟩
    have hproject : x.project = project := by
      have hjob := (h.refs.reservations_held r.ref (mem_map.mpr ⟨r, hr, rfl⟩)).2
      rcases mem_map.mp hjob with ⟨y, hy, heq⟩
      have hyid : y.id = r.job := congrArg Prod.fst heq
      have hyproject : y.project = r.project := congrArg Prod.snd heq
      have hxy := h.refs.job_unique hx hy (hid.trans hyid.symm)
      rw [hxy, hyproject]
      exact hsel.1
    have hne : j.id ≠ x.id := by
      intro heq
      have hjx := h.refs.job_unique hj hx heq
      rw [← hjx, busy_active.queued j hqueued] at hbusy
      cases hbusy
    simp only [Job.active, Bool.and_eq_true] at hbusy
    simp [hproject, hne, hbusy.1, hbusy.2]

theorem WithinLimits.start (h : WithinLimits l p) (hb : Balanced Job.active l)
    (hlimits : l.policies.map Policy.limits = policies.map Policy.limits)
    (hkeyed : Keyed Policy.project policies) (hp : p ∈ policies) {j : Job}
    {charge : Charge} {attemptNo fence : Nat}
    (hstart : ClaimStarted l call j charge attemptNo fence)
    (hday : budgetDay call.admittedAt = budgetDay call.persistedAt) :
    WithinLimits (startAttempt l call j charge attemptNo fence) p := by
  by_cases hproject : j.project = p.project
  · rcases lockAndCheckClaimAdmission_admitted hstart.admitted with
      ⟨q, hq, hactive, hclaimed, hvcpus, hmemory, hdisk, hseconds, hcost⟩
    rw [hproject] at hq hactive hclaimed hvcpus hmemory hdisk hseconds hcost
    rcases limits_eq (policy_limits hlimits hkeyed hp hq) with
      ⟨hactiveMax, hclaimedMax, hvcpusMax, hmemoryMax, hdiskMax, hsecondsMax, hcostMax⟩
    have hqueued : j.state = .queued := by
      have hclaimable := hstart.isClaimable
      simp only [Ledger.claimable, Bool.and_eq_true, decide_eq_true_eq] at hclaimable
      exact hclaimable.1.1.1.1.1
    have hattempts := reservations_le_activeJobs hb hstart.mem hqueued p.project
    rw [hday] at hseconds hcost
    refine ⟨total_cons_le (fun _ => hvcpusMax ▸ hvcpus) h.vcpus,
      total_cons_le (fun _ => hmemoryMax ▸ hmemory) h.memory,
      total_cons_le (fun _ => hdiskMax ▸ hdisk) h.disk,
      total_cons_le (fun _ => hactiveMax ▸ Nat.lt_of_le_of_lt hattempts hactive) h.attempts,
      ?_, ?_, ?_⟩
    · intro phase limit hlimit
      refine total_cons_le (fun hsel => ?_) (h.phases phase limit hlimit)
      simp only [Bool.and_eq_true, decide_eq_true_eq] at hsel
      rw [← hsel.2] at hlimit ⊢
      exact Option.some.inj hlimit ▸ hclaimedMax ▸ hclaimed
    · intro day
      refine total_cons_le (fun hsel => ?_) (h.seconds day)
      simp only [Bool.and_eq_true, decide_eq_true_eq] at hsel
      rw [← hsel.2, ← hsecondsMax]
      exact hseconds
    · intro day
      refine total_cons_le (fun hsel => ?_) (h.cost day)
      simp only [Bool.and_eq_true, decide_eq_true_eq] at hsel
      rw [← hsel.2, ← hcostMax]
      exact hcost
  · -- another project's rows do not count
    exact ⟨total_cons_le (by simp [hproject]) h.vcpus, total_cons_le (by simp [hproject]) h.memory,
      total_cons_le (by simp [hproject]) h.disk, total_cons_le (by simp [hproject]) h.attempts,
      fun phase limit hlimit => total_cons_le (by simp [hproject]) (h.phases phase limit hlimit),
      fun day => total_cons_le (by simp [hproject]) (h.seconds day),
      fun day => total_cons_le (by simp [hproject]) (h.cost day)⟩

/-! ## Transactions -/

/-- The policies are those of the start, every project is within its own, and attempts work in the
phase they occupy. -/
structure Within (policies : List Policy) (l : Ledger) : Prop where
  limits : l.policies.map Policy.limits = policies.map Policy.limits
  within : ∀ p ∈ policies, WithinLimits l p
  inPhase : InPhase l

theorem within_empty : Within policies (empty policies) :=
  ⟨rfl, fun _ _ => withinLimits_empty, inPhase_empty⟩

theorem Within.lighter (h : Within policies l) (hl : Lighter l l') (hin : InPhase l') :
    Within policies l' :=
  ⟨hl.limits.trans h.limits, fun p hp => (h.within p hp).lighter hl, hin⟩

theorem Within.eases (h : Within policies l) (he : Eases l l') : Within policies l' :=
  h.lighter he.toLighter (h.inPhase.eases he)

theorem Within.claimNext (h : Within policies l) (hb : Balanced Job.active l)
    (hkeyed : Keyed Policy.project policies) {claim : Option SchedulerClaim}
    (hday : budgetDay call.admittedAt = budgetDay call.persistedAt)
    (hok : claimNext l call = .ok (l', claim)) : Within policies l' := by
  have hrecovered := h.eases
    (eases_recoverExpired l call.recoveredAt call.locked schedulerRecoveryBatch)
  have hbalanced := hb.recoverExpired call.recoveredAt call.locked schedulerRecoveryBatch
  rcases claimNextTx_ok (claimNext_ok hok) with
    ⟨rfl, _⟩ | ⟨job, retryAt, rfl, _⟩ | ⟨j, charge, attemptNo, fence, hstart, rfl, _⟩
  · exact hrecovered
  · exact hrecovered.eases (eases_of_same rfl rfl rfl rfl)
  · refine ⟨hrecovered.limits, ?_, hrecovered.inPhase.start hbalanced.planned hstart⟩
    intro p hp
    exact (hrecovered.within p hp).start hbalanced hrecovered.limits hkeyed hp hstart hday

theorem Within.recordTransition (h : Within policies l) (hb : Balanced Job.active l)
    (hkeyed : Keyed Policy.project policies) {previous : Option BuildStatus} {current : BuildStatus}
    {now : Time} {fresh : AttemptId} (hattempt : current.attemptId = some attempt)
    (hmatches : ∀ phase slot, working l attempt phase →
      reservationPhase current.status = some slot → slot = phase.reservation)
    (hok : recordTransition l previous current now fresh = .ok l') : Within policies l' := by
  rcases eases_recordTransition hattempt hok with he | ⟨l₁, he, hitems, hreservations, hmove⟩
  · exact h.eases he
  have hbefore := h.eases he
  have hrkeyed : Keyed Reservation.attempt l₁.reservations := by
    rw [hreservations]
    exact hb.refs.reservations_keyed
  refine ⟨?_, ?_, hbefore.inPhase.move hrkeyed ?_ hmove⟩
  · rw [policies_updateResourceReservationPhase hmove]
    exact hbefore.limits
  · intro p hp
    exact (hbefore.within p hp).move hrkeyed hbefore.limits hkeyed hp hmove
  · intro phase slot hw
    unfold working at hw
    rw [hitems] at hw
    exact hmatches phase slot hw

theorem Within.claimPhaseWork (h : Within policies l) (hb : Balanced Job.active l)
    (hkeyed : Keyed Policy.project policies) {call : PhaseCall}
    (hok : claimPhaseWork l call = .ok (l', claim)) : Within policies l' := by
  have hin := h.inPhase.claimPhaseWork hb.planned hok
  have hreclaimed := h.eases (eases_reclaimExpired l call.now)
  rcases claimPhaseWork_ok hok with ⟨rfl, _⟩ | ⟨item, at_, _, rfl⟩ |
    ⟨call', c, l₁, _, hphase, rfl, _⟩
  · exact hreclaimed
  · exact h.lighter (lighter_of_same rfl rfl rfl) hin
  have hreservations : Keyed Reservation.attempt (reclaimExpired l call.now).reservations :=
    hb.refs.reservations_keyed
  have htaken : Lighter l₁ { l₁ with
      items := update (fun i => i.id = c.item.id && i.state = .ready) (takeItem call') l₁.items } :=
    lighter_of_same rfl rfl rfl
  refine ⟨?_, ?_, hin⟩
  · rw [policies_updateResourceReservationPhase hphase]
    exact h.limits
  · intro p hp
    exact ((hreclaimed.within p hp).move hreservations h.limits hkeyed hp hphase).lighter htaken

/-! ## Runs -/

/-- What a transaction must respect for the quotas: a claim is persisted on the day it was admitted,
and an attempt reports an active state, in the phase of the item it works on. -/
def Op.Accountable (l : Ledger) : Op → Prop
  | .claim call => budgetDay call.admittedAt = budgetDay call.persistedAt
  | .record _ current _ _ => isLedgerTerminal current.status = true ∨
      (isActiveState current.status = true ∧
        ∀ i ∈ l.items, current.attemptId = some i.attempt → i.state = .claimed →
          reservationPhase current.status = some i.phase.reservation)
  | _ => True

instance (l : Ledger) : (op : Op) → Decidable (op.Accountable l)
  | .claim _ => inferInstanceAs (Decidable (_ = _))
  | .record _ _ _ _ => inferInstanceAs (Decidable (_ ∨ _))
  | .create _ | .renew _ _ _ | .recover _ _ _ | .cancel _ _ _ | .retry _ _ _ | .activate _ _
  | .claimPhase _ | .renewPhase _ _ _ | .finishPhase _ _ _ | .finalize _ _ _ _ _
  | .failPhase _ _ _ _ _ | .artifactBudget _ _ | .setGeneration _ _ _ _ | .releaseGeneration _ _ _
  | .releaseBudget _ _ => isTrue trivial

theorem Op.respects_active (hfenced : op.Fenced) (h : op.Accountable l) :
    op.Respects Job.active := by
  cases op with
  | record previous current now fresh =>
    refine ⟨hfenced current rfl, ?_⟩
    intro hterminal j hj
    rcases h with hended | ⟨hactive, _⟩
    · rw [hended] at hterminal
      cases hterminal
    have hvisible : j.visible = true := by
      simp only [Job.active, Bool.and_eq_true] at hj
      exact hj.2
    simp [Job.active, reportJobRow, hactive, hvisible]
  | _ => trivial

theorem Within.run (h : Within policies l) (hb : Balanced Job.active l)
    (hkeyed : Keyed Policy.project policies)
    (hfenced : op.Fenced) (hop : op.Accountable l) (hok : op.run l = .ok (l', claim)) :
    Within policies l' := by
  cases op.commits hok with
  | create call hk =>
    rcases createJob_ok hk with rfl | ⟨_, ⟨_, rfl⟩ | ⟨_, rfl⟩⟩
    · exact h
    · exact h.eases (eases_of_same rfl rfl rfl rfl)
    rcases upsertAttemptSnapshot_eq { l with jobs := newJob call :: l.jobs } call.status
      call.fresh with ⟨attempts, heq⟩
    rw [heq]
    exact h.eases (eases_of_same rfl rfl rfl rfl)
  | claim call c hk =>
    exact h.claimNext hb hkeyed hop hk
  | renew status leaseDuration now hk =>
    rcases renewClaim_ok hk with ⟨_, _, _, _, rfl⟩
    exact h.eases (eases_of_same rfl rfl rfl rfl)
  | record previous current now fresh hk =>
    rcases Option.isSome_iff_exists.mp (hfenced current rfl) with ⟨attempt, hattempt⟩
    refine h.recordTransition hb hkeyed hattempt ?_ hk
    rintro phase slot ⟨i, hi, ha, rfl, hclaimed⟩ hslot
    rcases hop with hended | ⟨_, hmatches⟩
    · cases hstatus : current.status <;> simp [hstatus, isLedgerTerminal, reservationPhase] at hended hslot
    · have hphase := hmatches i hi (by rw [hattempt, ha]) hclaimed
      exact Option.some.inj (hslot.symm.trans hphase)
  | recover now locked limit => exact h.eases (eases_recoverExpired l now locked limit)
  | cancel job reason now status hk => exact h.eases (eases_cancelJob hk)
  | retry job counted now status hk =>
    rcases retryJob_ok hk with ⟨_, _, _, _, _, rfl, _⟩
    exact h.eases (eases_of_same rfl rfl rfl rfl)
  | activate status now hk => exact h.eases (eases_activatePhasePlan hk)
  | claimPhase call hk => exact h.claimPhaseWork hb hkeyed hk
  | renewPhase c lease now hk => exact h.eases (eases_renewPhaseWork hk)
  | finishPhase c outcome now hk =>
    exact h.lighter (lighter_finishPhaseWork hk) (h.inPhase.finishPhaseWork hb.planned hk)
  | finalize c previous completed now at_ hk => exact h.eases (eases_finalizePhaseWork hk)
  | failPhase c previous detail now at_ hk => exact h.eases (eases_failPhaseWorkAndJob hk)
  | budget hk =>
    rcases hk.frame with ⟨budgets, generations, rfl⟩
    exact h.eases (eases_of_same rfl rfl rfl rfl)

structure QuotaInv (policies : List Policy) (s : System) : Prop where
  inv : Inv Job.active s
  within : Within policies s.ledger

theorem quotaInv_init : QuotaInv policies (System.init policies) :=
  ⟨inv_init busy_active policies, within_empty⟩

theorem QuotaInv.step {s : System} (h : QuotaInv policies s)
    (hkeyed : Keyed Policy.project policies) (hfenced : op.Fenced)
    (hop : op.Accountable s.ledger) : QuotaInv policies (step s op) := by
  refine ⟨h.inv.step (op.respects_active hfenced hop), ?_⟩
  rcases step_cases s op with heq | ⟨l, claim, hok, _, heq⟩
  · rw [heq]
    exact h.within
  · rw [heq]
    exact h.within.run h.inv.balanced hkeyed hfenced hop hok

/-! ## What the limits bound -/

/-- Attempts of the project that hold a lease. -/
def activeAttempts (l : Ledger) (project : ProjectId) : Nat :=
  count (fun a => l.leases.any (fun x => x.attempt = a.id) &&
    l.jobs.any fun j => j.id = a.job && j.project = project) l.attempts

def claimedPhases (l : Ledger) (project : ProjectId) : Nat :=
  count (fun i => i.project = project && i.state = .claimed) l.items

/-- Claimed phase items of the project in one phase. -/
def claimedIn (l : Ledger) (project : ProjectId) (phase : Phase) : Nat :=
  count (fun i => i.project = project && i.state = .claimed && i.phase = phase) l.items

structure WithinQuota (l : Ledger) (p : Policy) : Prop where
  vcpus : reservedVCPUs l p.project ≤ p.maxVCPUs
  memory : reservedMemory l p.project ≤ p.maxMemoryMiB
  disk : reservedDisk l p.project ≤ p.maxDiskGiB
  attempts : activeAttempts l p.project ≤ p.maxActiveJobs
  phases : claimedPhases l p.project ≤ p.maxActiveJobs
  reservations : ∀ phase limit, p.phaseLimit phase = some limit →
    phaseReservations l p.project phase ≤ limit
  phase : ∀ phase limit, p.phaseLimit phase.reservation = some limit →
    claimedIn l p.project phase ≤ limit
  seconds : ∀ day, dailySeconds l p.project day ≤ p.maxDailyBuildSeconds
  cost : ∀ day, dailyCost l p.project day ≤ p.maxDailyCloudCost

theorem reservation_of_leased (h : Balanced busy l) {a : AttemptId} {j : JobId} (ha : leased l a) (haj : attemptOf l a j)
    (hj : (j, project) ∈ l.refs.jobs) :
    ∃ r ∈ l.reservations, r.attempt = a ∧ r.project = project ∧ r.active = true := by
  rcases h.custody.together .lease .reservation a ha with ⟨r, hr, hra, hactive⟩
  have hheld := h.refs.reservations_held r.ref (mem_map.mpr ⟨r, hr, rfl⟩)
  have hjob : r.job = j := by
    refine h.refs.attemptOf_unique (attemptOf_iff.mpr ?_) haj
    rw [← hra]
    exact hheld.1
  have hproject := h.refs.jobs.eq hheld.2 hj hjob
  exact ⟨r, hr, hra, (Prod.ext_iff.mp hproject).2, hactive⟩

theorem activeAttempts_le (h : Balanced busy l) :
    activeAttempts l project ≤ reservedTotal l (fun _ => 1) project := by
  have hids : Keyed Attempt.id l.attempts := by
    simpa [Keyed, Ledger.refs, Function.comp_def] using h.refs.attempts
  refine @count_le_count Attempt Reservation AttemptId _ _ _ _ Attempt.id Reservation.attempt ?_ ?_
  · exact List.Nodup.sublist (filter_sublist.map _) hids
  intro a ha hsel
  simp only [Bool.and_eq_true, any_eq_true, decide_eq_true_eq] at hsel
  rcases hsel with ⟨⟨x, hx, hxa⟩, j, hj, hid, hproject⟩
  have hjob : (a.job, project) ∈ l.refs.jobs :=
    mem_map.mpr ⟨j, hj, by rw [hid, hproject]⟩
  rcases reservation_of_leased h ⟨x, hx, hxa⟩ ⟨a, ha, rfl, rfl⟩ hjob with
    ⟨r, hr, hra, hrproject, hactive⟩
  exact ⟨r, hr, by simp [hrproject, hactive], hra⟩

theorem reservation_of_claimed (h : Balanced busy l) {i : PhaseItem} (hi : i ∈ l.items)
    (hclaimed : i.state = .claimed) :
    ∃ r ∈ l.reservations, r.attempt = i.attempt ∧ r.project = i.project ∧ r.active = true := by
  have hheld := h.refs.items_held i.ref (mem_map.mpr ⟨i, hi, rfl⟩)
  have huse : (Ledger.custody busy l).uses .phaseItem i.attempt :=
    ⟨i, hi, rfl, by rw [hclaimed]; rfl⟩
  exact reservation_of_leased h (h.custody.within .phaseItem .lease i.attempt huse)
    (attemptOf_iff.mpr hheld.1) hheld.2

theorem claimed_attempts_nodup (h : Balanced busy l) {sel : PhaseItem → Bool}
    (hsel : ∀ i, sel i = true → i.state = .claimed) :
    ((l.items.filter sel).map PhaseItem.attempt).Nodup := by
  have hids : Keyed PhaseItem.id l.items := by
    simpa [Keyed, Ledger.refs, Function.comp_def, PhaseItem.ref] using h.refs.items
  have hnodup : (l.items.filter sel).Nodup := (List.Nodup.of_map _ hids).filter _
  refine hnodup.map_on ?_
  intro i hi k hk hattempt
  rcases mem_filter.mp hi with ⟨hi, hi'⟩
  rcases mem_filter.mp hk with ⟨hk, hk'⟩
  exact h.plan.running_unique h.refs.planKeys hi hk hattempt (.inr (hsel i hi')) (.inr (hsel k hk'))

theorem claimedPhases_le (h : Balanced busy l) :
    claimedPhases l project ≤ reservedTotal l (fun _ => 1) project := by
  refine @count_le_count PhaseItem Reservation AttemptId _ _ _ _ PhaseItem.attempt
    Reservation.attempt (claimed_attempts_nodup h ?_) ?_
  · intro i hsel
    simp only [Bool.and_eq_true, decide_eq_true_eq] at hsel
    exact hsel.2
  · intro i hi hsel
    simp only [Bool.and_eq_true, decide_eq_true_eq] at hsel
    rcases reservation_of_claimed h hi hsel.2 with ⟨r, hr, hra, hproject, hactive⟩
    exact ⟨r, hr, by simp [hproject, hsel.1, hactive], hra⟩

theorem claimedIn_le (h : Balanced busy l) (hin : InPhase l) {phase : Phase} :
    claimedIn l project phase ≤ phaseReservations l project phase.reservation := by
  refine @count_le_count PhaseItem Reservation AttemptId _ _ _ _ PhaseItem.attempt
    Reservation.attempt (claimed_attempts_nodup h ?_) ?_
  · intro i hsel
    simp only [Bool.and_eq_true, decide_eq_true_eq] at hsel
    exact hsel.1.2
  · intro i hi hsel
    simp only [Bool.and_eq_true, decide_eq_true_eq] at hsel
    rcases hsel with ⟨⟨hproject, hclaimed⟩, rfl⟩
    rcases reservation_of_claimed h hi hclaimed with ⟨r, hr, hra, hrproject, hactive⟩
    have hslot := hin i.attempt i.phase r.phase ⟨i, hi, rfl, rfl, hclaimed⟩
      ⟨r, hr, hra, rfl, hactive⟩
    exact ⟨r, hr, by simp [hrproject, hproject, hactive, hslot], hra⟩

theorem QuotaInv.withinQuota {s : System} (h : QuotaInv policies s) (hp : p ∈ policies) :
    WithinQuota s.ledger p := by
  have hlimits := h.within.within p hp
  have hb := h.inv.balanced
  exact ⟨hlimits.vcpus, hlimits.memory, hlimits.disk,
    (activeAttempts_le hb).trans hlimits.attempts,
    (claimedPhases_le hb).trans hlimits.attempts, hlimits.phases,
    fun phase limit hlimit => (claimedIn_le hb h.within.inPhase).trans
      (hlimits.phases phase.reservation limit hlimit),
    hlimits.seconds, hlimits.cost⟩

/-- With the policies fixed, every run of fenced and accountable operations keeps every project
within its policy. -/
theorem quota_of_run (policies : List Policy) (hkeyed : Keyed Policy.project policies)
    (ops : List Op) (hfenced : ∀ op ∈ ops, op.Fenced)
    (hops : Along step (fun s op => op.Accountable s.ledger) (System.init policies) ops) :
    ∀ p ∈ policies, WithinQuota (run step (System.init policies) ops).ledger p := by
  have hstep : ∀ s op, QuotaInv policies s → op.Fenced ∧ op.Accountable s.ledger →
      QuotaInv policies (step s op) := fun s op hs hop => hs.step hkeyed hop.1 hop.2
  have halong := (along_of_forall hfenced).and hops
  intro p hp
  exact (run_invariant hstep (quotaInv_init) halong).withinQuota hp

/-- A job is claimed, cut over to its phase plan, and its first phase claimed and reported on. -/
def phaseRun : List Op :=
  [exampleCreate 1 0, exampleClaim 1 1 0, .activate (exampleStatus 1 1 .claimed 1) 1,
    .claimPhase { owner := "executor", lease := 1000000, item := 110, now := 2 },
    .record none (exampleStatus 1 1 .deploying 3) 3 0]

theorem quota_provisioning :
    claimedIn (run step (System.init [examplePolicy]) phaseRun).ledger 1 .provision = 1 ∧
      ∀ p ∈ [examplePolicy], WithinQuota (run step (System.init [examplePolicy]) phaseRun).ledger p := by
  refine ⟨by decide, quota_of_run [examplePolicy] (nodup_singleton _) phaseRun ?_ (by decide)⟩
  intro op hop current hreports
  simp only [phaseRun, mem_cons, not_mem_nil, or_false] at hop
  rcases hop with rfl | rfl | rfl | rfl | rfl <;> cases hreports
  rfl

/-- A project that may have one active build. -/
def singleBuildPolicy : Policy :=
  { examplePolicy with maxActiveJobs := 1 }

/-- The first build reports its builder's status `queued`, so a second one is admitted. -/
def hiddenRun : List Op :=
  [exampleCreate 1 0, exampleCreate 2 0, exampleClaim 1 1 0,
    .record none (exampleStatus 1 1 .queued 1) 1 0, exampleClaim 2 2 2]

theorem hidden_attempt_exceeds_quota :
    (∀ op ∈ hiddenRun, op.Fenced) ∧
      ¬ WithinQuota (run step (System.init [singleBuildPolicy]) hiddenRun).ledger
        singleBuildPolicy := by
  constructor
  · intro op hop current hreports
    simp only [hiddenRun, mem_cons, not_mem_nil, or_false] at hop
    rcases hop with rfl | rfl | rfl | rfl | rfl <;> cases hreports
    rfl
  · intro h
    have hattempts : activeAttempts (run step (System.init [singleBuildPolicy]) hiddenRun).ledger 1
        = 2 := by decide
    have hle := h.attempts
    exact absurd (hattempts.symm.trans_le hle) (by decide)

end PortageEngine.Ledger
