import PortageEngine.Ledger.Holdings
import PortageEngine.Ledger.Plan
import PortageEngine.Ledger.System

/-!
# Phase plans stay in order

`Planned` is what every transaction keeps, whatever the attempts report: sound references and phase
plans in order.  `Advances` adds that the items stay where they are and that no claim fence falls.
-/

namespace PortageEngine.Ledger

open List Library Library.Rows

variable {l l' : Ledger} {s : Refs} {r : HeldRef} {k : PhaseItem} {a attempt fresh : AttemptId}
  {job : JobId} {now at_ : Time} {state : Status} {detail : String} {current : BuildStatus}

/-! ## Keys of the plan -/

theorem Refs.Sound.planKeys (h : l.refs.Sound) : PlanKeys l.items := by
  have hkeyed : Keyed PhaseItem.id l.items := by
    simpa [Keyed, Ledger.refs, Function.comp_def, PhaseItem.ref] using h.items
  have hmem : ∀ {i : PhaseItem}, i ∈ l.items → i.ref ∈ l.refs.items := by
    intro i hi
    exact mem_map.mpr ⟨i, hi, rfl⟩
  refine ⟨fun i hi k hk => hkeyed.eq hi hk, ?_⟩
  intro i hi k hk hattempt hsequence
  have hphase : i.phase = k.phase := by
    have hi' : i.sequence = phaseSequence i.phase := h.items_position _ (hmem hi)
    have hk' : k.sequence = phaseSequence k.phase := h.items_position _ (hmem hk)
    have heq : phaseSequence i.phase = phaseSequence k.phase := by omega
    revert heq
    cases i.phase <;> cases k.phase <;> simp [phaseSequence]
  have href : i.ref = k.ref := h.items_phase _ (hmem hi) _ (hmem hk) hattempt hphase
  exact hkeyed.eq hi hk (congrArg ItemRef.id href)

variable {i : PhaseItem} {claim : PhaseClaim} {call : ClaimCall} {f : PhaseItem → PhaseItem}
  {p : PhaseItem → Bool}

theorem Refs.Sound.items_job (h : l.refs.Sound) (hi : i ∈ l.items)
    (hk : k ∈ l.items) (hattempt : i.attempt = k.attempt) : i.job = k.job := by
  have hi' := (h.items_held i.ref (mem_map.mpr ⟨i, hi, rfl⟩)).1
  have hk' := (h.items_held k.ref (mem_map.mpr ⟨k, hk, rfl⟩)).1
  have heq : (i.attempt, i.job) = (k.attempt, k.job) := h.attempts.eq hi' hk' hattempt
  exact (Prod.ext_iff.mp heq).2

theorem Refs.Sound.claimed_row (h : l.refs.Sound)
    (hissued : claim.ref ∈ l.refs.items) (hi : i ∈ l.items) (hid : i.id = claim.id) :
    i.ref = claim.ref := by
  have hmem : i.ref ∈ l.refs.items := mem_map.mpr ⟨i, hi, rfl⟩
  exact h.items.eq hmem hissued hid

theorem claimsItem_claimed (h : claimsItem claim i = true) :
    i.id = claim.id ∧ i.state = .claimed := by
  simp only [claimsItem, Bool.and_eq_true, decide_eq_true_eq] at h
  exact h.1.1

/-! ## Inserting rows -/

theorem Refs.Sound.grow (h : s.Sound) {jobs : List (JobId × ProjectId)}
    {attempts : List (AttemptId × JobId)} (hjobs : Keyed Prod.fst jobs)
    (hattempts : Keyed Prod.fst attempts) (hjobsSub : s.jobs ⊆ jobs)
    (hattemptsSub : s.attempts ⊆ attempts) (hjob : ∀ a ∈ attempts, ∃ j ∈ jobs, j.1 = a.2) :
    { s with jobs := jobs, attempts := attempts }.Sound := by
  have hheld : ∀ r, s.Held r → Refs.Held { s with jobs := jobs, attempts := attempts } r :=
    fun r hr => ⟨hattemptsSub hr.1, hjobsSub hr.2⟩
  exact ⟨hjobs, hattempts, hjob, h.reservations, fun r hr => hheld r (h.reservations_held r hr),
    h.usages, fun u hu => hheld u (h.usages_held u hu),
    fun b hb => hheld b (h.budgets_held b hb), h.items, fun i hi => hheld _ (h.items_held i hi),
    h.items_position, h.items_phase⟩

theorem Refs.Sound.insertJob (h : s.Sound) {j : JobId × ProjectId} (hnew : ∀ x ∈ s.jobs, x.1 ≠ j.1) :
    { s with jobs := j :: s.jobs }.Sound := by
  refine h.grow (h.jobs.cons hnew) h.attempts (subset_cons_self _ _) (fun _ => id) ?_
  intro a ha
  rcases h.attempts_job a ha with ⟨x, hx, heq⟩
  exact ⟨x, mem_cons_of_mem _ hx, heq⟩

theorem Refs.Sound.insertAttempt (h : s.Sound) {a : AttemptId × JobId}
    (hnew : ∀ x ∈ s.attempts, x.1 ≠ a.1) (hjob : ∃ j ∈ s.jobs, j.1 = a.2) :
    { s with attempts := a :: s.attempts }.Sound :=
  h.grow h.jobs (h.attempts.cons hnew) (fun _ => id) (subset_cons_self _ _)
    (forall_mem_cons.mpr ⟨hjob, h.attempts_job⟩)

theorem Refs.Sound.upsertAttemptSnapshot (h : l.refs.Sound) (hnew : ∀ a ∈ l.attempts, a.id ≠ fresh)
    (hjob : ∃ j ∈ l.jobs, j.id = current.jobId) :
    (upsertAttemptSnapshot l current fresh).refs.Sound := by
  unfold Ledger.upsertAttemptSnapshot
  by_cases hknown : (l.attempts.any fun a => a.job = current.jobId && a.attemptNo = 1) = true
  · simp only [hknown, if_true]
    refine (congrArg Refs.Sound ?_).mpr h
    unfold Ledger.refs
    congr 1
    exact map_update fun _ => rfl
  · simp only [hknown, Bool.false_eq_true, if_false]
    refine h.insertAttempt ?_ ?_
    · intro x hx
      rcases mem_map.mp hx with ⟨y, hy, rfl⟩
      exact hnew y hy
    · rcases hjob with ⟨j, hj, hid⟩
      exact ⟨(j.id, j.project), mem_map.mpr ⟨j, hj, rfl⟩, hid⟩

theorem freshIds_spec (h : freshIds l call = true) :
    (∀ a ∈ l.attempts, a.id ≠ call.attempt) ∧
      (Phase.all.map call.items).Nodup ∧
      ∀ i ∈ l.items, ∀ phase, i.id ≠ call.items phase := by
  simp only [freshIds, Bool.and_eq_true, Bool.not_eq_true', any_eq_false, decide_eq_true_eq]
    at h
  refine ⟨h.1.1, h.1.2, ?_⟩
  intro i hi phase heq
  refine h.2 i hi (any_eq_true.mpr ⟨phase, ?_, by simpa using heq⟩)
  cases phase <;> simp [Phase.all]

variable {j : Job} {charge : Charge} {status : StoredStatus} {outcome : PhaseOutcome}

theorem mem_phaseWorkPlan :
    i ∈ phaseWorkPlan call j ↔ ∃ phase, i = plannedItem call j phase := by
  constructor
  · intro hi
    rcases mem_map.mp hi with ⟨phase, _, rfl⟩
    exact ⟨phase, rfl⟩
  · rintro ⟨phase, rfl⟩
    refine mem_map.mpr ⟨phase, ?_, rfl⟩
    cases phase <;> simp [Phase.all]

theorem refs_startAttempt
    {attemptNo fence : Nat} :
    (startAttempt l call j charge attemptNo fence).refs = {
      jobs := l.refs.jobs
      attempts := (call.attempt, j.id) :: l.refs.attempts
      reservations := ⟨call.attempt, j.id, j.project⟩ :: l.refs.reservations
      usages := ⟨call.attempt, j.id, j.project⟩ :: l.refs.usages
      budgets := l.refs.budgets
      items := (phaseWorkPlan call j).map PhaseItem.ref ++ l.refs.items } := by
  unfold refs
  congr 1
  exact map_update fun _ => rfl

theorem Refs.Sound.fresh_attempt (h : s.Sound) (hnew : ∀ x ∈ s.attempts, x.1 ≠ a) :
    (∀ r ∈ s.reservations, r.attempt ≠ a) ∧ (∀ u ∈ s.usages, u.attempt ≠ a) ∧
      ∀ i ∈ s.items, i.attempt ≠ a := by
  refine ⟨?_, ?_, ?_⟩
  · intro r hr
    exact hnew _ (h.reservations_held r hr).1
  · intro u hu
    exact hnew _ (h.usages_held u hu).1
  · intro i hi
    exact hnew _ (h.items_held i hi).1

theorem Refs.Sound.startAttempt (h : l.refs.Sound) (hj : j ∈ l.jobs)
    (hfresh : freshIds l call = true) (charge : Charge) (attemptNo fence : Nat) :
    (startAttempt l call j charge attemptNo fence).refs.Sound := by
  rcases freshIds_spec hfresh with ⟨hattempt, hnodup, hitem⟩
  have hnew : ∀ x ∈ l.refs.attempts, x.1 ≠ call.attempt := by
    intro x hx
    rcases mem_map.mp hx with ⟨a, ha, rfl⟩
    exact hattempt a ha
  rcases h.fresh_attempt hnew with ⟨hreservation, husage, hplan⟩
  have hjob : (j.id, j.project) ∈ l.refs.jobs := mem_map.mpr ⟨j, hj, rfl⟩
  have hbase := h.insertAttempt (a := (call.attempt, j.id)) hnew ⟨(j.id, j.project), hjob, rfl⟩
  -- the rows of the new attempt name its job and project
  have hheld : Refs.Held { l.refs with attempts := (call.attempt, j.id) :: l.refs.attempts }
      ⟨call.attempt, j.id, j.project⟩ := ⟨by simp, hjob⟩
  have hplanned : ∀ i ∈ (phaseWorkPlan call j).map PhaseItem.ref,
      ∃ phase, i = (plannedItem call j phase).ref := by
    intro i hi
    rcases mem_map.mp hi with ⟨k, hk, rfl⟩
    rcases mem_phaseWorkPlan.mp hk with ⟨phase, rfl⟩
    exact ⟨phase, rfl⟩
  rw [refs_startAttempt]
  refine ⟨hbase.jobs, hbase.attempts, hbase.attempts_job, h.reservations.cons hreservation, ?_,
    h.usages.cons husage, ?_, hbase.budgets_held, ?_, ?_, ?_, ?_⟩
  · intro r hr
    rcases mem_cons.mp hr with rfl | hr
    · exact hheld
    · exact hbase.reservations_held r hr
  · intro u hu
    rcases mem_cons.mp hu with rfl | hu
    · exact hheld
    · exact hbase.usages_held u hu
  · unfold Keyed
    rw [map_append]
    refine nodup_append.mpr ⟨hnodup, h.items, ?_⟩
    intro a ha b hb hab
    rcases mem_map.mp ha with ⟨i, hi, rfl⟩
    rcases hplanned i hi with ⟨phase, rfl⟩
    rcases mem_map.mp hb with ⟨r, hr, rfl⟩
    rcases mem_map.mp hr with ⟨k, hk, rfl⟩
    exact hitem k hk phase hab.symm
  · intro i hi
    rcases mem_append.mp hi with hi | hi
    · rcases hplanned i hi with ⟨phase, rfl⟩
      exact hheld
    · exact hbase.items_held i hi
  · intro i hi
    rcases mem_append.mp hi with hi | hi
    · rcases hplanned i hi with ⟨phase, rfl⟩
      rfl
    · exact h.items_position i hi
  · intro i hi k hk hsame hphase
    rcases mem_append.mp hi with hi | hi <;> rcases mem_append.mp hk with hk | hk
    · rcases hplanned i hi with ⟨phase, rfl⟩
      rcases hplanned k hk with ⟨phase', rfl⟩
      have : phase = phase' := hphase
      rw [this]
    · rcases hplanned i hi with ⟨phase, rfl⟩
      exact absurd hsame.symm (hplan k hk)
    · rcases hplanned k hk with ⟨phase, rfl⟩
      exact absurd hsame (hplan i hi)
    · exact h.items_phase i hi k hk hsame hphase

theorem PlanOrdered.startAttempt (h : PlanOrdered l.items)
    (hnew : ∀ i ∈ l.items, i.attempt ≠ call.attempt) :
    PlanOrdered (phaseWorkPlan call j ++ l.items) := by
  intro i hi k hk hsame hlt
  rcases mem_append.mp hi with hi | hi <;> rcases mem_append.mp hk with hk | hk
  · rcases mem_phaseWorkPlan.mp hi with ⟨phase, rfl⟩
    rcases mem_phaseWorkPlan.mp hk with ⟨phase', rfl⟩
    refine .inr (.inl ⟨?_, ?_⟩)
    · cases phase <;> rfl
    cases phase' with
    | provision => cases phase <;> simp [plannedItem, phaseSequence] at hlt
    | _ => rfl
  · rcases mem_phaseWorkPlan.mp hi with ⟨phase, rfl⟩
    exact absurd hsame.symm (hnew k hk)
  · rcases mem_phaseWorkPlan.mp hk with ⟨phase, rfl⟩
    exact absurd hsame (hnew i hi)
  · exact h i hi k hk hsame hlt

theorem Refs.Sound.budgets (h : l.refs.Sound) (hs : BudgetStep l l') : l'.refs.Sound := by
  have hheld : ∀ b ∈ l'.refs.budgets, l.refs.Held b := by
    intro b hb
    rcases mem_map.mp hb with ⟨x, hx, rfl⟩
    rcases hs.rows x hx with ⟨y, hy, href, _⟩ | ⟨hheld, _⟩
    · exact href ▸ h.budgets_held y.ref (mem_map_of_mem hy)
    · exact hheld
  rcases hs.frame with ⟨budgets, generations, rfl⟩
  exact ⟨h.jobs, h.attempts, h.attempts_job, h.reservations, h.reservations_held, h.usages,
    h.usages_held, hheld, h.items, h.items_held, h.items_position, h.items_phase⟩

/-! ## Planned ledgers -/

structure Planned (l : Ledger) : Prop where
  refs : l.refs.Sound
  plan : PlanOrdered l.items

/-- Items stay where they are, and their claim fences do not fall. -/
def Tended (items items' : List PhaseItem) : Prop :=
  ∀ i ∈ items, ∃ k ∈ items', k.ref = i.ref ∧ i.claimFence ≤ k.claimFence

theorem tended_refl (items : List PhaseItem) : Tended items items :=
  fun i hi => ⟨i, hi, rfl, Nat.le_refl _⟩

theorem Tended.trans {items₁ items₂ items₃ : List PhaseItem} (h : Tended items₁ items₂)
    (h' : Tended items₂ items₃) : Tended items₁ items₃ := by
  intro i hi
  rcases h i hi with ⟨k, hk, hkref, hkfence⟩
  rcases h' k hk with ⟨m, hm, hmref, hmfence⟩
  exact ⟨m, hm, hmref.trans hkref, hkfence.trans hmfence⟩

theorem tended_update {items : List PhaseItem}
    (href : ∀ i, (f i).ref = i.ref) (hfence : ∀ i, i.claimFence ≤ (f i).claimFence) :
    Tended items (update p f items) := by
  intro i hi
  refine ⟨_, mem_update.mpr ⟨i, hi, rfl⟩, ?_⟩
  by_cases hp : p i = true
  · simpa [hp] using ⟨href i, hfence i⟩
  · simp [hp]

theorem tended_kept {items : List PhaseItem}
    (hf : ∀ i, (f i).ref = i.ref ∧ (f i).claimFence = i.claimFence) :
    Tended items (update p f items) :=
  tended_update (fun i => (hf i).1) fun i => Nat.le_of_eq (hf i).2.symm

/-- A step from a planned ledger to a planned one that tends its items. -/
structure Advances (l l' : Ledger) : Prop where
  planned : Planned l'
  tended : Tended l.items l'.items

theorem Advances.trans {l₁ l₂ l₃ : Ledger} (h : Advances l₁ l₂) (h' : Advances l₂ l₃) :
    Advances l₁ l₃ :=
  ⟨h'.planned, h.tended.trans h'.tended⟩

theorem Advances.issued (h : Advances l l') : l.refs.items ⊆ l'.refs.items := by
  intro x hx
  rcases mem_map.mp hx with ⟨i, hi, rfl⟩
  rcases h.tended i hi with ⟨k, hk, href, _⟩
  exact mem_map.mpr ⟨k, hk, href⟩

theorem Planned.same (h : Planned l) (hrefs : l'.refs = l.refs) (hitems : l'.items = l.items) :
    Advances l l' := by
  refine ⟨⟨hrefs ▸ h.refs, hitems ▸ h.plan⟩, ?_⟩
  rw [hitems]
  exact tended_refl l.items

theorem Planned.items (h : Planned l) {items : List PhaseItem}
    (hrefs : items.map PhaseItem.ref = l.items.map PhaseItem.ref) (hplan : PlanOrdered items)
    (htended : Tended l.items items) : Advances l { l with items := items } := by
  refine ⟨⟨?_, hplan⟩, htended⟩
  have hsame : { l with items := items }.refs = l.refs := by
    unfold Ledger.refs
    congr 1
  exact hsame ▸ h.refs

/-- An update of items that keeps their states. -/
theorem Planned.keepItems (h : Planned l)
    (hf : ∀ i, (f i).ref = i.ref ∧ (f i).claimFence = i.claimFence)
    (hstate : ∀ i, (f i).state = i.state) :
    Advances l { l with items := update p f l.items } :=
  h.items (map_update fun i => (hf i).1)
    (h.plan.update_same (fun i => congrArg ItemRef.attempt (hf i).1)
      (fun i => congrArg ItemRef.sequence (hf i).1) hstate) (tended_kept hf)

/-! ## Ending attempts -/

theorem Planned.closeAttempt (h : Planned l) {l₁ : Ledger} (hrefs : l₁.refs = l.refs)
    (hitems : l₁.items = l.items) (attempt : AttemptId) (terminalState : Status) (reason : String)
    (at_ : Time) : Advances l (closeAttempt l₁ attempt terminalState reason at_) := by
  let sel : AttemptId → JobId → Bool := fun a _ => a = attempt
  have hcancel : PlanOrdered (update (fun i => sel i.attempt i.job && i.state.isOpen)
      (cancelItem reason) l.items) := h.plan.cancel fun i hi k hk => h.refs.items_job hi hk
  refine ⟨⟨?_, ?_⟩, ?_⟩
  · rw [refs_closeAttempt, hrefs]
    exact h.refs
  · rw [items_closeAttempt, hitems]
    exact hcancel
  · rw [items_closeAttempt, hitems]
    exact tended_kept fun _ => ⟨rfl, rfl⟩

theorem Planned.recoverExpiredLease (h : Planned l) (at_ : Time) (row : ExpiredLease) :
    Advances l (recoverExpiredLease at_ l row) := by
  have hexpired : (expireAttempt l row.attempt (expiredLeaseOutcome row).2 at_).refs = l.refs := by
    unfold Ledger.refs
    congr 1
    exact map_update fun _ => rfl
  have hclosed := h.closeAttempt hexpired rfl row.attempt .expired "lease_expired" at_
  refine hclosed.trans (hclosed.planned.same ?_ rfl)
  unfold Ledger.refs
  congr 1
  exact map_update (by intro _; rfl)

theorem Planned.recoverExpired (h : Planned l) (now : Time) (locked : AttemptId → Bool)
    (limit : Nat) : Advances l (recoverExpired l now locked limit) := by
  unfold Ledger.recoverExpired
  generalize loadExpiredLeases l now locked limit = rows
  induction rows generalizing l with
  | nil => exact ⟨h, tended_refl l.items⟩
  | cons row rows ih =>
    have hrow := h.recoverExpiredLease now row
    exact hrow.trans (ih hrow.planned)

theorem closeJob_fields (l : Ledger) (job : JobId) (at_ : Time) :
    (closeJob l job at_).jobs.map Job.core = l.jobs.map Job.core ∧
      (closeJob l job at_).items =
        update (fun i => decide (i.job = job) && i.state.isOpen) (cancelItem "job_canceled")
          l.items ∧
      (Keyed Lease.attempt l.leases → Keyed Lease.attempt (closeJob l job at_).leases) := by
  rcases settleJobAttemptUsage_eq with ⟨jobs, policies, heq, hcore, _⟩
  unfold closeJob
  rw [heq]
  exact ⟨hcore, rfl, fun h => h.delete⟩

theorem refs_cancelJob (l : Ledger) (job : JobId) (reason : String) (now : Time) :
    (closeJob (cancelAttempts
      { l with jobs := update (fun j => j.id = job) (cancelJobRow reason now) l.jobs }
      job reason now) job now).refs = l.refs := by
  rcases settleJobAttemptUsage_eq with ⟨jobs, policies, heq, hcore, _⟩
  unfold closeJob
  rw [heq]
  unfold refs
  congr 1
  · exact (map_eq_of_core hcore fun _ => rfl).trans (map_update (by intro _; rfl))
  · exact map_update fun _ => rfl
  · exact map_update fun _ => rfl
  · exact map_update fun _ => rfl
  · exact map_update fun _ => rfl
  · exact map_update fun _ => rfl

theorem Planned.cancelJob (h : Planned l) {reason : String} {status : BuildStatus}
    (hok : cancelJob l job reason now = .ok (l', status)) :
    Advances l l' := by
  rcases cancelJob_ok hok with ⟨_, _, _, _, rfl, _⟩
  have hitems := (closeJob_fields (cancelAttempts
    { l with jobs := update (fun j => j.id = job) (cancelJobRow reason now) l.jobs }
    job reason now) job now).2.1
  let sel : AttemptId → JobId → Bool := fun _ j => j = job
  have hcancel : PlanOrdered (update (fun i => sel i.attempt i.job && i.state.isOpen)
      (cancelItem "job_canceled") l.items) := h.plan.cancel fun i hi k hk => h.refs.items_job hi hk
  refine ⟨⟨?_, ?_⟩, ?_⟩
  · rw [refs_cancelJob]
    exact h.refs
  · rw [hitems]
    exact hcancel
  · rw [hitems]
    exact tended_kept fun _ => ⟨rfl, rfl⟩

theorem refs_finishPhaseAttempt {items : List PhaseItem}
    (hitems : items.map PhaseItem.ref = l.items.map PhaseItem.ref)
    (hok : finishPhaseAttempt { l with items := items } claim status detail at_ = .ok l') :
    l'.refs = l.refs := by
  rcases finishPhaseAttempt_ok hok with ⟨_, rfl⟩
  rcases releasePhaseAttempt_eq
    with ⟨jobs, policies, heq, hcore, _⟩
  rw [heq]
  unfold Ledger.refs
  congr 1
  · exact (map_update (by intro _; rfl)).trans (map_eq_of_core hcore fun _ => rfl)
  · exact map_update fun _ => rfl
  · exact map_update fun _ => rfl
  · exact map_update fun _ => rfl
  · exact map_update fun _ => rfl

theorem Planned.finishPhaseAttempt (h : Planned l) {items : List PhaseItem}
    (hrefs : items.map PhaseItem.ref = l.items.map PhaseItem.ref)
    (hplan : PlanOrdered items) (htended : Tended l.items items)
    (hok : finishPhaseAttempt { l with items := items } claim status detail at_ = .ok l') :
    Advances l l' := by
  have hsame := refs_finishPhaseAttempt hrefs hok
  have hitems : l'.items = items := by
    rcases finishPhaseAttempt_ok hok with ⟨_, rfl⟩
    rcases releasePhaseAttempt_eq
      with ⟨jobs, policies, heq, _, _⟩
    rw [heq]
    rfl
  exact ⟨⟨hsame ▸ h.refs, hitems ▸ hplan⟩, hitems ▸ htended⟩

/-! ## Creating jobs and starting attempts -/

theorem Planned.upsertAttemptSnapshot (h : Planned l) (hnew : ∀ a ∈ l.attempts, a.id ≠ fresh)
    (hjob : ∃ j ∈ l.jobs, j.id = current.jobId) :
    Advances l (upsertAttemptSnapshot l current fresh) := by
  have hitems : (Ledger.upsertAttemptSnapshot l current fresh).items = l.items := by
    rcases upsertAttemptSnapshot_eq l current fresh with ⟨attempts, heq⟩
    rw [heq]
  refine ⟨⟨h.refs.upsertAttemptSnapshot hnew hjob, hitems ▸ h.plan⟩, ?_⟩
  rw [hitems]
  exact tended_refl l.items

theorem Planned.createJob (h : Planned l) {call : CreateCall} (hok : createJob l call = .ok l') :
    Advances l l' := by
  have hinsert : (∀ j ∈ l.jobs, j.id ≠ call.status.jobId) →
      Advances l { l with jobs := newJob call :: l.jobs } := by
    intro hnew
    refine ⟨⟨h.refs.insertJob ?_, h.plan⟩, tended_refl l.items⟩
    intro x hx
    rcases mem_map.mp hx with ⟨y, hy, rfl⟩
    exact hnew y hy
  rcases createJob_ok hok with rfl | ⟨hnew, ⟨_, rfl⟩ | ⟨⟨_, hfresh⟩, rfl⟩⟩
  · exact ⟨h, tended_refl l'.items⟩
  · exact hinsert hnew
  · exact (hinsert hnew).trans ((hinsert hnew).planned.upsertAttemptSnapshot hfresh
      ⟨newJob call, by simp, rfl⟩)

theorem Planned.startAttempt (h : Planned l)
    {attemptNo fence : Nat} (hstart : ClaimStarted l call j charge attemptNo fence) :
    Advances l (startAttempt l call j charge attemptNo fence) := by
  have hplan : PlanOrdered (phaseWorkPlan call j ++ l.items) := by
    refine h.plan.startAttempt ?_
    intro i hi heq
    have hheld := (h.refs.items_held i.ref (mem_map.mpr ⟨i, hi, rfl⟩)).1
    rcases mem_map.mp hheld with ⟨a, ha, hai⟩
    exact (freshIds_spec hstart.fresh).1 a ha ((congrArg Prod.fst hai).trans heq)
  refine ⟨⟨h.refs.startAttempt hstart.mem hstart.fresh charge attemptNo fence, hplan⟩, ?_⟩
  intro i hi
  exact ⟨i, mem_append_right _ hi, rfl, Nat.le_refl _⟩

theorem Planned.claimNext (h : Planned l) {claim : Option SchedulerClaim}
    (hok : claimNext l call = .ok (l', claim)) : Advances l l' := by
  have hrecovered := h.recoverExpired call.recoveredAt call.locked schedulerRecoveryBatch
  refine hrecovered.trans ?_
  rcases claimNextTx_ok (claimNext_ok hok) with ⟨rfl, _⟩ | ⟨job, retryAt, rfl, _⟩ |
    ⟨j, charge, attemptNo, fence, hstart, rfl, _⟩
  · exact ⟨hrecovered.planned, tended_refl _⟩
  · refine hrecovered.planned.same ?_ rfl
    unfold Ledger.refs
    congr 1
    exact map_update fun _ => rfl
  · exact hrecovered.planned.startAttempt hstart

/-! ## Reports -/

theorem refs_report (l : Ledger) (current : BuildStatus) (attempt : AttemptId) (at_ : Time) :
    (reportAttempt (reportJob l current at_) current attempt at_).refs = l.refs := by
  unfold refs
  congr 1
  · exact map_update fun _ => rfl
  · exact map_update fun _ => rfl

theorem refs_reportJob (l : Ledger) (current : BuildStatus) (at_ : Time) :
    (reportJob l current at_).refs = l.refs := by
  unfold Ledger.refs
  congr 1
  exact map_update fun _ => rfl

theorem Planned.updateResourceReservationPhase (h : Planned l)
    (hok : updateResourceReservationPhase l attempt state = .ok l') : Advances l l' := by
  rcases updateResourceReservationPhase_frame hok with ⟨p, phase, rfl⟩
  refine h.same ?_ rfl
  unfold Ledger.refs
  congr 1
  exact map_update fun _ => rfl

theorem Planned.recordTransition (h : Planned l) {previous : Option BuildStatus}
    (hok : recordTransition l previous current now fresh = .ok l') : Advances l l' := by
  have hjob := h.same (refs_reportJob l current now) rfl
  cases hattempt : current.attemptId with
  | none =>
    rcases recordTransition_unfenced_ok hattempt hok with rfl | rfl | ⟨hnew, hexists, rfl⟩
    · exact ⟨h, tended_refl l'.items⟩
    · exact hjob
    · refine hjob.trans (hjob.planned.upsertAttemptSnapshot hnew ?_)
      rcases hexists with ⟨j, hj, hid⟩
      exact exists_update.mpr ⟨j, hj, by simp [hid, reportJobRow]⟩
  | some attempt =>
    rcases recordTransition_fenced_ok hattempt hok with rfl | ⟨_, hrecord⟩
    · exact ⟨h, tended_refl l'.items⟩
    rcases recordAttemptTransition_frame hrecord with ⟨_, rfl⟩ | ⟨_, q, p, phase, rfl⟩
    · exact h.closeAttempt (refs_report l current attempt now) rfl attempt current.status _ now
    refine h.same ?_ rfl
    rw [← refs_report l current attempt now]
    unfold Ledger.refs
    congr 1
    · exact map_update fun _ => rfl
    · exact map_update fun _ => rfl

/-! ## Phase work -/

theorem Planned.budgets (h : Planned l) (hs : BudgetStep l l') : Advances l l' := by
  have hrefs := h.refs.budgets hs
  rcases hs.frame with ⟨budgets, generations, rfl⟩
  exact ⟨⟨hrefs, h.plan⟩, tended_refl l.items⟩

theorem Planned.reclaimExpired (h : Planned l) (now : Time) :
    Advances l (reclaimExpired l now) := by
  refine h.items (map_update fun _ => rfl) (h.plan.update_running (fun _ => rfl) (fun _ => rfl)
    (fun i hi => .inr ?_) fun _ => .inl rfl) (tended_kept fun _ => ⟨rfl, rfl⟩)
  have hclaimed : i.state = .claimed ∧ i.leaseExpiresAt.getD 0 ≤ now := by simpa using hi
  exact hclaimed.1

/-- The row of the item a claim has just been handed out for. -/
structure Handed (l l' : Ledger) (c : PhaseClaim) : Prop where
  before : ∃ i ∈ l.items, i.ref = c.ref ∧ i.claimFence < c.claimFence
  after : ∃ k ∈ l'.items, k.ref = c.ref ∧ k.claimFence = c.claimFence

theorem Planned.claimPhaseWork (h : Planned l) {call : PhaseCall} {claim : Option PhaseClaim}
    (hok : claimPhaseWork l call = .ok (l', claim)) :
    Advances l l' ∧ ∀ c, claim = some c → Handed l l' c := by
  have hreclaimed := h.reclaimExpired call.now
  rcases claimPhaseWork_ok hok with ⟨rfl, rfl⟩ | ⟨item, at_, rfl, rfl⟩ |
    ⟨call', c, l₁, hfind, hphase, rfl, rfl⟩
  · exact ⟨hreclaimed, by simp⟩
  · exact ⟨hreclaimed.trans (hreclaimed.planned.keepItems (fun _ => ⟨rfl, rfl⟩) fun _ => rfl), by simp⟩
  have hmoved := hreclaimed.planned.updateResourceReservationPhase hphase
  have htaken : Advances l₁ { l₁ with
      items := update (fun i => i.id = c.item.id && i.state = .ready) (takeItem call')
        l₁.items } := by
    refine hmoved.planned.items (map_update fun _ => rfl)
      (hmoved.planned.plan.update_running (fun _ => rfl) (fun _ => rfl) (fun i hi => .inl ?_)
        fun _ => .inr rfl) (tended_update (fun _ => rfl) fun _ => Nat.le_succ _)
    have hready : i.id = c.item.id ∧ i.state = .ready := by simpa using hi
    exact hready.2
  refine ⟨hreclaimed.trans (hmoved.trans htaken), ?_⟩
  rintro _ ⟨⟩
  rcases phaseCandidate?_some hfind with ⟨hitem, _, _, hready, _, _⟩
  have hmem := mem_of_find?_eq_some hitem
  constructor
  · -- reclaiming has not touched the fence
    rcases mem_update.mp hmem with ⟨i, hi, heq⟩
    have hsame : c.item.ref = i.ref ∧ c.item.claimFence = i.claimFence := by
      rw [← heq]
      split <;> exact ⟨rfl, rfl⟩
    exact ⟨i, hi, hsame.1.symm, by rw [← hsame.2]; exact Nat.lt_succ_self _⟩
  · have hitems : l₁.items = (Ledger.reclaimExpired l call.now).items := by
      rcases updateResourceReservationPhase_frame hphase with ⟨_, _, rfl⟩
      rfl
    refine ⟨takeItem call' c.item, mem_update.mpr ⟨c.item, hitems ▸ hmem, ?_⟩, rfl, rfl⟩
    simp [hready]

theorem Planned.renewPhaseWork (h : Planned l) {lease : Time}
    (hok : renewPhaseWork l claim lease now = .ok l') : Advances l l' := by
  rcases renewPhaseWork_ok hok with ⟨u, _, rfl⟩
  have hitems := h.keepItems (p := fun i => claimsItem claim i && i.leaseLive now)
    (f := fun i => { i with leaseExpiresAt := some (now + lease) }) (fun _ => ⟨rfl, rfl⟩) fun _ => rfl
  exact hitems.trans (hitems.planned.same rfl rfl)

theorem map_ref_finishItems
    {items : List PhaseItem} :
    (finishItems i outcome now items).map PhaseItem.ref = items.map PhaseItem.ref := by
  cases outcome with
  | completed | failed detail =>
    exact (map_update (by intro _; rfl)).trans
      ((map_update (by intro _; rfl)).trans (map_update (by intro _; rfl)))

theorem tended_finishItems
    {items : List PhaseItem} : Tended items (finishItems i outcome now items) := by
  cases outcome <;>
    exact ((tended_kept (by intro _; exact ⟨rfl, rfl⟩)).trans
      (tended_kept (by intro _; exact ⟨rfl, rfl⟩))).trans (tended_kept (by intro _; exact ⟨rfl, rfl⟩))

theorem Planned.finishPhaseWork (h : Planned l)
    (hok : finishPhaseWork l claim outcome now = .ok l') : Advances l l' := by
  rcases finishPhaseWork_ok hok with ⟨i, hi, hclaims, rfl⟩
  have hitems := h.items (map_ref_finishItems)
    (h.plan.finishItems h.refs.planKeys hi (claimsItem_claimed hclaims).2 outcome now)
    (tended_finishItems)
  refine hitems.trans (hitems.planned.same ?_ rfl)
  unfold Ledger.refs
  congr 1
  exact map_update fun _ => rfl

theorem Planned.finalizePhaseWork (h : Planned l) {previous completed : BuildStatus}
    (hok : finalizePhaseWork l claim previous completed now at_ = .ok l') : Advances l l' := by
  rcases finalizePhaseWork_ok hok with ⟨_, _, hlock, hok⟩
  rcases lockTerminalPhaseClaim_ok hlock with ⟨⟨i, hi, hclaims, _⟩, _⟩
  rcases claimsItem_claimed hclaims with ⟨hid, hclaimed⟩
  have hcut := h.plan.close h.refs.planKeys hi hclaimed .completed ""
  rw [← hid] at hok
  exact h.finishPhaseAttempt (map_update (by intro _; rfl)) hcut.ordered
    (tended_kept fun _ => ⟨rfl, rfl⟩) hok

theorem Planned.failPhaseWorkAndJob (h : Planned l) {previous : BuildStatus}
    (hissued : claim.ref ∈ l.refs.items)
    (hok : failPhaseWorkAndJob l claim previous detail now at_ = .ok l') : Advances l l' := by
  rcases failPhaseWorkAndJob_ok hok with ⟨hlock, failed, _, hok⟩
  rcases lockTerminalPhaseClaim_ok hlock with ⟨⟨i, hi, hclaims, hattempt⟩, _⟩
  rcases claimsItem_claimed hclaims with ⟨hid, hclaimed⟩
  have hsequence : i.sequence = claim.sequence :=
    congrArg ItemRef.sequence (h.refs.claimed_row hissued hi hid)
  have hcut := h.plan.close h.refs.planKeys hi hclaimed .failed (phaseFailureDetail detail)
  rw [← hid, ← hattempt, ← hsequence] at hok
  exact h.finishPhaseAttempt ((map_update (by intro _; rfl)).trans (map_update (by intro _; rfl)))
    hcut.cancelDependants
    ((tended_kept (by intro _; exact ⟨rfl, rfl⟩)).trans
      (tended_kept (by intro _; exact ⟨rfl, rfl⟩))) hok

/-! ## One transaction -/

/-- A committed transaction keeps the plans in order, and a claim it hands out raises its item's
fence. -/
theorem Planned.run (h : Planned l) {op : Op} {claim : Option PhaseClaim}
    (hissued : ∀ c, op.presents = some c → c.ref ∈ l.refs.items)
    (hok : op.run l = .ok (l', claim)) :
    Advances l l' ∧ ∀ c, claim = some c → Handed l l' c := by
  cases op.commits hok with
  | create call hk =>
    exact ⟨h.createJob hk, by simp⟩
  | claim call c hk =>
    exact ⟨h.claimNext hk, by simp⟩
  | renew status leaseDuration now hk =>
    rcases renewClaim_ok hk with ⟨_, _, _, _, rfl⟩
    exact ⟨h.same rfl rfl, by simp⟩
  | record previous current now fresh hk =>
    exact ⟨h.recordTransition hk, by simp⟩
  | recover now locked limit =>
    exact ⟨h.recoverExpired now locked limit, by simp⟩
  | cancel job reason now status hk =>
    exact ⟨h.cancelJob hk, by simp⟩
  | retry job counted now status hk =>
    rcases retryJob_ok hk with ⟨_, _, _, _, _, rfl, _⟩
    refine ⟨h.same ?_ rfl, by simp⟩
    unfold Ledger.refs
    congr 1
    exact map_update fun _ => rfl
  | activate status now hk =>
    rcases activatePhasePlan_ok hk with ⟨attempt, rfl⟩
    exact ⟨h.keepItems (fun _ => ⟨rfl, rfl⟩) fun _ => rfl, by simp⟩
  | claimPhase call hk => exact h.claimPhaseWork hk
  | renewPhase c lease now hk =>
    exact ⟨h.renewPhaseWork hk, by simp⟩
  | finishPhase c outcome now hk =>
    exact ⟨h.finishPhaseWork hk, by simp⟩
  | finalize c previous completed now at_ hk =>
    exact ⟨h.finalizePhaseWork hk, by simp⟩
  | failPhase c previous detail now at_ hk =>
    exact ⟨h.failPhaseWorkAndJob (hissued c rfl) hk, by simp⟩
  | budget hk => exact ⟨h.budgets hk.budgetStep, by simp⟩

end PortageEngine.Ledger
