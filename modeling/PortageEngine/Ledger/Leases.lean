import PortageEngine.Ledger.BalanceAttempt

/-!
# Lost leases stay lost

The database clock does not run backwards.  An attempt that has no live lease at some time gets none
at any later time: renewals extend live leases only, and a new lease is for a new attempt.
-/

namespace PortageEngine.Ledger

open List Library Library.Rows
open Library.Decimal (trimSpace)

variable {l l' : Ledger} {k : AttemptId} {t : Time}

def holdsLease (l : Ledger) (k : AttemptId) (now : Time) : Prop :=
  ∃ x ∈ l.leases, x.attempt = k ∧ now < x.expiresAt

instance (l : Ledger) (k : AttemptId) (now : Time) : Decidable (holdsLease l k now) := by
  unfold holdsLease
  infer_instance

/-- The attempt has been started, and its lease is gone or has expired by `t`. -/
structure Lapsed (l : Ledger) (k : AttemptId) (t : Time) : Prop where
  known : k ∈ l.attempts.map Attempt.id
  expired : ∀ x ∈ l.leases, x.attempt = k → x.expiresAt ≤ t

variable {now at_ : Time} {job : JobId} {items : List PhaseItem} {a : Attempt} {op : Op}

theorem Lapsed.not_holdsLease (h : Lapsed l k t) (hnow : t ≤ now) :
    ¬ holdsLease l k now := by
  rintro ⟨x, hx, hk, hlive⟩
  exact absurd (hlive.trans_le ((h.expired x hx hk).trans hnow)) (Nat.lt_irrefl _)

theorem holdsLease_of_claimLive {fence : Nat} {owner : Worker}
    (h : claimLive l k job fence owner now = true) : holdsLease l k now := by
  simp only [claimLive, Bool.and_eq_true, any_eq_true, decide_eq_true_eq] at h
  rcases h with ⟨⟨_, x, hx, ⟨⟨hk, hlive⟩, _⟩, _⟩, _⟩
  exact ⟨x, hx, hk, hlive⟩

/-! ## What a transaction does to attempts and leases -/

/-- Attempts are kept and leases are only given up. -/
structure Releasing (l l' : Ledger) : Prop where
  attempts : l.attempts.map Attempt.id ⊆ l'.attempts.map Attempt.id
  leases : l'.leases ⊆ l.leases

theorem Lapsed.releasing (h : Lapsed l k t) (hr : Releasing l l') : Lapsed l' k t :=
  ⟨hr.attempts h.known, fun x hx => h.expired x (hr.leases hx)⟩

/-- An attempt with the end of its runtime budget. -/
def Usage.meter (u : Usage) : AttemptId × Time :=
  (u.attempt, u.deadline)

/-- Nothing is leased, and no runtime budget changes. -/
structure Winding (l l' : Ledger) : Prop extends Releasing l l' where
  meters : l'.usages.map Usage.meter = l.usages.map Usage.meter

/-- Claimed items were claimed before, by the same executor and until the same time. -/
def Resting (items items' : List PhaseItem) : Prop :=
  ∀ k' ∈ items', k'.state = .claimed → ∃ k ∈ items, k.state = .claimed ∧
    k.claimOwner = k'.claimOwner ∧ k.leaseExpiresAt = k'.leaseExpiresAt

theorem resting_refl : Resting items items :=
  fun k hk hstate => ⟨k, hk, hstate, rfl, rfl⟩

theorem Resting.trans {items₁ items₂ items₃ : List PhaseItem} (h : Resting items₁ items₂)
    (h' : Resting items₂ items₃) : Resting items₁ items₃ := by
  intro k hk hstate
  rcases h' k hk hstate with ⟨m, hm, hmstate, hmowner, hmlease⟩
  rcases h m hm hmstate with ⟨n, hn, hnstate, hnowner, hnlease⟩
  exact ⟨n, hn, hnstate, hnowner.trans hmowner, hnlease.trans hmlease⟩

variable {p : PhaseItem → Bool} {f : PhaseItem → PhaseItem} {current status : BuildStatus}
  {fresh attempt : AttemptId} {call : ClaimCall}

theorem resting_update
    (h : ∀ k, p k = true → (f k).state = .claimed → k.state = .claimed ∧
      k.claimOwner = (f k).claimOwner ∧ k.leaseExpiresAt = (f k).leaseExpiresAt) :
    Resting items (update p f items) := by
  intro k' hk' hstate
  rcases mem_update_cases hk' with ⟨k, hk, hp, rfl⟩ | ⟨hk', _⟩
  · exact ⟨k, hk, h k hp hstate⟩
  · exact ⟨k', hk', hstate, rfl, rfl⟩

theorem resting_update_ne
    (h : ∀ k, p k = true → (f k).state ≠ .claimed) :
    Resting items (update p f items) :=
  resting_update fun k hp hstate => absurd hstate (h k hp)

/-- Every attempt is still there, with its job, its number and its fence. -/
def Enrolled (l l' : Ledger) : Prop :=
  l.attempts.map Attempt.number ⊆ l'.attempts.map Attempt.number

theorem Enrolled.mem (h : Enrolled l l') (ha : a ∈ l.attempts) :
    ∃ a' ∈ l'.attempts, a'.number = a.number :=
  mem_map.mp (h (mem_map_of_mem ha))

theorem enrolled_of_same (h : l'.attempts = l.attempts) : Enrolled l l' := by
  unfold Enrolled
  rw [h]
  exact fun _ => id

theorem enrolled_of_update {p : Attempt → Bool} {f : Attempt → Attempt}
    (h : l'.attempts = update p f l.attempts) (hf : ∀ a, (f a).number = a.number) :
    Enrolled l l' := by
  unfold Enrolled
  rw [h, map_update hf]
  exact fun _ => id

theorem enrolled_of_cons (h : l'.attempts = a :: l.attempts) : Enrolled l l' := by
  unfold Enrolled
  rw [h]
  exact subset_cons_self _ _

/-- Attempts stay on record, and nobody is given anything to do. -/
structure Quiet (l l' : Ledger) : Prop extends Winding l l' where
  enrolled : Enrolled l l'
  resting : Resting l.items l'.items

theorem quiet_of (hattempts : Enrolled l l') (hleases : l'.leases ⊆ l.leases)
    (hmeters : l'.usages.map Usage.meter = l.usages.map Usage.meter)
    (hitems : Resting l.items l'.items) : Quiet l l' := by
  refine ⟨⟨⟨?_, hleases⟩, hmeters⟩, hattempts, hitems⟩
  intro id hid
  rcases mem_map.mp hid with ⟨a, ha, rfl⟩
  rcases hattempts.mem ha with ⟨a', ha', hnumber⟩
  exact mem_map.mpr ⟨a', ha', congrArg AttemptNumber.id hnumber⟩

theorem Quiet.trans {l₁ l₂ l₃ : Ledger} (h : Quiet l₁ l₂) (h' : Quiet l₂ l₃) : Quiet l₁ l₃ :=
  quiet_of (List.Subset.trans h.enrolled h'.enrolled) (List.Subset.trans h'.leases h.leases)
    (h'.meters.trans h.meters) (h.resting.trans h'.resting)

theorem quiet_of_items (hattempts : l'.attempts = l.attempts) (hleases : l'.leases = l.leases)
    (husages : l'.usages = l.usages) (hitems : Resting l.items l'.items) : Quiet l l' :=
  quiet_of (enrolled_of_same hattempts) (by rw [hleases]; exact fun _ => id) (by rw [husages]) hitems

theorem quiet_of_same (hattempts : l'.attempts = l.attempts) (hleases : l'.leases = l.leases)
    (husages : l'.usages = l.usages) (hitems : l'.items = l.items) : Quiet l l' :=
  quiet_of_items hattempts hleases husages (by rw [hitems]; exact resting_refl)

theorem quiet_of_update {p : Attempt → Bool} {f : Attempt → Attempt}
    (hattempts : l'.attempts = update p f l.attempts) (hf : ∀ a, (f a).number = a.number)
    (hleases : l'.leases = l.leases) (husages : l'.usages = l.usages)
    (hitems : l'.items = l.items) : Quiet l l' :=
  quiet_of (enrolled_of_update hattempts hf) (by rw [hleases]; exact fun _ => id) (by rw [husages])
    (by rw [hitems]; exact resting_refl)

theorem quiet_of_settle {p : Lease → Bool} {q : Usage → Bool} (hattempts : l'.attempts = l.attempts)
    (hleases : l'.leases = delete p l.leases) (husages : l'.usages = update q (settle at_) l.usages)
    (hitems : Resting l.items l'.items) :
    Quiet l l' := by
  refine quiet_of (enrolled_of_same hattempts) ?_ ?_ hitems
  · rw [hleases]
    exact fun _ hx => (mem_delete.mp hx).1
  · rw [husages]
    exact map_update fun _ => rfl

theorem quiet_closeAttempt (l : Ledger) (attempt : AttemptId) (terminalState : Status)
    (reason : String) (at_ : Time) : Quiet l (closeAttempt l attempt terminalState reason at_) := by
  rcases closeAttempt_eq with ⟨jobs, policies, heq, _, _⟩
  rw [heq]
  exact quiet_of_settle rfl rfl rfl (resting_update_ne fun _ _ => by simp [cancelItem])

theorem quiet_upsertAttemptSnapshot :
    Quiet l (upsertAttemptSnapshot l current fresh) := by
  unfold upsertAttemptSnapshot
  by_cases hknown : (l.attempts.any fun a => a.job = current.jobId && a.attemptNo = 1) = true
  · simp only [hknown, if_true]
    exact quiet_of_update rfl (fun _ => rfl) rfl rfl rfl
  · simp only [hknown, Bool.false_eq_true, if_false]
    exact quiet_of (enrolled_of_cons rfl) (fun _ => id) rfl (resting_refl)

theorem quiet_recoverExpired (l : Ledger) (now : Time) (locked : AttemptId → Bool)
    (limit : Nat) : Quiet l (recoverExpired l now locked limit) := by
  unfold recoverExpired
  generalize loadExpiredLeases l now locked limit = rows
  induction rows generalizing l with
  | nil => exact quiet_of_same rfl rfl rfl rfl
  | cons row rows ih =>
    have hexpire : Quiet l (expireAttempt l row.attempt (expiredLeaseOutcome row).2 now) :=
      quiet_of_update rfl (fun _ => rfl) rfl rfl rfl
    have hclose := quiet_closeAttempt
      (expireAttempt l row.attempt (expiredLeaseOutcome row).2 now) row.attempt .expired
      "lease_expired" now
    have hjob : Quiet l (recoverExpiredLease now l row) :=
      (hexpire.trans hclose).trans (quiet_of_same rfl rfl rfl rfl)
    exact hjob.trans (ih _)

theorem quiet_updateResourceReservationPhase {state : Status}
    (hok : updateResourceReservationPhase l attempt state = .ok l') : Quiet l l' := by
  rcases updateResourceReservationPhase_frame hok with ⟨_, _, rfl⟩
  exact quiet_of_same rfl rfl rfl rfl

theorem quiet_recordTransition {previous : Option BuildStatus} (hok : recordTransition l previous current now fresh = .ok l') :
    Quiet l l' := by
  have hjob : Quiet l (reportJob l current now) := quiet_of_same rfl rfl rfl rfl
  cases hattempt : current.attemptId with
  | none =>
    rcases recordTransition_unfenced_ok hattempt hok with rfl | rfl | ⟨_, _, rfl⟩
    · exact quiet_of_same rfl rfl rfl rfl
    · exact hjob
    · exact hjob.trans (quiet_upsertAttemptSnapshot)
  | some attempt =>
    rcases recordTransition_fenced_ok hattempt hok with rfl | ⟨_, hrecord⟩
    · exact quiet_of_same rfl rfl rfl rfl
    have hreport : Quiet l (reportAttempt (reportJob l current now) current attempt now) :=
      hjob.trans (quiet_of_update rfl (fun _ => rfl) rfl rfl rfl)
    rcases recordAttemptTransition_frame hrecord with ⟨_, rfl⟩ | ⟨_, q, p, phase, rfl⟩
    · exact hreport.trans (quiet_closeAttempt _ attempt current.status _ now)
    · refine hreport.trans (quiet_of (enrolled_of_same rfl) (fun _ => id) ?_ (resting_refl))
      exact map_update fun _ => rfl

theorem quiet_createJob {call : CreateCall} (hok : createJob l call = .ok l') : Quiet l l' := by
  rcases createJob_ok hok with rfl | ⟨_, ⟨_, rfl⟩ | ⟨_, rfl⟩⟩
  · exact quiet_of_same rfl rfl rfl rfl
  · exact quiet_of_same rfl rfl rfl rfl
  · have hjob : Quiet l { l with jobs := newJob call :: l.jobs } := quiet_of_same rfl rfl rfl rfl
    exact hjob.trans (quiet_upsertAttemptSnapshot)

theorem quiet_closeJob : Quiet l (closeJob l job at_) := by
  rcases settleJobAttemptUsage_eq with ⟨jobs, policies, heq, _, _⟩
  unfold closeJob
  rw [heq]
  exact quiet_of_settle rfl rfl rfl (resting_update_ne fun _ _ => by simp [cancelItem])

theorem quiet_cancelJob {reason : String}
    (hok : cancelJob l job reason now = .ok (l', status)) : Quiet l l' := by
  rcases cancelJob_ok hok with ⟨_, _, _, _, rfl, _⟩
  refine Quiet.trans ?_ (quiet_closeJob)
  exact quiet_of_update rfl (fun _ => rfl) rfl rfl rfl

theorem resting_cancelDependants {sequence : Nat} :
    Resting items (cancelDependants attempt sequence items) :=
  resting_update_ne fun _ _ => by simp

theorem resting_finishItems {i : PhaseItem} {outcome : PhaseOutcome} : Resting items (finishItems i outcome now items) := by
  have hclose : Resting items (update (fun k => k.id = i.id)
      (closeItem outcome.state outcome.detail) items) :=
    resting_update_ne fun k _ => by cases outcome <;> simp [closeItem, PhaseOutcome.state]
  refine (hclose.trans ?_).trans (resting_update fun _ _ hstate => ⟨hstate, rfl, rfl⟩)
  cases outcome with
  | completed => exact resting_update_ne fun _ _ => by simp
  | failed detail => exact resting_cancelDependants

theorem quiet_finishPhaseAttempt (hitems : Resting l.items items) {claim : PhaseClaim}
    {status : StoredStatus} {detail : String}
    (hok : finishPhaseAttempt { l with items := items } claim status detail at_ = .ok l') :
    Quiet l l' := by
  rcases finishPhaseAttempt_ok hok with ⟨_, rfl⟩
  have hrow : Quiet { l with items := items }
      (finishAttemptRow { l with items := items } claim status detail at_) :=
    quiet_of_update rfl (fun _ => rfl) rfl rfl rfl
  have hrest : Quiet l { l with items := items } := quiet_of_items rfl rfl rfl hitems
  refine hrest.trans (hrow.trans ?_)
  rcases releasePhaseAttempt_eq with ⟨jobs, policies, heq, _, _⟩
  rw [heq]
  exact quiet_of_settle rfl rfl rfl (resting_refl)

theorem quiet_reclaimExpired (l : Ledger) (now : Time) : Quiet l (reclaimExpired l now) :=
  quiet_of_items rfl rfl rfl (resting_update_ne fun _ _ => by simp)

/-! ## Time -/

/-- The clock of a renewal; other transactions never extend a lease. -/
def Op.renewsAt : Op → Option Time
  | .renew _ _ now | .renewPhase _ _ now => some now
  | _ => none

/-- The live leases of one attempt are extended, at most to the end of its runtime budget. -/
structure Renewing (now : Time) (l l' : Ledger) : Prop where
  attempts : l'.attempts = l.attempts
  usages : l'.usages = l.usages
  leases : ∃ u ∈ l.usages, ∃ (p : Lease → Bool) (f : Lease → Lease),
    l'.leases = update p f l.leases ∧
    (∀ x, p x = true → x.attempt = u.attempt ∧ now < x.expiresAt) ∧
    ∀ x, (f x).attempt = x.attempt ∧ (f x).expiresAt ≤ u.deadline

/-- A claim recovers expired leases and then starts a new attempt. -/
structure Leasing (call : ClaimCall) (l l' : Ledger) : Prop where
  started : ∃ l₁ j charge attemptNo fence, Winding l l₁ ∧
    ClaimStarted l₁ call j charge attemptNo fence ∧
    l' = startAttempt l₁ call j charge attemptNo fence

/-- Everything a transaction can do to leases. -/
inductive LeaseStep (op : Op) (l l' : Ledger) : Prop
  | winding (h : Winding l l')
  | renewing (now : Time) (hop : op.renewsAt = some now) (h : Renewing now l l')
  | leasing (call : ClaimCall) (hop : op = .claim call) (h : Leasing call l l')

theorem leaseStep_claimNext {claim : Option SchedulerClaim}
    (hok : claimNext l call = .ok (l', claim)) : LeaseStep (.claim call) l l' := by
  have hrecovered := quiet_recoverExpired l call.recoveredAt call.locked schedulerRecoveryBatch
  rcases claimNextTx_ok (claimNext_ok hok) with
    ⟨rfl, _⟩ | ⟨job, retryAt, rfl, _⟩ | ⟨j, charge, attemptNo, fence, hstart, rfl, _⟩
  · exact .winding hrecovered.toWinding
  · exact .winding ⟨⟨hrecovered.attempts, hrecovered.leases⟩, hrecovered.meters⟩
  · exact .leasing call rfl ⟨_, j, charge, attemptNo, fence, hrecovered.toWinding, hstart, rfl⟩

theorem renewing_renewClaim {leaseDuration : Time}
    (hok : renewClaim l status leaseDuration now = .ok l') : Renewing now l l' := by
  rcases renewClaim_ok hok with ⟨attempt, u, _, ⟨_, husage⟩, rfl⟩
  have hattempt : u.attempt = attempt := by simpa using find?_some husage
  refine ⟨rfl, rfl, u, mem_of_find?_eq_some husage, _, _, rfl, ?_, ?_⟩
  · intro x hx
    simp only [Bool.and_eq_true, decide_eq_true_eq] at hx
    exact ⟨hx.1.1.1.trans hattempt.symm, hx.2⟩
  · exact fun x => ⟨rfl, Nat.min_le_left _ _⟩

theorem renewing_renewPhaseWork {c : PhaseClaim} {lease : Time}
    (hok : renewPhaseWork l c lease now = .ok l') : Renewing now l l' := by
  rcases renewPhaseWork_ok hok with ⟨u, ⟨hu, hattempt, _⟩, rfl⟩
  refine ⟨rfl, rfl, u, hu, _, _, rfl, ?_, ?_⟩
  · intro x hx
    simp only [Bool.and_eq_true, decide_eq_true_eq] at hx
    exact ⟨hx.1.1.trans hattempt.symm, hx.2⟩
  · exact fun x => ⟨rfl, Nat.min_le_left _ _⟩

/-- The worker that an operation hands new work to. -/
def Op.taker : Op → Option Worker
  | .claim call => some call.worker
  | .claimPhase call => some (trimSpace call.owner)
  | _ => none

variable {claim : Option PhaseClaim}

/-- Only the two claims hand out work, and only the two renewals prolong it. -/
theorem Op.quiet (hok : op.run l = .ok (l', claim))
    (htaker : op.taker = none) (hrenews : op.renewsAt = none) : Quiet l l' := by
  cases op.commits hok with
  | create call hk => exact quiet_createJob hk
  | claim call c hk | claimPhase call hk => cases htaker
  | renew status leaseDuration now hk | renewPhase c lease now hk => cases hrenews
  | record previous current now fresh hk => exact quiet_recordTransition hk
  | recover now locked limit => exact quiet_recoverExpired l now locked limit
  | cancel job reason now status hk => exact quiet_cancelJob hk
  | retry job counted now status hk =>
    rcases retryJob_ok hk with ⟨_, _, _, _, _, rfl, _⟩
    exact quiet_of_same rfl rfl rfl rfl
  | activate status now hk =>
    rcases activatePhasePlan_ok hk with ⟨attempt, rfl⟩
    exact quiet_of_items rfl rfl rfl (resting_update fun _ _ hstate => ⟨hstate, rfl, rfl⟩)
  | finishPhase c outcome now hk =>
    rcases finishPhaseWork_ok hk with ⟨i, _, _, rfl⟩
    exact quiet_of_items rfl rfl rfl (resting_finishItems)
  | finalize c previous completed now at_ hk =>
    rcases finalizePhaseWork_ok hk with ⟨_, _, _, hfinish⟩
    exact quiet_finishPhaseAttempt (resting_update_ne fun _ _ => by simp [closeItem]) hfinish
  | failPhase c previous detail now at_ hk =>
    rcases failPhaseWorkAndJob_ok hk with ⟨_, failed, _, hfinish⟩
    refine quiet_finishPhaseAttempt (Resting.trans ?_ (resting_cancelDependants)) hfinish
    exact resting_update_ne fun _ _ => by simp [closeItem]
  | budget hk =>
    rcases hk.frame with ⟨budgets, generations, rfl⟩
    exact quiet_of_same rfl rfl rfl rfl

theorem Op.leaseStep (hok : op.run l = .ok (l', claim)) :
    LeaseStep op l l' := by
  by_cases hquiet : op.taker = none ∧ op.renewsAt = none
  · exact .winding (Op.quiet hok hquiet.1 hquiet.2).toWinding
  cases op.commits hok with
  | claim call c hk => exact leaseStep_claimNext hk
  | renew status leaseDuration now hk => exact .renewing now rfl (renewing_renewClaim hk)
  | claimPhase call hk =>
    rcases claimPhaseWork_frame hk with ⟨_, _, _, rfl⟩
    exact .winding ⟨⟨fun _ => id, fun _ => id⟩, rfl⟩
  | renewPhase c lease now hk => exact .renewing now rfl (renewing_renewPhaseWork hk)
  | budget hk => cases hk <;> exact absurd ⟨rfl, rfl⟩ hquiet
  | _ => exact absurd ⟨rfl, rfl⟩ hquiet

/-- No transaction removes an attempt or rewrites its job, its number or its fence. -/
theorem Op.enrolled (hok : op.run l = .ok (l', claim)) :
    Enrolled l l' := by
  by_cases hquiet : op.taker = none ∧ op.renewsAt = none
  · exact (Op.quiet hok hquiet.1 hquiet.2).enrolled
  cases op.commits hok with
  | claim call c hk =>
    have hrecovered := quiet_recoverExpired l call.recoveredAt call.locked schedulerRecoveryBatch
    rcases claimNextTx_ok (claimNext_ok hk) with
      ⟨rfl, _⟩ | ⟨_, _, rfl, _⟩ | ⟨_, _, _, _, _, rfl, _⟩
    · exact hrecovered.enrolled
    · exact hrecovered.enrolled
    · exact List.Subset.trans hrecovered.enrolled (enrolled_of_cons rfl)
  | renew status leaseDuration now hk => exact enrolled_of_same (renewing_renewClaim hk).attempts
  | claimPhase call hk =>
    rcases claimPhaseWork_frame hk with ⟨_, _, _, rfl⟩
    exact enrolled_of_same rfl
  | renewPhase c lease now hk => exact enrolled_of_same (renewing_renewPhaseWork hk).attempts
  | budget hk => cases hk <;> exact absurd ⟨rfl, rfl⟩ hquiet
  | _ => exact absurd ⟨rfl, rfl⟩ hquiet

theorem enrolled_step {s : System} : Enrolled s.ledger (step s op).ledger := by
  rcases step_cases s op with heq | ⟨l, claim, hok, _, heq⟩
  · rw [heq]
    exact enrolled_of_same rfl
  · rw [heq]
    exact Op.enrolled hok

/-! ## Lapsed leases -/

theorem Lapsed.renewing (h : Lapsed l k t) (hnow : t ≤ now) (hr : Renewing now l l') :
    Lapsed l' k t := by
  rcases hr.leases with ⟨u, _, p, f, hleases, hown, hf⟩
  refine ⟨by rw [hr.attempts]; exact h.known, ?_⟩
  rw [hleases]
  intro x hx hk
  rcases mem_update_cases hx with ⟨y, hy, hp, rfl⟩ | ⟨hx, _⟩
  · rw [(hf y).1] at hk
    exact absurd ((hown y hp).2.trans_le ((h.expired y hy hk).trans hnow)) (Nat.lt_irrefl _)
  · exact h.expired x hx hk

theorem Lapsed.leasing (h : Lapsed l k t) (hl : Leasing call l l') :
    Lapsed l' k t := by
  rcases hl.started with ⟨l₁, j, charge, attemptNo, fence, hwinding, hstart, rfl⟩
  have hrecovered := h.releasing hwinding.toReleasing
  refine ⟨mem_cons_of_mem _ hrecovered.known, ?_⟩
  intro x hx hk
  rcases mem_cons.mp hx with rfl | hx
  · rcases mem_map.mp hrecovered.known with ⟨a, ha, hid⟩
    exact absurd (hid.trans hk.symm) ((freshIds_spec hstart.fresh).1 a ha)
  · exact hrecovered.expired x hx hk

theorem Lapsed.run (h : Lapsed l k t)
    (htime : ∀ now, op.renewsAt = some now → t ≤ now) (hok : op.run l = .ok (l', claim)) :
    Lapsed l' k t := by
  cases Op.leaseStep hok with
  | winding hw => exact h.releasing hw.toReleasing
  | renewing now hop hr => exact h.renewing (htime now hop) hr
  | leasing call hop hl => exact h.leasing hl

theorem Lapsed.step {s : System} (h : Lapsed s.ledger k t)
    (htime : ∀ now, op.renewsAt = some now → t ≤ now) : Lapsed (step s op).ledger k t := by
  rcases step_cases s op with heq | ⟨l, claim, hok, _, heq⟩
  · rw [heq]
    exact h
  · rw [heq]
    exact h.run htime hok

end PortageEngine.Ledger
