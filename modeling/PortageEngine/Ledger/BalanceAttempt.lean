import PortageEngine.Ledger.Balance

/-!
# Starting, reporting on and ending attempts keeps the books balanced

The preservation lemmas for `ClaimNext`, lease recovery, `RecordTransition`, `CreateJob`, `CancelJob`
and the artifact budget.
-/

namespace PortageEngine.Ledger

open List Library
open Library.Rows

variable {busy : Job → Bool} {l l' : Ledger} {at_ now : Time} {a attempt fresh : AttemptId}
  {current status : BuildStatus} {r : HeldRef} {job : JobId} {charge : Charge}
  {attemptNo fence : Nat}

/-! ## Lease recovery -/

/-- A row that the recovery has loaded: a leased attempt with its number and its job's limit. -/
structure Loaded (l : Ledger) (row : ExpiredLease) : Prop where
  lease : ∃ x ∈ l.leases, x.attempt = row.attempt
  attempt : ∃ a ∈ l.attempts, a.id = row.attempt ∧ a.job = row.job ∧ a.attemptNo = row.attemptNo
  job : ∃ j ∈ l.jobs, j.id = row.job ∧ j.maxAttempts = row.maxAttempts

variable {row : ExpiredLease} {call : ClaimCall}

theorem Loaded.attemptOf (h : Loaded l row) :
    attemptOf l row.attempt row.job := by
  rcases h.attempt with ⟨a, ha, hid, hjob, _⟩
  exact ⟨a, ha, hid, hjob⟩

theorem expiredLease?_some {x : Lease}
    (hrow : expiredLease? l now x = some row) : row.attempt = x.attempt ∧
      (∃ a ∈ l.attempts, a.id = row.attempt ∧ a.job = row.job ∧ a.attemptNo = row.attemptNo) ∧
      ∃ j ∈ l.jobs, j.id = row.job ∧ j.maxAttempts = row.maxAttempts := by
  simp only [expiredLease?, Option.bind_eq_bind, Option.bind_eq_some_iff, guard,
    Option.pure_def] at hrow
  rcases hrow with ⟨a, ha, j, hj, _, _, hrow⟩
  cases hrow
  have haid : a.id = x.attempt := by simpa using find?_some ha
  have hjid : j.id = a.job := by simpa using find?_some hj
  exact ⟨haid, ⟨a, mem_of_find?_eq_some ha, rfl, hjid.symm, rfl⟩,
    j, mem_of_find?_eq_some hj, rfl, rfl⟩

variable {locked : AttemptId → Bool} {j : Job}

theorem loaded_of_mem {limit : Nat}
    (h : row ∈ loadExpiredLeases l now locked limit) : Loaded l row := by
  rcases mem_filterMap.mp (mem_of_mem_take h) with ⟨x, hx, hrow⟩
  rw [mem_insertionSort] at hx
  rcases expiredLease?_some hrow with ⟨hlease, hattempt, hjob⟩
  exact ⟨⟨x, (mem_filter.mp hx).1, hlease.symm⟩, hattempt, hjob⟩

theorem keyed_loadExpiredLeases (h : Keyed Lease.attempt l.leases) {limit : Nat} :
    Keyed ExpiredLease.attempt (loadExpiredLeases l now locked limit) := by
  have hsorted : Keyed Lease.attempt ((l.leases.filter fun x => !locked x.attempt).insertionSort
      fun a b => a.expiresAt ≤ b.expiresAt) := by
    have hperm := (perm_insertionSort (fun a b : Lease => a.expiresAt ≤ b.expiresAt)
      (l.leases.filter fun x => !locked x.attempt)).map Lease.attempt
    exact hperm.nodup_iff.mpr (h.sublist (filter_sublist.map _))
  have hkeyed := hsorted.filterMap fun x row hx => (@expiredLease?_some l now row x hx).1
  exact hkeyed.sublist ((take_sublist _ _).map _)

theorem attempts_recoverExpiredLease (at_ : Time) (l : Ledger) (row : ExpiredLease) :
    (recoverExpiredLease at_ l row).refs.attempts = l.refs.attempts := by
  have hclose := refs_closeAttempt (expireAttempt l row.attempt (expiredLeaseOutcome row).2 at_)
    row.attempt .expired "lease_expired" at_
  exact (congrArg Refs.attempts hclose).trans (map_update fun _ => rfl)

theorem releases_recoverExpiredLease (at_ : Time) (l : Ledger) (row : ExpiredLease) :
    Releases l (recoverExpiredLease at_ l row) (· = row.attempt) := by
  have hclosed := releases_closeAttempt
    (expireAttempt l row.attempt (expiredLeaseOutcome row).2 at_) row.attempt .expired
    "lease_expired" at_
  exact ⟨hclosed.leased, hclosed.reserved, hclosed.metered, hclosed.hasOpenItem, hclosed.hasBudget⟩

theorem Balanced.recoverExpiredLease (h : Balanced busy l)
    (hlease : leased l row.attempt) (hjob : attemptOf l row.attempt row.job) :
    Balanced busy (recoverExpiredLease at_ l row) := by
  refine h.released (h.planned.recoverExpiredLease at_ row).planned hlease hjob
    (releases_recoverExpiredLease at_ l row) (attempts_recoverExpiredLease at_ l row)
    (keyed_closeAttempt row.attempt .expired "lease_expired" at_ h.leases) ?_
  intro j hne hbusy
  refine (workable_update_of_ne (f := expireJob row at_) rfl (fun _ => rfl) hne).mpr ?_
  exact (workable_of_core h.respected (core_closeAttempt _ _ _ _ _)).mpr hbusy

/-- What the recovery of one lease keeps of balanced books, the recovery of a batch keeps. -/
theorem Balanced.recoverAll {P : Ledger → Prop} (hstep : ∀ l row, Balanced busy l →
      leased l row.attempt → attemptOf l row.attempt row.job → P l →
      P (Ledger.recoverExpiredLease now l row))
    {rows : List ExpiredLease} (h : Balanced busy l) (hkeyed : Keyed ExpiredLease.attempt rows)
    (hrows : ∀ row ∈ rows, leased l row.attempt ∧ attemptOf l row.attempt row.job) (hP : P l) :
    Balanced busy (rows.foldl (Ledger.recoverExpiredLease now) l) ∧
      P (rows.foldl (Ledger.recoverExpiredLease now) l) := by
  induction rows generalizing l with
  | nil => exact ⟨h, hP⟩
  | cons row rows ih =>
    rcases hrows row (by simp) with ⟨hlease, hjob⟩
    have hcons := nodup_cons.mp hkeyed
    refine ih (h.recoverExpiredLease hlease hjob) hcons.2 ?_ (hstep l row h hlease hjob hP)
    intro other hother
    rcases hrows other (by simp [hother]) with ⟨hl, hj⟩
    have hne : other.attempt ≠ row.attempt := by
      intro heq
      exact hcons.1 (mem_map.mpr ⟨other, hother, heq⟩)
    refine ⟨((releases_recoverExpiredLease now l row).leased _).mpr ⟨hl, hne⟩, ?_⟩
    rw [attemptOf_iff, attempts_recoverExpiredLease, ← attemptOf_iff]
    exact hj

theorem Balanced.recoverExpired (h : Balanced busy l) (now : Time) (locked : AttemptId → Bool)
    (limit : Nat) : Balanced busy (recoverExpired l now locked limit) :=
  (Balanced.recoverAll (P := fun _ => True) (fun _ _ _ _ _ _ => trivial) h
    (keyed_loadExpiredLeases h.leases)
    (fun _ hrow => ⟨(loaded_of_mem hrow).lease, (loaded_of_mem hrow).attemptOf⟩) trivial).1

/-! ## Reports of an attempt -/

theorem workable_report_of_ne {j : JobId} (hne : j ≠ current.jobId) (h : workable busy l j) :
    workable busy (reportAttempt (reportJob l current at_) current attempt at_) j := by
  have hupdate := @workable_update_of_ne busy (reportJob l current at_) l.jobs current.jobId j _ rfl
    (fun _ => rfl) hne
  exact hupdate.mpr h

theorem Balanced.recordTransition (h : Balanced busy l) (hp : Planned l')
    {previous : Option BuildStatus} (hattempt : current.attemptId = some attempt)
    (hkeeps : isLedgerTerminal current.status = false →
      ∀ j, busy j = true → busy (reportJobRow current now j) = true)
    (hok : recordTransition l previous current now fresh = .ok l') : Balanced busy l' := by
  rcases recordTransition_fenced_ok hattempt hok with rfl | ⟨hlive, hok⟩
  · exact h
  rcases claimLive_holds hlive with ⟨hjob, hlease⟩
  have hattempts : (reportAttempt (reportJob l current now) current attempt now).refs.attempts =
      l.refs.attempts := map_update fun _ => rfl
  rcases recordAttemptTransition_frame hok with ⟨_, rfl⟩ | ⟨hterminal, q, p, phase, rfl⟩
  · have hclosed := releases_closeAttempt
      (reportAttempt (reportJob l current now) current attempt now) attempt current.status
      ("job_" ++ current.status.text) now
    refine h.released hp hlease hjob ⟨hclosed.leased, hclosed.reserved, hclosed.metered,
      hclosed.hasOpenItem, hclosed.hasBudget⟩
      ((congrArg Refs.attempts (refs_closeAttempt _ _ _ _ _)).trans hattempts)
      (keyed_closeAttempt attempt _ _ now h.leases) ?_
    intro j hne hbusy
    exact (workable_of_core h.respected (core_closeAttempt _ _ _ _ _)).mpr
      (workable_report_of_ne hne hbusy)
  · refine h.same hp hattempts rfl (map_update fun _ => rfl) (map_update fun _ => rfl)
      (fun _ => id) rfl ?_
    intro a j ha hj
    have hbusy := h.workable ha hj
    by_cases hne : j = current.jobId
    · subst hne
      exact @workable_update_self busy _ l.jobs current.jobId _ rfl (by intro _; rfl)
        (hkeeps hterminal) hbusy
    · exact @workable_report_of_ne busy l now attempt current j hne hbusy

/-! ## Canceling a job -/

theorem Refs.Sound.held_job (h : l.refs.Sound) (hr : l.refs.Held r) :
    r.job = job ↔ attemptOf l r.attempt job := by
  constructor
  · rintro rfl
    exact attemptOf_iff.mpr hr.1
  · intro hjob
    exact h.attemptOf_unique (attemptOf_iff.mpr hr.1) hjob

theorem switchOff_job {α : Type} {rows : List α} (ref : α → HeldRef) {on : α → Bool} {f : α → α}
    (h : l.refs.Sound) (hoff : ∀ r, on (f r) = false) (hheld : ∀ r ∈ rows, l.refs.Held (ref r)) :
    (∃ x ∈ update (fun r => decide ((ref r).job = job) && on r) f rows,
        (ref x).attempt = a ∧ on x = true) ↔
      (∃ r ∈ rows, (ref r).attempt = a ∧ on r = true) ∧ ¬ attemptOf l a job := by
  rw [@exists_switchOff α AttemptId f rows (fun r => (ref r).attempt) on
    (fun r => decide ((ref r).job = job)) a hoff]
  constructor
  · rintro ⟨r, hr, rfl, hon, hsel⟩
    refine ⟨⟨r, hr, rfl, hon⟩, ?_⟩
    rw [← h.held_job (hheld r hr)]
    simpa using hsel
  · rintro ⟨⟨r, hr, rfl, hon⟩, hother⟩
    refine ⟨r, hr, rfl, hon, ?_⟩
    rw [← h.held_job (hheld r hr)] at hother
    simpa using hother

def PhaseItem.held (i : PhaseItem) : HeldRef := ⟨i.attempt, i.job, i.project⟩

theorem settle_job (h : l.refs.Sound) :
    (∃ u ∈ update (fun u => (activeUsageAttempts l job).contains u.attempt && u.active) (settle at_)
        l.usages, u.attempt = a ∧ u.active = true) ↔ metered l a ∧ ¬ attemptOf l a job := by
  rw [@exists_switchOff Usage AttemptId (settle at_) l.usages Usage.attempt Usage.active
    (fun u => (activeUsageAttempts l job).contains u.attempt) a (fun _ => rfl)]
  have hheld : ∀ u ∈ l.usages, u.job = job ↔ attemptOf l u.attempt job := by
    intro u hu
    exact h.held_job (h.usages_held u.ref (mem_map.mpr ⟨u, hu, rfl⟩))
  constructor
  · rintro ⟨u, hu, rfl, hon, hsel⟩
    refine ⟨⟨u, hu, rfl, hon⟩, ?_⟩
    intro hjob
    have hmem : u.attempt ∈ activeUsageAttempts l job :=
      mem_activeUsageAttempts.mpr ⟨u, hu, (hheld u hu).mpr hjob, hon, rfl⟩
    simp [hmem] at hsel
  · rintro ⟨⟨u, hu, rfl, hon⟩, hother⟩
    refine ⟨u, hu, rfl, hon, ?_⟩
    by_contra hsel
    have hmem : u.attempt ∈ activeUsageAttempts l job := by simpa using hsel
    rcases mem_activeUsageAttempts.mp hmem with ⟨v, hv, hjob, _, hva⟩
    exact hother (hva ▸ (hheld v hv).mp hjob)

theorem releases_closeJob (h : l.refs.Sound) (job : JobId) (at_ : Time) :
    Releases l (closeJob l job at_) (attemptOf l · job) := by
  rcases settleJobAttemptUsage_eq with ⟨jobs, policies, heq, _, _⟩
  unfold closeJob
  rw [heq]
  constructor
  · intro a
    constructor
    · rintro ⟨x, hx, rfl⟩
      rcases mem_delete.mp hx with ⟨hx, hkept⟩
      refine ⟨⟨x, hx, rfl⟩, ?_⟩
      rintro ⟨y, hy, hid, hjob⟩
      have := any_eq_false.mp hkept y hy
      simp [hid, hjob] at this
    · rintro ⟨⟨x, hx, rfl⟩, hother⟩
      refine ⟨x, mem_delete.mpr ⟨hx, ?_⟩, rfl⟩
      refine any_eq_false.mpr ?_
      intro y hy hsel
      have hy' : y.id = x.attempt ∧ y.job = job := by simpa using hsel
      exact hother ⟨y, hy, hy'⟩
  · intro a
    exact switchOff_job Reservation.ref h (by intro _; rfl)
      fun r hr => h.reservations_held r.ref (mem_map.mpr ⟨r, hr, rfl⟩)
  · intro a
    exact settle_job h
  · intro a
    have hoff : ∀ i, (fun i : PhaseItem => i.state.isOpen) (cancelItem "job_canceled" i) = false :=
      fun _ => rfl
    exact (switchOff_job PhaseItem.held h hoff
      fun i hi => h.items_held i.ref (mem_map.mpr ⟨i, hi, rfl⟩)).mp
  · intro a
    exact (switchOff_job Budget.ref h (by intro _; rfl)
      fun b hb => h.budgets_held b.ref (mem_map.mpr ⟨b, hb, rfl⟩)).mp

theorem Balanced.cancelJob (h : Balanced busy l) (hp : Planned l') {reason : String}
    (hok : cancelJob l job reason now = .ok (l', status)) : Balanced busy l' := by
  rcases cancelJob_ok hok with ⟨_, _, _, _, rfl, _⟩
  have hrefs := refs_cancelJob l job reason now
  generalize hcanceled : cancelAttempts
    { l with jobs := update (fun j => j.id = job) (cancelJobRow reason now) l.jobs }
    job reason now = l₁ at hp hrefs ⊢
  have hrefs₁ : l₁.refs = l.refs := by
    rw [← hcanceled]
    unfold Ledger.refs
    congr 1
    · exact map_update fun _ => rfl
    · exact map_update fun _ => rfl
  have hattemptOf : ∀ a, attemptOf l₁ a job ↔ attemptOf l a job := by
    intro a
    rw [attemptOf_iff, hrefs₁, ← attemptOf_iff]
  have hreleases : Releases l (closeJob l₁ job now) (attemptOf l · job) := by
    have hclosed := releases_closeJob (hrefs₁ ▸ h.refs) job now
    rw [show (attemptOf l₁ · job) = (attemptOf l · job) from
      funext fun a => propext (hattemptOf a)] at hclosed
    subst hcanceled
    exact ⟨hclosed.leased, hclosed.reserved, hclosed.metered, hclosed.hasOpenItem,
      hclosed.hasBudget⟩
  rcases closeJob_fields l₁ job now with ⟨hcore, _, hleases⟩
  refine ⟨h.respected, hp.refs, hleases (hcanceled ▸ h.leases),
    sound_of_releases h.custody hreleases (congrArg Refs.attempts hrefs) ?_, hp.plan⟩
  intro a j ha hother hj
  -- a job with another holder is another job
  have hne : j ≠ job := by
    rintro rfl
    exact hother hj
  refine (workable_of_core h.respected hcore).mpr ?_
  rw [← hcanceled]
  exact (workable_update_of_ne (f := cancelJobRow reason now) rfl (fun _ => rfl) hne).mpr
    (h.workable ha hj)

/-! ## Creating a job -/

theorem attemptOf_upsertAttemptSnapshot (hnew : ∀ a ∈ l.attempts, a.id ≠ fresh) {j : JobId} :
    (attemptOf l a j → attemptOf (upsertAttemptSnapshot l current fresh) a j) ∧
      (attemptOf (upsertAttemptSnapshot l current fresh) a j →
        attemptOf l a j ∨ ∀ i, ¬ attemptOf l a i) := by
  unfold Ledger.upsertAttemptSnapshot
  by_cases hknown : (l.attempts.any fun a => a.job = current.jobId && a.attemptNo = 1) = true
  · simp only [hknown, if_true]
    constructor
    · exact fun h => (exists_update_same (by intro _ _ _; exact Iff.rfl)).mpr h
    · exact fun h => .inl ((exists_update_same (by intro _ _ _; exact Iff.rfl)).mp h)
  simp only [hknown, Bool.false_eq_true, if_false]
  constructor
  · rintro ⟨x, hx, hx'⟩
    exact ⟨x, mem_cons_of_mem _ hx, hx'⟩
  · rintro ⟨x, hx, hid, hxj⟩
    rcases mem_cons.mp hx with rfl | hx
    · refine .inr ?_
      rintro i ⟨y, hy, hya, _⟩
      exact hnew y hy (hya.trans hid.symm)
    · exact .inl ⟨x, hx, hid, hxj⟩

theorem Balanced.createJob (h : Balanced busy l) (hp : Planned l') {call : CreateCall}
    (hok : createJob l call = .ok l') : Balanced busy l' := by
  have hjobs : ∀ a j, leased l a → attemptOf l a j →
      Ledger.workable busy { l with jobs := newJob call :: l.jobs } j := by
    intro a j ha hj
    rcases h.workable ha hj with ⟨x, hx, hx'⟩
    exact ⟨x, mem_cons_of_mem _ hx, hx'⟩
  rcases createJob_ok hok with rfl | ⟨_, ⟨_, rfl⟩ | ⟨⟨_, hfresh⟩, rfl⟩⟩
  · exact h
  · exact h.same hp rfl rfl rfl rfl (fun _ => id) rfl hjobs
  have hhired := fun a j => @attemptOf_upsertAttemptSnapshot { l with jobs := newJob call :: l.jobs }
    a call.fresh call.status hfresh j
  rcases upsertAttemptSnapshot_eq { l with jobs := newJob call :: l.jobs } call.status call.fresh
    with ⟨attempts, heq⟩
  simp only [heq] at hp hhired ⊢
  exact ⟨h.respected, hp.refs, h.leases, sound_of_kept h.custody (fun _ => Iff.rfl)
    (fun _ => Iff.rfl) (fun _ => Iff.rfl) (fun _ => id) (fun _ => .inl) (fun a j => (hhired a j).1)
    (fun a j => (hhired a j).2) hjobs, hp.plan⟩

/-! ## Starting an attempt -/

theorem not_workable_of_claimable (hb : Busy busy) (h : l.refs.Sound)
    (hj : j ∈ l.jobs) (hclaimable : claimable l call j = true) : ¬ workable busy l j.id := by
  rintro ⟨x, hx, hid, hx'⟩
  have hxj := h.job_unique hx hj hid
  subst hxj
  simp only [claimable, Bool.and_eq_true, decide_eq_true_eq] at hclaimable
  rw [hb.queued x hclaimable.1.1.1.1.1] at hx'
  cases hx'

theorem acquires_startAttempt (h : Balanced busy l)
    (hstart : ClaimStarted l call j charge attemptNo fence) :
    Custody.Acquires (custody busy l) (custody busy (startAttempt l call j charge attemptNo fence))
      call.attempt j.id := by
  rcases freshIds_spec hstart.fresh with ⟨hattempt, _, _⟩
  have hclosed := not_workable_of_claimable h.respected h.refs hstart.mem hstart.isClaimable
  -- one more row at the head of a table
  have hcons : ∀ {α : Type} {rows : List α} {row : α} {P : α → Prop} {b : AttemptId},
      (P row ↔ call.attempt = b) →
        ((∃ x ∈ row :: rows, P x) ↔ (∃ x ∈ rows, P x) ∨ b = call.attempt) := by
    intro α rows row P b hrow
    rw [exists_mem_cons_iff, hrow, or_comm, eq_comm]
  refine ⟨?_, hclosed, ?_, ?_, ?_, ?_, ?_⟩
  · rintro i ⟨x, hx, hid, _⟩
    exact hattempt x hx hid
  · intro k b
    cases k with
    | lease => exact hcons Iff.rfl
    | reservation | usage => exact hcons (and_iff_left rfl)
  · intro s b hs
    cases s with
    | phaseItem =>
      rcases hs with ⟨i, hi, hib, hopen⟩
      rcases mem_append.mp hi with hi | hi
      · rcases mem_phaseWorkPlan.mp hi with ⟨phase, rfl⟩
        exact .inr hib.symm
      · exact .inl ⟨i, hi, hib, hopen⟩
    | artifactBudget => exact .inl hs
  · intro b i
    constructor
    · rintro ⟨x, hx, hid, hjob⟩
      rcases mem_cons.mp hx with rfl | hx
      · exact .inr ⟨hid.symm, hjob.symm⟩
      · exact .inl ⟨x, hx, hid, hjob⟩
    · rintro (⟨x, hx, hx'⟩ | ⟨rfl, rfl⟩)
      · exact ⟨x, mem_cons_of_mem _ hx, hx'⟩
      · exact ⟨_, mem_cons_self, rfl, rfl⟩
  · have hclaimable := hstart.isClaimable
    simp only [claimable, Bool.and_eq_true, decide_eq_true_eq] at hclaimable
    refine ⟨claimJobRow (claimedStatus j call.persistedAt) j,
      mem_update.mpr ⟨j, hstart.mem, by simp⟩, rfl, ?_⟩
    exact h.respected.claimed j _ hclaimable.1.1.1.1.2 hclaimable.1.1.1.2
  · intro i hi
    have hne : i ≠ j.id := by
      rintro rfl
      exact hclosed hi
    have hupdate := @workable_update_of_ne busy (startAttempt l call j charge attemptNo fence) l.jobs
      j.id i _ rfl (by intro _; rfl) hne
    exact hupdate.mpr hi

theorem Balanced.startAttempt (h : Balanced busy l)
    (hstart : ClaimStarted l call j charge attemptNo fence) :
    Balanced busy (startAttempt l call j charge attemptNo fence) := by
  have hp := (h.planned.startAttempt hstart).planned
  refine ⟨h.respected, hp.refs, h.leases.cons ?_,
    h.custody.acquires (acquires_startAttempt h hstart), hp.plan⟩
  intro x hx heq
  rcases h.custody.employed .lease call.attempt ⟨x, hx, heq⟩ with ⟨i, y, hy, hid, _⟩
  exact (freshIds_spec hstart.fresh).1 y hy hid

theorem Balanced.claimNext (h : Balanced busy l) (hp : Planned l')
    {claim : Option SchedulerClaim} (hok : claimNext l call = .ok (l', claim)) :
    Balanced busy l' := by
  have hrec := h.recoverExpired call.recoveredAt call.locked schedulerRecoveryBatch
  rcases claimNextTx_ok (claimNext_ok hok) with ⟨rfl, _⟩ | ⟨job, retryAt, rfl, _⟩ |
    ⟨j, charge, attemptNo, fence, hstart, rfl, _⟩
  · exact hrec
  · refine hrec.same hp rfl rfl rfl rfl (fun _ => id) rfl ?_
    intro a j ha hj
    exact (workable_of_core hrec.respected (map_update (by intro _; rfl))).mpr (hrec.workable ha hj)
  · exact hrec.startAttempt hstart

/-! ## The artifact budget -/

theorem Balanced.budgets (h : Balanced busy l) (hp : Planned l') (hs : BudgetStep l l') :
    Balanced busy l' := by
  have hbudgets : ∀ a, hasBudget l' a → hasBudget l a ∨ leased l a := by
    rintro a ⟨x, hx, rfl, hon⟩
    rcases hs.rows x hx with ⟨b, hb, href, hactive⟩ | ⟨_, hlease⟩
    · exact .inl ⟨b, hb, (congrArg HeldRef.attempt href).symm, hactive hon⟩
    · exact .inr hlease
  rcases hs.frame with ⟨budgets, generations, rfl⟩
  exact ⟨h.respected, hp.refs, h.leases, sound_of_kept h.custody (fun _ => Iff.rfl)
    (fun _ => Iff.rfl) (fun _ => Iff.rfl) (fun _ => id) hbudgets (fun _ _ => id)
    (fun _ _ => .inl) (fun a j => h.workable), hp.plan⟩

end PortageEngine.Ledger
