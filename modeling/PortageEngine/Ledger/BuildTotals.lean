import PortageEngine.Ledger.Bookkeeping

/-!
# Build outcome totals

Every replica publishes how many builds were submitted, succeeded and failed, for counters that must
not fall (`internal/persistence/build_totals.go`).  The numbers are counted over `build_jobs` and each
is held up by a ratchet of its own, so a job that leaves an outcome for another one is counted under
both.  `RetryJob` takes a failed job back to the queue, and a report without a fence writes any state;
all other transactions leave a job with an outcome alone.
-/

namespace PortageEngine.Ledger

open List Library Library.Rows Library.Runs

structure BuildOutcomeTotals where
  submitted : Nat
  succeeded : Nat
  failed : Nat
  deriving DecidableEq

def ratchetBuildOutcomeTotals (previous observed : BuildOutcomeTotals) : BuildOutcomeTotals where
  submitted := max previous.submitted observed.submitted
  succeeded := max previous.succeeded observed.succeeded
  failed := max previous.failed observed.failed

def Status.succeeded (s : Status) : Bool :=
  s = .completed || s = .success

/-- The counts of the query. -/
def outcomes (jobs : List Job) : BuildOutcomeTotals where
  submitted := jobs.length
  succeeded := jobs.countP (·.state.succeeded)
  failed := jobs.countP (·.state = .failed)

def buildOutcomeTotalsTTL : Time := 15 * microsPerSecond

/-- The totals that a replica's `JobRepository` publishes, and when it read them. -/
structure TotalsCache where
  buildTotals : BuildOutcomeTotals
  buildTotalsAt : Option Time

/-- `BuildOutcomeTotals`. -/
def TotalsCache.observe (c : TotalsCache) (jobs : List Job) (now : Time) : TotalsCache :=
  if c.buildTotalsAt.any fun at_ => at_ ≤ now && now - at_ < buildOutcomeTotalsTTL then c
  else ⟨ratchetBuildOutcomeTotals c.buildTotals (outcomes jobs), some now⟩

/-- The ledger, and the replicas that count its jobs. -/
structure TotalsSystem where
  system : System
  replicas : Nat → TotalsCache

def TotalsSystem.init (policies : List Policy) : TotalsSystem :=
  ⟨System.init policies, fun _ => ⟨⟨0, 0, 0⟩, none⟩⟩

inductive TotalsOp
  | ledger (op : Op)
  | observe (replica : Nat) (now : Time)

def stepTotals (s : TotalsSystem) : TotalsOp → TotalsSystem
  | .ledger op => { s with system := step s.system op }
  | .observe replica now => { s with
      replicas := fun i =>
        if i = replica then (s.replicas i).observe s.system.ledger.jobs now else s.replicas i }

/-- Reports are fenced and do not say `queued`, and no failed job is retried. -/
def keepsOutcomes (s : TotalsSystem) : TotalsOp → Bool
  | .ledger (.record _ current _ _) => current.attemptId.isSome && current.status ≠ .queued
  | .ledger (.retry job _ _) => s.system.ledger.jobs.all fun j => j.id ≠ job || j.state ≠ .failed
  | _ => true

def BuildOutcomeTotals.Le (a b : BuildOutcomeTotals) : Prop :=
  a.submitted ≤ b.submitted ∧ a.succeeded ≤ b.succeeded ∧ a.failed ≤ b.failed

def BuildOutcomeTotals.Consistent (t : BuildOutcomeTotals) : Prop :=
  t.succeeded + t.failed ≤ t.submitted

theorem BuildOutcomeTotals.Le.refl (a : BuildOutcomeTotals) : a.Le a :=
  ⟨le_rfl, le_rfl, le_rfl⟩

/-! ## Rows with an outcome -/

def Job.isOutcome (j : Job) : Bool :=
  j.state.succeeded || j.state = .failed

/-- No job goes away, and those with an outcome keep it. -/
def Keeps (jobs jobs' : List Job) : Prop :=
  ∀ j ∈ jobs, ∃ j' ∈ jobs', j'.id = j.id ∧ (j.isOutcome = true → j'.state = j.state)

variable {jobs jobs' jobs'' : List Job} {l l' : Ledger} {j : Job} {job : JobId} {now : Time}

theorem keeps_refl : Keeps jobs jobs :=
  fun j hj => ⟨j, hj, rfl, fun _ => rfl⟩

theorem Keeps.trans (h : Keeps jobs jobs') (h' : Keeps jobs' jobs'') : Keeps jobs jobs'' := by
  intro j hj
  rcases h j hj with ⟨k, hk, hkid, hkstate⟩
  rcases h' k hk with ⟨i, hi, hiid, histate⟩
  refine ⟨i, hi, hiid.trans hkid, fun houtcome => ?_⟩
  have hsame := hkstate houtcome
  exact (histate (by simpa [Job.isOutcome, hsame] using houtcome)).trans hsame

theorem keeps_of_core (h : jobs'.map Job.core = jobs.map Job.core) : Keeps jobs jobs' := by
  intro j hj
  have hmem : j.core ∈ jobs'.map Job.core := h ▸ mem_map_of_mem hj
  rcases mem_map.mp hmem with ⟨k, hk, hcore⟩
  have hid : k.core.id = j.core.id := congrArg Job.id hcore
  have hstate : k.core.state = j.core.state := congrArg Job.state hcore
  exact ⟨k, hk, hid, fun _ => hstate⟩

/-- The job that is written has no outcome. -/
theorem keeps_update {row : Job → Job} (hrow : ∀ j, (row j).id = j.id)
    (hcore : jobs'.map Job.core = jobs.map Job.core)
    (hopen : ∀ j ∈ jobs, j.id = job → j.isOutcome = false) :
    Keeps jobs (update (fun j => j.id = job) row jobs') := by
  intro j hj
  rcases keeps_of_core hcore j hj with ⟨k, hk, hid, hstate⟩
  refine ⟨_, mem_update.mpr ⟨k, hk, rfl⟩, ?_⟩
  by_cases hp : k.id = job
  · rw [if_pos (by simpa using hp)]
    refine ⟨(hrow k).trans hid, fun houtcome => ?_⟩
    rw [hopen j hj (hid.symm.trans hp)] at houtcome
    cases houtcome
  · rw [if_neg (by simpa using hp)]
    exact ⟨hid, hstate⟩

theorem countP_le_of_keeps (h : Keeps jobs jobs') (hkeyed : Keyed Job.id jobs) {q : Job → Bool}
    (hq : ∀ j ∈ jobs, ∀ k ∈ jobs', k.id = j.id → (j.isOutcome = true → k.state = j.state) →
      q j = true → q k = true) : jobs.countP q ≤ jobs'.countP q := by
  have hsub : (jobs.filter q).map Job.id ⊆ (jobs'.filter q).map Job.id := by
    intro id hid
    rcases mem_map.mp hid with ⟨j, hj, rfl⟩
    rcases mem_filter.mp hj with ⟨hj, hqj⟩
    rcases h j hj with ⟨k, hk, hkid, hstate⟩
    exact mem_map.mpr ⟨k, mem_filter.mpr ⟨hk, hq j hj k hk hkid hstate hqj⟩, hkid⟩
  have hnodup : ((jobs.filter q).map Job.id).Nodup := hkeyed.sublist (filter_sublist.map _)
  simpa [countP_eq_length_filter] using (hnodup.subperm hsub).length_le

/-- Counts do not fall where outcomes are kept. -/
theorem outcomes_le_of_keeps (h : Keeps jobs jobs') (hkeyed : Keyed Job.id jobs) :
    (outcomes jobs).Le (outcomes jobs') := by
  refine ⟨?_, countP_le_of_keeps h hkeyed ?_, countP_le_of_keeps h hkeyed ?_⟩
  · simpa [outcomes] using countP_le_of_keeps h hkeyed (q := fun _ => true) fun _ _ _ _ _ _ _ => rfl
  · intro j _ k _ _ hstate hj
    rw [hstate (by simp [Job.isOutcome, hj])]
    exact hj
  · intro j _ k _ _ hstate hj
    rw [hstate (by simp [Job.isOutcome, of_decide_eq_true hj])]
    exact hj

theorem isOutcome_of_not_terminal (h : isLedgerTerminal j.state = false) : j.isOutcome = false := by
  cases hstate : j.state <;> simp_all [isLedgerTerminal, Job.isOutcome, Status.succeeded]

/-! ## Transactions -/

/-- A job with a leased attempt has no outcome yet. -/
theorem Balanced.no_outcome (h : Balanced (fun j => !j.idle) l) {a : AttemptId} (ha : leased l a)
    (haj : attemptOf l a job) (hj : j ∈ l.jobs) (hid : j.id = job) : j.isOutcome = false := by
  refine isOutcome_of_not_terminal ?_
  by_contra hterminal
  subst hid
  exact h.idle_unheld hj (by simp [Job.idle, hterminal]) (k := .lease) ha haj

theorem Balanced.keeps_recoverExpired (h : Balanced (fun j => !j.idle) l) (now : Time)
    (locked : AttemptId → Bool) (limit : Nat) :
    Keeps l.jobs (Ledger.recoverExpired l now locked limit).jobs := by
  refine (Balanced.recoverAll (P := fun l' => Keeps l.jobs l'.jobs) ?_ h
    (keyed_loadExpiredLeases h.leases)
    (fun _ hrow => ⟨(loaded_of_mem hrow).lease, (loaded_of_mem hrow).attemptOf⟩) keeps_refl).2
  intro l₁ row h₁ hlease hjob hkeeps
  exact hkeeps.trans (keeps_update (fun _ => rfl) (core_closeAttempt _ _ _ _ _)
    fun j hj hid => h₁.no_outcome hlease hjob hj hid)

theorem Balanced.keeps_claimNext (h : Balanced (fun j => !j.idle) l) {call : ClaimCall}
    {claim : Option SchedulerClaim} (hok : Ledger.claimNext l call = .ok (l', claim)) :
    Keeps l.jobs l'.jobs := by
  have hrecovered := h.keeps_recoverExpired call.recoveredAt call.locked schedulerRecoveryBatch
  rcases claimNextTx_ok (claimNext_ok hok) with
    ⟨rfl, _⟩ | ⟨job, retryAt, rfl, _⟩ | ⟨j, charge, attemptNo, fence, hstart, rfl, _⟩
  · exact hrecovered
  · exact hrecovered.trans (keeps_of_core (map_update fun _ => rfl))
  · refine hrecovered.trans (keeps_update (fun _ => rfl) rfl ?_)
    intro k hk hid
    have hclaimable := hstart.isClaimable
    simp only [claimable, Bool.and_eq_true, decide_eq_true_eq] at hclaimable
    have hkj : k = j := (h.recoverExpired call.recoveredAt call.locked
      schedulerRecoveryBatch).refs.job_unique hk hstart.mem hid
    simp [hkj, Job.isOutcome, Status.succeeded, hclaimable.1.1.1.1.1]

theorem Balanced.keeps_recordTransition (h : Balanced (fun j => !j.idle) l)
    {previous : Option BuildStatus} {current : BuildStatus} {fresh : AttemptId}
    (hfenced : current.attemptId.isSome = true)
    (hok : Ledger.recordTransition l previous current now fresh = .ok l') : Keeps l.jobs l'.jobs := by
  rcases Option.isSome_iff_exists.mp hfenced with ⟨attempt, hattempt⟩
  rcases recordTransition_fenced_ok hattempt hok with rfl | ⟨hlive, hrecord⟩
  · exact keeps_refl
  rcases claimLive_holds hlive with ⟨hjob, hlease⟩
  have hreport : Keeps l.jobs (reportJob l current now).jobs :=
    keeps_update (fun _ => rfl) rfl fun j hj hid => h.no_outcome hlease hjob hj hid
  rcases recordAttemptTransition_frame hrecord with ⟨_, rfl⟩ | ⟨_, q, p, phase, rfl⟩
  · exact hreport.trans (keeps_of_core (core_closeAttempt _ _ _ _ _))
  · exact hreport

theorem keeps_cancelJob {reason : String} {status : BuildStatus} (hrefs : l.refs.Sound)
    (hok : cancelJob l job reason now = .ok (l', status)) : Keeps l.jobs l'.jobs := by
  rcases cancelJob_ok hok with ⟨j, hj, hid, hlive, rfl, _⟩
  rcases settleJobAttemptUsage_eq with ⟨jobs, policies, heq, hcore, _⟩
  have hopen : ∀ k ∈ l.jobs, k.id = job → k.isOutcome = false := by
    intro k hk hkid
    rw [hrefs.job_unique hk hj (hkid.trans hid.symm)]
    exact isOutcome_of_not_terminal hlive
  unfold closeJob
  rw [heq]
  have hcanceled : Keeps l.jobs (update (fun j => j.id = job) (cancelJobRow reason now) l.jobs) :=
    keeps_update (fun _ => rfl) rfl hopen
  exact hcanceled.trans (keeps_of_core hcore)

theorem Balanced.keeps_finishPhaseAttempt (h : Balanced (fun j => !j.idle) l) {claim : PhaseClaim}
    {items : List PhaseItem} {status : StoredStatus} {detail : String} {at_ : Time}
    (hlock : lockTerminalPhaseClaim l claim now = .ok ())
    (hok : Ledger.finishPhaseAttempt { l with items := items } claim status detail at_ = .ok l') :
    Keeps l.jobs l'.jobs := by
  rcases lockTerminalPhaseClaim_ok hlock with ⟨_, x, hx, hxa, _⟩
  rcases finishPhaseAttempt_ok hok with ⟨hattempt, rfl⟩
  rcases releasePhaseAttempt_eq with ⟨jobs, policies, heq, hcore, _⟩
  rw [heq]
  exact keeps_update (fun _ => rfl) hcore fun j hj hid => h.no_outcome ⟨x, hx, hxa⟩ hattempt hj hid

/-- A transaction that meets the condition leaves outcomes alone. -/
theorem Inv.keeps {s : TotalsSystem} (h : Inv (fun j => !j.idle) s.system) {op : Op}
    (hop : keepsOutcomes s (.ledger op) = true) :
    Keeps s.system.ledger.jobs (Ledger.step s.system op).ledger.jobs := by
  rcases step_cases s.system op with heq | ⟨l, claim, hok, _, heq⟩
  · rw [heq]
    exact keeps_refl
  rw [heq]
  cases op.commits hok with
  | create call hk =>
    rcases createJob_ok hk with rfl | ⟨_, ⟨_, rfl⟩ | ⟨_, rfl⟩⟩
    · exact keeps_refl
    · exact fun j hj => ⟨j, mem_cons_of_mem _ hj, rfl, fun _ => rfl⟩
    · rcases upsertAttemptSnapshot_eq { s.system.ledger with jobs := newJob call :: s.system.ledger.jobs }
        call.status call.fresh with ⟨attempts, heq⟩
      rw [heq]
      exact fun j hj => ⟨j, mem_cons_of_mem _ hj, rfl, fun _ => rfl⟩
  | claim call c hk => exact h.balanced.keeps_claimNext hk
  | record previous current now fresh hk =>
    simp only [keepsOutcomes, Bool.and_eq_true] at hop
    exact h.balanced.keeps_recordTransition hop.1 hk
  | recover now locked limit => exact h.balanced.keeps_recoverExpired now locked limit
  | cancel job reason now status hk => exact keeps_cancelJob h.balanced.refs hk
  | retry job counted now status hk =>
    rcases retryJob_ok hk with ⟨j, hj, hid, hstate, _, rfl, _⟩
    refine keeps_update (fun _ => rfl) rfl ?_
    intro k hk hkid
    have hkj := h.balanced.refs.job_unique hk hj (hkid.trans hid.symm)
    have hkept := all_eq_true.mp hop k hk
    simp only [Bool.or_eq_true, decide_eq_true_eq] at hkept
    have hcanceled : k.state = .canceled :=
      (hkj ▸ hstate).resolve_left (hkept.resolve_left fun hne => hne hkid)
    simp [Job.isOutcome, Status.succeeded, hcanceled]
  | finalize c previous completed now at_ hk =>
    rcases finalizePhaseWork_ok hk with ⟨_, _, hlock, hfinish⟩
    exact h.balanced.keeps_finishPhaseAttempt hlock hfinish
  | failPhase c previous detail now at_ hk =>
    rcases failPhaseWorkAndJob_ok hk with ⟨hlock, _, _, hfinish⟩
    exact h.balanced.keeps_finishPhaseAttempt hlock hfinish
  | renew status leaseDuration now hk =>
    rcases renewClaim_ok hk with ⟨_, _, _, _, rfl⟩
    exact keeps_refl
  | activate status now hk =>
    rcases activatePhasePlan_ok hk with ⟨_, rfl⟩
    exact keeps_refl
  | claimPhase call hk =>
    rcases claimPhaseWork_frame hk with ⟨_, _, _, rfl⟩
    exact keeps_refl
  | renewPhase c lease now hk =>
    rcases renewPhaseWork_ok hk with ⟨_, _, rfl⟩
    exact keeps_refl
  | finishPhase c outcome now hk =>
    rcases finishPhaseWork_ok hk with ⟨_, _, _, rfl⟩
    exact keeps_refl
  | budget hk =>
    rcases hk.frame with ⟨_, _, rfl⟩
    exact keeps_refl

theorem respects_of_keepsOutcomes {s : TotalsSystem} {op : Op}
    (hop : keepsOutcomes s (.ledger op) = true) : op.Respects fun j => !j.idle := by
  refine op.respects_not_idle ?_ ?_
  · intro current hreports
    cases op <;> cases hreports
    simp only [keepsOutcomes, Bool.and_eq_true] at hop
    exact hop.1
  · rintro ⟨current, hreports, hqueued⟩
    cases op <;> cases hreports
    simp [keepsOutcomes, hqueued] at hop

/-! ## Observations -/

theorem outcomes_consistent : (outcomes jobs).Consistent := by
  have hfailed : jobs.countP (·.state = .failed) ≤ jobs.countP fun j => !j.state.succeeded :=
    countP_mono_left fun j _ h => by simp_all [Status.succeeded]
  have hlength := length_eq_countP_add_countP (fun j : Job => j.state.succeeded) (l := jobs)
  simp only [Bool.not_eq_true, Bool.decide_eq_false] at hlength
  simp only [BuildOutcomeTotals.Consistent, outcomes]
  omega

/-- The ratchet has nothing to hold up where the counts have not fallen. -/
theorem ratchet_of_le {a b : BuildOutcomeTotals} (h : a.Le b) : ratchetBuildOutcomeTotals a b = b := by
  rw [ratchetBuildOutcomeTotals, max_eq_right h.1, max_eq_right h.2.1, max_eq_right h.2.2]

theorem observe_cases {c : TotalsCache} :
    c.observe jobs now = c ∨
      (c.observe jobs now).buildTotals = ratchetBuildOutcomeTotals c.buildTotals (outcomes jobs) := by
  unfold TotalsCache.observe
  split
  · exact .inl rfl
  · exact .inr rfl

variable {s : TotalsSystem} {op : TotalsOp}

/-- Whatever happens, published totals do not fall. -/
theorem published_le_step (s : TotalsSystem) (op : TotalsOp) (i : Nat) :
    (s.replicas i).buildTotals.Le ((stepTotals s op).replicas i).buildTotals := by
  cases op with
  | ledger op => exact .refl _
  | observe replica now =>
    simp only [stepTotals]
    split
    · rcases observe_cases with heq | heq <;> rw [heq]
      · exact .refl _
      · exact ⟨le_max_left _ _, le_max_left _ _, le_max_left _ _⟩
    · exact .refl _

/-- Balanced books, and totals that are consistent and no more than the rows say. -/
structure TotalsInv (s : TotalsSystem) : Prop where
  inv : Inv (fun j => !j.idle) s.system
  le : ∀ i, (s.replicas i).buildTotals.Le (outcomes s.system.ledger.jobs)
  consistent : ∀ i, (s.replicas i).buildTotals.Consistent

theorem TotalsInv.step (h : TotalsInv s) (hkeep : keepsOutcomes s op = true) :
    TotalsInv (stepTotals s op) := by
  cases op with
  | ledger op =>
    have hkeyed : Keyed Job.id s.system.ledger.jobs := by
      have hrefs := h.inv.balanced.refs.jobs
      simpa [Keyed, Ledger.refs, Function.comp_def] using hrefs
    have hle := outcomes_le_of_keeps (h.inv.keeps hkeep) hkeyed
    refine ⟨h.inv.step (respects_of_keepsOutcomes hkeep), fun i => ?_, h.consistent⟩
    exact ⟨(h.le i).1.trans hle.1, (h.le i).2.1.trans hle.2.1, (h.le i).2.2.trans hle.2.2⟩
  | observe replica now =>
    have htotals : ∀ i, ((stepTotals s (.observe replica now)).replicas i).buildTotals.Le
          (outcomes s.system.ledger.jobs) ∧
        ((stepTotals s (.observe replica now)).replicas i).buildTotals.Consistent := by
      intro i
      simp only [stepTotals]
      split
      · rcases observe_cases with heq | heq <;> rw [heq]
        · exact ⟨h.le i, h.consistent i⟩
        · rw [ratchet_of_le (h.le i)]
          exact ⟨.refl _, outcomes_consistent⟩
      · exact ⟨h.le i, h.consistent i⟩
    exact ⟨h.inv, fun i => (htotals i).1, fun i => (htotals i).2⟩

/-- In every run whose reports are fenced and do not say `queued`, and in which no failed job is
retried, every replica publishes totals that do not fall and are consistent. -/
theorem totals_consistent_of_kept (policies : List Policy) (ops : List TotalsOp)
    (h : Along stepTotals (fun s op => keepsOutcomes s op = true) (.init policies) ops) :
    let s := run stepTotals (.init policies) ops
    (∀ op i, (s.replicas i).buildTotals.Le ((stepTotals s op).replicas i).buildTotals) ∧
      ∀ i, (s.replicas i).buildTotals.Consistent := by
  have hinit : TotalsInv (.init policies) :=
    ⟨inv_init busy_not_idle policies, fun _ => ⟨le_rfl, le_rfl, le_rfl⟩, fun _ => le_rfl⟩
  exact ⟨published_le_step _, (run_invariant (fun _ _ hs hop => hs.step hop) hinit h).consistent⟩

/-- Reports of the first attempt of a job, and of its second one. -/
def exampleReport (attempt : AttemptId) (fence : Nat) (status : Status) (now : Time) : TotalsOp :=
  .ledger (.record none { exampleStatus 1 attempt status now with fenceToken := fence } now 0)

/-- One build is completed; another one is canceled, retried and fails. -/
def outcomesRun : List TotalsOp :=
  [.ledger (exampleCreate 1 0), .ledger (exampleClaim 1 1 0), exampleReport 1 1 .completed 1,
    .observe 0 2, .ledger (exampleCreate 2 3), .ledger (.cancel 2 "operator" 4),
    .ledger (.retry 2 0 5), .ledger (exampleClaim 2 2 6),
    .ledger (.record none (exampleStatus 2 2 .failed 7) 7 0), .observe 0 20000000]

theorem totals_consistent_outcomes :
    ((run stepTotals (.init [examplePolicy]) outcomesRun).replicas 0).buildTotals = ⟨2, 1, 1⟩ ∧
      ((run stepTotals (.init [examplePolicy]) outcomesRun).replicas 0).buildTotals.Consistent :=
  ⟨by decide +kernel, (totals_consistent_of_kept [examplePolicy] outcomesRun (by decide +kernel)).2 0⟩

/-- A build fails, is retried and completed. -/
def retriedBuild : List TotalsOp :=
  [.ledger (exampleCreate 1 0), .ledger (exampleClaim 1 1 0), exampleReport 1 1 .failed 1,
    .observe 0 2, .ledger (.retry 1 1 3), .ledger (exampleClaim 1 2 4),
    exampleReport 2 2 .completed 5, .observe 0 20000000]

/-- Reports without a fence say that a job has failed, and later that it is completed. -/
def correctedBuild : List TotalsOp :=
  let report := fun previous status now => TotalsOp.ledger
    (.record previous { jobId := 1, status := status, updatedAt := now } now now)
  [.ledger (exampleCreate 1 0), report none .failed 1, .observe 0 2,
    report (some (exampleStatus 1 1 .failed 1)) .completed 3, .observe 0 20000000]

/-- In both runs the one job that was submitted is counted as succeeded and as failed. -/
theorem one_job_counted_twice :
    ((run stepTotals (.init [examplePolicy]) retriedBuild).replicas 0).buildTotals = ⟨1, 1, 1⟩ ∧
      ((run stepTotals (.init [examplePolicy]) correctedBuild).replicas 0).buildTotals = ⟨1, 1, 1⟩ := by
  decide +kernel

end PortageEngine.Ledger
