import PortageEngine.Ledger.Accounting

/-!
# Claiming and recovering attempts

`ClaimNext`: recover a batch of expired leases, pick a queued job, check the project's quotas and
start an attempt.  The ranking of projects and jobs, the executor's capabilities and the rows that
another transaction has locked decide which of the claimable jobs and expired leases a call sees;
they are arguments here, so that every choice is covered.
-/

namespace PortageEngine.Ledger

open Library Library.Rows

/-! ## Expired leases -/

/-- A row of `loadExpiredLeases`. -/
structure ExpiredLease where
  attempt : AttemptId
  job : JobId
  attemptNo : Nat
  maxAttempts : Nat
  canceled : Bool
  snapshot : StoredStatus

/-- The join of a lease with its attempt and job, if the lease has run out under a live job. -/
def expiredLease? (l : Ledger) (now : Time) (x : Lease) : Option ExpiredLease := do
  let a ← l.attempt? x.attempt
  let j ← l.job? a.job
  guard (x.expiresAt ≤ now && !isLedgerTerminal j.state)
  return {
    attempt := a.id
    job := j.id
    attemptNo := a.attemptNo
    maxAttempts := j.maxAttempts
    canceled := j.cancelRequestedAt.isSome
    snapshot := j.snapshot }

/-- `loadExpiredLeases`: the oldest expired leases that no other transaction holds. -/
def loadExpiredLeases (l : Ledger) (now : Time) (locked : AttemptId → Bool) (limit : Nat) :
    List ExpiredLease :=
  (((l.leases.filter fun x => !locked x.attempt).insertionSort
    fun a b => a.expiresAt ≤ b.expiresAt).filterMap (expiredLease? l now)).take limit

def expiredLeaseOutcome (row : ExpiredLease) : Status × String :=
  if row.canceled then (.canceled, "job canceled while executor lease was active")
  else if row.maxAttempts ≤ row.attemptNo then
    (.failed, "executor lease expired and maximum attempts were exhausted")
  else (.queued, "previous executor lease expired; job queued for a fenced retry")

def closeAttempt (l : Ledger) (attempt : AttemptId) (terminalState : Status) (reason : String)
    (at_ : Time) : Ledger :=
  let l := settleAttemptUsage l attempt terminalState at_
  let l := deleteLease l attempt
  let l := releaseResourceReservation l attempt
  let l := releaseArtifactBudgetReservation l attempt
  cancelPhaseWorkItems l attempt reason

variable {l : Ledger} {call : ClaimCall} {claim : Option SchedulerClaim}

theorem closeAttempt_eq {attempt : AttemptId} {terminalState : Status}
    {reason : String} {at_ : Time} :
    ∃ jobs policies,
      closeAttempt l attempt terminalState reason at_ = { l with
        usages := update (fun u => decide (u.attempt = attempt) && u.active) (settle at_) l.usages
        jobs := jobs
        policies := policies
        leases := delete (fun x => x.attempt = attempt) l.leases
        reservations := update (fun r => decide (r.attempt = attempt) && r.active)
          (fun r => { r with active := false }) l.reservations
        generations := update (fun g => decide (g.attempt = attempt) && g.active)
          (fun g => { g with active := false }) l.generations
        budgets := update (fun b => decide (b.attempt = attempt) && b.active)
          (fun b => { b with active := false, activeBytes := 0 }) l.budgets
        items := update (fun i => decide (i.attempt = attempt) && i.state.isOpen)
          (cancelItem reason) l.items } ∧
      jobs.map Job.core = l.jobs.map Job.core ∧
      policies.map Policy.limits = l.policies.map Policy.limits := by
  rcases settleAttemptUsage_eq l attempt terminalState at_ with ⟨jobs, policies, heq, hj, hp⟩
  refine ⟨jobs, policies, ?_, hj, hp⟩
  unfold closeAttempt
  rw [heq]
  rfl

def expireAttempt (l : Ledger) (attempt : AttemptId) (reason : String) (at_ : Time) : Ledger :=
  { l with
    attempts := update (fun a => a.id = attempt)
      (fun a => { a with state := .expired, failureDetail := reason, finishedAt := some at_ })
      l.attempts }

/-- The job row of a job whose attempt has expired. -/
def expireJob (row : ExpiredLease) (at_ : Time) (j : Job) : Job :=
  let (state, reason) := expiredLeaseOutcome row
  { j with
    state := state
    snapshot := { row.snapshot with status := state, error := reason, updatedAt := at_ }
    terminalReason := reason
    completedAt := if state = .failed || state = .canceled then some at_ else none
    nextAttemptAt := at_
    revision := j.revision + 1 }

def recoverExpiredLease (at_ : Time) (l : Ledger) (row : ExpiredLease) : Ledger :=
  let l := expireAttempt l row.attempt (expiredLeaseOutcome row).2 at_
  let l := closeAttempt l row.attempt .expired "lease_expired" at_
  { l with jobs := update (fun j => j.id = row.job) (expireJob row at_) l.jobs }

def schedulerRecoveryBatch : Nat := 32

/-- `recoverExpiredTx`. -/
def recoverExpired (l : Ledger) (now : Time) (locked : AttemptId → Bool) (limit : Nat) : Ledger :=
  (loadExpiredLeases l now locked limit).foldl (recoverExpiredLease now) l

/-! ## Candidates and admission -/

/-- What a call of `ClaimNext` finds outside the tables. -/
structure ClaimCall where
  worker : Worker
  kind : LeaseKind
  leaseDuration : Time
  recoveredAt : Time
  locked : AttemptId → Bool
  candidate : JobId
  selectedAt : Time
  admittedAt : Time
  persistedAt : Time
  attempt : AttemptId
  items : Phase → ItemId

/-- Jobs of a project that are being worked on. -/
def activeJobs (l : Ledger) (project : ProjectId) (except : Option JobId) : Nat :=
  count (fun j => j.project = project && except ≠ some j.id && j.visible && isActiveState j.state)
    l.jobs

/-- The `WHERE` clause of `selectClaimCandidate`. -/
def claimable (l : Ledger) (call : ClaimCall) (j : Job) : Bool :=
  j.state = .queued && j.cancelRequestedAt = none && j.visible &&
    j.nextAttemptAt ≤ call.selectedAt &&
    (match l.policy? j.project with
      | none => false
      | some p => !p.suspended && p.abuseSuspendedUntil.getD 0 ≤ call.selectedAt &&
          activeJobs l j.project none < p.maxActiveJobs) &&
    -- only an admission worker may hold several leases
    (call.kind = .admission ||
      !(l.leases.any fun x => x.owner = call.worker && call.selectedAt < x.expiresAt))

structure Charge where
  vcpus : Nat
  memoryMiB : Nat
  diskGiB : Nat
  seconds : Nat
  costPerMinute : Nat
  cost : Nat

/-- The decoded resource vector and runtime budget; both decoders return positive numbers. -/
def chargeOf (request : Build.BuildRequest) : Except LedgerError Charge := do
  let resources ← (Build.resourceVectorFromRequest request).mapError .refused
  let budget ← (Build.runtimeBudgetSpecFromRequest request).mapError .refused
  return {
    vcpus := resources.vcpus.toNat
    memoryMiB := resources.memoryMiB.toNat
    diskGiB := resources.diskGiB.toNat
    seconds := budget.maxRuntimeSeconds.toNat
    costPerMinute := budget.cloudCostMicrounitsPerMinute.toNat
    cost := budget.reservedCloudCostMicrounits.toNat }

/-- What a usage record counts for: the reservation while it is active, then the charge. -/
def Usage.seconds (u : Usage) : Nat :=
  if u.active then u.reservedSeconds else u.chargedSeconds

def Usage.cost (u : Usage) : Nat :=
  if u.active then u.reservedCost else u.chargedCost

def reservedVCPUs (l : Ledger) (project : ProjectId) : Nat :=
  total (fun r => r.project = project && r.active) (·.vcpus) l.reservations

def reservedMemory (l : Ledger) (project : ProjectId) : Nat :=
  total (fun r => r.project = project && r.active) (·.memoryMiB) l.reservations

def reservedDisk (l : Ledger) (project : ProjectId) : Nat :=
  total (fun r => r.project = project && r.active) (·.diskGiB) l.reservations

/-- Attempts of a project in one reservation phase. -/
def phaseReservations (l : Ledger) (project : ProjectId) (phase : ReservationPhase) : Nat :=
  count (fun r => r.project = project && r.active && r.phase = phase) l.reservations

def dailySeconds (l : Ledger) (project : ProjectId) (day : Nat) : Nat :=
  total (fun u => u.project = project && u.budgetDay = day) Usage.seconds l.usages

def dailyCost (l : Ledger) (project : ProjectId) (day : Nat) : Nat :=
  total (fun u => u.project = project && u.budgetDay = day) Usage.cost l.usages

/-- The decision of `lockAndCheckClaimAdmission`; a refusal may name the time to try again. -/
inductive Admission
  | admitted
  | refused (retryAt : Option Time)

/-- `lockAndCheckClaimAdmission`.  Its clock reading precedes the one that dates the attempt. -/
def lockAndCheckClaimAdmission (l : Ledger) (project : ProjectId) (job : JobId) (charge : Charge)
    (now : Time) : Except LedgerError Admission := do
  let p ← found (l.policy? project) "lock project claim policy"
  if p.suspended then return .refused none
  if now < p.abuseSuspendedUntil.getD 0 then return .refused p.abuseSuspendedUntil
  if p.maxActiveJobs ≤ activeJobs l project (some job) then return .refused none
  if p.maxClaimed ≤ phaseReservations l project .claimed then return .refused none
  if p.maxVCPUs < reservedVCPUs l project + charge.vcpus ||
      p.maxMemoryMiB < reservedMemory l project + charge.memoryMiB ||
      p.maxDiskGiB < reservedDisk l project + charge.diskGiB then
    return .refused none
  if p.maxDailyBuildSeconds < dailySeconds l project (budgetDay now) + charge.seconds ||
      p.maxDailyCloudCost < dailyCost l project (budgetDay now) + charge.cost then
    return .refused (some ((budgetDay now + 1) * (86400 * microsPerSecond)))
  return .admitted

theorem lockAndCheckClaimAdmission_admitted {project : ProjectId} {job : JobId}
    {charge : Charge} {now : Time}
    (h : lockAndCheckClaimAdmission l project job charge now = .ok .admitted) :
    ∃ p, l.policy? project = some p ∧
      activeJobs l project (some job) < p.maxActiveJobs ∧
      phaseReservations l project .claimed < p.maxClaimed ∧
      reservedVCPUs l project + charge.vcpus ≤ p.maxVCPUs ∧
      reservedMemory l project + charge.memoryMiB ≤ p.maxMemoryMiB ∧
      reservedDisk l project + charge.diskGiB ≤ p.maxDiskGiB ∧
      dailySeconds l project (budgetDay now) + charge.seconds ≤ p.maxDailyBuildSeconds ∧
      dailyCost l project (budgetDay now) + charge.cost ≤ p.maxDailyCloudCost := by
  rcases bind_eq_ok.mp h with ⟨p, hp, h⟩
  refine ⟨p, found_eq_ok.mp hp, ?_⟩
  by_cases hsuspended : p.suspended = true
  · rw [if_pos hsuspended] at h
    cases h
  rw [if_neg hsuspended] at h
  by_cases habuse : now < p.abuseSuspendedUntil.getD 0
  · rw [if_pos habuse] at h
    cases h
  rw [if_neg habuse] at h
  by_cases hactive : p.maxActiveJobs ≤ activeJobs l project (some job)
  · rw [if_pos hactive] at h
    cases h
  rw [if_neg hactive] at h
  by_cases hclaimed : p.maxClaimed ≤ phaseReservations l project .claimed
  · rw [if_pos hclaimed] at h
    cases h
  rw [if_neg hclaimed] at h
  split at h
  · cases h
  rename_i hresources
  split at h
  · cases h
  rename_i hbudget
  simp only [Bool.or_eq_true, decide_eq_true_eq, not_or, Nat.not_lt, Nat.not_le] at *
  exact ⟨hactive, hclaimed, hresources.1.1, hresources.1.2, hresources.2, hbudget.1, hbudget.2⟩

def deferJob (l : Ledger) (job : JobId) (retryAt : Option Time) (at_ : Time) : Ledger :=
  { l with
    jobs := update (fun j => j.id = job && j.state = .queued)
      (fun j => { j with nextAttemptAt := max (retryAt.getD 0) (at_ + 250000) }) l.jobs }

/-! ## Starting an attempt -/

def allocateAttemptFence (l : Ledger) (j : Job) : Except LedgerError (Nat × Nat) := do
  let own := l.attempts.filter (·.job = j.id)
  let attemptNo := (own.map (·.attemptNo)).foldl max 0 + 1
  let fence := (own.map (·.fence)).foldl max 0 + 1
  require (attemptNo ≤ j.maxAttempts) (.refused s!"job {j.id} exceeded max attempts")
  return (attemptNo, fence)

def phaseSequence : Phase → Nat
  | .provision => 10
  | .build => 20
  | .verify => 30
  | .publish => 40

/-- A row of `insertPhaseWorkPlan`: only the first phase is ready. -/
def plannedItem (call : ClaimCall) (j : Job) (phase : Phase) : PhaseItem where
  id := call.items phase
  project := j.project
  job := j.id
  attempt := call.attempt
  phase := phase
  sequence := phaseSequence phase
  mode := .shadow
  state := if phase = .provision then .ready else .blocked
  availableAt := call.persistedAt
  claimOwner := ""
  claimFence := 0
  leaseExpiresAt := none
  error := ""

/-- `insertPhaseWorkPlan`. -/
def phaseWorkPlan (call : ClaimCall) (j : Job) : List PhaseItem :=
  Phase.all.map (plannedItem call j)

/-- The status document of a freshly claimed job. -/
def claimedStatus (j : Job) (at_ : Time) : StoredStatus :=
  { j.snapshot with status := .claimed, error := "", updatedAt := at_ }

def claimOf (call : ClaimCall) (j : Job) (fence : Nat) : SchedulerClaim where
  request := j.request
  status := { (claimedStatus j call.persistedAt).decode j.id with
    attemptId := some call.attempt
    fenceToken := fence
    leaseOwner := call.worker }

def claimJobRow (snapshot : StoredStatus) (j : Job) : Job :=
  { j with
    state := .claimed
    snapshot := snapshot
    terminalReason := ""
    revision := j.revision + 1 }

/-- The rows that `persistClaim` writes. -/
def startAttempt (l : Ledger) (call : ClaimCall) (j : Job) (charge : Charge)
    (attemptNo fence : Nat) : Ledger :=
  let now := call.persistedAt
  { l with
    attempts := {
      id := call.attempt, job := j.id, attemptNo := attemptNo, state := .claimed, fence := fence,
      worker := some call.worker, failureDetail := "", finishedAt := none } :: l.attempts
    reservations := {
      attempt := call.attempt, project := j.project, job := j.id
      resourceClass := j.request.resourceClass
      vcpus := charge.vcpus, memoryMiB := charge.memoryMiB, diskGiB := charge.diskGiB
      phase := .claimed, active := true } :: l.reservations
    usages := {
      attempt := call.attempt, project := j.project, job := j.id, budgetDay := budgetDay now
      maxRuntimeSeconds := charge.seconds, costPerMinute := charge.costPerMinute
      reservedSeconds := charge.seconds, reservedCost := charge.cost
      chargedSeconds := 0, chargedCost := 0, meteringStartedAt := now
      cloudStartedAt := none, active := true } :: l.usages
    items := phaseWorkPlan call j ++ l.items
    leases := {
      attempt := call.attempt, fence := fence, kind := call.kind, owner := call.worker
      expiresAt := min (now + call.leaseDuration) (now + charge.seconds * microsPerSecond) } ::
        l.leases
    jobs := update (fun x => x.id = j.id) (claimJobRow (claimedStatus j now)) l.jobs }

/-- The identifiers of a claim are new: none of the primary keys is taken. -/
def freshIds (l : Ledger) (call : ClaimCall) : Bool :=
  !(l.attempts.any (·.id = call.attempt)) &&
    (Phase.all.map call.items).Nodup &&
    !(l.items.any fun i => Phase.all.any fun phase => i.id = call.items phase)

def claimNextTx (l : Ledger) (call : ClaimCall) :
    Except LedgerError (Ledger × Option SchedulerClaim) :=
  match l.jobs.find? fun j => j.id = call.candidate && claimable l call j with
  | none => .ok (l, none)
  | some j => do
    let charge ← chargeOf j.request
    match ← lockAndCheckClaimAdmission l j.project j.id charge call.admittedAt with
    | .refused retryAt => return (deferJob l j.id retryAt call.admittedAt, none)
    | .admitted =>
      let (attemptNo, fence) ← allocateAttemptFence l j
      require (freshIds l call) (.refused "insert claimed attempt")
      return (startAttempt l call j charge attemptNo fence, some (claimOf call j fence))

/-- Everything a claim that starts an attempt has established. -/
structure ClaimStarted (l : Ledger) (call : ClaimCall) (j : Job) (charge : Charge)
    (attemptNo fence : Nat) : Prop where
  mem : j ∈ l.jobs
  selected : j.id = call.candidate
  isClaimable : claimable l call j = true
  charged : chargeOf j.request = .ok charge
  admitted : lockAndCheckClaimAdmission l j.project j.id charge call.admittedAt = .ok .admitted
  allocated : allocateAttemptFence l j = .ok (attemptNo, fence)
  fresh : freshIds l call = true

theorem claimNextTx_ok {l l' : Ledger}
    (h : claimNextTx l call = .ok (l', claim)) :
    (l' = l ∧ claim = none) ∨
    (∃ job retryAt, l' = deferJob l job retryAt call.admittedAt ∧ claim = none) ∨
    ∃ j charge attemptNo fence, ClaimStarted l call j charge attemptNo fence ∧
      l' = startAttempt l call j charge attemptNo fence ∧ claim = some (claimOf call j fence) := by
  unfold claimNextTx at h
  cases hfind : l.jobs.find? fun j => decide (j.id = call.candidate) && claimable l call j with
  | none =>
    rw [hfind] at h
    cases h
    exact .inl ⟨rfl, rfl⟩
  | some j =>
    rw [hfind] at h
    rcases bind_eq_ok.mp h with ⟨charge, hcharge, h⟩
    rcases bind_eq_ok.mp h with ⟨admission, hadmission, h⟩
    have hj : j.id = call.candidate ∧ claimable l call j = true := by
      simpa using List.find?_some hfind
    cases admission with
    | refused retryAt =>
      cases h
      exact .inr (.inl ⟨j.id, retryAt, rfl, rfl⟩)
    | admitted =>
      rcases bind_eq_ok.mp h with ⟨⟨attemptNo, fence⟩, hfence, h⟩
      rcases require_bind_eq_ok.mp h with ⟨hfresh, h⟩
      cases h
      exact .inr (.inr ⟨j, charge, attemptNo, fence,
        ⟨List.mem_of_find?_eq_some hfind, hj.1, hj.2, hcharge, hadmission, hfence, hfresh⟩,
        rfl, rfl⟩)

def claimNext (l : Ledger) (call : ClaimCall) :
    Except LedgerError (Ledger × Option SchedulerClaim) := do
  require (call.worker ≠ "") (.refused "stable worker name is required")
  require (0 < call.leaseDuration) (.refused "lease duration must be positive")
  claimNextTx (recoverExpired l call.recoveredAt call.locked schedulerRecoveryBatch) call

theorem claimNext_ok {l l' : Ledger}
    (h : claimNext l call = .ok (l', claim)) :
    claimNextTx (recoverExpired l call.recoveredAt call.locked schedulerRecoveryBatch) call =
      .ok (l', claim) :=
  (require_bind_eq_ok.mp (require_bind_eq_ok.mp h).2).2

end PortageEngine.Ledger
