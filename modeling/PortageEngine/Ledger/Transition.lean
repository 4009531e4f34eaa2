import PortageEngine.Ledger.Claim

/-!
# Status transitions, cancellation and retry

The transactions by which an executor reports on its attempt (`RecordTransition`, `RenewClaim`) and
by which an operator acts on a job (`CreateJob`, `CancelJob`, `RetryJob`).
-/

namespace PortageEngine.Ledger

open Library Library.Rows

/-! ## `RecordTransition` -/

/-- `upsertAttemptSnapshot`: a status without an attempt is filed under attempt number one. -/
def upsertAttemptSnapshot (l : Ledger) (current : BuildStatus) (fresh : AttemptId) : Ledger :=
  let finishedAt := if isLedgerTerminal current.status then some current.updatedAt else none
  if l.attempts.any fun a => a.job = current.jobId && a.attemptNo = 1 then
    { l with
      attempts := update (fun a => a.job = current.jobId && a.attemptNo = 1)
        (fun a => { a with
          state := current.status
          failureDetail := if current.status = .failed then current.error else a.failureDetail
          finishedAt := finishedAt.or a.finishedAt }) l.attempts }
  else
    { l with
      attempts := {
        id := fresh, job := current.jobId, attemptNo := 1, state := current.status, fence := 1
        worker := none, failureDetail := current.error, finishedAt := finishedAt } ::
          l.attempts }

theorem upsertAttemptSnapshot_eq (l : Ledger) (current : BuildStatus) (fresh : AttemptId) :
    ∃ attempts, upsertAttemptSnapshot l current fresh = { l with attempts := attempts } := by
  unfold upsertAttemptSnapshot
  by_cases hknown : (l.attempts.any fun a => a.job = current.jobId && a.attemptNo = 1) = true
  · simp only [hknown, if_true]
    exact ⟨_, rfl⟩
  · simp only [hknown, Bool.false_eq_true, if_false]
    exact ⟨_, rfl⟩

def reportAttempt (l : Ledger) (current : BuildStatus) (attempt : AttemptId) (at_ : Time) :
    Ledger :=
  let finishedAt := if isLedgerTerminal current.status then some at_ else none
  { l with
    attempts := update
      (fun a => a.id = attempt && a.job = current.jobId && a.fence = current.fenceToken)
      (fun a => { a with
        state := current.status
        failureDetail := if current.status = .failed then current.error else a.failureDetail
        finishedAt := finishedAt.or a.finishedAt }) l.attempts }

/-- `recordAttemptTransitionTx` for a status that names its attempt. -/
def recordAttemptTransition (l : Ledger) (current : BuildStatus) (attempt : AttemptId)
    (at_ : Time) : Except LedgerError Ledger := do
  require (l.attempts.any fun a =>
      a.id = attempt && a.job = current.jobId && a.fence = current.fenceToken)
    (.refused s!"job {current.jobId} fenced attempt was replaced")
  let l := reportAttempt l current attempt at_
  if isLedgerTerminal current.status then
    return closeAttempt l attempt current.status ("job_" ++ current.status.text) at_
  let l := if reservationPhase current.status = some .provision then
    markAttemptCloudStarted l attempt at_ else l
  updateResourceReservationPhase l attempt current.status

def reportJobRow (current : BuildStatus) (at_ : Time) (j : Job) : Job :=
  { j with
    state := current.status
    snapshot := current.toStoredStatus
    terminalReason := current.error
    completedAt := if isLedgerTerminal current.status then some at_ else j.completedAt
    revision := j.revision + 1 }

def reportJob (l : Ledger) (current : BuildStatus) (at_ : Time) : Ledger :=
  { l with jobs := update (fun j => j.id = current.jobId) (reportJobRow current at_) l.jobs }

/-- The state a caller that knows the previous status expects to find. -/
def checkExpectedState (j : Job) : Option BuildStatus → Except LedgerError Unit
  | none => .ok ()
  | some previous => require (j.state = previous.status)
      (.refused s!"job {j.id} ledger state is {j.state.text}, expected {previous.status.text}")

/-- `recordTransition`.  Two documents with the same digest are taken to be equal. -/
def recordTransition (l : Ledger) (previous : Option BuildStatus) (current : BuildStatus)
    (now : Time) (fresh : AttemptId) : Except LedgerError Ledger := do
  let j ← found (l.jobs.find? fun j => j.id = current.jobId && j.visible) "lock job ledger row"
  if j.state = current.status && j.snapshot = current.toStoredStatus then return l
  checkExpectedState j previous
  match current.attemptId with
  | none =>
    -- an unfenced report
    if current.status = .queued then return reportJob l current now
    require (!(l.attempts.any (·.id = fresh))) (.refused "upsert build attempt snapshot")
    return upsertAttemptSnapshot (reportJob l current now) current fresh
  | some attempt =>
    require (claimLive l attempt current.jobId current.fenceToken current.leaseOwner now)
      (.refused s!"job {current.jobId} durable claim is stale or expired")
    recordAttemptTransition (reportJob l current now) current attempt now

variable {l l' : Ledger} {current status : BuildStatus} {attempt fresh : AttemptId}
  {previous : Option BuildStatus} {now : Time} {job : JobId}

theorem recordAttemptTransition_ok {at_ : Time}
    (h : recordAttemptTransition l current attempt at_ = .ok l') :
    (isLedgerTerminal current.status = true ∧
      l' = closeAttempt (reportAttempt l current attempt at_) attempt current.status
        ("job_" ++ current.status.text) at_) ∨
    (isLedgerTerminal current.status = false ∧
      updateResourceReservationPhase
        (if reservationPhase current.status = some .provision then
          markAttemptCloudStarted (reportAttempt l current attempt at_) attempt at_
        else reportAttempt l current attempt at_) attempt current.status = .ok l') := by
  replace h := passed h
  by_cases hterminal : isLedgerTerminal current.status = true
  · rw [if_pos hterminal] at h
    exact .inl ⟨hterminal, (Except.ok.inj h).symm⟩
  · rw [if_neg hterminal] at h
    exact .inr ⟨by simpa using hterminal, h⟩

theorem recordAttemptTransition_frame {at_ : Time}
    (h : recordAttemptTransition l current attempt at_ = .ok l') :
    (isLedgerTerminal current.status = true ∧
      l' = closeAttempt (reportAttempt l current attempt at_) attempt current.status
        ("job_" ++ current.status.text) at_) ∨
    (isLedgerTerminal current.status = false ∧ ∃ q p phase,
      l' = { reportAttempt l current attempt at_ with
        usages := update q
          (fun u => { u with cloudStartedAt := some (u.cloudStartedAt.getD at_) }) l.usages
        reservations := update p (fun r => { r with phase := phase }) l.reservations }) := by
  rcases recordAttemptTransition_ok h with hended | ⟨hrunning, hmove⟩
  · exact .inl hended
  rcases updateResourceReservationPhase_frame hmove with ⟨p, phase, rfl⟩
  refine .inr ⟨hrunning, ?_⟩
  split
  · exact ⟨_, p, phase, rfl⟩
  · exact ⟨fun _ => false, p, phase, by rw [update_eq_self fun _ _ => rfl]; rfl⟩

/-- A transition that names its attempt changes the ledger only under that attempt's live claim. -/
theorem recordTransition_fenced_ok (hattempt : current.attemptId = some attempt)
    (h : recordTransition l previous current now fresh = .ok l') :
    l' = l ∨
    (claimLive l attempt current.jobId current.fenceToken current.leaseOwner now = true ∧
      recordAttemptTransition (reportJob l current now) current attempt now = .ok l') := by
  rcases bind_eq_ok.mp h with ⟨j, hj, h⟩
  by_cases hsame : (j.state = current.status && j.snapshot = current.toStoredStatus) = true
  · rw [if_pos hsame] at h
    exact .inl (Except.ok.inj h).symm
  rw [if_neg hsame] at h
  replace h := passed h
  rw [hattempt] at h
  rcases require_bind_eq_ok.mp h with ⟨hlive, h⟩
  exact .inr ⟨hlive, h⟩

theorem recordTransition_unfenced_ok (hattempt : current.attemptId = none)
    (h : recordTransition l previous current now fresh = .ok l') :
    l' = l ∨ l' = reportJob l current now ∨
      ((∀ a ∈ l.attempts, a.id ≠ fresh) ∧ (∃ j ∈ l.jobs, j.id = current.jobId) ∧
        l' = upsertAttemptSnapshot (reportJob l current now) current fresh) := by
  rcases bind_eq_ok.mp h with ⟨j, hj, h⟩
  by_cases hsame : (j.state = current.status && j.snapshot = current.toStoredStatus) = true
  · rw [if_pos hsame] at h
    exact .inl (Except.ok.inj h).symm
  rw [if_neg hsame] at h
  replace h := passed h
  rw [hattempt] at h
  by_cases hqueued : current.status = .queued
  · simp only [if_pos hqueued] at h
    exact .inr (.inl (Except.ok.inj h).symm)
  simp only [if_neg hqueued] at h
  rcases require_bind_eq_ok.mp h with ⟨hnew, h⟩
  have hfind := found_eq_ok.mp hj
  have hid : j.id = current.jobId ∧ j.visible = true := by simpa using List.find?_some hfind
  exact .inr (.inr ⟨by simpa using hnew, ⟨j, List.mem_of_find?_eq_some hfind, hid.1⟩,
    (Except.ok.inj h).symm⟩)

/-! ## `RenewClaim` -/

def renewClaim (l : Ledger) (status : BuildStatus) (leaseDuration : Time) (now : Time) :
    Except LedgerError Ledger := do
  let attempt ← found status.attemptId "missing durable claim identity"
  require (0 < status.fenceToken && status.leaseOwner ≠ "")
    (.refused "missing durable claim identity")
  require (claimLive l attempt status.jobId status.fenceToken status.leaseOwner now)
    (.refused "durable claim is stale, expired, or no longer owned")
  let u ← found (l.usage? attempt) "durable claim is stale, expired, or no longer owned"
  return { l with
    leases := update (fun x => x.attempt = attempt && x.fence = status.fenceToken &&
        x.owner = status.leaseOwner && now < x.expiresAt)
      (fun x => { x with expiresAt := min u.deadline (now + leaseDuration) }) l.leases }

theorem renewClaim_ok {leaseDuration : Time} (h : renewClaim l status leaseDuration now = .ok l') :
    ∃ attempt u, status.attemptId = some attempt ∧
      (claimLive l attempt status.jobId status.fenceToken status.leaseOwner now = true ∧
        l.usage? attempt = some u) ∧
      l' = { l with
        leases := update (fun x => x.attempt = attempt && x.fence = status.fenceToken &&
            x.owner = status.leaseOwner && now < x.expiresAt)
          (fun x => { x with expiresAt := min (Usage.deadline u) (now + leaseDuration) })
          l.leases } := by
  rcases bind_eq_ok.mp h with ⟨attempt, hattempt, h⟩
  replace h := passed h
  rcases require_bind_eq_ok.mp h with ⟨hlive, h⟩
  rcases bind_eq_ok.mp h with ⟨u, hu, h⟩
  exact ⟨attempt, u, found_eq_ok.mp hattempt, ⟨hlive, found_eq_ok.mp hu⟩,
    (Except.ok.inj h).symm⟩

/-! ## `CreateJob` -/

inductive JobSource
  | api
  | legacyJson
  deriving DecidableEq

/-- What a call of `createJob` carries. -/
structure CreateCall where
  project : ProjectId
  request : Build.BuildRequest
  idempotencyKey : String
  status : BuildStatus
  source : JobSource
  now : Time
  createdAt : Time
  fresh : AttemptId

/-- The request alone must fit the project's limits. -/
def checkRequestLimits (p : Policy) (request : Build.BuildRequest) : Except LedgerError Unit := do
  let charge ← chargeOf request
  require (charge.vcpus ≤ p.maxVCPUs) (.refused "vcpu_request_exceeds_limit")
  require (charge.memoryMiB ≤ p.maxMemoryMiB) (.refused "memory_request_exceeds_limit")
  require (charge.diskGiB ≤ p.maxDiskGiB) (.refused "disk_request_exceeds_limit")
  require (charge.seconds ≤ p.maxDailyBuildSeconds)
    (.refused "build_minute_request_exceeds_daily_limit")
  require (charge.cost ≤ p.maxDailyCloudCost) (.refused "cloud_cost_request_exceeds_daily_limit")

def queuedJobs (l : Ledger) (project : ProjectId) (except : Option JobId) : Nat :=
  count (fun j => j.project = project && except ≠ some j.id && j.visible && j.state = .queued)
    l.jobs

def checkSubmissionAdmission (l : Ledger) (call : CreateCall) : Except LedgerError Unit := do
  let p ← found (l.policy? call.project) "lock project submission policy"
  require (!p.suspended) (.refused "project_suspended")
  require (p.abuseSuspendedUntil.getD 0 ≤ call.now) (.refused "project_abuse_suspended")
  checkRequestLimits p call.request
  require (queuedJobs l call.project none < p.maxQueuedJobs) (.refused "queued_limit_reached")
  require (count (fun j => j.project = call.project && budgetDay j.createdAt = budgetDay call.now)
      l.jobs < p.maxDailySubmissions)
    (.refused "daily_submission_limit_reached")

def defaultMaxAttempts : Nat := 3

/-- The row that `createJob` inserts. -/
def newJob (call : CreateCall) : Job where
  id := call.status.jobId
  project := call.project
  idempotencyKey := if call.idempotencyKey = "" then none else some call.idempotencyKey
  request := call.request
  state := call.status.status
  snapshot := call.status.toStoredStatus
  maxAttempts := defaultMaxAttempts
  visible := true
  cancelRequestedAt := none
  nextAttemptAt := call.now
  createdAt := if call.source = .api then call.now else call.createdAt
  completedAt := none
  terminalReason := ""
  revision := 0

def loadIdempotentJob (l : Ledger) (call : CreateCall) : Option Job :=
  if call.idempotencyKey = "" then none else
    l.jobs.find? fun j => j.project = call.project && j.idempotencyKey = some call.idempotencyKey

/-- An API submission passes admission; an import is taken as it is. -/
def prepareJobCreation (l : Ledger) (call : CreateCall) : Except LedgerError Unit :=
  if call.source = .api then checkSubmissionAdmission l call else .ok ()

def createJob (l : Ledger) (call : CreateCall) : Except LedgerError Ledger :=
  match loadIdempotentJob l call with
  | some j => do
    require (j.request = call.request)
      (.refused "idempotency key already belongs to a different build request")
    return l
  | none => do
    prepareJobCreation l call
    require (!(l.jobs.any (·.id = call.status.jobId))) (.refused "insert job ledger row")
    let l := { l with jobs := newJob call :: l.jobs }
    if call.status.status = .queued then return l
    require (!(l.attempts.any (·.id = call.fresh))) (.refused "upsert build attempt snapshot")
    return upsertAttemptSnapshot l call.status call.fresh

theorem createJob_ok {call : CreateCall} (h : createJob l call = .ok l') :
    l' = l ∨
    ((∀ j ∈ l.jobs, j.id ≠ call.status.jobId) ∧
      ((call.status.status = .queued ∧ l' = { l with jobs := newJob call :: l.jobs }) ∨
        ((call.status.status ≠ .queued ∧ ∀ a ∈ l.attempts, a.id ≠ call.fresh) ∧
          l' = upsertAttemptSnapshot { l with jobs := newJob call :: l.jobs } call.status
            call.fresh))) := by
  unfold createJob at h
  cases hexisting : loadIdempotentJob l call with
  | some j =>
    rw [hexisting] at h
    replace h := passed h
    exact .inl (Except.ok.inj h).symm
  | none =>
    rw [hexisting] at h
    replace h := passed h
    rcases require_bind_eq_ok.mp h with ⟨hjob, h⟩
    have hnew : ∀ j ∈ l.jobs, j.id ≠ call.status.jobId := by simpa using hjob
    refine .inr ⟨hnew, ?_⟩
    by_cases hqueued : call.status.status = .queued
    · rw [if_pos hqueued] at h
      exact .inl ⟨hqueued, (Except.ok.inj h).symm⟩
    rw [if_neg hqueued] at h
    rcases require_bind_eq_ok.mp h with ⟨hfresh, h⟩
    exact .inr ⟨⟨hqueued, by simpa using hfresh⟩, (Except.ok.inj h).symm⟩

/-! ## `CancelJob` -/

def cancelJobRow (reason : String) (at_ : Time) (j : Job) : Job :=
  { j with
    state := .canceled
    cancelRequestedAt := some at_
    terminalReason := reason
    completedAt := some at_
    snapshot := { j.snapshot with status := .canceled, error := reason, updatedAt := at_ }
    revision := j.revision + 1 }

/-- Give back everything the attempts of a job hold, table by table. -/
def closeJob (l : Ledger) (job : JobId) (at_ : Time) : Ledger :=
  let l := settleJobAttemptUsage l job .canceled at_
  { l with
    leases := delete (fun x => l.attempts.any fun a => a.id = x.attempt && a.job = job) l.leases
    reservations := update (fun r => r.job = job && r.active)
      (fun r => { r with active := false }) l.reservations
    items := update (fun i => i.job = job && i.state.isOpen) (cancelItem "job_canceled") l.items
    generations := update
      (fun g => g.active && l.budgets.any fun b => b.attempt = g.attempt && b.job = job)
      (fun g => { g with active := false }) l.generations
    budgets := update (fun b => b.job = job && b.active)
      (fun b => { b with active := false, activeBytes := 0 }) l.budgets }

/-- Attempts of a canceled job that have not finished. -/
def cancelAttempts (l : Ledger) (job : JobId) (reason : String) (at_ : Time) : Ledger :=
  { l with
    attempts := update (fun a => a.job = job && a.finishedAt = none)
      (fun a => { a with state := .canceled, failureDetail := reason, finishedAt := some at_ })
      l.attempts }

/-- `CancelJob`; the second component is the status handed back to the caller. -/
def cancelJob (l : Ledger) (job : JobId) (reason : String) (now : Time) :
    Except LedgerError (Ledger × BuildStatus) := do
  let j ← found (l.jobs.find? fun j => j.id = job && j.visible) "no such job"
  require (!isLedgerTerminal j.state) (.refused s!"job {job} is already terminal ({j.state.text})")
  let l := { l with jobs := update (fun j => j.id = job) (cancelJobRow reason now) l.jobs }
  return (closeJob (cancelAttempts l job reason now) job now,
    (cancelJobRow reason now j).snapshot.decode job)

theorem cancelJob_ok {reason : String} (h : cancelJob l job reason now = .ok (l', status)) :
    ∃ j ∈ l.jobs, j.id = job ∧ isLedgerTerminal j.state = false ∧
      l' = closeJob (cancelAttempts
        { l with jobs := update (fun j => j.id = job) (cancelJobRow reason now) l.jobs }
        job reason now) job now ∧
      status = (cancelJobRow reason now j).snapshot.decode job := by
  rcases bind_eq_ok.mp h with ⟨j, hj, h⟩
  rcases require_bind_eq_ok.mp h with ⟨hlive, h⟩
  have hfind := found_eq_ok.mp hj
  have hid : j.id = job ∧ j.visible = true := by simpa using List.find?_some hfind
  cases h
  exact ⟨j, List.mem_of_find?_eq_some hfind, hid.1, by simpa using hlive, rfl, rfl⟩

/-! ## `RetryJob` -/

def lockAndCheckRetryAdmission (l : Ledger) (j : Job) (now : Time) : Except LedgerError Unit := do
  let p ← found (l.policy? j.project) "lock project retry policy"
  require (!p.suspended) (.refused "project_suspended")
  require (p.abuseSuspendedUntil.getD 0 ≤ now) (.refused "project_abuse_suspended")
  checkRequestLimits p j.request
  require (queuedJobs l j.project (some j.id) < p.maxQueuedJobs) (.refused "queued_limit_reached")

def retryJobRow (at_ : Time) (j : Job) : Job :=
  { j with
    state := .queued
    cancelRequestedAt := none
    terminalReason := ""
    completedAt := none
    nextAttemptAt := at_
    snapshot := { j.snapshot with
      status := .queued, error := "", failedStage := "", updatedAt := at_ }
    revision := j.revision + 1 }

/-- `RetryJob`.  The statement waits for the row and then goes by the row as it has become, but its
sub-select still counts the attempts that there were when it began to wait. -/
def retryJob (l : Ledger) (job : JobId) (counted : Nat) (now : Time) :
    Except LedgerError (Ledger × BuildStatus) := do
  let j ← found (l.jobs.find? fun j => j.id = job && j.visible) "no such job"
  require (j.state = .failed || j.state = .canceled)
    (.refused s!"job {job} is {j.state.text}; only failed or canceled jobs can retry")
  require (counted < j.maxAttempts)
    (.refused s!"job {job} exhausted {j.maxAttempts} attempts")
  lockAndCheckRetryAdmission l j now
  return ({ l with jobs := update (fun j => j.id = job) (retryJobRow now) l.jobs },
    (retryJobRow now j).snapshot.decode job)

theorem retryJob_ok {counted : Nat} (h : retryJob l job counted now = .ok (l', status)) :
    ∃ j ∈ l.jobs, j.id = job ∧ (j.state = .failed ∨ j.state = .canceled) ∧ counted < j.maxAttempts ∧
      l' = { l with jobs := update (fun j => j.id = job) (retryJobRow now) l.jobs } ∧
      status = (retryJobRow now j).snapshot.decode job := by
  rcases bind_eq_ok.mp h with ⟨j, hj, h⟩
  rcases require_bind_eq_ok.mp h with ⟨hstate, h⟩
  rcases require_bind_eq_ok.mp h with ⟨hcount, h⟩
  replace h := passed h
  have hfind := found_eq_ok.mp hj
  have hid : j.id = job ∧ j.visible = true := by simpa using List.find?_some hfind
  cases h
  exact ⟨j, List.mem_of_find?_eq_some hfind, hid.1, by simpa using hstate, by simpa using hcount,
    rfl, rfl⟩

end PortageEngine.Ledger
