import PortageEngine.Ledger.Transition

/-!
# Phase work

The transactions of the phase executors: cutting an attempt over to its phase plan, claiming and
renewing one phase, finishing it, and ending the whole attempt from its last or a failed phase.  The
artifact budget that a phase accounts against is at the end.
-/

namespace PortageEngine.Ledger

open List Library
open Library.Decimal (trimSpace cutText int64)
open Library.Rows

/-- What `ClaimPhaseWork` hands to a phase executor. -/
structure PhaseClaim where
  id : ItemId
  project : ProjectId
  job : JobId
  attempt : AttemptId
  attemptFence : Nat
  phase : Phase
  sequence : Nat
  claimOwner : Worker
  claimFence : Nat
  status : BuildStatus
  deriving DecidableEq

/-- `validateMetadataFence`: the claim is live, or, where allowed, its job and attempt have ended. -/
def validateMetadataFence (l : Ledger) (status : BuildStatus) (allowTerminal : Bool) (now : Time) :
    Except LedgerError AttemptId := do
  let attempt ← found status.attemptId "runtime metadata requires an active durable attempt fence"
  require (0 < status.fenceToken && status.leaseOwner ≠ "")
    (.refused "runtime metadata requires an active durable attempt fence")
  require (l.attempts.any fun a => a.id = attempt && a.job = status.jobId &&
      a.fence = status.fenceToken && (l.jobs.any fun j => j.id = a.job &&
        ((l.leases.any fun x => x.attempt = attempt && now < x.expiresAt &&
            x.fence = status.fenceToken && x.owner = status.leaseOwner) ||
          (allowTerminal && isLedgerTerminal j.state && isLedgerTerminal a.state))))
    (.refused s!"job {status.jobId} runtime metadata fence is stale or expired")
  return attempt

variable {l l' : Ledger} {now : Time} {call : PhaseCall}

theorem validateMetadataFence_ok {status : BuildStatus} {allowTerminal : Bool} {attempt : AttemptId}
    (h : validateMetadataFence l status allowTerminal now = .ok attempt) :
    status.attemptId = some attempt ∧
      (∃ a ∈ l.attempts, a.id = attempt ∧ a.job = status.jobId) ∧
      (allowTerminal = false → ∃ x ∈ l.leases, x.attempt = attempt) := by
  rcases bind_eq_ok.mp h with ⟨attempt', hattempt, h⟩
  replace h := passed h
  rcases require_bind_eq_ok.mp h with ⟨hany, h⟩
  cases h
  simp only [any_eq_true, Bool.and_eq_true, Bool.or_eq_true, decide_eq_true_eq] at hany
  rcases hany with ⟨a, ha, ⟨⟨hid, hjob⟩, _⟩, j, _, _, hlive⟩
  refine ⟨found_eq_ok.mp hattempt, ⟨a, ha, hid, hjob⟩, ?_⟩
  intro hstrict
  rcases hlive with ⟨x, hx, ⟨⟨hxa, _⟩, _⟩, _⟩ | ⟨⟨hallow, _⟩, _⟩
  · exact ⟨x, hx, hxa⟩
  · simp [hstrict] at hallow

/-! ## Activating the plan -/

/-- Items that the cutover moves: an untouched plan. -/
def inShadowPlan (attempt : AttemptId) (i : PhaseItem) : Bool :=
  i.attempt = attempt && i.mode = .shadow &&
    ((i.phase = .provision && i.state = .ready) || (i.phase ≠ .provision && i.state = .blocked))

def activatePhasePlan (l : Ledger) (status : BuildStatus) (now : Time) :
    Except LedgerError Ledger := do
  let attempt ← validateMetadataFence l status false now
  let r ← found (l.reservations.find? fun r => r.attempt = attempt && r.active)
    "lock phase-plan reservation"
  require (r.phase = .claimed && status.status = .claimed)
    (.refused "phase plan can only activate at the claimed boundary")
  require (count (inShadowPlan attempt) l.items = 4)
    (.refused "phase work plan is incomplete or already activated")
  return { l with
    items := update (inShadowPlan attempt) (fun i => { i with mode := .active }) l.items }

theorem activatePhasePlan_ok {status : BuildStatus} (h : activatePhasePlan l status now = .ok l') :
    ∃ attempt, l' = { l with
      items := update (inShadowPlan attempt) (fun i => { i with mode := .active }) l.items } := by
  rcases bind_eq_ok.mp h with ⟨attempt, _, h⟩
  rcases bind_eq_ok.mp h with ⟨_, _, h⟩
  replace h := passed h
  replace h := passed h
  exact ⟨attempt, (Except.ok.inj h).symm⟩

/-! ## Claiming a phase -/

/-- Claimed items whose phase lease has run out go back to the queue. -/
def reclaimExpired (l : Ledger) (now : Time) : Ledger :=
  { l with
    items := update (fun i => i.state = .claimed && i.leaseExpiresAt.getD 0 ≤ now)
      (fun i => { i with
        state := .ready, claimOwner := "", leaseExpiresAt := none, availableAt := now
        error := "phase lease expired and was reclaimed" }) l.items }

def PhaseItem.leaseLive (i : PhaseItem) (now : Time) : Bool :=
  match i.leaseExpiresAt with
  | none => false
  | some expiresAt => now < expiresAt

/-- What a call of `ClaimPhaseWork` finds outside the tables; the ranking picks `item`. -/
structure PhaseCall where
  owner : Worker
  lease : Time
  item : ItemId
  now : Time

/-- The rows a claimable item is joined with. -/
structure PhaseCandidate where
  item : PhaseItem
  attempt : Attempt
  job : Job
  lease : Lease

/-- The `WHERE` clause of `ClaimPhaseWork`. -/
def phaseCandidate? (l : Ledger) (call : PhaseCall) : Option PhaseCandidate := do
  let now := call.now
  let i ← l.item? call.item
  let a ← l.attempt? i.attempt
  let j ← l.job? i.job
  let x ← l.lease? i.attempt
  guard (i.state = .ready && i.mode = .active && i.availableAt ≤ now)
  guard (l.reservations.any fun r => r.attempt = i.attempt && r.active)
  guard (l.usages.any fun u => u.attempt = i.attempt && u.active && now < u.deadline)
  guard (!isLedgerTerminal j.state && !isLedgerTerminal a.state)
  guard (x.fence = a.fence && now < x.expiresAt)
  -- an executor works on one phase at a time
  guard (!(l.items.any fun k => k.claimOwner = call.owner && k.state = .claimed && k.leaseLive now))
  return { item := i, attempt := a, job := j, lease := x }

theorem phaseCandidate?_some {c : PhaseCandidate} (h : phaseCandidate? l call = some c) :
    l.item? call.item = some c.item ∧ l.attempt? c.item.attempt = some c.attempt ∧
      l.job? c.item.job = some c.job ∧ c.item.state = .ready ∧
      (∃ r ∈ l.reservations, r.attempt = c.item.attempt ∧ r.active = true) ∧
      isLedgerTerminal c.job.state = false := by
  simp only [phaseCandidate?, Option.bind_eq_bind, Option.bind_eq_some_iff, guard,
    Option.pure_def, Option.failure_eq_none] at h
  rcases h with ⟨i, hi, a, ha, j, hj, x, _, _, hready, _, hreserved, _, _, _, hlive, _, _, _, _, h⟩
  cases h
  simp only [Option.ite_none_right_eq_some, Bool.and_eq_true, decide_eq_true_eq,
    Bool.not_eq_eq_eq_not, Bool.not_true, any_eq_true] at hready hreserved hlive
  exact ⟨hi, ha, hj, hready.1.1.1, hreserved.1, hlive.1.1⟩

def phaseClaimOf (call : PhaseCall) (c : PhaseCandidate) : PhaseClaim where
  id := c.item.id
  project := c.item.project
  job := c.item.job
  attempt := c.item.attempt
  attemptFence := c.attempt.fence
  phase := c.item.phase
  sequence := c.item.sequence
  claimOwner := call.owner
  claimFence := c.item.claimFence + 1
  status := { c.job.snapshot.decode c.item.job with
    attemptId := some c.item.attempt
    fenceToken := c.attempt.fence
    leaseOwner := c.lease.owner }

def takeItem (call : PhaseCall) (i : PhaseItem) : PhaseItem :=
  { i with
    state := .claimed, claimOwner := call.owner, claimFence := i.claimFence + 1
    leaseExpiresAt := some (call.now + call.lease), error := "" }

/-- `ClaimPhaseWork`.  A full phase defers the item and is not an error. -/
def claimPhaseWork (l : Ledger) (call : PhaseCall) :
    Except LedgerError (Ledger × Option PhaseClaim) := do
  let call := { call with owner := trimSpace call.owner }
  require (call.owner ≠ "" && call.owner.utf8ByteSize ≤ 256)
    (.refused "phase work owner is required")
  require (0 < call.lease) (.refused "phase work lease must be positive")
  let l := reclaimExpired l call.now
  match phaseCandidate? l call with
  | none => return (l, none)
  | some c =>
    match updateResourceReservationPhase l c.item.attempt (phaseWorkState c.item.phase) with
    | .error (.phaseCapacity _ _ _) =>
      return ({ l with
        items := update (fun i => i.id = c.item.id)
          (fun i => { i with availableAt := call.now + 250000 }) l.items }, none)
    | .error e => throw e
    | .ok l =>
      return ({ l with
        items := update (fun i => i.id = c.item.id && i.state = .ready) (takeItem call)
          l.items }, some (phaseClaimOf call c))

variable {claim : Option PhaseClaim} {status : StoredStatus} {at_ : Time}

/-- A claim call reclaims what has expired; then it finds nothing, defers an item or takes one. -/
theorem claimPhaseWork_ok
    (h : claimPhaseWork l call = .ok (l', claim)) :
    (l' = reclaimExpired l call.now ∧ claim = none) ∨
    (∃ item at_, claim = none ∧ l' = { reclaimExpired l call.now with
      items := update (fun i => i.id = item) (fun i => { i with availableAt := at_ })
        (reclaimExpired l call.now).items }) ∨
    ∃ call' c l₁, phaseCandidate? (reclaimExpired l call.now) call' = some c ∧
      updateResourceReservationPhase (reclaimExpired l call.now) c.item.attempt
        (phaseWorkState c.item.phase) = .ok l₁ ∧
      l' = { l₁ with
        items := update (fun i => i.id = c.item.id && i.state = .ready) (takeItem call')
          l₁.items } ∧
      claim = some (phaseClaimOf call' c) := by
  replace h := passed h
  replace h := passed h
  generalize hcall : { call with owner := trimSpace call.owner } = call' at h
  have hnow : call'.now = call.now := by rw [← hcall]
  rw [hnow] at h
  cases hfind : phaseCandidate? (reclaimExpired l call.now) call' with
  | none =>
    simp only [hfind] at h
    cases h
    exact .inl ⟨rfl, rfl⟩
  | some c =>
    simp only [hfind] at h
    cases hphase : updateResourceReservationPhase (reclaimExpired l call.now) c.item.attempt
        (phaseWorkState c.item.phase) with
    | ok l₁ =>
      simp only [hphase] at h
      cases h
      exact .inr (.inr ⟨call', c, l₁, hfind, hphase, rfl, rfl⟩)
    | error e =>
      simp only [hphase] at h
      cases e with
      | refused text => cases h
      | phaseCapacity phase used limit =>
        cases h
        exact .inr (.inl ⟨_, _, rfl, rfl⟩)

theorem claimPhaseWork_frame
    (h : claimPhaseWork l call = .ok (l', claim)) :
    ∃ items p phase, l' = { l with
      items := items
      reservations := update p (fun r => { r with phase := phase }) l.reservations } := by
  have hsame : l.reservations = update (fun _ => false) (fun r => { r with phase := .waiting })
      l.reservations := (update_eq_self fun _ _ => rfl).symm
  rcases claimPhaseWork_ok h with ⟨rfl, _⟩ | ⟨item, at_, _, rfl⟩ | ⟨call', c, l₁, _, hphase, rfl, _⟩
  · exact ⟨_, _, _, by rw [← hsame]; rfl⟩
  · exact ⟨_, _, _, by rw [← hsame]; rfl⟩
  · rcases updateResourceReservationPhase_frame hphase with ⟨p, phase, rfl⟩
    exact ⟨_, p, phase, rfl⟩

/-- The claim is the one its item row records. -/
def claimsItem (claim : PhaseClaim) (i : PhaseItem) : Bool :=
  i.id = claim.id && i.state = .claimed && i.claimOwner = claim.claimOwner &&
    i.claimFence = claim.claimFence

/-- `RenewPhaseWork`: both the phase lease and the attempt's lease must still be live. -/
def renewPhaseWork (l : Ledger) (claim : PhaseClaim) (lease : Time) (now : Time) :
    Except LedgerError Ledger := do
  require (0 < lease) (.refused "phase claim and positive lease are required")
  require (l.items.any fun i => claimsItem claim i && i.leaseLive now)
    (.refused "phase work lease is stale, expired, or no longer owned")
  let u ← found (l.usages.find? fun u => u.attempt = claim.attempt && u.active && now < u.deadline)
    "attempt lease is stale or expired"
  require (l.leases.any fun x =>
      x.attempt = claim.attempt && x.fence = claim.attemptFence && now < x.expiresAt)
    (.refused "attempt lease is stale or expired")
  return { l with
    items := update (fun i => claimsItem claim i && i.leaseLive now)
      (fun i => { i with leaseExpiresAt := some (now + lease) }) l.items
    leases := update (fun x =>
        x.attempt = claim.attempt && x.fence = claim.attemptFence && now < x.expiresAt)
      (fun x => { x with
        expiresAt := min u.deadline (max x.expiresAt (now + 120 * microsPerSecond)) }) l.leases }

variable {claim : PhaseClaim}

theorem renewPhaseWork_ok {lease : Time} (h : renewPhaseWork l claim lease now = .ok l') :
    ∃ u, (u ∈ l.usages ∧ u.attempt = claim.attempt ∧ ∃ i ∈ l.items, claimsItem claim i = true) ∧
    l' = { l with
      items := update (fun i => claimsItem claim i && i.leaseLive now)
        (fun i => { i with leaseExpiresAt := some (now + lease) }) l.items
      leases := update (fun x =>
          x.attempt = claim.attempt && x.fence = claim.attemptFence && now < x.expiresAt)
        (fun x => { x with
          expiresAt := min u.deadline (max x.expiresAt (now + 120 * microsPerSecond)) })
        l.leases } := by
  replace h := passed h
  rcases require_bind_eq_ok.mp h with ⟨hitem, h⟩
  rcases bind_eq_ok.mp h with ⟨u, hu, h⟩
  replace h := passed h
  have hfind := found_eq_ok.mp hu
  have hattempt := find?_some hfind
  simp only [any_eq_true, Bool.and_eq_true, decide_eq_true_eq] at hitem hattempt
  rcases hitem with ⟨i, hi, hclaims, _⟩
  exact ⟨u, ⟨mem_of_find?_eq_some hfind, hattempt.1.1, i, hi, hclaims⟩,
    (Except.ok.inj h).symm⟩

/-! ## Finishing a phase -/

inductive PhaseOutcome
  | completed
  | failed (detail : String)

def PhaseOutcome.state : PhaseOutcome → ItemState
  | .completed => .completed
  | .failed _ => .failed

def PhaseOutcome.detail : PhaseOutcome → String
  | .completed => ""
  | .failed detail => trimSpace detail

def closeItem (state : ItemState) (detail : String) (i : PhaseItem) : PhaseItem :=
  { i with state := state, leaseExpiresAt := none, error := detail }

/-- Blocked items of an attempt after a position. -/
def blockedAfter (attempt : AttemptId) (sequence : Nat) (i : PhaseItem) : Bool :=
  i.attempt = attempt && sequence < i.sequence && i.state = .blocked

/-- The first blocked item after the finished one becomes ready. -/
def releaseNext (attempt : AttemptId) (sequence : Nat) (now : Time) (items : List PhaseItem) :
    List PhaseItem :=
  update (fun i => blockedAfter attempt sequence i &&
      items.all fun k => !blockedAfter attempt sequence k || i.sequence ≤ k.sequence)
    (fun i => { i with state := .ready, availableAt := now }) items

def cancelDependants (attempt : AttemptId) (sequence : Nat) (items : List PhaseItem) :
    List PhaseItem :=
  update (fun i => i.attempt = attempt && sequence < i.sequence &&
      (i.state = .blocked || i.state = .ready))
    (fun i => { i with state := .canceled, error := "prior phase failed" }) items

/-- The items of an attempt after one of its phases is finished. -/
def finishItems (i : PhaseItem) (outcome : PhaseOutcome) (now : Time) (items : List PhaseItem) :
    List PhaseItem :=
  let items := update (fun k => k.id = i.id) (closeItem outcome.state outcome.detail) items
  let items := match outcome with
    | .completed => releaseNext i.attempt i.sequence now items
    | .failed _ => cancelDependants i.attempt i.sequence items
  -- executors that found the phase full may look again
  update (fun k => k.project = i.project && k.phase = i.phase && k.state = .ready)
    (fun k => { k with availableAt := min k.availableAt now }) items

def finishPhaseWork (l : Ledger) (claim : PhaseClaim) (outcome : PhaseOutcome) (now : Time) :
    Except LedgerError Ledger := do
  let i ← found (l.items.find? (claimsItem claim)) "lock claimed phase work"
  require (i.leaseLive now) (.refused "phase work lease expired")
  return { l with
    items := finishItems i outcome now l.items
    reservations := update (fun r => r.attempt = i.attempt && r.active)
      (fun r => { r with phase := .waiting }) l.reservations }

theorem finishPhaseWork_ok {outcome : PhaseOutcome}
    (h : finishPhaseWork l claim outcome now = .ok l') :
    ∃ i ∈ l.items, claimsItem claim i = true ∧ l' = { l with
      items := finishItems i outcome now l.items
      reservations := update (fun r => r.attempt = i.attempt && r.active)
        (fun r => { r with phase := .waiting }) l.reservations } := by
  rcases bind_eq_ok.mp h with ⟨i, hi, h⟩
  replace h := passed h
  have hfind := found_eq_ok.mp hi
  exact ⟨i, mem_of_find?_eq_some hfind, find?_some hfind, (Except.ok.inj h).symm⟩

/-! ## Ending the attempt -/

def lockTerminalPhaseClaim (l : Ledger) (claim : PhaseClaim) (now : Time) :
    Except LedgerError Unit :=
  require ((l.items.any fun i => claimsItem claim i && i.attempt = claim.attempt &&
      i.leaseLive now) &&
    (l.attempts.any fun a => a.id = claim.attempt && a.fence = claim.attemptFence) &&
    (l.leases.any fun x => x.attempt = claim.attempt && x.fence = claim.attemptFence &&
      now < x.expiresAt) &&
    (l.usages.any fun u => u.attempt = claim.attempt && u.active && now < u.deadline))
    (.refused "terminal phase claim is stale or expired")

theorem lockTerminalPhaseClaim_ok {u : Unit} (h : lockTerminalPhaseClaim l claim now = .ok u) :
    (∃ i ∈ l.items, claimsItem claim i = true ∧ i.attempt = claim.attempt) ∧
      ∃ x ∈ l.leases, x.attempt = claim.attempt ∧ x.fence = claim.attemptFence := by
  have hall := require_eq_ok.mp h
  simp only [Bool.and_eq_true, any_eq_true, decide_eq_true_eq] at hall
  rcases hall with ⟨⟨⟨⟨i, hi, ⟨hclaims, hattempt⟩, _⟩, _⟩, x, hx, ⟨hxa, hxf⟩, _⟩, _⟩
  exact ⟨⟨i, hi, hclaims, hattempt⟩, x, hx, hxa, hxf⟩

/-- The attempt row of an attempt that its phase executor ends. -/
def finishAttemptRow (l : Ledger) (claim : PhaseClaim) (status : StoredStatus) (detail : String)
    (at_ : Time) : Ledger :=
  { l with
    attempts := update (fun a =>
        a.id = claim.attempt && a.job = claim.job && a.fence = claim.attemptFence)
      (fun a => { a with
        state := status.status, failureDetail := detail, finishedAt := some at_ }) l.attempts }

/-- The job row of a job that ends with its attempt. -/
def finishJobRow (status : StoredStatus) (detail : String) (at_ : Time) (j : Job) : Job :=
  { j with
    state := status.status
    snapshot := status
    terminalReason := detail
    completedAt := some at_
    revision := j.revision + 1 }

/-- Like `closeAttempt`, but the phase items are left to the caller. -/
def releasePhaseAttempt (l : Ledger) (claim : PhaseClaim) (status : StoredStatus)
    (detail : String) (at_ : Time) : Ledger :=
  let l := settleAttemptUsage l claim.attempt status.status at_
  let l := { l with
    jobs := update (fun j => j.id = claim.job) (finishJobRow status detail at_) l.jobs
    leases := delete (fun x => x.attempt = claim.attempt && x.fence = claim.attemptFence) l.leases }
  releaseArtifactBudgetReservation (releaseResourceReservation l claim.attempt) claim.attempt

/-- `finishPhaseAttemptTx`. -/
def finishPhaseAttempt (l : Ledger) (claim : PhaseClaim) (status : StoredStatus) (detail : String)
    (at_ : Time) : Except LedgerError Ledger := do
  require (l.attempts.any fun a =>
      a.id = claim.attempt && a.job = claim.job && a.fence = claim.attemptFence)
    (.refused "finish phase attempt: attempt fence is stale")
  return releasePhaseAttempt (finishAttemptRow l claim status detail at_) claim status detail at_

theorem releasePhaseAttempt_eq
    {detail : String} :
    ∃ jobs policies,
      releasePhaseAttempt l claim status detail at_ = { l with
        usages := update (fun u => decide (u.attempt = claim.attempt) && u.active) (settle at_)
          l.usages
        jobs := update (fun j => j.id = claim.job) (finishJobRow status detail at_) jobs
        policies := policies
        leases := delete (fun x => x.attempt = claim.attempt && x.fence = claim.attemptFence)
          l.leases
        reservations := update (fun r => decide (r.attempt = claim.attempt) && r.active)
          (fun r => { r with active := false }) l.reservations
        generations := update (fun g => decide (g.attempt = claim.attempt) && g.active)
          (fun g => { g with active := false }) l.generations
        budgets := update (fun b => decide (b.attempt = claim.attempt) && b.active)
          (fun b => { b with active := false, activeBytes := 0 }) l.budgets } ∧
      jobs.map Job.core = l.jobs.map Job.core ∧
      policies.map Policy.limits = l.policies.map Policy.limits := by
  rcases settleAttemptUsage_eq l claim.attempt status.status at_ with ⟨jobs, policies, heq, hj, hp⟩
  refine ⟨jobs, policies, ?_, hj, hp⟩
  unfold releasePhaseAttempt
  rw [heq]
  rfl

theorem finishPhaseAttempt_ok {detail : String} (h : finishPhaseAttempt l claim status detail at_ = .ok l') :
    (∃ a ∈ l.attempts, a.id = claim.attempt ∧ a.job = claim.job) ∧
      l' = releasePhaseAttempt (finishAttemptRow l claim status detail at_) claim status detail
        at_ := by
  rcases require_bind_eq_ok.mp h with ⟨hany, h⟩
  simp only [any_eq_true, Bool.and_eq_true, decide_eq_true_eq] at hany
  rcases hany with ⟨a, ha, ⟨hid, hjob⟩, _⟩
  exact ⟨⟨a, ha, hid, hjob⟩, (Except.ok.inj h).symm⟩

def finalizePhaseWork (l : Ledger) (claim : PhaseClaim) (previous completed : BuildStatus)
    (now at_ : Time) : Except LedgerError Ledger := do
  require (claim.phase = .publish && completed.status = .completed)
    (.refused "final publish claim and completed status are required")
  lockTerminalPhaseClaim l claim now
  let j ← found (l.job? claim.job) "lock final phase job"
  checkExpectedState j (some previous)
  let l := { l with items := update (fun i => i.id = claim.id) (closeItem .completed "") l.items }
  finishPhaseAttempt l claim completed.toStoredStatus "" at_

theorem finalizePhaseWork_ok {previous completed : BuildStatus}
    (h : finalizePhaseWork l claim previous completed now at_ = .ok l') :
    claim.phase = .publish ∧ completed.status = .completed ∧
      lockTerminalPhaseClaim l claim now = .ok () ∧
      finishPhaseAttempt { l with
        items := update (fun i => i.id = claim.id) (closeItem .completed "") l.items }
        claim completed.toStoredStatus "" at_ = .ok l' := by
  rcases require_bind_eq_ok.mp h with ⟨hguard, h⟩
  rcases bind_eq_ok.mp h with ⟨⟨⟩, hlock, h⟩
  rcases bind_eq_ok.mp h with ⟨_, _, h⟩
  replace h := passed h
  have hpublish : claim.phase = .publish ∧ completed.status = .completed := by simpa using hguard
  exact ⟨hpublish.1, hpublish.2, hlock, h⟩

def Phase.text : Phase → String
  | .provision => "provision"
  | .build => "build"
  | .verify => "verify"
  | .publish => "publish"

def maxLedgerErrorBytes : Nat := 64 * 1024

def phaseFailureDetail (detail : String) : String :=
  cutText maxLedgerErrorBytes
    (if trimSpace detail = "" then "phase execution failed" else trimSpace detail)

def failPhaseWorkAndJob (l : Ledger) (claim : PhaseClaim) (previous : BuildStatus)
    (detail : String) (now at_ : Time) : Except LedgerError Ledger := do
  let detail := phaseFailureDetail detail
  lockTerminalPhaseClaim l claim now
  let j ← found (l.job? claim.job) "lock failed phase job"
  checkExpectedState j (some previous)
  let failed := { previous.toStoredStatus with
    status := .failed, error := detail, failedStage := claim.phase.text, updatedAt := at_ }
  let items := update (fun i => i.id = claim.id) (closeItem .failed detail) l.items
  let l := { l with items := cancelDependants claim.attempt claim.sequence items }
  finishPhaseAttempt l claim failed detail at_

theorem failPhaseWorkAndJob_ok {previous : BuildStatus} {detail : String}
    (h : failPhaseWorkAndJob l claim previous detail now at_ = .ok l') :
    lockTerminalPhaseClaim l claim now = .ok () ∧
      ∃ failed : StoredStatus, failed.status = .failed ∧
        finishPhaseAttempt { l with
          items := cancelDependants claim.attempt claim.sequence
            (update (fun i => i.id = claim.id) (closeItem .failed (phaseFailureDetail detail))
              l.items) }
          claim failed (phaseFailureDetail detail) at_ = .ok l' := by
  rcases bind_eq_ok.mp h with ⟨⟨⟩, hlock, h⟩
  rcases bind_eq_ok.mp h with ⟨_, _, h⟩
  replace h := passed h
  exact ⟨hlock, _, rfl, h⟩

/-! ## The artifact budget -/

/-- `ensureArtifactBudget`: the first use snapshots the project's limit. -/
def ensureArtifactBudget (l : Ledger) (job : JobId) (attempt : AttemptId) :
    Except LedgerError (Ledger × Budget) := do
  match l.budget? attempt with
  | some b =>
    require b.active (.refused "artifact budget is already released")
    return (l, b)
  | none =>
    let j ← found (l.job? job) "read artifact budget"
    let p ← found (l.policy? j.project) "read artifact budget"
    let b : Budget := {
      attempt := attempt, project := j.project, job := j.id, limitBytes := p.maxArtifactBytes
      activeBytes := 0, peakBytes := 0, active := true }
    return ({ l with budgets := b :: l.budgets }, b)

def artifactBudget (l : Ledger) (status : BuildStatus) (now : Time) :
    Except LedgerError (Ledger × Budget) := do
  let attempt ← validateMetadataFence l status false now
  ensureArtifactBudget l status.jobId attempt

def generationBytes (l : Ledger) (attempt : AttemptId) (name : String) : Nat :=
  match l.generations.find? fun g => g.attempt = attempt && g.name = name with
  | none => 0
  | some g => if g.active then g.sizeBytes else 0

/-- The row of a generation with its new size; a released generation becomes active again. -/
def reserveGeneration (attempt : AttemptId) (name : String) (size : Nat)
    (generations : List Generation) : List Generation :=
  if generations.any fun g => g.attempt = attempt && g.name = name then
    update (fun g => g.attempt = attempt && g.name = name)
      (fun g => { g with sizeBytes := size, active := true }) generations
  else { attempt := attempt, name := name, sizeBytes := size, active := true } :: generations

/-- `nextBytes` of `SetArtifactGenerationBytes`, in the 64-bit arithmetic of the code. -/
def nextBytes (active old size : Nat) : Int :=
  int64 (int64 (active - old) + size)

def setArtifactGenerationBytes (l : Ledger) (status : BuildStatus) (name : String) (size : Nat)
    (now : Time) : Except LedgerError Ledger := do
  require (trimSpace name ≠ "" && name.utf8ByteSize ≤ 160)
    (.refused "artifact generation and non-negative size are required")
  let attempt ← validateMetadataFence l status false now
  let (l, b) ← ensureArtifactBudget l status.jobId attempt
  let old := generationBytes l attempt name
  let held := int64 (b.activeBytes - old)
  let next := nextBytes b.activeBytes old size
  require (0 ≤ next && next ≤ b.limitBytes)
    (.refused s!"artifact quarantine budget exceeded: requested={size} active={held} limit={b.limitBytes}")
  return { l with
    generations := reserveGeneration attempt name size l.generations
    budgets := update (fun b => b.attempt = attempt && b.active)
      (fun b => { b with
        activeBytes := next.toNat, peakBytes := max b.peakBytes next.toNat }) l.budgets }

def releaseArtifactGeneration (l : Ledger) (status : BuildStatus) (name : String) (now : Time) :
    Except LedgerError Ledger := do
  let attempt ← validateMetadataFence l status true now
  if l.budgets.any fun b => b.attempt = attempt && b.active then
    let released := generationBytes l attempt name
    return { l with
      generations := update (fun g => g.attempt = attempt && g.name = name && g.active)
        (fun g => { g with active := false }) l.generations
      budgets := update (fun b => b.attempt = attempt && b.active)
        (fun b => { b with activeBytes := b.activeBytes - released }) l.budgets }
  return l

def releaseArtifactBudget (l : Ledger) (status : BuildStatus) (now : Time) :
    Except LedgerError Ledger := do
  let attempt ← validateMetadataFence l status true now
  if l.budgets.any fun b => b.attempt = attempt && b.active then
    return releaseArtifactBudgetReservation l attempt
  return l

end PortageEngine.Ledger
