import PortageEngine.Ledger.Schema

/-!
# Settlement and release

The statements by which the ledger's transactions give back what an attempt holds: settling its
usage record, releasing its reservation and artifact budget, canceling its phase items.  Each is a
function of the table contents; the transactions of the other modules compose them.
-/

namespace PortageEngine.Ledger

open Library Library.Rows

/-! ## Usage -/

def ceilDiv (n d : Nat) : Nat :=
  (n + d - 1) / d

def settledSeconds (u : Usage) (at_ : Time) : Nat :=
  min u.reservedSeconds (max 1 (ceilDiv (at_ - u.meteringStartedAt) microsPerSecond))

def settledCost (u : Usage) (at_ : Time) : Nat :=
  match u.cloudStartedAt with
  | none => 0
  | some start =>
    min u.reservedCost (max 1 (ceilDiv (at_ - start) (60 * microsPerSecond)) * u.costPerMinute)

def settle (at_ : Time) (u : Usage) : Usage :=
  { u with
    chargedSeconds := settledSeconds u at_
    chargedCost := settledCost u at_
    active := false }

/-- Queued jobs of the project may be tried again at once. -/
def wakeQueued (project : ProjectId) (at_ : Time) (jobs : List Job) : List Job :=
  update (fun j => j.project = project && j.state = .queued && j.cancelRequestedAt = none)
    (fun j => { j with nextAttemptAt := min j.nextAttemptAt at_ }) jobs

/-- Failed and expired attempts of a project in the hour before `now`. -/
def recentFailures (l : Ledger) (project : ProjectId) (now : Time) : Nat :=
  count (fun a => (a.state = .failed || a.state = .expired) &&
    (l.jobs.any fun j => j.id = a.job && j.project = project) &&
    (match a.finishedAt with
      | none => false
      | some finished => now ≤ finished + 3600 * microsPerSecond && finished ≤ now)) l.attempts

/-- `applyFailureStormSuspension`.  Every project with an attempt has a policy row. -/
def applyFailureStormSuspension (l : Ledger) (project : ProjectId) (now : Time) : Ledger :=
  { l with
    policies := update
      (fun p => p.project = project && p.maxFailuresPerHour ≤ recentFailures l project now)
      (fun p =>
        let until_ := now + p.abuseCooldownSeconds * microsPerSecond
        { p with
          abuseSuspendedUntil := some (max (p.abuseSuspendedUntil.getD 0) until_)
          abuseGeneration := p.abuseGeneration + 1 }) l.policies }

/-- `settleAttemptUsage`: nothing happens to an attempt without an active usage record. -/
def settleAttemptUsage (l : Ledger) (attempt : AttemptId) (terminalState : Status) (at_ : Time) :
    Ledger :=
  match l.usages.find? fun u => u.attempt = attempt && u.active with
  | none => l
  | some u =>
    let settled := { l with
      usages := update (fun u => u.attempt = attempt && u.active) (settle at_) l.usages
      jobs := wakeQueued u.project at_ l.jobs }
    if terminalState = .failed || terminalState = .expired then
      applyFailureStormSuspension settled u.project at_
    else settled

/-- The attempts of a job with an active usage record, oldest first. -/
def activeUsageAttempts (l : Ledger) (job : JobId) : List AttemptId :=
  ((l.usages.filter fun u => u.job = job && u.active).insertionSort
    fun a b => a.meteringStartedAt ≤ b.meteringStartedAt).map (·.attempt)

def settleJobAttemptUsage (l : Ledger) (job : JobId) (terminalState : Status) (at_ : Time) :
    Ledger :=
  (activeUsageAttempts l job).foldl
    (fun l attempt => settleAttemptUsage l attempt terminalState at_) l

def markAttemptCloudStarted (l : Ledger) (attempt : AttemptId) (at_ : Time) : Ledger :=
  { l with
    usages := update (fun u => u.attempt = attempt && u.active)
      (fun u => { u with cloudStartedAt := some (u.cloudStartedAt.getD at_) }) l.usages }

/-- A job row apart from the time of its next attempt. -/
def Job.core (j : Job) : Job :=
  { j with nextAttemptAt := 0 }

/-- A policy row apart from what the failure-storm gate writes. -/
def Policy.limits (p : Policy) : Policy :=
  { p with abuseSuspendedUntil := none, abuseGeneration := 0 }

/-- Settlement writes usage records; besides, it touches wake-up times and the abuse gate only. -/
theorem settleAttemptUsage_eq (l : Ledger) (attempt : AttemptId) (terminalState : Status)
    (at_ : Time) :
    ∃ jobs policies,
      settleAttemptUsage l attempt terminalState at_ = { l with
        usages := update (fun u => decide (u.attempt = attempt) && u.active) (settle at_) l.usages
        jobs := jobs
        policies := policies } ∧
      jobs.map Job.core = l.jobs.map Job.core ∧
      policies.map Policy.limits = l.policies.map Policy.limits := by
  unfold settleAttemptUsage
  cases hfind : l.usages.find? fun u => decide (u.attempt = attempt) && u.active with
  | none =>
    refine ⟨l.jobs, l.policies, ?_, rfl, rfl⟩
    have hnone := List.find?_eq_none.mp hfind
    rw [update_eq_self]
    intro u hu
    simpa using hnone u hu
  | some u =>
    have hjobs : (wakeQueued u.project at_ l.jobs).map Job.core = l.jobs.map Job.core :=
      map_update fun _ => rfl
    by_cases hstorm : (terminalState = .failed || terminalState = .expired) = true
    · let settled : Ledger := { l with
        usages := update (fun u => decide (u.attempt = attempt) && u.active) (settle at_) l.usages
        jobs := wakeQueued u.project at_ l.jobs }
      refine ⟨wakeQueued u.project at_ l.jobs,
        (applyFailureStormSuspension settled u.project at_).policies, ?_, hjobs, ?_⟩
      · simp only [hstorm, if_true]
        rfl
      · exact map_update fun _ => rfl
    · refine ⟨wakeQueued u.project at_ l.jobs, l.policies, ?_, hjobs, rfl⟩
      simp [hstorm]

theorem foldl_settleAttemptUsage_eq (terminalState : Status) (at_ : Time)
    (attempts : List AttemptId) (l : Ledger) :
    ∃ jobs policies,
      attempts.foldl (fun l attempt => settleAttemptUsage l attempt terminalState at_) l = { l with
        usages := update (fun u => attempts.contains u.attempt && u.active) (settle at_) l.usages
        jobs := jobs
        policies := policies } ∧
      jobs.map Job.core = l.jobs.map Job.core ∧
      policies.map Policy.limits = l.policies.map Policy.limits := by
  induction attempts generalizing l with
  | nil =>
    refine ⟨l.jobs, l.policies, ?_, rfl, rfl⟩
    rw [update_eq_self (by simp)]
    rfl
  | cons attempt attempts ih =>
    rcases settleAttemptUsage_eq l attempt terminalState at_ with ⟨jobs, policies, heq, hj, hp⟩
    rcases ih (settleAttemptUsage l attempt terminalState at_) with
      ⟨jobs', policies', heq', hj', hp'⟩
    refine ⟨jobs', policies', ?_, ?_, ?_⟩
    · rw [List.foldl_cons, heq', heq]
      congr 1
      -- the first attempt's rows are settled and no longer selected
      rw [update_update (by simp [settle])]
      refine congrArg (update · (settle at_) l.usages) ?_
      funext u
      by_cases hu : u.attempt = attempt
      · simp [hu]
      · simp [hu]
    · rw [hj', heq, hj]
    · rw [hp', heq, hp]

variable {l : Ledger}

theorem settleJobAttemptUsage_eq {job : JobId} {terminalState : Status} {at_ : Time} :
    ∃ jobs policies,
      settleJobAttemptUsage l job terminalState at_ = { l with
        usages := update (fun u => (activeUsageAttempts l job).contains u.attempt && u.active)
          (settle at_) l.usages
        jobs := jobs
        policies := policies } ∧
      jobs.map Job.core = l.jobs.map Job.core ∧
      policies.map Policy.limits = l.policies.map Policy.limits :=
  foldl_settleAttemptUsage_eq terminalState at_ (activeUsageAttempts l job) l

variable {attempt : AttemptId}

theorem mem_activeUsageAttempts {job : JobId} :
    attempt ∈ activeUsageAttempts l job ↔
      ∃ u ∈ l.usages, u.job = job ∧ u.active = true ∧ u.attempt = attempt := by
  simp [activeUsageAttempts, and_assoc]

/-! ## Leases, reservations, budgets and items -/

/-- `DELETE FROM worker_leases` for one attempt. -/
def deleteLease (l : Ledger) (attempt : AttemptId) : Ledger :=
  { l with leases := delete (fun x => x.attempt = attempt) l.leases }

def releaseResourceReservation (l : Ledger) (attempt : AttemptId) : Ledger :=
  { l with
    reservations := update (fun r => r.attempt = attempt && r.active)
      (fun r => { r with active := false }) l.reservations }

def releaseArtifactBudgetReservation (l : Ledger) (attempt : AttemptId) : Ledger :=
  { l with
    generations := update (fun g => g.attempt = attempt && g.active)
      (fun g => { g with active := false }) l.generations
    budgets := update (fun b => b.attempt = attempt && b.active)
      (fun b => { b with active := false, activeBytes := 0 }) l.budgets }

def cancelItem (reason : String) (i : PhaseItem) : PhaseItem :=
  { i with state := .canceled, leaseExpiresAt := none, error := reason }

def cancelPhaseWorkItems (l : Ledger) (attempt : AttemptId) (reason : String) : Ledger :=
  { l with
    items := update (fun i => i.attempt = attempt && i.state.isOpen) (cancelItem reason) l.items }

/-! ## Reservation phases -/

/-- Active reservations of a project in a phase, apart from one attempt's. -/
def phaseUsed (l : Ledger) (project : ProjectId) (phase : ReservationPhase) (except : AttemptId) :
    Nat :=
  count (fun r => r.project = project && r.active && r.phase = phase && r.attempt ≠ except)
    l.reservations

/-- `updateResourceReservationPhase`: move an attempt's reservation to the phase of `state`, if that
phase has room. -/
def updateResourceReservationPhase (l : Ledger) (attempt : AttemptId) (state : Status) :
    Except LedgerError Ledger :=
  match reservationPhase state with
  | none => .ok l
  | some phase => do
    let r ← found (l.reservations.find? fun r => r.attempt = attempt && r.active)
      "lock project phase reservation"
    let p ← found (l.policy? r.project) "lock project phase reservation"
    if r.phase = phase then return l
    let used := phaseUsed l r.project phase attempt
    let limit := (p.phaseLimit phase).getD 0
    if limit ≤ used then throw (.phaseCapacity phase used limit)
    return { l with
      reservations := update (fun r => r.attempt = attempt && r.active && r.phase ≠ phase)
        (fun r => { r with phase := phase }) l.reservations }

/-- What a successful phase change does: nothing for a status without a phase or an attempt already
there, and otherwise a move into a phase with room. -/
theorem updateResourceReservationPhase_ok {l l' : Ledger} {state : Status}
    (h : updateResourceReservationPhase l attempt state = .ok l') :
    (reservationPhase state = none ∧ l' = l) ∨
    ∃ phase r p, reservationPhase state = some phase ∧
      l.reservations.find? (fun r => r.attempt = attempt && r.active) = some r ∧
      l.policy? r.project = some p ∧
      ((r.phase = phase ∧ l' = l) ∨
        (r.phase ≠ phase ∧ phaseUsed l r.project phase attempt < (p.phaseLimit phase).getD 0 ∧
          l' = { l with
            reservations := update (fun r => r.attempt = attempt && r.active && r.phase ≠ phase)
              (fun r => { r with phase := phase }) l.reservations })) := by
  unfold updateResourceReservationPhase at h
  cases hphase : reservationPhase state with
  | none =>
    rw [hphase] at h
    exact .inl ⟨rfl, (Except.ok.inj h).symm⟩
  | some phase =>
    rw [hphase] at h
    rcases bind_eq_ok.mp h with ⟨r, hr, h⟩
    rcases bind_eq_ok.mp h with ⟨p, hp, h⟩
    refine .inr ⟨phase, r, p, rfl, found_eq_ok.mp hr, found_eq_ok.mp hp, ?_⟩
    by_cases hsame : r.phase = phase
    · rw [if_pos hsame] at h
      exact .inl ⟨hsame, (Except.ok.inj h).symm⟩
    rw [if_neg hsame] at h
    by_cases hfull : (p.phaseLimit phase).getD 0 ≤ phaseUsed l r.project phase attempt
    · rw [if_pos hfull] at h
      cases h
    · rw [if_neg hfull] at h
      exact .inr ⟨hsame, Nat.lt_of_not_le hfull, (Except.ok.inj h).symm⟩

theorem updateResourceReservationPhase_frame {l l' : Ledger} {state : Status}
    (h : updateResourceReservationPhase l attempt state = .ok l') :
    ∃ p phase, l' = { l with
      reservations := update p (fun r => { r with phase := phase }) l.reservations } := by
  have hsame : l = { l with
      reservations := update (fun _ => false) (fun r => { r with phase := .waiting })
        l.reservations } := by
    rw [update_eq_self fun _ _ => rfl]
  rcases updateResourceReservationPhase_ok h with
    ⟨_, rfl⟩ | ⟨phase, _, _, _, _, _, ⟨_, rfl⟩ | ⟨_, _, rfl⟩⟩
  · exact ⟨_, _, hsame⟩
  · exact ⟨_, _, hsame⟩
  · exact ⟨_, phase, rfl⟩

/-! ## Live claims -/

/-- The claim a status presents is the one the ledger holds: a live lease with this fence and
owner, and a usage record that still has runtime left. -/
def claimLive (l : Ledger) (attempt : AttemptId) (job : JobId) (fence : Nat) (owner : Worker)
    (now : Time) : Bool :=
  (l.attempts.any fun a => a.id = attempt && a.job = job) &&
    (l.leases.any fun x => x.attempt = attempt && now < x.expiresAt && x.fence = fence &&
      x.owner = owner) &&
    (l.usages.any fun u => u.attempt = attempt && u.active && now < u.deadline)

end PortageEngine.Ledger
