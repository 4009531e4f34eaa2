import PortageEngine.Library.Runs
import PortageEngine.Ledger.References

/-!
# The ledger as a state machine

The control-plane replicas act on the ledger through the operations below, in any order and from any
number of processes.  A transaction that fails leaves the tables as they were.  The only state
outside the tables is the phase claims that have been handed out: an executor passes such a claim
back unchanged.

A transaction takes effect in one step, under its own readings of the clock: one that commits late
stands behind others whose readings are later.  Statements that overlap otherwise are not modelled,
except that a retry brings the number of attempts it has counted.
-/

namespace PortageEngine.Ledger

open Library

/-- The ledger and the phase claims in the hands of executors. -/
structure System where
  ledger : Ledger
  issued : List PhaseClaim

def System.init (policies : List Policy) : System where
  ledger := empty policies
  issued := []

/-- One transaction, with everything it takes from its caller, the clock and the locks. -/
inductive Op
  | create (call : CreateCall)
  | claim (call : ClaimCall)
  | renew (status : BuildStatus) (leaseDuration now : Time)
  | record (previous : Option BuildStatus) (current : BuildStatus) (now : Time) (fresh : AttemptId)
  | recover (now : Time) (locked : AttemptId → Bool) (limit : Nat)
  | cancel (job : JobId) (reason : String) (now : Time)
  | retry (job : JobId) (counted : Nat) (now : Time)
  | activate (status : BuildStatus) (now : Time)
  | claimPhase (call : PhaseCall)
  | renewPhase (claim : PhaseClaim) (lease now : Time)
  | finishPhase (claim : PhaseClaim) (outcome : PhaseOutcome) (now : Time)
  | finalize (claim : PhaseClaim) (previous completed : BuildStatus) (now at_ : Time)
  | failPhase (claim : PhaseClaim) (previous : BuildStatus) (detail : String) (now at_ : Time)
  | artifactBudget (status : BuildStatus) (now : Time)
  | setGeneration (status : BuildStatus) (name : String) (size : Nat) (now : Time)
  | releaseGeneration (status : BuildStatus) (name : String) (now : Time)
  | releaseBudget (status : BuildStatus) (now : Time)

def Op.presents : Op → Option PhaseClaim
  | .renewPhase c _ _ | .finishPhase c _ _ | .finalize c _ _ _ _ | .failPhase c _ _ _ _ => some c
  | _ => none

def Op.reports : Op → Option BuildStatus
  | .record _ current _ _ => some current
  | _ => none

/-- The tables after an operation, and the phase claim it hands out. -/
def Op.run (l : Ledger) : Op → Except LedgerError (Ledger × Option PhaseClaim)
  | .create call => (·, none) <$> createJob l call
  | .claim call => (fun r => (r.1, none)) <$> claimNext l call
  | .renew status leaseDuration now => (·, none) <$> renewClaim l status leaseDuration now
  | .record previous current now fresh => (·, none) <$> recordTransition l previous current now fresh
  | .recover now locked limit => .ok (recoverExpired l now locked limit, none)
  | .cancel job reason now => (fun r => (r.1, none)) <$> cancelJob l job reason now
  | .retry job counted now => (fun r => (r.1, none)) <$> retryJob l job counted now
  | .activate status now => (·, none) <$> activatePhasePlan l status now
  | .claimPhase call => claimPhaseWork l call
  | .renewPhase c lease now => (·, none) <$> renewPhaseWork l c lease now
  | .finishPhase c outcome now => (·, none) <$> finishPhaseWork l c outcome now
  | .finalize c previous completed now at_ =>
    (·, none) <$> finalizePhaseWork l c previous completed now at_
  | .failPhase c previous detail now at_ =>
    (·, none) <$> failPhaseWorkAndJob l c previous detail now at_
  | .artifactBudget status now => (fun r => (r.1, none)) <$> l.artifactBudget status now
  | .setGeneration status name size now =>
    (·, none) <$> setArtifactGenerationBytes l status name size now
  | .releaseGeneration status name now => (·, none) <$> releaseArtifactGeneration l status name now
  | .releaseBudget status now => (·, none) <$> releaseArtifactBudget l status now

/-- One step of the system.  A claim that was never handed out cannot be presented. -/
def step (s : System) (op : Op) : System :=
  if (op.presents.all fun claim => s.issued.contains claim) then
    match op.run s.ledger with
    | .ok (l, claim) => { ledger := l, issued := claim.toList ++ s.issued }
    | .error _ => s
  else s

theorem step_cases (s : System) (op : Op) :
    step s op = s ∨ ∃ l claim, op.run s.ledger = .ok (l, claim) ∧
      (∀ c, op.presents = some c → c ∈ s.issued) ∧
      step s op = { ledger := l, issued := claim.toList ++ s.issued } := by
  unfold step
  by_cases hissued : (op.presents.all fun claim => s.issued.contains claim) = true
  · rw [if_pos hissued]
    cases hrun : op.run s.ledger with
    | error e => exact .inl rfl
    | ok r =>
      refine .inr ⟨r.1, r.2, rfl, ?_, rfl⟩
      intro c hc
      rw [hc] at hissued
      simpa using hissued
  · rw [if_neg hissued]
    exact .inl rfl

/-! ## Committed transactions -/

/-- A committed call on the artifact budgets. -/
inductive BudgetCall (l l' : Ledger) : Op → Prop
  | ensured (status : BuildStatus) (now : Time) (b : Budget)
      (h : l.artifactBudget status now = .ok (l', b)) : BudgetCall l l' (.artifactBudget status now)
  | set (status : BuildStatus) (name : String) (size : Nat) (now : Time)
      (h : setArtifactGenerationBytes l status name size now = .ok l') :
      BudgetCall l l' (.setGeneration status name size now)
  | released (status : BuildStatus) (name : String) (now : Time)
      (h : releaseArtifactGeneration l status name now = .ok l') :
      BudgetCall l l' (.releaseGeneration status name now)
  | closed (status : BuildStatus) (now : Time) (h : releaseArtifactBudget l status now = .ok l') :
      BudgetCall l l' (.releaseBudget status now)

theorem BudgetCall.budgetStep {l l' : Ledger} {op : Op} (h : BudgetCall l l' op) :
    BudgetStep l l' := by
  cases h with
  | ensured status now b h =>
    rcases bind_eq_ok.mp h with ⟨attempt, hfence, h⟩
    rcases validateMetadataFence_holds hfence with ⟨hlease, hjob⟩
    exact budgetStep_ensureArtifactBudget hlease hjob h
  | set status name size now h =>
    replace h := passed h
    rcases bind_eq_ok.mp h with ⟨attempt, hfence, h⟩
    rcases validateMetadataFence_holds hfence with ⟨hlease, hjob⟩
    rcases bind_eq_ok.mp h with ⟨⟨l₁, b⟩, hensure, h⟩
    replace h := passed h
    cases h
    exact (budgetStep_ensureArtifactBudget hlease hjob hensure).update (fun _ => rfl) fun _ => id
  | released status name now h =>
    rcases bind_eq_ok.mp h with ⟨attempt, _, h⟩
    split at h <;> cases h
    · exact (budgetStep_refl).update (fun _ => rfl) fun _ => id
    · exact budgetStep_refl
  | closed status now h =>
    rcases bind_eq_ok.mp h with ⟨attempt, _, h⟩
    split at h <;> cases h
    · exact (budgetStep_refl).update (fun _ => rfl) nofun
    · exact budgetStep_refl

theorem BudgetCall.frame {l l' : Ledger} {op : Op} (h : BudgetCall l l' op) :
    ∃ budgets generations, l' = { l with budgets := budgets, generations := generations } :=
  h.budgetStep.frame

inductive Commits (l : Ledger) : Ledger → Op → Option PhaseClaim → Prop
  | create {l'} (call : CreateCall) (h : createJob l call = .ok l') : Commits l l' (.create call) none
  | claim {l'} (call : ClaimCall) (c : Option SchedulerClaim) (h : claimNext l call = .ok (l', c)) :
      Commits l l' (.claim call) none
  | renew {l'} (status : BuildStatus) (leaseDuration now : Time)
      (h : renewClaim l status leaseDuration now = .ok l') :
      Commits l l' (.renew status leaseDuration now) none
  | record {l'} (previous : Option BuildStatus) (current : BuildStatus) (now : Time)
      (fresh : AttemptId) (h : recordTransition l previous current now fresh = .ok l') :
      Commits l l' (.record previous current now fresh) none
  | recover (now : Time) (locked : AttemptId → Bool) (limit : Nat) :
      Commits l (recoverExpired l now locked limit) (.recover now locked limit) none
  | cancel {l'} (job : JobId) (reason : String) (now : Time) (status : BuildStatus)
      (h : cancelJob l job reason now = .ok (l', status)) : Commits l l' (.cancel job reason now) none
  | retry {l'} (job : JobId) (counted : Nat) (now : Time) (status : BuildStatus)
      (h : retryJob l job counted now = .ok (l', status)) : Commits l l' (.retry job counted now) none
  | activate {l'} (status : BuildStatus) (now : Time) (h : activatePhasePlan l status now = .ok l') :
      Commits l l' (.activate status now) none
  | claimPhase {l' claim} (call : PhaseCall) (h : claimPhaseWork l call = .ok (l', claim)) :
      Commits l l' (.claimPhase call) claim
  | renewPhase {l'} (c : PhaseClaim) (lease now : Time) (h : renewPhaseWork l c lease now = .ok l') :
      Commits l l' (.renewPhase c lease now) none
  | finishPhase {l'} (c : PhaseClaim) (outcome : PhaseOutcome) (now : Time)
      (h : finishPhaseWork l c outcome now = .ok l') : Commits l l' (.finishPhase c outcome now) none
  | finalize {l'} (c : PhaseClaim) (previous completed : BuildStatus) (now at_ : Time)
      (h : finalizePhaseWork l c previous completed now at_ = .ok l') :
      Commits l l' (.finalize c previous completed now at_) none
  | failPhase {l'} (c : PhaseClaim) (previous : BuildStatus) (detail : String) (now at_ : Time)
      (h : failPhaseWorkAndJob l c previous detail now at_ = .ok l') :
      Commits l l' (.failPhase c previous detail now at_) none
  | budget {l' op} (h : BudgetCall l l' op) : Commits l l' op none

theorem Op.commits {l l' : Ledger} {op : Op} {claim : Option PhaseClaim}
    (hok : op.run l = .ok (l', claim)) : Commits l l' op claim := by
  cases op with
  | recover now locked limit =>
    cases hok
    exact .recover now locked limit
  | claimPhase call => exact .claimPhase call hok
  | create call =>
    exact of_map_eq_ok hok fun _ hk => .create call hk
  | claim call =>
    exact of_map_eq_ok hok fun _ hk => .claim call _ hk
  | renew status leaseDuration now =>
    exact of_map_eq_ok hok fun _ hk => .renew status leaseDuration now hk
  | record previous current now fresh =>
    exact of_map_eq_ok hok fun _ hk => .record previous current now fresh hk
  | cancel job reason now =>
    exact of_map_eq_ok hok fun _ hk => .cancel job reason now _ hk
  | retry job counted now =>
    exact of_map_eq_ok hok fun _ hk => .retry job counted now _ hk
  | activate status now =>
    exact of_map_eq_ok hok fun _ hk => .activate status now hk
  | renewPhase c lease now =>
    exact of_map_eq_ok hok fun _ hk => .renewPhase c lease now hk
  | finishPhase c outcome now =>
    exact of_map_eq_ok hok fun _ hk => .finishPhase c outcome now hk
  | finalize c previous completed now at_ =>
    exact of_map_eq_ok hok fun _ hk => .finalize c previous completed now at_ hk
  | failPhase c previous detail now at_ =>
    exact of_map_eq_ok hok fun _ hk => .failPhase c previous detail now at_ hk
  | artifactBudget status now =>
    exact of_map_eq_ok hok fun _ hk => .budget (.ensured status now _ hk)
  | setGeneration status name size now =>
    exact of_map_eq_ok hok fun _ hk => .budget (.set status name size now hk)
  | releaseGeneration status name now =>
    exact of_map_eq_ok hok fun _ hk => .budget (.released status name now hk)
  | releaseBudget status now =>
    exact of_map_eq_ok hok fun _ hk => .budget (.closed status now hk)

/-! ## A small project

Concrete operations for the runs that the results below are instantiated with. -/

/-- A project with room for two small builds. -/
def examplePolicy : Policy where
  project := 1
  suspended := false
  maxQueuedJobs := 10
  maxActiveJobs := 2
  maxDailySubmissions := 10
  maxVCPUs := 64
  maxMemoryMiB := 262144
  maxDiskGiB := 1000
  maxClaimed := 2
  maxProvision := 1
  maxBuild := 1
  maxVerify := 1
  maxPublish := 1
  maxDailyBuildSeconds := 86400
  maxDailyCloudCost := 100000000
  maxArtifactBytes := 1000000
  maxFailuresPerHour := 5
  abuseCooldownSeconds := 60
  abuseSuspendedUntil := none
  abuseGeneration := 0

/-- A submission of a package without a catalog context. -/
def exampleCreateCall (job : JobId) (now : Time) : CreateCall where
  project := 1
  request := { packageName := "app-misc/hello" }
  idempotencyKey := ""
  status := { jobId := job, status := .queued, updatedAt := now }
  source := .api
  now := now
  createdAt := now
  fresh := 0

/-- A claim of the job under the given attempt identifier. -/
def exampleClaimCall (job : JobId) (attempt : AttemptId) (now : Time) : ClaimCall where
  worker := "replica-a"
  kind := .admission
  leaseDuration := 60000000
  recoveredAt := now
  locked := fun _ => false
  candidate := job
  selectedAt := now
  admittedAt := now
  persistedAt := now
  attempt := attempt
  items := fun phase => 100 * attempt + phaseSequence phase

def exampleCreate (job : JobId) (now : Time) : Op :=
  .create (exampleCreateCall job now)

def exampleClaim (job : JobId) (attempt : AttemptId) (now : Time) : Op :=
  .claim (exampleClaimCall job attempt now)

/-- A report under the identity of that claim. -/
def exampleStatus (job : JobId) (attempt : AttemptId) (status : Status) (now : Time) :
    BuildStatus where
  jobId := job
  status := status
  updatedAt := now
  attemptId := some attempt
  fenceToken := 1
  leaseOwner := "replica-a"

/-- Job 1 runs as attempt 7, which is leased until 62 seconds. -/
def exampleLedger : Ledger :=
  (Runs.run step (System.init [examplePolicy])
    [exampleCreate 1 1000000, exampleClaim 1 7 2000000]).ledger

end PortageEngine.Ledger
