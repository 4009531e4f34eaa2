import PortageEngine.Build.Request
import PortageEngine.Library.Rows

/-!
# The job ledger: tables

The PostgreSQL tables that the scheduler and the phase executors share
(`internal/migrations/sql`), with the columns that their transactions read or write.  A transaction
is a function on the whole `Ledger`; it either fails and changes nothing or commits as one step.

Times are microseconds of the database clock.  UUIDs are numbers; a fresh one is an argument of the
transaction that inserts it and is checked against the primary key.  Worker rows are represented by
their unique stable name.
-/

namespace PortageEngine.Ledger

open Library

abbrev Time := Nat
abbrev ProjectId := Nat
abbrev JobId := Nat
abbrev AttemptId := Nat
abbrev ItemId := Nat
abbrev Worker := String

def microsPerSecond : Nat := 1000000

def budgetDay (t : Time) : Nat :=
  t / (86400 * microsPerSecond)

/-! ## Job status -/

/-- The texts of `build_jobs.state` and `build_attempts.state`.  Neither column is constrained, and
a builder's report is stored as it comes, so any other text can appear as well. -/
inductive Status
  | queued
  | claimed
  | provisioning
  | forwarding
  | deploying
  | building
  | collecting
  | verifying
  | signing
  | publishing
  | completed
  | success
  | failed
  | canceled
  | expired
  | other (text : String)
  deriving DecidableEq

def Status.text : Status → String
  | .queued => "queued"
  | .claimed => "claimed"
  | .provisioning => "provisioning"
  | .forwarding => "forwarding"
  | .deploying => "deploying"
  | .building => "building"
  | .collecting => "collecting"
  | .verifying => "verifying"
  | .signing => "signing"
  | .publishing => "publishing"
  | .completed => "completed"
  | .success => "success"
  | .failed => "failed"
  | .canceled => "canceled"
  | .expired => "expired"
  | .other text => text

def isLedgerTerminal : Status → Bool
  | .completed | .success | .failed | .canceled => true
  | _ => false

/-- The nine states in which a job counts against the project's active jobs. -/
def isActiveState : Status → Bool
  | .claimed | .provisioning | .forwarding | .deploying | .building
  | .collecting | .verifying | .signing | .publishing => true
  | _ => false

/-- The column `phase` of a resource reservation. -/
inductive ReservationPhase
  | claimed
  | waiting
  | provision
  | build
  | verify
  | publish
  deriving DecidableEq

/-- `reservationPhase`; `none` is the empty text. -/
def reservationPhase : Status → Option ReservationPhase
  | .claimed => some .claimed
  | .provisioning | .deploying => some .provision
  | .forwarding | .building => some .build
  | .collecting | .verifying => some .verify
  | .signing | .publishing => some .publish
  | _ => none

inductive Phase
  | provision
  | build
  | verify
  | publish
  deriving DecidableEq

def Phase.all : List Phase :=
  [.provision, .build, .verify, .publish]

/-- `phaseWorkState`: the job status that a claimed phase stands for. -/
def phaseWorkState : Phase → Status
  | .provision => .provisioning
  | .build => .building
  | .verify => .verifying
  | .publish => .publishing

/-- The reservation phase of a pipeline stage. -/
def Phase.reservation : Phase → ReservationPhase
  | .provision => .provision
  | .build => .build
  | .verify => .verify
  | .publish => .publish

@[simp] theorem reservationPhase_phaseWorkState {phase : Phase} :
    reservationPhase (phaseWorkState phase) = some phase.reservation := by
  cases phase <;> rfl

/-! ## Status documents -/

/-- The document stored as `status_snapshot`. -/
structure StoredStatus where
  status : Status
  updatedAt : Time
  instanceId : String := ""
  error : String := ""
  artifactPath : String := ""
  artifactUrl : String := ""
  artifacts : List String := []
  signed : Bool := false
  failedStage : String := ""
  deriving DecidableEq

/-- A job's status as the control plane holds it: the stored document, the facts that stay in the
memory of one replica, and the claim identity (`attemptId`, `fenceToken`, `leaseOwner`). -/
structure BuildStatus extends StoredStatus where
  jobId : JobId
  log : String := ""
  artifactPaths : List String := []
  stagingRoot : String := ""
  verificationToken : String := ""
  stagedArtifacts : List String := []
  stagedPrimary : String := ""
  signingKeyId : String := ""
  attemptId : Option AttemptId := none
  fenceToken : Nat := 0
  leaseOwner : Worker := ""
  deriving DecidableEq

structure SchedulerClaim where
  request : Build.BuildRequest
  status : BuildStatus

/-- `decodeStoredStatus`: a stored document carries no replica-local facts and no identity. -/
def StoredStatus.decode (doc : StoredStatus) (jobId : JobId) : BuildStatus :=
  { doc with jobId := jobId }

/-! ## Rows -/

/-- `build_jobs`. -/
structure Job where
  id : JobId
  project : ProjectId
  idempotencyKey : Option String
  request : Build.BuildRequest
  state : Status
  snapshot : StoredStatus
  maxAttempts : Nat
  visible : Bool
  cancelRequestedAt : Option Time
  nextAttemptAt : Time
  createdAt : Time
  completedAt : Option Time
  terminalReason : String
  revision : Nat
  deriving DecidableEq

/-- `build_attempts`. -/
structure Attempt where
  id : AttemptId
  job : JobId
  attemptNo : Nat
  state : Status
  fence : Nat
  worker : Option Worker
  failureDetail : String
  finishedAt : Option Time
  deriving DecidableEq

inductive LeaseKind
  | attempt
  | admission
  deriving DecidableEq

/-- `worker_leases`. -/
structure Lease where
  attempt : AttemptId
  fence : Nat
  kind : LeaseKind
  owner : Worker
  expiresAt : Time
  deriving DecidableEq

/-- `project_resource_reservations`. -/
structure Reservation where
  attempt : AttemptId
  project : ProjectId
  job : JobId
  resourceClass : String
  vcpus : Nat
  memoryMiB : Nat
  diskGiB : Nat
  phase : ReservationPhase
  active : Bool
  deriving DecidableEq

/-- `project_attempt_usage`. -/
structure Usage where
  attempt : AttemptId
  project : ProjectId
  job : JobId
  budgetDay : Nat
  maxRuntimeSeconds : Nat
  costPerMinute : Nat
  reservedSeconds : Nat
  reservedCost : Nat
  chargedSeconds : Nat
  chargedCost : Nat
  meteringStartedAt : Time
  cloudStartedAt : Option Time
  active : Bool
  deriving DecidableEq

def Usage.deadline (u : Usage) : Time :=
  u.meteringStartedAt + u.maxRuntimeSeconds * microsPerSecond

inductive ItemState
  | blocked
  | ready
  | claimed
  | completed
  | failed
  | canceled
  deriving DecidableEq

/-- States in which an item still has work to do. -/
def ItemState.isOpen : ItemState → Bool
  | .blocked | .ready | .claimed => true
  | _ => false

inductive ExecutionMode
  | shadow
  | active
  deriving DecidableEq

/-- `phase_work_items`. -/
structure PhaseItem where
  id : ItemId
  project : ProjectId
  job : JobId
  attempt : AttemptId
  phase : Phase
  sequence : Nat
  mode : ExecutionMode
  state : ItemState
  availableAt : Time
  claimOwner : Worker
  claimFence : Nat
  leaseExpiresAt : Option Time
  error : String
  deriving DecidableEq

/-- `project_artifact_budgets`. -/
structure Budget where
  attempt : AttemptId
  project : ProjectId
  job : JobId
  limitBytes : Nat
  activeBytes : Nat
  peakBytes : Nat
  active : Bool
  deriving DecidableEq

/-- `artifact_generation_reservations`. -/
structure Generation where
  attempt : AttemptId
  name : String
  sizeBytes : Nat
  active : Bool
  deriving DecidableEq

/-- `project_policies`. -/
structure Policy where
  project : ProjectId
  suspended : Bool
  maxQueuedJobs : Nat
  maxActiveJobs : Nat
  maxDailySubmissions : Nat
  maxVCPUs : Nat
  maxMemoryMiB : Nat
  maxDiskGiB : Nat
  maxClaimed : Nat
  maxProvision : Nat
  maxBuild : Nat
  maxVerify : Nat
  maxPublish : Nat
  maxDailyBuildSeconds : Nat
  maxDailyCloudCost : Nat
  maxArtifactBytes : Nat
  maxFailuresPerHour : Nat
  abuseCooldownSeconds : Nat
  abuseSuspendedUntil : Option Time
  abuseGeneration : Nat
  deriving DecidableEq

/-- The limit on the attempts of a project in one phase; waiting attempts are not limited. -/
def Policy.phaseLimit (p : Policy) : ReservationPhase → Option Nat
  | .claimed => some p.maxClaimed
  | .waiting => none
  | .provision => some p.maxProvision
  | .build => some p.maxBuild
  | .verify => some p.maxVerify
  | .publish => some p.maxPublish

end Ledger

structure Ledger where
  jobs : List Ledger.Job
  attempts : List Ledger.Attempt
  leases : List Ledger.Lease
  reservations : List Ledger.Reservation
  usages : List Ledger.Usage
  items : List Ledger.PhaseItem
  budgets : List Ledger.Budget
  generations : List Ledger.Generation
  policies : List Ledger.Policy
  deriving DecidableEq

namespace Ledger

/-- The empty ledger under a given set of project policies. -/
def empty (policies : List Policy) : Ledger where
  jobs := []
  attempts := []
  leases := []
  reservations := []
  usages := []
  items := []
  budgets := []
  generations := []
  policies := policies

def job? (l : Ledger) (id : JobId) : Option Job :=
  l.jobs.find? (·.id = id)

def attempt? (l : Ledger) (id : AttemptId) : Option Attempt :=
  l.attempts.find? (·.id = id)

def lease? (l : Ledger) (attempt : AttemptId) : Option Lease :=
  l.leases.find? (·.attempt = attempt)

def usage? (l : Ledger) (attempt : AttemptId) : Option Usage :=
  l.usages.find? (·.attempt = attempt)

def item? (l : Ledger) (id : ItemId) : Option PhaseItem :=
  l.items.find? (·.id = id)

def budget? (l : Ledger) (attempt : AttemptId) : Option Budget :=
  l.budgets.find? (·.attempt = attempt)

def policy? (l : Ledger) (project : ProjectId) : Option Policy :=
  l.policies.find? (·.project = project)

/-- Errors of ledger transactions.  Callers treat a full phase differently from a refusal. -/
inductive LedgerError
  | refused (text : String)
  | phaseCapacity (phase : ReservationPhase) (used limit : Nat)
  deriving DecidableEq

def found {α : Type} (row : Option α) (text : String) : Except LedgerError α :=
  match row with
  | some r => .ok r
  | none => .error (.refused text)

theorem found_eq_ok {α : Type} {row : Option α} {text : String} {r : α} :
    found row text = .ok r ↔ row = some r := by
  cases row <;> simp [found]

end PortageEngine.Ledger
