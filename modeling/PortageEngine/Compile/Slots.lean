import PortageEngine.Compile.Contract
import PortageEngine.Ledger.Schema
import PortageEngine.Library.Runs

/-!
# Compile slots

`compile_workers` and `compile_slot_leases`: builds reserve slots on a worker of their pool for a
limited time, renew them and give them back (`internal/persistence/distcc.go`).  Every call takes
effect in one step under its own readings of the database clock, so a call that commits late stands
behind one whose readings are later; calls that overlap otherwise are not modelled.  The scheduler's
tables, which a reservation and a renewal look at, are an argument: they may be in any state.
-/

namespace PortageEngine.Compile

open Library Library.Rows Library.Runs
open Ledger

abbrev WorkerId := Nat
abbrev LeaseId := Nat

inductive DesiredState
  | active
  | draining
  deriving DecidableEq

inductive LeaseState
  | active
  | released
  | expired
  deriving DecidableEq

/-- `compile_workers`. -/
structure CompileWorker where
  id : WorkerId
  stableName : String
  endpoint : String
  poolId : String
  pool : Pool
  maxSlots : Nat
  desiredState : DesiredState
  nextFence : Nat
  lastHeartbeatAt : Time

/-- `compile_slot_leases`. -/
structure SlotLease where
  id : LeaseId
  worker : WorkerId
  project : ProjectId
  job : JobId
  attempt : AttemptId
  attemptFence : Nat
  builderId : String
  builderNetworkIdentity : String
  fence : Nat
  slots : Nat
  poolId : String
  fallbackPolicy : FallbackPolicy
  state : LeaseState
  expiresAt : Time
  releasedAt : Option Time
  failureReason : FailureReason

def SlotLease.live (now : Time) (x : SlotLease) : Bool :=
  x.state = .active && now < x.expiresAt

/-- `Lease`: what a builder holds. -/
structure BuilderLease where
  id : LeaseId
  workerId : WorkerId
  workerEndpoint : String
  builderId : String
  builderNetworkIdentity : String
  attemptId : AttemptId
  attemptFence : Nat
  fence : Nat
  slots : Nat
  poolId : String
  pool : Pool
  fallbackPolicy : FallbackPolicy
  expiresAt : Time

structure ReservationRequest where
  projectId : ProjectId
  jobId : JobId
  attemptId : AttemptId
  attemptFence : Nat
  builderId : String
  builderNetworkIdentity : String
  slots : Nat
  leaseDuration : Duration
  workerFreshness : Duration
  pool : Pool
  fallbackPolicy : FallbackPolicy

/-! ## The calls -/

/-- The slots of the leases on a worker that are live. -/
def liveSlots (leases : List SlotLease) (worker : WorkerId) (now : Time) : Nat :=
  total (fun x => x.worker = worker && x.live now) SlotLease.slots leases

/-- `HeartbeatCompileWorker`: a new worker, or the same one with a new endpoint or slot count, which
it may change only while nothing is leased from it. -/
def heartbeatCompileWorker (hash : PoolHash) (workers : List CompileWorker)
    (leases : List SlotLease) (heartbeat : WorkerHeartbeat) (fresh : WorkerId) (now : Time) :
    Except String (List CompileWorker) := do
  let pool ← heartbeat.validate
  let poolId := pool.identity hash
  match workers.find? fun w => w.stableName = heartbeat.stableName with
  | none =>
    require (!(workers.any fun w => w.id = fresh)) "heartbeat compile worker"
    return {
      id := fresh, stableName := heartbeat.stableName, endpoint := heartbeat.endpoint
      poolId := poolId, pool := pool, maxSlots := heartbeat.maxSlots, desiredState := .active
      nextFence := 0, lastHeartbeatAt := now } :: workers
  | some w =>
    require (w.poolId = poolId && w.pool = pool &&
        ((w.endpoint = heartbeat.endpoint && w.maxSlots = heartbeat.maxSlots) ||
          !(leases.any fun x => x.worker = w.id && x.live now)))
      "compile worker identity changed or live leases prevent endpoint/capacity mutation"
    return update (fun w => w.stableName = heartbeat.stableName)
      (fun w => { w with
        endpoint := heartbeat.endpoint, maxSlots := heartbeat.maxSlots, lastHeartbeatAt := now })
      workers

/-- `validateCompileReservation`, with the pool in normal form. -/
def validateCompileReservation (request : ReservationRequest) : Except String Pool := do
  require (request.builderId ≠ "" && request.builderNetworkIdentity ≠ "")
    "distcc builder identity is required"
  require (0 < request.attemptFence) "distcc attempt fence is required"
  require (1 ≤ request.slots && request.slots ≤ 256)
    "distcc requested slots must be between 1 and 256"
  require (0 < request.leaseDuration && request.leaseDuration ≤ maxCompileLeaseDuration)
    "distcc lease duration must be in (0,1h0m0s]"
  require (0 < request.workerFreshness && request.workerFreshness ≤ maxWorkerFreshness)
    "distcc worker freshness must be in (0,10m0s]"
  require (request.fallbackPolicy = .localBuild || request.fallbackPolicy = .blocked)
    s!"invalid distcc fallback policy {request.fallbackPolicy.text.quote}"
  request.pool.normalize

/-- The worker has reported within the time that still counts as fresh. -/
def CompileWorker.fresh (w : CompileWorker) (freshness : Duration) (now : Time) : Bool :=
  w.desiredState = .active && now < w.lastHeartbeatAt + freshness.interval

def admitted (l : Ledger) (attempt : AttemptId) (fence : Nat) (now : Time) : Bool :=
  l.leases.any fun x => x.attempt = attempt && x.fence = fence && now < x.expiresAt

/-- The rows that the insert of `ReserveCompileSlots` selects from. -/
def mayReserve (l : Ledger) (request : ReservationRequest) (now : Time) : Bool :=
  (l.attempts.any fun a => a.id = request.attemptId && a.job = request.jobId &&
    a.fence = request.attemptFence && !(Ledger.isLedgerTerminal a.state) && a.state ≠ .expired) &&
  (l.jobs.any fun j => j.id = request.jobId && j.project = request.projectId &&
    !(Ledger.isLedgerTerminal j.state)) &&
  admitted l request.attemptId request.attemptFence now

/-- What a call of `ReserveCompileSlots` meets: the worker that the order of the query puts first,
the identifier of the new lease, and the readings of the clock in the selection, in the check of the
attempt and for the end of the lease. -/
structure ReserveCall where
  candidate : WorkerId
  lease : LeaseId
  selectedAt : Time
  admittedAt : Time
  grantedAt : Time

/-- The `WHERE` clause of the selection. -/
def hasRoom (leases : List SlotLease) (pool : Pool) (poolId : String) (request : ReservationRequest)
    (now : Time) (w : CompileWorker) : Bool :=
  w.poolId = poolId && w.pool = pool && w.fresh request.workerFreshness now &&
    liveSlots leases w.id now + request.slots ≤ w.maxSlots

def grantedLease (request : ReservationRequest) (poolId : String) (w : CompileWorker)
    (call : ReserveCall) : SlotLease where
  id := call.lease
  worker := w.id
  project := request.projectId
  job := request.jobId
  attempt := request.attemptId
  attemptFence := request.attemptFence
  builderId := request.builderId
  builderNetworkIdentity := request.builderNetworkIdentity
  fence := w.nextFence + 1
  slots := request.slots
  poolId := poolId
  fallbackPolicy := request.fallbackPolicy
  state := .active
  expiresAt := call.grantedAt + request.leaseDuration.interval
  releasedAt := none
  failureReason := .unset

/-- The lease as it is handed to the builder. -/
def SlotLease.handOut (x : SlotLease) (w : CompileWorker) (pool : Pool) : BuilderLease where
  id := x.id
  workerId := x.worker
  workerEndpoint := w.endpoint
  builderId := x.builderId
  builderNetworkIdentity := x.builderNetworkIdentity
  attemptId := x.attempt
  attemptFence := x.attemptFence
  fence := x.fence
  slots := x.slots
  poolId := x.poolId
  pool := pool
  fallbackPolicy := x.fallbackPolicy
  expiresAt := x.expiresAt

def reserveCompileSlots (hash : PoolHash) (l : Ledger) (workers : List CompileWorker)
    (leases : List SlotLease) (request : ReservationRequest) (call : ReserveCall) :
    Except String ((List CompileWorker × List SlotLease) × Option BuilderLease) := do
  let pool ← validateCompileReservation request
  let poolId := pool.identity hash
  match workers.find? fun w => w.id = call.candidate &&
      hasRoom leases pool poolId request call.selectedAt w with
  | none => return ((workers, leases), none)
  | some w =>
    require (mayReserve l request call.admittedAt) "insert compile slot lease: no rows"
    let x := grantedLease request poolId w call
    require (!(leases.any fun y => y.id = x.id || (y.worker = x.worker && y.fence = x.fence)))
      "insert compile slot lease: duplicate key"
    return ((update (fun k => k.id = w.id)
      (fun k => { k with nextFence := k.nextFence + 1 }) workers, x :: leases),
      some (x.handOut w pool))

/-- The row is the one that the builder's lease names, under its complete identity and fence. -/
def SlotLease.named (lease : BuilderLease) (x : SlotLease) : Bool :=
  x.id = lease.id && x.worker = lease.workerId && x.builderId = lease.builderId &&
    x.builderNetworkIdentity = lease.builderNetworkIdentity && x.attempt = lease.attemptId &&
    x.attemptFence = lease.attemptFence && x.fence = lease.fence && x.poolId = lease.poolId

/-- The rows of `HeartbeatCompileLease` and `CheckCompileLease`: live, of a running attempt and on a
worker that is fresh. -/
def SlotLease.usable (l : Ledger) (workers : List CompileWorker) (lease : BuilderLease)
    (freshness : Duration) (now : Time) (x : SlotLease) : Bool :=
  x.named lease && x.live now && admitted l x.attempt x.attemptFence now &&
    workers.any fun w => w.id = x.worker && w.fresh freshness now

/-- `HeartbeatCompileLease`; the clock is read for the check and again for the new end. -/
def heartbeatCompileLease (l : Ledger) (workers : List CompileWorker) (leases : List SlotLease)
    (lease : BuilderLease) (duration freshness : Duration) (checkedAt renewedAt : Time) :
    Except String (List SlotLease) := do
  require (0 < duration && duration ≤ maxCompileLeaseDuration && 0 < freshness &&
    freshness ≤ maxWorkerFreshness) "invalid distcc lease heartbeat duration"
  require (leases.any (SlotLease.usable l workers lease freshness checkedAt))
    "compile lease heartbeat rejected by expiry or fence"
  return update (SlotLease.usable l workers lease freshness checkedAt)
    (fun x => { x with expiresAt := renewedAt + duration.interval }) leases

def checkCompileLease (l : Ledger) (workers : List CompileWorker) (leases : List SlotLease)
    (lease : BuilderLease) (freshness : Duration) (now : Time) : Except String Unit := do
  require (0 < freshness && freshness ≤ maxWorkerFreshness) "invalid distcc worker freshness"
  require (leases.any (SlotLease.usable l workers lease freshness now))
    "compile lease is expired, stale, or fenced"

/-- `ReleaseCompileLease`; a lease that has run out is closed as expired. -/
def releaseCompileLease (leases : List SlotLease) (lease : BuilderLease) (reason : FailureReason)
    (now : Time) : Except String (List SlotLease) := do
  Observation.validate
    { outcome := .localCompile, failureReason := reason, networkBytes := 0, queueMillis := 0
      count := 1 }
  require (leases.any fun x => x.named lease && x.state = .active)
    "compile lease release rejected by state or fence"
  return update (fun x => x.named lease && x.state = .active)
    (fun x => { x with
      state := if x.expiresAt ≤ now then .expired else .released
      releasedAt := some now, failureReason := reason })
    leases

def recordCompileObservation (leases : List SlotLease)
    (observations : List (LeaseId × Observation)) (lease : BuilderLease) (observation : Observation)
    (now : Time) : Except String (List (LeaseId × Observation)) := do
  observation.validate
  require (leases.any fun x => x.named lease && x.live now)
    "compile observation rejected by lease fence"
  return (lease.id, observation) :: observations

/-! ## The system -/

/-- A reservation that was granted, with the slots that were asked for and those that the worker
advertised when it was. -/
structure Grant where
  lease : LeaseId
  worker : WorkerId
  fence : Nat
  requested : Nat
  advertised : Nat

/-- The tables, the grants so far (newest first) and the last reading of the clock. -/
structure CompileSystem where
  workers : List CompileWorker
  leases : List SlotLease
  observations : List (LeaseId × Observation)
  grants : List Grant
  clock : Time

def CompileSystem.init : CompileSystem where
  workers := []
  leases := []
  observations := []
  grants := []
  clock := 0

inductive CompileOp
  | heartbeatWorker (heartbeat : WorkerHeartbeat) (fresh : WorkerId) (now : Time)
  | reserve (l : Ledger) (request : ReservationRequest) (call : ReserveCall)
  | heartbeatLease (l : Ledger) (lease : BuilderLease) (duration freshness : Duration)
      (checkedAt renewedAt : Time)
  | release (lease : BuilderLease) (reason : FailureReason) (now : Time)
  | observe (lease : BuilderLease) (observation : Observation) (now : Time)

def CompileOp.readings : CompileOp → List Time
  | .heartbeatWorker _ _ now | .release _ _ now | .observe _ _ now => [now]
  | .reserve _ _ call => [call.selectedAt, call.admittedAt, call.grantedAt]
  | .heartbeatLease _ _ _ _ checkedAt renewedAt => [checkedAt, renewedAt]

def CompileSystem.advertised (s : CompileSystem) (worker : WorkerId) : Nat :=
  ((s.workers.find? fun w => w.id = worker).map CompileWorker.maxSlots).getD 0

/-- The grant that a reservation has brought. -/
def CompileSystem.grant (s : CompileSystem) (request : ReservationRequest) (lease : BuilderLease) :
    Grant where
  lease := lease.id
  worker := lease.workerId
  fence := lease.fence
  requested := request.slots
  advertised := s.advertised lease.workerId

def CompileOp.run (hash : PoolHash) (s : CompileSystem) : CompileOp → Except String CompileSystem
  | .heartbeatWorker heartbeat fresh now => do
    let workers ← heartbeatCompileWorker hash s.workers s.leases heartbeat fresh now
    return { s with workers := workers }
  | .reserve l request call => do
    let ((workers, leases), lease) ←
      reserveCompileSlots hash l s.workers s.leases request call
    return { s with
      workers := workers, leases := leases
      grants := (lease.map (s.grant request)).toList ++ s.grants }
  | .heartbeatLease l lease duration freshness checkedAt renewedAt => do
    let leases ←
      heartbeatCompileLease l s.workers s.leases lease duration freshness checkedAt renewedAt
    return { s with leases := leases }
  | .release lease reason now => do
    let leases ← releaseCompileLease s.leases lease reason now
    return { s with leases := leases }
  | .observe lease observation now => do
    let observations ←
      recordCompileObservation s.leases s.observations lease observation now
    return { s with observations := observations }

/-- One call; a call that fails changes nothing. -/
def stepCompile (hash : PoolHash) (s : CompileSystem) (op : CompileOp) : CompileSystem :=
  { match op.run hash s with
    | .ok s' => s'
    | .error _ => s with
    clock := op.readings.foldl max s.clock }

/-- The call takes effect in the order of the clock readings: its own are not before those of the
calls that have taken effect. -/
def OnTime (s : CompileSystem) (op : CompileOp) : Prop :=
  (s.clock :: op.readings).Pairwise (· ≤ ·)

instance (s : CompileSystem) (op : CompileOp) : Decidable (OnTime s op) :=
  inferInstanceAs (Decidable (List.Pairwise _ _))

end PortageEngine.Compile
