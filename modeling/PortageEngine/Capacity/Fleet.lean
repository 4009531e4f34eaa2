import PortageEngine.Ledger.Fairness

/-!
# The executor fleet: tables

The tables of the capacity layer: the worker slots that have registered, the capacity pools, and the
two tables through which the scheduler and the capacity actuators cooperate.  An action asks for one
slot more or one slot less in a pool; an instance is a machine that an action has created.
-/

namespace PortageEngine.Capacity

open Library Library.Rows
open Library.Decimal (trimSpace)
open Ledger

abbrev PoolId := String
abbrev ActionId := Nat
abbrev InstanceId := Nat
abbrev Label := String

/-! ## Capability labels -/

def capacityPoolLabel (pool : PoolId) : Label :=
  "capacity-pool:" ++ pool

def providerLabel (provider : String) : Label :=
  "provider:" ++ provider

def capacityInstanceLabel (i : InstanceId) : Label :=
  "capacity-instance:" ++ toString i

def maxExecutorCapabilities : Nat := 4096

/-- The characters of a label before and after its first colon. -/
def labelKeyChar (c : Char) : Bool :=
  c.isLower || c.isDigit || c = '-'

def labelValueChar (c : Char) : Bool :=
  c.isAlphanum || c = '+' || c = '.' || c = '_' || c = '/' || c = '@' || c = ':' || c = '-'

def executorCapabilityPattern (label : Label) : Bool :=
  match label.toList.span fun c => c ≠ ':' with
  | (k :: key, _ :: v :: value) =>
    k.isLower && key.all labelKeyChar && key.length ≤ 31 &&
      v.isAlphanum && value.all labelValueChar && value.length ≤ 479
  | _ => false

def normalizeExecutorCapabilities (labels : List Label) : Except String (List Label) := do
  require (0 < labels.length && labels.length ≤ maxExecutorCapabilities)
    s!"executor capabilities must contain 1..{maxExecutorCapabilities} labels"
  let labels := labels.map trimSpace
  labels.forM fun label =>
    require (executorCapabilityPattern label) s!"invalid executor capability {label}"
  return labels.dedup.insertionSort (· ≤ ·)

/-! ## Rows -/

inductive Role
  | admission
  | phaseExecutor
  deriving DecidableEq

/-- `workers`; the desired state is `active` or `draining`. -/
structure WorkerRow extends Ledger.Executor where
  name : Worker
  role : Role
  deriving DecidableEq

/-- `SchedulerCapacityPoolDefinition`. -/
structure PoolDefinition where
  id : PoolId
  provider : String
  executionZone : String
  arch : String
  buildMode : String
  profileId : String
  imageId : String
  imageGeneration : String
  selector : List Label
  deriving DecidableEq

/-- `autoscaleDecisionState`. -/
structure DecisionState where
  desired : Nat
  underTarget : Option Time
  lastChanged : Option Time

/-- `scheduler_capacity_pool_state`. -/
structure PoolState where
  pool : PoolDefinition
  decision : DecisionState

inductive ActionKind
  | scaleUp
  | scaleDown
  deriving DecidableEq

inductive ActionState
  | requested
  | claimed
  | waitingForHeartbeat
  | waitingForDrain
  | completed
  | failed
  | canceled
  deriving DecidableEq

/-- The states under the unique index of open actions. -/
def ActionState.isOpen : ActionState → Bool
  | .requested | .claimed | .waitingForHeartbeat | .waitingForDrain => true
  | _ => false

/-- `scheduler_capacity_actions`. -/
structure Action where
  id : ActionId
  pool : PoolId
  kind : ActionKind
  state : ActionState
  requestedSlots : Nat
  observedSlots : Nat
  deltaSlots : Nat
  reason : String
  owner : String
  fence : Nat
  leaseExpiresAt : Option Time
  attempts : Nat
  nextAttemptAt : Time
  failureDetail : String
  requestedAt : Time
  deriving DecidableEq

inductive InstanceState
  | provisioning
  | active
  | draining
  | deleting
  | deleted
  | failed
  deriving DecidableEq

def InstanceState.live : InstanceState → Bool
  | .deleted | .failed => false
  | _ => true

/-- `scheduler_capacity_instances`. -/
structure Instance where
  id : InstanceId
  pool : PoolId
  createAction : ActionId
  deleteAction : Option ActionId
  provider : String
  ownerToken : Nat
  generation : Nat
  state : InstanceState
  remoteStateRef : String
  attributes : List (String × String)
  heartbeatObservedAt : Option Time
  createdAt : Time
  deriving DecidableEq

structure Fleet where
  workers : List WorkerRow
  pools : List PoolState
  actions : List Action
  instances : List Instance

def Fleet.empty : Fleet where
  workers := []
  pools := []
  actions := []
  instances := []

def Fleet.action? (f : Fleet) (id : ActionId) : Option Action :=
  f.actions.find? (·.id = id)

def Fleet.pool? (f : Fleet) (id : PoolId) : Option PoolState :=
  f.pools.find? (·.pool.id = id)

def Fleet.openAction? (f : Fleet) (pool : PoolId) : Option Action :=
  f.actions.find? fun a => a.pool = pool && a.state.isOpen

/-- An instance refers to the action, as its creator or as its remover. -/
def Instance.refersTo (i : Instance) (a : ActionId) : Bool :=
  i.createAction = a || i.deleteAction = some a

def Fleet.bound (f : Fleet) (a : ActionId) : Bool :=
  f.instances.any fun i => i.refersTo a && i.state.live

/-! ## Worker slots -/

/-- The upsert of `schedulerWorker` and `registerCapabilityWorker`: a slot that is known keeps its
desired state, a new one starts as active. -/
def registerWorker (f : Fleet) (name : Worker) (role : Role) (labels : List Label) (protocol : Nat)
    (now : Time) : Fleet :=
  if f.workers.any (·.name = name) then
    { f with
      workers := update (fun w => w.name = name)
        (fun w => { w with
          lastSeenAt := now, labels := labels, role := role, protocol := protocol }) f.workers }
  else
    { f with
      workers := f.workers ++ [{
        name := name, role := role, active := true, lastSeenAt := now, protocol := protocol
        labels := labels }] }

/-- `PruneStaleWorkers`: of the slots not seen since `before` that hold no worker lease, those that
no other transaction has locked. -/
def pruneStaleWorkers (f : Fleet) (before : Time) (leased locked : Worker → Bool) : Fleet :=
  { f with
    workers := delete (fun w => w.lastSeenAt < before && !leased w.name && !locked w.name)
      f.workers }

/-- A slot that takes work and has been seen in the last 45 seconds. -/
def WorkerRow.alive (w : WorkerRow) (now : Time) : Bool :=
  w.active && now < w.lastSeenAt + 45 * microsPerSecond

/-- Live phase executors, in the deployment or under a label. -/
def liveExecutors (f : Fleet) (now : Time) (label : Option Label) : Nat :=
  count (fun w => w.alive now && w.role = .phaseExecutor &&
    (label.all fun label => w.labels.contains label)) f.workers

end PortageEngine.Capacity
