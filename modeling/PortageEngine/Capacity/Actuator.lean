import PortageEngine.Capacity.Autoscale

/-!
# The capacity actuator's ledger

The transactions by which an actuator claims an action and moves the instance it is responsible for:
reserve, provision and confirm for a scale-up; select, drain and delete for a scale-down.  Each of
them checks that the caller still holds the action's current fence.
-/

namespace PortageEngine.Capacity

open Library Library.Rows
open Library.Decimal (trimSpace cutText)
open Ledger (Time Worker microsPerSecond)

/-- `CapacityActionClaim`. -/
structure Claim where
  id : ActionId
  pool : PoolDefinition
  kind : ActionKind
  requestedSlots : Nat
  observedSlots : Nat
  deltaSlots : Nat
  reason : String
  owner : String
  fence : Nat
  leaseExpiresAt : Option Time
  deriving DecidableEq

/-- What an actuator knows of an instance, and passes back. -/
structure InstanceRef where
  id : InstanceId
  ownerToken : Nat
  generation : Nat

/-- `scanCapacityAction`: the action joined with its pool. -/
def scanCapacityAction (f : Fleet) (a : Action) : Option Claim :=
  (f.pool? a.pool).map fun p => {
    id := a.id, pool := p.pool, kind := a.kind, requestedSlots := a.requestedSlots
    observedSlots := a.observedSlots, deltaSlots := a.deltaSlots, reason := a.reason
    owner := a.owner, fence := a.fence, leaseExpiresAt := a.leaseExpiresAt }

/-! ## Requesting and claiming -/

/-- `RequestCapacityAction`: one open action a pool. -/
def requestAction (f : Fleet) (pool : PoolId) (kind : ActionKind) (requested observed : Nat)
    (reason : String) (now : Time) (fresh : ActionId) : Except String (Fleet × Option Claim) := do
  require (trimSpace pool ≠ "") "capacity pool id is required"
  require (if kind = .scaleUp then observed < requested else requested < observed)
    "capacity action slot transition is invalid"
  match f.openAction? pool with
  | some a => return (f, scanCapacityAction f a)
  | none =>
    require ((f.pool? pool).isSome && !(f.actions.any (·.id = fresh))) "request capacity action"
    let a := newAction pool kind requested observed reason now fresh
    return ({ f with actions := a :: f.actions }, scanCapacityAction f a)

/-- An action that may be claimed: requested, or claimed under a lease that has run out. -/
def Action.claimable (a : Action) (now : Time) : Bool :=
  a.nextAttemptAt ≤ now && (a.state = .requested ||
    (a.state = .claimed && a.leaseExpiresAt.any fun expires => expires ≤ now))

def claimRow (owner : String) (lease now : Time) (a : Action) : Action :=
  { a with
    state := .claimed, owner := owner, fence := a.fence + 1
    leaseExpiresAt := some (now + lease), attempts := a.attempts + 1 }

/-- `ClaimCapacityAction`: the claimable action that was requested first, passing over the rows that
other transactions have locked. -/
def claimCapacityAction (f : Fleet) (owner : String) (lease now : Time)
    (locked : ActionId → Bool) : Except String (Fleet × Option Claim) := do
  let owner := trimSpace owner
  require (owner ≠ "" && owner.length ≤ 256 && 0 < lease)
    "capacity action owner and positive lease are required"
  match (f.actions.filter fun a => a.claimable now && !locked a.id).argmin
      fun a => toLex (a.requestedAt, a.id) with
  | none => return (f, none)
  | some a =>
    return ({ f with actions := update (fun b => b.id = a.id) (claimRow owner lease now) f.actions },
      scanCapacityAction f (claimRow owner lease now a))

/-- The claim is the current one of its action. -/
def Claim.current (c : Claim) (now : Time) (a : Action) : Bool :=
  a.id = c.id && a.state = .claimed && a.owner = c.owner && a.fence = c.fence &&
    a.leaseExpiresAt.any fun expires => now < expires

def validateCapacityActionFence (f : Fleet) (c : Claim) (now : Time) : Except String Unit := do
  require (c.owner ≠ "" && 0 < c.fence) "capacity action claim is incomplete"
  match f.action? c.id with
  | none => .error "validate capacity action fence"
  | some a => require (c.current now a) "capacity action fence is stale or expired"

def updateClaimed (f : Fleet) (c : Claim) (now : Time) (g : Action → Action) (stale : String) :
    Except String Fleet := do
  require (f.actions.any (c.current now)) stale
  return { f with actions := update (c.current now) g f.actions }

def renewCapacityAction (f : Fleet) (c : Claim) (lease now : Time) : Except String Fleet := do
  require (0 < lease) "capacity action renewal lease must be positive"
  updateClaimed f c now (fun a => { a with leaseExpiresAt := some (now + lease) })
    "capacity action fence is stale or expired"

def retryCapacityAction (f : Fleet) (c : Claim) (detail : String) (now : Time) :
    Except String Fleet :=
  updateClaimed f c now
    (fun a => { a with
      state := .requested, failureDetail := cutText capacityActionMaxDetail detail, owner := "", leaseExpiresAt := none
      nextAttemptAt := now + retryBackoff a.attempts })
    "capacity action failure fence is stale"

/-- `completeCapacityActionTx`. -/
def completeCapacityAction (f : Fleet) (c : Claim) (now : Time) : Except String Fleet :=
  updateClaimed f c now
    (fun a => { a with
      state := .completed, owner := "", leaseExpiresAt := none, failureDetail := "" })
    "capacity action completion fence is stale"

/-! ## Instances -/

/-- The instance under its exact identity, in the pool of the claim and in the given state. -/
def Instance.is (i : Instance) (c : Claim) (ref : InstanceRef) (state : InstanceState) : Bool :=
  i.id = ref.id && i.ownerToken = ref.ownerToken && i.generation = ref.generation &&
    i.pool = c.pool.id && i.state = state

/-- A write to one instance row in the given state. -/
def updateInstance (f : Fleet) (c : Claim) (ref : InstanceRef) (state : InstanceState)
    (g : Instance → Instance) (stale : String) : Except String Fleet := do
  require (f.instances.any fun i => i.is c ref state) stale
  return { f with instances := update (fun i => i.is c ref state) g f.instances }

/-- `ReserveCapacityInstance`: an action that has reserved an instance gets the same one again. -/
def reserveCapacityInstance (f : Fleet) (c : Claim) (now : Time) (fresh : InstanceId)
    (token : Nat) : Except String (Fleet × Instance) := do
  require (c.kind = .scaleUp && c.deltaSlots = 1) "one-slot scale-up claim is required"
  validateCapacityActionFence f c now
  match f.instances.find? fun i => i.createAction = c.id with
  | some i => return (f, i)
  | none =>
    require (!(f.instances.any fun i => i.id = fresh || i.ownerToken = token))
      "reserve capacity instance"
    let i : Instance := {
      id := fresh, pool := c.pool.id, createAction := c.id, deleteAction := none
      provider := c.pool.provider, ownerToken := token, generation := 1, state := .provisioning
      remoteStateRef := "", attributes := [], heartbeatObservedAt := none, createdAt := now }
    return ({ f with instances := i :: f.instances }, i)

def recordCapacityInstanceProvisioned (f : Fleet) (c : Claim) (ref : InstanceRef)
    (remoteStateRef : String) (attributes : List (String × String)) (now : Time) :
    Except String Fleet := do
  validateCapacityActionFence f c now
  updateInstance f c ref .provisioning
    (fun i => { i with remoteStateRef := remoteStateRef, attributes := attributes })
    "capacity instance ownership fence is stale"

/-- A live slot of the instance carries the whole selector of the pool. -/
def heartbeatObserved (f : Fleet) (c : Claim) (ref : InstanceRef) (now : Time) : Bool :=
  f.workers.any fun w => w.alive now && w.labels.contains (capacityInstanceLabel ref.id) &&
    c.pool.selector.all fun label => w.labels.contains label

def confirmCapacityInstanceHeartbeat (f : Fleet) (c : Claim) (ref : InstanceRef) (now : Time) :
    Except String (Fleet × Bool) := do
  validateCapacityActionFence f c now
  if heartbeatObserved f c ref now then
    let f ← updateInstance f c ref .provisioning
      (fun i => { i with state := .active, heartbeatObservedAt := some now })
      "capacity instance heartbeat ownership fence is stale"
    let f ← completeCapacityAction f c now
    return (f, true)
  else return (f, false)

/-- The instance that a scale-down works on: its own if it has one, and otherwise the active
instance of the pool that was confirmed first. -/
def drainTarget (f : Fleet) (c : Claim) (locked : InstanceId → Bool) : Option Instance :=
  (f.instances.find? fun i => i.deleteAction = some c.id && i.pool = c.pool.id &&
    (i.state = .draining || i.state = .deleting)).or
  ((f.instances.filter fun i => i.pool = c.pool.id && i.state = .active && !locked i.id).argmin
    fun i => toLex (if i.heartbeatObservedAt.isNone then 1 else 0,
      toLex (i.heartbeatObservedAt.getD 0, toLex (i.createdAt, i.id))))

/-- The row of an instance that is to be deleted. -/
def drainRow (c : Claim) (i : Instance) : Instance :=
  { i with
    state := if i.state = .deleting then .deleting else .draining
    deleteAction := some c.id }

/-- The slots of an instance take no more work. -/
def drainWorkers (f : Fleet) (i : InstanceId) : Fleet :=
  { f with
    workers := update (fun w => w.labels.contains (capacityInstanceLabel i))
      (fun w => { w with active := false }) f.workers }

def selectCapacityInstanceForDrain (f : Fleet) (c : Claim) (now : Time)
    (locked : InstanceId → Bool) : Except String (Fleet × Option Instance) := do
  require (c.kind = .scaleDown && c.deltaSlots = 1) "one-slot scale-down claim is required"
  validateCapacityActionFence f c now
  match drainTarget f c locked with
  | none => return (f, none)
  | some i =>
    -- the remover of an instance is unique
    require (!(f.instances.any fun other => other.id ≠ i.id && other.deleteAction = some c.id))
      "select capacity instance for drain"
    let f := { f with instances := update (fun x => x.id = i.id) (drainRow c) f.instances }
    return (drainWorkers f i.id, some (drainRow c i))

/-- `capacityInstanceDrainedTx`; `working` are the slots that hold a live worker lease or phase
claim. -/
def capacityInstanceDrained (f : Fleet) (c : Claim) (ref : InstanceRef)
    (working : Worker → Bool) : Bool :=
  (f.workers.all fun w => !(w.labels.contains (capacityInstanceLabel ref.id) && working w.name)) &&
    f.instances.any fun i => i.is c ref .draining

def beginCapacityInstanceDelete (f : Fleet) (c : Claim) (ref : InstanceRef) (now : Time)
    (working : Worker → Bool) : Except String Fleet := do
  validateCapacityActionFence f c now
  require (capacityInstanceDrained f c ref working) "capacity instance still owns live work"
  updateInstance f c ref .draining (fun i => { i with state := .deleting })
    "capacity instance delete ownership fence is stale"

def completeCapacityInstanceDelete (f : Fleet) (c : Claim) (ref : InstanceRef) (now : Time) :
    Except String Fleet := do
  validateCapacityActionFence f c now
  let f ← updateInstance f c ref .deleting (fun i => { i with state := .deleted })
    "capacity instance delete ownership fence is stale"
  completeCapacityAction f c now

end PortageEngine.Capacity
