import PortageEngine.Capacity.Fleet

/-!
# Autoscaling

`ReconcileAutoscaling` counts the live phase executors, decides for each capacity pool whether it has
too few or too many, and turns the decisions into at most one open action a pool.  Its statements are
functions on the tables; a pass is the state of the transaction between two of them.
-/

namespace PortageEngine.Capacity

open Library Library.Rows
open Library.Decimal (trimSpace cutText)
open Ledger

/-! ## The policy -/

inductive Mode
  | off
  | observe
  | actuate
  deriving DecidableEq

/-- `SchedulerAutoscalePolicy`.  Negative numbers are refused before anything else happens. -/
structure Policy where
  mode : Mode
  minSlots : Nat
  maxSlots : Nat
  targetReady : Nat
  cooldown : Time
  scaleDownDelay : Time
  pools : List PoolDefinition
  providerMaxSlots : List (String × Nat)

def Policy.providerLimit (p : Policy) (provider : String) : Nat :=
  (p.providerMaxSlots.lookup provider).getD 0

def validatePool (policy : Policy) (pool : PoolDefinition) : Except String Unit := do
  require (trimSpace pool.id ≠ "" && trimSpace pool.provider ≠ "" &&
      trimSpace pool.executionZone ≠ "" && trimSpace pool.arch ≠ "" &&
      trimSpace pool.profileId ≠ "" && trimSpace pool.imageId ≠ "" &&
      trimSpace pool.imageGeneration ≠ "")
    "autoscale capacity pool dimensions are incomplete"
  let selector ← (normalizeExecutorCapabilities pool.selector).mapError
    fun e => s!"capacity pool {pool.id} selector: {e}"
  require (selector.contains (capacityPoolLabel pool.id))
    s!"capacity pool {pool.id} selector omits its pool label"
  require (policy.mode ≠ .actuate ||
      (0 < policy.providerLimit pool.provider && policy.providerLimit pool.provider ≤ 10000))
    s!"actuate mode requires a provider slot limit for {pool.provider}"

/-- The loop over the pools, with the identifiers seen so far. -/
def validatePools (policy : Policy) (seen : List PoolId) : List PoolDefinition → Except String Unit
  | [] => .ok ()
  | pool :: pools => do
    require (!seen.contains pool.id) s!"duplicate autoscale capacity pool {pool.id}"
    validatePool policy pool
    validatePools policy (pool.id :: seen) pools

def validateAutoscalePolicy (policy : Policy) : Except String Unit := do
  require (policy.minSlots ≤ policy.maxSlots && 0 < policy.targetReady)
    "autoscale policy is invalid"
  require (policy.pools.length ≤ 1024) "autoscale policy contains too many capacity pools"
  validatePools policy [] policy.pools

/-! ## The decision -/

/-- `autoscaleObservation`. -/
structure Observation where
  activeSlots : Nat
  busySlots : Nat
  backlog : Nat
  unschedulable : Nat

/-- What the demand queries find in the job and phase tables. -/
structure Demand where
  busySlots : Nat
  backlog : Nat
  unschedulable : Nat

inductive Recommendation
  | off
  | hold
  | scaleUp
  | scaleDown
  deriving DecidableEq

/-- `autoscaleDecision`. -/
structure Decision extends DecisionState where
  recommendation : Recommendation
  reason : String

def clampSlots (value minimum maximum : Nat) : Nat :=
  if value < minimum then minimum else if maximum < value then maximum else value

/-- The number of slots that the demand alone asks for. -/
def rawDesired (o : Observation) (policy : Policy) : Nat :=
  let schedulable := o.backlog - o.unschedulable
  clampSlots (o.busySlots + (schedulable + policy.targetReady - 1) / policy.targetReady)
    policy.minSlots policy.maxSlots

/-- The desired slots after cooldown and dwell, and the text that explains them. -/
def decideDesired (o : Observation) (policy : Policy) (now : Time) (state : DecisionState) :
    DecisionState × String :=
  let raw := rawDesired o policy
  let cooldownReady := state.lastChanged.all fun changed => changed + policy.cooldown ≤ now
  if policy.mode = .off then
    ({ state with desired := o.activeSlots, underTarget := none }, "")
  else if state.desired < raw then
    if cooldownReady then
      ({ desired := raw, underTarget := none, lastChanged := some now }, "")
    else ({ state with underTarget := none }, "; scale-up cooldown active")
  else if raw < state.desired then
    let started := state.underTarget.getD now
    if cooldownReady && started + policy.scaleDownDelay ≤ now then
      ({ desired := raw, underTarget := none, lastChanged := some now }, "")
    else ({ state with underTarget := some started }, "; scale-down dwell active")
  else ({ state with underTarget := none }, "")

def decideAutoscale (o : Observation) (policy : Policy) (now : Time) (state : DecisionState) :
    Decision :=
  let (next, suffix) := decideDesired o policy now state
  let schedulable := o.backlog - o.unschedulable
  { next with
    recommendation :=
      if policy.mode = .off then .off
      else if o.activeSlots < next.desired then .scaleUp
      else if next.desired < o.activeSlots then .scaleDown
      else .hold
    reason :=
      s!"busy={o.busySlots} schedulable_backlog={schedulable} " ++
        s!"target_ready_per_slot={policy.targetReady}" ++ suffix }

/-- `SchedulerCapacityPoolStatus`, as far as the allocation reads it. -/
structure PoolStatus where
  pool : PoolDefinition
  activeSlots : Nat
  backlog : Nat
  unschedulable : Nat
  desiredSlots : Nat
  recommendation : Recommendation
  reason : String

/-- `reconcileCapacityPool`: the pool has no minimum of its own. -/
def reconcileCapacityPool (f : Fleet) (pool : PoolDefinition) (policy : Policy) (now : Time)
    (observedAt : Time) (demand : Demand) : Fleet × PoolStatus :=
  let active := liveExecutors f observedAt (some (capacityPoolLabel pool.id))
  let o : Observation := ⟨active, demand.busySlots, demand.backlog, demand.unschedulable⟩
  let state := ((f.pool? pool.id).map (·.decision)).getD
    { desired := clampSlots active 0 policy.maxSlots, underTarget := none, lastChanged := none }
  let decision := decideAutoscale o { policy with minSlots := 0 } now state
  let row : PoolState := { pool := pool, decision := decision.toDecisionState }
  ({ f with
      pools := if (f.pool? pool.id).isSome then
        update (fun p => p.pool.id = pool.id) (fun _ => row) f.pools else f.pools ++ [row] },
    { pool := pool
      activeSlots := active
      backlog := demand.backlog
      unschedulable := demand.unschedulable
      desiredSlots := decision.desired
      recommendation := decision.recommendation
      reason := decision.reason })

/-! ## Actions -/

def newAction (pool : PoolId) (kind : ActionKind) (requested observed : Nat) (reason : String)
    (now : Time) (fresh : ActionId) : Action where
  id := fresh
  pool := pool
  kind := kind
  state := .requested
  requestedSlots := requested
  observedSlots := observed
  deltaSlots := 1
  reason := reason
  owner := ""
  fence := 0
  leaseExpiresAt := none
  attempts := 0
  nextAttemptAt := now
  failureDetail := ""
  requestedAt := now

def capacityActionMaxDetail : Nat := 4096

/-- `requestCapacityActionTx`: a pool without an open action gets one, and an unclaimed action to
which no instance is bound is refreshed. -/
def requestCapacityAction (f : Fleet) (pool : PoolId) (kind : ActionKind) (requested observed : Nat)
    (reason : String) (now : Time) (fresh : ActionId) : Except String Fleet :=
  let reason := cutText capacityActionMaxDetail reason
  match f.openAction? pool with
  | none => do
    require ((f.pool? pool).isSome && !(f.actions.any (·.id = fresh)))
      s!"enqueue capacity pool {pool} action"
    return { f with
      actions := newAction pool kind requested observed reason now fresh :: f.actions }
  | some a =>
    if a.state = .requested && !f.bound a.id then
      .ok { f with
        actions := update (fun b => b.id = a.id)
          (fun b => { b with
            kind := kind, requestedSlots := requested, observedSlots := observed, reason := reason
            nextAttemptAt := now, failureDetail := "" }) f.actions }
    else .ok f

/-- `cancelRequestedCapacityActionTx`. -/
def cancelRequestedCapacityAction (f : Fleet) (pool : PoolId) (reason : String) : Fleet :=
  { f with
    actions := update (fun a => a.pool = pool && a.state = .requested && !f.bound a.id)
      (fun a => { a with state := .canceled, failureDetail := cutText capacityActionMaxDetail reason }) f.actions }

/-- The delay before an action is tried again. -/
def retryBackoff (attempts : Nat) : Time :=
  min 300 (2 ^ min attempts 8) * microsPerSecond

/-- The action owns an instance between creation and use, or between use and deletion. -/
def Action.owns (a : Action) (i : Instance) : Bool :=
  match a.kind with
  | .scaleUp => i.createAction = a.id
  | .scaleDown => i.deleteAction = some a.id

def InstanceState.inTransition : InstanceState → Bool
  | .provisioning | .draining | .deleting => true
  | _ => false

/-- A closed action that the reopening query finds. -/
def reopenable (f : Fleet) (a : Action) : Bool :=
  (a.state = .canceled || a.state = .failed) &&
    (f.instances.any fun i => a.owns i && i.state.inTransition) &&
    (f.openAction? a.pool).isNone

/-- Of the reopenable actions of a pool, the one that was requested first. -/
def reopens (f : Fleet) (a : Action) : Bool :=
  reopenable f a && f.actions.all fun b =>
    !(reopenable f b && b.pool = a.pool) ||
      a.requestedAt < b.requestedAt || (a.requestedAt = b.requestedAt && a.id ≤ b.id)

/-- `reopenBoundCapacityActionsTx`. -/
def reopenBoundCapacityActions (f : Fleet) (now : Time) : Fleet :=
  { f with
    actions := update (reopens f)
      (fun a => { a with
        state := .requested, owner := "", leaseExpiresAt := none
        nextAttemptAt := now + retryBackoff a.attempts
        failureDetail := String.ofList
          (((if a.failureDetail = "" then "" else a.failureDetail ++ " | ") ++
            "reopened: a live provider instance is bound to this action").toList.take
            capacityActionMaxDetail) }) f.actions }

/-! ## A pass -/

/-- Claimed scale-ups, in the deployment or of one provider. -/
def pendingScaleUp (f : Fleet) (provider : Option String) : Nat :=
  count (fun a => a.kind = .scaleUp && (a.state = .claimed || a.state = .waitingForHeartbeat) &&
    (provider.all fun provider =>
      (f.pool? a.pool).any fun p => p.pool.provider = provider)) f.actions

/-- The slots that a pass may still add or remove. -/
structure Budgets where
  scaleUp : Nat
  scaleDown : Nat
  providers : List (String × Nat)

def Budgets.provider (b : Budgets) (provider : String) : Nat :=
  (b.providers.lookup provider).getD 0

/-- Where a pass stands between two of its statements. -/
inductive Stage
  | observing (todo : List PoolDefinition) (done : List PoolStatus)
  | canceling (todo : List PoolStatus)
  | pending (statuses : List PoolStatus)
  | counting (statuses : List PoolStatus) (budgets : Budgets) (todo : List (String × Nat))
  | allocating (todo : List PoolStatus) (budgets : Budgets)

structure Pass where
  policy : Policy
  now : Time
  activeSlots : Nat
  stage : Stage

/-- A pass begins with the count of the deployment's live executors. -/
def beginPass (f : Fleet) (policy : Policy) (now : Time) : Except String Pass := do
  validateAutoscalePolicy policy
  return {
    policy := policy
    now := now
    activeSlots := liveExecutors f now none
    stage := .observing policy.pools [] }

def servedBefore (a b : PoolStatus) : Bool :=
  if a.unschedulable ≠ b.unschedulable then b.unschedulable < a.unschedulable
  else if a.backlog ≠ b.backlog then b.backlog < a.backlog
  else a.pool.id ≤ b.pool.id

/-- One slot of the budget of a pool's provider is used. -/
def Budgets.spendUp (b : Budgets) (provider : String) : Budgets :=
  { b with
    scaleUp := b.scaleUp - 1
    providers := b.providers.map fun x => if x.1 = provider then (x.1, x.2 - 1) else x }

/-- The part of `reconcileCapacityActionsTx` that serves one pool. -/
def allocatePool (f : Fleet) (budgets : Budgets) (s : PoolStatus) (now : Time) (fresh : ActionId) :
    Except String (Fleet × Budgets) :=
  if s.recommendation = .scaleUp && 0 < budgets.scaleUp && 0 < budgets.provider s.pool.provider then
    (·, budgets.spendUp s.pool.provider) <$> requestCapacityAction f s.pool.id .scaleUp
      s.desiredSlots s.activeSlots s.reason now fresh
  else if s.recommendation = .scaleDown && 0 < budgets.scaleDown then
    (·, { budgets with scaleDown := budgets.scaleDown - 1 }) <$>
      requestCapacityAction f s.pool.id .scaleDown s.desiredSlots s.activeSlots s.reason now fresh
  else .ok (cancelRequestedCapacityAction f s.pool.id
    "pool recommendation no longer has global capacity budget", budgets)

/-- The next statement of a pass; `none` when the pass is over. -/
def Pass.advance (f : Fleet) (p : Pass) (now : Time) (demand : Demand) (fresh : ActionId) :
    Except String (Fleet × Option Pass) :=
  match p.stage with
  | .observing (pool :: todo) done =>
    let (f, status) := reconcileCapacityPool f pool p.policy p.now now demand
    .ok (f, some { p with stage := .observing todo (done ++ [status]) })
  | .observing [] done =>
    let f := reopenBoundCapacityActions f now
    if p.policy.mode = .actuate then .ok (f, some { p with stage := .pending done })
    else .ok (f, some { p with stage := .canceling done })
  | .canceling [] => .ok (f, none)
  | .canceling (s :: todo) =>
    .ok (cancelRequestedCapacityAction f s.pool.id "autoscale actuation is disabled",
      some { p with stage := .canceling todo })
  | .pending statuses =>
    .ok (f, some { p with
      stage := .counting statuses {
        scaleUp := p.policy.maxSlots - p.activeSlots - pendingScaleUp f none
        scaleDown := p.activeSlots - p.policy.minSlots
        providers := [] } p.policy.providerMaxSlots })
  | .counting statuses budgets ((provider, limit) :: todo) =>
    let left := limit - liveExecutors f now (some (providerLabel provider)) -
      pendingScaleUp f (some provider)
    .ok (f, some { p with
      stage := .counting statuses
        { budgets with providers := budgets.providers ++ [(provider, left)] } todo })
  | .counting statuses budgets [] =>
    .ok (f, some { p with
      stage := .allocating (statuses.insertionSort fun a b => servedBefore a b) budgets })
  | .allocating [] _ => .ok (f, none)
  | .allocating (s :: todo) budgets => do
    let (f, budgets) ← allocatePool f budgets s now fresh
    return (f, some { p with stage := .allocating todo budgets })

end PortageEngine.Capacity
