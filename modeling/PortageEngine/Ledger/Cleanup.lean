import PortageEngine.Ledger.System

/-!
# Reclaiming machines

`infra_instances`: the machines that attempts have created, and the queue of those whose attempt is
over.  A machine is recorded under the fence of its attempt; `ClaimInfraCleanup` hands an abandoned
one to a replica that destroys it and then reports the outcome under its own cleanup fence.
`CleanupSystem` is the ledger with this table.
-/

namespace PortageEngine.Ledger

open Library Library.Rows
open Library.Decimal (cutText)

abbrev InstanceId := Nat

/-- The texts of `infra_instances.state` that the queries compare with; a provider's own state is
stored as it comes. -/
inductive InfraState
  | destroyed
  | terminated
  | destroyFailed
  | cleanupClaimed
  | other (text : String)
  deriving DecidableEq

structure InfraRecord where
  provider : String
  providerInstanceId : String
  state : InfraState
  remoteStateRef : String
  failureDetail : String
  cleanupAfter : Option Time
  deletedAt : Option Time

/-- `infra_instances`.  The owner token is the attempt with its fence. -/
structure InfraInstance where
  id : InstanceId
  job : JobId
  attempt : AttemptId
  provider : String
  providerInstanceId : String
  state : InfraState
  ownerToken : AttemptId × Nat
  remoteStateRef : String
  failureDetail : String
  cleanupAfter : Option Time
  deletedAt : Option Time
  cleanupOwner : String
  cleanupFence : Nat
  cleanupLeaseExpiresAt : Option Time
  cleanupAttempts : Nat
  nextCleanupAt : Time

structure InfraCleanupClaim where
  id : InstanceId
  provider : String
  providerInstanceId : String
  remoteStateRef : String
  cleanupFence : Nat

/-- `RecordInfra`: insert the machine, or rewrite the row of the same attempt and fence. -/
def recordInfra (l : Ledger) (instances : List InfraInstance) (status : BuildStatus)
    (record : InfraRecord) (fresh : InstanceId) (now : Time) :
    Except LedgerError (List InfraInstance) := do
  require (record.provider ≠ "" && record.providerInstanceId ≠ "" && record.state ≠ .other "")
    (.refused "infra metadata requires provider, provider_instance_id, and state")
  let attempt ← validateMetadataFence l status true now
  let token := (attempt, status.fenceToken)
  if instances.any fun i => i.provider = record.provider &&
      i.providerInstanceId = record.providerInstanceId then
    require (instances.any fun i => i.provider = record.provider &&
        i.providerInstanceId = record.providerInstanceId && i.ownerToken = token)
      (.refused s!"infrastructure {record.provider}/{record.providerInstanceId} is already owned by another attempt")
    return update (fun i => i.provider = record.provider &&
        i.providerInstanceId = record.providerInstanceId && i.ownerToken = token)
      (fun i => { i with
        job := status.jobId, attempt := attempt, state := record.state, ownerToken := token
        remoteStateRef := record.remoteStateRef, failureDetail := record.failureDetail
        cleanupAfter := record.cleanupAfter, deletedAt := record.deletedAt })
      instances
  require (!(instances.any fun i => i.id = fresh)) (.refused "upsert infra metadata")
  return {
    id := fresh, job := status.jobId, attempt := attempt, provider := record.provider
    providerInstanceId := record.providerInstanceId, state := record.state, ownerToken := token
    remoteStateRef := record.remoteStateRef, failureDetail := record.failureDetail
    cleanupAfter := record.cleanupAfter, deletedAt := record.deletedAt
    cleanupOwner := "", cleanupFence := 0, cleanupLeaseExpiresAt := none, cleanupAttempts := 0
    nextCleanupAt := now } :: instances

/-- States of an attempt that needs its machine no longer. -/
def attemptOver : Status → Bool
  | .expired | .failed | .canceled | .completed | .success => true
  | _ => false

/-- The `WHERE` clause of `ClaimInfraCleanup`. -/
def cleanupEligible (l : Ledger) (now : Time) (i : InfraInstance) : Bool :=
  i.deletedAt = none && i.remoteStateRef ≠ "" && i.state ≠ .destroyed && i.state ≠ .terminated &&
    i.nextCleanupAt ≤ now && (i.cleanupLeaseExpiresAt.all fun t => t ≤ now) &&
    !(l.leases.any fun x => x.attempt = i.attempt && now < x.expiresAt) &&
    (i.state = .destroyFailed || (i.cleanupAfter.any fun t => t ≤ now) ||
      ((l.attempt? i.attempt).any fun a => attemptOver a.state))

/-- What a call of `ClaimInfraCleanup` takes.  The order of the queue and the rows other replicas
have locked decide which eligible row it sees; the row is an argument, so that every choice is
covered. -/
structure CleanupCall where
  owner : String
  leaseDuration : Time
  candidate : InstanceId
  now : Time

/-- The row of a machine that a replica has taken for destruction. -/
def claimCleanupRow (call : CleanupCall) (i : InfraInstance) : InfraInstance :=
  { i with
    cleanupOwner := call.owner
    cleanupFence := i.cleanupFence + 1
    cleanupLeaseExpiresAt := some (call.now + call.leaseDuration)
    cleanupAttempts := i.cleanupAttempts + 1
    state := .cleanupClaimed }

def claimInfraCleanup (l : Ledger) (instances : List InfraInstance) (call : CleanupCall) :
    Except LedgerError (List InfraInstance × Option InfraCleanupClaim) := do
  require (call.owner ≠ "") (.refused "infra cleanup owner is required")
  require (0 < call.leaseDuration) (.refused "infra cleanup lease duration must be positive")
  match instances.find? fun i => i.id = call.candidate && cleanupEligible l call.now i with
  | none => return (instances, none)
  | some i =>
    return (update (fun k => k.id = i.id) (claimCleanupRow call) instances, some {
      id := i.id, provider := i.provider, providerInstanceId := i.providerInstanceId
      remoteStateRef := i.remoteStateRef, cleanupFence := i.cleanupFence + 1 })

/-- The row that a cleanup outcome may be written to. -/
def holdsCleanup (id : InstanceId) (owner : String) (fence : Nat) (now : Time)
    (i : InfraInstance) : Bool :=
  i.id = id && i.cleanupOwner = owner && i.cleanupFence = fence &&
    (i.cleanupLeaseExpiresAt.any fun t => now < t)

/-- Both outcomes of a cleanup are written under its fence. -/
def finishInfraCleanup (instances : List InfraInstance) (id : InstanceId) (owner : String)
    (fence : Nat) (now : Time) (outcome : InfraInstance → InfraInstance) :
    Except LedgerError (List InfraInstance) := do
  require (instances.any (holdsCleanup id owner fence now))
    (.refused "infrastructure cleanup fence is stale or expired")
  return update (holdsCleanup id owner fence now) outcome instances

def completeInfraCleanup (instances : List InfraInstance) (id : InstanceId) (owner : String)
    (fence : Nat) (now : Time) : Except LedgerError (List InfraInstance) :=
  finishInfraCleanup instances id owner fence now fun i => { i with
    state := .destroyed, deletedAt := some now, failureDetail := "", cleanupOwner := ""
    cleanupLeaseExpiresAt := none }

/-- `FailInfraCleanup`: the queue offers the machine again after five to 300 seconds. -/
def failInfraCleanup (instances : List InfraInstance) (id : InstanceId) (owner : String)
    (fence : Nat) (detail : String) (now : Time) : Except LedgerError (List InfraInstance) :=
  finishInfraCleanup instances id owner fence now fun i => { i with
    state := .destroyFailed, failureDetail := cutText 4096 detail, cleanupOwner := ""
    cleanupLeaseExpiresAt := none
    nextCleanupAt := now + min 300 (max 5 (i.cleanupAttempts * 5)) * microsPerSecond }

/-! ## The system with its machines -/

/-- The ledger, the phase claims handed out, and the machines. -/
structure CleanupSystem where
  system : System
  instances : List InfraInstance

def CleanupSystem.init (policies : List Policy) : CleanupSystem where
  system := System.init policies
  instances := []

/-- A ledger transaction, or one on the machines. -/
inductive CleanupOp
  | ledger (op : Op)
  | recordInfra (status : BuildStatus) (record : InfraRecord) (fresh : InstanceId) (now : Time)
  | claimCleanup (call : CleanupCall)
  | completeCleanup (id : InstanceId) (owner : String) (fence : Nat) (now : Time)
  | failCleanup (id : InstanceId) (owner : String) (fence : Nat) (detail : String) (now : Time)

def CleanupOp.runInstances (s : CleanupSystem) : CleanupOp → Except LedgerError (List InfraInstance)
  | .ledger _ => .ok s.instances
  | .recordInfra status record fresh now =>
    Ledger.recordInfra s.system.ledger s.instances status record fresh now
  | .claimCleanup call => (·.1) <$> claimInfraCleanup s.system.ledger s.instances call
  | .completeCleanup id owner fence now => completeInfraCleanup s.instances id owner fence now
  | .failCleanup id owner fence detail now =>
    failInfraCleanup s.instances id owner fence detail now

def CleanupOp.runLedger (s : System) : CleanupOp → System
  | .ledger op => step s op
  | _ => s

def stepCleanup (s : CleanupSystem) (op : CleanupOp) : CleanupSystem where
  system := op.runLedger s.system
  instances := match op.runInstances s with
    | .ok instances => instances
    | .error _ => s.instances

/-! ## The machines' attempts -/

variable {l : Ledger} {instances instances' : List InfraInstance}

/-- Every row of the new table belongs to an attempt of an old row, or to an attempt of the
ledger. -/
def Accounted (l : Ledger) (instances instances' : List InfraInstance) : Prop :=
  ∀ i ∈ instances', (∃ k ∈ instances, k.attempt = i.attempt) ∨
    i.attempt ∈ l.attempts.map Attempt.id

theorem accounted_refl :
    Accounted l instances instances :=
  fun i hi => .inl ⟨i, hi, rfl⟩

theorem accounted_update {p : InfraInstance → Bool} {f : InfraInstance → InfraInstance}
    (hattempt : ∀ i, (f i).attempt = i.attempt) : Accounted l instances (update p f instances) := by
  intro i hi
  rcases mem_update_cases hi with ⟨k, hk, _, rfl⟩ | ⟨hi, _⟩
  · exact .inl ⟨k, hk, (hattempt k).symm⟩
  · exact .inl ⟨i, hi, rfl⟩

theorem accounted_recordInfra {status : BuildStatus} {record : InfraRecord} {fresh : InstanceId}
    {now : Time} (h : recordInfra l instances status record fresh now = .ok instances') :
    Accounted l instances instances' := by
  replace h := passed h
  rcases bind_eq_ok.mp h with ⟨attempt, hfence, h⟩
  rcases validateMetadataFence_ok hfence with ⟨_, ⟨a, ha, hid, _⟩, _⟩
  have hknown : attempt ∈ l.attempts.map Attempt.id := List.mem_map.mpr ⟨a, ha, hid⟩
  split at h
  · replace h := passed h
    cases h
    intro i hi
    rcases mem_update_cases hi with ⟨k, hk, _, rfl⟩ | ⟨hi, _⟩
    · exact .inr hknown
    · exact .inl ⟨i, hi, rfl⟩
  · replace h := passed h
    cases h
    intro i hi
    rcases List.mem_cons.mp hi with rfl | hi
    · exact .inr hknown
    · exact .inl ⟨i, hi, rfl⟩

theorem claimInfraCleanup_ok {call : CleanupCall} {claim : Option InfraCleanupClaim}
    (h : claimInfraCleanup l instances call = .ok (instances', claim)) :
    (instances' = instances ∧ claim = none) ∨ ∃ i ∈ instances,
      i.id = call.candidate ∧ (claim.map InfraCleanupClaim.id = some i.id) ∧
      (∀ x ∈ l.leases, x.attempt = i.attempt → x.expiresAt ≤ call.now) ∧
      instances' = update (fun k => k.id = i.id) (claimCleanupRow call) instances := by
  replace h := passed h
  replace h := passed h
  cases hfind : instances.find? fun i => i.id = call.candidate && cleanupEligible l call.now i with
  | none =>
    rw [hfind] at h
    cases h
    exact .inl ⟨rfl, rfl⟩
  | some i =>
    rw [hfind] at h
    cases h
    have hi := List.find?_some hfind
    simp only [Bool.and_eq_true, decide_eq_true_eq] at hi
    refine .inr ⟨i, List.mem_of_find?_eq_some hfind, hi.1, rfl, ?_, rfl⟩
    have hlease := hi.2
    simp only [cleanupEligible, Bool.and_eq_true, Bool.not_eq_true', List.any_eq_false,
      decide_eq_true_eq, not_and, Nat.not_lt] at hlease
    exact hlease.1.2

theorem accounted_step {s : CleanupSystem} {op : CleanupOp} :
    Accounted s.system.ledger s.instances (stepCleanup s op).instances := by
  unfold stepCleanup
  cases hrun : op.runInstances s with
  | error e => exact accounted_refl
  | ok instances =>
    cases op with
    | ledger op =>
      cases hrun
      exact accounted_refl
    | recordInfra status record fresh now => exact accounted_recordInfra hrun
    | claimCleanup call =>
      rcases map_eq_ok.mp hrun with ⟨⟨_, claim⟩, hclaim, rfl⟩
      rcases claimInfraCleanup_ok hclaim with ⟨rfl, _⟩ | ⟨i, _, _, _, _, rfl⟩
      · exact accounted_refl
      · exact accounted_update fun _ => rfl
    | completeCleanup id owner fence now | failCleanup id owner fence detail now =>
      cases passed hrun
      exact accounted_update fun _ => rfl

end PortageEngine.Ledger
