import PortageEngine.Replica.Projection

/-!
# Replicas and executors

The cluster is the ledger, the projection of every replica, and what is under way between them:
answers of the database that their goroutine has not written to the map yet, and calls of executors
that have not reached the database.  An executor is the goroutine pair that `durableWorker` starts for
one claim.  It does not carry the claim: each of its calls reads the identity it presents from the
map.
-/

namespace PortageEngine.Replica

open Ledger Library

abbrev ReplicaId := Nat

/-- The goroutines started for one attempt of a job. -/
structure Executor where
  replica : ReplicaId
  job : JobId
  attempt : AttemptId
  deriving DecidableEq

inductive Request
  | renew (status : BuildStatus) (leaseDuration : Time)
  | report (previous current : BuildStatus)

/-- The status whose identity a request presents. -/
def Request.status : Request → BuildStatus
  | .renew status _ => status
  | .report _ current => current

structure Call where
  executor : Executor
  request : Request

/-- An answer of the database on its way into the map of a replica. -/
inductive Reply
  | claimed (status : BuildStatus)
  | submitted (status : BuildStatus)
  | changed (status : BuildStatus)
  | loaded (jobs : List BuildStatus)
  | recorded (previous current : BuildStatus)

structure Cluster where
  system : System
  jobs : ReplicaId → Projection
  replies : List (ReplicaId × Reply)
  executors : List Executor
  calls : List Call

def Cluster.init (policies : List Policy) : Cluster where
  system := System.init policies
  jobs := fun _ _ => none
  replies := []
  executors := []
  calls := []

def Cluster.ledger (c : Cluster) : Ledger := c.system.ledger

/-- One action of a goroutine, or of the database. -/
inductive Act
  /-- A transaction of another part of the control plane. -/
  | other (op : Op)
  | submit (r : ReplicaId) (call : CreateCall)
  | claim (r : ReplicaId) (call : ClaimCall)
  | cancel (r : ReplicaId) (job : JobId) (reason : String) (now : Time)
  | retry (r : ReplicaId) (job : JobId) (counted : Nat) (now : Time)
  | load (r : ReplicaId) (now : Time)
  /-- The goroutine of the `i`-th answer writes it to its map. -/
  | install (i : Nat)
  | renewTick (e : Executor)
  | requireActiveClaim (e : Executor) (leaseDuration : Time)
  | updateStatus (e : Executor) (status : Status) (instanceId errorMsg : String) (at_ : Time)
  /-- The `i`-th call reaches the database; its sender may send it `again`. -/
  | deliver (i : Nat) (now : Time) (fresh : AttemptId) (again : Bool)

def setJobs (c : Cluster) (r : ReplicaId) (jobs : Projection) : Cluster :=
  { c with jobs := fun r' => if r' = r then jobs else c.jobs r' }

/-! ## Answers -/

/-- What an answer does to the map; the first write of a claim also starts its executor. -/
def installReply (c : Cluster) (r : ReplicaId) : Reply → Cluster
  | .claimed status =>
    { setJobs c r ((c.jobs r).set status.jobId status) with
      executors := (status.attemptId.toList.map fun a => ⟨r, status.jobId, a⟩) ++ c.executors }
  | .submitted status => setJobs c r ((c.jobs r).set status.jobId status)
  | .changed status =>
    let log := ((c.jobs r status.jobId).map BuildStatus.log).getD status.log
    setJobs c r ((c.jobs r).set status.jobId { status with log := log })
  | .loaded durable => setJobs c r (syncLedgerJobs (c.jobs r) durable)
  | .recorded previous current => setJobs c r (commitStatus (c.jobs r) previous current)

/-! ## Calls -/

/-- `renewClaimLoop` renews in steps of thirty seconds. -/
def renewLease : Time := 30 * microsPerSecond

def send (c : Cluster) (e : Executor) (request : Request) : Cluster :=
  { c with calls := ⟨e, request⟩ :: c.calls }

/-- One tick of `renewClaimLoop`. -/
def tick (c : Cluster) (e : Executor) : Cluster :=
  match c.jobs e.replica e.job with
  | none => c
  | some status => if terminalStatus status.status then c else send c e (.renew status renewLease)

/-- The renewal of `requireActiveClaim`. -/
def requireClaim (c : Cluster) (e : Executor) (leaseDuration : Time) : Cluster :=
  match c.jobs e.replica e.job with
  | none => c
  | some status => send c e (.renew status leaseDuration)

/-- `updateStatus` up to its database call.  Without an identity the map is written first. -/
def updateStatus (c : Cluster) (e : Executor) (status : Status) (instanceId errorMsg : String)
    (at_ : Time) : Cluster :=
  match c.jobs e.replica e.job with
  | none => c
  | some previous =>
    let current := nextStatus previous status instanceId errorMsg at_
    let c := if previous.attemptId.isSome then c
      else setJobs c e.replica ((c.jobs e.replica).set e.job current)
    send c e (.report previous current)

def Request.op (now : Time) (fresh : AttemptId) : Request → Op
  | .renew status leaseDuration => .renew status leaseDuration now
  | .report previous current => .record (some previous) current now fresh

/-- The answer that a successful request sends back to the map. -/
def Request.reply : Request → Option Reply
  | .renew _ _ => none
  | .report previous current => if current.attemptId.isSome then some (.recorded previous current)
      else none

def deliver (c : Cluster) (i : Nat) (now : Time) (fresh : AttemptId) (again : Bool) : Cluster :=
  match c.calls[i]? with
  | none => c
  | some call =>
    let op := call.request.op now fresh
    let succeeded := (op.run c.system.ledger).toOption.isSome
    let replies := if succeeded then call.request.reply.toList.map (call.executor.replica, ·) else []
    { c with
      system := step c.system op
      calls := if again then c.calls else c.calls.eraseIdx i
      replies := replies ++ c.replies }

/-! ## Steps -/

/-- A transaction whose answer goes to a replica. -/
def transact (c : Cluster) (op : Op) (r : ReplicaId) (reply : Option Reply) : Cluster :=
  { c with system := step c.system op, replies := reply.toList.map (r, ·) ++ c.replies }

/-- The claim of a successful `ClaimNext`. -/
def claimReply (l : Ledger) (call : ClaimCall) : Option Reply :=
  match claimNext l call with
  | .ok (_, some c) => some (.claimed c.status)
  | _ => none

/-- The status of a submitted job, or of the job that its idempotency key belongs to. -/
def submitReply (l : Ledger) (call : CreateCall) : Option Reply :=
  match createJob l call with
  | .error _ => none
  | .ok _ =>
    match loadIdempotentJob l call with
    | none => some (.submitted call.status)
    | some j => some (.submitted (j.snapshot.decode j.id))

def changeReply (result : Except LedgerError (Ledger × BuildStatus)) : Option Reply :=
  result.toOption.map fun r => .changed r.2

def stepCluster (c : Cluster) : Act → Cluster
  | .other op => { c with system := step c.system op }
  | .submit r call => transact c (.create call) r (submitReply c.ledger call)
  | .claim r call => transact c (.claim call) r (claimReply c.ledger call)
  | .cancel r job reason now =>
    transact c (.cancel job reason now) r (changeReply (cancelJob c.ledger job reason now))
  | .retry r job counted now =>
    transact c (.retry job counted now) r (changeReply (retryJob c.ledger job counted now))
  | .load r now => { c with replies := (r, .loaded (loadVisible c.ledger now)) :: c.replies }
  | .install i =>
    match c.replies[i]? with
    | none => c
    | some (r, reply) => installReply { c with replies := c.replies.eraseIdx i } r reply
  | .renewTick e => if c.executors.contains e then tick c e else c
  | .requireActiveClaim e leaseDuration =>
    if c.executors.contains e then requireClaim c e leaseDuration else c
  | .updateStatus e status instanceId errorMsg at_ =>
    if c.executors.contains e then updateStatus c e status instanceId errorMsg at_ else c
  | .deliver i now fresh again => deliver c i now fresh again

def Act.op (c : Cluster) : Act → Option Op
  | .other op => some op
  | .submit _ call => some (.create call)
  | .claim _ call => some (.claim call)
  | .cancel _ job reason now => some (.cancel job reason now)
  | .retry _ job counted now => some (.retry job counted now)
  | .deliver i now fresh _ => (c.calls[i]?).map fun call => call.request.op now fresh
  | _ => none

theorem system_installReply {c : Cluster} {r : ReplicaId} {reply : Reply} :
    (installReply c r reply).system = c.system := by
  cases reply <;> rfl

theorem system_stepCluster (c : Cluster) (act : Act) :
    (stepCluster c act).system = match act.op c with
      | none => c.system
      | some op => step c.system op := by
  cases act with
  | install i =>
    simp only [stepCluster, Act.op]
    cases hreply : c.replies[i]? with
    | none => rfl
    | some pair => exact system_installReply
  | renewTick e =>
    simp only [stepCluster, tick, Act.op]
    repeat' split
    all_goals rfl
  | requireActiveClaim e leaseDuration =>
    simp only [stepCluster, requireClaim, Act.op]
    repeat' split
    all_goals rfl
  | updateStatus e status instanceId errorMsg at_ =>
    simp only [stepCluster, updateStatus, Act.op]
    repeat' split
    all_goals rfl
  | deliver i now fresh again =>
    simp only [stepCluster, deliver, Act.op]
    cases hcall : c.calls[i]? with
    | none | some call => rfl
  | _ => rfl

end PortageEngine.Replica
