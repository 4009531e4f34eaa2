import PortageEngine.Ledger.System
import PortageEngine.Library.Overlay
import PortageEngine.Library.Text

/-!
# The signing queue

`signing_tasks` (`internal/persistence/signing.go`): the control plane enqueues the unsigned
artifacts of an attempt, and isolated signers claim a task for a limited time, renew their claim and
report the signed artifacts or a failure.  A task is bound to its attempt by the attempt's fence and
to its signer by the claim fence.
-/

namespace PortageEngine.Signing

open Library Library.Rows Library.Text Library.Runs
open BuildCatalog (isLowerHex)
open Ledger (Time JobId AttemptId)

abbrev TaskId := Nat

/-- `Artifact`: one unsigned input and, once it is signed, its output.  Sizes are signed in the
source; a negative one is refused. -/
structure Artifact where
  relativePath : String
  inputDigest : String
  inputSize : Int
  outputDigest : String := ""
  outputSize : Int := 0
  deriving DecidableEq

def Artifact.input (a : Artifact) : String × String × Int :=
  (a.relativePath, a.inputDigest, a.inputSize)

structure Request where
  jobId : JobId
  attemptId : AttemptId
  attemptFence : Nat
  leaseOwner : String
  sourceToken : String
  architecture : String
  maxOutputBytes : Nat
  artifacts : List Artifact

/-! ## Validation -/

/-- `digestPattern` and `tokenPattern`: so many lower-case hexadecimal digits. -/
def hexPattern (digits : Nat) (s : String) : Bool :=
  s.toList.length = digits && s.toList.all isLowerHex

def validateArtifact (a : Artifact) (output : Bool) : Except String Unit := do
  let path := a.relativePath.toList
  let clean := cleanPath path
  require (path ≠ [] && !"/".toList.isPrefixOf path) "artifact relative path is required"
  require (clean ≠ ".".toList && clean ≠ "..".toList && !"../".toList.isPrefixOf clean &&
    clean = path) s!"artifact path {a.relativePath.quote} is not canonical and relative"
  require (".gpkg.tar".toList.isSuffixOf clean)
    "isolated signer accepts only .gpkg.tar artifacts"
  require (hexPattern 64 a.inputDigest && 0 ≤ a.inputSize)
    s!"artifact {a.relativePath.quote} has an invalid input digest or size"
  require (!output || (hexPattern 64 a.outputDigest && 0 ≤ a.outputSize))
    s!"artifact {a.relativePath.quote} has an invalid output digest or size"

def validateRequest (req : Request) : Except String Unit := do
  require (0 < req.attemptFence && req.leaseOwner ≠ "")
    "signing request requires job, attempt, fence, and lease owner"
  require (hexPattern 32 req.sourceToken) "signing request source token is invalid"
  require (req.architecture ≠ "" && 0 < req.maxOutputBytes && req.artifacts ≠ [] &&
    req.artifacts.length ≤ 256) "signing request requires architecture and 1..256 artifacts"
  forDistinct Artifact.relativePath (validateArtifact · false)
    (fun a => s!"duplicate signing artifact {a.relativePath.quote}") [] req.artifacts

/-! ## Rows -/

inductive TaskState
  | queued
  | claimed
  | completed
  | failed
  | canceled
  deriving DecidableEq

/-- The columns of `signing_tasks` that the insert sets. -/
structure TaskRequest where
  job : JobId
  attempt : AttemptId
  attemptFence : Nat
  sourceToken : String
  architecture : String
  maxOutputBytes : Nat
  inputManifest : List Artifact

/-- `signing_tasks`. -/
structure SigningTask extends TaskRequest where
  id : TaskId
  state : TaskState
  outputManifest : Option (List Artifact)
  signingKeyId : String
  owner : String
  claimFence : Nat
  leaseExpiresAt : Option Time
  claimAttempts : Nat
  errorDetail : String

/-- The artifacts that a reader of the row gets: the outputs once the task is completed. -/
def SigningTask.artifacts (t : SigningTask) : List Artifact :=
  if t.state = .completed then t.outputManifest.getD [] else t.inputManifest

/-- `Task`: what the queue hands to a signer. -/
structure Task where
  id : TaskId
  job : JobId
  attempt : AttemptId
  attemptFence : Nat
  state : TaskState
  sourceToken : String
  architecture : String
  maxOutputBytes : Nat
  artifacts : List Artifact
  signingKeyId : String
  owner : String
  claimFence : Nat
  leaseExpiresAt : Option Time
  error : String
  deriving DecidableEq

def SigningTask.handOut (t : SigningTask) : Task where
  id := t.id
  job := t.job
  attempt := t.attempt
  attemptFence := t.attemptFence
  state := t.state
  sourceToken := t.sourceToken
  architecture := t.architecture
  maxOutputBytes := t.maxOutputBytes
  artifacts := t.artifacts
  signingKeyId := t.signingKeyId
  owner := t.owner
  claimFence := t.claimFence
  leaseExpiresAt := t.leaseExpiresAt
  error := t.errorDetail

inductive ArtifactState
  | verifiedUnsigned
  | other (text : String)
  deriving DecidableEq

/-- `artifacts`, as far as the queue reads it. -/
structure ArtifactRow where
  job : JobId
  attempt : AttemptId
  state : ArtifactState
  digestAlgorithm : String
  digest : String
  sizeBytes : Int
  location : String

/-! ## Comparing manifests -/

/-- The loop of `sameSigningInputs` and `sameSigningOutputs`: each artifact is looked up among the
expected ones, compared and taken out. -/
def takeExpected : List Artifact → List Artifact → Bool
  | expected, [] => expected.isEmpty
  | expected, a :: rest =>
    match Overlay.lookup Artifact.relativePath expected a.relativePath with
    | none => false
    | some found => found.inputDigest = a.inputDigest && found.inputSize = a.inputSize &&
        takeExpected (delete (fun e => e.relativePath = a.relativePath) expected) rest

/-- `sameSigningInputs`, and with the same text `sameSigningOutputs`. -/
def sameSigningInputs (left right : List Artifact) : Bool :=
  left.length = right.length &&
    takeExpected (Overlay.overlay Artifact.relativePath [] left) right

def sameSigningOutputs (inputs outputs : List Artifact) : Bool :=
  sameSigningInputs inputs outputs

/-! ## The calls -/

/-- The attempt is being verified or signed under a live claim of this worker. -/
def attemptActive (l : Ledger) (req : Request) (now : Time) : Bool :=
  (l.attempts.any fun a => a.id = req.attemptId && a.job = req.jobId &&
    a.fence = req.attemptFence) &&
  (l.leases.any fun x => x.attempt = req.attemptId && x.fence = req.attemptFence &&
    x.owner = req.leaseOwner && now < x.expiresAt) &&
  l.jobs.any fun j => j.id = req.jobId && (j.state = .verifying || j.state = .signing)

/-- The artifact is recorded as verified and unsigned for the attempt. -/
def artifactVerified (rows : List ArtifactRow) (req : Request) (a : Artifact) : Bool :=
  rows.any fun r => r.job = req.jobId && r.attempt = req.attemptId &&
    r.state = .verifiedUnsigned && r.digestAlgorithm = "sha256" && r.digest = a.inputDigest &&
    r.sizeBytes = a.inputSize &&
    r.location = "quarantine:" ++ req.sourceToken ++ "/" ++ a.relativePath

def queuedTask (req : Request) (id : TaskId) : SigningTask where
  job := req.jobId
  attempt := req.attemptId
  attemptFence := req.attemptFence
  sourceToken := req.sourceToken
  architecture := req.architecture
  maxOutputBytes := req.maxOutputBytes
  inputManifest := req.artifacts
  id := id
  state := .queued
  outputManifest := none
  signingKeyId := ""
  owner := ""
  claimFence := 0
  leaseExpiresAt := none
  claimAttempts := 0
  errorDetail := ""

/-- The row is compared with the request, whether it was there before or not. -/
def matchesRequest (t : SigningTask) (req : Request) : Except String Unit := do
  require (t.sourceToken = req.sourceToken && t.architecture = req.architecture &&
    t.maxOutputBytes = req.maxOutputBytes)
    "existing signing task does not match this immutable request"
  require (sameSigningInputs t.artifacts req.artifacts)
    "existing signing task input manifest does not match this immutable request"

def enqueueSigning (l : Ledger) (rows : List ArtifactRow) (tasks : List SigningTask)
    (req : Request) (fresh : TaskId) (now : Time) : Except String (List SigningTask × Task) := do
  validateRequest req
  require (attemptActive l req now) "signing request attempt fence is stale or inactive"
  req.artifacts.forM fun a => require (artifactVerified rows req a)
    s!"unsigned artifact {a.relativePath.quote} is not verified for this attempt"
  match tasks.find? fun t => t.job = req.jobId && t.attempt = req.attemptId with
  | some t =>
    matchesRequest t req
    return (tasks, t.handOut)
  | none =>
    require (!(tasks.any fun t => t.id = fresh)) "enqueue signing task"
    matchesRequest (queuedTask req fresh) req
    return (queuedTask req fresh :: tasks, (queuedTask req fresh).handOut)

/-- The originating attempt still holds its lease under the fence of the task. -/
def attemptLive (l : Ledger) (now : Time) (t : SigningTask) : Bool :=
  l.leases.any fun x => x.attempt = t.attempt && x.fence = t.attemptFence && now < x.expiresAt

/-- The same, with the fence of the attempt's own row. -/
def attemptCurrent (l : Ledger) (now : Time) (t : SigningTask) : Bool :=
  attemptLive l now t && l.attempts.any fun a => a.id = t.attempt && a.fence = t.attemptFence

def SigningTask.unfinished (t : SigningTask) : Bool :=
  t.state = .queued || t.state = .claimed

def cancelStale (t : SigningTask) : SigningTask :=
  { t with
    state := .canceled, owner := "", leaseExpiresAt := none
    errorDetail := "originating build attempt is no longer active" }

/-- What a call of `ClaimSigning` takes; the order of the queue and the rows that other signers have
locked decide which eligible task it gets, so the task is an argument. -/
structure ClaimCall where
  owner : String
  lease : Time
  candidate : TaskId
  now : Time

def claimable (l : Ledger) (now : Time) (t : SigningTask) : Bool :=
  t.unfinished && (t.state = .queued || (t.leaseExpiresAt.any fun e => e ≤ now)) &&
    attemptCurrent l now t

def claimTask (call : ClaimCall) (t : SigningTask) : SigningTask :=
  { t with
    state := .claimed, owner := call.owner, claimFence := t.claimFence + 1
    leaseExpiresAt := some (call.now + call.lease), claimAttempts := t.claimAttempts + 1
    errorDetail := "" }

/-- `ClaimSigning`: tasks of attempts that are gone are canceled first. -/
def claimSigning (l : Ledger) (tasks : List SigningTask) (call : ClaimCall) :
    Except String (List SigningTask × Option Task) := do
  require (call.owner ≠ "" && 0 < call.lease) "signer owner and positive lease are required"
  let swept := update (fun t => t.unfinished && !attemptCurrent l call.now t) cancelStale tasks
  match swept.find? fun t => t.id = call.candidate && claimable l call.now t with
  | none => return (swept, none)
  | some t => return (update (fun k => k.id = t.id) (claimTask call) swept,
      some (claimTask call t).handOut)

/-- The row that a signer's report may be written to. -/
def holdsTask (task : Task) (now : Time) (t : SigningTask) : Bool :=
  t.id = task.id && t.owner = task.owner && t.claimFence = task.claimFence &&
    t.state = .claimed && t.leaseExpiresAt.any fun e => now < e

def renewSigning (l : Ledger) (tasks : List SigningTask) (task : Task) (lease now : Time) :
    Except String (List SigningTask) := do
  require (task.owner ≠ "" && 0 < task.claimFence && 0 < lease)
    "renew signing requires task, owner, fence, and positive lease"
  require (tasks.any fun t => holdsTask task now t && attemptLive l now t)
    "signing task lease or originating attempt fence is stale"
  return update (fun t => holdsTask task now t && attemptLive l now t)
    (fun t => { t with leaseExpiresAt := some (now + lease) }) tasks

def completeTask (keyId : String) (outputs : List Artifact) (t : SigningTask) : SigningTask :=
  { t with
    state := .completed, outputManifest := some outputs, signingKeyId := keyId, owner := ""
    leaseExpiresAt := none, errorDetail := "" }

/-- The condition of the update in `CompleteSigning`. -/
def mayComplete (l : Ledger) (task : Task) (now : Time) (t : SigningTask) : Bool :=
  holdsTask task now t && t.attemptFence = task.attemptFence && attemptLive l now t

def completeSigning (l : Ledger) (tasks : List SigningTask) (task : Task) (keyId : String)
    (outputs : List Artifact) (now : Time) : Except String (List SigningTask) := do
  require (task.owner ≠ "" && 0 < task.claimFence && keyId ≠ "")
    "complete signing requires task, owner, fence, and key ID"
  require (outputs.length = task.artifacts.length) "signed output count does not match input"
  outputs.forM (validateArtifact · true)
  require (sameSigningOutputs task.artifacts outputs)
    "signed outputs do not preserve the input artifact set"
  require (tasks.any (mayComplete l task now))
    "signing task lease or originating attempt fence is stale"
  return update (mayComplete l task now) (completeTask keyId outputs) tasks

/-- `FailSigning`, with the detail as it is sent. -/
def failSigning (tasks : List SigningTask) (task : Task) (detail : String) (now : Time) :
    Except String (List SigningTask) := do
  require (task.owner ≠ "" && 0 < task.claimFence) "fail signing requires task, owner, and fence"
  require (tasks.any (holdsTask task now)) "signing task lease is stale"
  return update (holdsTask task now)
    (fun t => { t with
      state := .failed, errorDetail := detail, owner := "", leaseExpiresAt := none }) tasks

/-! ## The system -/

/-- The ledger, the queue and the tasks that have been handed to signers. -/
structure SigningSystem where
  ledger : Ledger.System
  tasks : List SigningTask
  handed : List Task

def SigningSystem.init (policies : List Ledger.Policy) : SigningSystem where
  ledger := Ledger.System.init policies
  tasks := []
  handed := []

inductive SigningOp
  | ledger (op : Ledger.Op)
  | enqueue (rows : List ArtifactRow) (req : Request) (fresh : TaskId) (now : Time)
  | claim (call : ClaimCall)
  | renew (task : Task) (lease now : Time)
  | complete (task : Task) (keyId : String) (outputs : List Artifact) (now : Time)
  | fail (task : Task) (detail : String) (now : Time)

def SigningOp.presents : SigningOp → Option Task
  | .renew task _ _ | .complete task _ _ _ | .fail task _ _ => some task
  | _ => none

/-- The queue after an operation, and the task it hands out. -/
def SigningOp.run (s : SigningSystem) : SigningOp → Except String (List SigningTask × Option Task)
  | .ledger _ => .ok (s.tasks, none)
  | .enqueue rows req fresh now =>
    (fun r => (r.1, none)) <$> enqueueSigning s.ledger.ledger rows s.tasks req fresh now
  | .claim call => claimSigning s.ledger.ledger s.tasks call
  | .renew task lease now => (·, none) <$> renewSigning s.ledger.ledger s.tasks task lease now
  | .complete task keyId outputs now =>
    (·, none) <$> completeSigning s.ledger.ledger s.tasks task keyId outputs now
  | .fail task detail now => (·, none) <$> failSigning s.tasks task detail now

def SigningOp.runLedger (s : Ledger.System) : SigningOp → Ledger.System
  | .ledger op => Ledger.step s op
  | _ => s

/-- One step.  A signer presents only a task that it was handed. -/
def stepSigning (s : SigningSystem) (op : SigningOp) : SigningSystem :=
  if (op.presents.all fun task => s.handed.contains task) then
    match op.run s with
    | .ok (tasks, task) =>
      { ledger := op.runLedger s.ledger, tasks := tasks, handed := task.toList ++ s.handed }
    | .error _ => { s with ledger := op.runLedger s.ledger }
  else s

end PortageEngine.Signing
