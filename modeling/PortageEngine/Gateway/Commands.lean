import PortageEngine.Gateway.Sessions

/-!
# Worker commands and uploads

A command is enqueued for the session of a worker, delivered for a limited time under a delivery
fence and answered under that fence; an upload is prepared, claimed for a limited time under an upload
fence and completed under that fence.  `System` puts all calls of the gateway's store together.
-/

namespace PortageEngine.Gateway

open Library Library.Rows Library.Decimal
open Ledger

/-! ## Commands -/

/-- `Task`: a command as it is enqueued or delivered. -/
structure Task where
  id : CommandId
  action : Action
  deliveryFence : Nat := 0
  payload : String

/-- `Completion`; an empty payload is `none`. -/
structure Completion where
  taskId : CommandId
  deliveryFence : Nat
  payload : Option String
  error : String

/-- What PostgreSQL keeps of a JSON text; `none` if it is not valid. -/
abbrev JsonReader := String → Option Jsonb

def newCommand (s : Session) (task : Task) (request : Jsonb) : Command where
  id := task.id
  workerId := s.workerId
  job := s.job
  attempt := s.attempt
  action := task.action
  request := request
  state := .queued
  deliveryFence := 0
  leaseExpiresAt := none
  response := none
  error := ""

/-- The command is the same immutable request. -/
def Command.repeats (c : Command) (s : Session) (task : Task) (request : Jsonb) : Bool :=
  c.workerId = s.workerId && c.job = s.job && c.attempt = s.attempt && c.action = task.action &&
    c.request.value = request.value

def commandConflict : String :=
  "durable worker session is stale or command id conflicts with another immutable request"

def enqueueWorkerCommand (jsonb : JsonReader) (l : Ledger) (t : Tables) (i : Identity) (task : Task)
    (now : Time) : Except String Tables := do
  require (task.action = .build || task.action = .verify || task.action = .collect)
    "unsupported worker action"
  match jsonb task.payload with
  | none => .error "worker command request is not valid JSON"
  | some request =>
    match t.sessions.find? fun s => s.owned i && s.state = .active &&
        leaseLive l s.attempt s.fence now with
    | none => .error commandConflict
    | some s =>
      match t.commands.find? fun c => c.id = task.id with
      | none => .ok { t with commands := newCommand s task request :: t.commands }
      | some c => do
        require (c.repeats s task request) commandConflict
        return t

/-- `touchWorkerSessionTx`. -/
def touchWorkerSession (l : Ledger) (t : Tables) (i : Identity) (now : Time) : Except String Unit :=
  require (t.sessions.any fun s => s.owned i && s.state = .active &&
    leaseLive l s.attempt s.fence now) "durable worker session is stale or revoked"

/-- A delivery that was not answered in time. -/
def Command.expired (c : Command) (i : Identity) (now : Time) : Bool :=
  c.workerId = i.workerId && c.attempt = i.attemptId && c.state = .delivered &&
    c.leaseExpiresAt.any fun e => e ≤ now

def Command.requeue (c : Command) : Command :=
  { c with state := .queued, leaseExpiresAt := none }

def Command.deliver (expires : Time) (c : Command) : Command :=
  { c with
    state := .delivered, deliveryFence := c.deliveryFence + 1, leaseExpiresAt := some expires }

/-- `ClaimWorkerCommand`.  The order of the queue and the rows that others have locked decide which
queued command is delivered, so it is an argument. -/
def claimWorkerCommand (l : Ledger) (t : Tables) (i : Identity) (lease : Time)
    (candidate : CommandId) (now : Time) : Except String (Tables × Option Task) := do
  require (0 < lease) "worker command lease must be positive"
  touchWorkerSession l t i now
  let commands := update (fun c => c.expired i now) Command.requeue t.commands
  match commands.find? fun c => c.id = candidate && c.workerId = i.workerId &&
      c.attempt = i.attemptId && c.state = .queued with
  | none => return ({ t with commands := commands }, none)
  | some c => return (
      { t with
        commands := update (fun k => k.id = c.id) (Command.deliver (now + lease)) commands },
      some { id := c.id, action := c.action, deliveryFence := c.deliveryFence + 1
             payload := c.request.text })

def Completion.state (k : Completion) : CommandState :=
  if k.error = "" then .completed else .failed

/-- The command that a completion may be written to: its delivery is the current one, or the same
result has been recorded for it. -/
def acceptsCompletion (l : Ledger) (t : Tables) (i : Identity) (k : Completion)
    (response : Option Jsonb) (now : Time) (c : Command) : Bool :=
  c.id = k.taskId && c.workerId = i.workerId && c.job = i.jobId && c.attempt = i.attemptId &&
    c.deliveryFence = k.deliveryFence &&
    (c.state = .delivered ||
      (c.state = k.state && c.error = k.error &&
        c.response.map Jsonb.value = response.map Jsonb.value)) &&
    (t.sessions.any fun s => s.workerId = c.workerId && s.fence = i.fenceToken &&
      s.state = .active && leaseLive l c.attempt s.fence now) && jobOpen l c.job

def Command.finish (k : Completion) (response : Option Jsonb) (c : Command) : Command :=
  { c with state := k.state, response := response, error := k.error, leaseExpiresAt := none }

/-- The response of a completion, as it is stored. -/
def Completion.response (jsonb : JsonReader) (k : Completion) : Except String (Option Jsonb) :=
  match k.payload with
  | none => .ok none
  | some payload =>
    match jsonb payload with
    | none => .error "worker completion payload is not valid JSON"
    | some response => .ok (some response)

def completeWorkerCommand (jsonb : JsonReader) (l : Ledger) (t : Tables) (i : Identity) (k : Completion)
    (now : Time) : Except String Tables := do
  require (0 < k.deliveryFence) "worker completion requires a positive delivery fence"
  require (k.error.utf8ByteSize ≤ 65536) "worker completion error exceeds 65536 bytes"
  let response ← k.response jsonb
  require (t.commands.any (acceptsCompletion l t i k response now)) "stale worker fence"
  return { t with
    commands := update (acceptsCompletion l t i k response now) (Command.finish k response)
      t.commands }

inductive ResultError
  | unknown
  | pending

/-- A `Completion` as it is read; its payload is the text of the response. -/
structure CommandResult where
  taskId : CommandId
  deliveryFence : Nat
  response : Option Jsonb
  error : String

def Command.result (c : Command) : CommandResult where
  taskId := c.id
  deliveryFence := c.deliveryFence
  response := c.response
  error := c.error

def workerCommandResult (t : Tables) (i : Identity) (taskId : CommandId) :
    Except ResultError CommandResult :=
  match t.commands.find? fun c => c.id = taskId && c.workerId = i.workerId && c.job = i.jobId &&
      c.attempt = i.attemptId &&
      t.sessions.any fun s => s.workerId = c.workerId && s.fence = i.fenceToken with
  | none => .error .unknown
  | some c => if c.state.terminal then .ok c.result else .error .pending

/-! ## Uploads -/

def newUpload (s : Session) (id : UploadId) (destination : String) (maxBytes : Nat) : Upload where
  id := id
  workerId := s.workerId
  job := s.job
  attempt := s.attempt
  destination := destination
  maxBytes := maxBytes
  state := .ready
  fence := 0
  leaseExpiresAt := none
  digest := ""
  size := none

/-- `PrepareWorkerUpload`; `normalized` is `checkGatewayDestination`. -/
def prepareWorkerUpload (normalized : String → Bool) (t : Tables) (i : Identity) (id : UploadId)
    (destination : String) (maxBytes : Nat) : Except String Tables := do
  require (normalized destination) "durable worker upload destination must be normalized"
  require (0 < maxBytes) "invalid durable worker upload capability"
  match t.sessions.find? fun s => s.owned i && s.state = .active with
  | none => .error "durable worker session is stale"
  | some s =>
    match t.uploads.find? fun u => u.id = id with
    | none => return { t with uploads := newUpload s id destination maxBytes :: t.uploads }
    | some u => do
      require (u.workerId = s.workerId && u.job = s.job && u.attempt = s.attempt &&
        u.destination = destination && u.maxBytes = maxBytes) "durable worker session is stale"
      return t

structure UploadClaim where
  id : UploadId
  destination : String
  maxBytes : Nat
  fence : Nat
  completed : Bool
  digest : String
  size : Nat

def Upload.claim (u : Upload) (fence : Nat) : UploadClaim where
  id := u.id
  destination := u.destination
  maxBytes := u.maxBytes
  fence := fence
  completed := u.state = .completed
  digest := u.digest
  size := u.size.getD 0

def Upload.receive (expires : Time) (u : Upload) : Upload :=
  { u with state := .uploading, fence := u.fence + 1, leaseExpiresAt := some expires }

/-- `ClaimWorkerUpload`: a completed upload is handed out as it is; otherwise the fence advances. -/
def claimWorkerUpload (l : Ledger) (t : Tables) (i : Identity) (id : UploadId) (lease now : Time) :
    Except String (Tables × UploadClaim) := do
  require (0 < lease) "worker upload lease must be positive"
  touchWorkerSession l t i now
  match t.uploads.find? fun u => u.id = id && u.workerId = i.workerId && u.job = i.jobId &&
      u.attempt = i.attemptId with
  | none => .error "durable worker upload is unknown"
  | some u =>
    if u.state = .completed then return (t, u.claim u.fence)
    else do
      require (u.state ≠ .canceled &&
        !(u.state = .uploading && u.leaseExpiresAt.any fun e => now < e)) "stale worker fence"
      return ({ t with
        uploads := update (fun k => k.id = u.id) (Upload.receive (now + lease)) t.uploads },
        { u.claim (u.fence + 1) with completed := false })

/-- The upload that a result may be written to. -/
def acceptsUpload (l : Ledger) (t : Tables) (i : Identity) (id : UploadId) (fence : Nat) (now : Time)
    (u : Upload) : Bool :=
  u.id = id && u.workerId = i.workerId && u.job = i.jobId && u.attempt = i.attemptId &&
    u.state = .uploading && u.fence = fence &&
    (t.sessions.any fun s => s.workerId = u.workerId && s.fence = i.fenceToken &&
      s.state = .active && leaseLive l u.attempt s.fence now) && jobOpen l u.job

def Upload.finish (digest : String) (size : Nat) (u : Upload) : Upload :=
  { u with state := .completed, digest := digest, size := some size, leaseExpiresAt := none }

/-- `CompleteWorkerUpload`; the digest has to be one for the check of the table as well. -/
def completeWorkerUpload (l : Ledger) (t : Tables) (i : Identity) (id : UploadId) (fence : Nat)
    (digest : String) (size : Nat) (now : Time) : Except String Tables := do
  let digest := lowerCase (trimSpace digest)
  require (isFingerprint digest) "invalid worker upload result"
  require (t.uploads.any (acceptsUpload l t i id fence now)) "stale worker fence"
  return { t with
    uploads := update (acceptsUpload l t i id fence now) (Upload.finish digest size) t.uploads }

def cancelWorkerUpload (t : Tables) (i : Identity) (id : UploadId) (fence : Nat) :
    Except String Tables := do
  let held : Upload → Bool := fun u => u.id = id && u.workerId = i.workerId && u.job = i.jobId &&
    u.attempt = i.attemptId && u.state = .uploading && u.fence = fence &&
    t.sessions.any fun s => s.workerId = u.workerId && s.fence = i.fenceToken
  require (t.uploads.any held) "stale worker fence"
  return { t with uploads := update held Upload.cancel t.uploads }

/-! ## All calls -/

/-- The calls of the gateway's store.  Those that read the ledger come with the ledger as they find
it. -/
inductive GatewayOp
  | registerSession (l : Ledger) (i : Identity) (now : Time)
  | registerCertificate (i : Identity) (r : CertificateRecord)
  | revokeSession (i : Identity) (reason : String)
  | revokeAttempt (attempt : AttemptId) (reason : String)
  | revokeCertificate (fingerprint reason : String)
  | revokeIssuer (fingerprint reason : String)
  | enqueueCommand (l : Ledger) (i : Identity) (task : Task) (now : Time)
  | claimCommand (l : Ledger) (i : Identity) (lease : Time) (candidate : CommandId) (now : Time)
  | completeCommand (l : Ledger) (i : Identity) (k : Completion) (now : Time)
  | prepareUpload (i : Identity) (id : UploadId) (destination : String) (maxBytes : Nat)
  | claimUpload (l : Ledger) (i : Identity) (id : UploadId) (lease now : Time)
  | completeUpload (l : Ledger) (i : Identity) (id : UploadId) (fence : Nat) (digest : String)
      (size : Nat) (now : Time)
  | cancelUpload (i : Identity) (id : UploadId) (fence : Nat)

/-- What the calls use of PostgreSQL and of the file system's paths. -/
structure Externals where
  jsonb : JsonReader
  normalized : String → Bool

def GatewayOp.run (ext : Externals) (t : Tables) : GatewayOp → Except String Tables
  | .registerSession l i now => registerWorkerSession l t i now
  | .registerCertificate i r => registerWorkerCertificate t i r
  | .revokeSession i reason => .ok (revokeWorkerSession t i reason)
  | .revokeAttempt attempt reason => .ok (revokeWorkerGatewayAttempt t attempt reason)
  | .revokeCertificate fingerprint reason => revokeWorkloadCertificate t fingerprint reason
  | .revokeIssuer fingerprint reason => revokeWorkloadIssuer t fingerprint reason
  | .enqueueCommand l i task now => enqueueWorkerCommand ext.jsonb l t i task now
  | .claimCommand l i lease candidate now => Prod.fst <$> claimWorkerCommand l t i lease candidate now
  | .completeCommand l i k now => completeWorkerCommand ext.jsonb l t i k now
  | .prepareUpload i id destination maxBytes =>
    prepareWorkerUpload ext.normalized t i id destination maxBytes
  | .claimUpload l i id lease now => Prod.fst <$> claimWorkerUpload l t i id lease now
  | .completeUpload l i id fence digest size now =>
    completeWorkerUpload l t i id fence digest size now
  | .cancelUpload i id fence => cancelWorkerUpload t i id fence

def stepGateway (ext : Externals) (t : Tables) (op : GatewayOp) : Tables :=
  match op.run ext t with
  | .ok t' => t'
  | .error _ => t

/-! ## The worker of the examples -/

def exampleIdentity : Identity where
  workerId := "worker-1"
  jobId := 1
  attemptId := 7
  fenceToken := 1

/-- The payloads are numbers; zeros at the end of a fraction do not count. -/
def exampleExternals : Externals where
  jsonb text := some {
    value := if '.' ∈ text.toList then String.ofList (text.toList.rdropWhile (· = '0')) else text
    text := text }
  normalized _ := true

end PortageEngine.Gateway
