import PortageEngine.Ledger.System

/-!
# The worker gateway: tables and identities

The tables behind the gateway that build workers call over mutual TLS
(`internal/migrations/sql/00015_worker_gateway_spool.sql`, `00021_workload_issuer_lifecycle.sql`):
sessions bind a worker to one attempt, certificates bind a leaf to a session and to a generation of
its issuer, commands are sent to a worker and uploads are received from it.
-/

namespace PortageEngine.Gateway

open Library Library.Decimal
open BuildCatalog (isLowerHex)
open Ledger (Time JobId AttemptId)

/-! ## Identities and certificates -/

structure Identity where
  workerId : String
  jobId : JobId
  attemptId : AttemptId
  fenceToken : Nat

def Identity.validate (i : Identity) : Except String Unit := do
  require (trimSpace i.workerId ≠ "" && 0 < i.fenceToken)
    "worker identity requires worker_id, job_id, attempt_id, and a positive fence_token"
  require (!(i.workerId.toList.any fun c => "/?#".toList.contains c))
    "worker identity components must not contain URL delimiters"

structure CertificateRecord where
  fingerprint : String
  serial : String
  notBefore : Time
  notAfter : Time
  issuerId : String
  issuerProvider : String
  issuerFingerprint : String
  issuerSubject : String
  issuerSerial : String
  issuerNotBefore : Time
  issuerNotAfter : Time

/-- A SHA-256 digest in lower-case hexadecimal digits. -/
def isFingerprint (s : String) : Bool :=
  s.toList.length = 64 && s.toList.all isLowerHex

def isSerial (s : String) : Bool :=
  s ≠ "" && s.toList.length ≤ 256 && s.toList.all isLowerHex

def CertificateRecord.validate (r : CertificateRecord) : Except String Unit := do
  require (isFingerprint r.fingerprint) "certificate fingerprint must be a lowercase SHA-256 digest"
  require (isFingerprint r.issuerFingerprint) "issuer fingerprint must be a lowercase SHA-256 digest"
  require (isSerial r.serial) "certificate serial must be lowercase hexadecimal"
  require (isSerial r.issuerSerial) "issuer serial must be lowercase hexadecimal"
  require (trimSpace r.issuerId ≠ "" && trimSpace r.issuerProvider ≠ "" && 0 < r.notBefore &&
    r.notBefore < r.notAfter && 0 < r.issuerNotBefore && r.issuerNotBefore < r.issuerNotAfter &&
    r.notAfter ≤ r.issuerNotAfter) "certificate record is incomplete"

/-! ## Rows -/

inductive SessionState
  | active
  | revoked
  deriving DecidableEq

/-- `worker_gateway_sessions`. -/
structure Session where
  workerId : String
  job : JobId
  attempt : AttemptId
  fence : Nat
  state : SessionState
  certificateFingerprint : Option String

inductive GenerationState
  | active
  | draining
  | revoked
  deriving DecidableEq

/-- `workload_issuer_generations`. -/
structure IssuerGeneration where
  fingerprint : String
  issuerId : String
  provider : String
  subject : String
  serial : String
  notBefore : Time
  notAfter : Time
  state : GenerationState
  deriving DecidableEq

/-- `workload_certificates`. -/
structure Certificate where
  fingerprint : String
  serial : String
  issuerFingerprint : String
  workerId : String
  job : JobId
  attempt : AttemptId
  fence : Nat
  notBefore : Time
  notAfter : Time
  state : SessionState
  deriving DecidableEq

abbrev CommandId := Nat

inductive Action
  | build
  | verify
  | collect
  | other (text : String)
  deriving DecidableEq

inductive CommandState
  | queued
  | delivered
  | completed
  | failed
  | canceled
  deriving DecidableEq

def CommandState.terminal : CommandState → Bool
  | .completed | .failed | .canceled => true
  | _ => false

/-- A value of type `jsonb`: what it is compared by, and the text it is printed as, in which numbers
keep the trailing zeros of their fractions. -/
structure Jsonb where
  value : String
  text : String

/-- `worker_gateway_commands`. -/
structure Command where
  id : CommandId
  workerId : String
  job : JobId
  attempt : AttemptId
  action : Action
  request : Jsonb
  state : CommandState
  deliveryFence : Nat
  leaseExpiresAt : Option Time
  response : Option Jsonb
  error : String

abbrev UploadId := Nat

inductive UploadState
  | ready
  | uploading
  | completed
  | canceled
  deriving DecidableEq

/-- `worker_gateway_uploads`. -/
structure Upload where
  id : UploadId
  workerId : String
  job : JobId
  attempt : AttemptId
  destination : String
  maxBytes : Nat
  state : UploadState
  fence : Nat
  leaseExpiresAt : Option Time
  digest : String
  size : Option Nat

structure Tables where
  sessions : List Session
  generations : List IssuerGeneration
  certificates : List Certificate
  commands : List Command
  uploads : List Upload

def Tables.empty : Tables where
  sessions := []
  generations := []
  certificates := []
  commands := []
  uploads := []

/-! ## Who a session belongs to -/

def Session.owned (s : Session) (i : Identity) : Bool :=
  s.workerId = i.workerId && s.job = i.jobId && s.attempt = i.attemptId && s.fence = i.fenceToken

/-- The attempt holds a live lease under the fence. -/
def leaseLive (l : Ledger) (attempt : AttemptId) (fence : Nat) (now : Time) : Bool :=
  l.leases.any fun x => x.attempt = attempt && x.fence = fence && now < x.expiresAt

def jobOpen (l : Ledger) (job : JobId) : Bool :=
  l.jobs.any fun j => j.id = job && !Ledger.isLedgerTerminal j.state

/-- The identity names a live attempt of an open job. -/
def attemptLive (l : Ledger) (i : Identity) (now : Time) : Bool :=
  (l.attempts.any fun a => a.id = i.attemptId && a.job = i.jobId && a.fence = i.fenceToken) &&
    jobOpen l i.jobId && leaseLive l i.attemptId i.fenceToken now

end PortageEngine.Gateway
