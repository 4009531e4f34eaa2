import PortageEngine.Gateway.Schema

/-!
# Worker sessions and workload certificates

The calls of `internal/persistence/worker_gateway.go` that register a session and its certificate,
authorize a presented certificate and revoke.  Each is one statement or one transaction; the ledger
is an argument of those that read it, as they find it.
-/

namespace PortageEngine.Gateway

open Library Library.Rows Library.Decimal
open Ledger

/-! ## Registration -/

def newSession (i : Identity) : Session where
  workerId := i.workerId
  job := i.jobId
  attempt := i.attemptId
  fence := i.fenceToken
  state := .active
  certificateFingerprint := none

/-- `RegisterWorkerSession`: a session of the same identity becomes active again; `attempt_id` is
unique. -/
def registerWorkerSession (l : Ledger) (t : Tables) (i : Identity) (now : Time) :
    Except String Tables := do
  i.validate
  require (attemptLive l i now)
    "worker session identity is stale or conflicts with an existing session"
  match t.sessions.find? fun s => s.workerId = i.workerId with
  | some s => do
    require (s.owned i) "worker session identity is stale or conflicts with an existing session"
    return { t with
      sessions := update (fun s => s.workerId = i.workerId) ({ · with state := .active }) t.sessions }
  | none => do
    require (!(t.sessions.any fun s => s.attempt = i.attemptId)) "register durable worker session"
    return { t with sessions := newSession i :: t.sessions }

def newGeneration (r : CertificateRecord) : IssuerGeneration where
  fingerprint := r.issuerFingerprint
  issuerId := r.issuerId
  provider := r.issuerProvider
  subject := r.issuerSubject
  serial := r.issuerSerial
  notBefore := r.issuerNotBefore
  notAfter := r.issuerNotAfter
  state := .active

/-- The first statement of `RegisterWorkerCertificate`: other active generations of the issuer start
draining. -/
def drainOthers (r : CertificateRecord) (generations : List IssuerGeneration) :
    List IssuerGeneration :=
  update (fun g => g.issuerId = r.issuerId && g.fingerprint ≠ r.issuerFingerprint &&
    g.state = .active) ({ · with state := .draining }) generations

/-- The second one: the generation of the record is inserted, or has to be active with the same
metadata. -/
def registerGeneration (generations : List IssuerGeneration) (r : CertificateRecord) :
    Except String (List IssuerGeneration) :=
  match (drainOthers r generations).find? fun g => g.fingerprint = r.issuerFingerprint with
  | some g => do
    require (g = newGeneration r) ("workload issuer generation is draining, revoked, or " ++
      "conflicts with immutable metadata")
    return drainOthers r generations
  | none => do
    -- the checks of the table
    require (r.issuerId.length ≤ 128 && r.issuerProvider.length ≤ 64 &&
      r.issuerSubject.length ≤ 4096) "register workload issuer generation"
    return newGeneration r :: drainOthers r generations

def newCertificate (i : Identity) (r : CertificateRecord) : Certificate where
  fingerprint := r.fingerprint
  serial := r.serial
  issuerFingerprint := r.issuerFingerprint
  workerId := i.workerId
  job := i.jobId
  attempt := i.attemptId
  fence := i.fenceToken
  notBefore := r.notBefore
  notAfter := r.notAfter
  state := .active

/-- The third statement: the certificate is inserted, or has to be active with the same metadata.  A
worker has one certificate, and a serial number occurs once for a generation. -/
def insertCertificate (certificates : List Certificate) (i : Identity) (r : CertificateRecord) :
    Except String (List Certificate) :=
  match certificates.find? fun c => c.fingerprint = r.fingerprint with
  | some c => do
    require (c = newCertificate i r)
      "workload certificate conflicts with its session or immutable metadata"
    return certificates
  | none => do
    require (!(certificates.any fun c => c.workerId = i.workerId) &&
      !(certificates.any fun c => c.issuerFingerprint = r.issuerFingerprint && c.serial = r.serial))
      "register workload certificate"
    return newCertificate i r :: certificates

def registerWorkerCertificate (t : Tables) (i : Identity) (r : CertificateRecord) :
    Except String Tables := do
  i.validate
  r.validate
  let generations ← registerGeneration t.generations r
  require (t.sessions.any fun s => s.owned i && s.state = .active)
    "workload certificate conflicts with its session or immutable metadata"
  let certificates ← insertCertificate t.certificates i r
  require (t.sessions.any fun s => s.owned i && s.state = .active &&
    (s.certificateFingerprint = none || s.certificateFingerprint = some r.fingerprint))
    "worker session already has a different certificate"
  -- a certificate is bound to one session
  require (!(t.sessions.any fun s => s.workerId ≠ i.workerId &&
    s.certificateFingerprint = some r.fingerprint)) "bind workload certificate to session"
  return { t with
    generations := generations
    certificates := certificates
    sessions := update (fun s => s.owned i && s.state = .active)
      ({ · with certificateFingerprint := some r.fingerprint }) t.sessions }

/-! ## Authorization -/

structure PresentedCertificate where
  fingerprint : String
  serial : String

def lowerCase (s : String) : String :=
  String.ofList (s.toList.map Char.toLower)

/-- The join of `AuthorizeWorkerCertificate`. -/
def certificateAccepted (t : Tables) (i : Identity) (p : PresentedCertificate) (now : Time)
    (c : Certificate) : Bool :=
  c.fingerprint = p.fingerprint && c.serial = lowerCase p.serial && c.workerId = i.workerId &&
    c.job = i.jobId && c.attempt = i.attemptId && c.fence = i.fenceToken && c.state = .active &&
    c.notBefore ≤ now && now ≤ c.notAfter &&
    (t.generations.any fun g => g.fingerprint = c.issuerFingerprint &&
      (g.state = .active || g.state = .draining) && g.notBefore ≤ now && now ≤ g.notAfter) &&
    t.sessions.any fun s => s.workerId = c.workerId &&
      s.certificateFingerprint = some c.fingerprint && s.state = .active

def authorizeWorkerCertificate (t : Tables) (i : Identity) (p : PresentedCertificate) (now : Time) :
    Except String Unit := do
  i.validate
  require (p.fingerprint.toList.length = 64 && p.fingerprint = lowerCase p.fingerprint)
    "invalid presented certificate fingerprint"
  require (isFingerprint p.fingerprint && p.serial ≠ "") "invalid presented certificate metadata"
  require (t.certificates.any (certificateAccepted t i p now))
    "certificate is unknown, expired, revoked, or not bound to this attempt"

/-! ## Revocation -/

def Certificate.revoke (c : Certificate) : Certificate :=
  { c with state := .revoked }

def Session.revoke (s : Session) : Session :=
  { s with state := .revoked }

/-- A command that will not be answered any more. -/
def Command.cancel (reason : String) (c : Command) : Command :=
  { c with
    state := .canceled, leaseExpiresAt := none
    error := if c.error = "" then reason else c.error }

def Command.pending (c : Command) : Bool :=
  c.state = .queued || c.state = .delivered

def Upload.cancel (u : Upload) : Upload :=
  { u with state := .canceled, leaseExpiresAt := none }

def Upload.pending (u : Upload) : Bool :=
  u.state = .ready || u.state = .uploading

/-- The four updates of a revocation, with the rows they are about. -/
def Tables.revoke (t : Tables) (certificate : Certificate → Bool) (session : Session → Bool)
    (command : Command → Bool) (upload : Upload → Bool) (reason : String) : Tables :=
  { t with
    certificates := update (fun c => certificate c && c.state = .active) Certificate.revoke
      t.certificates
    sessions := update (fun s => session s && s.state = .active) Session.revoke t.sessions
    commands := update (fun c => command c && c.pending) (Command.cancel reason) t.commands
    uploads := update (fun u => upload u && u.pending) Upload.cancel t.uploads }

def revokeWorkerGatewayAttempt (t : Tables) (attempt : AttemptId) (reason : String) : Tables :=
  t.revoke (fun c => c.attempt = attempt) (fun s => s.attempt = attempt)
    (fun c => c.attempt = attempt) (fun u => u.attempt = attempt) reason

/-- `RevokeWorkerSession`, with the reason as it is sent. -/
def revokeWorkerSession (t : Tables) (i : Identity) (reason : String) : Tables :=
  if t.sessions.any fun s => s.owned i && s.state = .active then
    t.revoke (fun c => c.workerId = i.workerId) (fun s => s.owned i)
      (fun c => c.workerId = i.workerId) (fun u => u.workerId = i.workerId) reason
  else t

def validRevocation (fingerprint reason : String) : Bool :=
  fingerprint.toList.length = 64 && reason ≠ "" && reason.utf8ByteSize ≤ 65536

/-- `RevokeWorkloadCertificate`: everything of the certificate's attempt is revoked. -/
def revokeWorkloadCertificate (t : Tables) (fingerprint reason : String) : Except String Tables := do
  let fingerprint := lowerCase (trimSpace fingerprint)
  let reason := trimSpace reason
  require (validRevocation fingerprint reason)
    "valid certificate fingerprint and revoke reason are required"
  require (isFingerprint fingerprint) "invalid certificate fingerprint"
  match t.certificates.find? fun c => c.fingerprint = fingerprint with
  | none => .error "workload certificate not found"
  | some c => .ok (revokeWorkerGatewayAttempt t c.attempt reason)

/-- A certificate of the generation satisfies `p`. -/
def issuedBy (t : Tables) (fingerprint : String) (p : Certificate → Bool) : Bool :=
  t.certificates.any fun c => c.issuerFingerprint = fingerprint && p c

def revokeWorkloadIssuer (t : Tables) (fingerprint reason : String) : Except String Tables := do
  let fingerprint := lowerCase (trimSpace fingerprint)
  let reason := trimSpace reason
  require (validRevocation fingerprint reason)
    "valid issuer fingerprint and revoke reason are required"
  require (isFingerprint fingerprint) "invalid issuer fingerprint"
  if t.generations.any fun g => g.fingerprint = fingerprint && g.state ≠ .revoked then
    let revoked := t.revoke (fun c => c.issuerFingerprint = fingerprint)
      (fun s => issuedBy t fingerprint fun c => s.certificateFingerprint = some c.fingerprint)
      (fun k => issuedBy t fingerprint fun c => k.workerId = c.workerId)
      (fun u => issuedBy t fingerprint fun c => u.workerId = c.workerId) reason
    return { revoked with
      generations := update (fun g => g.fingerprint = fingerprint && g.state ≠ .revoked)
        ({ · with state := .revoked }) t.generations }
  else do
    require (t.generations.any fun g => g.fingerprint = fingerprint) "workload issuer not found"
    return t

end PortageEngine.Gateway
