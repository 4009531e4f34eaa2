import PortageEngine.Gateway.Effects
import PortageEngine.Library.Crew
import PortageEngine.Library.Files
import PortageEngine.Storage.Bucket

/-!
# The upload spool

How the broker receives the uploads of one upload ID (`handleDurableUploadRequest`,
`handleDurableUpload` and `recoverCompletedUpload` of `internal/workergateway/broker.go`) when no object
sink is configured.  A request claims the upload, writes the bytes to a generation file that is named
after its fence, records digest and size in the row of the upload and renames the file to the
destination.  A request that finds the row completed moves the generation file there if that is still
to be done.

A request is a program whose calls are those to the file system and to the store, so that others may
come in between any two of them.  `sweep` is the start-up sweep: it looks at one file at a time.
-/

namespace PortageEngine.Gateway

open Library Library.Process Library.Decimal
open Ledger (Time)
open Storage (Outcome)

/-! ## Files -/

/-- The files that belong to the upload: its destination, and for every fence the file with the
suffix `.uploading.<id>.<fence>`. -/
inductive SpoolName
  | destination
  | generation (fence : Nat)
  deriving DecidableEq

/-- What is known of a file: its SHA-256 digest, its size and when it was written. -/
structure Received where
  digest : String
  size : Nat
  modified : Time

/-- The store and the spool.  `trespassed` records that a request has renamed its file to the
destination after its fence had been superseded. -/
structure Spool where
  tables : Tables
  files : List (SpoolName × Received)
  trespassed : Bool

def Spool.init : Spool where
  tables := Tables.empty
  files := []
  trespassed := false

def Spool.read (s : Spool) (name : SpoolName) : Option Received :=
  Files.read s.files name

/-- `uploadFileMatches`. -/
def Spool.holds (s : Spool) (name : SpoolName) (digest : String) (size : Nat) : Bool :=
  (s.read name).any fun r => r.digest = digest && r.size = size

/-- The generations in the directory of the destination. -/
def Spool.generations (s : Spool) : List Nat :=
  s.files.filterMap fun f =>
    match f.1 with
    | .destination => none
    | .generation fence => some fence

def Spool.remove (s : Spool) (fence : Nat) : Spool :=
  { s with files := Files.removeAll (fun name => name = .generation fence) s.files }

def Spool.superseded (s : Spool) (claim : UploadClaim) : Bool :=
  s.tables.uploads.any fun u => u.id = claim.id && claim.fence < u.fence

/-- The claimant renames its generation to the destination. -/
def Spool.rename (s : Spool) (claim : UploadClaim) (r : Received) : Spool :=
  { s.remove claim.fence with
    files := Files.write .destination r (s.remove claim.fence).files
    trespassed := s.trespassed || s.superseded claim }

/-! ## Calls -/

/-- A request that holds a claim: the identity of the worker, the declared length of the body and the
header `X-Content-SHA256`. -/
structure UploadRequest where
  identity : Identity
  claim : UploadClaim
  contentLength : Int
  provided : String

inductive SpoolOp
  | openUploadTarget
  | prepareParent
  | readDirectory
  /-- One removal of `discardGenerations`. -/
  | discard (claim : UploadClaim) (fence : Nat)
  | remove (claim : UploadClaim)
  | create (claim : UploadClaim)
  | receive (claim : UploadClaim)
  | fileMatches (name : SpoolName) (claim : UploadClaim)
  | rename (claim : UploadClaim)
  | completeWorkerUpload (identity : Identity) (claim : UploadClaim) (digest : String) (size : Nat)
  | cancelWorkerUpload (identity : Identity) (claim : UploadClaim)

inductive SpoolReply
  | done
  | generations (fences : List Nat)
  | received (digest : String) (size : Nat)
  | answer (yes : Bool)
  | failed

/-- How a call goes: whether it is performed and answered, at which time, with which ledger, and which
bytes arrive. -/
structure SpoolChoice where
  outcome : Outcome
  now : Time
  ledger : Ledger
  digest : String
  size : Nat

/-- A call that takes `s` to `s'`.  One that reports an error may have had its effect. -/
def SpoolChoice.conclude (c : SpoolChoice) (s s' : Spool) (reply : SpoolReply) : Spool × SpoolReply :=
  match c.outcome with
  | .performed => (s', reply)
  | .lost => (s', .failed)
  | .failed => (s, .failed)

def Spool.store (s : Spool) (c : SpoolChoice) : Except String Tables → Spool × SpoolReply
  | .error _ => (s, .failed)
  | .ok t => c.conclude s { s with tables := t } .done

def spoolExec (c : SpoolChoice) (op : SpoolOp) (s : Spool) : Spool × SpoolReply :=
  match op with
  | .openUploadTarget | .prepareParent => c.conclude s s .done
  | .readDirectory => c.conclude s s (.generations s.generations)
  | .discard _ fence => c.conclude s (s.remove fence) .done
  | .remove claim => c.conclude s (s.remove claim.fence) .done
  | .create claim =>
    -- the file is created with `O_EXCL`
    match s.read (.generation claim.fence) with
    | some _ => (s, .failed)
    | none => c.conclude s { s with
        files := Files.write (.generation claim.fence) ⟨"", 0, c.now⟩ s.files } .done
  | .receive claim =>
    let s' :=
      match s.read (.generation claim.fence) with
      -- the file has been removed under the writer: nobody sees what it writes
      | none => s
      | some _ =>
        { s with files := Files.write (.generation claim.fence) ⟨c.digest, c.size, c.now⟩ s.files }
    -- the digest is the output of SHA-256
    if isFingerprint c.digest && c.outcome = .performed then (s', .received c.digest c.size)
    else (s', .failed)
  | .fileMatches name claim =>
    c.conclude s s (.answer (isFingerprint claim.digest && s.holds name claim.digest claim.size))
  | .rename claim =>
    match s.read (.generation claim.fence) with
    | none => (s, .failed)
    | some r => c.conclude s (s.rename claim r) .done
  | .completeWorkerUpload i claim digest size =>
    s.store c (completeWorkerUpload c.ledger s.tables i claim.id claim.fence digest size c.now)
  | .cancelWorkerUpload i claim => s.store c (cancelWorkerUpload s.tables i claim.id claim.fence)

/-! ## The program -/

abbrev Handler (α : Type) := Prog SpoolOp SpoolReply α

/-- The answer to the worker: `CollectResult` or an error. -/
inductive Response
  | result (digest : String) (size : Nat)
  | error (status : Nat) (text : String)

/-- Remove the given generations, whatever comes of it. -/
def discardEach (claim : UploadClaim) : List Nat → Handler Unit
  | [] => pure ()
  | fence :: fences => do
    let _ ← Prog.ask (.discard claim fence)
    discardEach claim fences

def discardGenerations (claim : UploadClaim) : Handler Unit := do
  match ← Prog.ask .readDirectory with
  | .generations fences => discardEach claim fences
  | _ => pure ()

/-- Give the claim back and answer with an error. -/
def cancelWith (r : UploadRequest) (response : Response) : Handler Response := do
  let _ ← Prog.ask (.cancelWorkerUpload r.identity r.claim)
  pure response

/-- Remove the generation, give the claim back and answer with an error. -/
def discardWith (r : UploadRequest) (response : Response) : Handler Response := do
  let _ ← Prog.ask (.remove r.claim)
  cancelWith r response

/-- Record what has been received, and move it to the destination. -/
def commitUpload (r : UploadRequest) (digest : String) (size : Nat) : Handler Response := do
  match ← Prog.ask (.completeWorkerUpload r.identity r.claim digest size) with
  | .failed => do
    let _ ← Prog.ask (.remove r.claim)
    pure (.error 409 "upload fence is stale")
  | _ =>
    match ← Prog.ask (.rename r.claim) with
    | .failed => pure (.error 500 "commit artifact upload")
    | _ => pure (.result digest size)

/-- What is wrong with the received body: its length, or its digest against the header. -/
def UploadRequest.rejects (r : UploadRequest) (digest : String) (size : Nat) : Option Response :=
  let provided := lowerCase (trimSpace r.provided)
  if size > r.claim.maxBytes || (size : Int) ≠ r.contentLength then
    some (.error 400 "artifact upload failed")
  else if provided.utf8ByteSize ≠ 64 || provided ≠ digest then
    some (.error 422 "artifact digest mismatch")
  else none

/-- Receive the body into the generation and check it. -/
def receiveUpload (r : UploadRequest) : Handler Response := do
  match ← Prog.ask (.receive r.claim) with
  | .received digest size =>
    match r.rejects digest size with
    | some response => discardWith r response
    | none => commitUpload r digest size
  | _ => discardWith r (.error 400 "artifact upload failed")

def handleDurableUpload (r : UploadRequest) : Handler Response := do
  if r.contentLength < 0 || r.contentLength > r.claim.maxBytes then
    cancelWith r (.error 413 "invalid artifact content length")
  else
    match ← Prog.ask .prepareParent with
    | .failed => pure (.error 500 "prepare artifact destination")
    | _ => do
      discardGenerations r.claim
      let _ ← Prog.ask (.remove r.claim)
      match ← Prog.ask (.create r.claim) with
      | .failed => pure (.error 500 "create artifact destination")
      | _ => receiveUpload r

/-- `recoverCompletedUpload`, with the answer. -/
def recoverCompletedUpload (r : UploadRequest) : Handler Response := do
  let response := Response.result r.claim.digest r.claim.size
  match ← Prog.ask (.fileMatches .destination r.claim) with
  | .answer true => pure response
  | _ =>
    match ← Prog.ask (.fileMatches (.generation r.claim.fence) r.claim) with
    | .answer true =>
      match ← Prog.ask (.rename r.claim) with
      | .failed => pure (.error 500 "recover committed artifact")
      | _ => pure response
    | _ => pure (.error 500 "recover committed artifact")

/-- `handleDurableUploadRequest` after `ClaimWorkerUpload`. -/
def handleDurableUploadRequest (r : UploadRequest) : Handler Response := do
  match ← Prog.ask .openUploadTarget with
  | .failed => cancelWith r (.error 409 "upload destination is outside the artifact spool")
  | _ => if r.claim.completed then recoverCompletedUpload r else handleDurableUpload r

/-! ## The broker -/

inductive SpoolAction
  /-- Another call of the gateway's store. -/
  | store (op : GatewayOp)
  /-- A worker sends the upload. -/
  | request (l : Ledger) (identity : Identity) (lease now : Time) (contentLength : Int)
      (provided : String)
  /-- The start-up sweep comes to this generation. -/
  | sweep (fence : Nat) (before : Time)

/-- The calls that the requests make themselves. -/
def GatewayOp.transfers : GatewayOp → Bool
  | .claimUpload _ _ _ _ _ | .completeUpload _ _ _ _ _ _ _ | .cancelUpload _ _ _ => true
  | _ => false

/-- Actions on the spool of the upload `id`; a request that gets its claim starts a program. -/
def Spool.act (ext : Externals) (id : UploadId) (e : SpoolAction) (s : Spool) :
    Spool × Option UploadRequest :=
  match e with
  | .store op => if op.transfers then (s, none) else ({ s with tables := stepGateway ext s.tables op }, none)
  | .request l i lease now contentLength provided =>
    match claimWorkerUpload l s.tables i id lease now with
    -- 409, "upload is stale or unknown"
    | .error _ => (s, none)
    | .ok (t, claim) => ({ s with tables := t }, some ⟨i, claim, contentLength, provided⟩)
  | .sweep fence before =>
    match s.read (.generation fence) with
    | none => (s, none)
    | some r => if r.modified < before then (s.remove fence, none) else (s, none)

abbrev SpoolPool := Pool Spool UploadRequest SpoolOp SpoolReply Response

def SpoolPool.init : SpoolPool where
  state := Spool.init
  jobs := []

def stepSpool (ext : Externals) (id : UploadId) :
    SpoolPool → Move SpoolAction SpoolChoice → SpoolPool :=
  stepCrew spoolExec (Spool.act ext id) handleDurableUploadRequest

end PortageEngine.Gateway
