import PortageEngine.Ledger.System

/-!
# The in-memory projection

Every control-plane replica keeps a map from jobs to their status (`Manager.jobs`).  It is refreshed
from the ledger every few seconds, and the goroutines that execute builds read from it which attempt
they report for.
-/

namespace PortageEngine.Replica

open Ledger

/-- `Manager.jobs`. -/
abbrev Projection := JobId → Option BuildStatus

def Projection.set (jobs : Projection) (job : JobId) (status : BuildStatus) : Projection :=
  fun j => if j = job then some status else jobs j

/-! ## Refreshing from the ledger -/

def newest : List Attempt → Option Attempt
  | [] => none
  | a :: rest =>
    match newest rest with
    | none => some a
    | some b => if a.attemptNo < b.attemptNo then some b else some a

/-- The newest attempt of a job that holds a live lease. -/
def liveAttempt? (l : Ledger) (job : JobId) (now : Time) : Option Attempt :=
  newest (l.attempts.filter fun a =>
    a.job = job && l.leases.any fun x => x.attempt = a.id && now < x.expiresAt)

/-- A row of `LoadVisible`: the stored document with the live claim identity reattached. -/
def loadJob (l : Ledger) (now : Time) (j : Job) : BuildStatus :=
  match liveAttempt? l j.id now with
  | none => j.snapshot.decode j.id
  | some a => { j.snapshot.decode j.id with
      attemptId := some a.id, fenceToken := a.fence, leaseOwner := a.worker.getD "" }

def loadVisible (l : Ledger) (now : Time) : List BuildStatus :=
  (l.jobs.filter Job.visible).map (loadJob l now)

/-- `preserveLocalGenerationFacts`: facts of the same attempt that are not durable yet. -/
def preserveLocalGenerationFacts (durable mine : BuildStatus) : BuildStatus :=
  if mine.attemptId = none || mine.attemptId ≠ durable.attemptId then durable else
    let signed := durable.signed || mine.signed
    { durable with
      signed := signed
      signingKeyId := if signed && durable.signingKeyId = "" then mine.signingKeyId
        else durable.signingKeyId
      artifactPath := if durable.artifactPath = "" then mine.artifactPath else durable.artifactPath
      artifactUrl := if durable.artifactUrl = "" then mine.artifactUrl else durable.artifactUrl
      artifacts := if durable.artifacts.isEmpty then mine.artifacts else durable.artifacts }

/-- The new entry of a job that is in both maps. -/
def mergeEntry (incoming mine : BuildStatus) : BuildStatus :=
  preserveLocalGenerationFacts { incoming with
    log := mine.log
    artifactPaths := mine.artifactPaths
    stagingRoot := mine.stagingRoot
    verificationToken := mine.verificationToken
    stagedArtifacts := mine.stagedArtifacts
    stagedPrimary := mine.stagedPrimary } mine

/-- `SyncLedgerJobs`: the durable jobs replace the map. -/
def syncLedgerJobs (jobs : Projection) (durable : List BuildStatus) : Projection := fun job =>
  (durable.find? fun s => s.jobId = job).map fun incoming =>
    match jobs job with
    | none => incoming
    | some mine => mergeEntry incoming mine

/-! ## Status updates -/

def terminalStatus (s : Status) : Bool :=
  s = .failed || s = .completed || s = .success || s = .canceled

/-- The status that `updateStatus` derives from the entry; `errorMsg` is the redacted text. -/
def nextStatus (previous : BuildStatus) (status : Status) (instanceId errorMsg : String)
    (at_ : Time) : BuildStatus :=
  { previous with
    status := status
    updatedAt := at_
    instanceId := if instanceId = "" then previous.instanceId else instanceId
    error := if errorMsg ≠ "" then errorMsg
      else if status ≠ .failed then "" else previous.error }

/-- The write-back after a durable transition: dropped if the entry has moved on. -/
def commitStatus (jobs : Projection) (previous current : BuildStatus) : Projection :=
  match jobs current.jobId with
  | none => jobs
  | some live =>
    if live.attemptId = previous.attemptId && live.fenceToken = previous.fenceToken &&
        live.status = previous.status then
      jobs.set current.jobId current
    else jobs

end PortageEngine.Replica
