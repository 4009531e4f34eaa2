import PortageEngine.Library.Crew
import PortageEngine.Library.Files
import PortageEngine.Signing.Queue
import PortageEngine.Storage.Bucket

/-!
# The signer

`Runner.RunOnce` (`internal/signing/runner.go`) claims a task, signs its packages and reports them.
The output location is derived from the task alone, so all claimants of a task share it: a directory
below the quarantine, or a prefix of the object store.  With a directory the packages are signed in
place; with an object store they are signed in a private scratch directory and uploaded.

A run is a program whose calls are the requests to the file system, to the store and to the queue,
so that other runs may come in between any two of them.  The heartbeat runs beside it: renewals are
actions of the queue, and the program asks at its checks whether it has been canceled.
-/

namespace PortageEngine.Signing

open Library Library.Process
open Ledger (Time)
open Storage (Outcome)

/-! ## The output locations -/

/-- What is compared of a file: its SHA-256 digest and its size. -/
structure Content where
  digest : String
  size : Int
  deriving DecidableEq

/-- The content that an output is recorded with. -/
def Artifact.signed (a : Artifact) : Content :=
  ⟨a.outputDigest, a.outputSize⟩

/-- The queue and the output locations of its tasks.  `trespassed` records that a runner has changed
something at the location of a task after its claim had been superseded. -/
structure Site where
  signing : SigningSystem
  files : List ((TaskId × String) × Content)
  trespassed : Bool

def Site.init (policies : List Ledger.Policy) : Site where
  signing := SigningSystem.init policies
  files := []
  trespassed := false

/-- The task has been claimed again since it was handed out. -/
def Site.superseded (s : Site) (task : Task) : Bool :=
  s.signing.tasks.any fun t => t.id = task.id && task.claimFence < t.claimFence

/-- A claimant of the task leaves these files. -/
def Site.change (s : Site) (task : Task) (files : List ((TaskId × String) × Content)) : Site :=
  { s with
    files := files
    trespassed := s.trespassed || (s.superseded task && files ≠ s.files) }

inductive Root
  | output
  | scratch
  deriving DecidableEq

def packagesName : String := "Packages"

def capabilityMarkerName : String := ".portage-engine-capability"

def quarantineCapabilityName : String := ".portage-engine-capability"

/-! ## Calls -/

inductive RunnerOp
  /-- `ctx.Err()` -/
  | contextErr
  /-- The error of the heartbeat, if it has stopped the run. -/
  | heartbeatErr
  | rejectSymlinkPath (path : String)
  | inputDigest (path : String)
  | makeDirectory (root : Root)
  | removeAll (task : Task) (root : Root)
  | copyRegularFile (task : Task) (root : Root) (path : String) (content : Content)
  | signGPKG (task : Task) (root : Root) (path : String)
  | outputDigest (task : Task) (root : Root) (path : String)
  | regenerateIndex (task : Task) (root : Root)
  | writeMarker (task : Task)
  | download (path : String)
  | packagesDigest
  | marshalManifest (task : Task) (packages : Content) (outputs : List Artifact)
  | upload (task : Task) (path : String) (content : Content)
  | list (task : Task)
  | delete (task : Task) (path : String)
  | failSigning (task : Task) (detail : String)
  | completeSigning (task : Task) (keyId : String) (outputs : List Artifact)

inductive RunnerReply
  | done
  | content (content : Content)
  | paths (paths : List String)
  | failed (text : String)

/-- How a call goes: whether it is performed and answered, at which time, and what the world
contributes (what GPG or the indexer writes, what the source holds, what an interrupted removal
spares). -/
structure RunnerChoice where
  outcome : Outcome
  now : Time
  content : Content
  spared : List String
  error : String

/-- A call that takes `s` to `s'`.  An interrupted call may have had its effect. -/
def RunnerChoice.conclude (c : RunnerChoice) (s s' : Site) (reply : RunnerReply) :
    Site × RunnerReply :=
  match c.outcome with
  | .performed => (s', reply)
  | .lost => (s', .failed c.error)
  | .failed => (s, .failed c.error)

/-- What a removal leaves although it was asked to remove everything. -/
def RunnerChoice.leaves (c : RunnerChoice) : List String :=
  if c.outcome = .performed then [] else c.spared

def RunnerChoice.copied (c : RunnerChoice) (content : Content) : Content :=
  if c.outcome = .performed then content else c.content

def Site.report (s : Site) (c : RunnerChoice) (op : SigningOp) : Site × RunnerReply :=
  match op.run s.signing with
  | .error text => (s, .failed text)
  | .ok _ => c.conclude s { s with signing := stepSigning s.signing op } .done

def runnerExec (c : RunnerChoice) (op : RunnerOp) (s : Site) : Site × RunnerReply :=
  match op with
  | .contextErr | .heartbeatErr | .rejectSymlinkPath _ | .makeDirectory _ | .download _ =>
    c.conclude s s .done
  | .inputDigest _ | .packagesDigest | .marshalManifest _ _ _ => c.conclude s s (.content c.content)
  | .removeAll task .output =>
    c.conclude s (s.change task (Files.removeAll
      (fun name => name.1 = task.id && !c.leaves.contains name.2) s.files)) .done
  | .copyRegularFile task .output path content =>
    -- the file is created with `O_EXCL`
    match Files.read s.files (task.id, path) with
    | some _ => (s, .failed "file exists")
    | none => c.conclude s (s.change task
        (Files.write (task.id, path) (c.copied content) s.files)) .done
  | .signGPKG task .output path =>
    match Files.read s.files (task.id, path) with
    | none => (s, .failed "no such file or directory")
    | some _ => c.conclude s (s.change task
        (Files.write (task.id, path) c.content s.files)) .done
  | .outputDigest task .output path =>
    match Files.read s.files (task.id, path) with
    | none => (s, .failed "no such file or directory")
    | some content => c.conclude s s (.content content)
  | .regenerateIndex task .output =>
    c.conclude s (s.change task (Files.write (task.id, packagesName) c.content s.files)) .done
  | .writeMarker task =>
    c.conclude s (s.change task
      (Files.write (task.id, capabilityMarkerName) c.content s.files)) .done
  -- nobody else sees a scratch directory
  | .outputDigest _ .scratch _ => c.conclude s s (.content c.content)
  | .removeAll _ .scratch | .copyRegularFile _ .scratch _ _ | .signGPKG _ .scratch _
  | .regenerateIndex _ .scratch => c.conclude s s .done
  | .upload task path content =>
    -- objects are created once; the same bytes are accepted again
    match Files.read s.files (task.id, path) with
    | none => c.conclude s (s.change task
        (Files.write (task.id, path) content s.files)) .done
    | some stored =>
      if stored = content then c.conclude s s .done
      else (s, .failed "immutable object already exists with different content")
  | .list task =>
    c.conclude s s (.paths ((s.files.filter fun f => f.1.1 = task.id).map fun f => f.1.2))
  | .delete task path =>
    c.conclude s (s.change task (Files.removeAll (fun name => name = (task.id, path)) s.files))
      .done
  | .failSigning task detail => s.report c (.fail task detail c.now)
  | .completeSigning task keyId outputs => s.report c (.complete task keyId outputs c.now)

/-! ## The program -/

abbrev Action (α : Type) := ExceptT String (Prog RunnerOp RunnerReply) α

def request (op : RunnerOp) : Action RunnerReply :=
  ExceptT.lift (Prog.ask op)

def checked {α : Type} (x : Except String α) : Action α :=
  ExceptT.mk (.done x)

/-- A call that returns nothing but an error; `report` words it. -/
def perform (report : String → String) (op : RunnerOp) : Action Unit := do
  match ← request op with
  | .failed text => throw (report text)
  | _ => pure ()

def readContent (report : String → String) (op : RunnerOp) : Action Content := do
  match ← request op with
  | .content content => pure content
  | .failed text => throw (report text)
  | _ => throw (report "unexpected reply")

inductive Mode
  | localDirectory
  | objectStore

/-- `Runner`: how outputs are kept, the GPG key of each signer and the capability token of a
task. -/
structure Runner where
  mode : Mode
  keyId : String → String
  outputToken : TaskId → String

def signArtifact (task : Task) (root : Root) (input : Artifact) (remainingBytes : Int) :
    Action Artifact := do
  let path := input.relativePath
  checked (validateArtifact input false)
  perform (fun e => s!"validate signing input {path.quote}: {e}") (.rejectSymlinkPath path)
  let source ← readContent (fun e => s!"digest signing input {path.quote}: {e}") (.inputDigest path)
  checked (require (source.digest = input.inputDigest && source.size = input.inputSize)
    s!"signing input {path.quote} does not match its verified digest")
  checked (require (input.inputSize ≤ remainingBytes)
    "signed output would exceed quarantine byte budget")
  perform id (.makeDirectory root)
  perform id (.copyRegularFile task root path source)
  perform id (.signGPKG task root path)
  let output ← readContent id (.outputDigest task root path)
  checked (require (output.size ≤ remainingBytes) ("signed output exceeds quarantine byte budget: " ++
    s!"output={output.size} remaining={remainingBytes}"))
  return { input with outputDigest := output.digest, outputSize := output.size }

/-- The loop of `processRoots`. -/
def signArtifacts (task : Task) (root : Root) : Int → List Artifact → Action (List Artifact)
  | _, [] => return []
  | remainingBytes, input :: rest => do
    perform (fun e => s!"signing aborted: {e}") .contextErr
    let output ← signArtifact task root input remainingBytes
    let outputs ← signArtifacts task root (remainingBytes - output.outputSize) rest
    return output :: outputs

/-- The byte budget of the task; rows of an older schema have none. -/
def Task.budget (task : Task) : Int :=
  if task.maxOutputBytes = 0 then 34359738368 else task.maxOutputBytes

/-- `Runner.processRoots`: the output is removed again if anything fails. -/
def processRoots (task : Task) (root : Root) (activateLocalCapability : Bool) :
    Action (List Artifact) := do
  perform (fun e => s!"clear prior signer output: {e}") (.removeAll task root)
  perform (fun e => s!"create signer output root: {e}") (.makeDirectory root)
  onError
    (do
      let outputs ← signArtifacts task root task.budget task.artifacts
      perform (fun e => s!"generate signed quarantine index: {e}") (.regenerateIndex task root)
      if activateLocalCapability then
        perform (fun e => s!"activate signed verification capability: {e}") (.writeMarker task)
      return outputs)
    (do
      let _ ← Prog.ask (.removeAll task root)
      return ())

/-- The uploads of `processObject`. -/
def uploadOutputs (task : Task) : List Artifact → Action Unit
  | [] => return ()
  | output :: rest => do
    perform (fun e => s!"upload signed artifact {output.relativePath.quote}: {e}")
      (.upload task output.relativePath output.signed)
    uploadOutputs task rest

/-- The downloads of `processObject`. -/
def downloadInputs : List Artifact → Action Unit
  | [] => return ()
  | input :: rest => do
    perform (fun e => s!"materialize signing input {input.relativePath.quote}: {e}")
      (.download input.relativePath)
    downloadInputs rest

def processObject (task : Task) : Action (List Artifact) := do
  perform id (.makeDirectory .scratch)
  downloadInputs task.artifacts
  let outputs ← processRoots task .scratch false
  uploadOutputs task outputs
  let packages ← readContent (fun e => s!"digest signed Packages index: {e}") .packagesDigest
  perform (fun e => s!"upload signed Packages index: {e}") (.upload task packagesName packages)
  let manifest ← readContent id (.marshalManifest task packages outputs)
  -- the one write that must not happen after the lease is gone
  perform (fun e => s!"signing aborted before capability activation: {e}") .contextErr
  perform (fun e => s!"activate signed object capability: {e}")
    (.upload task quarantineCapabilityName manifest)
  return outputs

def process (runner : Runner) (task : Task) : Action (List Artifact) := do
  match runner.mode with
  | .objectStore => processObject task
  | .localDirectory => do
    checked (require (task.sourceToken ≠ runner.outputToken task.id)
      "signing source and output roots must differ")
    processRoots task .output true

/-- `deleteQuarantineGeneration`. -/
def deletePaths (task : Task) : List String → Action Unit
  | [] => return ()
  | path :: rest => do
    perform id (.delete task path)
    deletePaths task rest

def removeOutput (runner : Runner) (task : Task) : Action Unit := do
  match runner.mode with
  | .objectStore => do
    match ← request (.list task) with
    | .paths paths => deletePaths task paths
    | _ => throw "list signer output"
  | .localDirectory => perform id (.removeAll task .output)

/-- A run that has failed removes its output only if the queue still took its report. -/
def giveUp (runner : Runner) (task : Task) (detail : String) : Prog RunnerOp RunnerReply Unit := do
  match ← Prog.ask (.failSigning task detail) with
  | .failed _ => pure ()
  | _ => do
    let _ ← (removeOutput runner task).run
    pure ()

/-- `Runner.RunOnce`, from the task that it has claimed.  The error of the heartbeat outranks the
result. -/
def runOnce (runner : Runner) (task : Task) : Prog RunnerOp RunnerReply Unit := do
  let result ← (process runner task).run
  match ← Prog.ask .heartbeatErr with
  | .failed text => giveUp runner task s!"renew signing task lease: {text}"
  | _ =>
    match result with
    | .error text => giveUp runner task text
    | .ok outputs => do
      let _ ← Prog.ask (.completeSigning task (runner.keyId task.owner) outputs)
      pure ()

/-! ## The signers together -/

/-- The operations that signers make at the end of their runs. -/
def SigningOp.reports : SigningOp → Bool
  | .complete _ _ _ _ | .fail _ _ _ => true
  | _ => false

/-- Everything else that happens to the queue; a claim starts a run. -/
def Site.act (op : SigningOp) (s : Site) : Site × Option Task :=
  if op.reports then (s, none)
  else ({ s with signing := stepSigning s.signing op }, (op.run s.signing).toOption.bind Prod.snd)

abbrev SignerPool := Pool Site Task RunnerOp RunnerReply Unit

def SignerPool.init (policies : List Ledger.Policy) : SignerPool where
  state := Site.init policies
  jobs := []

def stepSigners (runner : Runner) (pool : SignerPool) (move : Move SigningOp RunnerChoice) :
    SignerPool :=
  stepCrew runnerExec Site.act (runOnce runner) pool move

end PortageEngine.Signing
