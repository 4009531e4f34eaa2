import PortageEngine.Storage.Bucket

/-!
# Publishing a generation

`publishObjectGeneration` adds the verified artifacts of one attempt to a channel: it reads what the
channel selects now, uploads its artifacts, the merged Packages index and the manifest under the
attempt's own generation, and then swaps the channel pointer.  Every request to the store is a call of
the program, so another program may run, or this one may end, between any two of them.
-/

namespace PortageEngine.Publication

open Library Library.Process Library.Overlay Packages Storage

/-- A program that talks to the object store and may fail with a message. -/
abbrev Action (α : Type) := ExceptT String (Prog Op Reply) α

def request (op : Op) : Action Reply :=
  ExceptT.lift (Prog.ask op)

/-- The result of a computation without requests. -/
def checked {α : Type} (x : Except String α) : Action α :=
  ExceptT.mk (.done x)

def replyError : Reply → String
  | .failed error => error.text
  | _ => "unexpected storage reply"

/-! ## Requests -/

def currentTime : Action Time := do
  match ← request .now with
  | .time now => pure now
  | _ => pure 0

section Requests

variable (ch : BinhostChannel) (report : String → String)

/-- Download an object of bounded length; `report` words the error. -/
def downloadBytes (key : Key) (maxBytes : Nat) : Action Document := do
  match ← request (.download key) with
  | .document document =>
    if ch.documentLength document ≤ maxBytes then pure document
    else throw (report "downloaded object exceeds its bounded contract")
  | reply => throw (report (replyError reply))

def downloadVersionBytes (maxBytes : Nat) : Action (Document × Nat) := do
  match ← request .downloadVersion with
  | .version document version =>
    if ch.documentLength document ≤ maxBytes then pure (document, version)
    else throw (report "downloaded versioned object exceeds its bounded contract")
  | reply => throw (report (replyError reply))

def uploadBytes (key : Key) (document : Document) : Action Unit := do
  match ← request (.upload key document) with
  | .done => pure ()
  | reply => throw (report (replyError reply))

def compareAndSwapBytes (pointer : ChannelPointer) (expected : Nat) : Action Unit := do
  match ← request (.compareAndSwap pointer expected) with
  | .done => pure ()
  | reply => throw (report (replyError reply))

end Requests

/-! ## The input of a publication -/

/-- A staged artifact: its relative path and its content in the materialised quarantine. -/
structure StagedFile where
  relativePath : Text
  content : Text
  deriving DecidableEq

/-- What a publication reads of the build status and of the materialised quarantine. -/
structure PublicationInput where
  /-- `stablePublicationAttemptID(status)` -/
  attemptId : String
  createdAt : Time
  /-- The profile of the resolved context, empty if there is none. -/
  profileId : String
  signed : Bool
  signingKeyId : String
  provenance : GenerationProvenance
  token : Token
  files : List StagedFile

namespace PublicationInput

/-- The records `artifactMetadata` makes of the staged files. -/
def artifacts (ch : BinhostChannel) (input : PublicationInput) : List GenerationArtifact :=
  input.files.map fun file => {
    relativePath := file.relativePath
    sha256 := digestBytes (.bytes file.content)
    size := ch.documentLength (.bytes file.content)
    objectKey := none }

/-- An unset creation time is replaced by the first second of the epoch. -/
def timestamp (input : PublicationInput) : Time :=
  if input.createdAt = 0 then 1000000 else input.createdAt

end PublicationInput

structure PreviousPublication where
  pointer : Option ChannelPointer
  artifacts : List GenerationArtifact
  packages : Text
  version : Nat

def PreviousPublication.empty : PreviousPublication := ⟨none, [], [], 0⟩

/-! ## The program -/

section Program

variable (ch : BinhostChannel)

/-- The capability document, if it is one and is valid now. -/
def parseQuarantineManifest (document : Document) (now : Time) :
    Except String QuarantineManifest :=
  match document with
  | .capability capability => do
    capability.validate (some now)
    .ok capability
  | _ => .error "decode quarantine manifest"

def parseChannelPointer (document : Document) : Except String ChannelPointer :=
  match document with
  | .pointer pointer => do
    pointer.validate ch.ext
    .ok pointer
  | _ => .error "decode channel pointer"

def parseGenerationManifest (document : Document) : Except String GenerationManifest :=
  match document with
  | .manifest manifest => do
    manifest.validate ch.ext
    .ok manifest
  | _ => .error "decode generation manifest"

/-- A pointer document that is a valid pointer of this channel; every failure has one message. -/
def checkPointer (message : String) (document : Document) : Except String ChannelPointer :=
  match parseChannelPointer ch document with
  | .error _ => .error message
  | .ok pointer =>
    if pointer.binhostPath = ch.binhostPath ∧ pointer.architecture = ch.architecture then
      .ok pointer
    else .error message

/-- A manifest document that is the valid manifest of the pointer's generation. -/
def checkManifest (message : String) (pointer : ChannelPointer) (document : Document) :
    Except String GenerationManifest :=
  match parseGenerationManifest ch document with
  | .error _ => .error message
  | .ok manifest =>
    if manifest.generationId = pointer.generationId ∧
        manifest.packagesSha256 = pointer.packagesSha256 then .ok manifest
    else .error message

/-- The staged artifacts and index, as the capability of the quarantine names them. -/
def loadVerifiedPublicationInput (input : PublicationInput) :
    Action (List GenerationArtifact × Text) := do
  let capabilityKey ← checked (quarantineCapabilityKey input.token)
  let document ← downloadBytes ch (fun e => s!"read publication capability: {e}") capabilityKey
    (2 ^ 20)
  let now ← currentTime
  let capability ← checked <| match parseQuarantineManifest document now with
    | .error _ => .error "publication capability is invalid or expired"
    | .ok capability =>
      if capability.token = input.token ∧ capability.architecture = ch.architecture then
        .ok capability
      else .error "publication capability is invalid or expired"
  checked (require (capability.artifacts = input.artifacts ch)
    "publication artifacts differ from verified capability")
  let packagesKey ← checked (quarantineGenerationKey input.token packagesName)
  let packages ← downloadBytes ch (fun e => s!"read verified Packages index: {e}") packagesKey
    (64 * 2 ^ 20)
  match packages with
  | .bytes text =>
    if digestBytes packages = capability.packagesSha256 then pure (input.artifacts ch, text)
    else throw "verified Packages digest changed before publication"
  | _ => throw "verified Packages digest changed before publication"

/-- What the channel selects now, checked down to the digests of its documents. -/
def loadPreviousPublication : Action PreviousPublication := do
  let channelKey ← checked (stableChannelKey ch)
  match ← request (.inspect channelKey) with
  | .found false => pure .empty
  | .found true => do
    let (document, version) ← downloadVersionBytes ch (fun e => s!"read stable channel: {e}")
      (2 ^ 20)
    let pointer ← checked (checkPointer ch "stable channel pointer failed validation" document)
    let manifestDocument ← downloadBytes ch
      (fun _ => "stable channel manifest failed digest validation") pointer.manifestKey
      (4 * 2 ^ 20)
    checked (require (digestBytes manifestDocument = pointer.manifestSha256)
      "stable channel manifest failed digest validation")
    let manifest ← checked (checkManifest ch "stable channel manifest failed identity validation"
      pointer manifestDocument)
    let packagesKey ← checked (publishedGenerationKey ch pointer.generationId packagesName)
    let packages ← downloadBytes ch (fun _ => "stable Packages object failed digest validation")
      packagesKey (64 * 2 ^ 20)
    match packages with
    | .bytes text =>
      if digestBytes packages = pointer.packagesSha256 then
        pure ⟨some pointer, manifest.artifacts, text, version⟩
      else throw "stable Packages object failed digest validation"
    | _ => throw "stable Packages object failed digest validation"
  | reply => throw s!"inspect stable channel: {replyError reply}"

/-- Upload the staged files one by one; the artifacts get the keys of their objects. -/
def uploadStagedFiles (generation : GenerationId) :
    List (GenerationArtifact × StagedFile) → Action (List GenerationArtifact)
  | [] => pure []
  | (artifact, file) :: rest => do
    let key ← checked (publishedGenerationKey ch generation artifact.relativePath)
    uploadBytes
      (fun e => s!"upload published artifact {(String.ofList artifact.relativePath).quote}: {e}")
      key (.bytes file.content)
    let uploaded ← uploadStagedFiles generation rest
    pure ({ artifact with objectKey := some key } :: uploaded)

/-- The artifacts of the new generation: those of the one before with the new ones on top. -/
def uploadPublishedGenerationArtifacts (input : PublicationInput)
    (newArtifacts previous : List GenerationArtifact) (generation : GenerationId) :
    Action (List GenerationArtifact) := do
  let uploaded ← uploadStagedFiles ch generation (newArtifacts.zip input.files)
  pure (sorted GenerationArtifact.relativePath
    (overlay GenerationArtifact.relativePath previous uploaded))

/-- The key to record; only the one the signer reported counts. -/
def signingKey (input : PublicationInput) : Except String String :=
  if input.signed then do
    let key := Decimal.trimSpace input.signingKeyId
    require (key ≠ "") "signed generation has no signer-reported key ID to record"
    .ok key
  else .ok "unsigned"

def generationManifest (input : PublicationInput) (artifacts : List GenerationArtifact)
    (packages : Text) (key : String) : GenerationManifest where
  generationId := ch.generation input.attemptId
  binhostPath := ch.binhostPath
  architecture := ch.architecture
  profileId := if input.profileId = "" then "compatibility" else input.profileId
  attemptId := input.attemptId
  signingKeyId := key
  packagesSha256 := digestBytes (.bytes packages)
  provenance := input.provenance
  artifacts := artifacts
  createdAt := input.timestamp

def uploadPublicationMetadata (input : PublicationInput) (artifacts : List GenerationArtifact)
    (packages : Text) : Action GenerationManifest := do
  let generation := ch.generation input.attemptId
  let packagesKey ← checked (publishedGenerationKey ch generation packagesName)
  uploadBytes (fun e => s!"upload published Packages: {e}") packagesKey (.bytes packages)
  let key ← checked (signingKey input)
  let manifest := generationManifest ch input artifacts packages key
  checked (manifest.validate ch.ext)
  let manifestKey ← checked (publishedGenerationKey ch generation generationManifestName)
  uploadBytes (fun e => s!"upload generation manifest: {e}") manifestKey (.manifest manifest)
  pure manifest

def publishedArtifactKeysForRels (artifacts : List GenerationArtifact) (rels : List Text) :
    Except String (List Key) :=
  rels.mapM fun rel =>
    match (artifacts.find? fun a => a.relativePath = rel).bind GenerationArtifact.objectKey with
    | some key => .ok key
    | none => .error s!"published generation omitted artifact {(String.ofList rel).quote}"

def channelPointer (manifest : GenerationManifest) (previous : Option ChannelPointer)
    (now : Time) : ChannelPointer where
  binhostPath := ch.binhostPath
  architecture := ch.architecture
  generationId := manifest.generationId
  manifestKey := .published manifest.generationId generationManifestName
  manifestSha256 := digestBytes (.manifest manifest)
  packagesSha256 := manifest.packagesSha256
  previousGenerationId := previous.map ChannelPointer.generationId
  selectedAt := now

def publishObjectGeneration (input : PublicationInput) : Action (List Key) := do
  let rels := input.files.map StagedFile.relativePath
  let (newArtifacts, currentPackages) ← loadVerifiedPublicationInput ch input
  let previous ← loadPreviousPublication ch
  let generation := ch.generation input.attemptId
  if previous.pointer.map ChannelPointer.generationId = some generation then
    checked (publishedArtifactKeysForRels previous.artifacts rels)
  else do
    let mergedPackages ← checked <|
      (mergePackagesIndexes previous.packages currentPackages ch.architecture.toList
        input.timestamp).mapError fun e => s!"merge publication Packages index: {e}"
    let artifacts ← uploadPublishedGenerationArtifacts ch input newArtifacts previous.artifacts
      generation
    let manifest ← uploadPublicationMetadata ch input artifacts mergedPackages
    let now ← currentTime
    let pointer := channelPointer ch manifest previous.pointer now
    checked (pointer.validate ch.ext)
    compareAndSwapBytes (fun e => s!"commit stable channel pointer: {e}") pointer previous.version
    checked (publishedArtifactKeysForRels artifacts rels)

end Program

end PortageEngine.Publication
