import PortageEngine.Library.Digest
import PortageEngine.Packages.Index
import PortageEngine.Catalog.Resolve

/-!
# Documents of the object store

A binhost channel is a pointer document that selects a generation: a manifest of artifacts, a Packages
index and the artifact objects.  Artifacts that are still being verified lie in a quarantine, under a
token, together with a capability document that says until when they may be used.

A document is kept as the value its JSON text stands for; writing checks it first (`marshal`) and
reading checks it again (`parse`), so both are the identity on documents that pass `validate`.
SHA-256 is symbolic (`Library.Digest`).
-/

namespace PortageEngine.Storage

open Library Library.Text Library.Decimal Packages BuildCatalog

/-- Microseconds; `0` is the unset time. -/
abbrev Time := Nat

abbrev Token := String

/-- The name-based UUID of a generation, with the name it is made from. -/
structure GenerationId where
  binhostPath : String
  attemptId : String
  deriving DecidableEq

/-- The objects of one channel's namespace and of the quarantine. -/
inductive Key
  /-- `<binhost path>/.channels/stable.json` -/
  | channel
  /-- `<binhost path>/.generations/<generation>/<relative>` -/
  | published (generation : GenerationId) (relative : Text)
  /-- `.quarantine/<token>/<relative>` -/
  | quarantine (token : Token) (relative : Text)
  deriving DecidableEq

def packagesName : Text := "Packages".toList
def generationManifestName : Text := "manifest.json".toList
def quarantineCapabilityName : Text := ".portage-engine-capability".toList

structure GenerationArtifact where
  relativePath : Text
  sha256 : Digest
  size : Nat
  objectKey : Option Key
  deriving DecidableEq

structure GenerationRepository where
  id : String
  revision : String
  digest : String
  deriving DecidableEq

structure GenerationProvenance where
  packageAtom : String
  buildInputSha256 : Digest
  buildMode : String
  imageDigest : String
  mirrorBundleDigest : String
  egressPolicyDigest : String
  packageSetCatalogDigest : String
  repositories : List GenerationRepository
  deriving DecidableEq

structure GenerationManifest where
  generationId : GenerationId
  binhostPath : String
  architecture : String
  profileId : String
  attemptId : String
  signingKeyId : String
  packagesSha256 : Digest
  provenance : GenerationProvenance
  artifacts : List GenerationArtifact
  createdAt : Time
  deriving DecidableEq

structure ChannelPointer where
  binhostPath : String
  architecture : String
  generationId : GenerationId
  manifestKey : Key
  manifestSha256 : Digest
  packagesSha256 : Digest
  previousGenerationId : Option GenerationId
  selectedAt : Time
  deriving DecidableEq

/-- The two generations of artifacts a job has in quarantine. -/
inductive QuarantineGeneration
  | unsigned
  | signed
  deriving DecidableEq

structure QuarantineManifest where
  token : Token
  generation : QuarantineGeneration
  architecture : String
  packagesSha256 : Digest
  artifacts : List GenerationArtifact
  expiresAt : Time
  deriving DecidableEq

inductive Document
  | bytes (content : Text)
  | manifest (manifest : GenerationManifest)
  | pointer (pointer : ChannelPointer)
  | capability (capability : QuarantineManifest)
  deriving DecidableEq

/-! ## Digests -/

def GenerationId.digest (g : GenerationId) : Digest :=
  .node [.ofString g.binhostPath, .ofString g.attemptId]

def Key.digest : Key → Digest
  | .channel => .node [.atom 0]
  | .published generation relative => .node [.atom 1, generation.digest, .ofText relative]
  | .quarantine token relative => .node [.atom 2, .ofString token, .ofText relative]

def GenerationArtifact.digest (a : GenerationArtifact) : Digest :=
  .node [.ofText a.relativePath, a.sha256, .atom a.size, .ofOption Key.digest a.objectKey]

def GenerationRepository.fingerprint (r : GenerationRepository) : Digest :=
  .node [.ofString r.id, .ofString r.revision, .ofString r.digest]

def GenerationProvenance.digest (p : GenerationProvenance) : Digest :=
  .node [.ofString p.packageAtom, p.buildInputSha256, .ofString p.buildMode,
    .ofString p.imageDigest, .ofString p.mirrorBundleDigest, .ofString p.egressPolicyDigest,
    .ofString p.packageSetCatalogDigest, .ofList GenerationRepository.fingerprint p.repositories]

def GenerationManifest.digest (m : GenerationManifest) : Digest :=
  .node [m.generationId.digest, .ofString m.binhostPath, .ofString m.architecture,
    .ofString m.profileId, .ofString m.attemptId, .ofString m.signingKeyId, m.packagesSha256,
    m.provenance.digest, .ofList GenerationArtifact.digest m.artifacts, .atom m.createdAt]

def ChannelPointer.digest (p : ChannelPointer) : Digest :=
  .node [.ofString p.binhostPath, .ofString p.architecture, p.generationId.digest,
    p.manifestKey.digest, p.manifestSha256, p.packagesSha256,
    .ofOption GenerationId.digest p.previousGenerationId, .atom p.selectedAt]

def QuarantineGeneration.digest : QuarantineGeneration → Digest
  | .unsigned => .atom 0
  | .signed => .atom 1

def QuarantineManifest.digest (q : QuarantineManifest) : Digest :=
  .node [.ofString q.token, q.generation.digest, .ofString q.architecture, q.packagesSha256,
    .ofList GenerationArtifact.digest q.artifacts, .atom q.expiresAt]

def digestBytes : Document → Digest
  | .bytes content => .pair (.atom 0) (.ofText content)
  | .manifest m => .pair (.atom 1) m.digest
  | .pointer p => .pair (.atom 2) p.digest
  | .capability q => .pair (.atom 3) q.digest

theorem GenerationId.digest_injective : Function.Injective GenerationId.digest := by
  rintro ⟨a, b⟩ ⟨a', b'⟩ h
  simpa [digest] using h

theorem Key.digest_injective : Function.Injective Key.digest := by
  intro k k' h
  cases k <;> cases k' <;>
    simp_all [Key.digest, GenerationId.digest_injective.eq_iff]

theorem GenerationArtifact.digest_injective : Function.Injective GenerationArtifact.digest := by
  rintro ⟨a, b, c, d⟩ ⟨a', b', c', d'⟩ h
  simpa [digest, Digest.ofOption_inj Key.digest_injective] using h

theorem GenerationRepository.fingerprint_injective :
    Function.Injective GenerationRepository.fingerprint := by
  rintro ⟨a, b, c⟩ ⟨a', b', c'⟩ h
  simpa [fingerprint] using h

theorem GenerationProvenance.digest_injective : Function.Injective GenerationProvenance.digest := by
  rintro ⟨⟩ ⟨⟩ h
  simpa [digest, Digest.ofList_inj GenerationRepository.fingerprint_injective] using h

theorem GenerationManifest.digest_injective : Function.Injective GenerationManifest.digest := by
  rintro ⟨⟩ ⟨⟩ h
  simpa [digest, Digest.ofList_inj GenerationArtifact.digest_injective,
    GenerationId.digest_injective.eq_iff, GenerationProvenance.digest_injective.eq_iff] using h

theorem ChannelPointer.digest_injective : Function.Injective ChannelPointer.digest := by
  rintro ⟨⟩ ⟨⟩ h
  simpa [digest, Digest.ofOption_inj GenerationId.digest_injective,
    GenerationId.digest_injective.eq_iff, Key.digest_injective.eq_iff] using h

theorem QuarantineGeneration.digest_injective : Function.Injective QuarantineGeneration.digest := by
  intro g g' h
  cases g <;> cases g' <;> simp_all [QuarantineGeneration.digest]

theorem QuarantineManifest.digest_injective : Function.Injective QuarantineManifest.digest := by
  rintro ⟨⟩ ⟨⟩ h
  simpa [digest, QuarantineGeneration.digest_injective.eq_iff,
    Digest.ofList_inj GenerationArtifact.digest_injective] using h

theorem digestBytes_injective : Function.Injective digestBytes := by
  intro d d' h
  cases d <;> cases d' <;>
    simp_all [digestBytes, GenerationManifest.digest_injective.eq_iff,
      ChannelPointer.digest_injective.eq_iff, QuarantineManifest.digest_injective.eq_iff]

@[simp] theorem digestBytes_inj {d d' : Document} : digestBytes d = digestBytes d' ↔ d = d' :=
  digestBytes_injective.eq_iff

/-! ## Channels and keys -/

/-- A channel whose path has passed validation, and the lengths of the JSON texts it stores. -/
structure BinhostChannel where
  ext : Externals
  binhostPath : String
  architecture : String
  valid : validateBinhostPath ext binhostPath architecture = .ok ()
  encodedLength : Document → Nat

def BinhostChannel.documentLength (ch : BinhostChannel) : Document → Nat
  | .bytes content => byteLength content
  | document => ch.encodedLength document

/-- The generation of an attempt: `uuid.NewSHA1(NameSpaceURL, binhostPath + "\x00" + attemptID)`. -/
def BinhostChannel.generation (ch : BinhostChannel) (attemptId : String) : GenerationId :=
  ⟨ch.binhostPath, attemptId⟩

def cleanGenerationRelativePath (relative : Text) : Except String Text := do
  let relative := relative.map fun c => if c = '\\' then '/' else c
  let clean := cleanPath relative
  require (relative ≠ [] && clean ≠ ".".toList && clean ≠ "..".toList &&
      !"../".toList.isPrefixOf clean && !"/".toList.isPrefixOf clean && clean = relative)
    s!"object path {(String.ofList relative).quote} must be canonical and relative"
  .ok clean

def publishedGenerationKey (ch : BinhostChannel) (generation : GenerationId) (relativePath : Text) :
    Except String Key := do
  validateBinhostPath ch.ext ch.binhostPath ch.architecture
  let relative ← cleanGenerationRelativePath relativePath
  .ok (.published generation relative)

def stableChannelKey (ch : BinhostChannel) : Except String Key := do
  validateBinhostPath ch.ext ch.binhostPath ch.architecture
  .ok .channel

def generationTokenPattern (token : Token) : Bool :=
  token.toList.length = 32 && token.toList.all isLowerHex

def quarantineGenerationKey (token : Token) (relativePath : Text) : Except String Key := do
  require (generationTokenPattern token) "invalid quarantine generation token"
  let relative ← cleanGenerationRelativePath relativePath
  .ok (.quarantine token relative)

def quarantineCapabilityKey (token : Token) : Except String Key :=
  quarantineGenerationKey token quarantineCapabilityName

theorem lineFeed_of_binhostPart {part : String} (h : binhostPart part = true) :
    '\n' ∉ part.toList := by
  intro hmem
  unfold binhostPart matchesClass at h
  split at h
  · simp_all
  rename_i first rest heq
  simp only [Bool.and_eq_true, List.all_eq_true] at h
  rw [heq] at hmem
  rcases List.mem_cons.mp hmem with rfl | hmem
  · exact absurd h.1.1 (by decide)
  · exact absurd (h.2 _ hmem) (by decide)

theorem BinhostChannel.architecture_line (ch : BinhostChannel) : '\n' ∉ ch.architecture.toList := by
  have hvalid := ch.valid
  simp only [validateBinhostPath, bind_eq_ok] at hvalid
  rcases hvalid with ⟨-, -, hparts⟩
  split at hparts
  · simp only [bind_eq_ok, require_eq_ok, Bool.and_eq_true, decide_eq_true_eq] at hparts
    rcases hparts with ⟨-, ⟨⟨-, harch⟩, -⟩, ⟨hpart, -⟩, -⟩
    exact harch ▸ lineFeed_of_binhostPart hpart
  · cases hparts

/-! ## Validation -/

def GenerationArtifact.validate (a : GenerationArtifact) : Except String Unit :=
  match cleanGenerationRelativePath a.relativePath with
  | .error _ => .error s!"invalid generation artifact path {(String.ofList a.relativePath).quote}"
  | .ok relative => require (relative ≠ packagesName && !".".toList.isPrefixOf relative)
      s!"invalid generation artifact path {(String.ofList a.relativePath).quote}"

/-- An artifact's object lies in some generation, under the artifact's own path. -/
def GenerationArtifact.validatePublishedKey (a : GenerationArtifact) : Except String Unit :=
  match a.objectKey with
  | some (.published _ relative) =>
    require (relative = a.relativePath || ('/' :: a.relativePath).isSuffixOf relative)
      s!"artifact {(String.ofList a.relativePath).quote} has an invalid published object key"
  | _ => .error s!"artifact {(String.ofList a.relativePath).quote} has an invalid published object key"

def GenerationRepository.validate (r : GenerationRepository) : Except String Unit := do
  require (trimSpace r.id ≠ "" && (r.revision ≠ "" || r.digest ≠ ""))
    "generation repository identity and revision or digest are required"
  require (r.digest = "" || digestPattern r.digest)
    "generation repository digest must be sha256:<64 lowercase hex>"

def GenerationProvenance.validate (p : GenerationProvenance) : Except String Unit := do
  require (trimSpace p.packageAtom ≠ "" && trimSpace p.buildMode ≠ "")
    "generation provenance package, input digest, and build mode are required"
  let named := [("image", p.imageDigest), ("mirror bundle", p.mirrorBundleDigest),
    ("egress policy", p.egressPolicyDigest), ("package-set catalog", p.packageSetCatalogDigest)]
  named.forM fun (name, digest) => require (digest = "" || digestPattern digest)
    s!"generation {name} digest must be sha256:<64 lowercase hex>"
  forDistinct GenerationRepository.id GenerationRepository.validate
    (fun repository => s!"duplicate generation repository {repository.id.quote}") [] p.repositories

def GenerationManifest.validate (ext : Externals) (m : GenerationManifest) : Except String Unit := do
  validateBinhostPath ext m.binhostPath m.architecture
  require (trimSpace m.profileId ≠ "" && trimSpace m.signingKeyId ≠ "" && m.createdAt ≠ 0 &&
      m.artifacts ≠ [])
    "generation manifest identity, key, Packages digest, timestamp, and artifacts are required"
  m.provenance.validate
  forDistinct GenerationArtifact.relativePath
    (fun artifact => do
      artifact.validate
      artifact.validatePublishedKey)
    (fun artifact => s!"duplicate generation artifact {(String.ofList artifact.relativePath).quote}")
    [] m.artifacts

def ChannelPointer.validate (ext : Externals) (p : ChannelPointer) : Except String Unit := do
  require (p.selectedAt ≠ 0) "invalid channel pointer identity"
  validateBinhostPath ext p.binhostPath p.architecture
  require (p.manifestKey = .published p.generationId generationManifestName)
    "channel manifest key does not match its generation"

/-- The checks of a capability; without a time its expiry is not checked. -/
def QuarantineManifest.validate (q : QuarantineManifest) (now : Option Time) :
    Except String Unit := do
  require (generationTokenPattern q.token && trimSpace q.architecture ≠ "" && q.artifacts ≠ [] &&
      q.artifacts.length ≤ 256 && q.expiresAt ≠ 0) "invalid quarantine manifest identity"
  match now with
  | some now => require (now < q.expiresAt) "quarantine manifest expired"
  | none => .ok ()
  forDistinct GenerationArtifact.relativePath GenerationArtifact.validate
    (fun artifact => s!"duplicate quarantine artifact {(String.ofList artifact.relativePath).quote}")
    [] q.artifacts

end PortageEngine.Storage
