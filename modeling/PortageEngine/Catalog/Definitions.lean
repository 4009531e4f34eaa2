import PortageEngine.Library.Decimal
import PortageEngine.Library.Fallible

/-!
# The build catalog: documents and their validation

The catalog is the operator's inventory of profiles, repositories, images, mirror bundles, resource
classes and egress policies (`internal/catalog/catalog.go`).  This module holds its document types
and the checks of its parts.

Three things are taken from outside the package and enter as `Externals`: URL parsing, path cleaning
and the hash of a policy's JSON form.  The lookup indexes the source builds while it validates are
the `find?` functions below; they agree because validation rejects repeated IDs.
-/

namespace PortageEngine.BuildCatalog

open Library Library.Decimal

/-- Go's `map[string]string`: a finite map, no key twice. -/
abbrev StringMap := AList fun _ : String => String

/-! ## Documents -/

inductive Channel
  | compatibility
  | candidate
  | stable
  | retired
  | other (text : String)
  deriving DecidableEq

inductive Provider
  | pve
  | gcp
  | aws
  | other (text : String)
  deriving DecidableEq

structure ProfileParentDefinition where
  repositoryId : String
  profilePath : String

structure ProfileDefinition where
  id : String
  arch : String
  profilePath : String
  binhostPath : String
  profileRepositoryId : String
  parents : List ProfileParentDefinition := []
  legacyProfiles : List String := []
  repositoryIds : List String
  imageId : String
  mirrorBundleId : String
  defaultResourceClass : String := ""
  requiredFeatures : List String := []
  egressPolicyId : String
  isDefault : Bool := false
  channel : Channel

structure RepositoryDefinition where
  id : String
  name : String
  location : String := ""
  syncType : String := ""
  syncUri : String := ""
  revision : String := ""
  digest : String := ""
  priority : Int := 0
  channel : Channel
  deriving DecidableEq

structure ImageManifest where
  id : String
  profileId : String := ""
  generation : String
  provider : Provider
  executionZone : String := ""
  arch : String
  buildMode : String
  template : String := ""
  digest : String := ""
  rootfsSource : String
  displayModel : String := ""
  rootfsManifestDigest : String := ""
  packageSetIds : List String := []
  packageSetCatalogDigest : String := ""
  channel : Channel
  deriving DecidableEq

/-- Times are seconds; `none` is Go's zero time. -/
structure MirrorBundle where
  id : String
  digest : String := ""
  createdAt : Option Nat := none
  freshUntil : Option Nat := none
  advisoryWatermark : String := ""
  channel : Channel
  deriving DecidableEq

structure ResourceClass where
  id : String
  machineSpec : StringMap
  maxRuntimeMinutes : Int
  cloudCostMicrounitsPerMinute : Int

inductive EgressMode
  | enforce
  | disabled
  | other (text : String)
  deriving DecidableEq

/-- Destinations, protocol and ports that may be reached; the hosts are labels for audits. -/
structure EgressRule where
  id : String
  hosts : List String
  cidrs : List String
  protocol : String
  ports : List Nat
  deriving DecidableEq

structure EgressPolicy where
  id : String
  mode : EgressMode
  dnsResolvers : List String := []
  rules : List EgressRule := []
  channel : Channel
  deriving DecidableEq

structure Catalog where
  version : Int
  profiles : List ProfileDefinition
  repositories : List RepositoryDefinition
  images : List ImageManifest
  mirrorBundles : List MirrorBundle
  resourceClasses : List ResourceClass
  egressPolicies : List EgressPolicy

/-- What `net/url` reports about a parsed address; `hostname` and `port` are parts of `host`. -/
structure ParsedUrl where
  scheme : String
  host : String
  hostname : String
  port : String
  rawQuery : String
  fragment : String
  hasUser : Bool

/-- `url.Parse`, `path.Clean`, and the hexadecimal SHA-256 of a policy's JSON form. -/
structure Externals where
  parseUrl : String → Option ParsedUrl
  cleanPath : String → String
  policyHash : EgressPolicy → String

/-! ## Patterns -/

/-- A text of one character from `first` and at most `limit` more from `rest`. -/
def matchesClass (first rest : Char → Bool) (limit : Nat) (s : String) : Bool :=
  match s.toList with
  | [] => false
  | c :: cs => first c && cs.length ≤ limit && cs.all rest

def idPattern (s : String) : Bool :=
  matchesClass Char.isAlphanum (fun c => c.isAlphanum || "+._/-".toList.contains c) 255 s

def repoNameRegex (s : String) : Bool :=
  matchesClass Char.isAlphanum (fun c => c.isAlphanum || "._-".toList.contains c) 63 s

def binhostPart (s : String) : Bool :=
  matchesClass Char.isAlphanum (fun c => c.isAlphanum || "+._-".toList.contains c) 127 s

def executionZonePattern (s : String) : Bool :=
  matchesClass Char.isLower (fun c => c.isLower || c.isDigit || c = '-') 62 s

def isLowerHex (c : Char) : Bool :=
  c.isDigit || ('a' ≤ c && c ≤ 'f')

def digestPattern (s : String) : Bool :=
  "sha256:".toList.isPrefixOf s.toList && (s.toList.drop 7).length = 64 &&
    (s.toList.drop 7).all isLowerHex

def revisionRegex (s : String) : Bool :=
  7 ≤ s.length && s.length ≤ 64 && s.toList.all fun c => isLowerHex c || ('A' ≤ c && c ≤ 'F')

/-! ## Lookup indexes -/

namespace Catalog

def profile? (c : Catalog) (id : String) : Option ProfileDefinition :=
  c.profiles.find? (·.id = id)

def profileByLegacy? (c : Catalog) (legacy : String) : Option ProfileDefinition :=
  c.profiles.find? (·.legacyProfiles.contains legacy)

def repository? (c : Catalog) (id : String) : Option RepositoryDefinition :=
  c.repositories.find? (·.id = id)

def image? (c : Catalog) (id : String) : Option ImageManifest :=
  c.images.find? (·.id = id)

def mirrorBundle? (c : Catalog) (id : String) : Option MirrorBundle :=
  c.mirrorBundles.find? (·.id = id)

def resource? (c : Catalog) (id : String) : Option ResourceClass :=
  c.resourceClasses.find? (·.id = id)

def egress? (c : Catalog) (id : String) : Option EgressPolicy :=
  c.egressPolicies.find? (·.id = id)

end Catalog

/-! ## Validation of the parts -/

def validChannel : Channel → Bool
  | .other _ => false
  | _ => true

def channelText : Channel → String
  | .compatibility => "compatibility"
  | .candidate => "candidate"
  | .stable => "stable"
  | .retired => "retired"
  | .other text => text

def providerText : Provider → String
  | .pve => "pve"
  | .gcp => "gcp"
  | .aws => "aws"
  | .other text => text

def validateDigest (digest : String) : Except String Unit :=
  require (digest = "" || digestPattern digest) s!"invalid SHA-256 digest {digest.quote}"

def validateBoundedInteger (value : String) (minValue maxValue : Int) (key : String) :
    Except String Unit :=
  require (match atoi value with
    | none => false
    | some n => minValue ≤ n && n ≤ maxValue)
    s!"machine spec {key} must be between {minValue} and {maxValue}"

/-- One entry of a resource class's machine specification. -/
def validateResourceEntry (key value : String) : Except String Unit := do
  require (value ≠ "" && value.utf8ByteSize ≤ 128 &&
      value.toList.all fun c => c ≠ '\r' && c ≠ '\n' && c.toNat ≠ 0)
    s!"invalid value for machine spec key {key.quote}"
  if key = "cores" then validateBoundedInteger value 1 128 key
  else if key = "memory" then validateBoundedInteger value 512 1048576 key
  else if key = "disk_size" then validateBoundedInteger value 10 4096 key
  else if key = "machine_type" || key = "instance_type" then
    require (repoNameRegex value) s!"invalid value for machine spec key {key.quote}"
  else if key = "preemptible" then
    require (value = "true" || value = "false") s!"invalid value for machine spec key {key.quote}"
  else .error s!"machine spec key {key.quote} is operator-owned or unsupported"

def validateResourceSpec (spec : StringMap) : Except String Unit := do
  ["cores", "memory", "disk_size"].forM fun required =>
    require (trimSpace ((spec.lookup required).getD "") ≠ "")
      s!"machine spec requires {required.quote} for resource accounting"
  spec.entries.forM fun entry => validateResourceEntry entry.1 entry.2

def validateResourceClass (seen : List String) (cls : ResourceClass) : Except String Unit := do
  require (idPattern cls.id) s!"invalid resource class ID {cls.id.quote}"
  require (!seen.contains cls.id) s!"duplicate resource class ID {cls.id.quote}"
  (validateResourceSpec cls.machineSpec).mapError fun e => s!"resource class {cls.id.quote}: {e}"
  require (0 < cls.maxRuntimeMinutes && cls.maxRuntimeMinutes ≤ 1440)
    s!"resource class {cls.id.quote} max_runtime_minutes must be between 1 and 1440"
  require (0 < cls.cloudCostMicrounitsPerMinute &&
      cls.cloudCostMicrounitsPerMinute ≤ 1000000000000)
    s!"resource class {cls.id.quote} cloud cost rate must be between 1 and 1000000000000 microunits per minute"

def executionZone (value : String) : String :=
  if trimSpace value = "" then "default" else trimSpace value

def validateImageIdentity (image : ImageManifest) : Except String Unit := do
  require (idPattern image.id && idPattern image.generation && providerText image.provider ≠ "" &&
      image.arch ≠ "" && image.buildMode ≠ "" && image.rootfsSource ≠ "")
    "missing or invalid required field"
  require (image.displayModel = "" || image.displayModel = "std" || image.displayModel = "qxl")
    s!"image {image.id.quote} has unsupported display_model {image.displayModel.quote}"
  require (validChannel image.channel) s!"invalid channel {(channelText image.channel).quote}"
  require (image.profileId = "" || idPattern image.profileId) "invalid profile_id"
  require (image.channel = .compatibility || image.profileId ≠ "")
    "candidate/stable image requires profile_id binding"
  match image.provider with
  | .other text => .error s!"unsupported provider {text.quote}"
  | _ => pure ()
  require (executionZonePattern (executionZone image.executionZone))
    s!"invalid execution_zone {image.executionZone.quote}"
  require (image.buildMode = "native-gentoo") s!"unsupported build mode {image.buildMode.quote}"

def validateImageDigests (image : ImageManifest) : Except String Unit := do
  validateDigest image.digest
  validateDigest image.rootfsManifestDigest
  validateDigest image.packageSetCatalogDigest

def validateImagePackageSets (image : ImageManifest) : Except String Unit := do
  require (image.packageSetIds.isEmpty = (image.packageSetCatalogDigest = "" : Bool))
    "package sets and package-set catalog digest must be provided together"
  image.packageSetIds.forM fun id => require (idPattern id) s!"invalid package set ID {id.quote}"
  require (decide image.packageSetIds.Nodup) "duplicate package set ID"

def validateImage (image : ImageManifest) : Except String Unit := do
  validateImageIdentity image
  validateImageDigests image
  validateImagePackageSets image
  require (image.channel ≠ .stable || (image.template ≠ "" && image.digest ≠ ""))
    "stable image requires template and digest"

def validateMirrorBundle (bundle : MirrorBundle) : Except String Unit := do
  require (idPattern bundle.id && validChannel bundle.channel) "invalid ID or channel"
  validateDigest bundle.digest
  require (bundle.channel ≠ .stable || (bundle.digest ≠ "" && bundle.createdAt.isSome &&
      bundle.freshUntil.isSome && bundle.advisoryWatermark ≠ ""))
    "stable mirror bundle requires digest, freshness window, and advisory watermark"
  require (match bundle.createdAt, bundle.freshUntil with
    | some created, some fresh => created ≤ fresh
    | _, _ => true) "fresh_until precedes created_at"

end PortageEngine.BuildCatalog
