import PortageEngine.Catalog.Egress

/-!
# Catalog validation and resolution

`Catalog.validate` composes the checks of the parts in the order of the source and returns the
catalog as they leave it.  `Catalog.resolveAt` turns the identifiers of a build request into a
server-owned build context.
-/

namespace PortageEngine.BuildCatalog

open Library Library.Decimal

section Validation

variable (ext : Externals)

def isFullCommit (revision : String) : Bool :=
  revision.utf8ByteSize = 40 || revision.utf8ByteSize = 64

/-- The scheme rules for a repository's sync address. -/
def validateSyncUri (r : RepositoryDefinition) : Except String Unit :=
  match ext.parseUrl r.syncUri with
  | none => .error "invalid sync URI"
  | some u => do
    require (u.fragment = "" && u.rawQuery = "" && !u.hasUser) "invalid sync URI"
    if u.scheme = "https" then
      require (u.host ≠ "") "sync URI requires a host"
      require (r.syncType ≠ "rsync") "rsync repository requires rsync://"
    else if u.scheme = "http" then
      require (u.host ≠ "" && r.syncType = "git" && isFullCommit r.revision && r.digest ≠ "")
        "HTTP git mirror requires host, full revision, and snapshot digest"
    else if u.scheme = "rsync" then
      require (u.host ≠ "") "sync URI requires a host"
      require (r.syncType = "rsync") "rsync:// requires rsync sync_type"
    else
      .error s!"unsupported sync URI scheme {u.scheme.quote}"
    require (r.syncType ≠ "") "sync_type is required with sync_uri"

/-- `validateRepository`, with the default location filled in. -/
def validateRepository (r : RepositoryDefinition) : Except String RepositoryDefinition := do
  require (idPattern r.id && repoNameRegex r.name) "invalid ID or name"
  let expected := "/var/db/repos/" ++ r.name
  let location := if r.location = "" then expected else r.location
  require (ext.cleanPath location = expected) s!"location must be {expected.quote}"
  require (validChannel r.channel) s!"invalid channel {(channelText r.channel).quote}"
  require (["", "git", "rsync", "webrsync"].contains r.syncType)
    s!"unsupported sync type {r.syncType.quote}"
  require (r.syncUri ≠ "" || r.syncType = "") "sync_uri is required with sync_type"
  if r.syncUri ≠ "" then validateSyncUri ext r
  require (r.revision = "" || revisionRegex r.revision)
    "revision must be a 7..64 character hexadecimal commit"
  validateDigest r.digest
  require (r.channel ≠ .stable || r.syncType = "git")
    "stable repositories must use git until snapshot digest verification is implemented"
  require (r.channel ≠ .stable || isFullCommit r.revision)
    "stable git repository requires a full 40- or 64-character commit"
  return { r with location := location }

def validateBinhostPath (value arch : String) : Except String Unit := do
  require (value ≠ "" && !"/".toList.isPrefixOf value.toList && !value.toList.contains '\\' &&
      ext.cleanPath value = value) s!"invalid binhost_path {value.quote}"
  match (value.toList.splitOn '/').map String.ofList with
  | [releases, a, binpackages, generation, target] => do
    require (releases = "releases" && a = arch && binpackages = "binpackages")
      s!"binhost_path must be releases/{arch}/binpackages/<profile-generation>/<target>"
    require (binhostPart a && binhostPart generation && binhostPart target)
      "binhost_path contains an invalid component"
  | _ => .error s!"binhost_path must be releases/{arch}/binpackages/<profile-generation>/<target>"

def validateRequiredFeatures (features : List String) (channel : Channel) :
    Except String Unit := do
  require (channel = .compatibility || !features.isEmpty)
    "candidate/stable profile requires required_features"
  features.forM fun feature =>
    require (repoNameRegex feature) s!"invalid required Portage feature {feature.quote}"
  require (decide (features.IsChain (· < ·))) "required_features must be sorted and unique"

def validateProfileBindings (c : Catalog) (p : ProfileDefinition) : Except String Unit :=
  match c.image? p.imageId with
  | none => .error s!"unknown image {p.imageId.quote}"
  | some image => do
    require (image.arch = p.arch) s!"image {p.imageId.quote} architecture does not match"
    require (image.profileId = p.id) s!"image {p.imageId.quote} is not bound to this profile"
    require (image.channel = p.channel)
      s!"image {p.imageId.quote} channel does not match profile channel"
    match c.mirrorBundle? p.mirrorBundleId with
    | none => .error s!"unknown mirror bundle {p.mirrorBundleId.quote}"
    | some bundle =>
      require (bundle.channel = p.channel)
        s!"mirror bundle {p.mirrorBundleId.quote} channel does not match profile channel"

/-- The loop over a profile's repositories; `seen` holds the names met so far. -/
def validateProfileRepositoryIds (c : Catalog) (p : ProfileDefinition) :
    List String → List String → Except String Unit
  | _, [] => .ok ()
  | seen, id :: rest =>
    match c.repository? id with
    | none => .error s!"unknown repository {id.quote}"
    | some repository => do
      require (repository.channel = p.channel)
        s!"repository {id.quote} channel does not match profile channel"
      require (!seen.contains repository.name)
        s!"profile selects multiple revisions of repository {repository.name.quote}"
      validateProfileRepositoryIds c p (repository.name :: seen) rest

def validateProfileRepositories (c : Catalog) (p : ProfileDefinition) : Except String Unit := do
  validateProfileRepositoryIds c p [] p.repositoryIds
  match c.repository? p.profileRepositoryId with
  | none => .error "profile_repository_id must name an allowed repository"
  | some repository => do
    require (p.repositoryIds.contains p.profileRepositoryId)
      "profile_repository_id must name an allowed repository"
    require (p.channel = .compatibility ||
        (repository.syncType = "git" && isFullCommit repository.revision))
      "profile repository requires a full immutable git commit"
    require (repository.name = "gentoo" || p.channel = .compatibility || !p.parents.isEmpty)
      "external profile requires an explicit parent chain"

/-- The loop over a profile's parents; `seen` holds the keys met so far. -/
def validateProfileParents (c : Catalog) (p : ProfileDefinition) :
    List String → List ProfileParentDefinition → Except String Unit
  | _, [] => .ok ()
  | seen, parent :: rest => do
    require (idPattern parent.repositoryId && idPattern parent.profilePath &&
        !"/".toList.isPrefixOf parent.profilePath.toList) "invalid parent profile"
    let refusal := s!"parent repository {parent.repositoryId.quote} is not allowed by the profile"
    match c.repository? parent.repositoryId with
    | none => .error refusal
    | some repository => do
      require (p.repositoryIds.contains parent.repositoryId) refusal
      require (p.channel = .compatibility ||
          (repository.syncType = "git" && isFullCommit repository.revision))
        s!"parent repository {parent.repositoryId.quote} requires a full immutable git commit"
      let key := parent.repositoryId ++ ":" ++ parent.profilePath
      require (!seen.contains key) s!"duplicate parent profile {key.quote}"
      validateProfileParents c p (key :: seen) rest

def validateProfileEgress (c : Catalog) (p : ProfileDefinition) : Except String Unit :=
  match c.egress? p.egressPolicyId with
  | none => .error s!"unknown egress policy {p.egressPolicyId.quote}"
  | some policy => do
    require (policy.channel = p.channel)
      s!"egress policy {p.egressPolicyId.quote} channel does not match profile channel"
    if policy.mode = .enforce then
      p.repositoryIds.forM fun id =>
        match c.repository? id with
        | none => pure ()
        | some repository =>
          if repository.syncUri = "" then pure ()
          else policy.coversUrl ext repository.syncUri ("repository " ++ repository.id)

def validateProfile (c : Catalog) (p : ProfileDefinition) : Except String Unit := do
  require (idPattern p.id && idPattern p.profilePath) "invalid ID or profile_path"
  require (p.arch ≠ "" && !p.arch.toList.contains '/' && !p.arch.toList.contains '\\')
    s!"invalid architecture {p.arch.quote}"
  validateBinhostPath ext p.binhostPath p.arch
  require (validChannel p.channel) s!"invalid channel {(channelText p.channel).quote}"
  validateRequiredFeatures p.requiredFeatures p.channel
  validateProfileBindings c p
  validateProfileRepositories c p
  validateProfileParents c p [] p.parents
  require (p.defaultResourceClass = "" || (c.resource? p.defaultResourceClass).isSome)
    s!"unknown resource class {p.defaultResourceClass.quote}"
  validateProfileEgress ext c p
  p.legacyProfiles.forM fun legacy =>
    require (idPattern legacy) s!"invalid legacy profile {legacy.quote}"

/-- Check the entries of a list, whose IDs must be distinct, and keep what the check makes of them.
`describe` is the noun of the error texts. -/
def validateEach {α : Type} (describe : String) (id : α → String) (check : α → Except String α)
    (entries : List α) : Except String (List α) :=
  mapDistinct id (fun a => (check a).mapError fun e => s!"{describe} {(id a).quote}: {e}")
    (fun a => s!"duplicate {describe} ID {(id a).quote}") [] entries

/-- A check that leaves the entry as it is. -/
def kept {α : Type} (check : α → Except String Unit) (a : α) : Except String α :=
  (fun _ => a) <$> check a

def validateResourceClasses : List String → List ResourceClass → Except String Unit
  | _, [] => .ok ()
  | seen, cls :: rest => do
    validateResourceClass seen cls
    validateResourceClasses (cls.id :: seen) rest

/-- `Catalog.Validate`, with the catalog as it leaves it. -/
def Catalog.validate (c : Catalog) : Except String Catalog := do
  require (1 ≤ c.version) "catalog version must be positive"
  require (!c.profiles.isEmpty && !c.images.isEmpty && !c.mirrorBundles.isEmpty)
    "catalog requires profiles, images, and mirror_bundles"
  let repositories ← validateEach "repository" (·.id) (validateRepository ext) c.repositories
  let _ ← validateEach "image" (·.id) (kept validateImage) c.images
  let _ ← validateEach "mirror bundle" (·.id) (kept validateMirrorBundle) c.mirrorBundles
  validateResourceClasses [] c.resourceClasses
  let policies ← validateEach "egress policy" (·.id) EgressPolicy.validate c.egressPolicies
  let c := { c with repositories := repositories, egressPolicies := policies }
  let _ ← validateEach "profile" (·.id) (kept (validateProfile ext c)) c.profiles
  require (decide (c.profiles.map (·.binhostPath)).Nodup) "binhost path is shared by profiles"
  require (decide (c.profiles.flatMap (·.legacyProfiles)).Nodup)
    "legacy profile maps to more than one profile"
  require ((c.profiles.filter (·.isDefault)).length ≤ 1) "multiple default profiles"
  require ((c.profiles.filter (·.isDefault)).length = 1)
    "catalog requires exactly one default profile"
  return c

end Validation

/-! ## Resolution -/

structure ResolveRequest where
  profileId : String
  legacyProfile : String
  arch : String
  repositoryIds : List String
  resourceClass : String
  cloudProvider : Option Provider

structure ResolvedProfileParent where
  repositoryId : String
  repositoryName : String
  profilePath : String
  deriving DecidableEq

/-- The context stored on the job.  A resolved repository is the catalog's own definition. -/
structure ResolvedBuildContext where
  catalogVersion : Int
  profileId : String
  profilePath : String
  binhostPath : String
  profileRepositoryId : String
  profileRepositoryName : String
  profileParents : List ResolvedProfileParent
  profileChannel : Channel
  arch : String
  provider : Provider
  executionZone : String
  buildMode : String
  image : ImageManifest
  template : String
  mirrorBundle : MirrorBundle
  resourceClass : String
  requiredFeatures : List String
  machineSpec : StringMap
  maxRuntimeMinutes : Int
  cloudCostMicrounitsPerMinute : Int
  egressPolicy : EgressPolicy
  egressPolicyDigest : String
  repositories : List RepositoryDefinition
  resolvedAt : Nat
  deriving DecidableEq

/-- Why a request is not resolved.  `nilEntry` is the panic of a lookup that finds no entry. -/
inductive ResolveError
  | nilEntry
  | refused (text : String)

def ResolveError.text : ResolveError → String
  | .nilEntry => "runtime error: invalid memory address or nil pointer dereference"
  | .refused text => text

/-- Use what a lookup found. -/
def entry {α : Type} (found : Option α) : Except ResolveError α :=
  found.elim (.error .nilEntry) .ok

def Catalog.resolveProfile (c : Catalog) (id legacy : String) :
    Except ResolveError ProfileDefinition :=
  if id ≠ "" then
    match c.profile? id with
    | none => .error (.refused s!"profile ID {id.quote} is not registered")
    | some p =>
      if legacy ≠ "" && legacy ≠ p.profilePath && !p.legacyProfiles.contains legacy then
        .error (.refused s!"legacy profile {legacy.quote} does not match profile ID {id.quote}")
      else .ok p
  else if legacy ≠ "" then
    match c.profileByLegacy? legacy with
    | none => .error (.refused s!"legacy profile {legacy.quote} is not registered")
    | some p => .ok p
  else entry (c.profiles.find? (·.isDefault))

/-- The loop over the allowed repositories; `found` is the one of the requested name so far. -/
def Catalog.namedRepository (c : Catalog) (p : ProfileDefinition) (requested : String) :
    String → List String → Except ResolveError String
  | found, [] => .ok found
  | found, id :: rest => do
    let r ← entry (c.repository? id)
    if r.name = requested then
      require (found = "")
        (.refused s!"repository name {requested.quote} is ambiguous for profile {p.id.quote}")
      c.namedRepository p requested id rest
    else c.namedRepository p requested found rest

/-- The repository a request names: an allowed ID, or the name of exactly one allowed ID. -/
def Catalog.resolveRepository (c : Catalog) (p : ProfileDefinition) (requested : String) :
    Except ResolveError String :=
  if p.repositoryIds.contains requested then .ok requested
  else do
    let id ← c.namedRepository p requested "" p.repositoryIds
    require (id ≠ "")
      (.refused s!"repository {requested.quote} is not allowed by profile {p.id.quote}")
    return id

def uniqueSorted (values : List String) : List String :=
  (values.filter (· ≠ "")).dedup.insertionSort (· ≤ ·)

/-- The resource class a request names, or else the default of its profile. -/
def selectedResourceClass (p : ProfileDefinition) (requested : String) : String :=
  if trimSpace requested = "" then p.defaultResourceClass else trimSpace requested

/-- The selected resource class, with the machine specification, the runtime limit and the cost
rate it stands for. -/
def Catalog.resolveResources (c : Catalog) (p : ProfileDefinition) (requested : String) :
    Except ResolveError (String × StringMap × Int × Int) :=
  if selectedResourceClass p requested = "" then .ok ("", ∅, 0, 0)
  else
    match c.resource? (selectedResourceClass p requested) with
    | none => .error (.refused
        s!"resource class {(selectedResourceClass p requested).quote} is not registered")
    | some cls =>
      .ok (selectedResourceClass p requested, cls.machineSpec, cls.maxRuntimeMinutes,
        cls.cloudCostMicrounitsPerMinute)

/-- A repository of the context; only an allowed one that is registered gets there. -/
def Catalog.authorizeRepository (c : Catalog) (p : ProfileDefinition) (id : String) :
    Except ResolveError RepositoryDefinition := do
  require (p.repositoryIds.contains id)
    (.refused s!"repository {id.quote} is not allowed by profile {p.id.quote}")
  (c.repository? id).elim (.error (.refused s!"repository {id.quote} is not registered")) .ok

def Catalog.resolveParent (c : Catalog) (parent : ProfileParentDefinition) :
    Except ResolveError ResolvedProfileParent := do
  let r ← entry (c.repository? parent.repositoryId)
  return { repositoryId := r.id, repositoryName := r.name, profilePath := parent.profilePath }

def Catalog.resolveAt (ext : Externals) (c : Catalog) (req : ResolveRequest) (now : Nat) :
    Except ResolveError ResolvedBuildContext := do
  let p ← c.resolveProfile req.profileId req.legacyProfile
  require (p.channel = .stable || p.channel = .compatibility)
    (.refused s!"profile {p.id.quote} is not published on the stable channel")
  require (req.arch = "" || req.arch = p.arch) (.refused
    s!"architecture {req.arch.quote} does not match profile {p.id.quote} architecture {p.arch.quote}")
  let image ← entry (c.image? p.imageId)
  require (req.cloudProvider = none || req.cloudProvider = some image.provider) (.refused
    s!"provider does not match profile {p.id.quote} provider {(providerText image.provider).quote}")
  let bundle ← entry (c.mirrorBundle? p.mirrorBundleId)
  require (p.channel = .compatibility || (match bundle.freshUntil with
    | none => false
    | some fresh => now < fresh)) (.refused s!"mirror bundle {bundle.id.quote} is stale")
  let profileRepository ← entry (c.repository? p.profileRepositoryId)
  let parents ← p.parents.mapM c.resolveParent
  let requested ← req.repositoryIds.mapM (c.resolveRepository p)
  let repositories ←
    (uniqueSorted (p.repositoryIds ++ requested)).mapM (c.authorizeRepository p)
  let (resourceClass, machineSpec, minutes, rate) ← c.resolveResources p req.resourceClass
  let policy ← entry (c.egress? p.egressPolicyId)
  let (policy, digest) ← (policy.digest ext.policyHash).mapError fun e =>
    .refused s!"egress policy {policy.id.quote}: {e}"
  return {
    catalogVersion := c.version
    profileId := p.id
    profilePath := p.profilePath
    binhostPath := p.binhostPath
    profileRepositoryId := profileRepository.id
    profileRepositoryName := profileRepository.name
    profileParents := parents
    profileChannel := p.channel
    arch := p.arch
    provider := image.provider
    executionZone := executionZone image.executionZone
    buildMode := image.buildMode
    image := image
    template := image.template
    mirrorBundle := bundle
    resourceClass := resourceClass
    requiredFeatures := p.requiredFeatures
    machineSpec := machineSpec
    maxRuntimeMinutes := minutes
    cloudCostMicrounitsPerMinute := rate
    egressPolicy := policy
    egressPolicyDigest := digest
    repositories := repositories
    resolvedAt := now }

/-! ## The built-in catalog -/

structure CompatibilityOptions where
  provider : String := ""
  template : String := ""
  gentooSyncType : String := ""
  gentooSyncUri : String := ""

def parseProvider (text : String) : Provider :=
  if text = "pve" then .pve else if text = "gcp" then .gcp else if text = "aws" then .aws
  else .other text

/-- The sync type of the built-in repository: none without an address, guessed from the address if
the operator gave no type. -/
def compatibilitySyncType (opts : CompatibilityOptions) : String :=
  let syncUri := trimSpace opts.gentooSyncUri
  if syncUri = "" then ""
  else if trimSpace opts.gentooSyncType ≠ "" then trimSpace opts.gentooSyncType
  else if "rsync://".toList.isPrefixOf syncUri.toList then "rsync"
  else "git"

def mediumClass : ResourceClass where
  id := "medium"
  machineSpec := [⟨"cores", "4"⟩, ⟨"memory", "8192"⟩, ⟨"disk_size", "50"⟩].toAList
  maxRuntimeMinutes := 60
  cloudCostMicrounitsPerMinute := 1000

/-- `catalog.NewCompatibility`, for deployments without a catalog file. -/
def newCompatibility (opts : CompatibilityOptions) : Catalog where
  version := 1
  profiles := [{
    id := "compat/amd64/default"
    arch := "amd64"
    profilePath := "default/linux/amd64/23.0"
    binhostPath := "releases/amd64/binpackages/23.0/x86-64"
    profileRepositoryId := "gentoo"
    legacyProfiles := ["default/linux/amd64/23.0"]
    repositoryIds := ["gentoo"]
    imageId := "compat/current-image"
    mirrorBundleId := "compat/current-mirrors"
    defaultResourceClass := "medium"
    egressPolicyId := "compat/unrestricted"
    isDefault := true
    channel := .compatibility }]
  repositories := [{
    id := "gentoo"
    name := "gentoo"
    location := "/var/db/repos/gentoo"
    syncType := compatibilitySyncType opts
    syncUri := trimSpace opts.gentooSyncUri
    channel := .compatibility }]
  images := [{
    id := "compat/current-image"
    profileId := "compat/amd64/default"
    generation := "current"
    provider :=
      if trimSpace opts.provider = "" then .pve else parseProvider (trimSpace opts.provider)
    arch := "amd64"
    buildMode := "native-gentoo"
    template := trimSpace opts.template
    rootfsSource := "existing-template"
    channel := .compatibility }]
  mirrorBundles := [{ id := "compat/current-mirrors", channel := .compatibility }]
  resourceClasses := [mediumClass]
  egressPolicies := [{ id := "compat/unrestricted", mode := .disabled, channel := .compatibility }]

end PortageEngine.BuildCatalog
