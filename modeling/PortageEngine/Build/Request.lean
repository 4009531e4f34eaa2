import PortageEngine.Catalog.Resolve

/-!
# Build requests: submission, resolution and accounting units

A client submits a `BuildRequest`; `submitBuild` validates it, resolves it against the catalog and
checks it against the project's limits before a job is created.  What the ledger later charges for
the job is `resourceVectorFromRequest` and `runtimeBudgetSpecFromRequest` of the stored request.
-/

namespace PortageEngine.Build

open Library Library.Decimal BuildCatalog

/-- A repository named by the client's configuration bundle. -/
structure RepoConfig where
  registryId : String
  name : String
  deriving DecidableEq

/-- The part of a configuration bundle that selects the build environment. -/
structure ConfigBundle where
  profileId : String
  profile : String
  repos : List RepoConfig
  deriving DecidableEq

structure BuildRequest where
  packageName : String
  version : String := ""
  arch : String := ""
  profileId : String := ""
  repositoryIds : List String := []
  resourceClass : String := ""
  cloudProvider : Option Provider := none
  machineSpec : StringMap := ∅
  configBundle : Option ConfigBundle := none
  resolvedContext : Option ResolvedBuildContext := none
  deriving DecidableEq

/-! ## Validation of the machine specification -/

def machineValuePattern (s : String) : Bool :=
  match s.toList with
  | [] => false
  | c :: cs => c.isAlphanum && cs.all fun d => d.isAlphanum || "._-".toList.contains d

def validateBoundedInt (value : String) (minValue maxValue : Int) (key : String) :
    Except String Unit :=
  validateBoundedInteger value minValue maxValue key

/-- One entry of the machine specification a client may send. -/
def validateRequestEntry (key value : String) : Except String Unit :=
  if key = "cores" then validateBoundedInt value 1 128 key
  else if key = "memory" then validateBoundedInt value 512 1048576 key
  else if key = "disk_size" then validateBoundedInt value 10 4096 key
  else if key = "machine_type" || key = "instance_type" then
    require (value ≠ "" && value.utf8ByteSize ≤ 128 && machineValuePattern value)
      s!"invalid machine spec {key}"
  else if key = "preemptible" then
    require (value = "true" || value = "false") "invalid machine spec preemptible"
  else .error s!"machine spec key {key.quote} is operator-owned or unsupported"

def validateRequestMachineSpec (spec : StringMap) : Except String Unit := do
  require (spec.entries.length ≤ 8) "too many machine spec entries"
  spec.entries.forM fun entry => validateRequestEntry entry.1 entry.2

/-! ## Resolution -/

/-- The identifiers a request and its bundle hand to the catalog. -/
def resolveRequestOf (req : BuildRequest) : ResolveRequest :=
  let bundleIds := match req.configBundle with
    | none => []
    | some bundle => (bundle.repos.map fun repo =>
      if trimSpace repo.registryId ≠ "" then trimSpace repo.registryId
      else trimSpace repo.name).filter (· ≠ "")
  { profileId := match req.configBundle with
      | none => trimSpace req.profileId
      | some bundle =>
        if trimSpace req.profileId = "" then trimSpace bundle.profileId
        else trimSpace req.profileId
    legacyProfile := (req.configBundle.map fun bundle => trimSpace bundle.profile).getD ""
    arch := req.arch
    repositoryIds := req.repositoryIds ++ bundleIds
    resourceClass := req.resourceClass
    cloudProvider := req.cloudProvider }

/-- `Manager.resolveBuildRequest`; `pveTemplate` is the dashboard-managed template.  The bundle the
source rewrites from the resolved context is not read again by the functions modelled here. -/
def resolveBuildRequest (ext : Externals) (c : Catalog) (pveTemplate : String) (now : Nat)
    (req : BuildRequest) : Except String BuildRequest := do
  let resolved ← (c.resolveAt ext (resolveRequestOf req) now).mapError ResolveError.text
  require (req.machineSpec.entries.isEmpty || resolved.profileChannel = .compatibility)
    "machine_spec overrides are disabled for catalog profiles; select a resource_class"
  let template :=
    if resolved.template = "" && resolved.image.channel = .compatibility then pveTemplate
    else resolved.template
  -- Request values win over those of the resource class.
  let machineSpec := req.machineSpec ∪ resolved.machineSpec
  return { req with
    profileId := resolved.profileId
    repositoryIds := resolved.repositories.map (·.id)
    resourceClass := resolved.resourceClass
    arch := resolved.arch
    cloudProvider := some resolved.provider
    machineSpec := machineSpec
    resolvedContext := some { resolved with template := template, machineSpec := machineSpec } }

/-! ## Accounting units -/

structure ResourceVector where
  vcpus : Int
  memoryMiB : Int
  diskGiB : Int

def legacyResources : ResourceVector :=
  { vcpus := 4, memoryMiB := 8192, diskGiB := 50 }

/-- The machine specification that accounting reads. -/
def accountedSpec (req : BuildRequest) : StringMap :=
  if req.machineSpec.entries.isEmpty then
    match req.resolvedContext with
    | none => req.machineSpec
    | some context => context.machineSpec
  else req.machineSpec

/-- A positive integer entry of the machine specification. -/
def parseResource (resourceClass : String) (spec : StringMap) (key : String) :
    Except String Int :=
  match atoi (trimSpace ((spec.lookup key).getD "")) with
  | some value =>
    if 0 < value then .ok value
    else .error s!"resource class {resourceClass.quote} has invalid or missing {key}"
  | none => .error s!"resource class {resourceClass.quote} has invalid or missing {key}"

def resourceVectorFromRequest (req : BuildRequest) : Except String ResourceVector := do
  let spec := accountedSpec req
  if spec.entries.isEmpty && req.resourceClass = "" then return legacyResources
  let vcpus ← parseResource req.resourceClass spec "cores"
  let memoryMiB ← parseResource req.resourceClass spec "memory"
  let diskGiB ← parseResource req.resourceClass spec "disk_size"
  return { vcpus := vcpus, memoryMiB := memoryMiB, diskGiB := diskGiB }

structure RuntimeBudgetSpec where
  maxRuntimeSeconds : Int
  cloudCostMicrounitsPerMinute : Int
  reservedCloudCostMicrounits : Int
  deriving DecidableEq

def legacyMaxRuntimeMinutes : Int := 60

def legacyCloudCostMicrounitsPerMinute : Int := 1000

def runtimeBudgetSpecFromRequest (req : BuildRequest) : Except String RuntimeBudgetSpec := do
  let (minutes, rate) := match req.resolvedContext with
    | none => (legacyMaxRuntimeMinutes, legacyCloudCostMicrounitsPerMinute)
    | some context =>
      -- Contexts resolved before runtime accounting have neither field.
      if context.maxRuntimeMinutes ≠ 0 || context.cloudCostMicrounitsPerMinute ≠ 0 then
        (context.maxRuntimeMinutes, context.cloudCostMicrounitsPerMinute)
      else (legacyMaxRuntimeMinutes, legacyCloudCostMicrounitsPerMinute)
  require (req.resolvedContext.isNone || (0 < minutes && 0 < rate))
    s!"resource class {req.resourceClass.quote} has no positive runtime/cost accounting contract"
  require (0 < minutes && minutes ≤ 1440 && 0 < rate && rate ≤ 1000000000000)
    "runtime/cost accounting contract is outside supported bounds"
  require (rate ≤ (2 ^ 63 - 1) / minutes) "runtime/cost accounting contract overflows"
  return {
    maxRuntimeSeconds := minutes * 60
    cloudCostMicrounitsPerMinute := rate
    reservedCloudCostMicrounits := minutes * rate }

/-! ## Submission -/

/-- The limits of the project policy that a single request is compared with. -/
structure RequestLimits where
  maxVCPUs : Int
  maxMemoryMiB : Int
  maxDiskGiB : Int

def checkResourceRequestLimits (req : BuildRequest) (limits : RequestLimits) :
    Except String Unit := do
  let resources ← resourceVectorFromRequest req
  require (resources.vcpus ≤ limits.maxVCPUs)
    s!"build requests {resources.vcpus} vCPUs but project limit is {limits.maxVCPUs}"
  require (resources.memoryMiB ≤ limits.maxMemoryMiB)
    s!"build requests {resources.memoryMiB} MiB memory but project limit is {limits.maxMemoryMiB} MiB"
  require (resources.diskGiB ≤ limits.maxDiskGiB)
    s!"build requests {resources.diskGiB} GiB disk but project limit is {limits.maxDiskGiB} GiB"

/-- The path of `Manager.SubmitBuild` up to the admission of the job: the request as it is stored.
`otherChecks` stands for the checks of the package, its version and the bundle. -/
def submitBuild (ext : Externals) (c : Catalog) (pveTemplate : String) (now : Nat)
    (otherChecks : BuildRequest → Except String Unit) (limits : RequestLimits)
    (req : BuildRequest) : Except String BuildRequest := do
  otherChecks req
  require (req.resourceClass = "" || idPattern req.resourceClass)
    s!"invalid resource class {req.resourceClass.quote}"
  validateRequestMachineSpec req.machineSpec
  let stored ← resolveBuildRequest ext c pveTemplate now req
  checkResourceRequestLimits stored limits
  return stored

end PortageEngine.Build
